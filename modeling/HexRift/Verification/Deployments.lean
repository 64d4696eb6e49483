import HexRift.Library.Origins
import HexRift.Verification.Fleet
import HexRift.Verification.LinkEnds
import HexRift.Verification.Sharing

/-! # Configs built at different times

Keys are generated, nodes and portals built and URLs handed out in any order, so the two ends of a
link may have been rendered from different stores. They still fit together as long as no forced
call has given the node that is dialled other keys in between. -/

namespace HexRift

open Checks Origins Writes

variable {cfg : ConglomerateConfig} {crypto : Crypto} {store : KeyStore} {p : Placed}
  {log commands : List Command}

/-! ## Runs -/

/-- The directories after a log of commands, from empty ones. -/
def Workspace.after (crypto : Crypto) (cfg : ConglomerateConfig) (log : List Command) :
    Workspace :=
  Origins.run (Workspace.step crypto cfg) Workspace.empty log

def Command.keyCall? : Command → Option KeyCall
  | .genKeys call => some call
  | .buildNodes .. => none
  | .genPortals .. => none

theorem after_append_singleton (log : List Command) (command : Command) :
    Workspace.after crypto cfg (log ++ [command]) =
      (Workspace.after crypto cfg log).step crypto cfg command :=
  run_append_singleton ..

/-- Only the calls of the key generation tell in the keys directory. -/
theorem after_store (crypto : Crypto) (cfg : ConglomerateConfig) (log : List Command) :
    (Workspace.after crypto cfg log).store = keyRun cfg (log.filterMap Command.keyCall?) := by
  induction log using List.reverseRecOn with
  | nil => rfl
  | append_singleton log command ih =>
      rw [after_append_singleton, List.filterMap_append, keyRun, List.foldl_append]
      cases command with
      | genKeys call => exact congrArg (call.run cfg) ih
      | buildNodes xray haproxy nodeIds => exact ih
      | genPortals fingerprint portalIds => exact ih

/-! ## Keys that stay -/

/-- No forced call among the commands concerns the keys of the node. -/
def KeysStay (cfg : ConglomerateConfig) (nodeId : String) (commands : List Command) : Prop :=
  ∀ call, Command.genKeys call ∈ commands → call.concerns cfg nodeId = true → call.force = false

/-- Whichever of two logs is the longer, what it has more leaves the keys of the node. -/
def KeysStayBetween (cfg : ConglomerateConfig) (nodeId : String) (log log' : List Command) : Prop :=
  ∀ commands, log' = log ++ commands ∨ log = log' ++ commands → KeysStay cfg nodeId commands

theorem keysOf_append_of_stay {calls more : List KeyCall}
    (hstay : ∀ call ∈ more, call.concerns cfg p.node.id.val = true → call.force = false)
    (hequipped : calls.any (KeyCall.equips cfg p.node.id.val) = true) :
    keysOf cfg p (calls ++ more) = keysOf cfg p calls := by
  induction more using List.reverseRecOn with
  | nil => rw [List.append_nil]
  | append_singleton more call ih =>
      have hmore := ih fun c hc => hstay c (List.mem_append_left _ hc)
      have hstill : (calls ++ more).any (KeyCall.equips cfg p.node.id.val) = true := by
        rw [List.any_append, hequipped, Bool.true_or]
      rw [← List.append_assoc, ← hmore]
      cases hmine : call.concerns cfg p.node.id.val with
      | false => exact keysOf_append_of_not_concerns hmine
      | true =>
          have hplain := hstay call (List.mem_append_right _ (List.mem_singleton_self _)) hmine
          exact keysOf_append_of_kept hplain hmine fun _ => hstill

theorem KeysStay.stored (h : Accepted cfg) (hp : p ∈ cfg.placed)
    (hstay : KeysStay cfg p.node.id.val commands) {keys : NodeKeys}
    (hkeys : (Workspace.after crypto cfg log).store p.node.id.val = some keys) :
    (Workspace.after crypto cfg (log ++ commands)).store p.node.id.val = some keys := by
  have hlogged := fun calls => keysLogged_keyRun h calls p hp
  rw [after_store, hlogged] at hkeys ⊢
  rw [List.filterMap_append, keysOf_append_of_stay, hkeys]
  · intro call hcall
    obtain ⟨command, hcommand, hcall⟩ := List.mem_filterMap.mp hcall
    cases command with
    | genKeys other =>
        cases hcall
        exact hstay _ hcommand
    | buildNodes xray haproxy nodeIds => cases hcall
    | genPortals fingerprint portalIds => cases hcall
  · by_contra hnone
    rw [keysOf, if_neg hnone] at hkeys
    cases hkeys

/-- Two parts of one log between which the keys stay find the same keys. -/
theorem KeysStayBetween.stored_eq (h : Accepted cfg) (hp : p ∈ cfg.placed)
    {log' whole : List Command} (hearlier : log <+: whole) (hearlier' : log' <+: whole)
    (hstay : KeysStayBetween cfg p.node.id.val log log') {keys keys' : NodeKeys}
    (hkeys : (Workspace.after crypto cfg log).store p.node.id.val = some keys)
    (hkeys' : (Workspace.after crypto cfg log').store p.node.id.val = some keys') :
    keys = keys' := by
  rcases List.prefix_or_prefix_of_prefix hearlier hearlier' with ⟨more, rfl⟩ | ⟨more, rfl⟩
  · have hsame := (hstay more (.inl rfl)).stored h hp hkeys
    exact Option.some.inj (hsame.symm.trans hkeys')
  · have hsame := (hstay more (.inr rfl)).stored h hp hkeys'
    exact Option.some.inj (hkeys.symm.trans hsame)

/-! ## What stands in the output directory -/

def Content.xray? : Content → Option XrayConfig
  | .xray config => some config
  | .haproxy _ => none
  | .portal _ => none

def Content.portal? : Content → Option PortalConfig
  | .portal config => some config
  | .xray _ => none
  | .haproxy _ => none

/-- The `config.json` of a node. -/
def Workspace.nodeConfig (w : Workspace) (nodeId : String) : Option XrayConfig :=
  (w.out (nodeId, configJson)).bind Content.xray?

/-- The `config.json` of a portal. -/
def Workspace.portalConfig (w : Workspace) (portalId : String) : Option PortalConfig :=
  (w.out (portalId, configJson)).bind Content.portal?

/-- What a command writes as the config of a node. -/
def writtenNode (crypto : Crypto) (cfg : ConglomerateConfig) (p : Placed) (w : Workspace) :
    Command → Option XrayConfig
  | .buildNodes xray _ nodeIds =>
      if xray = true ∧ p.node.id.val ∈ nodeIds then (renderNode crypto cfg w.store p).toOption
      else none
  | .genKeys _ => none
  | .genPortals .. => none

def writtenPortal (crypto : Crypto) (cfg : ConglomerateConfig) (portalId : String)
    (w : Workspace) : Command → Option PortalConfig
  | .genPortals fingerprint portalIds =>
      if portalId ∈ portalIds then (genPortal crypto cfg w.store portalId fingerprint).toOption
      else none
  | .genKeys _ => none
  | .buildNodes .. => none

theorem nodeConfig_step (h : Accepted cfg) (hheaders : HeadersChecked cfg) (hp : p ∈ cfg.placed)
    (w : Workspace) (command : Command) :
    (w.step crypto cfg command).nodeConfig p.node.id.val =
      (writtenNode crypto cfg p w command).or (w.nodeConfig p.node.id.val) := by
  cases command with
  | genKeys call => rfl
  | buildNodes xray haproxy nodeIds =>
      have hout : (w.step crypto cfg (.buildNodes xray haproxy nodeIds)).out =
          writeAll (nodeFiles crypto cfg w.store xray haproxy) nodeIds w.out :=
        congrArg BatchRun.out (runBatch_eq (build_eq hheaders) nodeIds w.out)
      rw [Workspace.nodeConfig, hout, writtenNode]
      by_cases hmem : p.node.id.val ∈ nodeIds
      · have hfile : nodeFiles crypto cfg w.store xray haproxy p.node.id.val
            (p.node.id.val, configJson) =
              if xray = true then (renderNode crypto cfg w.store p).toOption.map .xray
              else none := by
          rw [nodeFiles, if_pos rfl, nodeFile?, getNode_placed h hp]
          simp [configJson_ne_haproxyCfg, bind, Except.bind]
        have hcell : writeAll (nodeFiles crypto cfg w.store xray haproxy) nodeIds w.out
            (p.node.id.val, configJson) = _ := writeAll_of_mem nodeFiles_owned hmem _
        rw [hcell, hfile]
        cases xray with
        | false => simp [Workspace.nodeConfig]
        | true =>
            rw [if_pos rfl, if_pos ⟨rfl, hmem⟩]
            cases (renderNode crypto cfg w.store p).toOption <;> rfl
      · have hcell : writeAll (nodeFiles crypto cfg w.store xray haproxy) nodeIds w.out
            (p.node.id.val, configJson) = _ := writeAll_of_not_mem nodeFiles_owned hmem _
        rw [hcell, if_neg fun hboth => hmem hboth.2]
        rfl
  | genPortals fingerprint portalIds =>
      have hout : (w.step crypto cfg (.genPortals fingerprint portalIds)).out =
          writeAll (portalFiles crypto cfg w.store fingerprint) portalIds w.out :=
        congrArg BatchRun.out (runBatch_eq buildPortal_eq portalIds w.out)
      have hcell : writeAll (portalFiles crypto cfg w.store fingerprint) portalIds w.out
          (p.node.id.val, configJson) = w.out (p.node.id.val, configJson) := by
        by_cases hmem : p.node.id.val ∈ portalIds
        · refine (writeAll_of_mem portalFiles_owned hmem _).trans ?_
          rw [portalFiles_none h hp]
          rfl
        · exact writeAll_of_not_mem portalFiles_owned hmem _
      rw [Workspace.nodeConfig, hout, hcell]
      rfl

theorem nodeFiles_portal (h : Accepted cfg) {portalId : String}
    (hid : portalId ∈ cfg.portals.map (·.id.val)) (xray haproxy : Bool) (nodeId name : String) :
    nodeFiles crypto cfg store xray haproxy nodeId (portalId, name) = none := by
  by_contra hsome
  have hself : nodeId = portalId :=
    nodeFiles_owned nodeId _ (Option.isSome_iff_ne_none.mpr hsome)
  rw [nodeFiles, if_pos hself] at hsome
  obtain ⟨hok, -⟩ := nodeFile?_isSome (Option.isSome_iff_ne_none.mpr hsome)
  obtain ⟨q, hq, hnode, -⟩ := (nodeFailure_eq_none_iff h).mp hok
  exact node_ne_portal h hq hid (hself.symm.trans hnode.symm)

theorem portalConfig_step (h : Accepted cfg) (hheaders : HeadersChecked cfg) {portalId : String}
    (hid : portalId ∈ cfg.portals.map (·.id.val)) (w : Workspace) (command : Command) :
    (w.step crypto cfg command).portalConfig portalId =
      (writtenPortal crypto cfg portalId w command).or (w.portalConfig portalId) := by
  cases command with
  | genKeys call => rfl
  | buildNodes xray haproxy nodeIds =>
      have hout : (w.step crypto cfg (.buildNodes xray haproxy nodeIds)).out =
          writeAll (nodeFiles crypto cfg w.store xray haproxy) nodeIds w.out :=
        congrArg BatchRun.out (runBatch_eq (build_eq hheaders) nodeIds w.out)
      have hcell : writeAll (nodeFiles crypto cfg w.store xray haproxy) nodeIds w.out
          (portalId, configJson) = w.out (portalId, configJson) := by
        by_cases hmem : portalId ∈ nodeIds
        · refine (writeAll_of_mem nodeFiles_owned hmem _).trans ?_
          rw [nodeFiles_portal h hid]
          rfl
        · exact writeAll_of_not_mem nodeFiles_owned hmem _
      rw [Workspace.portalConfig, hout, hcell]
      rfl
  | genPortals fingerprint portalIds =>
      have hout : (w.step crypto cfg (.genPortals fingerprint portalIds)).out =
          writeAll (portalFiles crypto cfg w.store fingerprint) portalIds w.out :=
        congrArg BatchRun.out (runBatch_eq buildPortal_eq portalIds w.out)
      rw [Workspace.portalConfig, hout, writtenPortal]
      by_cases hmem : portalId ∈ portalIds
      · have hcell : writeAll (portalFiles crypto cfg w.store fingerprint) portalIds w.out
            (portalId, configJson) = _ := writeAll_of_mem portalFiles_owned hmem _
        rw [hcell, portalFiles, if_pos ⟨rfl, rfl⟩, if_pos hmem]
        cases (genPortal crypto cfg w.store portalId fingerprint).toOption <;> rfl
      · have hcell : writeAll (portalFiles crypto cfg w.store fingerprint) portalIds w.out
            (portalId, configJson) = _ := writeAll_of_not_mem portalFiles_owned hmem _
        rw [hcell, if_neg hmem]
        rfl

/-! ## When a config was built -/

/-- The config of the node was last built behind that part of the log. -/
def NodeBuiltAfter (crypto : Crypto) (cfg : ConglomerateConfig) (p : Placed)
    (built : List Command) (config : XrayConfig) (log : List Command) : Prop :=
  WrittenAfter (Workspace.step crypto cfg) (writtenNode crypto cfg p) Workspace.empty built config
    log

def PortalBuiltAfter (crypto : Crypto) (cfg : ConglomerateConfig) (portalId : String)
    (built : List Command) (config : PortalConfig) (log : List Command) : Prop :=
  WrittenAfter (Workspace.step crypto cfg) (writtenPortal crypto cfg portalId) Workspace.empty built
    config log

theorem nodeConfig_eq_some_iff (h : Accepted cfg) (hheaders : HeadersChecked cfg)
    (hp : p ∈ cfg.placed) {config : XrayConfig} :
    (Workspace.after crypto cfg log).nodeConfig p.node.id.val = some config ↔
      ∃ built, NodeBuiltAfter crypto cfg p built config log :=
  cell_run_eq_some_iff (Workspace.nodeConfig · p.node.id.val) (nodeConfig_step h hheaders hp) rfl

theorem portalConfig_eq_some_iff (h : Accepted cfg) (hheaders : HeadersChecked cfg)
    {portalId : String} (hid : portalId ∈ cfg.portals.map (·.id.val)) {config : PortalConfig} :
    (Workspace.after crypto cfg log).portalConfig portalId = some config ↔
      ∃ built, PortalBuiltAfter crypto cfg portalId built config log :=
  cell_run_eq_some_iff (Workspace.portalConfig · portalId) (portalConfig_step h hheaders hid) rfl

theorem NodeBuiltAfter.rendered {built : List Command} {config : XrayConfig}
    (h : NodeBuiltAfter crypto cfg p built config log) :
    renderNode crypto cfg (Workspace.after crypto cfg built).store p = .ok config := by
  obtain ⟨command, hwrites⟩ := h.written
  cases command with
  | genKeys call => cases hwrites
  | buildNodes xray haproxy nodeIds =>
      rw [writtenNode] at hwrites
      split at hwrites
      · exact toOption_eq_some.mp hwrites
      · cases hwrites
  | genPortals fingerprint portalIds => cases hwrites

theorem PortalBuiltAfter.generated {portalId : String} {built : List Command}
    {config : PortalConfig} (h : PortalBuiltAfter crypto cfg portalId built config log) :
    ∃ fingerprint, genPortal crypto cfg (Workspace.after crypto cfg built).store portalId
      fingerprint = .ok config := by
  obtain ⟨command, hwrites⟩ := h.written
  cases command with
  | genKeys call => cases hwrites
  | buildNodes xray haproxy nodeIds => cases hwrites
  | genPortals fingerprint portalIds =>
      rw [writtenPortal] at hwrites
      split at hwrites
      · exact ⟨fingerprint, toOption_eq_some.mp hwrites⟩
      · cases hwrites

/-! ## Links between configs of different times -/

/-- A hub's VLESS link carries the keys the exit had when the hub was built. -/
theorem LinkOf.vless_keys {hub : HubNode} {q : ExitRegion × ExitNode} {keys : NodeKeys}
    {link : LinkContext} (h : LinkOf crypto cfg hub q keys link) {dial : VlessDial}
    (hdial : link.dial = .vless dial) :
    dial.publicKey = keys.realityPublicKey ∧ dial.encryption = keys.encryption := by
  obtain ⟨uid, pre, hbuild⟩ : ∃ uid pre, buildLink (linkEnv crypto cfg hub q keys) uid pre =
      .ok link := by
    cases h with
    | plain h => exact ⟨_, _, h⟩
    | warp h => exact ⟨_, _, h⟩
  simp only [buildLink, bind_eq_ok, pure_eq_ok] at hbuild
  obtain ⟨built, hbuilt, rfl⟩ := hbuild
  cases hdial
  unfold buildDial at hbuilt
  cases hprotocol : resolveLinkProtocol (linkEnv crypto cfg hub q keys).exitRegion with
  | vless =>
      simp only [hprotocol, map_eq_ok, buildVlessDial, bind_eq_ok, pure_eq_ok] at hbuilt
      obtain ⟨_, ⟨_, -, _, -, _, -, _, -, _, -, rfl⟩, heq⟩ := hbuilt
      cases heq
      exact ⟨rfl, rfl⟩
  | hysteria =>
      simp only [hprotocol, map_eq_ok] at hbuilt
      obtain ⟨_, -, heq⟩ := hbuilt
      cases heq

/-- Whatever was done in whatever order, the configs of a hub and of an exit fit together if the
keys of the exit stay between their builds, and over VLESS they fit only if what the hub dials
with is the same as at the build of the exit. -/
theorem deployed_links_agree (cfg : AcceptedConfig)
    (hheaders : HeadersChecked cfg.toConglomerateConfig)
    (hseeds : crypto.uuid5.SeparatesKeys (hubExitSeeds crypto.uuid5 cfg.toConglomerateConfig))
    {region : HubRegion} {hub : HubNode} (hhub : Placed.hub region hub ∈ cfg.placed)
    {exitRegion : ExitRegion} {exit : ExitNode}
    (hexit : Placed.exit exitRegion exit ∈ cfg.placed) (log : List Command)
    {hubConfig exitConfig : XrayConfig}
    (hhubConfig : (Workspace.after crypto cfg.toConglomerateConfig log).nodeConfig hub.id.val =
      some hubConfig)
    (hexitConfig : (Workspace.after crypto cfg.toConglomerateConfig log).nodeConfig exit.id.val =
      some exitConfig) :
    ∃ built built' keys keys' ctx,
      NodeBuiltAfter crypto cfg.toConglomerateConfig (.hub region hub) built hubConfig log ∧
      NodeBuiltAfter crypto cfg.toConglomerateConfig (.exit exitRegion exit) built' exitConfig
        log ∧
      (Workspace.after crypto cfg.toConglomerateConfig built).store exit.id.val = some keys ∧
      (Workspace.after crypto cfg.toConglomerateConfig built').store exit.id.val = some keys' ∧
      buildExitContext crypto cfg.toConglomerateConfig exitRegion exit keys' = .ok ctx ∧
      exitConfig = buildExitConfig ctx ∧
      ∀ outbound ∈ hubConfig.outbounds, ∀ link, outbound.link = some link →
        link.exitId = exit.id.val → outbound = renderLink link ∧
          (KeysStayBetween cfg.toConglomerateConfig exit.id.val built built' →
            LinkAdmitted crypto.uuid5 cfg.ns hub exit keys' ctx link) ∧
          ∀ dial, link.dial = .vless dial →
            LinkAdmitted crypto.uuid5 cfg.ns hub exit keys' ctx link →
              keys.realityPublicKey = keys'.realityPublicKey ∧
                keys.encryption = keys'.encryption := by
  obtain ⟨built, hbuilt⟩ := (nodeConfig_eq_some_iff cfg.spec hheaders hhub).mp hhubConfig
  obtain ⟨built', hbuilt'⟩ := (nodeConfig_eq_some_iff cfg.spec hheaders hexit).mp hexitConfig
  have hrender : renderHub crypto cfg.toConglomerateConfig
      (Workspace.after crypto cfg.toConglomerateConfig built).store region hub = .ok hubConfig :=
    hbuilt.rendered
  obtain ⟨keys', ctx, hkeys', hctx, hconfig⟩ := renderExit_loaded
    (show renderExit crypto cfg.toConglomerateConfig
      (Workspace.after crypto cfg.toConglomerateConfig built').store exitRegion exit =
        .ok exitConfig from hbuilt'.rendered)
  obtain ⟨hregion, hnode⟩ := mem_placed_exit hexit
  obtain ⟨keys, hkeys, -⟩ := (ready_of_renderHub hrender).2.1 exitRegion
    (mem_exitRegions.mpr hregion) exit hnode
  refine ⟨built, built', keys, keys', ctx, hbuilt, hbuilt', hkeys, hkeys', hctx, hconfig, ?_⟩
  intro outbound houtbound link hlink hid
  obtain ⟨q, hq, dialled, hdialled, hlinkOf⟩ := linkOf_of_renderHub hrender houtbound hlink
  have hself : q = (exitRegion, exit) :=
    cfg.spec.exitNode_eq hq (mem_renderedExitNodes.mpr ⟨mem_exitRegions.mpr hregion, hnode⟩)
      (hlinkOf.exitId.symm.trans hid)
  subst hself
  cases hkeys.symm.trans hdialled
  refine ⟨renderLink_of_renderHub hrender houtbound hlink, ?_, ?_⟩
  · intro hstay
    have hsame : keys = keys' :=
      hstay.stored_eq (p := .exit exitRegion exit) cfg.spec hexit hbuilt.earlier hbuilt'.earlier
        hkeys hkeys'
    subst hsame
    exact link_admitted cfg.spec hseeds hq (mem_hubNodePairs.mpr (mem_placed_hub hhub)) hlinkOf hctx
  · intro dial hdial hadmitted
    obtain ⟨hpublic, hencryption⟩ := hlinkOf.vless_keys hdial
    obtain ⟨_, -, -, htaken, -⟩ := hadmitted.vless dial hdial
    obtain ⟨hpublic', hencryption'⟩ := htaken.keys
    exact ⟨hpublic.symm.trans hpublic', hencryption.symm.trans hencryption'⟩

/-! ## What was handed out -/

/-- A URL is taken by its hub node, whatever else has changed in the store since. -/
theorem shareUrlsOf_accepted_by (h : Accepted cfg) {user : User} (hu : user ∈ cfg.users)
    {req : ShareRequest} (hname : user.username.val = req.username) {fingerprint : String}
    {cdn hysteria : Bool} {urls : List (String × ShareUrl)}
    (hurls : shareUrlsOf crypto cfg store fingerprint cdn hysteria user req = .ok urls) :
    ∃ kind, shareKind cdn hysteria = .ok kind ∧ ∀ e ∈ urls, ∃ q ∈ hubNodePairs cfg, ∃ keys,
      store q.2.id.val = some keys ∧ ∀ store' : KeyStore, store' q.2.id.val = some keys →
        UrlAccepted crypto cfg store' q keys e.2 kind := by
  obtain ⟨kind, i, shortId, pairs, hkind, haccess, hasks, hshort, hpairs, hresults⟩ :=
    shareUrlsOf_eq_ok hurls
  have hrequested := fun {q} (hq : q ∈ pairs) => mem_requestedPairs hpairs hq
  refine ⟨kind, hkind, fun e he => ?_⟩
  cases kind with
  | cdn =>
      simp only [kindShareUrls, cdnShareUrls, bind_eq_ok] at hresults
      obtain ⟨_, -, hresults⟩ := hresults
      obtain ⟨q, hq, keys, fragment, hkeys, hurl⟩ := sharedFrom_cdn hresults he
      have hi := hasks.mem_granted hu (ensure_eq_ok.mp haccess)
      exact ⟨q, hrequested hq, keys, hkeys, fun store' hkeys' =>
        cdn_accepted h (hrequested hq) hkeys' hi rfl hurl⟩
  | hysteria =>
      obtain ⟨q, hq, keys, fragment, hkeys, hurl⟩ := sharedFrom_hysteria hresults he
      have hi := hasks.mem_granted hu (ensure_eq_ok.mp haccess)
      exact ⟨q, hrequested hq, keys, hkeys, fun store' hkeys' =>
        hysteria_accepted (hrequested hq) hkeys' hi rfl hurl⟩
  | direct =>
      obtain ⟨q, hq, ⟨tls, htls, hcovered⟩, keys, fragment, hkeys, hurl⟩ :=
        mem_directShareUrlsFrom hresults he
      refine ⟨q, hrequested hq, keys, hkeys, fun store' hkeys' => ?_⟩
      refine direct_accepted (hrequested hq) hkeys' htls (hasks.mem_directIdentities hu hcovered)
        rfl ?_ hurl
      rintro rfl
      exact mem_hubShortIds hu hname hasks (by simpa [directAccess] using hcovered) hshort

theorem genPortal_dials {portalId fingerprint : String} {config : PortalConfig}
    (h : genPortal crypto cfg store portalId fingerprint = .ok config) {dial : ReverseDial}
    (hdial : PortalOutbound.reverse dial ∈ config.outbounds) :
    ∃ q ∈ hubNodePairs cfg, ∃ keys, store q.2.id.val = some keys ∧
      dial.address = q.2.hostname.val ∧ ∀ store' : KeyStore, store' q.2.id.val = some keys →
        DirectAccepted crypto cfg store' q keys dial.presented dial.port := by
  simp only [genPortal, bind_eq_ok] at h
  obtain ⟨_, -, loaded, hloaded, h⟩ := h
  obtain ⟨portal, hportal, -, -, dials, hdials, houtbounds⟩ := buildPortalConfig_eq_ok h
  have hmem : dial ∈ dials := by
    rw [houtbounds] at hdial
    split at hdial <;> simpa using hdial
  obtain ⟨q, hq, hbuild⟩ := (mem_mapEach hdials).mp hmem
  obtain ⟨keys, hkeys, hreverse⟩ := dialHub_eq_ok hbuild
  have hpairs : mapEach (hubNodePairs cfg) (fun p => do
      pure (p.2.id.val, ← loadNodeKeys store p.2.id.val)) = .ok loaded := hloaded
  have hstored := lookup_loaded (fun p : HubRegion × HubNode => p.2.id.val) hpairs hq
  refine ⟨q, hq, keys, hstored.symm.trans hkeys, ?_, fun store' hkeys' => ?_⟩
  · exact (reverseDial_accepted hportal hq (hstored.symm.trans hkeys) hreverse).1
  · exact (reverseDial_accepted hportal hq hkeys' hreverse).2

/-- The config of a hub is rendered from the keys that are taken to be stored. -/
theorem NodeBuiltAfter.hub_keys {q : HubRegion × HubNode} {built : List Command}
    {config : XrayConfig} (h : NodeBuiltAfter crypto cfg (.hub q.1 q.2) built config log) :
    renderHub crypto cfg (Workspace.after crypto cfg built).store q.1 q.2 = .ok config ∧
      ∃ keys, (Workspace.after crypto cfg built).store q.2.id.val = some keys := by
  have hrender : renderHub crypto cfg (Workspace.after crypto cfg built).store q.1 q.2 =
      .ok config := h.rendered
  obtain ⟨keys, hkeys, -⟩ := (ready_of_renderHub hrender).1
  exact ⟨hrender, keys, hkeys⟩

/-- What was made with the keys a hub had then is taken by the config the hub has now, if its keys
stay from the one to the other. -/
def TakenBy (crypto : Crypto) (cfg : ConglomerateConfig) (q : HubRegion × HubNode)
    (made log : List Command) (config : XrayConfig) (accepted : KeyStore → NodeKeys → Prop) :
    Prop :=
  ∃ built keys, NodeBuiltAfter crypto cfg (.hub q.1 q.2) built config log ∧
    renderHub crypto cfg (Workspace.after crypto cfg built).store q.1 q.2 = .ok config ∧
    (KeysStayBetween cfg q.2.id.val made built →
      accepted (Workspace.after crypto cfg built).store keys)

theorem takenBy_of_kept (h : Accepted cfg) (hheaders : HeadersChecked cfg)
    {q : HubRegion × HubNode} (hq : q ∈ hubNodePairs cfg) {made : List Command}
    (hearlier : made <+: log) {keys : NodeKeys}
    (hkeys : (Workspace.after crypto cfg made).store q.2.id.val = some keys)
    {accepted : KeyStore → NodeKeys → Prop}
    (haccepted : ∀ store', store' q.2.id.val = some keys → accepted store' keys)
    {config : XrayConfig}
    (hconfig : (Workspace.after crypto cfg log).nodeConfig q.2.id.val = some config) :
    TakenBy crypto cfg q made log config accepted := by
  have hplaced := placed_of_mem hq
  obtain ⟨built, hbuilt⟩ := (nodeConfig_eq_some_iff h hheaders hplaced).mp hconfig
  obtain ⟨hrender, keys', hkeys'⟩ := hbuilt.hub_keys
  refine ⟨built, keys, hbuilt, hrender, fun hstay => haccepted _ ?_⟩
  have hsame : keys = keys' :=
    hstay.stored_eq (p := .hub q.1 q.2) h hplaced hearlier hbuilt.earlier hkeys hkeys'
  rw [hkeys', hsame]

/-- A URL handed out, and a dial of a portal generated, at any point of a run is taken by the
config that the hub has at its end, if the keys of the hub stay from the one build to the other. -/
theorem handed_out_stays_accepted (cfg : AcceptedConfig)
    (hheaders : HeadersChecked cfg.toConglomerateConfig) (log : List Command) :
    (∀ asked, asked <+: log → ∀ (req : ShareRequest) (fingerprint : String) (cdn hysteria : Bool)
        (urls : List (String × ShareUrl)),
      buildShareUrls crypto cfg.toConglomerateConfig
          (Workspace.after crypto cfg.toConglomerateConfig asked).store req fingerprint cdn
            hysteria = .ok urls →
        ∀ e ∈ urls, ∃ kind, shareKind cdn hysteria = .ok kind ∧
          ∃ q ∈ hubNodePairs cfg.toConglomerateConfig, ∀ config,
            (Workspace.after crypto cfg.toConglomerateConfig log).nodeConfig q.2.id.val =
                some config →
              TakenBy crypto cfg.toConglomerateConfig q asked log config fun store keys =>
                UrlAccepted crypto cfg.toConglomerateConfig store q keys e.2 kind) ∧
    ∀ portal ∈ cfg.portals, ∀ portalConfig,
      (Workspace.after crypto cfg.toConglomerateConfig log).portalConfig portal.id.val =
          some portalConfig →
        ∃ generated, PortalBuiltAfter crypto cfg.toConglomerateConfig portal.id.val generated
            portalConfig log ∧
          ∀ dial, PortalOutbound.reverse dial ∈ portalConfig.outbounds →
            ∃ q ∈ hubNodePairs cfg.toConglomerateConfig, dial.address = q.2.hostname.val ∧
              ∀ config, (Workspace.after crypto cfg.toConglomerateConfig log).nodeConfig
                  q.2.id.val = some config →
                TakenBy crypto cfg.toConglomerateConfig q generated log config fun store keys =>
                  DirectAccepted crypto cfg.toConglomerateConfig store q keys dial.presented
                    dial.port := by
  constructor
  · intro asked hearlier req fingerprint cdn hysteria urls h e he
    obtain ⟨user, huser⟩ := resolveUser_of_perIdentity h
    obtain ⟨hu, hname⟩ := resolveUser_eq_ok huser
    obtain ⟨one, hone, part, hpart, hmem⟩ := (mem_perIdentity huser h).mp he
    obtain ⟨husername, -⟩ := fields_of_mem_parts hone
    obtain ⟨kind, hkind, hall⟩ :=
      shareUrlsOf_accepted_by cfg.spec hu (hname.trans husername.symm) hpart
    obtain ⟨q, hq, keys, hkeys, haccepted⟩ := hall e hmem
    exact ⟨kind, hkind, q, hq, fun config hconfig =>
      takenBy_of_kept cfg.spec hheaders hq hearlier hkeys haccepted hconfig⟩
  · intro portal hportal portalConfig hportalConfig
    obtain ⟨generated, hgenerated⟩ := (portalConfig_eq_some_iff cfg.spec hheaders
      (List.mem_map_of_mem hportal)).mp hportalConfig
    refine ⟨generated, hgenerated, fun dial hdial => ?_⟩
    obtain ⟨fingerprint, hrender⟩ := hgenerated.generated
    obtain ⟨q, hq, keys, hkeys, haddress, haccepted⟩ := genPortal_dials hrender hdial
    exact ⟨q, hq, haddress, fun config hconfig =>
      takenBy_of_kept cfg.spec hheaders hq hgenerated.earlier hkeys haccepted hconfig⟩

/-! ## A run of the office -/

theorem keysStayBetween_of_unforced {log' whole : List Command} {nodeId : String}
    (hunforced : ∀ call, Command.genKeys call ∈ whole → call.force = false)
    (hearlier : log <+: whole) (hearlier' : log' <+: whole) :
    KeysStayBetween cfg nodeId log log' := by
  rintro commands (rfl | rfl) call hcall -
  · exact hunforced call (hearlier'.subset (List.mem_append_right _ hcall))
  · exact hunforced call (hearlier.subset (List.mem_append_right _ hcall))

namespace Sample

/-- Keys for the hub and the exit, and then both configs. -/
def officeKeyLog : List Command :=
  [.genKeys ⟨officeNode.id.val, false, freshKeys⟩, .genKeys ⟨fra1.val, false, freshKeys⟩]

def officeBuild : Command := .buildNodes true true [officeNode.id.val, fra1.val]

def officeLog : List Command := officeKeyLog ++ [officeBuild]

end Sample

theorem officeLog_unforced (call : KeyCall) (hcall : Command.genKeys call ∈ Sample.officeLog) :
    call.force = false := by
  rcases List.mem_append.mp hcall with hcall | hcall
  · rcases List.mem_cons.mp hcall with heq | hcall
    · cases heq
      rfl
    · cases List.mem_singleton.mp hcall
      rfl
  · cases List.mem_singleton.mp hcall

theorem office_exit_placed : Placed.exit officeExit.1 officeExit.2 ∈ Sample.office.placed :=
  List.mem_flatMap.mpr ⟨.exit officeExit.1, by decide, List.mem_map.mpr
    ⟨officeExit.2, by decide, rfl⟩⟩

theorem officeKeyLog_equipped {nodeId : String}
    (hid : nodeId ∈ [Sample.officeNode.id.val, Sample.fra1.val]) :
    Equipped Sample.office.toConglomerateConfig
      (Sample.officeKeyLog.filterMap Command.keyCall?) nodeId := by
  rcases List.mem_cons.mp hid with rfl | hid
  · exact ⟨_, List.mem_cons_self, .inl rfl⟩
  · cases List.mem_singleton.mp hid
    exact ⟨_, List.mem_cons_of_mem _ List.mem_cons_self, .inl rfl⟩

/-- Both nodes are equipped when they are built. -/
theorem officeLog_built {p : Placed} (hp : p ∈ Sample.office.placed)
    (hid : p.node.id.val ∈ [Sample.officeNode.id.val, Sample.fra1.val])
    (hequipped : p.Equipped Sample.office.toConglomerateConfig
      (Sample.officeKeyLog.filterMap Command.keyCall?)) :
    ∃ config, (Workspace.after Sample.officeCrypto Sample.office.toConglomerateConfig
      Sample.officeLog).nodeConfig p.node.id.val = some config := by
  have hready := (ready_keyRun_iff Sample.office.spec office_provisioned.wireguard
    office_provisioned.certificates _ hp).mpr hequipped
  rw [← after_store Sample.officeCrypto] at hready
  obtain ⟨config, hconfig⟩ := (ready_iff Sample.office.spec hp).mp hready
  refine ⟨config, (nodeConfig_eq_some_iff Sample.office.spec office_headers hp).mpr
    ⟨Sample.officeKeyLog, .now ?_⟩⟩
  refine (if_pos ⟨rfl, hid⟩).trans (toOption_eq_some.mpr hconfig)

theorem officeLog_exit_built :
    ∃ config, (Workspace.after Sample.officeCrypto Sample.office.toConglomerateConfig
      Sample.officeLog).nodeConfig officeExit.2.id.val = some config :=
  officeLog_built office_exit_placed (by decide) (officeKeyLog_equipped (by decide))

theorem officeLog_hub_built :
    ∃ config, (Workspace.after Sample.officeCrypto Sample.office.toConglomerateConfig
      Sample.officeLog).nodeConfig Sample.officeNode.id.val = some config := by
  refine officeLog_built office_placed (by decide) ⟨officeKeyLog_equipped (by decide), ?_⟩
  intro r hr n hn
  have hids : (Sample.office.exitRegions.flatMap (·.nodes)).map (·.id.val) = [Sample.fra1.val] := by
    decide
  have hmem : n.id.val ∈ [Sample.fra1.val] :=
    hids ▸ List.mem_map_of_mem (List.mem_flatMap.mpr ⟨r, hr, hn⟩)
  exact officeKeyLog_equipped (List.mem_cons_of_mem _ hmem)

theorem deployed_links_agree_office :
    ∃ hubConfig exitConfig keys ctx,
      (Workspace.after Sample.officeCrypto Sample.office.toConglomerateConfig
        Sample.officeLog).nodeConfig Sample.officeNode.id.val = some hubConfig ∧
      (Workspace.after Sample.officeCrypto Sample.office.toConglomerateConfig
        Sample.officeLog).nodeConfig officeExit.2.id.val = some exitConfig ∧
      exitConfig = buildExitConfig ctx ∧
      ∀ outbound ∈ hubConfig.outbounds, ∀ link, outbound.link = some link →
        link.exitId = officeExit.2.id.val → outbound = renderLink link ∧
          LinkAdmitted Sample.officeCrypto.uuid5 Sample.office.ns Sample.officeNode officeExit.2
            keys ctx link := by
  obtain ⟨hubConfig, hhub⟩ := officeLog_hub_built
  obtain ⟨exitConfig, hexit⟩ := officeLog_exit_built
  obtain ⟨built, built', keys, keys', ctx, hbuilt, hbuilt', -, -, -, hconfig, hlinks⟩ :=
    deployed_links_agree Sample.office office_headers (by decide) office_placed office_exit_placed
      Sample.officeLog hhub hexit
  refine ⟨hubConfig, exitConfig, keys', ctx, hhub, hexit, hconfig, ?_⟩
  intro outbound houtbound link hlink hid
  obtain ⟨hsettings, hadmitted, -⟩ := hlinks outbound houtbound link hlink hid
  exact ⟨hsettings, hadmitted
    (keysStayBetween_of_unforced officeLog_unforced hbuilt.earlier hbuilt'.earlier)⟩

theorem office_pair {q : HubRegion × HubNode}
    (hq : q ∈ hubNodePairs Sample.office.toConglomerateConfig) : q.2 = Sample.officeNode := by
  have hnodes : (hubNodePairs Sample.office.toConglomerateConfig).map Prod.snd =
      [Sample.officeNode] := by
    decide
  have hmem : q.2 ∈ (hubNodePairs Sample.office.toConglomerateConfig).map Prod.snd :=
    List.mem_map_of_mem hq
  rw [hnodes] at hmem
  exact List.mem_singleton.mp hmem

/-- URLs handed out before the hub was built. -/
theorem handed_out_stays_accepted_office :
    ∃ urls, buildShareUrls Sample.officeCrypto Sample.office.toConglomerateConfig
        (Workspace.after Sample.officeCrypto Sample.office.toConglomerateConfig
          Sample.officeKeyLog).store { username := "alice", allGuests := true } "chrome" false
            false = .ok urls ∧
      urls ≠ [] ∧ ∃ config,
        (Workspace.after Sample.officeCrypto Sample.office.toConglomerateConfig
          Sample.officeLog).nodeConfig Sample.officeNode.id.val = some config ∧
        ∀ e ∈ urls, ∃ kind q built keys,
          NodeBuiltAfter Sample.officeCrypto Sample.office.toConglomerateConfig (.hub q.1 q.2)
            built config Sample.officeLog ∧
          UrlAccepted Sample.officeCrypto Sample.office.toConglomerateConfig
            (Workspace.after Sample.officeCrypto Sample.office.toConglomerateConfig built).store q
              keys e.2 kind := by
  obtain ⟨urls, h⟩ := isOk_iff.mp (show (buildShareUrls Sample.officeCrypto
    Sample.office.toConglomerateConfig (Workspace.after Sample.officeCrypto
      Sample.office.toConglomerateConfig Sample.officeKeyLog).store
    { username := "alice", allGuests := true } "chrome" false false).isOk = true by decide)
  obtain ⟨config, hconfig⟩ := officeLog_hub_built
  have hasked : Sample.officeKeyLog <+: Sample.officeLog := List.prefix_append _ _
  refine ⟨urls, h, ?_, config, hconfig, fun e he => ?_⟩
  · rintro rfl
    revert h
    decide
  · obtain ⟨kind, -, q, hq, htaken⟩ := (handed_out_stays_accepted Sample.office office_headers
      Sample.officeLog).1 _ hasked _ _ _ _ _ h e he
    obtain ⟨built, keys, hbuilt, -, haccepted⟩ := htaken config (office_pair hq ▸ hconfig)
    exact ⟨kind, q, built, keys, hbuilt, haccepted
      (keysStayBetween_of_unforced officeLog_unforced hasked hbuilt.earlier)⟩

end HexRift
