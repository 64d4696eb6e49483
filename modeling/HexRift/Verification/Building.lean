import HexRift.Library.Writes
import HexRift.Model.Build
import HexRift.Verification.Edge
import HexRift.Verification.KeyRuns
import HexRift.Verification.Soundness

/-! # Batches of builds

Building several nodes, or several portals, isolates the failures: what stands in the output in
the end, and what is counted, depends for each item on that item alone. -/

namespace HexRift

open Checks Generations Writes

variable {cfg : ConglomerateConfig} {crypto : Crypto} {store : KeyStore} {p : Placed}
  {xray haproxy : Bool}

/-! ## The loop -/

theorem runBatch_append (items : List String) (item : String)
    (action : String → OutDir → OutDir × Option Error) (out : OutDir) :
    runBatch (items ++ [item]) action out = (runBatch items action out).step action item := by
  rw [runBatch, List.foldl_append]
  rfl

/-- A batch of items each of which writes and fails the same whatever the output holds. -/
theorem runBatch_eq {action : String → OutDir → OutDir × Option Error}
    {written : String → OutDir} {failure : String → Option Error}
    (haction : ∀ item out, action item out = (overlay (written item) out, failure item))
    (items : List String) (out : OutDir) :
    runBatch items action out =
      { result :=
          { ok := items.countP fun item => (failure item).isNone
            failed := items.countP fun item => (failure item).isSome }
        out := writeAll written items out
        reported := items.map fun item => (item, failure item) } := by
  induction items using List.reverseRecOn with
  | nil => rfl
  | append_singleton items item ih =>
      rw [runBatch_append, ih, BatchRun.step, haction]
      simp only [List.countP_append, List.countP_singleton, List.map_append, List.map_singleton,
        writeAll, List.foldl_append, List.foldl_cons, List.foldl_nil]
      cases failure item with
      | none => simp
      | some e => simp

/-! ## Nodes -/

/-- The schema's check of the trusted headers has passed. -/
def HeadersChecked (cfg : ConglomerateConfig) : Prop :=
  ∀ cdn ∈ cfg.global.cdn,
    (validateTrustedForwardedHeaders cdn.trustedForwardedHeaders).isOk = true

theorem validateTrustedForwardedHeaders_isOk {headers : List String} :
    (validateTrustedForwardedHeaders headers).isOk = true ↔
      ∀ header ∈ headers, isHeaderName header = true := by
  rw [isOk_iff]
  simp only [validateTrustedForwardedHeaders, bind_eq_ok, forEach_eq_ok, ensure_eq_ok, pure_eq_ok]
  constructor
  · rintro ⟨-, -, hall, -⟩
    exact hall
  · exact fun hall => ⟨_, (), hall, rfl⟩

theorem safeHeader_total {headers : List String}
    (h : ∀ header ∈ headers, isHeaderName header = true) :
    ∃ header, safeHeader headers = .ok header := by
  cases headers with
  | nil => exact ⟨_, rfl⟩
  | cons header rest => exact ⟨header, if_pos (h header List.mem_cons_self)⟩

theorem renderNode_eq (p : Placed) :
    renderNode crypto cfg store p = (buildContext crypto cfg store p).map xrayConfig := by
  cases p with
  | exit region node =>
      simp only [renderNode, renderExit, buildContext, bind, Except.bind, pure, Except.pure]
      cases loadNodeKeys store node.id.val with
      | error e => rfl
      | ok keys =>
          simp only
          cases buildExitContext crypto cfg region node keys <;> rfl
  | hub region node =>
      simp only [renderNode, renderHub, buildContext, bind, Except.bind, pure, Except.pure]
      cases loadNodeKeys store node.id.val with
      | error e => rfl
      | ok keys =>
          simp only
          split
          · rfl
          · rename_i exitKeys hexitKeys
            cases buildHubContext crypto cfg region node keys fun id => exitKeys.lookup id <;> rfl

/-- Every trusted header of a node's context has passed the schema's check. -/
theorem nodeHaproxy_total (hheaders : HeadersChecked cfg) {config : XrayConfig}
    (h : renderNode crypto cfg store p = .ok config) :
    ∃ proxy, nodeHaproxy crypto cfg store p = .ok proxy := by
  obtain ⟨hn⟩ := renderNode_eq_ok h
  obtain ⟨header, hheader⟩ : ∃ header,
      safeHeader hn.ctx.shared.trustedForwardedHeaders = .ok header := by
    refine safeHeader_total fun header hheader => ?_
    rw [hn.shared, makeShared] at hheader
    cases hcdn : cfg.global.cdn with
    | none =>
        rw [hcdn] at hheader
        cases hheader
    | some cdn =>
        rw [hcdn] at hheader
        exact validateTrustedForwardedHeaders_isOk.mp (hheaders cdn hcdn) header hheader
  rw [nodeHaproxy, hn.context]
  simp only [bind, Except.bind, haproxyConfig, hheader]
  split
  · exact ⟨_, rfl⟩
  · exact ⟨_, rfl⟩

/-! ## What a node needs -/

/-- The node's keys are stored, and the certificate of its Hysteria listener is signed where it is
needed. -/
def OwnReady (crypto : Crypto) (cfg : ConglomerateConfig) (store : KeyStore) (p : Placed)
    (needed : Prop) : Prop :=
  ∃ keys, store p.node.id.val = some keys ∧
    (needed → CertificateSigned crypto cfg p.region p.node keys)

/-- What a hub needs of an exit to dial it: a link over Hysteria pins the certificate. -/
def DialReady (crypto : Crypto) (cfg : ConglomerateConfig) (store : KeyStore)
    (region : ExitRegion) (node : ExitNode) : Prop :=
  OwnReady crypto cfg store (.exit region node) (resolveLinkProtocol region = .hysteria)

theorem DialReady.loaded {region : ExitRegion} {node : ExitNode}
    (h : DialReady crypto cfg store region node) :
    ∃ keys, loadNodeKeys store node.id.val = .ok keys := by
  obtain ⟨keys, hstored, -⟩ := h
  exact ⟨keys, loadNodeKeys_eq_ok.mpr hstored⟩

/-- The keys that a node renders from are stored, the certificates it names are signed, and its
WireGuard subnet has room. -/
def Placed.Ready (crypto : Crypto) (cfg : ConglomerateConfig) (store : KeyStore) : Placed → Prop
  | .exit region node =>
      OwnReady crypto cfg store (.exit region node) (cfg.hubRegions.flatMap (·.nodes) ≠ [])
  | .hub region node =>
      OwnReady crypto cfg store (.hub region node)
        (getHubAccessClients crypto.uuid5 cfg.ns cfg.users .hysteria "" true ≠ []) ∧
      (∀ r ∈ cfg.exitRegions, ∀ n ∈ r.nodes, DialReady crypto cfg store r n) ∧
        WireguardFits crypto cfg node

theorem certificateSigned_of_endpoint {region : Region} {node : Node} {hysteria : HysteriaConfig}
    {reality : RealityConfig} {keys : NodeKeys} {ep : HysteriaEndpoint}
    (hhysteria : resolveNodeHysteria node region cfg.defaults = some hysteria)
    (hreality : resolveNodeReality node region cfg.defaults = .ok reality)
    (h : deriveHysteriaEndpoint crypto hysteria reality keys.realityPrivateKey cfg.ns.name =
      .ok ep) : CertificateSigned crypto cfg region node keys := by
  intro other realityOther sni hother hcertificate hrealityOther hsni
  cases hhysteria.symm.trans hother
  cases hreality.symm.trans hrealityOther
  simp only [deriveHysteriaEndpoint, bind_eq_ok, hsni, hcertificate] at h
  obtain ⟨_, heq, cert, hcert, -⟩ := h
  cases heq
  exact ⟨cert, hcert⟩

/-- A listener that was built presents a certificate. -/
theorem certificateSigned_of_build {env : InboundEnv} {clients : List ClientEntry}
    {slot : Option HysteriaContext} (h : buildHysteria env = .ok slot)
    (hclients : hysteriaClients env = .ok clients) (hne : clients ≠ []) :
    CertificateSigned env.crypto env.cfg env.region env.node env.nodeKeys := by
  cases hhysteria : resolveNodeHysteria env.node env.region env.cfg.defaults with
  | none =>
      intro hysteria reality sni hsome
      cases hhysteria.symm.trans hsome
  | some hysteria =>
      simp only [buildHysteria, hhysteria, bind_eq_ok, hclients] at h
      obtain ⟨_, heq, h⟩ := h
      cases heq
      rw [if_neg hne] at h
      simp only [bind_eq_ok] at h
      obtain ⟨reality, hreality, ep, hep, -⟩ := h
      exact certificateSigned_of_endpoint hhysteria hreality hep

/-- A link that was built pins a certificate. -/
theorem certificateSigned_of_link {env : LinkEnv} {uid : UUID} {pre : String} {link : LinkContext}
    (h : buildLink env uid pre = .ok link)
    (hprotocol : resolveLinkProtocol env.exitRegion = .hysteria) :
    CertificateSigned env.crypto env.cfg (.exit env.exitRegion) (.exit env.exitNode)
      env.exitKeys := by
  cases hhysteria : resolveNodeHysteria (.exit env.exitNode) (.exit env.exitRegion)
      env.cfg.defaults with
  | none =>
      intro hysteria reality sni hsome
      cases hhysteria.symm.trans hsome
  | some hysteria =>
      simp only [buildLink, bind_eq_ok, buildDial, hprotocol, map_eq_ok, buildHysteriaDial,
        hhysteria] at h
      obtain ⟨_, ⟨dial, ⟨reality, hreality, ep, hep, -⟩, -⟩, -⟩ := h
      exact certificateSigned_of_endpoint hhysteria hreality hep

theorem wireguardFits_of_build {region : HubRegion} {node : HubNode} {keys : NodeKeys}
    {slot : Option WireguardContext}
    (h : buildWireguard (hubEnv crypto cfg region node keys) = .ok slot) :
    WireguardFits crypto cfg node := by
  simp only [buildWireguard, hubEnv, InboundEnv.hubNode, bind_eq_ok] at h
  obtain ⟨_, hnode, wireguard, hwireguard, h⟩ := h
  cases hnode
  refine ⟨wireguard, hwireguard, fun w hw => ?_⟩
  rw [Option.mem_def.mp hw] at h
  simp only [bind_eq_ok, getHubWireguardPeers, iterHubWireguardAllocs_eq_ok] at h
  obtain ⟨peers, ⟨allocs, ⟨hiterate, hallocs⟩, -⟩, -⟩ := h
  have hlarge : 1 < w.subnet.numAddresses := w.subnet.hostsIterate_iff.mp hiterate
  refine ⟨hlarge, ?_⟩
  by_contra hfull
  have hfirst : 1 ≤ w.subnet.hosts.length := by
    rw [IPNetwork.hosts_length, IPNetwork.hostRange]
    split
    · exact hlarge.le
    · cases w.subnet.version with
      | v4 => simp only; omega
      | v6 => simp only; omega
  have hfailed : allocateFrom w.subnet 1 (cfg.users.flatMap (wireguardIdentities crypto.uuid5
      cfg.ns)) = .error w.subnet.full := allocateFrom_full hfirst (by omega)
  cases hfailed.symm.trans hallocs

theorem renderHub_of_ready (h : Accepted cfg) {region : HubRegion}
    (hregion : Region.hub region ∈ cfg.regions) {node : HubNode} (hnode : node ∈ region.nodes)
    (hready : (Placed.hub region node).Ready crypto cfg store) :
    ∃ config, renderHub crypto cfg store region node = .ok config := by
  obtain ⟨⟨keys, hkeys, hsigned⟩, hexits, hfits⟩ := hready
  have hloaded : loadNodeKeys store node.id.val = .ok keys := loadNodeKeys_eq_ok.mpr hkeys
  obtain ⟨slots, hslots⟩ : ∃ slots, buildSlots (hubEnv crypto cfg region node keys) = .ok slots :=
    buildSlots_hub_total h hregion hnode hfits hsigned
  obtain ⟨exitKeys, hexitKeys⟩ : ∃ loaded, mapEach
      (cfg.exitRegions.flatMap fun r => r.nodes.map (·.id.val))
      (fun id => do pure (id, ← loadNodeKeys store id)) = .ok loaded := by
    rw [mapEach_total]
    intro id hid
    obtain ⟨r, hr, hid⟩ := List.mem_flatMap.mp hid
    obtain ⟨n, hn, rfl⟩ := List.mem_map.mp hid
    obtain ⟨keys, hloaded⟩ := (hexits r hr n hn).loaded
    exact ⟨_, by rw [hloaded]; rfl⟩
  obtain ⟨links, hlinks⟩ : ∃ links, mapEach (renderedExitNodes cfg) (fun q =>
      buildLinks crypto cfg node (fun id => exitKeys.lookup id) q.1 q.2) = .ok links := by
    rw [mapEach_total]
    intro q hq
    obtain ⟨hr, hn⟩ := mem_renderedExitNodes.mp hq
    have hid : q.2.id.val ∈ cfg.exitRegions.flatMap fun r => r.nodes.map (·.id.val) :=
      List.mem_flatMap.mpr ⟨q.1, hr, List.mem_map_of_mem hn⟩
    obtain ⟨keys, hkeys, hsigned⟩ := hexits q.1 hr q.2 hn
    exact buildLinks_total h hr hn ((lookup_loaded (fun id => id) hexitKeys hid).trans hkeys)
      hsigned
  rw [renderHub, hloaded]
  simp only [buildHubContext, buildBalancers_eq, buildHubRoutingRules_eq h, bind, Except.bind,
    hslots] at hexitKeys ⊢
  simp only [hexitKeys, hlinks]
  exact ⟨_, rfl⟩

theorem ownReady_of_slots {slots : Slots} {keys : NodeKeys} {clients : List ClientEntry}
    (hstored : store p.node.id.val = some keys)
    (h : buildSlots (p.env crypto cfg keys) = .ok slots)
    (hclients : hysteriaClients (p.env crypto cfg keys) = .ok clients) :
    OwnReady crypto cfg store p (clients ≠ []) := by
  refine ⟨keys, hstored, fun hne => ?_⟩
  obtain ⟨slot, hslot⟩ : ∃ slot, buildHysteria (p.env crypto cfg keys) = .ok slot := by
    simp only [buildSlots, bind_eq_ok] at h
    obtain ⟨xhttp, -, cdn, -, h⟩ := h
    cases p with
    | exit region node =>
        simp only [Placed.env, exitEnv, Region.type, bind_eq_ok] at h
        obtain ⟨slot, hslot, -⟩ := h
        exact ⟨slot, hslot⟩
    | hub region node =>
        simp only [Placed.env, hubEnv, Region.type, bind_eq_ok] at h
        obtain ⟨_, -, _, -, _, -, slot, hslot, -⟩ := h
        exact ⟨slot, hslot⟩
  have hsigned := certificateSigned_of_build hslot hclients hne
  cases p <;> exact hsigned

theorem dialReady_of_links {node : HubNode} {exitKeys : String → Option NodeKeys}
    {r : ExitRegion} {n : ExitNode} {links : LinkContext × Option LinkContext}
    (hkeys : exitKeys n.id.val = store n.id.val)
    (h : buildLinks crypto cfg node exitKeys r n = .ok links) :
    DialReady crypto cfg store r n := by
  cases hfound : exitKeys n.id.val with
  | none =>
      rw [buildLinks, hfound] at h
      cases h
  | some keys =>
      simp only [buildLinks, hfound, bind_eq_ok] at h
      obtain ⟨link, hlink, -⟩ := h
      exact ⟨keys, hkeys.symm.trans hfound, certificateSigned_of_link hlink⟩

theorem ready_of_renderHub {region : HubRegion} {node : HubNode} {config : XrayConfig}
    (h : renderHub crypto cfg store region node = .ok config) :
    (Placed.hub region node).Ready crypto cfg store := by
  simp only [renderHub, bind_eq_ok] at h
  obtain ⟨keys, hkeys, exitKeys, hexitKeys, ctx, hctx, -⟩ := h
  simp only [buildHubContext, bind_eq_ok] at hctx
  obtain ⟨links, hlinks, slots, hslots, -⟩ := hctx
  refine ⟨ownReady_of_slots (loadNodeKeys_eq_ok.mp hkeys) hslots rfl, ?_, ?_⟩
  · intro r hr n hn
    have hid : n.id.val ∈ cfg.exitRegions.flatMap fun r => r.nodes.map (·.id.val) :=
      List.mem_flatMap.mpr ⟨r, hr, List.mem_map_of_mem hn⟩
    obtain ⟨built, hbuilt⟩ := mapEach_total.mp ⟨links, hlinks⟩ (r, n)
      (mem_renderedExitNodes.mpr ⟨hr, hn⟩)
    exact dialReady_of_links (lookup_loaded (fun id => id) hexitKeys hid) hbuilt
  · simp only [buildSlots, bind_eq_ok] at hslots
    obtain ⟨xhttp, -, cdn, -, hslots⟩ := hslots
    simp only [hubEnv, Region.type, bind_eq_ok] at hslots
    obtain ⟨proxy, -, xdns, -, wireguard, hwireguard, -⟩ := hslots
    exact wireguardFits_of_build hwireguard

theorem ready_iff (h : Accepted cfg) (hp : p ∈ cfg.placed) :
    p.Ready crypto cfg store ↔ ∃ config, renderNode crypto cfg store p = .ok config := by
  cases p with
  | exit region node =>
      obtain ⟨hregion, hnode⟩ := mem_placed_exit hp
      constructor
      · intro hready
        obtain ⟨keys, hkeys, hsigned⟩ := hready
        have hloaded : loadNodeKeys store node.id.val = .ok keys := loadNodeKeys_eq_ok.mpr hkeys
        obtain ⟨slots, hslots⟩ : ∃ slots,
            buildSlots (exitEnv crypto cfg region node keys) = .ok slots :=
          buildSlots_exit_total h (mem_exitRegions.mpr hregion) hnode hsigned
        rw [renderNode, renderExit, hloaded]
        simp only [buildExitContext, bind, Except.bind, hslots]
        exact ⟨_, rfl⟩
      · rintro ⟨config, hconfig⟩
        obtain ⟨hn⟩ := renderNode_eq_ok hconfig
        obtain ⟨keys, hstored, hsigned⟩ := ownReady_of_slots hn.stored hn.built rfl
        exact ⟨keys, hstored, fun hhubs => hsigned fun hnone =>
          hhubs (List.map_eq_nil_iff.mp hnone)⟩
  | hub region node =>
      obtain ⟨hregion, hnode⟩ := mem_placed_hub hp
      constructor
      · exact renderHub_of_ready h hregion hnode
      · rintro ⟨config, hconfig⟩
        exact ready_of_renderHub hconfig

/-! ## Builds of nodes -/

/-- What building a node writes under a name: all that is asked for, or nothing. -/
def nodeFile? (crypto : Crypto) (cfg : ConglomerateConfig) (store : KeyStore)
    (xray haproxy : Bool) (nodeId name : String) : Option Content :=
  if xray ∧ name = configJson then
    (getNode cfg nodeId >>= renderNode crypto cfg store).toOption.map .xray
  else if haproxy ∧ name = haproxyCfg then
    (getNode cfg nodeId >>= nodeHaproxy crypto cfg store).toOption.map fun proxy =>
      .haproxy proxy.text
  else none

def nodeFiles (crypto : Crypto) (cfg : ConglomerateConfig) (store : KeyStore)
    (xray haproxy : Bool) (nodeId : String) : OutDir :=
  fun file =>
    if nodeId = file.1 then nodeFile? crypto cfg store xray haproxy nodeId file.2 else none

def nodeFailure (crypto : Crypto) (cfg : ConglomerateConfig) (store : KeyStore)
    (nodeId : String) : Option Error :=
  match getNode cfg nodeId >>= renderNode crypto cfg store with
  | .error e => some e
  | .ok _ => none

theorem nodeFile?_of_rendered (xray haproxy : Bool) {nodeId : String} {config : XrayConfig}
    {proxy : HaproxyConfig}
    (hnode : getNode cfg nodeId = .ok p) (hconfig : renderNode crypto cfg store p = .ok config)
    (hproxy : nodeHaproxy crypto cfg store p = .ok proxy) (name : String) :
    nodeFile? crypto cfg store xray haproxy nodeId name =
      if xray ∧ name = configJson then some (.xray config)
      else if haproxy ∧ name = haproxyCfg then some (.haproxy proxy.text)
      else none := by
  simp only [nodeFile?, hnode, bind, Except.bind, hconfig, hproxy]
  rfl

theorem write_apply (out : OutDir) (dir name : String) (content : Content) (file : OutFile) :
    out.write dir name content file =
      if dir = file.1 ∧ file.2 = name then some content else out file := by
  rw [OutDir.write, Function.update_apply]
  refine if_congr ?_ rfl rfl
  rw [Prod.ext_iff]
  exact and_congr_left fun _ => eq_comm

theorem configJson_ne_haproxyCfg : configJson ≠ haproxyCfg := by decide

/-- The writes of one build, taken together. -/
theorem overlay_files (out : OutDir) (dir : String) (config proxy : Content) :
    overlay (fun file => if dir = file.1 then
        if xray ∧ file.2 = configJson then some config
        else if haproxy ∧ file.2 = haproxyCfg then some proxy
        else none
      else none) out =
      if haproxy then
        OutDir.write (if xray then out.write dir configJson config else out) dir haproxyCfg proxy
      else if xray then out.write dir configJson config else out := by
  funext file
  rw [overlay]
  by_cases hdir : dir = file.1
  · by_cases hjson : file.2 = configJson
    · cases xray <;> cases haproxy <;> simp [write_apply, hdir, hjson, configJson_ne_haproxyCfg]
    · cases xray <;> cases haproxy <;> simp [write_apply, hdir, hjson]
      all_goals split <;> rfl
  · cases xray <;> cases haproxy <;> simp [write_apply, hdir]

theorem build_eq (hheaders : HeadersChecked cfg) (nodeId : String) (out : OutDir) :
    build crypto cfg store xray haproxy nodeId out =
      (overlay (nodeFiles crypto cfg store xray haproxy nodeId) out,
        nodeFailure crypto cfg store nodeId) := by
  cases hnode : getNode cfg nodeId with
  | error e =>
      have hnone : nodeFiles crypto cfg store xray haproxy nodeId = fun _ => none := by
        funext file
        simp [nodeFiles, nodeFile?, hnode, bind, Except.bind, Except.toOption]
      rw [hnone, overlay_none]
      simp [build, buildNodeContext, nodeFailure, hnode, bind, Except.bind]
  | ok p =>
      cases hcontext : buildContext crypto cfg store p with
      | error e =>
          have hnone : nodeFiles crypto cfg store xray haproxy nodeId = fun _ => none := by
            funext file
            simp [nodeFiles, nodeFile?, hnode, renderNode_eq, nodeHaproxy, hcontext, bind,
              Except.bind, Except.map, Except.toOption]
          rw [hnone, overlay_none]
          simp [build, buildNodeContext, nodeFailure, hnode, renderNode_eq, hcontext, bind,
            Except.bind, Except.map]
      | ok ctx =>
          have hconfig : renderNode crypto cfg store p = .ok (xrayConfig ctx) := by
            rw [renderNode_eq, hcontext]
            rfl
          obtain ⟨proxy, hproxy⟩ := nodeHaproxy_total hheaders hconfig
          have htext : renderHaproxy ctx = .ok proxy.text := by
            rw [nodeHaproxy, hcontext] at hproxy
            simp only [bind, Except.bind] at hproxy
            rw [renderHaproxy, hproxy]
            rfl
          have hfiles := nodeFile?_of_rendered xray haproxy hnode hconfig hproxy
          simp only [build, buildNodeContext, nodeFailure, hnode, hcontext, hconfig, htext, bind,
            Except.bind]
          have hwritten : overlay (nodeFiles crypto cfg store xray haproxy nodeId) out = _ :=
            (congrArg (overlay · out) (funext fun file => by rw [nodeFiles, hfiles])).trans
              (overlay_files out nodeId (.xray (xrayConfig ctx)) (.haproxy proxy.text))
          rw [hwritten]
          cases haproxy <;> rfl

theorem nodeFailure_eq_none_iff (h : Accepted cfg) {nodeId : String} :
    nodeFailure crypto cfg store nodeId = none ↔
      ∃ p ∈ cfg.placed, p.node.id.val = nodeId ∧ p.Ready crypto cfg store := by
  have hrender : nodeFailure crypto cfg store nodeId = none ↔
      ∃ config, (getNode cfg nodeId >>= renderNode crypto cfg store) = .ok config := by
    rw [nodeFailure]
    split
    · rename_i e he
      simp [he]
    · rename_i config hconfig
      simp [hconfig]
  rw [hrender]
  simp only [bind_eq_ok]
  constructor
  · rintro ⟨config, p, hnode, hconfig⟩
    obtain ⟨hp, hid⟩ := getNode_eq_ok hnode
    exact ⟨p, hp, hid, (ready_iff h hp).mpr ⟨config, hconfig⟩⟩
  · rintro ⟨p, hp, rfl, hready⟩
    obtain ⟨config, hconfig⟩ := (ready_iff h hp).mp hready
    exact ⟨config, p, getNode_placed h hp, hconfig⟩

theorem nodeFiles_owned (nodeId : String) (file : OutFile)
    (h : (nodeFiles crypto cfg store xray haproxy nodeId file).isSome = true) :
    nodeId = file.1 := by
  by_contra hother
  rw [nodeFiles, if_neg hother] at h
  cases h

theorem nodeFile?_isSome {nodeId name : String}
    (h : (nodeFile? crypto cfg store xray haproxy nodeId name).isSome = true) :
    nodeFailure crypto cfg store nodeId = none ∧
      (xray = true ∧ name = configJson ∨ haproxy = true ∧ name = haproxyCfg) := by
  have hok : ∀ {p : Placed} {config : XrayConfig}, getNode cfg nodeId = .ok p →
      renderNode crypto cfg store p = .ok config → nodeFailure crypto cfg store nodeId = none := by
    intro p config hnode hconfig
    simp [nodeFailure, hnode, hconfig, bind, Except.bind]
  rw [nodeFile?] at h
  split at h
  · rename_i hjson
    rw [Option.isSome_map] at h
    obtain ⟨config, hconfig⟩ := Option.isSome_iff_exists.mp h
    rw [toOption_eq_some, bind_eq_ok] at hconfig
    obtain ⟨p, hnode, hconfig⟩ := hconfig
    exact ⟨hok hnode hconfig, .inl hjson⟩
  · split at h
    · rename_i hcfg
      rw [Option.isSome_map] at h
      obtain ⟨proxy, hproxy⟩ := Option.isSome_iff_exists.mp h
      simp only [toOption_eq_some, bind_eq_ok, nodeHaproxy] at hproxy
      obtain ⟨p, hnode, ctx, hcontext, -⟩ := hproxy
      have hconfig : renderNode crypto cfg store p = .ok (xrayConfig ctx) := by
        rw [renderNode_eq, hcontext]
        rfl
      exact ⟨hok hnode hconfig, .inr hcfg⟩
    · cases h

theorem office_headers : HeadersChecked Sample.office.toConglomerateConfig := by
  intro cdn hcdn
  cases hcdn
  decide

end HexRift
