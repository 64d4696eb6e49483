import HexRift.Verification.Building

/-! # From key generation to built configs

Keys are generated, the nodes built and then the portals, all into one output directory. What is
built depends on the calls of the key generation alone. -/

namespace HexRift

open Checks Generations Writes

variable {cfg : ConglomerateConfig} {crypto : Crypto} {store : KeyStore} {p : Placed}
  {fingerprint : String}

/-! ## Portals -/

/-- The portal is declared, and the keys of every hub node are stored. -/
def PortalReady (cfg : ConglomerateConfig) (store : KeyStore) (portalId : String) : Prop :=
  portalId ∈ cfg.portals.map (·.id.val) ∧
    ∀ q ∈ hubNodePairs cfg, (store q.2.id.val).isSome = true

theorem genPortal_of_ready (h : Accepted cfg) {portalId : String}
    (hready : PortalReady cfg store portalId) :
    ∃ config, genPortal crypto cfg store portalId fingerprint = .ok config := by
  obtain ⟨hid, hkeys⟩ := hready
  obtain ⟨loaded, hloaded⟩ : ∃ loaded, mapEach (hubNodePairs cfg)
      (fun q => do pure (q.2.id.val, ← loadNodeKeys store q.2.id.val)) = .ok loaded := by
    rw [mapEach_total]
    intro q hq
    obtain ⟨keys, hkeys⟩ := Option.isSome_iff_exists.mp (hkeys q hq)
    exact ⟨_, by rw [loadNodeKeys_eq_ok.mpr hkeys]; rfl⟩
  have hdials : ∀ portal : Portal, ∃ dials, mapEach (hubNodePairs cfg) (fun q =>
      dialHub crypto cfg portal (fun id => loaded.lookup id) fingerprint q.1 q.2) = .ok dials := by
    intro portal
    rw [mapEach_total]
    intro q hq
    obtain ⟨hregion, hnode⟩ := mem_hubNodePairs.mp hq
    obtain ⟨keys, hkeys⟩ := Option.isSome_iff_exists.mp (hkeys q hq)
    have hlookup := lookup_loaded (fun q : HubRegion × HubNode => q.2.id.val) hloaded hq
    simp only [dialHub, hlookup, hkeys]
    exact reverseDialOutbound_total h hregion hnode portal keys fingerprint
  obtain ⟨portal, hportal, hself⟩ := List.mem_map.mp hid
  obtain ⟨found, hfound⟩ : ∃ found,
      cfg.portals.find? (fun p => p.id.val = portalId) = some found := by
    refine Option.isSome_iff_exists.mp (List.find?_isSome.mpr ⟨portal, hportal, ?_⟩)
    exact decide_eq_true hself
  obtain ⟨dials, hdials⟩ := hdials found
  rw [genPortal, ensure, if_pos hid]
  simp only [bind, Except.bind] at hloaded ⊢
  simp only [hloaded, buildPortalConfig, hfound, bind, Except.bind, hdials]
  exact ⟨_, rfl⟩

theorem portalReady_iff (h : Accepted cfg) (crypto : Crypto) (fingerprint : String)
    {portalId : String} :
    PortalReady cfg store portalId ↔
      ∃ config, genPortal crypto cfg store portalId fingerprint = .ok config := by
  constructor
  · exact genPortal_of_ready h
  · rintro ⟨config, hconfig⟩
    simp only [genPortal, bind_eq_ok, ensure_eq_ok] at hconfig
    obtain ⟨-, hid, loaded, hloaded, -⟩ := hconfig
    refine ⟨hid, fun q hq => ?_⟩
    obtain ⟨_, hkeys⟩ := mapEach_total.mp ⟨loaded, hloaded⟩ q hq
    simp only [bind_eq_ok] at hkeys
    obtain ⟨keys, hkeys, -⟩ := hkeys
    exact Option.isSome_iff_exists.mpr ⟨keys, loadNodeKeys_eq_ok.mp hkeys⟩

def portalFiles (crypto : Crypto) (cfg : ConglomerateConfig) (store : KeyStore)
    (fingerprint portalId : String) : OutDir :=
  fun file =>
    if portalId = file.1 ∧ file.2 = configJson then
      (genPortal crypto cfg store portalId fingerprint).toOption.map .portal
    else none

def portalFailure (crypto : Crypto) (cfg : ConglomerateConfig) (store : KeyStore)
    (fingerprint portalId : String) : Option Error :=
  match genPortal crypto cfg store portalId fingerprint with
  | .error e => some e
  | .ok _ => none

theorem buildPortal_eq (portalId : String) (out : OutDir) :
    buildPortal crypto cfg store fingerprint portalId out =
      (overlay (portalFiles crypto cfg store fingerprint portalId) out,
        portalFailure crypto cfg store fingerprint portalId) := by
  cases hportal : genPortal crypto cfg store portalId fingerprint with
  | error e =>
      have hnone : portalFiles crypto cfg store fingerprint portalId = fun _ => none := by
        funext file
        simp [portalFiles, hportal, Except.toOption]
      rw [hnone, overlay_none]
      simp [buildPortal, portalFailure, hportal]
  | ok config =>
      have hwritten : overlay (portalFiles crypto cfg store fingerprint portalId) out =
          out.write portalId configJson (.portal config) := by
        funext file
        rw [write_apply, overlay, portalFiles, hportal]
        split <;> rfl
      rw [hwritten]
      simp [buildPortal, portalFailure, hportal]

theorem portalFiles_owned (portalId : String) (file : OutFile)
    (h : (portalFiles crypto cfg store fingerprint portalId file).isSome = true) :
    portalId = file.1 := by
  by_contra hother
  rw [portalFiles, if_neg fun hand => hother hand.1] at h
  cases h

theorem portalFailure_eq_none_iff (h : Accepted cfg) {portalId : String} :
    portalFailure crypto cfg store fingerprint portalId = none ↔
      PortalReady cfg store portalId := by
  rw [portalReady_iff h crypto fingerprint, portalFailure]
  split
  · rename_i e he
    simp [he]
  · rename_i config hconfig
    simp [hconfig]

/-! ## The whole run -/

/-- Whether the calls leave the node with keys. -/
def Equipped (cfg : ConglomerateConfig) (calls : List KeyCall) (nodeId : String) : Prop :=
  ∃ call ∈ calls, call.nodeId = nodeId ∨ call.force = true ∧ Siblings cfg call.nodeId nodeId

/-- Whether the calls leave a node with all the keys it renders from. -/
def Placed.Equipped (cfg : ConglomerateConfig) (calls : List KeyCall) : Placed → Prop
  | .exit _ node => HexRift.Equipped cfg calls node.id.val
  | .hub _ node => HexRift.Equipped cfg calls node.id.val ∧
      ∀ r ∈ cfg.exitRegions, ∀ n ∈ r.nodes, HexRift.Equipped cfg calls n.id.val

/-- The calls of a run, what `build` then did and what `gen-portal` did after it. -/
structure FleetBuilt (crypto : Crypto) (cfg : ConglomerateConfig) (calls : List KeyCall)
    (fingerprint : String) (nodeIds portalIds : List String) (nodes portals : BatchRun) :
    Prop where
  node : ∀ p ∈ cfg.placed, p.node.id.val ∈ nodeIds →
    ((p.node.id.val, none) ∈ nodes.reported ↔ p.Equipped cfg calls)
  portal : ∀ portal ∈ cfg.portals, portal.id.val ∈ portalIds →
    ((portal.id.val, none) ∈ portals.reported ↔
      ∀ q ∈ hubNodePairs cfg, Equipped cfg calls q.2.id.val)
  unknown : (∀ nodeId ∈ nodeIds, (nodeId, none) ∈ nodes.reported →
      ∃ p ∈ cfg.placed, p.node.id.val = nodeId) ∧
    ∀ portalId ∈ portalIds, (portalId, none) ∈ portals.reported →
      portalId ∈ cfg.portals.map (·.id.val)
  nodeFiles : ∀ p ∈ cfg.placed, ∀ name,
    portals.out (p.node.id.val, name) = nodes.out (p.node.id.val, name)
  portalFiles : ∀ portalId, (portalId, none) ∈ portals.reported → ∃ config,
    genPortal crypto cfg (keyRun cfg calls) portalId fingerprint = .ok config ∧
      portals.out (portalId, configJson) = some (.portal config)

theorem isSome_keyRun (h : Accepted cfg) (calls : List KeyCall) (hp : p ∈ cfg.placed) :
    (keyRun cfg calls p.node.id.val).isSome = true ↔ Equipped cfg calls p.node.id.val := by
  rw [Option.isSome_iff_ne_none, ne_eq, (keysLogged_keyRun h calls).eq_none_iff hp,
    Bool.not_eq_false, List.any_eq_true]
  simp only [KeyCall.equips, decide_eq_true_iff, Equipped]

theorem ownReady_keyRun_iff (h : Accepted cfg) (hsigned : CertificatesSigned crypto cfg)
    (calls : List KeyCall) (hp : p ∈ cfg.placed) (needed : Prop) :
    OwnReady crypto cfg (keyRun cfg calls) p needed ↔ Equipped cfg calls p.node.id.val := by
  obtain ⟨hregion, hnode⟩ := mem_placed hp
  rw [← isSome_keyRun h calls hp, Option.isSome_iff_exists]
  constructor
  · rintro ⟨keys, hkeys, -⟩
    exact ⟨keys, hkeys⟩
  · rintro ⟨keys, hkeys⟩
    exact ⟨keys, hkeys, fun _ => hsigned _ (mem_allNodes hregion hnode) keys⟩

theorem ready_keyRun_iff (h : Accepted cfg)
    (hfits : ∀ q ∈ hubNodePairs cfg, WireguardFits crypto cfg q.2)
    (hsigned : CertificatesSigned crypto cfg) (calls : List KeyCall) (hp : p ∈ cfg.placed) :
    p.Ready crypto cfg (keyRun cfg calls) ↔ p.Equipped cfg calls := by
  cases p with
  | exit region node => exact ownReady_keyRun_iff h hsigned calls hp _
  | hub region node =>
      obtain ⟨hregion, hnode⟩ := mem_placed_hub hp
      have hexit : ∀ r ∈ cfg.exitRegions, ∀ n ∈ r.nodes,
          (DialReady crypto cfg (keyRun cfg calls) r n ↔ Equipped cfg calls n.id.val) := by
        intro r hr n hn
        refine ownReady_keyRun_iff (p := .exit r n) h hsigned calls
          (List.mem_flatMap.mpr ⟨.exit r, ?_, ?_⟩) _
        · exact mem_exitRegions.mp hr
        · exact List.mem_map_of_mem hn
      have hown := ownReady_keyRun_iff h hsigned calls hp
        (getHubAccessClients crypto.uuid5 cfg.ns cfg.users .hysteria "" true ≠ [])
      rw [Placed.Ready, Placed.Equipped]
      constructor
      · rintro ⟨hready, hexits, -⟩
        exact ⟨hown.mp hready, fun r hr n hn => (hexit r hr n hn).mp (hexits r hr n hn)⟩
      · rintro ⟨hequipped, hexits⟩
        exact ⟨hown.mpr hequipped, fun r hr n hn => (hexit r hr n hn).mpr (hexits r hr n hn),
          hfits (region, node) (mem_hubNodePairs.mpr ⟨hregion, hnode⟩)⟩

theorem portalReady_keyRun_iff (h : Accepted cfg) (calls : List KeyCall) {portalId : String}
    (hid : portalId ∈ cfg.portals.map (·.id.val)) :
    PortalReady cfg (keyRun cfg calls) portalId ↔
      ∀ q ∈ hubNodePairs cfg, Equipped cfg calls q.2.id.val := by
  rw [PortalReady, and_iff_right hid]
  refine forall₂_congr fun q hq => ?_
  obtain ⟨hregion, hnode⟩ := mem_hubNodePairs.mp hq
  exact isSome_keyRun (p := .hub q.1 q.2) h calls
    (List.mem_flatMap.mpr ⟨.hub q.1, hregion, List.mem_map_of_mem hnode⟩)

theorem node_ne_portal (h : Accepted cfg) (hp : p ∈ cfg.placed) {portalId : String}
    (hid : portalId ∈ cfg.portals.map (·.id.val)) : portalId ≠ p.node.id.val := by
  obtain ⟨portal, hportal, rfl⟩ := List.mem_map.mp hid
  obtain ⟨hregion, hnode⟩ := mem_placed hp
  intro hsame
  refine (h.portals.portal portal hportal).id.1 ?_
  have hmem : p.node.id.val ∈ (allNodes cfg).map fun q => q.2.id.val :=
    List.mem_map_of_mem (mem_allNodes hregion hnode)
  rw [allNodes_ids] at hmem
  exact hsame ▸ hmem

theorem portalFiles_none (h : Accepted cfg) (hp : p ∈ cfg.placed) (portalId name : String) :
    portalFiles crypto cfg store fingerprint portalId (p.node.id.val, name) = none := by
  by_contra hsome
  have hself : portalId = p.node.id.val :=
    portalFiles_owned portalId _ (Option.isSome_iff_ne_none.mpr hsome)
  have hready : PortalReady cfg store portalId := by
    refine (portalReady_iff h crypto fingerprint).mpr ?_
    cases hportal : genPortal crypto cfg store portalId fingerprint with
    | ok config => exact ⟨config, rfl⟩
    | error e =>
        refine absurd ?_ hsome
        simp [portalFiles, hportal, Except.toOption]
  exact node_ne_portal h hp hready.1 hself

theorem mem_reported {failure : String → Option Error} {items : List String} {item : String}
    (hmem : item ∈ items) :
    (item, none) ∈ (items.map fun item => (item, failure item)) ↔ failure item = none := by
  rw [List.mem_map]
  constructor
  · rintro ⟨other, -, heq⟩
    rw [Prod.mk.injEq] at heq
    exact heq.1 ▸ heq.2
  · exact fun hok => ⟨item, hmem, by rw [hok]⟩

/-- After any run of the key generation, where hubs have room and certificates are signed, a node
is built exactly when it has got keys and, for a hub, every exit node has, and a portal exactly
when every hub node has. The portals take nothing from the nodes' output. -/
theorem fleet_built (cfg : AcceptedConfig) (hheaders : HeadersChecked cfg.toConglomerateConfig)
    (hfits : ∀ q ∈ hubNodePairs cfg.toConglomerateConfig,
      WireguardFits crypto cfg.toConglomerateConfig q.2)
    (hsigned : CertificatesSigned crypto cfg.toConglomerateConfig)
    (calls : List KeyCall) (xray haproxy : Bool) (fingerprint : String)
    (nodeIds portalIds : List String) (out : OutDir) :
    FleetBuilt crypto cfg.toConglomerateConfig calls fingerprint nodeIds portalIds
      (buildNodes crypto cfg.toConglomerateConfig (keyRun cfg.toConglomerateConfig calls) xray
        haproxy nodeIds out)
      (genPortals crypto cfg.toConglomerateConfig (keyRun cfg.toConglomerateConfig calls)
        fingerprint portalIds (buildNodes crypto cfg.toConglomerateConfig
          (keyRun cfg.toConglomerateConfig calls) xray haproxy nodeIds out).out) := by
  rw [buildNodes, runBatch_eq (build_eq hheaders), genPortals, runBatch_eq buildPortal_eq]
  constructor
  · intro p hp hmem
    rw [← ready_keyRun_iff cfg.spec hfits hsigned calls hp, mem_reported hmem,
      nodeFailure_eq_none_iff cfg.spec]
    constructor
    · rintro ⟨q, hq, hid, hready⟩
      rwa [← cfg.spec.placed_eq hq hp hid]
    · exact fun hready => ⟨p, hp, rfl, hready⟩
  · intro portal hportal hmem
    rw [← portalReady_keyRun_iff cfg.spec calls (List.mem_map_of_mem hportal), mem_reported hmem,
      portalFailure_eq_none_iff cfg.spec]
  · constructor
    · intro nodeId hmem hreported
      obtain ⟨p, hp, hid, -⟩ := (nodeFailure_eq_none_iff cfg.spec).mp
        ((mem_reported hmem).mp hreported)
      exact ⟨p, hp, hid⟩
    · intro portalId hmem hreported
      exact ((portalFailure_eq_none_iff cfg.spec).mp ((mem_reported hmem).mp hreported)).1
  · intro p hp name
    by_cases hmem : p.node.id.val ∈ portalIds
    · refine (writeAll_of_mem portalFiles_owned hmem _).trans ?_
      rw [portalFiles_none cfg.spec hp]
      rfl
    · exact writeAll_of_not_mem portalFiles_owned hmem _
  · intro portalId hreported
    have hmem : portalId ∈ portalIds := by
      obtain ⟨item, hitem, heq⟩ := List.mem_map.mp hreported
      rw [Prod.mk.injEq] at heq
      exact heq.1 ▸ hitem
    have hready := (portalFailure_eq_none_iff cfg.spec).mp ((mem_reported hmem).mp hreported)
    obtain ⟨config, hconfig⟩ := (portalReady_iff cfg.spec crypto fingerprint).mp
      hready
    refine ⟨config, hconfig, ?_⟩
    refine (writeAll_of_mem portalFiles_owned hmem _).trans ?_
    rw [portalFiles, if_pos ⟨rfl, rfl⟩, hconfig]
    rfl

/-- Only the hub has got keys, so the portal is built and the hub is not. -/
theorem fleet_built_office :
    ∃ nodes portals, nodes = buildNodes Sample.officeCrypto Sample.office.toConglomerateConfig
        (keyRun Sample.office.toConglomerateConfig
          [⟨Sample.officeNode.id.val, false, Sample.freshKeys⟩]) true true
            [Sample.officeNode.id.val] (fun _ => none) ∧
      FleetBuilt Sample.officeCrypto Sample.office.toConglomerateConfig
        [⟨Sample.officeNode.id.val, false, Sample.freshKeys⟩] "chrome"
        [Sample.officeNode.id.val] [Sample.nas.id.val] nodes portals :=
  ⟨_, _, rfl, fleet_built Sample.office office_headers office_provisioned.wireguard
    office_provisioned.certificates [⟨Sample.officeNode.id.val, false, Sample.freshKeys⟩] true true
    "chrome" [Sample.officeNode.id.val] [Sample.nas.id.val] fun _ => none⟩

end HexRift
