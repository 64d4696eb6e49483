import HexRift.Model.Portal
import HexRift.Verification.Entries

/-! # Validation is sound for rendering

The resolvers and builders raise where a block, a node or a listener is missing. Whatever
they look up has been checked by the validator, so with the stored keys in place and room in
the WireGuard subnets nothing raises. -/

namespace HexRift

open Checks

variable {cfg : ConglomerateConfig} {crypto : Crypto} {store : KeyStore}

/-! ## Names derived from a Reality dest -/

theorem extractHost_total (dest : HostPort) : ∃ host, extractHost dest.val = .ok host := by
  have hparses := dest.parses
  unfold extractHost
  split
  · rename_i rest heq
    cases hclose : Python.partition ']' rest with
    | some parts => exact ⟨_, rfl⟩
    | none =>
        simp [parseHostPort, heq, hclose, Except.isOk, Except.toBool, throw, throwThe,
          MonadExceptOf.throw, bind, Except.bind] at hparses
  · exact ⟨_, rfl⟩

theorem deriveServerNames_total (reality : RealityConfig) :
    ∃ name names, deriveServerNames reality = .ok (name :: names) := by
  unfold deriveServerNames
  cases hnames : reality.serverNames with
  | none =>
      obtain ⟨host, hhost⟩ := extractHost_total reality.dest
      exact ⟨host, [], by rw [hhost]; rfl⟩
  | some names =>
      cases names with
      | nil => exact absurd hnames reality.serverNames_ne
      | cons name names => exact ⟨name, names, rfl⟩

theorem deriveXhttpHost_total (reality : RealityConfig) (xhttp : XhttpConfig) :
    ∃ host, deriveXhttpHost reality xhttp = .ok host := by
  unfold deriveXhttpHost
  cases xhttp.host with
  | none => exact extractHost_total reality.dest
  | some host => exact ⟨_, rfl⟩

/-! ## Certificates of the listeners -/

/-- Where the node's Hysteria listener has no certificate of an operator, one is signed for its
name. -/
def CertificateSigned (crypto : Crypto) (cfg : ConglomerateConfig) (region : Region) (node : Node)
    (keys : NodeKeys) : Prop :=
  ∀ hysteria reality sni, resolveNodeHysteria node region cfg.defaults = some hysteria →
    hysteria.certificate = none → resolveNodeReality node region cfg.defaults = .ok reality →
      deriveHysteriaSni hysteria reality = .ok sni →
        ∃ cert, deriveHysteriaCertificate crypto keys.realityPrivateKey sni cfg.ns.name
          (hysteria.keyType.getD hysteriaDerivedKeyType) = .ok cert

/-- Certificates are signed for every listener of the topology, whatever its keys. -/
def CertificatesSigned (crypto : Crypto) (cfg : ConglomerateConfig) : Prop :=
  ∀ p ∈ allNodes cfg, ∀ keys, CertificateSigned crypto cfg p.1 p.2 keys

theorem deriveHysteriaSni_total (hysteria : HysteriaConfig) (reality : RealityConfig) :
    ∃ sni, deriveHysteriaSni hysteria reality = .ok sni := by
  unfold deriveHysteriaSni
  cases hysteria.sni with
  | some sni => exact ⟨_, rfl⟩
  | none =>
      obtain ⟨name, names, hnames⟩ := deriveServerNames_total reality
      exact ⟨name, by rw [hnames]; rfl⟩

theorem deriveHysteriaEndpoint_total {region : Region} {node : Node} {hysteria : HysteriaConfig}
    {reality : RealityConfig} {keys : NodeKeys}
    (hsigned : CertificateSigned crypto cfg region node keys)
    (hhysteria : resolveNodeHysteria node region cfg.defaults = some hysteria)
    (hreality : resolveNodeReality node region cfg.defaults = .ok reality) :
    ∃ ep, deriveHysteriaEndpoint crypto hysteria reality keys.realityPrivateKey cfg.ns.name =
      .ok ep := by
  obtain ⟨sni, hsni⟩ := deriveHysteriaSni_total hysteria reality
  unfold deriveHysteriaEndpoint
  rw [hsni]
  cases hcertificate : hysteria.certificate with
  | some certificate => exact ⟨_, rfl⟩
  | none =>
      obtain ⟨cert, hcert⟩ := hsigned hysteria reality sni hhysteria hcertificate hreality hsni
      simp only [bind, Except.bind, hcert]
      exact ⟨_, rfl⟩

/-! ## Reality and XHTTP of a node -/

theorem Accepted.exitRegion (h : Accepted cfg) {r : ExitRegion} (hr : r ∈ cfg.exitRegions) :
    ExitRegionOk r :=
  (h.region _ (mem_exitRegions.mp hr)).kind

theorem Accepted.exit_reality (h : Accepted cfg) {r : ExitRegion} (hr : r ∈ cfg.exitRegions)
    {n : ExitNode} (hn : n ∈ r.nodes) :
    ∃ reality, resolveNodeReality (.exit n) (.exit r) cfg.defaults = .ok reality := by
  obtain ⟨reality, hreality⟩ := Option.isSome_iff_exists.mp ((h.exitRegion hr).reality n hn)
  refine ⟨reality, ?_⟩
  unfold resolveNodeReality
  rw [show (Node.exit n).reality = some reality from hreality]

/-- A region that serves no TLS has a Reality config for each node. -/
theorem hub_reality {r : HubRegion} {defaults : DefaultsConfig}
    (htls : resolveRegionTls r defaults = .ok none) (n : HubNode) :
    ∃ reality, resolveNodeReality (.hub n) (.hub r) defaults = .ok reality := by
  unfold resolveNodeReality
  cases (Node.hub n).reality with
  | some reality => exact ⟨reality, rfl⟩
  | none =>
      cases hor : r.reality.or defaults.hub.reality with
      | some reality => exact ⟨reality, by simp [hor]⟩
      | none =>
          rw [Option.or_eq_none_iff] at hor
          have hsecurity := defaults.hub.one_direct_security
          simp only [hor.2, Option.isNone_none, ne_eq, Bool.true_eq, Option.isNone_iff_eq_none]
            at hsecurity
          unfold resolveRegionTls at htls
          rw [hor.1] at htls
          cases hown : r.tls with
          | none => simp_all
          | some tls =>
              cases hbase : defaults.hub.tls with
              | none => exact absurd hbase hsecurity
              | some base => simp [hown, hbase] at htls

theorem Accepted.node_xhttp (h : Accepted cfg) {region : Region} (hr : region ∈ cfg.regions)
    {node : Node} (hn : node ∈ region.nodes) :
    ∃ xhttp, resolveNodeXhttp node region cfg.defaults = .ok xhttp :=
  (h.region region hr).xhttp node hn

/-! ## Inbounds -/

/-- A choice between two results does not raise. -/
theorem ite_total {α : Type} {p : Prop} [Decidable p] {a b : α} :
    ∃ x, (if p then pure a else pure b : Except Error α) = .ok x := by
  by_cases hp : p
  · exact ⟨a, if_pos hp⟩
  · exact ⟨b, if_neg hp⟩

theorem realityContext_total {env : InboundEnv} (xhttp : XhttpConfig) (clients : List ClientEntry)
    (shortIds : List String)
    (hreality : ∃ reality, resolveNodeReality env.node env.region env.cfg.defaults = .ok reality) :
    ∃ ctx, realityContext env xhttp clients shortIds = .ok ctx := by
  obtain ⟨reality, hreality⟩ := hreality
  obtain ⟨host, hhost⟩ := deriveXhttpHost_total reality xhttp
  obtain ⟨name, names, hnames⟩ := deriveServerNames_total reality
  unfold realityContext
  rw [hreality]
  simp only [bind, Except.bind, hhost, hnames]
  exact ⟨_, rfl⟩

theorem buildExitXhttp_total (h : Accepted cfg) {r : ExitRegion} (hr : r ∈ cfg.exitRegions)
    {n : ExitNode} (hn : n ∈ r.nodes) (keys : NodeKeys) :
    ∃ ctx, buildXhttp (exitEnv crypto cfg r n keys) = .ok ctx := by
  obtain ⟨xhttp, hxhttp⟩ := h.node_xhttp (mem_exitRegions.mp hr) (List.mem_map_of_mem hn)
  obtain ⟨ctx, hctx⟩ : ∃ ctx, realityContext (exitEnv crypto cfg r n keys) xhttp
      (getExitClients crypto.uuid5 cfg.ns (exitEnv crypto cfg r n keys).hubNodes n keys.flow)
      [cfg.ns.exitShortId crypto n.id.val] = .ok ctx :=
    realityContext_total xhttp _ _ (h.exit_reality hr hn)
  refine ⟨ctx, ?_⟩
  rw [← hctx, buildXhttp]
  rw [show resolveNodeXhttp (exitEnv crypto cfg r n keys).node (exitEnv crypto cfg r n keys).region
    (exitEnv crypto cfg r n keys).cfg.defaults = .ok xhttp from hxhttp]
  rfl

theorem Accepted.region_tls (h : Accepted cfg) {r : HubRegion}
    (hr : Region.hub r ∈ cfg.regions) :
    ∃ tls, resolveRegionTls r cfg.defaults = .ok tls ∧ ∀ n ∈ r.nodes,
      (resolveNodeHysteria (.hub n) (.hub r) cfg.defaults).isSome = true → tls = none := by
  obtain ⟨tls, htls, hnodes⟩ : HubRegionOk cfg r := (h.region _ hr).kind
  refine ⟨tls, htls, ?_⟩
  intro n hn hhysteria
  have hnot := (hnodes n hn).2
  cases tls with
  | none => rfl
  | some tls => exact absurd ⟨rfl, hhysteria⟩ hnot

theorem buildHubXhttp_total (h : Accepted cfg) {r : HubRegion} (hr : Region.hub r ∈ cfg.regions)
    {n : HubNode} (hn : n ∈ r.nodes) (keys : NodeKeys) :
    ∃ ctx, buildXhttp (hubEnv crypto cfg r n keys) = .ok ctx := by
  obtain ⟨xhttp, hxhttp⟩ := h.node_xhttp hr (List.mem_map_of_mem hn)
  obtain ⟨tls, htls, -⟩ := h.region_tls hr
  have hbuild : buildXhttp (hubEnv crypto cfg r n keys) =
      buildHubXhttp (hubEnv crypto cfg r n keys) xhttp := by
    rw [buildXhttp]
    rw [show resolveNodeXhttp (hubEnv crypto cfg r n keys).node (hubEnv crypto cfg r n keys).region
      (hubEnv crypto cfg r n keys).cfg.defaults = .ok xhttp from hxhttp]
    rfl
  rw [hbuild, buildHubXhttp]
  simp only [hubEnv, InboundEnv.hubRegion, bind, Except.bind, htls]
  cases tls with
  | some tls => exact ⟨_, rfl⟩
  | none => exact realityContext_total _ _ _ (hub_reality htls n)

theorem buildHysteria_total {env : InboundEnv} {clients : List ClientEntry}
    (hclients : hysteriaClients env = .ok clients)
    (hreality : (resolveNodeHysteria env.node env.region env.cfg.defaults).isSome = true →
      ∃ reality, resolveNodeReality env.node env.region env.cfg.defaults = .ok reality)
    (hsigned : clients ≠ [] →
      CertificateSigned env.crypto env.cfg env.region env.node env.nodeKeys) :
    ∃ ctx, buildHysteria env = .ok ctx := by
  unfold buildHysteria
  cases hhysteria : resolveNodeHysteria env.node env.region env.cfg.defaults with
  | none => exact ⟨none, rfl⟩
  | some hysteria =>
      obtain ⟨reality, hreality⟩ := hreality (by simp [hhysteria])
      simp only [hclients, bind, Except.bind, hreality]
      by_cases hnone : clients = []
      · exact ⟨none, if_pos hnone⟩
      · obtain ⟨ep, hep⟩ : ∃ ep, deriveHysteriaEndpoint env.crypto hysteria reality
            env.nodeKeys.realityPrivateKey env.ns.name = .ok ep :=
          deriveHysteriaEndpoint_total (hsigned hnone) hhysteria hreality
        rw [if_neg hnone, hep]
        exact ⟨_, rfl⟩

/-- A subnet of several addresses for a hub's WireGuard, with room for every identity beside
the server. -/
def WireguardFits (crypto : Crypto) (cfg : ConglomerateConfig) (node : HubNode) : Prop :=
  ∃ wireguard, resolveNodeWireguard node cfg.defaults = .ok wireguard ∧ ∀ w ∈ wireguard,
    1 < w.subnet.numAddresses ∧
      (cfg.users.flatMap (wireguardIdentities crypto.uuid5 cfg.ns)).length < w.subnet.hosts.length

theorem iterHubWireguardAllocs_total {w : WireguardConfig} (hlarge : 1 < w.subnet.numAddresses)
    (hroom : (cfg.users.flatMap (wireguardIdentities crypto.uuid5 cfg.ns)).length <
      w.subnet.hosts.length) :
    ∃ peers, iterHubWireguardAllocs crypto.uuid5 cfg.users cfg.ns w.subnet = .ok peers := by
  obtain ⟨peers, hpeers⟩ : ∃ peers, allocateFrom w.subnet 1
      (cfg.users.flatMap (wireguardIdentities crypto.uuid5 cfg.ns)) = .ok peers :=
    allocateFrom_total hroom
  exact ⟨peers, iterHubWireguardAllocs_eq_ok.mpr
    ⟨w.subnet.hostsIterate_iff.mpr hlarge, hpeers⟩⟩

theorem buildWireguard_total {r : HubRegion} {n : HubNode} (hfits : WireguardFits crypto cfg n)
    (keys : NodeKeys) : ∃ ctx, buildWireguard (hubEnv crypto cfg r n keys) = .ok ctx := by
  obtain ⟨wireguard, hwireguard, hroom⟩ := hfits
  simp only [buildWireguard, hubEnv, InboundEnv.hubNode, bind, Except.bind, hwireguard]
  cases wireguard with
  | none => exact ⟨none, rfl⟩
  | some w =>
      obtain ⟨hlarge, hlength⟩ := hroom w rfl
      obtain ⟨peers, hpeers⟩ : ∃ peers,
          iterHubWireguardAllocs crypto.uuid5 cfg.users cfg.ns w.subnet = .ok peers :=
        iterHubWireguardAllocs_total hlarge hlength
      have hlist : ∃ entries, getHubWireguardPeers crypto cfg.users cfg.ns w.subnet
          keys.realityPrivateKey w.keepalive = .ok entries := by
        rw [getHubWireguardPeers, hpeers]
        exact ⟨_, rfl⟩
      obtain ⟨entries, hentries⟩ := hlist
      simp only [InboundEnv.ns, hentries]
      exact ite_total

theorem buildSlots_exit_total (h : Accepted cfg) {r : ExitRegion} (hr : r ∈ cfg.exitRegions)
    {n : ExitNode} (hn : n ∈ r.nodes) {keys : NodeKeys}
    (hsigned : cfg.hubRegions.flatMap (·.nodes) ≠ [] →
      CertificateSigned crypto cfg (.exit r) (.exit n) keys) :
    ∃ slots, buildSlots (exitEnv crypto cfg r n keys) = .ok slots := by
  obtain ⟨xhttp, hxhttp⟩ : ∃ ctx, buildXhttp (exitEnv crypto cfg r n keys) = .ok ctx :=
    buildExitXhttp_total h hr hn keys
  obtain ⟨hysteria, hhysteria⟩ : ∃ ctx, buildHysteria (exitEnv crypto cfg r n keys) = .ok ctx :=
    buildHysteria_total rfl (fun _ => h.exit_reality hr hn)
      fun hclients => hsigned fun hnone => hclients (List.map_eq_nil_iff.mpr hnone)
  obtain ⟨cdn, hcdn⟩ : ∃ ctx, buildCdn (exitEnv crypto cfg r n keys) = .ok ctx := by
    unfold buildCdn
    split
    · exact ⟨_, rfl⟩
    · exact ⟨none, rfl⟩
  have htype : (exitEnv crypto cfg r n keys).region.type = .exit := rfl
  simp only [buildSlots, hxhttp, hcdn, htype, hhysteria, bind, Except.bind]
  exact ⟨_, rfl⟩

theorem buildXdns_total {r : HubRegion} {n : HubNode} (keys : NodeKeys) :
    ∃ ctx, buildXdns (hubEnv crypto cfg r n keys) = .ok ctx := by
  simp only [buildXdns, hubEnv, InboundEnv.hubNode, bind, Except.bind]
  cases resolveNodeXdns n cfg.defaults with
  | none => exact ⟨none, rfl⟩
  | some xdns =>
      exact ite_total

theorem buildHubCdn_total {r : HubRegion} {n : HubNode} (keys : NodeKeys) :
    ∃ ctx, buildCdn (hubEnv crypto cfg r n keys) = .ok ctx := by
  unfold buildCdn
  split
  · exact ⟨_, rfl⟩
  · exact ⟨none, rfl⟩

theorem buildHubHysteria_total (h : Accepted cfg) {r : HubRegion}
    (hr : Region.hub r ∈ cfg.regions) {n : HubNode} (hn : n ∈ r.nodes) {keys : NodeKeys}
    (hsigned : getHubAccessClients crypto.uuid5 cfg.ns cfg.users .hysteria "" true ≠ [] →
      CertificateSigned crypto cfg (.hub r) (.hub n) keys) :
    ∃ ctx, buildHysteria (hubEnv crypto cfg r n keys) = .ok ctx := by
  obtain ⟨tls, htls, hnone⟩ := h.region_tls hr
  refine buildHysteria_total rfl (fun hsome => ?_) hsigned
  exact hub_reality (hnone n hn hsome ▸ htls) n

theorem buildSlots_hub_total (h : Accepted cfg) {r : HubRegion} (hr : Region.hub r ∈ cfg.regions)
    {n : HubNode} (hn : n ∈ r.nodes) (hfits : WireguardFits crypto cfg n) {keys : NodeKeys}
    (hsigned : getHubAccessClients crypto.uuid5 cfg.ns cfg.users .hysteria "" true ≠ [] →
      CertificateSigned crypto cfg (.hub r) (.hub n) keys) :
    ∃ slots, buildSlots (hubEnv crypto cfg r n keys) = .ok slots := by
  obtain ⟨xhttp, hxhttp⟩ : ∃ ctx, buildXhttp (hubEnv crypto cfg r n keys) = .ok ctx :=
    buildHubXhttp_total h hr hn keys
  obtain ⟨hysteria, hhysteria⟩ : ∃ ctx, buildHysteria (hubEnv crypto cfg r n keys) = .ok ctx :=
    buildHubHysteria_total h hr hn hsigned
  obtain ⟨cdn, hcdn⟩ : ∃ ctx, buildCdn (hubEnv crypto cfg r n keys) = .ok ctx :=
    buildHubCdn_total keys
  obtain ⟨proxy, hproxy⟩ : ∃ ctx, buildProxy (hubEnv crypto cfg r n keys) = .ok ctx := by
    simp only [buildProxy, hubEnv, InboundEnv.hubNode, bind, Except.bind]
    exact ite_total
  obtain ⟨xdns, hxdns⟩ : ∃ ctx, buildXdns (hubEnv crypto cfg r n keys) = .ok ctx :=
    buildXdns_total keys
  obtain ⟨wireguard, hwireguard⟩ : ∃ ctx, buildWireguard (hubEnv crypto cfg r n keys) = .ok ctx :=
    buildWireguard_total hfits keys
  have htype : (hubEnv crypto cfg r n keys).region.type = .hub := rfl
  simp only [buildSlots, hxhttp, hcdn, htype, hproxy, hxdns, hwireguard, hhysteria, bind,
    Except.bind]
  exact ⟨_, rfl⟩

/-! ## Links -/

theorem buildLink_total (h : Accepted cfg) {r : ExitRegion} (hr : r ∈ cfg.exitRegions)
    {n : ExitNode} (hn : n ∈ r.nodes) {env : LinkEnv} (hcfg : env.cfg = cfg)
    (hregion : env.exitRegion = r) (hnode : env.exitNode = n)
    (hsigned : resolveLinkProtocol r = .hysteria →
      CertificateSigned env.crypto cfg (.exit r) (.exit n) env.exitKeys) (uid : UUID)
    (pre : String) : ∃ link, buildLink env uid pre = .ok link := by
  subst hcfg hregion hnode
  obtain ⟨reality, hreality⟩ := h.exit_reality hr hn
  have hdial : ∃ dial, buildDial env uid = .ok dial := by
    unfold buildDial
    cases hprotocol : resolveLinkProtocol env.exitRegion with
    | vless =>
        obtain ⟨xhttp, hxhttp⟩ := h.node_xhttp (mem_exitRegions.mp hr) (List.mem_map_of_mem hn)
        obtain ⟨name, names, hnames⟩ := deriveServerNames_total reality
        obtain ⟨host, hhost⟩ := deriveXhttpHost_total reality xhttp
        simp only [buildVlessDial, LinkEnv.reality, hreality, hxhttp, hnames, hhost, firstName,
          bind, Except.bind]
        exact ⟨_, rfl⟩
    | hysteria =>
        have hlistens : resolveNodeHysteria (.exit env.exitNode) (.exit env.exitRegion)
            env.cfg.defaults = some (resolveHysteriaOverlay (.exit env.exitNode)
              (.exit env.exitRegion) env.cfg.defaults) := by
          simp [resolveNodeHysteria, hprotocol]
        obtain ⟨ep, hep⟩ : ∃ ep, deriveHysteriaEndpoint env.crypto
            (resolveHysteriaOverlay (.exit env.exitNode) (.exit env.exitRegion) env.cfg.defaults)
            reality env.exitKeys.realityPrivateKey env.ns.name = .ok ep :=
          deriveHysteriaEndpoint_total (hsigned hprotocol) hlistens hreality
        simp only [buildHysteriaDial, hlistens, LinkEnv.reality, hreality, hep, bind, Except.bind]
        exact ⟨_, rfl⟩
  obtain ⟨dial, hdial⟩ := hdial
  rw [buildLink, hdial]
  exact ⟨_, rfl⟩

theorem buildLinks_total (h : Accepted cfg) {hub : HubNode} {exitKeys : String → Option NodeKeys}
    {r : ExitRegion} (hr : r ∈ cfg.exitRegions) {n : ExitNode} (hn : n ∈ r.nodes)
    {keys : NodeKeys} (hkeys : exitKeys n.id.val = some keys)
    (hsigned : resolveLinkProtocol r = .hysteria →
      CertificateSigned crypto cfg (.exit r) (.exit n) keys) :
    ∃ links, buildLinks crypto cfg hub exitKeys r n = .ok links := by
  have htotal : ∀ uid pre, ∃ link, buildLink {
      crypto := crypto, cfg := cfg, hub := hub, exitRegion := r, exitNode := n, exitKeys := keys
      exitConnections := resolveExitConnections hub cfg.defaults } uid pre = .ok link :=
    buildLink_total h hr hn rfl rfl rfl hsigned
  obtain ⟨link, hlink⟩ := htotal (cfg.ns.hubExitUuid crypto.uuid5 hub.id.val n.id.val) (tagPrefix n)
  obtain ⟨warp, hwarp⟩ := htotal (warpUuid (cfg.ns.hubExitUuid crypto.uuid5 hub.id.val n.id.val))
    (TagPrefix.warp ++ tagPrefix n)
  simp only [buildLinks, hkeys, hlink, bind, Except.bind]
  cases r.warp with
  | none => exact ⟨_, rfl⟩
  | some w =>
      simp only [hwarp]
      exact ⟨_, rfl⟩

/-! ## Configs -/

/-- What rendering relies on beside the validator: keys stored for every node, room for the
identities in every hub's WireGuard subnet, and certificates that are signed, as they are where
the primitives are total. -/
structure Provisioned (crypto : Crypto) (cfg : ConglomerateConfig) (store : KeyStore) : Prop where
  keys : ∀ p ∈ allNodes cfg, (store p.2.id.val).isSome = true
  wireguard : ∀ p ∈ hubNodePairs cfg, WireguardFits crypto cfg p.2
  certificates : CertificatesSigned crypto cfg

theorem mem_hubNodePairs {p : HubRegion × HubNode} :
    p ∈ hubNodePairs cfg ↔ Region.hub p.1 ∈ cfg.regions ∧ p.2 ∈ p.1.nodes := by
  obtain ⟨r, n⟩ := p
  simp only [hubNodePairs, List.mem_flatMap, List.mem_map, Prod.mk.injEq, mem_hubRegions]
  constructor
  · rintro ⟨q, hq, m, hm, rfl, rfl⟩
    exact ⟨hq, hm⟩
  · rintro ⟨hr, hn⟩
    exact ⟨r, hr, n, hn, rfl, rfl⟩

theorem Provisioned.exit_keys (hstore : Provisioned crypto cfg store) {r : ExitRegion}
    (hr : r ∈ cfg.exitRegions) {n : ExitNode} (hn : n ∈ r.nodes) :
    ∃ keys, store n.id.val = some keys :=
  Option.isSome_iff_exists.mp
    (hstore.keys (.exit r, .exit n) (mem_allNodes (mem_exitRegions.mp hr) (List.mem_map_of_mem hn)))

theorem Provisioned.hub_keys (hstore : Provisioned crypto cfg store) {r : HubRegion}
    (hr : Region.hub r ∈ cfg.regions) {n : HubNode} (hn : n ∈ r.nodes) :
    ∃ keys, store n.id.val = some keys :=
  Option.isSome_iff_exists.mp
    (hstore.keys (.hub r, .hub n) (mem_allNodes hr (List.mem_map_of_mem hn)))

theorem Provisioned.exit_certificate (hstore : Provisioned crypto cfg store) {r : ExitRegion}
    (hr : r ∈ cfg.exitRegions) {n : ExitNode} (hn : n ∈ r.nodes) (keys : NodeKeys) :
    CertificateSigned crypto cfg (.exit r) (.exit n) keys :=
  hstore.certificates _ (mem_allNodes (mem_exitRegions.mp hr) (List.mem_map_of_mem hn)) keys

theorem renderExit_total (h : Accepted cfg) (hstore : Provisioned crypto cfg store)
    {r : ExitRegion} (hr : r ∈ cfg.exitRegions) {n : ExitNode} (hn : n ∈ r.nodes) :
    ∃ config, renderExit crypto cfg store r n = .ok config := by
  obtain ⟨keys, hkeys⟩ := hstore.exit_keys hr hn
  obtain ⟨slots, hslots⟩ : ∃ slots, buildSlots (exitEnv crypto cfg r n keys) = .ok slots :=
    buildSlots_exit_total h hr hn fun _ => hstore.exit_certificate hr hn keys
  rw [renderExit, loadNodeKeys_eq_ok.mpr hkeys]
  simp only [buildExitContext, bind, Except.bind, hslots]
  exact ⟨_, rfl⟩

theorem renderHub_total (h : Accepted cfg) (hstore : Provisioned crypto cfg store)
    {r : HubRegion} (hr : Region.hub r ∈ cfg.regions) {n : HubNode} (hn : n ∈ r.nodes) :
    ∃ config, renderHub crypto cfg store r n = .ok config := by
  obtain ⟨keys, hkeys⟩ := hstore.hub_keys hr hn
  obtain ⟨slots, hslots⟩ : ∃ slots, buildSlots (hubEnv crypto cfg r n keys) = .ok slots :=
    buildSlots_hub_total h hr hn (hstore.wireguard (r, n) (mem_hubNodePairs.mpr ⟨hr, hn⟩))
      fun _ => hstore.certificates _ (mem_allNodes hr (List.mem_map_of_mem hn)) keys
  obtain ⟨exitKeys, hexitKeys⟩ : ∃ loaded, mapEach
      (cfg.exitRegions.flatMap fun r => r.nodes.map (·.id.val))
      (fun id => do pure (id, ← loadNodeKeys store id)) = .ok loaded := by
    rw [mapEach_total]
    intro id hid
    obtain ⟨q, hq, hid⟩ := List.mem_flatMap.mp hid
    obtain ⟨m, hm, rfl⟩ := List.mem_map.mp hid
    obtain ⟨keys, hkeys⟩ := hstore.exit_keys hq hm
    exact ⟨_, by rw [loadNodeKeys_eq_ok.mpr hkeys]; rfl⟩
  obtain ⟨links, hlinks⟩ : ∃ links, mapEach (renderedExitNodes cfg) (fun p =>
      buildLinks crypto cfg n (fun id => exitKeys.lookup id) p.1 p.2) = .ok links := by
    rw [mapEach_total]
    intro p hp
    obtain ⟨hq, hm⟩ := mem_renderedExitNodes.mp hp
    have hid : p.2.id.val ∈ cfg.exitRegions.flatMap fun r => r.nodes.map (·.id.val) :=
      List.mem_flatMap.mpr ⟨p.1, hq, List.mem_map_of_mem hm⟩
    have hlookup := lookup_loaded (fun id => id) hexitKeys hid
    obtain ⟨keys, hkeys⟩ := hstore.exit_keys hq hm
    exact buildLinks_total h hq hm (hlookup.trans hkeys)
      fun _ => hstore.exit_certificate hq hm keys
  rw [renderHub, loadNodeKeys_eq_ok.mpr hkeys]
  simp only [buildHubContext, buildBalancers_eq, buildHubRoutingRules_eq h, bind, Except.bind,
    hslots] at hexitKeys ⊢
  simp only [hexitKeys, hlinks]
  exact ⟨_, rfl⟩

/-- A hub that serves Reality has a first server name. -/
theorem buildXhttp_names {r : HubRegion} {n : HubNode} {keys : NodeKeys} {ctx : XhttpContext}
    (h : buildXhttp (hubEnv crypto cfg r n keys) = .ok ctx) :
    (∃ certificate, ctx.security = .tls certificate) ∨
      ∃ shortIds dest name names privateKey limits,
        ctx.security = .reality shortIds dest (name :: names) privateKey limits := by
  obtain ⟨xhttp, -, ⟨tls, -, rfl⟩ | ⟨-, hreality⟩⟩ := buildXhttp_hub_cases h
  · exact .inl ⟨tls.certificate, rfl⟩
  · obtain ⟨reality, names, -, hnames, -, heq⟩ := realityContext_eq_ok hreality
    obtain ⟨name, rest, hfirst⟩ := deriveServerNames_total reality
    rw [hfirst] at hnames
    rw [← Except.ok.inj hnames] at heq
    exact .inr ⟨_, _, name, rest, _, _, congrArg XhttpContext.security heq⟩

theorem reverseDialOutbound_total (h : Accepted cfg) {r : HubRegion}
    (hr : Region.hub r ∈ cfg.regions) {n : HubNode} (hn : n ∈ r.nodes) (portal : Portal)
    (keys : NodeKeys) (fingerprint : String) :
    ∃ dial, reverseDialOutbound crypto cfg portal r n keys fingerprint = .ok dial := by
  obtain ⟨ctx, hctx⟩ : ∃ ctx, buildXhttp (hubEnv crypto cfg r n keys) = .ok ctx :=
    buildHubXhttp_total h hr hn keys
  obtain ⟨security, hsecurity⟩ : ∃ security,
      dialSecurity cfg.ns crypto portal n keys fingerprint ctx.security = .ok security := by
    rcases buildXhttp_names hctx with ⟨certificate, heq⟩ | ⟨_, _, name, names, _, _, heq⟩
    · rw [heq]
      exact ⟨_, rfl⟩
    · rw [heq]
      exact ⟨_, rfl⟩
  simp only [reverseDialOutbound, hctx, hsecurity, bind, Except.bind]
  exact ⟨_, rfl⟩

theorem genPortal_total (h : Accepted cfg) (hstore : Provisioned crypto cfg store)
    {portal : Portal} (hportal : portal ∈ cfg.portals) (fingerprint : String) :
    ∃ config, genPortal crypto cfg store portal.id.val fingerprint = .ok config := by
  have hid : portal.id.val ∈ cfg.portals.map (·.id.val) := List.mem_map_of_mem hportal
  obtain ⟨loaded, hloaded⟩ : ∃ loaded, mapEach (hubNodePairs cfg)
      (fun p => do pure (p.2.id.val, ← loadNodeKeys store p.2.id.val)) = .ok loaded := by
    rw [mapEach_total]
    intro p hp
    obtain ⟨hr, hn⟩ := mem_hubNodePairs.mp hp
    obtain ⟨keys, hkeys⟩ := hstore.hub_keys hr hn
    exact ⟨_, by rw [loadNodeKeys_eq_ok.mpr hkeys]; rfl⟩
  have hconfig : ∃ config, buildPortalConfig crypto cfg portal.id.val
      (fun id => loaded.lookup id) fingerprint = .ok config := by
    unfold buildPortalConfig
    cases hfind : cfg.portals.find? fun p => p.id.val = portal.id.val with
    | none =>
        rw [List.find?_eq_none] at hfind
        exact absurd (decide_eq_true rfl) (hfind portal hportal)
    | some found =>
        obtain ⟨dials, hdials⟩ : ∃ dials, mapEach (hubNodePairs cfg) (fun p =>
            dialHub crypto cfg found (fun id => loaded.lookup id) fingerprint p.1 p.2) =
              .ok dials := by
          rw [mapEach_total]
          intro p hp
          obtain ⟨hr, hn⟩ := mem_hubNodePairs.mp hp
          obtain ⟨keys, hkeys⟩ := hstore.hub_keys hr hn
          have hlookup := lookup_loaded (fun p : HubRegion × HubNode => p.2.id.val) hloaded hp
          simp only [dialHub, hlookup, hkeys]
          exact reverseDialOutbound_total h hr hn found keys fingerprint
        simp only [bind, Except.bind, hdials]
        exact ⟨_, rfl⟩
  obtain ⟨config, hconfig⟩ := hconfig
  refine ⟨config, ?_⟩
  rw [genPortal, ensure, if_pos hid]
  simp only [bind, Except.bind] at hloaded ⊢
  simp only [hloaded]
  exact hconfig

/-- Every node and every portal of an accepted topology renders. -/
theorem accepted_renders (cfg : AcceptedConfig)
    (hstore : Provisioned crypto cfg.toConglomerateConfig store) :
    (∀ p ∈ cfg.placed, ∃ config,
      renderNode crypto cfg.toConglomerateConfig store p = .ok config) ∧
    ∀ portal ∈ cfg.portals, ∀ fingerprint : String, ∃ config,
      genPortal crypto cfg.toConglomerateConfig store portal.id.val fingerprint = .ok config := by
  constructor
  · intro p hp
    obtain ⟨region, hregion, hp⟩ := List.mem_flatMap.mp hp
    cases region with
    | exit r =>
        obtain ⟨n, hn, rfl⟩ := List.mem_map.mp hp
        exact renderExit_total cfg.spec hstore (mem_exitRegions.mpr hregion) hn
    | hub r =>
        obtain ⟨n, hn, rfl⟩ := List.mem_map.mp hp
        exact renderHub_total cfg.spec hstore hregion hn
  · exact fun portal hportal => genPortal_total cfg.spec hstore hportal

theorem office_provisioned :
    Provisioned Sample.officeCrypto Sample.office.toConglomerateConfig Sample.officeStore := by
  constructor
  · exact fun p _ => rfl
  · intro p hp
    have hnode : p.2 = Sample.officeNode := by
      have hall : ∀ q ∈ hubNodePairs Sample.office.toConglomerateConfig,
          q.2 = Sample.officeNode := by decide
      exact hall p hp
    rw [hnode]
    refine ⟨_, rfl, ?_⟩
    simp only [IPNetwork.hosts_length]
    decide
  · exact fun p _ keys hysteria reality sni _ _ _ _ => ⟨_, rfl⟩

theorem accepted_renders_office :
    (∀ p ∈ Sample.office.placed, ∃ config,
      renderNode Sample.officeCrypto Sample.office.toConglomerateConfig Sample.officeStore p =
        .ok config) ∧
    ∀ portal ∈ Sample.office.portals, ∀ fingerprint : String, ∃ config,
      genPortal Sample.officeCrypto Sample.office.toConglomerateConfig Sample.officeStore
        portal.id.val fingerprint = .ok config :=
  accepted_renders Sample.office office_provisioned

end HexRift
