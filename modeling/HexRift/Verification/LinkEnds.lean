import HexRift.Library.Distinct
import HexRift.Verification.ClientKeys
import HexRift.Verification.Segments
import HexRift.Verification.Soundness
import HexRift.Verification.Tags

/-! # Both ends of a hub-to-exit link

A hub dials an exit with data it derives from the topology and the exit's stored keys; the
exit derives its listeners from the same. The two derivations are separate code. -/

namespace HexRift

open Checks

variable {cfg : ConglomerateConfig} {crypto : Crypto} {store : KeyStore}

/-! ## Hub-exit identities -/

/-- Base and name of every hub-exit UUID of the topology. -/
def hubExitSeeds (uuid5 : Uuid5) (cfg : ConglomerateConfig) : List (UUID × String) :=
  (hubNodePairs cfg).flatMap fun hub => (renderedExitNodes cfg).map fun exit =>
    (cfg.ns.uuid uuid5, hub.2.id.val ++ "-" ++ exit.2.id.val)

/-- The client an exit lists for a hub. -/
def exitClient (uuid5 : Uuid5) (ns : Namespace) (exit : ExitNode) (flow : String)
    (hub : HubNode) : ClientEntry :=
  { email := ns.hubExitEmail hub.id.val exit.id.val
    id := ns.hubExitUuid uuid5 hub.id.val exit.id.val
    flow := flow }

theorem getExitClients_eq (uuid5 : Uuid5) (ns : Namespace) (hubs : List HubNode)
    (exit : ExitNode) (flow : String) :
    getExitClients uuid5 ns hubs exit flow = hubs.map (exitClient uuid5 ns exit flow) := rfl

theorem hubNodePairs_nodes (cfg : ConglomerateConfig) :
    (hubNodePairs cfg).map Prod.snd = cfg.hubRegions.flatMap (·.nodes) := by
  simp [hubNodePairs, List.map_flatMap, Function.comp_def]

theorem hubNodeIds_nodup (h : Accepted cfg) :
    ((hubNodePairs cfg).map fun p => p.2.id.val).Nodup := by
  have hsub : ∀ regions : List Region,
      (((regions.filterMap Region.hub?).flatMap (·.nodes)).map (·.id.val)).Sublist
        (regions.flatMap fun r => idsOf r.nodes) := by
    intro regions
    induction regions with
    | nil => exact List.nil_sublist _
    | cons region regions ih =>
        rw [List.flatMap_cons]
        cases region with
        | exit r => exact ih.trans (List.sublist_append_right _ _)
        | hub r =>
            have hhub : (Region.hub r).hub? = some r := rfl
            have hown : idsOf (Region.hub r).nodes = r.nodes.map (·.id.val) := by
              rw [idsOf, Region.nodes, List.flatMap_map, List.map_eq_flatMap]
              rfl
            rw [List.filterMap_cons_some hhub, List.flatMap_cons, List.map_append, hown]
            exact (List.Sublist.refl _).append ih
  have hids : ((cfg.hubRegions.flatMap (·.nodes)).map (·.id.val)).Nodup := by
    have hall : (nodeIds cfg).Nodup := by simpa using h.nodeIds
    exact hall.sublist (hsub cfg.regions)
  have hmap := List.map_map (f := Prod.snd) (g := fun n : HubNode => n.id.val)
    (l := hubNodePairs cfg)
  rw [hubNodePairs_nodes] at hmap
  rw [hmap] at hids
  exact hids

/-- Under separate seeds the clients of an exit have distinct keys. -/
theorem exitClients_nodup (h : Accepted cfg)
    (hseeds : crypto.uuid5.SeparatesKeys (hubExitSeeds crypto.uuid5 cfg))
    {p : ExitRegion × ExitNode} (hp : p ∈ renderedExitNodes cfg) (flow : String) :
    (((hubNodePairs cfg).map fun q => exitClient crypto.uuid5 cfg.ns p.2 flow q.2).map
      (·.id.clientKey)).Nodup := by
  have hids := hubNodeIds_nodup h
  rw [List.map_map]
  refine (List.Nodup.of_map _ hids).map_on ?_
  intro q hq q' hq' hkey
  apply List.inj_on_of_nodup_map hids hq hq'
  have hmem : ∀ q ∈ hubNodePairs cfg, (cfg.ns.uuid crypto.uuid5, q.2.id.val ++ "-" ++ p.2.id.val) ∈
      hubExitSeeds crypto.uuid5 cfg := fun q hq =>
    List.mem_flatMap.mpr ⟨q, hq, List.mem_map.mpr ⟨p, hp, rfl⟩⟩
  by_contra hne
  refine hseeds _ (hmem q hq) _ (hmem q' hq') ?_ hkey
  intro heq
  have hname : q.2.id.val ++ "-" ++ p.2.id.val = q'.2.id.val ++ "-" ++ p.2.id.val :=
    congrArg Prod.snd heq
  exact hne ((String.append_left_inj _).mp ((String.append_left_inj _).mp hname))

/-! ## Links of a hub -/

/-- What a hub reads to dial one exit. -/
def linkEnv (crypto : Crypto) (cfg : ConglomerateConfig) (hub : HubNode)
    (exit : ExitRegion × ExitNode) (exitKeys : NodeKeys) : LinkEnv :=
  { crypto := crypto, cfg := cfg, hub := hub, exitRegion := exit.1, exitNode := exit.2
    exitKeys := exitKeys, exitConnections := resolveExitConnections hub cfg.defaults }

/-- A link of the hub to the exit: the plain one, or the warp variant. -/
inductive LinkOf (crypto : Crypto) (cfg : ConglomerateConfig) (hub : HubNode)
    (exit : ExitRegion × ExitNode) (exitKeys : NodeKeys) (link : LinkContext) : Prop where
  | plain (h : buildLink (linkEnv crypto cfg hub exit exitKeys)
      (cfg.ns.hubExitUuid crypto.uuid5 hub.id.val exit.2.id.val) (tagPrefix exit.2) = .ok link)
  | warp (h : buildLink (linkEnv crypto cfg hub exit exitKeys)
      (warpUuid (cfg.ns.hubExitUuid crypto.uuid5 hub.id.val exit.2.id.val))
      (TagPrefix.warp ++ tagPrefix exit.2) = .ok link)

theorem linkOf_of_buildLinks {hub : HubNode} {exitKeys : String → Option NodeKeys}
    {p : ExitRegion × ExitNode} {links : LinkContext × Option LinkContext}
    (h : buildLinks crypto cfg hub exitKeys p.1 p.2 = .ok links) :
    ∃ keys, exitKeys p.2.id.val = some keys ∧ LinkOf crypto cfg hub p keys links.1 ∧
      ∀ link ∈ links.2, LinkOf crypto cfg hub p keys link := by
  unfold buildLinks at h
  cases hkeys : exitKeys p.2.id.val with
  | none =>
      simp only [hkeys] at h
      cases h
  | some keys =>
      simp only [hkeys, bind_eq_ok] at h
      obtain ⟨link, hlink, h⟩ := h
      refine ⟨keys, rfl, ?_⟩
      cases hwarp : p.1.warp with
      | none =>
          simp only [hwarp, pure_eq_ok] at h
          subst h
          exact ⟨.plain hlink, fun link hmem => nomatch hmem⟩
      | some warp =>
          simp only [hwarp, bind_eq_ok, pure_eq_ok] at h
          obtain ⟨wlink, hwlink, rfl⟩ := h
          refine ⟨.plain hlink, ?_⟩
          rintro link hmem
          cases hmem
          exact .warp hwlink

theorem renderLink_of_mem {links : List LinkContext} {outbound : Outbound}
    (h : outbound ∈ links.map renderLink ++ fixedOutbounds) {link : LinkContext}
    (hlink : outbound.link = some link) : link ∈ links ∧ outbound = renderLink link := by
  rcases List.mem_append.mp h with hrendered | hfixed
  · obtain ⟨l, hl, rfl⟩ := List.mem_map.mp hrendered
    cases hlink
    exact ⟨hl, rfl⟩
  · simp only [fixedOutbounds, List.mem_cons, List.not_mem_nil, or_false] at hfixed
    rcases hfixed with rfl | rfl | rfl <;> cases hlink

/-- An outbound of a rendered hub config that is a link has that link's settings. -/
theorem renderLink_of_renderHub {region : HubRegion} {hub : HubNode} {config : XrayConfig}
    (h : renderHub crypto cfg store region hub = .ok config) {outbound : Outbound}
    (houtbound : outbound ∈ config.outbounds) {link : LinkContext}
    (hlink : outbound.link = some link) : outbound = renderLink link := by
  simp only [renderHub, bind_eq_ok, pure_eq_ok] at h
  obtain ⟨keys, -, loaded, -, ctx, -, rfl⟩ := h
  exact (renderLink_of_mem houtbound hlink).2

/-- Every link in a rendered hub config dials an exit with the keys stored for it. -/
theorem linkOf_of_renderHub {region : HubRegion} {hub : HubNode} {config : XrayConfig}
    (h : renderHub crypto cfg store region hub = .ok config) {outbound : Outbound}
    (houtbound : outbound ∈ config.outbounds) {link : LinkContext}
    (hlink : outbound.link = some link) :
    ∃ p ∈ renderedExitNodes cfg, ∃ keys, store p.2.id.val = some keys ∧
      LinkOf crypto cfg hub p keys link := by
  simp only [renderHub, buildHubContext, bind_eq_ok, pure_eq_ok] at h
  obtain ⟨keys, -, loaded, hloaded, ctx, ⟨links, hlinks, slots, -, balancers, -, rules, -, rfl⟩,
    rfl⟩ := h
  have hmem : link ∈ links.map (·.1) ++ links.filterMap (·.2) :=
    (renderLink_of_mem houtbound hlink).1
  have hpair : ∃ pair ∈ links, link = pair.1 ∨ link ∈ pair.2 := by
    rcases List.mem_append.mp hmem with hplain | hwarp
    · obtain ⟨pair, hpair, rfl⟩ := List.mem_map.mp hplain
      exact ⟨pair, hpair, .inl rfl⟩
    · obtain ⟨pair, hpair, hsome⟩ := List.mem_filterMap.mp hwarp
      exact ⟨pair, hpair, .inr hsome⟩
  obtain ⟨pair, hpair, hcase⟩ := hpair
  obtain ⟨p, hp, hbuild⟩ := (mem_mapEach hlinks).mp hpair
  obtain ⟨exitKeys, hkeys, hplain, hwarp⟩ := linkOf_of_buildLinks hbuild
  obtain ⟨hr, hn⟩ := mem_renderedExitNodes.mp hp
  have hid : p.2.id.val ∈ cfg.exitRegions.flatMap fun r => r.nodes.map (·.id.val) :=
    List.mem_flatMap.mpr ⟨p.1, hr, List.mem_map_of_mem hn⟩
  refine ⟨p, hp, exitKeys, ?_, ?_⟩
  · rw [← hkeys, lookup_loaded (fun id => id) hloaded hid]
  · rcases hcase with rfl | hsome
    · exact hplain
    · exact hwarp link hsome

/-! ## Listeners of an exit -/

theorem buildXhttp_exit {r : ExitRegion} {n : ExitNode} {keys : NodeKeys} {ctx : XhttpContext}
    (h : buildXhttp (exitEnv crypto cfg r n keys) = .ok ctx) :
    ∃ xhttp, resolveNodeXhttp (.exit n) (.exit r) cfg.defaults = .ok xhttp ∧
      realityContext (exitEnv crypto cfg r n keys) xhttp
        (getExitClients crypto.uuid5 cfg.ns (cfg.hubRegions.flatMap (·.nodes)) n keys.flow)
        [cfg.ns.exitShortId crypto n.id.val] = .ok ctx := by
  have htype : (exitEnv crypto cfg r n keys).region.type = .exit := rfl
  simp only [buildXhttp, htype, buildExitXhttp, bind_eq_ok] at h
  obtain ⟨xhttp, hxhttp, exitNode, hexit, h⟩ := h
  cases hexit
  exact ⟨xhttp, hxhttp, h⟩

/-- The context an exit config is built from, with the keys stored for the node. -/
theorem renderExit_loaded {r : ExitRegion} {n : ExitNode} {config : XrayConfig}
    (h : renderExit crypto cfg store r n = .ok config) :
    ∃ keys ctx, store n.id.val = some keys ∧ buildExitContext crypto cfg r n keys = .ok ctx ∧
      config = buildExitConfig ctx := by
  simp only [renderExit, bind_eq_ok, pure_eq_ok, loadNodeKeys_eq_ok] at h
  obtain ⟨keys, hkeys, ctx, hctx, rfl⟩ := h
  exact ⟨keys, ctx, hkeys, hctx, rfl⟩

/-- The listener of a node that resolves Hysteria and has clients. -/
theorem buildHysteria_listens {env : InboundEnv} {hysteria : HysteriaConfig}
    {clients : List ClientEntry} {reality : RealityConfig} {ep : HysteriaEndpoint}
    {slot : Option HysteriaContext} (h : buildHysteria env = .ok slot)
    (hhysteria : resolveNodeHysteria env.node env.region env.cfg.defaults = some hysteria)
    (hclients : hysteriaClients env = .ok clients) (hne : clients ≠ [])
    (hreality : resolveNodeReality env.node env.region env.cfg.defaults = .ok reality)
    (hep : deriveHysteriaEndpoint env.crypto hysteria reality env.nodeKeys.realityPrivateKey
      env.ns.name = .ok ep) :
    slot = some {
      users := hysteriaUsers clients
      config := hysteria
      sni := ep.sni
      masqueradeUrl := deriveHysteriaMasqueradeUrl hysteria ep.sni
      certificates := ep.certificates
      obfsPassword := ep.obfsPassword
      pin := ep.pin
      trunk := env.region.type = .exit } := by
  simp only [buildHysteria, hhysteria, hclients, bind, Except.bind, if_neg hne, hreality,
    hep] at h
  exact (pure_eq_ok.mp h).symm

/-! ## Admission -/

/-- The UUID a link dials as. -/
def LinkDial.identity : LinkDial → UUID
  | .vless dial => dial.userId
  | .hysteria dial => dial.auth

/-- The exit's direct inbound takes the dial as the hub's, whoever else it lists. -/
structure VlessAdmitted (uuid5 : Uuid5) (ns : Namespace) (hub : HubNode) (exit : ExitNode)
    (keys : NodeKeys) (dial : VlessDial) (inbound : Inbound) : Prop where
  client : ∃ clients flow, inbound.settings = .vless clients keys.decryption ∧
    clients.filter (fun c => c.id.clientKey = dial.userId.clientKey) =
      [exitClient uuid5 ns exit flow hub] ∧ (dial.flow ≠ "" ↔ flow ≠ "")
  stream : ∃ reality, inbound.stream = some {
      transport := .xhttp (makeXhttpSettings dial.xhttpHost dial.xhttpPath false)
      security := some (.realityListener reality) } ∧
    reality.privateKey = keys.realityPrivateKey ∧ dial.shortId ∈ reality.shortIds ∧
      dial.serverName ∈ reality.serverNames
  keys : dial.publicKey = keys.realityPublicKey ∧ dial.encryption = keys.encryption

/-- The exit's Hysteria listener takes the dial as the hub's. What one end sends at most the other
receives at most. -/
structure HysteriaAdmitted (uuid5 : Uuid5) (ns : Namespace) (hub : HubNode) (exit : ExitNode)
    (dial : HysteriaDial) (ctx : HysteriaContext) (inbound : Inbound) : Prop where
  user : ∃ users, inbound.settings = .hysteria users ∧
    users.filter (fun u => u.auth.clientKey = dial.auth.clientKey) =
      [{ auth := ns.hubExitUuid uuid5 hub.id.val exit.id.val
         email := ns.hubExitEmail hub.id.val exit.id.val }]
  port : inbound.port = some dial.port
  stream : ∃ masqueradeUrl mask, inbound.stream = some {
      transport := .hysteriaListener masqueradeUrl mask
      security := some (.tlsListener {
        certificates := ctx.certificates
        alpn := hysteriaAlpn }) } ∧
    dial.obfsPassword = mask.obfsPassword ∧ dial.congestion = mask.congestion ∧
      dial.brutalUp = mask.brutalDown ∧ dial.brutalDown = mask.brutalUp
  sni : dial.sni = ctx.sni
  pin : dial.pin = ctx.pin

/-- The rendered exit admits the link, and its third segment tells the warp variant from the plain
one. -/
structure LinkAdmitted (uuid5 : Uuid5) (ns : Namespace) (hub : HubNode) (exit : ExitNode)
    (keys : NodeKeys) (ctx : ExitContext) (link : LinkContext) : Prop where
  variant : link.tagPrefix = tagPrefix exit ∧ link.dial.identity.timeHiVersion ≠ warpUuidSegment ∨
    link.tagPrefix = TagPrefix.warp ++ tagPrefix exit ∧
      link.dial.identity.timeHiVersion = warpUuidSegment
  vless : ∀ dial, link.dial = .vless dial →
    ∃ inbound ∈ (buildExitConfig ctx).inbounds, inbound = ctx.slots.xhttp.fragment ctx.shared ∧
      VlessAdmitted uuid5 ns hub exit keys dial inbound ∧
      (link.dial.port, .tcp) ∈ (buildExitConfig ctx).sockets
  hysteria : ∀ dial, link.dial = .hysteria dial →
    ∃ listener, ctx.slots.hysteria = some listener ∧
      ∃ inbound ∈ (buildExitConfig ctx).inbounds, inbound = listener.fragment ctx.shared ∧
        HysteriaAdmitted uuid5 ns hub exit dial listener inbound ∧
        (link.dial.port, .udp) ∈ (buildExitConfig ctx).sockets

theorem buildDial_identity {env : LinkEnv} {uid : UUID} {dial : LinkDial}
    (h : buildDial env uid = .ok dial) : dial.identity = uid := by
  unfold buildDial at h
  cases hprotocol : resolveLinkProtocol env.exitRegion with
  | vless =>
      simp only [hprotocol, map_eq_ok, buildVlessDial, bind_eq_ok, pure_eq_ok] at h
      obtain ⟨_, ⟨_, -, _, -, _, -, _, -, _, -, rfl⟩, rfl⟩ := h
      rfl
  | hysteria =>
      simp only [hprotocol, map_eq_ok] at h
      obtain ⟨dial, hdial, rfl⟩ := h
      unfold buildHysteriaDial at hdial
      split at hdial
      · cases hdial
      · simp only [bind_eq_ok, pure_eq_ok] at hdial
        obtain ⟨_, -, _, -, rfl⟩ := hdial
        rfl

theorem LinkOf.exitId {hub : HubNode} {p : ExitRegion × ExitNode} {keys : NodeKeys}
    {link : LinkContext} (h : LinkOf crypto cfg hub p keys link) :
    link.exitId = p.2.id.val := by
  cases h with
  | plain h | warp h =>
      simp only [buildLink, bind_eq_ok, pure_eq_ok] at h
      obtain ⟨dial, -, rfl⟩ := h
      rfl

theorem clientKey_warpUuid (u : UUID) : (warpUuid u).clientKey = u.clientKey := rfl

theorem timeHiVersion_run_ne (uuid5 : Uuid5) (base : UUID) (name : String) :
    (uuid5.run base name).timeHiVersion ≠ warpUuidSegment := by
  intro heq
  have hversion := uuid5.version base name
  rw [heq] at hversion
  cases hversion

/-- Of an exit's clients exactly the hub's has the key of its identity. -/
theorem filter_exitClients (h : Accepted cfg)
    (hseeds : crypto.uuid5.SeparatesKeys (hubExitSeeds crypto.uuid5 cfg))
    {p : ExitRegion × ExitNode} (hp : p ∈ renderedExitNodes cfg) {region : HubRegion}
    {hub : HubNode} (hhub : (region, hub) ∈ hubNodePairs cfg) (flow : String) {key}
    (hkey : (cfg.ns.hubExitUuid crypto.uuid5 hub.id.val p.2.id.val).clientKey = key) :
    (getExitClients crypto.uuid5 cfg.ns (cfg.hubRegions.flatMap (·.nodes)) p.2 flow).filter
      (fun c => c.id.clientKey = key) = [exitClient crypto.uuid5 cfg.ns p.2 flow hub] := by
  subst hkey
  rw [getExitClients_eq, ← hubNodePairs_nodes, List.map_map]
  exact Distinct.filter_key_eq_singleton
    (exitClients_nodup h hseeds hp flow) (List.mem_map.mpr ⟨_, hhub, rfl⟩)

section Admission

variable {p : ExitRegion × ExitNode} {region : HubRegion} {hub : HubNode} {keys : NodeKeys}
  {uid : UUID}

theorem vless_admitted (h : Accepted cfg)
    (hseeds : crypto.uuid5.SeparatesKeys (hubExitSeeds crypto.uuid5 cfg))
    (hp : p ∈ renderedExitNodes cfg) (hhub : (region, hub) ∈ hubNodePairs cfg)
    (hkey : (cfg.ns.hubExitUuid crypto.uuid5 hub.id.val p.2.id.val).clientKey = uid.clientKey)
    {dial : VlessDial} (hdial : buildVlessDial (linkEnv crypto cfg hub p keys) uid = .ok dial)
    {ctx : XhttpContext} (hctx : buildXhttp (exitEnv crypto cfg p.1 p.2 keys) = .ok ctx)
    {shared : SharedContext} (hshared : shared.decryption = keys.decryption) :
    VlessAdmitted crypto.uuid5 cfg.ns hub p.2 keys dial (ctx.fragment shared) := by
  obtain ⟨xhttp, hxhttp, hreality⟩ := buildXhttp_exit hctx
  obtain ⟨reality, names, hresolved, hnames, hhost, heq⟩ := realityContext_eq_ok hreality
  simp only [buildVlessDial, bind_eq_ok, pure_eq_ok] at hdial
  obtain ⟨reality', hresolved', xhttp', hxhttp', names', hnames', name, hname, host, hhost',
    rfl⟩ := hdial
  cases hresolved.symm.trans hresolved'
  cases hxhttp.symm.trans hxhttp'
  cases hnames.symm.trans hnames'
  cases hhost.symm.trans hhost'
  rw [heq]
  have hclient := filter_exitClients h hseeds hp hhub keys.flow hkey
  refine ⟨⟨_, keys.flow, congrArg (InboundSettings.vless _) hshared, hclient, ?_⟩, ?_,
    ⟨rfl, rfl⟩⟩
  · show keys.clientFlow ≠ "" ↔ keys.flow ≠ ""
    simp [NodeKeys.clientFlow, NodeKeys.flow, vlessClientFlow, vlessFlow]
  · refine ⟨_, rfl, rfl, List.mem_singleton_self _, ?_⟩
    show _ ∈ names
    cases names with
    | nil => cases hname
    | cons first rest =>
        cases hname
        exact List.mem_cons_self

theorem hysteria_admitted (h : Accepted cfg)
    (hseeds : crypto.uuid5.SeparatesKeys (hubExitSeeds crypto.uuid5 cfg))
    (hp : p ∈ renderedExitNodes cfg) (hhub : (region, hub) ∈ hubNodePairs cfg)
    (hkey : (cfg.ns.hubExitUuid crypto.uuid5 hub.id.val p.2.id.val).clientKey = uid.clientKey)
    {dial : HysteriaDial} (hdial : buildHysteriaDial (linkEnv crypto cfg hub p keys) uid = .ok dial)
    {slot : Option HysteriaContext}
    (hslot : buildHysteria (exitEnv crypto cfg p.1 p.2 keys) = .ok slot)
    (shared : SharedContext) :
    ∃ listener, slot = some listener ∧ listener.config.port.val = dial.port ∧
      HysteriaAdmitted crypto.uuid5 cfg.ns hub p.2 dial listener (listener.fragment shared) := by
  unfold buildHysteriaDial at hdial
  split at hdial
  · cases hdial
  · rename_i hysteria hlistens
    simp only [bind_eq_ok, pure_eq_ok] at hdial
    obtain ⟨reality, hreality, ep, hep, rfl⟩ := hdial
    have hclient : exitClient crypto.uuid5 cfg.ns p.2 vlessFlow hub ∈ getExitClients crypto.uuid5
        cfg.ns (cfg.hubRegions.flatMap (·.nodes)) p.2 vlessFlow := by
      rw [getExitClients_eq, ← hubNodePairs_nodes, List.map_map]
      exact List.mem_map.mpr ⟨_, hhub, rfl⟩
    have hlistener := buildHysteria_listens hslot hlistens rfl (List.ne_nil_of_mem hclient)
      hreality hep
    refine ⟨_, hlistener, rfl, ⟨_, rfl, ?_⟩, rfl, ⟨_, _, rfl, rfl, rfl, rfl, rfl⟩, rfl, rfl⟩
    have hfilter := filter_exitClients h hseeds hp hhub vlessFlow hkey
    simp only [hysteriaUsers, List.filter_map]
    exact congrArg (List.map fun c => ({ auth := c.id, email := c.email } : HysteriaUser)) hfilter

theorem exit_lists (ctx : ExitContext) :
    ctx.slots.xhttp.fragment ctx.shared ∈ (buildExitConfig ctx).inbounds ∧
      ∀ listener, ctx.slots.hysteria = some listener →
        listener.fragment ctx.shared ∈ (buildExitConfig ctx).inbounds := by
  constructor
  · simp [buildExitConfig, buildInbounds]
  · intro listener hlistener
    simp [buildExitConfig, buildInbounds, hlistener]

/-- An exit binds the port of its direct inbound and that of its Hysteria listener. -/
theorem exit_binds (ctx : ExitContext) :
    (realityInboundPort, .tcp) ∈ (buildExitConfig ctx).sockets ∧
      ∀ listener, ctx.slots.hysteria = some listener →
        (listener.config.port.val, .udp) ∈ (buildExitConfig ctx).sockets := by
  have hinbounds : (buildExitConfig ctx).inbounds.flatMap (·.sockets) =
      (if ctx.shared.haproxy then [] else [(realityInboundPort, .tcp)]) ++
        proxySockets ctx.slots ++ (udpPorts ctx.slots).map fun port => (port, .udp) :=
    flatMap_sockets_slots ctx.slots ctx.shared
  have hhaproxy : (buildExitConfig ctx).haproxySockets =
      if ctx.shared.haproxy then [(realityInboundPort, .tcp)] else [] := rfl
  unfold XrayConfig.sockets
  rw [hinbounds, hhaproxy]
  constructor
  · cases ctx.shared.haproxy <;> simp
  · intro listener hlistener
    simp [udpPorts, hlistener]

theorem buildExitContext_slots {ctx : ExitContext}
    (h : buildExitContext crypto cfg p.1 p.2 keys = .ok ctx) :
    buildXhttp (exitEnv crypto cfg p.1 p.2 keys) = .ok ctx.slots.xhttp ∧
      buildHysteria (exitEnv crypto cfg p.1 p.2 keys) = .ok ctx.slots.hysteria ∧
      ctx.shared = makeShared cfg (.exit p.1) (.exit p.2) keys := by
  have htype : (exitEnv crypto cfg p.1 p.2 keys).region.type = .exit := rfl
  simp only [buildExitContext, buildSlots, htype, bind_eq_ok, pure_eq_ok] at h
  obtain ⟨slots, ⟨xhttp, hxhttp, cdn, -, hysteria, hhysteria, rfl⟩, rfl⟩ := h
  exact ⟨hxhttp, hhysteria, rfl⟩

/-- A link dialled as the hub's identity or its warp variant is admitted. -/
theorem link_admitted (h : Accepted cfg)
    (hseeds : crypto.uuid5.SeparatesKeys (hubExitSeeds crypto.uuid5 cfg))
    (hp : p ∈ renderedExitNodes cfg) (hhub : (region, hub) ∈ hubNodePairs cfg)
    {link : LinkContext} (hlink : LinkOf crypto cfg hub p keys link) {ctx : ExitContext}
    (hctx : buildExitContext crypto cfg p.1 p.2 keys = .ok ctx) :
    LinkAdmitted crypto.uuid5 cfg.ns hub p.2 keys ctx link := by
  obtain ⟨hxhttp, hhysteria, hshared⟩ := buildExitContext_slots hctx
  obtain ⟨htcp, hudp⟩ := exit_binds ctx
  obtain ⟨hdirect, hlistens⟩ := exit_lists ctx
  obtain ⟨uid, pre, hbuild, hkey, hvariant⟩ : ∃ uid pre,
      buildLink (linkEnv crypto cfg hub p keys) uid pre = .ok link ∧
      (cfg.ns.hubExitUuid crypto.uuid5 hub.id.val p.2.id.val).clientKey = uid.clientKey ∧
      (pre = tagPrefix p.2 ∧ uid.timeHiVersion ≠ warpUuidSegment ∨
        pre = TagPrefix.warp ++ tagPrefix p.2 ∧ uid.timeHiVersion = warpUuidSegment) := by
    cases hlink with
    | plain hbuild => exact ⟨_, _, hbuild, rfl, .inl ⟨rfl, timeHiVersion_run_ne _ _ _⟩⟩
    | warp hbuild => exact ⟨_, _, hbuild, (clientKey_warpUuid _).symm, .inr ⟨rfl, rfl⟩⟩
  simp only [buildLink, bind_eq_ok, pure_eq_ok] at hbuild
  obtain ⟨dial, hdial, rfl⟩ := hbuild
  have hidentity := buildDial_identity hdial
  unfold buildDial at hdial
  cases hprotocol : resolveLinkProtocol (linkEnv crypto cfg hub p keys).exitRegion with
  | vless =>
      simp only [hprotocol, map_eq_ok] at hdial
      obtain ⟨vless, hvless, rfl⟩ := hdial
      have hadmitted := vless_admitted h hseeds hp hhub hkey hvless hxhttp
        (congrArg SharedContext.decryption hshared)
      refine ⟨hidentity ▸ hvariant, ?_, ?_⟩
      · intro dial heq
        cases heq
        exact ⟨_, hdirect, rfl, hadmitted, htcp⟩
      · intro dial heq
        cases heq
  | hysteria =>
      simp only [hprotocol, map_eq_ok] at hdial
      obtain ⟨hysteria, hdial, rfl⟩ := hdial
      obtain ⟨listener, hslot, hport, hadmitted⟩ :=
        hysteria_admitted h hseeds hp hhub hkey hdial hhysteria ctx.shared
      refine ⟨hidentity ▸ hvariant, ?_, ?_⟩
      · intro dial heq
        cases heq
      · intro dial heq
        cases heq
        refine ⟨listener, hslot, _, hlistens listener hslot, rfl, hadmitted, ?_⟩
        rw [LinkDial.port, ← hport]
        exact hudp listener hslot

end Admission

/-- Both ends of every link agree: the exit admits what the hub dials it with. -/
theorem link_ends_agree (cfg : AcceptedConfig)
    (hseeds : crypto.uuid5.SeparatesKeys (hubExitSeeds crypto.uuid5 cfg.toConglomerateConfig))
    {region : HubRegion} {hub : HubNode} (hhub : Placed.hub region hub ∈ cfg.placed)
    {exitRegion : ExitRegion} {exit : ExitNode}
    (hexit : Placed.exit exitRegion exit ∈ cfg.placed) {hubConfig exitConfig : XrayConfig}
    (hhubConfig : renderHub crypto cfg.toConglomerateConfig store region hub = .ok hubConfig)
    (hexitConfig : renderExit crypto cfg.toConglomerateConfig store exitRegion exit =
      .ok exitConfig) :
    ∃ keys ctx, store exit.id.val = some keys ∧
      buildExitContext crypto cfg.toConglomerateConfig exitRegion exit keys = .ok ctx ∧
      exitConfig = buildExitConfig ctx ∧
      ∀ outbound ∈ hubConfig.outbounds, ∀ link, outbound.link = some link →
        link.exitId = exit.id.val → outbound = renderLink link ∧
          LinkAdmitted crypto.uuid5 cfg.ns hub exit keys ctx link := by
  obtain ⟨keys, ctx, hkeys, hctx, hconfig⟩ := renderExit_loaded hexitConfig
  refine ⟨keys, ctx, hkeys, hctx, hconfig, ?_⟩
  intro outbound houtbound link hlink hid
  obtain ⟨p, hp, keys', hkeys', hlinkOf⟩ := linkOf_of_renderHub hhubConfig houtbound hlink
  obtain ⟨hregion, hnode⟩ := mem_placed_exit hexit
  have hrendered : (exitRegion, exit) ∈ renderedExitNodes cfg.toConglomerateConfig :=
    mem_renderedExitNodes.mpr ⟨mem_exitRegions.mpr hregion, hnode⟩
  have hself : p = (exitRegion, exit) :=
    cfg.spec.exitNode_eq hp hrendered (hlinkOf.exitId.symm.trans hid)
  subst hself
  cases hkeys.symm.trans hkeys'
  exact ⟨renderLink_of_renderHub hhubConfig houtbound hlink,
    link_admitted cfg.spec hseeds hp (mem_hubNodePairs.mpr (mem_placed_hub hhub)) hlinkOf hctx⟩

/-- The only exit of the office. -/
def officeExit : ExitRegion × ExitNode :=
  (Sample.exitRegion Sample.fra Sample.lowRoute [Sample.exitNode Sample.fra1],
    Sample.exitNode Sample.fra1)

theorem link_ends_agree_office :
    ∃ hubConfig exitConfig,
      renderHub Sample.officeCrypto Sample.office.toConglomerateConfig Sample.officeStore
        Sample.officeRegion Sample.officeNode = .ok hubConfig ∧
      renderExit Sample.officeCrypto Sample.office.toConglomerateConfig Sample.officeStore
        officeExit.1 officeExit.2 = .ok exitConfig ∧
      ∃ keys ctx, Sample.officeStore officeExit.2.id.val = some keys ∧
        buildExitContext Sample.officeCrypto Sample.office.toConglomerateConfig officeExit.1
          officeExit.2 keys = .ok ctx ∧
        exitConfig = buildExitConfig ctx ∧
        ∀ outbound ∈ hubConfig.outbounds, ∀ link, outbound.link = some link →
          link.exitId = officeExit.2.id.val → outbound = renderLink link ∧
            LinkAdmitted Sample.officeCrypto.uuid5 Sample.office.ns Sample.officeNode officeExit.2
              keys ctx link := by
  have hexit : Placed.exit officeExit.1 officeExit.2 ∈ Sample.office.placed :=
    List.mem_flatMap.mpr ⟨.exit officeExit.1, by decide, List.mem_map.mpr
      ⟨officeExit.2, by decide, rfl⟩⟩
  obtain ⟨hubConfig, hhubConfig⟩ := office_renders
  obtain ⟨exitConfig, hexitConfig⟩ := renderExit_total Sample.office.spec office_provisioned
    (show officeExit.1 ∈ Sample.office.exitRegions by decide)
    (show officeExit.2 ∈ officeExit.1.nodes by decide)
  exact ⟨hubConfig, exitConfig, hhubConfig, hexitConfig,
    link_ends_agree Sample.office (by decide) office_placed hexit hhubConfig hexitConfig⟩

end HexRift
