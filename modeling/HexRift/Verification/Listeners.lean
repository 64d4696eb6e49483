import HexRift.Verification.Allocation

/-! # Sockets bound by a rendered config

The validator keeps a registry of the sockets each inbound asks for, written apart from the
inbounds themselves. Here both sides are listed and compared. -/

namespace HexRift

variable {cfg : ConglomerateConfig} {crypto : Crypto} {store : KeyStore}

/-! ## What a config binds -/

/-- Transports an inbound occupies its port on: its protocol decides, for VLESS its network,
and the mixed inbound adds UDP when told to. -/
def Inbound.transports (inbound : Inbound) : List Transport :=
  match inbound.settings with
  | .vless .. => if inbound.network = some .mkcp then [.udp] else [.tcp]
  | .mixed _ udp => if udp then [.tcp, .udp] else [.tcp]
  | .wireguard .. => [.udp]
  | .hysteria _ => [.udp]
  | .dokodemo _ _ network => network.transports

def Inbound.sockets (inbound : Inbound) : List (ℕ × Transport) :=
  inbound.port.toList.flatMap fun port => inbound.transports.map fun t => (port, t)

/-- Whether the inbound forwards a published port. -/
def Inbound.isForward (inbound : Inbound) : Bool :=
  match inbound.settings with
  | .dokodemo .. => true
  | _ => false

namespace XrayConfig

variable (config : XrayConfig)

/-- The edge listener of HAProxy. -/
def haproxySockets : List (ℕ × Transport) :=
  if config.haproxy then [(realityInboundPort, .tcp)] else []

def apiSockets : List (ℕ × Transport) := config.api.toList.map fun api => (api.port, .tcp)

/-- Sockets of everything but the forwards of published ports. -/
def ownSockets : List (ℕ × Transport) :=
  config.haproxySockets ++ (config.inbounds.filter (!·.isForward)).flatMap (·.sockets) ++
    config.apiSockets

def sockets : List (ℕ × Transport) :=
  config.haproxySockets ++ config.inbounds.flatMap (·.sockets) ++ config.apiSockets

def inboundTags : List String :=
  config.inbounds.map (·.tag) ++ config.api.toList.map (·.tag)

/-- No two listeners clash, and the registry knows them all. -/
structure ListenersExact (reserved : List SocketClaim) : Prop where
  sockets : config.sockets.Nodup
  tags : config.inboundTags.Nodup
  reserved : ∀ s ∈ config.ownSockets, s ∈ reserved.map SocketClaim.key

end XrayConfig

/-! ## Sockets of the slots -/

theorem sockets_xhttp (ctx : XhttpContext) (shared : SharedContext) :
    (ctx.fragment shared).sockets =
      if shared.haproxy then [] else [(realityInboundPort, .tcp)] := by
  cases h : shared.haproxy <;> simp [Inbound.sockets, Inbound.transports, XhttpContext.fragment, h]

/-- Ports of the optional inbounds that bind UDP alone. -/
def udpPorts (slots : Slots) : List ℕ :=
  (slots.xdns.map (·.config.port.val)).toList ++
    (slots.wireguard.map (·.config.port.val)).toList ++
    (slots.hysteria.map (·.config.port.val)).toList

def proxySockets (slots : Slots) : List (ℕ × Transport) :=
  if slots.proxy.isSome then [(proxyInboundPort, .tcp), (proxyInboundPort, .udp)] else []

theorem flatMap_sockets_slots (slots : Slots) (shared : SharedContext) :
    (buildInbounds slots shared).flatMap (·.sockets) =
      (if shared.haproxy then [] else [(realityInboundPort, .tcp)]) ++ proxySockets slots ++
        (udpPorts slots).map fun port => (port, .udp) := by
  have hproxy : (slots.proxy.toList.map (·.fragment)).flatMap (·.sockets) = proxySockets slots := by
    cases h : slots.proxy <;> simp [proxySockets, h, Inbound.sockets, Inbound.transports,
      ProxyContext.fragment]
  have hcdn : (slots.cdn.toList.map (·.fragment shared)).flatMap (·.sockets) = [] := by
    cases slots.cdn <;> simp [Inbound.sockets, CdnContext.fragment]
  have hxdns : (slots.xdns.toList.map (·.fragment shared)).flatMap (·.sockets) =
      (slots.xdns.map (·.config.port.val)).toList.map fun port => (port, Transport.udp) := by
    cases slots.xdns <;> simp [Inbound.sockets, Inbound.transports, XdnsContext.fragment]
  have hwireguard : (slots.wireguard.toList.map (·.fragment)).flatMap (·.sockets) =
      (slots.wireguard.map (·.config.port.val)).toList.map fun port => (port, Transport.udp) := by
    cases slots.wireguard <;> simp [Inbound.sockets, Inbound.transports,
      WireguardContext.fragment]
  have hhysteria : (slots.hysteria.toList.map (·.fragment shared)).flatMap (·.sockets) =
      (slots.hysteria.map (·.config.port.val)).toList.map fun port => (port, Transport.udp) := by
    cases slots.hysteria <;> simp [Inbound.sockets, Inbound.transports, HysteriaContext.fragment]
  simp only [buildInbounds, List.flatMap_append, List.flatMap_cons, List.flatMap_nil,
    List.append_nil, List.nil_append, sockets_xhttp, hcdn, hproxy, hxdns, hwireguard, hhysteria,
    udpPorts, List.map_append, List.append_assoc]

theorem isForward_slots (slots : Slots) (shared : SharedContext) :
    ∀ inbound ∈ buildInbounds slots shared, inbound.isForward = false := by
  intro inbound hmem
  simp only [buildInbounds, List.mem_append, List.mem_singleton, List.mem_map] at hmem
  rcases hmem with ((((rfl | ⟨ctx, -, rfl⟩) | ⟨ctx, -, rfl⟩) | ⟨ctx, -, rfl⟩) | ⟨ctx, -, rfl⟩) |
    ⟨ctx, -, rfl⟩
  all_goals rfl

/-! ## Slots of a hub -/

theorem proxy_isSome {region : HubRegion} {node : HubNode} {keys : NodeKeys}
    {slot : Option ProxyContext} (h : buildProxy (hubEnv crypto cfg region node keys) = .ok slot) :
    slot.isSome = resolveNodeProxyInbound node cfg.defaults := by
  cases hproxy : resolveNodeProxyInbound node cfg.defaults
  all_goals
    simp only [InboundEnv.hubNode, hubEnv, buildProxy, bind, Except.bind, hproxy] at h
    cases h
    rfl

theorem getHubAccessClients_eq_nil {uuid5 : Uuid5} {ns : Namespace} {users : List User}
    {access : AccessType} {flow : String} {server : Bool} :
    getHubAccessClients uuid5 ns users access flow server = [] ↔
      hasAccess users access = false := by
  simp only [getHubAccessClients, List.flatMap_eq_nil_iff, hasAccess, List.any_eq_false,
    decide_eq_true_eq]
  refine forall₂_congr fun u _ => ?_
  split <;> simp_all

theorem xdns_port {region : HubRegion} {node : HubNode} {keys : NodeKeys}
    {slot : Option XdnsContext} (h : buildXdns (hubEnv crypto cfg region node keys) = .ok slot) :
    slot.map (·.config.port.val) =
      if hasAccess cfg.users .xdns then (resolveNodeXdns node cfg.defaults).map (·.port.val)
      else none := by
  simp only [InboundEnv.hubNode, hubEnv, buildXdns, Checks.bind_eq_ok] at h
  obtain ⟨_, hnode, h⟩ := h
  cases hnode
  cases hxdns : resolveNodeXdns node cfg.defaults with
  | none =>
      simp only [hxdns] at h
      cases h
      simp
  | some xdns =>
      simp only [hxdns, getHubAccessClients_eq_nil] at h
      cases haccess : hasAccess cfg.users .xdns
      all_goals
        simp only [haccess] at h
        cases h
        rfl

theorem wireguardIdentities_eq_nil {uuid5 : Uuid5} {ns : Namespace} {users : List User} :
    users.flatMap (wireguardIdentities uuid5 ns) = [] ↔ hasAccess users .wireguard = false := by
  simp only [List.flatMap_eq_nil_iff, hasAccess, List.any_eq_false, decide_eq_true_eq,
    wireguardIdentities]
  refine forall₂_congr fun u _ => ?_
  split <;> simp_all

/-- A resolved WireGuard config keeps the port the registry reserves. -/
theorem resolveNodeWireguard_port {node : HubNode} {defaults : DefaultsConfig}
    {wireguard : Option WireguardConfig} (h : resolveNodeWireguard node defaults = .ok wireguard) :
    wireguard.map (·.port) = resolveNodeWireguardPort node defaults := by
  unfold resolveNodeWireguard at h
  cases hport : resolveNodeWireguardPort node defaults with
  | none =>
      simp only [hport] at h
      cases h
      rfl
  | some port =>
      simp only [hport] at h
      cases hnode : node.wireguard with
      | none =>
          simp only [hnode] at h
          cases h
          rw [← hport, resolveNodeWireguardPort, hnode]
      | some override =>
          simp only [hnode] at h
          split at h
          · cases h
          · cases h
            rfl

theorem wireguard_port {region : HubRegion} {node : HubNode} {keys : NodeKeys}
    {slot : Option WireguardContext}
    (h : buildWireguard (hubEnv crypto cfg region node keys) = .ok slot) :
    slot.map (·.config.port.val) =
      if hasAccess cfg.users .wireguard then
        (resolveNodeWireguardPort node cfg.defaults).map (·.val)
      else none := by
  simp only [InboundEnv.hubNode, hubEnv, buildWireguard, Checks.bind_eq_ok] at h
  obtain ⟨_, hnode, wireguard, hwireguard, h⟩ := h
  cases hnode
  rw [← resolveNodeWireguard_port hwireguard]
  cases wireguard with
  | none =>
      cases h
      simp
  | some wg =>
      simp only [Checks.bind_eq_ok, getHubWireguardPeers, iterHubWireguardAllocs_eq_ok,
        Checks.pure_eq_ok] at h
      obtain ⟨peers, ⟨allocs, ⟨-, hallocs⟩, rfl⟩, h⟩ := h
      have hnil : allocs = [] ↔ hasAccess cfg.users .wireguard = false := by
        rw [← wireguardIdentities_eq_nil, ← List.length_eq_zero_iff, allocateFrom_length hallocs,
          List.length_eq_zero_iff]
      simp only [List.map_eq_nil_iff, hnil] at h
      cases haccess : hasAccess cfg.users .wireguard
      all_goals
        simp only [haccess] at h
        cases h
        rfl

theorem buildHysteria_port {env : InboundEnv} {slot : Option HysteriaContext}
    (h : buildHysteria env = .ok slot) :
    ∃ clients, (resolveNodeHysteria env.node env.region env.cfg.defaults ≠ none →
        hysteriaClients env = .ok clients) ∧
      slot.map (·.config.port.val) =
        if clients = [] then none
        else (resolveNodeHysteria env.node env.region env.cfg.defaults).map (·.port.val) := by
  unfold buildHysteria at h
  cases hhy : resolveNodeHysteria env.node env.region env.cfg.defaults with
  | none =>
      simp only [hhy] at h
      cases h
      exact ⟨[], by simp, by simp⟩
  | some hysteria =>
      simp only [hhy, Checks.bind_eq_ok] at h
      obtain ⟨clients, hclients, h⟩ := h
      refine ⟨clients, fun _ => hclients, ?_⟩
      split at h
      · rename_i hnil
        cases h
        simp [hnil]
      · rename_i hnil
        simp only [Checks.bind_eq_ok, Checks.pure_eq_ok] at h
        obtain ⟨reality, -, ep, -, rfl⟩ := h
        simp [hnil]

theorem hysteria_port {region : HubRegion} {node : HubNode} {keys : NodeKeys}
    {slot : Option HysteriaContext}
    (h : buildHysteria (hubEnv crypto cfg region node keys) = .ok slot) :
    slot.map (·.config.port.val) =
      if hasAccess cfg.users .hysteria then
        (resolveNodeHysteria (.hub node) (.hub region) cfg.defaults).map (·.port.val)
      else none := by
  obtain ⟨clients, hclients, hport⟩ := buildHysteria_port h
  rw [hport]
  cases hhy : resolveNodeHysteria (.hub node) (.hub region) cfg.defaults with
  | none => simp [hubEnv, hhy]
  | some hysteria =>
      have heq := hclients (by simp [hubEnv, hhy])
      have hcl : clients = getHubAccessClients crypto.uuid5 cfg.ns cfg.users .hysteria "" true :=
        (Except.ok.inj heq).symm
      rw [hcl]
      simp only [getHubAccessClients_eq_nil, hubEnv, hhy]
      cases hasAccess cfg.users .hysteria <;> rfl

/-- UDP ports the registry reserves on a hub. -/
def reservedUdpPorts (cfg : ConglomerateConfig) (region : HubRegion) (node : HubNode) : List ℕ :=
  (if hasAccess cfg.users .xdns then (resolveNodeXdns node cfg.defaults).map (·.port.val)
    else none).toList ++
  (if hasAccess cfg.users .wireguard then
      (resolveNodeWireguardPort node cfg.defaults).map (·.val)
    else none).toList ++
  (if hasAccess cfg.users .hysteria then
      (resolveNodeHysteria (.hub node) (.hub region) cfg.defaults).map (·.port.val)
    else none).toList

theorem udpPorts_hub {region : HubRegion} {node : HubNode} {keys : NodeKeys} {slots : Slots}
    (h : HubSlots (hubEnv crypto cfg region node keys) slots) :
    udpPorts slots = reservedUdpPorts cfg region node := by
  rw [udpPorts, xdns_port h.xdns, wireguard_port h.wireguard, hysteria_port h.hysteria,
    reservedUdpPorts]

/-! ## The registry against a hub -/

/-- Socket of the metrics api, which both sides read from the resolved observability. -/
def metricsSockets (cfg : ConglomerateConfig) (region : Region) (node : Node) :
    List (ℕ × Transport) :=
  let metrics := resolveNodeMetrics node region cfg.defaults cfg.global
  if metrics.enabled then [(metrics.port.val, .tcp)] else []

theorem apiSockets_eq (cfg : ConglomerateConfig) (region : Region) (node : Node)
    (keys : NodeKeys) :
    (apiOf (makeShared cfg region node keys)).toList.map (fun api => (api.port, Transport.tcp)) =
      metricsSockets cfg region node := by
  have hmetrics : (makeShared cfg region node keys).observability.metrics =
      resolveNodeMetrics node region cfg.defaults cfg.global := rfl
  unfold metricsSockets apiOf
  rw [hmetrics]
  cases h : (resolveNodeMetrics node region cfg.defaults cfg.global).enabled
  all_goals simp [h, observabilityBlocks]

theorem key_toList_map {α : Type} (o : Option α) (port : α → ℕ) (t : Transport) (owner : String) :
    (o.toList.map fun x => (SocketClaim.mk (port x) t owner)).map SocketClaim.key =
      (o.map port).toList.map fun p => (p, t) := by
  cases o <;> simp [SocketClaim.key]

theorem key_metrics (cfg : ConglomerateConfig) (region : Region) (node : Node) :
    (if (resolveNodeMetrics node region cfg.defaults cfg.global).enabled then
      [SocketClaim.mk (resolveNodeMetrics node region cfg.defaults cfg.global).port.val .tcp
        "the metrics api listener"] else []).map SocketClaim.key =
      metricsSockets cfg region node := by
  unfold metricsSockets
  cases h : (resolveNodeMetrics node region cfg.defaults cfg.global).enabled
  all_goals simp [h, SocketClaim.key]

theorem keys_hub (cfg : ConglomerateConfig) (region : HubRegion) (node : HubNode) :
    (socketClaims (.hub region) (.hub node) cfg.defaults cfg.global cfg.users).map
        SocketClaim.key =
      [(realityInboundPort, .tcp)] ++
        (if resolveNodeProxyInbound node cfg.defaults then [(proxyInboundPort, .tcp)] else []) ++
        (reservedUdpPorts cfg region node).map (fun port => (port, .udp)) ++
        metricsSockets cfg (.hub region) (.hub node) := by
  have hgated : ∀ {α : Type} (c : Bool) (o : Option α) (port : α → ℕ) (owner : String),
      (if c then o.toList.map fun x => SocketClaim.mk (port x) .udp owner else []).map
          SocketClaim.key =
        (if c then o.map port else none).toList.map fun p => (p, Transport.udp) := by
    intro α c o port owner
    cases c with
    | false => rfl
    | true => exact key_toList_map o port .udp owner
  have hproxy : (if resolveNodeProxyInbound node cfg.defaults then
      [SocketClaim.mk proxyInboundPort .tcp "the proxy inbound"] else []).map SocketClaim.key =
      if resolveNodeProxyInbound node cfg.defaults then [(proxyInboundPort, Transport.tcp)]
      else [] := by
    split <;> rfl
  simp only [socketClaims, List.map_append, hgated, hproxy, key_metrics, reservedUdpPorts,
    List.append_assoc]
  rfl

section Hub

variable {region : HubRegion} {node : HubNode} {config : XrayConfig}

theorem HubRendered.inbounds_eq (h : HubRendered crypto cfg region node config) :
    config.inbounds = buildInbounds h.ctx.slots h.ctx.shared ++
      (resolveNodePublishes cfg node).map fun pub => forwardFragment pub h.ctx.shared := by
  simpa [buildHubConfig, h.published] using congrArg XrayConfig.inbounds h.config_eq

theorem HubRendered.haproxySockets_eq (h : HubRendered crypto cfg region node config) :
    config.haproxySockets =
      if h.ctx.shared.haproxy then [(realityInboundPort, .tcp)] else [] :=
  congrArg XrayConfig.haproxySockets h.config_eq

theorem HubRendered.api_eq (h : HubRendered crypto cfg region node config) :
    config.api = apiOf (makeShared cfg (.hub region) (.hub node) h.keys) := by
  simpa [buildHubConfig, h.shared] using congrArg XrayConfig.api h.config_eq

theorem filter_isForward_slots (slots : Slots) (shared : SharedContext)
    (published : List PublishedPort) :
    (buildInbounds slots shared ++ published.map fun pub => forwardFragment pub shared).filter
      (!·.isForward) = buildInbounds slots shared := by
  have hown : (buildInbounds slots shared).filter (!·.isForward) = buildInbounds slots shared := by
    rw [List.filter_eq_self]
    intro inbound hmem
    simp [isForward_slots _ _ inbound hmem]
  have hforward : (published.map fun pub => forwardFragment pub shared).filter
      (!·.isForward) = [] := by
    simp [Inbound.isForward, forwardFragment]
  rw [List.filter_append, hown, hforward, List.append_nil]

/-- What a hub binds apart from its forwards: the sockets of the registry, and port 80 on UDP
as well when it renders the mixed proxy. -/
theorem HubRendered.ownSockets (h : HubRendered crypto cfg region node config) :
    config.ownSockets =
      [(realityInboundPort, .tcp)] ++
        (if resolveNodeProxyInbound node cfg.defaults then
          [(proxyInboundPort, .tcp), (proxyInboundPort, .udp)] else []) ++
        (reservedUdpPorts cfg region node).map (fun port => (port, .udp)) ++
        metricsSockets cfg (.hub region) (.hub node) := by
  have hslots := buildSlots_hub h.slots
  rw [XrayConfig.ownSockets, h.haproxySockets_eq, h.inbounds_eq, filter_isForward_slots,
    flatMap_sockets_slots, udpPorts_hub hslots, proxySockets, proxy_isSome hslots.proxy,
    XrayConfig.apiSockets, h.api_eq, apiSockets_eq]
  cases h.ctx.shared.haproxy <;> simp

/-! ## Published ports -/

/-- A hub node is in the scope of the entries that resolve on it. -/
theorem mem_publishScope {region : HubRegion} {node : HubNode}
    (hregion : Region.hub region ∈ cfg.regions) (hnode : node ∈ region.nodes)
    {entry : PortalPublish} (h : entry.resolvesOn node = true) :
    node.id.val ∈ publishScope (portalEnv cfg) entry := by
  unfold PortalPublish.resolvesOn at h
  unfold publishScope
  cases hnodes : entry.nodes with
  | none =>
      rw [List.mem_insertionSort]
      exact List.mem_map.mpr ⟨(node.id.val, region, node),
        mem_hubNodes.mpr ⟨hregion, hnode, rfl⟩, rfl⟩
  | some nodes =>
      simp only [hnodes, decide_eq_true_eq] at h
      rw [List.mem_insertionSort]
      exact List.mem_map_of_mem h

/-- The ports published on a hub are claimed one by one, so none is claimed twice. -/
theorem publishedPorts_nodup (h : Accepted cfg) {region : HubRegion} {node : HubNode}
    (hregion : Region.hub region ∈ cfg.regions) (hnode : node ∈ region.nodes) :
    ((resolveNodePublishes cfg node).map (·.port)).Nodup := by
  have hentry : ∀ portal : Portal, ∀ entry ∈ portal.publish,
      (if entry.resolvesOn node then [(node.id.val, entry.port.val)] else []).Sublist
        ((entry.claims (portalEnv cfg) portal).map PublishClaim.key) := by
    intro portal entry _
    split
    · rename_i hon
      rw [List.singleton_sublist]
      refine List.mem_map.mpr ⟨publishClaim portal entry node.id.val, ?_, rfl⟩
      exact List.mem_flatMap.mpr ⟨_, mem_publishScope hregion hnode hon, by simp⟩
    · exact List.nil_sublist _
  have hsub : ((resolveNodePublishes cfg node).map fun pub => (node.id.val, pub.port)).Sublist
      ((cfg.portals.flatMap (·.claims (portalEnv cfg))).map PublishClaim.key) := by
    rw [resolveNodePublishes, List.map_flatMap, List.map_flatMap]
    refine List.Sublist.flatMap_right _ fun portal _ => ?_
    have hsplit : ((portal.publish.filter (·.resolvesOn node)).map (publishedPort portal)).map
        (fun pub => (node.id.val, pub.port)) =
        portal.publish.flatMap fun entry =>
          if entry.resolvesOn node then [(node.id.val, entry.port.val)] else [] := by
      induction portal.publish with
      | nil => rfl
      | cons e es ih =>
          cases he : e.resolvesOn node <;> simp_all [publishedPort]
    rw [hsplit, Portal.claims, List.map_flatMap]
    exact List.Sublist.flatMap_right _ (hentry portal)
  have hnodup := h.portals.published.sublist hsub
  have hpair : ((resolveNodePublishes cfg node).map fun pub => (node.id.val, pub.port)) =
      ((resolveNodePublishes cfg node).map (·.port)).map (Prod.mk node.id.val) := by simp
  rw [hpair] at hnodup
  exact hnodup.of_map

theorem lookup_map_of_mem {α β : Type} {f : α → String} {g : α → β} {xs : List α}
    (hnodup : (xs.map f).Nodup) {x : α} (hx : x ∈ xs) :
    (xs.map fun y => (f y, g y)).lookup (f x) = some (g x) := by
  induction xs with
  | nil => cases hx
  | cons y ys ih =>
      rw [List.map_cons, List.nodup_cons] at hnodup
      rw [List.map_cons, List.lookup_cons]
      rcases List.mem_cons.mp hx with rfl | hmem
      · simp
      · have hne : (f x == f y) = false := by
          rw [beq_eq_false_iff_ne]
          intro heq
          exact hnodup.1 (heq ▸ List.mem_map_of_mem hmem)
        rw [hne]
        exact ih hnodup.2 hmem

/-- No published port takes a socket the registry reserves on the node. -/
theorem published_free (h : Accepted cfg) {region : HubRegion} {node : HubNode}
    (hregion : Region.hub region ∈ cfg.regions) (hnode : node ∈ region.nodes)
    {pub : PublishedPort} (hpub : pub ∈ resolveNodePublishes cfg node) {t : Transport}
    (ht : t ∈ pub.network.transports) :
    (pub.port, t) ∉ (socketClaims (.hub region) (.hub node) cfg.defaults cfg.global
      cfg.users).map SocketClaim.key := by
  simp only [resolveNodePublishes, List.mem_flatMap, List.mem_map, List.mem_filter] at hpub
  obtain ⟨portal, hportal, entry, ⟨hentry, hon⟩, rfl⟩ := hpub
  have hall : (Region.hub region, Node.hub node) ∈ allNodes cfg :=
    mem_allNodes hregion (List.mem_map_of_mem hnode)
  have hlookup := lookup_map_of_mem (g := fun p =>
    socketClaims p.1 p.2 cfg.defaults cfg.global cfg.users) (nodeIds_nodup h) hall
  have hfree := ((h.portals.portal portal hportal).publish entry hentry).free node.id.val
    (mem_publishScope hregion hnode hon) t ht
  have hreserved : (portalEnv cfg).reserved.lookup node.id.val =
      some (socketClaims (.hub region) (.hub node) cfg.defaults cfg.global cfg.users) := hlookup
  rw [hreserved] at hfree
  exact hfree

/-- Sockets of the forwards of a list of published ports. -/
def forwardSockets (published : List PublishedPort) : List (ℕ × Transport) :=
  published.flatMap fun pub => pub.network.transports.map fun t => (pub.port, t)

theorem HubRendered.sockets_perm (h : HubRendered crypto cfg region node config) :
    config.sockets.Perm
      (config.ownSockets ++ forwardSockets (resolveNodePublishes cfg node)) := by
  have hforward : ((resolveNodePublishes cfg node).map fun pub =>
      forwardFragment pub h.ctx.shared).flatMap (·.sockets) =
        forwardSockets (resolveNodePublishes cfg node) := by
    rw [List.flatMap_map]
    simp [forwardSockets, Inbound.sockets, Inbound.transports, forwardFragment]
  rw [XrayConfig.sockets, XrayConfig.ownSockets, h.inbounds_eq, filter_isForward_slots,
    List.flatMap_append, hforward]
  simp only [List.append_assoc]
  exact (List.perm_append_comm.append_left _).append_left _

theorem transports_nodup (network : PublishNetwork) : network.transports.Nodup := by
  cases network <;> decide

/-- The forwards of a hub bind distinct sockets, apart from those the registry reserves. -/
theorem forwardSockets_nodup (h : Accepted cfg) (hregion : Region.hub region ∈ cfg.regions)
    (hnode : node ∈ region.nodes) : (forwardSockets (resolveNodePublishes cfg node)).Nodup := by
  rw [forwardSockets, List.nodup_flatMap]
  refine ⟨fun pub _ => (transports_nodup pub.network).map fun _ _ heq => (Prod.mk.inj heq).2, ?_⟩
  have hports := publishedPorts_nodup h hregion hnode
  rw [List.Nodup, List.pairwise_map] at hports
  refine hports.imp fun {a b} hne => ?_
  intro s hs hs'
  obtain ⟨t, -, rfl⟩ := List.mem_map.mp hs
  obtain ⟨t', -, heq⟩ := List.mem_map.mp hs'
  exact hne (Prod.mk.inj heq).1.symm

theorem HubRendered.sockets_nodup (h : Accepted cfg) (hregion : Region.hub region ∈ cfg.regions)
    (hnode : node ∈ region.nodes) (hr : HubRendered crypto cfg region node config)
    (hproxy : resolveNodeProxyInbound node cfg.defaults = false) : config.sockets.Nodup := by
  have hall : (Region.hub region, Node.hub node) ∈ allNodes cfg :=
    mem_allNodes hregion (List.mem_map_of_mem hnode)
  have hown : config.ownSockets = (socketClaims (.hub region) (.hub node) cfg.defaults cfg.global
      cfg.users).map SocketClaim.key := by
    rw [hr.ownSockets, keys_hub, hproxy]
    rfl
  rw [hr.sockets_perm.nodup_iff, hown, List.nodup_append]
  refine ⟨h.portals.sockets _ hall, forwardSockets_nodup h hregion hnode, ?_⟩
  intro s hs s' hs' heq
  obtain ⟨pub, hpub, hmem⟩ := List.mem_flatMap.mp hs'
  obtain ⟨t, ht, rfl⟩ := List.mem_map.mp hmem
  exact published_free h hregion hnode hpub ht (heq ▸ hs)

end Hub

/-! ## Inbound tags -/

/-- Tags of the inbounds a node can render apart from its forwards. -/
def fixedInboundTags : List String :=
  ["direct-xhttp", "cdn-xhttp", "mixed-inbound", "xdns", "wireguard-in", "hysteria-in"]

theorem api_not_fixed : "api" ∉ fixedInboundTags := by decide

theorem slots_tags_sublist (slots : Slots) (shared : SharedContext) :
    ((buildInbounds slots shared).map (·.tag)).Sublist fixedInboundTags := by
  have hslot : ∀ {α : Type} (o : Option α) (f : α → Inbound) (tag : String),
      (∀ ctx, (f ctx).tag = tag) → ((o.toList.map f).map (·.tag)).Sublist [tag] := by
    intro α o f tag htag
    cases o <;> simp [htag]
  have hsplit : fixedInboundTags =
      ["direct-xhttp"] ++ ["cdn-xhttp"] ++ ["mixed-inbound"] ++ ["xdns"] ++ ["wireguard-in"] ++
        ["hysteria-in"] := rfl
  rw [hsplit, buildInbounds]
  simp only [List.map_append]
  refine (((((List.Sublist.refl _).append ?_).append ?_).append ?_).append ?_).append ?_
  all_goals exact hslot _ _ _ fun _ => rfl

/-- A publish tag determines its port: the digits after the last dash. -/
theorem publishTag_port {a b : String} {p q : ℕ} (h : publishTag a p = publishTag b q) :
    p = q := by
  have hdash : ∀ n : ℕ, '-' ∉ (toString n).toList := by
    intro n hmem
    exact absurd (Separator.isDigit_toString hmem) (by decide)
  have hsplit := Separator.append_inj_right (hdash p) (hdash q)
    (show a ++ TagSuffix.publish ++ String.singleton '-' ++ toString p =
      b ++ TagSuffix.publish ++ String.singleton '-' ++ toString q from h)
  exact Separator.toString_injective hsplit.2

/-- A publish tag ends in a digit, a fixed tag does not. -/
theorem publishTag_not_fixed (a : String) (p : ℕ) :
    publishTag a p ∉ fixedInboundTags ∧ publishTag a p ≠ "api" := by
  have hlast : ∀ tag ∈ "api" :: fixedInboundTags,
      tag.toList.getLast?.any Char.isDigit = false := by decide
  have hdigit : (publishTag a p).toList.getLast?.any Char.isDigit = true := by
    have hsuffix : (publishTag a p).toList.getLast? = (toString p).toList.getLast? := by
      rw [publishTag, String.toList_append, List.getLast?_append_of_ne_nil]
      exact Separator.toString_ne_empty p
    rw [hsuffix, List.getLast?_eq_some_getLast (Separator.toString_ne_empty p)]
    exact Separator.isDigit_toString (List.getLast_mem _)
  refine ⟨fun hmem => ?_, fun heq => ?_⟩
  · simp [hlast (publishTag a p) (List.mem_cons_of_mem _ hmem)] at hdigit
  · simp [hlast (publishTag a p) (heq ▸ List.mem_cons_self)] at hdigit

theorem publishes_tag {node : HubNode} {pub : PublishedPort}
    (hpub : pub ∈ resolveNodePublishes cfg node) : ∃ id, pub.tag = publishTag id pub.port := by
  simp only [resolveNodePublishes, List.mem_flatMap, List.mem_map] at hpub
  obtain ⟨portal, -, entry, -, rfl⟩ := hpub
  exact ⟨portal.id.val, rfl⟩

theorem publishTags_nodup (h : Accepted cfg) {region : HubRegion} {node : HubNode}
    (hregion : Region.hub region ∈ cfg.regions) (hnode : node ∈ region.nodes) :
    ((resolveNodePublishes cfg node).map (·.tag)).Nodup := by
  have hports := publishedPorts_nodup h hregion hnode
  rw [List.Nodup, List.pairwise_map] at hports ⊢
  refine hports.imp_of_mem fun {a b} ha hb hne htag => hne ?_
  obtain ⟨i, hi⟩ := publishes_tag ha
  obtain ⟨j, hj⟩ := publishes_tag hb
  exact publishTag_port (hi ▸ hj ▸ htag)

theorem apiOf_tag {shared : SharedContext} {tag : String}
    (h : tag ∈ (apiOf shared).toList.map (·.tag)) : tag = "api" := by
  unfold apiOf at h
  split at h
  · simpa [observabilityBlocks] using h
  · cases h

theorem apiOf_tags_nodup (shared : SharedContext) : ((apiOf shared).toList.map (·.tag)).Nodup := by
  cases apiOf shared <;> simp

theorem HubRendered.tags_nodup (h : Accepted cfg) {region : HubRegion} {node : HubNode}
    {config : XrayConfig} (hregion : Region.hub region ∈ cfg.regions)
    (hnode : node ∈ region.nodes) (hr : HubRendered crypto cfg region node config) :
    config.inboundTags.Nodup := by
  have hfixed : fixedInboundTags.Nodup := by decide
  have hslots := slots_tags_sublist hr.ctx.slots hr.ctx.shared
  have hforward : ((resolveNodePublishes cfg node).map fun pub =>
      forwardFragment pub hr.ctx.shared).map (·.tag) =
        (resolveNodePublishes cfg node).map (·.tag) := by
    simp [forwardFragment]
  rw [XrayConfig.inboundTags, hr.inbounds_eq, hr.api_eq, List.map_append, hforward,
    List.nodup_append, List.nodup_append]
  refine ⟨⟨hfixed.sublist hslots, publishTags_nodup h hregion hnode, ?_⟩, apiOf_tags_nodup _, ?_⟩
  · intro tag htag tag' htag' heq
    obtain ⟨pub, hpub, rfl⟩ := List.mem_map.mp htag'
    obtain ⟨i, hi⟩ := publishes_tag hpub
    exact (publishTag_not_fixed i pub.port).1 (hi ▸ heq ▸ hslots.subset htag)
  · intro tag htag tag' htag' heq
    rw [apiOf_tag htag'] at heq
    rcases List.mem_append.mp htag with hmem | hmem
    · exact api_not_fixed (heq ▸ hslots.subset hmem)
    · obtain ⟨pub, hpub, rfl⟩ := List.mem_map.mp hmem
      obtain ⟨i, hi⟩ := publishes_tag hpub
      exact (publishTag_not_fixed i pub.port).2 (hi ▸ heq)

/-! ## Exits -/

/-- What is known of an exit config that renders. -/
theorem renderExit_eq_ok {region : ExitRegion} {node : ExitNode} {config : XrayConfig}
    (h : renderExit crypto cfg store region node = .ok config) :
    ∃ keys xhttp cdn hysteria,
      buildHysteria (exitEnv crypto cfg region node keys) = .ok hysteria ∧
        config.inbounds = buildInbounds { xhttp := xhttp, cdn := cdn, hysteria := hysteria }
          (makeShared cfg (.exit region) (.exit node) keys) ∧
        config.api = apiOf (makeShared cfg (.exit region) (.exit node) keys) ∧
        config.haproxy = (makeShared cfg (.exit region) (.exit node) keys).haproxy := by
  have htype : ∀ keys, (exitEnv crypto cfg region node keys).region.type = .exit := fun _ => rfl
  simp only [renderExit, buildExitContext, buildSlots, htype, Checks.bind_eq_ok,
    Checks.pure_eq_ok] at h
  obtain ⟨keys, -, ctx, ⟨slots, ⟨xhttp, -, cdn, -, hysteria, hhysteria, rfl⟩, rfl⟩, rfl⟩ := h
  exact ⟨keys, xhttp, cdn, hysteria, hhysteria, rfl, rfl, rfl⟩

theorem keys_exit (cfg : ConglomerateConfig) (region : ExitRegion) (node : ExitNode) :
    (socketClaims (.exit region) (.exit node) cfg.defaults cfg.global cfg.users).map
        SocketClaim.key =
      [(realityInboundPort, .tcp)] ++
        ((resolveNodeHysteria (.exit node) (.exit region) cfg.defaults).map
          (·.port.val)).toList.map (fun port => (port, .udp)) ++
        metricsSockets cfg (.exit region) (.exit node) := by
  simp only [socketClaims, List.map_append, key_metrics, key_toList_map, List.append_assoc]
  rfl

theorem exit_sockets {region : ExitRegion} {node : ExitNode} {config : XrayConfig}
    (hr : renderExit crypto cfg store region node = .ok config) :
    config.ownSockets = config.sockets ∧
      config.sockets.Sublist
        ((socketClaims (.exit region) (.exit node) cfg.defaults cfg.global cfg.users).map
          SocketClaim.key) := by
  obtain ⟨keys, xhttp, cdn, hysteria, hhysteria, hinbounds, hapi, hhaproxy⟩ := renderExit_eq_ok hr
  obtain ⟨clients, -, hport⟩ := buildHysteria_port hhysteria
  have hinbound : config.inbounds.flatMap (·.sockets) =
      (if config.haproxy then [] else [(realityInboundPort, .tcp)]) ++
        (hysteria.map (·.config.port.val)).toList.map fun port => (port, .udp) := by
    rw [hinbounds, flatMap_sockets_slots, hhaproxy]
    simp [proxySockets, udpPorts]
  have hfilter : config.inbounds.filter (!·.isForward) = config.inbounds := by
    rw [hinbounds, List.filter_eq_self]
    intro inbound hmem
    simp [isForward_slots _ _ inbound hmem]
  have hsockets : config.sockets = [(realityInboundPort, .tcp)] ++
      (hysteria.map (·.config.port.val)).toList.map (fun port => (port, .udp)) ++
        metricsSockets cfg (.exit region) (.exit node) := by
    rw [XrayConfig.sockets, hinbound, XrayConfig.haproxySockets, XrayConfig.apiSockets, hapi,
      apiSockets_eq]
    cases config.haproxy <;> simp
  refine ⟨by rw [XrayConfig.ownSockets, XrayConfig.sockets, hfilter], ?_⟩
  rw [hsockets, keys_exit, hport]
  refine ((List.Sublist.refl _).append (List.Sublist.map _ ?_)).append (List.Sublist.refl _)
  split
  · exact List.nil_sublist _
  · exact List.Sublist.refl _

theorem exit_tags_nodup {region : ExitRegion} {node : ExitNode} {config : XrayConfig}
    (hr : renderExit crypto cfg store region node = .ok config) : config.inboundTags.Nodup := by
  obtain ⟨keys, xhttp, cdn, hysteria, -, hinbounds, hapi, -⟩ := renderExit_eq_ok hr
  have hfixed : fixedInboundTags.Nodup := by decide
  have hslots := slots_tags_sublist { xhttp := xhttp, cdn := cdn, hysteria := hysteria }
    (makeShared cfg (.exit region) (.exit node) keys)
  rw [XrayConfig.inboundTags, hinbounds, hapi, List.nodup_append]
  refine ⟨hfixed.sublist hslots, apiOf_tags_nodup _, fun tag htag tag' htag' heq => ?_⟩
  rw [apiOf_tag htag'] at heq
  exact api_not_fixed (heq ▸ hslots.subset htag)

/-- An exit binds part of what the registry reserves for it, the rest being a Hysteria
listener no hub would dial. -/
theorem exit_listenersExact (h : Accepted cfg) {region : ExitRegion} {node : ExitNode}
    {config : XrayConfig} (hregion : Region.exit region ∈ cfg.regions)
    (hnode : node ∈ region.nodes) (hr : renderExit crypto cfg store region node = .ok config) :
    config.ListenersExact
      (socketClaims (.exit region) (.exit node) cfg.defaults cfg.global cfg.users) := by
  have hall : (Region.exit region, Node.exit node) ∈ allNodes cfg :=
    mem_allNodes hregion (List.mem_map_of_mem hnode)
  obtain ⟨hown, hsub⟩ := exit_sockets hr
  exact ⟨(h.portals.sockets _ hall).sublist hsub, exit_tags_nodup hr,
    fun s hs => hsub.subset (hown ▸ hs)⟩

/-! ## Exactness -/

theorem mem_placed_hub {region : HubRegion} {node : HubNode}
    (h : Placed.hub region node ∈ cfg.placed) :
    Region.hub region ∈ cfg.regions ∧ node ∈ region.nodes := by
  obtain ⟨r, hr, hmem⟩ := List.mem_flatMap.mp h
  cases r with
  | exit r =>
      obtain ⟨n, -, heq⟩ := List.mem_map.mp hmem
      cases heq
  | hub r =>
      obtain ⟨n, hn, heq⟩ := List.mem_map.mp hmem
      cases heq
      exact ⟨hr, hn⟩

theorem mem_placed_exit {region : ExitRegion} {node : ExitNode}
    (h : Placed.exit region node ∈ cfg.placed) :
    Region.exit region ∈ cfg.regions ∧ node ∈ region.nodes := by
  obtain ⟨r, hr, hmem⟩ := List.mem_flatMap.mp h
  cases r with
  | exit r =>
      obtain ⟨n, hn, heq⟩ := List.mem_map.mp hmem
      cases heq
      exact ⟨hr, hn⟩
  | hub r =>
      obtain ⟨n, -, heq⟩ := List.mem_map.mp hmem
      cases heq

/-- Whether the node renders the mixed proxy inbound. -/
def Placed.rendersProxy (cfg : ConglomerateConfig) : Placed → Bool
  | .exit _ _ => false
  | .hub _ node => resolveNodeProxyInbound node cfg.defaults

/-- With the mixed proxy rendered, port 80 is bound on UDP beside the registry: either the
registry does not know it, or an inbound it does know binds it as well. -/
theorem HubRendered.not_exact {region : HubRegion} {node : HubNode} {config : XrayConfig}
    (hr : HubRendered crypto cfg region node config)
    (hproxy : resolveNodeProxyInbound node cfg.defaults = true) :
    ¬ config.ListenersExact
      (socketClaims (.hub region) (.hub node) cfg.defaults cfg.global cfg.users) := by
  intro hexact
  have hown := hr.ownSockets
  rw [hproxy] at hown
  have hudp : (proxyInboundPort, Transport.udp) ∈ config.ownSockets := by
    rw [hown]
    simp
  have hreserved := hexact.reserved _ hudp
  rw [keys_hub, hproxy] at hreserved
  have hrest : (proxyInboundPort, Transport.udp) ∈
      (reservedUdpPorts cfg region node).map (fun port => (port, Transport.udp)) ++
        metricsSockets cfg (.hub region) (.hub node) := by
    simpa [realityInboundPort, proxyInboundPort] using hreserved
  have hnodup : config.ownSockets.Nodup :=
    ((hr.sockets_perm.nodup_iff).mp hexact.sockets).of_append_left
  rw [hown, List.append_assoc, List.nodup_append] at hnodup
  exact hnodup.2.2 _ (by simp) _ hrest rfl

/-- The listeners of a node are clear of each other, and known to the registry, exactly when
the node renders no mixed proxy. -/
theorem listeners_exact_iff (cfg : AcceptedConfig) {p : Placed} (hp : p ∈ cfg.placed)
    {config : XrayConfig} (h : renderNode crypto cfg.toConglomerateConfig store p = .ok config) :
    config.ListenersExact
        (socketClaims p.region p.node cfg.defaults cfg.global cfg.users) ↔
      p.rendersProxy cfg.toConglomerateConfig = false := by
  cases p with
  | exit region node =>
      obtain ⟨hregion, hnode⟩ := mem_placed_exit hp
      exact iff_of_true (exit_listenersExact cfg.spec hregion hnode h) rfl
  | hub region node =>
      obtain ⟨hregion, hnode⟩ := mem_placed_hub hp
      obtain ⟨hr⟩ := renderHub_eq_ok h
      constructor
      · intro hexact
        rw [Placed.rendersProxy, ← Bool.not_eq_true]
        exact fun hproxy => hr.not_exact hproxy hexact
      · intro hproxy
        refine ⟨hr.sockets_nodup cfg.spec hregion hnode hproxy,
          hr.tags_nodup cfg.spec hregion hnode, ?_⟩
        intro s hs
        rw [hr.ownSockets, show resolveNodeProxyInbound node cfg.defaults = false from hproxy] at hs
        rw [Placed.region, Placed.node, keys_hub,
          show resolveNodeProxyInbound node cfg.defaults = false from hproxy]
        exact hs

def proxyNode : HubNode := { Sample.hubNode with proxyInbound := some true }

def proxyRegion : HubRegion := { Sample.hubRegion with nodes := [proxyNode] }

/-- A hub that exposes the mixed proxy. -/
def proxyTopology : AcceptedConfig :=
  { Sample.topology
      [Sample.exitRegion Sample.fra Sample.lowRoute [Sample.exitNode Sample.fra1]]
      [Sample.user Sample.aliceName] [] proxyRegion with }

theorem listeners_exact_iff_proxyTopology :
    ∃ config, renderNode Sample.crypto proxyTopology.toConglomerateConfig Sample.store
        (.hub proxyRegion proxyNode) = .ok config ∧
      (config.ListenersExact (socketClaims (.hub proxyRegion) (.hub proxyNode)
          proxyTopology.defaults proxyTopology.global proxyTopology.users) ↔
        (Placed.hub proxyRegion proxyNode).rendersProxy proxyTopology.toConglomerateConfig =
          false) := by
  obtain ⟨config, h⟩ := isOk_iff.mp (show (renderNode Sample.crypto
    proxyTopology.toConglomerateConfig Sample.store (.hub proxyRegion proxyNode)).isOk = true by
      decide)
  have hp : Placed.hub proxyRegion proxyNode ∈ proxyTopology.toConglomerateConfig.placed :=
    List.mem_flatMap.mpr ⟨.hub proxyRegion, by simp [proxyTopology, Sample.topology],
      List.mem_map.mpr ⟨proxyNode, List.mem_singleton.mpr rfl, rfl⟩⟩
  exact ⟨config, h, listeners_exact_iff proxyTopology hp h⟩

/-- The mixed inbound binds 80/udp, of which the registry knows nothing. -/
theorem mixed_udp_unreserved :
    ¬ ∀ config, renderNode Sample.crypto proxyTopology.toConglomerateConfig Sample.store
        (.hub proxyRegion proxyNode) = .ok config →
      config.ListenersExact (socketClaims (.hub proxyRegion) (.hub proxyNode)
        proxyTopology.defaults proxyTopology.global proxyTopology.users) := by
  intro h
  have hunknown : (renderNode Sample.crypto proxyTopology.toConglomerateConfig Sample.store
      (.hub proxyRegion proxyNode)).toOption.any (fun config =>
        config.ownSockets.any fun s => s ∉ (socketClaims (.hub proxyRegion) (.hub proxyNode)
          proxyTopology.defaults proxyTopology.global proxyTopology.users).map
            SocketClaim.key) = true := by
    decide
  cases hrender : renderNode Sample.crypto proxyTopology.toConglomerateConfig Sample.store
      (.hub proxyRegion proxyNode) with
  | error e => simp [hrender, Except.toOption] at hunknown
  | ok config =>
      simp only [hrender, Except.toOption, Option.any_some, List.any_eq_true,
        decide_eq_true_eq] at hunknown
      obtain ⟨s, hs, hmissing⟩ := hunknown
      exact hmissing ((h config hrender).reserved s hs)

end HexRift
