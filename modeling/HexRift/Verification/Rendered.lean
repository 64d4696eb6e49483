import HexRift.Verification.Rules

/-! # What a rendered hub config contains

A hub config that renders has one link for each exit node, its warp variant where the
region has warp, and the balancers, rules and published ports of the topology. -/

namespace HexRift

open Checks

section Rendering

variable {cfg : ConglomerateConfig} {crypto : Crypto} {store : KeyStore}

/-! ## Links -/

/-- Tag of the plain link to an exit node. -/
def linkTag (node : ExitNode) : String := tagPrefix node ++ node.id.val

def warpLinkTag (node : ExitNode) : String := TagPrefix.warp ++ linkTag node

theorem linkTag_primary {node : ExitNode} (h : node.lbRole ≠ some .backup) :
    linkTag node = node.id.val := by
  simp [linkTag, tagPrefix, h, TagPrefix.none]

theorem linkTag_backup {node : ExitNode} (h : node.lbRole = some .backup) :
    linkTag node = TagPrefix.backup ++ node.id.val := by
  simp [linkTag, tagPrefix, h]

theorem buildLink_tag {env : LinkEnv} {uid : UUID} {pre : String} {link : LinkContext}
    (h : buildLink env uid pre = .ok link) : link.tag = pre ++ env.exitNode.id.val := by
  simp only [buildLink, bind_eq_ok, pure_eq_ok] at h
  obtain ⟨dial, -, rfl⟩ := h
  rfl

/-- Tag prefix and exit of a link. -/
def LinkContext.name (link : LinkContext) : String × String := (link.tagPrefix, link.exitId)

def linkName (node : ExitNode) : String × String := (tagPrefix node, node.id.val)

def warpLinkName (node : ExitNode) : String × String :=
  (TagPrefix.warp ++ tagPrefix node, node.id.val)

theorem buildLink_name {env : LinkEnv} {uid : UUID} {pre : String} {link : LinkContext}
    (h : buildLink env uid pre = .ok link) : link.name = (pre, env.exitNode.id.val) := by
  simp only [buildLink, bind_eq_ok, pure_eq_ok] at h
  obtain ⟨dial, -, rfl⟩ := h
  rfl

theorem buildLinks_names {hub : HubNode} {keys : KeyStore} {r : ExitRegion} {n : ExitNode}
    {links : LinkContext × Option LinkContext}
    (h : buildLinks crypto cfg hub keys r n = .ok links) :
    links.1.name = linkName n ∧
      links.2.map (·.name) = if r.warp.isSome then some (warpLinkName n) else none := by
  unfold buildLinks at h
  cases hkeys : keys n.id.val with
  | none =>
      simp only [hkeys] at h
      cases h
  | some nodeKeys =>
      simp only [hkeys, bind_eq_ok] at h
      obtain ⟨link, hlink, h⟩ := h
      cases hwarp : r.warp with
      | none =>
          simp only [hwarp, pure_eq_ok] at h
          subst h
          exact ⟨buildLink_name hlink, by simp⟩
      | some warp =>
          simp only [hwarp, bind_eq_ok, pure_eq_ok] at h
          obtain ⟨wlink, hwlink, rfl⟩ := h
          exact ⟨buildLink_name hlink, by simp [buildLink_name hwlink, warpLinkName]⟩

/-! ## Outbounds -/

/-- Tags of the plain links of a hub, then of their warp variants. -/
def plainTags (cfg : ConglomerateConfig) : List String :=
  (renderedExitNodes cfg).map fun p => linkTag p.2

def warpTags (cfg : ConglomerateConfig) : List String :=
  (renderedExitNodes cfg).filterMap fun p =>
    if p.1.warp.isSome then some (warpLinkTag p.2) else none

def outboundTags (cfg : ConglomerateConfig) : List String :=
  plainTags cfg ++ warpTags cfg ++ specialDestinations

theorem map_name_links {hub : HubNode} {keys : KeyStore} {pairs : List (ExitRegion × ExitNode)}
    {links : List (LinkContext × Option LinkContext)}
    (h : mapEach pairs (fun p => buildLinks crypto cfg hub keys p.1 p.2) = .ok links) :
    links.map (fun l => l.1.name) = pairs.map (fun p => linkName p.2) ∧
      (links.filterMap (·.2)).map (·.name) =
        pairs.filterMap fun p => if p.1.warp.isSome then some (warpLinkName p.2) else none := by
  induction pairs generalizing links with
  | nil =>
      cases h
      exact ⟨rfl, rfl⟩
  | cons p ps ih =>
      simp only [mapEach, bind_eq_ok, pure_eq_ok] at h
      obtain ⟨l, hl, ls, hls, rfl⟩ := h
      obtain ⟨hplain, hwarp⟩ := buildLinks_names hl
      obtain ⟨ihplain, ihwarp⟩ := ih hls
      refine ⟨by simp [hplain, ihplain], ?_⟩
      rw [List.filterMap_cons, List.filterMap_cons, ← hwarp]
      cases l.2 with
      | none => exact ihwarp
      | some w => simp [ihwarp]

/-! ## Hub configs -/

/-- What is known of a hub config that renders. -/
structure HubRendered (crypto : Crypto) (cfg : ConglomerateConfig) (region : HubRegion)
    (node : HubNode) (config : XrayConfig) where
  ctx : HubContext
  keys : NodeKeys
  slots : buildSlots (hubEnv crypto cfg region node keys) = .ok ctx.slots
  shared : ctx.shared = makeShared cfg (.hub region) (.hub node) keys
  published : ctx.published = resolveNodePublishes cfg node
  plain : ctx.outbounds.map (·.name) = (renderedExitNodes cfg).map fun p => linkName p.2
  warp : ctx.warpOutbounds.map (·.name) =
    (renderedExitNodes cfg).filterMap fun p =>
      if p.1.warp.isSome then some (warpLinkName p.2) else none
  balancers : ctx.balancers = (renderedExitRegions cfg).flatMap balancersOf
  rules : buildHubRoutingRules cfg (resolveNodePublishes cfg node) = .ok ctx.routingRules
  selectors : ctx.observatorySelectors =
    buildBurstObservatorySelectors (renderedExitRegions cfg)
  config_eq : config = buildHubConfig ctx

theorem loadNodeKeys_eq_ok {id : String} {keys : NodeKeys} :
    loadNodeKeys store id = .ok keys ↔ store id = some keys := by
  unfold loadNodeKeys
  cases store id <;> simp

/-- Keys loaded for several nodes are looked up as they are stored. -/
theorem lookup_loaded {α : Type} {xs : List α} (name : α → String)
    {loaded : List (String × NodeKeys)}
    (h : mapEach xs (fun x => do pure (name x, ← loadNodeKeys store (name x))) = .ok loaded)
    {x : α} (hx : x ∈ xs) : loaded.lookup (name x) = store (name x) := by
  induction xs generalizing loaded with
  | nil => cases hx
  | cons y ys ih =>
      simp only [mapEach, bind_eq_ok, pure_eq_ok, loadNodeKeys_eq_ok] at h
      obtain ⟨_, ⟨keys, hkeys, rfl⟩, rest, hrest, rfl⟩ := h
      by_cases hname : name x = name y
      · simp [hname, hkeys]
      · have hne : (name x == name y) = false := by simpa using hname
        have hmem : x ∈ ys := by
          rcases List.mem_cons.mp hx with rfl | hmem
          · exact absurd rfl hname
          · exact hmem
        rw [List.lookup_cons, hne]
        exact ih hrest hmem

/-- A hub config is rendered from the keys stored for the node. -/
theorem renderHub_loaded {region : HubRegion} {node : HubNode} {config : XrayConfig}
    (h : renderHub crypto cfg store region node = .ok config) :
    ∃ hr : HubRendered crypto cfg region node config, store node.id.val = some hr.keys := by
  simp only [renderHub, buildHubContext, buildBalancers_eq, bind_eq_ok, pure_eq_ok] at h
  obtain ⟨keys, hkeys, exitKeys, -, ctx, ⟨links, hlinks, slots, hslots, balancers, hbal, rules,
    hrules, rfl⟩, rfl⟩ := h
  cases hbal
  obtain ⟨hplain, hwarp⟩ := map_name_links hlinks
  exact ⟨{
    ctx := _
    keys := keys
    slots := hslots
    shared := rfl
    published := rfl
    plain := by simpa [Function.comp_def] using hplain
    warp := hwarp
    balancers := rfl
    rules := hrules
    selectors := rfl
    config_eq := rfl }, loadNodeKeys_eq_ok.mp hkeys⟩

theorem renderHub_eq_ok {region : HubRegion} {node : HubNode} {config : XrayConfig}
    (h : renderHub crypto cfg store region node = .ok config) :
    Nonempty (HubRendered crypto cfg region node config) :=
  let ⟨hr, _⟩ := renderHub_loaded h
  ⟨hr⟩

/-- Tags of the outbounds of a config. -/
def XrayConfig.outboundTags (config : XrayConfig) : List String := config.outbounds.map (·.tag)

/-- Name of the link an outbound renders, if it is one. -/
def Outbound.linkName (outbound : Outbound) : Option (String × String) :=
  outbound.link.map (·.name)

/-- The links of a rendered hub config are the exit nodes' and their warp variants, in order. -/
theorem HubRendered.outbound_names {region : HubRegion} {node : HubNode} {config : XrayConfig}
    (h : HubRendered crypto cfg region node config) :
    config.outbounds.map (fun o => (o.tag, o.linkName)) =
      (renderedExitNodes cfg).map (fun p => (linkTag p.2, some (linkName p.2))) ++
        (renderedExitNodes cfg).filterMap (fun p =>
          if p.1.warp.isSome then some (warpLinkTag p.2, some (warpLinkName p.2)) else none) ++
        specialDestinations.map fun tag => (tag, none) := by
  have hlinks : ∀ links : List LinkContext,
      (links.map renderLink).map (fun o => (o.tag, o.linkName)) =
        (links.map (·.name)).map fun e => (e.1 ++ e.2, some e) := by
    intro links
    rw [List.map_map, List.map_map]
    rfl
  rw [h.config_eq, buildHubConfig, List.map_append, List.map_append, List.map_append, hlinks,
    hlinks, h.plain, h.warp, List.map_map, List.map_filterMap]
  simp only [Option.map_if, warpLinkName, warpLinkTag, linkTag, String.append_assoc]
  rfl

theorem HubRendered.outboundTags {region : HubRegion} {node : HubNode} {config : XrayConfig}
    (h : HubRendered crypto cfg region node config) :
    config.outboundTags = HexRift.outboundTags cfg := by
  have hnames := congrArg (List.map Prod.fst) h.outbound_names
  simp only [List.map_append, List.map_map, List.map_filterMap, Option.map_if] at hnames
  exact hnames

/-! ## Reverse clients -/

/-- Reverse tags of an inbound's clients. -/
def Inbound.reverseTags (inbound : Inbound) : List String :=
  match inbound.settings with
  | .vless clients _ => clients.filterMap (·.reverse)
  | _ => []

def XrayConfig.reverseTags (config : XrayConfig) : List String :=
  config.inbounds.flatMap (·.reverseTags)

theorem reverse_getHubAccessClients (uuid5 : Uuid5) (ns : Namespace) (users : List User)
    (access : AccessType) (flow : String) (includeServer : Bool) :
    (getHubAccessClients uuid5 ns users access flow includeServer).filterMap (·.reverse) = [] := by
  simp only [getHubAccessClients, List.filterMap_eq_nil_iff, List.mem_flatMap]
  rintro client ⟨u, -, hclient⟩
  split at hclient
  · cases hclient
  · simp only [List.mem_cons, List.mem_append, List.mem_map] at hclient
    rcases hclient with rfl | hserver | ⟨label, -, rfl⟩
    · rfl
    · split at hserver
      · rw [List.mem_singleton] at hserver
        rw [hserver]
        rfl
      · cases hserver
    · rfl

theorem reverse_getPortalClients (uuid5 : Uuid5) (ns : Namespace) (portals : List Portal)
    (flow : String) :
    (getPortalClients uuid5 ns portals flow).filterMap (·.reverse) =
      portals.map fun p => portalTag p.id := by
  induction portals with
  | nil => rfl
  | cons p ps ih => simp [getPortalClients]

theorem reverse_getHubVlessClients (uuid5 : Uuid5) (ns : Namespace) (users : List User)
    (portals : List Portal) (flow : String) :
    (getHubVlessClients uuid5 ns users portals flow).filterMap (·.reverse) =
      portals.map fun p => portalTag p.id := by
  rw [getHubVlessClients, List.filterMap_append, reverse_getPortalClients]
  have husers : (users.flatMap fun u =>
      (if .xhttp ∈ u.access then [userClient uuid5 ns u flow] else []) ++
        (if .server ∈ u.access then [serverClient uuid5 ns u flow] else []) ++
        (if .xhttp ∈ u.access then u.guests.map (guestClient uuid5 ns u flow) else [])).filterMap
          (·.reverse) = [] := by
    simp only [List.filterMap_eq_nil_iff, List.mem_flatMap, List.mem_append]
    rintro client ⟨u, -, (huser | hserver) | hguest⟩
    · split at huser <;> simp_all [userClient]
    · split at hserver <;> simp_all [serverClient]
    · split at hguest
      · obtain ⟨label, -, rfl⟩ := List.mem_map.mp hguest
        rfl
      · cases hguest
  rw [husers, List.nil_append]

/-- Each slot of a hub is what its own builder returns. -/
structure HubSlots (env : InboundEnv) (slots : Slots) : Prop where
  xhttp : buildXhttp env = .ok slots.xhttp
  cdn : buildCdn env = .ok slots.cdn
  proxy : buildProxy env = .ok slots.proxy
  xdns : buildXdns env = .ok slots.xdns
  wireguard : buildWireguard env = .ok slots.wireguard
  hysteria : buildHysteria env = .ok slots.hysteria

theorem buildSlots_hub {region : HubRegion} {node : HubNode} {keys : NodeKeys} {slots : Slots}
    (h : buildSlots (hubEnv crypto cfg region node keys) = .ok slots) :
    HubSlots (hubEnv crypto cfg region node keys) slots := by
  have htype : (hubEnv crypto cfg region node keys).region.type = .hub := rfl
  simp only [buildSlots, htype, bind_eq_ok, pure_eq_ok] at h
  obtain ⟨xhttp, hxhttp, cdn, hcdn, proxy, hproxy, xdns, hxdns, wireguard, hwireguard, hysteria,
    hhysteria, rfl⟩ := h
  exact ⟨hxhttp, hcdn, hproxy, hxdns, hwireguard, hhysteria⟩

/-- The direct inbound of a node that serves Reality. -/
theorem realityContext_eq_ok {env : InboundEnv} {xhttp : XhttpConfig}
    {clients : List ClientEntry} {shortIds : List String} {ctx : XhttpContext}
    (h : realityContext env xhttp clients shortIds = .ok ctx) :
    ∃ reality names, resolveNodeReality env.node env.region env.cfg.defaults = .ok reality ∧
      deriveServerNames reality = .ok names ∧ deriveXhttpHost reality xhttp = .ok ctx.xhttpHost ∧
      ctx = {
        clients := clients
        xhttpHost := ctx.xhttpHost
        xhttpPath := xhttp.path.val
        security := .reality shortIds reality.dest.val names env.nodeKeys.realityPrivateKey
          reality.fallbackLimits } := by
  simp only [realityContext, bind_eq_ok, pure_eq_ok] at h
  obtain ⟨reality, hreality, host, hhost, names, hnames, rfl⟩ := h
  exact ⟨reality, names, hreality, hnames, hhost, rfl⟩

theorem realityContext_clients {env : InboundEnv} {xhttp : XhttpConfig}
    {clients : List ClientEntry} {shortIds : List String} {ctx : XhttpContext}
    (h : realityContext env xhttp clients shortIds = .ok ctx) : ctx.clients = clients := by
  obtain ⟨reality, names, -, -, -, hctx⟩ := realityContext_eq_ok h
  exact congrArg XhttpContext.clients hctx

/-- The direct inbound of a hub node serves the TLS of its region, or else Reality. -/
theorem buildXhttp_hub_cases {region : HubRegion} {node : HubNode} {keys : NodeKeys}
    {ctx : XhttpContext} (h : buildXhttp (hubEnv crypto cfg region node keys) = .ok ctx) :
    ∃ xhttp, resolveNodeXhttp (.hub node) (.hub region) cfg.defaults = .ok xhttp ∧
      ((∃ tls, resolveRegionTls region cfg.defaults = .ok (some tls) ∧ ctx = {
          clients := getHubAccessClients crypto.uuid5 cfg.ns cfg.users .tls keys.flow true ++
            getPortalClients crypto.uuid5 cfg.ns cfg.portals keys.flow
          xhttpHost := (xhttp.host.getD node.hostname).val
          xhttpPath := xhttp.path.val
          security := .tls tls.certificate }) ∨
        (resolveRegionTls region cfg.defaults = .ok none ∧
          realityContext (hubEnv crypto cfg region node keys) xhttp
            (getHubVlessClients crypto.uuid5 cfg.ns cfg.users cfg.portals keys.flow)
            (getHubShortIds crypto cfg.ns cfg.groups ++
              getHubPortalShortIds crypto cfg.ns cfg.portals ++
              getHubUserShortIds crypto cfg.ns cfg.users) = .ok ctx)) := by
  have htype : (hubEnv crypto cfg region node keys).region.type = .hub := rfl
  simp only [buildXhttp, htype, buildHubXhttp, bind_eq_ok] at h
  obtain ⟨xhttp, hxhttp, hubRegion, hhub, tls, htls, h⟩ := h
  cases hhub
  refine ⟨xhttp, hxhttp, ?_⟩
  cases tls with
  | some tls => exact .inl ⟨tls, htls, (pure_eq_ok.mp h).symm⟩
  | none => exact .inr ⟨htls, h⟩

/-- The direct inbound of a hub carries one reverse client for each portal. -/
theorem reverse_buildXhttp {region : HubRegion} {node : HubNode} {keys : NodeKeys}
    {ctx : XhttpContext} (h : buildXhttp (hubEnv crypto cfg region node keys) = .ok ctx) :
    ctx.clients.filterMap (·.reverse) = cfg.portals.map fun p => portalTag p.id := by
  obtain ⟨xhttp, -, ⟨tls, -, rfl⟩ | ⟨-, hreality⟩⟩ := buildXhttp_hub_cases h
  · rw [List.filterMap_append, reverse_getHubAccessClients, reverse_getPortalClients]
    rfl
  · rw [realityContext_clients hreality, reverse_getHubVlessClients]

theorem reverse_buildCdn {region : HubRegion} {node : HubNode} {keys : NodeKeys}
    {cdn : Option CdnContext} (h : buildCdn (hubEnv crypto cfg region node keys) = .ok cdn) :
    ∀ ctx ∈ cdn, ctx.clients.filterMap (·.reverse) = [] := by
  have htype : (hubEnv crypto cfg region node keys).region.type = .hub := rfl
  unfold buildCdn at h
  split at h
  · simp only [htype] at h
    cases h
    rintro ctx hctx
    cases hctx
    exact reverse_getHubAccessClients _ _ _ _ _ _
  · cases h
    exact fun ctx hctx => by cases hctx

theorem reverse_buildXdns {env : InboundEnv} {xdns : Option XdnsContext}
    (h : buildXdns env = .ok xdns) : ∀ ctx ∈ xdns, ctx.clients.filterMap (·.reverse) = [] := by
  simp only [buildXdns, bind_eq_ok] at h
  obtain ⟨node, -, h⟩ := h
  split at h
  · cases h
    exact fun ctx hctx => by cases hctx
  · split at h
    · cases h
      exact fun ctx hctx => by cases hctx
    · cases h
      rintro ctx hctx
      cases hctx
      exact reverse_getHubAccessClients _ _ _ _ _ _

theorem HubRendered.reverseTags {region : HubRegion} {node : HubNode} {config : XrayConfig}
    (h : HubRendered crypto cfg region node config) :
    config.reverseTags = cfg.portals.map fun p => portalTag p.id := by
  have hslots := buildSlots_hub h.slots
  have hxhttp := reverse_buildXhttp hslots.xhttp
  have hcdn := reverse_buildCdn hslots.cdn
  have hxdns := reverse_buildXdns hslots.xdns
  rw [h.config_eq, XrayConfig.reverseTags, buildHubConfig, buildInbounds]
  simp only [List.flatMap_append, List.flatMap_map]
  have hempty : ∀ {α : Type} (slot : Option α) (f : α → Inbound),
      (∀ ctx ∈ slot, (f ctx).reverseTags = []) →
        slot.toList.flatMap (fun ctx => (f ctx).reverseTags) = [] := by
    intro α slot f hslot
    cases slot with
    | none => rfl
    | some ctx => simpa using hslot ctx rfl
  rw [hempty _ _ hcdn, hempty _ _ fun _ _ => rfl, hempty _ _ hxdns, hempty _ _ fun _ _ => rfl,
    hempty _ _ fun _ _ => rfl]
  have hforward : (h.ctx.published.flatMap fun pub =>
      (forwardFragment pub h.ctx.shared).reverseTags) = [] := by
    simp [Inbound.reverseTags, forwardFragment]
  rw [hforward, ← hxhttp]
  simp [Inbound.reverseTags, XhttpContext.fragment]

end Rendering

/-! ## A small topology -/

namespace Sample

/-- Name-based UUIDs read from a table of computed ones. Every other name gets one fixed
UUID of version 5. -/
def uuid5 (table : List ((UUID × String) × UUID))
    (hversion : ∀ e ∈ table, e.2.timeHiVersion.toNat / 2 ^ 12 = 5 ∧
      e.2.clockSeq.toNat / 2 ^ 14 = 2) : Uuid5 :=
  let other : UUID := ⟨0, 0, 0x5000, 0x8000, 0⟩
  let run := fun base name =>
    ((table.find? fun e => e.1 = (base, name)).map (·.2)).getD other
  have hrun : ∀ base name, (run base name).timeHiVersion.toNat / 2 ^ 12 = 5 ∧
      (run base name).clockSeq.toNat / 2 ^ 14 = 2 := by
    intro base name
    simp only [run]
    cases hfind : table.find? fun e => e.1 = (base, name) with
    | none => decide
    | some e => exact hversion e (List.mem_of_find?_eq_some hfind)
  { run := run, version := fun b n => (hrun b n).1, variant := fun b n => (hrun b n).2 }

def crypto : Crypto :=
  { uuid5 := uuid5 [] (by simp)
    sha256Hex := id
    hmacFromRealityKey := fun _ _ => []
    urlsafeB64encode := fun _ => ""
    x25519UrlsafeToStd := id
    x25519KeypairFromSeed := fun _ => ("", "")
    selfSignedCert := fun _ _ _ => .ok ("", "", []) }

def nodeKeys : NodeKeys :=
  { realityPrivateKey := "private", realityPublicKey := "public", decryption := "decryption"
    encryption := "encryption" }

def store : KeyStore := fun _ => some nodeKeys

def keys : KeysConfig := { mode := "native", sessionTime := "600s" }

def noKeys : NodeKeysOverride := {}

def defaults : DefaultsConfig :=
  { exit := { ipv6 := true, keys := keys, xhttp := some { path := { val := "/update/" } } }
    hub := {
      ipv6 := true
      keys := keys
      exitConnections := { method := .mlkem768 }
      reality := some { dest := { val := "www.example.com:443" } }
      xhttp := some { path := { val := "/update/" } } } }

def fra : Identifier := { val := "fra" }
def fra1 : Identifier := { val := "fra-1" }
def nl : Identifier := { val := "nl" }
def nl1 : Identifier := { val := "nl-1" }
def mainGroup : Identifier := { val := "main" }
def aliceName : Identifier := { val := "alice" }
def corpName : Identifier := { val := "corp" }
def h2 : Identifier := { val := "h2" }

def lowRoute : VlessRoute := { val := 2000 }

def exitNode (id : Identifier) (role : Option LbRole := none) : ExitNode :=
  { id := id
    hostname := { val := "exit.example.net" }
    lbRole := role
    reality := some { dest := { val := "www.example.com:443" } } }

def hubNode : HubNode := { id := { val := "h1" }, hostname := { val := "hub.example.net" } }

def hubRegion : HubRegion := { id := { val := "hubs" }, nodes := [hubNode] }

def user (name : Identifier) (guests : List Identifier := []) (uuid : Option UUID := none) : User :=
  { username := name, group := mainGroup, access := [.xhttp], guests := guests
    uuid := uuid }

def exitRegion (id : Identifier) (route : VlessRoute) (nodes : List ExitNode) : ExitRegion :=
  { id := id, vlessRoute := some route, nodes := nodes }

def global : GlobalConfig :=
  { «namespace» := { val := "example.net" }, aphelionDomain := { val := "ap.example.net" } }

def corpGlobal : GlobalConfig := { global with «namespace» := { val := "corp" } }

/-- One portal, of the user the topologies share. -/
def lanPortal : Portal :=
  { id := { val := "nas" }, users := [aliceName], routes := { domains := some ["domain:lan"] } }

def lanPublish : PortalPublish := { port := { val := 8443 }, target := { val := "nas.lan:443" } }

/-- The exit regions, users, `hub_routes` and hub region given, and all other traffic
direct. -/
def topology (regions : List ExitRegion) (users : List User) (hubRoutes : List HubRoute := [])
    (hub : HubRegion := hubRegion) : ConglomerateConfig :=
  { global := global
    defaults := defaults
    groups := [{ id := mainGroup }]
    users := users
    routing := { hubDefault := "direct", hubRoutes := hubRoutes }
    regions := regions.map .exit ++ [.hub hub] }

end Sample

end HexRift
