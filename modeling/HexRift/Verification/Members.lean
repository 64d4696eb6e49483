import HexRift.Verification.Exposure
import HexRift.Verification.Soundness

/-! # Members of a portal

The validator decides from a summary of what the hubs render whether a member can be told
apart on some hub. The summary promises no more than the hubs keep: the inbound is there, and
it lists the member. -/

namespace HexRift

open Checks

variable {cfg : ConglomerateConfig} {crypto : Crypto} {store : KeyStore} {region : HubRegion}
  {node : HubNode} {keys : NodeKeys} {config : XrayConfig} {user : User}

/-! ## Labels of an inbound -/

/-- E-mail labels of those an inbound lets in as clients or peers. -/
def Inbound.labels (inbound : Inbound) : List String :=
  match inbound.settings with
  | .vless clients _ => clients.map (·.email)
  | .hysteria users => users.map (·.email)
  | .wireguard _ _ peers => peers.map (·.email)
  | _ => []

/-- The inbound lists the user as a client or a peer. -/
def Inbound.admits (inbound : Inbound) (ns : Namespace) (user : User) : Prop :=
  ns.userEmail user.username.val ∈ inbound.labels

theorem user_mem_granted (hu : user ∈ cfg.users) {access : AccessType} {server : Bool}
    (haccess : access ∈ user.access) :
    Identity.user user ∈ cfg.users.flatMap (User.granted access server) := by
  refine List.mem_flatMap.mpr ⟨user, hu, ?_⟩
  rw [User.granted, if_neg (not_not.mpr haccess)]
  exact List.mem_cons_self

theorem hasAccess_of_mem (hu : user ∈ cfg.users) {access : AccessType}
    (haccess : access ∈ user.access) : hasAccess cfg.users access = true :=
  List.any_eq_true.mpr ⟨user, hu, decide_eq_true haccess⟩

theorem label_mem_clients {is : List Identity} (h : Identity.user user ∈ is) {uuid5 : Uuid5}
    {flow : String} : cfg.ns.userEmail user.username.val ∈
      (is.map (Identity.client uuid5 cfg.ns flow)).map (·.email) := by
  rw [List.map_map]
  exact List.mem_map.mpr ⟨_, h, rfl⟩

/-- A slot is filled when its port is known. -/
theorem isSome_of_map {α β : Type} {slot : Option α} {f : α → β} {o : Option β}
    (hmap : slot.map f = o) (ho : o.isSome = true) : ∃ ctx, slot = some ctx := by
  rw [← hmap, Option.isSome_map] at ho
  exact Option.isSome_iff_exists.mp ho

/-! ## One access type -/

section Slots

variable {slots : Slots} (shared : SharedContext)

theorem admitted_direct (hslots : HubSlots (hubEnv crypto cfg region node keys) slots)
    {tls : Option TlsConfig} (htls : resolveRegionTls region cfg.defaults = .ok tls)
    (hu : user ∈ cfg.users) (haccess : (if tls.isSome then .tls else .xhttp) ∈ user.access) :
    (slots.xhttp.fragment shared).admits cfg.ns user := by
  obtain ⟨tls', htls', hclients⟩ := buildXhttp_clients hslots.xhttp
  rw [htls] at htls'
  cases htls'
  have hmem : Identity.user user ∈ directIdentities cfg tls := by
    refine List.mem_append_left _ (List.mem_flatMap.mpr ⟨user, hu, ?_⟩)
    cases htls : tls.isSome with
    | true =>
        simp only [htls, if_true] at haccess ⊢
        rw [User.granted, if_neg (not_not.mpr haccess)]
        exact List.mem_cons_self
    | false =>
        simp only [htls, Bool.false_eq_true, if_false] at haccess ⊢
        simp [User.grantedReality, haccess]
  unfold Inbound.admits Inbound.labels XhttpContext.fragment
  simp only [hclients]
  exact label_mem_clients hmem

theorem admitted_cdn (hslots : HubSlots (hubEnv crypto cfg region node keys) slots)
    (hcdn : cfg.global.cdn.isSome = true ∧ region.cdnXhttpPath.isSome = true)
    (hu : user ∈ cfg.users) (haccess : .cdn ∈ user.access) :
    ∃ ctx, slots.cdn = some ctx ∧ (ctx.fragment shared).admits cfg.ns user := by
  obtain ⟨ctx, hctx⟩ : ∃ ctx, slots.cdn = some ctx := by
    obtain ⟨cdn, hglobal⟩ := Option.isSome_iff_exists.mp hcdn.1
    obtain ⟨path, hpath⟩ := Option.isSome_iff_exists.mp hcdn.2
    have hbuild := hslots.cdn
    have hregion : (hubEnv crypto cfg region node keys).region.cdnXhttpPath = some path := hpath
    have hcfg : (hubEnv crypto cfg region node keys).cfg.global.cdn = some cdn := hglobal
    simp only [buildCdn, hregion, hcfg] at hbuild
    exact ⟨_, (Except.ok.inj hbuild).symm⟩
  refine ⟨ctx, hctx, ?_⟩
  have hclients := buildCdn_clients hslots.cdn ctx hctx
  unfold Inbound.admits Inbound.labels CdnContext.fragment
  simp only [hclients]
  exact label_mem_clients (user_mem_granted hu haccess)

theorem admitted_xdns (hslots : HubSlots (hubEnv crypto cfg region node keys) slots)
    (hxdns : (resolveNodeXdns node cfg.defaults).isSome = true)
    (hu : user ∈ cfg.users) (haccess : .xdns ∈ user.access) :
    ∃ ctx, slots.xdns = some ctx ∧ (ctx.fragment shared).admits cfg.ns user := by
  have hport := xdns_port hslots.xdns
  rw [if_pos (hasAccess_of_mem hu haccess)] at hport
  obtain ⟨ctx, hctx⟩ := isSome_of_map hport (by rw [Option.isSome_map]; exact hxdns)
  refine ⟨ctx, hctx, ?_⟩
  have hclients := buildXdns_clients hslots.xdns ctx hctx
  unfold Inbound.admits Inbound.labels XdnsContext.fragment
  simp only [hclients]
  exact label_mem_clients (user_mem_granted hu haccess)

theorem admitted_wireguard (hslots : HubSlots (hubEnv crypto cfg region node keys) slots)
    (hwireguard : (resolveNodeWireguardPort node cfg.defaults).isSome = true)
    (hu : user ∈ cfg.users) (haccess : .wireguard ∈ user.access) :
    ∃ ctx, slots.wireguard = some ctx ∧ ctx.fragment.admits cfg.ns user := by
  have hport := wireguard_port hslots.wireguard
  rw [if_pos (hasAccess_of_mem hu haccess)] at hport
  obtain ⟨ctx, hctx⟩ := isSome_of_map hport (by rw [Option.isSome_map]; exact hwireguard)
  refine ⟨ctx, hctx, ?_⟩
  have hpeers := congrArg (List.map Prod.fst) (buildWireguard_peers hslots.wireguard ctx hctx)
  rw [List.map_map, List.map_map] at hpeers
  have hlabels : ctx.fragment.labels =
      (cfg.users.flatMap (User.granted .wireguard true)).map (Identity.email cfg.ns) := hpeers
  rw [Inbound.admits, hlabels]
  exact List.mem_map.mpr ⟨_, user_mem_granted hu haccess, rfl⟩

theorem admitted_hysteria (hslots : HubSlots (hubEnv crypto cfg region node keys) slots)
    (hhysteria : (resolveNodeHysteria (.hub node) (.hub region) cfg.defaults).isSome = true)
    (hu : user ∈ cfg.users) (haccess : .hysteria ∈ user.access) :
    ∃ ctx, slots.hysteria = some ctx ∧ (ctx.fragment shared).admits cfg.ns user := by
  have hport := hysteria_port hslots.hysteria
  rw [if_pos (hasAccess_of_mem hu haccess)] at hport
  obtain ⟨ctx, hctx⟩ := isSome_of_map hport (by rw [Option.isSome_map]; exact hhysteria)
  refine ⟨ctx, hctx, ?_⟩
  have husers := buildHysteria_users hslots.hysteria ctx hctx
  unfold Inbound.admits Inbound.labels HysteriaContext.fragment
  simp only [husers, List.map_map]
  exact List.mem_map.mpr ⟨_, user_mem_granted hu haccess, rfl⟩

/-- Whatever access type the validator takes a hub to render, one of its inbounds lists every
user who has it. -/
theorem admitted_of_access (hslots : HubSlots (hubEnv crypto cfg region node keys) slots)
    {rendered : List AccessType}
    (hrendered : hubRenderedAccess region node cfg.defaults cfg.global = .ok rendered)
    {access : AccessType} (hmem : access ∈ rendered) (hu : user ∈ cfg.users)
    (haccess : access ∈ user.access) :
    ∃ inbound ∈ buildInbounds slots shared, inbound.admits cfg.ns user := by
  simp only [hubRenderedAccess, bind_eq_ok, pure_eq_ok] at hrendered
  obtain ⟨tls, htls, rfl⟩ := hrendered
  simp only [List.mem_append, List.mem_singleton, List.mem_ite_nil_right] at hmem
  rcases hmem with (((rfl | ⟨hcdn, rfl⟩) | ⟨hxdns, rfl⟩) | ⟨hwireguard, rfl⟩) | ⟨hhysteria, rfl⟩
  · refine ⟨slots.xhttp.fragment shared, ?_, admitted_direct shared hslots htls hu haccess⟩
    simp [buildInbounds]
  · obtain ⟨ctx, hctx, hadmits⟩ := admitted_cdn shared hslots hcdn hu haccess
    exact ⟨_, by simp [buildInbounds, hctx], hadmits⟩
  · obtain ⟨ctx, hctx, hadmits⟩ := admitted_xdns shared hslots hxdns hu haccess
    exact ⟨_, by simp [buildInbounds, hctx], hadmits⟩
  · obtain ⟨ctx, hctx, hadmits⟩ := admitted_wireguard hslots hwireguard hu haccess
    exact ⟨_, by simp [buildInbounds, hctx], hadmits⟩
  · obtain ⟨ctx, hctx, hadmits⟩ := admitted_hysteria shared hslots hhysteria hu haccess
    exact ⟨_, by simp [buildInbounds, hctx], hadmits⟩

end Slots

/-! ## The portal on the same hub -/

/-- The direct inbound of every hub opens a reverse tunnel for each portal. -/
theorem portal_client (hr : HubRendered crypto cfg region node config) {portal : Portal}
    (hp : portal ∈ cfg.portals) :
    ∃ inbound ∈ config.inbounds, ∃ clients decryption,
      inbound.settings = .vless clients decryption ∧
        (Identity.portal portal).client crypto.uuid5 cfg.ns hr.keys.flow ∈ clients := by
  obtain ⟨tls, -, hclients⟩ := buildXhttp_clients (buildSlots_hub hr.slots).xhttp
  refine ⟨hr.ctx.slots.xhttp.fragment hr.ctx.shared, ?_, hr.ctx.slots.xhttp.clients,
    hr.ctx.shared.decryption, rfl, ?_⟩
  · rw [hr.inbounds_eq]
    simp [buildInbounds]
  · rw [hclients]
    exact List.mem_map_of_mem (List.mem_append_right _ (List.mem_map_of_mem hp))

/-- Every portal has a rule that looks for its routes and filters on its members. -/
theorem exists_portalRule (portal : Portal) (ns : Namespace) :
    ∃ rule ∈ portalRules ns portal,
      rule.user = some (portal.users.map fun u => ns.userEmail u.val) ∧
        (given rule.domain || given rule.ip) = true ∧
        rule.target = (.outboundTag, portalTag portal.id) := by
  simp only [portalRules, List.mem_append]
  by_cases hdomains : given portal.routes.domains = true
  · rw [if_pos hdomains]
    exact ⟨_, .inl List.mem_cons_self, rfl, by simp [hdomains], rfl⟩
  · have hips : given portal.routes.ips = true := by
      have hmatchers := portal.routes.matchers
      simp only [given, ne_eq, decide_eq_true_eq, not_not] at hdomains ⊢
      exact hmatchers.resolve_left (not_not.mpr hdomains)
    rw [if_pos hips]
    exact ⟨_, .inr List.mem_cons_self, rfl, by simp [hips], rfl⟩

theorem portalRules_subset (hr : HubRendered crypto cfg region node config) (h : Accepted cfg)
    {portal : Portal} (hp : portal ∈ cfg.portals) :
    ∀ rule ∈ portalRules cfg.ns portal, rule ∈ config.rules := by
  intro rule hrule
  have hmem : rule ∈ cfg.portals.flatMap (portalRules cfg.ns) :=
    List.mem_flatMap.mpr ⟨portal, hp, hrule⟩
  rw [hr.rules_eq h, hubRules]
  simp only [List.mem_append]
  tauto

/-! ## Members -/

/-- A hub lets a member of a portal in, carries the portal's reverse tunnel, and steers the
member's traffic to the portal's routes into it. -/
structure MemberServed (crypto : Crypto) (cfg : ConglomerateConfig) (config : XrayConfig)
    (portal : Portal) (member : Identifier) : Prop where
  admitted : ∃ inbound ∈ config.inbounds, cfg.ns.userEmail member.val ∈ inbound.labels
  reverse : ∃ inbound ∈ config.inbounds, ∃ clients decryption,
    inbound.settings = .vless clients decryption ∧ ∃ client ∈ clients,
      client.email = cfg.ns.portalEmail portal.id.val ∧
      client.id = cfg.ns.portalUuid crypto.uuid5 portal.id.val portal.uuid ∧
      client.reverse = some (portalTag portal.id)
  steered : ∃ rule ∈ config.rules, ∃ labels, rule.user = some labels ∧
    cfg.ns.userEmail member.val ∈ labels ∧ (given rule.domain || given rule.ip) = true ∧
    rule.target = (.outboundTag, portalTag portal.id)

theorem MemberServed.of_rendered (hr : HubRendered crypto cfg region node config)
    (h : Accepted cfg) {portal : Portal} (hp : portal ∈ cfg.portals) {member : Identifier}
    (hmember : member ∈ portal.users)
    (hadmitted : ∃ inbound ∈ config.inbounds, cfg.ns.userEmail member.val ∈ inbound.labels) :
    MemberServed crypto cfg config portal member := by
  constructor
  case admitted => exact hadmitted
  case reverse =>
    obtain ⟨inbound, hinbound, clients, decryption, hsettings, hclient⟩ := portal_client hr hp
    exact ⟨inbound, hinbound, clients, decryption, hsettings, _, hclient, rfl, rfl, rfl⟩
  case steered =>
    obtain ⟨rule, hrule, huser, hroutes, htarget⟩ := exists_portalRule portal cfg.ns
    exact ⟨rule, portalRules_subset hr h hp rule hrule, _, huser, List.mem_map_of_mem hmember,
      hroutes, htarget⟩

/-- The validator's summary of a member names a hub and an access type it renders. -/
theorem member_access (h : Accepted cfg) {portal : Portal} (hp : portal ∈ cfg.portals)
    {member : Identifier} (hmember : member ∈ portal.users) :
    ∃ user ∈ cfg.users, user.username = member ∧ ∃ access ∈ user.access,
      ∃ region node rendered, Region.hub region ∈ cfg.regions ∧ node ∈ region.nodes ∧
        hubRenderedAccess region node cfg.defaults cfg.global = .ok rendered ∧
        access ∈ rendered := by
  obtain ⟨-, access, haccess, -, hrendered⟩ := (h.portals.portal portal hp).users member hmember
  have hportals : cfg.portals ≠ [] := List.ne_nil_of_mem hp
  rw [portalEnv, if_neg hportals] at hrendered
  obtain ⟨⟨id, region, node⟩, hhub, hmem⟩ := List.mem_flatMap.mp hrendered
  obtain ⟨hregion, hnode, -⟩ := mem_hubNodes.mp hhub
  cases hfind : cfg.users.find? fun x => x.username = member with
  | none =>
      rw [hfind] at haccess
      cases haccess
  | some user =>
      rw [hfind] at haccess
      have hname : user.username = member := by simpa using List.find?_some hfind
      cases hok : hubRenderedAccess region node cfg.defaults cfg.global with
      | error e =>
          rw [hok] at hmem
          cases hmem
      | ok rendered =>
          rw [hok] at hmem
          exact ⟨user, List.mem_of_find?_eq_some hfind, hname, access, haccess, region, node,
            rendered, hregion, hnode, hok, hmem⟩

/-- No member of a portal is locked out: one hub serves it whenever it renders, and it renders
once provisioned. -/
theorem members_served (cfg : AcceptedConfig) (crypto : Crypto) :
    ∀ portal ∈ cfg.portals, ∀ member ∈ portal.users, ∃ region node,
      Placed.hub region node ∈ cfg.placed ∧
      (∀ store config, renderHub crypto cfg.toConglomerateConfig store region node = .ok config →
        MemberServed crypto cfg.toConglomerateConfig config portal member) ∧
      ∀ store, Provisioned crypto cfg.toConglomerateConfig store →
        ∃ config, renderHub crypto cfg.toConglomerateConfig store region node = .ok config := by
  intro portal hp member hmember
  obtain ⟨user, hu, rfl, access, haccess, region, node, rendered, hregion, hnode, hrendered,
    hmem⟩ := member_access cfg.spec hp hmember
  refine ⟨region, node, ?_, ?_, ?_⟩
  · exact List.mem_flatMap.mpr ⟨.hub region, hregion, List.mem_map_of_mem hnode⟩
  · intro store config h
    obtain ⟨hr⟩ := renderHub_eq_ok h
    obtain ⟨inbound, hinbound, hadmits⟩ := admitted_of_access hr.ctx.shared
      (buildSlots_hub hr.slots) hrendered hmem hu haccess
    refine .of_rendered hr cfg.spec hp hmember ⟨inbound, ?_, hadmits⟩
    rw [hr.inbounds_eq]
    exact List.mem_append_left _ hinbound
  · exact fun store hstore => renderHub_total cfg.spec hstore hregion hnode

theorem members_served_office :
    ∃ region node, Placed.hub region node ∈ Sample.office.placed ∧ ∃ config,
      renderHub Sample.officeCrypto Sample.office.toConglomerateConfig Sample.officeStore region
        node = .ok config ∧
      MemberServed Sample.officeCrypto Sample.office.toConglomerateConfig config Sample.nas
        { val := "alice" } := by
  obtain ⟨region, node, hplaced, hserved, htotal⟩ :=
    members_served Sample.office Sample.officeCrypto Sample.nas (by decide) { val := "alice" }
      (by decide)
  obtain ⟨config, h⟩ := htotal Sample.officeStore office_provisioned
  exact ⟨region, node, hplaced, config, h, hserved _ _ h⟩

end HexRift
