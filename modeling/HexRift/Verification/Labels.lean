import HexRift.Verification.Identities

/-! # E-mail labels

Routing rules filter on labels put together from usernames, guest labels, portal ids and the
namespace. Identifiers hold neither an `@` nor a dot, so each label splits at its `@` again,
and two identities share one only where the namespace is itself a username. -/

namespace HexRift

variable {cfg : ConglomerateConfig} {uuid5 : Uuid5}

/-- The part of a label before its `@`, and the part after it. -/
def Identity.localPart : Identity → String
  | .user u => u.username.val
  | .server u => u.username.val ++ UserSuffix.server
  | .guest _ label => label.val
  | .portal p => p.id.val

def Identity.domainPart (ns : Namespace) : Identity → String
  | .user _ => ns.name
  | .server u => u.username.val
  | .guest u _ => u.username.val
  | .portal _ => "portal." ++ ns.name

theorem email_eq (ns : Namespace) (i : Identity) :
    i.email ns = i.localPart ++ String.singleton '@' ++ i.domainPart ns := by
  cases i with
  | user u => rfl
  | server u => rfl
  | guest u label => rfl
  | portal p =>
      have hat : ("@portal." : String) = String.singleton '@' ++ "portal." := by decide
      rw [Identity.email, Namespace.portalEmail, hat, ← String.append_assoc, String.append_assoc]
      rfl

theorem at_not_mem_localPart (i : Identity) : '@' ∉ i.localPart.toList := by
  have hid : ∀ id : Identifier, '@' ∉ id.val.toList := Identifier.not_mem (by decide)
  cases i with
  | user u => exact hid _
  | server u =>
      rw [Identity.localPart, String.toList_append, List.mem_append]
      exact not_or.mpr ⟨hid _, by decide⟩
  | guest u label => exact hid _
  | portal p => exact hid _

/-- A label determines both of its parts. -/
theorem email_inj {ns : Namespace} {i j : Identity} (h : i.email ns = j.email ns) :
    i.localPart = j.localPart ∧ i.domainPart ns = j.domainPart ns := by
  rw [email_eq, email_eq] at h
  exact Separator.append_inj_left (at_not_mem_localPart i) (at_not_mem_localPart j) h

/-- The namespace is not a username, or the user so named has no guest and no server label
that is a username. -/
def NamespaceUserClear (cfg : ConglomerateConfig) : Prop :=
  ∀ u ∈ cfg.users, u.username.val = cfg.global.namespace.val →
    (∀ label ∈ u.guests, label.val ∉ usernames cfg) ∧
      u.username.val ++ UserSuffix.server ∉ usernames cfg

/-! ## Portals -/

theorem username_ne_portal (u : User) (ns : Namespace) : u.username.val ≠ "portal." ++ ns.name := by
  intro h
  have hdot : '.' ∉ u.username.val.toList := Identifier.not_mem (by decide) _
  rw [h, String.toList_append] at hdot
  exact hdot (List.mem_append_left _ (by decide))

theorem name_ne_portal (ns : Namespace) : ns.name ≠ "portal." ++ ns.name := by
  intro h
  have hlen := congrArg String.length h
  rw [String.length_append] at hlen
  have hseven : ("portal." : String).length = 7 := by decide
  omega

/-! ## Distinct labels -/

/-- The label of a user is the label of users only. -/
theorem NamespaceUserClear.eq_user (hclear : NamespaceUserClear cfg) {u : User}
    (hu : u ∈ cfg.users) {j : Identity} (hj : j ∈ identities cfg)
    (heq : (Identity.user u).email cfg.ns = j.email cfg.ns) :
    ∃ v ∈ cfg.users, j = .user v ∧ u.username.val = v.username.val := by
  have hmem : u.username.val ∈ usernames cfg := by
    rw [usernames_eq]
    exact List.mem_map_of_mem hu
  obtain ⟨hlocal, hdomain⟩ := email_inj heq
  rcases mem_identities.mp hj with ⟨v, hv, rfl | rfl | ⟨label, hlabel, rfl⟩⟩ | ⟨p, hp, rfl⟩
  · exact ⟨v, hv, rfl, hlocal⟩
  · have hname : u.username.val = v.username.val ++ UserSuffix.server := hlocal
    exact absurd (hname ▸ hmem) (hclear v hv hdomain.symm).2
  · have hname : u.username.val = label.val := hlocal
    exact absurd (hname ▸ hmem) ((hclear v hv hdomain.symm).1 label hlabel)
  · exact absurd hdomain (name_ne_portal _)

/-- The label of a portal is the label of that portal only. -/
theorem Accepted.eq_portal (h : Accepted cfg) {p : Portal} (hp : p ∈ cfg.portals) {j : Identity}
    (hj : j ∈ identities cfg) (heq : (Identity.portal p).email cfg.ns = j.email cfg.ns) :
    j = .portal p := by
  obtain ⟨hlocal, hdomain⟩ := email_inj heq
  rcases mem_identities.mp hj with ⟨v, hv, rfl | rfl | ⟨label, hlabel, rfl⟩⟩ | ⟨q, hq, rfl⟩
  · exact absurd hdomain.symm (name_ne_portal _)
  · exact absurd hdomain.symm (username_ne_portal _ _)
  · exact absurd hdomain.symm (username_ne_portal _ _)
  · exact congrArg Identity.portal (h.portal_eq hq hp hlocal.symm)

theorem uuid_server_eq_guest {ns : Namespace} {u : User} {label : Identifier}
    (hname : u.username.val ++ UserSuffix.server = label.val) :
    (Identity.server u).uuid uuid5 ns = (Identity.guest u label).uuid uuid5 ns := by
  simp only [Identity.uuid, Identity.override, Identity.seed, hname]

/-- Labels of two different identities agree only in the namespace's own user. -/
theorem label_inj (h : Accepted cfg) (hcheck : (checkIdentityCollisions uuid5 cfg).isOk = true)
    (hclear : NamespaceUserClear cfg) {i j : Identity} (hi : i ∈ identities cfg)
    (hj : j ∈ identities cfg) (heq : i.email cfg.ns = j.email cfg.ns) : i = j := by
  obtain ⟨hlocal, hdomain⟩ := email_inj heq
  rcases mem_identities.mp hi with ⟨u, hu, rfl | rfl | ⟨label, hlabel, rfl⟩⟩ | ⟨p, hp, rfl⟩
  · obtain ⟨v, hv, rfl, hname⟩ := hclear.eq_user hu hj heq
    exact congrArg Identity.user (h.user_eq hu hv hname)
  · rcases mem_identities.mp hj with ⟨v, hv, rfl | rfl | ⟨label', hlabel', rfl⟩⟩ | ⟨q, hq, rfl⟩
    · obtain ⟨_, _, hfalse, _⟩ := hclear.eq_user hv hi heq.symm
      cases hfalse
    · exact congrArg Identity.server (h.user_eq hu hv hdomain)
    · obtain rfl := h.user_eq hu hv hdomain
      exact uuid_inj hcheck hi hj (uuid_server_eq_guest hlocal)
    · exact absurd hdomain (username_ne_portal _ _)
  · rcases mem_identities.mp hj with ⟨v, hv, rfl | rfl | ⟨label', hlabel', rfl⟩⟩ | ⟨q, hq, rfl⟩
    · obtain ⟨_, _, hfalse, _⟩ := hclear.eq_user hv hi heq.symm
      cases hfalse
    · obtain rfl := h.user_eq hu hv hdomain
      exact uuid_inj hcheck hi hj (uuid_server_eq_guest hlocal.symm).symm
    · obtain rfl := h.user_eq hu hv hdomain
      exact congrArg _ (Identifier.val_inj.mp hlocal)
    · exact absurd hdomain (username_ne_portal _ _)
  · exact (h.eq_portal hp hj heq).symm

/-- Where the namespace's own user has a guest or server label that is a username, two labels
agree. -/
theorem namespaceUserClear_of_nodup
    (h : ((identities cfg).map (Identity.email cfg.ns)).Nodup) : NamespaceUserClear cfg := by
  have huser : ∀ {name}, name ∈ usernames cfg → ∃ v ∈ cfg.users, v.username.val = name := by
    intro name hname
    rw [usernames_eq] at hname
    exact List.mem_map.mp hname
  intro u hu hns
  constructor
  · intro label hlabel hname
    obtain ⟨v, hv, hval⟩ := huser hname
    have hguest : Identity.guest u label ∈ identities cfg :=
      mem_identities.mpr (.inl ⟨u, hu, .inr (.inr ⟨label, hlabel, rfl⟩)⟩)
    have hmember : Identity.user v ∈ identities cfg :=
      mem_identities.mpr (.inl ⟨v, hv, .inl rfl⟩)
    have heq := List.inj_on_of_nodup_map h hguest hmember (by
      rw [email_eq, email_eq, Identity.localPart, Identity.localPart, hval]
      exact congrArg _ hns)
    cases heq
  · intro hname
    obtain ⟨v, hv, hval⟩ := huser hname
    have hserver : Identity.server u ∈ identities cfg :=
      mem_identities.mpr (.inl ⟨u, hu, .inr (.inl rfl)⟩)
    have hmember : Identity.user v ∈ identities cfg :=
      mem_identities.mpr (.inl ⟨v, hv, .inl rfl⟩)
    have heq := List.inj_on_of_nodup_map h hserver hmember (by
      rw [email_eq, email_eq, Identity.localPart, Identity.localPart, hval]
      exact congrArg _ hns)
    cases heq

/-! ## User filters -/

/-- The identity's label passes the rule's user filter, if it has one. -/
def Rule.admits (rule : Rule) (ns : Namespace) (i : Identity) : Prop :=
  ∀ filter ∈ rule.user, i.email ns ∈ filter

/-- Labels are pairwise distinct, and a filter matches only the users it was built from. -/
structure LabelsIdentify (cfg : ConglomerateConfig) : Prop where
  distinct : ((identities cfg).map (Identity.email cfg.ns)).Nodup
  portal : ∀ p ∈ cfg.portals, ∀ rule ∈ portalRules cfg.ns p, ∀ i ∈ identities cfg,
    rule.admits cfg.ns i → ∃ u ∈ cfg.users, u.username ∈ p.users ∧ i = .user u
  route : ∀ route ∈ cfg.routing.hubRoutes, ∀ filter ∈ routeUserFilter route cfg.ns,
    ∀ i ∈ identities cfg, i.email cfg.ns ∈ filter →
      ∃ u ∈ cfg.users, u.username.val ∈ route.users.getD [] ∧ i = .user u
  rules : ∀ published rules, buildHubRoutingRules cfg published = .ok rules →
    ∀ rule ∈ rules, ∀ filter ∈ rule.user, ∀ i ∈ identities cfg, rule.admits cfg.ns i →
      ∃ u ∈ cfg.users, i = .user u

theorem email_ne_username {ns : Namespace} {i : Identity} {u : User} :
    i.email ns ≠ u.username.val := by
  intro h
  have hat : '@' ∉ u.username.val.toList := Identifier.not_mem (by decide) _
  rw [← h, email_eq, String.toList_append, String.toList_append] at hat
  exact hat (List.mem_append_left _ (List.mem_append_right _ (by simp)))

/-- A rule that filters on users is a portal's or one of `hub_routes`. -/
theorem user_of_mem_hubRules {published : List PublishedPort} {rule : Rule}
    (h : rule ∈ hubRules cfg published) {filter : List String} (hfilter : filter ∈ rule.user) :
    (∃ p ∈ cfg.portals, rule ∈ portalRules cfg.ns p) ∨
      ∃ route ∈ cfg.routing.hubRoutes, filter ∈ routeUserFilter route cfg.ns := by
  cases mem_hubRules h with
  | publish hpub => simp [hpub.user] at hfilter
  | dns hdns =>
      subst hdns
      cases hfilter
  | region _ hvless =>
      subst hvless
      cases hfilter
  | warp _ hmem =>
      obtain ⟨warp, -, rfl⟩ := List.mem_map.mp hmem
      cases hfilter
  | route hroute hmem => exact .inr ⟨_, hroute, hmem.user ▸ hfilter⟩
  | portal hp hmem => exact .inl ⟨_, hp, hmem⟩
  | default hdefault =>
      subst hdefault
      cases hfilter

theorem NamespaceUserClear.portal (h : Accepted cfg) (hclear : NamespaceUserClear cfg)
    {p : Portal} (hp : p ∈ cfg.portals) {rule : Rule} (hrule : rule ∈ portalRules cfg.ns p)
    {i : Identity} (hi : i ∈ identities cfg) (hadmits : rule.admits cfg.ns i) :
    ∃ u ∈ cfg.users, u.username ∈ p.users ∧ i = .user u := by
  have hmem := hadmits _ (ofPortal_of_mem hrule).user
  obtain ⟨name, hname, heq⟩ := List.mem_map.mp hmem
  obtain ⟨u, hu, rfl⟩ := List.mem_map.mp ((h.portals.portal p hp).users name hname).1
  obtain ⟨v, hv, rfl, hval⟩ := hclear.eq_user hu hi heq
  obtain rfl := h.user_eq hu hv hval
  exact ⟨u, hu, hname, rfl⟩

theorem NamespaceUserClear.route (h : Accepted cfg) (hclear : NamespaceUserClear cfg)
    {route : HubRoute} (hroute : route ∈ cfg.routing.hubRoutes) {filter : List String}
    (hfilter : filter ∈ routeUserFilter route cfg.ns) {i : Identity} (hi : i ∈ identities cfg)
    (hmem : i.email cfg.ns ∈ filter) :
    ∃ u ∈ cfg.users, u.username.val ∈ route.users.getD [] ∧ i = .user u := by
  simp only [routeUserFilter] at hfilter
  split at hfilter
  · cases hfilter
  · cases hfilter
    rcases List.mem_append.mp hmem with huser | hproxy
    · obtain ⟨name, hname, heq⟩ := List.mem_map.mp huser
      obtain ⟨u, hu, rfl⟩ := List.mem_map.mp ((h.hubRoutes route hroute).users name hname)
      obtain ⟨v, hv, rfl, hval⟩ := hclear.eq_user hu hi heq
      obtain rfl := h.user_eq hu hv hval
      exact ⟨u, hu, hname, rfl⟩
    · obtain ⟨u, -, hu⟩ := List.mem_map.mp ((h.hubRoutes route hroute).proxyUsers _ hproxy)
      exact absurd hu.symm email_ne_username

/-- Labels identify one principal exactly when no guest and no server of the namespace's own
user is labelled like a user. -/
theorem labels_identify_iff (cfg : AcceptedConfig) {uuid5 : Uuid5}
    (hcheck : (checkIdentityCollisions uuid5 cfg.toConglomerateConfig).isOk = true) :
    LabelsIdentify cfg.toConglomerateConfig ↔ NamespaceUserClear cfg.toConglomerateConfig := by
  constructor
  · exact fun h => namespaceUserClear_of_nodup h.distinct
  intro hclear
  refine ⟨?_, fun p hp rule hrule i hi => hclear.portal cfg.spec hp hrule hi,
    fun route hroute filter hfilter i hi => hclear.route cfg.spec hroute hfilter hi, ?_⟩
  · exact (identities_nodup hcheck).map_on fun i hi j hj => label_inj cfg.spec hcheck hclear hi hj
  · intro published rules hrules rule hrule filter hfilter i hi hadmits
    rw [buildHubRoutingRules_eq cfg.spec] at hrules
    cases hrules
    rcases user_of_mem_hubRules hrule hfilter with ⟨p, hp, hp'⟩ | ⟨route, hroute, hfilter'⟩
    · obtain ⟨u, hu, -, heq⟩ := hclear.portal cfg.spec hp hp' hi hadmits
      exact ⟨u, hu, heq⟩
    · obtain ⟨u, hu, -, heq⟩ := hclear.route cfg.spec hroute hfilter' hi (hadmits _ hfilter)
      exact ⟨u, hu, heq⟩

/-- A namespace that is also a username, whose user has a guest labelled like another user,
a member of a portal. -/
def namespaceUser : AcceptedConfig :=
  { Sample.topology [] [Sample.user Sample.corpName [Sample.aliceName],
      Sample.user Sample.aliceName] with
    global := Sample.corpGlobal
    portals := [Sample.lanPortal] }

def namespaceUserUuid5 : Uuid5 :=
  let ns : UUID := ⟨0x2a9c650e, 0x938f, 0x58d8, 0xb66e, 0x48124a21c12e⟩
  let corp : UUID := ⟨0xea7db3ef, 0x2648, 0x54d8, 0x9b95, 0xdef27fa3b2b9⟩
  let alice : UUID := ⟨0x6080d1d8, 0xc8f3, 0x5e1c, 0xb061, 0x063e36c16bba⟩
  Sample.uuid5 [
    ((UUID.nil, "corp"), ns),
    ((ns, "corp"), corp),
    ((ns, "alice"), alice),
    ((corp, "corp-server"), ⟨0x2e62285c, 0xdce7, 0x5a32, 0xa779, 0xa1e00515b933⟩),
    ((corp, "alice"), ⟨0x95a473a7, 0x36ce, 0x53d4, 0x9df1, 0x52e2896fba3a⟩),
    ((alice, "alice-server"), ⟨0x4056184d, 0x1f37, 0x54a1, 0xa326, 0x665a1042b88e⟩)] (by decide)

theorem labels_identify_iff_namespaceUser :
    LabelsIdentify namespaceUser.toConglomerateConfig ↔
      NamespaceUserClear namespaceUser.toConglomerateConfig :=
  labels_identify_iff namespaceUser
    (show (checkIdentityCollisions namespaceUserUuid5 _).isOk = true by decide)

/-- The guest `alice` of `corp` has the label of the user `alice`, so the portal's rule admits
it. -/
theorem guest_label_collides :
    ¬ ((checkIdentityCollisions namespaceUserUuid5 namespaceUser.toConglomerateConfig).isOk = true →
      LabelsIdentify namespaceUser.toConglomerateConfig) := by
  intro h
  have hdistinct := (h (by decide)).distinct
  revert hdistinct
  decide

end HexRift
