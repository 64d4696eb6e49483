import HexRift.Verification.Identities
import HexRift.Verification.Listeners

/-! # Entries of a hub's inbounds

Four list builders decide who may connect to a hub. Each is read here as a list of
identities, in the order in which the collision check enumerates them. -/

namespace HexRift

open Checks

variable {cfg : ConglomerateConfig} {crypto : Crypto} {store : KeyStore} {uuid5 : Uuid5}
  {ns : Namespace}

/-! ## Who is granted what -/

/-- Identities of a user on the direct inbound of a Reality hub. -/
def User.grantedReality (user : User) : List Identity :=
  (if .xhttp ∈ user.access then [.user user] else []) ++
    (if .server ∈ user.access then [.server user] else []) ++
    (if .xhttp ∈ user.access then user.guests.map (.guest user) else [])

/-- Identities on the direct inbound of a hub serving TLS or Reality. -/
def directIdentities (cfg : ConglomerateConfig) (tls : Option TlsConfig) : List Identity :=
  cfg.users.flatMap (if tls.isSome then User.granted .tls true else User.grantedReality) ++
    cfg.portals.map .portal

theorem granted_sublist (access : AccessType) (server : Bool) (u : User) :
    (u.granted access server).Sublist (identitiesOf u) := by
  unfold User.granted identitiesOf
  split
  · exact List.nil_sublist _
  · refine List.Sublist.cons_cons _ ?_
    split
    · exact List.Sublist.refl _
    · exact List.sublist_cons_self _ _

theorem grantedReality_sublist (u : User) : u.grantedReality.Sublist (identitiesOf u) := by
  unfold User.grantedReality
  have hsplit : identitiesOf u = [.user u] ++ [.server u] ++ u.guests.map (.guest u) := rfl
  have hif : ∀ (p : Prop) [Decidable p] (is : List Identity),
      (if p then is else []).Sublist is := by
    intro p _ is
    split
    · exact List.Sublist.refl _
    · exact List.nil_sublist _
  rw [hsplit]
  exact ((hif _ _).append (hif _ _)).append (hif _ _)

theorem users_sublist {grant : User → List Identity}
    (h : ∀ u, (grant u).Sublist (identitiesOf u)) :
    (cfg.users.flatMap grant).Sublist (identities cfg) :=
  (List.Sublist.flatMap_right _ fun u _ => h u).trans (List.sublist_append_left _ _)

theorem directIdentities_sublist (cfg : ConglomerateConfig) (tls : Option TlsConfig) :
    (directIdentities cfg tls).Sublist (identities cfg) := by
  refine List.Sublist.append (List.Sublist.flatMap_right _ fun u _ => ?_) (List.Sublist.refl _)
  split
  · exact granted_sublist _ _ u
  · exact grantedReality_sublist u

/-! ## Entries -/

/-- The client entry of an identity; a portal's opens its reverse tunnel. -/
def Identity.client (uuid5 : Uuid5) (ns : Namespace) (flow : String) (i : Identity) : ClientEntry :=
  { email := i.email ns
    id := i.uuid uuid5 ns
    flow := flow
    reverse :=
      match i with
      | .portal p => some (portalTag p.id)
      | _ => none }

theorem getHubAccessClients_eq (users : List User) (access : AccessType) (flow : String)
    (server : Bool) :
    getHubAccessClients uuid5 ns users access flow server =
      (users.flatMap (User.granted access server)).map (Identity.client uuid5 ns flow) := by
  rw [getHubAccessClients, List.map_flatMap]
  refine congrArg (List.flatMap · users) (funext fun u => ?_)
  unfold User.granted
  by_cases haccess : access ∈ u.access
  · rw [if_neg (not_not.mpr haccess), if_neg (not_not.mpr haccess), List.map_cons,
      List.map_append, List.map_map]
    split <;> rfl
  · rw [if_pos haccess, if_pos haccess]
    rfl

theorem getPortalClients_eq (portals : List Portal) (flow : String) :
    getPortalClients uuid5 ns portals flow =
      (portals.map Identity.portal).map (Identity.client uuid5 ns flow) := by
  rw [getPortalClients, List.map_map]
  rfl

theorem getHubVlessClients_eq (users : List User) (portals : List Portal) (flow : String) :
    getHubVlessClients uuid5 ns users portals flow =
      (users.flatMap User.grantedReality ++ portals.map Identity.portal).map
        (Identity.client uuid5 ns flow) := by
  rw [getHubVlessClients, List.map_append, getPortalClients_eq, List.map_flatMap]
  refine congrArg (· ++ _) (congrArg (List.flatMap · users) (funext fun u => ?_))
  unfold User.grantedReality
  rw [List.map_append, List.map_append]
  by_cases hxhttp : AccessType.xhttp ∈ u.access
  · simp only [hxhttp, if_true, List.map_map]
    split <;> rfl
  · simp only [hxhttp, if_false]
    split <;> rfl

/-! ## Entries of the slots -/

section Slots

variable {region : HubRegion} {node : HubNode} {keys : NodeKeys}

theorem buildXhttp_clients {ctx : XhttpContext}
    (h : buildXhttp (hubEnv crypto cfg region node keys) = .ok ctx) :
    ∃ tls, resolveRegionTls region cfg.defaults = .ok tls ∧
      ctx.clients = (directIdentities cfg tls).map
        (Identity.client crypto.uuid5 cfg.ns keys.flow) := by
  obtain ⟨xhttp, -, ⟨tls, htls, rfl⟩ | ⟨htls, hreality⟩⟩ := buildXhttp_hub_cases h
  · refine ⟨some tls, htls, ?_⟩
    rw [directIdentities, getHubAccessClients_eq, getPortalClients_eq, ← List.map_append]
    rfl
  · refine ⟨none, htls, ?_⟩
    rw [realityContext_clients hreality, directIdentities, getHubVlessClients_eq]
    rfl

theorem buildCdn_clients {slot : Option CdnContext}
    (h : buildCdn (hubEnv crypto cfg region node keys) = .ok slot) :
    ∀ ctx ∈ slot, ctx.clients = (cfg.users.flatMap (User.granted .cdn true)).map
      (Identity.client crypto.uuid5 cfg.ns keys.flow) := by
  have htype : (hubEnv crypto cfg region node keys).region.type = .hub := rfl
  unfold buildCdn at h
  split at h
  · simp only [htype] at h
    cases h
    rintro ctx hctx
    cases hctx
    exact getHubAccessClients_eq _ _ _ _
  · cases h
    exact fun ctx hctx => by cases hctx

theorem buildXdns_clients {slot : Option XdnsContext}
    (h : buildXdns (hubEnv crypto cfg region node keys) = .ok slot) :
    ∀ ctx ∈ slot, ctx.clients = (cfg.users.flatMap (User.granted .xdns false)).map
      (Identity.client crypto.uuid5 cfg.ns "") := by
  simp only [buildXdns, bind_eq_ok] at h
  obtain ⟨_, -, h⟩ := h
  split at h
  · cases h
    exact fun ctx hctx => by cases hctx
  · split at h
    · cases h
      exact fun ctx hctx => by cases hctx
    · cases h
      rintro ctx hctx
      cases hctx
      exact getHubAccessClients_eq _ _ _ _

theorem buildHysteria_users {slot : Option HysteriaContext}
    (h : buildHysteria (hubEnv crypto cfg region node keys) = .ok slot) :
    ∀ ctx ∈ slot, ctx.users = (cfg.users.flatMap (User.granted .hysteria true)).map fun i =>
      { auth := i.uuid crypto.uuid5 cfg.ns, email := i.email cfg.ns } := by
  unfold buildHysteria at h
  split at h
  · cases h
    exact fun ctx hctx => by cases hctx
  · simp only [bind_eq_ok] at h
    obtain ⟨clients, hclients, h⟩ := h
    split at h
    · cases h
      exact fun ctx hctx => by cases hctx
    · simp only [bind_eq_ok, pure_eq_ok] at h
      obtain ⟨reality, -, ep, -, rfl⟩ := h
      rintro ctx hctx
      cases hctx
      have heq : clients = (cfg.users.flatMap (User.granted .hysteria true)).map
          (Identity.client crypto.uuid5 cfg.ns "") := by
        rw [← getHubAccessClients_eq]
        exact (Except.ok.inj hclients).symm
      rw [heq, hysteriaUsers, List.map_map]
      rfl

/-- Public key of the keypair an identity has on a hub with the given private key. -/
def peerKey (crypto : Crypto) (ns : Namespace) (realityPrivateKey : String) (identity : UUID) :
    String :=
  (deriveUserWireguardKeypair crypto realityPrivateKey identity ns.name).2

theorem buildWireguard_peers {slot : Option WireguardContext}
    (h : buildWireguard (hubEnv crypto cfg region node keys) = .ok slot) :
    ∀ ctx ∈ slot, ctx.peers.map (fun p => (p.email, p.publicKey)) =
      (cfg.users.flatMap (User.granted .wireguard true)).map fun i =>
        (i.email cfg.ns,
          peerKey crypto cfg.ns keys.realityPrivateKey (i.uuid crypto.uuid5 cfg.ns)) := by
  simp only [buildWireguard, bind_eq_ok] at h
  obtain ⟨_, -, wireguard, -, h⟩ := h
  cases wireguard with
  | none =>
      cases h
      exact fun ctx hctx => by cases hctx
  | some wg =>
      simp only [bind_eq_ok, getHubWireguardPeers, iterHubWireguardAllocs_eq_ok, pure_eq_ok] at h
      obtain ⟨peers, ⟨allocs, ⟨-, hallocs⟩, rfl⟩, h⟩ := h
      split at h
      · cases h
        exact fun ctx hctx => by cases hctx
      · cases h
        rintro ctx hctx
        cases hctx
        have hmap := congrArg (List.map fun e => (e.1, peerKey crypto cfg.ns
          keys.realityPrivateKey e.2.1)) (allocateFrom_identities hallocs)
        have hids := congrArg (List.map fun e => (e.1, peerKey crypto cfg.ns
          keys.realityPrivateKey e.2)) (wireguardIdentities_eq crypto.uuid5
            cfg.ns cfg.users)
        simp only [List.map_map, Function.comp_def] at hmap hids ⊢
        exact hmap.trans hids

end Slots

/-! ## The collision check against the inbounds -/

/-- UUIDs by which an inbound tells its clients apart. -/
def Inbound.clientIds (inbound : Inbound) : List UUID :=
  match inbound.settings with
  | .vless clients _ => clients.map (·.id)
  | .hysteria users => users.map (·.auth)
  | _ => []

/-- Public keys of the peers of an inbound. -/
def Inbound.peerKeys (inbound : Inbound) : List String :=
  match inbound.settings with
  | .wireguard _ _ peers => peers.map (·.publicKey)
  | _ => []

/-- An inbound of a hub holds entries of enumerated identities, each at most once, so its
entries are told apart. -/
structure Inbound.Covered (crypto : Crypto) (cfg : ConglomerateConfig) (keys : NodeKeys)
    (inbound : Inbound) : Prop where
  clients : ∃ ids : List (UUID × String),
    ids.Sublist (iterHubIdentities crypto.uuid5 cfg cfg.ns) ∧ inbound.clientIds = ids.map Prod.fst
  peers : ∃ ids : List (UUID × String),
    ids.Sublist (iterHubIdentities crypto.uuid5 cfg cfg.ns) ∧ inbound.peerKeys =
      ids.map fun i => peerKey crypto cfg.ns keys.realityPrivateKey i.1
  clients_nodup : inbound.clientIds.Nodup
  peers_nodup :
    (∀ i ∈ iterHubIdentities crypto.uuid5 cfg cfg.ns,
      ∀ j ∈ iterHubIdentities crypto.uuid5 cfg cfg.ns,
        peerKey crypto cfg.ns keys.realityPrivateKey i.1 =
          peerKey crypto cfg.ns keys.realityPrivateKey j.1 → i.1 = j.1) →
      inbound.peerKeys.Nodup

/-- Identities of an inbound's entries, those of its clients and those of its peers. -/
structure Inbound.Lists (crypto : Crypto) (cfg : ConglomerateConfig) (keys : NodeKeys)
    (inbound : Inbound) (clients peers : List Identity) : Prop where
  clients_sublist : clients.Sublist (identities cfg)
  peers_sublist : peers.Sublist (identities cfg)
  clients_eq : inbound.clientIds = clients.map (Identity.uuid crypto.uuid5 cfg.ns)
  peers_eq : inbound.peerKeys = peers.map fun i =>
    peerKey crypto cfg.ns keys.realityPrivateKey (i.uuid crypto.uuid5 cfg.ns)

theorem sublist_iterHubIdentities {is : List Identity} (h : is.Sublist (identities cfg)) :
    (is.map fun i => (i.uuid uuid5 cfg.ns, i.owner)).Sublist
      (iterHubIdentities uuid5 cfg cfg.ns) := by
  rw [iterHubIdentities_eq]
  exact h.map _

theorem Inbound.Lists.covered (hcheck : (checkIdentityCollisions crypto.uuid5 cfg).isOk = true)
    {keys : NodeKeys} {inbound : Inbound} {clients peers : List Identity}
    (h : inbound.Lists crypto cfg keys clients peers) : inbound.Covered crypto cfg keys := by
  have huuids := checkIdentityCollisions_isOk.mp hcheck
  refine ⟨⟨_, sublist_iterHubIdentities h.clients_sublist, ?_⟩,
    ⟨_, sublist_iterHubIdentities h.peers_sublist, ?_⟩, ?_, ?_⟩
  · rw [h.clients_eq, List.map_map]
    rfl
  · rw [h.peers_eq, List.map_map]
    rfl
  · rw [h.clients_eq]
    exact huuids.sublist (h.clients_sublist.map _)
  · intro hinj
    rw [h.peers_eq]
    refine ((identities_nodup hcheck).sublist h.peers_sublist).map_on fun i hi j hj heq => ?_
    have hmem : ∀ k ∈ peers, (k.uuid crypto.uuid5 cfg.ns, k.owner) ∈
        iterHubIdentities crypto.uuid5 cfg cfg.ns := by
      intro k hk
      rw [iterHubIdentities_eq]
      exact List.mem_map_of_mem (h.peers_sublist.subset hk)
    exact uuid_inj hcheck (h.peers_sublist.subset hi) (h.peers_sublist.subset hj)
      (hinj _ (hmem i hi) _ (hmem j hj) heq)

section Hub

variable {region : HubRegion} {node : HubNode} {config : XrayConfig}

theorem lists_none {keys : NodeKeys} {inbound : Inbound} (hclients : inbound.clientIds = [])
    (hpeers : inbound.peerKeys = []) : inbound.Lists crypto cfg keys [] [] :=
  ⟨List.nil_sublist _, List.nil_sublist _, hclients, hpeers⟩

theorem lists_clients {keys : NodeKeys} {inbound : Inbound} {clients : List ClientEntry}
    {decryption flow : String} {is : List Identity}
    (hsettings : inbound.settings = .vless clients decryption)
    (hclients : clients = is.map (Identity.client crypto.uuid5 cfg.ns flow))
    (hsub : is.Sublist (identities cfg)) : inbound.Lists crypto cfg keys is [] := by
  refine ⟨hsub, List.nil_sublist _, ?_, by simp [Inbound.peerKeys, hsettings]⟩
  simp only [Inbound.clientIds, hsettings, hclients, List.map_map]
  rfl

theorem HubRendered.lists (hr : HubRendered crypto cfg region node config) :
    ∀ inbound ∈ config.inbounds, ∃ clients peers,
      inbound.Lists crypto cfg hr.keys clients peers := by
  have hslots := buildSlots_hub hr.slots
  intro inbound hmem
  rw [hr.inbounds_eq] at hmem
  simp only [buildInbounds, List.mem_append, List.mem_singleton, List.mem_map] at hmem
  rcases hmem with (((((rfl | ⟨ctx, hctx, rfl⟩) | ⟨ctx, hctx, rfl⟩) | ⟨ctx, hctx, rfl⟩) |
    ⟨ctx, hctx, rfl⟩) | ⟨ctx, hctx, rfl⟩) | ⟨pub, -, rfl⟩
  · obtain ⟨tls, -, hclients⟩ := buildXhttp_clients hslots.xhttp
    exact ⟨_, _, lists_clients rfl hclients (directIdentities_sublist cfg tls)⟩
  · have hclients := buildCdn_clients hslots.cdn ctx (Option.mem_toList.mp hctx)
    exact ⟨_, _, lists_clients rfl hclients (users_sublist (granted_sublist _ _))⟩
  · exact ⟨_, _, lists_none rfl rfl⟩
  · have hclients := buildXdns_clients hslots.xdns ctx (Option.mem_toList.mp hctx)
    exact ⟨_, _, lists_clients rfl hclients (users_sublist (granted_sublist _ _))⟩
  · have hpeers := buildWireguard_peers hslots.wireguard ctx (Option.mem_toList.mp hctx)
    have hkeys := congrArg (List.map Prod.snd) hpeers
    rw [List.map_map, List.map_map] at hkeys
    exact ⟨[], _, List.nil_sublist _, users_sublist (granted_sublist .wireguard true), rfl, hkeys⟩
  · have husers := buildHysteria_users hslots.hysteria ctx (Option.mem_toList.mp hctx)
    have hauths := congrArg (List.map HysteriaUser.auth) husers
    rw [List.map_map] at hauths
    exact ⟨_, [], users_sublist (granted_sublist .hysteria true), List.nil_sublist _, hauths, rfl⟩
  · exact ⟨_, _, lists_none rfl rfl⟩

end Hub

/-- Whatever a hub renders of an identity, the collision check has seen: inside one inbound
no two entries share a UUID, and no two peers a key. -/
theorem rendered_entries_covered (cfg : AcceptedConfig)
    (hcheck : (checkIdentityCollisions crypto.uuid5 cfg.toConglomerateConfig).isOk = true)
    {region : HubRegion} {node : HubNode} {config : XrayConfig}
    (h : renderHub crypto cfg.toConglomerateConfig store region node = .ok config) :
    ∃ keys, store node.id.val = some keys ∧
      ∀ inbound ∈ config.inbounds, inbound.Covered crypto cfg.toConglomerateConfig keys := by
  obtain ⟨hr, hkeys⟩ := renderHub_loaded h
  refine ⟨hr.keys, hkeys, fun inbound hmem => ?_⟩
  obtain ⟨clients, peers, hlists⟩ := hr.lists inbound hmem
  exact hlists.covered hcheck

/-! ## A small office -/

namespace Sample

/-- A function given by its values on a few texts. -/
def tabulated {β : Type} (default : β) (table : List (String × β)) (text : String) : β :=
  (table.lookup text).getD default

def officeUuid5 : Uuid5 :=
  let ns : UUID := ⟨0x1f6509cf, 0x6799, 0x5a56, 0x8716, 0x475d8fa28a4f⟩
  let alice : UUID := ⟨0xb9a626b3, 0x1033, 0x537c, 0x963c, 0xdcfae40dd07a⟩
  Sample.uuid5 [
    ((UUID.nil, "example.net"), ns),
    ((ns, "alice"), alice),
    ((alice, "alice-server"), ⟨0xd8724f12, 0x732b, 0x5eba, 0x9e01, 0x5d4562133fd7⟩),
    ((alice, "phone"), ⟨0x9a7d809d, 0xe52a, 0x5ded, 0x8df4, 0x342dd0c17558⟩),
    ((ns, "portal/nas"), ⟨0xb2dfa73f, 0xf30e, 0x54ad, 0x9e54, 0xb2c2e0773b38⟩),
    ((ns, "h1-fra-1"), ⟨0x62104b8b, 0x3e69, 0x50c8, 0xb497, 0xc4ce018ccc7d⟩)] (by decide)

def officePrivateKey : String := "uRz6vYo-tfkyc2z2lStEsz-l5AL5KOayMZ89IiDuP3w"

def officePublicKey : String := "xLJxjT4LNbqTLE0lLnA7jTNUIJs9iAYCDQ1Ps_HaekM"

def aliceSeed : Bytes :=
  [186, 26, 234, 59, 9, 141, 144, 188, 58, 33, 254, 62, 202, 239, 26, 192,
    140, 1, 121, 120, 234, 218, 167, 105, 171, 142, 196, 122, 196, 160, 180, 60]

def serverSeed : Bytes :=
  [197, 5, 52, 217, 63, 45, 102, 103, 88, 31, 126, 219, 88, 106, 182, 24,
    58, 132, 120, 87, 99, 235, 134, 128, 78, 49, 177, 67, 51, 254, 16, 181]

def phoneSeed : Bytes :=
  [193, 182, 203, 221, 229, 229, 104, 49, 96, 200, 107, 14, 210, 43, 67, 148,
    189, 95, 103, 51, 184, 251, 33, 214, 150, 243, 160, 185, 143, 223, 1, 28]

/-- The cryptography of the office, by its values on what the office derives. -/
def officeCrypto : Crypto :=
  { uuid5 := officeUuid5
    sha256Hex := tabulated "" [
      ("main.example.net", "9a4e5b10b46dff43edfde65b4bff649996750c8d5e0d52055a552fa5b68598fb"),
      ("alice.user.example.net",
        "39fbb9ba36fb3af705a722dbd7d69b0e48d2cdcc525958203ce4b1bdc24be2a9"),
      ("nas.portal.example.net",
        "993c71bd74fd5d8e7170b4dcbf17490e1f3acba6e57995dbb1516995fd512a5f"),
      ("fra-1.exit.example.net",
        "a8025fd54f84b1c292977cc6ca6c83faf7dfe86ee27eb90a6f5ad9eb10886493")]
    hmacFromRealityKey := fun _ => tabulated [] [
      ("b9a626b3-1033-537c-963c-dcfae40dd07a.wireguard.example.net", aliceSeed),
      ("d8724f12-732b-5eba-9e01-5d4562133fd7.wireguard.example.net", serverSeed),
      ("9a7d809d-e52a-5ded-8df4-342dd0c17558.wireguard.example.net", phoneSeed)]
    urlsafeB64encode := fun _ => ""
    x25519UrlsafeToStd := tabulated "" [
      (officePrivateKey, "uRz6vYo+tfkyc2z2lStEsz+l5AL5KOayMZ89IiDuP3w="),
      (officePublicKey, "xLJxjT4LNbqTLE0lLnA7jTNUIJs9iAYCDQ1Ps/HaekM=")]
    x25519KeypairFromSeed := fun seed =>
      if seed = aliceSeed then
        ("uhrqOwmNkLw6If4+yu8awIwBeXjq2qdpq47EesSgtDw=",
          "M9xaowX5aU06Gy1pU6OlyZG7KfrXUOymuZJ1Iq9DU1w=")
      else if seed = serverSeed then
        ("xQU02T8tZmdYH37bWGq2GDqEeFdj64aATjGxQzP+ELU=",
          "UY30agnuiG6F4shXoFbcMdV7Ja56NCLBDZXKvZaXZQc=")
      else if seed = phoneSeed then
        ("wbbL3eXlaDFgyGsO0itDlL1fZzO4+yHWlvOguY/fARw=",
          "71ouxYAKWmhxdkYzpFA4RyKSjhA9Tf8bUwmAAOygmxA=")
      else ("", "")
    selfSignedCert := fun _ _ _ => .ok ("", "", []) }

def officeKeys : NodeKeys :=
  { nodeKeys with realityPrivateKey := officePrivateKey, realityPublicKey := officePublicKey }

def officeStore : KeyStore := fun _ => some officeKeys

def alice : User :=
  { username := aliceName
    group := mainGroup
    access := [.xhttp, .server, .cdn, .wireguard, .hysteria]
    guests := [{ val := "phone" }] }

/-- A portal with one published port. -/
def nas : Portal :=
  { lanPortal with
    publish := [lanPublish] }

/-- Serves Hysteria with an operator's certificate. -/
def officeNode : HubNode :=
  { hubNode with
    wireguard := some { port := some { val := 51820 }
                        subnet := some { version := .v4
                                         networkAddress := 0x0a080000
                                         prefixlen := 24 } }
    hysteria := some { sni := some hubNode.hostname
                       certificate := some { certFile := "/etc/ssl/hub.crt"
                                             keyFile := "/etc/ssl/hub.key" } } }

def officeRegion : HubRegion :=
  { hubRegion with cdnXhttpPath := some { val := "/cdn/" }, nodes := [officeNode] }

/-- One exit, one hub that serves every kind of access but XDNS, and a portal. -/
def office : AcceptedConfig :=
  { topology [exitRegion fra lowRoute [exitNode fra1]] [alice]
      [] officeRegion with
    global := {
      global with
      cdn := some { exitDomain := { val := "exit.example.org" }
                    hubDomain := { val := "cdn.example.org" } } }
    portals := [nas] }

end Sample

theorem office_checked :
    (checkIdentityCollisions Sample.officeCrypto.uuid5 Sample.office.toConglomerateConfig).isOk =
      true := by
  decide

theorem office_placed :
    Placed.hub Sample.officeRegion Sample.officeNode ∈ Sample.office.placed :=
  List.mem_flatMap.mpr ⟨.hub Sample.officeRegion, by decide, List.mem_map.mpr
    ⟨Sample.officeNode, by decide, rfl⟩⟩

theorem office_renders :
    ∃ config, renderHub Sample.officeCrypto Sample.office.toConglomerateConfig Sample.officeStore
      Sample.officeRegion Sample.officeNode = .ok config :=
  isOk_iff.mp (by decide)

theorem rendered_entries_covered_office :
    ∃ config, renderHub Sample.officeCrypto Sample.office.toConglomerateConfig Sample.officeStore
        Sample.officeRegion Sample.officeNode = .ok config ∧
      ∃ keys, Sample.officeStore Sample.officeNode.id.val = some keys ∧
        ∀ inbound ∈ config.inbounds,
          inbound.Covered Sample.officeCrypto Sample.office.toConglomerateConfig keys := by
  obtain ⟨config, h⟩ := office_renders
  exact ⟨config, h, rendered_entries_covered Sample.office office_checked h⟩

end HexRift
