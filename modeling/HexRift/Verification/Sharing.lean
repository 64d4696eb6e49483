import HexRift.Library.Distinct
import HexRift.Model.Share
import HexRift.Verification.Strict
import HexRift.Verification.Soundness

/-! # Everything handed out is accepted

Share URLs and portal outbounds are put together from the topology and the stored keys by code
of their own, beside the code that lists the clients of each inbound. -/

namespace HexRift

open Checks

variable {cfg : ConglomerateConfig} {crypto : Crypto} {store : KeyStore}

/-! ## Requests -/

/-- The identity of the user that the `guest` and `server` of a request ask for. -/
inductive Asks (user : User) : Option String → Bool → Identity → Prop
  | user : Asks user none false (.user user)
  | server (h : AccessType.server ∈ user.access) : Asks user none true (.server user)
  | guest {label : Identifier} (h : label ∈ user.guests) :
      Asks user (some label.val) false (.guest user label)

/-- How an identity is called in labels. -/
def Identity.label : Identity → String
  | user u => u.username.val
  | server u => serverEmail u.username.val
  | guest u label => label.val ++ "@" ++ u.username.val
  | portal p => p.id.val

def Identity.resolved (uuid5 : Uuid5) (ns : Namespace) (i : Identity) : ResolvedIdentity :=
  { uuid := i.uuid uuid5 ns, email := i.email ns, label := i.label }

theorem resolveUser_eq_ok {username : String} {user : User}
    (h : resolveUser cfg username = .ok user) :
    user ∈ cfg.users ∧ user.username.val = username := by
  unfold resolveUser at h
  cases hfind : cfg.users.find? fun u => u.username.val = username with
  | none => simp [hfind] at h
  | some found =>
      simp only [hfind] at h
      cases h
      have hname := List.find?_some hfind
      exact ⟨List.mem_of_find?_eq_some hfind, by simpa using hname⟩

/-- A request resolves to the identity it asks for, when the user has it. -/
theorem resolveIdentity_eq_ok {uuid5 : Uuid5} {ns : Namespace} {user : User}
    {guest : Option String} {server : Bool} {identity : ResolvedIdentity} :
    resolveIdentity uuid5 user ns guest server = .ok identity ↔
      ∃ i, Asks user guest server i ∧ identity = i.resolved uuid5 ns := by
  constructor
  · intro h
    unfold resolveIdentity at h
    split at h
    · cases h
    · split at h
      · rename_i hserver
        cases h
        exact ⟨_, .server hserver, rfl⟩
      · cases h
    · split at h
      · rename_i hguest
        obtain ⟨label, hlabel, rfl⟩ := List.mem_map.mp hguest
        cases h
        exact ⟨_, .guest hlabel, rfl⟩
      · cases h
    · cases h
      exact ⟨_, .user, rfl⟩
  · intro ⟨i, hasks, hidentity⟩
    subst hidentity
    cases hasks with
    | user => rfl
    | server h =>
        simp only [resolveIdentity, if_pos h]
        rfl
    | guest h =>
        simp only [resolveIdentity, if_pos (List.mem_map_of_mem h)]
        rfl

theorem Asks.mem_identitiesOf {user : User} {guest : Option String} {server : Bool} {i : Identity}
    (h : Asks user guest server i) : i ∈ identitiesOf user := by
  cases h with
  | user => simp [identitiesOf]
  | server h => simp [identitiesOf]
  | guest h => simp [identitiesOf, h]

theorem Asks.granted {user : User} {guest : Option String} {server : Bool} {i : Identity}
    (h : Asks user guest server i) {access : AccessType} (haccess : access ∈ user.access) :
    i ∈ user.granted access true := by
  rw [User.granted, if_neg (not_not.mpr haccess)]
  cases h with
  | user => simp
  | server h => simp [h]
  | guest h => simp [h]

theorem Asks.grantedReality {user : User} {guest : Option String} {server : Bool} {i : Identity}
    (h : Asks user guest server i) (haccess : server = true ∨ AccessType.xhttp ∈ user.access) :
    i ∈ user.grantedReality := by
  cases h with
  | user => simpa [User.grantedReality] using haccess
  | server h => simp [User.grantedReality, h]
  | guest h =>
      have hxhttp : AccessType.xhttp ∈ user.access := by simpa using haccess
      simp [User.grantedReality, h, hxhttp]

theorem mem_identitiesOf {user : User} {i : Identity} :
    i ∈ identitiesOf user ↔
      i = .user user ∨ i = .server user ∨ ∃ label ∈ user.guests, i = .guest user label := by
  simp [identitiesOf, eq_comm]

/-- An identity is that of one user. -/
theorem identitiesOf_inj {user other : User} {i : Identity} (h : i ∈ identitiesOf user)
    (h' : i ∈ identitiesOf other) : user = other := by
  rcases mem_identitiesOf.mp h with rfl | rfl | ⟨label, -, rfl⟩
  · simpa [identitiesOf] using h'
  · simpa [identitiesOf] using h'
  · have hboth : label ∈ other.guests ∧ other = user := by simpa [identitiesOf] using h'
    exact hboth.2.symm

theorem Asks.mem_identities {user : User} (hu : user ∈ cfg.users) {guest : Option String}
    {server : Bool} {i : Identity} (h : Asks user guest server i) : i ∈ identities cfg :=
  List.mem_append_left _ (List.mem_flatMap.mpr ⟨user, hu, h.mem_identitiesOf⟩)

theorem Asks.access_of_granted {user : User} {guest : Option String} {server : Bool} {i : Identity}
    (h : Asks user guest server i) {access : AccessType}
    (hi : i ∈ cfg.users.flatMap (User.granted access true)) : access ∈ user.access := by
  obtain ⟨other, -, hgranted⟩ := List.mem_flatMap.mp hi
  have hother := (granted_sublist access true other).subset hgranted
  cases identitiesOf_inj h.mem_identitiesOf hother
  by_contra hnot
  rw [User.granted, if_pos hnot] at hgranted
  cases hgranted

theorem Asks.of_some {user : User} {label : String} {server : Bool} {i : Identity}
    (h : Asks user (some label) server i) : user.guests ≠ [] ∧ server = false := by
  cases h with
  | guest h => exact ⟨List.ne_nil_of_mem h, rfl⟩

/-- A request asks for one identity. -/
theorem Asks.unique {user : User} {guest : Option String} {server : Bool} {i j : Identity}
    (h : Asks user guest server i) (h' : Asks user guest server j) : i = j := by
  have hgeneral : ∀ {g g' : Option String}, Asks user g server i → Asks user g' server j →
      g = g' → i = j := by
    intro g g' h h' heq
    cases h <;> cases h' <;> simp_all [Identifier.val_inj]
  exact hgeneral h h' rfl

/-- The requests for one identity each that a request stands for. -/
def ShareRequest.parts (req : ShareRequest) (user : User) : List ShareRequest :=
  if req.allGuests then user.guests.map req.forGuest else [req]

theorem fields_of_mem_parts {req one : ShareRequest} {user : User} (h : one ∈ req.parts user) :
    one.username = req.username ∧ one.hubId = req.hubId := by
  unfold ShareRequest.parts at h
  split at h
  · obtain ⟨label, -, rfl⟩ := List.mem_map.mp h
    exact ⟨rfl, rfl⟩
  · rw [List.mem_singleton.mp h]
    exact ⟨rfl, rfl⟩

/-- Where one part of a request asks for an identity, every part does. -/
theorem asks_of_mem_parts {req one other : ShareRequest} {user : User}
    (hone : one ∈ req.parts user) (hother : other ∈ req.parts user) {i : Identity}
    (hasks : Asks user other.guest other.server i) :
    ∃ j, Asks user one.guest one.server j ∧ one.server = other.server := by
  unfold ShareRequest.parts at hone hother
  by_cases hall : req.allGuests = true
  · rw [if_pos hall] at hone hother
    obtain ⟨label, hlabel, rfl⟩ := List.mem_map.mp hone
    obtain ⟨_, -, rfl⟩ := List.mem_map.mp hother
    exact ⟨_, .guest hlabel, rfl⟩
  · rw [if_neg hall, List.mem_singleton] at hone hother
    rw [hother, ← hone] at hasks
    exact ⟨i, hasks, by rw [hone, hother]⟩

section PerIdentity

variable {α : Type} {req : ShareRequest} {user : User}
  {buildOne : User → ShareRequest → Except Error (List α)} {results : List α}

theorem resolveUser_of_perIdentity (h : perIdentity cfg req buildOne = .ok results) :
    ∃ user, resolveUser cfg req.username = .ok user := by
  simp only [perIdentity, bind_eq_ok] at h
  obtain ⟨user, huser, -⟩ := h
  exact ⟨user, huser⟩

/-- A call builds every part of its request. -/
theorem perIdentity_eq_ok (huser : resolveUser cfg req.username = .ok user) :
    perIdentity cfg req buildOne = .ok results ↔
      (req.allGuests = true → req.guest = none ∧ req.server = false) ∧ req.parts user ≠ [] ∧
        ∃ parts, mapEach (req.parts user) (buildOne user) = .ok parts ∧
          parts.flatten = results := by
  simp only [perIdentity, huser, bind_eq_ok, Except.ok.injEq, exists_eq_left',
    ShareRequest.parts]
  cases req.allGuests with
  | false => simp [mapEach, bind_eq_ok]
  | true =>
      simp only [if_true, forAllGuests, bind_eq_ok, ensure_eq_ok, pure_eq_ok, mapEach_map,
        forall_const, exists_const, ne_eq, List.map_eq_nil_iff]

/-- What is built comes from one part. -/
theorem mem_perIdentity (huser : resolveUser cfg req.username = .ok user)
    (h : perIdentity cfg req buildOne = .ok results) {x : α} :
    x ∈ results ↔ ∃ one ∈ req.parts user, ∃ part, buildOne user one = .ok part ∧ x ∈ part := by
  obtain ⟨-, -, parts, hparts, rfl⟩ := (perIdentity_eq_ok huser).mp h
  simp only [List.mem_flatten, mem_mapEach hparts]
  constructor
  · rintro ⟨part, ⟨one, hone, hbuild⟩, hx⟩
    exact ⟨one, hone, part, hbuild, hx⟩
  · rintro ⟨one, hone, part, hbuild, hx⟩
    exact ⟨part, ⟨one, hone, hbuild⟩, hx⟩

theorem part_of_perIdentity (huser : resolveUser cfg req.username = .ok user)
    (h : perIdentity cfg req buildOne = .ok results) {one : ShareRequest}
    (hone : one ∈ req.parts user) : ∃ part, buildOne user one = .ok part ∧ part ⊆ results := by
  obtain ⟨-, -, parts, hparts, -⟩ := (perIdentity_eq_ok huser).mp h
  obtain ⟨part, hpart⟩ := mapEach_total.mp ⟨parts, hparts⟩ one hone
  exact ⟨part, hpart, fun x hx => (mem_perIdentity huser h).mpr ⟨one, hone, part, hpart, hx⟩⟩

/-- A call returns when every part is built. -/
theorem perIdentity_total (huser : resolveUser cfg req.username = .ok user)
    (hflags : req.allGuests = true → req.guest = none ∧ req.server = false)
    {one : ShareRequest} (hone : one ∈ req.parts user)
    (h : ∀ one ∈ req.parts user, ∃ part, buildOne user one = .ok part) :
    ∃ results, perIdentity cfg req buildOne = .ok results := by
  obtain ⟨parts, hparts⟩ := mapEach_total.mpr h
  exact ⟨_, (perIdentity_eq_ok huser).mpr
    ⟨hflags, List.ne_nil_of_mem hone, parts, hparts, rfl⟩⟩

end PerIdentity

theorem requestedPairs_of_part {req one : ShareRequest} {user : User}
    {pairs : List (HubRegion × HubNode)} (hpairs : requestedPairs cfg req.hubId = .ok pairs)
    (hone : one ∈ req.parts user) : requestedPairs cfg one.hubId = .ok pairs := by
  rw [(fields_of_mem_parts hone).2, hpairs]

theorem getNode_eq_ok {nodeId : String} {p : Placed} (h : getNode cfg nodeId = .ok p) :
    p ∈ cfg.placed ∧ p.node.id.val = nodeId := by
  unfold getNode at h
  split at h
  · cases h
  · rename_i found hfind
    cases h
    exact ⟨List.mem_of_find?_eq_some hfind, by simpa using List.find?_some hfind⟩

/-- Requested pairs are hub nodes of the topology. -/
theorem mem_requestedPairs {hubId : Option String} {pairs : List (HubRegion × HubNode)}
    (h : requestedPairs cfg hubId = .ok pairs) {p : HubRegion × HubNode} (hp : p ∈ pairs) :
    p ∈ hubNodePairs cfg := by
  cases hubId with
  | none =>
      cases h
      exact hp
  | some id =>
      simp only [requestedPairs, bind_eq_ok] at h
      obtain ⟨placed, hplaced, h⟩ := h
      have hmem : placed ∈ cfg.placed := (getNode_eq_ok hplaced).1
      cases placed with
      | exit r n => cases h
      | hub r n =>
          rw [pure_eq_ok] at h
          subst h
          rw [List.mem_singleton] at hp
          subst hp
          exact mem_hubNodePairs.mpr (mem_placed_hub hmem)

/-! ## URLs of one node -/

/-- The URL of a kind for one hub node alone, when the node has the inbound. -/
def nodeShareUrl (env : InboundEnv) (client : ShareClient) :
    ShareKind → Except Error (Option ShareUrl)
  | .direct => do
      let ctx ← buildXhttp env
      let url ← ctx.shareUrl env client
      pure (some url)
  | .cdn => do
      let ctx ← buildCdn env
      pure (ctx.map (·.shareUrl env client))
  | .hysteria => do
      let ctx ← buildHysteria env
      pure (ctx.map (·.shareUrl env client))

section Loops

variable {identity : ResolvedIdentity} {shortId fingerprint : String}

/-- The URL is what a hub node alone is shared as, with the keys stored for it. -/
def SharedFrom (crypto : Crypto) (cfg : ConglomerateConfig) (store : KeyStore)
    (identity : ResolvedIdentity) (shortId fingerprint : String) (kind : ShareKind)
    (p : HubRegion × HubNode) (url : ShareUrl) : Prop :=
  ∃ keys fragment, store p.2.id.val = some keys ∧
    nodeShareUrl (hubEnv crypto cfg p.1 p.2 keys)
      (shareClient identity shortId fingerprint fragment) kind = .ok (some url)

theorem shareEnv_eq_ok {region : HubRegion} {node : HubNode} {env : InboundEnv} :
    shareEnv crypto cfg store region node = .ok env ↔
      ∃ keys, store node.id.val = some keys ∧ hubEnv crypto cfg region node keys = env := by
  simp only [shareEnv, bind_eq_ok, pure_eq_ok, loadNodeKeys_eq_ok]

/-- A URL carries the UUID of the client it is built for. -/
theorem nodeShareUrl_identity {env : InboundEnv} {client : ShareClient} {kind : ShareKind}
    {url : ShareUrl} (h : nodeShareUrl env client kind = .ok (some url)) :
    url.identity = client.uuid := by
  cases kind with
  | direct =>
      simp only [nodeShareUrl, XhttpContext.shareUrl, bind_eq_ok, pure_eq_ok,
        Option.some.injEq] at h
      obtain ⟨_, -, _, ⟨_, -, rfl⟩, rfl⟩ := h
      rfl
  | cdn | hysteria =>
      simp only [nodeShareUrl, bind_eq_ok, pure_eq_ok, Option.map_eq_some_iff] at h
      obtain ⟨_, -, ctx, -, rfl⟩ := h
      rfl

/-- By what CDN nodes are merged. -/
def regionId (p : HubRegion × HubNode) : String := p.1.id.val

/-- The CDN URLs are those of the first node of each region. -/
theorem mem_cdnShareUrlsFrom {seen : List String} {pairs : List (HubRegion × HubNode)}
    {results : List (String × ShareUrl)}
    (h : cdnShareUrlsFrom crypto cfg store identity shortId fingerprint seen pairs = .ok results)
    {e : String × ShareUrl} :
    e ∈ results ↔ ∃ p ∈ Distinct.firstBy regionId seen pairs, ∃ keys ctx,
      store p.2.id.val = some keys ∧
        buildCdn (hubEnv crypto cfg p.1 p.2 keys) = .ok (some ctx) ∧
          e = cdnShareUrl identity shortId fingerprint p.1 (hubEnv crypto cfg p.1 p.2 keys)
            ctx := by
  induction pairs generalizing seen results with
  | nil =>
      cases h
      simp
  | cons p ps ih =>
      unfold cdnShareUrlsFrom at h
      by_cases hseen : regionId p ∈ seen
      · rw [if_pos (show p.1.id.val ∈ seen from hseen)] at h
        rw [Distinct.firstBy_cons_of_mem hseen]
        exact ih h
      · rw [if_neg (show p.1.id.val ∉ seen from hseen)] at h
        simp only [bind_eq_ok, shareEnv_eq_ok] at h
        obtain ⟨env, ⟨keys, hkeys, rfl⟩, slot, hslot, h⟩ := h
        rw [Distinct.firstBy_cons_of_not_mem hseen, List.exists_mem_cons_iff]
        cases slot with
        | none =>
            rw [ih h]
            refine (or_iff_right ?_).symm
            rintro ⟨keys', ctx, hkeys', hctx, -⟩
            rw [hkeys] at hkeys'
            cases hkeys'
            rw [hslot] at hctx
            cases hctx
        | some ctx =>
            simp only [bind_eq_ok, pure_eq_ok] at h
            obtain ⟨others, hothers, rfl⟩ := h
            rw [List.mem_cons, ih hothers]
            refine or_congr_left ⟨fun he => ⟨keys, ctx, hkeys, hslot, he⟩, ?_⟩
            rintro ⟨keys', ctx', hkeys', hctx', he⟩
            rw [hkeys] at hkeys'
            cases hkeys'
            rw [hslot] at hctx'
            cases hctx'
            exact he

theorem sharedFrom_cdn {pairs : List (HubRegion × HubNode)} {results : List (String × ShareUrl)}
    (h : cdnShareUrlsFrom crypto cfg store identity shortId fingerprint [] pairs = .ok results)
    {e : String × ShareUrl} (he : e ∈ results) :
    ∃ p ∈ pairs, SharedFrom crypto cfg store identity shortId fingerprint .cdn p e.2 := by
  obtain ⟨p, hp, keys, ctx, hkeys, hctx, rfl⟩ := (mem_cdnShareUrlsFrom h).mp he
  refine ⟨p, Distinct.mem_of_mem_firstBy hp, keys, p.1.id.val ++ "(CDN)-" ++ identity.label, hkeys,
    ?_⟩
  rw [nodeShareUrl, hctx]
  rfl

/-- A listener is the Hysteria inbound of one of the nodes. -/
theorem mem_listeners {pairs : List (HubRegion × HubNode)}
    {slots : List (Option HysteriaListener)}
    (h : mapEach pairs (fun p => hysteriaListener crypto cfg store p.1 p.2) = .ok slots)
    {l : HysteriaListener} :
    l ∈ slots.filterMap id ↔ ∃ p ∈ pairs, ∃ keys ctx, store p.2.id.val = some keys ∧
      buildHysteria (hubEnv crypto cfg p.1 p.2 keys) = .ok (some ctx) ∧
        l = { region := p.1, node := p.2, env := hubEnv crypto cfg p.1 p.2 keys, ctx := ctx } := by
  simp only [List.mem_filterMap, id_eq, exists_eq_right, mem_mapEach h, hysteriaListener,
    bind_eq_ok, pure_eq_ok, shareEnv_eq_ok]
  constructor
  · rintro ⟨p, hp, env, ⟨keys, hkeys, rfl⟩, slot, hslot, hl⟩
    obtain ⟨ctx, rfl, rfl⟩ := Option.map_eq_some_iff.mp hl
    exact ⟨p, hp, keys, ctx, hkeys, hslot, rfl⟩
  · rintro ⟨p, hp, keys, ctx, hkeys, hslot, rfl⟩
    exact ⟨p, hp, _, ⟨keys, hkeys, rfl⟩, some ctx, hslot, rfl⟩

theorem hysteriaShareUrlsFrom_eq (listeners rest : List HysteriaListener)
    (emitted : List (String × ℕ × String × Option String × Option String)) :
    hysteriaShareUrlsFrom identity shortId fingerprint listeners emitted rest =
      (Distinct.firstBy HysteriaListener.endpoint emitted rest).map
        (hysteriaShareUrl identity shortId fingerprint listeners) := by
  induction rest generalizing emitted with
  | nil => rfl
  | cons l ls ih =>
      by_cases h : l.endpoint ∈ emitted
      · simp [hysteriaShareUrlsFrom, Distinct.firstBy, h, ih]
      · simp [hysteriaShareUrlsFrom, Distinct.firstBy, h, ih]

theorem hysteriaShareUrl_snd (identity : ResolvedIdentity) (shortId fingerprint : String)
    (listeners : List HysteriaListener) (l : HysteriaListener) :
    ∃ fragment, (hysteriaShareUrl identity shortId fingerprint listeners l).2 =
      l.ctx.shareUrl l.env (shareClient identity shortId fingerprint fragment) :=
  ⟨_, rfl⟩

/-- The Hysteria URLs are those of the first listener of each endpoint. -/
theorem mem_hysteriaShareUrls {pairs : List (HubRegion × HubNode)}
    {results : List (String × ShareUrl)}
    (h : hysteriaShareUrls crypto cfg store identity shortId fingerprint pairs = .ok results) :
    ∃ slots, mapEach pairs (fun p => hysteriaListener crypto cfg store p.1 p.2) = .ok slots ∧
      ∀ e, e ∈ results ↔ ∃ l ∈ Distinct.firstBy HysteriaListener.endpoint [] (slots.filterMap id),
        hysteriaShareUrl identity shortId fingerprint (slots.filterMap id) l = e := by
  simp only [hysteriaShareUrls, bind_eq_ok, pure_eq_ok] at h
  obtain ⟨slots, hslots, rfl⟩ := h
  refine ⟨slots, hslots, fun e => ?_⟩
  rw [hysteriaShareUrlsFrom_eq, List.mem_map]

theorem sharedFrom_hysteria {pairs : List (HubRegion × HubNode)}
    {results : List (String × ShareUrl)}
    (h : hysteriaShareUrls crypto cfg store identity shortId fingerprint pairs = .ok results)
    {e : String × ShareUrl} (he : e ∈ results) :
    ∃ p ∈ pairs, SharedFrom crypto cfg store identity shortId fingerprint .hysteria p e.2 := by
  obtain ⟨slots, hslots, hmem⟩ := mem_hysteriaShareUrls h
  obtain ⟨l, hl, rfl⟩ := (hmem e).mp he
  obtain ⟨p, hp, keys, ctx, hkeys, hctx, rfl⟩ :=
    (mem_listeners hslots).mp (Distinct.mem_of_mem_firstBy hl)
  obtain ⟨fragment, hurl⟩ :=
    hysteriaShareUrl_snd identity shortId fingerprint (slots.filterMap id) _
  refine ⟨p, hp, keys, fragment, hkeys, ?_⟩
  rw [nodeShareUrl, hctx, hurl]
  rfl

/-- A hub node that the user's access covers, with its keys and its direct inbound. -/
structure DirectNode (crypto : Crypto) (cfg : ConglomerateConfig) (store : KeyStore) (user : User)
    (server : Bool) (p : HubRegion × HubNode) (keys : NodeKeys) (ctx : XhttpContext) : Prop where
  access : ∃ tls, resolveRegionTls p.1 cfg.defaults = .ok tls ∧ directAccess user server tls = true
  stored : store p.2.id.val = some keys
  built : buildXhttp (hubEnv crypto cfg p.1 p.2 keys) = .ok ctx

section Direct

variable {user : User} {server : Bool} {p : HubRegion × HubNode}
  {emitted : List (String × XhttpContext × NodeKeys)}

/-- What the direct loop does with one hub node: the entry it emits, and the material emitted so
far. -/
inductive DirectStep (crypto : Crypto) (cfg : ConglomerateConfig) (store : KeyStore)
    (identity : ResolvedIdentity) (shortId fingerprint : String) (user : User) (server : Bool)
    (p : HubRegion × HubNode) (emitted : List (String × XhttpContext × NodeKeys)) :
    Option (String × ShareUrl) → List (String × XhttpContext × NodeKeys) → Prop
  | skip {tls : Option TlsConfig} (htls : resolveRegionTls p.1 cfg.defaults = .ok tls)
      (haccess : directAccess user server tls = false) :
      DirectStep crypto cfg store identity shortId fingerprint user server p emitted none emitted
  | merge {keys : NodeKeys} {ctx : XhttpContext}
      (hnode : DirectNode crypto cfg store user server p keys ctx)
      (hreality : ∀ certificate, ctx.security ≠ .tls certificate)
      (hemitted : (p.1.id.val, ctx, keys) ∈ emitted) :
      DirectStep crypto cfg store identity shortId fingerprint user server p emitted none emitted
  | tls {keys : NodeKeys} {ctx : XhttpContext} {label fragment : String} {url : ShareUrl}
      (hnode : DirectNode crypto cfg store user server p keys ctx)
      (hurl : ctx.shareUrl (hubEnv crypto cfg p.1 p.2 keys)
        (shareClient identity shortId fingerprint fragment) = .ok url) :
      DirectStep crypto cfg store identity shortId fingerprint user server p emitted
        (some (label, url)) emitted
  | reality {keys : NodeKeys} {ctx : XhttpContext} {label fragment : String} {url : ShareUrl}
      (hnode : DirectNode crypto cfg store user server p keys ctx)
      (hurl : ctx.shareUrl (hubEnv crypto cfg p.1 p.2 keys)
        (shareClient identity shortId fingerprint fragment) = .ok url) :
      DirectStep crypto cfg store identity shortId fingerprint user server p emitted
        (some (label, url)) ((p.1.id.val, ctx, keys) :: emitted)

theorem directShareUrlsFrom_cons {ps : List (HubRegion × HubNode)}
    {results : List (String × ShareUrl)}
    (h : directShareUrlsFrom crypto cfg store identity shortId fingerprint user server emitted
      (p :: ps) = .ok results) :
    ∃ entry emitted' others,
      DirectStep crypto cfg store identity shortId fingerprint user server p emitted entry
        emitted' ∧
      directShareUrlsFrom crypto cfg store identity shortId fingerprint user server emitted' ps =
        .ok others ∧ entry.toList ++ others = results := by
  simp only [directShareUrlsFrom, bind_eq_ok] at h
  obtain ⟨tls, htls, h⟩ := h
  by_cases haccess : directAccess user server tls = true
  · simp only [haccess, Bool.not_true, Bool.false_eq_true, if_false, bind_eq_ok,
      shareEnv_eq_ok] at h
    obtain ⟨env, ⟨keys, hkeys, rfl⟩, ctx, hctx, h⟩ := h
    have hnode : DirectNode crypto cfg store user server p keys ctx :=
      ⟨⟨tls, htls, haccess⟩, hkeys, hctx⟩
    split at h
    · simp only [bind_eq_ok, pure_eq_ok] at h
      obtain ⟨url, hurl, others, hothers, hresults⟩ := h
      exact ⟨_, _, others, .tls hnode hurl, hothers, hresults⟩
    · rename_i hsecurity
      have hreality : ∀ certificate, ctx.security ≠ .tls certificate := by
        intro certificate heq
        rw [hsecurity] at heq
        cases heq
      split at h
      · rename_i hemitted
        exact ⟨_, _, results, .merge hnode hreality hemitted, h, rfl⟩
      · simp only [bind_eq_ok, pure_eq_ok] at h
        obtain ⟨url, hurl, others, hothers, hresults⟩ := h
        exact ⟨_, _, others, .reality hnode hurl, hothers, hresults⟩
  · simp only [haccess, Bool.not_false, if_true] at h
    exact ⟨_, _, results, .skip htls (by simpa using haccess), h, rfl⟩

theorem DirectStep.emitted_from {e : String × ShareUrl}
    {emitted' : List (String × XhttpContext × NodeKeys)}
    (h : DirectStep crypto cfg store identity shortId fingerprint user server p emitted (some e)
      emitted') :
    ∃ keys ctx fragment, DirectNode crypto cfg store user server p keys ctx ∧
      ctx.shareUrl (hubEnv crypto cfg p.1 p.2 keys)
        (shareClient identity shortId fingerprint fragment) = .ok e.2 := by
  cases h with
  | tls hnode hurl => exact ⟨_, _, _, hnode, hurl⟩
  | reality hnode hurl => exact ⟨_, _, _, hnode, hurl⟩

/-- The node of a direct URL serves what the user's access covers. -/
theorem mem_directShareUrlsFrom {pairs : List (HubRegion × HubNode)}
    {results : List (String × ShareUrl)}
    (h : directShareUrlsFrom crypto cfg store identity shortId fingerprint user server emitted
      pairs = .ok results) {e : String × ShareUrl} (he : e ∈ results) :
    ∃ p ∈ pairs, (∃ tls, resolveRegionTls p.1 cfg.defaults = .ok tls ∧
        directAccess user server tls = true) ∧
      SharedFrom crypto cfg store identity shortId fingerprint .direct p e.2 := by
  induction pairs generalizing emitted results with
  | nil =>
      cases h
      cases he
  | cons p ps ih =>
      obtain ⟨entry, emitted', others, hstep, hothers, rfl⟩ := directShareUrlsFrom_cons h
      rcases List.mem_append.mp he with hown | he
      · obtain rfl := Option.mem_toList.mp hown
        obtain ⟨keys, ctx, fragment, hnode, hurl⟩ := hstep.emitted_from
        refine ⟨p, List.mem_cons_self, hnode.access, keys, fragment, hnode.stored, ?_⟩
        simp only [nodeShareUrl, hnode.built, bind, Except.bind, hurl]
        rfl
      · obtain ⟨q, hq, hshared⟩ := ih hothers he
        exact ⟨q, List.mem_cons_of_mem p hq, hshared⟩

end Direct

end Loops

/-! ## Clients of the inbounds -/

section Clients

variable {user : User} {guest : Option String} {server : Bool} {i : Identity}

theorem Asks.mem_granted (hu : user ∈ cfg.users) (h : Asks user guest server i)
    {access : AccessType} (haccess : access ∈ user.access) :
    i ∈ cfg.users.flatMap (User.granted access true) :=
  List.mem_flatMap.mpr ⟨user, hu, h.granted haccess⟩

/-- The access that share URLs are filtered by is the one the direct inbound admits by. -/
theorem Asks.mem_directIdentities (hu : user ∈ cfg.users) (h : Asks user guest server i)
    {tls : Option TlsConfig} (haccess : directAccess user server tls = true) :
    i ∈ directIdentities cfg tls := by
  refine List.mem_append_left _ (List.mem_flatMap.mpr ⟨user, hu, ?_⟩)
  cases htls : tls.isSome with
  | true =>
      simp only [if_true]
      exact h.granted (by simpa [directAccess, htls] using haccess)
  | false =>
      simp only [Bool.false_eq_true, if_false]
      exact h.grantedReality (by simpa [directAccess, htls] using haccess)

end Clients

/-- Short ids of a Reality hub. -/
def hubShortIds (crypto : Crypto) (cfg : ConglomerateConfig) : List String :=
  getHubShortIds crypto cfg.ns cfg.groups ++ getHubPortalShortIds crypto cfg.ns cfg.portals ++
    getHubUserShortIds crypto cfg.ns cfg.users

theorem mem_foldl_distinct {α : Type} {f : α → String} {xs : List α} {seen : List String}
    {sid : String} :
    sid ∈ xs.foldl (fun result x => if f x ∈ result then result else result ++ [f x]) seen ↔
      sid ∈ seen ∨ ∃ x ∈ xs, f x = sid := by
  induction xs generalizing seen with
  | nil => simp
  | cons x xs ih =>
      rw [List.foldl_cons, ih]
      by_cases hx : f x ∈ seen
      · rw [if_pos hx]
        constructor
        · rintro (h | ⟨y, hy, rfl⟩)
          · exact .inl h
          · exact .inr ⟨y, List.mem_cons_of_mem x hy, rfl⟩
        · rintro (h | ⟨y, hy, rfl⟩)
          · exact .inl h
          · rcases List.mem_cons.mp hy with rfl | hy
            · exact .inl hx
            · exact .inr ⟨y, hy, rfl⟩
      · simp [hx, or_assoc, eq_comm]

theorem mem_getHubUserShortIds {users : List User} {ns : Namespace} {u : User} (hu : u ∈ users)
    (hguests : u.guests ≠ [])
    (haccess : AccessType.xhttp ∈ u.access ∨ AccessType.cdn ∈ u.access) :
    ns.userShortId crypto u.username.val ∈ getHubUserShortIds crypto ns users := by
  refine mem_foldl_distinct.mpr (.inr ⟨u, ?_, rfl⟩)
  simp [hu, hguests, haccess]

/-- The short id a client is given is one of the hub's, also that of a guest. -/
theorem mem_hubShortIds {user : User} (hu : user ∈ cfg.users) {req : ShareRequest}
    (hname : user.username.val = req.username) {i : Identity} (h : Asks user req.guest req.server i)
    (haccess : req.server = true ∨ AccessType.xhttp ∈ user.access) {shortId : String}
    (hshort : clientShortId crypto cfg user req = .ok shortId) :
    shortId ∈ hubShortIds crypto cfg := by
  unfold clientShortId at hshort
  split at hshort
  · cases hshort
  · rename_i group hgroup
    have hmem := List.mem_of_find?_eq_some hgroup
    simp only [hubShortIds, List.mem_append]
    split at hshort
    · rename_i hguest
      cases hshort
      obtain ⟨label, hlabel⟩ := Option.isSome_iff_exists.mp hguest
      rw [hlabel] at h
      obtain ⟨hguests, hserver⟩ := h.of_some
      have hxhttp : AccessType.xhttp ∈ user.access := by simpa [hserver] using haccess
      right
      rw [← hname]
      exact mem_getHubUserShortIds hu hguests (.inl hxhttp)
    · cases hshort
      exact .inl (.inl (List.mem_map_of_mem hmem))

/-- What secures the direct inbound of a hub node. -/
theorem buildXhttp_security {region : HubRegion} {node : HubNode} {keys : NodeKeys}
    {ctx : XhttpContext} (h : buildXhttp (hubEnv crypto cfg region node keys) = .ok ctx) :
    (∃ tls certificate, resolveRegionTls region cfg.defaults = .ok (some tls) ∧
        ctx.security = .tls certificate) ∨
      (resolveRegionTls region cfg.defaults = .ok none ∧ ∃ dest names limits,
        ctx.security = .reality (hubShortIds crypto cfg) dest names keys.realityPrivateKey
          limits) := by
  obtain ⟨xhttp, -, ⟨tls, htls, rfl⟩ | ⟨htls, hreality⟩⟩ := buildXhttp_hub_cases h
  · exact .inl ⟨tls, tls.certificate, htls, rfl⟩
  · obtain ⟨reality, names, -, -, -, hctx⟩ := realityContext_eq_ok hreality
    exact .inr ⟨htls, reality.dest.val, names, reality.fallbackLimits,
      congrArg XhttpContext.security hctx⟩

/-! ## Admission -/

/-- What a dial presents to a VLESS inbound. -/
structure Presented where
  identity : UUID
  security : Option String
  sni : Option String
  publicKey : Option String
  shortId : Option String
  encryption : Option String
  flow : Option String
  xhttpHost : Option String
  xhttpPath : Option String

def ShareUrl.presented (url : ShareUrl) : Presented :=
  { identity := url.identity
    security := url.param "security"
    sni := url.param "sni"
    publicKey := url.param "pbk"
    shortId := url.param "sid"
    encryption := url.param "encryption"
    flow := url.param "flow"
    xhttpHost := url.param "host"
    xhttpPath := url.param "path" }

namespace DialSecurity

def name : DialSecurity → String
  | .reality .. => "reality"
  | .tls .. => "tls"

def sni : DialSecurity → String
  | .reality _ _ serverName _ => serverName
  | .tls serverName _ _ => serverName

def publicKey : DialSecurity → Option String
  | .reality publicKey _ _ _ => some publicKey
  | .tls .. => none

def shortId : DialSecurity → Option String
  | .reality _ _ _ shortId => some shortId
  | .tls .. => none

end DialSecurity

def ReverseDial.presented (dial : ReverseDial) : Presented :=
  { identity := dial.identity
    security := some dial.security.name
    sni := some dial.security.sni
    publicKey := dial.security.publicKey
    shortId := dial.security.shortId
    encryption := some dial.encryption
    flow := some dial.flow
    xhttpHost := some dial.xhttpHost
    xhttpPath := some dial.xhttpPath }

/-- A VLESS inbound of the node whose keys these are takes a dial over the XHTTP transport. -/
structure Presented.Accepted (dial : Presented) (keys : NodeKeys) (inbound : Inbound)
    (xhttp : XhttpSettings) : Prop where
  client : ∃ clients, inbound.settings = .vless clients keys.decryption ∧
    ∃ c ∈ clients, c.id = dial.identity ∧ c.flow = keys.flow
  flow : dial.flow = some keys.clientFlow
  encryption : dial.encryption = some keys.encryption
  xhttp : dial.xhttpHost = some xhttp.host ∧ dial.xhttpPath = some xhttp.path

/-- The security of the direct inbound takes a dial. -/
def SecuritySettings.Accepts (node : HubNode) (keys : NodeKeys) (dial : Presented) :
    SecuritySettings → Prop
  | .realityListener reality =>
      dial.security = some "reality" ∧ (∃ name ∈ reality.serverNames, dial.sni = some name) ∧
        (∃ sid ∈ reality.shortIds, dial.shortId = some sid) ∧
        reality.privateKey = keys.realityPrivateKey ∧ dial.publicKey = some keys.realityPublicKey
  | .tlsListener _ => dial.security = some "tls" ∧ dial.sni = some node.hostname.val
  | .realityDialer _ | .tlsDialer _ => False

/-- The Hysteria listener a context renders takes a URL. -/
structure ShareUrl.HysteriaAccepted (url : ShareUrl) (ctx : HysteriaContext)
    (inbound : Inbound) : Prop where
  user : ∃ users, inbound.settings = .hysteria users ∧ url.identity ∈ users.map (·.auth)
  port : inbound.port = some url.port
  stream : ∃ mask, inbound.stream = some {
      transport := .hysteriaListener ctx.masqueradeUrl mask
      security := some (.tlsListener {
        certificates := ctx.certificates
        alpn := hysteriaAlpn }) } ∧
    url.param "obfs-password" = mask.obfsPassword
  sni : url.param "sni" = some ctx.sni
  pin : url.param "pinSHA256" = ctx.pin

/-- Every rendering of the hub node from the stored keys has the inbound and binds the socket. -/
structure Serves (crypto : Crypto) (cfg : ConglomerateConfig) (store : KeyStore)
    (p : HubRegion × HubNode) (keys : NodeKeys) (inbound : Inbound)
    (socket : ℕ × Transport) : Prop where
  placed : Placed.hub p.1 p.2 ∈ cfg.placed
  keys : store p.2.id.val = some keys
  rendered : ∀ config, renderHub crypto cfg store p.1 p.2 = .ok config →
    inbound ∈ config.inbounds ∧ socket ∈ config.sockets

/-- The direct inbound of the hub node takes a dial to the port. -/
def DirectAccepted (crypto : Crypto) (cfg : ConglomerateConfig) (store : KeyStore)
    (p : HubRegion × HubNode) (keys : NodeKeys) (dial : Presented) (port : ℕ) : Prop :=
  ∃ ctx inbound, buildXhttp (hubEnv crypto cfg p.1 p.2 keys) = .ok ctx ∧
    inbound = ctx.fragment (makeShared cfg (.hub p.1) (.hub p.2) keys) ∧
    Serves crypto cfg store p keys inbound (port, .tcp) ∧
    ∃ xhttp security,
      inbound.stream = some { transport := .xhttp xhttp, security := some security } ∧
      dial.Accepted keys inbound xhttp ∧ security.Accepts p.2 keys dial

/-- The CDN inbound of the hub node takes a URL. It listens behind HAProxy, which knows it by the
SNI. -/
def CdnAccepted (crypto : Crypto) (cfg : ConglomerateConfig) (store : KeyStore)
    (p : HubRegion × HubNode) (keys : NodeKeys) (url : ShareUrl) : Prop :=
  ∃ ctx inbound, buildCdn (hubEnv crypto cfg p.1 p.2 keys) = .ok (some ctx) ∧
    inbound = ctx.fragment (makeShared cfg (.hub p.1) (.hub p.2) keys) ∧
    Serves crypto cfg store p keys inbound (url.port, .tcp) ∧
    (∃ xhttp, inbound.stream = some { transport := .xhttp xhttp } ∧
      url.presented.Accepted keys inbound xhttp) ∧
    url.presented.security = some "tls" ∧ url.presented.sni = some ctx.domain ∧
    ∀ config, renderHub crypto cfg store p.1 p.2 = .ok config → config.haproxy = true

/-- The inbound of a kind on the hub node takes a URL. -/
def UrlAccepted (crypto : Crypto) (cfg : ConglomerateConfig) (store : KeyStore)
    (p : HubRegion × HubNode) (keys : NodeKeys) (url : ShareUrl) : ShareKind → Prop
  | .direct =>
      url.scheme = .vless ∧ url.host = p.2.hostname.val ∧
        DirectAccepted crypto cfg store p keys url.presented url.port
  | .cdn => url.scheme = .vless ∧ CdnAccepted crypto cfg store p keys url
  | .hysteria =>
      url.scheme = .hysteria2 ∧ url.host = p.2.hostname.val ∧
        ∃ ctx inbound, buildHysteria (hubEnv crypto cfg p.1 p.2 keys) = .ok (some ctx) ∧
          inbound = ctx.fragment (makeShared cfg (.hub p.1) (.hub p.2) keys) ∧
          Serves crypto cfg store p keys inbound (url.port, .udp) ∧
          url.HysteriaAccepted ctx inbound

/-! ## Rendered inbounds -/

section Rendered

variable {p : HubRegion × HubNode} {keys : NodeKeys}

theorem placed_of_mem (hp : p ∈ hubNodePairs cfg) : Placed.hub p.1 p.2 ∈ cfg.placed := by
  obtain ⟨hregion, hnode⟩ := mem_hubNodePairs.mp hp
  exact List.mem_flatMap.mpr ⟨.hub p.1, hregion, List.mem_map_of_mem hnode⟩

theorem buildCdn_isSome {ctx : CdnContext}
    (h : buildCdn (hubEnv crypto cfg p.1 p.2 keys) = .ok (some ctx)) :
    cfg.global.cdn.isSome = true ∧ p.1.cdnXhttpPath.isSome = true := by
  unfold buildCdn at h
  split at h
  · rename_i cdn path hcdn hpath
    exact ⟨Option.isSome_iff_exists.mpr ⟨cdn, hcdn⟩, Option.isSome_iff_exists.mpr ⟨path, hpath⟩⟩
  · cases h

/-- What renders from stored keys holds the slots built with them. -/
theorem rendered_slots (hkeys : store p.2.id.val = some keys) {config : XrayConfig}
    (h : renderHub crypto cfg store p.1 p.2 = .ok config) :
    ∃ hr : HubRendered crypto cfg p.1 p.2 config,
      HubSlots (hubEnv crypto cfg p.1 p.2 keys) hr.ctx.slots ∧
        hr.ctx.shared = makeShared cfg (.hub p.1) (.hub p.2) keys := by
  obtain ⟨hr, hstored⟩ := renderHub_loaded h
  rw [hkeys] at hstored
  cases hstored
  exact ⟨hr, buildSlots_hub hr.slots, hr.shared⟩

theorem HubRendered.binds_edge {region : HubRegion} {node : HubNode} {config : XrayConfig}
    (h : HubRendered crypto cfg region node config) :
    (realityInboundPort, .tcp) ∈ config.sockets := by
  rw [h.sockets_perm.mem_iff, h.ownSockets]
  simp

theorem mem_sockets_of_inbound {config : XrayConfig} {inbound : Inbound}
    (hmem : inbound ∈ config.inbounds) {socket : ℕ × Transport}
    (hsocket : socket ∈ inbound.sockets) : socket ∈ config.sockets := by
  rw [XrayConfig.sockets]
  apply List.mem_append_left
  apply List.mem_append_right
  exact List.mem_flatMap.mpr ⟨inbound, hmem, hsocket⟩

/-- An inbound of the slots built from the stored keys is served on a socket it binds. -/
theorem serves_of_slots (hp : p ∈ hubNodePairs cfg) (hkeys : store p.2.id.val = some keys)
    {inbound : Inbound} {socket : ℕ × Transport}
    (hinbound : ∀ slots, HubSlots (hubEnv crypto cfg p.1 p.2 keys) slots →
      inbound ∈ buildInbounds slots (makeShared cfg (.hub p.1) (.hub p.2) keys))
    (hsocket : ∀ config, HubRendered crypto cfg p.1 p.2 config → inbound ∈ config.inbounds →
      socket ∈ config.sockets) : Serves crypto cfg store p keys inbound socket := by
  refine ⟨placed_of_mem hp, hkeys, fun config h => ?_⟩
  obtain ⟨hr, hslots, hshared⟩ := rendered_slots hkeys h
  have hmem : inbound ∈ config.inbounds := by
    rw [hr.inbounds_eq, hshared]
    exact List.mem_append_left _ (hinbound _ hslots)
  exact ⟨hmem, hsocket config hr hmem⟩

theorem serves_direct (hp : p ∈ hubNodePairs cfg) (hkeys : store p.2.id.val = some keys)
    {ctx : XhttpContext} (hctx : buildXhttp (hubEnv crypto cfg p.1 p.2 keys) = .ok ctx) :
    Serves crypto cfg store p keys
      (ctx.fragment (makeShared cfg (.hub p.1) (.hub p.2) keys)) (realityInboundPort, .tcp) := by
  refine serves_of_slots hp hkeys (fun slots hslots => ?_) fun _ hr _ => hr.binds_edge
  have hslot : slots.xhttp = ctx := (Except.ok.inj (hctx.symm.trans hslots.xhttp)).symm
  simp [buildInbounds, hslot]

theorem serves_cdn (h : Accepted cfg) (hp : p ∈ hubNodePairs cfg)
    (hkeys : store p.2.id.val = some keys) {ctx : CdnContext}
    (hctx : buildCdn (hubEnv crypto cfg p.1 p.2 keys) = .ok (some ctx)) :
    Serves crypto cfg store p keys
        (ctx.fragment (makeShared cfg (.hub p.1) (.hub p.2) keys)) (realityInboundPort, .tcp) ∧
      ∀ config, renderHub crypto cfg store p.1 p.2 = .ok config → config.haproxy = true := by
  constructor
  · refine serves_of_slots hp hkeys (fun slots hslots => ?_) fun _ hr _ => hr.binds_edge
    have hslot : slots.cdn = some ctx := (Except.ok.inj (hctx.symm.trans hslots.cdn)).symm
    simp [buildInbounds, hslot]
  · intro config hrender
    obtain ⟨hr, -, hshared⟩ := rendered_slots hkeys hrender
    obtain ⟨hregion, hnode⟩ := mem_hubNodePairs.mp hp
    have hok := ((h.region _ hregion).node _ (List.mem_map_of_mem hnode)).cdn
    obtain ⟨hcdn, hpath⟩ := buildCdn_isSome hctx
    rw [hr.config_eq]
    have hhaproxy : hr.ctx.shared.haproxy =
        resolveNodeHaproxy (.hub p.2) (.hub p.1) cfg.defaults := by
      rw [hshared]
      rfl
    rw [buildHubConfig, hhaproxy]
    by_contra hoff
    exact hok ⟨hcdn, hpath, hoff⟩

theorem serves_hysteria (hp : p ∈ hubNodePairs cfg) (hkeys : store p.2.id.val = some keys)
    {ctx : HysteriaContext}
    (hctx : buildHysteria (hubEnv crypto cfg p.1 p.2 keys) = .ok (some ctx)) :
    Serves crypto cfg store p keys
      (ctx.fragment (makeShared cfg (.hub p.1) (.hub p.2) keys)) (ctx.config.port.val, .udp) := by
  refine serves_of_slots hp hkeys (fun slots hslots => ?_) fun config _ hmem => ?_
  · have hslot : slots.hysteria = some ctx :=
      (Except.ok.inj (hctx.symm.trans hslots.hysteria)).symm
    simp [buildInbounds, hslot]
  · apply mem_sockets_of_inbound hmem
    simp [Inbound.sockets, Inbound.transports, HysteriaContext.fragment]

end Rendered

/-! ## What is built is accepted -/

theorem mem_of_firstName {names : List String} {name : String} (h : firstName names = .ok name) :
    name ∈ names := by
  cases names with
  | nil => cases h
  | cons first rest =>
      cases h
      exact List.mem_cons_self

/-- A direct URL, by the security of the inbound. -/
theorem XhttpContext.shareUrl_eq_ok {ctx : XhttpContext} {env : InboundEnv} {client : ShareClient}
    {url : ShareUrl} (h : ctx.shareUrl env client = .ok url) :
    url.scheme = .vless ∧ url.host = env.node.hostname.val ∧ url.port = 443 ∧
      url.identity = client.uuid ∧
      url.presented.encryption = some env.nodeKeys.encryption ∧
      url.presented.flow = some env.nodeKeys.clientFlow ∧
      url.presented.xhttpHost = some ctx.xhttpHost ∧
      url.presented.xhttpPath = some ctx.xhttpPath ∧
      match ctx.security with
      | .tls _ =>
          url.presented.security = some "tls" ∧
            url.presented.sni = some env.node.hostname.val
      | .reality _ _ serverNames _ _ =>
          url.presented.security = some "reality" ∧
            (∃ name ∈ serverNames, url.presented.sni = some name) ∧
            url.presented.shortId = some client.shortId ∧
            url.presented.publicKey = some env.nodeKeys.realityPublicKey := by
  simp only [XhttpContext.shareUrl, bind_eq_ok, pure_eq_ok] at h
  obtain ⟨params, hparams, rfl⟩ := h
  cases hsecurity : ctx.security with
  | tls certificate =>
      rw [hsecurity] at hparams
      cases hparams
      exact ⟨rfl, rfl, rfl, rfl, rfl, rfl, rfl, rfl, rfl, rfl⟩
  | reality shortIds dest serverNames privateKey limits =>
      simp only [hsecurity, directParams, bind_eq_ok, pure_eq_ok] at hparams
      obtain ⟨name, hname, rfl⟩ := hparams
      exact ⟨rfl, rfl, rfl, rfl, rfl, rfl, rfl, rfl, rfl, ⟨name, mem_of_firstName hname, rfl⟩, rfl,
        rfl⟩

/-- The client entry of an identity is found by its UUID. -/
theorem exists_client {is : List Identity} {i : Identity} (hi : i ∈ is) {uuid5 : Uuid5}
    {ns : Namespace} {flow : String} {clients : List ClientEntry}
    (hclients : clients = is.map (Identity.client uuid5 ns flow)) :
    ∃ c ∈ clients, c.id = i.uuid uuid5 ns ∧ c.flow = flow := by
  rw [hclients]
  exact ⟨_, List.mem_map_of_mem hi, rfl, rfl⟩

section Accepted

variable {p : HubRegion × HubNode} {keys : NodeKeys} {i : Identity} {client : ShareClient}
  {url : ShareUrl}

theorem direct_accepted (hp : p ∈ hubNodePairs cfg) (hkeys : store p.2.id.val = some keys)
    {tls : Option TlsConfig} (htls : resolveRegionTls p.1 cfg.defaults = .ok tls)
    (hi : i ∈ directIdentities cfg tls) (huuid : client.uuid = i.uuid crypto.uuid5 cfg.ns)
    (hshort : tls = none → client.shortId ∈ hubShortIds crypto cfg)
    (h : nodeShareUrl (hubEnv crypto cfg p.1 p.2 keys) client .direct = .ok (some url)) :
    UrlAccepted crypto cfg store p keys url .direct := by
  simp only [nodeShareUrl, bind_eq_ok, pure_eq_ok, Option.some.injEq] at h
  obtain ⟨ctx, hctx, _, hurl, rfl⟩ := h
  obtain ⟨hscheme, hhost, hport, hidentity, hencryption, hflow, hxhost, hxpath, hsecurity⟩ :=
    XhttpContext.shareUrl_eq_ok hurl
  obtain ⟨tls', htls', hclients⟩ := buildXhttp_clients hctx
  rw [htls] at htls'
  cases htls'
  obtain ⟨c, hc, hid, hcflow⟩ := exists_client hi hclients
  refine ⟨hscheme, hhost, ctx, _, hctx, rfl, hport ▸ serves_direct hp hkeys hctx, _, _, rfl,
    ?_, ?_⟩
  · exact {
      client := ⟨_, rfl, c, hc, hid.trans (huuid.symm.trans hidentity.symm), hcflow⟩
      flow := hflow
      encryption := hencryption
      xhttp := ⟨hxhost, hxpath⟩ }
  · rcases buildXhttp_security hctx with
      ⟨_, certificate, -, heq⟩ | ⟨hnone, dest, names, limits, heq⟩
    · rw [heq] at hsecurity ⊢
      exact hsecurity
    · rw [htls] at hnone
      cases hnone
      rw [heq] at hsecurity ⊢
      obtain ⟨hname, hsni, hsid, hpublic⟩ := hsecurity
      exact ⟨hname, hsni, ⟨_, hshort rfl, hsid⟩, rfl, hpublic⟩

theorem cdn_accepted (h : Accepted cfg) (hp : p ∈ hubNodePairs cfg)
    (hkeys : store p.2.id.val = some keys) (hi : i ∈ cfg.users.flatMap (User.granted .cdn true))
    (huuid : client.uuid = i.uuid crypto.uuid5 cfg.ns)
    (hurl : nodeShareUrl (hubEnv crypto cfg p.1 p.2 keys) client .cdn = .ok (some url)) :
    UrlAccepted crypto cfg store p keys url .cdn := by
  simp only [nodeShareUrl, bind_eq_ok, pure_eq_ok, Option.map_eq_some_iff] at hurl
  obtain ⟨_, hslot, ctx, rfl, rfl⟩ := hurl
  obtain ⟨hserves, hhaproxy⟩ := serves_cdn h hp hkeys hslot
  obtain ⟨c, hc, hid, hflow⟩ := exists_client hi (buildCdn_clients hslot ctx rfl)
  refine ⟨rfl, ctx, _, hslot, rfl, hserves, ⟨_, rfl, ?_⟩, rfl, rfl, hhaproxy⟩
  exact {
    client := ⟨_, rfl, c, hc, hid.trans huuid.symm, hflow⟩
    flow := rfl
    encryption := rfl
    xhttp := ⟨rfl, rfl⟩ }

theorem hysteria_accepted (hp : p ∈ hubNodePairs cfg) (hkeys : store p.2.id.val = some keys)
    (hi : i ∈ cfg.users.flatMap (User.granted .hysteria true))
    (huuid : client.uuid = i.uuid crypto.uuid5 cfg.ns)
    (h : nodeShareUrl (hubEnv crypto cfg p.1 p.2 keys) client .hysteria = .ok (some url)) :
    UrlAccepted crypto cfg store p keys url .hysteria := by
  simp only [nodeShareUrl, bind_eq_ok, pure_eq_ok, Option.map_eq_some_iff] at h
  obtain ⟨_, hslot, ctx, rfl, rfl⟩ := h
  refine ⟨rfl, rfl, ctx, _, hslot, rfl, serves_hysteria hp hkeys hslot, ?_⟩
  have husers := buildHysteria_users hslot ctx rfl
  constructor
  · refine ⟨_, rfl, ?_⟩
    rw [husers, List.map_map]
    exact List.mem_map.mpr ⟨i, hi, huuid.symm⟩
  · rfl
  · refine ⟨_, rfl, ?_⟩
    cases hobfs : ctx.obfsPassword <;> cases hpin : ctx.pin <;>
      simp [HysteriaContext.shareUrl, ShareUrl.param, List.lookup_cons, makeHysteriaFinalmask,
        hobfs, hpin]
  · rfl
  · cases hobfs : ctx.obfsPassword <;> cases hpin : ctx.pin <;>
      simp [HysteriaContext.shareUrl, ShareUrl.param, List.lookup_cons, hobfs, hpin]

end Accepted

/-- The URLs of one identity are those of the loop of their kind. -/
theorem shareUrlsOf_eq_ok {user : User} {req : ShareRequest} {fingerprint : String}
    {cdn hysteria : Bool} {urls : List (String × ShareUrl)}
    (h : shareUrlsOf crypto cfg store fingerprint cdn hysteria user req = .ok urls) :
    ∃ kind i shortId pairs, shareKind cdn hysteria = .ok kind ∧
      checkShareAccess user req kind = .ok () ∧ Asks user req.guest req.server i ∧
      clientShortId crypto cfg user req = .ok shortId ∧
      requestedPairs cfg req.hubId = .ok pairs ∧
      kindShareUrls crypto cfg store (i.resolved crypto.uuid5 cfg.ns) shortId fingerprint user
        req.server pairs kind = .ok urls := by
  simp only [shareUrlsOf, bind_eq_ok, pure_eq_ok, ensure_eq_ok, exists_const] at h
  obtain ⟨kind, hkind, _, haccess, identity, hidentity, shortId, hshort, pairs, hpairs, results,
    hresults, -, rfl⟩ := h
  obtain ⟨i, hasks, rfl⟩ := resolveIdentity_eq_ok.mp hidentity
  exact ⟨kind, i, shortId, pairs, hkind, haccess, hasks, hshort, hpairs, hresults⟩

/-- Every URL built for one identity is taken by a requested hub node. -/
theorem shareUrlsOf_accepted (h : Accepted cfg) {user : User} (hu : user ∈ cfg.users)
    {req : ShareRequest} (hname : user.username.val = req.username) {fingerprint : String}
    {cdn hysteria : Bool} {urls : List (String × ShareUrl)}
    (hurls : shareUrlsOf crypto cfg store fingerprint cdn hysteria user req = .ok urls) :
    ∃ kind i pairs, shareKind cdn hysteria = .ok kind ∧ Asks user req.guest req.server i ∧
      requestedPairs cfg req.hubId = .ok pairs ∧
      ∀ e ∈ urls, e.2.identity = i.uuid crypto.uuid5 cfg.ns ∧
        ∃ p ∈ pairs, ∃ keys, UrlAccepted crypto cfg store p keys e.2 kind := by
  obtain ⟨kind, i, shortId, pairs, hkind, haccess, hasks, hshort, hpairs, hresults⟩ :=
    shareUrlsOf_eq_ok hurls
  refine ⟨kind, i, pairs, hkind, hasks, hpairs, fun e he => ?_⟩
  have hshared : ∀ {p}, SharedFrom crypto cfg store (i.resolved crypto.uuid5 cfg.ns) shortId
      fingerprint kind p e.2 → e.2.identity = i.uuid crypto.uuid5 cfg.ns := by
    rintro p ⟨keys, fragment, -, hurl⟩
    exact nodeShareUrl_identity hurl
  cases kind with
  | cdn =>
      simp only [kindShareUrls, cdnShareUrls, bind_eq_ok] at hresults
      obtain ⟨_, -, hresults⟩ := hresults
      obtain ⟨p, hp, hfrom⟩ := sharedFrom_cdn hresults he
      refine ⟨hshared hfrom, p, hp, ?_⟩
      obtain ⟨keys, fragment, hkeys, hurl⟩ := hfrom
      have hi := hasks.mem_granted hu (ensure_eq_ok.mp haccess)
      exact ⟨keys, cdn_accepted h (mem_requestedPairs hpairs hp) hkeys hi rfl hurl⟩
  | hysteria =>
      obtain ⟨p, hp, hfrom⟩ := sharedFrom_hysteria hresults he
      refine ⟨hshared hfrom, p, hp, ?_⟩
      obtain ⟨keys, fragment, hkeys, hurl⟩ := hfrom
      have hi := hasks.mem_granted hu (ensure_eq_ok.mp haccess)
      exact ⟨keys, hysteria_accepted (mem_requestedPairs hpairs hp) hkeys hi rfl hurl⟩
  | direct =>
      obtain ⟨p, hp, ⟨tls, htls, hcovered⟩, hfrom⟩ := mem_directShareUrlsFrom hresults he
      refine ⟨hshared hfrom, p, hp, ?_⟩
      obtain ⟨keys, fragment, hkeys, hurl⟩ := hfrom
      refine ⟨keys, direct_accepted (mem_requestedPairs hpairs hp) hkeys htls
        (hasks.mem_directIdentities hu hcovered) rfl ?_ hurl⟩
      rintro rfl
      exact mem_hubShortIds hu hname hasks (by simpa [directAccess] using hcovered) hshort

/-! ## Portals -/

/-- The outbound with which a portal dials a hub node is taken there. -/
theorem reverseDial_accepted {portal : Portal} (hportal : portal ∈ cfg.portals)
    {p : HubRegion × HubNode} (hp : p ∈ hubNodePairs cfg) {keys : NodeKeys}
    (hkeys : store p.2.id.val = some keys) {fingerprint : String} {dial : ReverseDial}
    (h : reverseDialOutbound crypto cfg portal p.1 p.2 keys fingerprint = .ok dial) :
    dial.address = p.2.hostname.val ∧
      DirectAccepted crypto cfg store p keys dial.presented dial.port := by
  simp only [reverseDialOutbound, bind_eq_ok, pure_eq_ok] at h
  obtain ⟨ctx, hctx, security, hsecurity, rfl⟩ := h
  obtain ⟨tls, htls, hclients⟩ := buildXhttp_clients hctx
  have hi : Identity.portal portal ∈ directIdentities cfg tls :=
    List.mem_append_right _ (List.mem_map_of_mem hportal)
  obtain ⟨c, hc, hid, hflow⟩ := exists_client hi hclients
  refine ⟨rfl, ctx, _, hctx, rfl, serves_direct hp hkeys hctx, _, _, rfl, ?_, ?_⟩
  · exact {
      client := ⟨_, rfl, c, hc, hid, hflow⟩
      flow := rfl
      encryption := rfl
      xhttp := ⟨rfl, rfl⟩ }
  · rcases buildXhttp_security hctx with ⟨_, certificate, -, heq⟩ | ⟨-, dest, names, limits, heq⟩
    · rw [heq] at hsecurity ⊢
      cases hsecurity
      exact ⟨rfl, rfl⟩
    · rw [heq] at hsecurity ⊢
      simp only [dialSecurity, bind_eq_ok, pure_eq_ok] at hsecurity
      obtain ⟨name, hname, rfl⟩ := hsecurity
      refine ⟨rfl, ⟨name, mem_of_firstName hname, rfl⟩, ⟨_, ?_, rfl⟩, rfl, rfl⟩
      have hsid := List.mem_map_of_mem (f := fun q : Portal => cfg.ns.portalShortId crypto q.id.val)
        hportal
      exact List.mem_append_left _ (List.mem_append_right _ hsid)

/-- Every dial in a portal's config is taken by the hub node it is for. -/
def PortalAccepted (crypto : Crypto) (cfg : ConglomerateConfig) (store : KeyStore)
    (portalId : String) (config : PortalConfig) : Prop :=
  ∀ dial, PortalOutbound.reverse dial ∈ config.outbounds →
    ∃ portal ∈ cfg.portals, portal.id.val = portalId ∧
      dial.identity = cfg.ns.portalUuid crypto.uuid5 portal.id.val portal.uuid ∧
      ∃ p ∈ hubNodePairs cfg, ∃ keys, dial.address = p.2.hostname.val ∧
        DirectAccepted crypto cfg store p keys dial.presented dial.port

theorem buildPortalConfig_accepted {portalId fingerprint : String}
    {hubNodeKeys : String → Option NodeKeys} {config : PortalConfig}
    (hstored : ∀ p ∈ hubNodePairs cfg, hubNodeKeys p.2.id.val = store p.2.id.val)
    (h : buildPortalConfig crypto cfg portalId hubNodeKeys fingerprint = .ok config) :
    PortalAccepted crypto cfg store portalId config := by
  intro dial hdial
  obtain ⟨portal, hportal, hid, -, dials, hdials, houtbounds⟩ := buildPortalConfig_eq_ok h
  have hmem : dial ∈ dials := by
    rw [houtbounds] at hdial
    split at hdial <;> simpa using hdial
  obtain ⟨p, hp, hbuild⟩ := (mem_mapEach hdials).mp hmem
  obtain ⟨keys, hkeys, hreverse⟩ := dialHub_eq_ok hbuild
  rw [hstored p hp] at hkeys
  have hidentity : dial.identity = cfg.ns.portalUuid crypto.uuid5 portal.id.val portal.uuid := by
    simp only [reverseDialOutbound, bind_eq_ok, pure_eq_ok] at hreverse
    obtain ⟨_, -, _, -, rfl⟩ := hreverse
    rfl
  exact ⟨portal, hportal, hid, hidentity, p, hp, keys,
    reverseDial_accepted hportal hp hkeys hreverse⟩

theorem genPortal_accepted {portalId fingerprint : String} {config : PortalConfig}
    (h : genPortal crypto cfg store portalId fingerprint = .ok config) :
    PortalAccepted crypto cfg store portalId config := by
  simp only [genPortal, bind_eq_ok] at h
  obtain ⟨_, -, loaded, hloaded, h⟩ := h
  refine buildPortalConfig_accepted (fun p hp => ?_) h
  have hpairs : mapEach (hubNodePairs cfg) (fun p => do
      pure (p.2.id.val, ← loadNodeKeys store p.2.id.val)) = .ok loaded := hloaded
  exact lookup_loaded (fun p : HubRegion × HubNode => p.2.id.val) hpairs hp

/-- Every share URL, and every dial of a portal, is taken by the rendered inbound of the hub node
it is built for. -/
theorem handed_out_accepted (cfg : AcceptedConfig) :
    (∀ (req : ShareRequest) (fingerprint : String) (cdn hysteria : Bool)
        (urls : List (String × ShareUrl)),
      buildShareUrls crypto cfg.toConglomerateConfig store req fingerprint cdn hysteria =
          .ok urls →
        ∀ e ∈ urls, ∃ kind, shareKind cdn hysteria = .ok kind ∧
          (∃ user ∈ cfg.users, user.username.val = req.username ∧
            ∃ i ∈ identitiesOf user, e.2.identity = i.uuid crypto.uuid5 cfg.ns) ∧
          ∃ pairs, requestedPairs cfg.toConglomerateConfig req.hubId = .ok pairs ∧
            ∃ p ∈ pairs, ∃ keys,
              UrlAccepted crypto cfg.toConglomerateConfig store p keys e.2 kind) ∧
    (∀ (portalId fingerprint : String) (hubNodeKeys : String → Option NodeKeys)
        (config : PortalConfig),
      (∀ p ∈ hubNodePairs cfg.toConglomerateConfig,
        hubNodeKeys p.2.id.val = store p.2.id.val) →
      buildPortalConfig crypto cfg.toConglomerateConfig portalId hubNodeKeys fingerprint =
          .ok config →
        PortalAccepted crypto cfg.toConglomerateConfig store portalId config) ∧
    ∀ (portalId fingerprint : String) (config : PortalConfig),
      genPortal crypto cfg.toConglomerateConfig store portalId fingerprint = .ok config →
        PortalAccepted crypto cfg.toConglomerateConfig store portalId config := by
  refine ⟨?_, fun _ _ _ _ => buildPortalConfig_accepted, fun _ _ _ => genPortal_accepted⟩
  intro req fingerprint cdn hysteria urls h e he
  obtain ⟨user, huser⟩ := resolveUser_of_perIdentity h
  obtain ⟨hu, hname⟩ := resolveUser_eq_ok huser
  obtain ⟨one, hone, part, hpart, hmem⟩ := (mem_perIdentity huser h).mp he
  obtain ⟨husername, hhub⟩ := fields_of_mem_parts hone
  obtain ⟨kind, i, pairs, hkind, hasks, hpairs, haccepted⟩ :=
    shareUrlsOf_accepted cfg.spec hu (hname.trans husername.symm) hpart
  obtain ⟨hidentity, p, hp, keys, hurl⟩ := haccepted e hmem
  rw [hhub] at hpairs
  exact ⟨kind, hkind, ⟨user, hu, hname, i, hasks.mem_identitiesOf, hidentity⟩, pairs, hpairs, p, hp,
    keys, hurl⟩

theorem handed_out_accepted_office :
    (∃ urls, buildShareUrls Sample.officeCrypto Sample.office.toConglomerateConfig
        Sample.officeStore { username := "alice", allGuests := true } "chrome" = .ok urls ∧
      urls ≠ [] ∧ ∀ e ∈ urls, ∃ p keys, UrlAccepted Sample.officeCrypto
        Sample.office.toConglomerateConfig Sample.officeStore p keys e.2 .direct) ∧
    ∃ config, genPortal Sample.officeCrypto Sample.office.toConglomerateConfig Sample.officeStore
        "nas" "chrome" = .ok config ∧
      PortalAccepted Sample.officeCrypto Sample.office.toConglomerateConfig Sample.officeStore
        "nas" config := by
  obtain ⟨hurls, -, hportal⟩ :=
    @handed_out_accepted Sample.officeCrypto Sample.officeStore Sample.office
  constructor
  · obtain ⟨urls, h⟩ := isOk_iff.mp (show (buildShareUrls Sample.officeCrypto
      Sample.office.toConglomerateConfig Sample.officeStore
      { username := "alice", allGuests := true } "chrome").isOk = true by decide)
    refine ⟨urls, h, ?_, fun e he => ?_⟩
    · rintro rfl
      revert h
      decide
    · obtain ⟨kind, hkind, -, pairs, -, p, -, keys, haccepted⟩ := hurls _ _ _ _ _ h e he
      cases hkind
      exact ⟨p, keys, haccepted⟩
  · obtain ⟨config, h⟩ := isOk_iff.mp (show (genPortal Sample.officeCrypto
      Sample.office.toConglomerateConfig Sample.officeStore "nas" "chrome").isOk = true by decide)
    exact ⟨config, h, hportal _ _ _ h⟩

end HexRift
