import HexRift.Verification.Sharing

/-! # Hub nodes merged into one share URL

Each kind of share URL is built by a loop that skips a node when it takes it to be served by a
URL it has emitted. -/

namespace HexRift

open Checks

variable {cfg : ConglomerateConfig} {crypto : Crypto} {store : KeyStore}

/-! ## URLs that make the same connection -/

/-- The URLs differ at most in the host they dial and in their display name. -/
def ShareUrl.SameConnection (u v : ShareUrl) : Prop :=
  { u with host := v.host, fragment := v.fragment } = v

theorem sameConnection_iff {u v : ShareUrl} :
    u.SameConnection v ↔ u.scheme = v.scheme ∧ u.identity = v.identity ∧ u.port = v.port ∧
      u.params = v.params := by
  cases u
  cases v
  simp [ShareUrl.SameConnection]

theorem ShareUrl.SameConnection.param {u v : ShareUrl} (h : u.SameConnection v) (name : String) :
    u.param name = v.param name := by
  obtain ⟨-, -, -, hparams⟩ := sameConnection_iff.mp h
  rw [ShareUrl.param, ShareUrl.param, hparams]

/-- Clients that differ at most in their display name. -/
def ShareClient.Same (c d : ShareClient) : Prop :=
  c.uuid = d.uuid ∧ c.shortId = d.shortId ∧ c.fingerprint = d.fingerprint

theorem same_shareClient (identity : ResolvedIdentity) (shortId fingerprint f f' : String) :
    (shareClient identity shortId fingerprint f).Same
      (shareClient identity shortId fingerprint f') :=
  ⟨rfl, rfl, rfl⟩

/-- Endpoint material covers all of a Hysteria URL. -/
theorem hysteria_sameConnection {ctx ctx' : HysteriaContext} {env env' : InboundEnv}
    {client client' : ShareClient} (hmaterial : ctx.material = ctx'.material)
    (hclient : client.Same client') :
    (ctx.shareUrl env client).SameConnection (ctx'.shareUrl env' client') := by
  simp only [HysteriaContext.material, Prod.mk.injEq] at hmaterial
  obtain ⟨hport, hsni, hpin, hobfs⟩ := hmaterial
  exact sameConnection_iff.mpr
    ⟨rfl, hclient.1, hport, by simp only [HysteriaContext.shareUrl, hsni, hpin, hobfs]⟩

/-- Context and keys cover all of a Reality URL. -/
theorem reality_sameConnection {ctx : XhttpContext} {env env' : InboundEnv}
    {client client' : ShareClient} {url url' : ShareUrl}
    (hsecurity : ∀ certificate, ctx.security ≠ .tls certificate)
    (hkeys : env.nodeKeys = env'.nodeKeys) (hclient : client.Same client')
    (h : ctx.shareUrl env client = .ok url) (h' : ctx.shareUrl env' client' = .ok url') :
    url.SameConnection url' := by
  obtain ⟨huuid, hshort, hfingerprint⟩ := hclient
  have hparams : directParams env client ctx.security = directParams env' client' ctx.security := by
    cases hcase : ctx.security with
    | tls certificate => exact absurd hcase (hsecurity certificate)
    | reality shortIds dest names privateKey limits =>
        simp only [directParams, hkeys, hshort, hfingerprint]
  simp only [XhttpContext.shareUrl, bind_eq_ok, pure_eq_ok] at h h'
  obtain ⟨params, hown, rfl⟩ := h
  obtain ⟨params', hother, rfl⟩ := h'
  rw [hparams, hother] at hown
  cases hown
  exact sameConnection_iff.mpr ⟨rfl, huuid, rfl, by rw [hkeys]; rfl⟩

/-- The same node shared under another name. -/
theorem direct_sameConnection {ctx : XhttpContext} {env : InboundEnv}
    {client client' : ShareClient} {url url' : ShareUrl} (hclient : client.Same client')
    (h : ctx.shareUrl env client = .ok url) (h' : ctx.shareUrl env client' = .ok url') :
    url.SameConnection url' := by
  obtain ⟨huuid, hshort, hfingerprint⟩ := hclient
  have hparams : directParams env client ctx.security = directParams env client' ctx.security := by
    cases ctx.security <;> simp only [directParams, hshort, hfingerprint]
  simp only [XhttpContext.shareUrl, bind_eq_ok, pure_eq_ok] at h h'
  obtain ⟨params, hown, rfl⟩ := h
  obtain ⟨params', hother, rfl⟩ := h'
  rw [hparams, hother] at hown
  cases hown
  exact sameConnection_iff.mpr ⟨rfl, huuid, rfl, rfl⟩

theorem clientFlow_congr {keys keys' : NodeKeys} (h : keys.encryption = keys'.encryption) :
    keys.clientFlow = keys'.clientFlow := by
  rw [NodeKeys.clientFlow, NodeKeys.clientFlow, NodeKeys.encryptionEnabled,
    NodeKeys.encryptionEnabled, h]

/-- The parameters of CDN URLs that differ between the nodes of a topology. -/
theorem cdn_sameConnection {ctx ctx' : CdnContext} {env env' : InboundEnv}
    {client client' : ShareClient} (hclient : client.Same client')
    (hdomain : ctx.domain = ctx'.domain) (hhost : ctx.xhttpHost = ctx'.xhttpHost)
    (hpath : ctx.xhttpPath = ctx'.xhttpPath)
    (hencryption : env.nodeKeys.encryption = env'.nodeKeys.encryption) :
    (ctx.shareUrl env client).SameConnection (ctx'.shareUrl env' client') := by
  obtain ⟨huuid, hshort, hfingerprint⟩ := hclient
  have hflow := clientFlow_congr hencryption
  refine sameConnection_iff.mpr ⟨rfl, huuid, rfl, ?_⟩
  simp only [CdnContext.shareUrl, vlessShareUrl, hencryption, hflow, hdomain, hhost, hpath,
    hshort, hfingerprint]

theorem path_encryption_of_same {ctx ctx' : CdnContext} {env env' : InboundEnv}
    {client client' : ShareClient}
    (h : (ctx.shareUrl env client).SameConnection (ctx'.shareUrl env' client')) :
    ctx.xhttpPath = ctx'.xhttpPath ∧ env.nodeKeys.encryption = env'.nodeKeys.encryption := by
  have hpath : some ctx.xhttpPath = some ctx'.xhttpPath := h.param "path"
  have hencryption : some env.nodeKeys.encryption = some env'.nodeKeys.encryption :=
    h.param "encryption"
  exact ⟨Option.some.inj hpath, Option.some.inj hencryption⟩

/-! ## What the loops cover -/

section Loops

variable {identity : ResolvedIdentity} {shortId fingerprint : String} {p : HubRegion × HubNode}
  {keys : NodeKeys}

theorem covers_hysteriaShareUrls {pairs : List (HubRegion × HubNode)}
    {results : List (String × ShareUrl)}
    (h : hysteriaShareUrls crypto cfg store identity shortId fingerprint pairs = .ok results)
    (hp : p ∈ pairs) (hkeys : store p.2.id.val = some keys) {ctx : HysteriaContext}
    (hctx : buildHysteria (hubEnv crypto cfg p.1 p.2 keys) = .ok (some ctx))
    {client : ShareClient}
    (hclient : ∀ f, (shareClient identity shortId fingerprint f).Same client) :
    ∃ e ∈ results, e.2.SameConnection (ctx.shareUrl (hubEnv crypto cfg p.1 p.2 keys) client) := by
  obtain ⟨slots, hslots, hmem⟩ := mem_hysteriaShareUrls h
  have hl := (mem_listeners hslots).mpr ⟨p, hp, keys, ctx, hkeys, hctx, rfl⟩
  obtain ⟨m, hm, hendpoint⟩ := @Distinct.exists_mem_firstBy _ _ _ HysteriaListener.endpoint []
    _ _ hl List.not_mem_nil
  obtain ⟨f, hurl⟩ := hysteriaShareUrl_snd identity shortId fingerprint (slots.filterMap id) m
  refine ⟨_, (hmem _).mpr ⟨m, hm, rfl⟩, ?_⟩
  rw [hurl]
  exact hysteria_sameConnection (congrArg Prod.snd hendpoint) (hclient f)

section Direct

variable {user : User} {server : Bool} {q : HubRegion × HubNode}
  {emitted emitted' : List (String × XhttpContext × NodeKeys)} {entry : Option (String × ShareUrl)}
  {ctx : XhttpContext} {client : ShareClient} {url : ShareUrl}

/-- A direct URL that makes the node's connection is emitted, or the node's material was before. -/
def DirectCovered (p : HubRegion × HubNode) (keys : NodeKeys) (ctx : XhttpContext) (url : ShareUrl)
    (emitted : List (String × XhttpContext × NodeKeys)) (results : List (String × ShareUrl)) :
    Prop :=
  (∃ e ∈ results, e.2.SameConnection url) ∨
    (∀ certificate, ctx.security ≠ .tls certificate) ∧ (p.1.id.val, ctx, keys) ∈ emitted

theorem DirectNode.unique {keys' : NodeKeys} {ctx' : XhttpContext}
    (h : DirectNode crypto cfg store user server p keys ctx)
    (h' : DirectNode crypto cfg store user server p keys' ctx') : keys' = keys ∧ ctx' = ctx := by
  have hkeys : keys' = keys := Option.some.inj (h'.stored.symm.trans h.stored)
  subst hkeys
  exact ⟨rfl, Except.ok.inj (h'.built.symm.trans h.built)⟩

/-- The step of a node the user may use covers that node. -/
theorem DirectStep.covers_self
    (h : DirectStep crypto cfg store identity shortId fingerprint user server p emitted entry
      emitted')
    (hnode : DirectNode crypto cfg store user server p keys ctx)
    (hclient : ∀ f, (shareClient identity shortId fingerprint f).Same client)
    (hurl : ctx.shareUrl (hubEnv crypto cfg p.1 p.2 keys) client = .ok url) :
    DirectCovered p keys ctx url emitted entry.toList := by
  cases h with
  | skip htls haccess =>
      obtain ⟨tls, htls', haccess'⟩ := hnode.access
      rw [htls'] at htls
      cases htls
      rw [haccess'] at haccess
      cases haccess
  | merge hnode' hreality hemitted =>
      obtain ⟨rfl, rfl⟩ := hnode.unique hnode'
      exact .inr ⟨hreality, hemitted⟩
  | tls hnode' hown | reality hnode' hown =>
      obtain ⟨rfl, rfl⟩ := hnode.unique hnode'
      exact .inl ⟨_, List.mem_singleton_self _, direct_sameConnection (hclient _) hown hurl⟩

/-- What a step adds to the emitted material it also emits a URL for. -/
theorem DirectStep.covers_emitted
    (h : DirectStep crypto cfg store identity shortId fingerprint user server q emitted entry
      emitted')
    (hclient : ∀ f, (shareClient identity shortId fingerprint f).Same client)
    (hurl : ctx.shareUrl (hubEnv crypto cfg p.1 p.2 keys) client = .ok url)
    (hreality : ∀ certificate, ctx.security ≠ .tls certificate)
    (hseen : (p.1.id.val, ctx, keys) ∈ emitted') :
    DirectCovered p keys ctx url emitted entry.toList := by
  cases h with
  | skip | merge | tls => exact .inr ⟨hreality, hseen⟩
  | reality hnode hown =>
      rcases List.mem_cons.mp hseen with heq | hseen
      · obtain ⟨-, rfl, rfl⟩ : p.1.id.val = q.1.id.val ∧ ctx = _ ∧ keys = _ := by
          simpa using heq
        have hnodeKeys : (hubEnv crypto cfg q.1 q.2 keys).nodeKeys =
            (hubEnv crypto cfg p.1 p.2 keys).nodeKeys := rfl
        exact .inl ⟨_, List.mem_singleton_self _,
          reality_sameConnection hreality hnodeKeys (hclient _) hown hurl⟩
      · exact .inr ⟨hreality, hseen⟩

theorem DirectCovered.append {results : List (String × ShareUrl)}
    (h : DirectCovered p keys ctx url emitted results) (others : List (String × ShareUrl)) :
    DirectCovered p keys ctx url emitted (results ++ others) := by
  rcases h with ⟨e, he, hsame⟩ | hseen
  · exact .inl ⟨e, List.mem_append_left _ he, hsame⟩
  · exact .inr hseen

/-- A node the user may use has a URL that makes its connection, or its material was emitted
before. -/
theorem covers_directShareUrlsFrom {pairs : List (HubRegion × HubNode)}
    {results : List (String × ShareUrl)}
    (h : directShareUrlsFrom crypto cfg store identity shortId fingerprint user server emitted
      pairs = .ok results) (hp : p ∈ pairs)
    (hnode : DirectNode crypto cfg store user server p keys ctx)
    (hclient : ∀ f, (shareClient identity shortId fingerprint f).Same client)
    (hurl : ctx.shareUrl (hubEnv crypto cfg p.1 p.2 keys) client = .ok url) :
    DirectCovered p keys ctx url emitted results := by
  induction pairs generalizing emitted results with
  | nil => cases hp
  | cons q qs ih =>
      obtain ⟨entry, emitted', others, hstep, hothers, rfl⟩ := directShareUrlsFrom_cons h
      rcases List.mem_cons.mp hp with rfl | hmem
      · exact (hstep.covers_self hnode hclient hurl).append others
      · rcases ih hothers hmem with ⟨e, he, hsame⟩ | ⟨hreality, hseen⟩
        · exact .inl ⟨e, List.mem_append_right _ he, hsame⟩
        · exact (hstep.covers_emitted hclient hurl hreality hseen).append others

end Direct

end Loops

/-! ## CDN URLs -/

/-- The CDN inbound of a hub node. -/
def hubCdnContext (crypto : Crypto) (cfg : ConglomerateConfig) (keys : NodeKeys) (cdn : CdnConfig)
    (path : XrayPath) : CdnContext :=
  { xhttpHost := cdn.hubDomain.val
    xhttpPath := path.val
    certAlias := firstLabel cdn.hubDomain.val
    domain := cdn.hubDomain.val
    clients := getHubAccessClients crypto.uuid5 cfg.ns cfg.users .cdn keys.flow true }

theorem buildCdn_eq_some {p : HubRegion × HubNode} {keys : NodeKeys} {ctx : CdnContext} :
    buildCdn (hubEnv crypto cfg p.1 p.2 keys) = .ok (some ctx) ↔
      ∃ cdn path, cfg.global.cdn = some cdn ∧ p.1.cdnXhttpPath = some path ∧
        ctx = hubCdnContext crypto cfg keys cdn path := by
  have hbuild : buildCdn (hubEnv crypto cfg p.1 p.2 keys) =
      .ok (cfg.global.cdn.bind fun cdn => p.1.cdnXhttpPath.map fun path =>
        hubCdnContext crypto cfg keys cdn path) := by
    have hpath : (Region.hub p.1).cdnXhttpPath = p.1.cdnXhttpPath := rfl
    simp only [buildCdn, hubEnv, hpath]
    cases cfg.global.cdn <;> cases p.1.cdnXhttpPath <;> rfl
  rw [hbuild]
  cases cfg.global.cdn <;> cases p.1.cdnXhttpPath <;> simp [eq_comm]

theorem xrayPath_ext {x y : XrayPath} (h : x.val = y.val) : x = y := by
  cases x
  cases y
  simpa using h

theorem hubRegion_eq (h : Accepted cfg) {p q : HubRegion × HubNode} (hp : p ∈ hubNodePairs cfg)
    (hq : q ∈ hubNodePairs cfg) (hid : regionId p = regionId q) : p.1 = q.1 :=
  Region.hub.inj (h.region_eq (mem_hubNodePairs.mp hp).1 (mem_hubNodePairs.mp hq).1 hid)

/-- Among the first nodes of the regions is one with the path and the encryption of a node. -/
def FirstServes (store : KeyStore) (pairs : List (HubRegion × HubNode)) (p : HubRegion × HubNode)
    (keys : NodeKeys) : Prop :=
  ∃ q ∈ Distinct.firstBy regionId [] pairs, ∃ first, store q.2.id.val = some first ∧
    q.1.cdnXhttpPath = p.1.cdnXhttpPath ∧ first.encryption = keys.encryption

section Cdn

variable {identity : ResolvedIdentity} {shortId fingerprint : String}
  {pairs : List (HubRegion × HubNode)} {results : List (String × ShareUrl)}
  {p : HubRegion × HubNode} {keys : NodeKeys} {ctx : CdnContext}

theorem covers_cdnShareUrlsFrom
    (h : cdnShareUrlsFrom crypto cfg store identity shortId fingerprint [] pairs = .ok results)
    (hctx : buildCdn (hubEnv crypto cfg p.1 p.2 keys) = .ok (some ctx))
    (hfirst : FirstServes store pairs p keys) {client : ShareClient}
    (hclient : ∀ f, (shareClient identity shortId fingerprint f).Same client) :
    ∃ e ∈ results, e.2.SameConnection (ctx.shareUrl (hubEnv crypto cfg p.1 p.2 keys) client) := by
  obtain ⟨cdn, path, hcdn, hpath, rfl⟩ := buildCdn_eq_some.mp hctx
  obtain ⟨q, hq, first, hstored, hqpath, hencryption⟩ := hfirst
  rw [hpath] at hqpath
  have hctx' : buildCdn (hubEnv crypto cfg q.1 q.2 first) =
      .ok (some (hubCdnContext crypto cfg first cdn path)) :=
    buildCdn_eq_some.mpr ⟨cdn, path, hcdn, hqpath, rfl⟩
  exact ⟨_, (mem_cdnShareUrlsFrom h).mpr ⟨q, hq, first, _, hstored, hctx', rfl⟩,
    cdn_sameConnection (hclient _) rfl rfl rfl hencryption⟩

/-- A CDN URL that makes the connection of a node is that of such a first node, whoever it is
for. -/
theorem firstServes_of_same
    (h : cdnShareUrlsFrom crypto cfg store identity shortId fingerprint [] pairs = .ok results)
    {e : String × ShareUrl} (he : e ∈ results)
    (hctx : buildCdn (hubEnv crypto cfg p.1 p.2 keys) = .ok (some ctx)) {client : ShareClient}
    (hsame : e.2.SameConnection (ctx.shareUrl (hubEnv crypto cfg p.1 p.2 keys) client)) :
    FirstServes store pairs p keys := by
  obtain ⟨cdn, path, -, hpath, rfl⟩ := buildCdn_eq_some.mp hctx
  obtain ⟨q, hq, first, ctx', hstored, hctx', rfl⟩ := (mem_cdnShareUrlsFrom h).mp he
  obtain ⟨cdn', path', -, hqpath, rfl⟩ := buildCdn_eq_some.mp hctx'
  obtain ⟨hval, hencryption⟩ := path_encryption_of_same hsame
  refine ⟨q, hq, first, hstored, ?_, hencryption⟩
  rw [hpath, hqpath, xrayPath_ext hval]

end Cdn

/-- Every node with a CDN inbound has its path and its encryption at one of the first nodes of the
regions. -/
def CdnMergeSafe (store : KeyStore) (pairs : List (HubRegion × HubNode)) : Prop :=
  ∀ p ∈ pairs, ∀ keys, store p.2.id.val = some keys → p.1.cdnXhttpPath.isSome = true →
    FirstServes store pairs p keys

/-- Nodes of a region that store the same keys are merged safely. -/
theorem cdnMergeSafe_of_shared (h : Accepted cfg) {pairs : List (HubRegion × HubNode)}
    (hpairs : ∀ p ∈ pairs, p ∈ hubNodePairs cfg)
    (hshared : ∀ p ∈ pairs, ∀ q ∈ pairs, p.1 = q.1 → store p.2.id.val = store q.2.id.val) :
    CdnMergeSafe store pairs := by
  intro p hp keys hkeys _
  obtain ⟨q, hq, hid⟩ :=
    @Distinct.exists_mem_firstBy _ _ _ regionId [] pairs p hp List.not_mem_nil
  have hqpairs := Distinct.mem_of_mem_firstBy hq
  have hregion := hubRegion_eq h (hpairs q hqpairs) (hpairs p hp) hid
  refine ⟨q, hq, keys, ?_, by rw [hregion], rfl⟩
  rw [hshared q hqpairs p hp hregion, hkeys]

/-! ## Who an inbound admits -/

/-- The rendered inbound of a kind. -/
def kindInbound (crypto : Crypto) (cfg : ConglomerateConfig) (p : HubRegion × HubNode)
    (keys : NodeKeys) (kind : ShareKind) : Except Error (Option Inbound) := do
  let env := hubEnv crypto cfg p.1 p.2 keys
  let shared := makeShared cfg (.hub p.1) (.hub p.2) keys
  match kind with
  | .direct => do
      let ctx ← buildXhttp env
      pure (some (ctx.fragment shared))
  | .cdn => do
      let ctx ← buildCdn env
      pure (ctx.map (·.fragment shared))
  | .hysteria => do
      let ctx ← buildHysteria env
      pure (ctx.map (·.fragment shared))

/-- Identities on the inbound of a kind of a hub whose region serves TLS or Reality. -/
def kindIdentities (cfg : ConglomerateConfig) (tls : Option TlsConfig) : ShareKind → List Identity
  | .direct => directIdentities cfg tls
  | .cdn => cfg.users.flatMap (User.granted .cdn true)
  | .hysteria => cfg.users.flatMap (User.granted .hysteria true)

/-- The hub node renders an inbound of the kind, and the identity is one of those whose UUIDs it
lists. -/
def Admits (crypto : Crypto) (cfg : ConglomerateConfig) (p : HubRegion × HubNode)
    (keys : NodeKeys) (i : Identity) (kind : ShareKind) : Prop :=
  ∃ inbound tls, kindInbound crypto cfg p keys kind = .ok (some inbound) ∧
    resolveRegionTls p.1 cfg.defaults = .ok tls ∧
    inbound.clientIds = (kindIdentities cfg tls kind).map (Identity.uuid crypto.uuid5 cfg.ns) ∧
    i ∈ kindIdentities cfg tls kind

section Access

variable {user : User} {guest : Option String} {server : Bool} {i : Identity}

theorem Asks.access_of_reality (h : Asks user guest server i)
    (hi : i ∈ cfg.users.flatMap User.grantedReality) :
    server = true ∨ AccessType.xhttp ∈ user.access := by
  obtain ⟨other, -, hgranted⟩ := List.mem_flatMap.mp hi
  have hother := (grantedReality_sublist other).subset hgranted
  cases identitiesOf_inj h.mem_identitiesOf hother
  cases h with
  | server _ => exact .inl rfl
  | user =>
      right
      by_contra hnot
      simp [User.grantedReality, hnot] at hgranted
  | guest _ =>
      right
      by_contra hnot
      simp [User.grantedReality, hnot] at hgranted

theorem Asks.directAccess (h : Asks user guest server i) {tls : Option TlsConfig}
    (hi : i ∈ directIdentities cfg tls) : directAccess user server tls = true := by
  have husers : i ∈ cfg.users.flatMap
      (if tls.isSome then User.granted .tls true else User.grantedReality) := by
    refine (List.mem_append.mp hi).resolve_right ?_
    intro hportal
    obtain ⟨portal, -, rfl⟩ := List.mem_map.mp hportal
    cases h
  unfold HexRift.directAccess
  cases tls with
  | some tls => simpa using h.access_of_granted husers
  | none => simpa using h.access_of_reality husers

end Access

section Admission

variable {p : HubRegion × HubNode} {keys : NodeKeys} {inbound : Inbound} {tls : Option TlsConfig}
  {i : Identity} {kind : ShareKind}

theorem kindInbound_direct :
    kindInbound crypto cfg p keys .direct = .ok (some inbound) ↔
      ∃ ctx, buildXhttp (hubEnv crypto cfg p.1 p.2 keys) = .ok ctx ∧
        ctx.fragment (makeShared cfg (.hub p.1) (.hub p.2) keys) = inbound := by
  simp only [kindInbound, bind_eq_ok, pure_eq_ok, Option.some.injEq]

theorem kindInbound_cdn :
    kindInbound crypto cfg p keys .cdn = .ok (some inbound) ↔
      ∃ ctx, buildCdn (hubEnv crypto cfg p.1 p.2 keys) = .ok (some ctx) ∧
        ctx.fragment (makeShared cfg (.hub p.1) (.hub p.2) keys) = inbound := by
  simp only [kindInbound, bind_eq_ok, pure_eq_ok, Option.map_eq_some_iff]
  constructor
  · intro ⟨_, hslot, ctx, hctx, heq⟩
    exact ⟨ctx, hctx ▸ hslot, heq⟩
  · intro ⟨ctx, hslot, heq⟩
    exact ⟨_, hslot, ctx, rfl, heq⟩

theorem kindInbound_hysteria :
    kindInbound crypto cfg p keys .hysteria = .ok (some inbound) ↔
      ∃ ctx, buildHysteria (hubEnv crypto cfg p.1 p.2 keys) = .ok (some ctx) ∧
        ctx.fragment (makeShared cfg (.hub p.1) (.hub p.2) keys) = inbound := by
  simp only [kindInbound, bind_eq_ok, pure_eq_ok, Option.map_eq_some_iff]
  constructor
  · intro ⟨_, hslot, ctx, hctx, heq⟩
    exact ⟨ctx, hctx ▸ hslot, heq⟩
  · intro ⟨ctx, hslot, heq⟩
    exact ⟨_, hslot, ctx, rfl, heq⟩

/-- The clients of an inbound are the identities of its kind. -/
theorem kindInbound_clientIds (h : kindInbound crypto cfg p keys kind = .ok (some inbound))
    (htls : resolveRegionTls p.1 cfg.defaults = .ok tls) :
    inbound.clientIds =
      (kindIdentities cfg tls kind).map (Identity.uuid crypto.uuid5 cfg.ns) := by
  cases kind with
  | direct =>
      obtain ⟨ctx, hctx, rfl⟩ := kindInbound_direct.mp h
      obtain ⟨tls', htls', hclients⟩ := buildXhttp_clients hctx
      rw [htls] at htls'
      cases htls'
      have hids : (ctx.fragment (makeShared cfg (.hub p.1) (.hub p.2) keys)).clientIds =
          ctx.clients.map (·.id) := rfl
      rw [hids, hclients, List.map_map]
      rfl
  | cdn =>
      obtain ⟨ctx, hctx, rfl⟩ := kindInbound_cdn.mp h
      have hids : (ctx.fragment (makeShared cfg (.hub p.1) (.hub p.2) keys)).clientIds =
          ctx.clients.map (·.id) := rfl
      rw [hids, buildCdn_clients hctx ctx rfl, List.map_map]
      rfl
  | hysteria =>
      obtain ⟨ctx, hctx, rfl⟩ := kindInbound_hysteria.mp h
      have hids : (ctx.fragment (makeShared cfg (.hub p.1) (.hub p.2) keys)).clientIds =
          ctx.users.map (·.auth) := rfl
      rw [hids, buildHysteria_users hctx ctx rfl, List.map_map]
      rfl

/-- The inbound of a kind is one of those that the hub node renders from its stored keys. -/
theorem kindInbound_rendered (h : Accepted cfg) (hp : p ∈ hubNodePairs cfg)
    (hkeys : store p.2.id.val = some keys)
    (hinbound : kindInbound crypto cfg p keys kind = .ok (some inbound)) {config : XrayConfig}
    (hrender : renderHub crypto cfg store p.1 p.2 = .ok config) : inbound ∈ config.inbounds := by
  cases kind with
  | direct =>
      obtain ⟨ctx, hctx, rfl⟩ := kindInbound_direct.mp hinbound
      exact ((serves_direct hp hkeys hctx).rendered config hrender).1
  | cdn =>
      obtain ⟨ctx, hctx, rfl⟩ := kindInbound_cdn.mp hinbound
      exact ((serves_cdn h hp hkeys hctx).1.rendered config hrender).1
  | hysteria =>
      obtain ⟨ctx, hctx, rfl⟩ := kindInbound_hysteria.mp hinbound
      exact ((serves_hysteria hp hkeys hctx).rendered config hrender).1

theorem kindIdentities_sublist (cfg : ConglomerateConfig) (tls : Option TlsConfig)
    (kind : ShareKind) : (kindIdentities cfg tls kind).Sublist (identities cfg) := by
  cases kind with
  | direct => exact directIdentities_sublist cfg tls
  | cdn | hysteria => exact users_sublist (granted_sublist _ _)

/-- Under the collision check, whoever's UUID is listed is admitted. -/
theorem admits_of_clientIds (h : Accepted cfg)
    (hcheck : (checkIdentityCollisions crypto.uuid5 cfg).isOk = true)
    (hp : Region.hub p.1 ∈ cfg.regions) (hi : i ∈ identities cfg)
    (hinbound : kindInbound crypto cfg p keys kind = .ok (some inbound))
    (hmem : i.uuid crypto.uuid5 cfg.ns ∈ inbound.clientIds) : Admits crypto cfg p keys i kind := by
  obtain ⟨tls, htls, -⟩ := h.region_tls hp
  have hids := kindInbound_clientIds hinbound htls
  rw [hids] at hmem
  obtain ⟨j, hj, heq⟩ := List.mem_map.mp hmem
  have hsame := uuid_inj hcheck ((kindIdentities_sublist cfg tls kind).subset hj) hi heq
  exact ⟨inbound, tls, hinbound, htls, hids, hsame ▸ hj⟩

theorem Admits.direct (h : Admits crypto cfg p keys i .direct) {user : User}
    {guest : Option String} {server : Bool} (hasks : Asks user guest server i) :
    ∃ ctx tls, buildXhttp (hubEnv crypto cfg p.1 p.2 keys) = .ok ctx ∧
      resolveRegionTls p.1 cfg.defaults = .ok tls ∧ directAccess user server tls = true := by
  obtain ⟨inbound, tls, hinbound, htls, -, hi⟩ := h
  obtain ⟨ctx, hctx, -⟩ := kindInbound_direct.mp hinbound
  exact ⟨ctx, tls, hctx, htls, hasks.directAccess hi⟩

theorem Admits.cdn (h : Admits crypto cfg p keys i .cdn) {user : User}
    {guest : Option String} {server : Bool} (hasks : Asks user guest server i) :
    ∃ ctx, buildCdn (hubEnv crypto cfg p.1 p.2 keys) = .ok (some ctx) ∧
      AccessType.cdn ∈ user.access := by
  obtain ⟨inbound, tls, hinbound, -, -, hi⟩ := h
  obtain ⟨ctx, hctx, -⟩ := kindInbound_cdn.mp hinbound
  exact ⟨ctx, hctx, hasks.access_of_granted hi⟩

theorem Admits.hysteria (h : Admits crypto cfg p keys i .hysteria) {user : User}
    {guest : Option String} {server : Bool} (hasks : Asks user guest server i) :
    ∃ ctx, buildHysteria (hubEnv crypto cfg p.1 p.2 keys) = .ok (some ctx) ∧
      AccessType.hysteria ∈ user.access := by
  obtain ⟨inbound, tls, hinbound, -, -, hi⟩ := h
  obtain ⟨ctx, hctx, -⟩ := kindInbound_hysteria.mp hinbound
  exact ⟨ctx, hctx, hasks.access_of_granted hi⟩

end Admission

/-! ## The loops return -/

section Totality

variable {pairs : List (HubRegion × HubNode)} {identity : ResolvedIdentity}
  {shortId fingerprint : String}

/-- The nodes are hub nodes with keys in the store. -/
def Stored (cfg : ConglomerateConfig) (store : KeyStore) (pairs : List (HubRegion × HubNode)) :
    Prop :=
  ∀ p ∈ pairs, p ∈ hubNodePairs cfg ∧ (store p.2.id.val).isSome = true

/-- The certificates of the nodes' Hysteria listeners are signed with the stored keys. -/
def ListenersSigned (crypto : Crypto) (cfg : ConglomerateConfig) (store : KeyStore)
    (pairs : List (HubRegion × HubNode)) : Prop :=
  ∀ p ∈ pairs, ∀ keys, store p.2.id.val = some keys →
    CertificateSigned crypto cfg (.hub p.1) (.hub p.2) keys

theorem Stored.env (crypto : Crypto) {p : HubRegion × HubNode} (h : Stored cfg store pairs)
    (hp : p ∈ pairs) :
    ∃ keys, store p.2.id.val = some keys ∧
      shareEnv crypto cfg store p.1 p.2 = .ok (hubEnv crypto cfg p.1 p.2 keys) := by
  obtain ⟨keys, hkeys⟩ := Option.isSome_iff_exists.mp (h p hp).2
  exact ⟨keys, hkeys, shareEnv_eq_ok.mpr ⟨keys, hkeys, rfl⟩⟩

theorem Stored.tail {p : HubRegion × HubNode} (h : Stored cfg store (p :: pairs)) :
    Stored cfg store pairs :=
  fun q hq => h q (List.mem_cons_of_mem p hq)

theorem shareUrl_total {region : HubRegion} {node : HubNode} {keys : NodeKeys}
    {ctx : XhttpContext} (hctx : buildXhttp (hubEnv crypto cfg region node keys) = .ok ctx)
    (client : ShareClient) :
    ∃ url, ctx.shareUrl (hubEnv crypto cfg region node keys) client = .ok url := by
  simp only [XhttpContext.shareUrl, bind_eq_ok, pure_eq_ok]
  rcases buildXhttp_names hctx with ⟨certificate, heq⟩ | ⟨_, _, name, names, _, _, heq⟩
  · rw [heq]
    exact ⟨_, _, rfl, rfl⟩
  · rw [heq]
    exact ⟨_, _, rfl, rfl⟩

theorem cdnShareUrlsFrom_total (hstored : Stored cfg store pairs) (seen : List String) :
    ∃ results, cdnShareUrlsFrom crypto cfg store identity shortId fingerprint seen pairs =
      .ok results := by
  induction pairs generalizing seen with
  | nil => exact ⟨[], rfl⟩
  | cons p ps ih =>
      unfold cdnShareUrlsFrom
      split
      · exact ih hstored.tail seen
      · obtain ⟨keys, -, henv⟩ := hstored.env crypto List.mem_cons_self
        obtain ⟨slot, hslot⟩ : ∃ slot, buildCdn (hubEnv crypto cfg p.1 p.2 keys) = .ok slot :=
          buildHubCdn_total keys
        obtain ⟨others, hothers⟩ := ih hstored.tail (p.1.id.val :: seen)
        rw [henv]
        simp only [bind, Except.bind, hslot]
        cases slot with
        | none => exact ⟨others, hothers⟩
        | some ctx =>
            simp only [hothers]
            exact ⟨_, rfl⟩

theorem hysteriaShareUrls_total (h : Accepted cfg) (hstored : Stored cfg store pairs)
    (hsigned : ListenersSigned crypto cfg store pairs) :
    ∃ results, hysteriaShareUrls crypto cfg store identity shortId fingerprint pairs =
      .ok results := by
  obtain ⟨slots, hslots⟩ : ∃ slots,
      mapEach pairs (fun p => hysteriaListener crypto cfg store p.1 p.2) = .ok slots := by
    refine mapEach_total.mpr fun p hp => ?_
    obtain ⟨keys, hkeys, henv⟩ := hstored.env crypto hp
    obtain ⟨hregion, hnode⟩ := mem_hubNodePairs.mp (hstored p hp).1
    obtain ⟨slot, hslot⟩ : ∃ slot, buildHysteria (hubEnv crypto cfg p.1 p.2 keys) = .ok slot :=
      buildHubHysteria_total h hregion hnode fun _ => hsigned p hp keys hkeys
    simp only [hysteriaListener, henv, hslot, bind, Except.bind]
    exact ⟨_, rfl⟩
  simp only [hysteriaShareUrls, hslots, bind, Except.bind]
  exact ⟨_, rfl⟩

theorem directShareUrlsFrom_total (h : Accepted cfg) (hstored : Stored cfg store pairs)
    (user : User) (server : Bool) (emitted : List (String × XhttpContext × NodeKeys)) :
    ∃ results, directShareUrlsFrom crypto cfg store identity shortId fingerprint user server
      emitted pairs = .ok results := by
  induction pairs generalizing emitted with
  | nil => exact ⟨[], rfl⟩
  | cons p ps ih =>
      obtain ⟨hregion, hnode⟩ := mem_hubNodePairs.mp (hstored p List.mem_cons_self).1
      obtain ⟨tls, htls, -⟩ := h.region_tls hregion
      obtain ⟨keys, -, henv⟩ := hstored.env crypto List.mem_cons_self
      obtain ⟨ctx, hctx⟩ : ∃ ctx, buildXhttp (hubEnv crypto cfg p.1 p.2 keys) = .ok ctx :=
        buildHubXhttp_total h hregion hnode keys
      have hothers := ih hstored.tail
      simp only [directShareUrlsFrom, bind_eq_ok, htls, Except.ok.injEq, exists_eq_left']
      split
      · exact hothers emitted
      · simp only [bind_eq_ok, henv, Except.ok.injEq, exists_eq_left', hctx]
        split
        · obtain ⟨url, hurl⟩ := shareUrl_total hctx (shareClient identity shortId fingerprint
            (p.2.id.val ++ "-" ++ identity.label))
          obtain ⟨others, hothers⟩ := hothers emitted
          simp only [bind_eq_ok, pure_eq_ok]
          exact ⟨_, url, hurl, others, hothers, rfl⟩
        · split
          · exact hothers emitted
          · simp only [bind_eq_ok, pure_eq_ok]
            obtain ⟨url, hurl⟩ := shareUrl_total hctx _
            obtain ⟨others, hothers⟩ := hothers _
            exact ⟨_, url, hurl, others, hothers, rfl⟩

/-- A user of an accepted topology has a group. -/
theorem clientShortId_total (h : Accepted cfg) {user : User} (hu : user ∈ cfg.users)
    (req : ShareRequest) : ∃ shortId, clientShortId crypto cfg user req = .ok shortId := by
  obtain ⟨group, hgroup, hid⟩ := List.mem_map.mp (h.userGroup user hu)
  unfold clientShortId
  cases hfind : cfg.groups.find? fun g => g.id = user.group with
  | none =>
      rw [List.find?_eq_none] at hfind
      exact absurd (decide_eq_true hid) (hfind group hgroup)
  | some group => exact ⟨_, (apply_ite Except.ok _ _ _).symm⟩

end Totality

/-! ## No node is lost -/

/-- For every hub node that admits an identity asked for, some URL makes the connection of the URL
built for that node alone. -/
def NoneLost (crypto : Crypto) (cfg : ConglomerateConfig) (store : KeyStore) (fingerprint : String)
    (kind : ShareKind) (user : User) (req : ShareRequest) (pairs : List (HubRegion × HubNode))
    (urls : List (String × ShareUrl)) : Prop :=
  ∀ one ∈ req.parts user, ∀ i, Asks user one.guest one.server i →
    ∀ p ∈ pairs, ∀ keys, store p.2.id.val = some keys → Admits crypto cfg p keys i kind →
      ∃ shortId fragment url, clientShortId crypto cfg user one = .ok shortId ∧
        nodeShareUrl (hubEnv crypto cfg p.1 p.2 keys)
          (shareClient (i.resolved crypto.uuid5 cfg.ns) shortId fingerprint fragment) kind =
            .ok (some url) ∧
        ∃ e ∈ urls, e.2.SameConnection url

section One

variable {pairs : List (HubRegion × HubNode)} {identity : ResolvedIdentity}
  {shortId fingerprint : String} {results : List (String × ShareUrl)} {kind : ShareKind}
  {user : User} {guest : Option String} {server : Bool} {i : Identity}

/-- What the loop of a kind covers of one node. -/
theorem covers_kindShareUrls
    (h : kindShareUrls crypto cfg store identity shortId fingerprint user server pairs kind =
      .ok results) (hasks : Asks user guest server i) {p : HubRegion × HubNode} (hp : p ∈ pairs)
    {keys : NodeKeys} (hkeys : store p.2.id.val = some keys)
    (hadmits : Admits crypto cfg p keys i kind)
    (hmerge : kind = .cdn → CdnMergeSafe store pairs) (fragment : String) :
    ∃ url, nodeShareUrl (hubEnv crypto cfg p.1 p.2 keys)
        (shareClient identity shortId fingerprint fragment) kind = .ok (some url) ∧
      ∃ e ∈ results, e.2.SameConnection url := by
  have hclient := fun f => same_shareClient identity shortId fingerprint f fragment
  cases kind with
  | cdn =>
      obtain ⟨ctx, hctx, -⟩ := hadmits.cdn hasks
      simp only [kindShareUrls, cdnShareUrls, bind_eq_ok] at h
      obtain ⟨_, -, h⟩ := h
      obtain ⟨cdn, path, -, hpath, -⟩ := buildCdn_eq_some.mp hctx
      have hfirst := hmerge rfl p hp keys hkeys (Option.isSome_iff_exists.mpr ⟨path, hpath⟩)
      refine ⟨_, ?_, covers_cdnShareUrlsFrom h hctx hfirst hclient⟩
      rw [nodeShareUrl, hctx]
      rfl
  | hysteria =>
      obtain ⟨ctx, hctx, -⟩ := hadmits.hysteria hasks
      refine ⟨_, ?_, covers_hysteriaShareUrls h hp hkeys hctx hclient⟩
      rw [nodeShareUrl, hctx]
      rfl
  | direct =>
      obtain ⟨ctx, tls, hctx, htls, haccess⟩ := hadmits.direct hasks
      obtain ⟨url, hurl⟩ := shareUrl_total hctx (shareClient identity shortId fingerprint fragment)
      refine ⟨url, ?_, ?_⟩
      · simp only [nodeShareUrl, hctx, hurl, bind, Except.bind]
        rfl
      · have hnode : DirectNode crypto cfg store user server p keys ctx :=
          ⟨⟨tls, htls, haccess⟩, hkeys, hctx⟩
        -- nothing was emitted before the loop
        refine (covers_directShareUrlsFrom h hp hnode hclient hurl).resolve_right ?_
        rintro ⟨-, hseen⟩
        cases hseen

/-- The loop of a kind returns, with a URL when some node admits the identity. -/
theorem kindShareUrls_total (h : Accepted cfg) (hasks : Asks user guest server i)
    (hstored : Stored cfg store pairs)
    (hsigned : kind = .hysteria → ListenersSigned crypto cfg store pairs)
    {p : HubRegion × HubNode} (hp : p ∈ pairs) {keys : NodeKeys}
    (hkeys : store p.2.id.val = some keys) (hadmits : Admits crypto cfg p keys i kind) :
    ∃ results, kindShareUrls crypto cfg store identity shortId fingerprint user server pairs kind =
      .ok results ∧ results ≠ [] := by
  cases kind with
  | cdn =>
      obtain ⟨ctx, hctx, -⟩ := hadmits.cdn hasks
      obtain ⟨cdn, path, hcdn, hpath, -⟩ := buildCdn_eq_some.mp hctx
      obtain ⟨results, hresults⟩ : ∃ results, cdnShareUrlsFrom crypto cfg store identity shortId
          fingerprint [] pairs = .ok results := cdnShareUrlsFrom_total hstored []
      -- the first node of the region has the region's CDN path
      obtain ⟨q, hq, hregionId⟩ :=
        @Distinct.exists_mem_firstBy _ _ _ regionId [] pairs p hp List.not_mem_nil
      have hqpairs := Distinct.mem_of_mem_firstBy hq
      have hregion := hubRegion_eq h (hstored q hqpairs).1 (hstored p hp).1 hregionId
      obtain ⟨first, hfirst⟩ := Option.isSome_iff_exists.mp (hstored q hqpairs).2
      have hqctx : buildCdn (hubEnv crypto cfg q.1 q.2 first) =
          .ok (some (hubCdnContext crypto cfg first cdn path)) :=
        buildCdn_eq_some.mpr ⟨cdn, path, hcdn, hregion ▸ hpath, rfl⟩
      refine ⟨results, ?_, List.ne_nil_of_mem
        ((mem_cdnShareUrlsFrom hresults).mpr ⟨q, hq, first, _, hfirst, hqctx, rfl⟩)⟩
      simp only [kindShareUrls, cdnShareUrls, bind_eq_ok, ensure_eq_ok, exists_const]
      exact ⟨Option.isSome_iff_exists.mpr ⟨cdn, hcdn⟩, hresults⟩
  | hysteria =>
      obtain ⟨results, hresults⟩ : ∃ results, kindShareUrls crypto cfg store identity shortId
          fingerprint user server pairs .hysteria = .ok results :=
        hysteriaShareUrls_total h hstored (hsigned rfl)
      obtain ⟨url, -, e, he, -⟩ :=
        covers_kindShareUrls hresults hasks hp hkeys hadmits (fun h => by cases h) ""
      exact ⟨results, hresults, List.ne_nil_of_mem he⟩
  | direct =>
      obtain ⟨results, hresults⟩ : ∃ results, kindShareUrls crypto cfg store identity shortId
          fingerprint user server pairs .direct = .ok results :=
        directShareUrlsFrom_total h hstored user server []
      obtain ⟨url, -, e, he, -⟩ :=
        covers_kindShareUrls hresults hasks hp hkeys hadmits (fun h => by cases h) ""
      exact ⟨results, hresults, List.ne_nil_of_mem he⟩

end One

section Calls

variable {req one : ShareRequest} {fingerprint : String} {cdn hysteria : Bool} {kind : ShareKind}
  {user : User} {pairs : List (HubRegion × HubNode)} {urls : List (String × ShareUrl)}

/-- An inbound admits all that a user's access gives. -/
theorem Admits.of_asks (hu : user ∈ cfg.users) {p : HubRegion × HubNode} {keys : NodeKeys}
    {i j : Identity} {guest guest' : Option String} {server : Bool}
    (h : Admits crypto cfg p keys i kind) (hi : Asks user guest server i)
    (hj : Asks user guest' server j) : Admits crypto cfg p keys j kind := by
  obtain ⟨inbound, tls, hinbound, htls, hids, hmem⟩ := h
  refine ⟨inbound, tls, hinbound, htls, hids, ?_⟩
  cases kind with
  | direct => exact hj.mem_directIdentities hu (hi.directAccess hmem)
  | cdn | hysteria => exact hj.mem_granted hu (hi.access_of_granted hmem)

theorem Admits.checkShareAccess {p : HubRegion × HubNode} {keys : NodeKeys} {i : Identity}
    (h : Admits crypto cfg p keys i kind) (hasks : Asks user one.guest one.server i) :
    checkShareAccess user one kind = .ok () := by
  cases kind with
  | direct =>
      obtain ⟨_, tls, -, -, haccess⟩ := h.direct hasks
      refine ensure_eq_ok.mpr ?_
      cases tls with
      | none => exact (by simpa [directAccess] using haccess :
          one.server = true ∨ AccessType.xhttp ∈ user.access).imp_right .inl
      | some tls => exact .inr (.inr (by simpa [directAccess] using haccess))
  | cdn =>
      obtain ⟨_, -, haccess⟩ := h.cdn hasks
      exact ensure_eq_ok.mpr haccess
  | hysteria =>
      obtain ⟨_, -, haccess⟩ := h.hysteria hasks
      exact ensure_eq_ok.mpr haccess

theorem shareUrlsOf_total (h : Accepted cfg) (hu : user ∈ cfg.users)
    (hkind : shareKind cdn hysteria = .ok kind) (hpairs : requestedPairs cfg one.hubId = .ok pairs)
    (hstored : Stored cfg store pairs)
    (hsigned : kind = .hysteria → ListenersSigned crypto cfg store pairs)
    {i : Identity} (hasks : Asks user one.guest one.server i)
    {p : HubRegion × HubNode} (hp : p ∈ pairs) {keys : NodeKeys}
    (hkeys : store p.2.id.val = some keys) (hadmits : Admits crypto cfg p keys i kind) :
    ∃ urls, shareUrlsOf crypto cfg store fingerprint cdn hysteria user one = .ok urls := by
  obtain ⟨shortId, hshort⟩ : ∃ shortId, clientShortId crypto cfg user one = .ok shortId :=
    clientShortId_total h hu one
  obtain ⟨results, hresults, hne⟩ : ∃ results, kindShareUrls crypto cfg store
      (i.resolved crypto.uuid5 cfg.ns) shortId fingerprint user one.server pairs kind =
        .ok results ∧ results ≠ [] := kindShareUrls_total h hasks hstored hsigned hp hkeys
          hadmits
  simp only [shareUrlsOf, bind_eq_ok, pure_eq_ok, ensure_eq_ok]
  exact ⟨results, kind, hkind, (), hadmits.checkShareAccess hasks, _,
    resolveIdentity_eq_ok.mpr ⟨i, hasks, rfl⟩, shortId, hshort, pairs, hpairs, results, hresults,
    (), hne, rfl⟩

theorem buildShareUrls_total (h : Accepted cfg) (hkind : shareKind cdn hysteria = .ok kind)
    (huser : resolveUser cfg req.username = .ok user)
    (hpairs : requestedPairs cfg req.hubId = .ok pairs)
    (hflags : req.allGuests = true → req.guest = none ∧ req.server = false)
    (hstored : ∀ p ∈ pairs, (store p.2.id.val).isSome = true)
    (hsigned : kind = .hysteria → ListenersSigned crypto cfg store pairs)
    (hone : one ∈ req.parts user)
    {i : Identity} (hasks : Asks user one.guest one.server i) {p : HubRegion × HubNode}
    (hp : p ∈ pairs) {keys : NodeKeys} (hkeys : store p.2.id.val = some keys)
    (hadmits : Admits crypto cfg p keys i kind) :
    ∃ urls, buildShareUrls crypto cfg store req fingerprint cdn hysteria = .ok urls := by
  have hu := (resolveUser_eq_ok huser).1
  have hpaired : Stored cfg store pairs := fun q hq => ⟨mem_requestedPairs hpairs hq, hstored q hq⟩
  refine perIdentity_total huser hflags hone fun other hother => ?_
  obtain ⟨j, hj, hserver⟩ := asks_of_mem_parts hother hone hasks
  have hhub := requestedPairs_of_part hpairs hother
  rw [← hserver] at hasks
  exact shareUrlsOf_total h hu hkind hhub hpaired hsigned hj hp hkeys
    (hadmits.of_asks hu hasks hj)

/-- The URLs of one part of a call, for the kind and the hub nodes of the call. -/
theorem shareUrlsOf_part (hkind : shareKind cdn hysteria = .ok kind)
    (hpairs : requestedPairs cfg req.hubId = .ok pairs) (hone : one ∈ req.parts user)
    (h : shareUrlsOf crypto cfg store fingerprint cdn hysteria user one = .ok urls) :
    ∃ i shortId, checkShareAccess user one kind = .ok () ∧
      Asks user one.guest one.server i ∧ clientShortId crypto cfg user one = .ok shortId ∧
      kindShareUrls crypto cfg store (i.resolved crypto.uuid5 cfg.ns) shortId fingerprint user
        one.server pairs kind = .ok urls := by
  obtain ⟨kind', i, shortId, pairs', hkind', haccess, hasks, hshort, hpairs', hresults⟩ :=
    shareUrlsOf_eq_ok h
  rw [hkind] at hkind'
  cases hkind'
  rw [requestedPairs_of_part hpairs hone] at hpairs'
  cases hpairs'
  exact ⟨i, shortId, haccess, hasks, hshort, hresults⟩

theorem noneLost_of_mergeSafe (hkind : shareKind cdn hysteria = .ok kind)
    (huser : resolveUser cfg req.username = .ok user)
    (hpairs : requestedPairs cfg req.hubId = .ok pairs)
    (hurls : buildShareUrls crypto cfg store req fingerprint cdn hysteria = .ok urls)
    (hmerge : kind = .cdn → CdnMergeSafe store pairs) :
    NoneLost crypto cfg store fingerprint kind user req pairs urls := by
  intro one hone i hasks p hp keys hkeys hadmits
  obtain ⟨part, hpart, hsub⟩ := part_of_perIdentity huser hurls hone
  obtain ⟨j, shortId, -, hj, hshort, hresults⟩ := shareUrlsOf_part hkind hpairs hone hpart
  obtain rfl := hj.unique hasks
  obtain ⟨url, hurl, e, he, hconnect⟩ :=
    covers_kindShareUrls hresults hasks hp hkeys hadmits hmerge ""
  exact ⟨shortId, "", url, hshort, hurl, e, hsub he, hconnect⟩

/-- Whoever may use the CDN is admitted by every CDN inbound. -/
theorem admits_cdn (h : Accepted cfg) (hu : user ∈ cfg.users) {p : HubRegion × HubNode}
    (hp : p ∈ hubNodePairs cfg) {keys : NodeKeys} {ctx : CdnContext}
    (hctx : buildCdn (hubEnv crypto cfg p.1 p.2 keys) = .ok (some ctx)) {i : Identity}
    (hasks : Asks user one.guest one.server i) (haccess : AccessType.cdn ∈ user.access) :
    Admits crypto cfg p keys i .cdn := by
  obtain ⟨tls, htls, -⟩ := h.region_tls (mem_hubNodePairs.mp hp).1
  have hinbound := kindInbound_cdn.mpr ⟨ctx, hctx, rfl⟩
  exact ⟨_, tls, hinbound, htls, kindInbound_clientIds hinbound htls,
    hasks.mem_granted hu haccess⟩

theorem mergeSafe_of_noneLost (h : Accepted cfg) (hkind : shareKind cdn hysteria = .ok .cdn)
    (huser : resolveUser cfg req.username = .ok user)
    (hpairs : requestedPairs cfg req.hubId = .ok pairs)
    (hurls : buildShareUrls crypto cfg store req fingerprint cdn hysteria = .ok urls)
    (hnone : NoneLost crypto cfg store fingerprint .cdn user req pairs urls) :
    CdnMergeSafe store pairs := by
  intro p hp keys hkeys hpath
  obtain ⟨-, hne, -⟩ := (perIdentity_eq_ok huser).mp hurls
  obtain ⟨one, hone⟩ := List.exists_mem_of_ne_nil _ hne
  obtain ⟨part, hpart, -⟩ := part_of_perIdentity huser hurls hone
  obtain ⟨i, _, haccess, hasks, -, hresults⟩ := shareUrlsOf_part hkind hpairs hone hpart
  simp only [kindShareUrls, cdnShareUrls, bind_eq_ok, ensure_eq_ok] at hresults
  obtain ⟨_, hglobal, -⟩ := hresults
  obtain ⟨config, hconfig⟩ := Option.isSome_iff_exists.mp hglobal
  obtain ⟨path, hcdnPath⟩ := Option.isSome_iff_exists.mp hpath
  have hctx : buildCdn (hubEnv crypto cfg p.1 p.2 keys) =
      .ok (some (hubCdnContext crypto cfg keys config path)) :=
    buildCdn_eq_some.mpr ⟨config, path, hconfig, hcdnPath, rfl⟩
  have hadmits := admits_cdn h (resolveUser_eq_ok huser).1 (mem_requestedPairs hpairs hp) hctx
    hasks (ensure_eq_ok.mp haccess)
  obtain ⟨_, _, url, -, hurl, e, he, hsame⟩ := hnone one hone i hasks p hp keys hkeys hadmits
  simp only [nodeShareUrl, hctx, bind_eq_ok, pure_eq_ok, Except.ok.injEq, exists_eq_left',
    Option.map_some, Option.some.injEq] at hurl
  subst hurl
  -- the URL may be that of any part
  obtain ⟨other, hother, part', hpart', hmem⟩ := (mem_perIdentity huser hurls).mp he
  obtain ⟨_, _, -, -, -, hresults'⟩ := shareUrlsOf_part hkind hpairs hother hpart'
  simp only [kindShareUrls, cdnShareUrls, bind_eq_ok] at hresults'
  obtain ⟨_, -, hresults'⟩ := hresults'
  exact firstServes_of_same hresults' hmem hctx hsame

/-- Of the URLs of a call, those of each kind but the CDN lose no node; those of the CDN lose none
when the first nodes of the regions stand for all. -/
theorem noneLost_iff (h : Accepted cfg) (hkind : shareKind cdn hysteria = .ok kind)
    (huser : resolveUser cfg req.username = .ok user)
    (hpairs : requestedPairs cfg req.hubId = .ok pairs)
    (hurls : buildShareUrls crypto cfg store req fingerprint cdn hysteria = .ok urls) :
    NoneLost crypto cfg store fingerprint kind user req pairs urls ↔
      (kind = .cdn → CdnMergeSafe store pairs) := by
  constructor
  · intro hnone hcdn
    subst hcdn
    exact mergeSafe_of_noneLost h hkind huser hpairs hurls hnone
  · exact noneLost_of_mergeSafe hkind huser hpairs hurls

end Calls

/-- A call returns when some requested hub node admits an identity asked for (and, for Hysteria,
the certificates are signed), and its URLs lose no node unless they are for the CDN and a node is
not served by the first ones of the regions. -/
theorem share_urls_cover_iff (cfg : AcceptedConfig) {req : ShareRequest} {fingerprint : String}
    {cdn hysteria : Bool} {kind : ShareKind} (hkind : shareKind cdn hysteria = .ok kind)
    {user : User} (huser : resolveUser cfg.toConglomerateConfig req.username = .ok user)
    {pairs : List (HubRegion × HubNode)}
    (hpairs : requestedPairs cfg.toConglomerateConfig req.hubId = .ok pairs) :
    (∀ urls, buildShareUrls crypto cfg.toConglomerateConfig store req fingerprint cdn hysteria =
        .ok urls →
      (NoneLost crypto cfg.toConglomerateConfig store fingerprint kind user req pairs urls ↔
        (kind = .cdn → CdnMergeSafe store pairs))) ∧
    ((req.allGuests = true → req.guest = none ∧ req.server = false) →
      (∀ p ∈ pairs, (store p.2.id.val).isSome = true) →
      (kind = .hysteria → ListenersSigned crypto cfg.toConglomerateConfig store pairs) →
      (∃ one ∈ req.parts user, ∃ i, Asks user one.guest one.server i ∧
        ∃ p ∈ pairs, ∃ keys, store p.2.id.val = some keys ∧
          Admits crypto cfg.toConglomerateConfig p keys i kind) →
      ∃ urls, buildShareUrls crypto cfg.toConglomerateConfig store req fingerprint cdn hysteria =
        .ok urls) := by
  constructor
  · exact fun urls hurls => noneLost_iff cfg.spec hkind huser hpairs hurls
  · rintro hflags hstored hsigned ⟨one, hone, i, hasks, p, hp, keys, hkeys, hadmits⟩
    exact buildShareUrls_total cfg.spec hkind huser hpairs hflags hstored hsigned hone hasks hp
      hkeys hadmits

/-! ## A region of two hub nodes -/

namespace Sample

/-- Runs without VLESS encryption. -/
def plainNode : HubNode :=
  { id := h2
    hostname := { val := "hub-2.example.net" }
    keys := some { noKeys with enabled := some false } }

def pairedRegion : HubRegion :=
  { officeRegion with nodes := [hubNode, plainNode] }

def carol : User :=
  { username := { val := "carol" }, group := mainGroup, access := [.xhttp, .cdn] }

def paired : AcceptedConfig :=
  { topology [exitRegion fra lowRoute [exitNode fra1]] [carol]
      [] pairedRegion with
    global := office.global }

def plainKeys : NodeKeys :=
  { nodeKeys with
    decryption := NodeKeys.encryptionDisabled
    encryption := NodeKeys.encryptionDisabled }

def pairedStore : KeyStore := fun id => if id = "h2" then some plainKeys else some nodeKeys

end Sample

theorem paired_admits :
    Admits Sample.crypto Sample.paired.toConglomerateConfig
      (Sample.pairedRegion, Sample.plainNode) Sample.plainKeys (.user Sample.carol) .direct := by
  obtain ⟨ctx, hctx⟩ : ∃ ctx, buildXhttp (hubEnv Sample.crypto Sample.paired.toConglomerateConfig
      Sample.pairedRegion Sample.plainNode Sample.plainKeys) = .ok ctx :=
    buildHubXhttp_total Sample.paired.spec (by decide) (by decide) _
  have hinbound := (@kindInbound_direct _ _ (Sample.pairedRegion, Sample.plainNode) _ _).mpr
    ⟨ctx, hctx, rfl⟩
  exact ⟨_, none, hinbound, rfl, kindInbound_clientIds hinbound rfl, by decide⟩

theorem share_urls_cover_paired :
    ∃ urls, buildShareUrls Sample.crypto Sample.paired.toConglomerateConfig Sample.pairedStore
        { username := "carol" } "chrome" = .ok urls ∧
      NoneLost Sample.crypto Sample.paired.toConglomerateConfig Sample.pairedStore "chrome" .direct
        Sample.carol { username := "carol" } (hubNodePairs Sample.paired.toConglomerateConfig)
        urls := by
  have hasks : Asks Sample.carol none false (.user Sample.carol) := .user
  obtain ⟨hnone, htotal⟩ := @share_urls_cover_iff Sample.crypto Sample.pairedStore Sample.paired
    { username := "carol" } "chrome" false false .direct rfl Sample.carol (by decide)
    (hubNodePairs Sample.paired.toConglomerateConfig) rfl
  obtain ⟨urls, hurls⟩ := htotal (by decide) (by decide) (fun h => by cases h)
    ⟨_, List.mem_singleton_self _, _, hasks, (Sample.pairedRegion, Sample.plainNode), by decide,
      Sample.plainKeys, rfl, paired_admits⟩
  exact ⟨urls, hurls, (hnone urls hurls).mpr fun h => by cases h⟩

/-- The second node of the region runs without encryption, and the one CDN URL of the region is
that of the first. -/
theorem cdn_share_urls_lose_node :
    ∃ urls, buildShareUrls Sample.crypto Sample.paired.toConglomerateConfig Sample.pairedStore
        { username := "carol" } "chrome" true = .ok urls ∧
      ¬NoneLost Sample.crypto Sample.paired.toConglomerateConfig Sample.pairedStore "chrome" .cdn
        Sample.carol { username := "carol" } (hubNodePairs Sample.paired.toConglomerateConfig)
        urls := by
  obtain ⟨urls, hurls⟩ := isOk_iff.mp (show (buildShareUrls Sample.crypto
    Sample.paired.toConglomerateConfig Sample.pairedStore { username := "carol" } "chrome"
    true).isOk = true by decide)
  refine ⟨urls, hurls, fun hnone => ?_⟩
  have hkind : shareKind true false = .ok .cdn := rfl
  have hmerge := (noneLost_iff Sample.paired.spec hkind (by decide) rfl hurls).mp hnone rfl
  obtain ⟨q, hq, first, hfirst, -, hencryption⟩ := hmerge
    (Sample.pairedRegion, Sample.plainNode) (by decide) _ rfl rfl
  have hfirsts : Distinct.firstBy regionId [] (hubNodePairs Sample.paired.toConglomerateConfig) =
      [(Sample.pairedRegion, Sample.hubNode)] := by decide
  rw [hfirsts, List.mem_singleton] at hq
  subst hq
  cases hfirst
  revert hencryption
  decide

end HexRift
