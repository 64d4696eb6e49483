import HexRift.Verification.Labels
import HexRift.Verification.LinkEnds
import HexRift.Verification.Sharing

/-! # WireGuard client configs

A client config is looked up among the peers of the hub by e-mail label, where the last peer of a
label stands for all of them. -/

namespace HexRift

open Checks

variable {cfg : ConglomerateConfig} {crypto : Crypto} {store : KeyStore}

/-! ## Allocation -/

/-- Identities that peers are allocated for, in order. -/
def allocatedIdentities (cfg : ConglomerateConfig) : List Identity :=
  cfg.users.flatMap (User.granted .wireguard true)

/-- The peers allocated on a hub node that has WireGuard. -/
structure Allocates (crypto : Crypto) (cfg : ConglomerateConfig) (node : HubNode)
    (wg : WireguardConfig) (allocs : List WireguardPeer) : Prop where
  resolved : resolveNodeWireguard node cfg.defaults = .ok (some wg)
  allocated : iterHubWireguardAllocs crypto.uuid5 cfg.users cfg.ns wg.subnet = .ok allocs

/-- The entry of an allocated peer in the inbound. -/
def peerEntry (crypto : Crypto) (ns : Namespace) (keys : NodeKeys) (keepalive : ℕ)
    (alloc : WireguardPeer) : PeerEntry :=
  { email := alloc.email
    publicKey := peerKey crypto ns keys.realityPrivateKey alloc.identity
    allowedIps := [alloc.allowedIp]
    keepAlive := keepalive }

def wireguardContext (crypto : Crypto) (cfg : ConglomerateConfig) (keys : NodeKeys)
    (wg : WireguardConfig) (allocs : List WireguardPeer) : WireguardContext :=
  { config := wg
    peers := allocs.map (peerEntry crypto cfg.ns keys wg.keepalive)
    secretKey := crypto.x25519UrlsafeToStd keys.realityPrivateKey }

/-- The config of an allocated peer. -/
def clientConf (crypto : Crypto) (cfg : ConglomerateConfig) (node : HubNode) (keys : NodeKeys)
    (wg : WireguardConfig) (alloc : WireguardPeer) : WireguardClientConf :=
  { privateKey := (deriveUserWireguardKeypair crypto keys.realityPrivateKey alloc.identity
      cfg.ns.name).1
    address := alloc.allowedIp
    dns := [wireguardClientDns]
    mtu := wg.mtu
    serverPublicKey := crypto.x25519UrlsafeToStd keys.realityPublicKey
    endpoint := node.hostname.val ++ ":" ++ toString wg.port.val
    allowedIps := ["0.0.0.0/0"]
    keepalive := wg.keepalive }

def configLabel (node : HubNode) (label : String) : String :=
  node.id.val ++ "  WireGuard  " ++ label

theorem allocatedIdentities_sublist (cfg : ConglomerateConfig) :
    (allocatedIdentities cfg).Sublist (HexRift.identities cfg) :=
  users_sublist (granted_sublist _ _)

section Allocation

variable {p : HubRegion × HubNode} {node : HubNode} {keys : NodeKeys} {wg : WireguardConfig}
  {allocs : List WireguardPeer}

theorem Allocates.identities (h : Allocates crypto cfg node wg allocs) :
    allocs.map (fun a => (a.email, a.identity)) =
      (allocatedIdentities cfg).map fun i => (i.email cfg.ns, i.uuid crypto.uuid5 cfg.ns) := by
  obtain ⟨-, hallocs⟩ := iterHubWireguardAllocs_eq_ok.mp h.allocated
  have hmap := congrArg (List.map fun e => (e.1, e.2.1)) (allocateFrom_identities hallocs)
  rw [wireguardIdentities_eq, List.map_map] at hmap
  exact hmap

theorem buildWireguard_eq_some {ctx : WireguardContext} :
    buildWireguard (hubEnv crypto cfg p.1 p.2 keys) = .ok (some ctx) ↔
      ∃ wg allocs, Allocates crypto cfg p.2 wg allocs ∧ allocs ≠ [] ∧
        wireguardContext crypto cfg keys wg allocs = ctx := by
  have hnode : (hubEnv crypto cfg p.1 p.2 keys).hubNode = .ok p.2 := rfl
  simp only [buildWireguard, hnode, bind_eq_ok, Except.ok.injEq, exists_eq_left']
  constructor
  · rintro ⟨slot, hslot, h⟩
    cases slot with
    | none => cases h
    | some wg =>
        simp only [bind_eq_ok, getHubWireguardPeers, pure_eq_ok] at h
        obtain ⟨_, ⟨allocs, hallocs, rfl⟩, h⟩ := h
        split at h
        · cases h
        · rename_i hne
          cases h
          exact ⟨wg, allocs, ⟨hslot, hallocs⟩, by simpa using hne, rfl⟩
  · rintro ⟨wg, allocs, h, hne, hctx⟩
    subst hctx
    refine ⟨some wg, h.resolved, ?_⟩
    simp only [bind_eq_ok, getHubWireguardPeers, pure_eq_ok]
    refine ⟨_, ⟨allocs, h.allocated, rfl⟩, ?_⟩
    rw [if_neg (by simpa using hne)]
    rfl

theorem wireguardConfig_eq_some {identity : ResolvedIdentity} {e : String × WireguardClientConf} :
    wireguardConfig crypto cfg store identity node = .ok (some e) ↔
      ∃ wg allocs alloc keys, Allocates crypto cfg node wg allocs ∧
        allocOf allocs identity.email = some alloc ∧ store node.id.val = some keys ∧
        (configLabel node identity.label, clientConf crypto cfg node keys wg alloc) = e := by
  simp only [wireguardConfig, bind_eq_ok]
  constructor
  · intro ⟨slot, hslot, h⟩
    cases slot with
    | none => cases h
    | some wg =>
        simp only [bind_eq_ok] at h
        obtain ⟨allocs, hallocs, h⟩ := h
        split at h
        · cases h
        · rename_i alloc halloc
          simp only [bind_eq_ok, pure_eq_ok, loadNodeKeys_eq_ok, Option.some.injEq] at h
          obtain ⟨keys, hkeys, he⟩ := h
          exact ⟨wg, allocs, alloc, keys, ⟨hslot, hallocs⟩, halloc, hkeys, he⟩
  · intro ⟨wg, allocs, alloc, keys, h, halloc, hkeys, he⟩
    subst he
    refine ⟨some wg, h.resolved, ?_⟩
    simp only [bind_eq_ok]
    refine ⟨allocs, h.allocated, ?_⟩
    simp only [halloc, bind_eq_ok, loadNodeKeys_eq_ok]
    exact ⟨keys, hkeys, rfl⟩

end Allocation

/-! ## Labels -/

/-- The last allocated identity of a label. -/
def lastNamed (cfg : ConglomerateConfig) (email : String) : Option Identity :=
  (allocatedIdentities cfg).reverse.find? fun i => i.email cfg.ns = email

/-- The identity is allocated, and none after it has its label. -/
def LastOfLabel (cfg : ConglomerateConfig) (i : Identity) : Prop :=
  ∃ before after, allocatedIdentities cfg = before ++ i :: after ∧
    ∀ j ∈ after, j.email cfg.ns ≠ i.email cfg.ns

theorem lastOfLabel_iff {i : Identity} :
    LastOfLabel cfg i ↔ lastNamed cfg (i.email cfg.ns) = some i :=
  (@Distinct.find?_reverse_eq_some_iff _ _ _ (Identity.email cfg.ns) _ i).symm

theorem lastNamed_isSome {i : Identity} (hi : i ∈ allocatedIdentities cfg) :
    ∃ j, lastNamed cfg (i.email cfg.ns) = some j := by
  apply Option.isSome_iff_exists.mp
  rw [lastNamed, List.find?_isSome]
  exact ⟨i, List.mem_reverse.mpr hi, by simp⟩

theorem mem_of_lastNamed {email : String} {j : Identity} (h : lastNamed cfg email = some j) :
    j ∈ allocatedIdentities cfg :=
  List.mem_reverse.mp (List.mem_of_find?_eq_some h)

/-- Where labels are distinct, everyone is the last of their label. -/
theorem NamespaceUserClear.lastOfLabel (h : Accepted cfg)
    (hcheck : (checkIdentityCollisions crypto.uuid5 cfg).isOk = true)
    (hclear : NamespaceUserClear cfg) {i : Identity} (hi : i ∈ allocatedIdentities cfg) :
    LastOfLabel cfg i := by
  obtain ⟨before, after, heq⟩ := List.append_of_mem hi
  refine ⟨before, after, heq, fun j hj hemail => ?_⟩
  have hsub := allocatedIdentities_sublist cfg
  have hj' : j ∈ allocatedIdentities cfg := by simp [heq, hj]
  have hsame := label_inj h hcheck hclear (hsub.subset hj') (hsub.subset hi) hemail
  have hnodup := (identities_nodup hcheck).sublist hsub
  rw [heq, hsame.symm] at hnodup
  simp [List.nodup_append, hj] at hnodup

section Peers

variable {p : HubRegion × HubNode} {node : HubNode} {keys : NodeKeys} {wg : WireguardConfig}
  {allocs : List WireguardPeer} {i j : Identity}

/-- The peer found for a label is that of the last identity it names. -/
theorem Allocates.allocOf_map (h : Allocates crypto cfg node wg allocs) (email : String) :
    (allocOf allocs email).map (·.identity) =
      (lastNamed cfg email).map (Identity.uuid crypto.uuid5 cfg.ns) := by
  have hfind := congrArg (fun l => (l.reverse.find? fun e => decide (e.1 = email)).map Prod.snd)
    h.identities
  simp only [← List.map_reverse, List.find?_map, Option.map_map] at hfind
  exact hfind

theorem Allocates.exists_alloc (h : Allocates crypto cfg node wg allocs)
    (hi : i ∈ allocatedIdentities cfg) :
    ∃ alloc ∈ allocs, alloc.identity = i.uuid crypto.uuid5 cfg.ns := by
  have hmem := List.mem_map_of_mem (f := fun i : Identity =>
    (i.email cfg.ns, i.uuid crypto.uuid5 cfg.ns)) hi
  rw [← h.identities] at hmem
  obtain ⟨alloc, halloc, heq⟩ := List.mem_map.mp hmem
  exact ⟨alloc, halloc, congrArg Prod.snd heq⟩

theorem Allocates.exists_identity (h : Allocates crypto cfg node wg allocs)
    {alloc : WireguardPeer} (halloc : alloc ∈ allocs) :
    ∃ i ∈ allocatedIdentities cfg, alloc.identity = i.uuid crypto.uuid5 cfg.ns := by
  have hmem := List.mem_map_of_mem (f := fun a : WireguardPeer => (a.email, a.identity)) halloc
  rw [h.identities] at hmem
  obtain ⟨i, hi, heq⟩ := List.mem_map.mp hmem
  exact ⟨i, hi, (congrArg Prod.snd heq).symm⟩

/-! ## Whose config it is -/

/-- No two allocated identities have one public key on the hub node with the keys. -/
def PeerKeysApart (crypto : Crypto) (cfg : ConglomerateConfig) (keys : NodeKeys) : Prop :=
  ∀ i ∈ allocatedIdentities cfg, ∀ j ∈ allocatedIdentities cfg,
    peerKey crypto cfg.ns keys.realityPrivateKey (i.uuid crypto.uuid5 cfg.ns) =
        peerKey crypto cfg.ns keys.realityPrivateKey (j.uuid crypto.uuid5 cfg.ns) →
      i.uuid crypto.uuid5 cfg.ns = j.uuid crypto.uuid5 cfg.ns

/-- A config reaches the WireGuard inbound of a hub node and is known there as one peer. -/
structure WireguardClientConf.ServedBy (conf : WireguardClientConf) (crypto : Crypto)
    (node : HubNode) (keys : NodeKeys) (inbound : Inbound) (peer : PeerEntry) : Prop where
  address : peer.allowedIps = [conf.address]
  key : ∃ peers, inbound.settings =
      .wireguard (crypto.x25519UrlsafeToStd keys.realityPrivateKey) conf.mtu peers ∧
    ∃ seed publicKey, crypto.x25519KeypairFromSeed seed = (conf.privateKey, publicKey) ∧
      peers.filter (fun q => q.publicKey = publicKey) = [peer]
  server : conf.serverPublicKey = crypto.x25519UrlsafeToStd keys.realityPublicKey
  endpoint : ∃ port, inbound.port = some port ∧
    conf.endpoint = node.hostname.val ++ ":" ++ toString port

/-- The config has the address allocated to the identity, and the key of the peer made for it. -/
def IssuedTo (crypto : Crypto) (cfg : ConglomerateConfig) (store : KeyStore)
    (p : HubRegion × HubNode) (keys : NodeKeys) (i : Identity)
    (conf : WireguardClientConf) : Prop :=
  ∃ wg allocs alloc ctx, Allocates crypto cfg p.2 wg allocs ∧ alloc ∈ allocs ∧
    alloc.identity = i.uuid crypto.uuid5 cfg.ns ∧ conf.address = alloc.allowedIp ∧
    buildWireguard (hubEnv crypto cfg p.1 p.2 keys) = .ok (some ctx) ∧
    conf.ServedBy crypto p.2 keys ctx.fragment
      (peerEntry crypto cfg.ns keys wg.keepalive alloc) ∧
    Serves crypto cfg store p keys ctx.fragment (ctx.config.port.val, .udp)

/-- The inbound of the hub node has a peer allocated to the identity. -/
def HasPeer (crypto : Crypto) (cfg : ConglomerateConfig) (p : HubRegion × HubNode)
    (keys : NodeKeys) (i : Identity) : Prop :=
  ∃ wg allocs alloc ctx, Allocates crypto cfg p.2 wg allocs ∧ alloc ∈ allocs ∧
    alloc.identity = i.uuid crypto.uuid5 cfg.ns ∧
    buildWireguard (hubEnv crypto cfg p.1 p.2 keys) = .ok (some ctx) ∧
    peerEntry crypto cfg.ns keys wg.keepalive alloc ∈ ctx.peers

/-- An identity has a peer only where it is allocated one. -/
theorem HasPeer.allocated (h : HasPeer crypto cfg p keys i)
    (hcheck : (checkIdentityCollisions crypto.uuid5 cfg).isOk = true)
    (hi : i ∈ HexRift.identities cfg) : i ∈ allocatedIdentities cfg := by
  obtain ⟨wg, allocs, alloc, ctx, hallocs, halloc, hidentity, -, -⟩ := h
  obtain ⟨j, hj, huuid⟩ := hallocs.exists_identity halloc
  rw [hidentity] at huuid
  rw [uuid_inj hcheck hi ((allocatedIdentities_sublist cfg).subset hj) huuid]
  exact hj

theorem serves_wireguard (hp : p ∈ hubNodePairs cfg) (hkeys : store p.2.id.val = some keys)
    {ctx : WireguardContext}
    (hctx : buildWireguard (hubEnv crypto cfg p.1 p.2 keys) = .ok (some ctx)) :
    Serves crypto cfg store p keys ctx.fragment (ctx.config.port.val, .udp) := by
  refine serves_of_slots hp hkeys (fun slots hslots => ?_) fun config _ hmem => ?_
  · have hslot : slots.wireguard = some ctx :=
      (Except.ok.inj (hctx.symm.trans hslots.wireguard)).symm
    simp [buildInbounds, hslot]
  · apply mem_sockets_of_inbound hmem
    simp [Inbound.sockets, Inbound.transports, WireguardContext.fragment]

/-- The config of an allocated peer is issued to the identity the peer is allocated to. -/
theorem clientConf_issued (hcheck : (checkIdentityCollisions crypto.uuid5 cfg).isOk = true)
    (hp : p ∈ hubNodePairs cfg) (hkeys : store p.2.id.val = some keys)
    (hapart : PeerKeysApart crypto cfg keys) (h : Allocates crypto cfg p.2 wg allocs)
    {alloc : WireguardPeer} (halloc : alloc ∈ allocs)
    (hidentity : alloc.identity = i.uuid crypto.uuid5 cfg.ns) :
    IssuedTo crypto cfg store p keys i (clientConf crypto cfg p.2 keys wg alloc) := by
  have hctx : buildWireguard (hubEnv crypto cfg p.1 p.2 keys) =
      .ok (some (wireguardContext crypto cfg keys wg allocs)) :=
    buildWireguard_eq_some.mpr ⟨wg, allocs, h, List.ne_nil_of_mem halloc, rfl⟩
  have hnodup : ((allocs.map (peerEntry crypto cfg.ns keys wg.keepalive)).map
      (·.publicKey)).Nodup := by
    have hpeers : (allocs.map (peerEntry crypto cfg.ns keys wg.keepalive)).map (·.publicKey) =
        (allocatedIdentities cfg).map fun i =>
          peerKey crypto cfg.ns keys.realityPrivateKey (i.uuid crypto.uuid5 cfg.ns) := by
      have hmap := congrArg (List.map fun e => peerKey crypto cfg.ns keys.realityPrivateKey e.2)
        h.identities
      rw [List.map_map, List.map_map] at hmap
      rw [List.map_map]
      exact hmap
    rw [hpeers]
    have hids := (identities_nodup hcheck).sublist (allocatedIdentities_sublist cfg)
    refine hids.map_on fun i hi j hj heq => ?_
    exact uuid_inj hcheck ((allocatedIdentities_sublist cfg).subset hi)
      ((allocatedIdentities_sublist cfg).subset hj) (hapart i hi j hj heq)
  have hmem : peerEntry crypto cfg.ns keys wg.keepalive alloc ∈
      allocs.map (peerEntry crypto cfg.ns keys wg.keepalive) := List.mem_map_of_mem halloc
  refine ⟨wg, allocs, alloc, _, h, halloc, hidentity, rfl, hctx, ?_,
    serves_wireguard hp hkeys hctx⟩
  exact {
    address := rfl
    key := ⟨_, rfl, _, _, rfl, Distinct.filter_key_eq_singleton hnodup hmem⟩
    server := rfl
    endpoint := ⟨_, rfl, rfl⟩ }

/-- A config is issued to one identity. -/
theorem IssuedTo.unique (hcheck : (checkIdentityCollisions crypto.uuid5 cfg).isOk = true)
    (hpublic : ∀ s t, (crypto.x25519KeypairFromSeed s).1 = (crypto.x25519KeypairFromSeed t).1 →
      (crypto.x25519KeypairFromSeed s).2 = (crypto.x25519KeypairFromSeed t).2)
    (hapart : PeerKeysApart crypto cfg keys) (hi : i ∈ allocatedIdentities cfg)
    (hj : j ∈ allocatedIdentities cfg) {conf : WireguardClientConf}
    (h : IssuedTo crypto cfg store p keys i conf) (h' : IssuedTo crypto cfg store p keys j conf) :
    i = j := by
  -- both peers have the public key of the config's private key
  have hkey : ∀ {k : Identity}, IssuedTo crypto cfg store p keys k conf →
      ∃ seed, (crypto.x25519KeypairFromSeed seed).1 = conf.privateKey ∧
        (crypto.x25519KeypairFromSeed seed).2 =
          peerKey crypto cfg.ns keys.realityPrivateKey (k.uuid crypto.uuid5 cfg.ns) := by
    intro k hissued
    obtain ⟨wg, allocs, alloc, ctx, -, -, hidentity, -, -, hserved, -⟩ := hissued
    obtain ⟨peers, -, seed, publicKey, hpair, hfilter⟩ := hserved.key
    refine ⟨seed, by rw [hpair], ?_⟩
    have hmem : peerEntry crypto cfg.ns keys wg.keepalive alloc ∈
        peers.filter fun q => q.publicKey = publicKey := by
      rw [hfilter]
      exact List.mem_singleton_self _
    have hpublicKey := (List.mem_filter.mp hmem).2
    simp only [peerEntry, hidentity, decide_eq_true_eq] at hpublicKey
    rw [hpair, hpublicKey]
  obtain ⟨s, hs, hspublic⟩ := hkey h
  obtain ⟨t, ht, htpublic⟩ := hkey h'
  have hsame := hpublic s t (hs.trans ht.symm)
  rw [hspublic, htpublic] at hsame
  exact uuid_inj hcheck ((allocatedIdentities_sublist cfg).subset hi)
    ((allocatedIdentities_sublist cfg).subset hj) (hapart i hi j hj hsame)

end Peers

/-! ## One hub node -/

section Node

variable {p : HubRegion × HubNode} {keys : NodeKeys} {i : Identity}
  {e : String × WireguardClientConf}

/-- The config built for an identity is issued to the last one of its label. -/
theorem wireguardConfig_issued (hcheck : (checkIdentityCollisions crypto.uuid5 cfg).isOk = true)
    (hp : p ∈ hubNodePairs cfg) (hkeys : store p.2.id.val = some keys)
    (hapart : PeerKeysApart crypto cfg keys) (hi : i ∈ allocatedIdentities cfg)
    (h : wireguardConfig crypto cfg store (i.resolved crypto.uuid5 cfg.ns) p.2 = .ok (some e)) :
    e.1 = configLabel p.2 i.label ∧ ∃ j, lastNamed cfg (i.email cfg.ns) = some j ∧
      IssuedTo crypto cfg store p keys j e.2 := by
  obtain ⟨wg, allocs, alloc, keys', hallocs, halloc, hkeys', rfl⟩ := wireguardConfig_eq_some.mp h
  rw [hkeys] at hkeys'
  cases hkeys'
  obtain ⟨j, hj⟩ := lastNamed_isSome hi
  have hidentity : alloc.identity = j.uuid crypto.uuid5 cfg.ns := by
    have hmap := hallocs.allocOf_map (i.email cfg.ns)
    rw [hj, show allocOf allocs (i.email cfg.ns) = some alloc from halloc] at hmap
    simpa using hmap
  have hmem : alloc ∈ allocs := List.mem_reverse.mp (List.mem_of_find?_eq_some halloc)
  exact ⟨rfl, j, hj, clientConf_issued hcheck hp hkeys hapart hallocs hmem hidentity⟩

/-- The config built for an identity is its own when nobody allocated after it has its label. -/
theorem wireguardConfig_issued_iff
    (hcheck : (checkIdentityCollisions crypto.uuid5 cfg).isOk = true)
    (hpublic : ∀ s t, (crypto.x25519KeypairFromSeed s).1 = (crypto.x25519KeypairFromSeed t).1 →
      (crypto.x25519KeypairFromSeed s).2 = (crypto.x25519KeypairFromSeed t).2)
    (hp : p ∈ hubNodePairs cfg) (hkeys : store p.2.id.val = some keys)
    (hapart : PeerKeysApart crypto cfg keys) (hi : i ∈ allocatedIdentities cfg)
    (h : wireguardConfig crypto cfg store (i.resolved crypto.uuid5 cfg.ns) p.2 = .ok (some e)) :
    IssuedTo crypto cfg store p keys i e.2 ↔ LastOfLabel cfg i := by
  obtain ⟨-, j, hj, hissued⟩ := wireguardConfig_issued hcheck hp hkeys hapart hi h
  rw [lastOfLabel_iff, hj, Option.some.injEq]
  constructor
  · intro hown
    exact hissued.unique hcheck hpublic hapart (mem_of_lastNamed hj) hi hown
  · intro heq
    exact heq ▸ hissued

/-- Where peers are allocated, every allocated identity has one. -/
theorem Allocates.hasPeer {wg : WireguardConfig} {allocs : List WireguardPeer}
    (h : Allocates crypto cfg p.2 wg allocs) (hi : i ∈ allocatedIdentities cfg) :
    HasPeer crypto cfg p keys i := by
  obtain ⟨alloc, halloc, hidentity⟩ := h.exists_alloc hi
  exact ⟨wg, allocs, alloc, _, h, halloc, hidentity,
    buildWireguard_eq_some.mpr ⟨wg, allocs, h, List.ne_nil_of_mem halloc, rfl⟩,
    List.mem_map_of_mem halloc⟩

/-- A hub node with a peer for the identity is given a config. -/
theorem wireguardConfig_of_hasPeer
    (hcheck : (checkIdentityCollisions crypto.uuid5 cfg).isOk = true)
    (hkeys : store p.2.id.val = some keys) (hi : i ∈ HexRift.identities cfg)
    (h : HasPeer crypto cfg p keys i) :
    ∃ conf, wireguardConfig crypto cfg store (i.resolved crypto.uuid5 cfg.ns) p.2 =
      .ok (some (configLabel p.2 i.label, conf)) := by
  have hallocated := h.allocated hcheck hi
  obtain ⟨wg, allocs, -, -, hallocs, -⟩ := h
  obtain ⟨j, hj⟩ := lastNamed_isSome hallocated
  have hmap := hallocs.allocOf_map (i.email cfg.ns)
  rw [hj, Option.map_some] at hmap
  obtain ⟨alloc, halloc, -⟩ := Option.map_eq_some_iff.mp hmap
  exact ⟨_, wireguardConfig_eq_some.mpr ⟨wg, allocs, alloc, keys, hallocs, halloc, hkeys, rfl⟩⟩

theorem WireguardFits.allocates {node : HubNode} {wg : WireguardConfig}
    (h : WireguardFits crypto cfg node)
    (hresolved : resolveNodeWireguard node cfg.defaults = .ok (some wg)) :
    ∃ allocs, Allocates crypto cfg node wg allocs := by
  obtain ⟨wireguard, hwireguard, hroom⟩ := h
  rw [hresolved] at hwireguard
  cases hwireguard
  obtain ⟨allocs, hallocs⟩ : ∃ allocs, iterHubWireguardAllocs crypto.uuid5 cfg.users cfg.ns
      wg.subnet = .ok allocs :=
    iterHubWireguardAllocs_total (hroom wg rfl).1 (hroom wg rfl).2
  exact ⟨allocs, hresolved, hallocs⟩

theorem wireguardConfig_total (hkeys : store p.2.id.val = some keys)
    (hfits : WireguardFits crypto cfg p.2) (identity : ResolvedIdentity) :
    ∃ slot, wireguardConfig crypto cfg store identity p.2 = .ok slot := by
  obtain ⟨wireguard, hresolved, -⟩ := id hfits
  simp only [wireguardConfig, hresolved, bind_eq_ok, Except.ok.injEq, exists_eq_left']
  cases wireguard with
  | none => exact ⟨none, rfl⟩
  | some wg =>
      obtain ⟨allocs, hallocs⟩ := hfits.allocates hresolved
      simp only [hallocs.allocated, bind_eq_ok, Except.ok.injEq, exists_eq_left']
      cases allocOf allocs identity.email with
      | none => exact ⟨none, rfl⟩
      | some alloc =>
          simp only [bind_eq_ok, loadNodeKeys_eq_ok]
          exact ⟨_, keys, hkeys, rfl⟩

end Node

/-! ## Labels of the configs -/

/-- How the identity of a request for one is called in labels. -/
def ShareRequest.label (user : User) (one : ShareRequest) : String :=
  match one.guest with
  | some guest => guest ++ "@" ++ user.username.val
  | none => if one.server then serverEmail user.username.val else user.username.val

theorem Asks.label_eq {user : User} {one : ShareRequest} {i : Identity}
    (h : Asks user one.guest one.server i) : i.label = one.label user := by
  unfold ShareRequest.label
  generalize one.guest = guest at h
  generalize one.server = server at h
  cases h <;> simp [Identity.label]

theorem configLabel_inj {n m : HubNode} {l l' : String} (h : configLabel n l = configLabel m l') :
    n.id.val = m.id.val ∧ l = l' := by
  have hsplit : ∀ (n : HubNode) (l : String),
      configLabel n l = n.id.val ++ String.singleton ' ' ++ (" WireGuard  " ++ l) := by
    intro n l
    have hspace : ("  WireGuard  " : String) = String.singleton ' ' ++ " WireGuard  " := by decide
    rw [configLabel, hspace, ← String.append_assoc, String.append_assoc]
  have hid : ∀ n : HubNode, ' ' ∉ n.id.val.toList := fun n => Identifier.not_mem (by decide) n.id
  rw [hsplit, hsplit] at h
  obtain ⟨hname, hrest⟩ := Separator.append_inj_left (hid n) (hid m) h
  exact ⟨hname, (String.append_right_inj _).mp hrest⟩

theorem label_inj_on_parts {req one other : ShareRequest} {user : User}
    (hone : one ∈ req.parts user) (hother : other ∈ req.parts user)
    (h : one.label user = other.label user) : one = other := by
  unfold ShareRequest.parts at hone hother
  by_cases hall : req.allGuests = true
  · rw [if_pos hall] at hone hother
    obtain ⟨label, -, rfl⟩ := List.mem_map.mp hone
    obtain ⟨label', -, rfl⟩ := List.mem_map.mp hother
    simp only [ShareRequest.label, ShareRequest.forGuest] at h ⊢
    rw [(String.append_left_inj _).mp ((String.append_left_inj _).mp h)]
  · rw [if_neg hall, List.mem_singleton] at hone hother
    rw [hone, hother]

/-! ## A call -/

/-- Two guests of a user with one label would share a UUID. -/
theorem guests_nodup (hcheck : (checkIdentityCollisions crypto.uuid5 cfg).isOk = true)
    {user : User} (hu : user ∈ cfg.users) : user.guests.Nodup := by
  have husers : (cfg.users.flatMap identitiesOf).Nodup := (identities_nodup hcheck).of_append_left
  have hown : (identitiesOf user).Nodup := (List.nodup_flatMap.mp husers).1 user hu
  rw [identitiesOf, List.nodup_cons, List.nodup_cons] at hown
  exact hown.2.2.of_map _

theorem requestedPairs_nodup (h : Accepted cfg) {hubId : Option String}
    {pairs : List (HubRegion × HubNode)} (hpairs : requestedPairs cfg hubId = .ok pairs) :
    (pairs.map fun p => p.2.id.val).Nodup := by
  cases hubId with
  | none =>
      cases hpairs
      exact hubNodeIds_nodup h
  | some id =>
      simp only [requestedPairs, bind_eq_ok] at hpairs
      obtain ⟨placed, -, hplaced⟩ := hpairs
      cases placed with
      | exit r n => cases hplaced
      | hub r n =>
          rw [pure_eq_ok] at hplaced
          subst hplaced
          simp

theorem wireguardConfigsOf_eq_ok {user : User} {one : ShareRequest}
    {configs : List (String × WireguardClientConf)}
    (h : wireguardConfigsOf crypto cfg store user one = .ok configs) :
    ∃ i pairs slots, AccessType.wireguard ∈ user.access ∧ Asks user one.guest one.server i ∧
      requestedPairs cfg one.hubId = .ok pairs ∧
      mapEach pairs (fun p => wireguardConfig crypto cfg store (i.resolved crypto.uuid5 cfg.ns)
        p.2) = .ok slots ∧ slots.filterMap id = configs ∧ configs ≠ [] := by
  simp only [wireguardConfigsOf, bind_eq_ok, pure_eq_ok, ensure_eq_ok, exists_const] at h
  obtain ⟨haccess, identity, hidentity, pairs, hpairs, slots, hslots, hne, rfl⟩ := h
  obtain ⟨i, hasks, rfl⟩ := resolveIdentity_eq_ok.mp hidentity
  exact ⟨i, pairs, slots, haccess, hasks, hpairs, hslots, rfl, hne⟩

section Calls

variable {req one : ShareRequest} {user : User} {pairs : List (HubRegion × HubNode)}
  {configs part : List (String × WireguardClientConf)} {i : Identity}

/-- The configs of one identity are those of the requested hub nodes. -/
theorem mem_wireguardConfigsOf (h : wireguardConfigsOf crypto cfg store user one = .ok part)
    (hpairs : requestedPairs cfg one.hubId = .ok pairs) (hasks : Asks user one.guest one.server i)
    {e : String × WireguardClientConf} :
    e ∈ part ↔ ∃ p ∈ pairs, wireguardConfig crypto cfg store (i.resolved crypto.uuid5 cfg.ns) p.2 =
      .ok (some e) := by
  obtain ⟨j, pairs', slots, -, hj, hpairs', hslots, rfl, -⟩ := wireguardConfigsOf_eq_ok h
  rw [hpairs] at hpairs'
  cases hpairs'
  cases hj.unique hasks
  simp only [List.mem_filterMap, id_eq, exists_eq_right, mem_mapEach hslots]

/-- The labels of one identity's configs, in the order of the nodes. -/
theorem labels_sublist (h : wireguardConfigsOf crypto cfg store user one = .ok part)
    (hpairs : requestedPairs cfg one.hubId = .ok pairs) :
    (part.map Prod.fst).Sublist (pairs.map fun p => configLabel p.2 (one.label user)) := by
  obtain ⟨j, pairs', slots, -, hj, hpairs', hslots, rfl, -⟩ := wireguardConfigsOf_eq_ok h
  rw [hpairs] at hpairs'
  cases hpairs'
  rw [List.filterMap_eq_flatMap_toList, List.map_flatMap, List.map_eq_flatMap]
  refine mapEach_flatMap_sublist (fun p _ slot hslot => ?_) hslots
  cases slot with
  | none => exact List.nil_sublist _
  | some e =>
      obtain ⟨wg, allocs, alloc, keys, -, -, -, rfl⟩ := wireguardConfig_eq_some.mp hslot
      rw [← hj.label_eq]
      exact List.Sublist.refl _

/-- No label is given to two configs. -/
theorem labels_nodup (h : Accepted cfg) (hguests : user.guests.Nodup)
    (huser : resolveUser cfg req.username = .ok user)
    (hpairs : requestedPairs cfg req.hubId = .ok pairs)
    (hcall : buildWireguardConfigs crypto cfg store req = .ok configs) :
    (configs.map Prod.fst).Nodup := by
  obtain ⟨-, -, parts, hparts, rfl⟩ := (perIdentity_eq_ok huser).mp hcall
  have hsub : (parts.flatten.map Prod.fst).Sublist ((req.parts user).flatMap fun one =>
      pairs.map fun p => configLabel p.2 (one.label user)) := by
    rw [List.map_flatten, ← List.flatMap_def]
    refine mapEach_flatMap_sublist (fun one hone part hpart => ?_) hparts
    exact labels_sublist hpart (requestedPairs_of_part hpairs hone)
  have hnodes : ∀ one : ShareRequest,
      (pairs.map fun p => configLabel p.2 (one.label user)).Nodup := by
    intro one
    have hids := requestedPairs_nodup h hpairs
    refine (List.Nodup.of_map _ hids).map_on fun p hp q hq heq => ?_
    exact List.inj_on_of_nodup_map hids hp hq (configLabel_inj heq).1
  have honce : (req.parts user).Nodup := by
    unfold ShareRequest.parts
    by_cases hall : req.allGuests = true
    · rw [if_pos hall]
      refine hguests.map_on fun label _ label' _ heq => ?_
      simpa [ShareRequest.forGuest, Identifier.val_inj] using heq
    · rw [if_neg hall]
      exact List.nodup_singleton req
  refine List.Nodup.sublist hsub (List.nodup_flatMap.mpr ⟨fun one _ => hnodes one, ?_⟩)
  refine honce.pairwise_of_forall_ne fun one hone other hother hne => ?_
  intro label hlabel hlabel'
  obtain ⟨p, -, rfl⟩ := List.mem_map.mp hlabel
  obtain ⟨q, -, heq⟩ := List.mem_map.mp hlabel'
  exact hne (label_inj_on_parts hone hother (configLabel_inj heq).2.symm)

/-- Each config is issued to the identity its label names, and every node with a peer for an
identity asked for yields one. -/
structure ConfigsIssued (crypto : Crypto) (cfg : ConglomerateConfig) (store : KeyStore)
    (user : User) (req : ShareRequest) (pairs : List (HubRegion × HubNode))
    (configs : List (String × WireguardClientConf)) : Prop where
  issued : ∀ e ∈ configs, ∃ one ∈ req.parts user, ∃ i, Asks user one.guest one.server i ∧
    ∃ p ∈ pairs, ∃ keys, store p.2.id.val = some keys ∧ e.1 = configLabel p.2 i.label ∧
      IssuedTo crypto cfg store p keys i e.2
  each : ∀ one ∈ req.parts user, ∀ i, Asks user one.guest one.server i → ∀ p ∈ pairs, ∀ keys,
    store p.2.id.val = some keys → HasPeer crypto cfg p keys i →
      ∃ conf, configs.filter (fun e => e.1 = configLabel p.2 i.label) =
        [(configLabel p.2 i.label, conf)]

/-- What one part of a call builds. -/
theorem part_of_call (huser : resolveUser cfg req.username = .ok user)
    (hpairs : requestedPairs cfg req.hubId = .ok pairs)
    (hcall : buildWireguardConfigs crypto cfg store req = .ok configs)
    (hone : one ∈ req.parts user) (hasks : Asks user one.guest one.server i) :
    i ∈ allocatedIdentities cfg ∧ ∃ part, part ⊆ configs ∧ part ≠ [] ∧
      ∀ e, e ∈ part ↔ ∃ p ∈ pairs,
        wireguardConfig crypto cfg store (i.resolved crypto.uuid5 cfg.ns) p.2 = .ok (some e) := by
  obtain ⟨part, hpart, hsub⟩ := part_of_perIdentity huser hcall hone
  have hown := requestedPairs_of_part hpairs hone
  obtain ⟨-, -, -, haccess, -, -, -, -, hne⟩ := wireguardConfigsOf_eq_ok hpart
  exact ⟨hasks.mem_granted (resolveUser_eq_ok huser).1 haccess, part, hsub, hne,
    fun e => mem_wireguardConfigsOf hpart hown hasks⟩

section Issued

variable (hcheck : (checkIdentityCollisions crypto.uuid5 cfg).isOk = true)
  (hpublic : ∀ s t, (crypto.x25519KeypairFromSeed s).1 = (crypto.x25519KeypairFromSeed t).1 →
    (crypto.x25519KeypairFromSeed s).2 = (crypto.x25519KeypairFromSeed t).2)
  (huser : resolveUser cfg req.username = .ok user)
  (hpairs : requestedPairs cfg req.hubId = .ok pairs)
  (hapart : ∀ p ∈ pairs, ∀ keys, store p.2.id.val = some keys → PeerKeysApart crypto cfg keys)
  (hcall : buildWireguardConfigs crypto cfg store req = .ok configs)

include hcheck hpublic hpairs hapart in
/-- A config comes from a node with stored keys, and its label names node and identity. -/
theorem config_of_requested {p : HubRegion × HubNode} {e : String × WireguardClientConf}
    (hi : i ∈ allocatedIdentities cfg) (hp : p ∈ pairs)
    (he : wireguardConfig crypto cfg store (i.resolved crypto.uuid5 cfg.ns) p.2 = .ok (some e)) :
    ∃ keys, store p.2.id.val = some keys ∧ e.1 = configLabel p.2 i.label ∧
      (IssuedTo crypto cfg store p keys i e.2 ↔ LastOfLabel cfg i) := by
  obtain ⟨_, _, _, keys, -, -, hkeys, -⟩ := wireguardConfig_eq_some.mp he
  have hpair := mem_requestedPairs hpairs hp
  have hown := hapart p hp keys hkeys
  exact ⟨keys, hkeys, (wireguardConfig_issued hcheck hpair hkeys hown hi he).1,
    wireguardConfig_issued_iff hcheck hpublic hpair hkeys hown hi he⟩

include hcheck hpublic huser hpairs hapart hcall

theorem lastOfLabel_of_issued (h : Accepted cfg)
    (hissued : ConfigsIssued crypto cfg store user req pairs configs)
    (hone : one ∈ req.parts user) (hasks : Asks user one.guest one.server i) :
    LastOfLabel cfg i := by
  obtain ⟨hi, part, hsub, hne, hmem⟩ := part_of_call huser hpairs hcall hone hasks
  obtain ⟨e, he⟩ := List.exists_mem_of_ne_nil _ hne
  obtain ⟨p, hp, hconfig⟩ := (hmem e).mp he
  obtain ⟨keys, hkeys, hlabel, hiff⟩ :=
    config_of_requested hcheck hpublic hpairs hapart hi hp hconfig
  obtain ⟨other, hother, j, hj, q, hq, keys', hkeys', hlabel', hown⟩ :=
    hissued.issued e (hsub he)
  -- the label names the node and the identity
  obtain ⟨hid, hname⟩ := configLabel_inj (hlabel.symm.trans hlabel')
  have hnode : p = q := List.inj_on_of_nodup_map (requestedPairs_nodup h hpairs) hp hq hid
  subst hnode
  rw [hkeys] at hkeys'
  cases hkeys'
  rw [hasks.label_eq, hj.label_eq] at hname
  obtain rfl := label_inj_on_parts hone hother hname
  obtain rfl := hasks.unique hj
  exact hiff.mp hown

theorem issued_of_lastOfLabel (h : Accepted cfg)
    (hlast : ∀ one ∈ req.parts user, ∀ i, Asks user one.guest one.server i → LastOfLabel cfg i) :
    ConfigsIssued crypto cfg store user req pairs configs := by
  have hu := (resolveUser_eq_ok huser).1
  constructor
  · intro e he
    obtain ⟨one, hone, part, hpart, hmem⟩ := (mem_perIdentity huser hcall).mp he
    obtain ⟨i, -, -, haccess, hasks, -, -, -, -⟩ := wireguardConfigsOf_eq_ok hpart
    have hown := requestedPairs_of_part hpairs hone
    obtain ⟨p, hp, hconfig⟩ := (mem_wireguardConfigsOf hpart hown hasks).mp hmem
    obtain ⟨keys, hkeys, hlabel, hiff⟩ := config_of_requested hcheck hpublic hpairs hapart
      (hasks.mem_granted hu haccess) hp hconfig
    exact ⟨one, hone, i, hasks, p, hp, keys, hkeys, hlabel, hiff.mpr (hlast one hone i hasks)⟩
  · intro one hone i hasks p hp keys hkeys hpeer
    obtain ⟨hi, part, hsub, -, hmem⟩ := part_of_call huser hpairs hcall hone hasks
    obtain ⟨conf, hconf⟩ := wireguardConfig_of_hasPeer hcheck hkeys
      ((allocatedIdentities_sublist cfg).subset hi) hpeer
    have he := hsub ((hmem _).mpr ⟨p, hp, hconf⟩)
    have hnodup := labels_nodup h (guests_nodup hcheck hu) huser hpairs hcall
    exact ⟨conf, Distinct.filter_key_eq_singleton hnodup he⟩

theorem configsIssued_iff (h : Accepted cfg) :
    ConfigsIssued crypto cfg store user req pairs configs ↔
      ∀ one ∈ req.parts user, ∀ i, Asks user one.guest one.server i → LastOfLabel cfg i := by
  constructor
  · intro hissued one hone i hasks
    exact lastOfLabel_of_issued hcheck hpublic huser hpairs hapart hcall h hissued hone hasks
  · exact issued_of_lastOfLabel hcheck hpublic huser hpairs hapart hcall h

end Issued

theorem buildWireguardConfigs_total
    (hcheck : (checkIdentityCollisions crypto.uuid5 cfg).isOk = true)
    (huser : resolveUser cfg req.username = .ok user)
    (hpairs : requestedPairs cfg req.hubId = .ok pairs)
    (hflags : req.allGuests = true → req.guest = none ∧ req.server = false)
    (hready : ∀ p ∈ pairs, (store p.2.id.val).isSome = true ∧ WireguardFits crypto cfg p.2)
    (hone : one ∈ req.parts user) (hasks : Asks user one.guest one.server i)
    {p : HubRegion × HubNode} (hp : p ∈ pairs) {keys : NodeKeys}
    (hpeer : HasPeer crypto cfg p keys i) :
    ∃ configs, buildWireguardConfigs crypto cfg store req = .ok configs := by
  have hu := (resolveUser_eq_ok huser).1
  have haccess : AccessType.wireguard ∈ user.access :=
    hasks.access_of_granted (hpeer.allocated hcheck (hasks.mem_identities hu))
  obtain ⟨wg, allocs, -, -, hallocs, -⟩ := hpeer
  refine perIdentity_total huser hflags hone fun other hother => ?_
  obtain ⟨j, hj, -⟩ := asks_of_mem_parts hother hone hasks
  have hown := requestedPairs_of_part hpairs hother
  obtain ⟨slots, hslots⟩ : ∃ slots, mapEach pairs (fun p => wireguardConfig crypto cfg store
      (j.resolved crypto.uuid5 cfg.ns) p.2) = .ok slots := by
    apply mapEach_total.mpr
    intro q hq
    obtain ⟨hstored, hfits⟩ := hready q hq
    obtain ⟨keys, hkeys⟩ := Option.isSome_iff_exists.mp hstored
    exact wireguardConfig_total hkeys hfits _
  have hne : slots.filterMap id ≠ [] := by
    obtain ⟨keys, hkeys⟩ := Option.isSome_iff_exists.mp (hready p hp).1
    have hown : HasPeer crypto cfg p keys j := hallocs.hasPeer (hj.mem_granted hu haccess)
    obtain ⟨conf, hconf⟩ :=
      wireguardConfig_of_hasPeer hcheck hkeys (hj.mem_identities hu) hown
    have hslot := (mem_mapEach hslots).mpr ⟨p, hp, hconf⟩
    exact List.ne_nil_of_mem (List.mem_filterMap.mpr ⟨_, hslot, rfl⟩)
  simp only [wireguardConfigsOf, bind_eq_ok, pure_eq_ok, ensure_eq_ok, exists_const]
  exact ⟨_, haccess, _, resolveIdentity_eq_ok.mpr ⟨j, hj, rfl⟩, pairs, hown, slots, hslots, hne,
    rfl⟩

end Calls

/-- A call returns when some requested hub node has a peer for an identity asked for, and its
configs are issued to the identities asked for when nobody allocated after them has their label.
What X25519 and the keyed hash give is assumed: a public key follows from its private key, and
identities have keys of their own. -/
theorem wireguard_configs_issued_iff (cfg : AcceptedConfig)
    (hcheck : (checkIdentityCollisions crypto.uuid5 cfg.toConglomerateConfig).isOk = true)
    (hpublic : ∀ s t, (crypto.x25519KeypairFromSeed s).1 = (crypto.x25519KeypairFromSeed t).1 →
      (crypto.x25519KeypairFromSeed s).2 = (crypto.x25519KeypairFromSeed t).2)
    {req : ShareRequest} {user : User}
    (huser : resolveUser cfg.toConglomerateConfig req.username = .ok user)
    {pairs : List (HubRegion × HubNode)}
    (hpairs : requestedPairs cfg.toConglomerateConfig req.hubId = .ok pairs)
    (hapart : ∀ p ∈ pairs, ∀ keys, store p.2.id.val = some keys →
      PeerKeysApart crypto cfg.toConglomerateConfig keys) :
    (∀ configs, buildWireguardConfigs crypto cfg.toConglomerateConfig store req = .ok configs →
      (ConfigsIssued crypto cfg.toConglomerateConfig store user req pairs configs ↔
        ∀ one ∈ req.parts user, ∀ i, Asks user one.guest one.server i →
          LastOfLabel cfg.toConglomerateConfig i)) ∧
    ((req.allGuests = true → req.guest = none ∧ req.server = false) →
      (∀ p ∈ pairs, (store p.2.id.val).isSome = true ∧
        WireguardFits crypto cfg.toConglomerateConfig p.2) →
      (∃ one ∈ req.parts user, ∃ i, Asks user one.guest one.server i ∧ ∃ p ∈ pairs, ∃ keys,
        HasPeer crypto cfg.toConglomerateConfig p keys i) →
      ∃ configs, buildWireguardConfigs crypto cfg.toConglomerateConfig store req =
        .ok configs) := by
  constructor
  · exact fun configs hcall =>
      configsIssued_iff hcheck hpublic huser hpairs hapart hcall cfg.spec
  · intro hflags hready ⟨one, hone, i, hasks, p, hp, keys, hpeer⟩
    exact buildWireguardConfigs_total hcheck huser hpairs hflags hready hone hasks hp hpeer

theorem office_public (s t : Bytes)
    (h : (Sample.officeCrypto.x25519KeypairFromSeed s).1 =
      (Sample.officeCrypto.x25519KeypairFromSeed t).1) :
    (Sample.officeCrypto.x25519KeypairFromSeed s).2 =
      (Sample.officeCrypto.x25519KeypairFromSeed t).2 := by
  revert h
  simp only [Sample.officeCrypto]
  split_ifs <;> decide

theorem office_keys_apart :
    PeerKeysApart Sample.officeCrypto Sample.office.toConglomerateConfig Sample.officeKeys := by
  unfold PeerKeysApart
  decide +kernel

theorem wireguard_configs_issued_office :
    ∃ configs, buildWireguardConfigs Sample.officeCrypto Sample.office.toConglomerateConfig
        Sample.officeStore { username := "alice", allGuests := true } = .ok configs ∧
      ConfigsIssued Sample.officeCrypto Sample.office.toConglomerateConfig Sample.officeStore
        Sample.alice { username := "alice", allGuests := true }
        (hubNodePairs Sample.office.toConglomerateConfig) configs := by
  have hready : ∀ p ∈ hubNodePairs Sample.office.toConglomerateConfig,
      (Sample.officeStore p.2.id.val).isSome = true ∧
        WireguardFits Sample.officeCrypto Sample.office.toConglomerateConfig p.2 :=
    fun p hp => ⟨rfl, office_provisioned.wireguard p hp⟩
  have hapart : ∀ p ∈ hubNodePairs Sample.office.toConglomerateConfig, ∀ keys,
      Sample.officeStore p.2.id.val = some keys →
        PeerKeysApart Sample.officeCrypto Sample.office.toConglomerateConfig keys := by
    intro p _ keys hkeys
    cases hkeys
    exact office_keys_apart
  have hphone : Asks Sample.alice (some "phone") false (.guest Sample.alice { val := "phone" }) :=
    Asks.guest (show ({ val := "phone" } : Identifier) ∈ Sample.alice.guests by decide)
  obtain ⟨hissued, htotal⟩ := @wireguard_configs_issued_iff Sample.officeCrypto Sample.officeStore
    Sample.office office_checked office_public { username := "alice", allGuests := true }
    Sample.alice (by decide) (hubNodePairs Sample.office.toConglomerateConfig) rfl hapart
  obtain ⟨wg, hwg⟩ : ∃ wg, resolveNodeWireguard Sample.officeNode
      Sample.office.defaults = .ok (some wg) := ⟨_, rfl⟩
  obtain ⟨allocs, hallocs⟩ :=
    (hready (Sample.officeRegion, Sample.officeNode) (by decide)).2.allocates hwg
  have hpeer : HasPeer Sample.officeCrypto Sample.office.toConglomerateConfig
      (Sample.officeRegion, Sample.officeNode) Sample.officeKeys
        (.guest Sample.alice { val := "phone" }) := hallocs.hasPeer (by decide)
  obtain ⟨configs, hcall⟩ := htotal (by decide) hready
    ⟨_, List.mem_singleton_self _, _, hphone, (Sample.officeRegion, Sample.officeNode), by decide,
      Sample.officeKeys, hpeer⟩
  refine ⟨configs, hcall, (hissued configs hcall).mpr fun one hone i hasks => ?_⟩
  obtain rfl := List.mem_singleton.mp hone
  obtain rfl := hphone.unique hasks
  exact ⟨[.user Sample.alice, .server Sample.alice], [], by decide, by simp⟩

/-! ## A namespace that is a username -/

namespace Sample

def corpSeed : Bytes :=
  [240, 120, 10, 211, 248, 198, 146, 251, 103, 12, 47, 142, 137, 45, 128, 80,
    60, 220, 247, 145, 148, 25, 213, 159, 206, 116, 244, 238, 122, 26, 218, 172]

def corpGuestSeed : Bytes :=
  [203, 66, 52, 123, 43, 237, 163, 176, 65, 47, 40, 197, 251, 158, 245, 158,
    95, 37, 32, 23, 243, 131, 213, 183, 69, 82, 38, 239, 50, 26, 244, 209]

def corpAliceSeed : Bytes :=
  [179, 219, 169, 187, 199, 188, 188, 95, 95, 47, 242, 113, 136, 20, 128, 32,
    7, 162, 149, 139, 244, 197, 23, 71, 139, 106, 0, 120, 173, 68, 157, 54]

/-- The cryptography of `corp`, by its values on what its hub derives for WireGuard. -/
def corpCrypto : Crypto :=
  { officeCrypto with
    uuid5 := namespaceUserUuid5
    hmacFromRealityKey := fun _ => tabulated [] [
      ("ea7db3ef-2648-54d8-9b95-def27fa3b2b9.wireguard.corp", corpSeed),
      ("95a473a7-36ce-53d4-9df1-52e2896fba3a.wireguard.corp", corpGuestSeed),
      ("6080d1d8-c8f3-5e1c-b061-063e36c16bba.wireguard.corp", corpAliceSeed)]
    x25519KeypairFromSeed := fun seed =>
      if seed = corpSeed then
        ("8HgK0/jGkvtnDC+OiS2AUDzc95GUGdWfznT07noa2qw=",
          "4AHmF7PVD1sxyYzXUSQxoXGk13fNBBTnxhTgwMyRpQA=")
      else if seed = corpGuestSeed then
        ("y0I0eyvto7BBLyjF+571nl8lIBfzg9W3RVIm7zIa9NE=",
          "YIZMSML189NcQeF7KjikQCf6DaMvFf2b0LarJzTA8GQ=")
      else if seed = corpAliceSeed then
        ("s9upu8e8vF9fL/JxiBSAIAeilYv0xRdHi2oAeK1EnTY=",
          "ozZlVfqMWYj7FE7iGnADwMDn9jyGcPhVVH2rymFQXFE=")
      else ("", "") }

/-- Named like the namespace, with a guest named like the other user. -/
def corpUser : User :=
  { username := corpName, group := mainGroup, access := [.wireguard]
    guests := [aliceName] }

def corpAlice : User :=
  { username := aliceName, group := mainGroup, access := [.wireguard] }

def corpRegion : HubRegion :=
  { hubRegion with nodes := [{ hubNode with wireguard := officeNode.wireguard }] }

def corp : AcceptedConfig :=
  { topology [] [corpUser, corpAlice] [] corpRegion with
    global := corpGlobal }

end Sample

/-- The guest `alice` of `corp` is issued the address and the key of the user `alice`. -/
theorem guest_issued_users_config :
    (checkIdentityCollisions Sample.corpCrypto.uuid5 Sample.corp.toConglomerateConfig).isOk = true ∧
      ∃ configs, buildWireguardConfigs Sample.corpCrypto Sample.corp.toConglomerateConfig
          Sample.officeStore { username := "corp", guest := some "alice" } = .ok configs ∧
        ¬ConfigsIssued Sample.corpCrypto Sample.corp.toConglomerateConfig Sample.officeStore
          Sample.corpUser { username := "corp", guest := some "alice" }
          (hubNodePairs Sample.corp.toConglomerateConfig) configs := by
  have hcheck : (checkIdentityCollisions Sample.corpCrypto.uuid5
      Sample.corp.toConglomerateConfig).isOk = true := by decide
  have hpublic : ∀ s t, (Sample.corpCrypto.x25519KeypairFromSeed s).1 =
      (Sample.corpCrypto.x25519KeypairFromSeed t).1 →
        (Sample.corpCrypto.x25519KeypairFromSeed s).2 =
          (Sample.corpCrypto.x25519KeypairFromSeed t).2 := by
    intro s t
    simp only [Sample.corpCrypto]
    split_ifs <;> decide
  have hapart : ∀ p ∈ hubNodePairs Sample.corp.toConglomerateConfig, ∀ keys,
      Sample.officeStore p.2.id.val = some keys →
        PeerKeysApart Sample.corpCrypto Sample.corp.toConglomerateConfig keys := by
    intro p _ keys hkeys
    cases hkeys
    unfold PeerKeysApart
    decide +kernel
  obtain ⟨configs, hcall⟩ := isOk_iff.mp (show (buildWireguardConfigs Sample.corpCrypto
    Sample.corp.toConglomerateConfig Sample.officeStore
    { username := "corp", guest := some "alice" }).isOk = true by decide)
  refine ⟨hcheck, configs, hcall, fun hissued => ?_⟩
  have huser : resolveUser Sample.corp.toConglomerateConfig "corp" = .ok Sample.corpUser := by
    decide
  have hlast := (configsIssued_iff hcheck hpublic huser rfl hapart hcall
    Sample.corp.spec).mp hissued _ (List.mem_singleton_self _) _
    (Asks.guest (show ({ val := "alice" } : Identifier) ∈ Sample.corpUser.guests by decide))
  rw [lastOfLabel_iff] at hlast
  revert hlast
  decide

end HexRift
