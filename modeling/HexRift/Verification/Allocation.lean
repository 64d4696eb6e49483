import HexRift.Verification.Identities

/-! # WireGuard addresses

The peers of a hub take the addresses of its subnet in order, from the second one on. The first
is the server's. -/

namespace HexRift

open Checks

variable {uuid5 : Uuid5} {ns : Namespace} {users : List User} {subnet : IPNetwork}

/-! ## Usable addresses -/

namespace IPNetwork

variable (n : IPNetwork)

/-- An address of the network that is neither its network address nor, for IPv4, its broadcast
address. In networks of one or two addresses every address is usable. -/
def Usable (address : ℕ) : Prop :=
  n.networkAddress ≤ address ∧ address < n.networkAddress + n.numAddresses ∧
    (2 < n.numAddresses → address ≠ n.networkAddress ∧
      (n.version = .v4 → address ≠ n.networkAddress + n.numAddresses - 1))

/-- The usable addresses from the lowest up. -/
def hosts : List ℕ := List.range' n.hostRange.1 n.hostRange.2

theorem mem_hosts {address : ℕ} : address ∈ n.hosts ↔ n.Usable address := by
  rw [hosts, List.mem_range'_1, Usable, hostRange]
  by_cases hsmall : n.numAddresses ≤ 2
  · rw [if_pos hsmall]
    have hnot : ¬ 2 < n.numAddresses := by omega
    simp [hnot]
  · rw [if_neg hsmall]
    have hlarge : 2 < n.numAddresses := by omega
    cases n.version with
    | v4 =>
        simp only [hlarge, true_imp_iff]
        omega
    | v6 =>
        simp only [hlarge, true_imp_iff, reduceCtorEq, false_imp_iff, and_true]
        omega

theorem hosts_nodup : n.hosts.Nodup := List.nodup_range'

theorem hosts_length : n.hosts.length = n.hostRange.2 := List.length_range'

/-- A lone address is the only host range that comes as a list. -/
theorem hostsIterate_iff : n.hostsIterate = true ↔ 1 < n.numAddresses := by
  have hle : n.prefixlen ≤ n.version.maxPrefixlen := n.prefixlen_le
  unfold hostsIterate numAddresses
  rw [decide_eq_true_iff]
  constructor
  · intro hne
    exact Nat.one_lt_two_pow (by omega)
  · intro hlarge heq
    rw [heq, Nat.sub_self] at hlarge
    omega

theorem hosts_length_pos : 0 < n.hosts.length := by
  rw [hosts_length, hostRange]
  have hpos : 0 < n.numAddresses := Nat.two_pow_pos _
  split
  · exact hpos
  · cases n.version <;> simp only <;> omega

theorem host?_eq_getElem? (i : ℕ) : n.host? i = n.hosts[i]? := by
  rw [hosts, host?]
  by_cases hi : i < n.hostRange.2
  · rw [if_pos hi, List.getElem?_range' hi, Nat.one_mul]
  · rw [if_neg hi, List.getElem?_eq_none (by rw [List.length_range']; omega)]

end IPNetwork

/-! ## Who is allocated an address -/

/-- Identities of a user on an inbound gated by one access type. -/
def User.granted (access : AccessType) (server : Bool) (user : User) : List Identity :=
  if access ∉ user.access then []
  else
    .user user ::
      ((if server && .server ∈ user.access then [.server user] else []) ++
        user.guests.map (.guest user))

/-- The WireGuard allocation goes through the identities granted WireGuard access. -/
theorem wireguardIdentities_eq (uuid5 : Uuid5) (ns : Namespace) (users : List User) :
    (users.flatMap (wireguardIdentities uuid5 ns)).map (fun e => (e.1, e.2.1)) =
      (users.flatMap (User.granted .wireguard true)).map fun i =>
        (i.email ns, i.uuid uuid5 ns) := by
  rw [List.map_flatMap, List.map_flatMap]
  refine congrArg (List.flatMap · users) (funext fun u => ?_)
  unfold wireguardIdentities User.granted
  by_cases haccess : AccessType.wireguard ∈ u.access
  · rw [if_pos haccess, if_neg (not_not.mpr haccess), List.map_cons, List.map_cons,
      List.map_append, List.map_append, List.map_map, List.map_map, Bool.true_and]
    by_cases hserver : AccessType.server ∈ u.access
    · simp only [hserver, decide_true, if_true]
      rfl
    · simp only [hserver, decide_false, if_false]
      rfl
  · rw [if_neg haccess, if_pos haccess]
    rfl

theorem allocateFrom_identities {subnet : IPNetwork} {index : ℕ}
    {identities : List (String × UUID × WireguardKind)} {peers : List WireguardPeer}
    (h : allocateFrom subnet index identities = .ok peers) :
    peers.map (fun p => (p.email, p.identity, p.kind)) = identities := by
  induction identities generalizing index peers with
  | nil =>
      cases h
      rfl
  | cons i is ih =>
      obtain ⟨email, identity, kind⟩ := i
      unfold allocateFrom at h
      split at h
      · cases h
      · simp only [bind_eq_ok, pure_eq_ok] at h
        obtain ⟨rest, hrest, rfl⟩ := h
        simp [ih hrest]

theorem allocateFrom_length {subnet : IPNetwork} {index : ℕ}
    {identities : List (String × UUID × WireguardKind)} {peers : List WireguardPeer}
    (h : allocateFrom subnet index identities = .ok peers) : peers.length = identities.length := by
  induction identities generalizing index peers with
  | nil =>
      cases h
      rfl
  | cons i is ih =>
      obtain ⟨email, identity, kind⟩ := i
      unfold allocateFrom at h
      split at h
      · cases h
      · simp only [bind_eq_ok, pure_eq_ok] at h
        obtain ⟨rest, hrest, rfl⟩ := h
        simp [ih hrest]

/-- The peers take the hosts one after another. -/
theorem allocateFrom_addresses {index : ℕ} {identities : List (String × UUID × WireguardKind)}
    {peers : List WireguardPeer} (h : allocateFrom subnet index identities = .ok peers) :
    peers.map (·.address) = (subnet.hosts.drop index).take identities.length := by
  induction identities generalizing index peers with
  | nil =>
      cases h
      rfl
  | cons i is ih =>
      obtain ⟨email, identity, kind⟩ := i
      unfold allocateFrom at h
      split at h
      · cases h
      · rename_i address haddress
        simp only [bind_eq_ok, pure_eq_ok] at h
        obtain ⟨rest, hrest, rfl⟩ := h
        rw [IPNetwork.host?_eq_getElem?, List.getElem?_eq_some_iff] at haddress
        obtain ⟨hindex, rfl⟩ := haddress
        rw [List.drop_eq_getElem_cons hindex, List.length_cons, List.take_succ_cons, List.map_cons,
          ih hrest]

theorem allocateFrom_version {index : ℕ} {identities : List (String × UUID × WireguardKind)}
    {peers : List WireguardPeer} (h : allocateFrom subnet index identities = .ok peers) :
    ∀ p ∈ peers, p.version = subnet.version := by
  induction identities generalizing index peers with
  | nil =>
      cases h
      simp
  | cons i is ih =>
      obtain ⟨email, identity, kind⟩ := i
      unfold allocateFrom at h
      split at h
      · cases h
      · simp only [bind_eq_ok, pure_eq_ok] at h
        obtain ⟨rest, hrest, rfl⟩ := h
        simpa using ih hrest

/-- An allocation fails exactly when the hosts left are too few. -/
theorem allocateFrom_total {index : ℕ} {identities : List (String × UUID × WireguardKind)}
    (h : identities.length + index ≤ subnet.hosts.length) :
    ∃ peers, allocateFrom subnet index identities = .ok peers := by
  rw [IPNetwork.hosts_length] at h
  induction identities generalizing index with
  | nil => exact ⟨[], rfl⟩
  | cons identity rest ih =>
      rw [List.length_cons] at h
      obtain ⟨peers, hpeers⟩ : ∃ peers, allocateFrom subnet (index + 1) rest = .ok peers :=
        ih (by omega)
      have hindex : index < subnet.hostRange.2 := by omega
      simp only [allocateFrom, IPNetwork.host?, if_pos hindex, hpeers]
      exact ⟨_, rfl⟩

/-- The error an allocation ends with once its subnet is full. -/
def IPNetwork.full (n : IPNetwork) : Error :=
  .deriveError s!"wireguard subnet {Python.repr n.str} does not have enough addresses for all peers"

theorem allocateFrom_full {index : ℕ} {identities : List (String × UUID × WireguardKind)}
    (hindex : index ≤ subnet.hosts.length)
    (h : subnet.hosts.length < identities.length + index) :
    allocateFrom subnet index identities = .error subnet.full := by
  rw [IPNetwork.hosts_length] at h hindex
  induction identities generalizing index with
  | nil =>
      rw [List.length_nil] at h
      omega
  | cons identity rest ih =>
      rw [List.length_cons] at h
      by_cases hlast : index < subnet.hostRange.2
      · have hrest : allocateFrom subnet (index + 1) rest = .error subnet.full :=
          ih (by omega) (by omega)
        simp only [allocateFrom, IPNetwork.host?, if_pos hlast, hrest]
        rfl
      · simp only [allocateFrom, IPNetwork.host?, if_neg hlast]
        rfl

theorem iterHubWireguardAllocs_eq_ok {peers : List WireguardPeer} :
    iterHubWireguardAllocs uuid5 users ns subnet = .ok peers ↔
      subnet.hostsIterate = true ∧
        allocateFrom subnet 1 (users.flatMap (wireguardIdentities uuid5 ns)) = .ok peers := by
  unfold iterHubWireguardAllocs
  cases subnet.hostsIterate <;> simp

/-! ## The allocation of a hub -/

/-- Peers for the identities, in their order: each with a usable address of its own, which is
not the server's. -/
structure Allocated (uuid5 : Uuid5) (ns : Namespace) (subnet : IPNetwork)
    (identities : List Identity) (peers : List WireguardPeer) : Prop where
  entries : peers.map (fun p => (p.email, p.identity)) =
    identities.map fun i => (i.email ns, i.uuid uuid5 ns)
  nodup : (peers.map (·.address)).Nodup
  usable : ∀ p ∈ peers, p.version = subnet.version ∧ subnet.Usable p.address
  reserved : ∀ p ∈ peers, subnet.hosts.head? ≠ some p.address

/-- An allocation serves every identity granted WireGuard access, or raises because they exceed
the hosts beside the server's. -/
def AllocationCorrect (uuid5 : Uuid5) (ns : Namespace) (users : List User) (subnet : IPNetwork) :
    Prop :=
  let granted := users.flatMap (User.granted .wireguard true)
  (granted.length ≤ subnet.hosts.length - 1 →
    ∃ peers, iterHubWireguardAllocs uuid5 users ns subnet = .ok peers ∧
      Allocated uuid5 ns subnet granted peers) ∧
  (subnet.hosts.length - 1 < granted.length →
    ∃ text, iterHubWireguardAllocs uuid5 users ns subnet = .error (.deriveError text))

theorem length_wireguardIdentities (uuid5 : Uuid5) (ns : Namespace) (users : List User) :
    (users.flatMap (wireguardIdentities uuid5 ns)).length =
      (users.flatMap (User.granted .wireguard true)).length := by
  simpa using congrArg List.length (wireguardIdentities_eq uuid5 ns users)

theorem allocateFrom_allocated {peers : List WireguardPeer}
    (h : allocateFrom subnet 1 (users.flatMap (wireguardIdentities uuid5 ns)) = .ok peers) :
    Allocated uuid5 ns subnet (users.flatMap (User.granted .wireguard true)) peers := by
  have haddresses := allocateFrom_addresses h
  have hmem : ∀ p ∈ peers, p.address ∈ subnet.hosts.drop 1 := by
    intro p hp
    refine List.mem_of_mem_take (i := (users.flatMap (wireguardIdentities uuid5 ns)).length) ?_
    rw [← haddresses]
    exact List.mem_map_of_mem hp
  constructor
  case entries =>
    rw [← wireguardIdentities_eq, ← allocateFrom_identities h, List.map_map]
    rfl
  case nodup =>
    rw [haddresses]
    exact (subnet.hosts_nodup.sublist (List.drop_sublist 1 _)).sublist (List.take_sublist _ _)
  case usable =>
    intro p hp
    exact ⟨allocateFrom_version h p hp,
      subnet.mem_hosts.mp (List.mem_of_mem_drop (hmem p hp))⟩
  case reserved =>
    intro p hp hfirst
    obtain ⟨first, rest, hhosts⟩ := List.exists_cons_of_length_pos subnet.hosts_length_pos
    have hnodup : (first :: rest).Nodup := hhosts ▸ subnet.hosts_nodup
    have hrest : p.address ∈ rest := by simpa [hhosts] using hmem p hp
    rw [hhosts, List.head?_cons, Option.some.injEq] at hfirst
    rw [hfirst] at hnodup
    exact (List.nodup_cons.mp hnodup).1 hrest

/-- A WireGuard allocation meets its promise on every subnet but a single address. -/
theorem wireguard_allocation_iff (uuid5 : Uuid5) (ns : Namespace) (users : List User)
    (subnet : IPNetwork) :
    AllocationCorrect uuid5 ns users subnet ↔ 1 < subnet.numAddresses := by
  rw [← subnet.hostsIterate_iff]
  unfold AllocationCorrect
  have hlength := length_wireguardIdentities uuid5 ns users
  have hpos := subnet.hosts_length_pos
  constructor
  · rintro ⟨hroom, hfull⟩
    by_cases hfits : (users.flatMap (User.granted .wireguard true)).length ≤
        subnet.hosts.length - 1
    · obtain ⟨peers, hpeers, -⟩ := hroom hfits
      exact (iterHubWireguardAllocs_eq_ok.mp hpeers).1
    · obtain ⟨text, htext⟩ := hfull (by omega)
      unfold iterHubWireguardAllocs at htext
      by_contra hlone
      rw [if_neg hlone] at htext
      cases htext
  · intro hiterate
    constructor
    · intro hfits
      obtain ⟨peers, hpeers⟩ : ∃ peers, allocateFrom subnet 1
          (users.flatMap (wireguardIdentities uuid5 ns)) = .ok peers :=
        allocateFrom_total (by omega)
      exact ⟨peers, iterHubWireguardAllocs_eq_ok.mpr ⟨hiterate, hpeers⟩,
        allocateFrom_allocated hpeers⟩
    · intro hmany
      have hfull : allocateFrom subnet 1 (users.flatMap (wireguardIdentities uuid5 ns)) =
          .error subnet.full :=
        allocateFrom_full hpos (by omega)
      rw [iterHubWireguardAllocs, if_pos hiterate, hfull]
      exact ⟨_, rfl⟩

/-- A subnet of one address raises before its first peer. -/
theorem lone_subnet_raises :
    ¬ AllocationCorrect (Sample.uuid5 [] (by simp)) ⟨"corp"⟩
      [{ username := { val := "alice" }, group := { val := "staff" }, access := [.xhttp] }]
      { version := .v4, networkAddress := 0x0a000001, prefixlen := 32 } := by
  rintro ⟨hroom, -⟩
  obtain ⟨peers, hpeers, -⟩ := hroom (by decide)
  cases hpeers

end HexRift
