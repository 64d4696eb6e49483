import HexRift.Library.Separator
import HexRift.Verification.Rendered

/-! # The identities of a topology -/

namespace HexRift

open Checks

/-- What an identity belongs to. -/
inductive Identity where
  | user (user : User)
  | server (user : User)
  | guest (user : User) (label : Identifier)
  | portal (portal : Portal)
  deriving DecidableEq

namespace Identity

/-- The override of the user or portal an identity derives from. -/
def override : Identity → Option UUID
  | user u => u.uuid
  | server _ => none
  | guest _ _ => none
  | portal p => p.uuid

def email (ns : Namespace) : Identity → String
  | user u => ns.userEmail u.username.val
  | server u => serverEmail u.username.val
  | guest u label => guestEmail label.val u.username.val
  | portal p => ns.portalEmail p.id.val

/-- Base and name an identity without override is derived from. -/
def seed (uuid5 : Uuid5) (ns : Namespace) : Identity → UUID × String
  | user u => (ns.uuid uuid5, u.username.val)
  | server u => (ns.userUuid uuid5 u.username.val u.uuid, u.username.val ++ UserSuffix.server)
  | guest u label => (ns.userUuid uuid5 u.username.val u.uuid, label.val)
  | portal p => (ns.uuid uuid5, "portal/" ++ p.id.val)

def uuid (uuid5 : Uuid5) (ns : Namespace) (i : Identity) : UUID :=
  i.override.getD (uuid5.run (i.seed uuid5 ns).1 (i.seed uuid5 ns).2)

def owner : Identity → String
  | user u => s!"user {Python.repr u.username.val}"
  | server u => s!"server identity of user {Python.repr u.username.val}"
  | guest u label => s!"guest {Python.repr label.val} of user {Python.repr u.username.val}"
  | portal p => s!"portal {Python.repr p.id.val}"

end Identity

/-- Identities of one user. -/
def identitiesOf (user : User) : List Identity :=
  .user user :: .server user :: user.guests.map (.guest user)

/-- All distinct identities of a topology. -/
def identities (cfg : ConglomerateConfig) : List Identity :=
  cfg.users.flatMap identitiesOf ++ cfg.portals.map .portal

section Identities

variable {cfg : ConglomerateConfig} {uuid5 : Uuid5}

theorem iterHubIdentities_eq (cfg : ConglomerateConfig) (uuid5 : Uuid5) (ns : Namespace) :
    iterHubIdentities uuid5 cfg ns =
      (identities cfg).map fun i => (i.uuid uuid5 ns, i.owner) := by
  have huser : userIdentities uuid5 ns =
      fun u => (identitiesOf u).map fun i => (i.uuid uuid5 ns, i.owner) := by
    funext u
    simp only [userIdentities, identitiesOf, List.map_cons, List.map_map]
    rfl
  simp only [iterHubIdentities, identities, List.map_append, List.map_flatMap, List.map_map, huser]
  rfl

theorem checkIdentityCollisions_isOk :
    (checkIdentityCollisions uuid5 cfg).isOk = true ↔
      ((identities cfg).map (Identity.uuid uuid5 cfg.ns)).Nodup := by
  have hmap : (iterHubIdentities uuid5 cfg cfg.ns).map Prod.fst =
      (identities cfg).map (Identity.uuid uuid5 cfg.ns) := by
    rw [iterHubIdentities_eq, List.map_map]
    rfl
  simp only [isOk_iff, checkIdentityCollisions, claimAll_nil_eq_ok, hmap, exists_and_left,
    exists_eq, and_true]

theorem mem_identities {i : Identity} :
    i ∈ identities cfg ↔
      (∃ u ∈ cfg.users, i = .user u ∨ i = .server u ∨ ∃ label ∈ u.guests, i = .guest u label) ∨
        ∃ p ∈ cfg.portals, i = .portal p := by
  simp only [identities, identitiesOf, List.mem_append, List.mem_flatMap, List.mem_cons,
    List.mem_map, eq_comm]

/-- Two identities of a checked topology that share a UUID are one. -/
theorem uuid_inj (hcheck : (checkIdentityCollisions uuid5 cfg).isOk = true) {i j : Identity}
    (hi : i ∈ identities cfg) (hj : j ∈ identities cfg)
    (h : i.uuid uuid5 cfg.ns = j.uuid uuid5 cfg.ns) : i = j :=
  List.inj_on_of_nodup_map (checkIdentityCollisions_isOk.mp hcheck) hi hj h

theorem identities_nodup (hcheck : (checkIdentityCollisions uuid5 cfg).isOk = true) :
    (identities cfg).Nodup :=
  List.Nodup.of_map _ (checkIdentityCollisions_isOk.mp hcheck)

/-! ## Names -/

theorem usernames_eq (cfg : ConglomerateConfig) :
    usernames cfg = cfg.users.map (·.username.val) := by
  rw [usernames, List.map_eq_flatMap]

theorem Accepted.user_eq (h : Accepted cfg) {u v : User} (hu : u ∈ cfg.users) (hv : v ∈ cfg.users)
    (hname : u.username.val = v.username.val) : u = v := by
  have hnodup : (cfg.users.map (·.username.val)).Nodup := by
    simpa [usernames_eq] using h.usernames
  exact List.inj_on_of_nodup_map hnodup hu hv hname

theorem Accepted.portal_eq (h : Accepted cfg) {p q : Portal} (hp : p ∈ cfg.portals)
    (hq : q ∈ cfg.portals) (hid : p.id.val = q.id.val) : p = q := by
  have hnodup : (cfg.portals.map (·.id.val)).Nodup := by simpa using h.portals.ids
  exact List.inj_on_of_nodup_map hnodup hp hq hid

theorem Identifier.not_mem {c : Char} (h : isIdentifierChar c = false) (i : Identifier) :
    c ∉ i.val.toList := by
  intro hmem
  have hc := List.all_eq_true.mp i.charset c hmem
  simp [h] at hc

theorem Identifier.val_inj {i j : Identifier} : i.val = j.val ↔ i = j := by
  cases i
  cases j
  simp

end Identities

end HexRift
