import HexRift.Model.Root

/-! # Derived identities -/

namespace HexRift

open Checks

/-! ## UUIDs -/

def UUID.nil : UUID := ⟨0, 0, 0, 0, 0⟩

/-- Lower-case hexadecimal, filled up with zeros to the width. -/
def hexField (width n : ℕ) : String :=
  let digits := Nat.toDigits 16 n
  String.ofList (List.replicate (width - digits.length) '0' ++ digits)

/-- `str(uuid)` -/
def UUID.str (u : UUID) : String :=
  "-".intercalate [hexField 8 u.timeLow.toNat, hexField 4 u.timeMid.toNat,
    hexField 4 u.timeHiVersion.toNat, hexField 4 u.clockSeq.toNat, hexField 12 u.node.toNat]

/-- The part of a UUID by which a client is identified: all but the third segment. -/
def UUID.clientKey (u : UUID) : BitVec 32 × BitVec 16 × BitVec 16 × BitVec 48 :=
  (u.timeLow, u.timeMid, u.clockSeq, u.node)

/-- Name-based UUIDs. The digest is left open; its version nibble and variant bits are
the ones RFC 4122 prescribes. -/
structure Uuid5 where
  run : UUID → String → UUID
  version : ∀ base name, (run base name).timeHiVersion.toNat / 2 ^ 12 = 5
  variant : ∀ base name, (run base name).clockSeq.toNat / 2 ^ 14 = 2

/-! ## Namespace -/

/-- Derived identity factory bound to a single namespace string. -/
structure Namespace where
  name : String

/-- Hub-exit UUID with its third segment replaced. -/
def warpUuid (base : UUID) : UUID :=
  { base with timeHiVersion := warpUuidSegment }

def serverEmail (username : String) : String :=
  username ++ UserSuffix.server ++ "@" ++ username

def guestEmail (label username : String) : String :=
  label ++ "@" ++ username

namespace Namespace

variable (ns : Namespace)

def portalEmail (portalId : String) : String :=
  portalId ++ "@portal." ++ ns.name

def userEmail (username : String) : String :=
  username ++ "@" ++ ns.name

def hubExitEmail (hubId exitId : String) : String :=
  hubId ++ "-" ++ exitId ++ "@" ++ ns.name

def warpEmail (hubId exitId : String) : String :=
  "warp-" ++ hubId ++ "-" ++ exitId ++ "@" ++ ns.name

variable (uuid5 : Uuid5)

def uuid : UUID := uuid5.run UUID.nil ns.name

def userUuid (username : String) (override : Option UUID := none) : UUID :=
  override.getD (uuid5.run (ns.uuid uuid5) username)

def serverUuid (username : String) (userBase : Option UUID := none) : UUID :=
  uuid5.run (userBase.getD (ns.userUuid uuid5 username)) (username ++ UserSuffix.server)

def guestUuid (label username : String) (userBase : Option UUID := none) : UUID :=
  uuid5.run (userBase.getD (ns.userUuid uuid5 username)) label

def portalUuid (portalId : String) (override : Option UUID := none) : UUID :=
  override.getD (uuid5.run (ns.uuid uuid5) ("portal/" ++ portalId))

def hubExitUuid (hubId exitId : String) : UUID :=
  uuid5.run (ns.uuid uuid5) (hubId ++ "-" ++ exitId)

end Namespace

/-- The namespace of a topology. -/
def ConglomerateConfig.ns (cfg : ConglomerateConfig) : Namespace :=
  { name := cfg.global.namespace.val }

/-! ## Identities a hub inbound can carry -/

def userIdentities (uuid5 : Uuid5) (ns : Namespace) (user : User) : List (UUID × String) :=
  let name := user.username.val
  let base := ns.userUuid uuid5 name user.uuid
  (base, s!"user {Python.repr name}") ::
    (ns.serverUuid uuid5 name (some base), s!"server identity of user {Python.repr name}") ::
      user.guests.map fun label =>
        (ns.guestUuid uuid5 label.val name (some base),
          s!"guest {Python.repr label.val} of user {Python.repr name}")

def portalIdentity (uuid5 : Uuid5) (ns : Namespace) (portal : Portal) : UUID × String :=
  (ns.portalUuid uuid5 portal.id.val portal.uuid, s!"portal {Python.repr portal.id.val}")

/-- The UUID and owner of every identity that can land on a hub inbound. -/
def iterHubIdentities (uuid5 : Uuid5) (cfg : ConglomerateConfig) (ns : Namespace) :
    List (UUID × String) :=
  cfg.users.flatMap (userIdentities uuid5 ns) ++ cfg.portals.map (portalIdentity uuid5 ns)

/-- Reject uuid overrides landing on an identity another owner already claims. -/
def checkIdentityCollisions (uuid5 : Uuid5) (cfg : ConglomerateConfig) :
    Except Error (List (UUID × String)) :=
  claimAll Prod.fst
    (fun i prior => .deriveError s!"UUID {i.1.str} is claimed by both {prior.2} and {i.2}")
    (iterHubIdentities uuid5 cfg cfg.ns) []

end HexRift
