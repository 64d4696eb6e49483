import HexRift.Model.Share

/-! # Key generation

Every node has one key file. The hub nodes of a region with equal key settings share theirs. -/

namespace HexRift

open Checks

/-! ## Key material -/

/-- What the random generators return during one call, private halves first. -/
structure FreshKeys where
  reality : String × String
  x25519 : String × String
  mlkem768 : String × String

def handshakeMethod : String := "mlkem768x25519plus"

/-- Matched decryption and encryption key strings. -/
def generateAuthKeypair (fresh : FreshKeys) (auth : AuthMethod) (mode sessionTime : String)
    (padding : Option String) : String × String :=
  let (server, client) := match auth with
    | .mlkem768 => fresh.mlkem768
    | .x25519 => fresh.x25519
  let decParts := [handshakeMethod, mode, sessionTime] ++
    (padding.filter (· ≠ "")).toList ++ [server]
  (".".intercalate decParts, handshakeMethod ++ "." ++ mode ++ ".0rtt." ++ client)

def Node.keys : Node → Option NodeKeysOverride
  | .exit n => n.keys
  | .hub n => n.keys

/-- Key settings of a node after the node > defaults overlay. -/
def resolveNodeKeys (node : Node) (region : Region) (defaults : DefaultsConfig) : KeysConfig :=
  let base := match region.type with
    | .exit => defaults.exit.keys
    | .hub => defaults.hub.keys
  match node.keys with
  | none => base
  | some keys =>
      { enabled := keys.enabled.getD base.enabled
        -- an empty text counts as unset, except for the padding
        mode := (keys.mode.filter (· ≠ "")).getD base.mode
        sessionTime := (keys.sessionTime.filter (· ≠ "")).getD base.sessionTime
        auth := keys.auth.getD base.auth
        padding := keys.padding.or base.padding }

def freshNodeKeys (fresh : FreshKeys) (keysCfg : KeysConfig) : NodeKeys :=
  let (decryption, encryption) :=
    if keysCfg.enabled then
      generateAuthKeypair fresh keysCfg.auth keysCfg.mode keysCfg.sessionTime keysCfg.padding
    else (NodeKeys.encryptionDisabled, NodeKeys.encryptionDisabled)
  { realityPrivateKey := fresh.reality.1
    realityPublicKey := fresh.reality.2
    decryption := decryption
    encryption := encryption }

/-! ## Key files -/

/-- File name of a node's keys; an id that is no plain file name is refused. -/
def nodeKeysPath (nodeId : String) : Except Error String := do
  ensure (nodeId ≠ "." ∧ '/' ∉ nodeId.toList ∧ '\\' ∉ nodeId.toList)
    (.valueError s!"Invalid node ID: {Python.repr nodeId}")
  pure (nodeId ++ ".yaml")

def nodeKeysExist (store : KeyStore) (nodeId : String) : Except Error Bool := do
  let _ ← nodeKeysPath nodeId
  pure (store nodeId).isSome

def saveNodeKeys (store : KeyStore) (nodeId : String) (keys : NodeKeys) :
    Except Error KeyStore := do
  let _ ← nodeKeysPath nodeId
  pure (Function.update store nodeId (some keys))

/-! ## Generating -/

/-- Keys of the first other node of the region that has some and equal key settings. -/
def siblingKeys (cfg : ConglomerateConfig) (store : KeyStore) (region : Region)
    (nodeId : String) (keysCfg : KeysConfig) : List Node → Except Error (Option NodeKeys)
  | [] => .ok none
  | sibling :: rest => do
      if sibling.id.val ≠ nodeId then
        if ← nodeKeysExist store sibling.id.val then
          if resolveNodeKeys sibling region cfg.defaults = keysCfg then
            return some (← loadNodeKeys store sibling.id.val)
      siblingKeys cfg store region nodeId keysCfg rest

/-- Give a sibling the rotated keys when its key settings are the target's. -/
def rotateSibling (cfg : ConglomerateConfig) (region : Region) (nodeId : String)
    (keysCfg : KeysConfig) (keys : NodeKeys) (store : KeyStore) (sibling : Node) :
    Except Error KeyStore :=
  if sibling.id.val ≠ nodeId ∧ resolveNodeKeys sibling region cfg.defaults = keysCfg then
    saveNodeKeys store sibling.id.val keys
  else .ok store

/-- Keys to reuse instead of generating some. -/
def reusedKeys (cfg : ConglomerateConfig) (store : KeyStore) (region : Region) (nodeId : String)
    (keysCfg : KeysConfig) (force : Bool) : Except Error (Option NodeKeys) :=
  if region.type = .hub ∧ ¬ force then
    siblingKeys cfg store region nodeId keysCfg region.nodes
  else .ok none

/-- Generate key material for a node. The flag tells whether keys were written; whatever
raises does so before the first write. -/
def genKeys (cfg : ConglomerateConfig) (fresh : FreshKeys) (store : KeyStore) (nodeId : String)
    (force : Bool) : Except Error (Bool × KeyStore) := do
  if (← nodeKeysExist store nodeId) && !force then
    return (false, store)
  let placed ← getNode cfg nodeId
  let keysCfg := resolveNodeKeys placed.node placed.region cfg.defaults
  match ← reusedKeys cfg store placed.region nodeId keysCfg force with
  | some keys => return (true, ← saveNodeKeys store nodeId keys)
  | none =>
      let keys := freshNodeKeys fresh keysCfg
      let store ← saveNodeKeys store nodeId keys
      if placed.region.type = .hub ∧ force then
        return (true, ← foldEach placed.region.nodes
          (rotateSibling cfg placed.region nodeId keysCfg keys) store)
      else return (true, store)

/-- A call of `gen_keys`, with what the generators return in it. -/
structure KeyCall where
  nodeId : String
  force : Bool
  fresh : FreshKeys

/-- The store after a call; one that raises has written nothing. -/
def KeyCall.run (cfg : ConglomerateConfig) (store : KeyStore) (call : KeyCall) : KeyStore :=
  match genKeys cfg call.fresh store call.nodeId call.force with
  | .ok (_, store) => store
  | .error _ => store

end HexRift
