import HexRift.Model.Haproxy
import HexRift.Model.KeyGen
import HexRift.Model.Portal
import HexRift.Model.Share

/-! # Building configs

Configs of several nodes or portals are built one after the other into an output directory. What
fails is reported and leaves the rest to go on. -/

namespace HexRift

open Checks

/-! ## Files -/

/-- A file that a build writes, a config before its serialisation. -/
inductive Content where
  | xray (config : XrayConfig)
  | haproxy (text : String)
  | portal (config : PortalConfig)

/-- A file of the output directory: a name in the directory of a node or portal. -/
abbrev OutFile := String × String

abbrev OutDir := OutFile → Option Content

def OutDir.write (out : OutDir) (dir name : String) (content : Content) : OutDir :=
  Function.update out (dir, name) (some content)

def configJson : String := "config.json"

def haproxyCfg : String := "haproxy.cfg"

/-! ## One item -/

def xrayConfig : NodeContext → XrayConfig
  | .exit ctx => buildExitConfig ctx
  | .hub ctx => buildHubConfig ctx

/-- The context of the node with the id. -/
def buildNodeContext (crypto : Crypto) (cfg : ConglomerateConfig) (store : KeyStore)
    (nodeId : String) : Except Error NodeContext := do
  buildContext crypto cfg store (← getNode cfg nodeId)

/-- The output after building a node, and what was raised. What a build wrote before it raised
stays written. -/
def build (crypto : Crypto) (cfg : ConglomerateConfig) (store : KeyStore) (xray haproxy : Bool)
    (nodeId : String) (out : OutDir) : OutDir × Option Error :=
  match buildNodeContext crypto cfg store nodeId with
  | .error e => (out, some e)
  | .ok ctx =>
      let out := if xray then out.write nodeId configJson (.xray (xrayConfig ctx)) else out
      if haproxy then
        match renderHaproxy ctx with
        | .error e => (out, some e)
        | .ok text => (out.write nodeId haproxyCfg (.haproxy text), none)
      else (out, none)

def buildPortal (crypto : Crypto) (cfg : ConglomerateConfig) (store : KeyStore)
    (fingerprint : String) (portalId : String) (out : OutDir) : OutDir × Option Error :=
  match genPortal crypto cfg store portalId fingerprint with
  | .error e => (out, some e)
  | .ok config => (out.write portalId configJson (.portal config), none)

/-! ## Batches -/

/-- Counts of successes and failures. -/
structure BatchResult where
  ok : ℕ
  failed : ℕ
  deriving DecidableEq

/-- What a batch has done: its counts, the output, and the calls of `on_item` in order. -/
structure BatchRun where
  result : BatchResult
  out : OutDir
  reported : List (String × Option Error)

def BatchRun.step (action : String → OutDir → OutDir × Option Error) (run : BatchRun)
    (item : String) : BatchRun :=
  let (out, error) := action item run.out
  { result :=
      match error with
      | none => { run.result with ok := run.result.ok + 1 }
      | some _ => { run.result with failed := run.result.failed + 1 }
    out := out
    reported := run.reported ++ [(item, error)] }

def runBatch (items : List String) (action : String → OutDir → OutDir × Option Error)
    (out : OutDir) : BatchRun :=
  items.foldl (BatchRun.step action)
    { result := { ok := 0, failed := 0 }, out := out, reported := [] }

def buildNodes (crypto : Crypto) (cfg : ConglomerateConfig) (store : KeyStore)
    (xray haproxy : Bool) (nodeIds : List String) (out : OutDir) : BatchRun :=
  runBatch nodeIds (build crypto cfg store xray haproxy) out

def genPortals (crypto : Crypto) (cfg : ConglomerateConfig) (store : KeyStore)
    (fingerprint : String) (portalIds : List String) (out : OutDir) : BatchRun :=
  runBatch portalIds (buildPortal crypto cfg store fingerprint) out

/-! ## Commands -/

/-- What a user has the program do to the keys directory and the output directory. -/
inductive Command where
  | genKeys (call : KeyCall)
  | buildNodes (xray haproxy : Bool) (nodeIds : List String)
  | genPortals (fingerprint : String) (portalIds : List String)

/-- The keys directory and the output directory. -/
structure Workspace where
  store : KeyStore
  out : OutDir

namespace Workspace

def empty : Workspace := { store := fun _ => none, out := fun _ => none }

def step (crypto : Crypto) (cfg : ConglomerateConfig) (w : Workspace) : Command → Workspace
  | .genKeys call => { w with store := call.run cfg w.store }
  | .buildNodes xray haproxy nodeIds =>
      { w with out := (HexRift.buildNodes crypto cfg w.store xray haproxy nodeIds w.out).out }
  | .genPortals fingerprint portalIds =>
      { w with out := (HexRift.genPortals crypto cfg w.store fingerprint portalIds w.out).out }

end Workspace

end HexRift
