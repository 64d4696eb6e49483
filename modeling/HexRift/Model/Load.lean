import HexRift.Model.Edit
import HexRift.Model.Picker

/-! # The schema loader

`SchemaController.load`: PyYAML composes the text as for the editor, its safe loader builds
data from the document, and pydantic makes a topology of the data. Both are third-party code
and stay parameters. What they do with the parts of a document that the editor reads as well
is stated after their documentation. -/

namespace HexRift

open Checks

/-! ## Data -/

/-- A value PyYAML's safe loader builds. -/
inductive Data where
  | null
  | bool (b : Bool)
  | int (n : ℤ)
  | float (q : ℚ)
  | str (s : String)
  | bytes (b : ByteArray)
  | list (items : List Data)
  | dict (entries : List (Data × Data))
  | other

namespace Data

def isText (key : String) : Data → Bool
  | str s => s = key
  | _ => false

/-- `data.get(key)` -/
def get (key : String) : Data → Option Data
  | dict entries => (entries.find? fun e => e.1.isText key).map (·.2)
  | _ => none

end Data

/-! ## Loading -/

/-- `Path.read_text` reads every line terminator as `\n`. -/
def universalNewlines : List Char → List Char
  | [] => []
  | '\r' :: '\n' :: cs => '\n' :: universalNewlines cs
  | c :: cs => (if c = '\r' then '\n' else c) :: universalNewlines cs

/-- PyYAML with its constructor, pydantic, and the validators other components register. -/
structure Loader where
  yaml : Yaml
  /-- The data the safe loader builds from a composed node. -/
  construct : YamlNode → Except String Data
  /-- The integer pydantic takes a value for in its lax mode. -/
  laxInt : Data → Option ℤ
  /-- Validation of the data by the field types. -/
  validate : Data → Except String ConglomerateConfig
  validators : List (ConglomerateConfig → Except Error Unit)

namespace Loader

variable (l : Loader)

/-- `yaml.safe_load` -/
def data (text : String) : Option Data :=
  match l.yaml.compose text with
  | .error _ => none
  | .ok (none, _) => some .null
  | .ok (some root, _) => (l.construct root).toOption

/-- The integer pydantic takes a composed value for. -/
def readInt (value : YamlNode) : Option ℤ := (l.construct value).toOption.bind l.laxInt

/-- `SchemaController.load` of a file with the text, `none` where it raises. -/
def load (text : String) : Option ConglomerateConfig := do
  let data ← l.data (String.ofList (universalNewlines text.toList))
  let cfg ← (l.validate data).toOption
  (validateReferences cfg).toOption
  (forEach l.validators fun validator => validator cfg).toOption
  some cfg

end Loader

/-! ## What pydantic takes -/

/-- Texts a `str` or an enumeration is read from. -/
inductive ReadsText : Data → String → Prop
  | str (s) : ReadsText (.str s) s
  | bytes {b s} (h : String.fromUTF8? b = some s) : ReadsText (.bytes b) s

/-- A field with the default `None`, its value read by `P`. -/
def ReadsOptional {α : Type} (P : Data → α → Prop) : Option Data → Option α → Prop
  | none, a => a = none
  | some .null, a => a = none
  | some d, a => ∃ x, a = some x ∧ P d x

/-- A required field. -/
def ReadsField {α : Type} (P : Data → α → Prop) (d : Option Data) (a : α) : Prop :=
  ∃ v, d = some v ∧ P v a

/-- A list of models. Of the other collections only an empty set can be read as one. -/
def ReadsList {α : Type} (P : Data → α → Prop) : Data → List α → Prop
  | .list items, xs => List.Forall₂ P items xs
  | .other, xs => xs = []
  | _, _ => False

/-- The nodes of a region, none for `null`. -/
def ReadsNodes {α : Type} (P : Data → α → Prop) (d : Data) (nodes : List α) : Prop :=
  d = .null ∧ nodes = [] ∨ ReadsList P d nodes

structure ReadsExitNode (d : Data) (n : ExitNode) : Prop where
  id : ReadsField ReadsText (d.get "id") n.id.val
  lbRole : ReadsOptional ReadsText (d.get "lb_role") (n.lbRole.map LbRole.value)

structure ReadsHubNode (d : Data) (n : HubNode) : Prop where
  id : ReadsField ReadsText (d.get "id") n.id.val
  lbRole : d.get "lb_role" = none

section Regions

variable (laxInt : Data → Option ℤ)

def ReadsRoute (d : Data) (route : VlessRoute) : Prop := laxInt d = some route.val

structure ReadsExitRegion (d : Data) (r : ExitRegion) : Prop where
  id : ReadsField ReadsText (d.get "id") r.id.val
  type : ReadsField ReadsText (d.get "type") RegionType.exit.value
  vlessRoute : ReadsOptional (ReadsRoute laxInt) (d.get "vless_route") r.vlessRoute
  protocol : ReadsOptional ReadsText (d.get "protocol") (r.protocol.map ExitProtocol.value)
  hysteria : ReadsOptional (fun _ _ => True) (d.get "hysteria") r.hysteria
  lbStrategy : ReadsOptional ReadsText (d.get "lb_strategy") (r.lbStrategy.map LbStrategy.value)
  lbFallback : ReadsOptional ReadsText (d.get "lb_fallback") r.lbFallback
  warp : ReadsOptional (fun w warp => ReadsField (ReadsRoute laxInt) (w.get "vless_route")
    warp.vlessRoute) (d.get "warp") r.warp
  nodes : ReadsField (ReadsNodes ReadsExitNode) (d.get "nodes") r.nodes

/-- Hub regions forbid the fields of exit regions. -/
structure ReadsHubRegion (d : Data) (r : HubRegion) : Prop where
  id : ReadsField ReadsText (d.get "id") r.id.val
  type : ReadsField ReadsText (d.get "type") RegionType.hub.value
  extra : ∀ key ∈ ["vless_route", "protocol", "hysteria", "lb_strategy", "lb_fallback", "warp"],
    d.get key = none
  nodes : ReadsField (ReadsNodes ReadsHubNode) (d.get "nodes") r.nodes

def ReadsRegion (d : Data) : Region → Prop
  | .exit r => ReadsExitRegion laxInt d r
  | .hub r => ReadsHubRegion d r

end Regions

/-! ## Documented behaviour -/

def strTag : String := "tag:yaml.org,2002:str"
def seqTag : String := "tag:yaml.org,2002:seq"
def mapTag : String := "tag:yaml.org,2002:map"
def binaryTag : String := "tag:yaml.org,2002:binary"

/-- A plain or quoted key, neither tagged nor `<<` nor `=`. -/
def PlainKey (key : YamlNode) : Prop := ∃ value start stop, key = .scalar strTag value start stop

/-- What a key of a dictionary holds, as a document gives it. -/
def lastValue (key : String) (entries : List (YamlNode × YamlNode)) : Option YamlNode :=
  ((entries.filter fun e => isKey key e.1).getLast?).map (·.2)

/-- The integer YAML reads in a text. `True` and `False` are integers of Python. -/
def yamlInt (yaml : Yaml) (raw : String) : Option ℤ :=
  match yaml.safeLoad raw with
  | .ok (.int n) => some n
  | .ok (.bool b) => some b.toNat
  | _ => none

/-- What the program relies on in PyYAML's safe constructor and in pydantic's validation. -/
structure Loader.Documented (l : Loader) : Prop where
  /-- Only the null tag stands for `None`. -/
  null : ∀ node d, l.construct node = .ok d → (d = .null ↔ node.tag = nullTag)
  /-- Only strings and binary data are texts, and a string is what is written. -/
  scalar : ∀ tag value start stop d s, l.construct (.scalar tag value start stop) = .ok d →
    ReadsText d s → s = value ∨ tag = binaryTag
  list : ∀ node ds, l.construct node = .ok (.list ds) →
    ∃ tag items flow start stop, node = .sequence tag items flow start stop
  /-- A sequence is the list of its items, or of pairs where the tag says so. -/
  sequence : ∀ tag items flow start stop d,
    l.construct (.sequence tag items flow start stop) = .ok d →
      ∃ ds, d = .list ds ∧
        List.Forall₂ (fun item v => l.construct item = .ok v ∨ v = .other) items ds
  /-- A mapping of entries of its own is the dictionary of these entries. -/
  mapping : ∀ entries flow start stop d,
    l.construct (.mapping mapTag entries flow start stop) = .ok d →
      (∀ e ∈ entries, PlainKey e.1) → ∀ key,
        match lastValue key entries with
        | none => d.get key = none
        | some node => ∃ v, d.get key = some v ∧ l.construct node = .ok v
  /-- Every line terminator is read as `\n`. -/
  lineBreaks : ∀ text : String, l.data (String.ofList (universalNewlines text.toList)) = l.data text
  laxNull : l.laxInt .null = none
  /-- Texts that YAML and pydantic both take for numbers are octal to YAML alone. -/
  laxText : ∀ tag value start stop d n m, l.construct (.scalar tag value start stop) = .ok d →
    yamlInt l.yaml value = some n → l.laxInt d = some m → 0 ≤ m → n ≤ m
  /-- The field types read the regions one by one. -/
  validate : ∀ d cfg, l.validate d = .ok cfg →
    ReadsField (ReadsList (ReadsRegion l.laxInt)) (d.get "regions") cfg.regions

end HexRift
