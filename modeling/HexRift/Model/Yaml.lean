import HexRift.Model.Fields

/-! # YAML documents

Texts are parsed by PyYAML, which stays a parameter. What it returns, and the texts the
program writes for new nodes and regions, are modelled. -/

namespace HexRift

/-! ## Parsed documents -/

/-- Position in a text. -/
structure Mark where
  index : ℕ
  line : ℕ
  column : ℕ
  deriving DecidableEq

/-- A composed node, with the marks of its first and of the end of its last token. -/
inductive YamlNode where
  | scalar (tag value : String) (startMark endMark : Mark)
  | sequence (tag : String) (items : List YamlNode) (flowStyle : Bool) (startMark endMark : Mark)
  | mapping (tag : String) (entries : List (YamlNode × YamlNode)) (flowStyle : Bool)
      (startMark endMark : Mark)

namespace YamlNode

def tag : YamlNode → String
  | scalar t _ _ _ => t
  | sequence t _ _ _ _ => t
  | mapping t _ _ _ _ => t

def startMark : YamlNode → Mark
  | scalar _ _ m _ => m
  | sequence _ _ _ m _ => m
  | mapping _ _ _ m _ => m

def endMark : YamlNode → Mark
  | scalar _ _ _ m => m
  | sequence _ _ _ _ m => m
  | mapping _ _ _ _ m => m

end YamlNode

def nullTag : String := "tag:yaml.org,2002:null"

/-- A value `yaml.safe_load` returns. -/
inductive YamlValue where
  | bool (b : Bool)
  | int (n : ℤ)
  | str (s : String)
  | list (items : List YamlValue)
  | other

/-- PyYAML. A text that is not YAML gives the text of the error. -/
structure Yaml where
  /-- Root node, if there is one, and whether a node has an anchor or is an alias. -/
  compose : String → Except String (Option YamlNode × Bool)
  safeLoad : String → Except String YamlValue

/-- `_compose` -/
def composeRoot (yaml : Yaml) (text : String) : Except Error YamlNode :=
  match yaml.compose text with
  | .error e => .error (.topologyError ("Topology is not valid YAML: " ++ e))
  | .ok (root, anchored) =>
      if anchored then
        .error (.topologyError
          "Topology uses YAML anchors or aliases, refusing to edit around them")
      else
        match root with
        | some (.mapping tag entries flowStyle start stop) =>
            .ok (.mapping tag entries flowStyle start stop)
        | _ => .error (.topologyError "Topology has no top-level mapping")

/-- Whether the node is the scalar key. -/
def isKey (key : String) : YamlNode → Bool
  | .scalar _ value _ _ => value = key
  | _ => false

/-- Mapping value under a key, refusing duplicates. -/
def entry (node : Option YamlNode) (key : String) : Except Error (Option YamlNode) :=
  match node with
  | some (.mapping _ entries _ _ _) =>
      match entries.filter fun e => isKey key e.1 with
      | [] => .ok none
      | [e] => .ok (some e.2)
      | _ :: e :: _ =>
          let line := e.1.startMark.line + 1
          .error (.topologyError
            s!"Duplicate {Python.repr key} key at line {line}, edits and loads would disagree")
  | _ => .ok none

/-- Text of a scalar that is not null. -/
def YamlNode.text? : YamlNode → Option String
  | .scalar tag value _ _ => if tag = nullTag then none else some value
  | _ => none

/-- `_scalar` -/
def scalarText (node : Option YamlNode) (key : String) : Except Error (Option String) := do
  pure ((← entry node key).bind (·.text?))

def keyLine (node : Option YamlNode) (key : String) : Option ℕ :=
  match node with
  | some (.mapping _ entries _ _ _) =>
      (entries.find? fun e => isKey key e.1).map (·.1.startMark.line)
  | _ => none

/-- Items of a block sequence: `[]` for an absent, bare or `[]` value, `none` when it cannot
be spliced. -/
def blockItems : Option YamlNode → Option (List YamlNode)
  | none => some []
  | some node =>
      if node.tag = nullTag then
        -- a bare key's null is zero-width, an explicit `null` token cannot be spliced under
        if node.startMark.index = node.endMark.index then some [] else none
      else
        match node with
        | .sequence _ items flowStyle _ _ =>
            if !flowStyle || items.isEmpty then some items else none
        | _ => none

/-- Row and column span of an empty `[]`, stripped before the first splice under its key. -/
def emptyFlow : Option YamlNode → Option (ℕ × ℕ × ℕ)
  | some (.sequence _ [] true start stop) => some (start.line, start.column, stop.column)
  | _ => none

/-- Resolve an integer scalar as YAML would. -/
def intScalar (yaml : Yaml) (node : Option YamlNode) (key : String) :
    Except Error (Option ℤ) := do
  match ← scalarText node key with
  | none => pure none
  | some raw =>
      match yaml.safeLoad raw with
      | .ok (.int n) => pure (some n)
      | .ok (.bool b) => pure (some b.toNat)
      | _ => pure none

/-! ## Written fields -/

inductive Scalar where
  | bool (b : Bool)
  | int (n : ℤ)
  | str (s : String)

/-- An explicitly set, non-null field of a schema model. -/
inductive Field where
  | scalar (value : Scalar)
  | scalars (values : List Scalar)
  | dict (entries : List (String × Field))
  | dicts (items : List (List (String × Field)))

/-- Whether YAML reads the text back as the value it stands for. -/
def readsBack (yaml : Yaml) (value : String) (flow : Bool) : Bool :=
  if flow then
    match yaml.safeLoad ("[ " ++ value ++ " ]") with
    | .ok (.list [.str s]) => s = value
    | _ => false
  else
    match yaml.safeLoad value with
    | .ok (.str s) => s = value
    | _ => false

/-- Quote values YAML would not read back as identical plain strings. -/
def quotedText (yaml : Yaml) (value : String) (flow : Bool := false) : String :=
  if readsBack yaml value flow then value else Python.jsonString value

def yamlScalar (yaml : Yaml) (flow : Bool) : Scalar → String
  | .bool b => if b then "true" else "false"
  | .int n => toString n
  | .str s => quotedText yaml s flow

/-- Block sequence item: `- ` on the first line and the rest indented under it. -/
def dashFirst (indent : String) : List String → Except Error (List String)
  | [] => .error (.valueError "not enough values to unpack (expected at least 1, got 0)")
  | first :: rest =>
      .ok ((indent ++ "- " ++ String.ofList (Python.lstrip first.toList)) :: rest)

mutual

def fieldLines (yaml : Yaml) (indent key : String) : Field → Except Error (List String)
  | .scalar value => .ok [indent ++ key ++ ": " ++ yamlScalar yaml false value]
  | .scalars values =>
      .ok [indent ++ key ++ ": [" ++ ", ".intercalate (values.map (yamlScalar yaml true)) ++ "]"]
  | .dict entries => do
      pure ((indent ++ key ++ ":") :: (← blockLines yaml (indent ++ "  ") entries))
  | .dicts items => do
      pure ((indent ++ key ++ ":") :: (← itemsLines yaml (indent ++ "  ") items))

def blockLines (yaml : Yaml) (indent : String) :
    List (String × Field) → Except Error (List String)
  | [] => .ok []
  | (key, value) :: rest => do
      pure ((← fieldLines yaml indent key value) ++ (← blockLines yaml indent rest))

def itemsLines (yaml : Yaml) (indent : String) :
    List (List (String × Field)) → Except Error (List String)
  | [] => .ok []
  | item :: rest => do
      let lines ← dashFirst indent (← blockLines yaml (indent ++ "  ") item)
      pure (lines ++ (← itemsLines yaml indent rest))

end

/-- `_item` -/
def itemLines (yaml : Yaml) (indent : String) (fields : List (String × Field)) :
    Except Error (List String) := do
  dashFirst indent (← blockLines yaml (indent ++ "  ") fields)

end HexRift
