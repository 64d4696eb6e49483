import HexRift.Model.Load

/-! # Texts in block style

A topology whose text is written in block lines, opened at the nodes of one region: which lines
belong to which node, and what PyYAML composes of them. -/

namespace HexRift

/-! ## Nodes without their marks -/

/-- The end of a node by itself: it tells apart the empty node. -/
def Mark.width (start stop : Mark) : Mark := ⟨if start.index = stop.index then 0 else 1, 0, 0⟩

mutual

/-- A node without its place in the text. -/
def YamlNode.content : YamlNode → YamlNode
  | .scalar tag value start stop => .scalar tag value ⟨0, 0, 0⟩ (start.width stop)
  | .sequence tag items flow start stop =>
      .sequence tag (contents items) flow ⟨0, 0, 0⟩ (start.width stop)
  | .mapping tag entries flow start stop =>
      .mapping tag (entryContents entries) flow ⟨0, 0, 0⟩ (start.width stop)

def contents : List YamlNode → List YamlNode
  | [] => []
  | item :: items => item.content :: contents items

def entryContents : List (YamlNode × YamlNode) → List (YamlNode × YamlNode)
  | [] => []
  | (key, value) :: entries => (key.content, value.content) :: entryContents entries

end

mutual

/-- Items start on lines of the text. -/
def YamlNode.Within (count : ℕ) : YamlNode → Prop
  | .scalar .. => True
  | .sequence _ items _ _ _ => ItemsWithin count items
  | .mapping _ entries _ _ _ => EntriesWithin count entries

def ItemsWithin (count : ℕ) : List YamlNode → Prop
  | [] => True
  | item :: items => item.startMark.line < count ∧ item.Within count ∧ ItemsWithin count items

def EntriesWithin (count : ℕ) : List (YamlNode × YamlNode) → Prop
  | [] => True
  | (_, value) :: entries => value.Within count ∧ EntriesWithin count entries

end

/-! ## Parts of a text -/

/-- One node of a region: the lines above it, then those of the item, with what is composed of
them, its marks counted from the line of its dash. -/
structure NodePart where
  above : List String
  body : List String
  node : YamlNode

def NodePart.lines (p : NodePart) : List String := p.above ++ p.body

structure NodePart.WellFormed (column : ℕ) (p : NodePart) : Prop where
  dash : ∃ line ∈ p.body[0]?, dashAt column line = true
  key : p.node.startMark.line < p.body.length
  /-- Its first key stands on the line of the dash or below. -/
  below : ∀ row, 0 < row → row ≤ p.node.startMark.line → ∀ line ∈ p.body[row]?,
    dashAt column line = false
  last : ∃ line ∈ p.body.getLast?, isFiller line = false

/-- A topology in block lines, opened at the nodes of one region. What surrounds them is kept as
PyYAML composes it. -/
structure Layout where
  eol : String
  /-- The lines through that of the region's `nodes:`. -/
  top : List String
  /-- Column of the dashes. -/
  column : ℕ
  parts : List NodePart
  rest : List String
  /-- The entries of the document around `regions`. -/
  entries₁ : List (YamlNode × YamlNode)
  entries₂ : List (YamlNode × YamlNode)
  /-- The regions around the one. -/
  regions₁ : List YamlNode
  regions₂ : List YamlNode
  /-- Its entries around `nodes`. -/
  fields₁ : List (YamlNode × YamlNode)
  fields₂ : List (YamlNode × YamlNode)

/-- A composed document, opened at the nodes of one region. -/
structure OpenTree where
  rootTag : String
  rootFlow : Bool
  rootStart : Mark
  rootStop : Mark
  entries₁ : List (YamlNode × YamlNode)
  regionsKey : YamlNode
  entries₂ : List (YamlNode × YamlNode)
  regionsTag : String
  regionsStart : Mark
  regionsStop : Mark
  regions₁ : List YamlNode
  regions₂ : List YamlNode
  regionTag : String
  regionStart : Mark
  regionStop : Mark
  fields₁ : List (YamlNode × YamlNode)
  nodesKey : YamlNode
  fields₂ : List (YamlNode × YamlNode)
  nodesTag : String
  nodesStart : Mark
  nodesStop : Mark
  nodes : List YamlNode

namespace OpenTree

variable (T : OpenTree)

def sequence : YamlNode := .sequence T.nodesTag T.nodes false T.nodesStart T.nodesStop

def region : YamlNode :=
  .mapping T.regionTag (T.fields₁ ++ (T.nodesKey, T.sequence) :: T.fields₂) false T.regionStart
    T.regionStop

def regions : YamlNode :=
  .sequence T.regionsTag (T.regions₁ ++ T.region :: T.regions₂) false T.regionsStart T.regionsStop

def root : YamlNode :=
  .mapping T.rootTag (T.entries₁ ++ (T.regionsKey, T.regions) :: T.entries₂) T.rootFlow T.rootStart
    T.rootStop

end OpenTree

/-- An entry put behind that of a key. -/
def entryAfter (key : String) (e : YamlNode × YamlNode) :
    List (YamlNode × YamlNode) → List (YamlNode × YamlNode)
  | [] => []
  | x :: xs => if isKey key x.1 then x :: e :: xs else x :: entryAfter key e xs

/-- The nodes stand `line` lines into the text, one after the other. -/
inductive NodesPlaced : ℕ → List NodePart → List YamlNode → Prop where
  | nil {line : ℕ} : NodesPlaced line [] []
  | cons {line : ℕ} {p : NodePart} {ps : List NodePart} {n : YamlNode} {ns : List YamlNode}
      (content : n.content = p.node.content)
      (start : n.startMark.line = line + p.above.length + p.node.startMark.line)
      (tail : NodesPlaced (line + p.lines.length) ps ns) : NodesPlaced line (p :: ps) (n :: ns)

namespace Layout

variable (L : Layout)

def partLines : List String := L.parts.flatMap NodePart.lines

def lines : List String := L.top ++ L.partLines ++ L.rest

def text : String := L.eol.intercalate L.lines ++ L.eol

structure WellFormed : Prop where
  eol : L.eol = "\n" ∨ L.eol = "\r\n"
  plain : ∀ line ∈ L.lines, ∀ c ∈ line.toList, Python.isLineBreak c = false
  top : L.top ≠ []
  parts : ∀ p ∈ L.parts, p.WellFormed L.column
  /-- Blank lines and comments alone stand between the nodes. -/
  above : ∀ p ∈ L.parts.tail, ∀ line ∈ p.above, isFiller line = true

/-- The sequence of the nodes as it stands in the text. -/
structure Nodes (nodes : List YamlNode) (start stop : Mark) : Prop where
  column : start.column = L.column
  starts : ∀ p ∈ L.parts.head?, start.line ≤ L.top.length + p.above.length
  placed : NodesPlaced L.top.length L.parts nodes
  stops : (L.top ++ L.partLines).length ≤ stop.line
  filler : ∀ line ∈ L.rest.take (stop.line - (L.top ++ L.partLines).length),
    isFiller line = true
  lines : stop.line ≤ L.lines.length

/-- What PyYAML composes of the text. -/
structure Composed (T : OpenTree) : Prop where
  entries₁ : entryContents T.entries₁ = entryContents L.entries₁
  entries₂ : entryContents T.entries₂ = entryContents L.entries₂
  regions₁ : contents T.regions₁ = contents L.regions₁
  regions₂ : contents T.regions₂ = contents L.regions₂
  fields₁ : entryContents T.fields₁ = entryContents L.fields₁
  fields₂ : entryContents T.fields₂ = entryContents L.fields₂
  regionsKey : isKey "regions" T.regionsKey = true
  regionsTag : T.regionsTag ≠ nullTag
  nodesKey : isKey "nodes" T.nodesKey = true
  nodesTag : T.nodesTag ≠ nullTag
  line : T.nodesKey.startMark.line + 1 = L.top.length
  nodes : L.Nodes T.nodes T.nodesStart T.nodesStop

/-- A text of these lines is composed as it is laid out. -/
def ReadAs (yaml : Yaml) (text : String) : Prop :=
  ∃ T : OpenTree, yaml.compose text = .ok (some T.root, false) ∧ L.Composed T ∧
    T.root.Within L.lines.length

def ReadBy (yaml : Yaml) : Prop := L.ReadAs yaml L.text

/-- The layout cut off behind its first nodes. -/
def cut (i : ℕ) : Layout :=
  { L with parts := L.parts.take i, rest := [], entries₂ := [], regions₂ := [], fields₂ := [] }

/-- The layout with a node put before the `i`-th. -/
def insertNode (i : ℕ) (p : NodePart) : Layout :=
  { L with parts := L.parts.take i ++ p :: L.parts.drop i }

/-- The values under a key of the region, its nodes left out. -/
def fieldsAt (key : String) : List YamlNode :=
  ((entryContents (L.fields₁ ++ L.fields₂)).filter fun e => isKey key e.1).map (·.2)

/-- Row of the first line after the nodes. -/
def bottom : ℕ := (L.top ++ L.partLines).length

/-- The layout with one line more, which is an entry of the region after its `lb_strategy`. -/
def withFallback (row : ℕ) (line : String) (e : YamlNode × YamlNode) : Layout :=
  if row < L.top.length then
    { L with
      top := L.top.take row ++ line :: L.top.drop row
      fields₁ := entryAfter "lb_strategy" e L.fields₁ }
  else
    { L with
      rest := L.rest.take (row - L.bottom) ++ line :: L.rest.drop (row - L.bottom)
      fields₂ := entryAfter "lb_strategy" e L.fields₂ }

/-- A line that names the fallback of the region, and the entry it stands for. -/
structure Pin where
  row : ℕ
  line : String
  entry : YamlNode × YamlNode

/-- The layout with the line, if there is one to write. -/
def pinned : Option Pin → Layout
  | none => L
  | some pin => L.withFallback pin.row pin.line pin.entry

end Layout

/-- The lines of the node alone are an item by themselves. -/
def NodePart.Alone (yaml : Yaml) (eol : String) (p : NodePart) : Prop :=
  ∃ tag node flow start stop,
    yaml.compose (eol.intercalate p.body ++ eol) =
      .ok (some (.sequence tag [node] flow start stop), false) ∧
    node.content = p.node.content ∧ node.startMark.line = p.node.startMark.line

/-- The part is what is written for the node, and reads back as an item of its id. -/
structure NodePart.Writes (yaml : Yaml) (eol : String) (node : NodeModel) (p : NodePart) :
    Prop where
  above : p.above = []
  body : nodeLines yaml node = .ok p.body
  plain : ∀ line ∈ p.body, ∀ c ∈ line.toList, Python.isLineBreak c = false
  last : ∃ line ∈ p.body.getLast?, isFiller line = false
  alone : p.Alone yaml eol
  first : p.node.startMark.line = 0
  item : ∃ x, nodeItem (p.node, 0, p.body.length) = .ok x ∧ x.id = some node.id

end HexRift
