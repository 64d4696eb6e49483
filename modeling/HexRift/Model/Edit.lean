import HexRift.Library.Checks
import HexRift.Model.Yaml

/-! # The line editor

`nodes add` and `nodes remove` splice the lines of the topology file. Where to cut is read
from the marks of the parsed document. -/

namespace HexRift

open Checks

def regionIndent : String := "  "
def nodeIndent : String := "      "

/-! ## Splicing lines -/

/-- One splice of a list of lines. -/
inductive LineOp where
  /-- `lines[row:row] = block` -/
  | insert (row : ℕ) (block : List String)
  /-- `del lines[start:stop]` -/
  | delete (start stop : ℕ)
  /-- `lines[row] = (lines[row][:first] + lines[row][last:]).rstrip()` -/
  | strip (row first last : ℕ)
  deriving DecidableEq

/-- The line without the columns between `first` and `last`. -/
def stripSpan (first last : ℕ) (line : String) : String :=
  String.ofList (Python.rstrip (line.toList.take first ++ line.toList.drop last))

namespace LineOp

section Act

variable {α : Type} (fresh : String → α) (restrip : (String → String) → α → α)

/-- A splice of a list whose entries stand for lines. -/
def act : LineOp → List α → List α
  | insert row block, xs => xs.take row ++ block.map fresh ++ xs.drop row
  | delete start stop, xs => xs.take start ++ xs.drop (max start stop)
  | strip row first last, xs => xs.modify row (restrip (stripSpan first last))

def actAll (ops : List LineOp) (xs : List α) : List α :=
  ops.foldl (fun ys op => op.act fresh restrip ys) xs

end Act

/-- The splices, in order, of a list of lines. -/
def runAll (ops : List LineOp) (lines : List String) : List String :=
  actAll id id ops lines

end LineOp

/-- `lines[row]` -/
def lineAt (lines : List String) (row : ℕ) : Except Error String :=
  match lines[row]? with
  | some line => .ok line
  | none => .error .indexError

/-- `_strip_flow` -/
def stripFlow (lines : List String) : Option (ℕ × ℕ × ℕ) → Except Error (List LineOp)
  | none => .ok []
  | some (row, first, last) => do
      let _ ← lineAt lines row
      pure [.strip row first last]

/-! ## Parsed entries -/

structure NodeItem where
  id : Option String
  hostname : Option String
  backup : Bool
  start : ℕ
  stop : ℕ
  deriving DecidableEq

structure RegionItem where
  id : Option String
  type : Option String
  vlessRoutes : List ℤ
  nodes : List NodeItem
  nodesLine : Option ℕ
  nodesError : Option String
  emptyFlowNodes : Option (ℕ × ℕ × ℕ)
  lbFallback : Option String
  lbFallbackLine : Option ℕ
  lbStrategyEnd : Option ℕ
  hysteria : Bool
  start : ℕ
  stop : ℕ
  deriving DecidableEq

structure RouteItem where
  destination : Option String
  start : ℕ
  stop : ℕ
  deriving DecidableEq

/-- Whether the line has the dash of an item at the column. -/
def dashAt (column : ℕ) (line : String) : Bool :=
  Python.slice line.toList column (column + 1) = ['-'] &&
    Python.strip (line.toList.take column) = []

/-- Line of an item's `-`, scanning `count` lines up from `row`; `upper` when there is none. -/
def scanDash (lines : List String) (column upper : ℕ) : ℕ → ℕ → Except Error ℕ
  | 0, _ => .ok upper
  | count + 1, row => do
      if dashAt column (← lineAt lines row) then pure row
      else scanDash lines column upper count (row - 1)

/-- Line of an item's `-` at the sequence column, scanning up from its first key line. -/
def dashLine (lines : List String) (column lower upper : ℕ) : Except Error ℕ :=
  scanDash lines column upper (upper + 1 - lower) upper

/-- First line of each item. `previous` is the line of the item before. -/
def itemStarts (lines : List String) (column : ℕ) (lower : ℕ) :
    List YamlNode → Except Error (List ℕ)
  | [] => .ok []
  | item :: rest => do
      let line := item.startMark.line
      let start ← dashLine lines column (min lower line) line
      pure (start :: (← itemStarts lines column (line + 1) rest))

/-- Each sequence item with its line span, from its `-` line to the next item's, or the end of
the sequence. -/
def spans (lines : List String) (seq : YamlNode) (items : List YamlNode) :
    Except Error (List (YamlNode × ℕ × ℕ)) := do
  let starts ← itemStarts lines seq.startMark.column seq.startMark.line items
  pure (items.zip (starts.zip (starts.tail ++ [seq.endMark.line])))

def nodeItem (item : YamlNode × ℕ × ℕ) : Except Error NodeItem := do
  pure {
    id := ← scalarText (some item.1) "id"
    hostname := ← scalarText (some item.1) "hostname"
    backup := (← scalarText (some item.1) "lb_role") = some "backup"
    start := item.2.1
    stop := item.2.2 }

/-- `_routes` -/
def itemRoutes (yaml : Yaml) (item : YamlNode) : Except Error (List ℤ) := do
  let holder ← entry (some item) "warp"
  let own ← intScalar yaml (some item) "vless_route"
  let warp ← intScalar yaml holder "vless_route"
  pure (own.toList ++ warp.toList)

def isFlowMapping : YamlNode → Bool
  | .mapping _ _ flowStyle _ _ => flowStyle
  | _ => false

def sequenceItems : Option YamlNode → List YamlNode
  | some (.sequence _ items _ _ _) => items
  | _ => []

/-- `_region_item` -/
def regionItem (yaml : Yaml) (lines : List String) (item : YamlNode × ℕ × ℕ) :
    Except Error RegionItem := do
  let region := some item.1
  let id ← scalarText region "id"
  let owner := s!"region {Python.reprOption id}"
  let nodesValue ← entry region "nodes"
  let seq := blockItems nodesValue
  let error :=
    if isFlowMapping item.1 then some (owner ++ ": must be a block mapping to edit")
    else if seq.isNone then
      some (owner ++ ": 'nodes:' must be a bare key or a block sequence to edit")
    else none
  let items := seq.getD (sequenceItems nodesValue)
  let strategyText ← scalarText region "lb_strategy"
  let strategyEntry ← entry region "lb_strategy"
  let strategy := if strategyText.isSome then strategyEntry else none
  let nodes ← match items, nodesValue with
    | [], _ => pure []
    | _, none => pure []
    | items, some value => do mapEach (← spans lines value items) nodeItem
  pure {
    id := id
    type := ← scalarText region "type"
    vlessRoutes := ← itemRoutes yaml item.1
    nodes := nodes
    nodesLine := keyLine region "nodes"
    nodesError := error
    emptyFlowNodes := emptyFlow nodesValue
    lbFallback := ← scalarText region "lb_fallback"
    lbFallbackLine := keyLine region "lb_fallback"
    lbStrategyEnd := strategy.map (·.endMark.line)
    hysteria := ← if (← scalarText region "protocol") = some "hysteria" then pure true
      else do pure (← entry region "hysteria").isSome
    start := item.2.1
    stop := item.2.2 }

def routeItem (item : YamlNode × ℕ × ℕ) : Except Error RouteItem := do
  pure {
    destination := ← scalarText (some item.1) "destination"
    start := item.2.1
    stop := item.2.2 }

/-- Entries of `routing.hub_routes`, and the error refusing to edit them. -/
structure HubRouteItems where
  line : Option ℕ
  items : List RouteItem
  error : Option String

/-- `_hub_route_items` -/
def hubRouteItems (lines : List String) (root : YamlNode) : Except Error HubRouteItems := do
  let routing ← entry (some root) "routing"
  let value ← entry routing "hub_routes"
  let line := keyLine routing "hub_routes"
  match blockItems value, value with
  | none, _ =>
      pure { line := line, items := []
             error := some
              "'routing.hub_routes' must be a bare key or a block sequence to edit" }
  | some [], _ => pure { line := line, items := [], error := none }
  | some _, none => pure { line := line, items := [], error := none }
  | some items, some value => do
      let routes ← mapEach (← spans lines value items) routeItem
      pure { line := line, items := routes, error := none }

/-! ## The topology file -/

/-- One parsed topology file: its lines, and the `regions:` entries located by marks. -/
structure Topology where
  eol : String
  lines : List String
  regionsLine : ℕ
  emptyFlowRegions : Option (ℕ × ℕ × ℕ)
  regions : List RegionItem
  aphelionDomain : Option String
  hubRoutes : HubRouteItems

/-- The text with a final newline. -/
def closeText (text : String) : String :=
  if Python.endswith text "\n" then text else text ++ "\n"

/-- The terminator the editor writes. -/
def eolOf (text : String) : String :=
  if Python.containsCrlf text.toList then "\r\n" else "\n"

/-- `Topology(text)` -/
def Topology.ofText (yaml : Yaml) (text : String) : Except Error Topology := do
  let text := closeText text
  let lines := Python.splitlines text
  let root ← composeRoot yaml text
  match ← entry (some root) "regions", keyLine (some root) "regions" with
  | some value, some line =>
      match blockItems (some value) with
      | none =>
          throw (.topologyError "'regions:' must be a bare key or a block sequence to edit")
      | some items => do
          let regions ← mapEach (← spans lines value items) (regionItem yaml lines)
          pure {
            eol := eolOf text
            lines := lines
            regionsLine := line
            emptyFlowRegions := emptyFlow (some value)
            regions := regions
            aphelionDomain := ← scalarText (← entry (some root) "global") "aphelion_domain"
            hubRoutes := ← hubRouteItems lines root }
  | _, _ => throw (.topologyError "No top-level 'regions:' key found in topology")

namespace Topology

variable (t : Topology)

def region (id : String) : Option RegionItem := t.regions.find? fun r => r.id = some id

def hasNode (id : String) : Bool := t.regions.any fun r => r.nodes.any fun n => n.id = some id

/-- `_render` -/
def render (lines : List String) : String := t.eol.intercalate lines ++ t.eol

end Topology

/-! ## Guards -/

def isDash (line indent : String) : Bool :=
  Python.startswith line (indent ++ "-") &&
    match line.toList.drop (indent.length + 1) with
    | [] => true
    | c :: _ => Python.isSpace c

/-- Refuse to splice next to differently indented siblings. -/
def checkIndent (lines : List String) (start : ℕ) (indent : String) : Except Error Unit := do
  let line ← lineAt lines start
  ensure (isDash line indent = true) (.topologyError
    s!"Expected {indent.length}-space indented '- id:' items to splice next to, found {Python.repr line}")

/-- Raise what stands against the edit. -/
def refuse : Option String → Except Error Unit
  | none => .ok ()
  | some e => .error (.topologyError e)

def checkDash (lines : List String) (start : ℕ) : Except Error Unit := do
  let line ← lineAt lines start
  ensure (isDash (String.ofList (Python.lstrip line.toList)) "" = true) (.topologyError
    s!"Expected a '- ' list item to remove, found {Python.repr line}")

/-- Whether the line is blank or a comment. -/
def isFiller (line : String) : Bool :=
  Python.strip line.toList = [] || (Python.lstrip line.toList).head? = some '#'

/-- End of the lines from `start` without trailing blank and comment lines, which belong to
what follows. -/
def contentEnd (lines : List String) (start : ℕ) : ℕ → Except Error ℕ
  | 0 => .ok 0
  | stop + 1 => do
      if start < stop + 1 then
        if isFiller (← lineAt lines stop) then contentEnd lines start stop
        else pure (stop + 1)
      else pure (stop + 1)

def appendAt (lines : List String) (start stop : ℕ) (indent : String) : Except Error ℕ := do
  checkIndent lines start indent
  contentEnd lines start stop

/-! ## Adding a node -/

/-- Part of a natural sort key. -/
inductive Chunk where
  | text (s : List Char)
  | num (n : ℕ)
  deriving DecidableEq

/-- `int(t) if t.isdigit() else t` -/
def chunk (part : List Char) : Except Error Chunk :=
  if Python.isdigit part then
    match Python.int part with
    | some n => .ok (.num n.toNat)
    | none =>
        let literal := Python.repr (String.ofList part)
        .error (.valueError s!"invalid literal for int() with base 10: {literal}")
  else .ok (.text part)

def naturalKey (value : String) : Except Error (List Chunk) :=
  mapEach (Python.splitDigits value.toList) chunk

/-- `a < b` for keys, whose texts and numbers take turns. -/
def keyLess : List Chunk → List Chunk → Bool
  | _, [] => false
  | [], _ :: _ => true
  | a :: as, b :: bs =>
      if a = b then keyLess as bs
      else
        match a, b with
        | .text s, .text t => s < t
        | .num m, .num n => m < n
        | _, _ => false

/-- A node of the schema, as its explicitly set fields. -/
structure NodeModel where
  id : String
  fields : List (String × Field)

/-- A region of the schema. `fields` are those it has once its nodes are the given one. -/
structure RegionModel where
  id : String
  type : RegionType
  fields : NodeModel → List (String × Field)

def nodeLines (yaml : Yaml) (node : NodeModel) : Except Error (List String) :=
  itemLines yaml nodeIndent node.fields

def regionLines (yaml : Yaml) (region : RegionModel) (node : NodeModel) :
    Except Error (List String) :=
  itemLines yaml regionIndent (region.fields node)

/-- Nodes of the region sorting before the key. -/
def earlierNodes (key : List Chunk) : List NodeItem → Except Error (List NodeItem)
  | [] => .ok []
  | n :: rest => do
      match n.id with
      | none => earlierNodes key rest
      | some id =>
          let less := keyLess (← naturalKey id) key
          let others ← earlierNodes key rest
          pure (if less then n :: others else others)

/-- `_insert_at` -/
def insertAt (lines : List String) (region : RegionItem) (nodeId : String) :
    Except Error ℕ := do
  match region.nodesLine with
  | none =>
      let id := Python.reprOption region.id
      throw (.topologyError s!"Region {id} has no 'nodes:' key to add under")
  | some nodesLine =>
      let earlier ← earlierNodes (← naturalKey nodeId) region.nodes
      match earlier.getLast?, region.nodes with
      | some n, _ => appendAt lines n.start n.stop nodeIndent
      | none, n :: _ => do
          checkIndent lines n.start nodeIndent
          pure (nodesLine + 1)
      | none, [] => pure (nodesLine + 1)

/-- First primary node of a balanced region, and the line to write its `lb_fallback` on. -/
def fallbackToSet (region : RegionItem) : Option (String × ℕ) :=
  match region.lbStrategyEnd, region.lbFallbackLine, region.nodes with
  | some strategyEnd, none, first :: rest =>
      let primary := ((first :: rest).find? fun n => !n.backup).getD first
      primary.id.map fun id => (id, strategyEnd + 1)
  | _, _, _ => none

/-- Result of an edit, with the splices it made. -/
structure AddEdit where
  text : String
  ops : List LineOp
  created : Bool
  setLbFallback : Option String

namespace Topology

variable (yaml : Yaml) (t : Topology)

/-- The region to add under, if it exists. -/
def checkAdd (region : RegionModel) : Except Error (Option RegionItem) :=
  match t.region region.id with
  | none => .ok none
  | some existing => do
      let type := existing.type.getD "None"
      ensure (existing.type = some region.type.value) (.topologyError
        s!"Region {Python.repr region.id} has type '{type}', refusing to add a '{region.type.value}' node to it")
      refuse existing.nodesError
      pure (some existing)

/-- Splices creating a region at the end of the section. -/
def createOps (region : RegionModel) (node : NodeModel) : Except Error (List LineOp) := do
  let block ← regionLines yaml region node
  match t.regions.getLast? with
  | some last => do
      let row ← appendAt t.lines last.start last.stop regionIndent
      pure [.insert row ("" :: block)]
  | none => do
      let strip ← stripFlow t.lines t.emptyFlowRegions
      pure (strip ++ [.insert (t.regionsLine + 1) block])

/-- Splices adding a node to a region, the later insertion first. -/
def insertOps (existing : RegionItem) (node : NodeModel) : Except Error (List LineOp) := do
  let strip ← stripFlow t.lines existing.emptyFlowNodes
  let row ← insertAt (LineOp.runAll strip t.lines) existing node.id
  let block := LineOp.insert row (← nodeLines yaml node)
  match fallbackToSet existing with
  | none => pure (strip ++ [block])
  | some (name, line) =>
      let fallback :=
        .insert line [regionIndent ++ "  lb_fallback: " ++ quotedText yaml name]
      -- the sort is stable, so the node comes first on a tie
      pure (strip ++ if row < line then [fallback, block] else [block, fallback])

def addNode (region : RegionModel) (node : NodeModel) : Except Error AddEdit := do
  ensure (t.hasNode node.id = false)
    (.topologyError s!"Node {Python.repr node.id} is already in the topology")
  match ← t.checkAdd region with
  | none => do
      let ops ← t.createOps yaml region node
      pure { text := t.render (LineOp.runAll ops t.lines), ops := ops, created := true
             setLbFallback := none }
  | some existing => do
      let ops ← t.insertOps yaml existing node
      pure { text := t.render (LineOp.runAll ops t.lines), ops := ops, created := false
             setLbFallback := (fallbackToSet existing).map (·.1) }

end Topology

/-! ## Removing a node -/

structure RemoveEdit where
  text : String
  ops : List LineOp
  regionId : Option String
  emptied : Bool
  droppedRoutes : List String
  droppedLbFallback : Bool

namespace Topology

variable (t : Topology)

/-- Destinations that are gone with the node. -/
def goneIds (region : RegionItem) (node : NodeItem) : List (Option String) :=
  let gone := if region.nodes.length = 1 then [region.id] else []
  if node.id ∉ (t.regions.map (·.id)).filter (· ∉ gone) then node.id :: gone else gone

def deadRoutes (region : RegionItem) (node : NodeItem) : List RouteItem :=
  t.hubRoutes.items.filter fun r =>
    r.destination.isSome && r.destination ∈ t.goneIds region node

/-- Span of an item without the filler lines after it. -/
def itemSpan (start stop : ℕ) : Except Error (ℕ × ℕ) := do
  pure (start, ← contentEnd t.lines start stop)

/-- Line of the `hub_routes` key, when no route is left. -/
def deadKeySpan (dead : List RouteItem) : List (ℕ × ℕ) :=
  match t.hubRoutes.line with
  | some line =>
      if dead ≠ [] ∧ dead.length = t.hubRoutes.items.length then [(line, line + 1)] else []
  | none => []

def fallbackSpan (region : RegionItem) (node : NodeItem) : List (ℕ × ℕ) :=
  match region.lbFallbackLine with
  | some line => if region.lbFallback = node.id then [(line, line + 1)] else []
  | none => []

/-- Spans a removal deletes. -/
def removeSpans (region : RegionItem) (node : NodeItem) : Except Error (List (ℕ × ℕ)) := do
  let dead := t.deadRoutes region node
  let items := (node.start, node.stop) :: dead.map fun r => (r.start, r.stop)
  forEach items fun i => checkDash t.lines i.1
  let itemSpans ← mapEach items fun i => t.itemSpan i.1 i.2
  pure (itemSpans ++ t.deadKeySpan dead ++ fallbackSpan region node)

/-- `sorted(spans, reverse=True)` -/
def latestFirst (spans : List (ℕ × ℕ)) : List (ℕ × ℕ) :=
  spans.insertionSort fun a b => b.1 < a.1 ∨ b.1 = a.1 ∧ b.2 ≤ a.2

/-- `_remove` -/
def removeFrom (region : RegionItem) (node : NodeItem) : Except Error RemoveEdit := do
  refuse region.nodesError
  refuse t.hubRoutes.error
  let spans ← t.removeSpans region node
  let ops := (latestFirst spans).map fun s => LineOp.delete s.1 s.2
  pure {
    text := t.render (LineOp.runAll ops t.lines)
    ops := ops
    regionId := region.id
    emptied := region.nodes.length = 1
    droppedRoutes := ((t.deadRoutes region node).filterMap (·.destination)).eraseDups
    droppedLbFallback := (fallbackSpan region node) ≠ [] }

def removeNode (nodeId : String) : Except Error RemoveEdit :=
  let found := t.regions.findSome? fun r =>
    (r.nodes.find? fun n => n.id = some nodeId).map fun n => (r, n)
  match found with
  | some (region, node) => t.removeFrom region node
  | none =>
      .error (.topologyError s!"Node {Python.repr nodeId} is not in the topology")

end Topology

end HexRift
