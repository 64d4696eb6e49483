import HexRift.Verification.Adding
import HexRift.Verification.Frame

/-! # Nodes added in either order

Two nodes of different keys come to stand in the same places whichever is added first, and the
order of the ids is kept. -/

namespace HexRift

open Checks

/-! ## A region opened in a text -/

/-- The text is laid out, opened at the region the editor finds under the id. -/
structure Layout.Shows (L : Layout) (yaml : Yaml) (text : String) (t : Topology) (id : String)
    (r : RegionItem) : Prop where
  wellFormed : L.WellFormed
  parts : L.parts ≠ []
  lines : Python.splitlines (closeText text) = L.lines
  eol : eolOf (closeText text) = L.eol
  readAs : L.ReadAs yaml (closeText text)
  parsed : Topology.ofText yaml text = .ok t
  region : t.regions[L.regions₁.length]? = some r
  named : r.id = some id
  first : ∀ q ∈ t.regions.take L.regions₁.length, q.id ≠ some id

section Shows

variable {L L' : Layout} {yaml : Yaml} {text : String} {t t' : Topology} {id : String}
  {r : RegionItem}

theorem Layout.Shows.region_eq (h : L.Shows yaml text t id r) : t.region id = some r := by
  have hsplit : t.regions = t.regions.take L.regions₁.length ++
      t.regions.drop L.regions₁.length := (List.take_append_drop _ _).symm
  rw [Topology.region, hsplit, List.find?_append]
  have hnone : (t.regions.take L.regions₁.length).find? (fun q => decide (q.id = some id)) =
      none := by
    rw [List.find?_eq_none]
    intro q hq heq
    exact h.first q hq (of_decide_eq_true heq)
  have hdrop : t.regions.drop L.regions₁.length =
      r :: t.regions.drop (L.regions₁.length + 1) :=
    List.drop_eq_getElem?_toList_append.trans (by rw [h.region]; rfl)
  rw [hnone, Option.none_or, hdrop]
  exact List.find?_cons_of_pos (decide_eq_true h.named)

theorem Layout.Shows.read (h : L.Shows yaml text t id r) : ∃ T rs₁ rs₂,
    L.Composed T ∧ TopologySeen yaml L.lines T.root t ∧ t.eol = L.eol ∧ L.Read t rs₁ r rs₂ := by
  obtain ⟨T, hcompose, hc, -⟩ := h.readAs
  obtain ⟨hseen, heol⟩ := (L.ofText_iff h.lines h.eol hcompose).mp h.parsed
  obtain ⟨rs₁, r', rs₂, hread⟩ := hc.read h.wellFormed hseen
  have hregion := h.region
  rw [hread.regions, ← hread.index, List.getElem?_append_right (Nat.le_refl _), Nat.sub_self]
    at hregion
  cases hregion
  exact ⟨T, rs₁, rs₂, hc, hseen, heol, hread⟩

/-- The editor finds the region again in a text that differs in its nodes. -/
theorem Layout.Shows.extend (h : L.Shows yaml text t id r) (hL' : L'.WellFormed)
    (hext : L.Extends L') (hreadBy : L'.ReadBy yaml) (hparts : L'.parts ≠ [])
    (hnodes : ∀ p ∈ L'.parts, ∃ x, NodeSeen p.node x)
    (hparsed : Topology.ofText yaml L'.text = .ok t') :
    ∃ r', L'.Shows yaml L'.text t' id r' ∧ r'.lbStrategyEnd.isSome = r.lbStrategyEnd.isSome := by
  obtain ⟨T, rs₁, rs₂, hc, hseen, -, hread⟩ := h.read
  obtain ⟨T', hcompose', hc', hin'⟩ := hreadBy
  rw [← L'.closeText_text hL'] at hcompose'
  have hparse : ∀ t, Topology.ofText yaml L'.text = .ok t ↔
      TopologySeen yaml L'.lines T'.root t ∧ t.eol = L'.eol :=
    fun t => L'.ofText_iff (L'.splitlines_text hL') (L'.eolOf_text hL') hcompose'
  obtain ⟨hseen', -⟩ := (hparse t').mp hparsed
  obtain ⟨_, _, _, _, _, r₀, _, -, -, -, hr₀, -, -⟩ :=
    OpenTree.regions_seen hc'.regionsKey hc'.regionsTag hseen'
  obtain ⟨hregion, -, -⟩ := regionItem_eq_ok.mp hr₀
  obtain ⟨t'', rs₁', r', rs₂', hseen'', heol'', hread', hre, -⟩ :=
    hc.reread hc' hL' hext hin' hseen hread hnodes hregion.lbFallback
  have hparsed'' := (hparse t'').mpr ⟨hseen'', heol''⟩
  obtain rfl : t' = t'' := Except.ok.inj (hparsed.symm.trans hparsed'')
  have hview : ∀ {α : Type} (f : RegionView → α), f { r'.view with nodes := [], lbFallback := none }
      = f { r.view with nodes := [], lbFallback := none } := fun f => congrArg f hre.region
  refine ⟨r', ⟨hL', hparts, L'.splitlines_text hL', L'.eolOf_text hL', ⟨T', hcompose', hc', hin'⟩,
    hparsed, ?_, ?_, ?_⟩, ?_⟩
  · rw [hread'.regions, ← hread'.index, List.getElem?_append_right (Nat.le_refl _), Nat.sub_self]
    rfl
  · exact (hview RegionView.id).trans h.named
  · intro q hq
    rw [hread'.regions, ← hread'.index, List.take_left] at hq
    have hmem : q.view ∈ rs₁.map RegionItem.view := by
      rw [← hre.before]
      exact List.mem_map_of_mem hq
    obtain ⟨q₀, hq₀, hsame⟩ := List.mem_map.mp hmem
    have hid : q₀.id = q.id := congrArg RegionView.id hsame
    rw [← hid]
    apply h.first
    rw [hread.regions, ← hread.index, List.take_left]
    exact hq₀
  · exact hview RegionView.lbStrategy

end Shows

/-! ## The text after an addition -/

section Splices

variable {L : Layout} {yaml : Yaml} {text : String} {t : Topology} {id : String} {r : RegionItem}
  {node : NodeModel} {p : NodePart} {pin : Option Layout.Pin} {key : List Chunk}

/-- PyYAML composes an item put between others as it composes it alone. -/
def Layout.Splices (L : Layout) (yaml : Yaml) (pin : Option Layout.Pin) (key : List Chunk)
    (p : NodePart) : Prop :=
  L.ReadBy yaml → L.column = nodeIndent.length → L.Free yaml key → p.Alone yaml L.eol →
    (L.added pin key p).ReadBy yaml

theorem NodePart.Writes.seen {eol : String} (h : p.Writes yaml eol node) :
    ∃ x, NodeSeen p.node x ∧ x.id = some node.id := by
  obtain ⟨x, hx, hid⟩ := h.item
  exact ⟨x, nodeItem_seen hx, hid⟩

theorem NodePart.Writes.id?_eq {eol : String} (h : p.Writes yaml eol node) :
    p.id? = some node.id := by
  obtain ⟨x, hx, hid⟩ := h.seen
  rw [hx.id?_eq, hid]

theorem PartsSeen.exists_seen {parts : List NodePart} {nodes : List NodeItem}
    (h : PartsSeen parts nodes) : ∀ q ∈ parts, ∃ x, NodeSeen q.node x := by
  induction h with
  | nil => exact fun q hq => absurd hq List.not_mem_nil
  | cons hp _ ih =>
      rw [List.forall_mem_cons]
      exact ⟨⟨_, hp⟩, ih⟩

theorem Layout.mem_added {q : NodePart} (hq : q ∈ (L.added pin key p).parts) :
    q = p ∨ q ∈ L.parts := by
  rw [Layout.added_parts] at hq
  exact Slots.mem_insert.mp hq

/-- The text after the addition is laid out with the part in its place. -/
theorem Layout.Shows.added (h : L.Shows yaml text t id r) (hreadBy : L.ReadBy yaml)
    (hfree : L.Free yaml key) (hcolumn : L.column = nodeIndent.length)
    (hp : p.Writes yaml L.eol node) (hpin : ∀ x ∈ pin, x.Fits L)
    (hsplice : L.Splices yaml pin key p) {t' : Topology}
    (hparsed : Topology.ofText yaml (L.added pin key p).text = .ok t') :
    ∃ r', (L.added pin key p).Shows yaml (L.added pin key p).text t' id r' ∧
      r'.lbStrategyEnd.isSome = r.lbStrategyEnd.isSome := by
  obtain ⟨T, rs₁, rs₂, -, -, -, hread⟩ := h.read
  refine h.extend (Layout.added_wellFormed h.wellFormed hpin hcolumn hp hfree)
    (Layout.extends_added hpin key) (hsplice hreadBy hcolumn hfree hp.alone) ?_ ?_ hparsed
  · rw [Layout.added_parts]
    exact List.ne_nil_of_mem (Slots.mem_insert.mpr (.inl rfl))
  · intro q hq
    rcases Layout.mem_added hq with rfl | hq
    · obtain ⟨x, hx, -⟩ := hp.seen
      exact ⟨x, hx⟩
    · exact hread.nodes.exists_seen q hq

end Splices

/-! ## The order of the ids -/

section Order

variable {L : Layout} {p : NodePart} {pin : Option Layout.Pin} {key : List Chunk}

end Order

/-! ## Two nodes -/

section Commute

variable {L : Layout} {yaml : Yaml} {pin : Option Layout.Pin} {x y : NodeModel}
  {px py : NodePart} {kx ky : List Chunk}

section Added

variable {text : String} {t tx : Topology} {region : RegionModel} {r : RegionItem} {edit : AddEdit}

/-- Whether the part is read as a backup. -/
def NodePart.backup (p : NodePart) : Bool :=
  match scalarText (some p.node) "lb_role" with
  | .ok role => role = some "backup"
  | .error _ => false

end Added

end Commute

/-! ## A region of hub nodes -/

namespace Sample

/-- PyYAML on the documents given, and on words. -/
def documents (table : List (String × YamlNode)) : Yaml :=
  { compose := fun text =>
      match table.find? fun e => e.1 = text with
      | some e => .ok (some e.2, false)
      | none => .error "no document"
    safeLoad := fun value => .ok (.str value) }

def hubNodeModel (id : String) : NodeModel :=
  { id := id
    fields := [("id", .scalar (.str id)), ("hostname", .scalar (.str (id ++ ".example")))] }

def hubRegionModel : RegionModel :=
  { id := "main", type := .hub
    fields := fun node => [("id", .scalar (.str "main")), ("type", .scalar (.str "hub")),
      ("nodes", .dicts [node.fields])] }

def hubLines (id : String) : List String :=
  ["      - id: " ++ id, "        hostname: " ++ id ++ ".example"]

/-- What is composed of the lines of a node whose id has two characters. -/
def hubItem (id : String) (index line : ℕ) (stop : Mark) : YamlNode :=
  blockMapping
    [(plain "id" index line 8, plain id (index + 4) line 12),
      (plain "hostname" (index + 15) (line + 1) 8,
        plain (id ++ ".example") (index + 25) (line + 1) 18)] ⟨index, line, 8⟩ stop

def hubItems (index line : ℕ) : List String → List YamlNode
  | [] => []
  | [id] => [hubItem id index line ⟨index + 36, line + 2, 0⟩]
  | id :: ids =>
      hubItem id index line ⟨index + 42, line + 2, 6⟩ :: hubItems (index + 44) (line + 2) ids

def hubsTop : List String := ["regions:", "  - id: main", "    type: hub", "    nodes:"]

def hubsFields : List (YamlNode × YamlNode) :=
  [(plain "id" 13 1 4, plain "main" 17 1 8), (plain "type" 26 2 4, plain "hub" 32 2 10)]

def hubPart (id : String) : NodePart :=
  { above := [], body := hubLines id, node := hubItem id 8 0 ⟨44, 2, 0⟩ }

/-- A region of nodes of two lines each. -/
def hubsLayout (ids : List String) : Layout :=
  { eol := "\n", top := hubsTop, column := 6, parts := ids.map hubPart, rest := []
    entries₁ := [], entries₂ := [], regions₁ := [], regions₂ := [], fields₁ := hubsFields
    fields₂ := [] }

def hubsTree (ids : List String) : OpenTree :=
  let stop : Mark := ⟨47 + 44 * ids.length, 4 + 2 * ids.length, 0⟩
  { rootTag := mapTag, rootFlow := false, rootStart := ⟨0, 0, 0⟩, rootStop := stop
    entries₁ := [], regionsKey := plain "regions" 0 0 0, entries₂ := []
    regionsTag := seqTag, regionsStart := ⟨11, 1, 2⟩, regionsStop := stop
    regions₁ := [], regions₂ := []
    regionTag := mapTag, regionStart := ⟨13, 1, 4⟩, regionStop := stop
    fields₁ := hubsFields, nodesKey := plain "nodes" 40 3 4, fields₂ := []
    nodesTag := seqTag, nodesStart := ⟨53, 4, 6⟩, nodesStop := stop
    nodes := hubItems 55 4 ids }

def aloneText (id : String) : String := "\n".intercalate (hubLines id) ++ "\n"

def hubAlone (id : String) : YamlNode := blockSequence [(hubPart id).node] ⟨6, 0, 6⟩ ⟨44, 2, 0⟩

def hubIds : List String := ["h1", "h2", "h3"]

/-- The nodes of the texts that are read. -/
def hubTexts : List (List String) := [["h2"], ["h1", "h2"], ["h2", "h3"]]

def hubsYaml : Yaml :=
  documents ((hubTexts.map fun ids => ((hubsLayout ids).text, (hubsTree ids).root)) ++
    hubIds.map fun id => (aloneText id, hubAlone id))

def hubNodes (line : ℕ) : List String → List NodeItem
  | [] => []
  | id :: ids =>
      ⟨some id, some (id ++ ".example"), false, line, line + 2⟩ :: hubNodes (line + 2) ids

/-- The region as the editor reads it, its nodes given. -/
def hubsRegion (nodes : List NodeItem) (stop : ℕ) : RegionItem :=
  { id := some "main", type := some "hub", vlessRoutes := [], nodes := nodes, nodesLine := some 3
    nodesError := none, emptyFlowNodes := none, lbFallback := none, lbFallbackLine := none
    lbStrategyEnd := none, hysteria := false, start := 1, stop := stop }

def hubsTopology (lines : List String) (nodes : List NodeItem) : Topology :=
  { eol := "\n", lines := lines, regionsLine := 0, emptyFlowRegions := none
    regions := [hubsRegion nodes lines.length], aphelionDomain := none
    hubRoutes := { line := none, items := [], error := none } }

theorem mem_hubTexts {ids : List String} (h : ids ∈ hubTexts) :
    ids = ["h2"] ∨ ids = ["h1", "h2"] ∨ ids = ["h2", "h3"] := by
  simpa [hubTexts] using h

theorem mem_hubIds {id : String} (h : id ∈ hubIds) : id = "h1" ∨ id = "h2" ∨ id = "h3" := by
  simpa [hubIds] using h

theorem hubs_compose {ids : List String} (h : ids ∈ hubTexts) :
    hubsYaml.compose (hubsLayout ids).text = .ok (some (hubsTree ids).root, false) := by
  rcases mem_hubTexts h with rfl | rfl | rfl
  all_goals rfl

theorem hub_alone {id : String} (h : id ∈ hubIds) : (hubPart id).Alone hubsYaml "\n" := by
  refine ⟨seqTag, (hubPart id).node, false, ⟨6, 0, 6⟩, ⟨44, 2, 0⟩, ?_, rfl, rfl⟩
  rcases mem_hubIds h with rfl | rfl | rfl
  all_goals rfl

theorem hubPart_wellFormed {id : String} (h : id ∈ hubIds) : (hubPart id).WellFormed 6 := by
  refine ⟨⟨_, rfl, ?_⟩, Nat.succ_pos 1, ?_, ⟨_, rfl, ?_⟩⟩
  · rcases mem_hubIds h with rfl | rfl | rfl
    all_goals decide
  · intro row hpos hle
    exact absurd (Nat.lt_of_lt_of_le hpos hle) (Nat.lt_irrefl 0)
  · rcases mem_hubIds h with rfl | rfl | rfl
    all_goals decide

theorem plain_of_all {lines : List String}
    (h : lines.all (fun line => line.toList.all fun c => !Python.isLineBreak c) = true) :
    ∀ line ∈ lines, ∀ c ∈ line.toList, Python.isLineBreak c = false := by
  simpa using h

theorem hubs_plain {ids : List String} (h : ids ∈ hubTexts) :
    ∀ line ∈ (hubsLayout ids).lines, ∀ c ∈ line.toList, Python.isLineBreak c = false := by
  apply plain_of_all
  rcases mem_hubTexts h with rfl | rfl | rfl
  all_goals decide

theorem hubs_nodes {ids : List String} (h : ids ∈ hubTexts) :
    (hubsLayout ids).Nodes (hubsTree ids).nodes (hubsTree ids).nodesStart
      (hubsTree ids).nodesStop := by
  rcases mem_hubTexts h with rfl | rfl | rfl
  · refine ⟨rfl, fun p hp => ?_, .cons rfl rfl .nil, by decide, ?_, by decide⟩
    · cases hp
      rfl
    · exact fun line hline => absurd hline List.not_mem_nil
  all_goals
    refine ⟨rfl, fun p hp => ?_, .cons rfl rfl (.cons rfl rfl .nil), by decide, ?_, by decide⟩
    · cases hp
      rfl
    · exact fun line hline => absurd hline List.not_mem_nil

theorem hubs_readBy {ids : List String} (h : ids ∈ hubTexts) :
    (hubsLayout ids).ReadBy hubsYaml := by
  have hseq : seqTag ≠ nullTag := by decide
  refine ⟨hubsTree ids, hubs_compose h, ⟨rfl, rfl, rfl, rfl, rfl, rfl, rfl, hseq, rfl, hseq, rfl,
    hubs_nodes h⟩, ?_⟩
  rcases mem_hubTexts h with rfl | rfl | rfl
  all_goals
    refine ⟨⟨Nat.succ_lt_succ (Nat.succ_pos _), ⟨trivial, trivial, ?_, trivial⟩, trivial⟩, trivial⟩
    simp [OpenTree.sequence, hubsTree, YamlNode.Within, EntriesWithin, ItemsWithin, hubItems, plain,
      hubItem, blockMapping, YamlNode.startMark, hubsLayout, Layout.lines, Layout.partLines,
      hubsTop, NodePart.lines, hubPart, hubLines]

theorem hub_writes {id : String} (h : id ∈ hubIds) :
    (hubPart id).Writes hubsYaml "\n" (hubNodeModel id) := by
  refine ⟨rfl, ?_, plain_of_all ?_, ⟨_, rfl, ?_⟩, hub_alone h, rfl, ⟨_, rfl, rfl⟩⟩
  · rcases mem_hubIds h with rfl | rfl | rfl
    all_goals rfl
  all_goals
    rcases mem_hubIds h with rfl | rfl | rfl
    all_goals decide

/-- What the editor reads of lines that end in `\n`. -/
theorem parsed_of_compose {yaml : Yaml} {lines : List String} {root : YamlNode} {t : Topology}
    (hne : lines ≠ []) (hlines : ∀ line ∈ lines, ∀ c ∈ line.toList, Python.isLineBreak c = false)
    (hroot : composeRoot yaml ("\n".intercalate lines ++ "\n") = .ok root)
    (heol : t.eol = "\n") (hseen : TopologySeen yaml lines root t) :
    Topology.ofText yaml ("\n".intercalate lines ++ "\n") = .ok t := by
  rw [ofText_eq_ok_iff, closeText_joined (.inl rfl), splitlines_joined (.inl rfl) hne hlines,
    eolOf_joined (.inl rfl) hne hlines]
  exact ⟨root, hroot, hseen, heol⟩

theorem hubs_parsed {ids : List String} (h : ids ∈ hubTexts) :
    Topology.ofText hubsYaml (hubsLayout ids).text =
      .ok (hubsTopology (hubsLayout ids).lines (hubNodes 4 ids)) := by
  have hroot : composeRoot hubsYaml (hubsLayout ids).text = .ok (hubsTree ids).root := by
    rw [composeRoot, hubs_compose h]
    rfl
  refine parsed_of_compose (List.cons_ne_nil _ _) (hubs_plain h) hroot rfl ?_
  rcases mem_hubTexts h with rfl | rfl | rfl
  all_goals exact ⟨rfl, rfl, ⟨_, _, _, rfl, rfl, rfl, rfl, rfl⟩, ⟨_, rfl, rfl⟩, rfl⟩

/-- The edit that puts a node on a row. -/
def hubsEdit (ids : List String) (row : ℕ) (id : String) : AddEdit :=
  { text := (hubsLayout ids).text, ops := [.insert row (hubLines id)], created := false
    setLbFallback := none }

theorem hubs_added (ids : List String) (row : ℕ) (id : String) (ids' : List String)
    (h : (ids, row, id, ids') ∈ [(["h2"], 4, "h1", ["h1", "h2"]), (["h2"], 6, "h3", ["h2", "h3"]),
      (["h1", "h2"], 8, "h3", ["h1", "h2", "h3"]),
      (["h2", "h3"], 4, "h1", ["h1", "h2", "h3"])] := by simp) :
    (hubsTopology (hubsLayout ids).lines (hubNodes 4 ids)).addNode hubsYaml hubRegionModel
      (hubNodeModel id) = .ok (hubsEdit ids' row id) := by
  simp only [List.mem_cons, List.not_mem_nil, or_false, Prod.mk.injEq] at h
  rcases h with ⟨rfl, rfl, rfl, rfl⟩ | ⟨rfl, rfl, rfl, rfl⟩ | ⟨rfl, rfl, rfl, rfl⟩ |
    ⟨rfl, rfl, rfl, rfl⟩
  all_goals rfl

theorem key_h1 : naturalKey (hubNodeModel "h1").id = .ok [.text ['h'], .num 1, .text []] := rfl

theorem added_h1 : (hubsLayout ["h2"]).added none [.text ['h'], .num 1, .text []] (hubPart "h1") =
    hubsLayout ["h1", "h2"] := rfl

theorem hubs_wellFormed : (hubsLayout ["h2"]).WellFormed := by
  refine ⟨.inl rfl, hubs_plain (by simp [hubTexts]), List.cons_ne_nil _ _, fun p hp => ?_,
    fun p hp => absurd hp List.not_mem_nil⟩
  obtain rfl := List.mem_singleton.mp hp
  exact hubPart_wellFormed (by simp [hubIds])

theorem hubs_free {key : List Chunk} (h : (hubsLayout ["h2"]).slotOf key ≤ 1) :
    (hubsLayout ["h2"]).Free hubsYaml key := by
  refine ⟨fun _ q hq => ?_, fun hne => ?_⟩
  · cases hq
    exact fun line hline => absurd hline List.not_mem_nil
  · have hcut : (hubsLayout ["h2"]).cut 1 = hubsLayout ["h2"] := rfl
    rw [Nat.le_antisymm h (Nat.one_le_iff_ne_zero.mpr hne), hcut]
    exact hubs_readBy (by simp [hubTexts])

theorem hubs_shows : (hubsLayout ["h2"]).Shows hubsYaml (hubsLayout ["h2"]).text
    (hubsTopology (hubsLayout ["h2"]).lines (hubNodes 4 ["h2"])) "main"
    (hubsRegion (hubNodes 4 ["h2"]) 6) where
  wellFormed := hubs_wellFormed
  parts := List.cons_ne_nil _ _
  lines := Layout.splitlines_text hubs_wellFormed
  eol := Layout.eolOf_text hubs_wellFormed
  readAs := by
    rw [Layout.closeText_text hubs_wellFormed]
    exact hubs_readBy (by simp [hubTexts])
  parsed := hubs_parsed (by simp [hubTexts])
  region := rfl
  named := rfl
  first := fun q hq => absurd hq List.not_mem_nil

end Sample

namespace Sample

end Sample

end HexRift
