import HexRift.Model.Layout
import HexRift.Verification.Readers

/-! # What is read without marks

Apart from the lines it notes, the editor reads the same of two documents that differ in their
marks alone. -/

namespace HexRift

open Checks

/-! ## Contents -/

@[simp] theorem contents_eq_map (items : List YamlNode) :
    contents items = items.map YamlNode.content := by
  induction items with
  | nil => rfl
  | cons item items ih => rw [contents, ih, List.map_cons]

@[simp] theorem entryContents_eq_map (entries : List (YamlNode × YamlNode)) :
    entryContents entries = entries.map fun e => (e.1.content, e.2.content) := by
  induction entries with
  | nil => rfl
  | cons e entries ih => rw [entryContents, ih, List.map_cons]

@[simp] theorem tag_content (n : YamlNode) : n.content.tag = n.tag := by
  cases n
  all_goals rfl

@[simp] theorem text?_content (n : YamlNode) : n.content.text? = n.text? := by
  cases n
  all_goals rfl

@[simp] theorem isKey_content (key : String) (n : YamlNode) :
    isKey key n.content = isKey key n := by
  cases n
  all_goals rfl

@[simp] theorem isFlowMapping_content (n : YamlNode) :
    isFlowMapping n.content = isFlowMapping n := by
  cases n
  all_goals rfl

theorem index_content_iff (n : YamlNode) :
    n.content.startMark.index = n.content.endMark.index ↔
      n.startMark.index = n.endMark.index := by
  cases n
  all_goals
    simp only [YamlNode.content, YamlNode.startMark, YamlNode.endMark, Mark.width]
    split
    · simp_all
    · simp_all

theorem blockItems_content (n : YamlNode) :
    blockItems (some n.content) = (blockItems (some n)).map contents := by
  simp only [blockItems, tag_content, index_content_iff]
  split
  · split
    all_goals rfl
  · cases n with
    | scalar => rfl
    | mapping => rfl
    | sequence tag items flow start stop =>
        simp only [YamlNode.content, contents_eq_map, List.isEmpty_map]
        split
        · rw [Option.map_some, contents_eq_map]
        · rfl

theorem sequenceItems_content (n : YamlNode) :
    sequenceItems (some n.content) = contents (sequenceItems (some n)) := by
  cases n
  all_goals rfl

/-- Items of a value, as far as the editor looks for them. -/
theorem items_content (o : Option YamlNode) :
    (blockItems (o.map (·.content))).getD (sequenceItems (o.map (·.content))) =
      contents ((blockItems o).getD (sequenceItems o)) := by
  cases o with
  | none => rfl
  | some n =>
      rw [Option.map_some, blockItems_content, sequenceItems_content]
      cases blockItems (some n) with
      | none => rfl
      | some items => rfl

theorem entry_mapping {tag key : String} {entries : List (YamlNode × YamlNode)} {flow : Bool}
    {start stop : Mark} {value : Option YamlNode} :
    entry (some (.mapping tag entries flow start stop)) key = .ok value ↔
      (entries.filter fun e => isKey key e.1).map (·.2) = value.toList := by
  simp only [entry]
  split
  · rename_i hnil
    rw [hnil]
    cases value with
    | none => simp
    | some v => simp
  · rename_i e hone
    rw [hone]
    cases value with
    | none => simp
    | some v => simp
  · rename_i hmany
    rw [hmany]
    cases value with
    | none => simp
    | some v => simp

theorem filter_entryContents (key : String) (entries : List (YamlNode × YamlNode)) :
    ((entryContents entries).filter fun e => isKey key e.1).map (·.2) =
      ((entries.filter fun e => isKey key e.1).map (·.2)).map (·.content) := by
  rw [entryContents_eq_map, List.filter_map]
  simp [Function.comp_def]

theorem exists_toList_of_map {α β : Type} {f : α → β} {xs : List α} {o : Option β}
    (h : xs.map f = o.toList) : ∃ o' : Option α, xs = o'.toList ∧ o'.map f = o := by
  cases o with
  | none =>
      rw [Option.toList_none, List.map_eq_nil_iff] at h
      exact ⟨none, h, rfl⟩
  | some b =>
      rw [Option.toList_some, List.map_eq_singleton_iff] at h
      obtain ⟨a, rfl, rfl⟩ := h
      exact ⟨some a, rfl, rfl⟩

def SameContent (o o' : Option YamlNode) : Prop := o.map (·.content) = o'.map (·.content)

theorem SameContent.of_eq {n n' : YamlNode} (h : n.content = n'.content) :
    SameContent (some n) (some n') :=
  congrArg some h

theorem SameContent.isSome {o o' : Option YamlNode} (h : SameContent o o') :
    o.isSome = o'.isSome := by
  have hsome := congrArg Option.isSome h
  rwa [Option.isSome_map, Option.isSome_map] at hsome

/-- What is found under the key has the same content. -/
def SameEntry (o o' : Option YamlNode) (key : String) : Prop :=
  ∀ value, entry o key = .ok value → ∃ value', entry o' key = .ok value' ∧ SameContent value value'

theorem entry_of_content {o o' : Option YamlNode} (h : SameContent o o') (key : String) :
    SameEntry o o' key := by
  intro value hvalue
  cases o with
  | none =>
      cases o' with
      | none => exact ⟨value, hvalue, rfl⟩
      | some n' => cases h
  | some n =>
      cases o' with
      | none => cases h
      | some n' =>
          have h := Option.some.inj h
          cases n with
          | mapping tag entries flow start stop =>
              cases n' with
              | mapping tag' entries' flow' start' stop' =>
                  have hentries := (YamlNode.mapping.inj h).2.1
                  have hfilter := filter_entryContents key entries'
                  rw [← hentries, filter_entryContents, entry_mapping.mp hvalue] at hfilter
                  obtain ⟨value', hvalue', hsame⟩ := exists_toList_of_map
                    (hfilter.symm.trans Option.toList_map.symm)
                  exact ⟨value', entry_mapping.mpr hvalue', hsame.symm⟩
              | scalar | sequence => cases h
          | scalar =>
              cases n' with
              | scalar => exact ⟨value, hvalue, rfl⟩
              | mapping | sequence => cases h
          | sequence =>
              cases n' with
              | sequence => exact ⟨value, hvalue, rfl⟩
              | scalar | mapping => cases h

theorem text?_of_content {o o' : Option YamlNode} (h : SameContent o o') :
    o.bind (·.text?) = o'.bind (·.text?) := by
  have hbind : ∀ o : Option YamlNode,
      (o.map (·.content)).bind (·.text?) = o.bind (·.text?) := by
    intro o
    cases o with
    | none => rfl
    | some n => exact text?_content n
  rw [← hbind o, ← hbind o', h]

theorem SameEntry.scalarText {o o' : Option YamlNode} {key : String} (h : SameEntry o o' key)
    {s : Option String} (hs : HexRift.scalarText o key = .ok s) :
    HexRift.scalarText o' key = .ok s := by
  simp only [HexRift.scalarText, bind_eq_ok, pure_eq_ok] at hs ⊢
  obtain ⟨value, hvalue, rfl⟩ := hs
  obtain ⟨value', hvalue', hsame⟩ := h value hvalue
  exact ⟨value', hvalue', (text?_of_content hsame).symm⟩

theorem scalarText_of_content {o o' : Option YamlNode} (h : SameContent o o') {key : String}
    {s : Option String} (hs : scalarText o key = .ok s) : scalarText o' key = .ok s :=
  (entry_of_content h key).scalarText hs

theorem SameEntry.intScalar {yaml : Yaml} {o o' : Option YamlNode} {key : String}
    (h : SameEntry o o' key) {n : Option ℤ} (hn : HexRift.intScalar yaml o key = .ok n) :
    HexRift.intScalar yaml o' key = .ok n := by
  simp only [HexRift.intScalar, bind_eq_ok] at hn ⊢
  obtain ⟨s, hs, hn⟩ := hn
  exact ⟨s, h.scalarText hs, hn⟩

theorem itemRoutes_of_entry {yaml : Yaml} {n n' : YamlNode}
    (hroute : SameEntry (some n) (some n') "vless_route")
    (hwarp : SameEntry (some n) (some n') "warp") {routes : List ℤ}
    (hroutes : itemRoutes yaml n = .ok routes) : itemRoutes yaml n' = .ok routes := by
  simp only [itemRoutes, bind_eq_ok, pure_eq_ok] at hroutes ⊢
  obtain ⟨holder, hholder, own, hown, warp, hof, rfl⟩ := hroutes
  obtain ⟨holder', hholder', hsame⟩ := hwarp holder hholder
  exact ⟨holder', hholder', own, hroute.intScalar hown, warp,
    (entry_of_content hsame "vless_route").intScalar hof, rfl⟩

theorem nodeItem_of_content {n n' : YamlNode} (h : n.content = n'.content) {s e s' e' : ℕ}
    {x : NodeItem} (hx : nodeItem (n, s, e) = .ok x) :
    nodeItem (n', s', e') = .ok { x with start := s', stop := e' } := by
  simp only [nodeItem, bind_eq_ok, pure_eq_ok] at hx ⊢
  obtain ⟨id, hid, hostname, hhostname, role, hrole, rfl⟩ := hx
  exact ⟨id, scalarText_of_content (.of_eq h) hid, hostname,
    scalarText_of_content (.of_eq h) hhostname, role, scalarText_of_content (.of_eq h) hrole, rfl⟩

/-! ## Spans that are found -/

theorem scanDash_total {lines : List String} {column upper row : ℕ} (h : row < lines.length)
    (count : ℕ) : ∃ start, scanDash lines column upper count row = .ok start := by
  induction count generalizing row with
  | zero => exact ⟨upper, rfl⟩
  | succ count ih =>
      simp only [scanDash, lineAt, List.getElem?_eq_getElem h, bind_eq_ok]
      by_cases hdash : dashAt column lines[row] = true
      · exact ⟨row, lines[row], rfl, by rw [if_pos hdash]; rfl⟩
      · obtain ⟨start, hstart⟩ := ih (show row - 1 < lines.length by omega)
        exact ⟨start, lines[row], rfl, by rw [if_neg hdash]; exact hstart⟩

theorem itemStarts_total {lines : List String} {column : ℕ} {items : List YamlNode}
    (h : ItemsWithin lines.length items) (lower : ℕ) :
    ∃ starts, itemStarts lines column lower items = .ok starts := by
  induction items generalizing lower with
  | nil => exact ⟨[], rfl⟩
  | cons item items ih =>
      obtain ⟨hstart, -, htail⟩ := h
      obtain ⟨start, hscan⟩ : ∃ start, scanDash lines column item.startMark.line
          (item.startMark.line + 1 - min lower item.startMark.line) item.startMark.line =
            .ok start :=
        scanDash_total hstart _
      obtain ⟨rest, hrest⟩ := ih htail (item.startMark.line + 1)
      refine ⟨start :: rest, ?_⟩
      simp only [itemStarts, dashLine, hscan, hrest, bind_eq_ok, pure_eq_ok]
      exact ⟨start, rfl, rest, rfl, rfl⟩

theorem spans_total {lines : List String} {items : List YamlNode}
    (h : ItemsWithin lines.length items) (seq : YamlNode) :
    ∃ out, spans lines seq items = .ok out := by
  obtain ⟨starts, hstarts⟩ : ∃ starts, itemStarts lines seq.startMark.column
      seq.startMark.line items = .ok starts :=
    itemStarts_total h _
  exact ⟨_, by simp only [spans, hstarts, bind_eq_ok, pure_eq_ok]; exact ⟨starts, rfl, rfl⟩⟩

/-! ## Regions -/

def NodeItem.seen (n : NodeItem) : Option String × Option String × Bool :=
  (n.id, n.hostname, n.backup)

theorem mapEach_nodeItem_of_content {out out' : List (YamlNode × ℕ × ℕ)}
    (h : out.map (·.1.content) = out'.map (·.1.content)) {nodes : List NodeItem}
    (hnodes : mapEach out nodeItem = .ok nodes) :
    ∃ nodes', mapEach out' nodeItem = .ok nodes' ∧
      nodes'.map NodeItem.seen = nodes.map NodeItem.seen := by
  induction out generalizing out' nodes with
  | nil =>
      rw [List.map_nil, eq_comm, List.map_eq_nil_iff] at h
      subst h
      exact ⟨nodes, hnodes, rfl⟩
  | cons item out ih =>
      cases out' with
      | nil => cases h
      | cons item' out' =>
          rw [List.map_cons, List.map_cons, List.cons.injEq] at h
          simp only [mapEach, bind_eq_ok, pure_eq_ok] at hnodes ⊢
          obtain ⟨x, hx, xs, hxs, rfl⟩ := hnodes
          obtain ⟨xs', hxs', hseen⟩ := ih h.2 hxs
          refine ⟨_, ⟨_, nodeItem_of_content h.1 hx, xs', hxs', rfl⟩, ?_⟩
          rw [List.map_cons, List.map_cons, hseen]
          rfl

theorem itemsWithin_getD {count : ℕ} {n : YamlNode} (h : n.Within count) :
    ItemsWithin count ((blockItems (some n)).getD (sequenceItems (some n))) := by
  have hnil : ItemsWithin count [] := trivial
  simp only [blockItems]
  cases n with
  | sequence tag items flow start stop =>
      split_ifs
      · exact hnil
      · exact h
      · change ItemsWithin count
          ((if (!flow || items.isEmpty) = true then some items else none).getD items)
        split_ifs
        all_goals exact h
  | scalar =>
      split_ifs
      all_goals exact hnil
  | mapping =>
      split_ifs
      all_goals exact hnil

theorem itemNodes_of_content {lines lines' : List String} {value value' : Option YamlNode}
    (h : SameContent value value') (hwithin : ∀ v ∈ value', v.Within lines'.length)
    {nodes : List NodeItem} (hnodes : itemNodes lines value = .ok nodes) :
    ∃ nodes', itemNodes lines' value' = .ok nodes' ∧
      nodes'.map NodeItem.seen = nodes.map NodeItem.seen := by
  have hitems := items_content value
  rw [h, items_content value', contents_eq_map, contents_eq_map] at hitems
  cases value with
  | none =>
      cases value' with
      | none => exact ⟨nodes, hnodes, rfl⟩
      | some v' => cases h
  | some v =>
      cases value' with
      | none => cases h
      | some v' =>
          rw [itemNodes_some, bind_eq_ok] at hnodes
          obtain ⟨out, hspans, hnodes⟩ := hnodes
          obtain ⟨out', hspans'⟩ := spans_total (itemsWithin_getD (hwithin v' rfl)) v'
          have hsame : out.map (·.1.content) = out'.map (·.1.content) := by
            have hout := congrArg (List.map YamlNode.content) (spans_map_fst hspans)
            have hout' := congrArg (List.map YamlNode.content) (spans_map_fst hspans')
            rw [List.map_map] at hout hout'
            exact hout.trans (hitems.symm.trans hout'.symm)
          obtain ⟨nodes', hnodes', hseen⟩ := mapEach_nodeItem_of_content hsame hnodes
          refine ⟨nodes', ?_, hseen⟩
          rw [itemNodes_some, bind_eq_ok]
          exact ⟨out', hspans', hnodes'⟩

theorem entriesWithin_iff {count : ℕ} {entries : List (YamlNode × YamlNode)} :
    EntriesWithin count entries ↔ ∀ e ∈ entries, e.2.Within count := by
  induction entries with
  | nil => simp [EntriesWithin]
  | cons e entries ih =>
      rw [EntriesWithin, ih, List.forall_mem_cons]

theorem within_of_entry {count : ℕ} {n : YamlNode} (h : n.Within count) {key : String}
    {value : Option YamlNode} (hvalue : entry (some n) key = .ok value) :
    ∀ v ∈ value, v.Within count := by
  intro v hv
  cases n with
  | mapping tag entries flow start stop =>
      have hmem : v ∈ (entries.filter fun e => isKey key e.1).map (·.2) := by
        rw [entry_mapping.mp hvalue]
        exact Option.mem_toList.mpr hv
      obtain ⟨e, he, rfl⟩ := List.mem_map.mp hmem
      exact entriesWithin_iff.mp h e (List.mem_of_mem_filter he)
  | scalar | sequence =>
      cases hvalue
      cases hv

theorem view_nodes_of_seen {nodes nodes' : List NodeItem}
    (h : nodes'.map NodeItem.seen = nodes.map NodeItem.seen) :
    nodes'.map (fun n => (n.id, n.backup)) = nodes.map fun n => (n.id, n.backup) := by
  have hpairs := congrArg (List.map fun s : Option String × Option String × Bool => (s.1, s.2.2)) h
  rw [List.map_map, List.map_map] at hpairs
  exact hpairs

/-- A region that differs in its nodes and its `lb_fallback` is seen with those. -/
theorem RegionSeen.of_entries {yaml : Yaml} {lines lines' : List String} {n n' : YamlNode}
    {r : RegionItem} (hr : RegionSeen yaml lines n r)
    (hentry : ∀ key, key ≠ "nodes" → key ≠ "lb_fallback" → SameEntry (some n) (some n') key)
    {value' : Option YamlNode} (hvalue' : entry (some n') "nodes" = .ok value')
    {nodes' : List NodeItem} (hnodes' : itemNodes lines' value' = .ok nodes')
    {fallback' : Option String} (hfallback' : scalarText (some n') "lb_fallback" = .ok fallback')
    (s e : ℕ) :
    ∃ r', regionItem yaml lines' (n', s, e) = .ok r' ∧
      r'.view = { r.view with
        nodes := nodes'.map fun n => (n.id, n.backup), lbFallback := fallback' } ∧
      r'.vlessRoutes = r.vlessRoutes := by
  obtain ⟨text, strategy, htext, hstrategy, hend⟩ := hr.strategy
  obtain ⟨strategy', hstrategy', hstrategySame⟩ :=
    hentry "lb_strategy" (by decide) (by decide) strategy hstrategy
  obtain ⟨protocol, hprotocol, hflag⟩ := hr.hysteria
  refine ⟨{ id := r.id, type := r.type, vlessRoutes := r.vlessRoutes, nodes := nodes'
            nodesLine := keyLine (some n') "nodes", nodesError := nodesError n' r.id value'
            emptyFlowNodes := emptyFlow value', lbFallback := fallback'
            lbFallbackLine := keyLine (some n') "lb_fallback"
            lbStrategyEnd := (if text.isSome then strategy' else none).map (·.endMark.line)
            hysteria := r.hysteria, start := s, stop := e }, ?_, ?_, rfl⟩
  · rw [regionItem_eq_ok]
    refine ⟨⟨(hentry "id" (by decide) (by decide)).scalarText hr.id,
      (hentry "type" (by decide) (by decide)).scalarText hr.type,
      hfallback', rfl,
      ⟨text, strategy', (hentry "lb_strategy" (by decide) (by decide)).scalarText htext,
        hstrategy', rfl⟩,
      ⟨protocol, (hentry "protocol" (by decide) (by decide)).scalarText hprotocol, ?_⟩,
      itemRoutes_of_entry (hentry "vless_route" (by decide) (by decide))
        (hentry "warp" (by decide) (by decide)) hr.routes,
      ⟨value', hvalue', hnodes', rfl, rfl⟩, rfl⟩, rfl, rfl⟩
    split
    · rename_i hprot
      rwa [if_pos hprot] at hflag
    · rename_i hprot
      rw [if_neg hprot] at hflag
      obtain ⟨hysteria, hhysteria, hflag⟩ := hflag
      obtain ⟨hysteria', hhysteria', hsame⟩ :=
        hentry "hysteria" (by decide) (by decide) hysteria hhysteria
      exact ⟨hysteria', hhysteria', hflag.trans hsame.isSome⟩
  · have hstrategyEnd : ((if text.isSome then strategy' else none).map (·.endMark.line)).isSome =
        r.lbStrategyEnd.isSome := by
      rw [hend, Option.isSome_map, Option.isSome_map]
      split
      · exact hstrategySame.isSome.symm
      · rfl
    simp only [RegionItem.view, hstrategyEnd]

/-- A region of the same content is seen alike, wherever it stands. -/
theorem RegionSeen.of_content {yaml : Yaml} {lines lines' : List String} {n n' : YamlNode}
    {r : RegionItem} (hr : RegionSeen yaml lines n r) (h : n.content = n'.content)
    (hwithin : n'.Within lines'.length) (s e : ℕ) :
    ∃ r', regionItem yaml lines' (n', s, e) = .ok r' ∧ r'.view = r.view ∧
      r'.vlessRoutes = r.vlessRoutes := by
  have hc := SameContent.of_eq h
  obtain ⟨value, hvalue, hnodes, -⟩ := hr.nodes
  obtain ⟨value', hvalue', hsame⟩ := entry_of_content hc "nodes" value hvalue
  obtain ⟨nodes', hnodes', hseen⟩ :=
    itemNodes_of_content hsame (within_of_entry hwithin hvalue') hnodes
  obtain ⟨r', hr', hview, hroutes⟩ := hr.of_entries (fun key _ _ => entry_of_content hc key)
    hvalue' hnodes' (scalarText_of_content hc hr.lbFallback) s e
  refine ⟨r', hr', hview.trans ?_, hroutes⟩
  rw [view_nodes_of_seen hseen]
  rfl

end HexRift
