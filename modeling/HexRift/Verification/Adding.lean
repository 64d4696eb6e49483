import HexRift.Library.Slots
import HexRift.Verification.NaturalKeys
import HexRift.Verification.Rereading

/-! # Adding to a layout

The text `add_node` writes is the layout with one part more, put behind the last node that sorts
before it. -/

namespace HexRift

open Checks

/-! ## The text -/

section Text

variable {L : Layout} {yaml : Yaml} {T : OpenTree} {t : Topology}

theorem Layout.lines_ne_nil (hL : L.WellFormed) : L.lines ≠ [] := by
  intro h
  rw [Layout.lines, List.append_assoc, List.append_eq_nil_iff] at h
  exact hL.top h.1

/-- What the editor reads of a text laid out. -/
theorem Layout.ofText_iff {text : String} (hlines : Python.splitlines (closeText text) = L.lines)
    (heol : eolOf (closeText text) = L.eol)
    (hT : yaml.compose (closeText text) = .ok (some T.root, false)) :
    Topology.ofText yaml text = .ok t ↔ TopologySeen yaml L.lines T.root t ∧ t.eol = L.eol := by
  have hroot : composeRoot yaml (closeText text) = .ok T.root := composeRoot_mapping hT
  rw [ofText_eq_ok_iff, hlines, heol]
  constructor
  · rintro ⟨root, hroot', hseen, heol⟩
    rw [hroot] at hroot'
    cases hroot'
    exact ⟨hseen, heol⟩
  · rintro ⟨hseen, heol⟩
    exact ⟨T.root, hroot, hseen, heol⟩

theorem Layout.closeText_text (hL : L.WellFormed) : closeText L.text = L.text :=
  closeText_joined hL.eol

theorem Layout.splitlines_text (hL : L.WellFormed) :
    Python.splitlines (closeText L.text) = L.lines := by
  rw [L.closeText_text hL]
  exact splitlines_joined hL.eol (L.lines_ne_nil hL) hL.plain

theorem Layout.eolOf_text (hL : L.WellFormed) : eolOf (closeText L.text) = L.eol := by
  rw [L.closeText_text hL]
  exact eolOf_joined hL.eol (L.lines_ne_nil hL) hL.plain

end Text

/-! ## Rows -/

section Rows

variable (L : Layout)

theorem Layout.insertNode_lines (i : ℕ) (p : NodePart) :
    (L.insertNode i p).lines = L.lines.take (L.top.length + partRows L.parts i) ++ p.lines ++
      L.lines.drop (L.top.length + partRows L.parts i) := by
  have hsplit : L.lines = (L.top ++ (L.parts.take i).flatMap NodePart.lines) ++
      ((L.parts.drop i).flatMap NodePart.lines ++ L.rest) := by
    rw [Layout.lines, Layout.partLines, ← List.take_append_drop i L.parts, List.flatMap_append]
    simp only [List.append_assoc, List.take_append_drop]
  have hlength : (L.top ++ (L.parts.take i).flatMap NodePart.lines).length =
      L.top.length + partRows L.parts i := by
    rw [List.length_append, partRows]
  rw [hsplit, ← hlength, List.take_left, List.drop_left]
  simp only [Layout.lines, Layout.insertNode, Layout.partLines, List.flatMap_append,
    List.flatMap_cons, List.append_assoc]

theorem Layout.bottom_eq : L.bottom = L.top.length + L.partLines.length := List.length_append

theorem Layout.withFallback_lines {row : ℕ} {line : String} {e : YamlNode × YamlNode}
    (h : row < L.top.length ∨ L.bottom ≤ row) :
    (L.withFallback row line e).lines = L.lines.take row ++ line :: L.lines.drop row := by
  rw [Layout.withFallback]
  split
  · rename_i hrow
    have hle := Nat.le_of_lt hrow
    simp only [Layout.lines, Layout.partLines, List.append_assoc]
    rw [List.take_append_of_le_length hle, List.drop_append_of_le_length hle]
    simp
  · rename_i hrow
    have hbottom : L.bottom ≤ row := h.resolve_left hrow
    have hsplit : row = (L.top ++ L.partLines).length + (row - L.bottom) := by
      rw [Layout.bottom] at hbottom ⊢
      omega
    have htake : L.lines.take row = L.top ++ L.partLines ++ L.rest.take (row - L.bottom) := by
      conv_lhs => rw [hsplit]
      rw [Layout.lines, List.take_length_add_append]
    have hdrop : L.lines.drop row = L.rest.drop (row - L.bottom) := by
      conv_lhs => rw [hsplit]
      rw [Layout.lines, List.drop_length_add_append]
    rw [htake, hdrop]
    simp only [Layout.lines, Layout.partLines, List.append_assoc]

end Rows

/-! ## The column of the dashes -/

theorem isDash_nodeIndent {line : String} (h : isDash line nodeIndent = true) :
    ∃ rest, line.toList = nodeIndent.toList ++ '-' :: rest := by
  rw [isDash, Bool.and_eq_true, Python.startswith_iff] at h
  obtain ⟨⟨rest, hrest⟩, -⟩ := h
  refine ⟨rest, ?_⟩
  rw [← hrest, String.toList_append, List.append_assoc]
  rfl

theorem column_eq_of_dashAt {line : String} {column : ℕ} (h : isDash line nodeIndent = true)
    (hat : dashAt column line = true) : column = nodeIndent.length := by
  obtain ⟨rest, hline⟩ := isDash_nodeIndent h
  rw [dashAt, Bool.and_eq_true, decide_eq_true_eq, decide_eq_true_eq, hline] at hat
  obtain ⟨hslice, hblank⟩ := hat
  have hlength : nodeIndent.toList.length = 6 := rfl
  have hindent : nodeIndent.length = 6 := rfl
  rw [hindent]
  rcases Nat.lt_trichotomy column 6 with hlt | heq | hgt
  · have hspace : ∀ c < 6, (nodeIndent.toList.take (c + 1)).drop c = [' '] := by decide
    rw [Python.slice, List.take_append_of_le_length (by omega), hspace column hlt] at hslice
    cases hslice
  · exact heq
  · have hmem : '-' ∈ (nodeIndent.toList ++ '-' :: rest).take column := by
      have hcolumn : column = nodeIndent.toList.length + (column - 6 - 1 + 1) := by omega
      rw [hcolumn, List.take_length_add_append, List.take_succ_cons]
      exact List.mem_append_right _ List.mem_cons_self
    have hdash := Python.isSpace_of_strip_eq_nil hblank '-' hmem
    exact absurd hdash (by decide)

/-! ## Where a node is put -/

/-- Whether an id sorts before the key. -/
def sortsBefore (key : List Chunk) (id : Option String) : Bool :=
  id.any fun s => (naturalKey s).toOption.any (keyLess · key)

/-- The id a part is read with. -/
def NodePart.id? (p : NodePart) : Option String :=
  match scalarText (some p.node) "id" with
  | .ok id => id
  | .error _ => none

theorem NodeSeen.id?_eq {p : NodePart} {n : NodeItem} (h : NodeSeen p.node n) :
    p.id? = n.id := by
  rw [NodePart.id?, h.id]

theorem PartsSeen.ids {parts : List NodePart} {nodes : List NodeItem} (h : PartsSeen parts nodes) :
    parts.map NodePart.id? = nodes.map (·.id) := by
  induction h with
  | nil => rfl
  | cons hp _ ih => rw [List.map_cons, List.map_cons, hp.id?_eq, ih]

theorem earlierNodes_eq_ok {key : List Chunk} {nodes earlier : List NodeItem}
    (h : earlierNodes key nodes = .ok earlier) :
    earlier = nodes.filter (fun n => sortsBefore key n.id) ∧
      ∀ n ∈ nodes, ∀ id ∈ n.id, ∃ k, naturalKey id = .ok k := by
  induction nodes generalizing earlier with
  | nil =>
      cases h
      exact ⟨rfl, fun n hn => absurd hn List.not_mem_nil⟩
  | cons n nodes ih =>
      rw [List.forall_mem_cons]
      cases hid : n.id with
      | none =>
          simp only [earlierNodes, hid] at h
          obtain ⟨rfl, hkeys⟩ := ih h
          rw [List.filter_cons_of_neg (by rw [hid]; exact Bool.false_ne_true)]
          exact ⟨rfl, fun id hmem => absurd hmem (Option.not_mem_none id), hkeys⟩
      | some id =>
          simp only [earlierNodes, hid, bind_eq_ok, pure_eq_ok] at h
          obtain ⟨k, hk, others, hothers, rfl⟩ := h
          obtain ⟨rfl, hkeys⟩ := ih hothers
          have hbefore : sortsBefore key n.id = keyLess k key := by
            rw [sortsBefore, hid, Option.any_some, hk]
            rfl
          rw [List.filter_cons, hbefore]
          exact ⟨rfl, fun id' hmem => ⟨k, Option.some.inj hmem ▸ hk⟩, hkeys⟩

section Slot

variable {L : Layout} {t : Topology} {rs₁ rs₂ : List RegionItem} {r : RegionItem}

/-- Where a node of the key is put among the parts. -/
def Layout.slotOf (L : Layout) (key : List Chunk) : ℕ :=
  Slots.slot (fun p => sortsBefore key p.id?) L.parts

/-- The place a node of the key is put at lies between nodes: the one before it ends there, and
blank lines and comments alone stand above the first. -/
structure Layout.Free (L : Layout) (yaml : Yaml) (key : List Chunk) : Prop where
  first : L.slotOf key = 0 → ∀ q ∈ L.parts.head?, ∀ line ∈ q.above, isFiller line = true
  behind : L.slotOf key ≠ 0 → (L.cut (L.slotOf key)).ReadBy yaml

theorem Layout.Read.slot_eq (hread : L.Read t rs₁ r rs₂) (key : List Chunk) :
    Slots.slot (fun n => sortsBefore key n.id) r.nodes = L.slotOf key := by
  rw [Layout.slotOf, ← Slots.slot_map (fun n : NodeItem => n.id) r.nodes, ← hread.nodes.ids,
    Slots.slot_map]

theorem Layout.Read.column_eq (hread : L.Read t rs₁ r rs₂) (hL : L.WellFormed) {k : ℕ}
    {n : NodeItem} (hn : r.nodes[k]? = some n)
    (hcheck : checkIndent L.lines n.start nodeIndent = .ok ()) : L.column = nodeIndent.length := by
  obtain ⟨p, hp, hstart, -⟩ := hread.located k n hn
  have hwf := hL.parts p (List.mem_of_getElem? hp)
  obtain ⟨line, hline, hat⟩ := hwf.dash
  have hget : L.lines[L.top.length + partRows L.parts k + p.above.length + 0]? = p.body[0]? :=
    getElem?_body hp (Nat.lt_of_le_of_lt (Nat.zero_le _) hwf.key)
  rw [Nat.add_zero, ← hstart, hline] at hget
  simp only [checkIndent, bind_eq_ok, ensure_eq_ok, lineAt, hget] at hcheck
  obtain ⟨_, heq, hdash⟩ := hcheck
  cases heq
  exact column_eq_of_dashAt hdash hat

/-- A new node goes behind the last part that sorts before it. -/
theorem Layout.Read.insertAt_eq_ok (hread : L.Read t rs₁ r rs₂) (hL : L.WellFormed)
    (hne : L.parts ≠ []) {id : String} {row : ℕ} (h : insertAt L.lines r id = .ok row) :
    ∃ key, naturalKey id = .ok key ∧ L.column = nodeIndent.length ∧
      row = L.top.length + partRows L.parts (L.slotOf key) ∧
      ∀ p ∈ L.parts, ∀ s ∈ p.id?, ∃ k, naturalKey s = .ok k := by
  obtain ⟨nodesLine, hnodesLine, htop⟩ := hread.nodesLine
  simp only [insertAt, hnodesLine, bind_eq_ok] at h
  obtain ⟨key, hkey, earlier, hearlier, h⟩ := h
  obtain ⟨rfl, hkeys⟩ := earlierNodes_eq_ok hearlier
  have hids : ∀ p ∈ L.parts, ∀ s ∈ p.id?, ∃ k, naturalKey s = .ok k := by
    intro p hp s hs
    have hmem : some s ∈ r.nodes.map (·.id) := by
      rw [← hread.nodes.ids, ← hs]
      exact List.mem_map_of_mem hp
    obtain ⟨n, hn, hid⟩ := List.mem_map.mp hmem
    exact hkeys n hn s hid
  refine ⟨key, hkey, ?_⟩
  split at h
  · rename_i n hlast
    obtain ⟨k, hk, hslot⟩ := Slots.slot_of_getLast?_some hlast
    simp only [appendAt, bind_eq_ok] at h
    obtain ⟨_, hcheck, hend⟩ := h
    obtain ⟨p, hp, -, hlocated⟩ := hread.located k n hk
    rw [hlocated] at hend
    refine ⟨hread.column_eq hL hk hcheck, ?_, hids⟩
    rw [← hread.slot_eq, hslot]
    exact (Except.ok.inj hend).symm
  · rename_i n nodes hnone hnodes
    simp only [bind_eq_ok, pure_eq_ok] at h
    obtain ⟨_, hcheck, rfl⟩ := h
    have hfirst : r.nodes[0]? = some n := by rw [hnodes]; rfl
    refine ⟨hread.column_eq hL hfirst hcheck, ?_, hids⟩
    rw [← hread.slot_eq, Slots.slot_of_getLast?_none hnone, partRows_zero, htop]
    rfl
  · rename_i _ hnodes
    have hparts := hread.nodes.length_eq
    rw [hnodes, List.length_nil, List.length_eq_zero_iff] at hparts
    exact absurd hparts hne

end Slot

/-! ## The layout with a node more -/

section Added

variable {L : Layout} {yaml : Yaml} {p : NodePart} {node : NodeModel}

/-- The lines written for a node start with its dash. -/
theorem NodePart.Writes.body_start (h : p.Writes yaml L.eol node) :
    ∃ text rest, p.body = (nodeIndent ++ "- " ++ text) :: rest := by
  have hbody := h.body
  rw [nodeLines, itemLines, bind_eq_ok] at hbody
  obtain ⟨lines, -, hlines⟩ := hbody
  cases lines with
  | nil => cases hlines
  | cons first rest => exact ⟨_, rest, (Except.ok.inj hlines).symm⟩

theorem NodePart.Writes.wellFormed (h : p.Writes yaml L.eol node) :
    p.WellFormed nodeIndent.length := by
  obtain ⟨text, rest, hbody⟩ := h.body_start
  refine ⟨⟨nodeIndent ++ "- " ++ text, ?_, ?_⟩, ?_, ?_, h.last⟩
  · rw [hbody]
    rfl
  · have htext : (nodeIndent ++ "- " ++ text).toList =
        nodeIndent.toList ++ '-' :: (' ' :: text.toList) := by
      rw [String.toList_append, String.toList_append, List.append_assoc]
      rfl
    rw [dashAt, htext, Bool.and_eq_true, decide_eq_true_eq, decide_eq_true_eq]
    exact ⟨rfl, rfl⟩
  · rw [h.first, hbody]
    exact Nat.succ_pos rest.length
  · intro row hpos hle
    rw [h.first] at hle
    omega

theorem mem_tail_insert {α : Type} {xs : List α} {x y : α} {i : ℕ}
    (h : y ∈ (xs.take i ++ x :: xs.drop i).tail) :
    y = x ∨ y ∈ xs.tail ∨ i = 0 ∧ y ∈ xs.head? := by
  cases i with
  | zero =>
      cases xs with
      | nil => cases h
      | cons z xs =>
          rcases List.mem_cons.mp h with rfl | hmem
          · exact .inr (.inr ⟨rfl, rfl⟩)
          · exact .inr (.inl hmem)
  | succ i =>
      cases xs with
      | nil => cases h
      | cons z xs =>
          rcases List.mem_append.mp h with hmem | hmem
          · exact .inr (.inl (List.mem_of_mem_take hmem))
          · rcases List.mem_cons.mp hmem with rfl | hmem
            · exact .inl rfl
            · exact .inr (.inl (List.mem_of_mem_drop hmem))

theorem Layout.insertNode_wellFormed (hL : L.WellFormed) (hcolumn : L.column = nodeIndent.length)
    (hp : p.Writes yaml L.eol node) {i : ℕ}
    (hfirst : i = 0 → ∀ q ∈ L.parts.head?, ∀ line ∈ q.above, isFiller line = true) :
    (L.insertNode i p).WellFormed := by
  refine ⟨hL.eol, ?_, hL.top, ?_, ?_⟩
  · intro line hline
    rw [L.insertNode_lines i p, List.mem_append, List.mem_append, NodePart.lines, hp.above,
      List.nil_append] at hline
    rcases hline with (hline | hline) | hline
    · exact hL.plain line (List.mem_of_mem_take hline)
    · exact hp.plain line hline
    · exact hL.plain line (List.mem_of_mem_drop hline)
  · intro q hq
    rcases List.mem_append.mp hq with hq | hq
    · exact hL.parts q (List.mem_of_mem_take hq)
    · rcases List.mem_cons.mp hq with rfl | hq
      · exact hcolumn ▸ hp.wellFormed
      · exact hL.parts q (List.mem_of_mem_drop hq)
  · intro q hq
    rcases mem_tail_insert hq with rfl | hq | ⟨hi, hq⟩
    · rw [hp.above]
      exact fun line hline => absurd hline List.not_mem_nil
    · exact hL.above q hq
    · exact hfirst hi q hq

/-- The line stands outside the nodes. -/
structure Layout.Pin.Fits (L : Layout) (pin : Layout.Pin) : Prop where
  outside : pin.row < L.top.length ∨ L.bottom < pin.row
  plain : ∀ c ∈ pin.line.toList, Python.isLineBreak c = false
  key : isKey "lb_fallback" pin.entry.1 = true
  strategy : ∃ e ∈ if pin.row < L.top.length then L.fields₁ else L.fields₂,
    isKey "lb_strategy" e.1 = true

section Pinned

variable {pin : Option Layout.Pin}

@[simp] theorem Layout.pinned_parts : (L.pinned pin).parts = L.parts := by
  cases pin with
  | none => rfl
  | some pin =>
      rw [Layout.pinned, Layout.withFallback]
      split
      all_goals rfl

@[simp] theorem Layout.pinned_eol : (L.pinned pin).eol = L.eol := by
  cases pin with
  | none => rfl
  | some pin =>
      rw [Layout.pinned, Layout.withFallback]
      split
      all_goals rfl

@[simp] theorem Layout.pinned_column : (L.pinned pin).column = L.column := by
  cases pin with
  | none => rfl
  | some pin =>
      rw [Layout.pinned, Layout.withFallback]
      split
      all_goals rfl

theorem Layout.pinned_wellFormed (hL : L.WellFormed) (hpin : ∀ x ∈ pin, x.Fits L) :
    (L.pinned pin).WellFormed := by
  cases pin with
  | none => exact hL
  | some pin =>
      have hfits := hpin pin rfl
      refine ⟨by rw [Layout.pinned_eol]; exact hL.eol, ?_, ?_, ?_, ?_⟩
      · intro line hline
        rw [Layout.pinned, L.withFallback_lines (hfits.outside.imp id Nat.le_of_lt),
          List.mem_append, List.mem_cons] at hline
        rcases hline with hline | rfl | hline
        · exact hL.plain line (List.mem_of_mem_take hline)
        · exact hfits.plain
        · exact hL.plain line (List.mem_of_mem_drop hline)
      · rw [Layout.pinned, Layout.withFallback]
        split
        · exact List.append_ne_nil_of_right_ne_nil _ (List.cons_ne_nil _ _)
        · exact hL.top
      · rw [Layout.pinned_parts, Layout.pinned_column]
        exact hL.parts
      · rw [Layout.pinned_parts]
        exact hL.above

theorem filter_entryAfter {key other : String} {e : YamlNode × YamlNode}
    (h : isKey key e.1 = false) (xs : List (YamlNode × YamlNode)) :
    ((entryAfter other e xs).filter fun x => isKey key x.1) = xs.filter fun x => isKey key x.1 := by
  induction xs with
  | nil => rfl
  | cons x xs ih =>
      rw [entryAfter]
      split
      · rw [List.filter_cons, List.filter_cons, List.filter_cons, h]
        rfl
      · rw [List.filter_cons, List.filter_cons, ih]

theorem fieldsAt_eq (key : String) : L.fieldsAt key =
    (((L.fields₁ ++ L.fields₂).filter fun e => isKey key e.1).map (·.2)).map (·.content) := by
  rw [Layout.fieldsAt, filter_entryContents]

theorem Layout.extends_pinned (hpin : ∀ x ∈ pin, x.Fits L) : L.Extends (L.pinned pin) := by
  cases pin with
  | none => exact ⟨rfl, rfl, rfl, rfl, fun _ _ => rfl⟩
  | some pin =>
      have hkey : ∀ key, key ≠ "lb_fallback" → isKey key pin.entry.1 = false :=
        fun key hne => isKey_of_ne (hpin pin rfl).key hne
      rw [Layout.pinned, Layout.withFallback]
      split
      · refine ⟨rfl, rfl, rfl, rfl, fun key hne => ?_⟩
        rw [fieldsAt_eq, fieldsAt_eq, List.filter_append, List.filter_append,
          filter_entryAfter (hkey key hne)]
      · refine ⟨rfl, rfl, rfl, rfl, fun key hne => ?_⟩
        rw [fieldsAt_eq, fieldsAt_eq, List.filter_append, List.filter_append,
          filter_entryAfter (hkey key hne)]

/-- The layout with the node in its place, and the fallback named. -/
def Layout.added (L : Layout) (pin : Option Layout.Pin) (key : List Chunk) (p : NodePart) :
    Layout :=
  (L.pinned pin).insertNode (L.slotOf key) p

theorem Layout.added_parts (key : List Chunk) :
    (L.added pin key p).parts = Slots.insert (fun q => sortsBefore key q.id?) p L.parts := by
  rw [Layout.added, Layout.insertNode, Layout.pinned_parts]
  rfl

theorem Layout.extends_added (hpin : ∀ x ∈ pin, x.Fits L) (key : List Chunk) :
    L.Extends (L.added pin key p) := by
  obtain ⟨h₁, h₂, h₃, h₄, hfields⟩ := Layout.extends_pinned hpin
  exact ⟨h₁, h₂, h₃, h₄, hfields⟩

theorem Layout.added_wellFormed (hL : L.WellFormed) (hpin : ∀ x ∈ pin, x.Fits L)
    (hcolumn : L.column = nodeIndent.length) (hp : p.Writes yaml L.eol node) {key : List Chunk}
    (hfree : L.Free yaml key) : (L.added pin key p).WellFormed := by
  have hp' : p.Writes yaml (L.pinned pin).eol node := by
    rw [Layout.pinned_eol]
    exact hp
  exact Layout.insertNode_wellFormed (Layout.pinned_wellFormed hL hpin)
    (Layout.pinned_column.trans hcolumn) hp' fun hslot => by
      rw [Layout.pinned_parts]
      exact hfree.first hslot

/-- The line is the one written for the fallback of the region. -/
structure Layout.Pin.Names (yaml : Yaml) (r : RegionItem) (pin : Layout.Pin) : Prop where
  line : ∃ name, fallbackToSet r = some (name, pin.row) ∧
    pin.line = regionIndent ++ "  lb_fallback: " ++ quotedText yaml name

/-- What is written about the fallback, if anything. -/
structure Layout.PinOf (L : Layout) (yaml : Yaml) (r : RegionItem) (pin : Option Layout.Pin) :
    Prop where
  fits : ∀ x ∈ pin, x.Fits L
  names : ∀ x ∈ pin, x.Names yaml r
  none : pin = none → fallbackToSet r = none

theorem runAll_insert (row : ℕ) (block : List String) (ops : List LineOp) (lines : List String) :
    LineOp.runAll (.insert row block :: ops) lines =
      LineOp.runAll ops (lines.take row ++ block ++ lines.drop row) := by
  simp [LineOp.runAll, LineOp.actAll, LineOp.act]

@[simp] theorem runAll_nil (lines : List String) : LineOp.runAll [] lines = lines := rfl

theorem partRows_le (ps : List NodePart) (k : ℕ) :
    partRows ps k ≤ (ps.flatMap NodePart.lines).length := by
  have hsplit : ps.flatMap NodePart.lines =
      (ps.take k).flatMap NodePart.lines ++ (ps.drop k).flatMap NodePart.lines := by
    rw [← List.flatMap_append, List.take_append_drop]
  rw [hsplit, List.length_append, partRows]
  exact Nat.le_add_right _ _

/-- Of two insertions the later one may come first. -/
theorem insert_insert {α : Type} {xs body : List α} {line : α} {first row : ℕ}
    (hle : first ≤ row) (hrow : row ≤ xs.length) :
    (xs.take row ++ body ++ xs.drop row).take first ++ [line] ++
        (xs.take row ++ body ++ xs.drop row).drop first =
      (xs.take first ++ line :: xs.drop first).take (row + 1) ++ body ++
        (xs.take first ++ line :: xs.drop first).drop (row + 1) := by
  obtain ⟨a, ys, rfl, rfl⟩ : ∃ a ys, xs = a ++ ys ∧ a.length = first :=
    ⟨xs.take first, xs.drop first, (List.take_append_drop first xs).symm,
      List.length_take_of_le (Nat.le_trans hle hrow)⟩
  obtain ⟨b, c, rfl, rfl⟩ : ∃ b c, ys = b ++ c ∧ a.length + b.length = row := by
    refine ⟨ys.take (row - a.length), ys.drop (row - a.length),
      (List.take_append_drop _ ys).symm, ?_⟩
    rw [List.length_append] at hrow
    rw [List.length_take_of_le (by omega)]
    omega
  have hsucc : a.length + b.length + 1 = a.length + (b.length + 1) := Nat.add_assoc _ _ 1
  rw [List.take_length_add_append, List.drop_length_add_append, List.take_left, List.drop_left,
    hsucc, List.take_left, List.drop_left, List.take_length_add_append,
    List.drop_length_add_append, List.take_succ_cons, List.drop_succ_cons, List.take_left,
    List.drop_left]
  simp only [List.append_assoc, List.take_left, List.drop_left]
  simp

/-- `add_node` writes the layout with the node in its place. -/
theorem Layout.Read.addNode_eq_ok {t : Topology} {rs₁ rs₂ : List RegionItem} {r : RegionItem}
    (hread : L.Read t rs₁ r rs₂) (hL : L.WellFormed) (hne : L.parts ≠ []) (heol : t.eol = L.eol)
    {region : RegionModel} (hregion : t.region region.id = some r) {edit : AddEdit}
    (hadd : t.addNode yaml region node = .ok edit) (hp : p.Writes yaml L.eol node)
    (hpin : L.PinOf yaml r pin) :
    ∃ key, naturalKey node.id = .ok key ∧ L.column = nodeIndent.length ∧
      edit.text = (L.added pin key p).text ∧ t.hasNode node.id = false ∧
      edit.setLbFallback = (fallbackToSet r).map (·.1) ∧
      ∀ q ∈ L.parts, ∀ s ∈ q.id?, ∃ k, naturalKey s = .ok k := by
  simp only [Topology.addNode, bind_eq_ok, ensure_eq_ok] at hadd
  obtain ⟨-, hfresh, existing, hexisting, hadd⟩ := hadd
  simp only [Topology.checkAdd, hregion, bind_eq_ok, pure_eq_ok] at hexisting
  obtain ⟨-, -, -, -, rfl⟩ := hexisting
  simp only [bind_eq_ok, pure_eq_ok] at hadd
  obtain ⟨ops, hops, rfl⟩ := hadd
  simp only [Topology.insertOps, hread.emptyFlow, stripFlow, bind_eq_ok, hread.lines] at hops
  obtain ⟨_, hnil, row, hrow, block, hblock, hops⟩ := hops
  cases hnil
  rw [runAll_nil] at hrow
  obtain ⟨key, hkey, hcolumn, rfl, hids⟩ := hread.insertAt_eq_ok hL hne hrow
  rw [hp.body] at hblock
  cases hblock
  refine ⟨key, hkey, hcolumn, ?_, hfresh, rfl, hids⟩
  have hlines : p.lines = p.body := by rw [NodePart.lines, hp.above, List.nil_append]
  have hbottom : L.top.length + partRows L.parts (L.slotOf key) ≤ L.bottom := by
    rw [L.bottom_eq]
    exact Nat.add_le_add_left (partRows_le L.parts _) _
  have hlength : L.bottom ≤ L.lines.length := by
    have hsplit : L.lines = (L.top ++ L.partLines) ++ L.rest := rfl
    rw [hsplit, List.length_append, Layout.bottom]
    exact Nat.le_add_right _ _
  have hrun : LineOp.runAll ops L.lines = (L.added pin key p).lines := by
    rw [Layout.added, Layout.insertNode_lines, Layout.pinned_parts, hlines]
    cases pin with
    | none =>
        rw [hpin.none rfl] at hops
        cases hops
        rw [List.nil_append, runAll_insert, runAll_nil]
        rfl
    | some pin =>
        have hfits := hpin.fits pin rfl
        obtain ⟨name, hname, hline⟩ := (hpin.names pin rfl).line
        rw [hname] at hops
        simp only [← hline] at hops
        cases hops
        rw [Layout.pinned, L.withFallback_lines (hfits.outside.imp id Nat.le_of_lt),
          List.nil_append]
        rcases hfits.outside with hrow' | hrow'
        · have htop : (L.withFallback pin.row pin.line pin.entry).top.length =
              L.top.length + 1 := by
            rw [Layout.withFallback, if_pos hrow', List.length_append, List.length_cons,
              List.length_take_of_le (Nat.le_of_lt hrow'), List.length_drop]
            omega
          rw [if_neg (by omega), runAll_insert, runAll_insert, runAll_nil, htop,
            insert_insert (by omega) (by omega), Nat.add_right_comm]
        · have htop : (L.withFallback pin.row pin.line pin.entry).top.length = L.top.length := by
            rw [L.bottom_eq] at hrow'
            rw [Layout.withFallback, if_neg (by omega)]
          rw [if_pos (by omega), runAll_insert, runAll_insert, runAll_nil, htop]
          simp only [List.append_assoc, List.singleton_append]
  rw [Topology.render, heol, hread.lines, hrun, Layout.text, Layout.added]
  rw [show ((L.pinned pin).insertNode (L.slotOf key) p).eol = L.eol from Layout.pinned_eol]

end Pinned

end Added

end HexRift
