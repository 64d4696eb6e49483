import HexRift.Verification.Contents
import HexRift.Verification.Frame

/-! # Where the parts of a layout stand

The editor finds the lines of a node from marks and dashes. On a text laid out in block lines it
finds the lines the node was laid out on. -/

namespace HexRift

open Checks

/-! ## The text -/

section Text

variable {eol : String} {lines : List String}

theorem splitlines_joined (heol : eol = "\n" ∨ eol = "\r\n") (hne : lines ≠ [])
    (hplain : ∀ line ∈ lines, ∀ c ∈ line.toList, Python.isLineBreak c = false) :
    Python.splitlines (eol.intercalate lines ++ eol) = lines := by
  have hplain' : ∀ l ∈ lines.map String.toList, ∀ c ∈ l, Python.isLineBreak c = false := by
    simpa using hplain
  have hchars : (eol.intercalate lines ++ eol).toList =
      (lines.map String.toList).flatMap fun l => l ++ eol.toList := by
    rw [intercalate_append hne, List.flatMap_map]
  have hsplit : Lines.split Python.isLineBreak (eol.intercalate lines ++ eol).toList =
      (lines.map String.toList).map fun l => ⟨l, eol.toList⟩ := by
    rw [hchars]
    rcases heol with rfl | rfl
    · exact Lines.split_flatMap Python.isLineBreak (by decide) (by decide) hplain'
    · exact Lines.split_flatMap_return Python.isLineBreak (by decide) hplain'
  rw [Python.splitlines, hsplit, List.map_map, List.map_map]
  simp [Function.comp_def]

theorem closeText_joined (heol : eol = "\n" ∨ eol = "\r\n") :
    closeText (eol.intercalate lines ++ eol) = eol.intercalate lines ++ eol := by
  have hends : Python.endswith (eol.intercalate lines ++ eol) "\n" = true := by
    rw [Python.endswith, String.toList_append, List.isSuffixOf_iff_suffix]
    have heol : "\n".toList <:+ eol.toList := by
      rcases heol with rfl | rfl
      · exact List.suffix_rfl
      · exact List.suffix_cons '\r' ['\n']
    exact heol.trans (List.suffix_append _ _)
  rw [closeText, if_pos hends]

theorem containsCrlf_of_mem {cs ds : List Char} :
    Python.containsCrlf (cs ++ '\r' :: '\n' :: ds) = true := by
  induction cs with
  | nil => rfl
  | cons c cs ih =>
      rw [List.cons_append, Python.containsCrlf.eq_def]
      split
      · rfl
      · rename_i heq
        cases heq
        exact ih
      · rename_i heq
        cases heq

theorem containsCrlf_of_not_mem {cs : List Char} (h : '\r' ∉ cs) :
    Python.containsCrlf cs = false := by
  induction cs with
  | nil => rfl
  | cons c cs ih =>
      rw [Python.containsCrlf.eq_def]
      split
      · rename_i heq
        cases heq
        exact absurd List.mem_cons_self h
      · rename_i heq
        cases heq
        exact ih fun hmem => h (List.mem_cons_of_mem c hmem)
      · rfl

theorem eolOf_joined (heol : eol = "\n" ∨ eol = "\r\n") (hne : lines ≠ [])
    (hplain : ∀ line ∈ lines, ∀ c ∈ line.toList, Python.isLineBreak c = false) :
    eolOf (eol.intercalate lines ++ eol) = eol := by
  have hchars : (eol.intercalate lines ++ eol).toList =
      lines.flatMap fun l => l.toList ++ eol.toList := intercalate_append hne
  rcases heol with rfl | rfl
  · have hreturn : '\r' ∉ ("\n".intercalate lines ++ "\n").toList := by
      rw [hchars]
      intro hmem
      obtain ⟨line, hline, hmem⟩ := List.mem_flatMap.mp hmem
      rcases List.mem_append.mp hmem with hmem | hmem
      · exact absurd (hplain line hline _ hmem) (by decide)
      · exact absurd hmem (by decide)
    rw [eolOf, if_neg (by rw [containsCrlf_of_not_mem hreturn]; exact Bool.false_ne_true)]
  · have hcrlf : Python.containsCrlf ("\r\n".intercalate lines ++ "\r\n").toList = true := by
      rw [String.toList_append]
      exact containsCrlf_of_mem
    rw [eolOf, if_pos hcrlf]

end Text

/-! ## Lines of an item -/

theorem scanDash_eq_ok {lines : List String} {column upper row dash count : ℕ} {line : String}
    (hdash : lines[dash]? = some line) (hat : dashAt column line = true)
    (hbelow : ∀ k, dash < k → k ≤ row → ∃ line, lines[k]? = some line ∧
      dashAt column line = false)
    (hrow : dash ≤ row) (hcount : row < dash + count) :
    scanDash lines column upper count row = .ok dash := by
  induction count generalizing row with
  | zero => omega
  | succ count ih =>
      by_cases heq : row = dash
      · subst heq
        simp only [scanDash, lineAt, hdash, bind_eq_ok]
        exact ⟨line, rfl, by rw [if_pos hat]; rfl⟩
      · obtain ⟨other, hother, hno⟩ := hbelow row (by omega) (Nat.le_refl row)
        have hrest : scanDash lines column upper count (row - 1) = .ok dash := by
          apply ih
          · exact fun k hk hle => hbelow k hk (by omega)
          · omega
          · omega
        simp only [scanDash, lineAt, hother, bind_eq_ok]
        exact ⟨other, rfl, by rw [hno]; exact hrest⟩

/-- The end of an item lies before the blank lines and comments. -/
theorem contentEnd_eq_ok {lines : List String} {start mid stop : ℕ} {line : String}
    (hstart : start ≤ mid) (hmid : mid < stop) (hline : lines[mid]? = some line)
    (hlast : isFiller line = false)
    (hfiller : ∀ k, mid < k → k < stop → ∃ line, lines[k]? = some line ∧ isFiller line = true) :
    contentEnd lines start stop = .ok (mid + 1) := by
  induction stop with
  | zero => omega
  | succ stop ih =>
      simp only [contentEnd]
      rw [if_pos (by omega)]
      by_cases heq : stop = mid
      · subst heq
        simp only [lineAt, hline, bind_eq_ok]
        exact ⟨line, rfl, by rw [hlast]; rfl⟩
      · obtain ⟨other, hother, hyes⟩ := hfiller stop (by omega) (Nat.lt_succ_self stop)
        have hrest := ih (by omega) fun k hk hlt => hfiller k hk (by omega)
        simp only [lineAt, hother, bind_eq_ok]
        exact ⟨other, rfl, by rw [if_pos hyes]; exact hrest⟩

/-! ## Lines of the parts -/

theorem NodePart.lines_length (p : NodePart) :
    p.lines.length = p.above.length + p.body.length := by
  rw [NodePart.lines, List.length_append]

/-- Lines of the first parts. -/
def partRows (ps : List NodePart) (k : ℕ) : ℕ := ((ps.take k).flatMap NodePart.lines).length

@[simp] theorem partRows_zero (ps : List NodePart) : partRows ps 0 = 0 := rfl

theorem partRows_cons (p : NodePart) (ps : List NodePart) (k : ℕ) :
    partRows (p :: ps) (k + 1) = p.lines.length + partRows ps k := by
  rw [partRows, List.take_succ_cons, List.flatMap_cons, List.length_append]
  rfl

theorem partRows_succ {ps : List NodePart} {k : ℕ} {p : NodePart} (h : ps[k]? = some p) :
    partRows ps (k + 1) = partRows ps k + p.lines.length := by
  induction ps generalizing k with
  | nil => cases h
  | cons q ps ih =>
      cases k with
      | zero =>
          cases h
          rw [partRows_cons, partRows_zero, partRows_zero, Nat.add_comm]
      | succ k => rw [partRows_cons, partRows_cons, ih h, Nat.add_assoc]

theorem partRows_all (ps : List NodePart) :
    partRows ps ps.length = (ps.flatMap NodePart.lines).length := by
  rw [partRows, List.take_length]

/-- A line of a part in the text. -/
theorem getElem?_parts {pre post : List String} {ps : List NodePart} {k row : ℕ} {p : NodePart}
    (h : ps[k]? = some p) (hrow : row < p.lines.length) :
    (pre ++ ps.flatMap NodePart.lines ++ post)[pre.length + partRows ps k + row]? =
      p.lines[row]? := by
  induction ps generalizing k pre with
  | nil => cases h
  | cons q ps ih =>
      cases k with
      | zero =>
          cases h
          rw [partRows_zero, Nat.add_zero, List.append_assoc, List.flatMap_cons,
            List.append_assoc, List.getElem?_append_right (by omega), Nat.add_sub_cancel_left,
            List.getElem?_append_left hrow]
      | succ k =>
          have htail : (pre ++ q.lines ++ ps.flatMap NodePart.lines ++ post)[
              (pre ++ q.lines).length + partRows ps k + row]? = p.lines[row]? := ih h
          rw [List.length_append] at htail
          rw [partRows_cons, List.flatMap_cons, ← List.append_assoc pre, ← htail]
          congr 1
          omega

theorem getElem?_body {pre post : List String} {ps : List NodePart} {k row : ℕ} {p : NodePart}
    (h : ps[k]? = some p) (hrow : row < p.body.length) :
    (pre ++ ps.flatMap NodePart.lines ++ post)[pre.length + partRows ps k + p.above.length + row]? =
      p.body[row]? := by
  have hlines : (pre ++ ps.flatMap NodePart.lines ++ post)[
      pre.length + partRows ps k + (p.above.length + row)]? = p.lines[p.above.length + row]? :=
    getElem?_parts h (by rw [p.lines_length]; omega)
  rw [Nat.add_assoc _ p.above.length, hlines, NodePart.lines,
    List.getElem?_append_right (by omega), Nat.add_sub_cancel_left]

/-! ## Spans of the nodes -/

/-- First lines of the items. -/
def dashRows (line : ℕ) : List NodePart → List ℕ
  | [] => []
  | p :: ps => (line + p.above.length) :: dashRows (line + p.lines.length) ps

theorem dashRows_getElem? {ps : List NodePart} {line k : ℕ} :
    (dashRows line ps)[k]? = ps[k]?.map fun p => line + partRows ps k + p.above.length := by
  induction ps generalizing line k with
  | nil => rfl
  | cons q ps ih =>
      cases k with
      | zero => rfl
      | succ k =>
          rw [dashRows, List.getElem?_cons_succ, ih, List.getElem?_cons_succ, partRows_cons]
          congr 1
          funext p
          omega

theorem NodesPlaced.length_eq {line : ℕ} {ps : List NodePart} {ns : List YamlNode}
    (h : NodesPlaced line ps ns) : ns.length = ps.length := by
  induction h with
  | nil => rfl
  | cons content start tail ih => rw [List.length_cons, List.length_cons, ih]

theorem NodesPlaced.contents_eq {line : ℕ} {ps : List NodePart} {ns : List YamlNode}
    (h : NodesPlaced line ps ns) :
    ns.map YamlNode.content = ps.map fun p => p.node.content := by
  induction h with
  | nil => rfl
  | cons content start tail ih => rw [List.map_cons, List.map_cons, ih, content]

/-- Scanning up from the first key of a part ends at its dash. -/
theorem dashLine_eq_ok {pre post : List String} {p : NodePart} {ps : List NodePart}
    {column lower : ℕ} (hp : p.WellFormed column) (hlower : lower ≤ pre.length + p.above.length) :
    dashLine (pre ++ (p :: ps).flatMap NodePart.lines ++ post) column
      (min lower (pre.length + p.above.length + p.node.startMark.line))
      (pre.length + p.above.length + p.node.startMark.line) =
      .ok (pre.length + p.above.length) := by
  obtain ⟨line, hline, hat⟩ := hp.dash
  have hkey := hp.key
  have hrow : ∀ row < p.body.length,
      (pre ++ (p :: ps).flatMap NodePart.lines ++ post)[pre.length + p.above.length + row]? =
        p.body[row]? :=
    fun row hrow => getElem?_body (k := 0) rfl hrow
  have hfirst : (pre ++ (p :: ps).flatMap NodePart.lines ++ post)[pre.length + p.above.length]? =
      some line :=
    (hrow 0 (by omega)).trans hline
  apply scanDash_eq_ok hfirst hat
  · intro k hk hle
    have hlt : k - (pre.length + p.above.length) < p.body.length := by omega
    have hget := hrow (k - (pre.length + p.above.length)) hlt
    rw [Nat.add_sub_of_le (by omega), List.getElem?_eq_getElem hlt] at hget
    exact ⟨_, hget, hp.below _ (by omega) (by omega) _ (List.getElem?_eq_getElem hlt)⟩
  · omega
  · omega

theorem itemStarts_eq_ok {pre post : List String} {ps : List NodePart} {ns : List YamlNode}
    {column lower : ℕ} (hplaced : NodesPlaced pre.length ps ns)
    (hparts : ∀ p ∈ ps, p.WellFormed column)
    (hlower : ∀ p ∈ ps.head?, lower ≤ pre.length + p.above.length) :
    itemStarts (pre ++ ps.flatMap NodePart.lines ++ post) column lower ns =
      .ok (dashRows pre.length ps) := by
  induction ps generalizing pre ns lower with
  | nil =>
      cases hplaced
      rfl
  | cons p ps ih =>
      cases hplaced with
      | cons hcontent hstart htail =>
          rename_i n ns
          have hp := hparts p List.mem_cons_self
          have hkey := hp.key
          have hdash : dashLine (pre ++ (p :: ps).flatMap NodePart.lines ++ post) column
              (min lower (pre.length + p.above.length + p.node.startMark.line))
              (pre.length + p.above.length + p.node.startMark.line) =
                .ok (pre.length + p.above.length) :=
            dashLine_eq_ok hp (hlower p rfl)
          rw [← List.length_append] at htail
          have hrest : itemStarts (pre ++ p.lines ++ ps.flatMap NodePart.lines ++ post) column
              (n.startMark.line + 1) ns = .ok (dashRows (pre ++ p.lines).length ps) := by
            apply ih htail
            · exact fun q hq => hparts q (List.mem_cons_of_mem p hq)
            · intro q _
              rw [hstart, List.length_append, p.lines_length]
              omega
          simp only [itemStarts, bind_eq_ok, pure_eq_ok, dashRows]
          rw [hstart]
          refine ⟨_, hdash, _, ?_, rfl⟩
          rw [← hstart, List.flatMap_cons, ← List.append_assoc pre, hrest, List.length_append]

section Nodes

variable {L : Layout} {nodes : List YamlNode} {start stop : Mark} {tag : String}

theorem Layout.Nodes.spans_eq_ok (h : L.Nodes nodes start stop) (hL : L.WellFormed) :
    spans L.lines (.sequence tag nodes false start stop) nodes =
      .ok (nodes.zip ((dashRows L.top.length L.parts).zip
        ((dashRows L.top.length L.parts).tail ++ [stop.line]))) := by
  have hstarts : itemStarts L.lines start.column start.line nodes =
      .ok (dashRows L.top.length L.parts) := by
    rw [h.column]
    exact itemStarts_eq_ok h.placed hL.parts h.starts
  simp only [spans, YamlNode.startMark, YamlNode.endMark, hstarts, bind_eq_ok, pure_eq_ok]
  exact ⟨_, rfl, rfl⟩

/-- The blank lines and comments after a part end where its span does. -/
theorem Layout.Nodes.rows_after (h : L.Nodes nodes start stop) (hL : L.WellFormed) {k last : ℕ}
    (hk : k < L.parts.length)
    (hlast : ((dashRows L.top.length L.parts).tail ++ [stop.line])[k]? = some last) :
    L.top.length + partRows L.parts (k + 1) ≤ last ∧
      ∀ row, L.top.length + partRows L.parts (k + 1) ≤ row → row < last →
        ∃ line, L.lines[row]? = some line ∧ isFiller line = true := by
  have htail : (dashRows L.top.length L.parts).tail[k]? =
      (dashRows L.top.length L.parts)[k + 1]? := by
    rw [List.getElem?_tail]
  have hcount : (dashRows L.top.length L.parts).length = L.parts.length := by
    generalize L.top.length = line
    generalize L.parts = ps
    induction ps generalizing line with
    | nil => rfl
    | cons p ps ih => rw [dashRows, List.length_cons, List.length_cons, ih]
  by_cases hnext : k + 1 < L.parts.length
  · rw [List.getElem?_append_left (by rw [List.length_tail, hcount]; omega), htail,
      dashRows_getElem?, List.getElem?_eq_getElem hnext, Option.map_some,
      Option.some.injEq] at hlast
    subst hlast
    have hget := List.getElem?_eq_getElem hnext
    refine ⟨by omega, fun row hfrom hto => ?_⟩
    have habove : row - (L.top.length + partRows L.parts (k + 1)) <
        L.parts[k + 1].above.length := by omega
    have hrow : L.lines[L.top.length + partRows L.parts (k + 1) +
        (row - (L.top.length + partRows L.parts (k + 1)))]? =
          L.parts[k + 1].lines[row - (L.top.length + partRows L.parts (k + 1))]? :=
      getElem?_parts hget (by rw [NodePart.lines_length]; omega)
    rw [Nat.add_sub_of_le hfrom, NodePart.lines, List.getElem?_append_left habove,
      List.getElem?_eq_getElem habove] at hrow
    have hmem : L.parts[k + 1] ∈ L.parts.tail := by
      rw [← List.getElem?_tail] at hget
      exact List.mem_of_getElem? hget
    exact ⟨_, hrow, hL.above _ hmem _ (List.getElem_mem habove)⟩
  · have hall : k + 1 = L.parts.length := by omega
    rw [List.getElem?_append_right (by rw [List.length_tail, hcount]; omega),
      List.length_tail, hcount, ← hall, Nat.add_sub_cancel, Nat.sub_self,
      List.getElem?_cons_zero, Option.some.injEq] at hlast
    subst hlast
    have hrows : L.top.length + partRows L.parts (k + 1) = (L.top ++ L.partLines).length := by
      rw [hall, partRows_all, List.length_append, Layout.partLines]
    rw [hrows]
    refine ⟨h.stops, fun row hfrom hto => ?_⟩
    have hlines := h.lines
    have hlength : L.lines.length = (L.top ++ L.partLines).length + L.rest.length := by
      rw [Layout.lines, List.length_append]
    have hlt : row - (L.top ++ L.partLines).length < L.rest.length := by omega
    refine ⟨_, ?_, h.filler L.rest[row - (L.top ++ L.partLines).length] ?_⟩
    · rw [Layout.lines, List.getElem?_append_right hfrom, List.getElem?_eq_getElem hlt]
    · rw [List.mem_take_iff_getElem]
      exact ⟨_, by omega, rfl⟩

theorem blockItems_sequence (htag : tag ≠ nullTag) :
    blockItems (some (.sequence tag nodes false start stop)) = some nodes := by
  rw [blockItems, YamlNode.tag, if_neg htag]
  rfl

/-- The editor finds each node on the lines of its part. -/
theorem Layout.Nodes.located (h : L.Nodes nodes start stop) (hL : L.WellFormed)
    (htag : tag ≠ nullTag) {items : List NodeItem}
    (hitems : itemNodes L.lines (some (.sequence tag nodes false start stop)) = .ok items)
    {k : ℕ} {n : NodeItem} (hn : items[k]? = some n) :
    ∃ p, L.parts[k]? = some p ∧ n.start = L.top.length + partRows L.parts k + p.above.length ∧
      contentEnd L.lines n.start n.stop = .ok (L.top.length + partRows L.parts (k + 1)) := by
  rw [itemNodes_some, blockItems_sequence htag, Option.getD_some, h.spans_eq_ok hL] at hitems
  obtain ⟨⟨node, s, e⟩, hout, hnode⟩ := getElem?_of_mapEach hitems hn
  simp only [nodeItem, bind_eq_ok, pure_eq_ok] at hnode
  obtain ⟨_, -, _, -, _, -, rfl⟩ := hnode
  rw [List.getElem?_zip_eq_some, List.getElem?_zip_eq_some, dashRows_getElem?,
    Option.map_eq_some_iff] at hout
  obtain ⟨-, ⟨p, hp, rfl⟩, hlast⟩ := hout
  have hk : k < L.parts.length := (List.getElem?_eq_some_iff.mp hp).1
  have hwf := hL.parts p (List.mem_of_getElem? hp)
  obtain ⟨line, hline, hend⟩ := hwf.last
  have hne : 0 < p.body.length := Nat.lt_of_le_of_lt (Nat.zero_le _) hwf.key
  have hmid : L.lines[L.top.length + partRows L.parts k + p.above.length +
      (p.body.length - 1)]? = p.body[p.body.length - 1]? :=
    getElem?_body hp (by omega)
  rw [← List.getLast?_eq_getElem?] at hmid
  have hrows := partRows_succ hp
  rw [p.lines_length] at hrows
  have hstop : L.top.length + partRows L.parts (k + 1) ≤ e :=
    (h.rows_after hL hk hlast).1
  have hfiller : ∀ row, L.top.length + partRows L.parts (k + 1) ≤ row → row < e →
      ∃ line, L.lines[row]? = some line ∧ isFiller line = true :=
    (h.rows_after hL hk hlast).2
  have hcut : contentEnd L.lines (L.top.length + partRows L.parts k + p.above.length) e =
      .ok (L.top.length + partRows L.parts k + p.above.length + (p.body.length - 1) + 1) := by
    apply contentEnd_eq_ok _ _ (hmid.trans hline) hend
    · exact fun row hfrom hto => hfiller row (by omega) hto
    · omega
    · omega
  refine ⟨p, hp, rfl, hcut.trans (congrArg Except.ok ?_)⟩
  omega

end Nodes

end HexRift
