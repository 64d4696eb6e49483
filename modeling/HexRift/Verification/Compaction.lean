import HexRift.Verification.ScalarArrays

/-! # Compact configs

Putting arrays back on one line is a layout of the value, not of its text: the parts found
in the text follow the structure of the config. So both texts of a config are read as that
config, and a line with an array put on it stays short. -/

namespace HexRift

open Regex

/-! ## The layout of a value -/

/-- The items of an array on one line. -/
def inline (level : ℕ) (v : Json) (vs : List Json) : List Char :=
  '[' :: dumps level v ++ (vs.flatMap fun u => ',' :: ' ' :: dumps level u) ++ [']']

mutual

/-- The parts of a value that starts in column `col`. -/
def layout (col level : ℕ) : Json → List Part
  | .arr (v :: vs) =>
      if (v :: vs).all isScalar then
        [.replaced (arrayMatch level v vs)
          (if col + (inline (level + 1) v vs).length > 80 then (arrayMatch level v vs).text
            else inline (level + 1) v vs)]
      else
        ('[' :: newlineIndent (level + 1)).map .kept ++ layout (2 * (level + 1)) (level + 1) v ++
          layoutItems (level + 1) vs ++ (newlineIndent level ++ [']']).map .kept
  | .obj ((key, v) :: fs) =>
      ('\x7b' :: newlineIndent (level + 1) ++ dumpsString key ++ [':', ' ']).map .kept ++
        layout (2 * (level + 1) + (dumpsString key).length + 2) (level + 1) v ++
          layoutFields (level + 1) fs ++ (newlineIndent level ++ ['\x7d']).map .kept
  | v => (dumps level v).map .kept

def layoutItems (level : ℕ) : List Json → List Part
  | [] => []
  | v :: vs =>
      (',' :: newlineIndent level).map .kept ++ layout (2 * level) level v ++ layoutItems level vs

def layoutFields (level : ℕ) : List (String × Json) → List Part
  | [] => []
  | (key, v) :: fs =>
      (',' :: newlineIndent level ++ dumpsString key ++ [':', ' ']).map .kept ++
        layout (2 * level + (dumpsString key).length + 2) level v ++ layoutFields level fs

end

/-! ## Columns -/

variable {v : Json} {vs : List Json} {level : ℕ} {a b t before rest : List Char}

theorem lastLine_append (hb : '\n' ∉ b) : lastLine (a ++ b) = lastLine a ++ b := by
  rw [lastLine, lastLine, Python.rpartition_append hb]
  cases Python.rpartition '\n' a <;> rfl

theorem lastLine_newline (a : List Char) : lastLine (a ++ ['\n']) = [] := by
  rw [lastLine, Python.rpartition_append_sep]

theorem indent_append (hb : '\n' ∉ b) : indent (a ++ b) = indent a + b.length := by
  rw [indent, indent, lastLine_append hb, List.length_append]

theorem indent_newlineIndent : indent (a ++ newlineIndent level) = 2 * level := by
  have hspaces : '\n' ∉ List.replicate (2 * level) ' ' := by simp
  have htext : a ++ newlineIndent level = a ++ ['\n'] ++ List.replicate (2 * level) ' ' := by
    simp [newlineIndent]
  rw [htext, indent_append hspaces, indent, lastLine_newline]
  simp

theorem indent_cons_newlineIndent {c : Char} :
    indent (a ++ c :: newlineIndent level) = 2 * level := by
  have htext : a ++ c :: newlineIndent level = a ++ [c] ++ newlineIndent level := by simp
  rw [htext, indent_newlineIndent]

/-- The column of a value behind its key. -/
theorem indent_key {c : Char} {key : String} :
    indent (a ++ (c :: newlineIndent level ++ dumpsString key ++ [':', ' '])) =
      2 * level + (dumpsString key).length + 2 := by
  have hkey : '\n' ∉ dumpsString key ++ [':', ' '] := by
    simp [newline_notMem_dumpsString key]
  have htext : a ++ (c :: newlineIndent level ++ dumpsString key ++ [':', ' ']) =
      a ++ c :: newlineIndent level ++ (dumpsString key ++ [':', ' ']) := by
    simp
  rw [htext, indent_append hkey, indent_cons_newlineIndent, List.length_append]
  rfl

/-! ## Text without matches -/

/-- `parts` of the array pattern from some place in the text on. -/
def found (before t : List Char) : List Part := parts matchArray collapse before 0 t

theorem found_no_bracket (ha : '[' ∉ a) :
    found before (a ++ b) = a.map .kept ++ found (before ++ a) b := by
  refine parts_kept ?_
  intro c y hy
  by_contra hne
  obtain ⟨m, hm⟩ := Option.ne_none_iff_exists'.mp hne
  obtain ⟨u, hu⟩ := matchArray_start hm
  obtain rfl : c = '[' := (List.cons.inj hu).1
  exact ha (hy.subset List.mem_cons_self)

theorem found_no_newline (ha : '\n' ∉ a) (hlast : a.getLast? ≠ some '[') :
    found before (a ++ b) = a.map .kept ++ found (before ++ a) b := by
  refine parts_kept ?_
  intro c y hy
  by_contra hne
  obtain ⟨m, hm⟩ := Option.ne_none_iff_exists'.mp hne
  obtain ⟨u, hu⟩ := matchArray_start hm
  obtain rfl : c = '[' := (List.cons.inj hu).1
  cases y with
  | nil =>
      obtain ⟨x, rfl⟩ := hy
      simp at hlast
  | cons d ds =>
      have hd : d = '\n' := (List.cons.inj (List.cons.inj hu).2).1
      exact ha (hy.subset (by simp [hd]))

theorem found_newlineIndent :
    found before (newlineIndent level ++ a) =
      (newlineIndent level).map .kept ++ found (before ++ newlineIndent level) a := by
  refine found_no_bracket ?_
  simp [newlineIndent]

theorem found_dumpsString {s : String} :
    found before (dumpsString s ++ a) =
      (dumpsString s).map .kept ++ found (before ++ dumpsString s) a := by
  refine found_no_newline (newline_notMem_dumpsString s) ?_
  rw [dumpsString, List.getLast?_concat]
  simp

/-! ## Arrays on one line -/

/-- The text of a scalar is a word without blanks or a string. -/
theorem dumps_scalar (h : isScalar v = true) :
    '\n' ∉ dumps level v ∧ (dumps level v).getLast?.all (fun c => !Python.isSpace c) = true := by
  rcases dumps_cases level v with ⟨s, rfl⟩ | ⟨-, hne, hchars⟩ | ⟨hv, -⟩
  · rw [dumps]
    refine ⟨newline_notMem_dumpsString s, ?_⟩
    rw [dumpsString, List.getLast?_concat]
    decide
  · refine ⟨fun hmem => absurd (hchars _ hmem) (by decide), ?_⟩
    rw [Option.all_eq_true]
    intro c hc
    rw [not_isSpace_of_isScalarChar (hchars c (List.mem_of_getLast? hc))]
    rfl
  · rw [h] at hv
    cases hv

theorem splitCommaLines_cons {c : Char} (h : t.head? ≠ some '\n') :
    splitCommaLines (c :: t) = (splitCommaLines t).modifyHead (c :: ·) := by
  rw [splitCommaLines]
  rintro cs - rfl
  exact h rfl

theorem splitCommaLines_line (ha : '\n' ∉ a) : splitCommaLines a = [a] := by
  induction a with
  | nil => rfl
  | cons c cs ih =>
      rw [List.mem_cons, not_or] at ha
      rw [splitCommaLines_cons (fun h => ha.2 (List.mem_of_head? h)), ih ha.2]
      rfl

theorem splitCommaLines_append (ha : '\n' ∉ a) :
    splitCommaLines (a ++ ',' :: '\n' :: b) = a :: splitCommaLines b := by
  induction a with
  | nil => rw [List.nil_append, splitCommaLines]
  | cons c cs ih =>
      rw [List.mem_cons, not_or] at ha
      rw [List.cons_append, splitCommaLines_cons, ih ha.2]
      · rfl
      · cases cs with
        | nil => simp
        | cons d ds =>
            intro h
            exact ha.2 (by simp_all)

theorem strip_indented {n : ℕ} (hstart : ∃ c cs, t = c :: cs ∧ Python.isSpace c = false)
    (hlast : t.getLast?.all (fun c => !Python.isSpace c) = true) :
    Python.strip (List.replicate n ' ' ++ t) = t := by
  obtain ⟨c, cs, rfl, hc⟩ := hstart
  have hleft : Python.lstrip (List.replicate n ' ' ++ c :: cs) = c :: cs := by
    rw [Python.lstrip, List.dropWhile_append_of_pos (fun _ => isSpace_of_mem_replicate)]
    simp [hc]
  cases hx : (c :: cs).getLast? with
  | none => simp at hx
  | some x =>
      obtain ⟨ys, hys⟩ := List.getLast?_eq_some_iff.mp hx
      rw [hx] at hlast
      rw [Python.strip, hleft, Python.rstrip, hys, List.reverse_concat, List.dropWhile_cons,
        if_neg (by simpa using hlast), List.reverse_cons, List.reverse_reverse]

theorem strip_dumps {n : ℕ} (h : isScalar v = true) :
    Python.strip (List.replicate n ' ' ++ dumps level v) = dumps level v :=
  strip_indented (dumps_start level v) (dumps_scalar h).2

theorem map_strip_items {n : ℕ} (h : ∀ u ∈ v :: vs, isScalar u = true) :
    (splitCommaLines (List.replicate n ' ' ++ dumps level v ++ dumpsItems level vs)).map
      Python.strip = (v :: vs).map (dumps level) := by
  induction vs generalizing v n with
  | nil =>
      have hv := h v List.mem_cons_self
      rw [dumpsItems, List.append_nil, splitCommaLines_line]
      · simp [strip_dumps hv]
      · simp [(dumps_scalar hv).1]
  | cons v' vs ih =>
      rw [List.forall_mem_cons] at h
      have hitems := ih (n := 2 * level) h.2
      rw [dumpsItems, newlineIndent, List.cons_append, List.cons_append, List.cons_append,
        List.cons_append, splitCommaLines_append, List.map_cons, strip_dumps h.1, hitems]
      · rfl
      · simp [(dumps_scalar h.1).1]

theorem intercalate_cons (sep x : List Char) (xs : List (List Char)) :
    sep.intercalate (x :: xs) = x ++ xs.flatMap (sep ++ ·) := by
  induction xs generalizing x with
  | nil => simp
  | cons y ys ih => simp [List.intercalate_cons_cons, ih]

/-- The replacement of an array of scalars is its items on one line. -/
theorem collapsed_arrayMatch (h : ∀ u ∈ v :: vs, isScalar u = true) :
    collapsed (arrayMatch level v vs) = inline (level + 1) v vs := by
  have hitems : (splitCommaLines (dumps (level + 1) v ++ dumpsItems (level + 1) vs)).map
      Python.strip = (v :: vs).map (dumps (level + 1)) := map_strip_items (n := 0) h
  rw [collapsed, arrayMatch, hitems, List.map_cons, intercalate_cons, inline, List.flatMap_map]
  simp

/-! ## The parts of a config are its layout -/

/-- A value anywhere inside a config leads to the parts of its layout. -/
def Laid (v : Json) : Prop := ∀ level before rest, 0 < level → Ends rest →
  found before (dumps level v ++ rest) =
    layout (indent before) level v ++ found (before ++ dumps level v) rest

theorem found_dumpsItems (h : ∀ v ∈ vs, Laid v) (hlevel : 0 < level) (hrest : Ends rest) :
    found before (dumpsItems level vs ++ rest) =
      layoutItems level vs ++ found (before ++ dumpsItems level vs) rest := by
  induction vs generalizing before with
  | nil => simp [dumpsItems, layoutItems]
  | cons v vs ih =>
      rw [List.forall_mem_cons] at h
      have hcomma : '[' ∉ ',' :: newlineIndent level := by simp [newlineIndent]
      rw [dumpsItems, layoutItems, List.append_assoc, List.append_assoc, found_no_bracket hcomma,
        h.1 _ _ _ hlevel (ends_dumpsItems hrest), ih h.2, indent_cons_newlineIndent]
      simp

/-- The text in front of the value of a field holds no match. -/
theorem found_key {c : Char} {key : String} (hc : c ≠ '[') :
    found before (c :: newlineIndent level ++ dumpsString key ++ [':', ' '] ++ a) =
      (c :: newlineIndent level ++ dumpsString key ++ [':', ' ']).map .kept ++
        found (before ++ (c :: newlineIndent level ++ dumpsString key ++ [':', ' '])) a := by
  have hfirst : '[' ∉ c :: newlineIndent level := by simp [newlineIndent, hc.symm]
  have hcolon : '[' ∉ [':', ' '] := by decide
  rw [List.append_assoc, List.append_assoc, found_no_bracket hfirst, found_dumpsString,
    found_no_bracket hcolon]
  simp

theorem found_dumpsFields {fs : List (String × Json)} (h : ∀ f ∈ fs, Laid f.2)
    (hlevel : 0 < level) (hrest : Ends rest) :
    found before (dumpsFields level fs ++ rest) =
      layoutFields level fs ++ found (before ++ dumpsFields level fs) rest := by
  induction fs generalizing before with
  | nil => simp [dumpsFields, layoutFields]
  | cons f fs ih =>
      obtain ⟨key, v⟩ := f
      rw [List.forall_mem_cons] at h
      rw [dumpsFields, layoutFields, List.append_assoc, List.append_assoc, found_key (by decide),
        h.1 _ _ _ hlevel (ends_dumpsFields hrest), ih h.2, indent_key]
      simp

theorem found_obj {fs : List (String × Json)} (h : ∀ f ∈ fs, Laid f.2) :
    found before (dumps level (.obj fs) ++ rest) =
      layout (indent before) level (.obj fs) ++ found (before ++ dumps level (.obj fs)) rest := by
  cases fs with
  | nil =>
      have hbraces : '[' ∉ ['\x7b', '\x7d'] := by decide
      rw [dumps, found_no_bracket hbraces, layout, dumps]
      · simp
      · simp
  | cons f fs =>
      obtain ⟨key, v⟩ := f
      rw [List.forall_mem_cons] at h
      have hend : '[' ∉ newlineIndent level ++ ['\x7d'] := by simp [newlineIndent]
      have htext : dumps level (.obj ((key, v) :: fs)) ++ rest =
          '\x7b' :: newlineIndent (level + 1) ++ dumpsString key ++ [':', ' '] ++
            (dumps (level + 1) v ++ (dumpsFields (level + 1) fs ++
              (newlineIndent level ++ ['\x7d'] ++ rest))) := by
        simp [dumps]
      have hrest : Ends (newlineIndent level ++ ['\x7d'] ++ rest) := by
        rw [List.append_assoc]
        exact ends_newlineIndent
      rw [htext, found_key (by decide), h.1 _ _ _ (Nat.succ_pos level) (ends_dumpsFields hrest),
        found_dumpsFields h.2 (Nat.succ_pos level) hrest, found_no_bracket hend, indent_key, layout]
      simp [dumps]

/-- An array of scalars is one match. -/
theorem found_scalars (hlevel : 0 < level) (h : ∀ u ∈ v :: vs, isScalar u = true) :
    found before (dumps level (.arr (v :: vs)) ++ rest) =
      .replaced (arrayMatch level v vs) (collapse before (arrayMatch level v vs)) ::
        found (before ++ dumps level (.arr (v :: vs))) rest := by
  have hmatch := matchArray_arr (a := rest) hlevel h
  have hne : (arrayMatch level v vs).text ≠ [] := by simp [arrayMatch, dumps]
  exact parts_replaced (m := arrayMatch level v vs) hne hmatch

/-- Any other array is kept, its items laid out by themselves. -/
theorem found_array (h : ∀ u ∈ v :: vs, Laid u) (hscalar : ¬∀ u ∈ v :: vs, isScalar u = true) :
    found before (dumps level (.arr (v :: vs)) ++ rest) =
      ('[' :: newlineIndent (level + 1)).map .kept ++ layout (2 * (level + 1)) (level + 1) v ++
        layoutItems (level + 1) vs ++ (newlineIndent level ++ [']']).map .kept ++
          found (before ++ dumps level (.arr (v :: vs))) rest := by
  rw [List.forall_mem_cons] at h
  have hnone : matchArray (dumps level (.arr (v :: vs)) ++ rest) = none := by
    by_contra hne
    obtain ⟨m, hm⟩ := Option.ne_none_iff_exists'.mp hne
    exact hscalar (matchArray_arr_eq hm).1
  have hend : '[' ∉ newlineIndent level ++ [']'] := by simp [newlineIndent]
  have hrest : Ends (newlineIndent level ++ [']'] ++ rest) := by
    rw [List.append_assoc]
    exact ends_newlineIndent
  have htext : dumps level (.arr (v :: vs)) ++ rest =
      '[' :: (newlineIndent (level + 1) ++ (dumps (level + 1) v ++ (dumpsItems (level + 1) vs ++
        (newlineIndent level ++ [']'] ++ rest)))) := by
    simp [dumps]
  rw [htext] at hnone ⊢
  rw [found, parts_cons_none hnone, ← found, found_newlineIndent,
    h.1 _ _ _ (Nat.succ_pos level) (ends_dumpsItems hrest),
    found_dumpsItems h.2 (Nat.succ_pos level) hrest, found_no_bracket hend,
    indent_newlineIndent]
  simp [dumps]

theorem found_arr (h : ∀ u ∈ vs, Laid u) : Laid (.arr vs) := by
  intro level before rest hlevel hrest
  cases vs with
  | nil =>
      have hline : '\n' ∉ ['[', ']'] := by decide
      rw [dumps, found_no_newline hline (by decide), layout, dumps]
      · simp
      · simp
  | cons v vs =>
      rw [layout]
      split
      · rename_i hscalar
        rw [List.all_eq_true] at hscalar
        rw [found_scalars hlevel hscalar, collapse, collapsed_arrayMatch hscalar]
        rfl
      · rename_i hscalar
        rw [List.all_eq_true] at hscalar
        exact found_array h hscalar

theorem layout_kept {col : ℕ} (harr : ∀ w ws, v ≠ .arr (w :: ws))
    (hobj : ∀ f fs, v ≠ .obj (f :: fs)) : layout col level v = (dumps level v).map .kept := by
  rw [layout]
  · exact harr
  · exact fun key w => hobj (key, w)

theorem found_word (h : ∀ c ∈ a, isScalarChar c = true) :
    found before (a ++ b) = a.map .kept ++ found (before ++ a) b :=
  found_no_bracket fun hmem => absurd (h _ hmem) (by decide)

/-- The parts of a value are its layout. -/
theorem laid (v : Json) : Laid v := by
  induction v with
  | null =>
      intro level before rest _ _
      rw [layout_kept (by simp) (by simp), dumps, found_word (List.all_eq_true.mp (by decide))]
  | bool b =>
      intro level before rest _ _
      cases b <;>
        rw [layout_kept (by simp) (by simp), dumps, found_word (List.all_eq_true.mp (by decide))]
  | int n =>
      intro level before rest _ _
      rw [layout_kept (by simp) (by simp), dumps,
        found_word (matches_number_chars (matches_int n)).2]
  | str s =>
      intro level before rest _ _
      rw [layout_kept (by simp) (by simp), dumps, found_dumpsString]
  | arr vs ih => exact found_arr ih
  | obj fs ih => exact fun _ _ _ _ _ => found_obj ih

theorem configParts_eq (config : List (String × Json)) :
    configParts config = layout 0 0 (.obj config) := by
  have h : found [] (dumps 0 (.obj config) ++ []) =
      layout (indent []) 0 (.obj config) ++ found ([] ++ dumps 0 (.obj config)) [] :=
    found_obj fun f _ => laid f.2
  rw [List.append_nil, found, found, parts_nil, List.append_nil] at h
  exact h

/-! ## Both texts write the config -/

open Json

theorem writtenUnits_jsonChar (cs : List Char) :
    WrittenUnits (cs.map Char.toNat) (cs.flatMap Python.jsonChar) := by
  induction cs with
  | nil => exact .nil
  | cons c cs ih =>
      rw [List.map_cons, List.flatMap_cons]
      rcases jsonChar_cases c with ⟨hc, hquote, hslash, hcontrol⟩ | ⟨e, hc, he⟩ |
        ⟨w, x, y, z, hc, hn⟩
      · rw [hc]
        exact .raw hquote hslash hcontrol ih
      · rw [hc]
        exact .escape he ih
      · rw [hc]
        exact .unicode hn ih

theorem writtenString_dumpsString (s : String) : WrittenString s (dumpsString s) :=
  .intro (writtenUnits_jsonChar s.toList) (decodeUnits_chars s.toList)

theorem blank_newlineIndent : Blank (newlineIndent level) := by
  intro c hc
  rcases List.mem_cons.mp hc with rfl | hc
  · rfl
  · rw [List.eq_of_mem_replicate hc]
    rfl

theorem dumpsItems_eq :
    dumpsItems level vs = vs.flatMap fun u => ',' :: newlineIndent level ++ dumps level u := by
  induction vs with
  | nil => rfl
  | cons v vs ih => rw [dumpsItems, ih, List.flatMap_cons]

theorem dumpsFields_eq {fs : List (String × Json)} :
    dumpsFields level fs = fs.flatMap fun q =>
      ',' :: newlineIndent level ++ dumpsString q.1 ++ [':', ' '] ++ dumps level q.2 := by
  induction fs with
  | nil => rfl
  | cons f fs ih => rw [dumpsFields, ih, List.flatMap_cons]

theorem outputs_layoutItems :
    outputs (layoutItems level vs) = vs.flatMap fun u =>
      ',' :: newlineIndent level ++ outputs (layout (2 * level) level u) := by
  induction vs with
  | nil => rfl
  | cons v vs ih =>
      rw [layoutItems, outputs_append, outputs_append, outputs_map_kept, ih, List.flatMap_cons]

theorem outputs_layoutFields {fs : List (String × Json)} :
    outputs (layoutFields level fs) = fs.flatMap fun q =>
      ',' :: newlineIndent level ++ dumpsString q.1 ++ [':', ' '] ++
        outputs (layout (2 * level + (dumpsString q.1).length + 2) level q.2) := by
  induction fs with
  | nil => rfl
  | cons f fs ih =>
      rw [layoutFields, outputs_append, outputs_append, outputs_map_kept, ih, List.flatMap_cons]

theorem written_null : Written .null "null".toList :=
  .word (by decide) (List.all_eq_true.mp (by decide)) rfl

theorem written_bool (b : Bool) : Written (.bool b) (dumps level (.bool b)) := by
  cases b <;> rw [dumps] <;> exact .word (by decide) (List.all_eq_true.mp (by decide)) rfl

theorem written_dumps (v : Json) (level : ℕ) : Written v (dumps level v) := by
  induction v generalizing level with
  | null => exact written_null
  | bool b => exact written_bool b
  | int n => exact written_int n
  | str s => exact .str (writtenString_dumpsString s)
  | arr vs ih =>
      cases vs with
      | nil => exact .noItems (w := []) (by simp [Blank])
      | cons v vs =>
          have hitems : WrittenItems (v :: vs) (newlineIndent (level + 1) ++ dumps (level + 1) v ++
              dumpsItems (level + 1) vs ++ newlineIndent level) := by
            rw [dumpsItems_eq]
            exact writtenItems_of (fun u hu => ih u hu (level + 1)) blank_newlineIndent
              blank_newlineIndent blank_newlineIndent
          simpa [dumps] using Written.items hitems
  | obj fs ih =>
      cases fs with
      | nil => exact .noFields (w := []) (by simp [Blank])
      | cons f fs =>
          have hfields : WrittenFields (f :: fs) (newlineIndent (level + 1) ++ dumpsString f.1 ++
              [':', ' '] ++ dumps (level + 1) f.2 ++ dumpsFields (level + 1) fs ++
                newlineIndent level) := by
            rw [dumpsFields_eq]
            exact writtenFields_of (f := fun q => dumps (level + 1) q.2) writtenString_dumpsString
              (fun q hq => ih q hq (level + 1)) blank_newlineIndent blank_newlineIndent
              blank_newlineIndent
          simpa [dumps] using Written.fields hfields

/-- An array on one line is still the array. -/
theorem written_inline : Written (.arr (v :: vs)) (inline level v vs) := by
  have hnil : Blank [] := by simp [Blank]
  have hspace : Blank [' '] := by simp [Blank, isBlank]
  have hitems : WrittenItems (v :: vs)
      ([] ++ dumps level v ++ (vs.flatMap fun u => ',' :: [' '] ++ dumps level u) ++ []) :=
    writtenItems_of (fun u _ => written_dumps u level) hnil hspace hnil
  simpa [inline] using Written.items hitems

theorem written_layout (v : Json) (col level : ℕ) : Written v (outputs (layout col level v)) := by
  induction v generalizing col level with
  | null | bool | int | str =>
      rw [layout_kept (by simp) (by simp), outputs_map_kept]
      exact written_dumps _ level
  | arr vs ih =>
      cases vs with
      | nil =>
          rw [layout_kept (by simp) (by simp), outputs_map_kept]
          exact written_dumps _ level
      | cons v vs =>
          rw [layout]
          split
          · rw [outputs, List.flatMap_singleton, Part.output]
            split
            · exact written_dumps (.arr (v :: vs)) level
            · exact written_inline
          · have hitems : WrittenItems (v :: vs) (newlineIndent (level + 1) ++
                outputs (layout (2 * (level + 1)) (level + 1) v) ++
                  outputs (layoutItems (level + 1) vs) ++ newlineIndent level) := by
              rw [outputs_layoutItems]
              exact writtenItems_of
                (f := fun u => outputs (layout (2 * (level + 1)) (level + 1) u))
                (fun u hu => ih u hu _ _) blank_newlineIndent blank_newlineIndent
                blank_newlineIndent
            simp only [outputs_append, outputs_map_kept]
            simpa using Written.items hitems
  | obj fs ih =>
      cases fs with
      | nil =>
          rw [layout_kept (by simp) (by simp), outputs_map_kept]
          exact written_dumps _ level
      | cons f fs =>
          have hfields : WrittenFields (f :: fs) (newlineIndent (level + 1) ++ dumpsString f.1 ++
              [':', ' '] ++ outputs (layout (2 * (level + 1) + (dumpsString f.1).length + 2)
                (level + 1) f.2) ++ outputs (layoutFields (level + 1) fs) ++
                  newlineIndent level) := by
            rw [outputs_layoutFields]
            exact writtenFields_of (f := fun q =>
                outputs (layout (2 * (level + 1) + (dumpsString q.1).length + 2) (level + 1) q.2))
              writtenString_dumpsString (fun q hq => ih q hq _ _) blank_newlineIndent
              blank_newlineIndent blank_newlineIndent
          rw [layout]
          simp only [outputs_append, outputs_map_kept]
          simpa using Written.fields hfields

theorem parse_serializeConfig (config : List (String × Json)) (compact : Bool) :
    parse (serializeConfig config compact) = some (.obj config) := by
  have hnewline : Blank ['\n'] := by simp [Blank, isBlank]
  rw [serializeConfig]
  split
  · have hparts : sub matchArray collapse (dumps 0 (.obj config)) =
        outputs (layout 0 0 (.obj config)) := by
      rw [← configParts_eq]
      rfl
    rw [hparts]
    exact parse_written (written_layout (.obj config) 0 0) hnewline
  · exact parse_written (written_dumps (.obj config) 0) hnewline

end HexRift
