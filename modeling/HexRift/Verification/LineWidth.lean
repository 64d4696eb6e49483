import HexRift.Verification.Compaction

/-! # Widths of compact lines

Nothing but a comma follows an array put on one line, and nothing but the text in front of it
precedes it there, so the width tested at the match is the width of the line. -/

namespace HexRift

open Regex

/-! ## Columns along the parts -/

/-- A line ends here, but for a comma. -/
def LineEnds (ps : List Part) : Prop :=
  ∃ qs, ps = .kept '\n' :: qs ∨ ps = .kept ',' :: .kept '\n' :: qs

/-- From column `col` on, every array put on one line stays within 80 columns and ends its
line. -/
def Fits : ℕ → List Part → Prop
  | _, [] => True
  | col, .kept c :: ps => Fits (if c = '\n' then 0 else col + 1) ps
  | col, .replaced m new :: ps =>
      (new ≠ m.text → '\n' ∉ new ∧ col + new.length ≤ 80) ∧ LineEnds ps ∧ Fits 0 ps

variable {v : Json} {vs : List Json} {fs : List (String × Json)} {level col : ℕ}
  {a t new : List Char} {ps before after : List Part} {m : Match}

theorem fits_of_lineEnds {col' : ℕ} (hends : LineEnds ps) (h : Fits col ps) : Fits col' ps := by
  obtain ⟨qs, rfl | rfl⟩ := hends
  · exact h
  · exact h

theorem fits_kept (ha : '\n' ∉ a) : Fits col (a.map .kept ++ ps) ↔ Fits (col + a.length) ps := by
  induction a generalizing col with
  | nil => rfl
  | cons c cs ih =>
      rw [List.mem_cons, not_or] at ha
      rw [List.map_cons, List.cons_append, Fits, if_neg (Ne.symm ha.1), ih ha.2, List.length_cons,
        Nat.add_right_comm, Nat.add_assoc]

theorem fits_newlineIndent :
    Fits col ((newlineIndent level).map .kept ++ ps) ↔ Fits (2 * level) ps := by
  have hspaces : '\n' ∉ List.replicate (2 * level) ' ' := by simp
  rw [newlineIndent, List.map_cons, List.cons_append, Fits, if_pos rfl, fits_kept hspaces]
  simp

theorem fits_key {c : Char} {key : String} :
    Fits col ((c :: newlineIndent level ++ dumpsString key ++ [':', ' ']).map .kept ++ ps) ↔
      Fits (2 * level + (dumpsString key).length + 2) ps := by
  have hkey : '\n' ∉ dumpsString key ++ [':', ' '] := by simp [newline_notMem_dumpsString key]
  rw [List.append_assoc, List.map_append, List.append_assoc, List.map_cons, List.cons_append, Fits,
    fits_newlineIndent, fits_kept hkey, List.length_append]
  rfl

theorem lineEnds_newlineIndent : LineEnds ((newlineIndent level ++ a).map .kept ++ ps) :=
  ⟨_, .inl rfl⟩

theorem newline_notMem_inline (h : ∀ u ∈ v :: vs, isScalar u = true) :
    '\n' ∉ inline level v vs := by
  rw [List.forall_mem_cons] at h
  have hitems : ∀ u ∈ vs, '\n' ∉ dumps level u := fun u hu => (dumps_scalar (h.2 u hu)).1
  simp only [inline, List.mem_append, List.mem_cons, List.mem_flatMap, List.not_mem_nil, not_or,
    or_false, not_exists, not_and]
  exact ⟨⟨⟨by decide, (dumps_scalar h.1).1⟩, fun u hu => ⟨by decide, by decide, hitems u hu⟩⟩,
    by decide⟩

/-! ## Layouts fit -/

def LayoutFits (v : Json) : Prop := ∀ col level ps, LineEnds ps → Fits 0 ps →
  Fits col (layout col level v ++ ps)

theorem lineEnds_layoutItems (h : LineEnds ps) : LineEnds (layoutItems level vs ++ ps) := by
  cases vs with
  | nil => rwa [layoutItems, List.nil_append]
  | cons v vs => exact ⟨_, .inr (by rw [layoutItems]; rfl)⟩

theorem fits_layoutItems (h : ∀ u ∈ vs, LayoutFits u) (hends : LineEnds ps) (hps : Fits 0 ps) :
    Fits 0 (layoutItems level vs ++ ps) := by
  induction vs with
  | nil => rwa [layoutItems, List.nil_append]
  | cons v vs ih =>
      rw [List.forall_mem_cons] at h
      rw [layoutItems, List.append_assoc, List.append_assoc, List.map_cons, List.cons_append, Fits,
        fits_newlineIndent]
      exact h.1 _ _ _ (lineEnds_layoutItems hends) (ih h.2)

theorem lineEnds_layoutFields (h : LineEnds ps) : LineEnds (layoutFields level fs ++ ps) := by
  cases fs with
  | nil => rwa [layoutFields, List.nil_append]
  | cons f fs => exact ⟨_, .inr (by rw [layoutFields]; rfl)⟩

theorem fits_layoutFields (h : ∀ f ∈ fs, LayoutFits f.2) (hends : LineEnds ps)
    (hps : Fits 0 ps) : Fits 0 (layoutFields level fs ++ ps) := by
  induction fs with
  | nil => rwa [layoutFields, List.nil_append]
  | cons f fs ih =>
      rw [List.forall_mem_cons] at h
      rw [layoutFields, List.append_assoc, List.append_assoc, fits_key]
      exact h.1 _ _ _ (lineEnds_layoutFields hends) (ih h.2)

theorem fits_obj (h : ∀ f ∈ fs, LayoutFits f.2) (hps : ∀ col, Fits col ps) :
    Fits col (layout col level (.obj fs) ++ ps) := by
  cases fs with
  | nil =>
      have hbraces : '\n' ∉ ['\x7b', '\x7d'] := by decide
      rw [layout_kept (by simp) (by simp), dumps, fits_kept hbraces]
      exact hps _
  | cons f fs =>
      rw [List.forall_mem_cons] at h
      have hbrace : '\n' ∉ ['\x7d'] := by decide
      rw [layout, List.append_assoc, List.append_assoc, List.append_assoc, fits_key]
      refine h.1 _ _ _ (lineEnds_layoutFields lineEnds_newlineIndent)
        (fits_layoutFields h.2 lineEnds_newlineIndent ?_)
      rw [List.map_append, List.append_assoc, fits_newlineIndent, fits_kept hbrace]
      exact hps _

theorem fits_arr (h : ∀ u ∈ vs, LayoutFits u) : LayoutFits (.arr vs) := by
  intro col level ps hends hps
  cases vs with
  | nil =>
      have hbrackets : '\n' ∉ ['[', ']'] := by decide
      rw [layout_kept (by simp) (by simp), dumps, fits_kept hbrackets]
      exact fits_of_lineEnds hends hps
  | cons v vs =>
      rw [layout]
      split
      · rename_i hscalar
        rw [List.all_eq_true] at hscalar
        refine ⟨?_, hends, hps⟩
        split
        · exact fun hne => absurd rfl hne
        · exact fun _ => ⟨newline_notMem_inline hscalar, by omega⟩
      · rw [List.forall_mem_cons] at h
        have hbracket : '\n' ∉ [']'] := by decide
        rw [List.append_assoc, List.append_assoc, List.append_assoc, List.map_cons,
          List.cons_append, Fits, fits_newlineIndent]
        refine h.1 _ _ _ (lineEnds_layoutItems lineEnds_newlineIndent)
          (fits_layoutItems h.2 lineEnds_newlineIndent ?_)
        rw [List.map_append, List.append_assoc, fits_newlineIndent, fits_kept hbracket]
        exact fits_of_lineEnds hends hps

theorem layoutFits (v : Json) : LayoutFits v := by
  have hleaf : ∀ {v : Json} {level : ℕ}, (∀ w ws, v ≠ .arr (w :: ws)) →
      (∀ f fs, v ≠ .obj (f :: fs)) → '\n' ∉ dumps level v → ∀ col ps, LineEnds ps → Fits 0 ps →
        Fits col (layout col level v ++ ps) := by
    intro v level harr hobj hline col ps hends hps
    rw [layout_kept harr hobj, fits_kept hline]
    exact fits_of_lineEnds hends hps
  induction v with
  | null => exact fun col level => hleaf (by simp) (by simp) (by rw [dumps]; decide) col
  | bool b =>
      exact fun col level => hleaf (by simp) (by simp) (by cases b <;> rw [dumps] <;> decide) col
  | int n => exact fun col level => hleaf (by simp) (by simp) (dumps_scalar rfl).1 col
  | str s =>
      exact fun col level => hleaf (by simp) (by simp)
        (by rw [dumps]; exact newline_notMem_dumpsString s) col
  | arr vs ih => exact fits_arr ih
  | obj fs ih => exact fun _ _ _ hends hps => fits_obj ih fun _ => fits_of_lineEnds hends hps

/-! ## Lines of the text -/

/-- The text up to the first line break. -/
def firstLine (t : List Char) : List Char := t.takeWhile (· ≠ '\n')

/-- A line without a comma at its end. -/
def withoutComma (line : List Char) : List Char :=
  if line.getLast? = some ',' then line.dropLast else line

/-- The columns of `Fits` are those of the text. -/
theorem width_of_fits (h : Fits col (before ++ .replaced m new :: after)) (hnew : new ≠ m.text)
    (hcol : (lastLine t).length = col ∨ LineEnds (before ++ .replaced m new :: after)) :
    '\n' ∉ new ∧ (lastLine (t ++ outputs before)).length + new.length ≤ 80 ∧ LineEnds after := by
  induction before generalizing t col with
  | nil =>
      have hlength : (lastLine t).length = col := by
        refine hcol.resolve_right ?_
        rintro ⟨qs, hqs | hqs⟩ <;> cases hqs
      obtain ⟨hwidth, hends, -⟩ := h
      obtain ⟨hline, hwidth⟩ := hwidth hnew
      refine ⟨hline, ?_, hends⟩
      rw [outputs, List.flatMap_nil, List.append_nil, hlength]
      exact hwidth
  | cons p ps ih =>
      rw [outputs, List.flatMap_cons, ← List.append_assoc]
      cases p with
      | kept c =>
          refine ih h ?_
          by_cases hc : c = '\n'
          · rw [hc, if_pos rfl, Part.output, lastLine_newline]
            exact .inl rfl
          · rw [if_neg hc, Part.output, lastLine_append (by simpa using Ne.symm hc)]
            rcases hcol with rfl | ⟨qs, hqs | hqs⟩
            · exact .inl (List.length_append ..)
            · exact absurd (Part.kept.inj (List.cons.inj hqs).1) hc
            · exact .inr ⟨qs, .inl (List.cons.inj hqs).2⟩
      | replaced m' new' =>
          obtain ⟨-, hends, hps⟩ := h
          exact ih hps (.inr hends)

theorem firstLine_of_lineEnds (h : LineEnds ps) :
    firstLine (outputs ps ++ t) = [] ∨ firstLine (outputs ps ++ t) = [','] := by
  obtain ⟨qs, rfl | rfl⟩ := h
  · exact .inl (by simp [outputs, Part.output, firstLine])
  · exact .inr (by simp [outputs, Part.output, firstLine])

/-- Leaving out a comma at the end of the line leaves what is in front of it. -/
theorem withoutComma_length {comma : List Char} (h : comma = [] ∨ comma = [',']) :
    (withoutComma (a ++ comma)).length ≤ a.length := by
  rcases h with rfl | rfl
  · rw [List.append_nil, withoutComma]
    split
    · simp
    · exact Nat.le_refl _
  · rw [withoutComma, List.getLast?_concat, if_pos rfl, List.dropLast_concat]

/-- The two texts of a config are read as that config, and no array put on one line makes its
line longer than 80 characters. -/
theorem compact_preserved (config : List (String × Json)) :
    Json.parse (serializeConfig config false) = some (.obj config) ∧
      Json.parse (serializeConfig config true) = some (.obj config) ∧
      ∀ before m new after, configParts config = before ++ .replaced m new :: after →
        new ≠ m.text →
          serializeConfig config true = outputs before ++ new ++ (outputs after ++ ['\n']) ∧
            '\n' ∉ new ∧
            (withoutComma (lastLine (outputs before) ++ new ++
              firstLine (outputs after ++ ['\n']))).length ≤ 80 := by
  refine ⟨parse_serializeConfig config false, parse_serializeConfig config true, ?_⟩
  intro before m new after hparts hnew
  have hfits : Fits 0 (layout 0 0 (.obj config) ++ []) :=
    fits_obj (fun f _ => layoutFits f.2) fun _ => trivial
  rw [List.append_nil, ← configParts_eq, hparts] at hfits
  obtain ⟨hline, hwidth, hends⟩ := width_of_fits (t := []) hfits hnew (.inl rfl)
  refine ⟨?_, hline, ?_⟩
  · have htext : serializeConfig config true = outputs (configParts config) ++ ['\n'] := rfl
    rw [htext, hparts, outputs_append]
    simp [outputs, Part.output]
  · refine (withoutComma_length (firstLine_of_lineEnds hends)).trans ?_
    rw [List.length_append]
    exact hwidth

end HexRift
