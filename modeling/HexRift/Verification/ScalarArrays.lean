import HexRift.Model.Serialize
import HexRift.Verification.Texts

/-! # What the array pattern matches

The pattern knows nothing of strings or nesting, yet in a serialised config it matches exactly
the arrays all of whose items are scalars without a quotation mark, each as a whole. -/

namespace HexRift

open Regex

/-! ## Texts of scalars -/

/-- Whether the pattern's `scalar` covers a value. -/
def isScalar : Json → Bool
  | .str s => '"' ∉ s.toList
  | .arr _ => false
  | .obj _ => false
  | _ => true

/-- Characters of the numbers and words of the pattern. -/
def isScalarChar (c : Char) : Bool :=
  (Python.decimal? c).isSome || c ∈ "-.truefalsn".toList

/-- The three ways a character of a string is written. -/
theorem jsonChar_cases (c : Char) :
    (Python.jsonChar c = [c] ∧ c ≠ '"' ∧ c ≠ '\\' ∧ 0x20 ≤ c.toNat) ∨
      (∃ e, Python.jsonChar c = ['\\', e] ∧ Json.escaped e = some c) ∨
      (∃ w x y z, Python.jsonChar c = ['\\', 'u', w, x, y, z] ∧
        Json.hexUnit w x y z = some c.toNat) := by
  have hunit : ∀ n < 0x20, Json.hexUnit '0' '0' (Python.hexDigit (n / 16))
      (Python.hexDigit (n % 16)) = some n := by decide
  rw [Python.jsonChar]
  split
  · rename_i h
    exact .inr (.inl ⟨c, rfl, by rcases h with rfl | rfl <;> rfl⟩)
  split
  · rename_i h
    exact .inr (.inl ⟨'n', rfl, by rw [h]; rfl⟩)
  split
  · rename_i h
    exact .inr (.inl ⟨'r', rfl, by rw [h]; rfl⟩)
  split
  · rename_i h
    exact .inr (.inl ⟨'t', rfl, by rw [h]; rfl⟩)
  split
  · rename_i h
    exact .inr (.inl ⟨'f', rfl, by rw [← Char.ofNat_toNat c, h]; rfl⟩)
  split
  · rename_i h
    exact .inr (.inl ⟨'b', rfl, by rw [← Char.ofNat_toNat c, h]; rfl⟩)
  split
  · rename_i h
    exact .inr (.inr ⟨_, _, _, _, rfl, hunit _ h⟩)
  · rename_i hquote _ _ _ _ _ hcontrol
    rw [not_or] at hquote
    exact .inl ⟨rfl, hquote.1, hquote.2, by omega⟩

theorem newline_notMem_jsonChar (c : Char) : '\n' ∉ Python.jsonChar c := by
  intro h
  obtain ⟨hc, -, -, hcontrol⟩ | ⟨e, hc, he⟩ | ⟨w, x, y, z, hc, hn⟩ := jsonChar_cases c
  · obtain rfl : '\n' = c := by simpa [hc] using h
    exact absurd hcontrol (by decide)
  · obtain rfl : '\n' = e := by simpa [hc] using h
    cases he
  · have hmem : '\n' ∈ [w, x, y, z] := by simpa [hc] using h
    exact absurd (Json.hexValue_isSome hn hmem) (by decide)

theorem quote_mem_jsonChar {c : Char} : '"' ∈ Python.jsonChar c ↔ c = '"' := by
  constructor
  · intro h
    obtain ⟨hc, hquote, -, -⟩ | ⟨e, hc, he⟩ | ⟨w, x, y, z, hc, hn⟩ := jsonChar_cases c
    · exact absurd (by simpa [hc, eq_comm] using h) hquote
    · obtain rfl : '"' = e := by simpa [hc] using h
      exact (Option.some.inj he).symm
    · have hmem : '"' ∈ [w, x, y, z] := by simpa [hc] using h
      exact absurd (Json.hexValue_isSome hn hmem) (by decide)
  · rintro rfl
    decide

theorem newline_notMem_dumpsString (s : String) : '\n' ∉ dumpsString s := by
  simp only [dumpsString, List.mem_append, List.mem_cons, List.mem_flatMap, List.not_mem_nil]
  rintro ((h | ⟨c, -, h⟩) | h | h)
  · cases h
  · exact newline_notMem_jsonChar c h
  · cases h
  · cases h

theorem quote_mem_body {s : String} :
    '"' ∈ s.toList.flatMap Python.jsonChar ↔ '"' ∈ s.toList := by
  simp [List.mem_flatMap, quote_mem_jsonChar]

/-! ## The language of the pattern -/

variable {v : Json} {vs : List Json} {level : ℕ} {a b c g o s t z : List Char}

theorem matches_spaces : Matches spaces t ↔ t ≠ [] ∧ ∀ c ∈ t, Python.isSpace c = true := by
  rw [spaces, matches_plus_char]

theorem matches_digits :
    Matches digits t ↔ t ≠ [] ∧ ∀ c ∈ t, (Python.decimal? c).isSome = true := by
  rw [digits, matches_plus_char]

theorem matches_quoted : Matches quoted t ↔ ∃ q, '"' ∉ q ∧ t = '"' :: q ++ ['"'] := by
  simp only [quoted, matches_seq, matches_text, matches_star_char]
  constructor
  · rintro ⟨_, _, rfl, ⟨q, _, hq, rfl, rfl⟩, rfl⟩
    exact ⟨q, fun h => absurd (hq _ h) (by decide), rfl⟩
  · rintro ⟨q, hq, rfl⟩
    refine ⟨_, _, rfl, ⟨q, _, ?_, rfl, rfl⟩, rfl⟩
    intro c hc
    exact bne_iff_ne.mpr fun h => hq (h ▸ hc)

theorem matches_number_chars (h : Matches number t) :
    t ≠ [] ∧ ∀ c ∈ t, isScalarChar c = true := by
  have hdigits : ∀ {a : List Char}, Matches digits a → ∀ c ∈ a, isScalarChar c = true := by
    intro a ha c hc
    rw [isScalarChar, (matches_digits.mp ha).2 c hc]
    rfl
  simp only [number, matches_seq, matches_opt, matches_text] at h
  obtain ⟨x, _, hx, ⟨y, z, hy, hz, rfl⟩, rfl⟩ := h
  refine ⟨by simp [(matches_digits.mp hy).1], ?_⟩
  intro c hc
  rw [List.mem_append, List.mem_append] at hc
  rcases hc with hc | hc | hc
  · rcases hx with rfl | rfl
    · cases hc
    · obtain rfl := List.mem_singleton.mp hc
      decide
  · exact hdigits hy c hc
  · rcases hz with rfl | ⟨_, w, rfl, hw, rfl⟩
    · cases hc
    · rcases List.mem_cons.mp hc with rfl | hc
      · decide
      · exact hdigits hw c hc

theorem matches_scalar_cases (h : Matches scalar t) :
    (∃ q, '"' ∉ q ∧ t = '"' :: q ++ ['"']) ∨ t ≠ [] ∧ ∀ c ∈ t, isScalarChar c = true := by
  simp only [scalar, matches_alt, matches_text] at h
  rcases h with h | h | rfl | rfl | rfl
  · exact .inl (matches_quoted.mp h)
  · exact .inr (matches_number_chars h)
  · exact .inr ⟨by decide, List.all_eq_true.mp (by decide)⟩
  · exact .inr ⟨by decide, List.all_eq_true.mp (by decide)⟩
  · exact .inr ⟨by decide, List.all_eq_true.mp (by decide)⟩

theorem decimal?_of_isDigit {c : Char} (h : c.isDigit = true) :
    (Python.decimal? c).isSome = true := by
  rw [Python.decimal?_eq_some h]
  rfl

theorem not_isSpace_of_isScalarChar {c : Char} (h : isScalarChar c = true) :
    Python.isSpace c = false := by
  have hwords : "-.truefalsn".toList.all (fun c => !Python.isSpace c) = true := by decide
  rw [isScalarChar, Bool.or_eq_true, decide_eq_true_eq] at h
  rcases h with h | h
  · exact Python.isSpace_of_decimal h
  · simpa using List.all_eq_true.mp hwords c h

theorem matches_int (n : ℤ) : Matches number (toString n).toList := by
  have hdigits : ∀ m, Matches digits (Nat.toDigits 10 m) := fun m =>
    matches_digits.mpr ⟨by simp, fun c hc => decimal?_of_isDigit
      (Nat.isDigit_of_mem_toDigits (by decide) (by decide) hc)⟩
  simp only [number, matches_seq, matches_opt, matches_text]
  rw [Json.toList_toString_int]
  split
  · exact ⟨[], _, .inl rfl, ⟨_, [], hdigits _, .inl rfl, (List.append_nil _).symm⟩, rfl⟩
  · exact ⟨_, _, .inr rfl, ⟨_, [], hdigits _, .inl rfl, (List.append_nil _).symm⟩, rfl⟩

/-! ## Texts of values -/

theorem matches_dumps (h : isScalar v = true) : Matches scalar (dumps level v) := by
  simp only [scalar, matches_alt, matches_text]
  cases v with
  | null => simp [dumps]
  | bool b => cases b <;> simp [dumps]
  | int n => exact .inr (.inl (by rw [dumps]; exact matches_int n))
  | str s =>
      refine .inl (matches_quoted.mpr ⟨_, ?_, by rw [dumps, dumpsString]⟩)
      rw [quote_mem_body]
      simpa [isScalar] using h
  | arr | obj => cases h

/-- What the text of a value starts with. -/
theorem dumps_cases (level : ℕ) (v : Json) :
    (∃ s, v = .str s) ∨
      (isScalar v = true ∧ dumps level v ≠ [] ∧ ∀ c ∈ dumps level v, isScalarChar c = true) ∨
      isScalar v = false ∧ ∃ cs, dumps level v = '[' :: cs ∨ dumps level v = '\x7b' :: cs := by
  cases v with
  | null =>
      rw [dumps]
      exact .inr (.inl ⟨rfl, by decide, List.all_eq_true.mp (by decide)⟩)
  | bool b =>
      cases b <;> rw [dumps] <;>
        exact .inr (.inl ⟨rfl, by decide, List.all_eq_true.mp (by decide)⟩)
  | int n => exact .inr (.inl ⟨rfl, by rw [dumps]; exact matches_number_chars (matches_int n)⟩)
  | str s => exact .inl ⟨s, rfl⟩
  | arr vs =>
      cases vs with
      | nil => exact .inr (.inr ⟨rfl, _, .inl (by rw [dumps])⟩)
      | cons => exact .inr (.inr ⟨rfl, _, .inl (by rw [dumps]; rfl)⟩)
  | obj fs =>
      cases fs with
      | nil => exact .inr (.inr ⟨rfl, _, .inr (by rw [dumps])⟩)
      | cons f fs => exact .inr (.inr ⟨rfl, _, .inr (by rw [dumps]; rfl)⟩)

theorem dumps_start (level : ℕ) (v : Json) :
    ∃ c cs, dumps level v = c :: cs ∧ Python.isSpace c = false := by
  rcases dumps_cases level v with ⟨s, rfl⟩ | ⟨-, hne, hchars⟩ | ⟨-, cs, hcs | hcs⟩
  · exact ⟨'"', _, by rw [dumps, dumpsString]; rfl, by decide⟩
  · obtain ⟨c, cs, hcs⟩ := List.exists_cons_of_ne_nil hne
    exact ⟨c, cs, hcs, not_isSpace_of_isScalarChar (hchars c (hcs ▸ List.mem_cons_self))⟩
  · exact ⟨_, cs, hcs, by decide⟩
  · exact ⟨_, cs, hcs, by decide⟩

/-- What follows a value inside an array or an object. -/
def Ends (t : List Char) : Prop := ∃ u, t = '\n' :: u ∨ t = ',' :: '\n' :: u

theorem Ends.cons (h : Ends t) : ∃ c u, t = c :: u ∧ (c = '\n' ∨ c = ',') := by
  obtain ⟨u, rfl | rfl⟩ := h
  · exact ⟨_, _, rfl, .inl rfl⟩
  · exact ⟨_, _, rfl, .inr rfl⟩

theorem ends_newlineIndent : Ends (newlineIndent level ++ a) := ⟨_, .inl rfl⟩

theorem ends_dumpsItems (ha : Ends a) : Ends (dumpsItems level vs ++ a) := by
  cases vs with
  | nil => rwa [dumpsItems, List.nil_append]
  | cons v vs => exact ⟨_, .inr (by rw [dumpsItems]; rfl)⟩

theorem ends_dumpsFields {fs : List (String × Json)} (ha : Ends a) :
    Ends (dumpsFields level fs ++ a) := by
  cases fs with
  | nil => rwa [dumpsFields, List.nil_append]
  | cons f fs => exact ⟨_, .inr (by rw [dumpsFields]; rfl)⟩

/-- A text without a line break does not end a value inside a string. -/
theorem not_ends_of_newline_notMem {e : List Char} (he : '\n' ∉ e) : ¬Ends (e ++ '"' :: a) := by
  rintro ⟨u, h | h⟩
  · cases e with
    | nil => cases h
    | cons c cs =>
        rw [List.cons_append, List.cons.injEq] at h
        exact he (h.1 ▸ List.mem_cons_self)
  · match e with
    | [] => cases h
    | [c] => cases h
    | c :: d :: ds =>
        simp only [List.cons_append, List.cons.injEq] at h
        exact he (by simp [h.2.1])

theorem matches_quoted_unique {x : String} {q : List Char} (hq : '"' ∉ q) (hb : Ends b)
    (h : dumpsString x ++ a = '"' :: q ++ ['"'] ++ b) :
    '"' ∉ x.toList ∧ dumpsString x = '"' :: q ++ ['"'] ∧ a = b := by
  have hline := newline_notMem_dumpsString x
  simp only [dumpsString, List.cons_append, List.append_assoc, List.nil_append,
    List.cons.injEq, true_and] at h hline ⊢
  by_cases hbody : '"' ∈ x.toList.flatMap Python.jsonChar
  · -- the pattern would stop at an escaped quotation mark, inside the string
    obtain ⟨e, e', heq, he⟩ := List.eq_append_cons_of_mem hbody
    rw [heq, List.append_assoc, List.cons_append] at h
    obtain ⟨-, rfl⟩ := Separator.cons_append_inj_left he hq h
    refine absurd hb (not_ends_of_newline_notMem ?_)
    intro hmem
    exact hline (by simp [heq, hmem])
  · obtain ⟨rfl, rfl⟩ := Separator.cons_append_inj_left hbody hq h
    exact ⟨by rwa [quote_mem_body] at hbody, rfl, rfl⟩

/-- A scalar the pattern finds where a value starts is the whole value. -/
theorem matches_scalar_unique (hs : Matches scalar s) (ha : Ends a) (hb : Ends b)
    (h : dumps level v ++ a = s ++ b) : isScalar v = true ∧ dumps level v = s ∧ a = b := by
  rcases matches_scalar_cases hs with ⟨q, hq, rfl⟩ | ⟨hne, hchars⟩
  · rcases dumps_cases level v with ⟨x, rfl⟩ | ⟨-, hvne, hvchars⟩ | ⟨-, cs, hcs | hcs⟩
    · rw [dumps] at h ⊢
      obtain ⟨hx, heq, rfl⟩ := matches_quoted_unique hq hb h
      exact ⟨by simpa [isScalar] using hx, heq, rfl⟩
    · obtain ⟨c, cs, hcs⟩ := List.exists_cons_of_ne_nil hvne
      rw [hcs] at h hvchars
      obtain rfl : c = '"' := (List.cons.inj h).1
      exact absurd (hvchars _ List.mem_cons_self) (by decide)
    · rw [hcs] at h
      exact absurd (List.cons.inj h).1 (by decide)
    · rw [hcs] at h
      exact absurd (List.cons.inj h).1 (by decide)
  · obtain ⟨c, cs, rfl⟩ := List.exists_cons_of_ne_nil hne
    have hc := hchars c List.mem_cons_self
    rcases dumps_cases level v with ⟨x, rfl⟩ | ⟨hv, -, hvchars⟩ | ⟨-, ds, hds | hds⟩
    · rw [dumps, dumpsString] at h
      obtain rfl : '"' = c := (List.cons.inj h).1
      exact absurd hc (by decide)
    · obtain ⟨x, u, rfl, hx⟩ := ha.cons
      obtain ⟨y, w, rfl, hy⟩ := hb.cons
      have hstop : ∀ {z : Char}, z = '\n' ∨ z = ',' → ¬isScalarChar z = true := by
        rintro z (rfl | rfl) <;> decide
      obtain ⟨heq, hrest⟩ := Separator.append_inj_of_run hvchars hchars (hstop hx) (hstop hy) h
      exact ⟨hv, heq, hrest⟩
    · rw [hds] at h
      obtain rfl : '[' = c := (List.cons.inj h).1
      exact absurd hc (by decide)
    · rw [hds] at h
      obtain rfl : '\x7b' = c := (List.cons.inj h).1
      exact absurd hc (by decide)

/-! ## The whole pattern -/

theorem matches_opening : Matches opening o ↔
    ∃ w, w ≠ [] ∧ (∀ c ∈ w, Python.isSpace c = true) ∧ o = '[' :: '\n' :: w := by
  simp only [opening, matches_seq, matches_text, matches_spaces]
  constructor
  · rintro ⟨_, w, rfl, ⟨hne, hw⟩, rfl⟩
    exact ⟨w, hne, hw, rfl⟩
  · rintro ⟨w, hne, hw, rfl⟩
    exact ⟨_, w, rfl, ⟨hne, hw⟩, rfl⟩

theorem matches_closing : Matches closing c ↔
    ∃ w, w ≠ [] ∧ (∀ c ∈ w, Python.isSpace c = true) ∧ c = '\n' :: w ++ [']'] := by
  simp only [closing, matches_seq, matches_text, matches_spaces]
  constructor
  · rintro ⟨_, _, rfl, ⟨w, _, ⟨hne, hw⟩, rfl, rfl⟩, rfl⟩
    exact ⟨w, hne, hw, rfl⟩
  · rintro ⟨w, hne, hw, rfl⟩
    exact ⟨_, _, rfl, ⟨w, _, ⟨hne, hw⟩, rfl, rfl⟩, rfl⟩

theorem matches_scalars : Matches scalars g ↔
    ∃ s t, Matches scalar s ∧ g = s ++ t ∧ (t = [] ∨ ∃ w g', w ≠ [] ∧
      (∀ c ∈ w, Python.isSpace c = true) ∧ Matches scalars g' ∧ t = ',' :: '\n' :: w ++ g') := by
  rw [scalars, matches_seq]
  constructor
  · rintro ⟨s, t, hs, ht, rfl⟩
    refine ⟨s, t, hs, rfl, ?_⟩
    rcases matches_star.mp ht with rfl | ⟨x, y, -, hx, hy, rfl⟩
    · exact .inl rfl
    · simp only [matches_seq, matches_text, matches_spaces] at hx
      obtain ⟨_, _, rfl, ⟨w, s', ⟨hne, hw⟩, hs', rfl⟩, rfl⟩ := hx
      exact .inr ⟨w, s' ++ y, hne, hw, .seq hs' hy, by simp⟩
  · rintro ⟨s, t, hs, rfl, rfl | ⟨w, g', hne, hw, hg', rfl⟩⟩
    · exact ⟨s, [], hs, .stop, rfl⟩
    · obtain ⟨s', y, hs', hy, rfl⟩ := matches_seq.mp hg'
      refine ⟨s, _, hs, ?_, rfl⟩
      have hround : Matches (seq (text [',', '\n']) (seq spaces scalar)) (',' :: '\n' :: w ++ s') :=
        .seq (a := [',', '\n']) (matches_text.mpr rfl) (.seq (matches_spaces.mpr ⟨hne, hw⟩) hs')
      simpa using Matches.round (by simp) hround hy

theorem matches_scalars_start (h : Matches scalars g) :
    ∃ c cs, g = c :: cs ∧ Python.isSpace c = false := by
  obtain ⟨s, t, hs, rfl, -⟩ := matches_scalars.mp h
  rcases matches_scalar_cases hs with ⟨q, -, rfl⟩ | ⟨hne, hchars⟩
  · exact ⟨'"', _, rfl, by decide⟩
  · obtain ⟨c, cs, rfl⟩ := List.exists_cons_of_ne_nil hne
    exact ⟨c, _, rfl, not_isSpace_of_isScalarChar (hchars c List.mem_cons_self)⟩

theorem isSpace_of_mem_replicate {n : ℕ} {c : Char} (h : c ∈ List.replicate n ' ') :
    Python.isSpace c = true := by
  rw [List.eq_of_mem_replicate h]
  decide

/-- The indentation in front of a value is all the pattern's `\s+` can take there. -/
theorem indentation_unique {w : List Char} {n : ℕ} (hw : ∀ c ∈ w, Python.isSpace c = true)
    (hg : Matches scalars g)
    (h : List.replicate n ' ' ++ dumps level v ++ a = w ++ g ++ b) :
    List.replicate n ' ' = w ∧ dumps level v ++ a = g ++ b := by
  obtain ⟨c, cs, hcs, hc⟩ := dumps_start level v
  obtain ⟨d, ds, rfl, hd⟩ := matches_scalars_start hg
  rw [hcs, List.append_assoc, List.append_assoc] at h
  have hsplit := Separator.append_inj_of_run (fun _ => isSpace_of_mem_replicate) hw
    (by rw [hc]; decide) (by rw [hd]; decide) h
  exact ⟨hsplit.1, by rw [hcs]; exact hsplit.2⟩

theorem closing_unique {k : ℕ} (hc : Matches closing c)
    (h : newlineIndent k ++ ']' :: a = c ++ z) : newlineIndent k ++ [']'] = c ∧ a = z := by
  obtain ⟨w, -, hw, rfl⟩ := matches_closing.mp hc
  simp only [newlineIndent, List.cons_append, List.append_assoc, List.cons.injEq, true_and,
    List.nil_append] at h ⊢
  obtain ⟨hindent, hrest⟩ :=
    Separator.append_inj_of_run (fun _ => isSpace_of_mem_replicate) hw (by decide) (by decide) h
  exact ⟨by rw [hindent], (List.cons.inj hrest).2⟩

/-- The first scalar of the group is the first item, and what else the group holds is in what
follows that item. -/
theorem matches_first_item (hg : Matches scalars g) (hc : Matches closing c) (ha : Ends a)
    (h : dumps level v ++ a = g ++ c ++ z) :
    isScalar v = true ∧ ∃ t, g = dumps level v ++ t ∧ a = t ++ c ++ z ∧
      (t = [] ∨ ∃ w g', (∀ c ∈ w, Python.isSpace c = true) ∧ Matches scalars g' ∧
        t = ',' :: '\n' :: w ++ g') := by
  obtain ⟨s, t, hs, rfl, ht⟩ := matches_scalars.mp hg
  have hends : Ends (t ++ c ++ z) := by
    rcases ht with rfl | ⟨w, g', -, -, -, rfl⟩
    · obtain ⟨w, -, -, rfl⟩ := matches_closing.mp hc
      exact ⟨_, .inl rfl⟩
    · exact ⟨_, .inr rfl⟩
  obtain ⟨hv, rfl, rfl⟩ := matches_scalar_unique hs ha hends (by simpa using h)
  refine ⟨hv, t, rfl, rfl, ht.imp_right ?_⟩
  rintro ⟨w, g', -, hw, hg', rfl⟩
  exact ⟨w, g', hw, hg', rfl⟩

theorem matches_scalars_unique {k : ℕ} (hg : Matches scalars g) (hc : Matches closing c)
    (h : dumps level v ++ (dumpsItems level vs ++ (newlineIndent k ++ ']' :: a)) = g ++ c ++ z) :
    (∀ u ∈ v :: vs, isScalar u = true) ∧ dumps level v ++ dumpsItems level vs = g ∧
      newlineIndent k ++ [']'] = c ∧ a = z := by
  induction vs generalizing v g with
  | nil =>
      obtain ⟨hv, t, rfl, hrest, ht⟩ :=
        matches_first_item hg hc (ends_dumpsItems ends_newlineIndent) h
      rw [dumpsItems, List.nil_append] at hrest
      rcases ht with rfl | ⟨w, g', -, -, rfl⟩
      · obtain ⟨rfl, rfl⟩ := closing_unique hc hrest
        simp [hv, dumpsItems]
      · cases hrest
  | cons v' vs ih =>
      obtain ⟨hv, t, rfl, hrest, ht⟩ :=
        matches_first_item hg hc (ends_dumpsItems ends_newlineIndent) h
      rw [dumpsItems] at hrest
      rcases ht with rfl | ⟨w, g', hw, hg', rfl⟩
      · obtain ⟨w, -, -, rfl⟩ := matches_closing.mp hc
        cases hrest
      · have hitem : List.replicate (2 * level) ' ' ++ dumps level v' ++
            (dumpsItems level vs ++ (newlineIndent k ++ ']' :: a)) = w ++ g' ++ (c ++ z) := by
          simpa [newlineIndent] using hrest
        obtain ⟨rfl, htail⟩ := indentation_unique hw hg' hitem
        obtain ⟨hvs, rfl, rfl, rfl⟩ := ih hg' (by simpa using htail)
        exact ⟨List.forall_mem_cons.mpr ⟨hv, hvs⟩, by simp [dumpsItems, newlineIndent], rfl, rfl⟩

/-- The group of an array all of whose items are scalars. -/
theorem matches_scalars_dumps (h : ∀ u ∈ v :: vs, isScalar u = true) :
    Matches scalars (dumps (level + 1) v ++ dumpsItems (level + 1) vs) := by
  induction vs generalizing v with
  | nil =>
      have hv : Matches scalar (dumps (level + 1) v) := matches_dumps (h v List.mem_cons_self)
      exact matches_scalars.mpr ⟨_, [], hv, by rw [dumpsItems], .inl rfl⟩
  | cons v' vs ih =>
      rw [List.forall_mem_cons] at h
      refine matches_scalars.mpr ⟨_, _, matches_dumps h.1, rfl, .inr ?_⟩
      exact ⟨List.replicate (2 * (level + 1)) ' ', _, by simp, fun _ => isSpace_of_mem_replicate,
        ih h.2, by simp [dumpsItems, newlineIndent]⟩

/-! ## The matches in a config -/

theorem matches_of_matchArray {m : Match} (h : matchArray t = some m) :
    ∃ o g c z, Matches opening o ∧ Matches scalars g ∧ Matches closing c ∧
      t = o ++ g ++ c ++ z ∧ m = ⟨o ++ g ++ c, g⟩ := by
  have hmem := List.mem_of_head? h
  simp only [List.mem_flatMap, List.mem_map, Prod.exists, mem_splits] at hmem
  obtain ⟨o, _, ⟨rfl, ho⟩, g, _, ⟨rfl, hg⟩, c, z, ⟨rfl, hc⟩, rfl⟩ := hmem
  exact ⟨o, g, c, z, ho, hg, hc, by simp, rfl⟩

theorem matchArray_isSome (ho : Matches opening o) (hg : Matches scalars g)
    (hc : Matches closing c) : (matchArray (o ++ g ++ c ++ z)).isSome = true := by
  rw [matchArray, List.isSome_head?]
  refine List.ne_nil_of_mem (a := ⟨o ++ g ++ c, g⟩) ?_
  simp only [List.mem_flatMap, List.mem_map, Prod.exists, mem_splits]
  exact ⟨o, g ++ c ++ z, ⟨by simp, ho⟩, g, c ++ z, ⟨by simp, hg⟩, c, z, ⟨rfl, hc⟩, rfl⟩

/-- A match begins with an opening bracket at the end of a line. -/
theorem matchArray_start {m : Match} (h : matchArray t = some m) : ∃ u, t = '[' :: '\n' :: u := by
  obtain ⟨o, g, c, z, ho, -, -, rfl, -⟩ := matches_of_matchArray h
  obtain ⟨w, -, -, rfl⟩ := matches_opening.mp ho
  exact ⟨_, rfl⟩

/-- The match that is an array as a whole, its group the items. -/
def arrayMatch (level : ℕ) (v : Json) (vs : List Json) : Match :=
  ⟨dumps level (.arr (v :: vs)), dumps (level + 1) v ++ dumpsItems (level + 1) vs⟩

theorem matchArray_arr_eq {m : Match}
    (h : matchArray (dumps level (.arr (v :: vs)) ++ a) = some m) :
    (∀ u ∈ v :: vs, isScalar u = true) ∧ m = arrayMatch level v vs := by
  obtain ⟨o, g, c, z, ho, hg, hc, htext, rfl⟩ := matches_of_matchArray h
  obtain ⟨w, -, hw, rfl⟩ := matches_opening.mp ho
  have hgroup : List.replicate (2 * (level + 1)) ' ' ++ dumps (level + 1) v ++
      (dumpsItems (level + 1) vs ++ (newlineIndent level ++ ']' :: a)) = w ++ g ++ (c ++ z) := by
    simpa [dumps, newlineIndent] using htext
  obtain ⟨rfl, hitems⟩ := indentation_unique hw hg hgroup
  obtain ⟨hall, rfl, rfl, rfl⟩ := matches_scalars_unique hg hc (by simpa using hitems)
  exact ⟨hall, by simp [arrayMatch, dumps, newlineIndent]⟩

/-- An array of scalars inside the config is matched as a whole. -/
theorem matchArray_arr (hlevel : 0 < level) (h : ∀ u ∈ v :: vs, isScalar u = true) :
    matchArray (dumps level (.arr (v :: vs)) ++ a) = some (arrayMatch level v vs) := by
  have ho : Matches opening ('[' :: newlineIndent (level + 1)) :=
    matches_opening.mpr ⟨_, by simp, fun _ => isSpace_of_mem_replicate, rfl⟩
  have hc : Matches closing (newlineIndent level ++ [']']) :=
    matches_closing.mpr ⟨_, by simp; omega, fun _ => isSpace_of_mem_replicate, rfl⟩
  have hg : Matches scalars (dumps (level + 1) v ++ dumpsItems (level + 1) vs) :=
    matches_scalars_dumps h
  have hsome := matchArray_isSome (z := a) ho hg hc
  have htext : '[' :: newlineIndent (level + 1) ++
      (dumps (level + 1) v ++ dumpsItems (level + 1) vs) ++ (newlineIndent level ++ [']']) ++ a =
        dumps level (.arr (v :: vs)) ++ a := by
    simp [dumps]
  rw [htext] at hsome
  obtain ⟨m, hm⟩ := Option.isSome_iff_exists.mp hsome
  rw [hm, (matchArray_arr_eq hm).2]

end HexRift
