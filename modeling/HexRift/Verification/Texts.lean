import HexRift.Library.Separator
import HexRift.Model.Python
import Mathlib.Data.List.TakeWhile

/-! # Text operations

What the built-in operations give on texts of a known shape. -/

namespace HexRift.Python

/-! ## Splitting at a character -/

theorem partition_append {sep : Char} {a b : List Char} (h : sep ∉ a) :
    partition sep (a ++ sep :: b) = some (a, b) := by
  induction a with
  | nil => simp [partition]
  | cons c cs ih =>
      have hc : c ≠ sep := fun heq => h (heq ▸ List.mem_cons_self)
      rw [List.cons_append, partition, if_neg hc, ih fun hmem => h (List.mem_cons_of_mem c hmem)]
      rfl

theorem partition_eq_none {sep : Char} {a : List Char} (h : sep ∉ a) : partition sep a = none := by
  induction a with
  | nil => rfl
  | cons c cs ih =>
      have hc : c ≠ sep := fun heq => h (heq ▸ List.mem_cons_self)
      rw [partition, if_neg hc, ih fun hmem => h (List.mem_cons_of_mem c hmem)]
      rfl

theorem partition_eq_some {sep : Char} {text a b : List Char}
    (h : partition sep text = some (a, b)) : text = a ++ sep :: b ∧ sep ∉ a := by
  induction text generalizing a with
  | nil => cases h
  | cons c cs ih =>
      rw [partition] at h
      split at h
      · rename_i hc
        cases h
        exact ⟨by rw [hc]; rfl, List.not_mem_nil⟩
      · rename_i hc
        rw [Option.map_eq_some_iff] at h
        obtain ⟨⟨a', b'⟩, hrest, heq⟩ := h
        cases heq
        obtain ⟨rfl, hmem⟩ := ih hrest
        exact ⟨rfl, List.not_mem_cons_of_ne_of_not_mem (Ne.symm hc) hmem⟩

theorem not_mem_of_rpartition {sep : Char} {text : List Char} (h : rpartition sep text = none) :
    sep ∉ text := by
  intro hmem
  induction text with
  | nil => cases hmem
  | cons c cs ih =>
      rw [rpartition] at h
      cases hrest : rpartition sep cs with
      | some p =>
          rw [hrest] at h
          cases h
      | none =>
          simp only [hrest, ite_eq_right_iff, reduceCtorEq, imp_false] at h
          rcases List.mem_cons.mp hmem with heq | hmem
          · exact h heq.symm
          · exact ih hrest hmem

theorem rpartition_eq_some {sep : Char} {text a b : List Char}
    (h : rpartition sep text = some (a, b)) : text = a ++ sep :: b ∧ sep ∉ b := by
  induction text generalizing a with
  | nil => cases h
  | cons c cs ih =>
      rw [rpartition] at h
      cases hrest : rpartition sep cs with
      | some p =>
          rw [hrest] at h
          cases h
          obtain ⟨rfl, hmem⟩ := ih (a := p.1) hrest
          exact ⟨rfl, hmem⟩
      | none =>
          simp only [hrest] at h
          split at h
          · rename_i hc
            cases h
            exact ⟨by rw [hc]; rfl, not_mem_of_rpartition hrest⟩
          · cases h

theorem rpartition_append_cons {sep : Char} {a b : List Char} (hb : sep ∉ b) :
    rpartition sep (a ++ sep :: b) = some (a, b) := by
  have happend := rpartition_append (a := a ++ [sep]) hb
  rwa [rpartition_append_sep, List.append_assoc] at happend

theorem rpartition_eq_none {sep : Char} {a : List Char} (h : sep ∉ a) :
    rpartition sep a = none := by
  have happend := rpartition_append (a := []) h
  rwa [List.nil_append] at happend

/-! ## Characters -/

theorem isAlphanum_iff {c : Char} :
    c.isAlphanum = true ↔ (0x41 ≤ c.toNat ∧ c.toNat ≤ 0x5a) ∨ (0x61 ≤ c.toNat ∧ c.toNat ≤ 0x7a) ∨
      (0x30 ≤ c.toNat ∧ c.toNat ≤ 0x39) := by
  change ((decide (c.val ≥ 'A'.val ∧ c.val ≤ 'Z'.val) ||
    (decide (c.val ≥ 'a'.val) && decide (c.val ≤ 'z'.val))) || c.isDigit) = true ↔ _
  simp only [Bool.or_eq_true, Bool.and_eq_true, decide_eq_true_eq, ge_iff_le,
    UInt32.le_iff_toNat_le, Char.isDigit_iff_toNat, or_assoc]
  rfl

/-! ## Numerals -/

theorem decimal?_eq_some {c : Char} (h : c.isDigit = true) :
    decimal? c = some (c.toNat - 0x30) := by
  have hrange : 0x30 ≤ c.toNat ∧ c.toNat < 0x30 + 10 := by
    rw [Char.isDigit_iff_toNat] at h
    exact ⟨h.1, Nat.lt_succ_of_le h.2⟩
  simp [decimal?, decimalZeros, hrange]

theorem intDigits_of_isDigit {s : List Char} (h : ∀ c ∈ s, c.isDigit = true) (acc : ℕ) :
    intDigits acc true s = some (Nat.ofDigitChars 10 s acc) := by
  induction s generalizing acc with
  | nil => rfl
  | cons c cs ih =>
      have hc := h c List.mem_cons_self
      have hunderscore : c ≠ '_' := fun heq => by
        rw [heq] at hc
        exact absurd hc (by decide)
      rw [intDigits, if_neg hunderscore, decimal?_eq_some hc]
      simp only
      rw [ih fun d hd => h d (List.mem_cons_of_mem c hd), Nat.ofDigitChars_cons, Nat.mul_comm]
      rfl

theorem strip_of_not_isSpace {s : List Char} (h : ∀ c ∈ s, isSpace c = false) : strip s = s := by
  have hdrop : ∀ t : List Char, (∀ c ∈ t, isSpace c = false) → t.dropWhile isSpace = t := by
    intro t ht
    cases t with
    | nil => rfl
    | cons c cs => rw [List.dropWhile_cons_of_neg (by simp [ht c List.mem_cons_self])]
  rw [strip, lstrip, hdrop s h, rstrip, hdrop s.reverse, List.reverse_reverse]
  exact fun c hc => h c (List.mem_reverse.mp hc)

theorem isSpace_of_strip_eq_nil {s : List Char} (h : strip s = []) : ∀ c ∈ s, isSpace c = true := by
  rw [strip, rstrip, List.reverse_eq_nil_iff, List.dropWhile_eq_nil_iff] at h
  intro c hc
  rw [← List.takeWhile_append_dropWhile (p := isSpace) (l := s), List.mem_append] at hc
  rcases hc with hc | hc
  · exact List.mem_takeWhile_imp hc
  · exact h c (List.mem_reverse.mpr hc)

theorem isSpace_of_decimal {c : Char} (h : (decimal? c).isSome = true) : isSpace c = false := by
  have hdecimals : ∀ first ∈ decimalZeros, ∀ i < 10, isSpace (Char.ofNat (first + i)) = false := by
    decide +kernel
  rw [decimal?, Option.isSome_map, List.find?_isSome] at h
  obtain ⟨first, hfirst, hrange⟩ := h
  rw [decide_eq_true_eq] at hrange
  have hc := hdecimals first hfirst (c.toNat - first) (by omega)
  rwa [Nat.add_sub_cancel' hrange.1, Char.ofNat_toNat] at hc

theorem isSpace_of_isDigit {c : Char} (h : c.isDigit = true) : isSpace c = false :=
  isSpace_of_decimal (by rw [decimal?_eq_some h]; rfl)

theorem int_of_isDigit {s : List Char} (hne : s ≠ []) (h : ∀ c ∈ s, c.isDigit = true) :
    int s = some (Nat.ofDigitChars 10 s 0 : ℤ) := by
  have hstrip := strip_of_not_isSpace fun c hc => isSpace_of_isDigit (h c hc)
  cases s with
  | nil => exact absurd rfl hne
  | cons c cs =>
      have hc := h c List.mem_cons_self
      have hsign : ∀ d : Char, d.isDigit = false → c ≠ d := fun d hd heq => by
        rw [heq, hd] at hc
        cases hc
      have hrun : intDigits 0 false (c :: cs) = some (Nat.ofDigitChars 10 (c :: cs) 0) := by
        rw [intDigits, if_neg (hsign '_' (by decide)), decimal?_eq_some hc]
        simp only
        rw [intDigits_of_isDigit fun d hd => h d (List.mem_cons_of_mem c hd),
          Nat.ofDigitChars_cons]
        rfl
      rw [int, hstrip]
      split
      · rename_i heq
        exact absurd (List.cons.inj heq).1 (hsign '-' (by decide))
      · rename_i heq
        exact absurd (List.cons.inj heq).1 (hsign '+' (by decide))
      · rw [hrun]
        rfl

theorem int_toString (n : ℕ) : int (toString n).toList = some (n : ℤ) := by
  have hvalue : Nat.ofDigitChars 10 (toString n).toList 0 = n := by
    rw [show (toString n).toList = Nat.toDigits 10 n from Nat.toList_repr]
    simp
  rw [int_of_isDigit (Separator.toString_ne_empty n) fun c hc => Separator.isDigit_toString hc,
    hvalue]

end HexRift.Python
