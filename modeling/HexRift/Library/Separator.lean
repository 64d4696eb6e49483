import Mathlib.Data.List.Flatten
import Mathlib.Data.List.Nodup
import Mathlib.Data.String.Basic
import Mathlib.Tactic.Common

/-! # Texts joined at a separator

A text built from parts and a separator is split again at its first or last separator,
whichever side is free of it. -/

namespace Separator

/-! ## Lists -/

section Lists

variable {α : Type} {sep : α} {a b a' b' : List α}

/-- Splitting behind the longest run of elements of one class. -/
theorem append_inj_of_run {p : α → Prop} {x x' : α} (ha : ∀ c ∈ a, p c) (ha' : ∀ c ∈ a', p c)
    (hx : ¬p x) (hx' : ¬p x') (h : a ++ x :: b = a' ++ x' :: b') : a = a' ∧ x :: b = x' :: b' := by
  induction a generalizing a' with
  | nil =>
      cases a' with
      | nil => exact ⟨rfl, h⟩
      | cons c cs =>
          simp only [List.nil_append, List.cons_append, List.cons.injEq] at h
          exact absurd (h.1 ▸ ha' c List.mem_cons_self) hx
  | cons c cs ih =>
      cases a' with
      | nil =>
          simp only [List.nil_append, List.cons_append, List.cons.injEq] at h
          exact absurd (h.1 ▸ ha c List.mem_cons_self) hx'
      | cons d ds =>
          simp only [List.cons_append, List.cons.injEq] at h
          obtain ⟨hcs, hb⟩ := ih (fun e he => ha e (List.mem_cons_of_mem c he))
            (fun e he => ha' e (List.mem_cons_of_mem d he)) h.2
          exact ⟨by rw [h.1, hcs], hb⟩

/-- Splitting at the first separator. -/
theorem cons_append_inj_left (ha : sep ∉ a) (ha' : sep ∉ a')
    (h : a ++ sep :: b = a' ++ sep :: b') : a = a' ∧ b = b' := by
  have hne : ∀ {l : List α}, sep ∉ l → ∀ c ∈ l, c ≠ sep := fun hl c hc heq => hl (heq ▸ hc)
  obtain ⟨ha, hb⟩ := append_inj_of_run (p := (· ≠ sep)) (hne ha) (hne ha') (by simp) (by simp) h
  exact ⟨ha, (List.cons.inj hb).2⟩

/-- Splitting at the last separator. -/
theorem cons_append_inj_right (hb : sep ∉ b) (hb' : sep ∉ b')
    (h : a ++ sep :: b = a' ++ sep :: b') : a = a' ∧ b = b' := by
  have hrev : b.reverse ++ sep :: a.reverse = b'.reverse ++ sep :: a'.reverse := by
    simpa using congrArg List.reverse h
  obtain ⟨hb, ha⟩ := cons_append_inj_left (by simpa using hb) (by simpa using hb') hrev
  exact ⟨List.reverse_injective ha, List.reverse_injective hb⟩

end Lists

/-! ## Strings -/

section Strings

variable {sep : Char} {a b a' b' : String}

theorem append_inj_left (ha : sep ∉ a.toList) (ha' : sep ∉ a'.toList)
    (h : a ++ String.singleton sep ++ b = a' ++ String.singleton sep ++ b') :
    a = a' ∧ b = b' := by
  have hlist := congrArg String.toList h
  simp only [String.toList_append, String.toList_singleton, List.append_assoc,
    List.singleton_append] at hlist
  obtain ⟨hl, hr⟩ := cons_append_inj_left ha ha' hlist
  exact ⟨String.toList_inj.mp hl, String.toList_inj.mp hr⟩

theorem append_inj_right (hb : sep ∉ b.toList) (hb' : sep ∉ b'.toList)
    (h : a ++ String.singleton sep ++ b = a' ++ String.singleton sep ++ b') :
    a = a' ∧ b = b' := by
  have hlist := congrArg String.toList h
  simp only [String.toList_append, String.toList_singleton, List.append_assoc,
    List.singleton_append] at hlist
  obtain ⟨hl, hr⟩ := cons_append_inj_right hb hb' hlist
  exact ⟨String.toList_inj.mp hl, String.toList_inj.mp hr⟩

/-! ## Decimal numerals -/

theorem isDigit_toString {n : ℕ} {c : Char} (h : c ∈ (toString n).toList) : c.isDigit = true :=
  Nat.isDigit_of_mem_toDigits (by decide) (by decide) (Nat.toList_repr ▸ h)

theorem toString_ne_empty (n : ℕ) : (toString n).toList ≠ [] := by
  intro h
  have hrepr : Nat.toDigits 10 n = [] := by
    rw [← Nat.toList_repr]
    exact h
  simp at hrepr

theorem toString_injective {m n : ℕ} (h : toString m = toString n) : m = n := by
  have hdigits : Nat.toDigits 10 m = Nat.toDigits 10 n := by
    rw [← Nat.toList_repr, ← Nat.toList_repr]
    exact congrArg String.toList h
  have hvalue := congrArg (fun cs => Nat.ofDigitChars 10 cs 0) hdigits
  simpa using hvalue

end Strings

end Separator
