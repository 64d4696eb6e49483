import Mathlib.Algebra.Order.BigOperators.Group.List
import Mathlib.Algebra.Ring.Int.Defs
import Mathlib.Data.Int.Order.Basic
import Mathlib.Data.List.Nodup
import Mathlib.Tactic.Common

/-! # Elements told apart by a key

A list whose keys are distinct has one element for each of its keys. Any other list is thinned
out to its first element of each key. -/

namespace Distinct

variable {α κ : Type*} [DecidableEq κ] {key : α → κ}

/-- Among distinct keys, exactly one element has the key of a member. -/
theorem filter_key_eq_singleton {xs : List α} (hnodup : (xs.map key).Nodup) {x : α}
    (hx : x ∈ xs) : xs.filter (fun y => key y = key x) = [x] := by
  induction xs with
  | nil => cases hx
  | cons y ys ih =>
      rw [List.map_cons, List.nodup_cons] at hnodup
      by_cases hkey : key y = key x
      · have hnone : ys.filter (fun z => key z = key x) = [] := by
          simp only [List.filter_eq_nil_iff, decide_eq_true_eq]
          intro z hz hzx
          apply hnodup.1
          rw [hkey, ← hzx]
          exact List.mem_map_of_mem hz
        have hself : x = y := by
          apply (List.mem_cons.mp hx).resolve_right
          intro hmem
          apply hnodup.1
          rw [hkey]
          exact List.mem_map_of_mem hmem
        subst hself
        simp [hnone]
      · have hmem : x ∈ ys := by
          apply (List.mem_cons.mp hx).resolve_left
          rintro rfl
          exact hkey rfl
        simp [hkey, ih hnodup.2 hmem]

/-- The last element with the key of `x` is `x` when no element after it has its key. -/
theorem find?_reverse_eq_some_iff {xs : List α} {x : α} :
    xs.reverse.find? (fun y => key y = key x) = some x ↔
      ∃ before after, xs = before ++ x :: after ∧ ∀ y ∈ after, key y ≠ key x := by
  rw [List.find?_eq_some_iff_append]
  simp only [decide_true, true_and, Bool.not_eq_true', decide_eq_false_iff_not]
  constructor
  · intro ⟨after, before, hxs, hafter⟩
    refine ⟨before.reverse, after.reverse, ?_, fun y hy => hafter y (List.mem_reverse.mp hy)⟩
    have hrev := congrArg List.reverse hxs
    simpa using hrev
  · intro ⟨before, after, hxs, hafter⟩
    refine ⟨after.reverse, before.reverse, ?_, fun y hy => hafter y (List.mem_reverse.mp hy)⟩
    simp [hxs]

/-! ## First of each key -/

/-- The elements whose key is neither in `seen` nor that of an earlier element. -/
def firstBy (key : α → κ) (seen : List κ) : List α → List α
  | [] => []
  | x :: xs =>
      if key x ∈ seen then firstBy key seen xs
      else x :: firstBy key (key x :: seen) xs

variable {seen : List κ} {xs : List α} {x y : α}

@[simp] theorem firstBy_nil : firstBy key seen [] = [] := rfl

theorem firstBy_cons_of_mem (h : key x ∈ seen) :
    firstBy key seen (x :: xs) = firstBy key seen xs := by
  simp [firstBy, h]

theorem firstBy_cons_of_not_mem (h : key x ∉ seen) :
    firstBy key seen (x :: xs) = x :: firstBy key (key x :: seen) xs := by
  simp [firstBy, h]

/-- A kept element is the first of its key, and the key has not been seen. -/
theorem find?_of_mem_firstBy (h : x ∈ firstBy key seen xs) :
    key x ∉ seen ∧ xs.find? (fun y => key y = key x) = some x := by
  induction xs generalizing seen with
  | nil => simp at h
  | cons y ys ih =>
      by_cases hseen : key y ∈ seen
      · rw [firstBy_cons_of_mem hseen] at h
        obtain ⟨hnot, hfind⟩ := ih h
        have hne : key y ≠ key x := fun heq => hnot (heq ▸ hseen)
        simp [hnot, hne, hfind]
      · rw [firstBy_cons_of_not_mem hseen, List.mem_cons] at h
        rcases h with rfl | h
        · simp [hseen]
        · obtain ⟨hnot, hfind⟩ := ih h
          rw [List.mem_cons, not_or] at hnot
          have hne : key y ≠ key x := fun heq => hnot.1 heq.symm
          simp [hnot.2, hne, hfind]

theorem mem_of_mem_firstBy (h : x ∈ firstBy key seen xs) : x ∈ xs :=
  List.mem_of_find?_eq_some (find?_of_mem_firstBy h).2

/-- Every key that has not been seen is the key of a kept element. -/
theorem exists_mem_firstBy (hx : x ∈ xs) (hseen : key x ∉ seen) :
    ∃ y ∈ firstBy key seen xs, key y = key x := by
  induction xs generalizing seen with
  | nil => cases hx
  | cons z zs ih =>
      by_cases hz : key z ∈ seen
      · have hmem : x ∈ zs := by
          apply (List.mem_cons.mp hx).resolve_left
          rintro rfl
          exact hseen hz
        rw [firstBy_cons_of_mem hz]
        exact ih hmem hseen
      · rw [firstBy_cons_of_not_mem hz]
        by_cases hkey : key z = key x
        · exact ⟨z, List.mem_cons_self, hkey⟩
        · have hmem : x ∈ zs := by
            apply (List.mem_cons.mp hx).resolve_left
            rintro rfl
            exact hkey rfl
          have hnot : key x ∉ key z :: seen := by
            simp [hseen, Ne.symm hkey]
          obtain ⟨y, hy, heq⟩ := ih hmem hnot
          exact ⟨y, List.mem_cons_of_mem z hy, heq⟩

/-! ## Two readings -/

section Readings

variable {f g : α → Option ℤ} {xs : List α}

/-- What an element counts: nothing where there is no number. -/
def weight (o : Option ℤ) : ℤ := (o.map (· + 1)).getD 0

@[simp] theorem weight_none : weight none = 0 := rfl

@[simp] theorem weight_some (n : ℤ) : weight (some n) = n + 1 := rfl

theorem sum_weight : (xs.map fun x => weight (f x)).sum = ((xs.filterMap f).map (· + 1)).sum := by
  induction xs with
  | nil => rfl
  | cons x xs ih =>
      cases h : f x with
      | none => rw [List.map_cons, List.sum_cons, List.filterMap_cons_none h, ih, h, weight_none,
          zero_add]
      | some n => rw [List.map_cons, List.sum_cons, List.filterMap_cons_some h, List.map_cons,
          List.sum_cons, ih, h, weight_some]

/-- A reading that goes below another is the same where both collect the same distinct
numbers. -/
theorem mem_filterMap_iff_iff_eq (hnodup : (xs.filterMap g).Nodup)
    (hnonneg : ∀ x ∈ xs, ∀ m, g x = some m → 0 ≤ m)
    (hle : ∀ x ∈ xs, ∀ n m, f x = some n → g x = some m → n ≤ m)
    (hnone : ∀ x ∈ xs, g x = none → f x = none) :
    (∀ n, n ∈ xs.filterMap f ↔ n ∈ xs.filterMap g) ↔ ∀ x ∈ xs, f x = g x := by
  have hweight : ∀ x ∈ xs, weight (f x) ≤ weight (g x) ∧
      (weight (f x) = weight (g x) → f x = g x) := by
    intro x hx
    cases hg : g x with
    | none => simp [hnone x hx hg]
    | some m =>
        have hm := hnonneg x hx m hg
        cases hf : f x with
        | none =>
            simp only [weight_none, weight_some]
            omega
        | some n =>
            have hn := hle x hx n m hf hg
            simp only [weight_some, Option.some.injEq]
            omega
  constructor
  · intro hmem
    have hlength : (xs.filterMap f).length ≤ (xs.filterMap g).length := by
      rw [List.length_filterMap_eq_countP, List.length_filterMap_eq_countP]
      refine List.countP_mono_left fun x hx hsome => ?_
      cases hg : g x with
      | none => simp [hnone x hx hg] at hsome
      | some m => rfl
    have hsubperm := List.subperm_of_subset hnodup fun n hn => (hmem n).mpr hn
    have hperm := hsubperm.perm_of_length_le hlength
    have hsum := (hperm.map (· + 1)).sum_eq
    rw [← sum_weight, ← sum_weight] at hsum
    by_contra hne
    push Not at hne
    obtain ⟨x, hx, hne⟩ := hne
    have hlt := List.sum_lt_sum (fun x => weight (f x)) (fun x => weight (g x))
      (fun x hx => (hweight x hx).1)
      ⟨x, hx, lt_of_le_of_ne (hweight x hx).1 fun heq => hne ((hweight x hx).2 heq)⟩
    omega
  · intro heq n
    rw [List.filterMap_congr heq]

end Readings

end Distinct
