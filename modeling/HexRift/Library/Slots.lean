import Mathlib.Data.List.Basic
import Mathlib.Tactic.Common

/-! # Insertion behind the last element of a class

An element goes behind the last one of a class, and in front of everything where there is none.
The list need not be sorted. -/

namespace Slots

variable {α β : Type} {p q : α → Bool} {x y : α} {xs : List α}

/-- How many elements go up to the last one of the class. -/
def slot (p : α → Bool) : List α → ℕ
  | [] => 0
  | x :: xs => if slot p xs = 0 then (if p x then 1 else 0) else slot p xs + 1

def insert (p : α → Bool) (y : α) (xs : List α) : List α :=
  xs.take (slot p xs) ++ y :: xs.drop (slot p xs)

@[simp] theorem slot_nil (p : α → Bool) : slot p [] = 0 := rfl

theorem slot_le_length (p : α → Bool) (xs : List α) : slot p xs ≤ xs.length := by
  induction xs with
  | nil => exact Nat.le_refl 0
  | cons x xs ih =>
      rw [slot, List.length_cons]
      split_ifs
      all_goals omega

theorem slot_eq_zero_iff : slot p xs = 0 ↔ ∀ x ∈ xs, p x = false := by
  induction xs with
  | nil => simp
  | cons x xs ih =>
      rw [slot, List.forall_mem_cons, ← ih]
      by_cases hxs : slot p xs = 0
      · simp [hxs]
      · simp [hxs]

theorem slot_map (f : β → α) (xs : List β) : slot p (xs.map f) = slot (fun b => p (f b)) xs := by
  induction xs with
  | nil => rfl
  | cons x xs ih => rw [List.map_cons, slot, slot, ih]

theorem mem_insert {z : α} : z ∈ insert p y xs ↔ z = y ∨ z ∈ xs := by
  have hsplit : z ∈ xs ↔ z ∈ xs.take (slot p xs) ∨ z ∈ xs.drop (slot p xs) := by
    rw [← List.mem_append, List.take_append_drop]
  rw [insert, List.mem_append, List.mem_cons, hsplit]
  exact or_left_comm

theorem slot_ne_zero_of_mem (hx : x ∈ xs) (hp : p x = true) : slot p xs ≠ 0 := by
  intro h
  rw [slot_eq_zero_iff.mp h x hx] at hp
  cases hp

theorem getElem?_insert_slot : (insert p y xs)[slot p xs]? = some y := by
  rw [insert, List.getElem?_append_right (List.length_take_le _ _),
    List.length_take_of_le (slot_le_length p xs), Nat.sub_self]
  rfl

/-- Elsewhere stand the elements that were there. -/
theorem mem_of_getElem?_insert {z : α} {i : ℕ} (h : (insert p y xs)[i]? = some z)
    (hne : i ≠ slot p xs) : z ∈ xs := by
  have hlength := List.length_take_of_le (slot_le_length p xs)
  rw [insert] at h
  rcases Nat.lt_or_gt_of_ne hne with hlt | hgt
  · rw [List.getElem?_append_left (by omega)] at h
    exact List.mem_of_mem_take (List.mem_of_getElem? h)
  · obtain ⟨k, hk⟩ : ∃ k, i - slot p xs = k + 1 := ⟨i - slot p xs - 1, by omega⟩
    rw [List.getElem?_append_right (by omega), hlength, hk, List.getElem?_cons_succ] at h
    exact List.mem_of_mem_drop (List.mem_of_getElem? h)

theorem slot_of_getLast?_none (h : (xs.filter p).getLast? = none) : slot p xs = 0 := by
  rw [List.getLast?_eq_none_iff, List.filter_eq_nil_iff] at h
  exact slot_eq_zero_iff.mpr fun z hz => Bool.not_eq_true _ ▸ h z hz

/-- The slot lies behind the last member of the class. -/
theorem slot_of_getLast?_some (h : (xs.filter p).getLast? = some x) :
    ∃ k, xs[k]? = some x ∧ slot p xs = k + 1 := by
  induction xs with
  | nil => cases h
  | cons a xs ih =>
      by_cases hzero : slot p xs = 0
      · have hnil : xs.filter p = [] := by
          rw [List.filter_eq_nil_iff]
          exact fun z hz hpz => slot_ne_zero_of_mem hz hpz hzero
        rw [List.filter_cons, hnil] at h
        by_cases hpa : p a = true
        · rw [if_pos hpa] at h
          cases h
          exact ⟨0, rfl, by rw [slot, if_pos hzero, if_pos hpa]⟩
        · rw [if_neg hpa] at h
          cases h
      · have hlast : (xs.filter p).getLast? = some x := by
          cases hrest : (xs.filter p).getLast? with
          | none => exact absurd (slot_of_getLast?_none hrest) hzero
          | some z =>
              rw [List.filter_cons] at h
              split_ifs at h
              · rwa [List.getLast?_cons, hrest] at h
              · rwa [hrest] at h
        obtain ⟨k, hk, hslot⟩ := ih hlast
        exact ⟨k + 1, hk, by rw [slot, if_neg hzero, hslot]⟩

end Slots
