import Mathlib.Data.List.Basic
import Mathlib.Tactic.Common

/-! # First match, in order and by passes

A list of entries can be searched in order, or pass by pass, each pass taking up only some of
the entries. The two searches agree unless an entry of an earlier pass overtakes the first
match. -/

namespace Passes

variable {α β κ : Type*}

/-- The first entry that is hit in some pass. -/
def inOrder (passes : List κ) (hit : κ → α → Bool) (entries : List α) : Option α :=
  entries.find? fun x => passes.any fun k => hit k x

/-- The first entry of the first pass that hits one. -/
def byPasses (passes : List κ) (hit : κ → α → Bool) (entries : List α) : Option α :=
  passes.findSome? fun k => entries.find? (hit k)

/-- The first pass that hits an entry. -/
def earliest (passes : List κ) (hit : κ → α → Bool) (entries : List α) : Option κ :=
  passes.find? fun k => entries.any (hit k)

variable {passes : List κ} {hit : κ → α → Bool} {entries : List α}

theorem byPasses_eq_bind :
    byPasses passes hit entries =
      (earliest passes hit entries).bind fun k => entries.find? (hit k) := by
  induction passes with
  | nil => rfl
  | cons k ks ih =>
      simp only [byPasses, earliest, List.findSome?_cons, List.find?_cons] at ih ⊢
      cases hfind : entries.find? (hit k) with
      | some x =>
          have hany : entries.any (hit k) = true :=
            List.any_eq_true.mpr ⟨x, List.mem_of_find?_eq_some hfind, List.find?_some hfind⟩
          simp [hany, hfind]
      | none =>
          have hany : entries.any (hit k) = false := by
            simpa using hfind
          simpa [hany] using ih

theorem earliest_isSome : (earliest passes hit entries).isSome =
    (inOrder passes hit entries).isSome := by
  rw [Bool.eq_iff_iff, earliest, inOrder, List.find?_isSome, List.find?_isSome]
  simp only [List.any_eq_true]
  constructor
  · rintro ⟨k, hk, x, hx, hhit⟩
    exact ⟨x, hx, k, hk, hhit⟩
  · rintro ⟨x, hx, k, hk, hhit⟩
    exact ⟨k, hk, x, hx, hhit⟩

theorem find?_isSome_of_earliest {k : κ} (hk : earliest passes hit entries = some k) :
    (entries.find? (hit k)).isSome = true := by
  have hany := List.find?_some hk
  rw [List.any_eq_true] at hany
  exact List.find?_isSome.mpr hany

theorem byPasses_isSome : (byPasses passes hit entries).isSome =
    (inOrder passes hit entries).isSome := by
  rw [← earliest_isSome, byPasses_eq_bind]
  cases hk : earliest passes hit entries with
  | none => rfl
  | some k => simpa using find?_isSome_of_earliest hk

/-- An entry that is first in order and hit in a pass is first in that pass. -/
theorem find?_hit_of_inOrder {x : α} {k : κ} (hk : k ∈ passes)
    (hfirst : inOrder passes hit entries = some x) (hhit : hit k x = true) :
    entries.find? (hit k) = some x := by
  obtain ⟨-, before, after, rfl, hbefore⟩ := List.find?_eq_some_iff_append.mp hfirst
  refine List.find?_eq_some_iff_append.mpr ⟨hhit, before, after, rfl, ?_⟩
  intro y hy
  have hnone := hbefore y hy
  simp only [Bool.not_eq_eq_eq_not, Bool.not_true, List.any_eq_false] at hnone
  simpa using hnone k hk

/-- The two searches lead to the same place exactly when the first match is hit in the
earliest pass that hits anything, or the entry overtaking it there leads where it does. -/
theorem byPasses_map_eq_iff (f : α → β) :
    (byPasses passes hit entries).map f = (inOrder passes hit entries).map f ↔
      ∀ x ∈ inOrder passes hit entries, ∀ k ∈ earliest passes hit entries,
        hit k x = false → ∀ y ∈ entries.find? (hit k), f y = f x := by
  rw [byPasses_eq_bind]
  have hsome : (earliest passes hit entries).isSome = (inOrder passes hit entries).isSome :=
    earliest_isSome
  cases hfirst : inOrder passes hit entries with
  | none =>
      rw [hfirst, Option.isSome_none, Option.isSome_eq_false_iff,
        Option.isNone_iff_eq_none] at hsome
      simp [hsome]
  | some x =>
      rw [hfirst, Option.isSome_some, Option.isSome_iff_exists] at hsome
      obtain ⟨k, hk⟩ := hsome
      have hpass := List.mem_of_find?_eq_some hk
      obtain ⟨y, hy⟩ := Option.isSome_iff_exists.mp (find?_isSome_of_earliest hk)
      simp only [hk, hy, Option.bind_some, Option.map_some, Option.some.injEq, Option.mem_def,
        forall_eq']
      constructor
      · exact fun h _ => h
      · intro h
        cases hhit : hit k x with
        | false => exact h hhit
        | true =>
            have heq := hy.symm.trans (find?_hit_of_inOrder hpass hfirst hhit)
            rw [Option.some.inj heq]

/-- The same with a default for searches that find nothing. -/
theorem byPasses_getD_eq_iff (f : α → β) (default : β) :
    ((byPasses passes hit entries).map f).getD default =
        ((inOrder passes hit entries).map f).getD default ↔
      ∀ x ∈ inOrder passes hit entries, ∀ k ∈ earliest passes hit entries,
        hit k x = false → ∀ y ∈ entries.find? (hit k), f y = f x := by
  rw [← byPasses_map_eq_iff]
  have hsome : (byPasses passes hit entries).isSome = (inOrder passes hit entries).isSome :=
    byPasses_isSome
  cases hpasses : byPasses passes hit entries with
  | none =>
      rw [hpasses, Option.isSome_none, eq_comm, Option.isSome_eq_false_iff,
        Option.isNone_iff_eq_none] at hsome
      rw [hsome]
      simp
  | some y =>
      rw [hpasses, Option.isSome_some, eq_comm, Option.isSome_iff_exists] at hsome
      obtain ⟨x, hx⟩ := hsome
      simp [hx]

theorem mem_of_byPasses {x : α} (h : byPasses passes hit entries = some x) : x ∈ entries := by
  obtain ⟨k, -, hfind⟩ := List.exists_of_findSome?_eq_some h
  exact List.mem_of_find?_eq_some hfind

/-- Entries that stay are found as before. -/
theorem find?_filter_of_keep {p keep : α → Bool} {x : α} (h : entries.find? p = some x)
    (hkeep : keep x = true) : (entries.filter keep).find? p = some x := by
  induction entries with
  | nil => cases h
  | cons y ys ih =>
      cases hy : p y with
      | true =>
          rw [List.find?_cons_of_pos hy] at h
          cases h
          rw [List.filter_cons_of_pos hkeep, List.find?_cons_of_pos hy]
      | false =>
          rw [List.find?_cons_of_neg (by simp [hy])] at h
          rw [List.filter_cons]
          split
          · rw [List.find?_cons_of_neg (by simp [hy]), ih h]
          · exact ih h

theorem find?_filter_eq_none {p keep : α → Bool} (h : entries.find? p = none) :
    (entries.filter keep).find? p = none := by
  rw [List.find?_eq_none] at h ⊢
  exact fun x hx => h x (List.mem_filter.mp hx).1

theorem byPasses_filter_eq_none {keep : α → Bool} (h : byPasses passes hit entries = none) :
    byPasses passes hit (entries.filter keep) = none := by
  rw [byPasses, List.findSome?_eq_none_iff] at h ⊢
  exact fun k hk => find?_filter_eq_none (h k hk)

theorem byPasses_filter_of_keep {keep : α → Bool} {x : α}
    (h : byPasses passes hit entries = some x) (hkeep : keep x = true) :
    byPasses passes hit (entries.filter keep) = some x := by
  induction passes with
  | nil => cases h
  | cons k ks ih =>
      simp only [byPasses, List.findSome?_cons] at h ih ⊢
      cases hfind : entries.find? (hit k) with
      | some y =>
          simp only [hfind, Option.some.injEq] at h
          subst h
          rw [find?_filter_of_keep hfind hkeep]
      | none =>
          simp only [hfind] at h
          simp only [find?_filter_eq_none hfind]
          exact ih h

/-- Searching the blocks entries expand to, where each block holds at most one kind of result. -/
theorem find?_flatMap_map {γ δ : Type*} {expand : α → List γ} {p : γ → Bool} {target : γ → δ}
    {matched : α → Bool} {goal : α → δ}
    (h : ∀ x ∈ entries, ((expand x).find? p).map target =
      if matched x then some (goal x) else none) :
    ((entries.flatMap expand).find? p).map target = (entries.find? matched).map goal := by
  induction entries with
  | nil => rfl
  | cons x xs ih =>
      have hx := h x List.mem_cons_self
      have hxs := ih fun y hy => h y (List.mem_cons_of_mem x hy)
      rw [List.flatMap_cons, List.find?_append, Option.map_or, hx, hxs, List.find?_cons]
      cases matched x <;> simp

/-- A block none of whose competitors holds a result decides the search. -/
theorem find?_flatMap_of_isolated {γ : Type*} {expand : α → List γ} {p : γ → Bool} {x : α}
    {z : γ} (hx : x ∈ entries) (hfind : (expand x).find? p = some z)
    (hother : ∀ y ∈ entries, y ≠ x → ∀ w ∈ expand y, p w = false) :
    (entries.flatMap expand).find? p = some z := by
  induction entries with
  | nil => cases hx
  | cons y ys ih =>
      rw [List.flatMap_cons, List.find?_append]
      by_cases hyx : y = x
      · rw [hyx, hfind]
        rfl
      · have hnone : (expand y).find? p = none := by
          rw [List.find?_eq_none]
          intro w hw
          simp [hother y List.mem_cons_self hyx w hw]
        have hmem : x ∈ ys := (List.mem_cons.mp hx).resolve_left fun h => hyx h.symm
        rw [hnone, ih hmem fun w hw => hother w (List.mem_cons_of_mem y hw)]
        rfl

/-- A list of exceptions before an entry that is always hit. -/
theorem find?_append_cons {p : α → Bool} {x : α} (hx : p x = true) (before after : List α) :
    (before ++ x :: after).find? p = some ((before.find? p).getD x) := by
  rw [List.find?_append, List.find?_cons, hx]
  cases before.find? p <;> rfl

end Passes
