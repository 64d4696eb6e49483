import Mathlib.Data.List.Basic
import Mathlib.Tactic.Common

/-! # Writes to owned places

Items that write one after the other, each to the places it owns and the same whatever is there.
What stands at a place in the end depends on whether its owner was among them, not on the order. -/

namespace Writes

variable {ι κ ν : Type*} {out : ι → κ → Option ν} {owner : κ → ι}

/-- New contents over those that are there. -/
def overlay (new old : κ → Option ν) : κ → Option ν := fun k => (new k).or (old k)

/-- The contents after every item has written. -/
def writeAll (out : ι → κ → Option ν) (items : List ι) (old : κ → Option ν) : κ → Option ν :=
  items.foldl (fun old i => overlay (out i) old) old

theorem overlay_none (old : κ → Option ν) : overlay (fun _ => none) old = old := rfl

theorem writeAll_of_not_mem (howned : ∀ i k, (out i k).isSome = true → i = owner k)
    {items : List ι} {k : κ} (hk : owner k ∉ items) (old : κ → Option ν) :
    writeAll out items old k = old k := by
  induction items generalizing old with
  | nil => rfl
  | cons i rest ih =>
      rw [List.mem_cons, not_or] at hk
      have hnone : out i k = none := by
        by_contra hsome
        exact hk.1 (howned i k (Option.isSome_iff_ne_none.mpr hsome)).symm
      rw [writeAll, List.foldl_cons]
      refine (ih hk.2 _).trans ?_
      rw [overlay, hnone, Option.none_or]

theorem writeAll_of_mem (howned : ∀ i k, (out i k).isSome = true → i = owner k)
    {items : List ι} {k : κ} (hk : owner k ∈ items) (old : κ → Option ν) :
    writeAll out items old k = (out (owner k) k).or (old k) := by
  induction items generalizing old with
  | nil => cases hk
  | cons i rest ih =>
      rw [writeAll, List.foldl_cons]
      by_cases hrest : owner k ∈ rest
      · refine (ih hrest _).trans ?_
        -- the first item writes at the place what its owner writes again, if at all
        rw [overlay, ← Option.or_assoc]
        cases hi : out i k with
        | none => rw [Option.or_none]
        | some content =>
            have howner : i = owner k := howned i k (Option.isSome_iff_exists.mpr ⟨content, hi⟩)
            rw [← howner, hi]
            rfl
      · have hself : owner k = i := (List.mem_cons.mp hk).resolve_right hrest
        refine (writeAll_of_not_mem howned hrest _).trans ?_
        rw [overlay, hself]

end Writes
