import Mathlib.Data.List.Basic
import Mathlib.Tactic.Common

/-! # Generations of a shared secret

The members of a group share a secret. Its first request makes one, a request that renews makes
another, and the rest leave it. Which request made the secret in use, read off the log alone. -/

namespace Generations

variable {ρ : Type*} {mine renews : ρ → Bool} {log : List ρ} {r : ρ}

/-- The request of the group that made its secret: the last that renews, else the first. -/
def current? (mine renews : ρ → Bool) (log : List ρ) : Option ρ :=
  ((log.filter fun r => mine r && renews r).getLast?).or (log.find? mine)

theorem current?_eq_none_iff : current? mine renews log = none ↔ ∀ r ∈ log, mine r = false := by
  rw [current?, Option.or_eq_none_iff, List.getLast?_eq_none_iff, List.filter_eq_nil_iff,
    List.find?_eq_none]
  constructor
  · intro h r hr
    exact Bool.eq_false_iff.mpr (h.2 r hr)
  · intro h
    exact ⟨fun r hr => by simp [h r hr], fun r hr => by simp [h r hr]⟩

theorem isSome_current? (renews : ρ → Bool) (hr : r ∈ log) (hmine : mine r = true) :
    (current? mine renews log).isSome = true := by
  by_contra hnone
  have hfalse := current?_eq_none_iff.mp (Option.not_isSome_iff_eq_none.mp hnone) r hr
  rw [hmine] at hfalse
  cases hfalse

theorem current?_append_of_not_mine (hother : mine r = false) :
    current? mine renews (log ++ [r]) = current? mine renews log := by
  simp [current?, List.filter_append, List.find?_append, hother]

theorem current?_append_of_renews (hmine : mine r = true) (hrenews : renews r = true) :
    current? mine renews (log ++ [r]) = some r := by
  simp [current?, List.filter_append, hmine, hrenews]

/-- A request that renews nothing makes the secret only where there is none. -/
theorem current?_append_of_plain (hmine : mine r = true) (hplain : renews r = false) :
    current? mine renews (log ++ [r]) = (current? mine renews log).or (some r) := by
  simp [current?, List.filter_append, List.find?_append, hmine, hplain]

end Generations
