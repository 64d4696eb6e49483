import Mathlib.Data.List.Basic
import Mathlib.Tactic.Common

/-! # Unit codes

A text written unit by unit, and a reader that takes one written unit off the front of whatever
follows. It then takes the whole text back. -/

namespace Codes

variable {α β γ : Type*} {read : List β → List γ} {write : α → List β} {mean : α → List γ}

/-- The reader takes what is written for the unit off any text. -/
def Reads (read : List β → List γ) (write : α → List β) (mean : α → List γ) (unit : α) : Prop :=
  ∀ rest, read (write unit ++ rest) = mean unit ++ read rest

theorem read_flatMap_append {units : List α} (h : ∀ unit ∈ units, Reads read write mean unit)
    (rest : List β) : read (units.flatMap write ++ rest) = units.flatMap mean ++ read rest := by
  induction units with
  | nil => rfl
  | cons unit units ih =>
      rw [List.forall_mem_cons] at h
      rw [List.flatMap_cons, List.append_assoc, h.1, ih h.2, List.flatMap_cons, List.append_assoc]

theorem read_flatMap {units : List α} (h : ∀ unit ∈ units, Reads read write mean unit)
    (hnil : read [] = []) : read (units.flatMap write) = units.flatMap mean := by
  have hall := read_flatMap_append h []
  rwa [List.append_nil, hnil, List.append_nil] at hall

end Codes
