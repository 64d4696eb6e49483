import Mathlib.Data.List.Basic
import Mathlib.Tactic.Common

/-! # Layers of settings

A setting takes the value of the first layer that sets it. Putting one more layer on top of
settings already resolved resolves them with that layer in front. -/

namespace Overlays

variable {α β : Type*}

/-- Value of the first layer that sets one. -/
def first : List (Option α) → Option α
  | [] => none
  | layer :: layers => layer.or (first layers)

@[simp] theorem first_nil : first ([] : List (Option α)) = none := rfl

@[simp] theorem first_cons (layer : Option α) (layers : List (Option α)) :
    first (layer :: layers) = layer.or (first layers) := rfl

/-- What the layers of a block and the settings under them set for one field. -/
def pick (layers : List (Option β)) (field : β → Option α) (base : Option α) : Option α :=
  first (layers.map (·.bind field) ++ [base])

@[simp] theorem pick_nil (field : β → Option α) (base : Option α) : pick [] field base = base :=
  Option.or_none

/-- A layer that is not there sets nothing. -/
@[simp] theorem pick_none (layers : List (Option β)) (field : β → Option α) (base : Option α) :
    pick (none :: layers) field base = pick layers field base := rfl

@[simp] theorem pick_some (block : β) (layers : List (Option β)) (field : β → Option α)
    (base : Option α) :
    pick (some block :: layers) field base = (field block).or (pick layers field base) := rfl

end Overlays
