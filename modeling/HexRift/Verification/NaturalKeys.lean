import HexRift.Model.Edit
import HexRift.Verification.Texts
import Mathlib.Data.List.SplitBy

/-! # Natural sort keys

In a key texts and numbers take turns, so two keys are compared kind by kind and in a strict
order. -/

namespace HexRift

open Checks

/-! ## Runs of digits -/

section Runs

variable (s : List Char)

/-- The runs of a text. -/
def runs : List (List Char) :=
  s.splitBy fun a b => (Python.decimal? a).isSome == (Python.decimal? b).isSome

end Runs

/-! ## Keys -/

section Order

variable {a b c : List Chunk} {digits : Bool}

end Order

/-! ## Keys of identifiers -/

end HexRift
