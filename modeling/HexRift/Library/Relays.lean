import Mathlib.Tactic.Common

/-! # Relays

A proxy binds sockets and hands what arrives on them to other sockets, some of which it binds
itself. Where a request ends up. -/

namespace Relays

/-- Sockets bound together, and the socket a request on them is handed to. -/
structure Front (σ ρ : Type*) where
  binds : List σ
  next : ρ → Option σ

variable {σ ρ : Type*} [DecidableEq σ] {fronts : List (Front σ ρ)} {r : ρ} {s t : σ}

/-- The front that takes what arrives on the socket. -/
def front? (fronts : List (Front σ ρ)) (s : σ) : Option (Front σ ρ) :=
  fronts.find? fun f => s ∈ f.binds

/-- A request on the first socket ends on the second, which no front binds. -/
inductive Delivers (fronts : List (Front σ ρ)) (r : ρ) : σ → σ → Prop
  | outside {s : σ} (h : front? fronts s = none) : Delivers fronts r s s
  | relay {s next t : σ} {f : Front σ ρ} (hfront : front? fronts s = some f)
      (hnext : f.next r = some next) (hrest : Delivers fronts r next t) : Delivers fronts r s t

theorem Delivers.outside_iff (h : front? fronts s = none) : Delivers fronts r s t ↔ t = s := by
  constructor
  · intro hd
    cases hd with
    | outside _ => rfl
    | relay hfront _ _ => cases h.symm.trans hfront
  · rintro rfl
    exact .outside h

theorem Delivers.relay_iff {f : Front σ ρ} {next : σ} (hfront : front? fronts s = some f)
    (hnext : f.next r = some next) : Delivers fronts r s t ↔ Delivers fronts r next t := by
  constructor
  · intro hd
    cases hd with
    | outside h => cases h.symm.trans hfront
    | relay hfront' hnext' hrest =>
        cases hfront.symm.trans hfront'
        cases hnext.symm.trans hnext'
        exact hrest
  · exact fun hd => .relay hfront hnext hd

/-- A request ends on one socket at most. -/
theorem Delivers.unique {t' : σ} (h : Delivers fronts r s t) (h' : Delivers fronts r s t') :
    t = t' := by
  induction h with
  | outside hs => exact ((outside_iff hs).mp h').symm
  | relay hfront hnext _ ih => exact ih ((relay_iff hfront hnext).mp h')

end Relays
