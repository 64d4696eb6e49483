import Mathlib.Data.List.Induction
import Mathlib.Tactic.Common

/-! # Where a stored value comes from

A log of commands run over a state. A cell of the state is written by some of the commands and
left alone by the rest, so what stands in it was written by the last that wrote. -/

namespace Origins

variable {σ γ β : Type*} {step : σ → γ → σ} {writes : σ → γ → Option β} {init : σ}
  {log before : List γ} {command : γ} {value : β}

/-- The state after a log of commands. -/
def run (step : σ → γ → σ) (init : σ) (log : List γ) : σ := log.foldl step init

@[simp] theorem run_nil (step : σ → γ → σ) (init : σ) : run step init [] = init := rfl

theorem run_append_singleton (step : σ → γ → σ) (init : σ) (log : List γ) (command : γ) :
    run step init (log ++ [command]) = step (run step init log) command := by
  rw [run, List.foldl_append]
  rfl

/-- The value was written behind the part of the log that stands before, and nothing since. -/
inductive WrittenAfter (step : σ → γ → σ) (writes : σ → γ → Option β) (init : σ)
    (before : List γ) (value : β) : List γ → Prop
  | now {command : γ} (hwrites : writes (run step init before) command = some value) :
      WrittenAfter step writes init before value (before ++ [command])
  | kept {log : List γ} {command : γ} (h : WrittenAfter step writes init before value log)
      (hkept : writes (run step init log) command = none) :
      WrittenAfter step writes init before value (log ++ [command])

theorem WrittenAfter.earlier (h : WrittenAfter step writes init before value log) :
    before <+: log := by
  induction h with
  | now hwrites => exact List.prefix_append _ _
  | kept _ _ ih => exact ih.trans (List.prefix_append _ _)

theorem WrittenAfter.written (h : WrittenAfter step writes init before value log) :
    ∃ command, writes (run step init before) command = some value := by
  induction h with
  | now hwrites => exact ⟨_, hwrites⟩
  | kept _ _ ih => exact ih

theorem not_writtenAfter_nil : ¬ WrittenAfter step writes init before value [] := by
  intro h
  generalize hlog : ([] : List γ) = log at h
  cases h with
  | now => exact absurd hlog.symm (List.append_ne_nil_of_right_ne_nil _ (List.cons_ne_nil _ _))
  | kept => exact absurd hlog.symm (List.append_ne_nil_of_right_ne_nil _ (List.cons_ne_nil _ _))

/-- The last command has written the value, or has left it. -/
theorem writtenAfter_append_singleton :
    WrittenAfter step writes init before value (log ++ [command]) ↔
      before = log ∧ writes (run step init log) command = some value ∨
        WrittenAfter step writes init before value log ∧
          writes (run step init log) command = none := by
  constructor
  · intro h
    generalize hlog : log ++ [command] = whole at h
    cases h with
    | now hwrites =>
        obtain ⟨rfl, rfl⟩ := List.append_singleton_inj.mp hlog
        exact .inl ⟨rfl, hwrites⟩
    | kept hbefore hkept =>
        obtain ⟨rfl, rfl⟩ := List.append_singleton_inj.mp hlog
        exact .inr ⟨hbefore, hkept⟩
  · rintro (⟨rfl, hwrites⟩ | ⟨hbefore, hkept⟩)
    · exact .now hwrites
    · exact .kept hbefore hkept

/-- What stands in a cell is what the last command to write it has written there. -/
theorem cell_run_eq_some_iff (cell : σ → Option β)
    (hstep : ∀ s command, cell (step s command) = (writes s command).or (cell s))
    (hinit : cell init = none) :
    cell (run step init log) = some value ↔
      ∃ before, WrittenAfter step writes init before value log := by
  induction log using List.reverseRecOn with
  | nil =>
      rw [run_nil, hinit]
      exact ⟨nofun, fun ⟨_, h⟩ => absurd h not_writtenAfter_nil⟩
  | append_singleton log command ih =>
      simp only [run_append_singleton, hstep, writtenAfter_append_singleton, Option.or_eq_some_iff,
        ih]
      constructor
      · rintro (hwrites | ⟨hkept, before, h⟩)
        · exact ⟨log, .inl ⟨rfl, hwrites⟩⟩
        · exact ⟨before, .inr ⟨h, hkept⟩⟩
      · rintro ⟨before, ⟨rfl, hwrites⟩ | ⟨h, hkept⟩⟩
        · exact .inl hwrites
        · exact .inr ⟨hkept, before, h⟩

end Origins
