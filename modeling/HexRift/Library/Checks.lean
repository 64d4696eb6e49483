import Mathlib.Data.List.Nodup
import Mathlib.Tactic.Common

/-! # Checks that either pass or raise

A validator is a sequence of checks in `Except`. Each lemma reads the success of one
combinator as the condition it decides, so a validator's success unfolds to the
conjunction of what it checks. -/

namespace Checks

variable {ε α β σ : Type}

theorem bind_eq_ok {x : Except ε α} {f : α → Except ε β} {b : β} :
    (x >>= f) = .ok b ↔ ∃ a, x = .ok a ∧ f a = .ok b := by
  cases x <;> simp [bind, Except.bind]

theorem pure_eq_ok {a b : α} : (pure a : Except ε α) = .ok b ↔ a = b := by
  simp [pure, Except.pure]

theorem map_eq_ok {x : Except ε α} {f : α → β} {b : β} :
    x.map f = .ok b ↔ ∃ a, x = .ok a ∧ f a = b := by
  cases x <;> simp [Except.map]

theorem toOption_eq_some {x : Except ε α} {a : α} : x.toOption = some a ↔ x = .ok a := by
  cases x <;> simp [Except.toOption]

/-! ## Single conditions -/

/-- Raise `e` unless the condition holds. -/
def ensure (p : Prop) [Decidable p] (e : ε) : Except ε Unit :=
  if p then .ok () else .error e

@[simp] theorem ensure_eq_ok {p : Prop} [Decidable p] {e : ε} {u : Unit} :
    ensure p e = .ok u ↔ p := by
  unfold ensure
  split <;> simp_all

/-! ## Loops -/

/-- Run a check on every element in order. -/
def forEach (xs : List α) (f : α → Except ε Unit) : Except ε Unit :=
  match xs with
  | [] => .ok ()
  | x :: xs => do
      f x
      forEach xs f

@[simp] theorem forEach_eq_ok {xs : List α} {f : α → Except ε Unit} {u : Unit} :
    forEach xs f = .ok u ↔ ∀ x ∈ xs, f x = .ok () := by
  induction xs with
  | nil => simp [forEach]
  | cons x xs ih =>
      rw [List.forall_mem_cons, ← ih, forEach]
      cases f x <;> simp [bind, Except.bind]

/-- Thread a state through a check of every element in order. -/
def foldEach (xs : List α) (f : σ → α → Except ε σ) (s : σ) : Except ε σ :=
  match xs with
  | [] => .ok s
  | x :: xs => do foldEach xs f (← f s x)

theorem foldEach_nil {f : σ → α → Except ε σ} {s t : σ} :
    foldEach [] f s = .ok t ↔ s = t := by
  simp [foldEach]

theorem foldEach_cons {x : α} {xs : List α} {f : σ → α → Except ε σ} {s t : σ} :
    foldEach (x :: xs) f s = .ok t ↔ ∃ s', f s x = .ok s' ∧ foldEach xs f s' = .ok t := by
  simp [foldEach, bind_eq_ok]

/-- A loop whose step adds to a state, provided the element is in order and an invariant
survives the addition, succeeds exactly when every element is in order and the invariant
holds at the end. -/
theorem foldEach_extend_eq_ok {f : σ → α → Except ε σ} {extend : σ → α → σ} {inv : σ → Prop}
    {ok : α → Prop} (back : ∀ s x, inv (extend s x) → inv s)
    (step : ∀ s x t, inv s → (f s x = .ok t ↔ (ok x ∧ inv (extend s x)) ∧ t = extend s x))
    {xs : List α} {s t : σ} (hs : inv s) :
    foldEach xs f s = .ok t ↔
      ((∀ x ∈ xs, ok x) ∧ inv (xs.foldl extend s)) ∧ t = xs.foldl extend s := by
  have back_all : ∀ (xs : List α) (s : σ), inv (xs.foldl extend s) → inv s := by
    intro xs
    induction xs with
    | nil => exact fun _ h => h
    | cons x xs ih => exact fun s h => back s x (ih _ h)
  induction xs generalizing s with
  | nil =>
      simp only [foldEach_nil, List.foldl_nil, List.not_mem_nil, false_implies, implies_true,
        hs, and_self, true_and]
      exact eq_comm
  | cons x xs ih =>
      simp only [foldEach_cons, List.foldl_cons, List.forall_mem_cons, step s x _ hs]
      constructor
      · rintro ⟨s', ⟨⟨hx, hinv⟩, rfl⟩, hrest⟩
        obtain ⟨⟨hxs, hend⟩, rfl⟩ := (ih hinv).mp hrest
        exact ⟨⟨⟨hx, hxs⟩, hend⟩, rfl⟩
      · rintro ⟨⟨⟨hx, hxs⟩, hend⟩, rfl⟩
        have hinv := back_all xs _ hend
        exact ⟨_, ⟨⟨hx, hinv⟩, rfl⟩, (ih hinv).mpr ⟨⟨hxs, hend⟩, rfl⟩⟩

/-- Run a fallible function on every element and collect the results in order. -/
def mapEach (xs : List α) (f : α → Except ε β) : Except ε (List β) :=
  match xs with
  | [] => .ok []
  | x :: xs => do
      let y ← f x
      let ys ← mapEach xs f
      pure (y :: ys)

/-- A loop none of whose steps fails. -/
theorem mapEach_eq_map {f : α → Except ε β} {g : α → β} {xs : List α}
    (h : ∀ x ∈ xs, f x = .ok (g x)) : mapEach xs f = .ok (xs.map g) := by
  induction xs with
  | nil => rfl
  | cons x xs ih =>
      rw [mapEach, h x (by simp), ih fun y hy => h y (by simp [hy])]
      rfl

theorem mapEach_map {γ : Type} {f : α → Except ε β} {g : γ → α} {xs : List γ} :
    mapEach (xs.map g) f = mapEach xs fun x => f (g x) := by
  induction xs with
  | nil => rfl
  | cons x xs ih => rw [List.map_cons, mapEach, mapEach, ih]

/-- When the function succeeds with `g x` on the elements in order, the loop succeeds with
`xs.map g` when every element is. -/
theorem mapEach_map_eq_ok {f : α → Except ε β} {ok : α → Prop} {g : α → β}
    (step : ∀ x y, f x = .ok y ↔ ok x ∧ y = g x) {xs : List α} {ys : List β} :
    mapEach xs f = .ok ys ↔ (∀ x ∈ xs, ok x) ∧ ys = xs.map g := by
  induction xs generalizing ys with
  | nil => simp [mapEach, eq_comm]
  | cons x xs ih =>
      simp only [mapEach, bind_eq_ok, step, ih, pure_eq_ok, List.forall_mem_cons, List.map_cons]
      constructor
      · rintro ⟨y, ⟨hx, rfl⟩, zs, ⟨hxs, rfl⟩, rfl⟩
        exact ⟨⟨hx, hxs⟩, rfl⟩
      · rintro ⟨⟨hx, hxs⟩, rfl⟩
        exact ⟨_, ⟨hx, rfl⟩, _, ⟨hxs, rfl⟩, rfl⟩

theorem getElem?_of_mapEach {f : α → Except ε β} {xs : List α} {ys : List β}
    (h : mapEach xs f = .ok ys) {k : ℕ} {y : β} (hy : ys[k]? = some y) :
    ∃ x, xs[k]? = some x ∧ f x = .ok y := by
  induction xs generalizing ys k with
  | nil =>
      cases h
      cases hy
  | cons x xs ih =>
      simp only [mapEach, bind_eq_ok, pure_eq_ok] at h
      obtain ⟨z, hz, zs, hzs, rfl⟩ := h
      cases k with
      | zero =>
          cases hy
          exact ⟨x, rfl, hz⟩
      | succ k => exact ih hzs hy

/-- The results of a loop, element by element. -/
theorem forall₂_of_mapEach {f : α → Except ε β} {xs : List α} {ys : List β}
    (h : mapEach xs f = .ok ys) : List.Forall₂ (fun x y => f x = .ok y) xs ys := by
  induction xs generalizing ys with
  | nil =>
      cases h
      exact .nil
  | cons x xs ih =>
      simp only [mapEach, bind_eq_ok, pure_eq_ok] at h
      obtain ⟨y, hy, zs, hzs, rfl⟩ := h
      exact .cons hy (ih hzs)

/-- What a loop collects is what its steps return. -/
theorem mem_mapEach {f : α → Except ε β} {xs : List α} {ys : List β}
    (h : mapEach xs f = .ok ys) {y : β} : y ∈ ys ↔ ∃ x ∈ xs, f x = .ok y := by
  induction xs generalizing ys with
  | nil =>
      cases h
      simp
  | cons x xs ih =>
      simp only [mapEach, bind_eq_ok, pure_eq_ok] at h
      obtain ⟨z, hz, zs, hzs, rfl⟩ := h
      simp [ih hzs, hz, eq_comm]

/-- A loop succeeds when each of its steps does. -/
theorem mapEach_total {f : α → Except ε β} {xs : List α} :
    (∃ ys, mapEach xs f = .ok ys) ↔ ∀ x ∈ xs, ∃ y, f x = .ok y := by
  induction xs with
  | nil => simp [mapEach]
  | cons x xs ih =>
      rw [List.forall_mem_cons, ← ih]
      simp only [mapEach, bind_eq_ok, pure_eq_ok]
      constructor
      · rintro ⟨_, y, hy, ys, hys, -⟩
        exact ⟨⟨y, hy⟩, ys, hys⟩
      · rintro ⟨⟨y, hy⟩, ys, hys⟩
        exact ⟨_, y, hy, ys, hys, rfl⟩

theorem mapEach_congr {f g : α → Except ε β} {xs : List α} (h : ∀ x ∈ xs, f x = g x) :
    mapEach xs f = mapEach xs g := by
  induction xs with
  | nil => rfl
  | cons x xs ih =>
      rw [List.forall_mem_cons] at h
      rw [mapEach, mapEach, h.1, ih h.2]

/-- A loop over some of the elements collects their results. -/
theorem mapEach_filter {f : α → Except ε β} (keep : α → Bool) (kept : β → Bool) {xs : List α}
    (hagree : ∀ x ∈ xs, ∀ y, f x = .ok y → kept y = keep x) {ys : List β}
    (h : mapEach xs f = .ok ys) : mapEach (xs.filter keep) f = .ok (ys.filter kept) := by
  induction xs generalizing ys with
  | nil =>
      cases h
      rfl
  | cons x xs ih =>
      rw [List.forall_mem_cons] at hagree
      simp only [mapEach, bind_eq_ok, pure_eq_ok] at h
      obtain ⟨y, hy, ys, hys, rfl⟩ := h
      have hrest := ih hagree.2 hys
      rw [List.filter_cons, List.filter_cons, hagree.1 y hy]
      by_cases hkeep : keep x = true
      · rw [if_pos hkeep, if_pos hkeep, mapEach, hy, hrest]
        rfl
      · rw [if_neg hkeep, if_neg hkeep, hrest]

/-- What the results of a loop hold is, in order, part of what each element allows. -/
theorem mapEach_flatMap_sublist {γ : Type} {f : α → Except ε β} {out : β → List γ}
    {allowed : α → List γ} {xs : List α}
    (hout : ∀ x ∈ xs, ∀ y, f x = .ok y → (out y).Sublist (allowed x)) {ys : List β}
    (h : mapEach xs f = .ok ys) : (ys.flatMap out).Sublist (xs.flatMap allowed) := by
  induction xs generalizing ys with
  | nil =>
      cases h
      exact List.nil_sublist _
  | cons x xs ih =>
      rw [List.forall_mem_cons] at hout
      simp only [mapEach, bind_eq_ok, pure_eq_ok] at h
      obtain ⟨z, hz, zs, hzs, rfl⟩ := h
      simp only [List.flatMap_cons]
      exact (hout.1 z hz).append (ih hout.2 hzs)

/-! ## Runs that agree -/

section Agreement

variable {α' β' σ' : Type}

/-- Both runs raise the same, or both return and their results are related. -/
inductive Agree (rel : α → α' → Prop) : Except ε α → Except ε α' → Prop
  | error (e : ε) : Agree rel (.error e) (.error e)
  | ok {a : α} {a' : α'} (h : rel a a') : Agree rel (.ok a) (.ok a')

theorem Agree.bind {rel : α → α' → Prop} {rel' : β → β' → Prop} {x : Except ε α}
    {x' : Except ε α'} (h : Agree rel x x') {f : α → Except ε β} {f' : α' → Except ε β'}
    (hf : ∀ a a', rel a a' → Agree rel' (f a) (f' a')) : Agree rel' (x >>= f) (x' >>= f') := by
  cases h with
  | error e => exact .error e
  | ok h => exact hf _ _ h

/-- Runs that begin with the same one. -/
theorem Agree.bind_same {rel : β → β' → Prop} {x : Except ε α} {f : α → Except ε β}
    {f' : α → Except ε β'} (hf : ∀ a, x = .ok a → Agree rel (f a) (f' a)) :
    Agree rel (x >>= f) (x >>= f') := by
  cases x with
  | error e => exact .error e
  | ok a => exact hf a rfl

theorem Agree.foldEach {rel : σ → σ' → Prop} {f : σ → α → Except ε σ} {f' : σ' → α → Except ε σ'}
    {xs : List α} (hstep : ∀ x ∈ xs, ∀ s s', rel s s' → Agree rel (f s x) (f' s' x)) {s : σ}
    {s' : σ'} (hs : rel s s') : Agree rel (Checks.foldEach xs f s) (Checks.foldEach xs f' s') := by
  induction xs generalizing s s' with
  | nil => exact .ok hs
  | cons x xs ih =>
      refine (hstep x List.mem_cons_self s s' hs).bind fun t t' ht => ?_
      exact ih (fun y hy => hstep y (List.mem_cons_of_mem x hy)) ht

end Agreement

/-! ## Registries

A registry lists the requests granted so far; a request whose key is already taken is
refused with an error naming both parties. -/

section Registry

variable {ρ κ : Type} {key : ρ → κ}

theorem nodup_of_append {taken out : List ρ} (h : ((taken ++ out).map key).Nodup) :
    (taken.map key).Nodup := by
  rw [List.map_append] at h
  exact h.of_append_left

theorem nodup_append_singleton {taken : List ρ} {request : ρ} (h : (taken.map key).Nodup) :
    ((taken ++ [request]).map key).Nodup ↔ key request ∉ taken.map key := by
  rw [List.map_append, List.map_singleton, List.nodup_append]
  constructor
  · rintro ⟨-, -, hdisj⟩ hmem
    exact hdisj _ hmem _ (by simp) rfl
  · intro hnot
    refine ⟨h, by simp, fun a ha b hb hab => ?_⟩
    rw [List.mem_singleton] at hb
    exact hnot (hb ▸ hab ▸ ha)

/-- A loop whose step claims the requests of one element: it succeeds exactly when every
element is in order and no key occurs twice. -/
theorem foldEach_claims_eq_ok {f : List ρ → α → Except ε (List ρ)} {out : α → List ρ}
    {ok : α → Prop}
    (step : ∀ taken x reg, (taken.map key).Nodup →
      (f taken x = .ok reg ↔ (ok x ∧ ((taken ++ out x).map key).Nodup) ∧ reg = taken ++ out x))
    {xs : List α} {taken reg : List ρ} (htaken : (taken.map key).Nodup) :
    foldEach xs f taken = .ok reg ↔
      ((∀ x ∈ xs, ok x) ∧ ((taken ++ xs.flatMap out).map key).Nodup) ∧
        reg = taken ++ xs.flatMap out := by
  have hfold : xs.foldl (fun s x => s ++ out x) taken = taken ++ xs.flatMap out := by
    rw [List.foldl_append_eq_append, List.flatMap_def]
  rw [← hfold]
  exact foldEach_extend_eq_ok (fun s x => nodup_of_append) step htaken

variable [DecidableEq κ] (key) (err : ρ → ρ → ε)

def claim (taken : List ρ) (request : ρ) : Except ε (List ρ) :=
  match taken.find? fun r => key r = key request with
  | some owner => .error (err request owner)
  | none => .ok (taken ++ [request])

def claimAll (requests taken : List ρ) : Except ε (List ρ) :=
  foldEach requests (claim key err) taken

variable {key err}

theorem claim_eq_ok {taken reg : List ρ} {request : ρ} :
    claim key err taken request = .ok reg ↔
      key request ∉ taken.map key ∧ reg = taken ++ [request] := by
  unfold claim
  cases h : taken.find? fun r => key r = key request with
  | some owner =>
      have hkey := List.find?_some h
      have hmem := List.mem_of_find?_eq_some h
      simp only [decide_eq_true_eq] at hkey
      simp only [reduceCtorEq, false_iff, not_and]
      intro hnot
      exact absurd (List.mem_map.mpr ⟨owner, hmem, hkey⟩) hnot
  | none =>
      have hnone : key request ∉ taken.map key := by
        intro hmem
        obtain ⟨r, hr, hkey⟩ := List.mem_map.mp hmem
        simpa [hkey] using List.find?_eq_none.mp h r hr
      simp [hnone, eq_comm]

/-- All requests are granted exactly when no key occurs twice. -/
theorem claimAll_eq_ok {requests taken reg : List ρ} (htaken : (taken.map key).Nodup) :
    claimAll key err requests taken = .ok reg ↔
      ((taken ++ requests).map key).Nodup ∧ reg = taken ++ requests := by
  have step : ∀ (taken : List ρ) (x : ρ) (reg : List ρ), (taken.map key).Nodup →
      (claim key err taken x = .ok reg ↔
        (True ∧ ((taken ++ [x]).map key).Nodup) ∧ reg = taken ++ [x]) := by
    intro taken x reg h
    rw [claim_eq_ok, true_and, nodup_append_singleton h]
  simpa [claimAll] using foldEach_claims_eq_ok step htaken

theorem claimAll_nil_eq_ok {requests reg : List ρ} :
    claimAll key err requests [] = .ok reg ↔ (requests.map key).Nodup ∧ reg = requests := by
  have h : (([] : List ρ).map key).Nodup := List.nodup_nil
  simpa using claimAll_eq_ok h

end Registry

end Checks
