import Mathlib.Data.List.Basic
import Mathlib.Tactic.Common

/-! # Backtracking regular expressions

An expression is run against the start of a text. The ways it can match are listed in the
order a backtracking engine tries them, so the first one is the match. Replacing every match
in a text leaves a list of parts, each a kept character or a replaced match. -/

inductive Regex where
  | empty
  | char (p : Char → Bool)
  | seq (r s : Regex)
  | alt (r s : Regex)
  | star (r : Regex)

namespace Regex

/-- The expression that matches one text. -/
def text (cs : List Char) : Regex := cs.foldr (fun c r => seq (char (· == c)) r) empty

/-- `r+` -/
def plus (r : Regex) : Regex := seq r (star r)

/-- `r?` -/
def opt (r : Regex) : Regex := alt r empty

/-! ## The engine -/

/-- Repetitions of one round, longest run first. A round that takes nothing ends the run. -/
def rounds (round : List Char → List (List Char × List Char)) :
    ℕ → List Char → List (List Char × List Char)
  | 0, t => [([], t)]
  | n + 1, t =>
      ((round t).filter fun p => p.1 ≠ []).flatMap
        (fun p => (rounds round n p.2).map fun q => (p.1 ++ q.1, q.2)) ++ [([], t)]

/-- Every way to match the start of `t`, as the matched text and what is left, in the order
the engine tries them. -/
def splits : Regex → List Char → List (List Char × List Char)
  | empty, t => [([], t)]
  | char p, c :: cs => if p c then [([c], cs)] else []
  | char _, [] => []
  | seq r s, t => (splits r t).flatMap fun p => (splits s p.2).map fun q => (p.1 ++ q.1, q.2)
  | alt r s, t => splits r t ++ splits s t
  | star r, t => rounds (splits r) t.length t

/-! ## The language -/

/-- The texts an expression matches as a whole. -/
inductive Matches : Regex → List Char → Prop
  | empty : Matches empty []
  | char {p c} (h : p c = true) : Matches (char p) [c]
  | seq {r s a b} (hr : Matches r a) (hs : Matches s b) : Matches (seq r s) (a ++ b)
  | left {r s a} (h : Matches r a) : Matches (alt r s) a
  | right {r s a} (h : Matches s a) : Matches (alt r s) a
  | stop {r} : Matches (star r) []
  | round {r a b} (hne : a ≠ []) (hr : Matches r a) (hs : Matches (star r) b) :
      Matches (star r) (a ++ b)

variable {r s : Regex} {a b t : List Char}

theorem matches_empty : Matches empty a ↔ a = [] := by
  constructor
  · intro h
    cases h
    rfl
  · rintro rfl
    exact .empty

theorem matches_char {p : Char → Bool} : Matches (char p) a ↔ ∃ c, p c = true ∧ a = [c] := by
  constructor
  · intro h
    cases h with
    | char hc => exact ⟨_, hc, rfl⟩
  · rintro ⟨c, hc, rfl⟩
    exact .char hc

theorem matches_seq : Matches (seq r s) t ↔ ∃ a b, Matches r a ∧ Matches s b ∧ t = a ++ b := by
  constructor
  · intro h
    cases h with
    | seq hr hs => exact ⟨_, _, hr, hs, rfl⟩
  · rintro ⟨a, b, hr, hs, rfl⟩
    exact .seq hr hs

theorem matches_alt : Matches (alt r s) a ↔ Matches r a ∨ Matches s a := by
  constructor
  · intro h
    cases h with
    | left h => exact .inl h
    | right h => exact .inr h
  · rintro (h | h)
    · exact .left h
    · exact .right h

theorem matches_star : Matches (star r) t ↔
    t = [] ∨ ∃ a b, a ≠ [] ∧ Matches r a ∧ Matches (star r) b ∧ t = a ++ b := by
  constructor
  · intro h
    cases h with
    | stop => exact .inl rfl
    | round hne hr hs => exact .inr ⟨_, _, hne, hr, hs, rfl⟩
  · rintro (rfl | ⟨a, b, hne, hr, hs, rfl⟩)
    · exact .stop
    · exact .round hne hr hs

theorem matches_text {cs : List Char} : Matches (text cs) a ↔ a = cs := by
  induction cs generalizing a with
  | nil => exact matches_empty
  | cons c cs ih =>
      rw [text, List.foldr_cons, matches_seq]
      constructor
      · rintro ⟨x, y, hx, hy, rfl⟩
        obtain ⟨d, hd, rfl⟩ := matches_char.mp hx
        rw [ih.mp hy, beq_iff_eq.mp hd]
        rfl
      · rintro rfl
        exact ⟨[c], cs, .char (by simp), ih.mpr rfl, rfl⟩

/-- A run of characters of one class. -/
theorem matches_star_char {p : Char → Bool} : Matches (star (char p)) a ↔ ∀ c ∈ a, p c = true := by
  constructor
  · intro h
    generalize hr : star (char p) = r at h
    induction h with
    | stop => simp
    | round _ hx _ _ ih =>
        cases hr
        obtain ⟨d, hd, rfl⟩ := matches_char.mp hx
        intro c hc
        rcases List.mem_cons.mp hc with rfl | hc
        · exact hd
        · exact ih rfl c hc
    | _ => cases hr
  · intro h
    induction a with
    | nil => exact .stop
    | cons c cs ih =>
        have hcs := ih fun d hd => h d (List.mem_cons_of_mem c hd)
        exact .round (a := [c]) (by simp) (.char (h c List.mem_cons_self)) hcs

theorem matches_plus_char {p : Char → Bool} :
    Matches (plus (char p)) a ↔ a ≠ [] ∧ ∀ c ∈ a, p c = true := by
  rw [plus, matches_seq]
  constructor
  · rintro ⟨x, y, hx, hy, rfl⟩
    obtain ⟨c, hc, rfl⟩ := matches_char.mp hx
    rw [matches_star_char] at hy
    exact ⟨by simp, List.forall_mem_cons.mpr ⟨hc, hy⟩⟩
  · rintro ⟨hne, h⟩
    obtain ⟨c, cs, rfl⟩ := List.exists_cons_of_ne_nil hne
    rw [List.forall_mem_cons] at h
    exact ⟨[c], cs, .char h.1, matches_star_char.mpr h.2, rfl⟩

theorem matches_opt : Matches (opt r) a ↔ a = [] ∨ Matches r a := by
  rw [opt, matches_alt, matches_empty, or_comm]

/-! ## The engine lists exactly the language -/

theorem mem_rounds {round : List Char → List (List Char × List Char)} {n : ℕ}
    (hround : ∀ t a b, (a, b) ∈ round t ↔ t = a ++ b ∧ Matches r a) (hn : t.length ≤ n) :
    (a, b) ∈ rounds round n t ↔ t = a ++ b ∧ Matches (star r) a := by
  induction n generalizing t a with
  | zero =>
      rw [List.length_eq_zero_iff.mp (Nat.le_zero.mp hn)]
      simp only [rounds, List.mem_singleton, Prod.mk.injEq, List.nil_eq, List.append_eq_nil_iff]
      constructor
      · rintro ⟨rfl, rfl⟩
        exact ⟨⟨rfl, rfl⟩, .stop⟩
      · exact fun h => h.1
  | succ n ih =>
      simp only [rounds, List.mem_append, List.mem_flatMap, List.mem_filter, List.mem_map,
        List.mem_singleton, Prod.mk.injEq, Prod.exists, hround, decide_eq_true_eq]
      constructor
      · rintro (⟨x, y, ⟨⟨rfl, hx⟩, hne⟩, u, v, hu, rfl, rfl⟩ | ⟨rfl, rfl⟩)
        · have hlen : y.length ≤ n := by
            have := List.length_pos_of_ne_nil hne
            rw [List.length_append] at hn
            omega
          obtain ⟨rfl, hs⟩ := (ih hlen).mp hu
          exact ⟨by rw [List.append_assoc], .round hne hx hs⟩
        · exact ⟨rfl, .stop⟩
      · rintro ⟨rfl, h⟩
        rcases matches_star.mp h with rfl | ⟨x, y, hne, hx, hs, rfl⟩
        · exact .inr ⟨rfl, rfl⟩
        · refine .inl ⟨x, y ++ b, ⟨⟨by rw [List.append_assoc], hx⟩, hne⟩, y, b, ?_, rfl, rfl⟩
          refine (ih ?_).mpr ⟨rfl, hs⟩
          have := List.length_pos_of_ne_nil hne
          simp only [List.length_append] at hn ⊢
          omega

theorem mem_splits : (a, b) ∈ r.splits t ↔ t = a ++ b ∧ Matches r a := by
  induction r generalizing t a b with
  | empty =>
      rw [splits, List.mem_singleton, Prod.mk.injEq, matches_empty]
      constructor
      · rintro ⟨rfl, rfl⟩
        exact ⟨rfl, rfl⟩
      · rintro ⟨rfl, rfl⟩
        exact ⟨rfl, rfl⟩
  | char p =>
      rw [matches_char]
      cases t with
      | nil =>
          constructor
          · intro h
            cases h
          · rintro ⟨h, c, -, rfl⟩
            cases h
      | cons c cs =>
          rw [splits]
          constructor
          · intro h
            split at h
            · rename_i hc
              rw [List.mem_singleton, Prod.mk.injEq] at h
              exact ⟨by rw [h.1, h.2]; rfl, c, hc, h.1⟩
            · cases h
          · rintro ⟨h, d, hd, rfl⟩
            rw [List.singleton_append, List.cons.injEq] at h
            rw [h.1, h.2, if_pos hd]
            exact List.mem_singleton.mpr rfl
  | seq r s ihr ihs =>
      simp only [splits, List.mem_flatMap, List.mem_map, Prod.exists, Prod.mk.injEq, ihr, ihs,
        matches_seq]
      constructor
      · rintro ⟨x, y, ⟨rfl, hx⟩, u, v, ⟨rfl, hu⟩, rfl, rfl⟩
        exact ⟨by rw [List.append_assoc], x, u, hx, hu, rfl⟩
      · rintro ⟨rfl, x, u, hx, hu, rfl⟩
        exact ⟨x, u ++ b, ⟨by rw [List.append_assoc], hx⟩, u, b, ⟨rfl, hu⟩, rfl, rfl⟩
  | alt r s ihr ihs =>
      rw [splits, List.mem_append, ihr, ihs, matches_alt, and_or_left]
  | star r ih => exact mem_rounds (fun _ _ _ => ih) (Nat.le_refl _)

/-! ## Replacing every match -/

/-- A match, with its whole text and the text of its group. -/
structure Match where
  text : List Char
  group : List Char

inductive Part where
  | kept (c : Char)
  | replaced (m : Match) (new : List Char)

def Part.source : Part → List Char
  | kept c => [c]
  | replaced m _ => m.text

def Part.output : Part → List Char
  | kept c => [c]
  | replaced _ new => new

def sources (ps : List Part) : List Char := ps.flatMap Part.source

def outputs (ps : List Part) : List Char := ps.flatMap Part.output

/-- The parts of a text searched from left to right. `before` is the text already passed and
`skip` what is left of the match just found; `find` matches the start of a text. -/
def parts (find : List Char → Option Match) (replace : List Char → Match → List Char)
    (before : List Char) : ℕ → List Char → List Part
  | _, [] => []
  | skip + 1, c :: cs => parts find replace (before ++ [c]) skip cs
  | 0, c :: cs =>
      match find (c :: cs) with
      | some m => .replaced m (replace before m) ::
          parts find replace (before ++ [c]) (m.text.length - 1) cs
      | none => .kept c :: parts find replace (before ++ [c]) 0 cs

/-- `re.sub` with a function for the replacement. -/
def sub (find : List Char → Option Match) (replace : List Char → Match → List Char)
    (text : List Char) : List Char :=
  outputs (parts find replace [] 0 text)

section Parts

variable {find : List Char → Option Match} {replace : List Char → Match → List Char}
  {before a b : List Char} {ps qs : List Part}

@[simp] theorem sources_append : sources (ps ++ qs) = sources ps ++ sources qs :=
  List.flatMap_append

@[simp] theorem outputs_append : outputs (ps ++ qs) = outputs ps ++ outputs qs :=
  List.flatMap_append

@[simp] theorem sources_map_kept : sources (a.map Part.kept) = a := by
  induction a with
  | nil => rfl
  | cons c cs ih => simpa [sources, Part.source] using ih

@[simp] theorem outputs_map_kept : outputs (a.map Part.kept) = a := by
  induction a with
  | nil => rfl
  | cons c cs ih => simpa [outputs, Part.output] using ih

theorem parts_nil {skip : ℕ} : parts find replace before skip [] = [] := by
  cases skip <;> rfl

theorem parts_cons_none {c : Char} {cs : List Char} (h : find (c :: cs) = none) :
    parts find replace before 0 (c :: cs) =
      .kept c :: parts find replace (before ++ [c]) 0 cs := by
  rw [parts, h]

theorem parts_skip :
    parts find replace before a.length (a ++ b) = parts find replace (before ++ a) 0 b := by
  induction a generalizing before with
  | nil => simp
  | cons c cs ih =>
      rw [List.length_cons, List.cons_append, parts, ih, List.append_assoc]
      rfl

/-- A match at the start of the text is replaced, and the search goes on behind it. -/
theorem parts_replaced {m : Match} (hne : m.text ≠ []) (h : find (m.text ++ b) = some m) :
    parts find replace before 0 (m.text ++ b) =
      .replaced m (replace before m) :: parts find replace (before ++ m.text) 0 b := by
  obtain ⟨c, cs, htext⟩ := List.exists_cons_of_ne_nil hne
  rw [htext] at h ⊢
  rw [List.cons_append, parts, ← List.cons_append, h]
  simp only [htext, List.length_cons, Nat.add_sub_cancel, parts_skip, List.append_assoc,
    List.singleton_append]

/-- A stretch of text no match starts in is kept. -/
theorem parts_kept (h : ∀ c y, c :: y <:+ a → find (c :: y ++ b) = none) :
    parts find replace before 0 (a ++ b) =
      a.map .kept ++ parts find replace (before ++ a) 0 b := by
  induction a generalizing before with
  | nil => simp
  | cons c cs ih =>
      have hnone : find (c :: (cs ++ b)) = none := h c cs (List.suffix_refl _)
      rw [List.cons_append, parts_cons_none hnone,
        ih fun d y hy => h d y (hy.trans (List.suffix_cons c cs))]
      simp

end Parts

end Regex
