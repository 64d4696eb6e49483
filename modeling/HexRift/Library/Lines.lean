import Mathlib.Data.List.Basic
import Mathlib.Tactic.Common

/-! # Lines and their terminators

A text splits into lines, each with the terminator that ends it. A carriage return and the
line feed after it are one terminator. -/

namespace Lines

/-- A line. The terminator is empty for a last line that has none. -/
structure Line where
  content : List Char
  terminator : List Char
  deriving DecidableEq

section Split

/-- Put a character in front of the first line. -/
def prepend (c : Char) : List Line → List Line
  | [] => [⟨[c], []⟩]
  | l :: ls => ⟨c :: l.content, l.terminator⟩ :: ls

def join (lines : List Line) : List Char :=
  lines.flatMap fun l => l.content ++ l.terminator

variable (isBreak : Char → Bool)

def split : List Char → List Line
  | [] => []
  | '\r' :: '\n' :: cs => ⟨[], ['\r', '\n']⟩ :: split cs
  | c :: cs => if isBreak c then ⟨[], [c]⟩ :: split cs else prepend c (split cs)

theorem join_prepend (c : Char) (ls : List Line) : join (prepend c ls) = c :: join ls := by
  cases ls <;> simp [prepend, join]

theorem join_split (cs : List Char) : join (split isBreak cs) = cs := by
  induction cs using split.induct isBreak with
  | case1 => rfl
  | case2 cs ih =>
      rw [split, join, List.flatMap_cons, ← join, ih]
      rfl
  | case3 c cs hcrlf hbreak ih =>
      rw [split.eq_3 isBreak c cs hcrlf, if_pos hbreak, join, List.flatMap_cons, ← join, ih]
      rfl
  | case4 c cs hcrlf hbreak ih =>
      rw [split.eq_3 isBreak c cs hcrlf, if_neg hbreak, join_prepend, ih]

/-- Splitting stops at the first line feed of a text without other terminators before it. -/
theorem split_append_feed (hfeed : isBreak '\n' = true) (hreturn : isBreak '\r' = true)
    {content : List Char} (h : ∀ c ∈ content, isBreak c = false) (rest : List Char) :
    split isBreak (content ++ '\n' :: rest) = ⟨content, ['\n']⟩ :: split isBreak rest := by
  induction content with
  | nil =>
      rw [List.nil_append, split, if_pos hfeed]
      rintro cs hcr -
      cases hcr
  | cons c cs ih =>
      have hc : isBreak c = false := h c List.mem_cons_self
      have hcs := ih fun d hd => h d (List.mem_cons_of_mem c hd)
      rw [List.cons_append, split, hc, hcs]
      · rfl
      · rintro cs' rfl -
        rw [hreturn] at hc
        cases hc

theorem split_append_return (hreturn : isBreak '\r' = true) {content : List Char}
    (h : ∀ c ∈ content, isBreak c = false) (rest : List Char) :
    split isBreak (content ++ '\r' :: '\n' :: rest) =
      ⟨content, ['\r', '\n']⟩ :: split isBreak rest := by
  induction content with
  | nil => rw [List.nil_append, split]
  | cons c cs ih =>
      have hc : isBreak c = false := h c List.mem_cons_self
      have hcs := ih fun d hd => h d (List.mem_cons_of_mem c hd)
      rw [List.cons_append, split, hc, hcs]
      · rfl
      · rintro cs' rfl -
        rw [hreturn] at hc
        cases hc

/-- Lines that all end in one terminator are what their text splits into. -/
theorem split_flatMap_of {eol : List Char}
    (hsplit : ∀ content : List Char, (∀ c ∈ content, isBreak c = false) → ∀ rest,
      split isBreak (content ++ eol ++ rest) = ⟨content, eol⟩ :: split isBreak rest)
    {contents : List (List Char)} (h : ∀ l ∈ contents, ∀ c ∈ l, isBreak c = false) :
    split isBreak (contents.flatMap fun l => l ++ eol) = contents.map fun l => ⟨l, eol⟩ := by
  induction contents with
  | nil => rfl
  | cons l ls ih =>
      rw [List.flatMap_cons, hsplit l (h l List.mem_cons_self),
        ih fun m hm => h m (List.mem_cons_of_mem l hm)]
      rfl

theorem split_flatMap (hfeed : isBreak '\n' = true) (hreturn : isBreak '\r' = true)
    {contents : List (List Char)} (h : ∀ l ∈ contents, ∀ c ∈ l, isBreak c = false) :
    split isBreak (contents.flatMap fun l => l ++ ['\n']) =
      contents.map fun l => ⟨l, ['\n']⟩ := by
  refine split_flatMap_of isBreak (fun content hcontent rest => ?_) h
  rw [List.append_assoc, List.singleton_append]
  exact split_append_feed isBreak hfeed hreturn hcontent rest

theorem split_flatMap_return (hreturn : isBreak '\r' = true)
    {contents : List (List Char)} (h : ∀ l ∈ contents, ∀ c ∈ l, isBreak c = false) :
    split isBreak (contents.flatMap fun l => l ++ ['\r', '\n']) =
      contents.map fun l => ⟨l, ['\r', '\n']⟩ := by
  refine split_flatMap_of isBreak (fun content hcontent rest => ?_) h
  rw [List.append_assoc, List.cons_append, List.singleton_append]
  exact split_append_return isBreak hreturn hcontent rest

theorem terminator_prepend {c : Char} {ls : List Line} {l : Line} (h : l ∈ prepend c ls) :
    l.terminator = [] ∧ ls = [] ∨ ∃ m ∈ ls, l.terminator = m.terminator := by
  cases ls with
  | nil =>
      rw [prepend, List.mem_singleton] at h
      exact .inl ⟨by rw [h], rfl⟩
  | cons m ms =>
      rcases List.mem_cons.mp h with rfl | h
      · exact .inr ⟨m, List.mem_cons_self, rfl⟩
      · exact .inr ⟨l, List.mem_cons_of_mem m h, rfl⟩

theorem terminator_length_le {cs : List Char} {l : Line} (h : l ∈ split isBreak cs) :
    l.terminator.length ≤ 2 := by
  induction cs using split.induct isBreak generalizing l with
  | case1 => cases h
  | case2 cs ih =>
      rcases List.mem_cons.mp h with rfl | h
      · exact Nat.le_refl 2
      · exact ih h
  | case3 c cs hcrlf hbreak ih =>
      rw [split.eq_3 isBreak c cs hcrlf, if_pos hbreak] at h
      rcases List.mem_cons.mp h with rfl | h
      · exact Nat.le_succ 1
      · exact ih h
  | case4 c cs hcrlf hbreak ih =>
      rw [split.eq_3 isBreak c cs hcrlf, if_neg hbreak] at h
      rcases terminator_prepend h with ⟨hnil, -⟩ | ⟨m, hm, heq⟩
      · simp [hnil]
      · rw [heq]
        exact ih hm

/-- A text that ends with a line feed has no unterminated line. -/
theorem terminator_ne_nil (hfeed : isBreak '\n' = true) {cs : List Char}
    (hlast : cs.getLast? = some '\n') {l : Line} (h : l ∈ split isBreak cs) :
    l.terminator ≠ [] := by
  induction cs using split.induct isBreak generalizing l with
  | case1 => cases h
  | case2 cs ih =>
      rcases List.mem_cons.mp h with rfl | h
      · simp
      · cases cs with
        | nil => cases h
        | cons d ds => exact ih (by simpa [List.getLast?_cons_cons] using hlast) h
  | case3 c cs hcrlf hbreak ih =>
      rw [split.eq_3 isBreak c cs hcrlf, if_pos hbreak] at h
      rcases List.mem_cons.mp h with rfl | h
      · simp
      · cases cs with
        | nil => cases h
        | cons d ds => exact ih (by simpa [List.getLast?_cons_cons] using hlast) h
  | case4 c cs hcrlf hbreak ih =>
      rw [split.eq_3 isBreak c cs hcrlf, if_neg hbreak] at h
      cases cs with
      | nil =>
          rw [List.getLast?_singleton, Option.some.injEq] at hlast
          exact absurd hfeed (hlast ▸ hbreak)
      | cons d ds =>
          have hlast' : (d :: ds).getLast? = some '\n' := by
            simpa [List.getLast?_cons_cons] using hlast
          rcases terminator_prepend h with ⟨-, hnil⟩ | ⟨m, hm, heq⟩
          · have hjoin := join_split isBreak (d :: ds)
            rw [hnil] at hjoin
            cases hjoin
          · rw [heq]
            exact ih hlast' hm

end Split

/-! ## Changing terminators -/

section Terminators

variable {α β : Type*}

theorem length_flatMap_le {f g : α → List β} {xs : List α}
    (hle : ∀ x ∈ xs, (f x).length ≤ (g x).length) :
    (xs.flatMap f).length ≤ (xs.flatMap g).length := by
  induction xs with
  | nil => exact Nat.le_refl _
  | cons x xs ih =>
      have hx := hle x List.mem_cons_self
      have hxs := ih fun y hy => hle y (List.mem_cons_of_mem x hy)
      simp only [List.flatMap_cons, List.length_append]
      omega

/-- Pieces no longer than those of a list of the same total length are as long, so equal texts
have equal pieces. -/
theorem flatMap_inj_of_le {f g : α → List β} {xs : List α}
    (hle : ∀ x ∈ xs, (f x).length ≤ (g x).length) (h : xs.flatMap f = xs.flatMap g) :
    ∀ x ∈ xs, f x = g x := by
  induction xs with
  | nil => exact fun x hx => absurd hx List.not_mem_nil
  | cons x xs ih =>
      have hx := hle x List.mem_cons_self
      have hle' : ∀ y ∈ xs, (f y).length ≤ (g y).length :=
        fun y hy => hle y (List.mem_cons_of_mem x hy)
      have hxs := length_flatMap_le hle'
      have hlen := congrArg List.length h
      simp only [List.flatMap_cons, List.length_append] at h hlen
      obtain ⟨hhead, htail⟩ := List.append_inj h (by omega)
      intro y hy
      rcases List.mem_cons.mp hy with rfl | hy
      · exact hhead
      · exact ih hle' htail y hy

/-- Writing one terminator after every line changes nothing exactly when each line has that
terminator, provided no terminator is longer, or none is shorter. -/
theorem flatMap_terminator_eq_iff {content terminator : α → List β} {eol : List β} {xs : List α}
    (hlen : (∀ x ∈ xs, (terminator x).length ≤ eol.length) ∨
      ∀ x ∈ xs, eol.length ≤ (terminator x).length) :
    (xs.flatMap fun x => content x ++ eol) = (xs.flatMap fun x => content x ++ terminator x) ↔
      ∀ x ∈ xs, terminator x = eol := by
  constructor
  · intro h x hx
    rcases hlen with hle | hge
    · have hpieces := flatMap_inj_of_le (fun y hy => by simp [hle y hy]) h.symm x hx
      exact List.append_cancel_left hpieces
    · have hpieces := flatMap_inj_of_le (fun y hy => by simp [hge y hy]) h x hx
      exact (List.append_cancel_left hpieces).symm
  · intro h
    refine List.flatMap_congr fun x hx => ?_
    rw [h x hx]

end Terminators

end Lines
