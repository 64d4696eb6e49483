import Mathlib.Data.Int.Notation
import Mathlib.Data.List.Basic
import Mathlib.Tactic.Common

/-! # JSON texts

The values a JSON text stands for, numbers being integers, the grammar of the texts that
write a value, with blanks between any two tokens, and a parser that reads back whatever the
grammar allows. -/

inductive Json where
  | null
  | bool (b : Bool)
  | int (n : ℤ)
  | str (s : String)
  | arr (items : List Json)
  | obj (fields : List (String × Json))

namespace Json

/-- Induction over values, with a hypothesis for every item and every field. -/
@[elab_as_elim, induction_eliminator]
theorem induct {P : Json → Prop} (null : P .null) (bool : ∀ b, P (.bool b))
    (int : ∀ n, P (.int n)) (str : ∀ s, P (.str s))
    (arr : ∀ items, (∀ v ∈ items, P v) → P (.arr items))
    (obj : ∀ fields, (∀ f ∈ fields, P f.2) → P (.obj fields)) (v : Json) : P v :=
  @Json.rec P (fun items => ∀ v ∈ items, P v) (fun fields => ∀ f ∈ fields, P f.2)
    (fun f => P f.2) null bool int str arr obj (by simp)
    (fun _ _ hv hvs => List.forall_mem_cons.mpr ⟨hv, hvs⟩) (by simp)
    (fun _ _ hf hfs => List.forall_mem_cons.mpr ⟨hf, hfs⟩) (fun _ _ hv => hv) v

/-! ## Tokens -/

/-- The blanks JSON allows between tokens. -/
def isBlank (c : Char) : Bool :=
  c = ' ' || c = '\t' || c = '\n' || c = '\r'

def skipBlanks (t : List Char) : List Char := t.dropWhile isBlank

/-- Characters of numbers and of the words `null`, `true` and `false`. -/
def isWordChar (c : Char) : Bool :=
  c.isAlphanum || c = '-' || c = '+' || c = '.'

def readNat (t : List Char) : Option ℕ :=
  if t ≠ [] ∧ t.all Char.isDigit ∧ (t = ['0'] ∨ t.head? ≠ some '0') then
    some (Nat.ofDigitChars 10 t 0)
  else none

def readInt (t : List Char) : Option ℤ :=
  if t.head? = some '-' then (readNat t.tail).map fun n => -(n : ℤ)
  else (readNat t).map Int.ofNat

/-- The value of a word. Numbers with a fraction or an exponent have none here. -/
def readWord (t : List Char) : Option Json :=
  if t = "null".toList then some .null
  else if t = "true".toList then some (.bool true)
  else if t = "false".toList then some (.bool false)
  else (readInt t).map .int

/-! ## Strings -/

def hexValue (c : Char) : Option ℕ :=
  if c.isDigit then some (c.toNat - 0x30)
  else if 'a' ≤ c ∧ c ≤ 'f' then some (c.toNat - 0x57)
  else if 'A' ≤ c ∧ c ≤ 'F' then some (c.toNat - 0x37)
  else none

def hexUnit (a b c d : Char) : Option ℕ := do
  let a ← hexValue a
  let b ← hexValue b
  let c ← hexValue c
  let d ← hexValue d
  some (((a * 16 + b) * 16 + c) * 16 + d)

theorem hexValue_isSome {a b c d e : Char} {n : ℕ} (h : hexUnit a b c d = some n)
    (he : e ∈ [a, b, c, d]) : (hexValue e).isSome = true := by
  simp only [hexUnit, Option.bind_eq_bind, Option.bind_eq_some_iff] at h
  obtain ⟨_, ha, _, hb, _, hc, _, hd, -⟩ := h
  simp only [List.mem_cons, List.not_mem_nil, or_false] at he
  rcases he with rfl | rfl | rfl | rfl
  · rw [ha]; rfl
  · rw [hb]; rfl
  · rw [hc]; rfl
  · rw [hd]; rfl

/-- The character a letter stands for behind a backslash. -/
def escaped (c : Char) : Option Char :=
  if c = '"' ∨ c = '\\' ∨ c = '/' then some c
  else if c = 'n' then some '\n'
  else if c = 'r' then some '\r'
  else if c = 't' then some '\t'
  else if c = 'f' then some (Char.ofNat 0x0c)
  else if c = 'b' then some (Char.ofNat 0x08)
  else none

/-- The code units of a string up to its closing quote, and the text behind it. -/
def readUnits : List Char → Option (List ℕ × List Char)
  | [] => none
  | c :: cs =>
      if c = '"' then some ([], cs)
      else if c = '\\' then
        match cs with
        | 'u' :: w :: x :: y :: z :: cs =>
            (hexUnit w x y z).bind fun n => (readUnits cs).map fun p => (n :: p.1, p.2)
        | e :: cs => (escaped e).bind fun n => (readUnits cs).map fun p => (n.toNat :: p.1, p.2)
        | [] => none
      else if c.toNat < 0x20 then none
      else (readUnits cs).map fun p => (c.toNat :: p.1, p.2)

def isHighSurrogate (n : ℕ) : Bool := 0xd800 ≤ n && n < 0xdc00

def isLowSurrogate (n : ℕ) : Bool := 0xdc00 ≤ n && n < 0xe000

/-- The characters of a list of code units, pairs of surrogates joined. -/
def decodeUnits : List ℕ → Option (List Char)
  | [] => some []
  | n :: ns =>
      if isHighSurrogate n then
        match ns with
        | m :: ms =>
            if isLowSurrogate m then
              (decodeUnits ms).map
                (Char.ofNat (0x10000 + (n - 0xd800) * 0x400 + (m - 0xdc00)) :: ·)
            else none
        | [] => none
      else if isLowSurrogate n then none
      else (decodeUnits ns).map (Char.ofNat n :: ·)

/-- A string after its opening quote, and the text behind it. -/
def readString (t : List Char) : Option (String × List Char) :=
  (readUnits t).bind fun p => (decodeUnits p.1).map fun cs => (String.ofList cs, p.2)

/-- The key of a field and the text behind its colon. -/
def readKey (t : List Char) : Option (String × List Char) :=
  match skipBlanks t with
  | '"' :: t => (readString t).bind fun p =>
      match skipBlanks p.2 with
      | ':' :: t => some (p.1, t)
      | _ => none
  | _ => none

/-! ## The parser -/

mutual

/-- The value at the start of a text, and the text behind it. -/
def parseValue : ℕ → List Char → Option (Json × List Char)
  | 0, _ => none
  | _ + 1, [] => none
  | n + 1, c :: cs =>
      if c = '"' then (readString cs).map fun p => (.str p.1, p.2)
      else if c = '[' then
        if (skipBlanks cs).head? = some ']' then some (.arr [], (skipBlanks cs).tail)
        else (parseItems n cs).map fun p => (.arr p.1, p.2)
      else if c = '\x7b' then
        if (skipBlanks cs).head? = some '\x7d' then some (.obj [], (skipBlanks cs).tail)
        else (parseFields n cs).map fun p => (.obj p.1, p.2)
      else
        (readWord ((c :: cs).takeWhile isWordChar)).map fun v =>
          (v, (c :: cs).dropWhile isWordChar)

/-- The items of an array up to its closing bracket. -/
def parseItems : ℕ → List Char → Option (List Json × List Char)
  | 0, _ => none
  | n + 1, t => do
      let (v, t) ← parseValue n (skipBlanks t)
      match skipBlanks t with
      | ',' :: t => (parseItems n t).map fun p => (v :: p.1, p.2)
      | ']' :: t => some ([v], t)
      | _ => none

/-- The fields of an object up to its closing brace. -/
def parseFields : ℕ → List Char → Option (List (String × Json) × List Char)
  | 0, _ => none
  | n + 1, t => do
      let (key, t) ← readKey t
      let (v, t) ← parseValue n (skipBlanks t)
      match skipBlanks t with
      | ',' :: t => (parseFields n t).map fun p => ((key, v) :: p.1, p.2)
      | '\x7d' :: t => some ([(key, v)], t)
      | _ => none

end

/-- The value a text writes, blanks allowed around it. -/
def parse (t : List Char) : Option Json := do
  let (v, rest) ← parseValue (t.length + 1) (skipBlanks t)
  if skipBlanks rest = [] then some v else none

/-! ## The grammar -/

def Blank (w : List Char) : Prop := ∀ c ∈ w, isBlank c = true

/-- Texts between the quotes of a string. -/
inductive WrittenUnits : List ℕ → List Char → Prop
  | nil : WrittenUnits [] []
  | raw {c ns t} (hquote : c ≠ '"') (hslash : c ≠ '\\') (hcontrol : 0x20 ≤ c.toNat)
      (h : WrittenUnits ns t) : WrittenUnits (c.toNat :: ns) (c :: t)
  | escape {e c ns t} (he : escaped e = some c) (h : WrittenUnits ns t) :
      WrittenUnits (c.toNat :: ns) ('\\' :: e :: t)
  | unicode {w x y z n ns t} (hn : hexUnit w x y z = some n) (h : WrittenUnits ns t) :
      WrittenUnits (n :: ns) ('\\' :: 'u' :: w :: x :: y :: z :: t)

/-- Texts of a string, quotes included. -/
inductive WrittenString : String → List Char → Prop
  | intro {s ns t} (h : WrittenUnits ns t) (hs : decodeUnits ns = some s.toList) :
      WrittenString s ('"' :: t ++ ['"'])

mutual

/-- Texts of a value. -/
inductive Written : Json → List Char → Prop
  | word {v t} (hne : t ≠ []) (hchars : ∀ c ∈ t, isWordChar c = true)
      (h : readWord t = some v) : Written v t
  | str {s t} (h : WrittenString s t) : Written (.str s) t
  | noItems {w} (hw : Blank w) : Written (.arr []) ('[' :: w ++ [']'])
  | items {vs t} (h : WrittenItems vs t) : Written (.arr vs) ('[' :: t ++ [']'])
  | noFields {w} (hw : Blank w) : Written (.obj []) ('\x7b' :: w ++ ['\x7d'])
  | fields {fs t} (h : WrittenFields fs t) : Written (.obj fs) ('\x7b' :: t ++ ['\x7d'])

/-- Texts between the brackets of an array that has items. -/
inductive WrittenItems : List Json → List Char → Prop
  | last {w v t w'} (hw : Blank w) (h : Written v t) (hw' : Blank w') :
      WrittenItems [v] (w ++ t ++ w')
  | more {w v t w' vs ts} (hw : Blank w) (h : Written v t) (hw' : Blank w')
      (hs : WrittenItems vs ts) : WrittenItems (v :: vs) (w ++ t ++ w' ++ ',' :: ts)

/-- Texts between the braces of an object that has fields. -/
inductive WrittenFields : List (String × Json) → List Char → Prop
  | last {key v tk t w₁ w₂ w₃ w₄} (hw₁ : Blank w₁) (hkey : WrittenString key tk) (hw₂ : Blank w₂)
      (hw₃ : Blank w₃) (h : Written v t) (hw₄ : Blank w₄) :
      WrittenFields [(key, v)] (w₁ ++ tk ++ w₂ ++ ':' :: w₃ ++ t ++ w₄)
  | more {key v tk t w₁ w₂ w₃ w₄ fs ts} (hw₁ : Blank w₁) (hkey : WrittenString key tk)
      (hw₂ : Blank w₂) (hw₃ : Blank w₃) (h : Written v t) (hw₄ : Blank w₄)
      (hs : WrittenFields fs ts) :
      WrittenFields ((key, v) :: fs) (w₁ ++ tk ++ w₂ ++ ':' :: w₃ ++ t ++ w₄ ++ ',' :: ts)

end

/-- Items written one behind the other with the same blanks between any two. -/
theorem writtenItems_of {v : Json} {vs : List Json} {f : Json → List Char} {w w' sep : List Char}
    (hf : ∀ u ∈ v :: vs, Written u (f u)) (hw : Blank w) (hsep : Blank sep) (hw' : Blank w') :
    WrittenItems (v :: vs) (w ++ f v ++ (vs.flatMap fun u => ',' :: sep ++ f u) ++ w') := by
  induction vs generalizing v w with
  | nil =>
      rw [List.flatMap_nil, List.append_nil]
      exact .last hw (hf v List.mem_cons_self) hw'
  | cons v' vs ih =>
      rw [List.forall_mem_cons] at hf
      have hnil : Blank [] := by simp [Blank]
      simpa using WrittenItems.more hw hf.1 hnil (ih hf.2 hsep)

theorem writtenFields_of {p : String × Json} {ps : List (String × Json)}
    {k : String → List Char} {f : String × Json → List Char} {w w' sep : List Char}
    (hk : ∀ key, WrittenString key (k key)) (hf : ∀ q ∈ p :: ps, Written q.2 (f q))
    (hw : Blank w) (hsep : Blank sep) (hw' : Blank w') :
    WrittenFields (p :: ps) (w ++ k p.1 ++ [':', ' '] ++ f p ++
      (ps.flatMap fun q => ',' :: sep ++ k q.1 ++ [':', ' '] ++ f q) ++ w') := by
  have hspace : Blank [' '] := by simp [Blank, isBlank]
  have hnil : Blank [] := by simp [Blank]
  induction ps generalizing p w with
  | nil => simpa using WrittenFields.last hw (hk p.1) hnil hspace (hf p List.mem_cons_self) hw'
  | cons q ps ih =>
      rw [List.forall_mem_cons] at hf
      simpa using WrittenFields.more hw (hk p.1) hnil hspace hf.1 hnil (ih hf.2 hsep)

/-! ## The parser reads back what is written -/

theorem skipBlanks_append {w t : List Char} (hw : Blank w) :
    skipBlanks (w ++ t) = skipBlanks t := by
  induction w with
  | nil => rfl
  | cons c cs ih =>
      rw [List.cons_append, skipBlanks, List.dropWhile_cons, if_pos (hw c List.mem_cons_self)]
      exact ih fun d hd => hw d (List.mem_cons_of_mem c hd)

theorem skipBlanks_cons {c : Char} {t : List Char} (hc : isBlank c = false) :
    skipBlanks (c :: t) = c :: t := by
  simp [skipBlanks, hc]

theorem skipBlanks_eq_nil {w : List Char} (hw : Blank w) : skipBlanks w = [] := by
  rw [← List.append_nil w, skipBlanks_append hw]
  rfl

/-- Texts no word runs on into. -/
def Closed (t : List Char) : Prop := ∀ c ∈ t.head?, isWordChar c = false

theorem isWordChar_of_isBlank {c : Char} (h : isBlank c = true) : isWordChar c = false := by
  simp only [isBlank, Bool.or_eq_true, decide_eq_true_eq] at h
  obtain ((rfl | rfl) | rfl) | rfl := h <;> decide

theorem Blank.closed {w t : List Char} (hw : Blank w) (ht : Closed t) : Closed (w ++ t) := by
  cases w with
  | nil => exact ht
  | cons c cs =>
      intro d hd
      obtain rfl : c = d := by simpa using hd
      exact isWordChar_of_isBlank (hw c List.mem_cons_self)

theorem takeWhile_word {t rest : List Char} (ht : ∀ c ∈ t, isWordChar c = true)
    (hrest : Closed rest) : (t ++ rest).takeWhile isWordChar = t ∧
      (t ++ rest).dropWhile isWordChar = rest := by
  have hhead : rest.takeWhile isWordChar = [] ∧ rest.dropWhile isWordChar = rest := by
    cases rest with
    | nil => exact ⟨rfl, rfl⟩
    | cons c cs => simp [hrest c rfl]
  rw [List.takeWhile_append_of_pos ht, List.dropWhile_append_of_pos ht, hhead.1, hhead.2]
  simp

theorem readUnits_written {ns : List ℕ} {t rest : List Char} (h : WrittenUnits ns t) :
    readUnits (t ++ '"' :: rest) = some (ns, rest) := by
  induction h with
  | nil =>
      rw [List.nil_append, readUnits.eq_def]
      rfl
  | raw hquote hslash hcontrol _ ih =>
      rw [List.cons_append, readUnits.eq_def]
      simp [hquote, hslash, Nat.not_lt.mpr hcontrol, ih]
  | @escape e _ _ _ he _ ih =>
      have hu : e ≠ 'u' := by
        rintro rfl
        simp [escaped] at he
      rw [List.cons_append, List.cons_append, readUnits]
      · simp [he, ih]
      · exact fun _ _ _ _ _ h => absurd h hu
  | unicode hn _ ih => simp [readUnits, hn, ih]

/-- What a written string starts with, and what its reader makes of the rest. -/
theorem WrittenString.read {s : String} {t : List Char} (h : WrittenString s t)
    (rest : List Char) :
    ∃ cs, t = '"' :: cs ∧ readString (cs ++ rest) = some (s, rest) := by
  cases h with
  | @intro ns t h hs =>
      refine ⟨t ++ ['"'], rfl, ?_⟩
      rw [List.append_assoc, List.singleton_append, readString, readUnits_written h]
      simp [hs]

theorem Written.start {v : Json} {t : List Char} (h : Written v t) :
    ∃ c cs, t = c :: cs ∧ isBlank c = false ∧ c ≠ ']' := by
  cases h with
  | word hne hchars _ =>
      obtain ⟨c, cs, rfl⟩ := List.exists_cons_of_ne_nil hne
      have hc := hchars c List.mem_cons_self
      refine ⟨c, cs, rfl, ?_, ?_⟩
      · rw [Bool.eq_false_iff]
        intro hblank
        rw [isWordChar_of_isBlank hblank] at hc
        cases hc
      · rintro rfl
        cases hc
  | str h =>
      obtain ⟨cs, rfl, -⟩ := h.read []
      exact ⟨'"', cs, rfl, rfl, by decide⟩
  | noItems | items => exact ⟨'[', _, rfl, rfl, by decide⟩
  | noFields | fields => exact ⟨'\x7b', _, rfl, rfl, by decide⟩

theorem Written.skipBlanks {v : Json} {t w rest : List Char} (h : Written v t) (hw : Blank w) :
    skipBlanks (w ++ t ++ rest) = t ++ rest := by
  obtain ⟨c, cs, rfl, hblank, -⟩ := h.start
  rw [List.append_assoc, skipBlanks_append hw, List.cons_append, skipBlanks_cons hblank]

/-- What `n` rounds of the parser read. -/
def ReadsValues (n : ℕ) : Prop := ∀ v t rest, Written v t → t.length < n → Closed rest →
  parseValue n (t ++ rest) = some (v, rest)

def ReadsItems (n : ℕ) : Prop := ∀ vs t rest, WrittenItems vs t → t.length + 1 < n →
  parseItems n (t ++ ']' :: rest) = some (vs, rest)

def ReadsFields (n : ℕ) : Prop := ∀ fs t rest, WrittenFields fs t → t.length + 1 < n →
  parseFields n (t ++ '\x7d' :: rest) = some (fs, rest)

theorem parseValue_word {v : Json} {t rest : List Char} {n : ℕ} (hne : t ≠ [])
    (hchars : ∀ c ∈ t, isWordChar c = true) (h : readWord t = some v) (hrest : Closed rest) :
    parseValue (n + 1) (t ++ rest) = some (v, rest) := by
  obtain ⟨c, cs, rfl⟩ := List.exists_cons_of_ne_nil hne
  have hc := hchars c List.mem_cons_self
  have hquote : c ≠ '"' := by rintro rfl; cases hc
  have hbracket : c ≠ '[' := by rintro rfl; cases hc
  have hbrace : c ≠ '\x7b' := by rintro rfl; cases hc
  obtain ⟨htake, hdrop⟩ := takeWhile_word hchars hrest
  rw [List.cons_append] at htake hdrop
  rw [List.cons_append, parseValue, if_neg hquote, if_neg hbracket, if_neg hbrace, htake, h, hdrop]
  rfl

theorem WrittenItems.start {vs : List Json} {t : List Char} (h : WrittenItems vs t)
    (rest : List Char) :
    (Json.skipBlanks (t ++ rest)).head? ≠ some ']' := by
  cases h with
  | last hw hv | more hw hv =>
      obtain ⟨c, cs, rfl, hblank, hbracket⟩ := hv.start
      simp only [List.append_assoc, skipBlanks_append hw, List.cons_append]
      rw [skipBlanks_cons hblank]
      simpa using hbracket

theorem WrittenFields.start {fs : List (String × Json)} {t : List Char}
    (h : WrittenFields fs t) (rest : List Char) :
    (Json.skipBlanks (t ++ rest)).head? ≠ some '\x7d' := by
  cases h with
  | last hw hkey | more hw hkey =>
      obtain ⟨cs, rfl, -⟩ := hkey.read []
      simp only [List.append_assoc, skipBlanks_append hw, List.cons_append]
      rw [skipBlanks_cons (by decide)]
      simp

theorem parseItems_step {n : ℕ} (hvalues : ReadsValues n) (hitems : ReadsItems n) :
    ReadsItems (n + 1) := by
  intro vs t rest h hn
  cases h with
  | @last w v t w' hw hv hw' =>
      have hread := hvalues v t (w' ++ ']' :: rest) hv (by simp at hn; omega)
        (hw'.closed (by simp [Closed, isWordChar]))
      rw [parseItems, List.append_assoc, hv.skipBlanks hw, hread]
      simp [skipBlanks_append hw', skipBlanks_cons, isBlank]
  | @more w v t w' vs ts hw hv hw' hvs =>
      have hread := hvalues v t (w' ++ ',' :: ts ++ ']' :: rest) hv (by simp at hn; omega)
        (by rw [List.append_assoc]; exact hw'.closed (by simp [Closed, isWordChar]))
      have hrest := hitems vs ts rest hvs (by simp at hn; omega)
      have htext : w ++ t ++ w' ++ ',' :: ts ++ ']' :: rest =
          w ++ t ++ (w' ++ ',' :: ts ++ ']' :: rest) := by
        simp
      rw [htext, parseItems, hv.skipBlanks hw, hread]
      simp [skipBlanks_append hw', skipBlanks_cons, isBlank, hrest]

theorem readKey_written {key : String} {tk w w' rest : List Char} (hw : Blank w)
    (hkey : WrittenString key tk) (hw' : Blank w') :
    readKey (w ++ tk ++ w' ++ ':' :: rest) = some (key, rest) := by
  obtain ⟨cs, rfl, hread⟩ := hkey.read (w' ++ ':' :: rest)
  have hcolon : skipBlanks (w' ++ ':' :: rest) = ':' :: rest := by
    rw [skipBlanks_append hw', skipBlanks_cons (by decide)]
  rw [readKey, List.append_assoc, List.append_assoc, skipBlanks_append hw, List.cons_append,
    skipBlanks_cons (by decide)]
  simp only [hread, Option.bind_some, hcolon]

theorem parseFields_step {n : ℕ} (hvalues : ReadsValues n) (hfields : ReadsFields n) :
    ReadsFields (n + 1) := by
  intro fs t rest h hn
  cases h with
  | @last key v tk t w₁ w₂ w₃ w₄ hw₁ hkey hw₂ hw₃ hv hw₄ =>
      have hread := hvalues v t (w₄ ++ '\x7d' :: rest) hv (by simp at hn; omega)
        (hw₄.closed (by simp [Closed, isWordChar]))
      have htext : w₁ ++ tk ++ w₂ ++ ':' :: w₃ ++ t ++ w₄ ++ '\x7d' :: rest =
          w₁ ++ tk ++ w₂ ++ ':' :: (w₃ ++ t ++ (w₄ ++ '\x7d' :: rest)) := by
        simp
      rw [htext, parseFields, readKey_written hw₁ hkey hw₂]
      simp only [Option.bind_eq_bind, Option.bind_some, hv.skipBlanks hw₃, hread]
      simp [skipBlanks_append hw₄, skipBlanks_cons, isBlank]
  | @more key v tk t w₁ w₂ w₃ w₄ fs ts hw₁ hkey hw₂ hw₃ hv hw₄ hfs =>
      have hread := hvalues v t (w₄ ++ ',' :: ts ++ '\x7d' :: rest) hv (by simp at hn; omega)
        (by rw [List.append_assoc]; exact hw₄.closed (by simp [Closed, isWordChar]))
      have hrest := hfields fs ts rest hfs (by simp at hn; omega)
      have htext : w₁ ++ tk ++ w₂ ++ ':' :: w₃ ++ t ++ w₄ ++ ',' :: ts ++ '\x7d' :: rest =
          w₁ ++ tk ++ w₂ ++ ':' :: (w₃ ++ t ++ (w₄ ++ ',' :: ts ++ '\x7d' :: rest)) := by
        simp
      rw [htext, parseFields, readKey_written hw₁ hkey hw₂]
      simp only [Option.bind_eq_bind, Option.bind_some, hv.skipBlanks hw₃, hread]
      simp [skipBlanks_append hw₄, skipBlanks_cons, isBlank, hrest]

theorem parseValue_step {n : ℕ} (hitems : ReadsItems n) (hfields : ReadsFields n) :
    ReadsValues (n + 1) := by
  intro v t rest h hn hrest
  cases h with
  | word hne hchars hword => exact parseValue_word hne hchars hword hrest
  | str hs =>
      obtain ⟨cs, rfl, hread⟩ := hs.read rest
      simp [parseValue, hread]
  | @noItems w hw =>
      have hblanks : skipBlanks (w ++ ']' :: rest) = ']' :: rest := by
        rw [skipBlanks_append hw, skipBlanks_cons (by decide)]
      simp [parseValue, hblanks]
  | @items vs t hvs =>
      have hstart := hvs.start (']' :: rest)
      have hread := hitems vs t rest hvs (by simp at hn; omega)
      simp [parseValue, hstart, hread]
  | @noFields w hw =>
      have hblanks : skipBlanks (w ++ '\x7d' :: rest) = '\x7d' :: rest := by
        rw [skipBlanks_append hw, skipBlanks_cons (by decide)]
      simp [parseValue, hblanks]
  | @fields fs t hfs =>
      have hstart := hfs.start ('\x7d' :: rest)
      have hread := hfields fs t rest hfs (by simp at hn; omega)
      simp [parseValue, hstart, hread]

theorem reads_written (n : ℕ) : ReadsValues n ∧ ReadsItems n ∧ ReadsFields n := by
  induction n with
  | zero => exact ⟨fun _ _ _ _ h => by omega, fun _ _ _ _ h => by omega, fun _ _ _ _ h => by omega⟩
  | succ n ih =>
      obtain ⟨hvalues, hitems, hfields⟩ := ih
      exact ⟨parseValue_step hitems hfields, parseItems_step hvalues hitems,
        parseFields_step hvalues hfields⟩

/-- The parser reads every text the grammar has for a value as that value. -/
theorem parse_written {v : Json} {t w : List Char} (h : Written v t) (hw : Blank w) :
    parse (t ++ w) = some v := by
  have hread := (reads_written ((t ++ w).length + 1)).1 v t w h
    (by rw [List.length_append]; omega)
    (by simpa using hw.closed (t := []) (by simp [Closed]))
  have hstart : skipBlanks (t ++ w) = t ++ w := h.skipBlanks (w := []) (by simp [Blank])
  rw [parse, hstart, hread]
  simp [skipBlanks_eq_nil hw]

/-! ## Characters -/

theorem not_surrogate (c : Char) :
    isHighSurrogate c.toNat = false ∧ isLowSurrogate c.toNat = false := by
  have hvalid := c.valid
  simp only [isHighSurrogate, isLowSurrogate, Bool.and_eq_false_iff, decide_eq_false_iff_not]
  simp only [UInt32.isValidChar, Nat.isValidChar] at hvalid
  change c.toNat < 0xd800 ∨ 0xdfff < c.toNat ∧ c.toNat < 0x110000 at hvalid
  omega

theorem decodeUnits_chars (cs : List Char) : decodeUnits (cs.map Char.toNat) = some cs := by
  induction cs with
  | nil => rfl
  | cons c cs ih =>
      obtain ⟨hhigh, hlow⟩ := not_surrogate c
      rw [List.map_cons, decodeUnits.eq_def]
      simp [hhigh, hlow, ih]

/-! ## Integers -/

theorem head_toDigits {n : ℕ} (hn : 0 < n) : (Nat.toDigits 10 n).head? ≠ some '0' := by
  induction n using Nat.strongRecOn with
  | _ n ih =>
      by_cases hlt : n < 10
      · rw [Nat.toDigits_of_lt_base hlt]
        simp
        omega
      · rw [Nat.toDigits_of_base_le (by decide) (by omega), List.head?_append]
        have hhead := ih (n / 10) (by omega) (by omega)
        cases hdigits : (Nat.toDigits 10 (n / 10)).head? with
        | none => simp at hdigits
        | some d => rwa [hdigits] at hhead

theorem readNat_toDigits (n : ℕ) : readNat (Nat.toDigits 10 n) = some n := by
  have hdigits : (Nat.toDigits 10 n).all Char.isDigit = true :=
    List.all_eq_true.mpr fun c hc => Nat.isDigit_of_mem_toDigits (by decide) (by decide) hc
  have hzeros : Nat.toDigits 10 n = ['0'] ∨ (Nat.toDigits 10 n).head? ≠ some '0' := by
    by_cases hn : n = 0
    · rw [hn]
      exact .inl (by simp)
    · exact .inr (head_toDigits (by omega))
  rw [readNat, if_pos ⟨by simp, hdigits, hzeros⟩]
  simp

/-- Digits of the absolute value of an integer, behind a sign where it is negative. -/
theorem toList_toString_int (n : ℤ) : (toString n).toList =
    if 0 ≤ n then Nat.toDigits 10 n.toNat else '-' :: Nat.toDigits 10 (-n).toNat := by
  rw [Int.toString_eq_repr, Int.repr_eq_if]
  split
  · rw [Nat.toList_repr]
  · rw [String.toList_append, Nat.toList_repr]
    rfl

theorem toString_int_chars {n : ℤ} {c : Char} (hc : c ∈ (toString n).toList) :
    c.isDigit = true ∨ c = '-' := by
  have hdigit : ∀ m, c ∈ Nat.toDigits 10 m → c.isDigit = true := fun m hm =>
    Nat.isDigit_of_mem_toDigits (by decide) (by decide) hm
  rw [toList_toString_int] at hc
  split at hc
  · exact .inl (hdigit _ hc)
  · exact (List.mem_cons.mp hc).symm.imp_left (hdigit _)

theorem toString_int_ne {n : ℤ} {t : List Char} {c : Char} (hc : c ∈ t)
    (hdigit : c.isDigit = false) (hsign : c ≠ '-') : (toString n).toList ≠ t := by
  rintro rfl
  rcases toString_int_chars hc with h | h
  · rw [hdigit] at h
    cases h
  · exact hsign h

theorem readInt_toString (n : ℤ) : readInt (toString n).toList = some n := by
  rw [toList_toString_int]
  split
  · have hsign : (Nat.toDigits 10 n.toNat).head? ≠ some '-' := by
      intro h
      have hdigit := Nat.isDigit_of_mem_toDigits (by decide) (by decide) (List.mem_of_head? h)
      cases hdigit
    rw [readInt, if_neg hsign, readNat_toDigits]
    simp
    omega
  · rw [readInt, List.head?_cons, if_pos rfl, List.tail_cons, readNat_toDigits]
    simp
    omega

theorem written_int (n : ℤ) : Written (.int n) (toString n).toList := by
  refine .word ?_ ?_ ?_
  · rw [toList_toString_int]
    split <;> simp
  · intro c hc
    rcases toString_int_chars hc with h | rfl
    · simp [isWordChar, Char.isAlphanum, h]
    · decide
  · rw [readWord, if_neg, if_neg, if_neg, readInt_toString]
    · rfl
    · exact toString_int_ne (c := 'f') (by decide) (by decide) (by decide)
    · exact toString_int_ne (c := 't') (by decide) (by decide) (by decide)
    · exact toString_int_ne (c := 'n') (by decide) (by decide) (by decide)

end Json
