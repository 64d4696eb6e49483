import HexRift.Library.Lines
import HexRift.Model.Constants

/-! # Built-in text operations the program calls

Texts are handled as lists of code points, as Python's `str` methods see them. -/

namespace HexRift.Python

/-! ## Character classes -/

/-- Code points at which a run of ten decimal digits starts (Unicode category `Nd`). -/
def decimalZeros : List ℕ :=
  [0x30, 0x660, 0x6f0, 0x7c0, 0x966, 0x9e6, 0xa66, 0xae6, 0xb66, 0xbe6, 0xc66, 0xce6, 0xd66,
    0xde6, 0xe50, 0xed0, 0xf20, 0x1040, 0x1090, 0x17e0, 0x1810, 0x1946, 0x19d0, 0x1a80, 0x1a90,
    0x1b50, 0x1bb0, 0x1c40, 0x1c50, 0xa620, 0xa8d0, 0xa900, 0xa9d0, 0xa9f0, 0xaa50, 0xabf0,
    0xff10, 0x104a0, 0x10d30, 0x11066, 0x110f0, 0x11136, 0x111d0, 0x112f0, 0x11450, 0x114d0,
    0x11650, 0x116c0, 0x11730, 0x118e0, 0x11950, 0x11c50, 0x11d50, 0x11da0, 0x11f50, 0x16a60,
    0x16ac0, 0x16b50, 0x1d7ce, 0x1d7d8, 0x1d7e2, 0x1d7ec, 0x1d7f6, 0x1e140, 0x1e2f0, 0x1e4f0,
    0x1e950, 0x1fbf0]

/-- Value of a decimal digit of any script, `none` for every other character. -/
def decimal? (c : Char) : Option ℕ :=
  (decimalZeros.find? fun z => z ≤ c.toNat ∧ c.toNat < z + 10).map (c.toNat - ·)

/-- `str.isspace` of one character. -/
def isSpace (c : Char) : Bool :=
  let n := c.toNat
  (0x09 ≤ n ∧ n ≤ 0x0d) ∨ (0x1c ≤ n ∧ n ≤ 0x20) ∨ n = 0x85 ∨ n = 0xa0 ∨ n = 0x1680 ∨
    (0x2000 ≤ n ∧ n ≤ 0x200a) ∨ n = 0x2028 ∨ n = 0x2029 ∨ n = 0x202f ∨ n = 0x205f ∨ n = 0x3000

/-! ## Trimming and splitting -/

def lstrip (s : List Char) : List Char := s.dropWhile isSpace

def rstrip (s : List Char) : List Char := (s.reverse.dropWhile isSpace).reverse

def strip (s : List Char) : List Char := rstrip (lstrip s)

/-- Text before and after the first `sep`. -/
def partition (sep : Char) : List Char → Option (List Char × List Char)
  | [] => none
  | c :: cs =>
      if c = sep then some ([], cs)
      else (partition sep cs).map fun p => (c :: p.1, p.2)

/-- Text before and after the last `sep`. -/
def rpartition (sep : Char) : List Char → Option (List Char × List Char)
  | [] => none
  | c :: cs =>
      match rpartition sep cs with
      | some p => some (c :: p.1, p.2)
      | none => if c = sep then some ([], cs) else none

theorem rpartition_append {sep : Char} {a b : List Char} (hb : sep ∉ b) :
    rpartition sep (a ++ b) = (rpartition sep a).map fun p => (p.1, p.2 ++ b) := by
  induction a with
  | nil =>
      induction b with
      | nil => rfl
      | cons c cs ih =>
          have hcs := ih fun h => hb (List.mem_cons_of_mem c h)
          have hc : c ≠ sep := fun h => hb (h ▸ List.mem_cons_self)
          simp only [List.nil_append, rpartition, Option.map_none] at hcs ⊢
          rw [hcs, if_neg hc]
  | cons c cs ih =>
      rw [List.cons_append, rpartition, ih, rpartition]
      cases rpartition sep cs with
      | some p => rfl
      | none =>
          by_cases hc : c = sep
          · simp [hc]
          · simp [hc]

theorem rpartition_append_sep {sep : Char} (a : List Char) :
    rpartition sep (a ++ [sep]) = some (a, []) := by
  induction a with
  | nil => simp [rpartition]
  | cons c cs ih => rw [List.cons_append, rpartition, ih]

/-- `s.startswith(p)` -/
def startswith (s p : String) : Bool := p.toList.isPrefixOf s.toList

theorem startswith_iff {s p : String} : startswith s p = true ↔ p.toList <+: s.toList := by
  rw [startswith, List.isPrefixOf_iff_prefix]

theorem startswith_append_append (c s p : String) :
    startswith (c ++ s) (c ++ p) = startswith s p := by
  rw [Bool.eq_iff_iff, startswith_iff, startswith_iff, String.toList_append, String.toList_append,
    List.prefix_append_right_inj]

theorem startswith_of_append {s c p : String} (h : startswith s (c ++ p) = true) :
    startswith s c = true := by
  rw [startswith_iff, String.toList_append] at h
  exact startswith_iff.mpr ((List.prefix_append _ _).trans h)

/-- `", ".join(sorted(set(texts)))` -/
def joinSorted (texts : List String) : String :=
  ", ".intercalate (texts.dedup.insertionSort (· ≤ ·))

/-! ## Integers -/

/-- Digits with single underscores between them. `last` tells that the character before
was a digit. -/
def intDigits (acc : ℕ) (last : Bool) : List Char → Option ℕ
  | [] => if last then some acc else none
  | c :: cs =>
      if c = '_' then
        if last then intDigits acc false cs else none
      else
        match decimal? c with
        | some d => intDigits (acc * 10 + d) true cs
        | none => none

/-- `int(s)`: blanks around, an optional sign, digits of any script. -/
def int (s : List Char) : Option ℤ :=
  match strip s with
  | '-' :: cs => (intDigits 0 false cs).map fun n => -(n : ℤ)
  | '+' :: cs => (intDigits 0 false cs).map Int.ofNat
  | cs => (intDigits 0 false cs).map Int.ofNat

/-! ## `ipaddress.ip_address` -/

def isOctet (s : List Char) : Bool :=
  s ≠ [] && s.all Char.isDigit && s.length ≤ 3 && (s = ['0'] || s.head? ≠ some '0') &&
    ((intDigits 0 false s).getD 256 ≤ 255)

def isIPv4Address (s : List Char) : Bool :=
  let octets := s.splitOn '.'
  octets.length = 4 && octets.all isOctet

def isHexDigit (c : Char) : Bool :=
  c.isDigit || ('a' ≤ c && c ≤ 'f') || ('A' ≤ c && c ≤ 'F')

def isHextet (s : List Char) : Bool :=
  s ≠ [] && s.all isHexDigit && s.length ≤ 4

/-- Positions of the empty parts strictly between the first and the last one. -/
def innerEmpties (parts : List (List Char)) : List ℕ :=
  (List.range (parts.length - 1)).filter fun i => 1 ≤ i ∧ parts[i]? = some []

/-- The colon-separated parts of an IPv6 address, an IPv4 tail already split in two. -/
def isIPv6Parts (parts : List (List Char)) : Bool :=
  parts.length ≤ 9 &&
    match innerEmpties parts with
    | [] => parts.length = 8 && parts.all isHextet
    | [skip] =>
        let hi := parts.take skip
        let lo := parts.drop (skip + 1)
        let hi := if hi.head? = some [] then hi.tail else hi
        let lo := if lo.getLast? = some [] then lo.dropLast else lo
        -- an empty end is legal only next to the `::` itself
        (parts.head? ≠ some [] || hi = []) && (parts.getLast? ≠ some [] || lo = []) &&
          hi.length + lo.length ≤ 7 && hi.all isHextet && lo.all isHextet
    | _ => false

def isIPv6Unscoped (s : List Char) : Bool :=
  let parts := s.splitOn ':'
  3 ≤ parts.length &&
    match parts.getLast? with
    | some tail =>
        if '.' ∈ tail then isIPv4Address tail && isIPv6Parts (parts.dropLast ++ [['0'], ['0']])
        else isIPv6Parts parts
    | none => false

def isIPv6Address (s : List Char) : Bool :=
  '/' ∉ s &&
    match partition '%' s with
    | none => isIPv6Unscoped s
    | some (address, scope) => scope ≠ [] && '%' ∉ scope && isIPv6Unscoped address

/-- Whether `ipaddress.ip_address` accepts the text. -/
def isIpAddress (s : List Char) : Bool :=
  isIPv4Address s || isIPv6Address s

/-! ## `repr` -/

def hexDigit (n : ℕ) : Char :=
  if n < 10 then Char.ofNat (0x30 + n) else Char.ofNat (0x57 + n)

def reprChar (quote c : Char) : List Char :=
  if c = quote ∨ c = '\\' then ['\\', c]
  else if c = '\t' then ['\\', 't']
  else if c = '\n' then ['\\', 'n']
  else if c = '\r' then ['\\', 'r']
  else if c.toNat < 0x20 ∨ c.toNat = 0x7f then
    ['\\', 'x', hexDigit (c.toNat / 16), hexDigit (c.toNat % 16)]
  else [c]

/-- `repr` of a text whose characters above ASCII are printable. -/
def repr (s : String) : String :=
  let quote := if '\'' ∈ s.toList ∧ '"' ∉ s.toList then '"' else '\''
  String.ofList (quote :: s.toList.flatMap (reprChar quote) ++ [quote])

example : repr "alice" = "'alice'" := by decide

/-- `repr` of a text or `None`. -/
def reprOption (s : Option String) : String := s.elim "None" repr

/-! ## Lines -/

/-- Code points that end a line for `str.splitlines`. -/
def isLineBreak (c : Char) : Bool :=
  let n := c.toNat
  (0x0a ≤ n ∧ n ≤ 0x0d) ∨ (0x1c ≤ n ∧ n ≤ 0x1e) ∨ n = 0x85 ∨ n = 0x2028 ∨ n = 0x2029

/-- `text.splitlines()` -/
def splitlines (text : String) : List String :=
  (Lines.split isLineBreak text.toList).map fun l => String.ofList l.content

def endswith (s suffix : String) : Bool := suffix.toList.isSuffixOf s.toList

/-- `"\r\n" in text` -/
def containsCrlf : List Char → Bool
  | '\r' :: '\n' :: _ => true
  | _ :: cs => containsCrlf cs
  | [] => false

/-- `s[first:last]` -/
def slice (s : List Char) (first last : ℕ) : List Char := (s.take last).drop first

/-! ## `re.split(r"(\d+)", s)` -/

/-- Code points with a digit value that are no decimal digits. -/
def otherDigits : List (ℕ × ℕ) :=
  [(0xb2, 0xb3), (0xb9, 0xb9), (0x1369, 0x1371), (0x19da, 0x19da), (0x2070, 0x2070),
    (0x2074, 0x2079), (0x2080, 0x2089), (0x2460, 0x2468), (0x2474, 0x247c), (0x2488, 0x2490),
    (0x24ea, 0x24ea), (0x24f5, 0x24fd), (0x24ff, 0x24ff), (0x2776, 0x277e), (0x2780, 0x2788),
    (0x278a, 0x2792), (0x10a40, 0x10a43), (0x10e60, 0x10e68), (0x11052, 0x1105a),
    (0x1f100, 0x1f10a)]

/-- `str.isdigit` -/
def isdigit (s : List Char) : Bool :=
  s ≠ [] && s.all fun c => (decimal? c).isSome ||
    otherDigits.any fun r => r.1 ≤ c.toNat && c.toNat ≤ r.2

/-- Runs of text and of decimal digits, taking turns and starting and ending with text. -/
def splitDigits (s : List Char) : List (List Char) :=
  let runs := s.splitBy fun a b => (decimal? a).isSome == (decimal? b).isSome
  let digits := fun run : Option (List Char) =>
    (run.bind (·.head?)).all fun c => (decimal? c).isSome
  (if digits runs.head? then [[]] else []) ++ runs ++
    if runs ≠ [] && digits runs.getLast? then [[]] else []

/-! ## `json.dumps(s, ensure_ascii=False)` -/

def jsonChar (c : Char) : List Char :=
  if c = '"' ∨ c = '\\' then ['\\', c]
  else if c = '\n' then ['\\', 'n']
  else if c = '\r' then ['\\', 'r']
  else if c = '\t' then ['\\', 't']
  else if c.toNat = 0x0c then ['\\', 'f']
  else if c.toNat = 0x08 then ['\\', 'b']
  else if c.toNat < 0x20 then
    ['\\', 'u', '0', '0', hexDigit (c.toNat / 16), hexDigit (c.toNat % 16)]
  else [c]

def jsonString (s : String) : String :=
  String.ofList ('"' :: s.toList.flatMap jsonChar ++ ['"'])

/-! ## `urllib.parse` -/

/-- Characters `quote` never escapes. -/
def isUnreserved (c : Char) : Bool :=
  c.isAlphanum || c = '_' || c = '.' || c = '-' || c = '~'

/-- `%XX` -/
def quoteByte (b : UInt8) : List Char :=
  ['%', (hexDigit (b.toNat / 16)).toUpper, (hexDigit (b.toNat % 16)).toUpper]

def quoteChar (safe : List Char) (c : Char) : List Char :=
  if isUnreserved c || c ∈ safe then [c] else (String.utf8EncodeChar c).flatMap quoteByte

/-- `quote(s, safe)` -/
def quote (safe : List Char) (s : String) : String :=
  String.ofList (s.toList.flatMap (quoteChar safe))

/-- `urlencode(params, quote_via=quote, safe=safe)` -/
def urlencode (safe : List Char) (params : List (String × String)) : String :=
  "&".intercalate (params.map fun p => quote safe p.1 ++ "=" ++ quote safe p.2)

example : urlencode [] [("path", "/é/")] = "path=%2F%C3%A9%2F" := by decide

end HexRift.Python
