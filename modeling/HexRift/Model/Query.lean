import HexRift.Model.Share
import HexRift.Model.Url

/-! # Reading URLs

The parts of `urllib.parse` by which a URL that was handed out is read back. -/

namespace HexRift.Python

/-- The value of a hexadecimal digit, in either case. -/
def hexValue? (c : Char) : Option ℕ :=
  let n := c.toNat
  if 0x30 ≤ n ∧ n ≤ 0x39 then some (n - 0x30)
  else if 0x41 ≤ n ∧ n ≤ 0x46 then some (n - 0x37)
  else if 0x61 ≤ n ∧ n ≤ 0x66 then some (n - 0x57)
  else none

/-- `unquote_to_bytes`: a `%` that no two digits follow stands for itself. -/
def unquoteToBytes : List Char → List UInt8
  | [] => []
  | '%' :: high :: low :: rest =>
      match hexValue? high, hexValue? low with
      | some h, some l => UInt8.ofNat (16 * h + l) :: unquoteToBytes rest
      | _, _ => String.utf8EncodeChar '%' ++ unquoteToBytes (high :: low :: rest)
  | c :: rest => String.utf8EncodeChar c ++ unquoteToBytes rest

/-- `unquote(s)`, or nothing where it would put in replacement characters. -/
def unquote (s : List Char) : Option String :=
  String.fromUTF8? (unquoteToBytes s).toByteArray

/-- Forms write a blank as `+`. -/
def plusToSpace (c : Char) : Char := if c = '+' then ' ' else c

/-- One field of a query: `parse_qsl` leaves out a name without a value. -/
def parseField (field : List Char) : Option (Option (String × String)) :=
  match partition '=' field with
  | none => some none
  | some (_, []) => some none
  | some (name, value) => do
      some (some (← unquote (name.map plusToSpace), ← unquote (value.map plusToSpace)))

/-- `parse_qsl(qs)` -/
def parseQsl (qs : List Char) : Option (List (String × String)) := do
  let fields ← ((qs.splitOn '&').filter (· ≠ [])).mapM parseField
  some (fields.filterMap id)

example : parseQsl "flow=&path=%2F%C3%A9%2F".toList = some [("path", "/é/")] := by decide

namespace SplitResult

/-- `parts.username` -/
def username (parts : SplitResult) : Option (List Char) :=
  (rpartition '@' parts.netloc).map fun p => (partition ':' p.1).elim p.1 (·.1)

end SplitResult

end HexRift.Python
