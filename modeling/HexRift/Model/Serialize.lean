import HexRift.Library.Json
import HexRift.Library.Regex
import HexRift.Model.Python

/-! # Texts of the rendered configs

`serialize_config`: the config as indented JSON, short arrays of scalars put back on one line
by a regular expression over the text. -/

namespace HexRift

open Regex

/-! ## `json.dumps(config, indent=2, ensure_ascii=False)` -/

/-- Line break and indentation of a nesting level. -/
def newlineIndent (level : ℕ) : List Char := '\n' :: List.replicate (2 * level) ' '

def dumpsString (s : String) : List Char := '"' :: s.toList.flatMap Python.jsonChar ++ ['"']

mutual

def dumps (level : ℕ) : Json → List Char
  | .null => "null".toList
  | .bool true => "true".toList
  | .bool false => "false".toList
  | .int n => (toString n).toList
  | .str s => dumpsString s
  | .arr [] => ['[', ']']
  | .arr (v :: vs) =>
      '[' :: newlineIndent (level + 1) ++ dumps (level + 1) v ++ dumpsItems (level + 1) vs ++
        newlineIndent level ++ [']']
  | .obj [] => ['\x7b', '\x7d']
  | .obj ((key, v) :: fs) =>
      '\x7b' :: newlineIndent (level + 1) ++ dumpsString key ++ [':', ' '] ++
        dumps (level + 1) v ++ dumpsFields (level + 1) fs ++ newlineIndent level ++ ['\x7d']

/-- The items of an array behind the first one. -/
def dumpsItems (level : ℕ) : List Json → List Char
  | [] => []
  | v :: vs => ',' :: newlineIndent level ++ dumps level v ++ dumpsItems level vs

/-- The fields of an object behind the first one. -/
def dumpsFields (level : ℕ) : List (String × Json) → List Char
  | [] => []
  | (key, v) :: fs =>
      ',' :: newlineIndent level ++ dumpsString key ++ [':', ' '] ++ dumps level v ++
        dumpsFields level fs

end

/-! ## The pattern of an array of scalars -/

/-- `\s+` -/
def spaces : Regex := plus (char Python.isSpace)

/-- `\d+` -/
def digits : Regex := plus (char fun c => (Python.decimal? c).isSome)

/-- `"[^"]*"` -/
def quoted : Regex := seq (text ['"']) (seq (star (char (· != '"'))) (text ['"']))

/-- `-?\d+(?:\.\d+)?` -/
def number : Regex := seq (opt (text ['-'])) (seq digits (opt (seq (text ['.']) digits)))

/-- `scalar` -/
def scalar : Regex :=
  alt quoted (alt number (alt (text "true".toList) (alt (text "false".toList)
    (text "null".toList))))

/-- `\[\n\s+` -/
def opening : Regex := seq (text ['[', '\n']) spaces

/-- The group: scalars with a comma, a line break and indentation between them. -/
def scalars : Regex := seq scalar (star (seq (text [',', '\n']) (seq spaces scalar)))

/-- `\n\s+\]` -/
def closing : Regex := seq (text ['\n']) (seq spaces (text [']']))

/-- The match of the whole pattern at the start of a text. -/
def matchArray (t : List Char) : Option Match :=
  ((splits opening t).flatMap fun o => (splits scalars o.2).flatMap fun g =>
    (splits closing g.2).map fun c => ⟨o.1 ++ g.1 ++ c.1, g.1⟩).head?

/-! ## `_collapse` -/

/-- `s.split(",\n")` -/
def splitCommaLines : List Char → List (List Char)
  | [] => [[]]
  | ',' :: '\n' :: cs => [] :: splitCommaLines cs
  | c :: cs => (splitCommaLines cs).modifyHead (c :: ·)

/-- The array on one line. -/
def collapsed (m : Match) : List Char :=
  '[' :: [',', ' '].intercalate ((splitCommaLines m.group).map Python.strip) ++ [']']

/-- The text behind the last line break. -/
def lastLine (before : List Char) : List Char :=
  match Python.rpartition '\n' before with
  | some (_, line) => line
  | none => before

/-- `m.start() - line_start`, the text before the match given. -/
def indent (before : List Char) : ℕ := (lastLine before).length

def collapse (before : List Char) (m : Match) : List Char :=
  if indent before + (collapsed m).length > 80 then m.text else collapsed m

/-! ## `serialize_config` -/

/-- The parts `re.sub` makes of the indented text. -/
def configParts (config : List (String × Json)) : List Part :=
  parts matchArray collapse [] 0 (dumps 0 (.obj config))

/-- The text of a config, before it is encoded. -/
def serializeConfig (config : List (String × Json)) (compact : Bool) : List Char :=
  if compact then sub matchArray collapse (dumps 0 (.obj config)) ++ ['\n']
  else dumps 0 (.obj config) ++ ['\n']

example : serializeConfig [("a", .arr [.bool true, .str "[\n"])] true =
    "\x7b\n  \"a\": [true, \"[\\n\"]\n\x7d\n".toList := by decide +kernel

end HexRift
