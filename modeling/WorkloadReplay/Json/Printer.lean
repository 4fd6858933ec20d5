import WorkloadReplay.Json.Value
import WorkloadReplay.Numeric.Decimal

/-!
# JSON text

Two layouts of a value: `compact` on one line with no blanks, and `pretty` with two blanks of
indentation for each level. Strings escape quotes, backslashes and controls and nothing else.
-/

namespace WorkloadReplay

namespace Json

/-- Doubles have a point or an exponent, and are positional from `1e-5` up to below `1e16`. -/
def doubleStyle : Decimal.Style := ⟨some (-5), some 16, true, .toEven⟩

/-- The text of a double; one that is not finite is written as `null`. -/
def doubleText (x : Binary64) : String :=
  match x with
  | .finite s m _ =>
    if m = 0 then (if s then "-0.0" else "0.0") else doubleStyle.render x
  | _ => "null"

/-- A hexadecimal digit. -/
def hexDigit (n : Nat) : Char := if n < 10 then Char.ofNat (48 + n) else Char.ofNat (87 + n)

/-- A character as it stands in a string. -/
def escapeChar (c : Char) : List Char :=
  if c = '"' then ['\\', '"']
  else if c = '\\' then ['\\', '\\']
  else if c = '\n' then ['\\', 'n']
  else if c = '\r' then ['\\', 'r']
  else if c = '\t' then ['\\', 't']
  else if c.toNat = 8 then ['\\', 'b']
  else if c.toNat = 12 then ['\\', 'f']
  else if c.toNat < 32 then
    ['\\', 'u', '0', '0', hexDigit (c.toNat / 16), hexDigit (c.toNat % 16)]
  else [c]

/-- The characters of a string with its quotes. -/
def quoted (s : String) : List Char := '"' :: (s.toList.flatMap escapeChar ++ ['"'])

mutual

/-- The characters of a value on one line. -/
def chars : Json → List Char
  | .null => "null".toList
  | .bool true => "true".toList
  | .bool false => "false".toList
  | .int n => (toString n).toList
  | .double x => (doubleText x).toList
  | .str s => quoted s
  | .arr items => '[' :: itemChars items
  | .obj fields => '\x7b' :: fieldChars fields

/-- Items and the closing bracket. -/
def itemChars : List Json → List Char
  | [] => [']']
  | [v] => chars v ++ [']']
  | v :: w :: rest => chars v ++ ',' :: itemChars (w :: rest)

/-- Fields and the closing brace. -/
def fieldChars : List (String × Json) → List Char
  | [] => ['\x7d']
  | [(k, v)] => quoted k ++ ':' :: (chars v ++ ['\x7d'])
  | (k, v) :: f :: rest => quoted k ++ ':' :: (chars v ++ ',' :: fieldChars (f :: rest))

end

/-- The text of a value on one line. -/
def compact (v : Json) : String := String.ofList (chars v)

/-- A line break and the indentation of a level. -/
def newline (level : Nat) : String := "\n" ++ String.ofList (List.replicate (2 * level) ' ')

mutual

/-- The text of a value that stands at a level of indentation. -/
def prettyAt (level : Nat) : Json → String
  | .arr [] => "[]"
  | .arr (v :: rest) =>
    "[" ++ newline (level + 1) ++ prettyAt (level + 1) v ++ prettyItems (level + 1) rest ++
      newline level ++ "]"
  | .obj [] => "\x7b\x7d"
  | .obj ((k, v) :: rest) =>
    "\x7b" ++ newline (level + 1) ++ String.ofList (quoted k) ++ ": " ++ prettyAt (level + 1) v ++
      prettyFields (level + 1) rest ++ newline level ++ "\x7d"
  | v => compact v

/-- The items after the first one. -/
def prettyItems (level : Nat) : List Json → String
  | [] => ""
  | v :: rest => "," ++ newline level ++ prettyAt level v ++ prettyItems level rest

/-- The fields after the first one. -/
def prettyFields (level : Nat) : List (String × Json) → String
  | [] => ""
  | (k, v) :: rest =>
    "," ++ newline level ++ String.ofList (quoted k) ++ ": " ++ prettyAt level v ++
      prettyFields level rest

end

/-- The text of a value over several lines. -/
def pretty (v : Json) : String := prettyAt 0 v

end Json

end WorkloadReplay
