import WorkloadReplay.Text.Printable

/-!
# Quoted text

A text shown between double quotes, for messages: quotes and backslashes are escaped, the common
controls have short escapes, and any other character without a visible form is shown by its code
point.
-/

namespace WorkloadReplay

namespace Text

/-- A number in lower-case hexadecimal. -/
def hex (n : Nat) : String := String.ofList (Nat.toDigits 16 n)

/-- A character as it stands between quotes. -/
def quoteChar (c : Char) : String :=
  match c with
  | '"' => "\\\""
  | '\\' => "\\\\"
  | '\n' => "\\n"
  | '\r' => "\\r"
  | '\t' => "\\t"
  | c =>
    if c.toNat = 0 then "\\0"
    else if isPrintable c then c.toString
    else "\\u\x7b" ++ hex c.toNat ++ "\x7d"

/-- A text between quotes. -/
def quote (s : String) : String := "\"" ++ String.join (s.toList.map quoteChar) ++ "\""

end Text

end WorkloadReplay
