/-!
# Delimited records

Records of fields, one to a line, with bars between the fields. A field that holds a bar, a quote or
a line break stands between quotes, with its own quotes doubled. The reader takes `\n` and `\r` as
ends of a record and passes over empty lines; a quote that is never closed runs to the end.
-/

namespace WorkloadReplay

namespace Delimited

/-- The character between two fields. -/
def bar : Char := '|'

/-- A character that ends a record. -/
def isBreak (c : Char) : Bool := c = '\n' || c = '\r'

/-- A character that makes its field stand between quotes. -/
def needsQuotes (c : Char) : Bool := c = bar || c = '"' || isBreak c

/-- Characters with every quote doubled. -/
def doubleQuotes : List Char → List Char
  | [] => []
  | c :: cs => if c = '"' then '"' :: '"' :: doubleQuotes cs else c :: doubleQuotes cs

/-- A field as it is written. -/
def fieldChars (field : List Char) : List Char :=
  if field.any needsQuotes then '"' :: (doubleQuotes field ++ ['"']) else field

/-- A record as it is written, with the end of its line. -/
def recordChars : List (List Char) → List Char
  | [] => ['\n']
  | [f] => fieldChars f ++ ['\n']
  | f :: g :: fs => fieldChars f ++ bar :: recordChars (g :: fs)

/-- The text of a record of at least two fields. -/
def recordText (fields : List String) : String :=
  String.ofList (recordChars (fields.map String.toList))

/-- Where the reader stands between two characters. -/
inductive Position where
  /-- Before a record. -/
  | record
  /-- Before a field that is not the first of its record. -/
  | field
  /-- In a field outside quotes. -/
  | plain
  /-- Between quotes. -/
  | quoted
  /-- After a quote that ends the quoted part, unless another one follows. -/
  | closing
  deriving DecidableEq

/-- The records of a text, from a position on. The characters of the current field and the fields
before it in the current record are held last first. -/
def scan : Position → List Char → List (List Char) → List Char → List (List (List Char))
  | .record, _, _, [] => []
  | _, field, fields, [] => [(field.reverse :: fields).reverse]
  | .record, _, _, c :: cs =>
    if isBreak c then scan .record [] [] cs
    else if c = '"' then scan .quoted [] [] cs
    else if c = bar then scan .field [] [[]] cs
    else scan .plain [c] [] cs
  | .quoted, field, fields, c :: cs =>
    if c = '"' then scan .closing field fields cs else scan .quoted (c :: field) fields cs
  | position, field, fields, c :: cs =>
    if c = '"' ∧ position = .field then scan .quoted field fields cs
    else if c = '"' ∧ position = .closing then scan .quoted ('"' :: field) fields cs
    else if c = bar then scan .field [] (field.reverse :: fields) cs
    else if isBreak c then (field.reverse :: fields).reverse :: scan .record [] [] cs
    else scan .plain (c :: field) fields cs

/-- The characters of a text without a mark of byte order at its front. -/
def withoutMark : List Char → List Char
  | c :: cs => if c.toNat = 0xfeff then cs else c :: cs
  | [] => []

/-- The records of a text. -/
def records (text : String) : List (List String) :=
  (scan .record [] [] (withoutMark text.toList)).map fun fields => fields.map String.ofList

end Delimited

end WorkloadReplay
