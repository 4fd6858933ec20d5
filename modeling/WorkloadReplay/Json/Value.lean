import WorkloadReplay.Numeric.Binary64

/-!
# JSON values

`Json` is a JSON value with whole numbers and doubles kept apart: `1` and `1.0` are different
values. The fields of an object stand in the order in which they are written. A free value, whose
fields come from a map and not from a record with an order of its own, has its fields sorted by
key; `ofFields` builds such an object.
-/

namespace WorkloadReplay

/-- A JSON value. -/
inductive Json where
  | null
  | bool (b : Bool)
  /-- A whole number, of 64 bits with or without a sign. -/
  | int (n : Int)
  | double (x : Binary64)
  | str (s : String)
  | arr (items : List Json)
  | obj (fields : List (String × Json))

namespace Json

instance : Inhabited Json := ⟨.null⟩

/-- A natural number as a value. -/
def nat (n : Nat) : Json := .int n

/-- A value or `null`. -/
def ofOption {α : Type} (f : α → Json) : Option α → Json
  | none => .null
  | some a => f a

/-- The list of the values of some items. -/
def ofList {α : Type} (f : α → Json) (items : List α) : Json := .arr (items.map f)

/-- Sets the field of a key in fields sorted by key, in place of one that is there. -/
def insertField (key : String) (value : Json) : List (String × Json) → List (String × Json)
  | [] => [(key, value)]
  | (k, v) :: rest =>
    if key < k then (key, value) :: (k, v) :: rest
    else if key = k then (key, value) :: rest
    else (k, v) :: insertField key value rest

/-- The fields sorted by key; of a repeated key the last value counts. -/
def sortFields (fields : List (String × Json)) : List (String × Json) :=
  fields.foldl (fun sorted (k, v) => insertField k v sorted) []

/-- A free object. -/
def ofFields (fields : List (String × Json)) : Json := .obj (sortFields fields)

/-- The value of a field, if the value is an object that has it. -/
def field? (key : String) : Json → Option Json
  | .obj fields => (fields.find? (·.1 = key)).map (·.2)
  | _ => none

mutual

/-- The value with the fields of every object in it sorted by key. -/
def sorted : Json → Json
  | .arr items => .arr (sortedItems items)
  | .obj fields => ofFields (sortedValues fields)
  | v => v

/-- Items with the fields of every object in them sorted by key. -/
def sortedItems : List Json → List Json
  | [] => []
  | v :: vs => sorted v :: sortedItems vs

/-- Fields, in the order given, with the fields of every object in them sorted by key. -/
def sortedValues : List (String × Json) → List (String × Json)
  | [] => []
  | (k, v) :: fs => (k, sorted v) :: sortedValues fs

end

mutual

/-- The value with every double in it replaced. -/
def mapDoubles (f : Binary64 → Json) : Json → Json
  | .double x => f x
  | .arr items => .arr (mapDoublesItems f items)
  | .obj fields => .obj (mapDoublesFields f fields)
  | v => v

/-- Items with every double in them replaced. -/
def mapDoublesItems (f : Binary64 → Json) : List Json → List Json
  | [] => []
  | v :: vs => mapDoubles f v :: mapDoublesItems f vs

/-- Fields with every double in them replaced. -/
def mapDoublesFields (f : Binary64 → Json) : List (String × Json) → List (String × Json)
  | [] => []
  | (k, v) :: fs => (k, mapDoubles f v) :: mapDoublesFields f fs

end

mutual

/-- Equality of values. Doubles are compared as numbers, so the two zeros are equal. -/
def same : Json → Json → Bool
  | .null, .null => true
  | .bool a, .bool b => a == b
  | .int a, .int b => a == b
  | .double a, .double b => a.eqv b
  | .str a, .str b => a == b
  | .arr a, .arr b => sameItems a b
  | .obj a, .obj b => sameFields a b
  | _, _ => false

/-- Equality of lists of values. -/
def sameItems : List Json → List Json → Bool
  | [], [] => true
  | a :: as, b :: bs => same a b && sameItems as bs
  | _, _ => false

/-- Equality of fields, in order. -/
def sameFields : List (String × Json) → List (String × Json) → Bool
  | [], [] => true
  | (j, a) :: as, (k, b) :: bs => j == k && same a b && sameFields as bs
  | _, _ => false

end

end Json

end WorkloadReplay
