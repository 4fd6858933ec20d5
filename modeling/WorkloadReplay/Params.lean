import WorkloadReplay.Text.Blank
import WorkloadReplay.Text.Quoted
import WorkloadReplay.Text.Numeral
import WorkloadReplay.Json.Decode

/-!
# Parameters

Free-form parameters, a map from keys to texts, which a database or a workload is given when it is
initialized. A map is kept as its entries in the order of their keys, each key once, which is part
of the type. `parse` reads the value of a key as a number or truth value, blanks around it aside.
-/

namespace WorkloadReplay

/-- A parameter whose value cannot be read. -/
structure ParamError where
  name : String
  reason : String
  deriving DecidableEq, Repr

/-- The wording of a parameter error. -/
def ParamError.message (e : ParamError) : String :=
  "Invalid parameter " ++ e.name ++ ": " ++ e.reason

/-- Parameters. -/
structure Params where
  entries : List (String × String)
  /-- The keys come in order, each once. -/
  ordered : entries.Pairwise (·.1 < ·.1)
  deriving DecidableEq, Repr

namespace Params

/-- No parameters. -/
def empty : Params := ⟨[], .nil⟩

instance : Inhabited Params := ⟨empty⟩

/-- Entries in the order of their keys with one more, in place of one with the same key. -/
def insertEntry (key value : String) : List (String × String) → List (String × String)
  | [] => [(key, value)]
  | (k, v) :: rest =>
    if key < k then (key, value) :: (k, v) :: rest
    else if key = k then (key, value) :: rest
    else (k, v) :: insertEntry key value rest

/-- There is only one new entry. -/
theorem mem_insertEntry {key value : String} {x : String × String} {l : List (String × String)}
    (h : x ∈ insertEntry key value l) : x = (key, value) ∨ x ∈ l := by
  induction l with
  | nil => exact .inl (List.mem_singleton.mp h)
  | cons y rest ih =>
    unfold insertEntry at h
    split at h
    · exact List.mem_cons.mp h
    · split at h
      · exact (List.mem_cons.mp h).imp_right (List.mem_cons_of_mem _)
      · rcases List.mem_cons.mp h with rfl | h
        · exact .inr List.mem_cons_self
        · exact (ih h).imp_right (List.mem_cons_of_mem _)

/-- The keys stay in order. -/
theorem ordered_insertEntry (key value : String) {l : List (String × String)}
    (h : l.Pairwise (·.1 < ·.1)) : (insertEntry key value l).Pairwise (·.1 < ·.1) := by
  induction l with
  | nil => exact List.pairwise_singleton _ _
  | cons y rest ih =>
    obtain ⟨hfirst, hrest⟩ := List.pairwise_cons.mp h
    unfold insertEntry
    split
    · rename_i hlt
      refine List.pairwise_cons.mpr ⟨fun x hx => ?_, h⟩
      rcases List.mem_cons.mp hx with rfl | hx
      · exact hlt
      · exact String.lt_trans hlt (hfirst x hx)
    · rename_i hnot
      split
      · rename_i heq
        exact List.pairwise_cons.mpr ⟨fun x hx => heq ▸ hfirst x hx, hrest⟩
      · rename_i hne
        refine List.pairwise_cons.mpr ⟨fun x hx => ?_, ih hrest⟩
        rcases mem_insertEntry hx with rfl | hx
        · exact Std.lt_of_le_of_ne (String.not_lt.mp hnot) (Ne.symm hne)
        · exact hfirst x hx

/-- Sets a parameter. -/
def insert (p : Params) (key value : String) : Params :=
  ⟨insertEntry key value p.entries, ordered_insertEntry key value p.ordered⟩

/-- The parameters of some entries; of a repeated key the last value counts. -/
def ofList (entries : List (String × String)) : Params :=
  entries.foldl (fun p (k, v) => p.insert k v) empty

/-- The value of a key. -/
def get? (p : Params) (key : String) : Option String :=
  (p.entries.find? (·.1 = key)).map (·.2)

/-- The value of a key as `read` makes of it, or `none` if the key is absent. -/
def parse {α : Type} (read : String → Except Text.NumeralError α) (p : Params) (key : String) :
    Except ParamError (Option α) :=
  match p.get? key with
  | none => .ok none
  | some raw =>
    match read (Text.trim raw) with
    | .ok a => .ok (some a)
    | .error e => .error ⟨key, Text.quote raw ++ ": " ++ e.message⟩

/-- The value of a key as `read` makes of it, or a default if the key is absent. -/
def parseOr {α : Type} (read : String → Except Text.NumeralError α) (p : Params) (key : String)
    (absent : α) : Except ParamError α :=
  (p.parse read key).map (·.getD absent)

/-- The value that parameters are written as. -/
def toJson (p : Params) : Json := .obj (p.entries.map fun (k, v) => (k, .str v))

/-- Reads parameters from an object of strings. -/
def ofTree? : Json.Tree → Option Params
  | .record fields =>
    (fields.mapM fun f : String × Json.Tree => f.2.toText?.map fun v => (f.1, v)).map ofList
  | _ => none

/-- Takes a text `key=value` apart at its first `=`, blanks around the two parts aside. The key must
not be blank. -/
def parseKeyValue (raw : String) : Except String (String × String) :=
  let cs := raw.toList
  let key := Text.trimChars (cs.takeWhile (· ≠ '='))
  match cs.dropWhile (· ≠ '=') with
  | _ :: value =>
    if key = [] then .error ("expected key=value, got " ++ Text.quote raw)
    else .ok (String.ofList key, String.ofList (Text.trimChars value))
  | [] => .error ("expected key=value, got " ++ Text.quote raw)

end Params

end WorkloadReplay
