import Mathlib.Algebra.Group.Nat.Defs
import WorkloadReplay.Proofs.Validation.Params
import WorkloadReplay.Synthetic.Payload

/-!
# Payloads of key/value operations that are read back

The value of a payload is an object that begins with its kind. Its text is read as a record of the
same fields (`reads_toJson`), and the record gives the payload again if its numbers fit
(`restores`).
-/

namespace WorkloadReplay

namespace KeyValuePayload

/-- The arguments of a payload have the 64 bits of keys and the 32 bits of limits. -/
def Fits : KeyValuePayload → Prop
  | read key => key < 2 ^ 64
  | update key _ => key < 2 ^ 64
  | scan start limit => start < 2 ^ 64 ∧ limit < 2 ^ 32

/-- The tree of a natural number. -/
def natTree (n : Nat) : Json.Tree := .number (Json.wholeNumeral false n)

/-- The tree of a payload. -/
def tree : KeyValuePayload → Json.Tree
  | read key => .record [("kind", .text (some "read")), ("key", natTree key)]
  | update key value =>
    .record [("kind", .text (some "update")), ("key", natTree key), ("value", .text (some value))]
  | scan start limit =>
    .record [("kind", .text (some "scan")), ("start_key", natTree start), ("limit", natTree limit)]

/-- A natural number is read as its tree. -/
theorem reads_nat (n : Nat) : Json.Reads (Json.nat n) (natTree n) := by
  have hreads := Json.reads_int n
  have hsign : decide ((n : Int) < 0) = false := by simp
  rw [hsign] at hreads
  exact hreads

/-- The value of a payload is read as its tree. -/
theorem reads_toJson (p : KeyValuePayload) : Json.Reads p.toJson p.tree := by
  cases p with
  | read key => exact Json.reads_obj (.cons ⟨rfl, Json.reads_str _⟩ (.cons ⟨rfl, reads_nat _⟩ .nil))
  | update key value =>
    exact Json.reads_obj (.cons ⟨rfl, Json.reads_str _⟩ (.cons ⟨rfl, reads_nat _⟩
      (.cons ⟨rfl, Json.reads_str _⟩ .nil)))
  | scan start limit =>
    exact Json.reads_obj (.cons ⟨rfl, Json.reads_str _⟩ (.cons ⟨rfl, reads_nat _⟩
      (.cons ⟨rfl, reads_nat _⟩ .nil)))

/-- The tree of a number of 64 bits is a whole number. -/
theorem toJson?_wholeNumeral {n : Nat} (h : n < 2 ^ 64) :
    (Json.wholeNumeral false n).toJson? = some (.int n) := by
  have hvalue := Json.toJson?_wholeNumeral (n := n) (by omega)
    (by simp [Json.maxSignificand]; omega)
  have hsign : decide ((n : Int) < 0) = false := by simp
  rw [hsign, Int.natAbs_natCast] at hvalue
  exact hvalue

theorem toJson?_natTree {n : Nat} (h : n < 2 ^ 64) (depth : Nat) :
    (natTree n).toJson? depth = some (.int n) := toJson?_wholeNumeral h

/-- A number up to the end of an interval is read back from its tree. -/
theorem toIntIn?_natTree {n limit : Nat} (h : n < 2 ^ 64) (hlimit : n ≤ limit) :
    (natTree n).toIntIn? 0 limit = some (n : Int) := by
  rw [natTree, Json.Tree.toIntIn?, toJson?_wholeNumeral h]
  exact if_pos ⟨Int.natCast_nonneg n, Int.ofNat_le.mpr hlimit⟩

/-- A key is read back from its tree. -/
theorem toWord?_natTree {n : Nat} (h : n < 2 ^ 64) : (natTree n).toWord? = some n := by
  rw [Json.Tree.toWord?, toIntIn?_natTree h (by simp [Json.maxSignificand]; omega)]
  rfl

/-- A limit is read back from its tree. -/
theorem toHalfWord?_natTree {n : Nat} (h : n < 2 ^ 32) : (natTree n).toHalfWord? = some n := by
  rw [Json.Tree.toHalfWord?, show (0xffffffff : Int) = (0xffffffff : Nat) from rfl,
    toIntIn?_natTree (by omega) (by omega)]
  rfl

/-- The tree of a payload whose arguments fit gives the payload again. -/
theorem ofTree?_tree {p : KeyValuePayload} (h : p.Fits) (depth : Nat) :
    ofTree? (depth + 1) p.tree = some p := by
  -- The other fields are well-formed values, and they are the arguments of the kind.
  cases p with
  | read key =>
    simp [ofTree?, tree, ofArguments?, Json.Tree.fields?, Json.Tree.required?, Json.Tree.toJson?,
      Json.Tree.fieldsToJson?, toJson?_natTree h, toWord?_natTree h]
  | update key value =>
    simp [ofTree?, tree, ofArguments?, Json.Tree.fields?, Json.Tree.required?, Json.Tree.toJson?,
      Json.Tree.fieldsToJson?, Json.Tree.toText?, toJson?_natTree h, toWord?_natTree h]
  | scan start limit =>
    obtain ⟨hstart, hlimit⟩ := h
    have hwide : limit < 2 ^ 64 := by omega
    simp [ofTree?, tree, ofArguments?, Json.Tree.fields?, Json.Tree.required?, Json.Tree.toJson?,
      Json.Tree.fieldsToJson?, toJson?_natTree hstart, toJson?_natTree hwide,
      toWord?_natTree hstart, toHalfWord?_natTree hlimit]

/-- A payload whose arguments fit is restored from its text. -/
theorem restores {p : KeyValuePayload} (h : p.Fits) : codec.Restores p := by
  intro v hv
  obtain rfl := Except.ok.inj hv
  exact ⟨p.tree, (reads_toJson p).ofText?, ofTree?_tree h _⟩

end KeyValuePayload

end WorkloadReplay
