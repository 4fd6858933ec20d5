import Mathlib.Order.MinMax
import WorkloadReplay.Time.Instant

/-!
# The order of instants

Instants are ordered by their nanoseconds. The order is linear, and the earlier and the later of two
instants are its minimum and maximum. Times that may be missing are compared as the library compares
optional values: no time at all comes before every time.
-/

namespace WorkloadReplay

namespace Instant

/-- Instants compare as their nanoseconds do. -/
theorem le_iff {a b : Instant} : a ≤ b ↔ a.nanos ≤ b.nanos := Iff.rfl

/-- Strict comparison, too, is that of the nanoseconds. -/
theorem lt_iff {a b : Instant} : a < b ↔ a.nanos < b.nanos := Iff.rfl

instance : LinearOrder Instant where
  le_refl a := le_refl a.nanos
  le_trans a b c hab hbc := by
    rw [le_iff] at hab hbc ⊢
    exact le_trans hab hbc
  lt_iff_le_not_ge a b := by
    rw [le_iff, le_iff, lt_iff]
    omega
  le_antisymm a b hab hba := ext (le_antisymm hab hba)
  le_total a b := le_total a.nanos b.nanos
  toDecidableLE := inferInstance

/-- The earlier of two instants is their minimum. -/
theorem earlier_eq_min (a b : Instant) : a.earlier b = min a b := (min_def a b).symm

/-- The later of two instants is their maximum. -/
theorem later_eq_max (a b : Instant) : a.later b = max a b := (max_def a b).symm

/-- An instant that is a duration earlier has that many nanoseconds less. -/
theorem nanos_of_sub? {t u : Instant} {d : Duration} (h : t.sub? d = some u) :
    u.nanos = t.nanos - d.nanos := by
  unfold sub? ofNanos? at h
  split at h
  · obtain rfl := Option.some.inj h
    rfl
  · simp at h

/-- The instant a nanosecond earlier is strictly earlier, and nothing lies between the two. -/
theorem sub?_one {t u : Instant} (h : t.sub? Duration.one = some u) (v : Instant) :
    u < v ↔ t ≤ v := by
  have hnanos := nanos_of_sub? h
  rw [lt_iff, le_iff]
  simp only [Duration.one] at hnanos
  omega

end Instant

/-- A missing time and then a later one come in order. -/
theorem optionLe_trans {a b c : Option Instant} (hab : a ≤ b) (hbc : b ≤ c) : a ≤ c := by
  cases a with
  | none => exact Option.none_le
  | some x =>
    cases b with
    | none => simp at hab
    | some y =>
      cases c with
      | none => simp at hbc
      | some z => simp only [Option.some_le_some] at *; exact le_trans hab hbc

/-- Every optional time is at most itself. -/
theorem optionLe_refl (a : Option Instant) : a ≤ a := by
  cases a <;> simp

/-- A time that an optional time reaches: there is one, and it is no earlier. -/
theorem some_optionLe_iff {x : Instant} {a : Option Instant} :
    some x ≤ a ↔ ∃ y, a = some y ∧ x ≤ y := by
  cases a <;> simp

/-- A time that an optional time goes beyond: there is one, and it is later. -/
theorem some_optionLt_iff {x : Instant} {a : Option Instant} :
    some x < a ↔ ∃ y, a = some y ∧ x < y := by
  cases a <;> simp

end WorkloadReplay
