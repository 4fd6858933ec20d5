import WorkloadReplay.Proofs.Validation.Constructions
import WorkloadReplay.Synthetic.Payload

/-!
# Operations that survive being written

An operation survives being written if its payload does: if the payload has a value, that value is
read as the payload, and the value equals itself, which only one with a double that is not a number
fails to do (`exists_writtenForm`). Sorting the fields of a value keeps that (`Json.same_sorted`).

The payloads of key/value operations survive (`KeyValuePayload.ofJson_toJson`), and so do all
key/value operations.
-/

namespace WorkloadReplay

/-! ## Values that equal themselves -/

namespace Json

/-- A list of values equals itself if each of them does. -/
theorem sameItems_self {items : List Json} :
    sameItems items items = true ↔ ∀ v ∈ items, v.same v = true := by
  induction items with
  | nil => simp [sameItems]
  | cons v vs ih => simp [sameItems, ih]

/-- Fields equal themselves if their values do. -/
theorem sameFields_self {fields : List (String × Json)} :
    sameFields fields fields = true ↔ ∀ f ∈ fields, f.2.same f.2 = true := by
  induction fields with
  | nil => simp [sameFields]
  | cons f fs ih => simp [sameFields, ih]

/-- A field among sorted ones is the one that was set last or one from before. -/
theorem mem_insertField {key : String} {value : Json} {fields : List (String × Json)}
    {f : String × Json} (h : f ∈ insertField key value fields) : f = (key, value) ∨ f ∈ fields := by
  induction fields with
  | nil => exact .inl (List.mem_singleton.mp h)
  | cons g gs ih =>
    unfold insertField at h
    split_ifs at h
    · exact List.mem_cons.mp h
    · exact (List.mem_cons.mp h).imp_right (List.mem_cons_of_mem g)
    · rcases List.mem_cons.mp h with rfl | h
      · exact .inr List.mem_cons_self
      · exact (ih h).imp_right (List.mem_cons_of_mem g)

/-- Where items are added to a list one after another, each item of the result is one of them or
one from before. -/
theorem mem_of_mem_foldl {α : Type} {add : List α → α → List α}
    (hadd : ∀ l a, ∀ x ∈ add l a, x = a ∨ x ∈ l) {items l : List α} {x : α}
    (h : x ∈ items.foldl add l) : x ∈ l ∨ x ∈ items := by
  induction items generalizing l with
  | nil => exact .inl h
  | cons a as ih =>
    rcases ih h with h | h
    · rcases hadd l a x h with rfl | h
      · exact .inr List.mem_cons_self
      · exact .inl h
    · exact .inr (List.mem_cons_of_mem a h)

/-- Sorting fields brings no new ones. -/
theorem mem_sortFields {fields : List (String × Json)} {f : String × Json}
    (h : f ∈ sortFields fields) : f ∈ fields :=
  (mem_of_mem_foldl (fun _ _ _ hf => mem_insertField hf) h).resolve_left List.not_mem_nil

mutual

/-- A value that equals itself still does so when its fields are sorted. -/
theorem same_sorted : ∀ v : Json, v.same v = true → v.sorted.same v.sorted = true
  | .null, h => h
  | .bool _, h => h
  | .int _, h => h
  | .double _, h => h
  | .str _, h => h
  | .arr items, h => by
    rw [same, sameItems_self] at h
    rw [sorted, same, sameItems_self]
    exact same_sortedItems items h
  | .obj fields, h => by
    rw [same, sameFields_self] at h
    rw [sorted, ofFields, same, sameFields_self]
    exact fun f hf => same_sortedValues fields h f (mem_sortFields hf)

/-- The same for the items of a list. -/
theorem same_sortedItems : ∀ items : List Json, (∀ v ∈ items, v.same v = true) →
    ∀ v ∈ sortedItems items, v.same v = true
  | [], _ => by simp [sortedItems]
  | v :: vs, h => by
    rw [sortedItems, List.forall_mem_cons]
    exact ⟨same_sorted v (h v List.mem_cons_self),
      same_sortedItems vs fun w hw => h w (List.mem_cons_of_mem v hw)⟩

/-- The same for the values of fields. -/
theorem same_sortedValues : ∀ fields : List (String × Json), (∀ f ∈ fields, f.2.same f.2 = true) →
    ∀ f ∈ sortedValues fields, f.2.same f.2 = true
  | [], _ => by simp [sortedValues]
  | (k, v) :: fs, h => by
    rw [sortedValues, List.forall_mem_cons]
    exact ⟨same_sorted v (h (k, v) List.mem_cons_self),
      same_sortedValues fs fun f hf => h f (List.mem_cons_of_mem (k, v) hf)⟩

end

end Json

/-! ## Operations -/

/-- A number of nanoseconds in range is read as the instant that was written as it. -/
theorem Instant.saturating_nanos (t : Instant) : Instant.saturating t.nanos = t :=
  Instant.ext (clampNanos_eq t.fits)

/-- A dependency mode is told by its name. -/
theorem DependencyMode.of_name (mode : DependencyMode) :
    (if mode.name = DependencyMode.gated.name then DependencyMode.gated else .independent) =
      mode := by
  cases mode <;> decide

namespace WorkloadValidation

variable {P : Type} {codec : PayloadCodec P}

/-- An operation survives being written if its payload has a value that is read as the payload and
equals itself; its written form equals itself, too. -/
theorem exists_writtenForm {op : Operation P} {payload : Json}
    (hencode : codec.encode op.payload = .ok payload)
    (hdecode : codec.decode payload = .ok op.payload) (hsame : payload.same payload = true) :
    ∃ form, writtenForm codec op = .ok form ∧ form.same form = true := by
  obtain ⟨value, hvalue, hread, hself⟩ : ∃ value, op.toJson codec = .ok value ∧
      Operation.ofJson codec value = .ok op ∧ value.same value = true := by
    refine ⟨_, by rw [Operation.toJson, hencode]; rfl, ?_, ?_⟩
    · simp [Operation.ofJson, Json.field?, Instant.toJson, hdecode, Except.map,
        Instant.saturating_nanos, DependencyMode.of_name]
    · simp [Json.same, Json.sameFields, Instant.toJson, hsame]
  have hform := Json.same_sorted value hself
  refine ⟨value.sorted, ?_, hform⟩
  simp [writtenForm, hvalue, hread, hform, bind, Except.bind, pure, Except.pure]

end WorkloadValidation

namespace KeyValuePayload

/-- The value of a payload is read as that payload. -/
theorem ofJson_toJson (p : KeyValuePayload) : ofJson p.toJson = .ok p := by
  cases p <;> simp [ofJson, toJson, Json.field?, Json.nat]

/-- The value of a payload equals itself. -/
theorem same_toJson (p : KeyValuePayload) : p.toJson.same p.toJson = true := by
  cases p <;> simp [toJson, Json.same, Json.sameFields, Json.nat]

/-- All key/value operations survive being written. -/
theorem exists_writtenForm (op : Operation KeyValuePayload) :
    ∃ form, WorkloadValidation.writtenForm codec op = .ok form ∧ form.same form = true :=
  WorkloadValidation.exists_writtenForm rfl (ofJson_toJson op.payload) (same_toJson op.payload)

end KeyValuePayload

end WorkloadReplay
