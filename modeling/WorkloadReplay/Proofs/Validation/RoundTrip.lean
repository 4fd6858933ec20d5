import WorkloadReplay.Proofs.Json.Values
import WorkloadReplay.Proofs.Synthetic.Payload

/-!
# Files of validation parameters give back what was written

A parameter whose payload is restored from its text, and whose result is a plain value, is given
back exactly by its record (`readRecord_of_plain`). A file takes such parameters one after another,
and is taken apart into their records again, so reading it gives the same list (`read_ofParams`).
This holds of all key/value operations: of any type and times, with any texts, and for any result
without doubles that nests to the limit of the reader.
-/

namespace WorkloadReplay

namespace ParamsFile

variable {P : Type} {codec : PayloadCodec P} {param : ValidationParam P}
  {params : List (ValidationParam P)}

/-- A parameter is written if its payload has a value. -/
theorem exists_write (file : ParamsFile) {payload : Json}
    (h : codec.encode param.operation.payload = .ok payload) :
    ∃ file', file.write codec param = .ok file' := by
  rw [write, recordText, Operation.toJson, h]
  exact ⟨_, rfl⟩

/-- Parameters are written if their payloads have values. -/
theorem exists_ofParams
    (h : ∀ param ∈ params, ∃ payload, codec.encode param.operation.payload = .ok payload) :
    ∃ file, ofParams codec params = .ok file := by
  have hfold : ∀ file, ∃ file', params.foldlM (fun file param => file.write codec param) file =
      (.ok file' : Except String ParamsFile) := by
    induction params with
    | nil => exact fun file => ⟨file, rfl⟩
    | cons param params ih =>
      intro file
      obtain ⟨payload, hpayload⟩ := h param List.mem_cons_self
      obtain ⟨file₁, hfile⟩ := exists_write file hpayload
      obtain ⟨file', hrest⟩ := ih (fun p hp => h p (List.mem_cons_of_mem _ hp)) file₁
      exact ⟨file', by rw [List.foldlM_cons, hfile]; exact hrest⟩
  exact hfold empty

/-- A record gives back its parameter if the payload is restored and the result is plain. -/
theorem readRecord_of_plain (path : String) (line : Nat) {fields : List String}
    (h : Writes codec param fields) (hpayload : codec.Restores param.operation.payload)
    (hexpected : param.expected.Plain Json.nestingLimit) :
    readRecord codec path line fields = .ok param := by
  obtain ⟨operation, hjson, rfl⟩ := h
  rw [readRecord, ofText?_of_toJson hjson hpayload, hexpected.sorted, hexpected.ofText?]

/-- Key/value operations with plain results are written to a file with a record of two texts for
each, and reading the file gives the same list. -/
theorem read_ofParams (path : String) {params : List (ValidationParam KeyValuePayload)}
    (h : ∀ param ∈ params, param.operation.payload.Fits ∧
      param.expected.Plain Json.nestingLimit) :
    ∃ file, ofParams KeyValuePayload.codec params = .ok file ∧ file.written = params.length ∧
      List.Forall₂ (Writes KeyValuePayload.codec) params (Delimited.records file.text) ∧
      read KeyValuePayload.codec path file.text = .ok params := by
  have hwrites : ∀ param ∈ params, ∃ payload,
      KeyValuePayload.codec.encode param.operation.payload = .ok payload :=
    fun param _ => ⟨param.operation.payload.toJson, rfl⟩
  obtain ⟨file, hfile⟩ := exists_ofParams hwrites
  obtain ⟨hrows, hwritten⟩ := records_of_ofParams hfile
  obtain ⟨params', hread, hsame⟩ := exists_read (R := Eq) path hfile
    fun param hparam line fields hfields => ⟨param, readRecord_of_plain path line hfields
      (KeyValuePayload.restores (h param hparam).1) (h param hparam).2, rfl⟩
  rw [List.forall₂_eq_eq_eq] at hsame
  exact ⟨file, hfile, hwritten, hrows, hsame ▸ hread⟩

/-- A result with characters that need escapes, and an empty list and an empty object inside. -/
def nestedResult : Json :=
  .obj [("", .arr []), ("a|b", .arr [.obj [], .int (-0x8000000000000000), .str "\"|\r"])]

/-- Two operations with texts and times of all kinds. -/
def escapedParams : List (ValidationParam KeyValuePayload) :=
  [⟨⟨"a|b\"\r\n", .least, .epoch, .gated,
      .update (2 ^ 64 - 1) "\\|\x01\t\"é"⟩, nestedResult⟩,
    ⟨.independent "" .greatest (.scan 0 (2 ^ 32 - 1)), .null⟩]

/-- They are written and read again. -/
theorem read_ofParams_escaped :
    ∃ file, ofParams KeyValuePayload.codec escapedParams = .ok file ∧ file.written = 2 ∧
      read KeyValuePayload.codec "params.csv" file.text = .ok escapedParams := by
  have hresult : nestedResult.Plain Json.nestingLimit :=
    .obj (by decide) (by simp [Json.Plain.arr, Json.Plain.obj, Json.Plain.int, Json.Plain.str])
  have hfit : ∀ param ∈ escapedParams, param.operation.payload.Fits ∧
      param.expected.Plain Json.nestingLimit := by
    simp [escapedParams, Operation.independent, KeyValuePayload.Fits, hresult, Json.Plain.null]
  obtain ⟨file, hfile, hwritten, -, hread⟩ := read_ofParams "params.csv" hfit
  exact ⟨file, hfile, hwritten, hread⟩

end ParamsFile

end WorkloadReplay
