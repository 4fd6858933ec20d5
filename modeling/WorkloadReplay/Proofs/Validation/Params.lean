import WorkloadReplay.Proofs.Json.Printing
import WorkloadReplay.Proofs.Text.Delimited
import WorkloadReplay.Validation.Params

/-!
# Reading validation parameters that have been written

A file of validation parameters holds two texts inside each other: records of fields, and in each
field a JSON value. If the payload of an operation and its result survive being written as JSON on
their own, so does the parameter in its record (`readRecord_of_recordText`), and a whole file gives
its parameters again, in order, and nothing else (`read_of_ofParams`). The other fields of an
operation survive whatever they are (`ofText?_of_toJson`).
-/

namespace WorkloadReplay

variable {P : Type} {codec : PayloadCodec P}

/-! ## Operations -/

/-- A payload can be read back from its text, in the place that it has in an operation. -/
def PayloadCodec.Restores (codec : PayloadCodec P) (payload : P) : Prop :=
  ∀ v, codec.encode payload = .ok v → ∃ t, Json.Tree.ofText? v.compact = some t ∧
    codec.read (Json.nestingLimit - 1) t = some payload

/-- The tree of an instant's number. -/
def instantTree (t : Instant) : Json.Tree :=
  .number (Json.wholeNumeral (t.nanos < 0) t.nanos.natAbs)

/-- An instant is read back from its number. -/
theorem toInstant?_instantTree (t : Instant) : (instantTree t).toInstant? = some t := by
  have hlow : leastNanos ≤ t.nanos := t.fits.1
  have hhigh : t.nanos ≤ greatestNanos := t.fits.2
  have hvalue : (Json.wholeNumeral (t.nanos < 0) t.nanos.natAbs).toJson? = some (.int t.nanos) := by
    apply Json.toJson?_wholeNumeral
    · simpa [leastNanos] using hlow
    · -- Instants have a sign, and so are far from the greatest number of 64 bits without one.
      have hless : greatestNanos ≤ (Json.maxSignificand : Int) := by decide
      exact Int.le_trans hhigh hless
  have hint : (instantTree t).toIntIn? leastNanos greatestNanos = some t.nanos := by
    rw [instantTree, Json.Tree.toIntIn?, hvalue]
    exact if_pos ⟨hlow, hhigh⟩
  rw [Json.Tree.toInstant?, hint, Option.bind_some, Instant.ofNanos?, dif_pos t.fits]

/-- A dependency mode is read back from its name. -/
theorem ofTree?_name (mode : DependencyMode) :
    DependencyMode.ofTree? (.text (some mode.name)) = some mode := by
  cases mode <;> rfl

/-- The fields of an operation whose payload has the value `payload`. -/
def operationFields (op : Operation P) (payload : Json) : List (String × Json) :=
  [("operation_type", .str op.operationType), ("scheduled_start", op.scheduledStart.toJson),
    ("dependency_time", op.dependencyTime.toJson),
    ("dependency_mode", .str op.dependencyMode.name), ("payload", payload)]

/-- The trees of these fields, with that of the payload. -/
def operationTrees (op : Operation P) (payload : Json.Tree) : List (String × Json.Tree) :=
  [("operation_type", .text (some op.operationType)),
    ("scheduled_start", instantTree op.scheduledStart),
    ("dependency_time", instantTree op.dependencyTime),
    ("dependency_mode", .text (some op.dependencyMode.name)), ("payload", payload)]

/-- The fields of an operation are read as these trees. -/
theorem readsFields_operation (op : Operation P) {payload : Json} {t : Json.Tree}
    (h : Json.Reads payload t) :
    Json.ReadsFields (operationFields op payload) (operationTrees op t) := by
  refine .cons ⟨rfl, Json.reads_str _⟩ (.cons ⟨rfl, Json.reads_int _⟩ (.cons ⟨rfl, Json.reads_int _⟩
    (.cons ⟨rfl, Json.reads_str _⟩ (.cons ⟨rfl, h⟩ .nil))))

/-- A record of these trees is the operation. -/
theorem ofTree?_operationTrees (op : Operation P) {t : Json.Tree}
    (h : codec.read (Json.nestingLimit - 1) t = some op.payload) :
    Operation.ofTree? codec (.record (operationTrees op t)) = some op := by
  have hfields : (Json.Tree.record (operationTrees op t)).fields? Operation.fieldNames =
      some [some (.text (some op.operationType)), some (instantTree op.scheduledStart),
        some (instantTree op.dependencyTime), some (.text (some op.dependencyMode.name)),
        some t] := rfl
  simp only [Operation.ofTree?, hfields, Json.Tree.required?, Json.Tree.default?,
    Json.Tree.toText?, toInstant?_instantTree, ofTree?_name, h, Option.bind_eq_bind,
    Option.bind_some]

/-- An operation is read back from its text if its payload is. -/
theorem ofText?_of_toJson {op : Operation P} {v : Json} (h : op.toJson codec = .ok v)
    (hpayload : codec.Restores op.payload) : Operation.ofText? codec v.compact = some op := by
  unfold Operation.toJson at h
  cases hencode : codec.encode op.payload with
  | error text => simp [hencode, Except.map] at h
  | ok payload =>
    rw [hencode] at h
    obtain rfl := Except.ok.inj h
    obtain ⟨t, htext, hread⟩ := hpayload payload hencode
    have hrecord := Json.reads_obj (readsFields_operation op (Json.reads_of_ofText? htext))
    change (Json.Tree.ofText? (Json.obj (operationFields op payload)).compact).bind _ = _
    rw [hrecord.ofText?]
    exact ofTree?_operationTrees op hread

/-! ## Parameters -/

/-- A value can be read back from its text, up to what equality of values does not tell apart. -/
def Json.Survives (v : Json) : Prop :=
  ∃ v', Json.ofText? v.sorted.compact = some v' ∧ v.sorted.same v'.sorted = true

/-- Texts always survive. -/
theorem Json.survives_str (s : String) : (Json.str s).Survives := by
  refine ⟨.str s, ?_, by simp [sorted, same]⟩
  have htree := (reads_str s).ofText?
  rw [sorted]
  · rw [Json.ofText?, htree]
    rfl
  · simp
  · simp

namespace ValidationParam

/-- The payload and the result of a parameter can be read back from their texts. -/
structure Survives (codec : PayloadCodec P) (param : ValidationParam P) : Prop where
  payload : codec.Restores param.operation.payload
  expected : param.expected.Survives

/-- Two parameters have the same operation and equal results. -/
structure Same (param param' : ValidationParam P) : Prop where
  operation : param'.operation = param.operation
  expected : param.expected.sorted.same param'.expected.sorted = true

end ValidationParam

namespace ParamsFile

variable {file : ParamsFile} {param : ValidationParam P} {params : List (ValidationParam P)}

/-- The fields of the record of a parameter. -/
def Writes (codec : PayloadCodec P) (param : ValidationParam P) (fields : List String) : Prop :=
  ∃ operation, param.operation.toJson codec = .ok operation ∧
    fields = [operation.compact, param.expected.sorted.compact]

theorem Writes.length {fields : List String} (h : Writes codec param fields) :
    fields.length = 2 := by
  obtain ⟨operation, -, rfl⟩ := h
  rfl

/-- All records of parameters have two fields. -/
theorem length_of_writes {rows : List (List String)} (h : List.Forall₂ (Writes codec) params rows) :
    ∀ fields ∈ rows, fields.length = 2 := by
  induction h with
  | nil => simp
  | cons hfields hrows ih => simpa [hfields.length] using ih

/-- The value of an operation is an object. -/
theorem chars_of_toJson {op : Operation P} {v : Json} (h : op.toJson codec = .ok v) :
    ∃ cs, Json.chars v = '\x7b' :: cs := by
  unfold Operation.toJson at h
  cases hencode : codec.encode op.payload with
  | error text => simp [hencode, Except.map] at h
  | ok payload =>
    rw [hencode] at h
    obtain rfl := Except.ok.inj h
    exact ⟨_, rfl⟩

/-- The record of a parameter begins with the quote around its operation or with the brace of that,
and not with a mark of byte order. -/
theorem Writes.head {fields : List String} (h : Writes codec param fields) (text : String)
    {c : Char} (hc : c ∈ (Delimited.recordText fields ++ text).toList.head?) :
    c.toNat ≠ 0xfeff := by
  obtain ⟨operation, hjson, rfl⟩ := h
  obtain ⟨cs, hchars⟩ := chars_of_toJson hjson
  obtain ⟨rest, hbegin⟩ := Delimited.fieldChars_cons '\x7b' cs
  have hfirst : (Delimited.recordText [operation.compact, param.expected.sorted.compact]).toList =
      Delimited.fieldChars ('\x7b' :: cs) ++ Delimited.bar ::
        Delimited.recordChars [(param.expected.sorted.compact).toList] := by
    simp [Delimited.recordText, Delimited.recordChars, Json.compact, hchars]
  rw [String.toList_append, hfirst] at hc
  rcases hbegin with hbegin | hbegin
  · obtain rfl : '"' = c := by simpa [hbegin] using hc
    decide
  · obtain rfl : '\x7b' = c := by simpa [hbegin] using hc
    decide

/-- A parameter is written as a record at the end of a file. -/
theorem write_eq_ok {file' : ParamsFile} (h : file.write codec param = .ok file') :
    ∃ fields, Writes codec param fields ∧
      file' = ⟨file.text ++ Delimited.recordText fields, file.written + 1⟩ := by
  unfold write recordText at h
  cases hjson : param.operation.toJson codec with
  | error text => simp [hjson, Except.map] at h
  | ok operation =>
    rw [hjson] at h
    exact ⟨_, ⟨operation, hjson, rfl⟩, (Except.ok.inj h).symm⟩

/-- Parameters are written as records one after another. -/
theorem foldlM_write_eq_ok {file' : ParamsFile}
    (h : params.foldlM (fun file param => file.write codec param) file = .ok file') :
    ∃ rows, List.Forall₂ (Writes codec) params rows ∧
      file' = ⟨file.text ++ String.join (rows.map Delimited.recordText),
        file.written + params.length⟩ := by
  induction params generalizing file with
  | nil =>
    obtain rfl := Except.ok.inj h
    exact ⟨[], .nil, by simp⟩
  | cons param params ih =>
    rw [List.foldlM_cons] at h
    cases hwrite : file.write codec param with
    | error text => simp [hwrite, bind, Except.bind] at h
    | ok file₁ =>
      rw [hwrite] at h
      obtain ⟨fields, hfields, rfl⟩ := write_eq_ok hwrite
      obtain ⟨rows, hrows, rfl⟩ := ih h
      refine ⟨fields :: rows, .cons hfields hrows, ?_⟩
      simp [String.append_assoc, Nat.add_comm 1, Nat.add_assoc]

/-- A record of a parameter that survives gives the parameter again. -/
theorem readRecord_of_writes (path : String) (line : Nat) {fields : List String}
    (h : Writes codec param fields) (hsurvives : param.Survives codec) :
    ∃ param', readRecord codec path line fields = .ok param' ∧ param.Same param' := by
  obtain ⟨operation, hjson, rfl⟩ := h
  obtain ⟨v, htext, hsame⟩ := hsurvives.expected
  refine ⟨⟨param.operation, v⟩, ?_, rfl, hsame⟩
  rw [readRecord, ofText?_of_toJson hjson hsurvives.payload, htext]

/-- Records are read one after another, so what holds of each parameter and what its record gives
holds all along. -/
theorem readRecords_of_writes {R : ValidationParam P → ValidationParam P → Prop} (path : String)
    (line : Nat) {rows : List (List String)} (h : List.Forall₂ (Writes codec) params rows)
    (hread : ∀ param ∈ params, ∀ line fields, Writes codec param fields →
      ∃ param', readRecord codec path line fields = .ok param' ∧ R param param') :
    ∃ params', readRecords codec path 2 line rows = .ok params' ∧
      List.Forall₂ R params params' := by
  induction h generalizing line with
  | nil => exact ⟨[], rfl, .nil⟩
  | @cons param fields params rows hfields hrows ih =>
    obtain ⟨param', hparam, hrelated⟩ := hread param List.mem_cons_self line fields hfields
    obtain ⟨params', hparams, hall⟩ :=
      ih (line + 1) fun p hp => hread p (List.mem_cons_of_mem _ hp)
    have hwidth : fields.length = 2 := hfields.length
    refine ⟨param' :: params', ?_, .cons hrelated hall⟩
    rw [readRecords, if_neg (by simp [hwidth]), hparam]
    dsimp only
    rw [hparams]
    rfl

/-- A file is taken apart into the records of its parameters, one for each. -/
theorem records_of_ofParams (h : ofParams codec params = .ok file) :
    List.Forall₂ (Writes codec) params (Delimited.records file.text) ∧
      file.written = params.length := by
  obtain ⟨rows, hrows, rfl⟩ := foldlM_write_eq_ok h
  have hrecords : Delimited.records (String.join (rows.map Delimited.recordText)) = rows := by
    apply Delimited.records_recordText
    · exact fun fields hfields => Nat.le_of_eq (length_of_writes hrows fields hfields).symm
    · -- A mark of byte order in front would not be read as part of the first field.
      cases hrows with
      | nil => simp
      | @cons param fields params rows hfields hrest =>
        intro c hc
        rw [List.map_cons, String.join_cons] at hc
        exact hfields.head _ hc
  dsimp only [empty]
  rw [String.empty_append, hrecords]
  exact ⟨hrows, Nat.zero_add _⟩

/-- What holds of each parameter and what its record gives holds of the parameters of a file and
what the file gives. -/
theorem exists_read {R : ValidationParam P → ValidationParam P → Prop} (path : String)
    (h : ofParams codec params = .ok file)
    (hread : ∀ param ∈ params, ∀ line fields, Writes codec param fields →
      ∃ param', readRecord codec path line fields = .ok param' ∧ R param param') :
    ∃ params', read codec path file.text = .ok params' ∧ List.Forall₂ R params params' := by
  obtain ⟨hrows, -⟩ := records_of_ofParams h
  obtain ⟨params', hparams, hrelated⟩ := readRecords_of_writes path 1 hrows hread
  refine ⟨params', ?_, hrelated⟩
  rw [read]
  -- The first record says how wide the others have to be.
  generalize Delimited.records file.text = rows at hrows hparams ⊢
  cases hrows with
  | nil => exact hparams
  | cons hfields hrest =>
    rw [List.head?_cons, Option.elim_some, hfields.length]
    exact hparams

/-- A file of parameters that survive gives these parameters again, and nothing else. -/
theorem read_of_ofParams (path : String) (h : ofParams codec params = .ok file)
    (hsurvive : ∀ param ∈ params, param.Survives codec) :
    ∃ params', read codec path file.text = .ok params' ∧
      List.Forall₂ ValidationParam.Same params params' :=
  exists_read path h fun param hparam line _ hfields =>
    readRecord_of_writes path line hfields (hsurvive param hparam)

end ParamsFile

end WorkloadReplay
