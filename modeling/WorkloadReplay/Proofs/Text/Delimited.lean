import WorkloadReplay.Text.Delimited

/-!
# Reading delimited records that have been written

A record of at least two fields is read back as it was written, whatever its fields hold, and the
reader goes on with the next record (`scan_recordChars`). A field leaves the reader at a position
where the bar or the end of the line after it ends the field (`scan_fieldChars`): quotes around it
have been closed, and without quotes there is nothing in it that the reader would take for an end.
A record of one empty field would be passed over as an empty line, so records of one field are left
out. `records_recordText` says the same of a whole text.
-/

namespace WorkloadReplay

namespace Delimited

variable {p : Position} (acc : List Char) (fields : List (List Char)) (rest : List Char)

/-! ## Fields -/

/-- A character of a field without quotes is no bar, no quote and no end of a line. -/
theorem needsQuotes_eq_false {c : Char} :
    needsQuotes c = false ↔ c ≠ bar ∧ c ≠ '"' ∧ isBreak c = false := by
  simp [needsQuotes, and_assoc]

/-- A bar ends a field that is not between quotes. A record does not begin with one, except after an
empty field. -/
theorem scan_bar (hp : p ≠ .quoted) (hfirst : p = .record → acc = [] ∧ fields = []) :
    scan p acc fields (bar :: rest) = scan .field [] (acc.reverse :: fields) rest := by
  have hquote : bar ≠ '"' := by decide
  have hbreak : isBreak bar = false := rfl
  cases p with
  | record =>
    obtain ⟨rfl, rfl⟩ := hfirst rfl
    simp [scan, hbreak, hquote]
  | quoted => exact absurd rfl hp
  | field => simp [scan, hquote]
  | plain => simp [scan, hquote]
  | closing => simp [scan, hquote]

/-- The end of a line ends a field and its record. -/
theorem scan_newline (hp : p ≠ .quoted) (hfirst : p ≠ .record) :
    scan p acc fields ('\n' :: rest) =
      (acc.reverse :: fields).reverse :: scan .record [] [] rest := by
  have hquote : '\n' ≠ '"' := by decide
  have hbar : '\n' ≠ bar := by decide
  have hbreak : isBreak '\n' = true := rfl
  cases p with
  | record => exact absurd rfl hfirst
  | quoted => exact absurd rfl hp
  | field => simp [scan, hquote, hbar, hbreak]
  | plain => simp [scan, hquote, hbar, hbreak]
  | closing => simp [scan, hquote, hbar, hbreak]

/-- Characters that need no quotes are taken into the field. -/
theorem scan_plain {field : List Char} (h : ∀ c ∈ field, needsQuotes c = false) :
    scan .plain acc fields (field ++ rest) = scan .plain (field.reverse ++ acc) fields rest := by
  induction field generalizing acc with
  | nil => rfl
  | cons c cs ih =>
    obtain ⟨hbar, hquote, hbreak⟩ := needsQuotes_eq_false.mp (h c List.mem_cons_self)
    have hrest := ih (c :: acc) fun d hd => h d (List.mem_cons_of_mem c hd)
    simpa [scan, hbar, hquote, hbreak] using hrest

/-- Between quotes every character is taken into the field, and of two quotes one. -/
theorem scan_quoted (field : List Char) :
    scan .quoted acc fields (doubleQuotes field ++ '"' :: rest) =
      scan .closing (field.reverse ++ acc) fields rest := by
  induction field generalizing acc with
  | nil => simp [doubleQuotes, scan]
  | cons c cs ih =>
    have hrest := ih (c :: acc)
    rw [doubleQuotes]
    split
    · rename_i hquote
      subst hquote
      simpa [scan] using hrest
    · rename_i hquote
      simpa [scan, hquote] using hrest

/-- After a field that has been written the reader holds its characters, and is not between quotes.
Only an empty field has left it where it was. -/
theorem scan_fieldChars (hp : p = .field ∨ p = .record ∧ fields = []) (field : List Char) :
    ∃ q, q ≠ .quoted ∧ (q = .record → p = .record ∧ field = []) ∧
      ∀ rest, scan p [] fields (fieldChars field ++ rest) = scan q field.reverse fields rest := by
  unfold fieldChars
  split
  · -- The field is put between quotes, and the reader is left after the closing one.
    refine ⟨.closing, by simp, by simp, fun rest => ?_⟩
    have hopen : scan p [] fields ('"' :: (doubleQuotes field ++ '"' :: rest)) =
        scan .quoted [] fields (doubleQuotes field ++ '"' :: rest) := by
      rcases hp with rfl | ⟨rfl, rfl⟩
      · simp [scan]
      · have hbreak : isBreak '"' = false := rfl
        simp [scan, hbreak]
    have hclosed := scan_quoted [] fields rest field
    rw [List.append_nil] at hclosed
    rw [List.cons_append, List.append_assoc]
    exact hopen.trans hclosed
  · rename_i hplain
    have hplain : ∀ c ∈ field, needsQuotes c = false := by simpa using hplain
    cases field with
    | nil =>
      -- An empty field is written as nothing.
      refine ⟨p, ?_, fun heq => ⟨heq, rfl⟩, fun rest => rfl⟩
      rcases hp with rfl | ⟨rfl, -⟩ <;> simp
    | cons c cs =>
      refine ⟨.plain, by simp, by simp, fun rest => ?_⟩
      obtain ⟨hbar, hquote, hbreak⟩ := needsQuotes_eq_false.mp (hplain c List.mem_cons_self)
      have hbegin : scan p [] fields (c :: (cs ++ rest)) = scan .plain [c] fields (cs ++ rest) := by
        rcases hp with rfl | ⟨rfl, rfl⟩
        · simp [scan, hbar, hquote, hbreak]
        · simp [scan, hbar, hquote, hbreak]
      have hrest := scan_plain [c] fields rest fun d hd => hplain d (List.mem_cons_of_mem c hd)
      rw [List.cons_append, hbegin, hrest, List.reverse_cons]

/-- A field that is not empty begins with a quote or with its own first character. -/
theorem fieldChars_cons (c : Char) (cs : List Char) :
    ∃ rest, fieldChars (c :: cs) = '"' :: rest ∨ fieldChars (c :: cs) = c :: rest := by
  unfold fieldChars
  split
  · exact ⟨_, .inl rfl⟩
  · exact ⟨cs, .inr rfl⟩

/-! ## Records -/

/-- The last fields of a record are read back, and then the records after it. -/
theorem scan_lastFields (g : List Char) (fs : List (List Char)) :
    scan .field [] fields (recordChars (g :: fs) ++ rest) =
      (fields.reverse ++ g :: fs) :: scan .record [] [] rest := by
  -- By induction on the fields after `g`: the last one is ended by the line, the others by a bar.
  induction fs generalizing g fields with
  | nil =>
    obtain ⟨q, hq, hfirst, hscan⟩ := scan_fieldChars fields (.inl rfl) g
    have hrecord : q ≠ .record := fun heq => by simpa using (hfirst heq).1
    rw [recordChars, List.append_assoc, hscan]
    simpa using scan_newline g.reverse fields rest hq hrecord
  | cons f fs ih =>
    obtain ⟨q, hq, hfirst, hscan⟩ := scan_fieldChars fields (.inl rfl) g
    have hrecord : q = .record → g.reverse = [] ∧ fields = [] :=
      fun heq => by simpa using (hfirst heq).1
    rw [recordChars, List.append_assoc, List.cons_append, hscan, scan_bar _ _ _ hq hrecord, ih]
    simp

/-- A record of at least two fields is read back, and then the records after it. -/
theorem scan_recordChars (f g : List Char) (fs : List (List Char)) :
    scan .record [] [] (recordChars (f :: g :: fs) ++ rest) =
      (f :: g :: fs) :: scan .record [] [] rest := by
  obtain ⟨q, hq, hfirst, hscan⟩ := scan_fieldChars [] (.inr ⟨rfl, rfl⟩) f
  have hrecord : q = .record → f.reverse = [] ∧ ([] : List (List Char)) = [] :=
    fun heq => by simpa using (hfirst heq).2
  rw [recordChars, List.append_assoc, List.cons_append, hscan, scan_bar _ _ _ hq hrecord,
    scan_lastFields]
  simp

/-- Records of at least two fields are read back. -/
theorem scan_flatMap_recordChars (rows : List (List (List Char)))
    (h : ∀ row ∈ rows, 2 ≤ row.length) :
    scan .record [] [] (rows.flatMap recordChars) = rows := by
  induction rows with
  | nil => rfl
  | cons row rows ih =>
    have hrow := h row List.mem_cons_self
    match row, hrow with
    | f :: g :: fs, _ =>
      rw [List.flatMap_cons, scan_recordChars, ih fun r hr => h r (List.mem_cons_of_mem _ hr)]

/-- A text that does not begin with a mark of byte order is read as a whole. -/
theorem withoutMark_eq {cs : List Char} (h : ∀ c ∈ cs.head?, c.toNat ≠ 0xfeff) :
    withoutMark cs = cs := by
  cases cs with
  | nil => rfl
  | cons c cs => rw [withoutMark, if_neg (h c rfl)]

/-- The text of some records is read back as those records. -/
theorem records_recordText (rows : List (List String)) (h : ∀ row ∈ rows, 2 ≤ row.length)
    (hmark : ∀ c ∈ (String.join (rows.map recordText)).toList.head?, c.toNat ≠ 0xfeff) :
    records (String.join (rows.map recordText)) = rows := by
  have hchars : (String.join (rows.map recordText)).toList =
      (rows.map fun row => row.map String.toList).flatMap recordChars := by
    simp [List.flatMap_map, recordText]
  have hlength : ∀ row ∈ rows.map fun row => row.map String.toList, 2 ≤ row.length := by
    intro row hrow
    obtain ⟨row', hrow', rfl⟩ := List.mem_map.mp hrow
    simpa using h row' hrow'
  rw [records, withoutMark_eq hmark, hchars, scan_flatMap_recordChars _ hlength, List.map_map]
  simp [Function.comp_def]

end Delimited

end WorkloadReplay
