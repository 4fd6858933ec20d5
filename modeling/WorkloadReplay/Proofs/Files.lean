import WorkloadReplay.Files

/-!
# Files that have been written

A path leads to a place only where all directories on the way are there, and then it leads to the
place that its names make (`follow?_eq_some`). So a file that can be written can be written again
with all directories on the way to it, and nothing but its text changes (`add_of_write`); read from
the same path, it gives that text (`read?_of_write`).
-/

namespace WorkloadReplay

namespace Files

variable {fs fs' : Files}

/-- A way leads to the place that its names make, and all directories on it are there. -/
theorem follow?_eq_some {here place : Place} {names : List String}
    (h : fs.follow? here names = some place) :
    place = (names.foldl Place.step here).reverse ∧ fs.makeWay here names.dropLast = some fs := by
  induction names generalizing here with
  | nil => exact ⟨(Option.some.inj h).symm, rfl⟩
  | cons name names ih =>
    rw [follow?] at h
    split at h
    · obtain ⟨hplace, hway⟩ := ih h
      refine ⟨hplace, ?_⟩
      -- The last name need not be that of a directory, and no way is made there.
      cases names with
      | nil => rfl
      | cons next names =>
        -- The way goes on, so the directory of this name is there.
        have hthere : fs.isDirectoryAt (here.step name).reverse = true := by
          rw [follow?] at h
          split at h
          · assumption
          · simp at h
        rw [List.dropLast_cons_cons, makeWay, if_pos hthere]
        exact hway
    · simp at h

/-- Where a path leads does not depend on texts. -/
theorem resolve?_texts (fs : Files) (texts : List (Place × String)) (path : String) :
    ({ fs with texts := texts } : Files).resolve? path = fs.resolve? path := by
  have hfollow : ∀ names here,
      ({ fs with texts := texts } : Files).follow? here names = fs.follow? here names := by
    intro names
    induction names with
    | nil => exact fun here => rfl
    | cons name names ih =>
      intro here
      rw [follow?, follow?, ih]
      rfl
  exact hfollow _ _

/-- A text that has been set is there. -/
theorem find?_setText (place : Place) (text : String) (texts : List (Place × String)) :
    (setText place text texts).find? (·.1 = place) = some (place, text) := by
  induction texts with
  | nil => simp [setText]
  | cons entry texts ih =>
    obtain ⟨p, t⟩ := entry
    rw [setText]
    split
    · rename_i heq
      simp [heq]
    · rename_i hne
      simpa [hne] using ih

/-- A file that has been written is at the place to which its path leads, where there is no
directory. -/
theorem write_eq_some {path text : String} (h : fs.write path text = some fs') :
    ∃ place, fs.resolve? path = some place ∧
      fs' = { fs with texts := setText place text fs.texts } := by
  unfold write at h
  split at h
  · rename_i place hplace
    split at h
    · simp at h
    · exact ⟨place, hplace, (Option.some.inj h).symm⟩
  · simp at h

/-- A file that has been written is written again where it is. -/
theorem add_of_write {path text : String} (h : fs.write path text = some fs') (text' : String) :
    ∃ place, fs'.resolve? path = some place ∧
      fs'.add path text' = { fs' with texts := setText place text' fs'.texts } := by
  obtain ⟨place, hplace, rfl⟩ := write_eq_some h
  have hresolve : ({ fs with texts := setText place text fs.texts } : Files).resolve? path =
      some place := (resolve?_texts fs _ path).trans hplace
  obtain ⟨hmade, hway⟩ := follow?_eq_some hresolve
  refine ⟨place, hresolve, ?_⟩
  rw [add, hway, Option.getD_some, hmade]
  rfl

/-- Such a file can be read from its path. -/
theorem read?_of_write {path text : String} (h : fs.write path text = some fs') (text' : String) :
    (fs'.add path text').read? path = some text' := by
  obtain ⟨place, hplace, hadd⟩ := add_of_write h text'
  rw [hadd, read?, resolve?_texts, hplace, Option.bind_some, find?_setText, Option.map_some]

/-- What can be read is a file. -/
theorem isFile_of_read? {path text : String} (h : fs.read? path = some text) :
    fs.isFile path = true := by
  obtain ⟨place, hplace, htext⟩ := Option.bind_eq_some_iff.mp h
  obtain ⟨entry, hentry, -⟩ := Option.map_eq_some_iff.mp htext
  rw [isFile, hplace, Option.any_some, isFileAt, List.any_eq_true]
  have hthere := List.find?_some hentry
  exact ⟨entry, List.mem_of_find?_eq_some hentry, hthere⟩

end Files

end WorkloadReplay
