import Mathlib.Data.String.Basic
import WorkloadReplay.Proofs.Json.Printing

/-!
# Values that are read back as they are

A free value keeps the fields of each object in the order of their keys, each key once, and its
whole numbers have 64 bits. Such a value without doubles, whose lists and objects do not nest too
deeply, is read back from its text as it is (`Plain.ofText?`): by induction on the value its text is
read as a tree, which gives the value again. Sorting its fields does not change it (`Plain.sorted`),
since they are sorted.
-/

namespace WorkloadReplay

namespace Json

/-- A value without doubles, with whole numbers of 64 bits with or without a sign, in which the keys
of an object increase, and in which lists and objects nest to `depth` at most. -/
inductive Plain : Nat → Json → Prop
  | null {depth : Nat} : Plain depth .null
  | bool {depth : Nat} (b : Bool) : Plain depth (.bool b)
  | int {depth : Nat} {n : Int} (least : -0x8000000000000000 ≤ n) (greatest : n ≤ maxSignificand) :
      Plain depth (.int n)
  | str {depth : Nat} (s : String) : Plain depth (.str s)
  | arr {depth : Nat} {items : List Json} (values : ∀ v ∈ items, Plain depth v) :
      Plain (depth + 1) (.arr items)
  | obj {depth : Nat} {fields : List (String × Json)} (keys : fields.Pairwise (·.1 < ·.1))
      (values : ∀ f ∈ fields, Plain depth f.2) : Plain (depth + 1) (.obj fields)

variable {depth : Nat} {v : Json}

/-! ## Sorted fields -/

/-- A key after all others is set at the end. -/
theorem insertField_of_greatest {key : String} (value : Json) {fields : List (String × Json)}
    (h : ∀ f ∈ fields, f.1 < key) : insertField key value fields = fields ++ [(key, value)] := by
  induction fields with
  | nil => rfl
  | cons f fs ih =>
    have hf := h f List.mem_cons_self
    rw [insertField, if_neg hf.asymm, if_neg hf.ne', ih fun g hg => h g (List.mem_cons_of_mem f hg),
      List.cons_append]

/-- Fields whose keys increase are set one after another. -/
theorem foldl_insertField {fields sorted : List (String × Json)}
    (h : (sorted ++ fields).Pairwise (·.1 < ·.1)) :
    fields.foldl (fun sorted (k, v) => insertField k v sorted) sorted = sorted ++ fields := by
  induction fields generalizing sorted with
  | nil => simp
  | cons f fs ih =>
    have hlast : ∀ g ∈ sorted, g.1 < f.1 := fun g hg =>
      (List.pairwise_append.mp h).2.2 g hg f List.mem_cons_self
    obtain ⟨k, v⟩ := f
    rw [List.append_cons] at h
    rw [List.foldl_cons]
    dsimp only
    rw [insertField_of_greatest v hlast, ih h, List.append_assoc, List.singleton_append]

/-- Fields whose keys increase are sorted. -/
theorem sortFields_of_increasing {fields : List (String × Json)}
    (h : fields.Pairwise (·.1 < ·.1)) : sortFields fields = fields := foldl_insertField h

/-- Sorting the items of a list leaves it as it is if it does so with each of them. -/
theorem sortedItems_eq {items : List Json} (h : ∀ v ∈ items, v.sorted = v) :
    sortedItems items = items := by
  induction items with
  | nil => rfl
  | cons v vs ih =>
    rw [sortedItems, h v List.mem_cons_self, ih fun w hw => h w (List.mem_cons_of_mem v hw)]

/-- The same for the values of fields. -/
theorem sortedValues_eq {fields : List (String × Json)} (h : ∀ f ∈ fields, f.2.sorted = f.2) :
    sortedValues fields = fields := by
  induction fields with
  | nil => rfl
  | cons f fs ih =>
    obtain ⟨k, v⟩ := f
    rw [sortedValues, h (k, v) List.mem_cons_self, ih fun g hg => h g (List.mem_cons_of_mem _ hg)]

/-- The fields of a plain value are sorted. -/
theorem Plain.sorted (h : Plain depth v) : v.sorted = v := by
  induction h with
  | null => rfl
  | bool b => rfl
  | int _ _ => rfl
  | str s => rfl
  | arr _ ih => rw [Json.sorted, sortedItems_eq ih]
  | obj keys _ ih => rw [Json.sorted, sortedValues_eq ih, ofFields, sortFields_of_increasing keys]

/-! ## Reading -/

/-- The text of a value is read as a tree that gives the value again. -/
def Restored (depth : Nat) (v : Json) : Prop := ∃ t, Reads v t ∧ t.toJson? depth = some v

/-- The items of a list are read as trees that give them again if each of them is. -/
theorem exists_readsItems {items : List Json} (h : ∀ v ∈ items, Restored depth v) :
    ∃ trees, ReadsItems items trees ∧ Tree.itemsToJson? depth trees = some items := by
  induction items with
  | nil => exact ⟨[], .nil, rfl⟩
  | cons v vs ih =>
    obtain ⟨t, hreads, hvalue⟩ := h v List.mem_cons_self
    obtain ⟨trees, hrest, hvalues⟩ := ih fun w hw => h w (List.mem_cons_of_mem v hw)
    exact ⟨t :: trees, .cons hreads hrest, by rw [Tree.itemsToJson?, hvalue, hvalues]⟩

/-- The same for the values of fields. -/
theorem exists_readsFields {fields : List (String × Json)} (h : ∀ f ∈ fields, Restored depth f.2) :
    ∃ trees, ReadsFields fields trees ∧ Tree.fieldsToJson? depth trees = some fields := by
  induction fields with
  | nil => exact ⟨[], .nil, rfl⟩
  | cons f fs ih =>
    obtain ⟨k, v⟩ := f
    obtain ⟨t, hreads, hvalue⟩ := h (k, v) List.mem_cons_self
    obtain ⟨trees, hrest, hvalues⟩ := ih fun g hg => h g (List.mem_cons_of_mem _ hg)
    exact ⟨(k, t) :: trees, .cons ⟨rfl, hreads⟩ hrest,
      by rw [Tree.fieldsToJson?, hvalue, hvalues]⟩

/-- A plain value is restored from its text, one kind of value after another. -/
theorem Plain.restored (h : Plain depth v) : Restored depth v := by
  induction h with
  | null => exact ⟨_, reads_null, rfl⟩
  | bool b => exact ⟨_, reads_bool b, rfl⟩
  | @int _ n least greatest => exact ⟨_, reads_int n, toJson?_wholeNumeral least greatest⟩
  | str s => exact ⟨_, reads_str s, rfl⟩
  | arr _ ih =>
    obtain ⟨trees, hreads, hvalues⟩ := exists_readsItems ih
    exact ⟨_, reads_arr hreads, by rw [Tree.toJson?, hvalues, Option.map_some]⟩
  | obj keys _ ih =>
    obtain ⟨trees, hreads, hvalues⟩ := exists_readsFields ih
    exact ⟨_, reads_obj hreads, by
      rw [Tree.toJson?, hvalues, Option.map_some, ofFields, sortFields_of_increasing keys]⟩

/-- A plain value is read back from its text. -/
theorem Plain.ofText? (h : Plain nestingLimit v) : Json.ofText? v.compact = some v := by
  obtain ⟨t, hreads, hvalue⟩ := h.restored
  rw [Json.ofText?, hreads.ofText?, Option.bind_some, hvalue]

end Json

end WorkloadReplay
