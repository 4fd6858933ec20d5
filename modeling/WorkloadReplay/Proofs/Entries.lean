import Mathlib.Algebra.BigOperators.Group.List.Basic
import Mathlib.Algebra.GroupWithZero.Nat
import Mathlib.Data.List.Induction
import Mathlib.Data.List.Sort
import Mathlib.Data.String.Basic

/-!
# Entries in the order of their keys

Results, statistics and parameters are kept as lists of entries in the order of their keys, each key
once. All of them take up something new in one way: the entry of its key is changed, or a new entry
is put in its place in the order. `put` is that way, and what is said here of it holds of all of
them. A list of entries is read as a map by `get?`, and in order it holds for a key just its entry
(`InOrder.get?_eq_some_iff`). Of items that are taken up one after another, those of a key decide
alone what is held for it (`get?_putAll`).
-/

namespace WorkloadReplay

namespace Entries

variable {α β : Type} {l : List (String × β)} {key k : String}

/-- The keys come in order, each once. -/
def InOrder (l : List (String × β)) : Prop := l.Pairwise (·.1 < ·.1)

/-- What is held for a key. -/
def get? (k : String) (l : List (String × β)) : Option β := (l.find? (·.1 = k)).map (·.2)

/-- Entries with that of a key changed, or with a new one if the key has none. -/
def put (key : String) (fresh : β) (change : β → β) : List (String × β) → List (String × β)
  | [] => [(key, fresh)]
  | (k, b) :: rest =>
    if key < k then (key, fresh) :: (k, b) :: rest
    else if key = k then (k, change b) :: rest
    else (k, b) :: put key fresh change rest

section Put

variable {fresh : β} {change : β → β}

/-- The key is there, beside those that were. -/
theorem mem_keys_put : k ∈ (put key fresh change l).map (·.1) ↔ k = key ∨ k ∈ l.map (·.1) := by
  induction l with
  | nil => simp [put]
  | cons y rest ih =>
    obtain ⟨s, b⟩ := y
    unfold put
    split_ifs with hlt heq
    · rw [List.map_cons, List.mem_cons]
    · rw [heq, List.map_cons, List.map_cons, List.mem_cons, ← or_assoc, or_self]
    · rw [List.map_cons, List.map_cons, List.mem_cons, List.mem_cons, ih, or_left_comm]

/-- The keys stay in order. -/
theorem InOrder.put (h : InOrder l) : InOrder (put key fresh change l) := by
  induction l with
  | nil => exact List.pairwise_singleton _ _
  | cons y rest ih =>
    obtain ⟨s, b⟩ := y
    obtain ⟨hfirst, hrest⟩ := List.pairwise_cons.mp h
    unfold Entries.put
    split_ifs with hlt heq
    · refine List.pairwise_cons.mpr ⟨fun x hx => ?_, h⟩
      rcases List.mem_cons.mp hx with rfl | hx
      · exact hlt
      · exact lt_trans hlt (hfirst x hx)
    · exact List.pairwise_cons.mpr ⟨hfirst, hrest⟩
    · refine List.pairwise_cons.mpr ⟨fun x hx => ?_, ih hrest⟩
      rcases mem_keys_put.mp (List.mem_map_of_mem hx) with hx | hx
      · exact hx ▸ lt_of_le_of_ne (not_lt.mp hlt) (Ne.symm heq)
      · obtain ⟨y, hy, hxy⟩ := List.mem_map.mp hx
        exact hxy ▸ hfirst y hy

/-- The first entry is that of its key, and the others are those of theirs. -/
theorem get?_cons (k : String) (x : String × β) :
    get? k (x :: l) = if x.1 = k then some x.2 else get? k l := by
  unfold get?
  rw [List.find?_cons]
  by_cases h : x.1 = k <;> simp [h]

/-- Nothing is held for a key before all others. -/
theorem get?_eq_none (h : ∀ x ∈ l, k < x.1) : get? k l = none := by
  unfold get?
  rw [List.find?_eq_none.mpr fun x hx => by simpa using (h x hx).ne', Option.map_none]

/-- What is held for the key is changed, and what is held for others stays. -/
theorem get?_put (h : InOrder l) :
    get? k (put key fresh change l) =
      if key = k then some ((get? k l).elim fresh change) else get? k l := by
  induction l with
  | nil => exact get?_cons k _
  | cons y rest ih =>
    obtain ⟨s, b⟩ := y
    obtain ⟨hfirst, hrest⟩ := List.pairwise_cons.mp h
    rcases lt_trichotomy key s with hlt | rfl | hgt
    · rw [put, if_pos hlt, get?_cons]
      by_cases hk : key = k
      · -- The key is new, for it comes before all others.
        have hnone : get? k ((s, b) :: rest) = none := by
          refine get?_eq_none fun x hx => ?_
          rcases List.mem_cons.mp hx with rfl | hx
          · exact hk ▸ hlt
          · exact hk ▸ lt_trans hlt (hfirst x hx)
        rw [if_pos hk, if_pos hk, hnone, Option.elim_none]
      · rw [if_neg hk, if_neg hk]
    · rw [put, if_neg (lt_irrefl _), if_pos rfl, get?_cons, get?_cons]
      by_cases hk : key = k
      · rw [if_pos hk, if_pos hk, if_pos hk, Option.elim_some]
      · rw [if_neg hk, if_neg hk, if_neg hk]
    · rw [put, if_neg hgt.not_gt, if_neg hgt.ne', get?_cons, get?_cons, ih hrest]
      by_cases hs : s = k
      · rw [if_pos hs, if_pos hs, if_neg (hs ▸ hgt.ne')]
      · rw [if_neg hs, if_neg hs]

/-- A quantity that grows by the same amount in every entry grows by that amount in all entries
together. -/
theorem sum_put {f : β → Nat} {n : Nat} (hchange : ∀ b, f (change b) = f b + n)
    (hfresh : f fresh = n) :
    ((put key fresh change l).map (f ·.2)).sum = (l.map (f ·.2)).sum + n := by
  induction l with
  | nil => simp [put, hfresh]
  | cons y rest ih =>
    obtain ⟨s, b⟩ := y
    unfold put
    split_ifs
    · simp only [List.map_cons, List.sum_cons, hfresh]
      omega
    · simp only [List.map_cons, List.sum_cons, hchange]
      omega
    · simp only [List.map_cons, List.sum_cons, ih]
      omega

/-- A new key adds its entry to those that are there. -/
theorem put_perm (h : key ∉ l.map (·.1)) : (put key fresh change l).Perm ((key, fresh) :: l) := by
  induction l with
  | nil => exact List.Perm.refl _
  | cons y rest ih =>
    obtain ⟨s, b⟩ := y
    rw [List.map_cons, List.mem_cons, not_or] at h
    unfold put
    split_ifs with hlt heq
    · exact List.Perm.refl _
    · exact absurd heq h.1
    · exact ((ih h.2).cons _).trans (List.Perm.swap _ _ _)

end Put

/-! ## Entries as a map -/

/-- What is held for a key is its entry. -/
theorem InOrder.get?_eq_some_iff (h : InOrder l) {b : β} : get? k l = some b ↔ (k, b) ∈ l := by
  induction l with
  | nil => simp [get?]
  | cons y rest ih =>
    obtain ⟨s, c⟩ := y
    obtain ⟨hfirst, hrest⟩ := List.pairwise_cons.mp h
    rw [get?_cons, List.mem_cons]
    by_cases hs : s = k
    · subst hs
      have hnot : (s, b) ∉ rest := fun hmem => lt_irrefl s (hfirst _ hmem)
      simp [hnot, eq_comm]
    · have hne : (k, b) ≠ (s, c) := fun heq => hs (congrArg Prod.fst heq).symm
      rw [if_neg hs, ih hrest]
      simp [hne]

/-! ## Items one after another -/

/-- What is left when items are taken up one after another. -/
def putAll (key : α → String) (fresh : α → β) (change : α → β → β) (items : List α) :
    List (String × β) :=
  items.foldl (fun l a => put (key a) (fresh a) (change a) l) []

variable {keyOf : α → String} {fresh : α → β} {change : α → β → β}

/-- One more item. -/
theorem putAll_append_singleton (items : List α) (a : α) :
    putAll keyOf fresh change (items ++ [a]) =
      put (keyOf a) (fresh a) (change a) (putAll keyOf fresh change items) := by
  unfold putAll
  rw [List.foldl_append]
  rfl

/-- Items are taken up in order of their keys. -/
theorem inOrder_putAll (items : List α) : InOrder (putAll keyOf fresh change items) := by
  induction items using List.reverseRecOn with
  | nil => exact List.Pairwise.nil
  | append_singleton items a ih =>
    rw [putAll_append_singleton]
    exact ih.put

/-- The keys are those of the items. -/
theorem mem_keys_putAll (items : List α) :
    k ∈ (putAll keyOf fresh change items).map (·.1) ↔ ∃ a ∈ items, keyOf a = k := by
  induction items using List.reverseRecOn with
  | nil => simp [putAll]
  | append_singleton items a ih =>
    rw [putAll_append_singleton, mem_keys_put, ih]
    simp only [List.mem_append, List.mem_singleton, or_and_right, exists_or, exists_eq_left]
    rw [or_comm, eq_comm]

/-- Items with different keys are all kept. -/
theorem putAll_perm {items : List α} (h : (items.map keyOf).Nodup) :
    (putAll keyOf fresh change items).Perm (items.map fun a => (keyOf a, fresh a)) := by
  induction items using List.reverseRecOn with
  | nil => exact List.Perm.refl _
  | append_singleton items a ih =>
    rw [List.map_append, List.nodup_append] at h
    have hnew : keyOf a ∉ (putAll keyOf fresh change items).map (·.1) := by
      rw [mem_keys_putAll]
      rintro ⟨b, hb, hkey⟩
      exact h.2.2 _ (List.mem_map_of_mem hb) _ (List.mem_singleton_self _) hkey
    rw [putAll_append_singleton, List.map_append]
    exact (put_perm hnew).trans (((ih h.1).cons _).trans (List.perm_append_singleton _ _).symm)

/-- What is held for a key is made of the items with that key, one after another. -/
theorem get?_putAll (items : List α) :
    get? k (putAll keyOf fresh change items) =
      (items.filter (keyOf · = k)).foldl (fun held a => some (held.elim (fresh a) (change a)))
        none := by
  induction items using List.reverseRecOn with
  | nil => rfl
  | append_singleton items a ih =>
    rw [putAll_append_singleton, get?_put (inOrder_putAll items), ih, List.filter_append,
      List.foldl_append]
    by_cases hk : keyOf a = k <;> simp [hk]

/-- A quantity that each item adds an amount of its own to, in all entries together. -/
theorem sum_putAll {f : β → Nat} {n : α → Nat} (hchange : ∀ a b, f (change a b) = f b + n a)
    (hfresh : ∀ a, f (fresh a) = n a) (items : List α) :
    ((putAll keyOf fresh change items).map (f ·.2)).sum = (items.map n).sum := by
  induction items using List.reverseRecOn with
  | nil => rfl
  | append_singleton items a ih =>
    rw [putAll_append_singleton, sum_put (hchange a) (hfresh a), ih, List.map_append,
      List.sum_append, List.map_singleton, List.sum_singleton]

end Entries

end WorkloadReplay
