import Mathlib.Data.List.Range
import Mathlib.Data.List.Sort
import Mathlib.Logic.Function.Basic
import WorkloadReplay.Proofs.Time.Order

/-!
# Stable sorts and merges of lists

Lists in order of a key are determined by what they hold for each key (`eq_of_filter_eq`), and a
stable sort leaves the items of each key as they are (`filter_mergeSort`). `stableMerge` merges
lists by a key, ties in the order of the numbers of the lists, and remembers the number of each
item's list. It begins with the first item of a list that comes before all others, and goes on with
the merge of what is left (`stableMerge_cons`).
-/

namespace WorkloadReplay

variable {α : Type} {key : α → Instant}

/-! ## Lists in order -/

/-- Lists in order of a key that hold the same items for each key, in the same order, are the
same. -/
theorem eq_of_filter_eq {l l' : List α} (h : l.Pairwise (key · ≤ key ·))
    (h' : l'.Pairwise (key · ≤ key ·))
    (hf : ∀ t, l.filter (key · = t) = l'.filter (key · = t)) : l = l' := by
  have hmem : ∀ {m m' : List α}, (∀ t, m.filter (key · = t) = m'.filter (key · = t)) →
      ∀ x ∈ m, x ∈ m' := fun {m m'} hm x hx => by
    have hx' : x ∈ m.filter (key · = key x) := List.mem_filter.mpr ⟨hx, by simp⟩
    rw [hm] at hx'
    exact (List.mem_filter.mp hx').1
  induction l generalizing l' with
  | nil =>
    cases l' with
    | nil => rfl
    | cons b bs => exact absurd (hmem (fun t => (hf t).symm) b List.mem_cons_self) (by simp)
  | cons a as ih =>
    cases l' with
    | nil => exact absurd (hmem hf a List.mem_cons_self) (by simp)
    | cons b bs =>
      obtain ⟨ha, has⟩ := List.pairwise_cons.mp h
      obtain ⟨hb, hbs⟩ := List.pairwise_cons.mp h'
      have hba : key b ≤ key a := by
        rcases List.mem_cons.mp (hmem hf a List.mem_cons_self) with rfl | hmem
        · exact le_refl _
        · exact hb a hmem
      have hab : key a ≤ key b := by
        rcases List.mem_cons.mp (hmem (fun t => (hf t).symm) b List.mem_cons_self) with rfl | hmem
        · exact le_refl _
        · exact ha b hmem
      have hkey : key a = key b := le_antisymm hab hba
      -- Both lists begin with the first item of that key.
      have hfirst := hf (key a)
      rw [List.filter_cons_of_pos (by simp), List.filter_cons_of_pos (by simp [hkey])] at hfirst
      obtain ⟨rfl, -⟩ := List.cons.inj hfirst
      rw [ih has hbs fun t => ?_]
      have ht := hf t
      by_cases hat : key a = t
      · rw [List.filter_cons_of_pos (by simpa using hat),
          List.filter_cons_of_pos (by simpa using hat)] at ht
        exact (List.cons.inj ht).2
      · rwa [List.filter_cons_of_neg (by simpa using hat),
          List.filter_cons_of_neg (by simpa using hat)] at ht

/-- Sorting by a key leaves the items of each key in their order. -/
theorem filter_mergeSort (l : List α) (t : Instant) :
    (l.mergeSort (key · ≤ key ·)).filter (key · = t) = l.filter (key · = t) := by
  have hsub : (l.filter (key · = t)).Sublist (l.mergeSort (key · ≤ key ·)) := by
    refine List.sublist_mergeSort ?_ ?_ ?_ List.filter_sublist
    · intro a b c hab hbc
      simp only [decide_eq_true_eq] at hab hbc ⊢
      exact le_trans hab hbc
    · intro a b
      simpa using le_total (key a) (key b)
    · refine List.pairwise_of_forall_mem_list fun a ha b hb => ?_
      have ha := (List.mem_filter.mp ha).2
      have hb := (List.mem_filter.mp hb).2
      simp only [decide_eq_true_eq] at ha hb ⊢
      rw [ha, hb]
  have hsub := hsub.filter (key · = t)
  rw [List.filter_filter] at hsub
  simp only [Bool.and_self] at hsub
  refine (hsub.eq_of_length ?_).symm
  exact ((List.mergeSort_perm l _).filter _).length_eq.symm

/-- Sorting by a key gives a list in order of it. -/
theorem pairwise_mergeSort_key (l : List α) :
    (l.mergeSort (key · ≤ key ·)).Pairwise (key · ≤ key ·) := by
  have hsorted := @List.pairwise_mergeSort α (fun a b => decide (key a ≤ key b))
    (fun a b c hab hbc => by
      simp only [decide_eq_true_eq] at hab hbc ⊢
      exact le_trans hab hbc)
    (fun a b => by simpa using le_total (key a) (key b)) l
  exact hsorted.imp fun hab => by simpa using hab

/-- The list that consists of the lists of the first numbers loses its first item when the first
nonempty list does. -/
theorem flatMap_range_update {f : Nat → List α} {k n : Nat} {x : α} {l : List α} (hk : k < n)
    (hbefore : ∀ j < k, f j = []) (hf : f k = x :: l) :
    (List.range n).flatMap f = x :: (List.range n).flatMap (Function.update f k l) := by
  obtain ⟨m, rfl⟩ := Nat.exists_eq_add_of_lt hk
  have hnone : ∀ g : Nat → List α, (∀ j < k, g j = []) → (List.range k).flatMap g = [] := by
    intro g hg
    exact List.flatMap_eq_nil_iff.mpr fun j hj => hg j (List.mem_range.mp hj)
  have hsplit : ∀ g : Nat → List α, (∀ j < k, g j = []) →
      (List.range (k + m + 1)).flatMap g =
        g k ++ (List.range m).flatMap fun j => g (k + (j + 1)) := by
    intro g hg
    rw [Nat.add_assoc, List.range_add, List.flatMap_append, hnone g hg, List.nil_append,
      List.range_succ_eq_map, List.map_cons, List.flatMap_cons, List.map_map, List.flatMap_map]
    rfl
  have hupdate : ∀ j < k, Function.update f k l j = [] := fun j hj => by
    rw [Function.update_of_ne (by omega)]
    exact hbefore j hj
  rw [hsplit f hbefore, hsplit _ hupdate, hf, Function.update_self]
  refine congrArg (x :: l ++ ·) (List.flatMap_congr fun j _ => ?_)
  rw [Function.update_of_ne (by omega)]

/-- The lists that belong to the items of a list, by the numbers of the items. -/
theorem flatMap_range_getElem? {β : Type} (l : List α) (f : α → List β) :
    (List.range l.length).flatMap (fun k => (l[k]?).elim [] f) = l.flatMap f := by
  induction l with
  | nil => rfl
  | cons a as ih =>
    rw [List.length_cons, List.range_succ_eq_map, List.flatMap_cons, List.flatMap_map,
      List.flatMap_cons, ← ih]
    rfl

/-! ## Merges of lists -/

/-- Lists side by side, each item with the number of its list. -/
def numbered (f : Nat → List α) (n : Nat) : List (Nat × α) :=
  (List.range n).flatMap fun k => (f k).map (k, ·)

/-- Lists merged by a key, with ties in the order of the numbers of the lists. -/
def stableMerge (key : α → Instant) (f : Nat → List α) (n : Nat) : List (Nat × α) :=
  (numbered f n).mergeSort (key ·.2 ≤ key ·.2)

/-- The items of numbered lists are those of the lists. -/
theorem mem_numbered {f : Nat → List α} {n : Nat} {y : Nat × α} :
    y ∈ numbered f n ↔ y.1 < n ∧ y.2 ∈ f y.1 := by
  obtain ⟨j, z⟩ := y
  simp only [numbered, List.mem_flatMap, List.mem_range, List.mem_map, Prod.mk.injEq]
  constructor
  · rintro ⟨k, hk, w, hw, rfl, rfl⟩
    exact ⟨hk, hw⟩
  · rintro ⟨hj, hz⟩
    exact ⟨j, hj, z, hz, rfl, rfl⟩

/-- So are those of their merge. -/
theorem mem_stableMerge {f : Nat → List α} {n : Nat} {y : Nat × α} :
    y ∈ stableMerge key f n ↔ y.1 < n ∧ y.2 ∈ f y.1 :=
  (List.mergeSort_perm _ _).mem_iff.trans mem_numbered

/-- A merge is in order of the key. -/
theorem pairwise_stableMerge (f : Nat → List α) (n : Nat) :
    (stableMerge key f n).Pairwise (key ·.2 ≤ key ·.2) :=
  @pairwise_mergeSort_key (Nat × α) (key ·.2) _

/-- A merge holds the items of numbered lists for each key, in the order of the numbers. -/
theorem filter_stableMerge (f : Nat → List α) (n : Nat) (t : Instant) :
    (stableMerge key f n).filter (key ·.2 = t) =
      (List.range n).flatMap fun k => ((f k).map (k, ·)).filter (key ·.2 = t) := by
  unfold stableMerge numbered
  rw [@filter_mergeSort (Nat × α) (key ·.2), List.filter_flatMap]

/-- Without the numbers, a merge is the stable sort of the lists side by side. -/
theorem map_snd_stableMerge (f : Nat → List α) (n : Nat) :
    (stableMerge key f n).map (·.2) = ((List.range n).flatMap f).mergeSort (key · ≤ key ·) := by
  refine eq_of_filter_eq (List.pairwise_map.mpr (pairwise_mergeSort_key _))
    (pairwise_mergeSort_key _) fun t => ?_
  rw [filter_mergeSort, List.filter_map, List.filter_flatMap]
  refine (congrArg (List.map _) (filter_stableMerge f n t)).trans ?_
  rw [List.map_flatMap]
  refine List.flatMap_congr fun k _ => ?_
  rw [List.filter_map, List.map_map]
  exact List.map_id _

/-- A merge begins with the first item of a list, if no other item comes before it, and none that
comes together with it is in a list with a smaller number. -/
theorem stableMerge_cons {f : Nat → List α} {k n : Nat} {x : α} {l : List α} (hk : k < n)
    (hf : f k = x :: l) (hleast : ∀ j < n, ∀ y ∈ f j, key x ≤ key y)
    (hbefore : ∀ j < k, ∀ y ∈ f j, key y ≠ key x) :
    stableMerge key f n = (k, x) :: stableMerge key (Function.update f k l) n := by
  have hrest : ∀ j, ∀ y ∈ Function.update f k l j, y ∈ f j := fun j y hy => by
    by_cases hj : j = k
    · subst hj
      rw [Function.update_self] at hy
      rw [hf]
      exact List.mem_cons_of_mem x hy
    · rwa [Function.update_of_ne hj] at hy
  refine @eq_of_filter_eq (Nat × α) (key ·.2) _ _ (pairwise_stableMerge f n)
    (List.pairwise_cons.mpr ⟨fun y hy => ?_, pairwise_stableMerge _ n⟩) fun t => ?_
  · obtain ⟨hn, hy⟩ := mem_stableMerge.mp hy
    exact hleast _ hn _ (hrest _ _ hy)
  · by_cases ht : key x = t
    · -- The item is the first one of its key: no list with a smaller number has one.
      have hnone : ∀ j < k, ((f j).map (j, ·)).filter (key ·.2 = t) = [] := fun j hj => by
        rw [List.filter_eq_nil_iff]
        intro y hy
        obtain ⟨z, hz, rfl⟩ := List.mem_map.mp hy
        simpa [← ht] using hbefore j hj z hz
      have hfirst := flatMap_range_update (l := (l.map (k, ·)).filter (key ·.2 = t)) hk hnone
        (by rw [hf, List.map_cons, List.filter_cons_of_pos (by simpa using ht)])
      rw [List.filter_cons_of_pos (by simpa using ht), filter_stableMerge, filter_stableMerge,
        hfirst]
      refine congrArg (_ :: ·) (List.flatMap_congr fun j _ => ?_)
      by_cases hj : j = k
      · rw [hj, Function.update_self, Function.update_self]
      · rw [Function.update_of_ne hj, Function.update_of_ne hj]
    · rw [List.filter_cons_of_neg (by simpa using ht), filter_stableMerge, filter_stableMerge]
      refine List.flatMap_congr fun j _ => ?_
      by_cases hj : j = k
      · rw [hj, Function.update_self, hf, List.map_cons,
          List.filter_cons_of_neg (by simpa using ht)]
      · rw [Function.update_of_ne hj]

end WorkloadReplay
