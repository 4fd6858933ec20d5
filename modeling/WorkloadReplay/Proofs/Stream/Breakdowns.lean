import WorkloadReplay.Proofs.Stream.Limits
import WorkloadReplay.Proofs.Stream.Placement

/-!
# Sequences that do not break down

A workload may break down while its operations are computed; an item of a sequence then stands for
that. Where no sequence of a workload has such an item, nothing between the streams and the run adds
one: neither moving the streams in time, nor merging them, nor cutting the merged sequence off.
-/

namespace WorkloadReplay

variable {P : Type}

/-- Nothing breaks down while the sequence is computed. -/
def OperationSequence.NeverBreaks (q : OperationSequence P) : Prop :=
  ∀ text, .error (.panicked text) ∉ q.toList

/-- Nothing breaks down while the merged sequence is computed. -/
def Schedule.NeverBreaks (s : Schedule P) : Prop := ∀ text, .error (.panicked text) ∉ s.toList

/-- Nothing breaks down while the sequences of streams are computed. -/
def NeverBreak (streams : List (OperationStream P)) : Prop :=
  ∀ s ∈ Source.ofStreams streams, s.rest.NeverBreaks

namespace Stream

variable {streams mapped : List (OperationStream P)} {start : Instant} {ratio : Binary64}

/-- Streams that cannot be moved in time have no replay; nothing breaks down. -/
theorem timeMap_eq_error {e : ReplayError} (h : timeMap streams start ratio = .error e) :
    ∃ text, e = .streamConstruction text := by
  by_cases hratio : ratio.Positive
  · have hcheck := checkRatio_eq_ok.mpr hratio
    cases hanchor : anchor? streams with
    | none =>
      rw [timeMap_eq_ok.mpr ⟨hratio, .inl ⟨hanchor, rfl⟩⟩] at h
      simp at h
    | some anchor =>
      cases hshift : start.since? anchor with
      | none =>
        unfold timeMap at h
        rw [hcheck, hanchor] at h
        simp only [bind, Except.bind, hshift] at h
        exact ⟨_, (Except.error.inj h).symm⟩
      | some shift =>
        rw [timeMap_eq_ok.mpr ⟨hratio, .inr ⟨anchor, shift, hanchor, hshift, rfl⟩⟩] at h
        simp at h
  · unfold timeMap at h
    cases hcheck : checkRatio ratio with
    | ok u => exact absurd (checkRatio_eq_ok.mp hcheck) hratio
    | error e' =>
      rw [hcheck] at h
      obtain rfl : e' = e := Except.error.inj h
      unfold checkRatio at hcheck
      split at hcheck
      · simp at hcheck
      · exact ⟨_, (Except.error.inj hcheck).symm⟩

/-- Streams that are moved in time still do not break down. -/
theorem neverBreak_timeMap (h : NeverBreak streams)
    (hmap : timeMap streams start ratio = .ok mapped) : NeverBreak mapped := by
  obtain ⟨-, ⟨-, rfl⟩ | ⟨anchor, shift, -, -, rfl⟩⟩ := timeMap_eq_ok.mp hmap
  · exact h
  · intro source hsource text hmem
    obtain ⟨s, hs, rfl⟩ := mem_ofStreams_movedStream.mp hsource
    obtain ⟨op, -, ⟨overflow, hw | hw⟩, -⟩ | ⟨w, hw, hmem⟩ := mem_movedSequence hmem
    · simp at hw
    · simp at hw
    · exact h s hs text (Except.error.inj hw ▸ hmem)

end Stream

/-- Nor does the merge of streams that do not. -/
theorem neverBreaks_merge {streams : List (OperationStream P)} (h : NeverBreak streams) :
    (merge streams).NeverBreaks := by
  intro text hmem
  obtain ⟨k, hdefect⟩ := defectOf?_of_mem_merge hmem
  obtain ⟨s, hs, hdefect⟩ := Option.bind_eq_some_iff.mp hdefect
  obtain ⟨item, hitem, hfault⟩ := Source.itemFault_of_defect? hdefect
  cases hfault with
  | breakdown => exact h s (List.mem_of_getElem? hs) text (List.mem_of_getElem? hitem)

/-- Nor does what limits leave of a sequence that does not. -/
theorem Schedule.NeverBreaks.limit {s : Schedule P} (h : s.NeverBreaks) (l : Limits) :
    (WorkloadReplay.limit l s).NeverBreaks := by
  have hfront := limit_prefix l s
  exact fun text hmem => h text (hfront.subset hmem)

end WorkloadReplay
