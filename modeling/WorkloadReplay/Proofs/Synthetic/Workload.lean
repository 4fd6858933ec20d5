import WorkloadReplay.Proofs.Stream.Limits
import WorkloadReplay.Proofs.Synthetic.Merging

/-!
# The synthetic workload passes its own validation

The merge of the streams restores the synthetic sequence (`toList_merge_streams`). Nothing is wrong
with any of its operations, and both constructions of a validation have the same ones, so a
validation finds no problem (`validation_of_feasible`).

Values may be asked to have any length: a configuration with longer ones than texts can be is valid,
and its sequence breaks down at the first update (`validation_of_endlessValues`).
-/

namespace WorkloadReplay

open WorkloadValidation

namespace SyntheticWorkload

/-- The validation of a feasible configuration finds no problem, whatever is drawn, from any seed
and within any limits. Without a limit on the duration it checks all operations of the
configuration, or as many as the limit on their number allows. -/
theorem validation_of_feasible {γ : Type} {random : RandomSource γ} {c : SyntheticConfig}
    (hrandom : random.StaysInRange) (hc : c.Feasible) (seed : Nat) (limits : Limits) :
    ∃ v, (ofWorkload KeyValuePayload.codec (syntheticWorkload random) seed limits c).1 = .ok v ∧
      v.problems = [] ∧ (limits.duration = none →
        v.operationsChecked = min c.operationCount (limits.operationCount.getD defaultLimit)) := by
  obtain ⟨xs, hxs, hlength, hturn⟩ := exists_syntheticSequence hrandom hc seed
  have hmerge := toList_merge_streams hxs hturn
  obtain ⟨hfree, hops⟩ := Schedule.operations_of_toList hmerge
  have hsampled := limit_operations_prefix (effectiveLimits limits) (merge (streams random c seed))
  have haccepted : ∀ x ∈ (sampled limits (streams random c seed)).operations,
      Accepts KeyValuePayload.codec c.maxInterleave x.operation := by
    intro x hx
    have hmem := hsampled.subset hx
    rw [hops] at hmem
    obtain ⟨y, hy, rfl⟩ := List.mem_map.mp hmem
    exact hturn.accepted y hy
  have hsampledFree : (sampled limits (streams random c seed)).ErrorFree := limit_errorFree hfree
  have hfault := Schedule.fault?_eq_none.mpr hsampledFree
  obtain ⟨v, hv, hsuccess⟩ := (no_problem_iff KeyValuePayload.codec (syntheticWorkload random) seed
    limits c).mpr ⟨_, c, _, c, rfl, rfl, hsampledFree, haccepted, by simp [hfault],
      List.forall₂_same.mpr fun x _ => by
        obtain ⟨form, hform, hsame⟩ := KeyValuePayload.exists_writtenForm x.operation
        exact ⟨form, form, hform, hform, hsame⟩⟩
  refine ⟨v, hv, isSuccessful_iff.mp hsuccess, fun hduration => ?_⟩
  have hstreams : (syntheticWorkload random).streams seed c = (.ok (streams random c seed), c) :=
    rfl
  have hcount := operationsChecked_eq hstreams hv
  have htake := toList_limit (l := effectiveLimits limits) rfl hduration hfree
  rw [hmerge, ← List.map_take] at htake
  rw [hcount, sampled, (Schedule.operations_of_toList htake).2, List.length_take, List.length_map,
    hlength, min_comm]

/-- The default configuration with the standard source, without limits. -/
theorem validation_of_default :
    ∃ v, (ofWorkload KeyValuePayload.codec (syntheticWorkload RandomSource.standard) 42 .unbounded
        {}).1 = .ok v ∧ v.problems = [] ∧ v.operationsChecked = 1000 := by
  have hfeasible : SyntheticConfig.Feasible {} :=
    ⟨SyntheticConfig.validate_eq_ok.mpr (by decide +kernel), by decide +kernel, by decide,
      by decide⟩
  obtain ⟨v, hv, hproblems, hcount⟩ :=
    validation_of_feasible RandomSource.standard_staysInRange hfeasible 42 .unbounded
  exact ⟨v, hv, hproblems, hcount rfl⟩

/-- The breakdown with which a validation ends. -/
def breakdown? : Except Breakdown WorkloadValidation → Option Breakdown
  | .error b => some b
  | .ok _ => none

/-- It is valid, its proportions have a finite sum, and its start is in range, but the validation
breaks down with the update. -/
theorem validation_of_endlessValues :
    RandomSource.standard.StaysInRange ∧ endlessValues.validate = .ok () ∧
    (RandomSource.total endlessValues.weights).isFinite = true ∧
    endlessValues.operationCount * (endlessValues.interval.nanos + endlessValues.jitter.nanos) ≤
      greatestNanos ∧
    breakdown? (ofWorkload KeyValuePayload.codec (syntheticWorkload RandomSource.standard) 42
      .unbounded endlessValues).1 = some (.panicked RandomSource.lengthText) :=
  ⟨RandomSource.standard_staysInRange, SyntheticConfig.validate_eq_ok.mpr (by decide +kernel),
    by decide +kernel, by decide, by decide +kernel⟩

end SyntheticWorkload

end WorkloadReplay
