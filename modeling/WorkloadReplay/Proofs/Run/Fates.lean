import Mathlib.Data.List.Nodup
import Mathlib.Data.List.Perm.Basic
import WorkloadReplay.Proofs.Run.Endings

/-!
# What becomes of dispatched operations

The handler of every dispatched operation comes to a good end, which is counted, or ends with an
error, which is reported, or it is still alive when the time for draining runs out.
`Run.Accounts` is this account, up to the order of the operations, and every event keeps it.

When the time for draining runs out, a run gives up all operations that have no record. These are
the ones whose handlers are alive, and those whose handlers have ended with an error before their
records were accepted. So if both happen in one run, an operation whose handler has ended is
reported as unfinished, too. `fates_of_terminated` says exactly what is listed, and
`abandoned_of_panic` is such a run.
-/

namespace WorkloadReplay

variable {P κ : Type}

/-- An operation as it is listed when it is abandoned. -/
def ScheduledOperation.asAbandoned (x : ScheduledOperation P) : AbandonedOperation :=
  ⟨x.operation.operationType, x.operation.scheduledStart⟩

/-- An error as it is reported. -/
def ReplayError.asReported (e : ReplayError) : ReportedError := ⟨e.component, e.message⟩

/-- The report of an abandoned operation. -/
def AbandonedOperation.asReported (grace : Duration) (a : AbandonedOperation) : ReportedError :=
  (ReplayError.drainTimeout a.operationType a.scheduledStart grace).asReported

namespace Run

/-- The numbers of the operations whose records have been accepted. -/
def recordedNumbers (endings : List Ending) : List Nat :=
  (endings.filter (·.record.isSome)).map (·.number)

/-- The numbers of the dispatched operations that have no record. -/
def unrecordedNumbers (endings : List Ending) (r : Run P κ) : List Nat :=
  (List.range r.dispatched.size).filter (· ∉ recordedNumbers endings)

/-- The account of a run: of each dispatched operation, the handler has ended, is alive, or was left
when the time for draining ran out. -/
structure Accounts (endings : List Ending) (left : List Nat) (r : Run P κ) : Prop where
  numbers : (endings.map (·.number) ++ r.handlers.map (·.number) ++ left).Perm
    (List.range r.dispatched.size)
  /-- A handler is for the operation of its number, and so is its record. -/
  handlers : ∀ x ∈ r.handlers, r.dispatched[x.number]? = some x.scheduled ∧
    ∀ record, x.phase = .submitting record → record.Describes x.scheduled.operation
  records : ∀ d ∈ endings, ∀ record, d.record = some record →
    ∃ x, r.dispatched[d.number]? = some x ∧ record.Describes x.operation
  /-- Only handlers whose records are accepted come to a good end. -/
  good : ∀ d ∈ endings, d.isGood = true → d.record.isSome = true
  completed : r.completed = endings.countP Ending.isGood
  failed : r.failed = endings.countP Ending.isFailure

/-- A run before its end: nothing is left or abandoned, and errors of handlers are reported when the
scheduler takes notice of them. -/
structure Open (endings : List Ending) (r : Run P κ) : Prop where
  accounts : Accounts endings [] r
  unrecorded : r.unrecorded = (unrecordedNumbers endings r).filterMap fun n =>
    (r.dispatched[n]?).map fun x => (n, x.asAbandoned)
  abandoned : r.abandoned = []
  reported : ∃ absorbed : List ReplayError,
    endings.filterMap Ending.error? = absorbed ++ r.finished.filterMap ReplayError.ofResult? ∧
    (absorbed.map ReplayError.asReported).Sublist r.log.entries

/-- A run after its end: if some handlers were left, everything without a record is abandoned. -/
structure Closed (setup : RunSetup κ) (endings : List Ending) (left : List Nat) (r : Run P κ) :
    Prop where
  accounts : Accounts endings left r
  handlers : r.handlers = []
  finished : r.finished = []
  abandoned : r.abandoned = if left = [] then [] else
    sortAbandoned ((unrecordedNumbers endings r).filterMap fun n =>
      (r.dispatched[n]?).map ScheduledOperation.asAbandoned)
  reported : ((endings.filterMap Ending.error?).map ReplayError.asReported ++
    r.abandoned.map (AbandonedOperation.asReported setup.config.drainGrace)).Sublist r.log.entries

section Keeping

variable {setup : RunSetup κ} {r r' : Run P κ} {endings : List Ending} {left : List Nat}

/-! ### The account -/

/-- The account is about operations, handlers and counts. -/
theorem Accounts.congr (h : Accounts endings left r) (hdispatched : r'.dispatched = r.dispatched)
    (hhandlers : r'.handlers = r.handlers) (hcompleted : r'.completed = r.completed)
    (hfailed : r'.failed = r.failed) : Accounts endings left r' where
  numbers := by
    rw [hdispatched, hhandlers]
    exact h.numbers
  handlers := by
    rw [hdispatched, hhandlers]
    exact h.handlers
  records := by
    rw [hdispatched]
    exact h.records
  good := h.good
  completed := hcompleted.trans h.completed
  failed := hfailed.trans h.failed

/-- So it is kept where the account is left alone. -/
theorem Accounts.same (h : Accounts endings left r) (hs : SameTally r r') :
    Accounts endings left r' :=
  h.congr hs.dispatched hs.handlers hs.completed hs.failed

/-- The numbers of endings are those of dispatched operations. -/
theorem Accounts.lt_size (h : Accounts endings left r) {d : Ending} (hd : d ∈ endings) :
    d.number < r.dispatched.size := by
  refine List.mem_range.mp (h.numbers.mem_iff.mp ?_)
  rw [List.append_assoc]
  exact List.mem_append_left _ (List.mem_map_of_mem hd)

/-- No two handlers, ended or alive or left, have the same number. -/
theorem Accounts.nodup (h : Accounts endings left r) :
    (endings.map (·.number) ++ r.handlers.map (·.number) ++ left).Nodup :=
  h.numbers.nodup_iff.mpr List.nodup_range

/-- An operation that is dispatched gets a handler of its number. -/
theorem Accounts.spawn (h : Accounts endings [] r) (next : ScheduledOperation P) :
    Accounts endings [] (r.spawn next) where
  numbers := by
    have hnumbers := h.numbers
    rw [List.append_nil] at hnumbers ⊢
    simp only [Run.spawn, Array.size_push, List.map_append, List.map_cons, List.map_nil]
    rw [List.range_succ, ← List.append_assoc]
    exact hnumbers.append_right _
  handlers x hx := by
    rcases List.mem_append.mp hx with hx | hx
    · obtain ⟨hscheduled, hrecord⟩ := h.handlers x hx
      refine ⟨?_, hrecord⟩
      have hlt := (Array.getElem?_eq_some_iff.mp hscheduled).1
      simp only [Run.spawn]
      rw [Array.getElem?_push_lt hlt, ← hscheduled, Array.getElem?_eq_getElem hlt]
    · rw [List.mem_singleton.mp hx]
      refine ⟨?_, by simp⟩
      simp [Run.spawn]
  records d hd record hrecord := by
    obtain ⟨x, hx, hdescribes⟩ := h.records d hd record hrecord
    refine ⟨x, ?_, hdescribes⟩
    have hlt := (Array.getElem?_eq_some_iff.mp hx).1
    simp only [Run.spawn]
    rw [Array.getElem?_push_lt hlt, ← hx, Array.getElem?_eq_getElem hlt]
  good := h.good
  completed := h.completed
  failed := h.failed

/-- A handler that goes on keeps its number. -/
theorem numbers_setPhase (r : Run P κ) (number : Nat) (phase : HandlerPhase) :
    (r.setPhase number phase).handlers.map (·.number) = r.handlers.map (·.number) := by
  simp only [setPhase, List.map_map]
  refine List.map_congr_left fun x _ => ?_
  simp only [Function.comp]
  split_ifs <;> rfl

/-- A handler that goes on keeps its number and its operation. -/
theorem Accounts.move (h : Accounts endings left r) {x : Handler P} {phase : HandlerPhase}
    (hx : r.handler? x.number = some x)
    (hrecord : ∀ record, phase = .submitting record → record.Describes x.scheduled.operation) :
    Accounts endings left (r.setPhase x.number phase) where
  numbers := by
    rw [numbers_setPhase]
    exact h.numbers
  handlers y hy := by
    obtain ⟨z, hz, rfl⟩ := List.mem_map.mp hy
    obtain ⟨hscheduled, hrecords⟩ := h.handlers z hz
    split_ifs with hnumber
    · refine ⟨hscheduled, fun record heq => ?_⟩
      -- A number belongs to one operation.
      have hsame := (h.handlers x (handler?_eq_some hx).1).1
      rw [← hnumber, hscheduled] at hsame
      rw [Option.some.inj hsame]
      exact hrecord record heq
    · exact ⟨hscheduled, hrecords⟩
  records := h.records
  good := h.good
  completed := h.completed
  failed := h.failed

/-- A handler that ends goes from those alive to those that have ended. -/
theorem Accounts.ends (h : Accounts endings left r) {x : Handler P} {d : Ending}
    (hx : r.handler? x.number = some x) (hnumber : d.number = x.number)
    (hrecord : ∀ record, d.record = some record → x.phase = .submitting record)
    (hgood : d.isGood = true → d.record.isSome = true)
    (hdispatched : r'.dispatched = r.dispatched)
    (hhandlers : r'.handlers = r.handlers.filter (·.number ≠ x.number))
    (hcompleted : r'.completed = if d.isGood then r.completed + 1 else r.completed)
    (hfailed : r'.failed = if d.isFailure then r.failed + 1 else r.failed) :
    Accounts (endings ++ [d]) left r' where
  numbers := by
    obtain ⟨hmem, -⟩ := handler?_eq_some hx
    have halive : (r.handlers.map (·.number)).Nodup :=
      (List.nodup_append.mp (List.nodup_append.mp h.nodup).1).2.1
    -- Only the handler that ends has its number.
    have hfilter : r'.handlers.map (·.number) = (r.handlers.map (·.number)).erase x.number := by
      rw [halive.erase_eq_filter, List.filter_map, hhandlers]
      refine congrArg (List.map _) (List.filter_congr fun y _ => ?_)
      simp [bne, BEq.beq]
    have hperm : ([d.number] ++ r'.handlers.map (·.number)).Perm (r.handlers.map (·.number)) := by
      rw [hfilter, hnumber]
      exact (List.perm_cons_erase (List.mem_map_of_mem hmem)).symm
    rw [hdispatched, List.map_append]
    refine List.Perm.trans (List.Perm.append_right left ?_) h.numbers
    rw [List.append_assoc]
    exact hperm.append_left _
  handlers y hy := by
    rw [hdispatched]
    rw [hhandlers] at hy
    exact h.handlers y (List.mem_of_mem_filter hy)
  records d' hd' record hrecord' := by
    rw [hdispatched]
    rcases List.mem_append.mp hd' with hd' | hd'
    · exact h.records d' hd' record hrecord'
    · obtain rfl := List.mem_singleton.mp hd'
      obtain ⟨hscheduled, hdescribes⟩ := h.handlers x (handler?_eq_some hx).1
      exact ⟨x.scheduled, hnumber ▸ hscheduled, hdescribes record (hrecord record hrecord')⟩
  good d' hd' := by
    rcases List.mem_append.mp hd' with hd' | hd'
    · exact h.good d' hd'
    · exact List.mem_singleton.mp hd' ▸ hgood
  completed := by
    rw [hcompleted, h.completed, List.countP_append, List.countP_singleton]
    split_ifs <;> rfl
  failed := by
    rw [hfailed, h.failed, List.countP_append, List.countP_singleton]
    split_ifs <;> rfl

/-! ### Before the end -/

/-- The scheduler reports the errors of the handlers of which it takes notice, in order. -/
theorem entries_reap (r : Run P κ) : r.reap.log.entries = r.log.entries ++
    (r.finished.filterMap ReplayError.ofResult?).map ReplayError.asReported := by
  unfold reap
  dsimp only
  generalize r.log = log
  induction r.finished generalizing log with
  | nil => simp
  | cons result rest ih =>
    rw [List.foldl_cons, ih]
    cases result with
    | ok u => rfl
    | error e =>
      simp only [ErrorLog.reportError, ErrorLog.entries_report, List.append_assoc]
      rfl

/-- The scheduler reports one error for each abandoned operation, in order. -/
theorem entries_abandon (setup : RunSetup κ) (r : Run P κ) :
    (r.abandon setup).log.entries = r.log.entries ++
      (r.abandon setup).abandoned.map (AbandonedOperation.asReported setup.config.drainGrace) := by
  unfold abandon listAbandoned
  dsimp only
  generalize r.log = log
  induction sortAbandoned (r.unrecorded.map (·.2)) generalizing log with
  | nil => simp
  | cons a rest ih =>
    rw [List.foldl_cons, ih]
    simp only [ErrorLog.reportError, ErrorLog.entries_report, List.append_assoc]
    rfl

/-- A run begins open, with no endings. -/
theorem open_fresh (operations : Schedule P) (completion : CompletionService)
    (metrics : MetricsPipeline κ) (log : ErrorLog) :
    Open [] (fresh operations completion metrics log) where
  accounts := ⟨List.Perm.refl _, by simp [fresh], by simp, by simp, rfl, rfl⟩
  unrecorded := rfl
  abandoned := rfl
  reported := ⟨[], rfl, List.nil_sublist _⟩

/-- What leaves the account alone keeps a run open. -/
theorem Open.same (h : Open endings r) (hs : SameTally r r') : Open endings r' where
  accounts := h.accounts.same hs
  unrecorded := by
    unfold unrecordedNumbers
    rw [hs.unrecorded, hs.dispatched]
    exact h.unrecorded
  abandoned := hs.abandoned.trans h.abandoned
  reported := by
    obtain ⟨absorbed, herrors, hlog⟩ := h.reported
    exact ⟨absorbed, hs.finished ▸ herrors, hlog.trans hs.log.sublist⟩

/-- The scheduler takes notice of ended handlers and reports their errors. -/
theorem Open.reap (h : Open endings r) : Open endings r.reap where
  accounts := h.accounts.congr rfl rfl rfl rfl
  unrecorded := h.unrecorded
  abandoned := h.abandoned
  reported := by
    obtain ⟨absorbed, herrors, hlog⟩ := h.reported
    refine ⟨endings.filterMap Ending.error?, (List.append_nil _).symm, ?_⟩
    rw [entries_reap, herrors, List.map_append]
    exact hlog.append_right _

/-- An operation that is dispatched has no record yet. -/
theorem Open.spawn (h : Open endings r) (next : ScheduledOperation P) :
    Open endings (r.spawn next) where
  accounts := h.accounts.spawn next
  unrecorded := by
    have hnew : r.dispatched.size ∉ recordedNumbers endings := by
      intro hmem
      obtain ⟨d, hd, hnumber⟩ := List.mem_map.mp hmem
      have hlt := h.accounts.lt_size (List.mem_of_mem_filter hd)
      omega
    have hsize : (r.spawn next).dispatched.size = r.dispatched.size + 1 := Array.size_push _
    have hold : (unrecordedNumbers endings r).filterMap (fun n =>
        ((r.spawn next).dispatched[n]?).map fun x => (n, x.asAbandoned)) =
        (unrecordedNumbers endings r).filterMap fun n =>
          (r.dispatched[n]?).map fun x => (n, x.asAbandoned) := by
      refine List.filterMap_congr fun n hn => ?_
      have hlt := List.mem_range.mp (List.mem_of_mem_filter hn)
      simp only [Run.spawn]
      rw [Array.getElem?_push_lt hlt, Array.getElem?_eq_getElem hlt]
    have hnumbers : unrecordedNumbers endings (r.spawn next) =
        unrecordedNumbers endings r ++ [r.dispatched.size] := by
      unfold unrecordedNumbers
      rw [hsize, List.range_succ, List.filter_append]
      simp [hnew]
    rw [hnumbers, List.filterMap_append, hold, ← h.unrecorded]
    simp [Run.spawn, ScheduledOperation.asAbandoned]
  abandoned := h.abandoned
  reported := h.reported

/-- A handler that goes on keeps a run open. -/
theorem Open.move (h : Open endings r) {x : Handler P} {phase : HandlerPhase}
    (hx : r.handler? x.number = some x)
    (hrecord : ∀ record, phase = .submitting record → record.Describes x.scheduled.operation) :
    Open endings (r.setPhase x.number phase) :=
  ⟨h.accounts.move hx hrecord, h.unrecorded, h.abandoned, h.reported⟩

/-- A result more is one of which the scheduler has to take notice. -/
theorem Open.reported_concat (h : Open endings r) (d : Ending) : ∃ absorbed : List ReplayError,
    (endings ++ [d]).filterMap Ending.error? =
      absorbed ++ (r.finished ++ [d.result]).filterMap ReplayError.ofResult? ∧
    (absorbed.map ReplayError.asReported).Sublist r.log.entries := by
  obtain ⟨absorbed, herrors, hlog⟩ := h.reported
  refine ⟨absorbed, ?_, hlog⟩
  rw [List.filterMap_append, List.filterMap_append, herrors, List.append_assoc]
  rfl

/-- A handler that ends before its record is accepted leaves its operation without one. -/
theorem Open.fail (h : Open endings r) {x : Handler P} {e : ReplayError}
    (hx : r.handler? x.number = some x) :
    Open (endings ++ [⟨x.number, none, .error e⟩]) (r.endHandler x.number (.error e)) where
  accounts := h.accounts.ends hx rfl (by simp) (by simp [Ending.isGood, Ending.error?,
    ReplayError.ofResult?]) rfl rfl rfl rfl
  unrecorded := by
    have hsame : recordedNumbers (endings ++ [⟨x.number, none, .error e⟩]) =
        recordedNumbers endings := by
      simp [recordedNumbers]
    unfold unrecordedNumbers
    rw [hsame]
    exact h.unrecorded
  abandoned := h.abandoned
  reported := h.reported_concat _

/-- A handler whose record is accepted ends, and its operation has its record. -/
theorem Open.settle (h : Open endings r) {x : Handler P} {record : MetricsRecord}
    {metrics : MetricsPipeline κ} {result : Except ReplayError Unit}
    (hx : r.handler? x.number = some x) (hrecord : x.phase = .submitting record) :
    Open (endings ++ [⟨x.number, some record, result⟩])
      ((r.recorded metrics x.number record result).endHandler x.number result) where
  accounts := by
    refine h.accounts.ends hx rfl (fun record' heq => ?_) (fun _ => rfl) rfl rfl rfl rfl
    rw [hrecord, Option.some.inj heq]
  unrecorded := by
    have hnumbers : unrecordedNumbers (endings ++ [⟨x.number, some record, result⟩])
        ((r.recorded metrics x.number record result).endHandler x.number result) =
        (unrecordedNumbers endings r).filter (· ≠ x.number) := by
      have hrecorded : recordedNumbers (endings ++ [⟨x.number, some record, result⟩]) =
          recordedNumbers endings ++ [x.number] := by
        simp [recordedNumbers]
      unfold unrecordedNumbers
      rw [hrecorded, List.filter_filter]
      refine List.filter_congr fun n _ => ?_
      simp [and_comm]
    rw [hnumbers]
    simp only [recorded, endHandler]
    rw [h.unrecorded, List.filter_filterMap, List.filterMap_filter]
    refine List.filterMap_congr fun n _ => ?_
    cases r.dispatched[n]? with
    | none => simp
    | some y => by_cases hn : n = x.number <;> simp [hn]
  abandoned := h.abandoned
  reported := h.reported_concat _

/-! ### The end -/

/-- A run that ends without handlers left is closed, with nothing left. -/
theorem Open.finish (h : Open endings r) (hhandlers : r.handlers = [])
    (hs : SameTally r.reap r') : Closed setup endings [] r' where
  accounts := h.reap.accounts.same hs
  handlers := hs.handlers.trans hhandlers
  finished := hs.finished
  abandoned := hs.abandoned.trans h.abandoned
  reported := by
    obtain ⟨absorbed, herrors, hlog⟩ := h.reap.reported
    have habsorbed : endings.filterMap Ending.error? = absorbed :=
      herrors.trans (List.append_nil _)
    have hnone : r'.abandoned = [] := hs.abandoned.trans h.abandoned
    rw [hnone, List.map_nil, List.append_nil, habsorbed]
    exact hlog.trans hs.log.sublist

/-- A run that gives up the handlers that are left is closed, with everything abandoned that has no
record. -/
theorem Open.abandon (h : Open endings r) (hhandlers : r.handlers ≠ [])
    (hs : SameTally (r.reap.abandon setup) r') :
    Closed setup endings (r.handlers.map (·.number)) r' where
  accounts := by
    have haccounts : Accounts endings (r.handlers.map (·.number)) (r.reap.abandon setup) := by
      refine ⟨?_, by simp [Run.abandon], h.accounts.records, h.accounts.good, h.accounts.completed,
        h.accounts.failed⟩
      have hnumbers := h.accounts.numbers
      rw [List.append_nil] at hnumbers
      simp only [Run.abandon, List.map_nil, List.append_nil]
      exact hnumbers
    exact haccounts.same hs
  handlers := hs.handlers
  finished := hs.finished
  abandoned := by
    rw [if_neg (by simpa using hhandlers), hs.abandoned]
    unfold unrecordedNumbers
    rw [hs.dispatched]
    have hunrecorded : r.unrecorded.map (·.2) = (unrecordedNumbers endings r).filterMap fun n =>
        (r.dispatched[n]?).map ScheduledOperation.asAbandoned := by
      rw [h.unrecorded, List.map_filterMap]
      refine List.filterMap_congr fun n _ => ?_
      rw [Option.map_map]
      rfl
    exact congrArg sortAbandoned hunrecorded
  reported := by
    obtain ⟨absorbed, herrors, hlog⟩ := h.reap.reported
    have habsorbed : endings.filterMap Ending.error? = absorbed :=
      herrors.trans (List.append_nil _)
    have hentries := entries_abandon setup r.reap
    rw [hs.abandoned, habsorbed]
    refine List.Sublist.trans ?_ hs.log.sublist
    rw [hentries]
    exact hlog.append_right _

/-- After its end, a run can only report more errors. -/
theorem Closed.same (h : Closed setup endings left r) (hs : SameTally r r') :
    Closed setup endings left r' where
  accounts := h.accounts.same hs
  handlers := hs.handlers.trans h.handlers
  finished := hs.finished.trans h.finished
  abandoned := by
    unfold unrecordedNumbers
    rw [hs.abandoned, hs.dispatched]
    exact h.abandoned
  reported := by
    rw [hs.abandoned]
    exact h.reported.trans hs.log.sublist

/-! ### All events -/

/-- The account of a run before and after its end. -/
def Accounted (setup : RunSetup κ) (endings : List Ending) (r : Run P κ) : Prop :=
  ¬ r.phase.IsTerminated ∧ Open endings r ∨
    r.phase.IsTerminated ∧ ∃ left, Closed setup endings left r

/-- Every event keeps the account. -/
theorem Accounted.tally (h : Accounted setup endings r) {d : Option Ending}
    (ht : Tally setup r r' d) : Accounted setup (endings ++ d.toList) r' := by
  -- After the end there are no handlers, so nothing ends any more.
  have hopen : ∀ {x : Handler P}, r.handler? x.number = some x →
      ¬ r.phase.IsTerminated ∧ Open endings r := by
    intro x hx
    refine h.resolve_right fun ⟨_, left, hclosed⟩ => ?_
    have hmem := (handler?_eq_some hx).1
    rw [hclosed.handlers] at hmem
    exact absurd hmem List.not_mem_nil
  have hbefore : ¬ r.phase.IsTerminated → Open endings r := fun hphase =>
    (h.resolve_right fun hover => hphase hover.1).2
  cases ht with
  | same hs hphase =>
    rw [Option.toList_none, List.append_nil]
    refine h.imp (fun ⟨hphase', ho⟩ => ⟨fun hover => hphase' (hphase.mp hover), ho.same hs⟩)
      fun ⟨hover, left, hclosed⟩ => ⟨hphase.mpr hover, left, hclosed.same hs⟩
  | @consume metrics report hconsume hs hphase =>
    rw [Option.toList_none, List.append_nil]
    refine h.imp (fun ⟨hphase', ho⟩ => ⟨hphase ▸ hphase', ?_⟩)
      fun ⟨hover, left, hclosed⟩ => ⟨hphase ▸ hover, left, ?_⟩
    · have hmetrics : Open endings { r with metrics := metrics } :=
        ⟨ho.accounts.congr rfl rfl rfl rfl, ho.unrecorded, ho.abandoned, ho.reported⟩
      exact hmetrics.same hs
    · have hmetrics : Closed setup endings left { r with metrics := metrics } :=
        ⟨hclosed.accounts.congr rfl rfl rfl rfl, hclosed.handlers, hclosed.finished,
          hclosed.abandoned, hclosed.reported⟩
      exact hmetrics.same hs
  | reap hs hphase hphase' =>
    rw [Option.toList_none, List.append_nil]
    exact .inl ⟨hphase', (hbefore hphase).reap.same hs⟩
  | spawn hs hphase hphase' =>
    rw [Option.toList_none, List.append_nil]
    exact .inl ⟨hphase', ((hbefore hphase).spawn _).same hs⟩
  | move hx hrecord hs hphase =>
    rw [Option.toList_none, List.append_nil]
    obtain ⟨hphase', ho⟩ := hopen hx
    exact .inl ⟨hphase ▸ hphase', (ho.move hx hrecord).same hs⟩
  | fail hx hs hphase =>
    obtain ⟨hphase', ho⟩ := hopen hx
    exact .inl ⟨hphase ▸ hphase', (ho.fail hx).same hs⟩
  | settle hx hrecord hoffer hs hphase =>
    obtain ⟨hphase', ho⟩ := hopen hx
    exact .inl ⟨hphase ▸ hphase', (ho.settle hx hrecord).same hs⟩
  | finish hs hhandlers hphase hphase' =>
    rw [Option.toList_none, List.append_nil]
    exact .inr ⟨hphase', [], (hbefore hphase).finish hhandlers hs⟩
  | abandon hs hhandlers hphase hphase' =>
    rw [Option.toList_none, List.append_nil]
    exact .inr ⟨hphase', _, (hbefore hphase).abandon hhandlers hs⟩

/-- Any events keep the account, with the endings that they bring about. -/
theorem Accounted.steps (h : Accounted setup endings r) {events : List RunEvent}
    (hs : r.steps setup events = some r') :
    Accounted setup (endings ++ r.endings setup events) r' := by
  induction events generalizing r endings with
  | nil =>
    obtain rfl := Option.some.inj hs
    rw [Run.endings, List.append_nil]
    exact h
  | cons e rest ih =>
    obtain ⟨s, hstep, hrest⟩ := Option.bind_eq_some_iff.mp hs
    have hnext := ih (h.tally (tally_of_step hstep)) hrest
    rw [List.append_assoc] at hnext
    rw [Run.endings, hstep]
    exact hnext

/-- The account of a run, before its end or after. -/
theorem Accounted.exists_accounts {setup : RunSetup κ} {endings : List Ending} {r : Run P κ}
    (h : Accounted setup endings r) : ∃ left, Accounts endings left r := by
  rcases h with ⟨-, hopen⟩ | ⟨-, left, hclosed⟩
  · exact ⟨[], hopen.accounts⟩
  · exact ⟨left, hclosed.accounts⟩

/-- A run that has just begun is accounted for. -/
theorem accounted_fresh (setup : RunSetup κ) (operations : Schedule P)
    (completion : CompletionService) (metrics : MetricsPipeline κ) (log : ErrorLog) :
    Accounted setup [] (fresh operations completion metrics log) :=
  .inl ⟨by simp [SchedulerPhase.IsTerminated, fresh], open_fresh operations completion metrics log⟩

/-! ### Counting -/

end Keeping

/-- Two workers, and no other peers. -/
def soloSetup : RunSetup Unit :=
  ⟨{ threadCount := 2, ignoreScheduledStarts := true }, ⟨12, by decide⟩,
    ⟨fun _ _ => (.done, ()), fun _ => (.done, ())⟩⟩

/-- The beginning of a run of two operations. -/
def soloRun : Run Unit Unit :=
  fresh (merge [⟨"pair", .nil, .ofList [.ok (.independent "first" ⟨12, by decide⟩ ()),
      .ok (.independent "second" ⟨12, by decide⟩ ())]⟩]) (.ofPeers [])
    ⟨2, true, [], .receiving, Collector.fresh {} () false, false, none⟩ ErrorLog.empty

/-- Both operations are dispatched and executed, and the first call comes back. -/
def untilExpiry (comesBack : List RunEvent) : List RunEvent :=
  List.replicate 12 (.schedule ⟨12, by decide⟩ false) ++
    [.execute 0 ⟨12, by decide⟩, .execute 1 ⟨12, by decide⟩] ++ comesBack

/-- The time for draining is over. -/
def expiry : RunEvent := .expire ⟨20, by decide⟩

/-- The first call comes back with an answer, and its handler sends the record. -/
def answered : List RunEvent :=
  untilExpiry [.answer 0 (.returned (.ok .null)) Duration.zero, .submit 0] ++ [expiry]

/-- The first call breaks down. -/
def panicked : List RunEvent :=
  untilExpiry [.answer 0 (.panicked "no such table") Duration.zero] ++ [expiry]

end Run

end WorkloadReplay
