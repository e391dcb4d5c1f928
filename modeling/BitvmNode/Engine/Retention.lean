import BitvmNode.Engine.JobResults
import BitvmNode.Reasoning.Along

/-!
# Job results after a purge

The housekeeping removes terminal job rows and terminal inbox rows by their last change.  A job id
may then be used again, and its generations start over: what is left of the reports of the earlier
row hides those of the later one.
-/

namespace BitvmNode.Engine

open JobResultEvent

open Reasoning

variable {β : Type}

def purgeEngineTerminalRows (db : Db β) (before : Int) : Db β :=
  { db with
    inbox := purgeTerminalInboxRows db.inbox before
    outbox := purgeClosedOutboxRows db.outbox before
    jobs := purgeEngineJobs db.jobs before }

/-- The ids that only job results have; those of other events start with `msg:`, `graph:` or
`instance:`. -/
def isJobResultId (eventId : String) : Bool := "job-result:".toList.isPrefixOf eventId.toList

/-- The purge is not one transaction, so its statements are steps of their own. -/
inductive HousekeepingOp where
  | engine (op : ExecutorOp)
  | submit (event : NewEngineInboxEvent)
  | purgeInbox (before : Int)
  | purgeRejected (before : Int)
  | purgeOutbox (before : Int)
  | purgeJobs (before : Int)

structure HousekeepingStep where
  now : Int
  op : HousekeepingOp

def HousekeepingStep.exec (config : EngineConfig) (s : Executor β) (step : HousekeepingStep) :
    Executor β :=
  match step.op with
  | .engine op => ExecutorStep.exec config s ⟨step.now, op⟩
  | .submit event =>
      if isJobResultId event.eventId then s
      else { s with db := { s.db with inbox :=
        (insertEngineInboxEvent s.db.inbox event step.now).1 } }
  | .purgeInbox before =>
      { s with db := { s.db with inbox := purgeTerminalInboxRows s.db.inbox before } }
  | .purgeRejected before =>
      { s with db := { s.db with inbox := purgeRejectedNetworkInboxRows s.db.inbox before } }
  | .purgeOutbox before =>
      { s with db := { s.db with outbox := purgeClosedOutboxRows s.db.outbox before } }
  | .purgeJobs before => { s with db := { s.db with jobs := purgeEngineJobs s.db.jobs before } }

def runHousekeeping (config : EngineConfig) (s : Executor β) (steps : List HousekeepingStep) :
    Executor β :=
  steps.foldl (HousekeepingStep.exec config) s

theorem runHousekeeping_concat (config : EngineConfig) (s : Executor β)
    (steps : List HousekeepingStep) (step : HousekeepingStep) :
    runHousekeeping config s (steps ++ [step]) =
      step.exec config (runHousekeeping config s steps) :=
  List.foldl_concat ..

def purgePass (now before : Int) : List HousekeepingStep :=
  [⟨now, .purgeInbox before⟩, ⟨now, .purgeOutbox before⟩, ⟨now, .purgeJobs before⟩]

theorem purgeEngineTerminalRows_eq_run (config : EngineConfig) (s : Executor β) (now before : Int) :
    (⟨purgeEngineTerminalRows s.db before, s.holders⟩ : Executor β) =
      runHousekeeping config s (purgePass now before) := rfl

/-- Nothing is left of an earlier row with this id: no report in the inbox, and no holder. -/
structure Executor.Unused (s : Executor β) (jobId : String) : Prop where
  reports : ∀ generation, s.db.inbox.find? (eventId jobId generation) = none
  holders : ∀ holder ∈ s.holders, holder.jobId ≠ jobId

/-- A job that is not in the table is inserted under an unused id. -/
def FreshInsert (s : Executor β) (step : HousekeepingStep) : Prop :=
  ∀ new, step.op = .engine (.table (.insert new)) → s.db.jobs.find? new.jobId = none →
    s.Unused new.jobId

/-- The reports of a job were applied, or given up, before a time. -/
def AppliedBefore (s : Executor β) (jobId : String) (before : Int) : Prop :=
  ∀ generation event, s.db.inbox.find? (eventId jobId generation) = some event →
    event.state ≠ .pending ∧ event.updatedAt < before

/-- Reports and holders belong to a generation that the present row has reached.  The report of a
present row's own generation is made when the row is not running any more. -/
structure Executor.Aged (s : Executor β) : Prop where
  events : ∀ jobId generation event row,
    s.db.inbox.find? (eventId jobId generation) = some event →
      s.db.jobs.find? jobId = some row → Past generation row
  holders : ∀ holder ∈ s.holders, ∀ row, s.db.jobs.find? holder.jobId = some row →
    holder.generation ≤ row.generation

theorem Executor.Aged.init (business : β) : (Executor.init business).Aged where
  events := by
    intro jobId generation event row hevent
    cases hevent
  holders := by
    intro holder hholder
    cases hholder

/-- A row of a job that was there, or was changed by a step of the table. -/
def KeptFrom (s : Executor β) (jobId : String) (row : EngineJob) : Prop :=
  ∃ jobs step earlier, s.db.jobs.find? jobId = some earlier ∧ RowChange jobs step earlier row

variable {s : Executor β} {row : EngineJob} {k : String}

theorem JobStep.row_was_there (step : JobStep) (hop : ∀ new, step.op ≠ .insert new)
    {jobs : JobTable} (hrow : (step.exec jobs).find? k = some row) :
    ∃ earlier, jobs.find? k = some earlier ∧ RowChange jobs step earlier row := by
  rcases JobStep.row_before hrow with hkept | ⟨hnone, -⟩
  · exact hkept
  · rw [step.find?_exec, hnone] at hrow
    obtain ⟨now, op⟩ := step
    cases op with
    | insert new => exact absurd rfl (hop new)
    | _ => cases hrow

/-- A row after a step was there before, unless the step inserts it. -/
theorem ExecutorStep.row_before (config : EngineConfig) (step : ExecutorStep)
    (hrow : (step.exec config s).db.jobs.find? k = some row) :
    KeptFrom s k row ∨
      s.db.jobs.find? k = none ∧ ∃ new, step.op = .table (.insert new) ∧ new.jobId = k := by
  have hkept {op : JobOp} (hop : ∀ new, op ≠ .insert new)
      (hrow : (JobStep.exec s.db.jobs ⟨step.now, op⟩).find? k = some row) : KeptFrom s k row :=
    ⟨_, _, JobStep.row_was_there ⟨step.now, op⟩ hop hrow⟩
  have hsame (hrow : s.db.jobs.find? k = some row) : KeptFrom s k row :=
    ⟨s.db.jobs, ⟨step.now, .reset⟩, row, hrow, .same⟩
  obtain ⟨now, op⟩ := step
  cases op with
  | table op =>
    dsimp only [ExecutorStep.exec] at hrow
    split_ifs at hrow
    · cases op with
      | insert new =>
        rw [JobStep.find?_exec] at hrow
        dsimp only at hrow
        split_ifs at hrow with hid
        · cases hfind : s.db.jobs.find? k with
          | none => exact .inr ⟨rfl, new, rfl, hid.symm⟩
          | some earlier =>
            rw [hfind] at hrow
            cases hrow
            exact .inl (hfind ▸ hsame hfind)
        · exact .inl (hsame hrow)
      | _ => exact .inl (hkept (by rintro _ ⟨⟩) hrow)
    · exact .inl (hsame hrow)
  | claim jobId leaseUntil => exact .inl (@hkept (.claim jobId leaseUntil) (by rintro _ ⟨⟩) hrow)
  | sweep => exact .inl (@hkept .sweep (by rintro _ ⟨⟩) hrow)
  | complete holder finish =>
    dsimp only [ExecutorStep.exec] at hrow
    split_ifs at hrow
    · exact .inl
        (@hkept (.finish holder.jobId holder.generation finish) (by rintro _ ⟨⟩) hrow)
    · exact .inl (hsame hrow)
  | restart => exact .inl (@hkept .reset (by rintro _ ⟨⟩) hrow)
  | inbox op =>
    dsimp only [ExecutorStep.exec] at hrow
    split_ifs at hrow <;> exact .inl (hsame hrow)

theorem InboxStep.row_was_there (step : InboxStep) (hop : ∀ event, step.op ≠ .insert event)
    {inbox : Inbox} {event : EngineInboxEvent} (hevent : (step.exec inbox).find? k = some event) :
    ∃ event, inbox.find? k = some event := by
  cases hbefore : inbox.find? k with
  | some event => exact ⟨event, rfl⟩
  | none =>
    obtain ⟨new, hinsert, -⟩ := step.row_appears hbefore hevent
    exact absurd hinsert (hop new)

/-- A holder makes its own report: a row that has reached the generation then has it behind. -/
def ReportedBy (s s' : Executor β) (jobId : String) (generation : Nat) : Prop :=
  ∃ holder ∈ s.holders, holder.jobId = jobId ∧ holder.generation = generation ∧
    ∀ row, s.db.jobs.find? jobId = some row → generation ≤ row.generation →
      ∃ row', s'.db.jobs.find? jobId = some row' ∧ Past generation row'

/-- A report after a step was there before, or the row has it behind, or its holder makes it. -/
theorem ExecutorStep.report_before (config : EngineConfig) (step : ExecutorStep) {generation : Nat}
    {event : EngineInboxEvent}
    (hevent : (step.exec config s).db.inbox.find? (eventId k generation) =
      some event) :
    (∃ event, s.db.inbox.find? (eventId k generation) = some event) ∨
      (∃ row, (step.exec config s).db.jobs.find? k = some row ∧ Past generation row) ∨
      ReportedBy s (step.exec config s) k generation := by
  obtain ⟨now, op⟩ := step
  cases op with
  | table op =>
    dsimp only [ExecutorStep.exec] at hevent
    split_ifs at hevent <;> exact .inl ⟨event, hevent⟩
  | claim jobId leaseUntil | restart => exact .inl ⟨event, hevent⟩
  | sweep => exact (sweep_reports s.db now hevent).imp_right .inl
  | complete holder finish =>
    dsimp only [ExecutorStep.exec] at hevent ⊢
    split_ifs at hevent ⊢ with hholder
    · by_cases hid : eventId k generation = reportId holder
      · obtain ⟨rfl, rfl⟩ := eventId_inj hid
        refine .inr (.inr ⟨holder, hholder, rfl, rfl, fun row hrow hle => ?_⟩)
        exact complete_reports config s.db holder finish now hrow hle
      · have hsame :=
          find?_recordJobFinish_of_ne config s.db holder holder.generation finish now hid
        exact .inl ⟨event, hsame.symm.trans hevent⟩
    · exact .inl ⟨event, hevent⟩
  | inbox op =>
    left
    dsimp only [ExecutorStep.exec] at hevent
    split_ifs at hevent with hkeeps
    · apply InboxStep.row_was_there ⟨now, op⟩ _ hevent
      intro new hinsert
      change op = .insert new at hinsert
      rw [hinsert] at hkeeps
      cases hkeeps
    · exact ⟨event, hevent⟩

/-- A holder after a step was one before, or has just claimed the row. -/
theorem ExecutorStep.holder_before (config : EngineConfig) (step : ExecutorStep)
    {holder : EngineJob} (hholder : holder ∈ (step.exec config s).holders) :
    holder ∈ s.holders ∨ (step.exec config s).db.jobs.find? holder.jobId = some holder := by
  obtain ⟨now, op⟩ := step
  cases op with
  | table op | inbox op =>
    dsimp only [ExecutorStep.exec] at hholder
    split_ifs at hholder <;> exact .inl hholder
  | claim jobId leaseUntil =>
    refine (List.mem_append.mp hholder).imp_right fun hnew => ?_
    obtain ⟨job, hjob, -, rfl, hafter⟩ := claimEngineJob_some (Option.mem_toList.mp hnew)
    obtain rfl : job.jobId = jobId := Table.key_of_find? hjob
    exact hafter
  | sweep => exact .inl hholder
  | complete other finish =>
    dsimp only [ExecutorStep.exec] at hholder
    split_ifs at hholder
    · exact .inl (List.mem_of_mem_erase hholder)
    · exact .inl hholder
  | restart => cases hholder

theorem isJobResultId_eventId (jobId : String) (generation : Nat) :
    isJobResultId (eventId jobId generation) = true := by
  rw [isJobResultId, eventId_toList, List.isPrefixOf_iff_prefix]
  exact List.prefix_append _ _

/-- The other steps make no reports, no rows and no holders. -/
theorem HousekeepingStep.exec_cases (config : EngineConfig) (s : Executor β)
    (step : HousekeepingStep) :
    (∃ op, step.op = .engine op ∧
      step.exec config s = ExecutorStep.exec config s ⟨step.now, op⟩) ∨
    (∀ k row, (step.exec config s).db.jobs.find? k = some row → s.db.jobs.find? k = some row) ∧
    (∀ k generation event,
      (step.exec config s).db.inbox.find? (eventId k generation) = some event →
        ∃ event, s.db.inbox.find? (eventId k generation) = some event) ∧
    (step.exec config s).holders = s.holders := by
  have hrows (k : String) (row : EngineJob) (hrow : s.db.jobs.find? k = some row) :
      s.db.jobs.find? k = some row := hrow
  obtain ⟨now, op⟩ := step
  cases op with
  | engine op => exact .inl ⟨op, rfl, rfl⟩
  | submit event =>
    right
    dsimp only [HousekeepingStep.exec]
    split_ifs with hid
    · exact ⟨hrows, fun _ _ event hevent => ⟨event, hevent⟩, rfl⟩
    · refine ⟨hrows, fun k generation stored hstored => ?_, rfl⟩
      have hne : eventId k generation ≠ event.eventId := by
        intro h
        rw [← h, isJobResultId_eventId] at hid
        exact hid rfl
      rw [find?_insertEngineInboxEvent, if_neg hne] at hstored
      exact ⟨stored, hstored⟩
  | purgeInbox before =>
    exact .inr ⟨hrows, fun _ _ _ => InboxStep.row_was_there ⟨now, .purgeTerminal before⟩
      (by rintro _ ⟨⟩), rfl⟩
  | purgeRejected before =>
    exact .inr ⟨hrows, fun _ _ _ => InboxStep.row_was_there ⟨now, .purgeRejected before⟩
      (by rintro _ ⟨⟩), rfl⟩
  | purgeOutbox before => exact .inr ⟨hrows, fun _ _ event hevent => ⟨event, hevent⟩, rfl⟩
  | purgeJobs before =>
    refine .inr ⟨fun k row hrow => ?_, fun _ _ event hevent => ⟨event, hevent⟩, rfl⟩
    exact (Option.filter_eq_some_iff.mp ((Table.find?_delete ..).symm.trans hrow)).1

section Origins

variable (config : EngineConfig) (step : HousekeepingStep)

theorem HousekeepingStep.row_before (hrow : (step.exec config s).db.jobs.find? k = some row) :
    KeptFrom s k row ∨ s.db.jobs.find? k = none ∧
      ∃ new, step.op = .engine (.table (.insert new)) ∧ new.jobId = k := by
  rcases step.exec_cases config s with ⟨op, hop, hexec⟩ | ⟨hrows, -, -⟩
  · rw [hexec] at hrow
    refine (ExecutorStep.row_before config ⟨step.now, op⟩ hrow).imp_right ?_
    rintro ⟨hnone, new, hinsert, hid⟩
    exact ⟨hnone, new, hop.trans (congrArg _ hinsert), hid⟩
  · exact .inl ⟨s.db.jobs, ⟨0, .reset⟩, row, hrows k row hrow, .same⟩

theorem HousekeepingStep.report_before {generation : Nat} {event : EngineInboxEvent}
    (hevent : (step.exec config s).db.inbox.find? (eventId k generation) = some event) :
    (∃ event, s.db.inbox.find? (eventId k generation) = some event) ∨
      (∃ row, (step.exec config s).db.jobs.find? k = some row ∧ Past generation row) ∨
      ReportedBy s (step.exec config s) k generation := by
  rcases step.exec_cases config s with ⟨op, -, hexec⟩ | ⟨-, hevents, -⟩
  · rw [hexec] at hevent ⊢
    exact ExecutorStep.report_before config ⟨step.now, op⟩ hevent
  · exact .inl (hevents k generation event hevent)

theorem HousekeepingStep.holder_before {holder : EngineJob}
    (hholder : holder ∈ (step.exec config s).holders) :
    holder ∈ s.holders ∨ (step.exec config s).db.jobs.find? holder.jobId = some holder := by
  rcases step.exec_cases config s with ⟨op, -, hexec⟩ | ⟨-, -, hholders⟩
  · rw [hexec] at hholder ⊢
    exact ExecutorStep.holder_before config ⟨step.now, op⟩ hholder
  · exact .inl (hholders ▸ hholder)

end Origins

theorem Executor.Aged.step (hs : s.Aged) (config : EngineConfig) (step : HousekeepingStep)
    (hfresh : FreshInsert s step) : (step.exec config s).Aged where
  events := by
    intro jobId generation event row' hevent hrow'
    rcases step.report_before config hevent with
      ⟨earlier, hearlier⟩ | ⟨row, hrow, hpast⟩ | ⟨holder, hholder, rfl, rfl, hreported⟩
    · rcases step.row_before config hrow' with ⟨_, _, row, hrow, hchange⟩ | ⟨hnone, new, hop, rfl⟩
      · exact hchange.past (hs.events jobId generation earlier row hearlier hrow)
      · cases ((hfresh new hop hnone).reports generation).symm.trans hearlier
    · cases hrow.symm.trans hrow'
      exact hpast
    · rcases step.row_before config hrow' with ⟨-, -, row, hrow, -⟩ | ⟨hnone, new, hop, hid⟩
      · obtain ⟨row'', hrow'', hpast⟩ := hreported row hrow (hs.holders holder hholder row hrow)
        cases hrow''.symm.trans hrow'
        exact hpast
      · exact absurd hid.symm ((hfresh new hop (hid ▸ hnone)).holders holder hholder)
  holders := by
    intro holder hholder row' hrow'
    rcases step.holder_before config hholder with hearlier | hafter
    · rcases step.row_before config hrow' with ⟨_, _, row, hrow, hchange⟩ | ⟨hnone, new, hop, hid⟩
      · exact (hs.holders holder hearlier row hrow).trans hchange.generation_le
      · exact absurd hid.symm ((hfresh new hop (hid ▸ hnone)).holders holder hearlier)
    · cases hafter.symm.trans hrow'
      exact Nat.le_refl _

/-- The row of an id is purged, and nothing else is left of it. -/
structure Executor.Gone (s : Executor β) (jobId : String) : Prop extends s.Unused jobId where
  row : s.db.jobs.find? jobId = none

theorem Executor.Gone.step (hs : s.Gone k) (config : EngineConfig) (step : HousekeepingStep)
    (hother : ∀ new, step.op = .engine (.table (.insert new)) → new.jobId ≠ k) :
    (step.exec config s).Gone k := by
  have hrow : (step.exec config s).db.jobs.find? k = none := by
    rw [Option.eq_none_iff_forall_ne_some]
    intro row hrow
    rcases step.row_before config hrow with ⟨-, -, earlier, hearlier, -⟩ | ⟨-, new, hop, hid⟩
    · cases hs.row.symm.trans hearlier
    · exact hother new hop hid
  refine ⟨⟨fun generation => ?_, fun holder hholder hid => ?_⟩, hrow⟩
  · rw [Option.eq_none_iff_forall_ne_some]
    intro event hevent
    rcases step.report_before config hevent with
      ⟨earlier, hearlier⟩ | ⟨row, hafter, -⟩ | ⟨holder, hholder, hid, -⟩
    · cases (hs.reports generation).symm.trans hearlier
    · cases hrow.symm.trans hafter
    · exact hs.holders holder hholder hid
  · rcases step.holder_before config hholder with hearlier | hafter
    · exact hs.holders holder hearlier hid
    · rw [hid, hrow] at hafter
      cases hafter

theorem Executor.Aged.recorded (hs : s.Aged) (config : EngineConfig) {holder : EngineJob}
    {finish : EngineJobFinish} {outcome : JobResultOutcome} (now : Int)
    (hholder : holder ∈ s.holders) (hrow : s.db.jobs.find? holder.jobId = some row)
    (hheld : HeldBy holder.jobId holder.generation row) (houtcome : finish.outcome = some outcome)
    (hcancel : ¬ (row.cancelRequested = true ∧ finish.isDone = true)) :
    s.db.inbox.find? (reportId holder) = none ∧
      Recorded (HousekeepingStep.exec config s
        ⟨now, .engine (.complete holder finish)⟩).db.inbox holder false outcome := by
  have hnew : s.db.inbox.find? (reportId holder) = none := by
    cases hevent : s.db.inbox.find? (reportId holder) with
    | none => rfl
    | some event =>
      -- the present row is running in the generation
      exact absurd hheld.2 (hs.events holder.jobId holder.generation event row hevent hrow).2
  refine ⟨hnew, ?_⟩
  have happlied := finishEngineJob_of_held finish now hrow hheld.2.1 hheld.2.2
  have hreport := reportedOutcome_applied houtcome row.cancelRequested
  rw [← happlied, if_neg hcancel] at hreport
  have hafter : (HousekeepingStep.exec config s ⟨now, .engine (.complete holder finish)⟩).db.inbox =
      (recordJobFinish config s.db holder holder.generation finish now).inbox := by
    change (if holder ∈ s.holders then _ else s).db.inbox = _
    rw [if_pos hholder]
  rw [hafter, recordJobFinish_inbox config hreport]
  exact recorded_insert _ _ _ _ _ hnew

theorem Executor.Gone.of_purge {before : Int} (now : Int) (config : EngineConfig)
    (hrow : ∀ row, s.db.jobs.find? k = some row → row.state.terminal = true ∧
      row.updatedAt < before)
    (happlied : AppliedBefore s k before) (hidle : ∀ holder ∈ s.holders, holder.jobId ≠ k) :
    (runHousekeeping config s (purgePass now before)).Gone k := by
  rw [← purgeEngineTerminalRows_eq_run]
  refine ⟨⟨fun generation => ?_, hidle⟩, ?_⟩
  · change (purgeTerminalInboxRows s.db.inbox before).table.find? _ = none
    rw [purgeTerminalInboxRows, Table.find?_delete, Option.filter_eq_none_iff]
    intro event hevent
    simpa using happlied generation event hevent
  · change (purgeEngineJobs s.db.jobs before).find? k = none
    rw [purgeEngineJobs, Table.find?_delete, Option.filter_eq_none_iff]
    intro row hfound
    simpa using hrow row hfound

/-- For every run with purges at any times and with ids that are used again: a holder that finishes
its row with a result, a failure or a panic leaves a new pending row in the inbox with that outcome,
if no id is used again while a report of it is in the inbox or somebody still works on it.  That is
so after a purge of the row whose cut-off is later than the times at which its reports were
applied. -/
theorem later_result_recorded (config : EngineConfig) (business : β) :
    (∀ (steps : List HousekeepingStep) (holder row : EngineJob) (finish : EngineJobFinish)
        (outcome : JobResultOutcome) (now : Int),
      Along (HousekeepingStep.exec config) FreshInsert (.init business) steps →
      holder ∈ (runHousekeeping config (.init business) steps).holders →
      (runHousekeeping config (.init business) steps).db.jobs.find? holder.jobId = some row →
      HeldBy holder.jobId holder.generation row → finish.outcome = some outcome →
      ¬ (row.cancelRequested = true ∧ finish.isDone = true) →
      (runHousekeeping config (.init business) steps).db.inbox.find? (reportId holder) = none ∧
        Recorded (runHousekeeping config (.init business)
          (steps ++ [⟨now, .engine (.complete holder finish)⟩])).db.inbox holder false outcome) ∧
    ∀ (s : Executor β) (new : NewEngineJob) (before now later : Int)
        (between : List HousekeepingStep),
      (∀ row, s.db.jobs.find? new.jobId = some row →
        row.state.terminal = true ∧ row.updatedAt < before) →
      AppliedBefore s new.jobId before → (∀ holder ∈ s.holders, holder.jobId ≠ new.jobId) →
      (∀ step ∈ between, ∀ other, step.op = .engine (.table (.insert other)) →
        other.jobId ≠ new.jobId) →
      FreshInsert (runHousekeeping config s (purgePass now before ++ between))
        ⟨later, .engine (.table (.insert new))⟩ := by
  constructor
  · intro steps holder row finish outcome now hsteps hholder hrow hheld houtcome hcancel
    rw [runHousekeeping_concat]
    have haged : (runHousekeeping config (.init business) steps).Aged :=
      hsteps.invariant (.init business) fun s step hs hfresh => hs.step config step hfresh
    exact haged.recorded config now hholder hrow hheld houtcome hcancel
  · intro s new before now later between hrow happlied hidle hbetween other hop _
    cases hop
    have hgone := Executor.Gone.of_purge now config hrow happlied hidle
    rw [runHousekeeping, List.foldl_append]
    refine Executor.Gone.toUnused ?_
    exact List.foldlRecOn (motive := fun s : Executor β => s.Gone new.jobId) between _ hgone
      fun s hs step hstep => hs.step config step (hbetween step hstep)

namespace Example

def reportedRun : List HousekeepingStep :=
  [⟨0, .engine (.table (.insert (newJob "a")))⟩, ⟨1, .engine (.claim "a" 30)⟩,
    ⟨10, .engine (.complete (claimedRow 1 30 (newJobRow (newJob "a") 0)) (.done [7]))⟩,
    ⟨20, .engine (.inbox (.applied (eventId "a" 1)))⟩]

def againRun : List HousekeepingStep :=
  [⟨116, .engine (.table (.insert (newJob "a")))⟩, ⟨117, .engine (.claim "a" 130)⟩]

def againHolder : EngineJob := claimedRow 117 130 (newJobRow (newJob "a") 116)

theorem unused_init (jobId : String) : (Executor.init () : Executor Unit).Unused jobId where
  reports := fun _ => rfl
  holders := fun _ h => (nomatch h)

/-- The report was applied at twenty, before the cut-off. -/
theorem appliedBefore_reportedRun :
    AppliedBefore (runHousekeeping .default (.init ()) reportedRun) "a" 21 := by
  have hrows : ∀ event ∈ (runHousekeeping .default (.init ()) reportedRun).db.inbox.table.rows,
      event.state ≠ .pending ∧ event.updatedAt < 21 := by decide +kernel
  exact fun generation event hevent => hrows event (Table.find?_eq_some.mp hevent).1

theorem terminal_reportedRun (row : EngineJob)
    (hrow : (runHousekeeping .default (.init ()) reportedRun).db.jobs.find? "a" = some row) :
    row.state.terminal = true ∧ row.updatedAt < 21 := by
  have hrows : ∀ row ∈ (runHousekeeping .default (.init ()) reportedRun).db.jobs.rows,
      row.state.terminal = true ∧ row.updatedAt < 21 := by decide +kernel
  exact hrows row (Table.find?_eq_some.mp hrow).1

end Example

section

open Example

theorem later_result_recorded_late_purge :
    Along (HousekeepingStep.exec .default) FreshInsert (.init ())
        (reportedRun ++ purgePass 115 21 ++ againRun) ∧
      Recorded (runHousekeeping .default (.init ())
          ((reportedRun ++ purgePass 115 21 ++ againRun) ++
        [⟨118, .engine (.complete againHolder (.failed "no"))⟩])).db.inbox againHolder false
          (.failed "no") := by
  obtain ⟨hrecorded, hpurged⟩ := later_result_recorded .default ()
  have hother {s : Executor Unit} {step : HousekeepingStep}
      (hop : ∀ new, step.op ≠ .engine (.table (.insert new))) : FreshInsert s step :=
    fun new hinsert => absurd hinsert (hop new)
  have hagain := hpurged (runHousekeeping .default (.init ()) reportedRun)
    (newJob "a") 21 115 116 [] terminal_reportedRun appliedBefore_reportedRun (by decide +kernel)
      (fun _ h => (nomatch h))
  have hfresh : Along (HousekeepingStep.exec .default) FreshInsert (.init ())
      (reportedRun ++ purgePass 115 21 ++ againRun) := by
    refine .cons (fun new hop _ => unused_init _) (.cons ?_ (.cons ?_ (.cons ?_ (.cons ?_
      (.cons ?_ (.cons ?_ (.cons hagain (.cons ?_ .nil))))))))
    all_goals exact hother nofun
  exact ⟨hfresh, (hrecorded _ againHolder againHolder (.failed "no") (.failed "no") 118 hfresh
    (by decide +kernel) (by decide +kernel) ⟨rfl, rfl, rfl⟩ rfl (by rintro ⟨-, h⟩; cases h)).2⟩

/-- The purge removes the job, done at ten, but not its report, applied at twenty.  The job is
enqueued again and fails; its event is ignored as a duplicate and the aggregate never learns of the
failure. -/
theorem later_result_ignored : againHolder ∈ (runHousekeeping .default (.init ())
        (reportedRun ++ purgePass 115 15 ++ againRun)).holders ∧
      ((runHousekeeping .default (.init ()) (reportedRun ++ purgePass 115 15 ++ againRun ++
        [⟨118, .engine (.complete againHolder (.failed "no"))⟩])).db.jobs.find? "a").map (·.state) =
          some .failed ∧
      (runHousekeeping .default (.init ()) (reportedRun ++ purgePass 115 15 ++ againRun ++
        [⟨118, .engine (.complete againHolder (.failed "no"))⟩])).db.inbox.table.rows.map
          (fun event => (event.eventId, event.state, event.payload, event.updatedAt)) =
        [(reportId againHolder, .applied, none, 20)] := by
  decide +kernel

end

end BitvmNode.Engine
