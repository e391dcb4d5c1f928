import BitvmNode.Engine.Jobs

/-!
# Steps of the job table

The statements on the job table in any order, by any number of holders.  What a step can do to one
row is said once, in `RowChange`; the laws of leases and generations are derived from it.
-/

namespace BitvmNode.Engine

open Reasoning

inductive JobOp where
  | insert (job : NewEngineJob)
  | claim (jobId : String) (leaseUntil : Int)
  | renew (jobId : String) (generation : Nat) (leaseUntil : Int)
  | finish (jobId : String) (generation : Nat) (finish : EngineJobFinish)
  | sweep
  | cancel (jobId : String)
  | cancelAggregate (aggregate : AggregateRef)
  | cancelPhase (aggregate : AggregateRef) (phase : String)
  | clearResult (jobId : String)
  | reset
  | purge (before : Int)

structure JobStep where
  now : Int
  op : JobOp

variable (jobs : JobTable)

def JobStep.exec (step : JobStep) : JobTable :=
  match step.op with
  | .insert job => (insertEngineJob jobs job step.now).1
  | .claim jobId leaseUntil => (claimEngineJob jobs jobId step.now leaseUntil).1
  | .renew jobId generation leaseUntil =>
      (renewEngineJobLease jobs jobId generation leaseUntil step.now).1
  | .finish jobId generation finish => (finishEngineJob jobs jobId generation finish step.now).1
  | .sweep => (finishLapsedCancelledEngineJobs jobs step.now).1
  | .cancel jobId => (cancelEngineJob jobs jobId step.now).1
  | .cancelAggregate aggregate => (cancelEngineJobsForAggregate jobs aggregate step.now).1
  | .cancelPhase aggregate phase => (cancelEngineJobsForPhase jobs aggregate phase step.now).1
  | .clearResult jobId => clearEngineJobResult jobs jobId step.now
  | .reset => resetEngineJobLeases jobs
  | .purge before => purgeEngineJobs jobs before

def runJobs (steps : List JobStep) : JobTable := steps.foldl JobStep.exec jobs

theorem runJobs_append (steps more : List JobStep) :
    runJobs jobs (steps ++ more) = runJobs (runJobs jobs steps) more := List.foldl_append

theorem claimDueEngineJobs_eq_run (poisons : PoisonTable) (pool : JobPool)
    (now leaseUntil : Int) (limit : Nat) :
    (claimDueEngineJobs jobs poisons pool now leaseUntil limit).1 = runJobs jobs
      ((claimCandidates jobs poisons pool now limit).map fun jobId =>
        ⟨now, .claim jobId leaseUntil⟩) := by
  rw [runJobs, List.foldl_map]
  exact (List.foldl_hom Prod.fst (fun _ _ => rfl)).symm

theorem cancelRow_idem (now : Int) (job : EngineJob) :
    cancelRow now (cancelRow now job) = cancelRow now job := by
  cases hstate : job.state <;> simp [cancelRow, hstate, cancelledRow, flaggedRow]

theorem find?_cancelWhere (p : EngineJob → Prop) [DecidablePred p] (now : Int) (k : String) :
    (cancelWhere jobs p now).find? k = (jobs.find? k).map fun job =>
      if p job then cancelRow now job else job :=
  Table.find?_update (cancelRow_jobId now) k

theorem find?_cancelEngineJobsForPhase (aggregate : AggregateRef) (phase : String)
    (now : Int) (k : String) :
    (cancelEngineJobsForPhase jobs aggregate phase now).1.find? k = (jobs.find? k).map fun job =>
      if job.aggregate = aggregate ∧ job.phase = phase then cancelRow now job else job := by
  -- cancelling a list of rows one by one, whatever has been counted before
  have hfold : ∀ (rows : List EngineJob) (jobs : JobTable) (count : Nat),
      (rows.foldl (fun before job =>
        let cancel := cancelEngineJob before.1 job.jobId now
        (cancel.1, if cancel.2 then before.2 + 1 else before.2)) (jobs, count)).1.find? k =
      (jobs.find? k).map fun job => if k ∈ rows.map EngineJob.jobId then cancelRow now job
        else job := by
    intro rows
    induction rows with
    | nil =>
      intro jobs count
      simp
    | cons row rows ih =>
      intro jobs count
      rw [List.foldl_cons, ih, cancelEngineJob, find?_cancelWhere, Option.map_map]
      cases hfind : jobs.find? k with
      | none => rfl
      | some job =>
        have hkey : job.jobId = k := Table.key_of_find? hfind
        simp only [Option.map_some, Function.comp, hkey, List.map_cons, List.mem_cons]
        by_cases hk : k = row.jobId
        · simp [hk, cancelRow_idem]
        · simp [hk]
  rw [cancelEngineJobsForPhase]
  refine (hfold _ jobs 0).trans ?_
  cases hfind : jobs.find? k with
  | none => rfl
  | some job =>
    obtain ⟨hmem, hkey⟩ := Table.find?_eq_some.mp hfind
    have hlisted : k ∈ (openRows jobs fun job => job.aggregate = aggregate ∧ job.phase = phase).map
        EngineJob.jobId ↔
        (job.aggregate = aggregate ∧ job.phase = phase) ∧ job.state.terminal = false := by
      simp only [openRows, List.mem_map, List.mem_filter, decide_eq_true_eq]
      constructor
      · rintro ⟨other, ⟨hother, hphase, hopen⟩, hid⟩
        have hsame := Table.find?_eq_some.mpr ⟨hother, hid⟩
        rw [hfind, Option.some.injEq] at hsame
        rw [hsame]
        exact ⟨hphase, hopen⟩
      · rintro ⟨hphase, hopen⟩
        exact ⟨job, ⟨hmem, hphase, hopen⟩, hkey⟩
    simp only [Option.map_some, hlisted]
    by_cases hphase : job.aggregate = aggregate ∧ job.phase = phase
    · -- a terminal row is not listed, and cancelling would not change it
      cases hstate : job.state <;> simp [hphase, EngineJobState.terminal, cancelRow, hstate]
    · simp [hphase]

inductive RowChange (jobs : JobTable) (step : JobStep) (job : EngineJob) : EngineJob → Prop
  | same : RowChange jobs step job job
  | claimed (leaseUntil : Int) :
      step.op = .claim job.jobId leaseUntil → Due job step.now → ¬ othersLive jobs job step.now →
      RowChange jobs step job (claimedRow step.now leaseUntil job)
  | renewed (leaseUntil : Int) :
      step.op = .renew job.jobId job.generation leaseUntil → job.state = .running →
      RowChange jobs step job { job with leaseUntil := leaseUntil, updatedAt := step.now }
  | finished (finish : EngineJobFinish) :
      step.op = .finish job.jobId job.generation finish → job.state = .running →
      RowChange jobs step job (finishedRow finish step.now job)
  | swept :
      step.op = .sweep → Lapsed job step.now → RowChange jobs step job (sweptRow step.now job)
  | cancelled : RowChange jobs step job (cancelRow step.now job)
  | cleared :
      job.state.terminal = true →
      RowChange jobs step job { job with result := none, params := none, updatedAt := step.now }
  | reset :
      step.op = .reset → job.state = .running → 0 < job.leaseUntil →
      RowChange jobs step job { job with leaseUntil := 0 }

theorem find?_claimEngineJob (jobId : String) (now leaseUntil : Int) (k : String) :
    (claimEngineJob jobs jobId now leaseUntil).1.find? k = (jobs.find? k).map fun job =>
      if job.jobId = jobId ∧ Due job now ∧ ¬ othersLive jobs job now then
        claimedRow now leaseUntil job
      else job :=
  Table.find?_update (by intro _; rfl) k

variable {jobs : JobTable} {jobId : String} {now leaseUntil : Int} {row : EngineJob}

theorem claimEngineJob_some (h : (claimEngineJob jobs jobId now leaseUntil).2 = some row) :
    ∃ job, jobs.find? jobId = some job ∧ Due job now ∧ row = claimedRow now leaseUntil job ∧
      (claimEngineJob jobs jobId now leaseUntil).1.find? jobId = some row := by
  obtain ⟨job, hjob, ⟨rfl, hdue, hlive⟩, rfl⟩ := Table.mem_returning.mp (List.mem_of_mem_head? h)
  refine ⟨job, hjob, hdue, rfl, ?_⟩
  rw [find?_claimEngineJob, hjob, Option.map_some, if_pos ⟨rfl, hdue, hlive⟩]

theorem find?_claimEngineJob_of_none (h : (claimEngineJob jobs jobId now leaseUntil).2 = none)
    (k : String) : (claimEngineJob jobs jobId now leaseUntil).1.find? k = jobs.find? k := by
  rw [find?_claimEngineJob]
  cases hjob : jobs.find? k with
  | none => rfl
  | some job =>
    rw [Option.map_some, if_neg]
    intro hclaim
    have hmem : claimedRow now leaseUntil job ∈ jobs.returning
        (fun job => job.jobId = jobId ∧ Due job now ∧ ¬ othersLive jobs job now)
        (claimedRow now leaseUntil) :=
      Table.mem_returning.mpr ⟨job, (Table.key_of_find? hjob).symm ▸ hjob, hclaim, rfl⟩
    rw [List.head?_eq_none_iff.mp h] at hmem
    cases hmem

variable {k : String}

theorem find?_claimEngineJob_of_ne
    (hk : k ≠ jobId) : (claimEngineJob jobs jobId now leaseUntil).1.find? k = jobs.find? k := by
  rw [find?_claimEngineJob]
  cases hjob : jobs.find? k with
  | none => rfl
  | some job =>
    rw [Option.map_some, if_neg]
    intro hclaim
    exact hk ((Table.key_of_find? hjob).symm.trans hclaim.1)

theorem find?_finishEngineJob (jobs : JobTable) (jobId : String) (generation : Nat)
    (finish : EngineJobFinish) (now : Int) (k : String) :
    (finishEngineJob jobs jobId generation finish now).1.find? k = (jobs.find? k).map fun job =>
      if HeldBy jobId generation job then finishedRow finish now job else job := by
  unfold finishEngineJob
  cases hcurrent : jobs.find? jobId with
  | none =>
    -- no row has the id, so none is held
    cases hk : jobs.find? k with
    | none => rfl
    | some job =>
      have hne : ¬ HeldBy jobId generation job := by
        rintro ⟨hid, -⟩
        rw [← hid, Table.key_of_find? hk, hk] at hcurrent
        cases hcurrent
      rw [Option.map_some, if_neg hne]
  | some current =>
    by_cases hstale : current.generation ≠ generation ∨ current.state ≠ .running
    · simp only [if_pos hstale]
      cases hk : jobs.find? k with
      | none => rfl
      | some job =>
        have hne : ¬ HeldBy jobId generation job := by
          rintro ⟨hid, hgeneration, hrunning⟩
          rw [← hid, Table.key_of_find? hk, hk, Option.some.injEq] at hcurrent
          rw [← hcurrent] at hstale
          rcases hstale with h | h
          · exact h hgeneration
          · exact h hrunning
        rw [Option.map_some, if_neg hne]
    · simp only [if_neg hstale]
      exact Table.find?_update (by intro _; rfl) k

theorem finishEngineJob_of_held {generation : Nat} (finish : EngineJobFinish) (now : Int)
    (hrow : jobs.find? jobId = some row) (hgeneration : row.generation = generation)
    (hrunning : row.state = .running) :
    (finishEngineJob jobs jobId generation finish now).2 =
      .applied (finishValues row.cancelRequested finish).1 := by
  simp only [finishEngineJob, hrow]
  rw [if_neg]
  rintro (h | h)
  · exact h hgeneration
  · exact h hrunning

theorem find?_insertEngineJob (jobs : JobTable) (new : NewEngineJob) (now : Int) (k : String) :
    (insertEngineJob jobs new now).1.find? k =
      if k = new.jobId then some ((jobs.find? k).getD (newJobRow new now)) else jobs.find? k := by
  unfold insertEngineJob
  cases hnew : jobs.find? new.jobId with
  | none => exact Table.find?_insertOrIgnore jobs _ k
  | some row =>
    split_ifs with hk
    · rw [hk, hnew]
      rfl
    · rfl

def JobStep.change (jobs : JobTable) (step : JobStep) (job : EngineJob) : EngineJob :=
  match step.op with
  | .claim jobId leaseUntil =>
      if job.jobId = jobId ∧ Due job step.now ∧ ¬ othersLive jobs job step.now then
        claimedRow step.now leaseUntil job
      else job
  | .renew jobId generation leaseUntil =>
      if HeldBy jobId generation job then
        { job with leaseUntil := leaseUntil, updatedAt := step.now }
      else job
  | .finish jobId generation finish =>
      if HeldBy jobId generation job then finishedRow finish step.now job else job
  | .sweep => if Lapsed job step.now then sweptRow step.now job else job
  | .cancel jobId => if job.jobId = jobId then cancelRow step.now job else job
  | .cancelAggregate aggregate =>
      if job.aggregate = aggregate then cancelRow step.now job else job
  | .cancelPhase aggregate phase =>
      if job.aggregate = aggregate ∧ job.phase = phase then cancelRow step.now job else job
  | .clearResult jobId =>
      if job.jobId = jobId ∧ job.state.terminal = true then
        { job with result := none, params := none, updatedAt := step.now }
      else job
  | .reset =>
      if job.state = .running ∧ 0 < job.leaseUntil then { job with leaseUntil := 0 } else job
  | .insert _ | .purge _ => job

theorem JobStep.find?_exec (jobs : JobTable) (step : JobStep) (k : String) :
    (step.exec jobs).find? k =
      match step.op with
      | .insert new =>
          if k = new.jobId then some ((jobs.find? k).getD (newJobRow new step.now))
            else jobs.find? k
      | .purge before =>
          (jobs.find? k).filter fun job => ¬ (job.state.terminal = true ∧ job.updatedAt < before)
      | _ => (jobs.find? k).map (step.change jobs) := by
  obtain ⟨now, op⟩ := step
  cases op with
  | insert new => exact find?_insertEngineJob jobs new now k
  | claim jobId leaseUntil => exact find?_claimEngineJob jobs jobId now leaseUntil k
  | renew jobId generation leaseUntil | sweep | clearResult jobId | reset =>
    exact Table.find?_update (by intro _; rfl) k
  | finish jobId generation finish => exact find?_finishEngineJob jobs jobId generation finish now k
  | cancel jobId | cancelAggregate aggregate => exact find?_cancelWhere jobs _ now k
  | cancelPhase aggregate phase => exact find?_cancelEngineJobsForPhase jobs aggregate phase now k
  | purge before => exact Table.find?_delete k

theorem JobStep.rowChange (jobs : JobTable) (step : JobStep) (job : EngineJob) :
    RowChange jobs step job (step.change jobs job) := by
  obtain ⟨now, op⟩ := step
  cases op with
  | insert new | purge before => exact .same
  | claim jobId leaseUntil =>
    change RowChange _ _ _ (if _ then _ else _)
    split_ifs with hclaim
    · obtain ⟨rfl, hdue, hlive⟩ := hclaim
      exact .claimed leaseUntil rfl hdue hlive
    · exact .same
  | renew jobId generation leaseUntil =>
    change RowChange _ _ _ (if _ then _ else _)
    split_ifs with hheld
    · obtain ⟨rfl, rfl, hrunning⟩ := hheld
      exact .renewed leaseUntil rfl hrunning
    · exact .same
  | finish jobId generation finish =>
    change RowChange _ _ _ (if _ then _ else _)
    split_ifs with hheld
    · obtain ⟨rfl, rfl, hrunning⟩ := hheld
      exact .finished finish rfl hrunning
    · exact .same
  | sweep =>
    change RowChange _ _ _ (if _ then _ else _)
    split_ifs with hlapsed
    · exact .swept rfl hlapsed
    · exact .same
  | cancel jobId | cancelAggregate aggregate | cancelPhase aggregate phase =>
    change RowChange _ _ _ (if _ then _ else _)
    split_ifs
    · exact .cancelled
    · exact .same
  | clearResult jobId =>
    change RowChange _ _ _ (if _ then _ else _)
    split_ifs with hterminal
    · exact .cleared hterminal.2
    · exact .same
  | reset =>
    change RowChange _ _ _ (if _ then _ else _)
    split_ifs with hrunning
    · exact .reset rfl hrunning.1 hrunning.2
    · exact .same

theorem JobStep.row_before {step : JobStep} {job' : EngineJob}
    (h : (step.exec jobs).find? k = some job') :
    (∃ job, jobs.find? k = some job ∧ RowChange jobs step job job') ∨
      jobs.find? k = none ∧ ∃ new, job' = newJobRow new step.now := by
  have hchange := step.rowChange jobs
  rw [step.find?_exec] at h
  obtain ⟨now, op⟩ := step
  cases hfind : jobs.find? k with
  | none =>
    -- only an insert makes a row
    right
    rw [hfind] at h
    cases op with
    | insert new =>
      simp only at h
      split_ifs at h
      exact ⟨rfl, new, (Option.some.inj h).symm⟩
    | _ => cases h
  | some job =>
    left
    rw [hfind] at h
    refine ⟨job, rfl, ?_⟩
    cases op with
    | insert new =>
      simp only [Option.getD_some] at h
      split_ifs at h
      all_goals
        cases h
        exact .same
    | purge before =>
      obtain ⟨hsame, -⟩ := Option.filter_eq_some_iff.mp h
      cases hsame
      exact .same
    | _ =>
      cases h
      exact hchange job

theorem JobStep.row_after (step : JobStep) {job : EngineJob} (h : jobs.find? k = some job) :
    (∃ job', (step.exec jobs).find? k = some job' ∧ RowChange jobs step job job') ∨
      (step.exec jobs).find? k = none := by
  cases hafter : (step.exec jobs).find? k with
  | none => exact Or.inr rfl
  | some job' =>
    left
    refine ⟨job', rfl, ?_⟩
    rcases JobStep.row_before hafter with ⟨before, hbefore, hchange⟩ | ⟨hnone, -⟩
    · rw [h, Option.some.injEq] at hbefore
      rw [hbefore]
      exact hchange
    · cases h.symm.trans hnone

end BitvmNode.Engine
