import Mathlib.Data.List.Induction
import BitvmNode.Engine.JobSteps

/-!
# Generations and leases

What the guards of the single statements give for whole runs: a generation is used by one holder and
one result, and a finished job stays finished.
-/

namespace BitvmNode.Engine

open Reasoning

def JobStep.claimed (jobs : JobTable) (step : JobStep) : Option EngineJob :=
  match step.op with
  | .claim jobId leaseUntil => (claimEngineJob jobs jobId step.now leaseUntil).2
  | _ => none

def JobStep.Claims (jobs : JobTable) (step : JobStep) (k : String) (generation : Nat) : Prop :=
  ∃ job, step.claimed jobs = some job ∧ job.jobId = k ∧ job.generation = generation

/-- The step is a finish by the holder of this generation that is reported as applied. -/
def JobStep.Applies (jobs : JobTable) (step : JobStep) (k : String) (generation : Nat) : Prop :=
  ∃ finish state, step.op = .finish k generation finish ∧
    (finishEngineJob jobs k generation finish step.now).2 = .applied state

def JobStep.Cancels (step : JobStep) (job : EngineJob) : Prop :=
  step.op = .cancel job.jobId ∨ step.op = .cancelAggregate job.aggregate ∨
    step.op = .cancelPhase job.aggregate job.phase

def JobStep.ReportsAs (step : JobStep) (k : String) (generation : Nat) : Prop :=
  (∃ leaseUntil, step.op = .renew k generation leaseUntil) ∨
    ∃ finish, step.op = .finish k generation finish

variable {jobs : JobTable} {k : String} {generation : Nat}

theorem JobStep.Claims.row {step : JobStep} (h : step.Claims jobs k generation) :
    ∃ job leaseUntil, step.op = .claim k leaseUntil ∧ jobs.find? k = some job ∧ Due job step.now ∧
      generation = job.generation + 1 ∧
      (step.exec jobs).find? k = some (claimedRow step.now leaseUntil job) := by
  obtain ⟨row, hrow, rfl, rfl⟩ := h
  obtain ⟨now, op⟩ := step
  cases op with
  | claim jobId leaseUntil =>
    obtain ⟨job, hjob, hdue, rfl, hafter⟩ := claimEngineJob_some hrow
    obtain rfl : job.jobId = jobId := Table.key_of_find? hjob
    exact ⟨job, leaseUntil, rfl, hjob, hdue, rfl, hafter⟩
  | _ => cases hrow

theorem JobStep.Applies.row {step : JobStep} (h : step.Applies jobs k generation) :
    ∃ job finish, jobs.find? k = some job ∧ job.generation = generation ∧ job.state = .running ∧
      (step.exec jobs).find? k = some (finishedRow finish step.now job) := by
  obtain ⟨finish, state, hop, happlied⟩ := h
  obtain ⟨now, op⟩ := step
  cases hop
  unfold finishEngineJob at happlied
  cases hjob : jobs.find? k with
  | none =>
    simp only [hjob] at happlied
    cases happlied
  | some job =>
    simp only [hjob] at happlied
    split_ifs at happlied with hstale
    have hheld : job.generation = generation ∧ job.state = .running := by
      constructor
      · by_contra hne
        exact hstale (Or.inl hne)
      · by_contra hne
        exact hstale (Or.inr hne)
    refine ⟨job, finish, rfl, hheld.1, hheld.2, ?_⟩
    refine (find?_finishEngineJob jobs k generation finish now k).trans ?_
    rw [hjob, Option.map_some, if_pos ⟨Table.key_of_find? hjob, hheld.1, hheld.2⟩]

variable {job job' : EngineJob}

theorem RowChange.generation_le {step : JobStep}
    (h : RowChange jobs step job job') : job.generation ≤ job'.generation := by
  cases h with
  | same | renewed leaseUntil _ _ | finished finish _ _ | swept _ _ | cleared _ | reset _ _ _ =>
    exact Nat.le_refl _
  | claimed leaseUntil _ _ _ => exact Nat.le_succ _
  | cancelled =>
    unfold cancelRow
    split <;> exact Nat.le_refl _

theorem RowChange.state_of_terminal {step : JobStep} (h : RowChange jobs step job job')
    (hterminal : job.state.terminal = true) : job'.state = job.state := by
  -- every statement that sets the state asks for an open one
  have hrunning : job.state ≠ .running := by
    intro hstate
    rw [hstate] at hterminal
    cases hterminal
  cases h with
  | same | renewed leaseUntil _ _ | cleared _ | reset _ _ _ => rfl
  | claimed leaseUntil _ hdue _ =>
    rcases hdue with ⟨hpending, -⟩ | ⟨hstate, -⟩
    · rw [hpending] at hterminal
      cases hterminal
    · exact absurd hstate hrunning
  | finished finish _ hstate => exact absurd hstate hrunning
  | swept _ hlapsed => exact absurd hlapsed.1 hrunning
  | cancelled =>
    cases hstate : job.state <;> simp_all [cancelRow, EngineJobState.terminal]

def Past (generation : Nat) (job : EngineJob) : Prop :=
  generation ≤ job.generation ∧ ¬ (job.generation = generation ∧ job.state = .running)

theorem finishedRow_not_running (finish : EngineJobFinish) (now : Int) (job : EngineJob) :
    (finishedRow finish now job).state ≠ .running := by
  change (finishValues job.cancelRequested finish).1 ≠ .running
  cases finish <;> cases job.cancelRequested <;> simp [finishValues]

theorem RowChange.past {step : JobStep} (h : RowChange jobs step job job')
    (hpast : Past generation job) : Past generation job' := by
  obtain ⟨hle, hnot⟩ := hpast
  refine ⟨hle.trans h.generation_le, ?_⟩
  rintro ⟨hgeneration, hstate⟩
  cases h with
  | same | renewed leaseUntil _ _ | cleared _ | reset _ _ _ => exact hnot ⟨hgeneration, hstate⟩
  | claimed leaseUntil _ _ _ =>
    -- the claim has moved on to the next generation
    have hnext : job.generation + 1 = generation := hgeneration
    omega
  | finished finish _ _ => exact absurd hstate (finishedRow_not_running finish step.now job)
  | swept _ _ => cases hstate
  | cancelled =>
    cases hbefore : job.state <;>
      simp_all [cancelRow, cancelledRow, flaggedRow]

def Kept (k : String) : JobTable → List JobStep → Prop
  | jobs, [] => (jobs.find? k).isSome = true
  | jobs, step :: steps => (jobs.find? k).isSome = true ∧ Kept k (step.exec jobs) steps

theorem Kept.isSome {steps : List JobStep} (h : Kept k jobs steps) :
    (jobs.find? k).isSome = true := by
  cases steps with
  | nil => exact h
  | cons step steps => exact h.1

theorem Kept.preserves {P : EngineJob → Prop}
    (hstep : ∀ jobs step job job', RowChange jobs step job job' → P job → P job')
    {steps : List JobStep} (hkept : Kept k jobs steps) (hjob : jobs.find? k = some job)
    (hP : P job) :
    ∃ job', (runJobs jobs steps).find? k = some job' ∧ P job' := by
  induction steps generalizing jobs job with
  | nil => exact ⟨job, hjob, hP⟩
  | cons step steps ih =>
    rcases step.row_after hjob with ⟨job', hjob', hchange⟩ | hnone
    · exact ih hkept.2 hjob' (hstep _ _ _ _ hchange hP)
    · have hsome := hkept.2.isSome
      rw [hnone] at hsome
      cases hsome

theorem JobStep.ReportsAs.exec_eq {step : JobStep} (h : step.ReportsAs k generation)
    (hother : ∀ job, jobs.find? k = some job → job.generation ≠ generation) :
    step.exec jobs = jobs := by
  obtain ⟨now, op⟩ := step
  rcases h with ⟨leaseUntil, hop⟩ | ⟨finish, hop⟩
  · cases hop
    refine Table.update_eq_self (by intro _; rfl) ?_
    rintro job hmem ⟨rfl, hgeneration, -⟩
    exact hother job (Table.mem_rows_iff.mp hmem) hgeneration
  · cases hop
    change (finishEngineJob jobs k generation finish now).1 = jobs
    unfold finishEngineJob
    cases hjob : jobs.find? k with
    | none => rfl
    | some job =>
      simp only [if_pos (show job.generation ≠ generation ∨ _ from Or.inl (hother job hjob))]

theorem JobStep.Cancels.row {step : JobStep} (h : step.Cancels job) (hjob : jobs.find? k = some job)
    (hpending : job.state = .pending) :
    ∃ job', (step.exec jobs).find? k = some job' ∧ job'.state = .cancelled := by
  have hcancelled : (cancelRow step.now job).state = .cancelled := by
    rw [cancelRow, hpending]
    rfl
  refine ⟨_, ?_, hcancelled⟩
  rw [step.find?_exec, hjob]
  obtain ⟨now, op⟩ := step
  rcases h with h | h | h
  all_goals
    cases h
    simp [JobStep.change]

/-- Two steps on a job with any steps of any holders between them, during which the row is not
purged: generations grow with every claim, a generation is finished once, reports in other
generations change nothing, a finished job stays as it is, and a job that was cancelled before it
ran is not claimed. -/
theorem job_fencing (jobs : JobTable) (first last : JobStep) (steps : List JobStep) (k : String)
    (hkept : Kept k (first.exec jobs) steps) :
    (∀ g g', first.Claims jobs k g → last.Claims (runJobs (first.exec jobs) steps) k g' → g < g') ∧
    (∀ g, first.Applies jobs k g → ¬ last.Applies (runJobs (first.exec jobs) steps) k g) ∧
    (∀ g, (∀ job, jobs.find? k = some job → job.generation ≠ g) → first.ReportsAs k g →
      first.exec jobs = jobs) ∧
    (∀ job, jobs.find? k = some job → job.state.terminal = true →
      ∃ job', (runJobs (first.exec jobs) steps).find? k = some job' ∧ job'.state = job.state) ∧
    (∀ job, jobs.find? k = some job → job.state = .pending → first.Cancels job →
      ∀ g, ¬ last.Claims (runJobs (first.exec jobs) steps) k g) := by
  have hterminal : ∀ state : EngineJobState, state.terminal = true → ∀ jobs step job job',
      RowChange jobs step job job' → job.state = state → job'.state = state := by
    intro state hstate jobs step job job' hchange hjob
    rw [← hjob]
    exact hchange.state_of_terminal (hjob ▸ hstate)
  refine ⟨?_, ?_, ?_, ?_, ?_⟩
  · intro g g' hfirst hlast
    obtain ⟨job, leaseUntil, -, -, -, rfl, hrow⟩ := hfirst.row
    obtain ⟨job', -, -, hjob', -, rfl, -⟩ := hlast.row
    -- the generation never falls between the two claims
    obtain ⟨row, hlater, hle⟩ :=
      hkept.preserves (P := fun row => job.generation + 1 ≤ row.generation)
      (fun _ _ _ _ hchange hle => hle.trans hchange.generation_le) hrow (Nat.le_refl _)
    rw [hjob', Option.some.injEq] at hlater
    rw [hlater]
    omega
  · intro g hfirst hlast
    obtain ⟨job, finish, -, hgeneration, -, hrow⟩ := hfirst.row
    obtain ⟨job', -, hjob', hgeneration', hrunning, -⟩ := hlast.row
    have hpast : Past g (finishedRow finish first.now job) :=
      ⟨Nat.le_of_eq hgeneration.symm, fun h => finishedRow_not_running finish first.now job h.2⟩
    obtain ⟨row, hlater, hrow'⟩ :=
      hkept.preserves (P := Past g) (fun _ _ _ _ hchange => hchange.past) hrow hpast
    rw [hjob', Option.some.injEq] at hlater
    rw [← hlater] at hrow'
    exact hrow'.2 ⟨hgeneration', hrunning⟩
  · intro g hother hreport
    exact hreport.exec_eq hother
  · intro job hjob hstate
    rcases first.row_after hjob with ⟨job', hjob', hchange⟩ | hnone
    · exact hkept.preserves (P := fun row => row.state = job.state)
        (hterminal job.state hstate) hjob' (hchange.state_of_terminal hstate)
    · have hsome := hkept.isSome
      rw [hnone] at hsome
      cases hsome
  · intro job hjob hpending hcancels g hlast
    obtain ⟨job', hjob', hcancelled⟩ := hcancels.row hjob hpending
    obtain ⟨row, hlater, hrow⟩ := hkept.preserves (P := fun row => row.state = .cancelled)
      (hterminal .cancelled rfl) hjob' hcancelled
    obtain ⟨row', -, -, hrow', hdue, -, -⟩ := hlast.row
    rw [hlater, Option.some.injEq] at hrow'
    rw [← hrow'] at hdue
    -- neither pending nor running
    rcases hdue with ⟨hstate, -⟩ | ⟨hstate, -⟩
    all_goals
      cases hrow.symm.trans hstate

namespace Example

def graph : AggregateRef := ⟨"graph", "5f"⟩

def newJob (jobId : String) : NewEngineJob :=
  ⟨jobId, graph, "signing", "presign", .cpu, [], none, 0⟩

def oneJob : JobTable := runJobs .empty [⟨0, .insert (newJob "a")⟩]

def claimedJob : JobTable := runJobs oneJob [⟨1, .claim "a" 10⟩]

def renewal : List JobStep :=
  [⟨2, .finish "a" 1 (.done [])⟩, ⟨5, .purge 4⟩, ⟨6, .insert (newJob "a")⟩]

end Example

section

open Example

theorem job_fencing_retry :
    (⟨1, .claim "a" 10⟩ : JobStep).Claims oneJob "a" 1 ∧
      (⟨9, .claim "a" 20⟩ : JobStep).Claims
        (runJobs claimedJob [⟨2, .finish "a" 1 (.retry "busy" 8)⟩]) "a" 2 ∧ 1 < 2 := by
  have hfirst : (⟨1, .claim "a" 10⟩ : JobStep).Claims oneJob "a" 1 := ⟨_, rfl, rfl, rfl⟩
  have hlast : (⟨9, .claim "a" 20⟩ : JobStep).Claims
      (runJobs claimedJob [⟨2, .finish "a" 1 (.retry "busy" 8)⟩]) "a" 2 := ⟨_, rfl, rfl, rfl⟩
  have hkept : Kept "a" ((⟨1, .claim "a" 10⟩ : JobStep).exec oneJob)
      [⟨2, .finish "a" 1 (.retry "busy" 8)⟩] := ⟨rfl, rfl⟩
  exact ⟨hfirst, hlast, (job_fencing oneJob _ _ _ "a" hkept).1 1 2 hfirst hlast⟩

/-- A purged id that is inserted again starts over: both claims have the first generation, and the
first generation is finished twice. -/
theorem job_fencing_restarts :
    (⟨1, .claim "a" 10⟩ : JobStep).Claims oneJob "a" 1 ∧
      (⟨7, .claim "a" 20⟩ : JobStep).Claims (runJobs claimedJob renewal) "a" 1 ∧
      (⟨2, .finish "a" 1 (.done [])⟩ : JobStep).Applies claimedJob "a" 1 ∧
      (⟨8, .finish "a" 1 (.done [])⟩ : JobStep).Applies
        (runJobs claimedJob (renewal ++ [⟨7, .claim "a" 20⟩])) "a" 1 :=
  ⟨⟨_, rfl, rfl, rfl⟩, ⟨_, rfl, rfl, rfl⟩, ⟨_, .done, rfl, by decide +kernel⟩,
    ⟨_, .done, rfl, by decide +kernel⟩⟩

end

/-- No two running jobs of one aggregate hold leases that are live at `now`. -/
def Exclusive (jobs : JobTable) (now : Int) : Prop :=
  ∀ a b job other, jobs.find? a = some job → jobs.find? b = some other → a ≠ b →
    job.aggregate = other.aggregate → job.state = .running → other.state = .running →
    ¬ (now < job.leaseUntil ∧ now < other.leaseUntil)

theorem Exclusive.mono {now later : Int} (h : Exclusive jobs now) (hle : now ≤ later) :
    Exclusive jobs later := by
  intro a b job other hjob hother hab haggregate hrunning hrunning' hlive
  exact h a b job other hjob hother hab haggregate hrunning hrunning' ⟨by omega, by omega⟩

def RenewalGuarded (jobs : JobTable) (step : JobStep) : Prop :=
  ∀ k generation leaseUntil job, step.op = .renew k generation leaseUntil →
    jobs.find? k = some job → job.generation = generation → job.state = .running →
    step.now < leaseUntil → ¬ othersLive jobs job step.now

def Live (job : EngineJob) (now : Int) : Prop := job.state = .running ∧ now < job.leaseUntil

theorem RowChange.live {step : JobStep} (h : RowChange jobs step job job')
    (hlive : Live job' step.now) : job'.aggregate = job.aggregate ∧ (Live job step.now ∨
      (∃ leaseUntil, step.op = .claim job.jobId leaseUntil ∧ ¬ othersLive jobs job step.now) ∨
      ∃ leaseUntil, step.op = .renew job.jobId job.generation leaseUntil ∧ job.state = .running ∧
        step.now < leaseUntil) := by
  obtain ⟨hrunning, hlease⟩ := hlive
  cases h with
  | same | cleared _ => exact ⟨rfl, Or.inl ⟨hrunning, hlease⟩⟩
  | claimed leaseUntil hop _ hothers => exact ⟨rfl, Or.inr (Or.inl ⟨leaseUntil, hop, hothers⟩)⟩
  | renewed leaseUntil hop hstate =>
    exact ⟨rfl, Or.inr (Or.inr ⟨leaseUntil, hop, hstate, hlease⟩)⟩
  | finished finish _ _ => exact absurd hrunning (finishedRow_not_running finish step.now job)
  | swept _ _ => cases hrunning
  | cancelled =>
    -- a pending row is no longer open, a running one keeps its lease
    cases hstate : job.state <;> simp_all [cancelRow, cancelledRow, flaggedRow, Live]
  | reset _ hstate hpositive =>
    have hzero : step.now < 0 := hlease
    exact ⟨rfl, Or.inl ⟨hstate, by omega⟩⟩

theorem RowChange.live_of_other {step : JobStep} (h : RowChange jobs step job job')
    (hlive : Live job' step.now) (hk : job.jobId ≠ k)
    (hstep : (∃ leaseUntil, step.op = .claim k leaseUntil) ∨
      ∃ generation leaseUntil, step.op = .renew k generation leaseUntil) :
    Live job step.now := by
  rcases (h.live hlive).2 with hbefore | ⟨leaseUntil, hop, -⟩ | ⟨leaseUntil, hop, -⟩
  · exact hbefore
  all_goals
    rcases hstep with ⟨_, hstep⟩ | ⟨_, _, hstep⟩ <;> rw [hstep] at hop <;> cases hop
    exact absurd rfl hk

theorem Exclusive.step {step : JobStep} (h : Exclusive jobs step.now)
    (hguard : RenewalGuarded jobs step) : Exclusive (step.exec jobs) step.now := by
  -- it is enough to look at a pair whose first row was claimed or renewed, or neither
  have hpair : ∀ a b job job' other other', jobs.find? a = some job →
      RowChange jobs step job job' → jobs.find? b = some other → RowChange jobs step other other' →
      a ≠ b → job'.aggregate = other'.aggregate → Live job' step.now → Live other' step.now →
      ¬ Live job step.now → False := by
    intro a b job job' other other' hjob hchange hother hchange' hab haggregate hlive hlive' hnot
    have ha := Table.key_of_find? hjob
    have hb := Table.key_of_find? hother
    have hne : other.jobId ≠ job.jobId := by
      rw [ha, hb]
      exact hab.symm
    obtain ⟨hsame, hcases⟩ := hchange.live hlive
    obtain ⟨hsame', -⟩ := hchange'.live hlive'
    have hlives : Live other step.now → othersLive jobs job step.now := fun hbefore =>
      ⟨other, Table.mem_rows_iff.mpr
        (hb ▸ hother), by rw [← hsame', ← haggregate, hsame], hne, hbefore.1, hbefore.2⟩
    rcases hcases with hbefore | ⟨leaseUntil, hop, hothers⟩ | ⟨leaseUntil, hop, hrunning, hlease⟩
    · exact hnot hbefore
    · exact hothers (hlives (hchange'.live_of_other hlive' hne (Or.inl ⟨_, hop⟩)))
    · exact hguard _ _ _ job hop (ha ▸ hjob) rfl hrunning hlease
        (hlives (hchange'.live_of_other hlive' hne (Or.inr ⟨_, _, hop⟩)))
  intro a b job' other' hjob' hother' hab haggregate hrunning hrunning' ⟨hlease, hlease'⟩
  -- a new row is pending
  have hold : ∀ {k row}, (step.exec jobs).find? k = some row → row.state = .running →
      ∃ job, jobs.find? k = some job ∧ RowChange jobs step job row := by
    intro k row hrow hstate
    rcases JobStep.row_before hrow with hbefore | ⟨-, new, rfl⟩
    · exact hbefore
    · cases hstate
  obtain ⟨job, hjob, hchange⟩ := hold hjob' hrunning
  obtain ⟨other, hother, hchange'⟩ := hold hother' hrunning'
  by_cases hlive : Live job step.now
  · by_cases hlive' : Live other step.now
    · have hsame := (hchange.live ⟨hrunning, hlease⟩).1
      have hsame' := (hchange'.live ⟨hrunning', hlease'⟩).1
      exact h a b job other hjob hother hab (by rw [← hsame, ← hsame', haggregate]) hlive.1 hlive'.1
        ⟨hlive.2, hlive'.2⟩
    · exact hpair b a other other' job job' hother hchange' hjob hchange hab.symm haggregate.symm
        ⟨hrunning', hlease'⟩ ⟨hrunning, hlease⟩ hlive'
  · exact hpair a b job job' other other' hjob hchange hother hchange' hab haggregate
      ⟨hrunning, hlease⟩ ⟨hrunning', hlease'⟩ hlive

/-- A batch is chosen from the table before its claims.  Two jobs of one aggregate may be chosen,
but the second claim finds the first one's lease. -/
theorem Exclusive.claimDueEngineJobs {now : Int} (h : Exclusive jobs now) (poisons : PoisonTable)
    (pool : JobPool) (leaseUntil : Int) (limit : Nat) :
    Exclusive (claimDueEngineJobs jobs poisons pool now leaseUntil limit).1 now := by
  rw [claimDueEngineJobs_eq_run]
  induction claimCandidates jobs poisons pool now limit generalizing jobs with
  | nil => exact h
  | cons jobId jobIds ih =>
    apply ih
    apply Exclusive.step h
    intro k generation leaseUntil' job hop
    cases hop

theorem RenewalGuarded.of_exclusive {step : JobStep}
    (h : Exclusive (step.exec jobs) step.now) : RenewalGuarded jobs step := by
  intro k generation leaseUntil job hop hjob hgeneration hrunning hlease ⟨other, hmem,
    haggregate, hne, hrunning', hlease'⟩
  have hid : job.jobId = k := Table.key_of_find? hjob
  have hfind : ∀ id row, jobs.find? id = some row →
      (step.exec jobs).find? id = some (step.change jobs row) := by
    intro id row hrow
    rw [step.find?_exec, hop, hrow]
    rfl
  have hrenewed : (step.exec jobs).find? k =
      some { job with leaseUntil := leaseUntil, updatedAt := step.now } := by
    rw [hfind k job hjob, JobStep.change, hop]
    simp only [if_pos (show HeldBy k generation job from ⟨hid, hgeneration, hrunning⟩)]
  have hother : (step.exec jobs).find? other.jobId = some other := by
    rw [hfind _ other (Table.mem_rows_iff.mp hmem), JobStep.change, hop]
    simp only [if_neg (show ¬ HeldBy k generation other from fun hheld =>
      hne (hheld.1.trans hid.symm))]
  exact h k other.jobId _ other hrenewed hother (fun heq => hne (heq ▸ hid.symm)) haggregate.symm
    hrunning hrunning' ⟨hlease, hlease'⟩

/-- Whatever the order of the steps, if the clock does not run backwards: one aggregate has at most
one live lease at any time exactly if no renewal takes effect while another job of the aggregate
runs under a live lease. -/
theorem leases_exclusive_iff (steps : List JobStep)
    (hclock : steps.Pairwise fun step later => step.now ≤ later.now) :
    (∀ pre step post, steps = pre ++ step :: post → ∀ time, step.now ≤ time →
        Exclusive (runJobs .empty (pre ++ [step])) time) ↔
      ∀ pre step post, steps = pre ++ step :: post → RenewalGuarded (runJobs .empty pre) step := by
  have hrun : ∀ pre step, runJobs .empty (pre ++ [step]) = step.exec (runJobs .empty pre) :=
    fun pre step => runJobs_append _ _ _
  constructor
  · intro hexclusive pre step post hsteps
    have hafter := hexclusive pre step post hsteps step.now (Int.le_refl _)
    rw [hrun] at hafter
    exact RenewalGuarded.of_exclusive hafter
  · intro hguard pre step post hsteps time htime
    apply Exclusive.mono _ htime
    -- along the run, from the empty table on
    induction pre using List.reverseRecOn generalizing step post time with
    | nil =>
      apply Exclusive.step _ (hguard [] step post hsteps)
      intro a b job other hjob
      cases hjob
    | append_singleton pre earlier ih =>
      have hsplit : steps = pre ++ earlier :: (step :: post) := by
        rw [hsteps, List.append_assoc]
        rfl
      have hearlier := ih earlier (step :: post) hsplit earlier.now (Int.le_refl _)
      have hle : earlier.now ≤ step.now := by
        rw [hsplit] at hclock
        have htail := (List.pairwise_append.mp hclock).2.1
        exact (List.pairwise_cons.mp htail).1 step List.mem_cons_self
      rw [hrun]
      exact Exclusive.step (hearlier.mono hle) (hguard _ step post hsteps)

section

open Example

/-- Two jobs of one graph.  The second is claimed after the lease of the first has lapsed; then the
first holder renews its lease. -/
theorem leases_not_exclusive : ¬ Exclusive (runJobs .empty
      [⟨0, .insert (newJob "a")⟩, ⟨0, .insert (newJob "b")⟩, ⟨1, .claim "a" 10⟩,
        ⟨11, .claim "b" 20⟩, ⟨12, .renew "a" 1 22⟩]) 12 := by
  intro h
  exact h "a" "b" _ _ rfl rfl (by decide) rfl rfl rfl ⟨by decide, by decide⟩

theorem leases_exclusive_renewed : Exclusive (runJobs .empty
      [⟨0, .insert (newJob "a")⟩, ⟨0, .insert (newJob "b")⟩, ⟨1, .claim "a" 10⟩,
        ⟨9, .renew "a" 1 19⟩, ⟨12, .claim "b" 20⟩]) 12 := by
  refine (leases_exclusive_iff
    [⟨0, .insert (newJob "a")⟩, ⟨0, .insert (newJob "b")⟩, ⟨1, .claim "a" 10⟩, ⟨9, .renew "a" 1 19⟩,
      ⟨12, .claim "b" 20⟩] (by decide)).mpr ?_
    [⟨0, .insert (newJob "a")⟩, ⟨0, .insert (newJob "b")⟩, ⟨1, .claim "a" 10⟩, ⟨9, .renew "a" 1 19⟩]
    ⟨12, .claim "b" 20⟩ [] rfl 12 (by decide)
  -- the only renewal is the fourth step, with the other job still pending
  intro pre step post hsteps k generation leaseUntil job hop hjob _ _ _
  rcases pre with _ | ⟨_, _ | ⟨_, _ | ⟨_, _ | ⟨_, _ | ⟨_, pre⟩⟩⟩⟩⟩
  all_goals
    simp only [List.nil_append, List.cons_append, List.cons.injEq, List.nil_eq,
      List.append_eq_nil_iff, reduceCtorEq, and_false] at hsteps
  all_goals
    obtain ⟨rfl, hsteps⟩ := hsteps
  · cases hop
  · obtain ⟨rfl, rfl⟩ := hsteps
    cases hop
  · obtain ⟨rfl, rfl, rfl⟩ := hsteps
    cases hop
  · obtain ⟨rfl, rfl, rfl, rfl⟩ := hsteps
    cases hop
    cases hjob
    decide
  · obtain ⟨rfl, rfl, rfl, rfl, rfl⟩ := hsteps
    cases hop

end

end BitvmNode.Engine
