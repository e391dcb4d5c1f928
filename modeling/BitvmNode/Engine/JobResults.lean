import BitvmNode.Engine.Executor
import BitvmNode.Engine.Leases

/-!
# Which job results reach the inbox

The executor with its holders: every claim makes a holder, and every holder completes at most once,
with the row it has claimed.
-/

namespace BitvmNode.Engine

open JobResultEvent

open Reasoning

variable {β : Type}

structure Executor (β : Type) where
  db : Db β
  holders : List EngineJob

def Executor.init (business : β) : Executor β := ⟨.empty business, []⟩

def JobOp.quiet : JobOp → Bool
  | .insert _ | .renew _ _ _ | .cancel _ | .cancelAggregate _ | .cancelPhase _ _ | .clearResult _
  | .reset => true
  | .claim _ _ | .finish _ _ _ | .sweep | .purge _ => false

def InboxOp.keepsRows : InboxOp → Bool
  | .insert _ | .purgeTerminal _ | .purgeRejected _ => false
  | .applied _ | .waiting _ _ _ _ | .retry _ _ _ | .failed _ _ | .poisoned _ _ | .wake _
  | .rearmWaiting | .rearmPending => true

inductive ExecutorOp where
  | table (op : JobOp)
  | claim (jobId : String) (leaseUntil : Int)
  | sweep
  | complete (holder : EngineJob) (finish : EngineJobFinish)
  | restart
  | inbox (op : InboxOp)

structure ExecutorStep where
  now : Int
  op : ExecutorOp

def ExecutorStep.exec (config : EngineConfig) (s : Executor β) (step : ExecutorStep) : Executor β :=
  match step.op with
  | .table op =>
      if op.quiet then { s with db := { s.db with jobs := JobStep.exec s.db.jobs ⟨step.now, op⟩ } }
        else s
  | .claim jobId leaseUntil =>
      let (jobs, row) := claimEngineJob s.db.jobs jobId step.now leaseUntil
      ⟨{ s.db with jobs }, s.holders ++ row.toList⟩
  | .sweep => { s with db := finishLapsedCancelled s.db step.now }
  | .complete holder finish =>
      if holder ∈ s.holders then
        ⟨recordJobFinish config s.db holder holder.generation finish step.now,
          s.holders.erase holder⟩
      else s
  | .restart => ⟨{ s.db with jobs := resetEngineJobLeases s.db.jobs }, []⟩
  | .inbox op =>
      if op.keepsRows then
        { s with db := { s.db with inbox := InboxStep.exec s.db.inbox ⟨step.now, op⟩ } }
      else s

variable (config : EngineConfig)

def runExecutor (s : Executor β) (steps : List ExecutorStep) : Executor β :=
  steps.foldl (ExecutorStep.exec config) s

def completionEvent (holder : EngineJob) (stale : Bool) (outcome : JobResultOutcome) :
    JobResultEvent where
  jobId := holder.jobId
  phase := holder.phase
  action := holder.action
  generation := holder.generation
  stale := stale
  outcome := outcome

def reportId (holder : EngineJob) : String := eventId holder.jobId holder.generation

def TakenBySweep (inbox : Inbox) (holder : EngineJob) : Prop :=
  ∃ event, inbox.find? (reportId holder) = some event ∧
    ∀ payload, event.payload = some payload →
      payload = utf8 (completionEvent holder false .cancelled).toJson

/-- A holder of an old generation has not reported.  One of the current generation holds the running
job, or the job was swept. -/
def Awaits (inbox : Inbox) (holder row : EngineJob) : Prop :=
  holder.generation < row.generation ∧ inbox.find? (reportId holder) = none ∨
    holder.generation = row.generation ∧
      (row.state = .running ∧ inbox.find? (reportId holder) = none ∨ row.state = .cancelled ∧
        TakenBySweep inbox holder)

structure Executor.Sound (s : Executor β) : Prop where
  holder : ∀ holder ∈ s.holders, ∃ row, s.db.jobs.find? holder.jobId = some row ∧
    row.phase = holder.phase ∧ row.action = holder.action ∧ Awaits s.db.inbox holder row
  events : ∀ jobId generation event,
    s.db.inbox.find? (eventId jobId generation) = some event →
      ∃ row, s.db.jobs.find? jobId = some row ∧ generation ≤ row.generation
  nodup : (s.holders.map fun holder => (holder.jobId, holder.generation)).Nodup

theorem Executor.Sound.init (business : β) : (Executor.init business).Sound where
  holder := by
    intro holder hholder
    cases hholder
  events := by
    intro jobId generation event hevent
    cases hevent
  nodup := List.nodup_nil

structure Unnoticed (row row' : EngineJob) : Prop where
  generation : row'.generation = row.generation
  phase : row'.phase = row.phase
  action : row'.action = row.action
  state : row.state ≠ .pending → row'.state = row.state

theorem Unnoticed.refl (row : EngineJob) : Unnoticed row row := ⟨rfl, rfl, rfl, fun _ => rfl⟩

theorem Unnoticed.cancelRow (now : Int) (row : EngineJob) : Unnoticed row (cancelRow now row) := by
  cases hstate : row.state <;>
    exact ⟨by simp [Engine.cancelRow, hstate, cancelledRow, flaggedRow],
      by simp [Engine.cancelRow, hstate, cancelledRow, flaggedRow],
      by simp [Engine.cancelRow, hstate, cancelledRow, flaggedRow],
      by simp [Engine.cancelRow, hstate, flaggedRow]⟩

theorem JobStep.quiet_change (now : Int) {op : JobOp} (hquiet : op.quiet = true) (jobs : JobTable)
    (row : EngineJob) : Unnoticed row (JobStep.change jobs ⟨now, op⟩ row) := by
  have hchange := JobStep.rowChange jobs ⟨now, op⟩ row
  generalize JobStep.change jobs ⟨now, op⟩ row = row' at hchange
  cases hchange with
  | same => exact .refl row
  | claimed leaseUntil hop | finished finish hop | swept hop => cases hop; cases hquiet
  | renewed leaseUntil _ _ | cleared _ | reset _ _ _ => exact ⟨rfl, rfl, rfl, fun _ => rfl⟩
  | cancelled => exact .cancelRow now row

variable {jobs : JobTable} {row : EngineJob}

theorem JobStep.quiet_row (now : Int) {op : JobOp} (hquiet : op.quiet = true) {k : String}
    (hrow : jobs.find? k = some row) :
    ∃ row', (JobStep.exec jobs ⟨now, op⟩).find? k = some row' ∧ Unnoticed row row' := by
  have hchange := JobStep.quiet_change now hquiet jobs row
  rw [JobStep.find?_exec]
  cases op with
  | insert new =>
    simp only [hrow, Option.getD_some, ite_self]
    exact ⟨row, rfl, .refl row⟩
  | purge before => cases hquiet
  | _ =>
    simp only [hrow, Option.map_some]
    exact ⟨_, rfl, hchange⟩

variable {now : Int}

theorem InboxStep.keepsRows {op : InboxOp} (hkeeps : op.keepsRows = true) (inbox : Inbox)
    (k : String) : (inbox.find? k = none → (InboxStep.exec inbox ⟨now, op⟩).find? k = none) ∧
      ∀ event, inbox.find? k = some event →
        ∃ event', (InboxStep.exec inbox ⟨now, op⟩).find? k = some event' ∧
          ∀ payload, event'.payload = some payload → event.payload = some payload := by
  constructor
  · intro hnone
    cases hafter : (InboxStep.exec inbox ⟨now, op⟩).find? k with
    | none => rfl
    | some event =>
      obtain ⟨new, hop, -⟩ := InboxStep.row_appears _ hnone hafter
      cases hop
      cases hkeeps
  · intro event hevent
    have hchange := InboxStep.rowChange ⟨now, op⟩ hevent
    generalize (InboxStep.exec inbox ⟨now, op⟩).find? k = after at hchange
    cases hchange with
    | rearmed new hop => cases hop; cases hkeeps
    | purged before hop => rcases hop with hop | hop <;> (cases hop; cases hkeeps)
    | applied hop hstate =>
      refine ⟨_, rfl, ?_⟩
      intro payload hpayload
      cases hpayload
    | _ => exact ⟨_, rfl, fun _ h => h⟩

variable {s : Executor β}

theorem Executor.Sound.of_unnoticed {s' : Executor β} (hs : s.Sound)
    (hholders : s'.holders.Sublist s.holders)
    (hrows : ∀ k row, s.db.jobs.find? k = some row → ∃ row', s'.db.jobs.find? k = some row' ∧
      Unnoticed row row')
    (hnone : ∀ k, s.db.inbox.find? k = none → s'.db.inbox.find? k = none)
    (hsome : ∀ k event, s.db.inbox.find? k = some event →
      ∃ event', s'.db.inbox.find? k = some event' ∧
      ∀ payload, event'.payload = some payload → event.payload = some payload) : s'.Sound where
  holder := by
    intro holder hholder
    obtain ⟨row, hrow, hphase, haction, hawaits⟩ := hs.holder holder (hholders.subset hholder)
    obtain ⟨row', hrow', hun⟩ := hrows _ row hrow
    refine ⟨row', hrow', hun.phase.trans hphase, hun.action.trans haction, ?_⟩
    rcases hawaits with ⟨hlt, hfree⟩ | ⟨heq, hcurrent⟩
    · left
      rw [hun.generation]
      exact ⟨hlt, hnone _ hfree⟩
    · right
      rw [hun.generation]
      refine ⟨heq, ?_⟩
      rcases hcurrent with ⟨hrunning, hfree⟩ | ⟨hcancelled, event, hevent, hpayload⟩
      · left
        rw [hun.state (by rw [hrunning]; decide)]
        exact ⟨hrunning, hnone _ hfree⟩
      · right
        rw [hun.state (by rw [hcancelled]; decide)]
        obtain ⟨event', hevent', hkept⟩ := hsome _ event hevent
        exact ⟨hcancelled, event', hevent', fun payload h => hpayload payload (hkept payload h)⟩
  events := by
    intro jobId generation event' hevent'
    cases hevent : s.db.inbox.find? (eventId jobId generation) with
    | none =>
      rw [hnone _ hevent] at hevent'
      cases hevent'
    | some event =>
      obtain ⟨row, hrow, hle⟩ := hs.events jobId generation event hevent
      obtain ⟨row', hrow', hun⟩ := hrows _ row hrow
      exact ⟨row', hrow', hun.generation ▸ hle⟩
  nodup := hs.nodup.sublist (hholders.map _)

theorem Executor.Sound.claim (hs : s.Sound) (jobId : String) (now leaseUntil : Int)
    (hclaim : (claimEngineJob s.db.jobs jobId now leaseUntil).2 = some row) :
    (⟨{ s.db with jobs := (claimEngineJob s.db.jobs jobId now leaseUntil).1 },
      s.holders ++ [row]⟩ : Executor β).Sound := by
  obtain ⟨job, hjob, hdue, rfl, hafter⟩ := claimEngineJob_some hclaim
  have hid : job.jobId = jobId := Table.key_of_find? hjob
  subst hid
  have hrow' : ∀ k, k = job.jobId →
      (claimEngineJob s.db.jobs job.jobId now leaseUntil).1.find? k =
        some (claimedRow now leaseUntil job) := by
    intro k hk
    rw [hk]
    exact hafter
  -- nobody has held or reported the new generation
  have hfresh : ∀ holder ∈ s.holders, holder.jobId = job.jobId →
    holder.generation ≤ job.generation := by
    intro holder hholder hsame
    obtain ⟨row, hrow, -, -, hawaits⟩ := hs.holder holder hholder
    rw [hsame, hjob, Option.some.injEq] at hrow
    subst hrow
    rcases hawaits with ⟨hlt, -⟩ | ⟨heq, -⟩ <;> omega
  have hfree : s.db.inbox.find? (eventId job.jobId (job.generation + 1)) = none := by
    cases hevent : s.db.inbox.find? (eventId job.jobId (job.generation + 1)) with
    | none => rfl
    | some event =>
      obtain ⟨row, hrow, hle⟩ := hs.events _ _ event hevent
      rw [hjob, Option.some.injEq] at hrow
      subst hrow
      omega
  refine ⟨?_, ?_, ?_⟩
  · intro holder hholder
    rcases List.mem_append.mp hholder with hholder | hnew
    · obtain ⟨row, hrow, hphase, haction, hawaits⟩ := hs.holder holder hholder
      by_cases hsame : holder.jobId = job.jobId
      · rw [hsame, hjob, Option.some.injEq] at hrow
        subst hrow
        refine ⟨claimedRow now leaseUntil job, hrow' _ hsame, hphase, haction, ?_⟩
        refine .inl ⟨Nat.lt_succ_of_le (hfresh holder hholder hsame), ?_⟩
        -- the job was due, so it was not swept
        rcases hawaits with ⟨-, hfree⟩ | ⟨-, ⟨-, hfree⟩ | ⟨hcancelled, -⟩⟩
        · exact hfree
        · exact hfree
        · rcases hdue with ⟨hpending, -⟩ | ⟨hrunning, -⟩
          · cases hcancelled.symm.trans hpending
          · cases hcancelled.symm.trans hrunning
      · exact ⟨row, (find?_claimEngineJob_of_ne hsame).trans hrow, hphase, haction, hawaits⟩
    · rw [List.mem_singleton] at hnew
      subst hnew
      exact ⟨_, hafter, rfl, rfl, .inr ⟨rfl, .inl ⟨rfl, hfree⟩⟩⟩
  · intro jobId generation event hevent
    obtain ⟨row, hrow, hle⟩ := hs.events jobId generation event hevent
    by_cases hsame : jobId = job.jobId
    · rw [hsame, hjob, Option.some.injEq] at hrow
      subst hrow
      exact ⟨claimedRow now leaseUntil job, hrow' _ hsame, Nat.le_succ_of_le hle⟩
    · exact ⟨row, (find?_claimEngineJob_of_ne hsame).trans hrow, hle⟩
  · rw [List.map_append]
    apply hs.nodup.append (List.nodup_singleton _)
    intro key hkey hnew
    obtain ⟨holder, hholder, rfl⟩ := List.mem_map.mp hkey
    rw [List.mem_singleton, Prod.mk.injEq] at hnew
    have hle := hfresh holder hholder hnew.1
    have hgeneration : holder.generation = job.generation + 1 := hnew.2
    omega

variable (db : Db β)

theorem find?_finishLapsedCancelled_jobs (now : Int) (k : String) :
    (finishLapsedCancelled db now).jobs.find? k =
      (db.jobs.find? k).map fun job => if Lapsed job now then sweptRow now job else job :=
  Table.find?_update (by intro _; rfl) k

theorem payload?_insertSweptEvents (inbox : Inbox) (swept : List EngineJob) (now : Int)
    (k : String) : (insertSweptEvents inbox swept now).payload? k = (inbox.payload? k).or
        ((swept.find? fun job => (sweptEvent job).eventId = k).map fun job =>
          some (sweptEvent job).payload) := by
  unfold insertSweptEvents
  induction swept generalizing inbox with
  | nil => simp
  | cons job swept ih =>
    rw [List.foldl_cons, ih, payload?_insertEngineInboxEvent, List.find?_cons]
    by_cases hk : (sweptEvent job).eventId = k
    · cases hpayload : inbox.payload? k <;> simp [hk]
    · simp [hk, Ne.symm hk]

def sweptPayload (jobs : JobTable) (now : Int) (jobId : String) (generation : Nat) :
    Option (Option Bytes) :=
  match jobs.find? jobId with
  | some row =>
      if Lapsed row now ∧ row.generation = generation then
        some (some (sweptEvent row).payload) else none
  | none => none

theorem payload?_finishLapsedCancelled (now : Int) (jobId : String) (generation : Nat) :
    (finishLapsedCancelled db now).inbox.payload? (eventId jobId generation) =
      (db.inbox.payload? (eventId jobId generation)).or
        (sweptPayload db.jobs now jobId generation) := by
  have hswept : ∀ job ∈ (finishLapsedCancelledEngineJobs db.jobs now).2,
      (sweptEvent job).eventId = eventId jobId generation →
        ∃ row, db.jobs.find? jobId = some row ∧ Lapsed row now ∧ row.generation = generation ∧
          job = sweptRow now row := by
    intro job hjob hid
    obtain ⟨row, hrow, hlapsed, rfl⟩ := Table.mem_returning.mp hjob
    obtain ⟨rfl, rfl⟩ := eventId_inj hid
    exact ⟨row, hrow, hlapsed, rfl, rfl⟩
  change (insertSweptEvents db.inbox (finishLapsedCancelledEngineJobs db.jobs now).2 now).payload?
    _ = _
  rw [payload?_insertSweptEvents]
  congr 1
  cases hfind : (finishLapsedCancelledEngineJobs db.jobs now).2.find? fun job =>
      (sweptEvent job).eventId = eventId jobId generation with
  | none =>
    rw [Option.map_none, sweptPayload]
    cases hrow : db.jobs.find? jobId with
    | none => rfl
    | some row =>
      simp only
      rw [if_neg]
      -- a lapsed row of this generation would be in the list
      rintro ⟨hlapsed, hgeneration⟩
      have hid : row.jobId = jobId := Table.key_of_find? hrow
      have hmem : sweptRow now row ∈ (finishLapsedCancelledEngineJobs db.jobs now).2 :=
        Table.mem_returning.mpr ⟨row, hid.symm ▸ hrow, hlapsed, rfl⟩
      have hmiss := List.find?_eq_none.mp hfind _ hmem
      apply hmiss
      rw [decide_eq_true_eq, ← hid, ← hgeneration]
      rfl
  | some job =>
    obtain ⟨row, hrow, hlapsed, hgeneration, rfl⟩ := hswept job (List.mem_of_find?_eq_some hfind)
      (by simpa using List.find?_some hfind)
    simp only [Option.map_some, sweptPayload, hrow]
    rw [if_pos ⟨hlapsed, hgeneration⟩]
    rfl

theorem sweep_reports (now : Int) {jobId : String} {generation : Nat} {event : EngineInboxEvent}
    (hevent : (finishLapsedCancelled db now).inbox.find? (eventId jobId generation) = some event) :
    (∃ event, db.inbox.find? (eventId jobId generation) = some event) ∨
      ∃ row, (finishLapsedCancelled db now).jobs.find? jobId = some row ∧ Past generation row := by
  cases hbefore : db.inbox.find? (eventId jobId generation) with
  | some event => exact .inl ⟨event, rfl⟩
  | none =>
    right
    have hpayload := payload?_finishLapsedCancelled db now jobId generation
    rw [Inbox.payload?, hevent, Inbox.payload?_eq_none.mpr hbefore, Option.none_or,
      sweptPayload] at hpayload
    cases hrow : db.jobs.find? jobId with
    | none =>
      rw [hrow] at hpayload
      cases hpayload
    | some row =>
      rw [hrow] at hpayload
      dsimp only at hpayload
      split_ifs at hpayload with hswept
      · refine ⟨sweptRow now row, ?_, ?_⟩
        · rw [find?_finishLapsedCancelled_jobs, hrow, Option.map_some, if_pos hswept.1]
        · refine ⟨hswept.2.ge, ?_⟩
          rintro ⟨-, hrunning⟩
          cases hrunning
      · cases hpayload

theorem Executor.Sound.sweep (hs : s.Sound) (now : Int) :
    ({ s with db := finishLapsedCancelled s.db now } : Executor β).Sound := by
  have hfree : ∀ jobId generation row, s.db.jobs.find? jobId = some row →
      s.db.inbox.find? (eventId jobId generation) = none →
      ¬ (Lapsed row now ∧ row.generation = generation) →
      (finishLapsedCancelled s.db now).inbox.find? (eventId jobId generation) = none := by
    intro jobId generation row hrow hnone hmiss
    rw [← Inbox.payload?_eq_none, payload?_finishLapsedCancelled, Inbox.payload?_eq_none.mpr hnone]
    simp only [sweptPayload, hrow, if_neg hmiss]
    rfl
  refine ⟨?_, ?_, hs.nodup⟩
  · intro holder hholder
    obtain ⟨row, hrow, hphase, haction, hawaits⟩ := hs.holder holder hholder
    have hid : row.jobId = holder.jobId := Table.key_of_find? hrow
    have hafter := find?_finishLapsedCancelled_jobs s.db now holder.jobId
    rw [hrow, Option.map_some] at hafter
    refine ⟨_, hafter, ?_, ?_, ?_⟩
    · split_ifs <;> exact hphase
    · split_ifs <;> exact haction
    · rcases hawaits with ⟨hlt, hnone⟩ |
        ⟨heq, ⟨hrunning, hnone⟩ | ⟨hcancelled, event, hevent, hpayload⟩⟩
      · left
        refine ⟨by split_ifs <;> exact hlt, hfree _ _ row hrow hnone ?_⟩
        rintro ⟨-, hgeneration⟩
        omega
      · right
        by_cases hlapsed : Lapsed row now
        · -- the sweep takes the place
          rw [if_pos hlapsed]
          refine ⟨heq, .inr ⟨rfl, ?_⟩⟩
          have hp := payload?_finishLapsedCancelled s.db now holder.jobId holder.generation
          have hswept : sweptPayload s.db.jobs now holder.jobId holder.generation =
              some (some (sweptEvent row).payload) := by
            simp only [sweptPayload, hrow]
            exact if_pos ⟨hlapsed, heq.symm⟩
          have hbefore : s.db.inbox.payload? (eventId holder.jobId holder.generation) =
              none := Inbox.payload?_eq_none.mpr hnone
          rw [hbefore, hswept, Option.none_or, Inbox.payload?, Option.map_eq_some_iff] at hp
          obtain ⟨event, hevent, hpayload⟩ := hp
          refine ⟨event, hevent, ?_⟩
          intro payload h
          rw [hpayload, Option.some.injEq] at h
          rw [← h]
          simp only [sweptEvent, intoNewEvent, completionEvent, hphase, haction, hid, ← heq]
        · rw [if_neg hlapsed]
          exact ⟨heq, .inl ⟨hrunning, hfree _ _ row hrow hnone fun h => hlapsed h.1⟩⟩
      · right
        have hlapsed : ¬ Lapsed row now := by
          intro h
          cases h.1.symm.trans hcancelled
        rw [if_neg hlapsed]
        refine ⟨heq, .inr ⟨hcancelled, ?_⟩⟩
        have hp := payload?_finishLapsedCancelled s.db now holder.jobId holder.generation
        have hbefore : s.db.inbox.payload? (eventId holder.jobId holder.generation) =
            some event.payload := congrArg _ hevent
        rw [hbefore, Option.some_or, Inbox.payload?, Option.map_eq_some_iff] at hp
        obtain ⟨event', hevent', hsame⟩ := hp
        exact ⟨event', hevent', fun payload h => hpayload payload (hsame ▸ h)⟩
  · intro jobId generation event hevent
    rcases sweep_reports s.db now hevent with ⟨event, hbefore⟩ | ⟨row, hrow, hpast⟩
    · obtain ⟨row, hrow, hle⟩ := hs.events jobId generation event hbefore
      have hafter := find?_finishLapsedCancelled_jobs s.db now jobId
      rw [hrow, Option.map_some] at hafter
      refine ⟨_, hafter, ?_⟩
      split_ifs <;> exact hle
    · exact ⟨row, hrow, hpast.1⟩

theorem find?_recordJobFinish_of_ne (job : EngineJob)
    (generation : Nat) (finish : EngineJobFinish) (now : Int) {k : String}
    (hk : k ≠ eventId job.jobId generation) :
    (recordJobFinish config db job generation finish now).inbox.find? k = db.inbox.find? k := by
  dsimp only [recordJobFinish]
  split
  · rw [find?_insertEngineInboxEvent]
    exact if_neg hk
  · rfl

theorem find?_recordJobFinish_jobs (job : EngineJob)
    (generation : Nat) (finish : EngineJobFinish) (now : Int) (k : String) :
    (recordJobFinish config db job generation finish now).jobs.find? k =
      (db.jobs.find? k).map fun row =>
      if HeldBy job.jobId generation row then finishedRow finish now row else row :=
  find?_finishEngineJob db.jobs job.jobId generation finish now k

variable {holder : EngineJob}

theorem complete_reports (holder : EngineJob) (finish : EngineJobFinish)
    (now : Int) (hrow : db.jobs.find? holder.jobId = some row)
    (hle : holder.generation ≤ row.generation) :
    ∃ row', (recordJobFinish config db holder holder.generation finish now).jobs.find?
      holder.jobId =
      some row' ∧ Past holder.generation row' := by
  have hafter := find?_recordJobFinish_jobs config db holder holder.generation finish now
    holder.jobId
  rw [hrow, Option.map_some] at hafter
  refine ⟨_, hafter, ?_⟩
  split_ifs with hheld
  · refine ⟨hle, ?_⟩
    rintro ⟨-, hrunning⟩
    exact finishedRow_not_running finish now row hrunning
  · refine ⟨hle, ?_⟩
    rintro ⟨hgeneration, hrunning⟩
    exact hheld ⟨Table.key_of_find? hrow, hgeneration, hrunning⟩

theorem Executor.Sound.complete (hs : s.Sound) (config : EngineConfig)
    (hholder : holder ∈ s.holders) (finish : EngineJobFinish) (now : Int) :
    (⟨recordJobFinish config s.db holder holder.generation finish now,
      s.holders.erase holder⟩ : Executor β).Sound := by
  have hperm := (List.perm_cons_erase hholder).map fun holder => (holder.jobId, holder.generation)
  have hnodup := hperm.nodup_iff.mp hs.nodup
  have hothers := (List.nodup_cons.mp hnodup).1
  refine ⟨?_, ?_, (List.nodup_cons.mp hnodup).2⟩
  · intro other hother
    have hne : ¬ (other.jobId = holder.jobId ∧ other.generation = holder.generation) := by
      rintro ⟨hid, hgeneration⟩
      exact hothers (List.mem_map.mpr ⟨other, hother, by rw [hid, hgeneration]⟩)
    have hreport : reportId other ≠ reportId holder := by
      intro h
      exact hne (eventId_inj h)
    obtain ⟨row, hrow, hphase, haction, hawaits⟩ := hs.holder other (List.mem_of_mem_erase hother)
    have hafter := find?_recordJobFinish_jobs config s.db holder holder.generation finish
      now other.jobId
    rw [hrow, Option.map_some] at hafter
    have hinbox := find?_recordJobFinish_of_ne config s.db holder holder.generation
      finish now hreport
    refine ⟨_, hafter, ?_, ?_, ?_⟩
    · split_ifs <;> exact hphase
    · split_ifs <;> exact haction
    · unfold Awaits TakenBySweep
      rw [hinbox]
      split_ifs with hheld
      · -- the row is held by the other generation
        rcases hawaits with ⟨hlt, hnone⟩ | ⟨heq, -⟩
        · exact .inl ⟨hlt, hnone⟩
        · refine absurd ⟨?_, heq.trans hheld.2.1⟩ hne
          exact (Table.key_of_find? hrow).symm.trans hheld.1
      · exact hawaits
  · intro jobId generation event hevent
    by_cases hreport : eventId jobId generation = reportId holder
    · obtain ⟨rfl, rfl⟩ := eventId_inj hreport
      obtain ⟨row, hrow, -, -, hawaits⟩ := hs.holder holder hholder
      have hle : holder.generation ≤ row.generation := by
        rcases hawaits with ⟨hlt, -⟩ | ⟨heq, -⟩ <;> omega
      obtain ⟨row', hrow', hpast⟩ := complete_reports config s.db holder finish now hrow hle
      exact ⟨row', hrow', hpast.1⟩
    · have hbefore := find?_recordJobFinish_of_ne config s.db holder holder.generation
        finish now hreport
      obtain ⟨row, hrow, hle⟩ := hs.events jobId generation event (hbefore.symm.trans hevent)
      have hafter := find?_recordJobFinish_jobs config s.db holder holder.generation
        finish now jobId
      rw [hrow, Option.map_some] at hafter
      refine ⟨_, hafter, ?_⟩
      split_ifs <;> exact hle

theorem Executor.Sound.exec (hs : s.Sound) (config : EngineConfig) (step : ExecutorStep) :
    (step.exec config s).Sound := by
  have hunchanged : ∀ k event, s.db.inbox.find? k = some event → ∃ event',
      s.db.inbox.find? k = some event' ∧ ∀ payload, event'.payload = some payload →
        event.payload = some payload :=
    fun k event hevent => ⟨event, hevent, fun _ h => h⟩
  obtain ⟨now, op⟩ := step
  cases op with
  | table op =>
    dsimp only [ExecutorStep.exec]
    split_ifs with hquiet
    · exact hs.of_unnoticed (List.Sublist.refl _)
        (fun k row hrow => JobStep.quiet_row now hquiet hrow) (fun k h => h) hunchanged
    · exact hs
  | claim jobId leaseUntil =>
    dsimp only [ExecutorStep.exec]
    cases hclaim : (claimEngineJob s.db.jobs jobId now leaseUntil).2 with
    | none =>
      rw [Option.toList_none, List.append_nil]
      refine hs.of_unnoticed (List.Sublist.refl _) ?_ (fun k h => h) hunchanged
      intro k row hrow
      exact ⟨row, (find?_claimEngineJob_of_none hclaim k).trans hrow, .refl row⟩
    | some row => exact hs.claim jobId now leaseUntil hclaim
  | sweep => exact hs.sweep now
  | complete holder finish =>
    dsimp only [ExecutorStep.exec]
    split_ifs with hholder
    · exact hs.complete config hholder finish now
    · exact hs
  | restart =>
    refine hs.of_unnoticed (List.nil_sublist _) ?_ (fun k h => h) hunchanged
    intro k row hrow
    exact JobStep.quiet_row now (show JobOp.reset.quiet = true from rfl) hrow
  | inbox op =>
    dsimp only [ExecutorStep.exec]
    split_ifs with hkeeps
    · exact hs.of_unnoticed (List.Sublist.refl _) (fun k row hrow => ⟨row, hrow, .refl row⟩)
        (fun k => (InboxStep.keepsRows hkeeps _ k).1) (fun k => (InboxStep.keepsRows hkeeps _ k).2)
    · exact hs

theorem Executor.Sound.run (hs : s.Sound) (config : EngineConfig)
    (steps : List ExecutorStep) : (runExecutor config s steps).Sound := by
  induction steps generalizing s with
  | nil => exact hs
  | cons step steps ih => exact ih (hs.exec config step)

/-- Every job of a batch becomes a holder of its own. -/
theorem claimDueEngineJobs_eq_runExecutor (config : EngineConfig) (s : Executor β) (pool : JobPool)
    (now leaseUntil : Int) (limit : Nat) :
    let batch := claimDueEngineJobs s.db.jobs s.db.poisons pool now leaseUntil limit
    (⟨{ s.db with jobs := batch.1 }, s.holders ++ batch.2⟩ : Executor β) = runExecutor config s
      ((claimCandidates s.db.jobs s.db.poisons pool now limit).map fun jobId =>
        ⟨now, .claim jobId leaseUntil⟩) := by
  let holding (batch : JobTable × List EngineJob) : Executor β :=
    ⟨{ s.db with jobs := batch.1 }, s.holders ++ batch.2⟩
  have hstart : holding (s.db.jobs, []) = s := congrArg (Executor.mk s.db) (List.append_nil _)
  have hstep (batch : JobTable × List EngineJob) (jobId : String) :
      ExecutorStep.exec config (holding batch) ⟨now, .claim jobId leaseUntil⟩ =
        holding ((claimEngineJob batch.1 jobId now leaseUntil).1,
          batch.2 ++ (claimEngineJob batch.1 jobId now leaseUntil).2.toList) :=
    congrArg (Executor.mk _) (List.append_assoc _ _ _)
  have hrun := @List.foldl_hom _ _ _ holding _
    (fun s jobId => ExecutorStep.exec config s ⟨now, .claim jobId leaseUntil⟩)
    (claimCandidates s.db.jobs s.db.poisons pool now limit) (s.db.jobs, []) hstep
  rw [hstart] at hrun
  rw [runExecutor, List.foldl_map, hrun]
  rfl

theorem Executor.Sound.claimDueEngineJobs (hs : s.Sound) (pool : JobPool) (now leaseUntil : Int)
    (limit : Nat) :
    let batch := claimDueEngineJobs s.db.jobs s.db.poisons pool now leaseUntil limit
    (⟨{ s.db with jobs := batch.1 }, s.holders ++ batch.2⟩ : Executor β).Sound := by
  intro batch
  rw [claimDueEngineJobs_eq_runExecutor .default]
  exact hs.run .default _

def EngineJobFinish.outcome : EngineJobFinish → Option JobResultOutcome
  | .done result => some (.done result)
  | .failed error => some (.failed error)
  | .poisoned error => some (.poisoned error)
  | .retry _ _ => none

def EngineJobFinish.isDone : EngineJobFinish → Bool
  | .done _ => true
  | .failed _ | .poisoned _ | .retry _ _ => false

def stillHeld (jobs : JobTable) (holder : EngineJob) : Bool :=
  (jobs.find? holder.jobId).any fun row => HeldBy holder.jobId holder.generation row

def Recorded (inbox : Inbox) (holder : EngineJob) (stale : Bool) (outcome : JobResultOutcome) :
    Prop :=
  ∃ event, inbox.find? (reportId holder) = some event ∧ event.state = .pending ∧
    event.kind = jobResultKind ∧ event.aggregate = holder.aggregate ∧
    event.payload = some (utf8 (completionEvent holder stale outcome).toJson)

theorem completionEvent_eventId (holder : EngineJob) (stale : Bool) (outcome : JobResultOutcome) :
    ((completionEvent holder stale outcome).intoNewEvent holder.aggregate).eventId =
      reportId holder :=
  rfl

theorem recorded_insert (inbox : Inbox) (holder : EngineJob) (stale : Bool)
    (outcome : JobResultOutcome) (now : Int) (hfree : inbox.find? (reportId holder) = none) :
    Recorded (insertEngineInboxEvent inbox
      ((completionEvent holder stale outcome).intoNewEvent holder.aggregate) now).1 holder stale
        outcome := by
  refine ⟨newInboxRow (inbox.lastSeq + 1)
    ((completionEvent holder stale outcome).intoNewEvent holder.aggregate) now, ?_, rfl,
    rfl, rfl, rfl⟩
  rw [find?_insertEngineInboxEvent, completionEvent_eventId, if_pos rfl, hfree]

theorem not_recorded_insert {inbox : Inbox} (payload : Option Bytes) (event : NewEngineInboxEvent)
    (stale : Bool) (outcome : JobResultOutcome) (now : Int)
    (hpayload : (insertEngineInboxEvent inbox event now).1.payload? (reportId holder) =
      some payload)
    (hne : payload ≠ some (utf8 (completionEvent holder stale outcome).toJson)) :
    ¬ Recorded (insertEngineInboxEvent inbox event now).1 holder stale outcome := by
  rintro ⟨row, hrow, -, -, -, hrecorded⟩
  rw [Inbox.payload?, hrow, Option.map_some, Option.some.injEq] at hpayload
  exact hne (hpayload.symm.trans hrecorded)

theorem completion_payload_ne (holder : EngineJob) {stale stale' : Bool}
    {outcome outcome' : JobResultOutcome}
    (h : stale ≠ stale' ∨ stale = stale' ∧ outcome = .cancelled ∧ outcome' ≠ .cancelled) :
    utf8 (completionEvent holder stale outcome).toJson ≠
      utf8 (completionEvent holder stale' outcome').toJson := by
  have hhead : (completionEvent holder stale outcome).jsonHead =
      (completionEvent holder stale' outcome').jsonHead := rfl
  exact payload_ne hhead h

variable {finish : EngineJobFinish}

theorem recordJobFinish_inbox {db : Db β} {stale : Bool} {outcome : JobResultOutcome}
    (h : reportedOutcome (finishEngineJob db.jobs holder.jobId holder.generation finish now).2
      finish =
      some (stale, outcome)) :
    (recordJobFinish config db holder holder.generation finish now).inbox =
        (insertEngineInboxEvent db.inbox
        ((completionEvent holder stale outcome).intoNewEvent holder.aggregate) now).1 := by
  unfold recordJobFinish
  simp only [h]
  rfl

theorem reportedOutcome_applied {outcome : JobResultOutcome} (h : finish.outcome = some outcome)
    (cancelRequested : Bool) :
    reportedOutcome (.applied (finishValues cancelRequested finish).1) finish =
      some (false, if cancelRequested = true ∧ finish.isDone = true then .cancelled
        else outcome) := by
  cases finish <;> cases h <;> cases cancelRequested <;>
    simp [finishValues, reportedOutcome, EngineJobFinish.isDone]

/-- For every interleaving: the completion of a holder with a result, a failure or a panic leaves
its own report in the inbox, marked stale if the holder was fenced, exactly if the job was not swept
in the holder's generation, and if it is not a result that comes after a cancel. -/
theorem job_result_recorded_iff (config : EngineConfig) (business : β) (steps : List ExecutorStep)
    (holder : EngineJob) (finish : EngineJobFinish) (outcome : JobResultOutcome) (now : Int)
    (hholder : holder ∈ (runExecutor config (.init business) steps).holders)
    (houtcome : finish.outcome = some outcome) :
    Recorded (runExecutor config (.init business)
        (steps ++ [⟨now, .complete holder finish⟩])).db.inbox
        holder (!stillHeld (runExecutor config (.init business) steps).db.jobs holder) outcome ↔
      ∀ row, (runExecutor config (.init business) steps).db.jobs.find? holder.jobId = some row →
        row.generation = holder.generation →
        row.state ≠ .cancelled ∧ ¬ (row.cancelRequested = true ∧ finish.isDone = true) := by
  have hs := (Executor.Sound.init business).run config steps
  have hafter : runExecutor config (.init business) (steps ++ [⟨now, .complete holder finish⟩]) =
      ⟨recordJobFinish config (runExecutor config (.init business) steps).db holder
        holder.generation finish now,
        (runExecutor config (.init business) steps).holders.erase holder⟩ := by
    unfold runExecutor at hholder ⊢
    rw [List.foldl_append, List.foldl_cons, List.foldl_nil, ExecutorStep.exec]
    exact if_pos hholder
  rw [hafter]
  generalize runExecutor config (.init business) steps = s at hs hholder
  obtain ⟨row, hrow, hphase, haction, hawaits⟩ := hs.holder holder hholder
  have hid : row.jobId = holder.jobId := Table.key_of_find? hrow
  have hheld : stillHeld s.db.jobs holder = decide (HeldBy holder.jobId holder.generation row) := by
    simp only [stillHeld, hrow, Option.any_some]
  simp only [hheld, hrow, Option.some.injEq, forall_eq']
  have hfence (hfenced : row.generation ≠ holder.generation ∨ row.state ≠ .running) :
      decide (HeldBy holder.jobId holder.generation row) = false ∧
        reportedOutcome (finishEngineJob s.db.jobs holder.jobId holder.generation finish now).2
          finish =
          some (true, outcome) := by
    refine ⟨decide_eq_false fun hheld => hfenced.elim (· hheld.2.1) (· hheld.2.2), ?_⟩
    simp only [finishEngineJob, hrow, if_pos hfenced]
    cases finish <;> cases houtcome <;> rfl
  rcases hawaits with ⟨hlt, hfree⟩ |
    ⟨heq, ⟨hrunning, hfree⟩ | ⟨hcancelled, event, hevent, hpayload⟩⟩
  · -- fenced by a later generation
    obtain ⟨hstale, hreport⟩ := hfence (.inl (by omega))
    rw [recordJobFinish_inbox config hreport, hstale]
    constructor
    · intro _ hgeneration
      omega
    · intro _
      exact recorded_insert _ _ _ _ _ hfree
  · -- the current holder
    have happlied := finishEngineJob_of_held finish now hrow heq.symm hrunning
    have hreport := reportedOutcome_applied houtcome row.cancelRequested
    rw [← happlied] at hreport
    have hnotStale : decide (HeldBy holder.jobId holder.generation row) = true :=
      decide_eq_true ⟨hid, heq.symm, hrunning⟩
    rw [recordJobFinish_inbox config hreport, hnotStale, Bool.not_true]
    by_cases hlate : row.cancelRequested = true ∧ finish.isDone = true
    · constructor
      · intro hrecorded
        refine absurd hrecorded (not_recorded_insert
          (some (utf8 (completionEvent holder false .cancelled).toJson)) _ _ _ _ ?_ ?_)
        · rw [payload?_insertEngineInboxEvent, completionEvent_eventId, if_pos rfl,
            Inbox.payload?_eq_none.mpr hfree, Option.getD_none, if_pos hlate]
          rfl
        · rw [ne_eq, Option.some.injEq]
          apply completion_payload_ne
          right
          refine ⟨rfl, rfl, ?_⟩
          intro hcancelled
          cases finish <;> cases houtcome <;> cases hcancelled
      · intro h
        exact absurd hlate (h heq.symm).2
    · rw [if_neg hlate]
      constructor
      · intro _ _
        refine ⟨?_, hlate⟩
        rw [hrunning]
        decide
      · intro _
        exact recorded_insert _ _ _ _ _ hfree
  · -- the sweep has reported the cancel under the same id
    obtain ⟨hstale, hreport⟩ := hfence (.inr (by rw [hcancelled]; decide))
    rw [recordJobFinish_inbox config hreport, hstale, Bool.not_false]
    constructor
    · intro hrecorded
      refine absurd hrecorded (not_recorded_insert event.payload _ _ _ _ ?_ ?_)
      · rw [payload?_insertEngineInboxEvent, completionEvent_eventId, if_pos rfl,
          Inbox.payload?, hevent]
        rfl
      · intro hsame
        have hswept := hpayload _ hsame
        exact completion_payload_ne holder (.inl (by decide)) hswept
    · intro h
      exact absurd hcancelled (h heq.symm).1

namespace Example

def cancelledRun : List ExecutorStep :=
  [⟨0, .table (.insert (newJob "a"))⟩, ⟨1, .claim "a" 10⟩, ⟨5, .table (.cancel "a")⟩]

def takenOverRun : List ExecutorStep :=
  [⟨0, .table (.insert (newJob "a"))⟩, ⟨1, .claim "a" 10⟩, ⟨11, .claim "a" 20⟩]

def firstHolder : EngineJob := claimedRow 1 10 (newJobRow (newJob "a") 0)

end Example

section

open Example

theorem job_result_recorded_taken_over :
    firstHolder ∈ (runExecutor .default (.init ()) takenOverRun).holders ∧
      Recorded (runExecutor .default (.init ())
        (takenOverRun ++ [⟨12, .complete firstHolder (.done [7])⟩])).db.inbox firstHolder true
          (.done [7]) := by
  have hholder : firstHolder ∈ (runExecutor .default (.init ()) takenOverRun).holders := by
    decide +kernel
  refine ⟨hholder, ?_⟩
  have hrecorded := (job_result_recorded_iff .default () takenOverRun firstHolder (.done [7])
    (.done [7]) 12 hholder rfl).mpr
  have hheld : stillHeld (runExecutor .default (.init ()) takenOverRun).db.jobs firstHolder =
    false := by
    decide +kernel
  apply hrecorded
  intro row hrow hgeneration
  have hcurrent : (runExecutor .default (.init ()) takenOverRun).db.jobs.find? "a" =
      some (claimedRow 11 20 firstHolder) := by decide +kernel
  rw [show firstHolder.jobId = "a" from rfl, hcurrent, Option.some.injEq] at hrow
  subst hrow
  cases hgeneration

/-- The lease lapses after the cancel and the sweep reports the cancel.  The holder comes back with
a result, which is ignored as a duplicate: under its id the inbox has the event of the sweep. -/
theorem job_result_lost_to_sweep :
    firstHolder ∈ (runExecutor .default (.init ()) (cancelledRun ++ [⟨11, .sweep⟩])).holders ∧
      ∀ stale, ¬ Recorded (runExecutor .default (.init ()) (cancelledRun ++
        [⟨11, .sweep⟩, ⟨12, .complete firstHolder (.done [7])⟩])).db.inbox firstHolder stale
          (.done [7]) := by
  refine ⟨by decide +kernel, ?_⟩
  rintro stale ⟨event, hevent, -, -, -, hpayload⟩
  have hswept : (runExecutor .default (.init ()) (cancelledRun ++
      [⟨11, .sweep⟩, ⟨12, .complete firstHolder (.done [7])⟩])).db.inbox.find?
        (reportId firstHolder) =
        some (newInboxRow 1 (sweptEvent firstHolder) 11) := by decide +kernel
  rw [hswept, Option.some.injEq] at hevent
  subst hevent
  have hsame : utf8 (completionEvent firstHolder false .cancelled).toJson =
      utf8 (completionEvent firstHolder stale (.done [7])).toJson := Option.some.inj hpayload
  cases stale with
  | false => exact completion_payload_ne firstHolder (.inr ⟨rfl, rfl, by decide⟩) hsame
  | true => exact completion_payload_ne firstHolder (.inl (by decide)) hsame

end

end BitvmNode.Engine
