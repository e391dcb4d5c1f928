import BitvmNode.Reasoning.Encodings
import BitvmNode.Engine.Worker

/-!
# Collecting effects

What a handler calls to collect its effects, and what their commit leaves open in the outbox: the
messages are inserted first, under ids that may be known already, and the closes come after all of
them.
-/

namespace BitvmNode.Engine

open Reasoning

variable {β : Type}

def stableJobId (sha256 : Bytes → Bytes) (aggregate : AggregateRef) (phase action : String)
    (params : Bytes) : String :=
  hexEncode (sha256 (utf8 aggregate.kind ++ utf8 ":" ++ utf8 aggregate.id ++ utf8 ":" ++
      utf8 phase ++
    utf8 ":" ++ utf8 action ++ utf8 ":" ++ sha256 params))

namespace JobSpec

def new (sha256 : Bytes → Bytes) (aggregate : AggregateRef) (phase action : String) (pool : JobPool)
    (params : Bytes) : JobSpec where
  jobId := stableJobId sha256 aggregate phase action params
  phase := phase
  action := action
  pool := pool
  params := params
  deadlineAt := none
  runAfter := none

def withRunAfter (job : JobSpec) (runAfter : Int) : JobSpec :=
    { job with runAfter := some runAfter }

end JobSpec

namespace Effects

variable (effects : Effects)

def send (message : OutboxMessage) : Effects :=
  { effects with outbox := effects.outbox ++ [message] }

def closeOutbox (target : EngineOutboxCloseTarget) (reason : String) : Effects :=
  { effects with outboxCloses := effects.outboxCloses ++ [(target, reason)] }

def enqueueJob (job : JobSpec) : Effects := { effects with jobs := effects.jobs ++ [job] }

def cancelJob (jobId : String) : Effects :=
  { effects with jobCancels := effects.jobCancels ++ [.job jobId] }

def wake (wakeRef : String) : Effects :=
  { effects with wakeRefs := effects.wakeRefs ++ [wakeRef] }

end Effects

theorem HandlerRun.exec_outbox (run : HandlerRun β) (now : Int) (db : Db β) :
    (run.exec now db).outbox = db.outbox := by
  change (run.writes.foldl (HandlerWrite.exec now) db).outbox = db.outbox
  induction run.writes generalizing db with
  | nil => rfl
  | cons write writes ih =>
    rw [List.foldl_cons, ih]
    cases write <;> rfl

theorem HandlerRun.exec_aggregates (run : HandlerRun β) (now : Int) (db : Db β) :
    (run.exec now db).aggregates = db.aggregates := by
  change (run.writes.foldl (HandlerWrite.exec now) db).aggregates = db.aggregates
  induction run.writes generalizing db with
  | nil => rfl
  | cons write writes ih =>
    rw [List.foldl_cons, ih]
    cases write <;> rfl

theorem find?_upsertEngineAggregate (aggregates : AggregateTable) (aggregate : AggregateRef)
    (update : EngineAggregateUpdate) (now : Int) (other : AggregateRef) :
    (upsertEngineAggregate aggregates aggregate update now).1.find? other =
      if other = aggregate then
        some (update.set now ((aggregates.find? other).getD (newAggregateRow aggregate now)))
      else aggregates.find? other :=
  Table.find?_upsert aggregates (newAggregateRow aggregate now) (update.set now)
    (fun _ => rfl) other

theorem commitApply_eq_some (config : EngineConfig) (db : Db β) (event : EngineInboxEvent)
    (current : Option EngineAggregate) (effects : Effects) (waiting : Option WaitingFor)
    (now : Int) :
    ∃ db' post, commitApply config db event current effects waiting now = some (db', post) ∧
      db'.business = db.business ∧
      db'.outbox = closeOutboxes (insertOutboxMessages db.outbox event.aggregate effects.outbox now)
        effects.outboxCloses now ∧
      (∀ other, other ≠ event.aggregate → db'.aggregates.find? other = db.aggregates.find? other) ∧
      ∃ row, db'.aggregates.find? event.aggregate = some row ∧
        ∀ status, effects.status = some status → row.status = status := by
  let update : EngineAggregateUpdate :=
    { status := effects.status
      phase := effects.phase
      state := effects.state
      lastEventId := some event.eventId }
  have hfind := find?_upsertEngineAggregate db.aggregates event.aggregate update now
  have hrow := hfind event.aggregate
  rw [if_pos rfl] at hrow
  dsimp only [commitApply]
  rw [show (upsertEngineAggregate db.aggregates event.aggregate update now).2 = _ from hrow]
  refine ⟨_, _, rfl, rfl, rfl, ?_, _, hrow, ?_⟩
  · intro other hne
    exact (hfind other).trans (if_neg hne)
  · intro status hstatus
    exact congrArg (Option.getD · _) hstatus

def ApplyResult.commits : ApplyResult → Bool
  | .applied | .waiting _ => true
  | _ => false

theorem processEvent_of_commits {run : HandlerRun β} (h : run.result.commits = true)
    (config : EngineConfig) (db : Db β) (event : EngineInboxEvent) (now later : Int) :
    ∃ db', (processEvent config db event (some run) now later).1 = db' ∧
      db'.business = run.business ∧
      db'.outbox = closeOutboxes
        (insertOutboxMessages db.outbox event.aggregate run.effects.outbox now)
        run.effects.outboxCloses now ∧
      (∀ other, other ≠ event.aggregate → db'.aggregates.find? other = db.aggregates.find? other) ∧
      ∃ row, db'.aggregates.find? event.aggregate = some row ∧
        ∀ status, run.effects.status = some status → row.status = status := by
  have hcommit (waiting : Option WaitingFor) :=
    commitApply_eq_some config (run.exec now db) event (db.aggregates.find? event.aggregate)
      run.effects waiting now
  simp only [HandlerRun.exec_outbox, HandlerRun.exec_aggregates] at hcommit
  dsimp only [processEvent]
  cases hresult : run.result with
  | applied =>
    obtain ⟨db', post, hsome, hbusiness, hrest⟩ := hcommit none
    rw [hsome]
    exact ⟨db', rfl, hbusiness, hrest⟩
  | waiting waiting =>
    obtain ⟨db', post, hsome, hbusiness, hrest⟩ := hcommit (some waiting)
    dsimp only
    rw [hsome]
    exact ⟨db', rfl, hbusiness, hrest⟩
  | _ => rw [hresult] at h; cases h

end BitvmNode.Engine
