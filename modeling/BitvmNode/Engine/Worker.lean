import BitvmNode.Engine.Executor

/-!
# Aggregate workers

A shard has one worker.  It reads the oldest runnable event of the shard, runs the handler in one
transaction, and either commits everything or rolls back and marks the event.
-/

namespace BitvmNode.Engine

open Reasoning

variable {β : Type}

structure OutboxMessage where
  (outboxId phaseRef kind topic : String)
  payload : Bytes
  ackSet : Option AckSet

structure JobSpec where
  (jobId phase action : String)
  pool : JobPool
  params : Bytes
  (deadlineAt runAfter : Option Int)
  deriving DecidableEq

inductive JobCancel where
  | job (jobId : String)
  | phase (phase : String)
  | aggregate (aggregate : AggregateRef)
  | aggregatePhase (aggregate : AggregateRef) (phase : String)

structure Effects where
  (status phase : Option String)
  state : Option (Option String)
  outbox : List OutboxMessage
  outboxCloses : List (EngineOutboxCloseTarget × String)
  jobs : List JobSpec
  jobCancels : List JobCancel
  wakeRefs : List String
  acks : List EngineAckTarget

def Effects.default : Effects where
  status := none
  phase := none
  state := none
  outbox := []
  outboxCloses := []
  jobs := []
  jobCancels := []
  wakeRefs := []
  acks := []

structure WaitingFor where
  (wakeRef detail : String)

/-- How the handler ended: with an outcome, with an error (as the messages of its chain), by the
timeout or in a panic. -/
inductive ApplyResult where
  | applied
  | waiting (waiting : WaitingFor)
  | rejected (reason : String)
  | transient (error : List String)
  | invariant (error : String)
  | timedOut
  | panicked (message : String)

inductive HandlerWrite where
  | recordEvent (event : NewEngineInboxEvent) (now : Int)
  | clearJobResult (jobId : String)

/-- One run of a handler inside its transaction: the business tables as it leaves them, its writes
to the engine tables in order, the effects it has collected and how it ended. -/
structure HandlerRun (β : Type) where
  business : β
  writes : List HandlerWrite
  effects : Effects
  result : ApplyResult

def HandlerWrite.exec (now : Int) (db : Db β) : HandlerWrite → Db β
  | .recordEvent event at_ => { db with inbox := (insertEngineInboxEvent db.inbox event at_).1 }
  | .clearJobResult jobId => { db with jobs := clearEngineJobResult db.jobs jobId now }

def HandlerRun.exec (run : HandlerRun β) (now : Int) (db : Db β) : Db β :=
  { run.writes.foldl (HandlerWrite.exec now) db with business := run.business }

def AggregateRef.wakeRef (aggregate : AggregateRef) : String := s!"{aggregate.kind}:{aggregate.id}"

def insertOutboxMessages (outbox : OutboxTable) (aggregate : AggregateRef)
    (messages : List OutboxMessage) (now : Int) : OutboxTable :=
  messages.foldl (fun outbox message =>
      (insertEngineOutboxMessage outbox
        { outboxId := message.outboxId
          aggregate := aggregate
          phaseRef := message.phaseRef
          kind := message.kind
          topic := message.topic
          payload := message.payload
          ackSet := message.ackSet
          firstAt := now } now).1)
    outbox

def closeOutboxes (outbox : OutboxTable) (closes : List (EngineOutboxCloseTarget × String))
    (now : Int) : OutboxTable :=
  closes.foldl (fun outbox (target, reason) => closeEngineOutbox outbox target reason now) outbox

def JobSpec.toNew (job : JobSpec) (aggregate : AggregateRef) (now : Int) : NewEngineJob where
  jobId := job.jobId
  aggregate := aggregate
  phase := job.phase
  action := job.action
  pool := job.pool
  params := job.params
  deadlineAt := job.deadlineAt
  firstAt := max (job.runAfter.getD now) now

def insertJobs (jobs : JobTable) (aggregate : AggregateRef) (specs : List JobSpec) (now : Int) :
    JobTable :=
  specs.foldl (fun jobs spec => (insertEngineJob jobs (spec.toNew aggregate now) now).1) jobs

def cancelJobs (jobs : JobTable) (aggregate : AggregateRef) (cancels : List JobCancel) (now : Int) :
    JobTable :=
  cancels.foldl (fun jobs cancel =>
      match cancel with
      | .job jobId => (cancelEngineJob jobs jobId now).1
      | .phase phase => (cancelEngineJobsForPhase jobs aggregate phase now).1
      | .aggregate other => (cancelEngineJobsForAggregate jobs other now).1
      | .aggregatePhase other phase => (cancelEngineJobsForPhase jobs other phase now).1)
    jobs

structure PostCommit where
  acks : List EngineAckTarget
  (woke outbox jobs : Bool)

def commitWakeRefs (aggregate : AggregateRef) (current : Option EngineAggregate)
    (updated : EngineAggregate) (effects : Effects) : List String :=
  let changed : Bool :=
    match current with
    | some current => current.status ≠ updated.status ∨ current.phase ≠ updated.phase
    | none => true
  if changed then effects.wakeRefs ++ [aggregate.wakeRef] else effects.wakeRefs

/-- The effects and the mark of the event, in the transaction of the handler.  The mark is not
checked: an event that is no longer pending is only logged. -/
def commitApply (config : EngineConfig) (db : Db β) (event : EngineInboxEvent)
    (current : Option EngineAggregate) (effects : Effects) (waiting : Option WaitingFor)
    (now : Int) :
    Option (Db β × PostCommit) := do
  let aggregate := event.aggregate
  let outbox := insertOutboxMessages db.outbox aggregate effects.outbox now
  let outbox := closeOutboxes outbox effects.outboxCloses now
  let jobs := insertJobs db.jobs aggregate effects.jobs now
  let jobs := cancelJobs jobs aggregate effects.jobCancels now
  let poisons := releaseEnginePoison db.poisons aggregate event.kind
  let update : EngineAggregateUpdate :=
    { status := effects.status
      phase := effects.phase
      state := effects.state
      lastEventId := some event.eventId }
  let (aggregates, updated) := upsertEngineAggregate db.aggregates aggregate update now
  let updated ← updated
  let wakeRefs := commitWakeRefs aggregate current updated effects
  let (inbox, woke) :=
    if wakeRefs.isEmpty then (db.inbox, 0) else wakeEngineInboxWaiting db.inbox wakeRefs now
  let (inbox, _marked) :=
    match waiting with
    | none => markEngineInboxApplied inbox event.eventId now
    | some waiting =>
        markEngineInboxWaiting inbox event.eventId waiting.wakeRef waiting.detail
          (now + config.waitingRecheckSecs) now
  return ({ db with inbox, aggregates, poisons, outbox, jobs },
    { acks := effects.acks ++ event.ackTarget.toList
      woke := 0 < woke
      outbox := !effects.outbox.isEmpty
      jobs := !effects.jobs.isEmpty })

/-- Where a worker is: it holds an event that it has read, or it still has to record how an attempt
has ended after the rollback. -/
inductive WorkerState where
  | idle
  | holding (event : EngineInboxEvent)
  | rejecting (event : EngineInboxEvent) (reason : String)
  | releasing (event : EngineInboxEvent)
  | retrying (event : EngineInboxEvent) (error : String) (nextAt : Int)
  | poisoning (event : EngineInboxEvent) (reason : String)
  deriving DecidableEq

def isBusyError (chain : List String) : Bool :=
  chain.any fun message =>
    let message := String.ofList (message.toList.map Char.toLower)
    mentions message "database is locked" || mentions message "database is busy" ||
      mentions message "sqlite_busy"

def retryDelay (config : EngineConfig) (event : EngineInboxEvent) (chain : List String) : Int :=
  if isBusyError chain then 1 else config.inboxRetryBackoff.delay (event.attempts + 1)

/-- A held event is run.  A commit changes the database; every other end leaves it as it was before
the attempt, and what has to be recorded is left to `settle`. -/
def processEvent (config : EngineConfig) (db : Db β) (event : EngineInboxEvent)
    (run : Option (HandlerRun β)) (now later : Int) : Db β × WorkerState :=
  match run with
  | none =>
      let reason := s!"no handler for aggregate kind {event.aggregate.kind}"
      ({ db with inbox := (markEngineInboxFailed db.inbox event.eventId reason now).1 }, .idle)
  | some run =>
      let current := db.aggregates.find? event.aggregate
      let commit (waiting : Option WaitingFor) : Db β × WorkerState :=
        match commitApply config (run.exec now db) event current run.effects waiting now with
        | some (db, _) => (db, .idle)
        | none => (db, .idle)
      match run.result with
      | .applied => commit none
      | .waiting waiting => commit (some waiting)
      | .rejected reason => (db, .rejecting event reason)
      | .transient chain =>
          (db, .retrying event (chain.headD "") (later + retryDelay config event chain))
      | .invariant error => (db, .poisoning event s!"invariant violated: {error}")
      | .timedOut =>
          (db, .retrying event s!"apply timed out after {config.applyTimeoutSecs}s"
            (later + config.inboxRetryBackoff.delay (event.attempts + 1)))
      | .panicked message => (db, .poisoning event s!"panic: {message}")

def settle (config : EngineConfig) (db : Db β) (worker : WorkerState) (now : Int) :
    Db β × WorkerState :=
  match worker with
  | .rejecting event reason =>
      ({ db with inbox := (markEngineInboxFailed db.inbox event.eventId reason now).1 },
        .releasing event)
  | .releasing event =>
      ({ db with poisons := releaseEnginePoison db.poisons event.aggregate event.kind }, .idle)
  | .retrying event error nextAt =>
      ({ db with inbox := (markEngineInboxRetry db.inbox event.eventId error nextAt now).1 }, .idle)
  | .poisoning event reason =>
      ({ db with
          inbox := (markEngineInboxPoisoned db.inbox event.eventId reason now).1
          poisons := markEngineAggregatePoisoned db.poisons event.aggregate event.kind reason now
            config.poisonBackoff },
        .idle)
  | .idle | .holding _ => (db, worker)

end BitvmNode.Engine
