import BitvmNode.Engine.Worker

/-!
# Runs of the engine

All tasks of the engine over one database, in any order: producers, shard workers, publisher,
executor, timers, the operator, and restarts.  Every step is one statement or one transaction.
-/

namespace BitvmNode.Engine

open Reasoning

variable {β : Type}

structure Node (β : Type) where
  db : Db β
  shardCount : Nat
  workers : Nat → WorkerState

def Node.init (business : β) (shardCount : Nat) : Node β :=
  ⟨.empty business, shardCount, fun _ => .idle⟩

def Node.setWorker (node : Node β) (shard : Nat) (worker : WorkerState) : Nat → WorkerState :=
  fun other => if other = shard then worker else node.workers other

inductive OutboxOp where
  | claim (outboxId : String) (leaseUntil : Int)
  | publish (outboxId : String) (nextAt : Int)
  | publishFailure (outboxId error : String) (nextAt : Int)
  | acknowledge (peer deliveryId : String)
  | reset
  | purge (before : Int)

def OutboxOp.exec (now : Int) (outbox : OutboxTable) : OutboxOp → OutboxTable
  | .claim outboxId leaseUntil => (claimEngineOutboxMessage outbox outboxId now leaseUntil).1
  | .publish outboxId nextAt => recordEngineOutboxPublish outbox outboxId nextAt now
  | .publishFailure outboxId error nextAt =>
      recordEngineOutboxPublishFailure outbox outboxId error nextAt now
  | .acknowledge peer deliveryId => (acknowledgeEngineOutbox outbox peer deliveryId now).1
  | .reset => resetEngineOutboxLeases outbox
  | .purge before => purgeClosedOutboxRows outbox before

inductive EngineOp (β : Type) where
  | submit (event : NewEngineInboxEvent)
  /-- Another part of the node writes business tables and records events in one transaction. -/
  | transact (business : β) (events : List NewEngineInboxEvent)
  | read (shard : Nat)
  | process (shard : Nat) (run : Option (HandlerRun β)) (later : Int)
  | settle (shard : Nat)
  | abort (shard : Nat)
  | notify (refs : List String)
  | recheck
  | rearm
  | purgeInbox (before : Int)
  | purgeRejected (before : Int)
  | clearPoison (aggregate : AggregateRef) (action : Option String)
  | outbox (op : OutboxOp)
  | jobs (op : JobOp)
  | finishJob (job : EngineJob) (generation : Nat) (finish : EngineJobFinish)
  | sweepJobs
  /-- The process stops and starts again, with any number of workers.  The recovery statements
  follow as steps of their own: `rearm`, and the resets of the leases. -/
  | restart (shardCount : Nat)

structure EngineStep (β : Type) where
  now : Int
  op : EngineOp β

def insertEvents (inbox : Inbox) (events : List NewEngineInboxEvent) (now : Int) : Inbox :=
  events.foldl (fun inbox event => (insertEngineInboxEvent inbox event now).1) inbox

def EngineStep.exec (config : EngineConfig) (node : Node β) (step : EngineStep β) : Node β :=
  let db := node.db
  let now := step.now
  match step.op with
  | .submit event =>
      { node with db := { db with inbox := (insertEngineInboxEvent db.inbox event now).1 } }
  | .transact business events =>
      { node with db := { db with business, inbox := insertEvents db.inbox events now } }
  | .read shard =>
      match node.workers shard with
      | .idle =>
          match nextRunnableEngineInboxEvent db.inbox db.poisons node.shardCount shard now with
          | some event => { node with workers := node.setWorker shard (.holding event) }
          | none => node
      | _ => node
  | .process shard run later =>
      match node.workers shard with
      | .holding event =>
          let (db, worker) := processEvent config db event run now later
          { node with db, workers := node.setWorker shard worker }
      | _ => node
  | .settle shard =>
      let (db, worker) := settle config db (node.workers shard) now
      { node with db, workers := node.setWorker shard worker }
  | .abort shard => { node with workers := node.setWorker shard .idle }
  | .notify refs =>
      { node with db := { db with inbox := (wakeEngineInboxWaiting db.inbox refs now).1 } }
  | .recheck => { node with db := { db with inbox := (rearmEngineInboxWaiting db.inbox now).1 } }
  | .rearm => { node with db := { db with inbox := (rearmEngineInboxPending db.inbox now).1 } }
  | .purgeInbox before =>
      { node with db := { db with inbox := purgeTerminalInboxRows db.inbox before } }
  | .purgeRejected before =>
      { node with db := { db with inbox := purgeRejectedNetworkInboxRows db.inbox before } }
  | .clearPoison aggregate action =>
      { node with
        db := { db with poisons := clearEngineAggregatePoison db.poisons aggregate action } }
  | .outbox op => { node with db := { db with outbox := op.exec now db.outbox } }
  | .jobs op => { node with db := { db with jobs := JobStep.exec db.jobs ⟨now, op⟩ } }
  | .finishJob job generation finish =>
      { node with db := recordJobFinish config db job generation finish now }
  | .sweepJobs => { node with db := finishLapsedCancelled db now }
  | .restart shardCount => { node with shardCount, workers := fun _ => .idle }

variable (config : EngineConfig) (node : Node β)

def runEngine (steps : List (EngineStep β)) : Node β :=
  steps.foldl (EngineStep.exec config) node

theorem runEngine_append (steps more : List (EngineStep β)) :
    runEngine config node (steps ++ more) = runEngine config (runEngine config node steps) more :=
  List.foldl_append

theorem claimDueEngineOutboxMessages_eq_run (config : EngineConfig) (node : Node β)
    (now leaseUntil : Int) (limit : Nat) :
    let batch := claimDueEngineOutboxMessages node.db.outbox now leaseUntil limit
    { node with db := { node.db with outbox := batch.1 } } = runEngine config node
      ((outboxCandidates node.db.outbox now limit).map fun outboxId =>
        ⟨now, .outbox (.claim outboxId leaseUntil)⟩) := by
  rw [runEngine, List.foldl_map]
  let holding (batch : OutboxTable × List EngineOutboxMessage) : Node β :=
    { node with db := { node.db with outbox := batch.1 } }
  exact (List.foldl_hom holding fun _ _ => rfl).symm

def InboxOp.marks : InboxOp → Option String
  | .applied eventId | .waiting eventId _ _ _ | .retry eventId _ _ | .failed eventId _
  | .poisoned eventId _ => some eventId
  | .insert _ | .wake _ | .rearmWaiting | .rearmPending | .purgeTerminal _ | .purgeRejected _ =>
      none

def InboxOp.purges : InboxOp → Bool
  | .purgeTerminal _ | .purgeRejected _ => true
  | _ => false

theorem InboxOp.purges_of_marks {op : InboxOp} {eventId : String} (h : op.marks = some eventId) :
    op.purges = false := by
  cases op <;> first | rfl | cases h

def WorkerState.unmarked : WorkerState → Option EngineInboxEvent
  | .holding event | .rejecting event _ | .retrying event _ _ | .poisoning event _ => some event
  | .idle | .releasing _ => none

def Harmless (steps : List InboxStep) : Prop := ∀ step ∈ steps, step.op.marks = none ∧
    step.op.purges = false

theorem Harmless.nil : Harmless [] := by
  intro step hstep
  cases hstep

theorem Harmless.cons {step : InboxStep} {steps : List InboxStep} (hmarks : step.op.marks = none)
    (hpurges : step.op.purges = false) (h : Harmless steps) : Harmless (step :: steps) := by
  intro other hother
  rcases List.mem_cons.mp hother with rfl | hother
  · exact ⟨hmarks, hpurges⟩
  · exact h other hother

theorem Harmless.append {steps more : List InboxStep} (h : Harmless steps) (hmore : Harmless more) :
    Harmless (steps ++ more) := by
  intro step hstep
  rcases List.mem_append.mp hstep with hstep | hstep
  · exact h step hstep
  · exact hmore step hstep

theorem insertEvents_steps (inbox : Inbox) (events : List NewEngineInboxEvent) (now : Int) :
    insertEvents inbox events now =
      runInbox inbox (events.map fun event => ⟨now, .insert event⟩) := by
  unfold insertEvents runInbox
  rw [List.foldl_map]
  rfl

theorem insertEvents_eq_run (inbox : Inbox) (events : List NewEngineInboxEvent) (now : Int) :
    ∃ steps, insertEvents inbox events now = runInbox inbox steps ∧ Harmless steps := by
  refine ⟨_, insertEvents_steps inbox events now, ?_⟩
  intro step hstep
  obtain ⟨event, -, rfl⟩ := List.mem_map.mp hstep
  exact ⟨rfl, rfl⟩

theorem insertSweptEvents_eq_insertEvents (inbox : Inbox) (swept : List EngineJob) (now : Int) :
    insertSweptEvents inbox swept now = insertEvents inbox (swept.map sweptEvent) now := by
  unfold insertSweptEvents insertEvents
  rw [List.foldl_map]

theorem HandlerRun.inbox_steps (run : HandlerRun β) (now : Int) (db : Db β) :
    ∃ steps, (run.exec now db).inbox = runInbox db.inbox steps ∧
      ∀ step ∈ steps, ∃ event, step.op = .insert event ∧
        ∃ at_, .recordEvent event at_ ∈ run.writes := by
  change ∃ steps, (run.writes.foldl (HandlerWrite.exec now) db).inbox = _ ∧ _
  induction run.writes generalizing db with
  | nil => exact ⟨[], rfl, by intro step hstep; cases hstep⟩
  | cons write writes ih =>
    obtain ⟨steps, hsteps, hfrom⟩ := ih (write.exec now db)
    have hlater : ∀ step ∈ steps, ∃ event, step.op = .insert event ∧
        ∃ at_, .recordEvent event at_ ∈ write :: writes := by
      intro step hstep
      obtain ⟨event, hop, at_, hwrite⟩ := hfrom step hstep
      exact ⟨event, hop, at_, List.mem_cons_of_mem _ hwrite⟩
    rw [List.foldl_cons, hsteps]
    cases write with
    | recordEvent event at_ =>
      refine ⟨⟨at_, .insert event⟩ :: steps, rfl, ?_⟩
      intro step hstep
      rcases List.mem_cons.mp hstep with rfl | hstep
      · exact ⟨event, rfl, at_, List.mem_cons_self⟩
      · exact hlater step hstep
    | clearJobResult jobId => exact ⟨steps, rfl, hlater⟩

theorem HandlerRun.inbox_eq_run (run : HandlerRun β) (now : Int) (db : Db β) :
    ∃ steps, (run.exec now db).inbox = runInbox db.inbox steps ∧ Harmless steps := by
  obtain ⟨steps, hsteps, hinserts⟩ := run.inbox_steps now db
  refine ⟨steps, hsteps, ?_⟩
  intro step hstep
  obtain ⟨event, hop, -⟩ := hinserts step hstep
  rw [hop]
  exact ⟨rfl, rfl⟩

def commitMark (event : EngineInboxEvent) (waiting : Option WaitingFor) (now : Int) : InboxStep :=
  match waiting with
  | none => ⟨now, .applied event.eventId⟩
  | some waiting =>
      ⟨now, .waiting event.eventId waiting.wakeRef waiting.detail (now + config.waitingRecheckSecs)⟩

variable {event : EngineInboxEvent} {now : Int}

theorem commitApply_wakes {config : EngineConfig} {db db' : Db β} {current : Option EngineAggregate}
    {effects : Effects} {waiting : Option WaitingFor} {post : PostCommit}
    (h : commitApply config db event current effects waiting now = some (db', post)) :
    ∃ updated, db'.aggregates.find? event.aggregate = some updated ∧
      db'.inbox = (commitMark config event waiting now).exec
        (wakeEngineInboxWaiting db.inbox (commitWakeRefs event.aggregate current updated effects)
          now).1 := by
  unfold commitApply at h
  simp only [Option.bind_eq_bind, Option.bind_eq_some_iff, Option.pure_def, Option.some.injEq,
    Prod.mk.injEq] at h
  obtain ⟨updated, hupdated, rfl, -⟩ := h
  refine ⟨updated, hupdated, ?_⟩
  generalize commitWakeRefs event.aggregate current updated effects = refs
  cases refs <;> cases waiting <;> rfl

theorem commitApply_inbox {config : EngineConfig} {db db' : Db β} {current : Option EngineAggregate}
    {effects : Effects} {waiting : Option WaitingFor} {post : PostCommit}
    (h : commitApply config db event current effects waiting now = some (db', post)) :
    ∃ steps, db'.inbox = (commitMark config event waiting now).exec (runInbox db.inbox steps) ∧
      Harmless steps := by
  obtain ⟨updated, -, hinbox⟩ := commitApply_wakes h
  exact ⟨[⟨now, .wake _⟩], hinbox, Harmless.nil.cons rfl rfl⟩

/-- What an engine step does to the inbox: harmless steps, which may end in the mark of the event of
one worker that is then through with it, or a purge. -/
inductive InboxEffect (node node' : Node β) (op : EngineOp β) : Prop
  | harmless (steps : List InboxStep) (hinbox : node'.db.inbox = runInbox node.db.inbox steps)
      (hharmless : Harmless steps)
      (hworkers : ∀ shard event, (node'.workers shard).unmarked = some event →
        (node.workers shard).unmarked = some event ∧ node'.shardCount = node.shardCount ∨
          event.shardKey % node'.shardCount = shard ∧
            node'.db.inbox.find? event.eventId = some event ∧ event.state = .pending)
  | marked (shard : Nat) (event : EngineInboxEvent) (steps : List InboxStep) (mark : InboxStep)
      (hinbox : node'.db.inbox = mark.exec (runInbox node.db.inbox steps))
        (hharmless : Harmless steps)
      (hevent : (node.workers shard).unmarked = some event)
      (hmark : mark.op.marks = some event.eventId)
      (hcount : node'.shardCount = node.shardCount)
      (hdone : (node'.workers shard).unmarked = none)
      (hothers : ∀ other, other ≠ shard → node'.workers other = node.workers other)
  | purged (purge : InboxStep) (hinbox : node'.db.inbox = purge.exec node.db.inbox)
      (hop : ∃ before, op = .purgeInbox before ∧ purge.op = .purgeTerminal before ∨
        op = .purgeRejected before ∧ purge.op = .purgeRejected before)
      (hcount : node'.shardCount = node.shardCount) (hworkers : node'.workers = node.workers)

theorem setWorker_self (shard : Nat) (worker : WorkerState) :
    node.setWorker shard worker shard = worker := if_pos rfl

variable {shard : Nat}

theorem setWorker_other {other : Nat} (worker : WorkerState)
    (h : other ≠ shard) : node.setWorker shard worker other = node.workers other := if_neg h

variable {node : Node β} {op : EngineOp β}

theorem InboxEffect.of_worker {db : Db β} (hdb : db.inbox = node.db.inbox) (shard : Nat)
    (worker : WorkerState)
    (hworker : worker.unmarked = none ∨ worker.unmarked = (node.workers shard).unmarked) :
    InboxEffect node { node with db := db, workers := node.setWorker shard worker } op := by
  refine .harmless [] hdb .nil ?_
  intro other event hevent
  left
  refine ⟨?_, rfl⟩
  by_cases hother : other = shard
  · subst hother
    change (node.setWorker other worker other).unmarked = _ at hevent
    rw [setWorker_self] at hevent
    rcases hworker with hnone | hsame
    · cases hnone.symm.trans hevent
    · rw [← hsame]
      exact hevent
  · change (node.setWorker shard worker other).unmarked = _ at hevent
    rw [setWorker_other node worker hother] at hevent
    exact hevent

theorem InboxEffect.of_db (db : Db β)
    (h : ∃ steps, db.inbox = runInbox node.db.inbox steps ∧ Harmless steps) :
    InboxEffect node { node with db := db } op := by
  obtain ⟨steps, hinbox, hharmless⟩ := h
  exact .harmless steps hinbox hharmless fun shard event hevent => .inl ⟨hevent, rfl⟩

theorem nextRunnable_some {inbox : Inbox} {poisons : PoisonTable} {shardCount : Nat}
    (h : nextRunnableEngineInboxEvent inbox poisons shardCount shard now = some event) :
    inbox.find? event.eventId = some event ∧ event.state = .pending ∧
    event.shardKey % shardCount = shard := by
  have hmem := List.mem_of_mem_head? h
  rw [List.mem_insertionSort, List.mem_filter, decide_eq_true_eq] at hmem
  obtain ⟨hrow, hstate, -, hshard, -⟩ := hmem
  exact ⟨Table.mem_rows_iff.mp hrow, hstate, hshard⟩

theorem InboxEffect.of_mark (hevent : (node.workers shard).unmarked = some event) (db : Db β)
    (worker : WorkerState) (hworker : worker.unmarked = none) (mark : InboxStep)
    (hmark : mark.op.marks = some event.eventId)
    (h : ∃ steps, db.inbox = mark.exec (runInbox node.db.inbox steps) ∧ Harmless steps) :
    InboxEffect node { node with db := db, workers := node.setWorker shard worker } op := by
  obtain ⟨steps, hinbox, hharmless⟩ := h
  refine .marked shard event steps mark hinbox hharmless hevent hmark rfl ?_ ?_
  · change (node.setWorker shard worker shard).unmarked = none
    rw [setWorker_self]
    exact hworker
  · intro other hother
    exact setWorker_other node worker hother

theorem InboxEffect.of_process (config : EngineConfig)
    (hevent : node.workers shard = .holding event) (run : Option (HandlerRun β)) (now later : Int) :
    let next := processEvent config node.db event run now later
    InboxEffect node { node with db := next.1, workers := node.setWorker shard next.2 } op := by
  have hunmarked : (node.workers shard).unmarked = some event := by rw [hevent]; rfl
  have hkept (worker : WorkerState) (hworker : worker.unmarked = none ∨
      worker.unmarked = some event) :
      InboxEffect node { node with workers := node.setWorker shard worker } op :=
    .of_worker rfl shard worker (hunmarked ▸ hworker)
  cases run with
  | none => exact .of_mark hunmarked _ .idle rfl ⟨now, .failed event.eventId _⟩ rfl ⟨[], rfl, .nil⟩
  | some run =>
    have hcommit : ∀ waiting db' post, commitApply config (run.exec now node.db) event
        (node.db.aggregates.find? event.aggregate) run.effects waiting now = some (db', post) →
        InboxEffect node { node with db := db', workers := node.setWorker shard .idle } op := by
      intro waiting db' post happly
      obtain ⟨steps, hinbox, hharmless⟩ := commitApply_inbox happly
      obtain ⟨writes, hwrites, hwritesHarmless⟩ := run.inbox_eq_run now node.db
      refine .of_mark hunmarked db' .idle rfl (commitMark config event waiting now)
        (by cases waiting <;> rfl) ?_
      refine ⟨writes ++ steps, ?_, hwritesHarmless.append hharmless⟩
      rw [hinbox, hwrites, runInbox_append]
    obtain ⟨business, writes, effects, result⟩ := run
    cases result with
    | applied | waiting =>
      dsimp only [processEvent]
      split
      · rename_i happly
        exact hcommit _ _ _ happly
      · exact hkept .idle (.inl rfl)
    | rejected | transient | invariant | timedOut | panicked => exact hkept _ (.inr rfl)

theorem InboxEffect.of_settle (config : EngineConfig) (node : Node β) (op : EngineOp β)
    (shard : Nat) (now : Int) :
    let next := settle config node.db (node.workers shard) now
    InboxEffect node { node with db := next.1, workers := node.setWorker shard next.2 } op := by
  cases hworker : node.workers shard with
  | idle => exact .of_worker rfl shard .idle (.inl rfl)
  | holding event => exact .of_worker rfl shard (.holding event) (.inr (by rw [hworker]))
  | rejecting event reason =>
    exact .of_mark (by rw [hworker]; rfl) _ (.releasing event) rfl
      ⟨now, .failed event.eventId reason⟩ rfl ⟨[], rfl, .nil⟩
  | releasing event =>
    apply InboxEffect.of_worker
    · rfl
    · exact .inl rfl
  | retrying event error nextAt =>
    exact .of_mark (by rw [hworker]; rfl) _ .idle rfl ⟨now, .retry event.eventId error nextAt⟩ rfl
      ⟨[], rfl, .nil⟩
  | poisoning event reason =>
    exact .of_mark (by rw [hworker]; rfl) _ .idle rfl ⟨now, .poisoned event.eventId reason⟩ rfl
      ⟨[], rfl, .nil⟩

theorem EngineStep.inboxEffect (node : Node β) (step : EngineStep β) :
    InboxEffect node (step.exec config node) step.op := by
  obtain ⟨now, op⟩ := step
  cases op with
  | submit event => exact .of_db _ ⟨[⟨now, .insert event⟩], rfl, Harmless.nil.cons rfl rfl⟩
  | transact business events => exact .of_db _ (insertEvents_eq_run node.db.inbox events now)
  | read shard =>
    unfold EngineStep.exec
    cases hworker : node.workers shard with
    | idle =>
      simp only [hworker]
      cases hnext : nextRunnableEngineInboxEvent node.db.inbox node.db.poisons node.shardCount
        shard now with
      | none => exact .of_db node.db ⟨[], rfl, .nil⟩
      | some event =>
        refine .harmless [] rfl .nil ?_
        intro other held hheld
        by_cases hother : other = shard
        · subst hother
          change (node.setWorker other _ other).unmarked = _ at hheld
          rw [setWorker_self] at hheld
          cases hheld
          obtain ⟨hrow, hstate, hshard⟩ := nextRunnable_some hnext
          exact .inr ⟨hshard, hrow, hstate⟩
        · change (node.setWorker shard _ other).unmarked = _ at hheld
          rw [setWorker_other node _ hother] at hheld
          exact .inl ⟨hheld, rfl⟩
    | holding | rejecting | releasing | retrying | poisoning =>
      simp only [hworker]
      exact .of_db node.db ⟨[], rfl, .nil⟩
  | process shard run later =>
    unfold EngineStep.exec
    cases hworker : node.workers shard with
    | holding event =>
      simp only [hworker]
      exact .of_process config hworker run now later
    | idle | rejecting | releasing | retrying | poisoning =>
      simp only [hworker]
      exact .of_db node.db ⟨[], rfl, .nil⟩
  | settle shard => exact .of_settle config node _ shard now
  | abort shard => exact .of_worker rfl shard .idle (.inl rfl)
  | notify refs => exact .of_db _ ⟨[⟨now, .wake refs⟩], rfl, Harmless.nil.cons rfl rfl⟩
  | recheck => exact .of_db _ ⟨[⟨now, .rearmWaiting⟩], rfl, Harmless.nil.cons rfl rfl⟩
  | rearm => exact .of_db _ ⟨[⟨now, .rearmPending⟩], rfl, Harmless.nil.cons rfl rfl⟩
  | purgeInbox before =>
    exact .purged ⟨now, .purgeTerminal before⟩ rfl ⟨before, .inl ⟨rfl, rfl⟩⟩ rfl rfl
  | purgeRejected before =>
    exact .purged ⟨now, .purgeRejected before⟩ rfl ⟨before, .inr ⟨rfl, rfl⟩⟩ rfl rfl
  | clearPoison aggregate action | outbox op | jobs op => exact .of_db _ ⟨[], rfl, .nil⟩
  | finishJob job generation finish =>
    apply InboxEffect.of_db
    dsimp only [recordJobFinish]
    split
    · exact ⟨[⟨now, .insert _⟩], rfl, Harmless.nil.cons rfl rfl⟩
    · exact ⟨[], rfl, .nil⟩
  | sweepJobs =>
    apply InboxEffect.of_db
    change ∃ steps, insertSweptEvents node.db.inbox _ now = _ ∧ _
    rw [insertSweptEvents_eq_insertEvents]
    exact insertEvents_eq_run _ _ now
  | restart shardCount =>
    refine .harmless [] rfl .nil ?_
    intro shard event hevent
    cases hevent

def EngineStep.Records (engineStep : EngineStep β) (event : NewEngineInboxEvent) : Prop :=
  match engineStep.op with
  | .submit submitted => event = submitted
  | .transact _ events => event ∈ events
  | .process _ (some run) _ => ∃ at_, .recordEvent event at_ ∈ run.writes
  | .finishJob _ _ _ | .sweepJobs =>
      ∃ (result : JobResultEvent) (aggregate : AggregateRef), event = result.intoNewEvent aggregate
  | _ => False

def InboxStep.From (node : Node β) (engineStep : EngineStep β) (step : InboxStep) : Prop :=
  match step.op with
  | .insert event => engineStep.Records event
  | .applied eventId =>
      ∃ shard run later event, engineStep.op = .process shard (some run) later ∧
        node.workers shard = .holding event ∧ eventId = event.eventId ∧ run.result = .applied
  | .waiting eventId waitingRef _ nextAt =>
      ∃ shard run later event waiting, engineStep.op = .process shard (some run) later ∧
        node.workers shard = .holding event ∧ eventId = event.eventId ∧
          run.result = .waiting waiting ∧
        waitingRef = waiting.wakeRef ∧ nextAt = step.now + config.waitingRecheckSecs
  | .retry eventId error nextAt =>
      ∃ shard event, engineStep.op = .settle shard ∧
        node.workers shard = .retrying event error nextAt ∧
        eventId = event.eventId ∧ step.now = engineStep.now
  | .failed eventId reason =>
      (∃ shard later event, engineStep.op = .process shard none later ∧
          node.workers shard = .holding event ∧ eventId = event.eventId) ∨
        ∃ shard event, engineStep.op = .settle shard ∧
          node.workers shard = .rejecting event reason ∧
          eventId = event.eventId
  | .poisoned eventId reason =>
      ∃ shard event, engineStep.op = .settle shard ∧ node.workers shard = .poisoning event reason ∧
        eventId = event.eventId
  | .wake _ | .rearmWaiting | .rearmPending | .purgeTerminal _ | .purgeRejected _ => True

theorem processEvent_inboxSteps (hworker : node.workers shard = .holding event)
    (run : Option (HandlerRun β)) (now later : Int) :
    ∃ steps, (processEvent config node.db event run now later).1.inbox =
      runInbox node.db.inbox steps ∧
      ∀ step ∈ steps, step.From config node ⟨now, .process shard run later⟩ := by
  have hnone : ∃ steps, node.db.inbox = runInbox node.db.inbox steps ∧
      ∀ step ∈ steps, step.From config node ⟨now, .process shard run later⟩ :=
    ⟨[], rfl, by intro step hstep; cases hstep⟩
  cases run with
  | none =>
    refine ⟨[⟨now, .failed event.eventId s!"no handler for aggregate kind {event.aggregate.kind}"⟩],
      rfl, ?_⟩
    intro step hstep
    rw [List.mem_singleton.mp hstep]
    exact .inl ⟨shard, later, event, rfl, hworker, rfl⟩
  | some run =>
    -- the writes of the handler, the wake and the mark
    have hcommit : ∀ waiting db' post, commitApply config (run.exec now node.db) event
        (node.db.aggregates.find? event.aggregate) run.effects waiting now = some (db', post) →
        (commitMark config event waiting now).From config node
          ⟨now, .process shard (some run) later⟩ →
        ∃ steps, db'.inbox = runInbox node.db.inbox steps ∧
          ∀ step ∈ steps, step.From config node ⟨now, .process shard (some run) later⟩ := by
      intro waiting db' post hsome hmark
      obtain ⟨updated, -, hinbox⟩ := commitApply_wakes hsome
      obtain ⟨writes, hwrites, hfrom⟩ := run.inbox_steps now node.db
      generalize commitWakeRefs event.aggregate _ updated run.effects = refs at hinbox
      refine ⟨writes ++ [⟨now, .wake refs⟩, commitMark config event waiting now], ?_, ?_⟩
      · rw [runInbox_append, ← hwrites]
        exact hinbox
      · intro step hstep
        rcases List.mem_append.mp hstep with hstep | hstep
        · obtain ⟨recorded, hop, hwrite⟩ := hfrom step hstep
          unfold InboxStep.From
          rw [hop]
          exact hwrite
        · rcases List.mem_cons.mp hstep with rfl | hstep
          · trivial
          · rw [List.mem_singleton.mp hstep]
            exact hmark
    obtain ⟨business, writes, effects, result⟩ := run
    cases result with
    | applied =>
      dsimp only [processEvent]
      split
      · rename_i happly
        exact hcommit none _ _ happly ⟨shard, _, later, event, rfl, hworker, rfl, rfl⟩
      · exact hnone
    | waiting waiting =>
      dsimp only [processEvent]
      split
      · rename_i happly
        exact hcommit (some waiting) _ _ happly ⟨shard, _, later, event, waiting, rfl, hworker, rfl,
          rfl, rfl, rfl⟩
      · exact hnone
    | rejected | transient | invariant | timedOut | panicked => exact hnone

theorem EngineStep.inboxSteps (node : Node β) (engineStep : EngineStep β) :
    ∃ steps, (engineStep.exec config node).db.inbox = runInbox node.db.inbox steps ∧
      ∀ step ∈ steps, step.From config node engineStep := by
  have hnone : ∀ inbox, inbox = node.db.inbox → ∃ steps, inbox = runInbox node.db.inbox steps ∧
      ∀ step ∈ steps, step.From config node engineStep := by
    rintro inbox rfl
    exact ⟨[], rfl, by intro step hstep; cases hstep⟩
  have hone : ∀ step : InboxStep, step.From config node engineStep →
      ∃ steps, step.exec node.db.inbox = runInbox node.db.inbox steps ∧
        ∀ step ∈ steps, step.From config node engineStep := by
    intro step hfrom
    refine ⟨[step], rfl, ?_⟩
    intro other hother
    rw [List.mem_singleton.mp hother]
    exact hfrom
  have hevents : ∀ events : List NewEngineInboxEvent, (∀ event ∈ events, engineStep.Records event) →
      ∃ steps, insertEvents node.db.inbox events engineStep.now = runInbox node.db.inbox steps ∧
        ∀ step ∈ steps, step.From config node engineStep := by
    intro events hrecords
    refine ⟨_, insertEvents_steps _ _ _, ?_⟩
    intro step hstep
    obtain ⟨event, hevent, rfl⟩ := List.mem_map.mp hstep
    exact hrecords event hevent
  obtain ⟨now, op⟩ := engineStep
  cases op with
  | submit event => exact hone ⟨now, .insert event⟩ rfl
  | transact business events => exact hevents events fun _ hevent => hevent
  | read shard =>
    apply hnone
    dsimp only [EngineStep.exec]
    split
    · split <;> rfl
    · rfl
  | process shard run later =>
    dsimp only [EngineStep.exec]
    split
    · rename_i event hworker
      exact processEvent_inboxSteps config hworker run now later
    · exact hnone _ rfl
  | settle shard =>
    dsimp only [EngineStep.exec]
    cases hworker : node.workers shard with
    | idle | holding event | releasing event => exact hnone _ rfl
    | rejecting event reason =>
      exact hone ⟨now, .failed event.eventId reason⟩ (.inr ⟨shard, event, rfl, hworker, rfl⟩)
    | poisoning event reason =>
      exact hone ⟨now, .poisoned event.eventId reason⟩ ⟨shard, event, rfl, hworker, rfl⟩
    | retrying event error nextAt =>
      exact hone ⟨now, .retry event.eventId error nextAt⟩ ⟨shard, event, rfl, hworker, rfl, rfl⟩
  | notify refs => exact hone ⟨now, .wake refs⟩ trivial
  | recheck => exact hone ⟨now, .rearmWaiting⟩ trivial
  | rearm => exact hone ⟨now, .rearmPending⟩ trivial
  | purgeInbox before => exact hone ⟨now, .purgeTerminal before⟩ trivial
  | purgeRejected before => exact hone ⟨now, .purgeRejected before⟩ trivial
  | finishJob job generation finish =>
    dsimp only [EngineStep.exec, recordJobFinish]
    split
    · exact hone ⟨now, .insert _⟩ ⟨_, _, rfl⟩
    · exact hnone _ rfl
  | sweepJobs =>
    change ∃ steps, insertSweptEvents node.db.inbox _ now = _ ∧ _
    rw [insertSweptEvents_eq_insertEvents]
    apply hevents
    intro event hevent
    obtain ⟨job, -, rfl⟩ := List.mem_map.mp hevent
    exact ⟨_, _, rfl⟩
  | abort | clearPoison | outbox | jobs | restart => exact hnone _ rfl

end BitvmNode.Engine
