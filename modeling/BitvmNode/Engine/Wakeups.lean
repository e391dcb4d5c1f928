import Mathlib.Data.List.GetD
import Mathlib.Data.List.Induction
import BitvmNode.Engine.ExactlyOnce

/-!
# Wakeups

An event that waits is parked on a reference.  A commit wakes the references of its effects, and
that of its aggregate if the status or the phase has changed, and only then marks its own event: it
leaves nobody asleep but, possibly, the event that it parks itself.
-/

namespace BitvmNode.Engine

open EngineStep

open Reasoning

variable {β : Type}

def ApplyResult.parking : ApplyResult → Option WaitingFor
  | .waiting dependency => some dependency
  | _ => none

theorem processEvent_eq_commit {run : HandlerRun β} (h : run.result.commits = true)
    (config : EngineConfig) (db : Db β) (event : EngineInboxEvent) (now later : Int) :
    ∃ db' post, commitApply config (run.exec now db) event
        (db.aggregates.find? event.aggregate) run.effects
        run.result.parking now = some (db', post) ∧
      processEvent config db event (some run) now later = (db', .idle) := by
  obtain ⟨db', post, hcommit, -⟩ := commitApply_eq_some config (run.exec now db) event
    (db.aggregates.find? event.aggregate) run.effects run.result.parking now
  refine ⟨db', post, hcommit, ?_⟩
  dsimp only [processEvent]
  cases hresult : run.result with
  | applied | waiting waiting =>
    rw [hresult] at hcommit
    dsimp only [ApplyResult.parking] at hcommit ⊢
    rw [hcommit]
  | _ => rw [hresult] at h; cases h

variable {inbox : Inbox} {now : Int} {k reference : String} {row : EngineInboxEvent}

theorem wake_leaves_due {refs : List String}
    (hrow : (wakeEngineInboxWaiting inbox refs now).1.find? k = some row)
    (href : reference ∈ refs) (hpending : row.state = .pending)
    (hparked : row.waitingRef = some reference) :
    row.nextAt ≤ now := by
  rw [find?_wakeEngineInboxWaiting, Option.map_eq_some_iff] at hrow
  obtain ⟨before, -, hafter⟩ := hrow
  split_ifs at hafter with hhit
  · subst hafter
    exact Int.le_refl _
  · subst hafter
    by_contra hlate
    exact hhit ⟨hpending, ⟨reference, href, hparked⟩, Int.not_le.mp hlate⟩

variable {config : EngineConfig} {event : EngineInboxEvent}

theorem commitMark_parked {waiting : Option WaitingFor}
    (hrow : ((commitMark config event waiting now).exec inbox).find? k = some row)
    (hpending : row.state = .pending) :
    inbox.find? k = some row ∨
      k = event.eventId ∧ ∃ parking, waiting = some parking ∧
      row.waitingRef = some parking.wakeRef := by
  have hmarked : ∀ set hset, (markPending inbox event.eventId set hset).1.find? k = some row →
      inbox.find? k = some row ∨ k = event.eventId ∧ ∃ before, set before = row := by
    intro set hset h
    rw [find?_markPending, Option.map_eq_some_iff] at h
    obtain ⟨before, hbefore, hafter⟩ := h
    split_ifs at hafter with hhit
    · exact .inr ⟨(Table.key_of_find? hbefore).symm.trans hhit.1, before, hafter⟩
    · exact .inl (hafter ▸ hbefore)
  cases waiting with
  | none =>
    rcases hmarked _ _ hrow with hsame | ⟨-, before, rfl⟩
    · exact .inl hsame
    · cases hpending
  | some parking =>
    rcases hmarked _ _ hrow with hsame | ⟨hid, before, rfl⟩
    · exact .inl hsame
    · exact .inr ⟨hid, parking, rfl, rfl⟩

def AggregateTable.visible (aggregates : AggregateTable) (aggregate : AggregateRef) :
    Option (String × String) :=
  (aggregates.find? aggregate).map fun row => (row.status, row.phase)

/-- The commit announces the reference, or it changes the status or the phase of an aggregate that
has it. -/
def WakesOn (before after : Db β) (effects : Effects) (reference : String) : Prop :=
  reference ∈ effects.wakeRefs ∨
    ∃ aggregate : AggregateRef, aggregate.wakeRef = reference ∧
      AggregateTable.visible before.aggregates aggregate ≠
        AggregateTable.visible after.aggregates aggregate

theorem WakesOn.mem_commitWakeRefs {before after : Db β} {effects : Effects}
    {updated : EngineAggregate} (h : WakesOn before after effects reference)
    (hothers : ∀ other, other ≠ event.aggregate →
      after.aggregates.find? other = before.aggregates.find? other)
    (hupdated : after.aggregates.find? event.aggregate = some updated) :
    reference ∈ commitWakeRefs event.aggregate (before.aggregates.find? event.aggregate) updated
      effects := by
  unfold commitWakeRefs
  rcases h with hannounced | ⟨aggregate, rfl, hchanged⟩
  · dsimp only
    split_ifs
    · exact List.mem_append_left _ hannounced
    · exact hannounced
  · have hown : aggregate = event.aggregate := by
      by_contra hother
      apply hchanged
      rw [AggregateTable.visible, AggregateTable.visible, hothers aggregate hother]
    subst hown
    rw [AggregateTable.visible, AggregateTable.visible, hupdated] at hchanged
    rw [if_pos]
    · exact List.mem_append_right _ (List.mem_singleton_self _)
    · cases hcurrent : before.aggregates.find? event.aggregate with
      | none => rfl
      | some current =>
        -- one of the two columns differs
        rw [hcurrent] at hchanged
        by_contra hsame
        simp only [decide_eq_true_eq, not_or, not_not] at hsame
        apply hchanged
        rw [Option.map_some, Option.map_some, hsame.1, hsame.2]

/-- After a commit nobody sleeps on a reference that it wakes, except that the event of the commit
sleeps on the dependency that its own apply has named. -/
theorem commit_leaves_due (config : EngineConfig) {node : Node β} {later : Int} {shard : Nat}
    {run : HandlerRun β} (hworker : node.workers shard = .holding event)
    (hcommits : run.result.commits = true) (hwakes : WakesOn node.db
      (exec config node ⟨now, .process shard (some run) later⟩).db run.effects reference)
    (hrow : (exec config node ⟨now, .process shard (some run) later⟩).db.inbox.find? row.eventId =
      some row) (hpending : row.state = .pending) (hparked : row.waitingRef = some reference) :
    row.nextAt ≤ now ∨
      row.eventId = event.eventId ∧ ∃ waiting, run.result = .waiting waiting ∧
      waiting.wakeRef = reference := by
  obtain ⟨db', post, hcommit, hprocess⟩ :=
    processEvent_eq_commit hcommits config node.db event now later
  have hexec : (exec config node ⟨now, .process shard (some run) later⟩).db = db' := by
    simp only [exec, hworker, hprocess]
  rw [hexec] at hwakes hrow
  obtain ⟨db'', hdb, -, -, hothers, -⟩ :=
    processEvent_of_commits hcommits config node.db event now later
  rw [hprocess] at hdb
  subst hdb
  obtain ⟨updated, hupdated, hinbox⟩ := commitApply_wakes hcommit
  have href := hwakes.mem_commitWakeRefs hothers hupdated
  rw [hinbox] at hrow
  rcases commitMark_parked hrow hpending with hsame | ⟨hid, parking, hparking, hnamed⟩
  · exact .inl (wake_leaves_due hsame href hpending hparked)
  · right
    rw [hparked, Option.some.injEq] at hnamed
    refine ⟨hid, parking, ?_, hnamed.symm⟩
    cases hresult : run.result <;> rw [hresult] at hparking <;> cases hparking
    rfl

def Backoff.maxDelay : Backoff → Int
  | .steps delays => delays.foldr max 0
  | .doubling _ cap => cap

theorem le_foldr_max {delays : List Int} {delay : Int} (h : delay ∈ delays) :
    delay ≤ delays.foldr max 0 := by
  induction delays with
  | nil => cases h
  | cons first delays ih =>
    rcases List.mem_cons.mp h with rfl | h
    · exact Int.le_max_left _ _
    · exact (ih h).trans (Int.le_max_right _ _)

theorem Backoff.delay_le_maxDelay (backoff : Backoff) (attempt : Nat) :
    backoff.delay attempt ≤ backoff.maxDelay := by
  unfold Backoff.delay Backoff.maxDelay
  cases backoff with
  | doubling base cap => exact Int.min_le_right _ _
  | steps delays =>
    dsimp only
    cases delays with
    | nil => exact Int.le_refl _
    | cons first rest =>
      have hlt : min (max attempt 1 - 1) ((first :: rest).length - 1) < (first :: rest).length := by
        simp only [List.length_cons]
        omega
      rw [List.getD_eq_getElem _ _ hlt]
      exact le_foldr_max (List.getElem_mem hlt)

def EngineConfig.maxRetryDelay (config : EngineConfig) : Int :=
  max config.inboxRetryBackoff.maxDelay 1

def EngineConfig.attemptWithin (config : EngineConfig) : Int :=
  max config.recheckIntervalSecs config.maxRetryDelay

theorem EngineConfig.maxRetryDelay_le (config : EngineConfig) :
    config.maxRetryDelay ≤ config.attemptWithin := Int.le_max_right _ _

theorem EngineConfig.waitingRecheckSecs_le (config : EngineConfig) :
    config.waitingRecheckSecs ≤ config.attemptWithin := by
  have hbusy : (1 : Int) ≤ config.maxRetryDelay := Int.le_max_right _ _
  unfold waitingRecheckSecs attemptWithin
  omega

theorem EngineConfig.attemptWithin_nonneg (config : EngineConfig) : 0 ≤ config.attemptWithin := by
  unfold attemptWithin
  omega

theorem retryDelay_le (config : EngineConfig) (event : EngineInboxEvent) (chain : List String) :
    retryDelay config event chain ≤ config.maxRetryDelay := by
  unfold retryDelay
  split_ifs
  · exact Int.le_max_right _ _
  · exact (config.inboxRetryBackoff.delay_le_maxDelay _).trans (Int.le_max_left _ _)

def DueWithin (bound : Int) (row : EngineInboxEvent) : Prop :=
  row.state = .pending → row.nextAt ≤ row.updatedAt + bound

def InboxOp.schedules : InboxOp → Option Int
  | .waiting _ _ _ nextAt | .retry _ _ nextAt => some nextAt
  | _ => none

def InboxStep.Punctual (bound : Int) (step : InboxStep) : Prop :=
  ∀ nextAt, step.op.schedules = some nextAt → nextAt ≤ step.now + bound

theorem InboxStep.Punctual.dueWithin {bound : Int} (hbound : 0 ≤ bound) {step : InboxStep}
    (hpunctual : step.Punctual bound) (h : ∀ k row, inbox.find? k = some row → DueWithin bound row)
    (hrow : (step.exec inbox).find? k = some row) : DueWithin bound row := by
  have hnow : step.now ≤ step.now + bound := by omega
  intro hpending
  cases hbefore : inbox.find? k with
  | none =>
    obtain ⟨event, -, -, rfl⟩ := step.row_appears hbefore hrow
    exact hnow
  | some before =>
    have hchange := step.rowChange hbefore
    rw [hrow] at hchange
    cases hchange with
    | same => exact h k row hbefore hpending
    | rearmed event _ _ _ | woken _ _ => exact hnow
    | applied _ _ | failed reason _ _ | poisoned reason _ _ => cases hpending
    | parked waitingRef waitingDetail nextAt hop _ | retried error nextAt hop _ =>
      exact hpunctual nextAt (by rw [hop]; rfl)

theorem runInbox_dueWithin {bound : Int} (hbound : 0 ≤ bound) {steps : List InboxStep}
    (hpunctual : ∀ step ∈ steps, step.Punctual bound)
    (h : ∀ k row, inbox.find? k = some row → DueWithin bound row)
    (hrow : (runInbox inbox steps).find? k = some row) : DueWithin bound row := by
  induction steps generalizing inbox with
  | nil => exact h k row hrow
  | cons step steps ih =>
    apply ih (fun later hlater => hpunctual later (List.mem_cons_of_mem _ hlater)) _ hrow
    intro k row hrow
    exact (hpunctual step List.mem_cons_self).dueWithin hbound h hrow

def EngineStep.reads (shard : Nat) (step : EngineStep β) : List Int :=
  match step.op with
  | .read other => if other = shard then [step.now] else []
  | .process other _ later => if other = shard then [step.now, later] else []
  | .settle other => if other = shard then [step.now] else []
  | _ => []

/-- The clock of a worker does not go back.  The workers' clocks need not agree with each other or
with the order of the commits. -/
def OwnClocks (steps : List (EngineStep β)) : Prop :=
  ∀ shard, (steps.flatMap (reads shard)).Pairwise (· ≤ ·)

variable {steps : List (EngineStep β)}

theorem OwnClocks.of_concat {step : EngineStep β} (h : OwnClocks (steps ++ [step])) :
    OwnClocks steps := by
  intro shard
  have hpairs := h shard
  rw [List.flatMap_append] at hpairs
  exact (List.pairwise_append.mp hpairs).1

theorem OwnClocks.le_settle {t : Int} {shard : Nat}
    (h : OwnClocks (steps ++ [⟨now, .settle shard⟩])) (ht : t ∈ steps.flatMap (reads shard)) :
    t ≤ now := by
  have hpairs := h shard
  rw [List.flatMap_append] at hpairs
  apply (List.pairwise_append.mp hpairs).2.2 t ht
  simp [reads]

/-- A retry is scheduled from a clock value that its worker has read. -/
def RetriesFrom (config : EngineConfig) (steps : List (EngineStep β)) (node : Node β) : Prop :=
  ∀ shard event error nextAt, node.workers shard = .retrying event error nextAt →
    ∃ t ∈ steps.flatMap (reads shard), nextAt ≤ t + config.maxRetryDelay

theorem processEvent_retrying {db : Db β} {held : EngineInboxEvent} {run : Option (HandlerRun β)}
    {later nextAt : Int} {error : String}
    (h : (processEvent config db event run now later).2 = .retrying held error nextAt) :
    nextAt ≤ later + config.maxRetryDelay := by
  cases run with
  | none => cases h
  | some run =>
    by_cases hcommits : run.result.commits = true
    · obtain ⟨db', post, -, hprocess⟩ := processEvent_eq_commit hcommits config db event now later
      rw [hprocess] at h
      cases h
    · dsimp only [processEvent] at h
      cases hresult : run.result with
      | applied | waiting waiting => rw [hresult] at hcommits; exact absurd rfl hcommits
      | rejected reason | invariant error | panicked message => rw [hresult] at h; cases h
      | transient chain =>
        rw [hresult] at h
        cases h
        exact Int.add_le_add_left (retryDelay_le config event chain) later
      | timedOut =>
        rw [hresult] at h
        cases h
        have hdelay := config.inboxRetryBackoff.delay_le_maxDelay (event.attempts + 1)
        exact Int.add_le_add_left (hdelay.trans (Int.le_max_left _ _)) later

theorem RetriesFrom.concat {node : Node β} (h : RetriesFrom config steps node)
    (step : EngineStep β) : RetriesFrom config (steps ++ [step]) (step.exec config node) := by
  intro shard event error nextAt hworker
  -- a retry that was there before
  have hkept : node.workers shard = .retrying event error nextAt →
      ∃ t ∈ (steps ++ [step]).flatMap (reads shard), nextAt ≤ t + config.maxRetryDelay := by
    intro hbefore
    obtain ⟨t, ht, hle⟩ := h shard event error nextAt hbefore
    rw [List.flatMap_append]
    exact ⟨t, List.mem_append_left _ ht, hle⟩
  have hset : ∀ other worker, node.setWorker other worker shard = .retrying event error nextAt →
      worker ≠ .retrying event error nextAt →
        node.workers shard = .retrying event error nextAt := by
    intro other worker hafter hworker
    by_cases hother : shard = other
    · subst hother
      rw [setWorker_self] at hafter
      exact absurd hafter hworker
    · rw [setWorker_other node worker hother] at hafter
      exact hafter
  obtain ⟨now, op⟩ := step
  cases op with
  | read other =>
    dsimp only [exec] at hworker
    split at hworker
    · split at hworker
      · exact hkept (hset other _ hworker nofun)
      · exact hkept hworker
    · exact hkept hworker
  | process other run later =>
    dsimp only [exec] at hworker
    split at hworker
    · rename_i held hheld
      by_cases hother : shard = other
      · subst hother
        change node.setWorker shard _ shard = _ at hworker
        rw [setWorker_self] at hworker
        refine ⟨later, ?_, processEvent_retrying hworker⟩
        rw [List.flatMap_append]
        apply List.mem_append_right
        simp [reads]
      · change node.setWorker other _ shard = _ at hworker
        rw [setWorker_other node _ hother] at hworker
        exact hkept hworker
    · exact hkept hworker
  | settle other =>
    -- what is settled is not left for a retry
    refine hkept (hset other _ hworker ?_)
    cases hbefore : node.workers other <;> intro hafter <;> cases hafter
  | abort other => exact hkept (hset other _ hworker nofun)
  | restart shardCount => cases hworker
  | _ => exact hkept hworker

theorem EngineStep.punctual (config : EngineConfig) (node : Node β) (engineStep : EngineStep β)
    (hretry : ∀ shard event error nextAt, engineStep.op = .settle shard →
      node.workers shard = .retrying event error nextAt →
      nextAt ≤ engineStep.now + config.attemptWithin) :
    ∃ steps, (engineStep.exec config node).db.inbox = runInbox node.db.inbox steps ∧
      ∀ step ∈ steps, step.Punctual config.attemptWithin := by
  obtain ⟨steps, hinbox, hfrom⟩ := engineStep.inboxSteps config node
  refine ⟨steps, hinbox, ?_⟩
  intro step hstep nextAt hschedules
  have hstepFrom := hfrom step hstep
  unfold InboxStep.From at hstepFrom
  cases hop : step.op with
  | waiting eventId waitingRef waitingDetail scheduled =>
    rw [hop] at hstepFrom hschedules
    cases hschedules
    obtain ⟨-, -, -, -, -, -, -, -, -, -, rfl⟩ := hstepFrom
    exact Int.add_le_add_left config.waitingRecheckSecs_le step.now
  | retry eventId error scheduled =>
    rw [hop] at hstepFrom hschedules
    cases hschedules
    obtain ⟨shard, event, hsettle, hworker, -, hnow⟩ := hstepFrom
    rw [hnow]
    exact hretry shard event error nextAt hsettle hworker
  | _ =>
    rw [hop] at hschedules
    cases hschedules

theorem runEngine_dueWithin (config : EngineConfig) (business : β) (shardCount : Nat)
    (steps : List (EngineStep β)) (hclocks : OwnClocks steps) :
    RetriesFrom config steps (runEngine config (.init business shardCount) steps) ∧
      ∀ k row, (runEngine config (.init business shardCount) steps).db.inbox.find? k = some row →
        DueWithin config.attemptWithin row := by
  induction steps using List.reverseRecOn with
  | nil =>
    constructor
    · intro shard event error nextAt hworker
      cases hworker
    · intro k row hrow
      cases hrow
  | append_singleton steps step ih =>
    obtain ⟨hretries, hdue⟩ := ih hclocks.of_concat
    rw [runEngine_append]
    refine ⟨hretries.concat step, ?_⟩
    intro k row hrow
    obtain ⟨inboxSteps, hinbox, hpunctual⟩ := step.punctual config
      (runEngine config (.init business shardCount) steps) (by
        intro shard event error nextAt hop hworker
        obtain ⟨t, ht, hle⟩ := hretries shard event error nextAt hworker
        obtain ⟨now, op⟩ := step
        cases hop
        have hread := hclocks.le_settle ht
        have hbound := config.maxRetryDelay_le
        change nextAt ≤ now + _
        omega)
    change (exec config _ step).db.inbox.find? k = some row at hrow
    rw [hinbox] at hrow
    exact runInbox_dueWithin config.attemptWithin_nonneg hpunctual hdue hrow

theorem nextRunnable_of_due {poisons : PoisonTable} (shardCount : Nat)
    (hrow : inbox.find? row.eventId = some row) (hpending : row.state = .pending)
    (hdue : row.nextAt ≤ now)
    (hpoison : ∀ poison, poisons.find? (row.aggregate, row.kind) = some poison →
      poison.blockedUntil ≤ now) :
    ∃ next, nextRunnableEngineInboxEvent inbox poisons shardCount (row.shardKey % shardCount) now =
      some next ∧ next.seq ≤ row.seq := by
  dsimp only [nextRunnableEngineInboxEvent]
  generalize hrunnable : inbox.table.rows.filter _ = runnable
  have hmem : row ∈ runnable := by
    rw [← hrunnable, List.mem_filter, decide_eq_true_eq]
    refine ⟨Table.mem_rows_iff.mpr hrow, hpending, hdue, rfl, ?_⟩
    cases hfind : poisons.find? (row.aggregate, row.kind) with
    | none => rfl
    | some poison => exact decide_eq_false (Int.not_lt.mpr (hpoison poison hfind))
  have hsorted := List.pairwise_insertionSort (fun a b : EngineInboxEvent => a.seq ≤ b.seq) runnable
  rw [← List.mem_insertionSort fun a b : EngineInboxEvent => a.seq ≤ b.seq] at hmem
  cases hlist : runnable.insertionSort fun a b => a.seq ≤ b.seq with
  | nil =>
    rw [hlist] at hmem
    cases hmem
  | cons next rest =>
    rw [hlist] at hmem hsorted
    refine ⟨next, rfl, ?_⟩
    rcases List.mem_cons.mp hmem with rfl | hlater
    · exact Nat.le_refl _
    · exact (List.pairwise_cons.mp hsorted).1 row hlater

/-- For every interleaving in which the clock of a worker does not go back: after a commit nobody
sleeps on a reference that it announces or whose aggregate it changes, except its own event where
its apply has parked it; and a pending event is due within a fixed time of its last change, from
when on a read of its shard returns it or an older one. -/
theorem no_lost_wakeup (config : EngineConfig) (business : β) (shardCount : Nat)
    (steps : List (EngineStep β)) (hclocks : OwnClocks steps) :
    let node := runEngine config (.init business shardCount) steps
    (∀ now later shard event run reference, node.workers shard = .holding event →
        run.result.commits = true →
        let after := exec config node ⟨now, .process shard (some run) later⟩
        WakesOn node.db after.db run.effects reference →
        ∀ row, after.db.inbox.find? row.eventId = some row → row.state = .pending →
          row.waitingRef = some reference →
          row.nextAt ≤ now ∨ row.eventId = event.eventId ∧
            ∃ waiting, run.result = .waiting waiting ∧ waiting.wakeRef = reference) ∧
      ∀ row, node.db.inbox.find? row.eventId = some row → row.state = .pending →
        row.nextAt ≤ row.updatedAt + config.attemptWithin ∧
          ∀ now, row.updatedAt + config.attemptWithin ≤ now →
            (∀ poison, node.db.poisons.find? (row.aggregate, row.kind) = some poison →
              poison.blockedUntil ≤ now) →
            ∃ next, nextRunnableEngineInboxEvent node.db.inbox node.db.poisons node.shardCount
                (row.shardKey % node.shardCount) now = some next ∧ next.seq ≤ row.seq := by
  intro node
  constructor
  · intro now later shard event run reference hworker hcommits after hwakes row hrow
      hpending hparked
    exact commit_leaves_due config hworker hcommits hwakes hrow hpending hparked
  · intro row hrow hpending
    have hdue := (runEngine_dueWithin config business shardCount steps hclocks).2 row.eventId row
      hrow hpending
    refine ⟨hdue, ?_⟩
    intro now hnow hpoison
    exact nextRunnable_of_due node.shardCount hrow hpending (hdue.trans hnow) hpoison

namespace Example

def graphEvent (eventId : String) : NewEngineInboxEvent where
  eventId := eventId
  aggregate := ⟨"graph", "1"⟩
  kind := "scan"
  source := .chain
  author := ""
  admissionClass := ""
  payload := []
  ack := none

def waitForGraph (status : String) : HandlerRun Unit where
  business := ()
  writes := []
  effects := { Effects.default with status := some status }
  result := .waiting ⟨"graph:1", ""⟩

def tellGraph : HandlerRun Unit where
  business := ()
  writes := []
  effects := { Effects.default with wakeRefs := ["graph:1"] }
  result := .applied

def parkedRun : List (EngineStep Unit) :=
  [⟨0, .submit (graphEvent "a")⟩, ⟨1, .read 0⟩, ⟨1, .process 0 (some (waitForGraph "Init")) 1⟩,
    ⟨2, .submit (graphEvent "b")⟩, ⟨3, .read 0⟩]

def comesUpRun : List (EngineStep Unit) :=
  [⟨0, .submit (graphEvent "a")⟩, ⟨1, .read 0⟩, ⟨1, .process 0 (some (waitForGraph "Init")) 1⟩,
    ⟨61, .read 0⟩]

def graphWaits (node : Node Unit) (eventId : String) : Option Int :=
  (node.db.inbox.find? eventId).bind fun row =>
    if row.state = .pending ∧ row.waitingRef = some "graph:1" then some row.nextAt else none

end Example

section

open Example

theorem no_lost_wakeup_parked : ∃ row, (exec .default (runEngine .default (.init () 1) parkedRun)
        ⟨3, .process 0 (some tellGraph) 3⟩).db.inbox.find? "a" = some row ∧
      row.state = .pending ∧ row.waitingRef = some "graph:1" ∧ row.nextAt ≤ 3 := by
  have hclocks : OwnClocks parkedRun := by
    intro shard
    cases shard with
    | zero => decide +kernel
    | succ shard => simp [parkedRun, reads]
  have hsome : ((exec .default (runEngine .default (.init () 1) parkedRun)
      ⟨3, .process 0 (some tellGraph) 3⟩).db.inbox.find? "a").any (fun row =>
        decide (row.eventId = "a" ∧ row.state = .pending ∧ row.waitingRef = some "graph:1")) =
          true := by
    decide +kernel
  have hworker : (runEngine .default (.init () 1) parkedRun).workers 0 =
      .holding (newInboxRow 2 (graphEvent "b") 2) := by
    decide +kernel
  cases hrow : (exec .default (runEngine .default (.init () 1) parkedRun)
      ⟨3, .process 0 (some tellGraph) 3⟩).db.inbox.find? "a" with
  | none =>
    rw [hrow] at hsome
    cases hsome
  | some row =>
    rw [hrow, Option.any_some, decide_eq_true_eq] at hsome
    obtain ⟨hid, hpending, hparked⟩ := hsome
    refine ⟨row, rfl, hpending, hparked, ?_⟩
    have hdue := (no_lost_wakeup .default () 1 parkedRun hclocks).1 3 3 0 _ tellGraph
      "graph:1" hworker rfl (.inl List.mem_cons_self) row (hid.symm ▸ hrow) hpending hparked
    rcases hdue with hdue | ⟨-, waiting, hresult, -⟩
    · exact hdue
    · cases hresult

/-- The event is parked on the graph.  When it comes up again, its apply changes the status of the
graph and waits for the graph once more: after the commit the event sleeps for another minute. -/
theorem own_wakeup_slept_through :
    graphWaits (runEngine .default (.init () 1) comesUpRun) "a" = some 61 ∧
      ((runEngine .default (.init () 1) comesUpRun).db.aggregates.find? ⟨"graph", "1"⟩).map
        (·.status) =
        some "Init" ∧
      ((runEngine .default (.init () 1) (comesUpRun ++
        [⟨61, .process 0 (some (waitForGraph "Challenge")) 61⟩])).db.aggregates.find? ⟨"graph",
        "1"⟩).map
          (·.status) = some "Challenge" ∧
      (⟨"graph", "1"⟩ : AggregateRef).wakeRef = "graph:1" ∧
      graphWaits (runEngine .default (.init () 1) (comesUpRun ++
        [⟨61, .process 0 (some (waitForGraph "Challenge")) 61⟩])) "a" = some 121 := by
  decide +kernel

end

end BitvmNode.Engine
