import BitvmNode.Engine.Effects
import BitvmNode.Engine.Runtime

/-!
# Events are applied once and as a whole

Whatever the tasks of the engine do and in whatever order, with restarts at any point: the row of an
event that a worker holds stays pending until that worker marks it, since shards do not share
events.
-/

namespace BitvmNode.Engine

open Reasoning

variable {β : Type}

structure SameEvent (row event : EngineInboxEvent) : Prop where
  eventId : row.eventId = event.eventId
  aggregate : row.aggregate = event.aggregate
  shardKey : row.shardKey = event.shardKey
  kind : row.kind = event.kind
  payload : row.payload = event.payload
  ackTarget : row.ackTarget = event.ackTarget

theorem SameEvent.refl (row : EngineInboxEvent) : SameEvent row row :=
  ⟨rfl, rfl, rfl, rfl, rfl, rfl⟩

theorem SameEvent.trans {a b c : EngineInboxEvent} (h : SameEvent a b) (h' : SameEvent b c) :
    SameEvent a c :=
  ⟨h.eventId.trans h'.eventId, h.aggregate.trans h'.aggregate, h.shardKey.trans h'.shardKey,
    h.kind.trans h'.kind, h.payload.trans h'.payload, h.ackTarget.trans h'.ackTarget⟩

variable {inbox : Inbox} {k : String} {row : EngineInboxEvent}

theorem InboxStep.pending_kept (step : InboxStep) (hrow : inbox.find? k = some row)
    (hpending : row.state = .pending) (hmarks : step.op.marks ≠ some k) :
    ∃ row', (step.exec inbox).find? k = some row' ∧ row'.state = .pending ∧ SameEvent row' row := by
  have hid : row.eventId = k := Table.key_of_find? hrow
  have hchange := step.rowChange hrow
  generalize (step.exec inbox).find? k = after at hchange
  subst hid
  cases hchange with
  | same => exact ⟨row, rfl, hpending, .refl row⟩
  | rearmed event _ _ hfailed => rw [hpending] at hfailed; cases hfailed
  | applied hop | parked waitingRef waitingDetail nextAt hop | retried error nextAt hop
  | failed reason hop
  | poisoned reason hop => rw [hop] at hmarks; exact absurd rfl hmarks
  | woken _ _ => exact ⟨_, rfl, hpending, ⟨rfl, rfl, rfl, rfl, rfl, rfl⟩⟩
  | purged before _ hstate => exact absurd hpending hstate

theorem Harmless.pending_kept {steps : List InboxStep} (h : Harmless steps)
    (hrow : inbox.find? k = some row) (hpending : row.state = .pending) :
    ∃ row', (runInbox inbox steps).find? k = some row' ∧ row'.state = .pending ∧
      SameEvent row' row := by
  induction steps generalizing inbox row with
  | nil => exact ⟨row, hrow, hpending, .refl row⟩
  | cons step steps ih =>
    have hmarks : step.op.marks ≠ some k := by
      rw [(h step List.mem_cons_self).1]
      intro hcontra
      cases hcontra
    obtain ⟨next, hnext, hnextPending, hsame⟩ := step.pending_kept hrow hpending hmarks
    obtain ⟨last, hlast, hlastPending, hlastSame⟩ :=
      ih (fun other hother => h other (List.mem_cons_of_mem _ hother)) hnext hnextPending
    exact ⟨last, hlast, hlastPending, hlastSame.trans hsame⟩

def EngineInboxState.settled : EngineInboxState → Bool
  | .applied | .poisoned => true
  | .pending | .failed => false

theorem InboxStep.settled_kept (step : InboxStep) (hrow : inbox.find? k = some row)
    (hsettled : row.state.settled = true) : (step.exec inbox).find? k = some row ∨
      step.op.purges = true ∧ (step.exec inbox).find? k = none := by
  have hpending : row.state ≠ .pending := by
    intro hstate
    rw [hstate] at hsettled
    cases hsettled
  have hchange := step.rowChange hrow
  generalize (step.exec inbox).find? k = after at hchange
  cases hchange with
  | same => exact .inl rfl
  | rearmed event _ _ hfailed => rw [hfailed] at hsettled; cases hsettled
  | applied _ hstate | parked waitingRef waitingDetail nextAt _ hstate
  | retried error nextAt _ hstate
  | failed reason _ hstate | poisoned reason _ hstate | woken _ hstate =>
    exact absurd hstate hpending
  | purged before hop _ =>
    right
    rcases hop with hop | hop <;> exact ⟨by rw [hop]; rfl, rfl⟩

theorem Harmless.settled_kept {steps : List InboxStep} (h : Harmless steps)
    (hrow : inbox.find? k = some row) (hsettled : row.state.settled = true) :
    (runInbox inbox steps).find? k = some row := by
  induction steps generalizing inbox with
  | nil => exact hrow
  | cons step steps ih =>
    apply ih fun other hother => h other (List.mem_cons_of_mem _ hother)
    rcases step.settled_kept hrow hsettled with hkept | ⟨hpurges, -⟩
    · exact hkept
    · rw [(h step List.mem_cons_self).2] at hpurges
      cases hpurges

def PayloadsKept (inbox : Inbox) : Prop :=
  ∀ k row, inbox.find? k = some row → row.state ≠ .applied → row.payload.isSome = true

theorem PayloadsKept.exec (h : PayloadsKept inbox) (step : InboxStep) :
    PayloadsKept (step.exec inbox) := by
  intro k row' hrow' hstate
  cases hrow : inbox.find? k with
  | none =>
    obtain ⟨event, -, -, rfl⟩ := step.row_appears hrow hrow'
    rfl
  | some row =>
    have hkept := h k row hrow
    have hchange := step.rowChange hrow
    rw [hrow'] at hchange
    cases hchange with
    | same => exact hkept hstate
    | rearmed event _ _ hfailed => exact hkept (by rw [hfailed]; decide)
    | applied _ _ => exact absurd rfl hstate
    | parked waitingRef waitingDetail nextAt _ hpending | retried error nextAt _ hpending
    | failed reason _ hpending
    | poisoned reason _ hpending | woken _ hpending => exact hkept (by rw [hpending]; decide)

theorem PayloadsKept.run (h : PayloadsKept inbox) (steps : List InboxStep) :
    PayloadsKept (runInbox inbox steps) := by
  induction steps generalizing inbox with
  | nil => exact h
  | cons step steps ih => exact ih (h.exec step)

structure Node.Sound (node : Node β) : Prop where
  held : ∀ shard event, (node.workers shard).unmarked = some event →
    event.shardKey % node.shardCount = shard ∧ ∃ row, node.db.inbox.find? event.eventId = some row ∧
      row.state = .pending ∧ SameEvent row event
  payloads : PayloadsKept node.db.inbox

theorem Node.Sound.init (business : β) (shardCount : Nat) :
    (Node.init business shardCount).Sound where
  held := by
    intro shard event hevent
    cases hevent
  payloads := by
    intro k row hrow
    cases hrow

variable {node : Node β}

theorem Node.Sound.shard_eq (h : node.Sound) {shard other : Nat} {event held : EngineInboxEvent}
    (hevent : (node.workers shard).unmarked = some event)
    (hheld : (node.workers other).unmarked = some held) (hid : event.eventId = held.eventId) :
    shard = other := by
  obtain ⟨hshard, row, hrow, -, hsame⟩ := h.held shard event hevent
  obtain ⟨hother, row', hrow', -, hsame'⟩ := h.held other held hheld
  rw [hid, hrow', Option.some.injEq] at hrow
  subst hrow
  rw [← hshard, ← hother, ← hsame.shardKey, hsame'.shardKey]

theorem Node.Sound.exec (h : node.Sound) (config : EngineConfig) (step : EngineStep β) :
    (step.exec config node).Sound := by
  have heffect := step.inboxEffect config node
  generalize step.exec config node = node' at heffect
  cases heffect with
  | harmless steps hinbox hharmless hworkers =>
    refine ⟨?_, hinbox ▸ h.payloads.run steps⟩
    intro shard event hevent
    rcases hworkers shard event hevent with ⟨hbefore, hcount⟩ | ⟨hshard, hrow, hpending⟩
    · obtain ⟨hshard, row, hrow, hpending, hsame⟩ := h.held shard event hbefore
      obtain ⟨row', hrow', hpending', hsame'⟩ := hharmless.pending_kept hrow hpending
      rw [hcount, hinbox]
      exact ⟨hshard, row', hrow', hpending', hsame'.trans hsame⟩
    · exact ⟨hshard, event, hrow, hpending, .refl event⟩
  | marked shard event steps mark hinbox hharmless hevent hmark hcount hdone hothers =>
    refine ⟨?_, hinbox ▸ (h.payloads.run steps).exec mark⟩
    intro other held hheld
    have hne : other ≠ shard := by
      rintro rfl
      cases hdone.symm.trans hheld
    rw [hothers other hne] at hheld
    obtain ⟨hshard, row, hrow, hpending, hsame⟩ := h.held other held hheld
    obtain ⟨next, hnext, hnextPending, hnextSame⟩ := hharmless.pending_kept hrow hpending
    -- the marked event belongs to another shard
    have hmarks : mark.op.marks ≠ some held.eventId := by
      rw [hmark]
      intro heq
      exact hne (h.shard_eq hevent hheld (Option.some.inj heq)).symm
    obtain ⟨last, hlast, hlastPending, hlastSame⟩ := mark.pending_kept hnext hnextPending hmarks
    rw [hcount, hinbox]
    exact ⟨hshard, last, hlast, hlastPending, (hlastSame.trans hnextSame).trans hsame⟩
  | purged purge hinbox hop hcount hworkers =>
    refine ⟨?_, hinbox ▸ h.payloads.exec purge⟩
    intro shard event hevent
    rw [hworkers] at hevent
    obtain ⟨hshard, row, hrow, hpending, hsame⟩ := h.held shard event hevent
    have hmarks : purge.op.marks ≠ some event.eventId := by
      obtain ⟨before, ⟨-, hpurge⟩ | ⟨-, hpurge⟩⟩ :=
        hop <;> (rw [hpurge]; intro hcontra; cases hcontra)
    obtain ⟨row', hrow', hpending', hsame'⟩ := purge.pending_kept hrow hpending hmarks
    rw [hcount, hinbox]
    exact ⟨hshard, row', hrow', hpending', hsame'.trans hsame⟩

theorem Node.Sound.run (h : node.Sound) (config : EngineConfig)
    (steps : List (EngineStep β)) : (runEngine config node steps).Sound := by
  induction steps generalizing node with
  | nil => exact h
  | cons step steps ih => exact ih (h.exec config step)

theorem EngineStep.settled_kept (config : EngineConfig) (node : Node β) (step : EngineStep β)
    (hrow : node.db.inbox.find? k = some row) (hsettled : row.state.settled = true) :
    (step.exec config node).db.inbox.find? k = some row ∨
      (∃ before, step.op = .purgeInbox before ∨ step.op = .purgeRejected before) ∧
        (step.exec config node).db.inbox.find? k = none := by
  have heffect := step.inboxEffect config node
  generalize step.exec config node = node' at heffect
  cases heffect with
  | harmless steps hinbox hharmless _ =>
    left
    rw [hinbox]
    exact hharmless.settled_kept hrow hsettled
  | marked shard event steps mark hinbox hharmless _ hmark _ _ _ =>
    left
    rw [hinbox]
    rcases mark.settled_kept (hharmless.settled_kept hrow hsettled) hsettled with hkept |
      ⟨hpurges, -⟩
    · exact hkept
    · rw [InboxOp.purges_of_marks hmark] at hpurges
      cases hpurges
  | purged purge hinbox hop _ _ =>
    rw [hinbox]
    rcases purge.settled_kept hrow hsettled with hkept | ⟨-, hgone⟩
    · exact .inl hkept
    · obtain ⟨before, ⟨hstep, -⟩ | ⟨hstep, -⟩⟩ := hop
      · exact .inr ⟨⟨before, .inl hstep⟩, hgone⟩
      · exact .inr ⟨⟨before, .inr hstep⟩, hgone⟩

/-- The step commits the event as applied: its worker holds the event, and the handler ends as
applied. -/
def EngineStep.Commits (node : Node β) (step : EngineStep β) (eventId : String) : Prop :=
  ∃ shard run later event, step.op = .process shard (some run) later ∧
    node.workers shard = .holding event ∧ event.eventId = eventId ∧ run.result = .applied

variable {step : EngineStep β}

theorem EngineStep.Commits.applied {eventId : String} (h : step.Commits node eventId)
    (config : EngineConfig) (hsound : node.Sound) :
    ∃ row, (step.exec config node).db.inbox.find? eventId = some row ∧ row.state = .applied := by
  obtain ⟨shard, run, later, event, hop, hworker, rfl, hresult⟩ := h
  obtain ⟨now, op⟩ := step
  cases hop
  obtain ⟨-, row, hrow, hpending, hsame⟩ := hsound.held shard event (by rw [hworker]; rfl)
  obtain ⟨writes, hwrites, hwritesHarmless⟩ := run.inbox_eq_run now node.db
  obtain ⟨committed, _, hcommit, -⟩ := commitApply_eq_some config (run.exec now node.db) event
    (node.db.aggregates.find? event.aggregate) run.effects none now
  obtain ⟨steps, hinbox, hharmless⟩ := commitApply_inbox hcommit
  have hexec : (EngineStep.exec config node ⟨now, .process shard (some run) later⟩).db =
    committed := by
    simp only [EngineStep.exec, hworker, processEvent, hresult, hcommit]
  -- the row is pending until the mark hits it
  obtain ⟨before, hbefore, hbeforePending, -⟩ := hwritesHarmless.pending_kept hrow hpending
  rw [← hwrites] at hbefore
  obtain ⟨last, hlast, hlastPending, -⟩ := hharmless.pending_kept hbefore hbeforePending
  rw [hexec, hinbox]
  refine ⟨appliedRow now last, ?_, rfl⟩
  refine (find?_markPending _ event.eventId (appliedRow now) (fun _ => rfl) event.eventId).trans ?_
  rw [hlast, Option.map_some, if_pos ⟨Table.key_of_find? hlast, hlastPending⟩]

theorem EngineStep.Commits.pending {eventId : String} (h : step.Commits node eventId)
    (hsound : node.Sound) :
    ∃ row, node.db.inbox.find? eventId = some row ∧ row.state = .pending := by
  obtain ⟨shard, run, later, event, -, hworker, rfl, -⟩ := h
  obtain ⟨-, row, hrow, hpending, -⟩ := hsound.held shard event (by rw [hworker]; rfl)
  exact ⟨row, hrow, hpending⟩

theorem runEngine_settled_kept (config : EngineConfig) (node : Node β) (steps : List (EngineStep β))
    (hrow : node.db.inbox.find? k = some row) (hsettled : row.state.settled = true) :
    (runEngine config node steps).db.inbox.find? k = some row ∨
      ∃ kept, kept <+: steps ∧ (runEngine config node kept).db.inbox.find? k = none := by
  induction steps generalizing node with
  | nil => exact .inl hrow
  | cons step steps ih =>
    rcases step.settled_kept config node hrow hsettled with hkept | ⟨-, hgone⟩
    · rcases ih (step.exec config node) hkept with hlast | ⟨kept, hinit, hgone⟩
      · exact .inl hlast
      · exact .inr ⟨step :: kept, List.cons_prefix_cons.mpr ⟨rfl, hinit⟩, hgone⟩
    · exact .inr ⟨[step], List.cons_prefix_cons.mpr ⟨rfl, List.nil_prefix⟩, hgone⟩

structure SameBut (event : EngineInboxEvent) (db db' : Db β) : Prop where
  business : db'.business = db.business
  aggregates : db'.aggregates = db.aggregates
  outbox : db'.outbox = db.outbox
  jobs : db'.jobs = db.jobs
  inbox : ∀ k, k ≠ event.eventId → db'.inbox.find? k = db.inbox.find? k
  poisons : ∀ key, key ≠ (event.aggregate, event.kind) →
    db'.poisons.find? key = db.poisons.find? key

theorem SameBut.refl (event : EngineInboxEvent) (db : Db β) : SameBut event db db :=
  ⟨rfl, rfl, rfl, rfl, fun _ _ => rfl, fun _ _ => rfl⟩

def WorkerState.event : WorkerState → Option EngineInboxEvent
  | .holding event | .rejecting event _ | .retrying event _ _ | .poisoning event _
  | .releasing event => some event
  | .idle => none

def ApplyResult.committed : ApplyResult → Bool
  | .applied | .waiting _ => true
  | .rejected _ | .transient _ | .invariant _ | .timedOut | .panicked _ => false

/-- The step is part of an attempt at the event that does not commit: the end of the handler, or one
of the records after it. -/
def EngineStep.Fails (node : Node β) (step : EngineStep β) (event : EngineInboxEvent) : Prop :=
  (∃ shard run later, step.op = .process shard run later ∧ node.workers shard = .holding event ∧
      ∀ handler, run = some handler → handler.result.committed = false) ∨
    ∃ shard, step.op = .settle shard ∧ (node.workers shard).event = some event

theorem find?_markPending_of_ne (inbox : Inbox) (eventId : String)
    (set : EngineInboxEvent → EngineInboxEvent) (hset : ∀ row, (set row).eventId = row.eventId)
    (hk : k ≠ eventId) : (markPending inbox eventId set hset).1.find? k = inbox.find? k := by
  rw [find?_markPending]
  cases hrow : inbox.find? k with
  | none => rfl
  | some row =>
    rw [Option.map_some, if_neg]
    intro h
    exact hk ((Table.key_of_find? hrow).symm.trans h.1)

theorem EngineStep.Fails.sameBut {event : EngineInboxEvent} (h : step.Fails node event)
    (config : EngineConfig) : SameBut event node.db (step.exec config node).db := by
  obtain ⟨now, op⟩ := step
  rcases h with ⟨shard, run, later, hop, hworker, hfails⟩ | ⟨shard, hop, hevent⟩
  · cases hop
    simp only [EngineStep.exec, hworker]
    cases run with
    | none =>
      exact ⟨rfl, rfl, rfl, rfl, fun k hk => find?_markPending_of_ne _ _ _ _ hk, fun _ _ => rfl⟩
    | some run =>
      have hresult := hfails run rfl
      obtain ⟨business, writes, effects, result⟩ := run
      cases result with
      | applied | waiting waiting => cases hresult
      | rejected reason | transient chain | invariant error | timedOut | panicked message =>
        exact .refl event node.db
  · cases hop
    simp only [EngineStep.exec]
    cases hworker : node.workers shard with
    | idle =>
      rw [hworker] at hevent
      cases hevent
    | holding held => exact .refl event node.db
    | rejecting held reason | retrying held error nextAt =>
      rw [hworker] at hevent
      cases hevent
      exact ⟨rfl, rfl, rfl, rfl, fun k hk => find?_markPending_of_ne _ _ _ _ hk, fun _ _ => rfl⟩
    | releasing held =>
      rw [hworker] at hevent
      cases hevent
      exact ⟨rfl, rfl, rfl, rfl, fun _ _ => rfl,
        fun key hkey => find?_releaseEnginePoison _ _ _ key hkey⟩
    | poisoning held reason =>
      rw [hworker] at hevent
      cases hevent
      exact ⟨rfl, rfl, rfl, rfl, fun k hk => find?_markPending_of_ne _ _ _ _ hk,
        fun key hkey => find?_markEngineAggregatePoisoned _ _ _ _ _ _ key hkey⟩

/-- In every run of the engine: an event is committed as applied at most once while its row is
there; an applied or poisoned row does not change until it is purged; a row that can still be
applied has its payload; and an attempt that does not commit changes nothing but the row of its
event and the poison of its action. -/
theorem inbox_exactly_once (config : EngineConfig) (business : β) (shardCount : Nat)
    (steps : List (EngineStep β)) :
    let run := runEngine config (.init business shardCount)
    (∀ pre first mid second post eventId, steps = pre ++ first :: (mid ++ second :: post) →
        first.Commits (run pre) eventId → second.Commits (run (pre ++ first :: mid)) eventId →
        ∃ kept, kept <+: mid ∧ (run (pre ++ first :: kept)).db.inbox.find? eventId = none) ∧
      (∀ pre step post k row, steps = pre ++ step :: post →
        (run pre).db.inbox.find? k = some row → row.state = .applied ∨ row.state = .poisoned →
        (run (pre ++ [step])).db.inbox.find? k = some row ∨
          (∃ before, step.op = .purgeInbox before ∨ step.op = .purgeRejected before) ∧
            (run (pre ++ [step])).db.inbox.find? k = none) ∧
      (∀ row ∈ (run steps).db.inbox.table.rows, row.state ≠ .applied → row.payload.isSome = true) ∧
      ∀ pre step post event, steps = pre ++ step :: post → step.Fails (run pre) event →
        SameBut event (run pre).db (run (pre ++ [step])).db := by
  intro run
  have hsound : ∀ steps, (run steps).Sound := fun steps =>
    (Node.Sound.init business shardCount).run config steps
  have hstep : ∀ pre step, run (pre ++ [step]) = step.exec config (run pre) := fun pre step =>
    runEngine_append config _ pre [step]
  refine ⟨?_, ?_, ?_, ?_⟩
  · intro pre first mid second post eventId _ hfirst hsecond
    obtain ⟨row, hrow, happlied⟩ := hfirst.applied config (hsound pre)
    have hsplit : ∀ rest, run (pre ++ first :: rest) =
      runEngine config (first.exec config (run pre)) rest :=
      fun rest => runEngine_append config _ pre (first :: rest)
    rcases runEngine_settled_kept config (first.exec config (run pre)) mid hrow
      (by rw [happlied]; rfl) with hkept | ⟨kept, hinit, hgone⟩
    · -- still applied, but the second commit needs a pending row
      obtain ⟨row', hrow', hpending⟩ := hsecond.pending (hsound _)
      rw [hsplit, hkept, Option.some.injEq] at hrow'
      rw [← hrow', happlied] at hpending
      cases hpending
    · exact ⟨kept, hinit, by rw [hsplit]; exact hgone⟩
  · intro pre step post k row _ hrow hstate
    rw [hstep]
    apply step.settled_kept config (run pre) hrow
    rcases hstate with hstate | hstate <;> (rw [hstate]; rfl)
  · intro row hrow hstate
    exact (hsound steps).payloads row.eventId row (Table.mem_rows_iff.mp hrow) hstate
  · intro pre step post event _ hfails
    rw [hstep]
    exact hfails.sameBut config

end BitvmNode.Engine
