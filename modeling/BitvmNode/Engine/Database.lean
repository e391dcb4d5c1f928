import BitvmNode.Engine.InboxSteps
import BitvmNode.Engine.JobSteps
import BitvmNode.Engine.Outbox

/-!
# The database of the node

The tables of the engine, and one component for the business tables that only the handlers and the
other parts of the node write.  A transaction is a function of the database; what is rolled back is
not there.
-/

namespace BitvmNode.Engine

open Reasoning

structure EngineAggregate where
  aggregate : AggregateRef
  (status phase : String)
  state : Option String
  version : Nat
  lastEventId : Option String
  (createdAt updatedAt : Int)

structure EngineAggregateUpdate where
  (status phase : Option String)
  state : Option (Option String)
  lastEventId : Option String

abbrev AggregateTable := Table EngineAggregate.aggregate

structure Db (β : Type) where
  inbox : Inbox
  aggregates : AggregateTable
  poisons : PoisonTable
  outbox : OutboxTable
  jobs : JobTable
  business : β

def Db.empty {β : Type} (business : β) : Db β where
  inbox := .empty
  aggregates := .empty
  poisons := .empty
  outbox := .empty
  jobs := .empty
  business := business

inductive Backoff where
  | steps (delays : List Int)
  | doubling (base cap : Int)

def Backoff.delay (backoff : Backoff) (attempt : Nat) : Int :=
  let attempt := max attempt 1
  match backoff with
  | .steps delays => delays.getD (min (attempt - 1) (delays.length - 1)) 0
  | .doubling base cap => min (base * 2 ^ min (attempt - 1) 30) cap

structure EngineConfig where
  applyTimeoutSecs : Nat
  (inboxRetryBackoff poisonBackoff : Backoff)
  recheckIntervalSecs : Nat

def EngineConfig.default : EngineConfig where
  applyTimeoutSecs := 120
  inboxRetryBackoff := .steps [10, 30, 60, 120, 300, 600]
  poisonBackoff := .steps [0, 600, 3600, 6 * 3600, 24 * 3600]
  recheckIntervalSecs := 60

def EngineConfig.waitingRecheckSecs (config : EngineConfig) : Int :=
  max config.recheckIntervalSecs 1

def newAggregateRow (aggregate : AggregateRef) (now : Int) : EngineAggregate where
  aggregate := aggregate
  status := ""
  phase := ""
  state := none
  version := 0
  lastEventId := none
  createdAt := now
  updatedAt := now

def EngineAggregateUpdate.set (update : EngineAggregateUpdate) (now : Int) (row : EngineAggregate) :
    EngineAggregate :=
  { row with
    version := row.version + 1
    updatedAt := now
    status := update.status.getD row.status
    phase := update.phase.getD row.phase
    state := update.state.getD row.state
    lastEventId := update.lastEventId <|> row.lastEventId }

def upsertEngineAggregate (aggregates : AggregateTable) (aggregate : AggregateRef)
    (update : EngineAggregateUpdate) (now : Int) : AggregateTable × Option EngineAggregate :=
  let created := aggregates.insertOrIgnore (newAggregateRow aggregate now)
  let updated := created.update (·.aggregate = aggregate) (update.set now) fun _ => rfl
  (updated, updated.find? aggregate)

variable (poisons : PoisonTable)

def markEngineAggregatePoisoned (aggregate : AggregateRef)
    (action reason : String) (now : Int) (backoff : Backoff) : PoisonTable :=
  let again (poison : EnginePoison) : EnginePoison :=
    { poison with
      reason := reason
      poisonCount := poison.poisonCount + 1
      poisonedAt := now
      updatedAt := now }
  let counted :=
    match poisons.find? (aggregate, action) with
    | none => poisons.insertOrIgnore
        { aggregate, action, reason, poisonCount := 1, poisonedAt := now, blockedUntil := now,
          updatedAt := now }
    | some _ => poisons.update (·.key = (aggregate, action)) again fun _ => rfl
  counted.update (·.key = (aggregate, action))
    (fun poison => { poison with blockedUntil := now + max (backoff.delay poison.poisonCount) 0 })
    fun _ => rfl

def releaseEnginePoison (aggregate : AggregateRef) (action : String) : PoisonTable :=
  poisons.delete (·.key = (aggregate, action))

def clearEngineAggregatePoison (aggregate : AggregateRef) (action : Option String) : PoisonTable :=
  poisons.delete fun poison => poison.aggregate = aggregate ∧ action.all (poison.action = ·)

theorem find?_markEngineAggregatePoisoned (aggregate : AggregateRef)
    (action reason : String) (now : Int) (backoff : Backoff) (k : AggregateRef × String)
    (hk : k ≠ (aggregate, action)) :
    (markEngineAggregatePoisoned poisons aggregate action reason now backoff).find? k =
      poisons.find? k := by
  have hkeep : ∀ (t : PoisonTable) (f : EnginePoison → EnginePoison) (hf : ∀ r, (f r).key = r.key),
      (t.update (·.key = (aggregate, action)) f hf).find? k = t.find? k := by
    intro t f hf
    rw [Table.find?_update hf]
    cases hrow : t.find? k with
    | none => rfl
    | some row =>
      have hkey : row.key = k := Table.key_of_find? hrow
      rw [Option.map_some, if_neg (fun h => hk (hkey.symm.trans h))]
  unfold markEngineAggregatePoisoned
  refine (hkeep _ _ _).trans ?_
  cases hfind : poisons.find? (aggregate, action) with
  | none =>
    rw [Table.find?_insertOrIgnore, if_neg]
    exact hk
  | some poison => exact hkeep _ _ _

theorem find?_releaseEnginePoison (aggregate : AggregateRef) (action : String)
    (k : AggregateRef × String) (hk : k ≠ (aggregate, action)) :
    (releaseEnginePoison poisons aggregate action).find? k = poisons.find? k := by
  unfold releaseEnginePoison
  rw [Table.find?_delete]
  cases hrow : poisons.find? k with
  | none => rfl
  | some row =>
    have hkey : row.key = k := Table.key_of_find? hrow
    simpa [hkey] using hk

end BitvmNode.Engine
