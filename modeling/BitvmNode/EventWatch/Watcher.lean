import Mathlib.Data.List.Basic
import Mathlib.Data.List.Nodup

/-!
# The watcher of a contract

A contract is watched by two tasks of the process: a monitor that wakes up every few seconds, and a
history sync that the monitor starts when it is far behind.
-/

namespace BitvmNode.EventWatch

inductive EventEntity where
  | initWithdraws
  | cancelWithdraws
  | proceedWithdraws
  | withdrawHappyPaths
  | withdrawUnhappyPaths
  | withdrawDisproveds
  | bridgeInRequests
  | committeeResponses
  | bridgeIns
  | postGraphDatas
  | initializes
  | claims
  | refunds
  deriving DecidableEq

def EventEntity.fields : EventEntity → List String
  | .postGraphDatas | .initWithdraws | .cancelWithdraws =>
      ["id", "instanceId", "graphId", "transactionHash", "blockNumber"]
  | .proceedWithdraws =>
      ["id", "instanceId", "graphId", "transactionHash", "blockNumber", "kickoffTxid"]
  | .withdrawHappyPaths | .withdrawUnhappyPaths =>
      ["id", "instanceId", "graphId", "transactionHash", "blockNumber", "operatorAddress",
        "rewardAmountSats"]
  | .withdrawDisproveds =>
      ["id", "instanceId", "graphId", "disproveTxType", "txnIndex", "challengeStartTxid",
        "challengeFinishTxid", "challengerAddress", "disproverAddress", "challengerRewardAmount",
        "disproverRewardAmount", "transactionHash", "blockNumber"]
  | .bridgeInRequests =>
      ["id", "instanceId", "transactionHash", "depositorAddress", "peginAmountSats", "txnFees",
        "userXonlyPubkey", "userChangeAddress", "userRefundAddress", "blockNumber",
        "blockTimestamp"]
  | .committeeResponses =>
      ["id", "instanceId", "committeeAddress", "committeePubkey", "transactionHash", "blockNumber"]
  | .bridgeIns =>
      ["id", "instanceId", "depositorAddress", "peginAmountSats", "feeAmountSats",
        "transactionHash", "blockNumber"]
  | .initializes =>
      ["id", "offerer", "claimer", "escrowHash", "claimHandler", "refundHandler", "blockTimestamp",
        "transactionHash", "blockNumber"]
  | .claims =>
      ["id", "offerer", "claimer", "escrowHash", "claimHandler", "witnessResult", "transactionHash",
        "blockNumber"]
  | .refunds =>
      ["id", "offerer", "claimer", "escrowHash", "witnessResult", "refundHandler",
        "transactionHash", "blockNumber"]

structure BlockRange where
  (startBlock endBlock : Int)

def BlockRange.Mem (range : BlockRange) (height : Int) : Prop :=
  range.startBlock ≤ height ∧ height ≤ range.endBlock

instance (range : BlockRange) (height : Int) : Decidable (range.Mem height) :=
  inferInstanceAs (Decidable (_ ∧ _))

inductive BlockFilter where
  | blockNumberGte (height : Int)
  | blockNumberLte (height : Int)

def BlockFilter.admits (height : Int) : BlockFilter → Bool
  | .blockNumberGte bound => bound ≤ height
  | .blockNumberLte bound => height ≤ bound

structure SingleQuery where
  entity : EventEntity
  fields : List String
  filters : List BlockFilter
  (orderBy orderDirection : Option String)
  (first skip : Option Nat)

abbrev QueryBuilder := List SingleQuery

namespace QueryBuilder

def addQuery (builder : QueryBuilder) (entity : EventEntity) : QueryBuilder :=
  builder ++ [⟨entity, [], [], none, none, none, none⟩]

def modify (entity : EventEntity) (f : SingleQuery → SingleQuery) : QueryBuilder → QueryBuilder
  | [] => []
  | query :: queries =>
      if query.entity = entity then f query :: queries else query :: modify entity f queries

def addField (entity : EventEntity) (builder : QueryBuilder) (field : String) : QueryBuilder :=
  modify entity (fun query => { query with fields := query.fields ++ [field] }) builder

def addFilter (entity : EventEntity) (builder : QueryBuilder) (filter : BlockFilter) :
    QueryBuilder :=
  modify entity (fun query => { query with filters := query.filters ++ [filter] }) builder

def setOrderBy (entity : EventEntity) (field direction : String) (builder : QueryBuilder) :
    QueryBuilder :=
  modify entity (fun query => { query with
    orderBy := some field
    orderDirection := some direction }) builder

end QueryBuilder

def addSingleQuery (blockRange : Option BlockRange) (builder : QueryBuilder)
    (entity : EventEntity) : QueryBuilder :=
  let builder := QueryBuilder.addQuery builder entity
  let builder := entity.fields.foldl (QueryBuilder.addField entity) builder
  let builder := QueryBuilder.setOrderBy entity "blockNumber" "asc" builder
  match blockRange with
  | some range =>
      QueryBuilder.addFilter entity
        (QueryBuilder.addFilter entity builder (.blockNumberGte range.startBlock))
          (.blockNumberLte range.endBlock)
  | none => builder

def getEventsQuery (eventEntities : List EventEntity) (blockRange : Option BlockRange) :
    QueryBuilder :=
  eventEntities.foldl (addSingleQuery blockRange) []

def defaultFirst : Nat := 100

structure Indexer (Event : Type) where
  blockNumber : Event → Int
  events : EventEntity → List Event
  sorted : ∀ entity, ((events entity).map blockNumber).Pairwise (· ≤ ·)

namespace Indexer

variable {Event : Type} (indexer : Indexer Event)

/-- The answer to a query in ascending order; the blocks that are asked for are indexed. -/
def execute (query : SingleQuery) : List Event :=
  let admitted := (indexer.events query.entity).filter fun event =>
    query.filters.all (·.admits (indexer.blockNumber event))
  (admitted.drop (query.skip.getD 0)).take (query.first.getD defaultFirst)

def fetch (eventEntities : List EventEntity) (range : BlockRange) : List (EventEntity × Event) :=
  let queries := getEventsQuery eventEntities (some range)
  eventEntities.flatMap fun entity =>
    match queries.find? (·.entity = entity) with
    | some query => (indexer.execute query).map fun event => (entity, event)
    | none => []

end Indexer

inductive WatchContractStatus where
  | unSync
  | syncing
  | synced
  | failed
  deriving DecidableEq

structure WatchContract where
  (gap fromHeight : Int)
  status : WatchContractStatus
  updatedAt : Int
  deriving DecidableEq

def getWatchContract (start gap : Int) (stored : Option WatchContract) (now : Int) :
    WatchContract :=
  match stored with
  | some contract =>
      { contract with
        fromHeight := if start > contract.fromHeight then start else contract.fromHeight
        gap := gap }
  | none => ⟨gap, start, .unSync, now⟩

def LOAD_HISTORY_EVENT_NO_WOKING_MAX_SECS : Int := 600

def WatchContract.toHeight (contract : WatchContract) (tip : Int) : Int :=
  min tip (contract.fromHeight + contract.gap)

def WatchContract.range (contract : WatchContract) (toHeight : Int) : BlockRange :=
  ⟨contract.fromHeight, toHeight⟩

def WatchContract.advance (contract : WatchContract) (toHeight : Int) (status : WatchContractStatus)
    (now : Int) : WatchContract :=
  { contract with fromHeight := toHeight + 1, status := status, updatedAt := now }

/-- Where a monitor tick stands: it has read the row, or it handles a range in its transaction. -/
inductive MonitorTick where
  | idle
  | contractRead (contract : WatchContract)
  | handling (contract : WatchContract) (toHeight : Int)

/-- The history sync of the contract, with its copy of the row.  The slot of the contract is taken
unless it is idle. -/
inductive HistorySync where
  | idle
  | waiting (contract : WatchContract)
  | handling (contract : WatchContract) (toHeight tip : Int)
  deriving DecidableEq

/-- The row, the tasks, and what committed transactions have handed to the handlers. -/
structure Watcher (Event : Type) where
  stored : Option WatchContract
  tick : MonitorTick
  history : HistorySync
  committed : List BlockRange
  handed : List (EventEntity × Event)

def Watcher.empty {Event : Type} : Watcher Event := ⟨none, .idle, .idle, [], []⟩

/-- What happens next.  A height is what the indexer reports, if it answers.  `saved` is false when
the statement that writes the row fails: its error is dropped and the transaction goes on. -/
inductive WatchAction where
  | tickStart (gap now : Int)
  | tickTip (tip : Option Int) (now : Int) (saved : Bool)
  | tickCommit (now : Int) (saved : Bool)
  | tickAbort
  | historyTip (tip : Option Int)
  | historyCommit (now : Int) (saved : Bool)
  | historyFail (now : Int) (saved : Bool)
  | historyPanic
  | restart

namespace Watcher

variable {Event : Type} (indexer : Indexer Event) (eventEntities : List EventEntity) (start : Int)
  (w : Watcher Event)

def upsertWatchContract (contract : WatchContract) (saved : Bool) : Watcher Event :=
  if saved then { w with stored := some contract } else w

def commitRange (contract : WatchContract) (toHeight : Int)
    (status : WatchContractStatus) (now : Int) (saved : Bool) : Watcher Event :=
  upsertWatchContract
    { w with
      committed := w.committed ++ [contract.range toHeight]
      handed := w.handed ++ indexer.fetch eventEntities (contract.range toHeight) }
    (contract.advance toHeight status now) saved

def monitorTip (contract : WatchContract) (tip : Option Int) (now : Int)
    (saved : Bool) : Watcher Event :=
  match tip with
  | none => { w with tick := .idle }
  | some tip =>
      if contract.fromHeight = 0 ∨ contract.fromHeight ≥ tip then { w with tick := .idle }
      else if contract.status = .syncing ∧
        contract.updatedAt + LOAD_HISTORY_EVENT_NO_WOKING_MAX_SECS > now then
        { w with tick := .idle }
      else if contract.fromHeight + contract.gap < tip then
        if w.history = .idle then
          let claimed := { contract with status := .syncing, updatedAt := now }
          upsertWatchContract { w with tick := .idle, history := .waiting claimed } claimed saved
        else { w with tick := .idle }
      else { w with tick := .handling contract (contract.toHeight tip) }

def historyTip (contract : WatchContract) (tip : Option Int) : Watcher Event :=
  match tip with
  | none => w
  | some tip =>
      if contract.fromHeight > tip then w
      else { w with history := .handling contract (contract.toHeight tip) tip }

def historyCommit (contract : WatchContract) (toHeight tip now : Int)
    (saved : Bool) : Watcher Event :=
  if toHeight ≥ tip then
    { commitRange indexer eventEntities w contract toHeight .synced now
      saved with history := .idle }
  else
    { commitRange indexer eventEntities w contract toHeight .syncing now saved with
      history := .waiting (contract.advance toHeight .syncing now) }

def step : WatchAction → Watcher Event
  | .tickStart gap now =>
      match w.tick with
      | .idle => { w with tick := .contractRead (getWatchContract start gap w.stored now) }
      | _ => w
  | .tickTip tip now saved =>
      match w.tick with
      | .contractRead contract => monitorTip w contract tip now saved
      | _ => w
  | .tickCommit now saved =>
      match w.tick with
      | .handling contract toHeight =>
          { commitRange indexer eventEntities w contract toHeight .synced now
            saved with tick := .idle }
      | _ => w
  | .tickAbort => { w with tick := .idle }
  | .historyTip tip =>
      match w.history with
      | .waiting contract => historyTip w contract tip
      | _ => w
  | .historyCommit now saved =>
      match w.history with
      | .handling contract toHeight tip =>
          historyCommit indexer eventEntities w contract toHeight tip now saved
      | _ => w
  | .historyFail now saved =>
      match w.history with
      | .idle => w
      | _ =>
          { w with
            history := .idle
            stored := if saved then w.stored.map fun contract =>
                { contract with status := .failed, updatedAt := now }
              else w.stored }
  | .historyPanic => { w with history := .idle }
  | .restart => { w with tick := .idle, history := .idle }

def run (actions : List WatchAction) : Watcher Event :=
  actions.foldl (step indexer eventEntities start) w

end Watcher

end BitvmNode.EventWatch
