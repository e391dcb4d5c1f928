import BitvmNode.Reasoning.DecimalTexts
import BitvmNode.Engine.Inbox
import BitvmNode.Graphs.Status

/-!
# Settlements reported by the gateway

The watcher of the gateway hands the withdraw events of a block range to their handlers, in one
transaction.
-/

namespace BitvmNode.EventWatch

open Reasoning Signing Engine Graphs

/-- Reading and writing of identifiers and addresses.  An address is shown in one fixed spelling. -/
structure GoatTexts where
  uuidFromStr : String → Option Uuid
  Address : Type
  [decEq : DecidableEq Address]
  addressFromStr : String → Option Address
  addressToString : Address → String
  addressFromStr_toString : ∀ addr, addressFromStr (addressToString addr) = some addr

instance (texts : GoatTexts) : DecidableEq texts.Address := texts.decEq

def stripHexPrefixOwned (s : String) : String :=
  match s.toList with
  | '0' :: 'x' :: rest | '0' :: 'X' :: rest => String.ofList rest
  | _ => s

inductive GoatTxType where
  | normal
  | bridgeInRequest
  | committeeAnswer
  | bridgeIn
  | postPeginData
  | postOperatorData
  | initWithdraw
  | cancelWithdraw
  | proceedWithdraw
  | withdrawHappyPath
  | withdrawUnhappyPath
  | withdrawDisproved
  deriving DecidableEq

inductive GoatTxProcessingStatus where
  | skipped
  | pending
  | processed
  | failed
  deriving DecidableEq

structure GoatTxRecord where
  (instanceId graphId : Uuid)
  txType : GoatTxType
  txHash : String
  height : Int
  isLocal : Bool
  processingStatus : GoatTxProcessingStatus
  extra : Option String
  createdAt : Int

/-- The primary key: one record for each instance, graph and kind of transaction. -/
def GoatTxRecord.key (record : GoatTxRecord) : Uuid × Uuid × GoatTxType :=
  (record.instanceId, record.graphId, record.txType)

abbrev GoatTxTable := Table GoatTxRecord.key

def GoatTxRecord.mergeStored (record stored : GoatTxRecord) : GoatTxRecord :=
  { record with
    createdAt := stored.createdAt
    isLocal := stored.isLocal
    processingStatus :=
      if stored.processingStatus = .processed then stored.processingStatus
        else record.processingStatus
    height := if record.height < stored.height then stored.height else record.height
    extra := if stored.extra.isSome ∧ record.extra.isNone then stored.extra else record.extra
    txHash := if stored.txHash ≠ "" then stored.txHash else record.txHash }

def upsertGoatTxRecord (records : GoatTxTable) (record : GoatTxRecord) : GoatTxTable :=
  match records.find? record.key with
  | some stored => records.insertOrReplace (record.mergeStored stored)
  | none => records.insertOrReplace record

structure Node where
  (peerId goatAddr reward : String)
  deriving DecidableEq

abbrev NodeTable := Table Node.peerId

section Rewards

variable (reals : SqlReals)

def updateNodeRewardByPeerId (nodes : NodeTable) (peerId reward : String) : NodeTable :=
  nodes.update (fun node => node.peerId = peerId)
    (fun node => { node with reward := sqlAdd reals node.reward reward }) fun _ => rfl

def addedReward (node : Node) (addValue : Nat) : Nat :=
  ((u256FromStr node.reward).getD 0 + addValue) % 2 ^ 256

def addNodeReward (nodes : NodeTable) (goatAddr : String) (addValue : Nat) : NodeTable :=
  (nodes.rows.filter fun node => node.goatAddr = goatAddr).foldl (fun nodes node =>
    updateNodeRewardByPeerId reals nodes node.peerId (toString (addedReward node addValue))) nodes

end Rewards

structure WithdrawEvent where
  (transactionHash blockNumber instanceId graphId : String)
  (operatorAddr rewardAmountSats : String)

inductive WithdrawPathsEvent where
  | withdrawHappyEvent (event : WithdrawEvent)
  | withdrawUnhappyEvent (event : WithdrawEvent)

def WithdrawPathsEvent.event : WithdrawPathsEvent → WithdrawEvent
  | .withdrawHappyEvent event | .withdrawUnhappyEvent event => event

def WithdrawPathsEvent.txType : WithdrawPathsEvent → GoatTxType
  | .withdrawHappyEvent _ => .withdrawHappyPath
  | .withdrawUnhappyEvent _ => .withdrawUnhappyPath

def WithdrawPathsEvent.status : WithdrawPathsEvent → GraphStatus
  | .withdrawHappyEvent _ => .operatorTake1
  | .withdrawUnhappyEvent _ => .operatorTake2

structure WithdrawDisprovedEvent where
  (transactionHash blockNumber instanceId graphId : String)
  (challengerAddr challengerAmountSats disproverAddr disproverAmountSats : String)

structure WatchState where
  graphs : GraphTable
  records : GoatTxTable
  nodes : NodeTable
  inbox : Inbox

section Handlers

variable (texts : GoatTexts) (reals : SqlReals)

def reflectGoatAddress (addr : String) : Option String :=
  (texts.addressFromStr addr).map texts.addressToString

def graphBelongsToInstance (graphs : GraphTable) (instanceId graphId : Uuid) : Bool :=
  match graphs.find? graphId with
  | some graph => graph.instanceId = instanceId
  | none => false

def applyGatewayGraphStatus (graphs : GraphTable) (instanceId graphId : Uuid) (target : GraphStatus)
    (now : Int) : GraphTable × GraphStatusTransitionOutcome :=
  transitionGraphStatus graphs instanceId graphId target .goatEvent none now

def goatStatusEvent (graphId : Uuid) (status : GraphStatus) (txHash : String) :
    NewEngineInboxEvent where
  eventId := "graph:" ++ graphId.hyphenated ++ ":goat:" ++ status.display ++ ":" ++ txHash
  aggregate := graphRef graphId
  kind := "goat_status"
  source := .chain
  author := ""
  admissionClass := ""
  payload := []
  ack := none

def parseUuid (text : String) : Except String Uuid :=
  match texts.uuidFromStr (stripHexPrefixOwned text) with
  | some id => .ok id
  | none => .error s!"invalid identifier {text}"

def parseBlockNumber (text : String) : Except String Int :=
  match parseInt64 text with
  | some height => .ok height
  | none => .error "fail to decode block number"

def rewardAmount (text : String) : Nat := (u256FromStr text).getD 0

def newGoatTxRecord (instanceId graphId : Uuid) (txType : GoatTxType) (txHash : String)
    (height now : Int) : GoatTxRecord where
  instanceId := instanceId
  graphId := graphId
  txType := txType
  txHash := txHash
  height := height
  isLocal := false
  processingStatus := .pending
  extra := none
  createdAt := now

def handleWithdrawPathsEvent (now : Int) (s : WatchState)
    (paths : WithdrawPathsEvent) : Except String WatchState := do
  let event := paths.event
  let graphId ← parseUuid texts event.graphId
  let instanceId ← parseUuid texts event.instanceId
  if graphBelongsToInstance s.graphs instanceId graphId = false then return s
  let rewardAdd := rewardAmount event.rewardAmountSats
  match reflectGoatAddress texts event.operatorAddr with
  | none => return s
  | some goatAddr =>
    let (graphs, outcome) := applyGatewayGraphStatus s.graphs instanceId graphId paths.status now
    if outcome ≠ .applied ∧ outcome ≠ .alreadyCurrent then return { s with graphs }
    let graphs := obsoleteInstanceGraphsExcept graphs instanceId (some graphId) now
    let isNewEvent := (s.records.find? (instanceId, graphId, paths.txType)).isNone
    let height ← parseBlockNumber event.blockNumber
    let records := upsertGoatTxRecord s.records
      (newGoatTxRecord instanceId graphId paths.txType event.transactionHash height now)
    let nodes := if isNewEvent then addNodeReward reals s.nodes goatAddr rewardAdd else s.nodes
    -- the aggregate mirrors the settlement and releases the next slot
    let inbox := (insertEngineInboxEvent s.inbox
      (goatStatusEvent graphId paths.status event.transactionHash) now).1
    return { graphs, records, nodes, inbox }

def handleWithdrawDisprovedEvent (now : Int) (s : WatchState) (event : WithdrawDisprovedEvent) :
    Except String WatchState := do
  let graphId ← parseUuid texts event.graphId
  let instanceId ← parseUuid texts event.instanceId
  if graphBelongsToInstance s.graphs instanceId graphId = false then return s
  match reflectGoatAddress texts event.challengerAddr,
    reflectGoatAddress texts event.disproverAddr with
  | some verifierAddr, some disproverAddr =>
    let (graphs, outcome) := applyGatewayGraphStatus s.graphs instanceId graphId .disprove now
    if outcome ≠ .applied ∧ outcome ≠ .alreadyCurrent then return { s with graphs }
    let isNewEvent := (s.records.find? (instanceId, graphId, .withdrawDisproved)).isNone
    let height ← parseBlockNumber event.blockNumber
    let records := upsertGoatTxRecord s.records
      (newGoatTxRecord instanceId graphId .withdrawDisproved event.transactionHash height now)
    let nodes :=
      if isNewEvent then
        addNodeReward reals (addNodeReward reals s.nodes verifierAddr
          (rewardAmount event.challengerAmountSats)) disproverAddr
            (rewardAmount event.disproverAmountSats)
      else s.nodes
    let inbox := (insertEngineInboxEvent s.inbox
      (goatStatusEvent graphId .disprove event.transactionHash) now).1
    return { graphs, records, nodes, inbox }
  | _, _ => return s

def handleWithdrawPathsEvents (now : Int) (s : WatchState) (events : List WithdrawPathsEvent) :
    Except String WatchState :=
  events.foldlM (handleWithdrawPathsEvent texts reals now) s

def handleWithdrawDisprovedEvents (now : Int) (s : WatchState)
    (events : List WithdrawDisprovedEvent) : Except String WatchState :=
  events.foldlM (handleWithdrawDisprovedEvent texts reals now) s

/-- The settlements among the events of one queried block range. -/
structure SettlementBatch where
  withdrawPathsEvents : List WithdrawPathsEvent
  withdrawDisprovedEvents : List WithdrawDisprovedEvent
  now : Int

def handleBatch (s : WatchState) (batch : SettlementBatch) : Except String WatchState := do
  let s ← handleWithdrawPathsEvents texts reals batch.now s batch.withdrawPathsEvents
  handleWithdrawDisprovedEvents texts reals batch.now s batch.withdrawDisprovedEvents

/-- A batch is one transaction.  Between two batches other writers may change the graphs. -/
inductive WatchStep where
  | batch (batch : SettlementBatch)
  | graphs (graphs : GraphTable)

def WatchState.step (s : WatchState) : WatchStep → WatchState
  | .batch batch =>
      match handleBatch texts reals s batch with
      | .ok s' => s'
      | .error _ => s
  | .graphs graphs => { s with graphs }

def WatchState.run (s : WatchState) (steps : List WatchStep) : WatchState :=
  steps.foldl (WatchState.step texts reals) s

end Handlers

end BitvmNode.EventWatch
