import BitvmNode.Instance.Store

/-!
# The life of a peg-in

Five kinds of events decide on the status of an instance, each from the row as it is stored and from
the facts the event carries; the commit writes what was decided, guarded by the status that was
read.
-/

namespace BitvmNode.Instance

open Reasoning Signing

structure TxFact where
  confirmed : Bool
  blockHeight : Option Int
  inMempool : Bool

/-- Bitcoin facts at a height.  What was not queried is none. -/
structure BtcSnapshot where
  height : Int
  (prepare confirm cancel : Option TxFact)
  inputsAvailable : Option Bool

structure AnswerWindow where
  (goatHeight windowBlocks : Int)
  quorum : Nat
  answers : IndexMap

inductive InstanceAlert where
  | peginConfirmAfterTimeout
  | l2MintedAfterFailure

structure Transition where
  next : Option InstanceBridgeInStatus := none
  prepareHeight : Option Int := none
  committeesAnswers : Option IndexMap := none
  postPeginTxhash : Option String := none
  deleteKey : Bool := false
  alerts : List InstanceAlert := []

namespace Transition

def toStatus (status : InstanceBridgeInStatus) : Transition := { next := some status }

def alert (alert : InstanceAlert) : Transition := { alerts := [alert] }

end Transition

/-- How far the first stage of a snapshot comes: the status, the height of the Prepare, and that
height again if this snapshot has established it. -/
structure PrepareStage where
  current : InstanceBridgeInStatus
  prepareHeight : Int
  recorded : Option Int

/-- Answer and AwaitPrepare: the Prepare is confirmed, or an input is spent elsewhere (none).  The
spend is judged only once the txid of the Prepare is known. -/
def prepareStage (status : InstanceBridgeInStatus) (prepareHeight : Int) (snapshot : BtcSnapshot) :
    Option PrepareStage :=
  if status = .userInited ∨ status = .committeesAnswered then
    match snapshot.prepare.filter (·.confirmed) with
    | some prepare =>
        let prepareHeight := prepare.blockHeight.getD prepareHeight
        some ⟨.userBroadcastPeginPrepare, prepareHeight, some prepareHeight⟩
    | none =>
        if status = .committeesAnswered ∧ snapshot.inputsAvailable = some false then none
        else some ⟨status, prepareHeight, none⟩
  else some ⟨status, prepareHeight, none⟩

/-- Presign and Confirm: the chain facts first, the deadline last. -/
def confirmStage (current : InstanceBridgeInStatus) (prepareHeight : Int) (snapshot : BtcSnapshot)
    (deadlines : PeginDeadlines) : InstanceBridgeInStatus :=
  if current = .userBroadcastPeginPrepare ∨ current = .presigned then
    if snapshot.confirm.any (·.confirmed) then .relayerL1Broadcasted
    else if snapshot.cancel.any (·.confirmed) then .userCanceled
    else if current = .userBroadcastPeginPrepare ∧ snapshot.prepare.any (!·.confirmed) ∧
        snapshot.inputsAvailable = some false then
      -- the Prepare was reorganised out and an input is spent elsewhere
      .userDiscarded
    else if (deadlines.abandonHeight prepareHeight).any (· ≤ snapshot.height) ∧
        snapshot.confirm.any (!·.inMempool) then .timeout
    else current
  else current

def keyDeletionDue (current : InstanceBridgeInStatus) (keyDeleted : Bool) (snapshot : BtcSnapshot)
    (deadlines : PeginDeadlines) : Bool :=
  (current = .relayerL1Broadcasted ∨ current = .relayerL2Minted) && !keyDeleted &&
    (snapshot.confirm.filter (·.confirmed)).any fun confirm =>
      confirm.blockHeight.any fun confirmedAt => confirmedAt + deadlines.keyDeleteBlocks ≤
        snapshot.height

def decideBtcSnapshot (status : InstanceBridgeInStatus) (prepareHeight : Int) (keyDeleted : Bool)
    (snapshot : BtcSnapshot) (deadlines : PeginDeadlines) : Transition :=
  if status.isFailed then
    if status = .timeout then
      if snapshot.cancel.any (·.confirmed) then .toStatus .userCanceled
      else if snapshot.confirm.any (·.confirmed) then .alert .peginConfirmAfterTimeout
      else {}
    else {}
  else
    match prepareStage status prepareHeight snapshot with
    | none => .toStatus .userDiscarded
    | some stage =>
        let current := confirmStage stage.current stage.prepareHeight snapshot deadlines
        { next := if current = status then none else some current
          prepareHeight := stage.recorded
          deleteKey := keyDeletionDue current keyDeleted snapshot deadlines }

def decideAnswerWindow (status : InstanceBridgeInStatus) (requestHeight : Int)
    (knownAnswers : IndexMap) (window : AnswerWindow) : Transition :=
  if status ≠ .userInited ∨ window.goatHeight ≤ requestHeight + window.windowBlocks then {}
  else
    let answers := window.answers.foldl
      (fun answers (address, pubkey) => answers.insert address pubkey) knownAnswers
    { next := some (if answers.length ≥ window.quorum then .committeesAnswered
        else .noEnoughCommitteesAnswered)
      committeesAnswers := some answers }

def minRequiredOperator : Nat := 1

def decideGraphEndorsed (status : InstanceBridgeInStatus) (endorsedGraphs : Nat) : Transition :=
  if status = .userBroadcastPeginPrepare ∧ endorsedGraphs ≥ minRequiredOperator then
    .toStatus .presigned else {}

def decideL2Minted (status : InstanceBridgeInStatus) (txHash : String) : Transition :=
  if status.isFailed then .alert .l2MintedAfterFailure
  else
    { next := if status ≠ .relayerL2Minted then some .relayerL2Minted else none
      postPeginTxhash := some txHash }

inductive InstanceEvent where
  | btcSnapshot (snapshot : BtcSnapshot)
  | answerWindow (window : AnswerWindow)
  | graphEndorsed (endorsed : Int)
  | l2Minted (txHash : String)

/-- None parks the event: an endorsement waits for the Presign phase. -/
def decideEvent (deadlines : PeginDeadlines) (instance_ : InstanceRow) (event : InstanceEvent) :
    Option Transition :=
  match event with
  | .btcSnapshot snapshot =>
      some (decideBtcSnapshot instance_.status instance_.btcHeight instance_.keyDeleted
        snapshot deadlines)
  | .answerWindow window =>
      some (decideAnswerWindow instance_.status instance_.goatTxHeight
        instance_.committeesAnswers window)
  | .graphEndorsed endorsed =>
      if instance_.status = .userInited ∨ instance_.status = .committeesAnswered then none
      else some (decideGraphEndorsed instance_.status endorsed.toNat)
  | .l2Minted txHash => some (decideL2Minted instance_.status txHash)

section Apply

/-! The txids of a peg-in are computed from the row with the committee answers; that can fail, and
the transition goes on without them. -/

variable (peginTxids : InstanceRow → Option (Bytes × Bytes × Bytes))

def transitionUpdate (instance_ : InstanceRow) (next : InstanceBridgeInStatus)
    (transition : Transition) : InstanceUpdate :=
  let update : InstanceUpdate :=
    { instanceId := instance_.instanceId
      status := some next
      onlyIfStatusIn := some [instance_.status]
      btcHeight := transition.prepareHeight
      committeesAnswers := transition.committeesAnswers
      postPeginTxhash := transition.postPeginTxhash }
  match transition.committeesAnswers with
  | some answers =>
      if next = .committeesAnswered then
        match peginTxids { instance_ with committeesAnswers := answers } with
        | some (deposit, confirm, cancel) =>
            { update with
              btcTxid := some deposit
              peginConfirmTxid := some confirm
              peginCancelTxid := some cancel }
        | none => update
      else update
  | none => update

/-- The writes to the row; none if it has left the status that was read, which rolls the apply
back. -/
def commit (instances : InstanceTable) (instance_ : InstanceRow) (transition : Transition)
    (now : Int) : Option InstanceTable :=
  match transition.next.filter (· ≠ instance_.status) with
  | some next =>
      let (instances, updated) :=
        updateInstance instances (transitionUpdate peginTxids instance_ next transition) now
      if updated then some instances else none
  | none =>
      match transition.postPeginTxhash with
      | some txHash =>
          some (updateInstance instances
            { instanceId := instance_.instanceId, postPeginTxhash := some txHash } now).1
      | none => some instances

variable (deadlines : PeginDeadlines) (instances : InstanceTable)

def applyEvent (instanceId : Uuid) (event : InstanceEvent) (now : Int) : InstanceTable :=
  match instances.find? instanceId with
  | none => instances
  | some instance_ =>
      match decideEvent deadlines instance_ event with
      | none => instances
      | some transition => (commit peginTxids instances instance_ transition now).getD instances

structure GenerateInstanceParams where
  instanceId : Uuid
  (network fromAddr toAddr : String)
  amount : Int
  fees : List Nat
  (inputUtxos peginRequestTxHash : String)
  (peginRequestHeight peginTimestamp : Int)
  userXonlyPubkey : Bytes
  (userChangeAddr userRefundAddr : String)

def generateInstance (params : GenerateInstanceParams) (now : Int) : InstanceRow where
  instanceId := params.instanceId
  network := params.network
  fromAddr := params.fromAddr
  toAddr := params.toAddr
  amount := params.amount
  fees := params.fees
  inputUtxos := params.inputUtxos
  status := .userInited
  goatTxHash := params.peginRequestTxHash
  goatTxHeight := params.peginRequestHeight
  userXonlyPubkey := params.userXonlyPubkey
  userChangeAddr := params.userChangeAddr
  userRefundAddr := params.userRefundAddr
  btcTxid := none
  btcHeight := 0
  peginConfirmTxid := none
  peginCancelTxid := none
  committeesAnswers := []
  peginDataTxHash := ""
  parameters := none
  postPeginTxhash := none
  keyDeleted := false
  statusUpdatedAt := params.peginTimestamp
  createdAt := now
  updatedAt := now

inductive LifecycleStep where
  | apply (instanceId : Uuid) (event : InstanceEvent) (now : Int)
  /-- The monitor of the requests; a late request only creates a missing row. -/
  | peginRequest (params : GenerateInstanceParams) (outsideWindow : Bool) (now : Int)
  /-- The watcher builds an instance that is minted and was never built. -/
  | bridgeIn (params : GenerateInstanceParams) (txHash : String) (now : Int)
  | committeeAnswer (instanceId : Uuid) (address : String) (pubkey : Bytes) (now : Int)
  | keyDeleted (instanceId : Uuid) (now : Int)
  | parameters (instanceId : Uuid) (parameters : String) (now : Int)

def lifecycleStep : LifecycleStep → InstanceTable
  | .apply instanceId event now => applyEvent peginTxids deadlines instances instanceId event now
  | .peginRequest params outsideWindow now =>
      if outsideWindow then insertInstanceIfAbsent instances (generateInstance params now)
      else upsertPeginRequestInstance instances (generateInstance params now)
  | .bridgeIn params txHash now =>
      insertInstanceIfAbsent instances
        { generateInstance params now with
          status := .relayerL2Minted
          postPeginTxhash := some txHash }
  | .committeeAnswer instanceId address pubkey now =>
      instances.update (·.instanceId = instanceId)
        (fun row => { row with
          committeesAnswers := row.committeesAnswers.insert address pubkey
          updatedAt := now }) fun _ => rfl
  | .keyDeleted instanceId now =>
      (updateInstance instances { instanceId := instanceId, keyDeleted := some true } now).1
  | .parameters instanceId parameters now =>
      instances.update (·.instanceId = instanceId)
        (fun row => { row with parameters := some parameters, updatedAt := now }) fun _ => rfl

def lifecycleRun (steps : List LifecycleStep) :
    InstanceTable :=
  steps.foldl (lifecycleStep peginTxids deadlines) instances

end Apply

end BitvmNode.Instance
