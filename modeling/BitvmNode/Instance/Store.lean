import Mathlib.Data.List.Sort
import BitvmNode.Reasoning.SqlValues
import BitvmNode.Reasoning.Tables
import BitvmNode.Signing.Committee
import BitvmNode.Instance.Status

/-!
# The rows of the instances

The statements of the store on the instance table: the insert of a peg-in request, which refreshes a
row that is still at its beginning, the update of single columns guarded by the status, and the
selection of rows.
-/

namespace BitvmNode.Instance

open Reasoning Signing

/-- A map that keeps the order of its first insertions. -/
abbrev IndexMap := List (String × Bytes)

def IndexMap.insert (map : IndexMap) (key : String) (value : Bytes) : IndexMap :=
  if map.any (·.1 = key) then map.map fun entry => if entry.1 = key then (key, value) else entry
  else map ++ [(key, value)]

structure InstanceRow where
  instanceId : Uuid
  (network fromAddr toAddr : String)
  amount : Int
  fees : List Nat
  inputUtxos : String
  status : InstanceBridgeInStatus
  goatTxHash : String
  goatTxHeight : Int
  userXonlyPubkey : Bytes
  (userChangeAddr userRefundAddr : String)
  btcTxid : Option Bytes
  btcHeight : Int
  (peginConfirmTxid peginCancelTxid : Option Bytes)
  committeesAnswers : IndexMap
  peginDataTxHash : String
  (parameters postPeginTxhash : Option String)
  keyDeleted : Bool
  (statusUpdatedAt createdAt updatedAt : Int)
  deriving DecidableEq

abbrev InstanceTable := Table InstanceRow.instanceId

variable (instances : InstanceTable)

def insertInstanceIfAbsent (row : InstanceRow) : InstanceTable :=
  instances.insertOrIgnore { row with keyDeleted := false }

def InstanceRow.refresh (row request : InstanceRow) : InstanceRow :=
  { row with
    network := request.network
    fromAddr := if request.fromAddr = "" then row.fromAddr else request.fromAddr
    toAddr := request.toAddr
    amount := request.amount
    fees := request.fees
    inputUtxos := request.inputUtxos
    status := request.status
    goatTxHash := request.goatTxHash
    goatTxHeight := request.goatTxHeight
    userXonlyPubkey := request.userXonlyPubkey
    userChangeAddr := request.userChangeAddr
    userRefundAddr := request.userRefundAddr
    statusUpdatedAt := request.statusUpdatedAt
    updatedAt := request.updatedAt }

/-- `INSERT … ON CONFLICT(instance_id) DO UPDATE … WHERE instance.status = 'UserInited'`. -/
def upsertPeginRequestInstance (request : InstanceRow) : InstanceTable :=
  match instances.find? request.instanceId with
  | none => insertInstanceIfAbsent instances request
  | some _ =>
      instances.update (fun row => row.instanceId = request.instanceId ∧ row.status = .userInited)
        (fun row => row.refresh request) fun _ => rfl

structure InstanceUpdate where
  instanceId : Uuid
  btcTxid : Option Bytes := none
  status : Option InstanceBridgeInStatus := none
  peginConfirmTxid : Option Bytes := none
  peginCancelTxid : Option Bytes := none
  postPeginTxhash : Option String := none
  btcHeight : Option Int := none
  committeesAnswers : Option IndexMap := none
  keyDeleted : Option Bool := none
  onlyIfStatusIn : Option (List InstanceBridgeInStatus) := none

namespace InstanceUpdate

def hasUpdates (update : InstanceUpdate) : Bool :=
  update.btcTxid.isSome || update.status.isSome || update.peginConfirmTxid.isSome ||
    update.peginCancelTxid.isSome || update.postPeginTxhash.isSome || update.btcHeight.isSome ||
    update.committeesAnswers.isSome || update.keyDeleted.isSome

/-- The `WHERE` clause; an empty list of states admits no row. -/
def admits (update : InstanceUpdate) (row : InstanceRow) : Bool :=
  row.instanceId = update.instanceId &&
    match update.onlyIfStatusIn with
    | none => true
    | some statuses => statuses.contains row.status

def set (update : InstanceUpdate) (now : Int) (row : InstanceRow) : InstanceRow :=
  { row with
    status := update.status.getD row.status
    statusUpdatedAt := if update.status.isSome then now else row.statusUpdatedAt
    peginConfirmTxid := update.peginConfirmTxid <|> row.peginConfirmTxid
    peginCancelTxid := update.peginCancelTxid <|> row.peginCancelTxid
    postPeginTxhash := update.postPeginTxhash <|> row.postPeginTxhash
    btcHeight := update.btcHeight.getD row.btcHeight
    btcTxid := update.btcTxid <|> row.btcTxid
    committeesAnswers := update.committeesAnswers.getD row.committeesAnswers
    keyDeleted := update.keyDeleted.getD row.keyDeleted
    updatedAt := now }

end InstanceUpdate

def updateInstance (update : InstanceUpdate) (now : Int) : InstanceTable × Bool :=
  if update.hasUpdates = false then (instances, false)
  else
    (instances.update (fun row => update.admits row) (update.set now) fun _ => rfl,
      instances.rows.any update.admits)

def InstanceRow.idValue (row : InstanceRow) : SqlValue := .blob row.instanceId.asBytes

def InstanceRow.orderLe (a b : InstanceRow) : Prop :=
  a.createdAt < b.createdAt ∨ (a.createdAt = b.createdAt ∧ SqlValue.lt b.idValue a.idValue = false)

instance : DecidableRel InstanceRow.orderLe := fun _ _ => inferInstanceAs (Decidable (_ ∨ _))

/-- The conditions of a selection.  A raw condition is kept as what it says of a row. -/
structure InstanceQuery where
  fromAddr : Option String := none
  statuses : List InstanceBridgeInStatus := []
  earliestUpdated : Option Int := none
  peginRequestHeightThreshold : Option Int := none
  rawConditions : List (InstanceRow → Bool) := []
  ordered : Bool := false
  limit : Option Nat := none

namespace InstanceQuery

def withRawCondition (query : InstanceQuery) (condition : InstanceRow → Bool) : InstanceQuery :=
  { query with rawConditions := query.rawConditions ++ [condition] }

def admits (query : InstanceQuery) (row : InstanceRow) : Bool :=
  (query.fromAddr.all fun addr => row.fromAddr = addr) &&
    (query.statuses.isEmpty || query.statuses.contains row.status) &&
    (query.earliestUpdated.all fun time => time ≤ row.updatedAt) &&
    (query.peginRequestHeightThreshold.all fun height => row.goatTxHeight < height) &&
    query.rawConditions.all fun condition => condition row

end InstanceQuery

def findInstances (query : InstanceQuery) : List InstanceRow :=
  let rows := instances.rows.filter query.admits
  let rows := if query.ordered then rows.insertionSort InstanceRow.orderLe else rows
  match query.limit with
  | some limit => rows.take limit
  | none => rows

end BitvmNode.Instance
