import BitvmNode.StateChain.Chain

/-!
# Fetching the input of the state chain

`fetch_withdrawal_events` collects the calls of the configured contracts in a range of blocks, and
`fetch_state_chain` joins them block by block with the blocks themselves.  What the nodes answer is
a parameter.
-/

namespace BitvmNode.StateChainHost

open Reasoning StateChain

/-- How a run ends without a result: a panic, an input that is not ready yet, with the seconds to
wait, or another error that is returned. -/
inductive Failure where
  | panic
  | inputNotReady (seconds : UInt64)
  | error
  deriving DecidableEq

def isWhitespace (c : Char) : Bool :=
  let n := c.toNat
  (9 ≤ n ∧ n ≤ 13) ∨ n = 0x20 ∨ n = 0x85 ∨ n = 0xA0 ∨ n = 0x1680 ∨ (0x2000 ≤ n ∧ n ≤ 0x200A) ∨
    n = 0x2028 ∨ n = 0x2029 ∨ n = 0x202F ∨ n = 0x205F ∨ n = 0x3000

def trim (s : List Char) : List Char :=
  ((s.dropWhile isWhitespace).reverse.dropWhile isWhitespace).reverse

def trimStart0x : List Char → List Char
  | '0' :: 'x' :: rest => trimStart0x rest
  | s => s

def hexDigit (c : Char) : Option UInt8 :=
  if '0' ≤ c ∧ c ≤ '9' then some (UInt8.ofNat (c.toNat - 48))
  else if 'a' ≤ c ∧ c ≤ 'f' then some (UInt8.ofNat (c.toNat - 87))
  else if 'A' ≤ c ∧ c ≤ 'F' then some (UInt8.ofNat (c.toNat - 55))
  else none

def hexDecode : List Char → Option Bytes
  | [] => some []
  | [_] => none
  | hi :: lo :: rest => do
      let hi ← hexDigit hi
      let lo ← hexDigit lo
      let bytes ← hexDecode rest
      some ((16 * hi + lo) :: bytes)

def vectorOfList (n : Nat) (bs : Bytes) : Option (Vector UInt8 n) :=
  if h : bs.length = n then some ⟨bs.toArray, by simpa using h⟩ else none

def parseAddress (s : List Char) : Option Address := do
  let bytes ← hexDecode (trimStart0x (trim s))
  vectorOfList 20 bytes

def parseMethodId (s : List Char) : Option (Vector UInt8 4) := do
  let bytes ← hexDecode (match s with | '0' :: 'x' :: rest => rest | s => s)
  vectorOfList 4 bytes

structure Target where
  contract : Address
  methodId : Vector UInt8 4
  deriving DecidableEq

def parseTargets (l2ContractAddresses proceedWithdrawMethodIds : List Char) :
    Option (List Target) := do
  let addresses ← (l2ContractAddresses.splitOn ',').mapM parseAddress
  let methodIds ← (proceedWithdrawMethodIds.splitOn ',').mapM parseMethodId
  some (List.zipWith Target.mk addresses methodIds)

inductive Answer (α : Type) where
  | found (a : α)
  | missing
  | failed

structure RpcTransaction where
  toAddress : Option Address
  input : Bytes

/-- The answers to every request of a run.  `urlParses` says whether the URL of the execution layer
is well formed, `writes` whether the blocks can be serialized and written to their file. -/
structure Rpc where
  urlParses : Bool
  getBlock : UInt64 → Answer (List Bytes32)
  getTransactionByHash : Bytes32 → Answer RpcTransaction
  fetchExecutionLayerBlock : UInt64 → Option EthClientExecutorInput
  getCosmosBlockHeightAt : Bytes32 → Option UInt64
  fetchCbftValidatorInfo : UInt64 → Option UInt64 → Option UInt64
  fetchCbftTxData : UInt64 → Option (List Bytes)
  fetchCosmosBlock : UInt64 → Option LightBlock
  cosmosBlockToVec : LightBlock → Option Bytes
  writes : Bool

def blockRange (start batchSize : UInt64) : List UInt64 :=
  (List.range ((start + batchSize).toNat - start.toNat)).map fun k => start + UInt64.ofNat k

structure Event where
  block : UInt64
  graphId : GraphId
  contract : Address
  deriving DecidableEq

/-- The closure over the configured pairs: slicing the calldata panics if it is too short. -/
def targetEvent (block : UInt64) (txn : RpcTransaction) (target : Target) : Option (List Event) :=
  if txn.toAddress = some target.contract then
    if txn.input.length < 4 then none
    else if txn.input.take 4 = target.methodId.toList then do
      let graphId ← vectorOfList 16 ((txn.input.drop 4).take 16)
      some [⟨block, graphId, target.contract⟩]
    else some []
  else some []

def flatMapM {α β : Type} (f : α → Option (List β)) (xs : List α) : Option (List β) :=
  (xs.mapM f).map List.flatten

variable (rpc : Rpc) (targets : List Target)

def transactionEvents (block : UInt64) (txid : Bytes32) : Option (List Event) :=
  match rpc.getTransactionByHash txid with
  | .found txn => flatMapM (targetEvent block txn) targets
  | .missing | .failed => some []

def blockEvents (block : UInt64) : Option (List Event) :=
  match rpc.getBlock block with
  | .found txids => flatMapM (transactionEvents rpc targets block) txids
  | .missing | .failed => some []

def fetchWithdrawalEvents (range : List UInt64) : Option (List Event) :=
  flatMapM (blockEvents rpc targets) range

def baseSlot : Bytes32 := beBytes32 16

/-- The lookup-or-insert step: the ids of an earlier entry of the contract are copied, the event's
own id is used only if there is none. -/
def addEvent (withdrawals : List WithdrawalSlot) (event : Event) : List WithdrawalSlot :=
  let graphIds :=
    match withdrawals.find? fun withdrawal => withdrawal.contract = event.contract with
    | some withdrawal => withdrawal.graphIds
    | none => [event.graphId]
  withdrawals ++ [⟨event.contract, baseSlot, graphIds⟩]

def groupWithdrawals (events : List Event) (block : UInt64) : List WithdrawalSlot :=
  (events.filter fun event => event.block = block).foldl addEvent []

def requestBlock (start batchSize block : UInt64) :
    Except Failure (List Bytes × Bytes × EthClientExecutorInput) := do
  let notReady : Failure := .inputNotReady ((batchSize + start - block) * 3)
  let evmBlock ← (rpc.fetchExecutionLayerBlock block).elim (.error notReady) .ok
  let parentBeaconBlockRoot ← evmBlock.currentBlock.parentBeaconBlockRoot.elim (.error .panic) .ok
  let parentCosmosBlockHeight := rpc.getCosmosBlockHeightAt parentBeaconBlockRoot
  let clBlockNumber ← (rpc.fetchCbftValidatorInfo block parentCosmosBlockHeight).elim
    (.error notReady) .ok
  let cosmosTxns ← (rpc.fetchCbftTxData clBlockNumber).elim (.error notReady) .ok
  let cosmosBlock ← (rpc.fetchCosmosBlock clBlockNumber).elim (.error notReady) .ok
  let bytes ← (rpc.cosmosBlockToVec cosmosBlock).elim (.error .error) .ok
  .ok (cosmosTxns, bytes, evmBlock)

def withWithdrawals (events : List Event) (block : UInt64)
    (answers : List Bytes × Bytes × EthClientExecutorInput) : CircuitStateBlock :=
  ⟨answers.1, answers.2.1, answers.2.2, groupWithdrawals events block⟩

def fetchBlock (start batchSize : UInt64) (events : List Event) (block : UInt64) :
    Except Failure CircuitStateBlock :=
  (requestBlock rpc start batchSize block).map (withWithdrawals events block)

def fetchStateChain (l2ContractAddresses proceedWithdrawMethodIds : List Char)
    (start batchSize : UInt64) : Except Failure (List CircuitStateBlock) := do
  let targets ← (parseTargets l2ContractAddresses proceedWithdrawMethodIds).elim (.error .panic) .ok
  if start = 0 then .error .panic
  else if rpc.urlParses = false then .error .error
  else do
    let range := blockRange start batchSize
    let events ← (fetchWithdrawalEvents rpc targets range).elim (.error .panic) .ok
    let blocks ← range.mapM (fetchBlock rpc start batchSize events)
    if rpc.writes then .ok blocks else .error .error

end BitvmNode.StateChainHost
