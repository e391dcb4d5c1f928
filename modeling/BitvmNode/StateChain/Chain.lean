import BitvmNode.ChainCircuit
import BitvmNode.StateChain.Cbft

/-!
# The state chain

`StateChainState::apply_blocks`: every execution block is executed and its listed withdrawal slots
are compared with the state after it; every block but the first is linked to the one before and
named by the consensus layer.  `none` stands for a panic; `u64` additions wrap.
-/

namespace BitvmNode.StateChain

open Reasoning Verifier CommitChain

abbrev Address := Vector UInt8 20

abbrev GraphId := Vector UInt8 16

structure WithdrawalSlot where
  contract : Address
  baseSlot : Bytes32
  graphIds : List GraphId
  deriving DecidableEq

structure EvmHeader where
  number : UInt64
  parentHash : Bytes32
  parentBeaconBlockRoot : Option Bytes32
  rest : Bytes
  deriving DecidableEq

/-- What the executor is given: the block, and in `rest` its transactions and the state they
read. -/
structure EthClientExecutorInput where
  currentBlock : EvmHeader
  rest : Bytes
  deriving DecidableEq

structure CircuitStateBlock where
  cosmosTxns : List Bytes
  cosmosBlock : Bytes
  evmBlock : EthClientExecutorInput
  withdrawals : List WithdrawalSlot
  deriving DecidableEq

structure StateChainState where
  evmBlockHeight : UInt64
  (genesisEvmBlockHash latestEvmBlockHash : Bytes32)
  latestCosmosBlock : Bytes
  withdrawals : List WithdrawalSlot
  deriving DecidableEq

structure StorageCheck where
  contract : Address
  slot : Bytes32
  value : Nat

/-- The library functions of the state chain: those of the consensus layer, the hash of an execution
header, and the executor, which fails on an invalid block or a slot with another value. -/
structure Env extends Cbft where
  keccak256 : Bytes → Bytes32
  hashSlow : EvmHeader → Bytes32
  execute : EthClientExecutorInput → List StorageCheck → Option EvmHeader

variable (env : Env)

def slotId (baseSlot : Bytes32) (graphId : GraphId) : Bytes32 :=
  env.keccak256 (graphId.toList ++ List.replicate 16 0 ++ baseSlot.toList)

def storageInfo (withdrawals : List WithdrawalSlot) : List StorageCheck :=
  withdrawals.flatMap fun withdrawal =>
    withdrawal.graphIds.map fun graphId =>
      ⟨withdrawal.contract, slotId env withdrawal.baseSlot graphId, 1⟩

def executeElBlockAndCheckWithdrawTx (withdrawals : List WithdrawalSlot)
    (input : EthClientExecutorInput) : Option EvmHeader :=
  env.execute input (storageInfo env withdrawals)

theorem mem_storageInfo {withdrawals : List WithdrawalSlot} {check : StorageCheck} :
    check ∈ storageInfo env withdrawals ↔
    ∃ withdrawal ∈ withdrawals, ∃ graphId ∈ withdrawal.graphIds,
        check = ⟨withdrawal.contract, slotId env withdrawal.baseSlot graphId, 1⟩ := by
  simp only [storageInfo, List.mem_flatMap, List.mem_map, eq_comm (b := check)]

namespace StateChainState

def new (evmBlockHeight : UInt64) (genesisEvmBlockHash : Bytes32) (latestCosmosBlock : Bytes) :
    StateChainState where
  evmBlockHeight := evmBlockHeight
  genesisEvmBlockHash := genesisEvmBlockHash
  latestEvmBlockHash := genesisEvmBlockHash
  latestCosmosBlock := latestCosmosBlock
  withdrawals := []

def dataHash (cosmosBlock : LightBlock) : Option Bytes32 :=
  match cosmosBlock.header.dataHash with
  | some (.sha256 digest) => some digest
  | _ => none

def checkLink (s : StateChainState) (block : CircuitStateBlock) (evmHeader : EvmHeader)
    (cosmosBlock : LightBlock) : Option Unit := do
  guard (evmHeader.parentHash = s.latestEvmBlockHash)
  let dataHash ← dataHash cosmosBlock
  checkElBlockFromPayload env.toCbft block.evmBlock.currentBlock.number (env.hashSlow evmHeader)
    s.latestEvmBlockHash block.cosmosTxns dataHash

/-- The withdrawals after the block.  The genesis block is neither linked nor are its withdrawals
kept. -/
def linkBlock (s : StateChainState) (block : CircuitStateBlock) (evmHeader : EvmHeader)
    (cosmosBlock : LightBlock) : Option (List WithdrawalSlot) :=
  if env.hashSlow evmHeader ≠ s.genesisEvmBlockHash then do
    s.checkLink env block evmHeader cosmosBlock
    some (s.withdrawals ++ block.withdrawals)
  else some s.withdrawals

def applyBlock (s : StateChainState) (block : CircuitStateBlock) : Option StateChainState := do
  let evmHeader ← executeElBlockAndCheckWithdrawTx env block.withdrawals block.evmBlock
  guard (evmHeader.number = block.evmBlock.currentBlock.number)
  guard (evmHeader.number = s.evmBlockHeight)
  let cosmosBlock ← env.lightBlockFromSlice block.cosmosBlock
  let withdrawals ← s.linkBlock env block evmHeader cosmosBlock
  some
    { s with
      evmBlockHeight := s.evmBlockHeight + 1
      latestEvmBlockHash := env.hashSlow evmHeader
      latestCosmosBlock := block.cosmosBlock
      withdrawals := withdrawals }

def applyBlocks (s : StateChainState) (blocks : List CircuitStateBlock) : Option StateChainState :=
  blocks.foldlM (applyBlock env) s

end StateChainState

abbrev StateChainCircuitInput := ChainCircuitInput CircuitStateBlock

abbrev StateChainCircuitOutput := ChainCircuitOutput StateChainState

def stateChain : ChainCircuit StateChainState CircuitStateBlock where
  programType := .state
  genesis blocks := do
    let first ← blocks.head?
    some (StateChainState.new first.evmBlock.currentBlock.number
      (env.hashSlow first.evmBlock.currentBlock) first.cosmosBlock)
  apply := StateChainState.applyBlocks env

def stateChainCircuit (groth16 : Groth16) (codec : OutputCodec StateChainCircuitOutput)
    (input : StateChainCircuitInput) : Option StateChainCircuitOutput :=
  (stateChain env).run env.sha256 groth16 codec input

end BitvmNode.StateChain
