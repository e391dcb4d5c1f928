import BitvmNode.CommitChain.Chain

/-!
# Blocks of the consensus layer

The checks that tie an execution block to the first transaction of a consensus block, and the
consensus block's header to its validators.  `none` stands for a panic.
-/

namespace BitvmNode.StateChain

open Reasoning CommitChain

structure Message where
  typeUrl : String
  value : Bytes

structure Tx where
  body : Option (List Message)

structure ExecutionPayload where
  blockNumber : UInt64
  (blockHash parentHash : Bytes)

structure MsgNewEthBlock where
  payload : Option ExecutionPayload

structure Validator where
  pubKey : Bytes
  power : UInt64
  deriving DecidableEq

structure CosmosHeader where
  validatorsHash : TmHash
  dataHash : Option TmHash
  rest : Bytes

structure LightBlock where
  header : CosmosHeader
  validators : List Validator
  signatures : List (Option Bytes)

/-- The library functions of this part: hashing, decoding, and the two verdicts of the light client
verifier. -/
structure Cbft where
  sha256 : Bytes → Bytes32
  decodeTx : Bytes → Option Tx
  decodeMsgNewEthBlock : Bytes → Option MsgNewEthBlock
  lightBlockFromSlice : Bytes → Option LightBlock
  verifyValidatorSets : LightBlock → Bool
  verifyCommit : LightBlock → Bool

variable (cbft : Cbft)

def merkleLeafHash (leaf : Bytes) : Bytes32 := cbft.sha256 (0x00 :: leaf)

def merkleInnerNodeHash (left right : Bytes32) : Bytes32 :=
  cbft.sha256 (0x01 :: left.toList ++ right.toList)

def doubleBelow (n : Nat) : Nat → Nat → Nat
  | 0, k => k
  | fuel + 1, k => if 2 * k < n then doubleBelow n fuel (2 * k) else k

def largestPowerOfTwoLessThan (n : Nat) : Nat := doubleBelow n n 1

def computeMerkleRootFuel : Nat → List Bytes32 → Bytes32
  | 0, _ => cbft.sha256 []
  | fuel + 1, items =>
      match items with
      | [] => cbft.sha256 []
      | [item] => merkleLeafHash cbft item.toList
      | items =>
          let k := largestPowerOfTwoLessThan items.length
          merkleInnerNodeHash cbft (computeMerkleRootFuel fuel (items.take k))
            (computeMerkleRootFuel fuel (items.drop k))

def computeMerkleRoot (items : List Bytes32) : Bytes32 :=
  computeMerkleRootFuel cbft items.length items

def merkleRootFromBase64Txns (txns : List Bytes) : Bytes32 :=
  computeMerkleRoot cbft (txns.map cbft.sha256)

/-- Both verdicts of the light client verifier must be a success. -/
def verifySequencerCommit (lightBlock : LightBlock) : Option Unit := do
  guard (cbft.verifyValidatorSets lightBlock = true)
  guard (cbft.verifyCommit lightBlock = true)

/-- The inner option is the result: a transaction without a body has no payload. -/
def parseCbftTxPayload (txBytes : Bytes) : Option (Option ExecutionPayload) := do
  let tx ← cbft.decodeTx txBytes
  match tx.body with
  | none => some none
  | some messages => do
      let firstMessage ← messages[0]?
      guard (firstMessage.typeUrl = "/goat.goat.v1.MsgNewEthBlock")
      let msg ← cbft.decodeMsgNewEthBlock firstMessage.value
      let payload ← msg.payload
      some (some payload)

def checkElBlockFromPayload (elBlockNumber : UInt64) (elBlockHash elParentBlockHash : Bytes32)
    (txs : List Bytes) (actualDataHash : Bytes32) : Option Unit := do
  let first ← txs[0]?
  let payload ← parseCbftTxPayload cbft first
  let payload ← payload
  guard (payload.blockNumber = elBlockNumber)
  guard (payload.blockHash = elBlockHash.toList)
  guard (payload.parentHash = elParentBlockHash.toList)
  guard (actualDataHash = merkleRootFromBase64Txns cbft txs)

def Names (txs : List Bytes) (number : UInt64) (hash parent : Bytes32) : Prop :=
  ∃ first payload, txs[0]? = some first ∧ parseCbftTxPayload cbft first = some (some payload) ∧
    payload.blockNumber = number ∧ payload.blockHash = hash.toList ∧
      payload.parentHash = parent.toList

theorem checkElBlockFromPayload_eq_some {number : UInt64} {hash parent dataHash : Bytes32}
    {txs : List Bytes} {u : Unit}
    (h : checkElBlockFromPayload cbft number hash parent txs dataHash = some u) :
    Names cbft txs number hash parent ∧ dataHash = merkleRootFromBase64Txns cbft txs := by
  simp only [checkElBlockFromPayload, Option.bind_eq_bind, Option.bind_eq_some_iff] at h
  obtain ⟨first, hfirst, parsed, hparsed, payload, rfl, _, hnumber, _, hhash, _, hparent, hdata⟩ :=
    h
  exact ⟨⟨first, payload, hfirst, hparsed, guard_eq_some.mp hnumber, guard_eq_some.mp hhash,
    guard_eq_some.mp hparent⟩, guard_eq_some.mp hdata⟩

end BitvmNode.StateChain
