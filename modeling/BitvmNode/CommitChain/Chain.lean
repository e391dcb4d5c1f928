import BitvmNode.Verifier
import BitvmNode.CommitChain.Publisher

/-!
# The commit chain

`CommitChainState::apply_commit`: each commit transaction spends the connector of the one before
with the signatures of the publisher set named there, carries a digest of what it commits to, and
names the next publisher set in its own connector.  `none` stands for a panic.
-/

namespace BitvmNode.CommitChain

open Reasoning Bitcoin Verifier

structure AuthorizedProgramIds where
  (header state commit watchtower : ProgramId)
  deriving DecidableEq

def AuthorizedProgramIds.default : AuthorizedProgramIds := ⟨zero32, zero32, zero32, zero32⟩

def AuthorizedProgramIds.validate (ids : AuthorizedProgramIds) : Except String Unit :=
  if zero32 ∈ [ids.header, ids.state, ids.commit, ids.watchtower] then
    .error "authorized ProgramIds must be non-zero"
  else .ok ()

structure SequencerInfo where
  address : String
  pubKey : Bytes
  power : UInt64
  name : Option String
  deriving DecidableEq

inductive TmHash where
  | sha256 (digest : Bytes32)
  | none
  deriving DecidableEq

structure CircuitCommit where
  commitTxn : Transaction
  genesisTxid : Bytes32
  publisherPublicKeys : List PublicKey
  threshold : UInt16
  nextPublisherPublicKeys : Option (List PublicKey)
  nextThreshold : Option UInt16
  sequencers : List SequencerInfo
  (genesisEvmBlockHash programHistoryRoot : Bytes32)
  blockHeight : UInt32
  proofCheckpointRoot : Bytes32
  authorizedProgramIds : AuthorizedProgramIds

/-- The publisher set that is committed into this transaction's next update connector. -/
def CircuitCommit.activePublisherSet (commit : CircuitCommit) : List PublicKey × UInt16 :=
  match commit.nextPublisherPublicKeys, commit.nextThreshold with
  | some nextKeys, some nextThreshold => (nextKeys, nextThreshold)
  | _, _ => (commit.publisherPublicKeys, commit.threshold)

structure CommitChainState where
  blockHeight : UInt32
  commitTxn : Transaction
  genesisTxid : Bytes32
  sequencers : List SequencerInfo
  publisherPublicKeys : List PublicKey
  threshold : UInt16
  proofCheckpointRoot : Bytes32
  authorizedProgramIds : AuthorizedProgramIds
  deriving DecidableEq

/-- The library functions of the commit chain: those of the publisher check, and the hash of a
validator set, which panics on malformed keys and addresses. -/
structure Env extends Secp where
  sequencerHash : List SequencerInfo → Option TmHash

def commitChainCommitmentDomain : Bytes := utf8 "bitvm/commit-chain/v2"

def commitmentPreimage (sequencerSetHash genesisEvmBlockHash programHistoryRoot
    proofCheckpointRoot : Bytes32) (ids : AuthorizedProgramIds) : Bytes :=
  commitChainCommitmentDomain ++ sequencerSetHash.toList ++ genesisEvmBlockHash.toList ++
    programHistoryRoot.toList ++ proofCheckpointRoot.toList ++ ids.header.toList ++
    ids.state.toList ++ ids.commit.toList ++ ids.watchtower.toList

def commitChainCommitmentDigest (sha256 : Bytes → Bytes32) (sequencerSetHash genesisEvmBlockHash
    programHistoryRoot proofCheckpointRoot : Bytes32) (ids :
      AuthorizedProgramIds) : Option Bytes32 := do
  guard (programHistoryRoot ≠ zero32)
  guard (proofCheckpointRoot ≠ zero32)
  ids.validate.toOption
  some (sha256 (commitmentPreimage sequencerSetHash genesisEvmBlockHash programHistoryRoot
    proofCheckpointRoot ids))

def bytes32OfList (bs : Bytes) : Option Bytes32 :=
  if h : bs.length = 32 then some ⟨bs.toArray, h⟩ else none

def extractCommitChainCommitment (txOutput : List TxOut) : Except String Bytes32 :=
  match txOutput with
  | [_, output] =>
      if output.value ≠ 0 then .error "commitment output must have zero value"
      else
        match Script.instructionsMinimal output.scriptPubkey with
        | .error err =>
            let text := err.message
            .error s!"invalid commitment script: {text}"
        | .ok [.op op, instruction] =>
            if op ≠ Script.opReturn then .error "commitment output must start with OP_RETURN"
            else
              match instruction with
              | .op _ => .error "commitment must be pushed bytes"
              | .pushBytes bytes =>
                  match bytes32OfList bytes with
                  | none => .error "commitment must be 32 bytes"
                  | some commitment => .ok commitment
        | .ok [.pushBytes _, _] => .error "commitment output must start with OP_RETURN"
        | .ok _ => .error "commitment script must be OP_RETURN followed by one push"
  | _ =>
      let count := txOutput.length
      .error s!"commit transaction must have 2 outputs, got {count}"

namespace CommitChainState

def new (genesisTxid : Bytes32) : CommitChainState where
  blockHeight := 0xFFFFFFFF
  commitTxn := { version := 2, lockTime := 0, input := [], output := [] }
  genesisTxid := genesisTxid
  sequencers := []
  publisherPublicKeys := []
  threshold := 0xFFFF
  proofCheckpointRoot := zero32
  authorizedProgramIds := AuthorizedProgramIds.default

variable (env : Env)

def checkCommitment (commit : CircuitCommit) : Option Unit := do
  let actual ← (extractCommitChainCommitment commit.commitTxn.output).toOption
  match ← env.sequencerHash commit.sequencers with
  | .none => none
  | .sha256 latestSequencerSetHash => do
      let expected ← commitChainCommitmentDigest env.sha256 latestSequencerSetHash
        commit.genesisEvmBlockHash commit.programHistoryRoot commit.proofCheckpointRoot
        commit.authorizedProgramIds
      guard (actual = expected)

variable (s : CommitChainState)

def checkUpdateConnector (tx : Transaction) : Option Unit := do
  let updateConnector ← tx.input[0]?
  guard (updateConnector.previousOutput.txid = s.commitTxn.computeTxid env.sha256)
  guard (updateConnector.previousOutput.vout = 0)
  let prevout ← s.commitTxn.output[0]?
  let redeemScript ← createSequencerUpdateScript s.publisherPublicKeys s.threshold.toNat
  let valid ← verifyP2wshMultisigWitness env.toSecp tx 0 prevout redeemScript s.publisherPublicKeys
    s.threshold.toNat
  guard (valid = .ok true)

def checkNextConnector (commit : CircuitCommit) : Option Unit := do
  let script ← createSequencerUpdateScript commit.activePublisherSet.1
    commit.activePublisherSet.2.toNat
  let output ← commit.commitTxn.output[0]?
  guard (output.scriptPubkey = Script.newP2wsh env.sha256 script)

def checkPrevCommit (tx : Transaction) : Option Unit :=
  let hasPrevCommit : Bool := !s.commitTxn.output.isEmpty
  if hasPrevCommit then s.checkUpdateConnector env tx
  else guard (tx.computeTxid env.sha256 = s.genesisTxid)

/-- The body of the loop of `apply_commit`. -/
def applyOne (commit : CircuitCommit) : Option CommitChainState := do
  guard (commit.genesisTxid = s.genesisTxid)
  s.checkPrevCommit env commit.commitTxn
  checkCommitment env commit
  checkNextConnector env commit
  some
    { s with
      sequencers := commit.sequencers
      commitTxn := commit.commitTxn.stripWitness
      publisherPublicKeys := commit.activePublisherSet.1
      threshold := commit.activePublisherSet.2
      blockHeight := commit.blockHeight
      proofCheckpointRoot := commit.proofCheckpointRoot
      authorizedProgramIds := commit.authorizedProgramIds }

def applyCommit (commits : List CircuitCommit) : Option CommitChainState :=
  commits.foldlM (applyOne env) s

def applyBatches (batches : List (List CircuitCommit)) : Option CommitChainState :=
  batches.foldlM (applyCommit env) s

end CommitChainState

end BitvmNode.CommitChain
