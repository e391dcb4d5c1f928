import BitvmNode.HeaderChain.Spv
import BitvmNode.StateChain.Chain

/-!
# Watchtower challenges

A watchtower answers an operator with a transaction that spends its output of the challenge-init
transaction and carries a proof of its own view of the chains.  `none` stands for a panic; a
challenge whose payload cannot be used is passed over.
-/

namespace BitvmNode.LightClient

open Reasoning Bitcoin Verifier CommitChain HeaderChain StateChain

def graphIdSize : Nat := 16

def proofSize : Nat := 260

def publicInputsSize : Nat := 36

def zkmVersionLenSize : Nat := 4

def vkHashSize : Nat := 66

def totalWorkSize : Nat := 32

structure IndexedWatchtowerChallenge where
  nodeIndex : UInt16
  spv : Spv

def extractDataFrom (data : Bytes) : List TxOut → Except String Bytes
  | [] => .error "challenge commitment is missing OP_RETURN terminator"
  | txout :: rest =>
      match Script.instructionsMinimal txout.scriptPubkey with
      | .error err =>
          let text := err.message
          .error s!"invalid challenge commitment script: {text}"
      | .ok instructions =>
          match instructions[1]? with
          | some (Script.Instruction.pushBytes bytes) =>
              if instructions[0]? = some (Script.Instruction.op Script.opReturn) then
                .ok (data ++ bytes)
              else extractDataFrom (data ++ bytes) rest
          | _ => .error "challenge commitment output must contain pushed bytes"

def extractDataFromCommitmentOutputs (txouts : List TxOut) : Except String Bytes :=
  extractDataFrom [] txouts

structure WatchtowerCommitment where
  (graphId proof publicValues vkHash : Bytes)
  (totalWork consensusBlockHeight : Bytes)
  zkmVersion : String

def minCommitmentSize : Nat :=
  graphIdSize + proofSize + publicInputsSize + vkHashSize + zkmVersionLenSize

def parseWatchtowerCommitment (fromUtf8 : Bytes → Except String String) (commitment : Bytes) :
    Except String WatchtowerCommitment :=
  let size := commitment.length
  if size < minCommitmentSize then
    .error s!"invalid commitment size: {size}, expected at least {minCommitmentSize}"
  else
    -- the fields stand one behind the other
    let (graphId, rest) := commitment.splitAt graphIdSize
    let (proof, rest) := rest.splitAt proofSize
    let (publicValues, rest) := rest.splitAt publicInputsSize
    let (vkHash, rest) := rest.splitAt vkHashSize
    let (versionLen, rest) := rest.splitAt zkmVersionLenSize
    let zkmVersionLen := leNat versionLen
    if zkmVersionLen = 0 then .error "zkm_version must not be empty"
    else
      let expectedSize := minCommitmentSize + zkmVersionLen
      if size ≠ expectedSize then
        .error s!"invalid commitment size: {size}, expected {expectedSize}"
      else
        match fromUtf8 rest with
        | .error err => .error s!"invalid zkm_version UTF-8: {err}"
        | .ok zkmVersion =>
            .ok
              { graphId := graphId
                proof := proof
                publicValues := publicValues
                vkHash := vkHash
                totalWork := publicValues.take totalWorkSize
                consensusBlockHeight := publicValues.drop totalWorkSize
                zkmVersion := zkmVersion }

/-- The claim that is compared with the operator's: the payload parses, its proof verifies as the
authorised watchtower program, and it names the graph. -/
def countedClaim (sha256 : Bytes → Bytes32) (groth16 : Groth16) (watchtowerId : ProgramId)
    (graphId : GraphId) (tx : Transaction) : Option WatchtowerCommitment := do
  let commitment ← (extractDataFromCommitmentOutputs tx.output).toOption
  let parsed ← (parseWatchtowerCommitment groth16.fromUtf8 commitment).toOption
  let programId ← (verifyGroth16Proof sha256 groth16
    ⟨parsed.proof, parsed.publicValues, parsed.vkHash, parsed.zkmVersion⟩).toOption
  guard (programId = watchtowerId ∧ parsed.graphId = graphId.toList)
  some parsed

inductive TapSighashType where
  | default
  | all
  | none
  | single
  | allPlusAnyoneCanPay
  | nonePlusAnyoneCanPay
  | singlePlusAnyoneCanPay
  deriving DecidableEq

structure Taproot where
  xOnlyFromSlice : Bytes → Except String Bytes32
  signatureFromSlice : Bytes → Option (Bytes × TapSighashType)
  controlBlockDecode : Bytes → Except String Bytes
  verifyTaprootCommitment : Bytes → Bytes32 → Bytes → Bool
  scriptSpendSignatureHash : Transaction → Nat → TxOut → Bytes → TapSighashType → Option Bytes32
  verifySchnorr : Bytes → Bytes32 → Bytes32 → Except String Unit

def okOr {α : Type} (x : Option α) (err : String) : Except String α :=
  match x with
  | some a => .ok a
  | none => .error err

def ensure (p : Prop) [Decidable p] (err : String) : Except String Unit :=
  if p then .ok () else .error err

variable (taproot : Taproot)

def verifyTaprootLeafSchnorrSignature (script : Bytes) (spendingTx : Transaction) (inputIndex : Nat)
    (prevOut : TxOut) (pubkey : Bytes32) : Except String Unit := do
  let input ← okOr spendingTx.input[inputIndex]? "Invalid input index"
  let bytes ← okOr input.witness[0]? "Missing Taproot signature"
  let (signature, sighashType) ← okOr (taproot.signatureFromSlice bytes) "Invalid Taproot signature"
  ensure (sighashType = .allPlusAnyoneCanPay) "Invalid sig type"
  let witnessLen := input.witness.length
  ensure (3 ≤ witnessLen) "Invalid Taproot script-path witness"
  let witnessScript ← okOr input.witness[witnessLen - 2]? "Missing Taproot witness script"
  ensure (witnessScript = script) "Taproot witness script mismatch"
  let controlBytes ← okOr input.witness[witnessLen - 1]? "Missing Taproot control block"
  let controlBlock ← taproot.controlBlockDecode controlBytes
  let scriptPubkey := prevOut.scriptPubkey
  ensure (scriptPubkey.length = 34 ∧ scriptPubkey.take 2 = [0x51, 0x20]) "Prevout is not P2TR"
  let outputKey ← taproot.xOnlyFromSlice (scriptPubkey.drop 2)
  ensure (taproot.verifyTaprootCommitment controlBlock outputKey script = true)
    "Taproot control block does not commit to the witness script"
  let sighash ← okOr (taproot.scriptSpendSignatureHash spendingTx inputIndex prevOut script
    .allPlusAnyoneCanPay) "Invalid sig hash"
  taproot.verifySchnorr signature sighash pubkey

def watchtowerScript (xonly : Bytes32) : Bytes := 0x20 :: xonly.toList ++ [0xac]

def u256ToLeBits (u : BitVec 256) : List Bool := (List.range 256).map u.getLsbD

def markIndices (graphWatchtowerCount : Nat) (seen : List Bool) :
    List UInt16 → Except String (List Bool)
  | [] => .ok seen
  | challengeIndex :: rest =>
      let index := challengeIndex.toNat
      if graphWatchtowerCount ≤ index then
        .error s!"watchtower challenge index {index} out of bounds"
      else if seen[index]? = some true then
        .error s!"duplicate watchtower challenge index {index}"
      else markIndices graphWatchtowerCount (seen.set index true) rest

def validateWatchtowerChallengeIndices (includedWatchtowers : List Bool)
    (graphWatchtowerCount : Nat) (challengeIndices : List UInt16) : Except String Unit :=
  if graphWatchtowerCount = 0 ∨ graphWatchtowerCount > 256 then
    .error s!"invalid graph watchtower count {graphWatchtowerCount}"
  else
    match markIndices graphWatchtowerCount (List.replicate 256 false) challengeIndices with
    | .error err => .error err
    | .ok seen =>
        if includedWatchtowers ≠ seen then
          .error "watchtower challenge indices do not match included bitmap"
        else .ok ()

/-- The inner option is the transaction, if there is one. -/
def checkedChallengeInitTransaction (sha256 : Bytes → Bytes32) (expectedTxid : Bytes32)
    (transaction : Option Transaction)
    (challengesPresent : Bool) : Option (Option Transaction) := do
  guard (∀ tx ∈ transaction, tx.computeTxid sha256 = expectedTxid)
  guard (challengesPresent = false ∨ transaction.isSome)
  some transaction

end BitvmNode.LightClient
