import BitvmNode.Pegout.AssertWitness
import BitvmNode.Pegout.Answers
import BitvmNode.Setup.Verifier

/-!
# A verifier answers an assertion

Once the operator has asserted, a verifier compares the public input of the assertion with the one
that the operator has committed to on connector E.
-/

namespace BitvmNode.Pegout

open Reasoning Bitcoin Setup

structure VerifierHost where
  localPubkey : String
  statement : Except String (TxAssertWitness → Bool)
  state : Option VerifierBabeSetupState
  challengeLabels : VerifierBabeSetupState → TxAssertWitness → Nat → Except String (List Bytes)
  buildSignAndBroadcast : TxIn → UInt64 → List TxOut → Except String Transaction
  withCpfp : Transaction → Except String (List Transaction)

def validateVerifierSlot (g : BitvmGcGraph) (gcData : List BitvmGcCircuitData)
    (verifierIndex : Nat) : Except String Unit :=
  let gcDataLen := gcData.length
  let verifierAssertsLen := g.verifierAsserts.length
  let disprovesLen := g.disproves.length
  if gcDataLen = 0 then .error "graph has no verifier GC slots"
  else if gcDataLen ≠ verifierAssertsLen ∨ gcDataLen ≠ disprovesLen then
    .error (s!"graph verifier branch lengths differ: gc_data={gcDataLen}, " ++
      s!"verifier_asserts={verifierAssertsLen}, disproves={disprovesLen}")
  else if gcDataLen ≤ verifierIndex then
    .error s!"verifier index {verifierIndex} out of range for {gcDataLen} slots"
  else .ok ()

/-- The disproof is not pre-signed, so it is funded directly. -/
def pubinDisproveStep (sha256 : Bytes → Bytes32) (topology : OutputTopology)
    (library : ConnectorLibrary)
    (g : BitvmGcGraph) (gcData : List BitvmGcCircuitData) (host : VerifierHost)
    (witnessData : RawWitness) : StepRun :=
  match g.operatorAssert.tx.output[(topology.connectorD gcData.length).toNat]? with
  | none => .fail "failed to get connector-d input"
  | some connectorD =>
      match library.pubinDisprove g witnessData with
      | .error error => .fail s!"failed to build pubin-disprove txin: {error}"
      | .ok txin =>
          match host.buildSignAndBroadcast txin connectorD.value [library.p2aOutput,
              ⟨0, library.generateOpreturnScript (utf8 "pubin-disprove")⟩] with
          | .error error => .fail error
          | .ok tx =>
              .broadcastPending [tx] ("Pubin-Disprove " ++ displayTxid (tx.computeTxid sha256))

section Job

variable {sha256 : Bytes → Bytes32} {watched : List Transaction} (topology : OutputTopology)
  (library : ConnectorLibrary) (btc : ChainView sha256 watched) (g : BitvmGcGraph)

def collectAckTxins : Nat → List PreSigned → Except String (List TxIn)
  | _, [] => .ok []
  | i, timeout :: timeouts =>
      match btc.outpointSpentTxid (g.ackConnector sha256 topology i) with
      | none => collectAckTxins (i + 1) timeouts
      | some ackSpentTxid =>
          if ackSpentTxid = timeout.tx.computeTxid sha256 then collectAckTxins (i + 1) timeouts
          else
            match btc.outpointSpentTxin (g.ackConnector sha256 topology i) with
            | none => .error ("ACK spending tx " ++ displayTxid ackSpentTxid ++
                s!" for watchtower {i} is unavailable")
            | some (_, _, txin) =>
                match collectAckTxins (i + 1) timeouts with
                | .error error => .error error
                | .ok txins => .ok (txin :: txins)

def placeAckPreimages : List TxIn → List Bytes → Except String (List Bytes)
  | [], preimages => .ok preimages
  | txin :: txins, preimages =>
      let vout := txin.previousOutput.vout.toNat
      let watchtowerIndex := vout / 2
      if vout % 2 ≠ 1 then
        .error s!"invalid ack txin in operator_ack_txins, unexpected vout: {vout}"
      else if g.watchtowerNum ≤ watchtowerIndex ∨
        vout ≠ (topology.ackConnector watchtowerIndex).toNat then
        .error s!"invalid ack txin in operator_ack_txins, unexpected vout: {vout}"
      else
        match library.extractOperatorPreimage txin with
        | .error error => .error s!"failed to extract preimage from ack txin: {error}"
        | .ok preimage => placeAckPreimages txins (preimages.set watchtowerIndex preimage)

/-- The witness of a disproof, if the committed public input and the asserted one disagree. -/
def validatePubinDisprove (commitPubinTxin assertTxin : TxIn) (ackTxins : List TxIn) :
    Except String (Option (RawWitness × Bytes)) :=
  match placeAckPreimages topology library g ackTxins (List.replicate g.watchtowerNum []) with
  | .error error => .error error
  | .ok ackPreimages =>
      match library.extractCommitPubin g commitPubinTxin with
      | .error error => .error s!"failed to extract operator commit pubin witness: {error}"
      | .ok commitPubinWitness =>
          match library.extractAssertion g assertTxin with
          | .error error => .error s!"failed to extract operator assert witness: {error}"
          | .ok assertion =>
              match splitOperatorAssertWotsAndExtraData library.scripts assertion with
              | .error error => .error error
              | .ok (assertWitness, _, _) =>
                  .ok (library.validatePubin commitPubinWitness assertWitness ackPreimages
                    (library.pubinDisproveLeaf g))

variable (gcData : List BitvmGcCircuitData) (host : VerifierHost)

/-- How the comparison of the public inputs ends: with a step, or with what the challenge goes on
with. -/
inductive PubinCheck where
  | stop (run : StepRun)
  | proceed (pubinConsistent : Bool)

def checkPubin (assertTx : Transaction) : PubinCheck :=
  match btc.outpointSpentTxid (g.connectorE sha256 topology) with
  | none => .stop (.afterBlocks "operator commit-pubin is not on chain yet" 1)
  | some connectorESpent =>
      if connectorESpent = g.operatorCommitTimeout.tx.computeTxid sha256 then .proceed false
      else if btc.txConfirmed connectorESpent = false then
        .stop (.afterBlocks "operator commit-pubin is not confirmed yet" 1)
      else
        match btc.lookup connectorESpent with
        | none => .stop (.afterBlocks "operator commit-pubin is not available yet" 1)
        | some commitPubinTx =>
            match assertTx.input.head?, commitPubinTx.input.head? with
            | none, _ => .stop (.fail "operator assert transaction has no input")
            | _, none => .stop (.fail "operator commit-pubin transaction has no input")
            | some assertTxin, some commitPubinTxin =>
                match collectAckTxins topology btc g 0 g.watchtowerChallengeTimeouts with
                | .error error =>
                    .stop (.afterBlocks s!"operator ACK inputs are not ready: {error}" 1)
                | .ok ackTxins =>
                    match validatePubinDisprove topology library g commitPubinTxin assertTxin
                      ackTxins with
                    | .ok (some (witnessData, _)) =>
                        .stop (pubinDisproveStep sha256 topology library g gcData host witnessData)
                    | .ok none => .proceed true
                    -- a check that cannot be made is left to the challenge
                    | .error _ => .proceed false

/-- Nothing without the setup of this verifier; no transactions if the assertion is known
already. -/
def broadcastVerifierChallengeAssertTx (assertTx : Transaction) (strict : Bool) :
    Except String (Option (List Transaction)) :=
  let graphName := Signing.Uuid.hyphenated g.parameters.instanceId ++ ":" ++
    Signing.Uuid.hyphenated g.parameters.graphId
  let missing (error : String) : Except String (Option (List Transaction)) :=
    if strict then .error (error ++ " for " ++ graphName) else .ok none
  match findVerifierIndexByPubkey gcData host.localPubkey with
  | .error error => .error error
  | .ok none => missing "local verifier has no graph slot"
  | .ok (some verifierIndex) =>
      match validateVerifierSlot g gcData verifierIndex, assertTx.input.head? with
      | .error error, _ => .error error
      | _, none => .error "operator assert transaction has no input"
      | .ok (), some assertTxin =>
          match extractOperatorAssertWitnessForChallenge library g assertTxin, host.statement with
          | .error error, _ => .error s!"failed to extract operator assert witness: {error}"
          | _, .error error => .error error
          | .ok assertWitness, .ok _ =>
              match host.state with
              | none => missing "missing BABE verifier setup state"
              | some state =>
                  match state.solderingProofReady with
                  | none => missing "missing soldering proof reference"
                  | some _ =>
                      match host.challengeLabels state assertWitness verifierIndex with
                      | .error error => .error error
                      | .ok labels =>
                          let count := labels.length
                          if count ≠ library.scripts.inputWireNum then
                            .error (s!"BABE challenge witness exposes {count} labels; expected " ++
                              toString library.scripts.inputWireNum)
                          else
                            match buildVerifierAssertTx library g assertTxin
                              verifierIndex labels with
                            | .error error => .error error
                            | .ok challengeAssertTx =>
                                if btc.txVisible (challengeAssertTx.computeTxid sha256) then
                                  .ok (some [])
                                else (host.withCpfp challengeAssertTx).map some

def challengeAssert (assertTx : Transaction) (pubinConsistent : Bool) : StepRun :=
  match assertTx.input.head? with
  | none => .fail "operator assert transaction has no input"
  | some assertTxin =>
      match extractOperatorAssertWitnessForChallenge library g assertTxin, host.statement with
      | .error error, _ => .fail s!"failed to extract operator assert witness: {error}"
      | _, .error error => .fail error
      | .ok assertWitness, .ok verifyOperatorAssertProof =>
          if pubinConsistent && verifyOperatorAssertProof assertWitness then
            .ignore "operator assert proof is valid"
          else
            match broadcastVerifierChallengeAssertTx library btc g gcData host assertTx false with
            | .error error => .fail error
            | .ok none => .ignore "ChallengeAssert not built: missing BABE verifier state"
            | .ok (some txs) => .broadcastPending txs "ChallengeAssert"

def verifierAssert (assertTxid : Bytes32) : StepRun :=
  match btc.lookup assertTxid with
  | none => .afterBlocks ("assert tx " ++ displayTxid assertTxid ++ " is not available") 1
  | some assertTx =>
      match findVerifierIndexByPubkey gcData host.localPubkey with
      | .error error => .fail error
      | .ok none => .ignore "local verifier has no graph slot"
      | .ok (some verifierIndex) =>
          match validateVerifierSlot g gcData verifierIndex with
          | .error error => .fail error
          | .ok () =>
              match settledBy (spendOf btc ⟨assertTxid, topology.connectorD gcData.length⟩)
                  "assert connector-D" with
              | some step => step
              | none =>
                  match settledBy (spendOf btc ⟨assertTxid,
                      topology.verifierConnector verifierIndex⟩) "verifier connector" with
                  | some step => step
                  | none =>
                      match checkPubin topology library btc g gcData host assertTx with
                      | .stop run => run
                      | .proceed pubinConsistent =>
                          challengeAssert library btc g gcData host assertTx pubinConsistent

end Job

end BitvmNode.Pegout
