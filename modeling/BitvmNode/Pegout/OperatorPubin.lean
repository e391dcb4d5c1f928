import BitvmNode.Bitcoin.BlockView
import BitvmNode.Pegout.Steps
import BitvmNode.Reasoning.Runs

/-!
# The operator's public inputs

Once every watchtower branch of a challenged graph is resolved, the operator commits to a block hash
and to the bitmap of the watchtowers that challenged.  Every function here takes the reads it makes
as a sequence of views of the chain, its `k`-th read being answered from the `k`-th of them: the
chain may grow between any two.
-/

namespace BitvmNode.Pegout

open Reasoning Bitcoin Graphs

structure WatchtowerChallengeInfo where
  challengeTxids : List (Option String)
  includedWatchtowers : List Bool
  resolvedBranchTxids : List Bytes32

structure ChallengeBranch where
  challengeTxid : Option String
  included : Bool
  resolved : Option Bytes32

section Inputs

variable {sha256 : Bytes → Bytes32} (topology : OutputTopology) (reads : Nat → BlockView sha256)

def challengeBranch (watchtowerChallengeInitTxid : Bytes32) (watchtowerTimeoutTxids : List Bytes32)
    (index : Nat) : Except String ChallengeBranch :=
  let challengeVout := topology.watchtowerConnector index
  match (reads (2 * index)).view.outpointSpentTxid ⟨watchtowerChallengeInitTxid, challengeVout⟩ with
  | some txid =>
      let status := (reads (2 * index + 1)).getTxStatus txid
      let name := displayTxid txid
      if status.confirmed = false then
        .error s!"watchtower branch tx {name} at index {index} is not confirmed yet"
      else if watchtowerTimeoutTxids[index]? = some txid then .ok ⟨none, false, some txid⟩
      else .ok ⟨some name, true, some txid⟩
  | none => .ok ⟨none, false, none⟩

def getWatchtowerChallengeInfo (watchtowerChallengeInitTxid : Bytes32)
    (watchtowerTimeoutTxids : List Bytes32)
    (numWatchtowers : Nat) : Except String WatchtowerChallengeInfo := do
  let branches ← (List.range numWatchtowers).mapM
    (challengeBranch topology reads watchtowerChallengeInitTxid watchtowerTimeoutTxids)
  .ok ⟨branches.map (·.challengeTxid), branches.map (·.included), branches.filterMap (·.resolved)⟩

/-- The loop over the branches; the later of two branches in one block does not replace the
first. -/
def largestBranch (tipHeight requiredBurialDepth : Nat) :
    Nat → Option (Nat × Bytes32) → List Bytes32 → Except String (Option (Nat × Bytes32))
  | _, largest, [] => .ok largest
  | k, largest, txid :: rest =>
      let name := displayTxid txid
      match (reads k).getTxStatus txid with
      | ⟨true, some height, some hash⟩ =>
          let burialDepth := tipHeight - height
          if burialDepth ≤ requiredBurialDepth then
            .error (s!"watchtower branch resolution tx {name} is not final enough for operator " ++
              s!"pubin: height={height}, tip={tipHeight}, burial_depth={burialDepth}, " ++
              s!"required_burial_depth>{requiredBurialDepth}")
          else
            let replaced := largest.all fun (h, _) => h < height
            largestBranch tipHeight requiredBurialDepth (k + 1)
              (if replaced then some (height, hash) else largest) rest
      | _ => .error s!"watchtower branch resolution tx {name} is not confirmed yet"

def markIncluded (bitmap : Bytes32) (bit : Bool × Nat) : Bytes32 :=
  if h : bit.1 = true ∧ bit.2 < 256 then
    bitmap.set (bit.2 / 8) (bitmap[bit.2 / 8] ||| 1 <<< UInt8.ofNat (bit.2 % 8)) (by omega)
  else bitmap

def includedWatchtowersBitmap (includedWatchtowersBits : List Bool) : Bytes32 :=
  includedWatchtowersBits.zipIdx.foldl markIncluded zero32

/-- The hash of the highest block that resolves a branch, every branch being buried deeply enough,
and the bitmap of the branches that are challenges. -/
def computeOperatorPubinBlockhashAndBitmap (btcBlockConfirms : Nat)
    (resolvedBranchTxids : List Bytes32) (includedWatchtowersBits : List Bool) :
    Except String (Bytes32 × Bytes32) :=
  let tipHeight := (reads 0).getHeight
  match largestBranch reads tipHeight btcBlockConfirms 1 none resolvedBranchTxids with
  | .error error => .error error
  | .ok none => .error "no confirmed watchtower branch resolution tx available"
  | .ok (some (_, hash)) => .ok (hash, includedWatchtowersBitmap includedWatchtowersBits)

def buildOperatorGuestPubin (btcBestBlockHash pubinDisproveConstant includedWatchtowers : Bytes32) :
    Bytes :=
  btcBestBlockHash.toList ++ pubinDisproveConstant.toList ++ includedWatchtowers.toList

/-- The operator's keys, wallet and connection: signing the committed inputs, and building and
broadcasting the transaction that spends the connector with them. -/
structure CommitHost where
  pubinDisproveConstant : Bytes32
  commit : BitvmGcGraph → Bytes → Except String Transaction

/-- A run of the job.  `committed` is a history column: what the broadcast transaction commits
to. -/
structure CommitRun where
  step : StepRun
  committed : Option (Bytes32 × Bytes32)

def BitvmGcGraph.timeoutTxids (sha256 : Bytes → Bytes32) (g : BitvmGcGraph) : List Bytes32 :=
  g.watchtowerChallengeTimeouts.map fun timeout => timeout.tx.computeTxid sha256

/-- Every watchtower branch is resolved: commit to the inputs.  The first two reads look at the
connector that the commitment and its timeout both spend. -/
def commitPubin (host : CommitHost) (btcBlockConfirms : Nat) (graph : BitvmGcGraph) : CommitRun :=
  let wci := graph.watchtowerChallengeInit.tx.computeTxid sha256
  let spend : Spend :=
    match (reads 0).view.outpointSpentTxid (graph.connectorE sha256 topology) with
    | none => .unspent
    | some spender => if ((reads 1).getTxStatus spender).confirmed then .confirmed spender
        else .pending spender
  match settledBy spend "connector-E" with
  | some step => ⟨step, none⟩
  | none =>
      match getWatchtowerChallengeInfo topology (fun k => reads (k + 2)) wci
        (graph.timeoutTxids sha256) graph.watchtowerNum with
      | .error error => ⟨.afterBlocks ("challenge info is not ready: " ++ error) 1, none⟩
      | .ok info =>
          match computeOperatorPubinBlockhashAndBitmap
            (fun k => reads (k + 2 + 2 * graph.watchtowerNum)) btcBlockConfirms
            info.resolvedBranchTxids info.includedWatchtowers with
          | .error error =>
              ⟨.afterBlocks ("operator pubin inputs are not ready: " ++ error) 1, none⟩
          | .ok (hash, bitmap) =>
              match host.commit graph
                (buildOperatorGuestPubin hash host.pubinDisproveConstant bitmap) with
              | .error error => ⟨.fail error, none⟩
              | .ok tx =>
                  ⟨.broadcastPending [tx]
                    ("Operator-Commit-Pubin " ++ displayTxid (tx.computeTxid sha256)),
                    some (hash, bitmap)⟩

structure GraphTxids where
  watchtowerChallengeInitTxid : Option Bytes32
  watchtowerChallengeTimeoutTxids : List Bytes32
  (operatorCommitTimeoutTxid operatorAssertTxid : Option Bytes32)

def operatorProofInputs (btcBlockConfirms : Nat) (row : GraphTxids) (graph : BitvmGcGraph) :
    Except String (Bytes32 × Bytes32) :=
  match row.watchtowerChallengeInitTxid with
  | none => .error "watchtower_challenge_init_txid is none"
  | some wci =>
      match getWatchtowerChallengeInfo topology reads wci (graph.timeoutTxids sha256)
        graph.watchtowerNum with
      | .error error => .error error
      | .ok info =>
          computeOperatorPubinBlockhashAndBitmap (fun k => reads (k + 2 * graph.watchtowerNum))
            btcBlockConfirms info.resolvedBranchTxids info.includedWatchtowers

structure GraphBtcTxVoutMonitor where
  (height voutLen : Int)

structure FlowTimelocks where
  (watchtowerChallenge operatorAck operatorCommit : Int)

def isTimelockReady (confirmedHeight lockBlocks currentHeight : Int) : Bool :=
  0 < confirmedHeight ∧ confirmedHeight + lockBlocks ≤ currentHeight

structure FlowState where
  signals : List PegoutSignal
  (allResolved timeoutReady : Bool)
  nackReady : List Nat

variable (timelocks : FlowTimelocks) (height : Int) (row : GraphTxids)
  (monitor : GraphBtcTxVoutMonitor) (wciTxid : Bytes32)

def flowBranch (connectorFSpent : Option Bytes32) (state : FlowState) (index : Nat) : FlowState :=
  let watchtowerSpent :=
    (reads (2 + 4 * index)).view.outpointSpentTxid ⟨wciTxid, topology.watchtowerConnector index⟩
  let ackSpent := (reads (3 + 4 * index)).view.outpointSpentTxid ⟨wciTxid,
    topology.ackConnector index⟩
  let watchtowerConfirmed :=
    watchtowerSpent.any fun txid => ((reads (4 + 4 * index)).getTxStatus txid).confirmed
  let ackConfirmed := ackSpent.any fun txid => ((reads (5 + 4 * index)).getTxStatus txid).confirmed
  let timedOut := watchtowerSpent.isSome ∧
    row.watchtowerChallengeTimeoutTxids[index]? = watchtowerSpent ∧ watchtowerConfirmed = true
  match watchtowerSpent with
  | some _ =>
      if watchtowerConfirmed = false then { state with allResolved := false }
      else if ¬ timedOut then
        let state :=
          { state with signals := state.signals ++ [.watchtowerChallengeSent index] }
        if ackConfirmed = false then
          { state with
            allResolved := false
            nackReady :=
              if connectorFSpent.isNone ∧ ackSpent.isNone ∧
                  isTimelockReady monitor.height timelocks.operatorAck height = true
              then state.nackReady ++ [index] else state.nackReady }
        else state
      else state
  | none =>
      { state with
        allResolved := false
        timeoutReady := state.timeoutReady ||
          (ackSpent.isNone &&
            isTimelockReady monitor.height timelocks.watchtowerChallenge height) }

/-- The challenge-init transaction and its branches.  `watchtowerNum` is the number of watchtowers
that the layout of the outputs gives for so many outputs. -/
def watchtowerFlow (watchtowerNum : Nat → Nat) (monitor : Option GraphBtcTxVoutMonitor) :
    List PegoutSignal :=
  match row.watchtowerChallengeInitTxid, monitor with
  | some wciTxid, some monitor =>
      let num := watchtowerNum monitor.voutLen.toNat
      if num = 0 then [.watchtowerChallengeInitSent]
      else
        let connectorESpent := (reads 0).view.outpointSpentTxid ⟨wciTxid, topology.connectorE num⟩
        let connectorFSpent := (reads 1).view.outpointSpentTxid ⟨wciTxid, topology.connectorF num⟩
        let commitTimedOut :=
          connectorESpent.isSome ∧ connectorESpent = row.operatorCommitTimeoutTxid
        let pubinCommitted := connectorESpent.isSome ∧ ¬ commitTimedOut
        let state := (List.range num).foldl
          (flowBranch topology reads timelocks height row monitor wciTxid connectorFSpent)
          ⟨[.watchtowerChallengeInitSent], true, false, []⟩
        state.signals ++ (if state.timeoutReady then [.watchtowerChallengeTimeout] else []) ++
          state.nackReady.map .nackReady ++
          (if state.allResolved = true ∧ connectorESpent.isNone ∧ connectorFSpent.isNone then
            .operatorCommitPubinReady ::
              (if isTimelockReady monitor.height timelocks.operatorCommit height = true
                then [.operatorCommitPubinTimeout] else [])
          else []) ++
          (if state.allResolved = true ∧ pubinCommitted ∧ ∃ txid ∈ row.operatorAssertTxid,
              ((reads (2 + 4 * num)).getTxStatus txid).confirmed = false
            then [.assertReady] else [])
  | _, _ => []

end Inputs

end BitvmNode.Pegout
