import BitvmNode.Pegout.Graph
import BitvmNode.Graphs.Aggregate
import Mathlib.Data.List.Destutter

/-!
# The stage of a graph on both chains

A scan derives the stage of a graph from the transactions that are confirmed on Bitcoin and from the
graph data posted on Goat, never from the stored status.
-/

namespace BitvmNode.Pegout

open Reasoning Bitcoin Signing Engine Graphs

inductive WithdrawStatus where
  | none
  | processing
  | initialized
  | canceled
  | complete
  | disproved

structure GoatView where
  graphDataOperatorPubkey : Uuid → Bytes32
  withdrawStatus : Uuid → WithdrawStatus

def GoatView.posted (goat : GoatView) (graphId : Uuid) : Bool :=
  goat.graphDataOperatorPubkey graphId ≠ zero32

structure DetectedDisprove where
  disproveType : DisproveTxType
  index : Nat
  challengeFinishTxid : Bytes32

inductive VerifierChallengeStatus where
  | none
  | verifierAsserted
  | proverAnswered
  | disproved
  deriving DecidableEq

structure ChallengeSubStatus where
  watchtowerChallengeStatus : List Bool
  verifierChallengeStatus : List VerifierChallengeStatus
  disproveType : Option DisproveTxType
  disproveIndex : Int32

structure GraphChainScan where
  status : GraphStatus
  subStatus : ChallengeSubStatus
  challengeTxid : Option Bytes32
  disprove : Option DetectedDisprove

def initialChallengeSubStatus (watchtowerNum verifierNum : Nat) : ChallengeSubStatus where
  watchtowerChallengeStatus := List.replicate watchtowerNum false
  verifierChallengeStatus := List.replicate verifierNum .none
  disproveType := none
  disproveIndex := 0

def ChallengeSubStatus.withDisprove (subStatus : ChallengeSubStatus) (disprove : DetectedDisprove) :
    ChallengeSubStatus :=
  { subStatus with
    disproveType := some disprove.disproveType
    disproveIndex := Int32.ofNat disprove.index }

section Scan

variable {sha256 : Bytes → Bytes32} {watched : List Transaction} (topology : OutputTopology)
  (btc : ChainView sha256 watched) (goat : GoatView) (g : BitvmGcGraph)

def detectGuardianDisprove : Option DetectedDisprove :=
  let quickChallengeTxid := g.quickChallenge.tx.computeTxid sha256
  let challengeIncompleteKickoffTxid := g.challengeIncompleteKickoff.tx.computeTxid sha256
  if btc.txConfirmed quickChallengeTxid then some ⟨.quickChallenge, 0, quickChallengeTxid⟩
  else if btc.txConfirmed challengeIncompleteKickoffTxid then
    some ⟨.challengeIncompleteKickoff, 0, challengeIncompleteKickoffTxid⟩
  else none

/-- Every confirmed spend of connector D but Take-2 is a disprove. -/
def detectConnectorDDisprove : Option DetectedDisprove :=
  match btc.outpointSpentConfirmed (g.connectorD sha256 topology) with
  | none => none
  | some spentTxid =>
      if spentTxid = g.take2.tx.computeTxid sha256 then none
      else
        match g.disproves.findIdx? fun disprove => spentTxid = disprove.tx.computeTxid sha256 with
        | some index => some ⟨.disprove, index, spentTxid⟩
        | none => some ⟨.pubinDisprove, 0, spentTxid⟩

def detectWatchtowerFlowDisprove : Option DetectedDisprove :=
  match g.operatorChallengeNacks.findIdx? fun nack =>
    btc.txConfirmed (nack.tx.computeTxid sha256) with
  | some index =>
      (g.operatorChallengeNacks[index]?).map fun nack =>
        ⟨.operatorChallengeNack, index, nack.tx.computeTxid sha256⟩
  | none =>
      let txid := g.operatorCommitTimeout.tx.computeTxid sha256
      if btc.txConfirmed txid then some ⟨.operatorCommitTimeout, 0, txid⟩ else none

def verifierStatus (verifierAssertTxid disproveTxid : Bytes32) : VerifierChallengeStatus :=
  if btc.txVisible verifierAssertTxid then
    match btc.outpointSpentConfirmed ⟨verifierAssertTxid, 0⟩ with
    | some spentTxid => if spentTxid = disproveTxid then .disproved else .proverAnswered
    | none => .verifierAsserted
  else .none

/-- One round of the loop over the verifiers.  A later disprove replaces an earlier one. -/
def verifierRound (state : ChallengeSubStatus × Option DetectedDisprove)
    (branch : (PreSigned × PreSigned) × Nat) : ChallengeSubStatus × Option DetectedDisprove :=
  let ((verifierAssert, disprove), index) := branch
  let disproveTxid := disprove.tx.computeTxid sha256
  let status := verifierStatus btc (verifierAssert.tx.computeTxid sha256) disproveTxid
  let subStatus := { state.1 with
    verifierChallengeStatus := state.1.verifierChallengeStatus.set index status }
  if status = .disproved then
    let detected : DetectedDisprove := ⟨.disprove, index, disproveTxid⟩
    (subStatus.withDisprove detected, some detected)
  else (subStatus, state.2)

/-- The verifiers' assertions with their disproves, of which a generated graph has one each. -/
def verifierBranches : List ((PreSigned × PreSigned) × Nat) :=
  (g.verifierAsserts.zip g.disproves).zipIdx

def scanAsserted (subStatus : ChallengeSubStatus) (challengeTxid : Option Bytes32) :
    GraphChainScan :=
  match (verifierBranches g).foldl (verifierRound btc) (subStatus, none) with
  | (subStatus, some disprove) => ⟨.disprove, subStatus, challengeTxid, some disprove⟩
  | (subStatus, none) =>
      match detectConnectorDDisprove topology btc g with
      | some disprove =>
          ⟨.disprove, subStatus.withDisprove disprove, challengeTxid, some disprove⟩
      | none =>
          if btc.txConfirmed (g.take2.tx.computeTxid sha256) then
            ⟨.operatorTake2, subStatus, challengeTxid, none⟩
          else ⟨.challenge, subStatus, challengeTxid, none⟩

def scanChallenge (subStatus : ChallengeSubStatus) (challengeTxid : Option Bytes32) :
    GraphChainScan :=
  match detectGuardianDisprove btc g with
  | some disprove => ⟨.disprove, subStatus.withDisprove disprove, challengeTxid, some disprove⟩
  | none =>
      match detectWatchtowerFlowDisprove btc g with
      | some disprove => ⟨.disprove, subStatus.withDisprove disprove, challengeTxid, some disprove⟩
      | none =>
          if btc.txVisible (g.watchtowerChallengeInit.tx.computeTxid sha256) = false then
            ⟨.challenge, subStatus, challengeTxid, none⟩
          else
            let subStatus := { subStatus with
              watchtowerChallengeStatus := (List.range g.watchtowerNum).map fun i =>
                (btc.outpointSpentTxid (g.watchtowerConnector sha256 topology i)).isSome }
            if btc.txVisible (g.operatorAssert.tx.computeTxid sha256) = false then
              ⟨.challenge, subStatus, challengeTxid, none⟩
            else scanAsserted topology btc g subStatus challengeTxid

def scanKickedOff (subStatus : ChallengeSubStatus) : GraphChainScan :=
  match detectGuardianDisprove btc g with
  | some disprove => ⟨.disprove, subStatus.withDisprove disprove, none, some disprove⟩
  | none =>
      match btc.outpointSpentConfirmed (g.connectorA sha256 topology) with
      | some spentTxid =>
          if spentTxid ≠ g.take1.tx.computeTxid sha256 then
            scanChallenge topology btc g subStatus (some spentTxid)
          else ⟨.operatorTake1, subStatus, none, none⟩
      | none => ⟨.operatorKickOff, subStatus, none, none⟩

def setupStage : GraphStatus :=
  if goat.posted g.parameters.graphId then .operatorDataPushed
  else if g.committeePreSigned then .committeePresigned
  else .operatorPresigned

def scanGraphChainState : GraphChainScan :=
  let subStatus := initialChallengeSubStatus g.watchtowerNum g.verifierNum
  if btc.txConfirmed (g.curPrekickoff.tx.computeTxid sha256) = false then
    ⟨setupStage goat g, subStatus, none, none⟩
  else
    match btc.outpointSpentConfirmed (g.kickoffConnector sha256 topology) with
    | some spentTxid =>
        if spentTxid ≠ g.kickoff.tx.computeTxid sha256 then ⟨.skipped, subStatus, none, none⟩
        else scanKickedOff topology btc g subStatus
    | none => ⟨.preKickoff, subStatus, none, none⟩

end Scan

/-- The transactions that a scan can report as the end of a challenge. -/
inductive FinishSource {sha256 : Bytes → Bytes32} {watched : List Transaction}
    (topology : OutputTopology) (btc : ChainView sha256 watched) (g : BitvmGcGraph) : Bytes32 → Prop
  | guardian (p : PreSigned) (hp : p = g.quickChallenge ∨ p = g.challengeIncompleteKickoff)
      (hconf : btc.isConfirmed (p.tx.computeTxid sha256) = true) :
      FinishSource topology btc g (p.tx.computeTxid sha256)
  | watchtowerFlow (p : PreSigned)
      (hp : p ∈ g.operatorChallengeNacks ∨ p = g.operatorCommitTimeout)
      (hconf : btc.isConfirmed (p.tx.computeTxid sha256) = true) :
      FinishSource topology btc g (p.tx.computeTxid sha256)
  | connectorD (txid : Bytes32)
      (hspent : btc.confirmedSpender (g.connectorD sha256 topology) = some txid) :
      FinishSource topology btc g txid
  | prover (verifierAssert : PreSigned) (hmem : verifierAssert ∈ g.verifierAsserts) (txid : Bytes32)
      (hspent : btc.confirmedSpender (BitvmGcGraph.proverConnector sha256 verifierAssert) =
        some txid) :
      FinishSource topology btc g txid

section Sources

variable {sha256 : Bytes → Bytes32} {watched : List Transaction} {topology : OutputTopology}
  {btc : ChainView sha256 watched} {goat : GoatView} {g : BitvmGcGraph} {d : DetectedDisprove}

theorem finishSource_of_guardian (h : detectGuardianDisprove btc g = some d) :
    FinishSource topology btc g d.challengeFinishTxid := by
  dsimp only [detectGuardianDisprove] at h
  split at h
  case isTrue hquick =>
    cases Option.some.inj h
    exact .guardian _ (.inl rfl) hquick
  case isFalse =>
    split at h
    case isTrue hincomplete =>
      cases Option.some.inj h
      exact .guardian _ (.inr rfl) hincomplete
    case isFalse => cases h

theorem finishSource_of_watchtowerFlow (h : detectWatchtowerFlowDisprove btc g = some d) :
    FinishSource topology btc g d.challengeFinishTxid := by
  unfold detectWatchtowerFlowDisprove at h
  split at h
  case h_1 index hindex =>
    obtain ⟨hlt, hconf, -⟩ := List.findIdx?_eq_some_iff_getElem.mp hindex
    rw [List.getElem?_eq_getElem hlt, Option.map_some] at h
    cases Option.some.inj h
    exact .watchtowerFlow _ (.inl (List.getElem_mem hlt)) hconf
  case h_2 =>
    dsimp only at h
    split at h
    case isTrue htimeout =>
      cases Option.some.inj h
      exact .watchtowerFlow _ (.inr rfl) htimeout
    case isFalse => cases h

theorem finishSource_of_connectorD (h : detectConnectorDDisprove topology btc g = some d) :
    FinishSource topology btc g d.challengeFinishTxid := by
  unfold detectConnectorDDisprove at h
  rw [ChainView.outpointSpentConfirmed_eq] at h
  split at h
  case h_1 => cases h
  case h_2 spentTxid hspent =>
    split at h
    case isTrue => cases h
    case isFalse =>
      split at h <;> cases Option.some.inj h <;> exact .connectorD _ hspent

theorem verifierStatus_eq_disproved_iff (verifierAssertTxid disproveTxid : Bytes32) :
    verifierStatus btc verifierAssertTxid disproveTxid = .disproved ↔
    btc.isVisible verifierAssertTxid = true ∧
        btc.confirmedSpender ⟨verifierAssertTxid, 0⟩ = some disproveTxid := by
  unfold verifierStatus ChainView.txVisible
  rw [ChainView.outpointSpentConfirmed_eq]
  cases btc.isVisible verifierAssertTxid with
  | false => simp
  | true =>
    cases btc.confirmedSpender ⟨verifierAssertTxid, 0⟩ with
    | none => simp
    | some spentTxid => by_cases h : spentTxid = disproveTxid <;> simp [h]

theorem exists_branch_of_verifierRounds (branches : List ((PreSigned × PreSigned) × Nat))
    (start : ChallengeSubStatus × Option DetectedDisprove)
    (h : (branches.foldl (verifierRound btc) start).2 = some d) :
    start.2 = some d ∨ ∃ branch ∈ branches, d.challengeFinishTxid =
      branch.1.2.tx.computeTxid sha256 ∧
      btc.confirmedSpender (BitvmGcGraph.proverConnector sha256 branch.1.1) =
        some d.challengeFinishTxid := by
  induction branches generalizing start with
  | nil => exact .inl h
  | cons branch branches ih =>
    rcases ih (verifierRound btc start branch) h with hround | ⟨other, hmem, hfinish, hspent⟩
    · obtain ⟨⟨verifierAssert, disprove⟩, index⟩ := branch
      dsimp only [verifierRound] at hround
      split at hround
      case isTrue hstatus =>
        cases Option.some.inj hround
        have hspent := ((verifierStatus_eq_disproved_iff _ _).mp hstatus).2
        exact .inr ⟨_, List.mem_cons_self, rfl, hspent⟩
      case isFalse => exact .inl hround
    · exact .inr ⟨other, List.mem_cons_of_mem _ hmem, hfinish, hspent⟩

theorem mem_of_mem_verifierBranches {branch : (PreSigned × PreSigned) × Nat}
    (h : branch ∈ verifierBranches g) : branch.1.1 ∈ g.verifierAsserts ∧ branch.1.2 ∈ g.disproves :=
  List.of_mem_zip (List.mem_of_getElem? (List.mem_zipIdx_iff_getElem?.mp h))

theorem finishSource_of_asserted {subStatus : ChallengeSubStatus} {challengeTxid : Option Bytes32}
    (h : (scanAsserted topology btc g subStatus challengeTxid).disprove = some d) :
    FinishSource topology btc g d.challengeFinishTxid := by
  unfold scanAsserted at h
  split at h
  case h_1 detected hrounds =>
    cases Option.some.inj h
    have hsome : ((verifierBranches g).foldl (verifierRound btc) (subStatus, none)).2 = some d := by
      rw [hrounds]
    obtain hstart | ⟨branch, hmem, -, hspent⟩ := exists_branch_of_verifierRounds _ _ hsome
    · cases hstart
    · exact .prover branch.1.1 (mem_of_mem_verifierBranches hmem).1 _ hspent
  case h_2 =>
    split at h
    case h_1 disprove hdetected =>
      cases Option.some.inj h
      exact finishSource_of_connectorD hdetected
    case h_2 => split at h <;> cases h

theorem finishSource_of_challenge {subStatus : ChallengeSubStatus} {challengeTxid : Option Bytes32}
    (h : (scanChallenge topology btc g subStatus challengeTxid).disprove = some d) :
    FinishSource topology btc g d.challengeFinishTxid := by
  unfold scanChallenge at h
  split at h
  case h_1 disprove hdetected =>
    cases Option.some.inj h
    exact finishSource_of_guardian hdetected
  case h_2 =>
    split at h
    case h_1 disprove hdetected =>
      cases Option.some.inj h
      exact finishSource_of_watchtowerFlow hdetected
    case h_2 =>
      split at h
      case isTrue => cases h
      case isFalse =>
        split at h
        case isTrue => cases h
        case isFalse => exact finishSource_of_asserted h

theorem finishSource_of_scan (h : (scanGraphChainState topology btc goat g).disprove = some d) :
    FinishSource topology btc g d.challengeFinishTxid := by
  unfold scanGraphChainState at h
  split at h
  case isTrue => cases h
  case isFalse =>
    split at h
    case h_2 => cases h
    case h_1 =>
      split at h
      case isTrue => cases h
      case isFalse =>
        unfold scanKickedOff at h
        split at h
        case h_1 disprove hdetected =>
          cases Option.some.inj h
          exact finishSource_of_guardian hdetected
        case h_2 =>
          split at h
          case h_2 => cases h
          case h_1 =>
            split at h
            case isTrue => exact finishSource_of_challenge h
            case isFalse => cases h

theorem scanAsserted_challengeTxid (subStatus : ChallengeSubStatus)
    (challengeTxid : Option Bytes32) :
    (scanAsserted topology btc g subStatus challengeTxid).challengeTxid = challengeTxid := by
  unfold scanAsserted
  split
  · rfl
  · split
    · rfl
    · split <;> rfl

theorem scanChallenge_challengeTxid (subStatus : ChallengeSubStatus)
    (challengeTxid : Option Bytes32) :
    (scanChallenge topology btc g subStatus challengeTxid).challengeTxid = challengeTxid := by
  unfold scanChallenge
  split
  · rfl
  · split
    · rfl
    · split
      · rfl
      · dsimp only
        split
        · rfl
        · exact scanAsserted_challengeTxid _ _

theorem challengeTxid_spec {challenge : Bytes32}
    (h : (scanGraphChainState topology btc goat g).challengeTxid = some challenge) :
    btc.confirmedSpender (g.connectorA sha256 topology) = some challenge ∧
      challenge ≠ g.take1.tx.computeTxid sha256 := by
  unfold scanGraphChainState at h
  split at h
  case isTrue => cases h
  case isFalse =>
    split at h
    case h_2 => cases h
    case h_1 =>
      split at h
      case isTrue => cases h
      case isFalse =>
        unfold scanKickedOff at h
        split at h
        case h_1 => cases h
        case h_2 =>
          split at h
          case h_2 => cases h
          case h_1 spentTxid hspent =>
            split at h
            case isFalse => cases h
            case isTrue hne =>
              rw [scanChallenge_challengeTxid] at h
              cases Option.some.inj h
              rw [ChainView.outpointSpentConfirmed_eq] at hspent
              exact ⟨hspent, hne⟩

end Sources

theorem scan_of_kickedOff {sha256 : Bytes → Bytes32} {watched : List Transaction}
    {topology : OutputTopology} (g : WiredGraph sha256 topology) (btc : ChainView sha256 watched)
    (goat : GoatView) (hwatched : g.transactions ⊆ watched)
    (hprekickoff : btc.txConfirmed (g.curPrekickoff.tx.computeTxid sha256) = true)
    (hkickoff : btc.txConfirmed (g.kickoff.tx.computeTxid sha256) = true) :
    scanGraphChainState topology btc goat g.toBitvmGcGraph =
        scanKickedOff topology btc g.toBitvmGcGraph
        (initialChallengeSubStatus g.watchtowerNum g.verifierNum) := by
  have hspent : btc.outpointSpentConfirmed (g.kickoffConnector sha256 topology) =
      some (g.kickoff.tx.computeTxid sha256) := by
    rw [ChainView.outpointSpentConfirmed_eq]
    refine Ledger.confirmedSpender_of_watched (hwatched g.kickoff_mem) hkickoff ?_
    change _ ∈ g.kickoff.tx.spends
    rw [g.kickoff_spends]
    exact List.mem_singleton_self _
  unfold scanGraphChainState
  simp [hprekickoff, hspent]

def beforePrekickoff (stage : GraphStatus) : Bool :=
  match stage with
  | .operatorPresigned | .committeePresigned | .operatorDataPushed => true
  | _ => false

def kickedOff (stage : GraphStatus) : Bool :=
  match stage with
  | .operatorKickOff | .challenge | .disprove | .operatorTake1 | .operatorTake2 => true
  | _ => false

/-- Signals implied by chain progress, including stages crossed between scans. -/
def stageSignals (chain : GraphChainScan) : List PegoutSignal :=
  (if beforePrekickoff chain.status then [] else [.preKickoffSent]) ++
  (if kickedOff chain.status then [.kickoffSent] else []) ++
  (match chain.challengeTxid with
    | some challengeTxid => [.challengeSent challengeTxid.toList]
    | none => []) ++
  (match chain.status with
    | .operatorTake1 => [.take1Sent]
    | .operatorTake2 => [.take2Sent]
    | .disprove =>
        match chain.disprove with
        | some disprove =>
            [.disproveSent disprove.disproveType disprove.index disprove.challengeFinishTxid.toList]
        | none => []
    | _ => [])

/-- The facts of one graph.  `unusable` is asked for before the Pre-Kickoff only, `flowSignals` are
those of Take-1 and of the challenge flows. -/
def gatherChainScan (encode : ChallengeSubStatus → String) (unusable : Option Unusable)
    (flowSignals : List PegoutSignal) (chain : GraphChainScan) : ChainScan where
  stage := chain.status
  subStatus := some (encode chain.subStatus)
  unusable := if beforePrekickoff chain.status then unusable else none
  signals := (stageSignals chain ++
    (match chain.status with
      | .operatorKickOff | .challenge => flowSignals
      | _ => [])).destutter (· ≠ ·)

section Applied

variable {handler : GraphAggregate} {codecs : GraphCodecs} {ctx : ApplyContext}

/-- The job that calls `finishWithdrawDisproved` for a detected disprove. -/
def finishDisprovedJob (codecs : GraphCodecs) (ctx : ApplyContext) (d : DetectedDisprove) :
    JobSpec :=
  JobSpec.new codecs.sha256 ctx.aggregate phaseSettlement jobFinishDisproved
    (pegoutJobPool jobFinishDisproved)
      (codecs.signalBytes (.disproveSent d.disproveType d.index d.challengeFinishTxid.toList))

theorem jobs_subset_applySignal (own : Bool) (effects : Effects) (signal : PegoutSignal) :
    effects.jobs ⊆ (handler.applySignal codecs ctx own effects signal).jobs := by
  intro job hjob
  unfold GraphAggregate.applySignal
  -- the jobs so far are kept whether the signal is routed or not
  cases routeSignal signal handler.actor handler.relayer own with
  | none =>
    dsimp only
    split
    · split <;> exact hjob
    · exact hjob
  | some action =>
    have hqueued := List.mem_append_left
      [JobSpec.new codecs.sha256 ctx.aggregate phaseSettlement action (pegoutJobPool action)
        (codecs.signalBytes signal)] hjob
    dsimp only
    split
    · split <;> exact hqueued
    · exact hqueued

theorem jobs_subset_applySignals (own : Bool) (signals : List PegoutSignal) (effects : Effects) :
    effects.jobs ⊆ (signals.foldl (handler.applySignal codecs ctx own) effects).jobs := by
  induction signals generalizing effects with
  | nil => exact fun _ h => h
  | cons signal signals ih => exact fun _ h => ih _ (jobs_subset_applySignal own effects signal h)

theorem finishDisproved_queued (hactor : handler.actor = .committee)
    (hrelayer : handler.relayer = true) (own : Bool) {signals : List PegoutSignal}
    {d : DetectedDisprove}
    (hmem : .disproveSent d.disproveType d.index d.challengeFinishTxid.toList ∈ signals)
    (effects : Effects) :
    finishDisprovedJob codecs ctx d ∈
      (signals.foldl (handler.applySignal codecs ctx own) effects).jobs := by
  induction signals generalizing effects with
  | nil => cases hmem
  | cons signal signals ih =>
    rcases List.mem_cons.mp hmem with rfl | hmem
    · refine jobs_subset_applySignals own signals _ ?_
      have hroute : routeSignal (.disproveSent d.disproveType d.index d.challengeFinishTxid.toList)
          handler.actor handler.relayer own = some jobFinishDisproved := by
        rw [hactor, hrelayer]
        rfl
      unfold GraphAggregate.applySignal
      rw [hroute]
      exact List.mem_append_right _ (List.mem_singleton_self _)
    · exact ih hmem _

theorem disproveSent_mem_gathered {chain : GraphChainScan} {d : DetectedDisprove}
    (hstatus : chain.status = .disprove) (hd : chain.disprove = some d)
    (encode : ChallengeSubStatus → String) :
    .disproveSent d.disproveType d.index d.challengeFinishTxid.toList ∈
      (gatherChainScan encode none [] chain).signals := by
  unfold gatherChainScan stageSignals
  cases chain.challengeTxid with
  | none | some txid =>
    simp [hstatus, hd, beforePrekickoff, kickedOff, List.destutter, List.destutter']

theorem closed_of_disprove {apply : GraphApply} {row : Graph} {scan : ChainScan}
    (hrow : apply.store.graphs.find? ctx.graphId = some row) (hstage : scan.stage = .disprove) :
    ((handler.applyChainScan codecs ctx apply (some row) scan).1.store.graphs.find?
      ctx.graphId).any (·.status.isClosed) = true := by
  have hdecide : ∀ failed, decideStatus scan failed = some .disprove := by
    intro failed
    unfold decideStatus
    rw [hstage]
  have hspec := (transitionGraphStatus_spec hrow .disprove .chainReconcile scan.subStatus ctx.now).1
  dsimp only [GraphAggregate.applyChainScan]
  rw [hdecide]
  obtain ⟨stored, hstored, hstatus⟩ := Option.map_eq_some_iff.mp hspec
  rw [hstored, Option.any_some, hstatus]
  cases hold : row.status <;> decide

end Applied

end BitvmNode.Pegout
