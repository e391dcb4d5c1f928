import BitvmNode.Pegout.ChainState
import BitvmNode.Reasoning.Runs
import Mathlib.Data.UInt

/-!
# Guardian punishments

A verifier punishes an operator that leaves a slot open by spending the guardian connector.
-/

namespace BitvmNode.Pegout

open Reasoning Bitcoin Signing Engine Graphs

structure GoatConstants where
  dustAmount : UInt64
  p2aOutput : TxOut

/-- What a fee rate makes of a size in virtual bytes: the product in floating point, rounded up and
cast to satoshi.  The builders use the rate in no other way. -/
abbrev FeeRate := Nat → UInt64

def FeeRate.satPerVbyte (rate : Nat) : FeeRate := fun vbytes => UInt64.ofNat (vbytes * rate)

def minRelayFee : FeeRate := FeeRate.satPerVbyte 1

/-- Why a builder returns nothing; the last case is the panic of an addition of amounts. -/
inductive BuildError where
  | missingPreSignatures
  | insufficientInput
  | amountOverflow
  deriving DecidableEq

def addAmounts (a b : UInt64) : Except BuildError UInt64 :=
  if a.toNat + b.toNat < 2 ^ 64 then .ok (a + b) else .error .amountOverflow

def PreSigned.totalInput (p : PreSigned) : UInt64 := sumAmounts (p.prevOuts.map TxOut.value)

def pushOutput (tx : Transaction) (output : TxOut) : Transaction :=
  { tx with output := tx.output ++ [output] }

def changeVbytes (tx : Transaction) (changeScript : Bytes) : Nat :=
  Transaction.toVbytesCeil (pushOutput tx ⟨0, changeScript⟩).weight

section Builders

variable (constants : GoatConstants)

/-- The flag tells that an anchor was added, for which the broadcast needs a child. -/
def addChangeOrAnchorOutput (tx : Transaction) (totalInput : UInt64) (changeScript : Bytes)
    (rate : FeeRate) : Except BuildError (Transaction × Bool) := do
  let outputAmount := sumAmounts (tx.output.map TxOut.value)
  let minFeeAmount := minRelayFee (changeVbytes tx changeScript)
  let feeAmount := rate (changeVbytes tx changeScript)
  let minimum ← addAmounts (← addAmounts minFeeAmount constants.dustAmount) outputAmount
  if minimum > totalInput then
    .error .insufficientInput
  else
    let spent ← addAmounts feeAmount outputAmount
    if (← addAmounts spent constants.dustAmount) < totalInput then
      .ok (pushOutput tx ⟨totalInput - feeAmount - outputAmount, changeScript⟩, false)
    else if spent > totalInput then .ok (pushOutput tx constants.p2aOutput, true)
    else .ok (tx, false)

def buildPunishment (g : BitvmGcGraph) (stored : PreSigned) (receiveScript : Bytes)
    (rate : FeeRate) : Except BuildError (Transaction × Bool) :=
  if g.operatorPreSigned = false then .error .missingPreSignatures
  else addChangeOrAnchorOutput constants stored.tx stored.totalInput receiveScript rate

def buildForceSkipKickoffTx (g : BitvmGcGraph) (receiveScript : Bytes) (rate : FeeRate) :
    Except BuildError (Transaction × Bool) :=
  buildPunishment constants g g.forceSkipKickoff receiveScript rate

def buildQuickChallengeTx (g : BitvmGcGraph) (receiveScript : Bytes) (rate : FeeRate) :
    Except BuildError (Transaction × Bool) :=
  buildPunishment constants g g.quickChallenge receiveScript rate

def buildChallengeIncompleteKickoffTx (g : BitvmGcGraph) (receiveScript : Bytes) (rate : FeeRate) :
    Except BuildError (Transaction × Bool) :=
  buildPunishment constants g g.challengeIncompleteKickoff receiveScript rate

/-- The fee takes all that is left over, up to dust: no output is added. -/
def RemainderCoversFee (stored : PreSigned) (receiveScript : Bytes) (rate : FeeRate) : Prop :=
  let spent := (rate (changeVbytes stored.tx receiveScript)).toNat +
    (sumAmounts (stored.tx.output.map TxOut.value)).toNat
  spent ≤ stored.totalInput.toNat ∧ stored.totalInput.toNat ≤ spent + constants.dustAmount.toNat

instance (stored : PreSigned) (receiveScript : Bytes) (rate : FeeRate) :
    Decidable (RemainderCoversFee constants stored receiveScript rate) :=
  inferInstanceAs (Decidable (_ ∧ _))

theorem addAmounts_ok {a b c : UInt64} (h : addAmounts a b = .ok c) :
    c.toNat = a.toNat + b.toNat := by
  unfold addAmounts at h
  split at h
  case isTrue hlt =>
    cases Except.ok.inj h
    rw [UInt64.toNat_add, Nat.mod_eq_of_lt hlt]
  case isFalse => cases h

/-- The builder returns the pre-signed transaction itself, or that transaction with one more
output. -/
theorem addChangeOrAnchorOutput_ok {stored : PreSigned} {receiveScript : Bytes} {rate : FeeRate}
    {tx : Transaction} {anchored : Bool}
    (h : addChangeOrAnchorOutput constants stored.tx stored.totalInput receiveScript rate =
      .ok (tx, anchored)) :
    (RemainderCoversFee constants stored receiveScript rate ∧ tx = stored.tx) ∨
      (¬ RemainderCoversFee constants stored receiveScript rate ∧
        ∃ output, tx = pushOutput stored.tx output) := by
  obtain ⟨_, -, h⟩ := except_bind_eq_ok.mp h
  obtain ⟨minimum, -, h⟩ := except_bind_eq_ok.mp h
  split at h
  case isTrue => cases h
  case isFalse =>
    obtain ⟨spent, hspent, h⟩ := except_bind_eq_ok.mp h
    obtain ⟨withDust, hdust, h⟩ := except_bind_eq_ok.mp h
    have hspentNat := addAmounts_ok hspent
    have hdustNat := addAmounts_ok hdust
    dsimp only [RemainderCoversFee]
    rw [← hspentNat, ← hdustNat]
    split at h
    case isTrue hchange =>
      -- what is left over is more than dust: change
      cases Except.ok.inj h
      have hlt : withDust.toNat < stored.totalInput.toNat := hchange
      exact .inr ⟨fun hcovers => absurd hcovers.2 (Nat.not_le.mpr hlt), _, rfl⟩
    case isFalse hchange =>
      have hle : stored.totalInput.toNat ≤ withDust.toNat := Nat.not_lt.mp hchange
      split at h
      case isTrue hanchor =>
        -- the fee is not covered: an anchor
        cases Except.ok.inj h
        have hlt : stored.totalInput.toNat < spent.toNat := hanchor
        exact .inr ⟨fun hcovers => absurd hcovers.1 (Nat.not_le.mpr hlt), _, rfl⟩
      case isFalse hanchor =>
        cases Except.ok.inj h
        exact .inl ⟨⟨Nat.not_lt.mp hanchor, hle⟩, rfl⟩

end Builders

section Recognised

variable {sha256 : Bytes → Bytes32} {topology : OutputTopology}

/-- The scan reports the disprove with `tx` as its end, the graph closes and the relayer queues its
call. -/
structure PunishmentRecognised {watched : List Transaction} (btc : ChainView sha256 watched)
    (goat : GoatView) (g : WiredGraph sha256 topology) (tx : Transaction) : Prop where
  stage : (scanGraphChainState topology btc goat g.toBitvmGcGraph).status = .disprove
  finish : (scanGraphChainState topology btc goat g.toBitvmGcGraph).disprove.map
    DetectedDisprove.challengeFinishTxid = some (tx.computeTxid sha256)
  closes : ∀ (handler : GraphAggregate) (codecs : GraphCodecs) (ctx : ApplyContext)
    (apply : GraphApply) (row : Graph) (encode : ChallengeSubStatus → String),
    apply.store.graphs.find? ctx.graphId = some row →
    ((handler.applyChainScan codecs ctx apply (some row) (gatherChainScan encode none []
      (scanGraphChainState topology btc goat g.toBitvmGcGraph))).1.store.graphs.find?
        ctx.graphId).any (·.status.isClosed) = true
  queued : ∀ (handler : GraphAggregate) (codecs : GraphCodecs) (ctx : ApplyContext)
    (apply : GraphApply) (row : Graph) (encode : ChallengeSubStatus → String),
    handler.actor = .committee → handler.relayer = true →
    ∃ d, d.challengeFinishTxid = tx.computeTxid sha256 ∧ finishDisprovedJob codecs ctx d ∈
      (handler.applyChainScan codecs ctx apply (some row) (gatherChainScan encode none []
        (scanGraphChainState topology btc goat g.toBitvmGcGraph))).1.effects.jobs

theorem PunishmentRecognised.of_scan {watched : List Transaction} {btc : ChainView sha256 watched}
    {goat : GoatView} {g : WiredGraph sha256 topology} {tx : Transaction} {d : DetectedDisprove}
    (hstage : (scanGraphChainState topology btc goat g.toBitvmGcGraph).status = .disprove)
    (hd : (scanGraphChainState topology btc goat g.toBitvmGcGraph).disprove = some d)
    (hfinish : d.challengeFinishTxid = tx.computeTxid sha256) :
    PunishmentRecognised btc goat g tx where
  stage := hstage
  finish := by rw [hd, Option.map_some, hfinish]
  closes _ _ _ _ _ _ hrow := closed_of_disprove hrow hstage
  queued _ _ _ _ _ encode hactor hrelayer :=
    ⟨d, hfinish, finishDisproved_queued hactor hrelayer _
      (disproveSent_mem_gathered hstage hd encode) _⟩

variable (g : WiredGraph sha256 topology) {p : PreSigned}

section

variable (hp : p = g.quickChallenge ∨ p = g.challengeIncompleteKickoff)

include hp

theorem guardian_spends :
    ∃ vout, p.tx.spends =
      [g.guardianConnector sha256 topology, ⟨g.nextPrekickoff.tx.computeTxid sha256, vout⟩] := by
  rcases hp with rfl | rfl
  · exact ⟨_, g.quickChallenge_spends⟩
  · exact ⟨_, g.challengeIncompleteKickoff_spends⟩

theorem eq_of_guardian_spends {q : PreSigned}
    (hq : q = g.quickChallenge ∨ q = g.challengeIncompleteKickoff) (h : p.tx.spends = q.tx.spends) :
    p = q := by
  have hne : g.quickChallenge.tx.spends ≠ g.challengeIncompleteKickoff.tx.spends := by
    rw [g.quickChallenge_spends, g.challengeIncompleteKickoff_spends]
    intro heq
    have hvout := congrArg OutPoint.vout (List.cons.inj (List.cons.inj heq).2).1
    exact topology.forceSkip_ne_prekickoff hvout
  rcases hp with rfl | rfl <;> rcases hq with rfl | rfl
  · rfl
  · exact absurd h hne
  · exact absurd h.symm hne
  · rfl

theorem not_spends_challenge {later : PreSigned} {o : OutPoint}
    (hlater : later ∈ g.watchtowerChallengeInit :: g.operatorAssert :: g.verifierAsserts)
    (ho : o.txid = later.tx.computeTxid sha256) : o ∉ p.tx.spends := by
  obtain ⟨vout, hspends⟩ := guardian_spends g hp
  obtain ⟨hkickoff, hnext⟩ := g.txid_ne_of_challenge hlater
  intro hmem
  rw [hspends] at hmem
  rcases List.mem_cons.mp hmem with rfl | hmem
  · exact hkickoff ho
  · cases List.mem_singleton.mp hmem
    exact hnext ho

theorem not_finishSource_of_pushed {output : TxOut}
    (btc : ChainView sha256 (pushOutput p.tx output :: g.transactions)) :
    ¬ FinishSource topology btc g.toBitvmGcGraph ((pushOutput p.tx output).computeTxid sha256) := by
  -- what the new transaction spends is what the pre-signed one spends
  have hspends : (pushOutput p.tx output).spends = p.tx.spends := rfl
  have hwatched : pushOutput p.tx output ∈ pushOutput p.tx output :: g.transactions :=
    List.mem_cons_self
  have hsame : ∀ q : PreSigned, q.tx ∈ g.transactions →
      q.tx.computeTxid sha256 = (pushOutput p.tx output).computeTxid sha256 →
      q.tx.stripWitness = (pushOutput p.tx output).stripWitness := fun q hq hid =>
    btc.collisionFree _ (List.mem_append_right _ (List.mem_cons_of_mem _ hq)) _
      (List.mem_append_right _ hwatched) hid
  have hsameSpends : ∀ q : PreSigned, q.tx ∈ g.transactions →
      q.tx.computeTxid sha256 = (pushOutput p.tx output).computeTxid sha256 →
      q.tx.spends = p.tx.spends := fun q hq hid => by
    rw [← Transaction.spends_stripWitness, hsame q hq hid, Transaction.spends_stripWitness, hspends]
  intro hsource
  generalize hid : (pushOutput p.tx output).computeTxid sha256 = txid at hsource
  cases hsource with
  | guardian q hq =>
    have hqmem : q.tx ∈ g.transactions := by
      rcases hq with rfl | rfl
      · exact g.quickChallenge_mem
      · exact g.challengeIncompleteKickoff_mem
    obtain rfl := eq_of_guardian_spends g hq hp (hsameSpends q hqmem hid.symm)
    have houtput : q.tx.output = q.tx.output ++ [output] :=
      congrArg Transaction.output (hsame q hqmem hid.symm)
    have hlength := congrArg List.length houtput
    rw [List.length_append, List.length_singleton] at hlength
    omega
  | watchtowerFlow q hq =>
    -- NACKs and the commit timeout spend connector F
    have hconnectorF : g.connectorF sha256 topology ∈ q.tx.spends ∧ q.tx ∈ g.transactions := by
      rcases hq with hq | rfl
      · obtain ⟨i, -, hspends⟩ := g.nack_spends hq
        exact ⟨by rw [hspends]; simp, g.nack_mem hq⟩
      · exact ⟨by rw [g.operatorCommitTimeout_spends]; simp, g.operatorCommitTimeout_mem⟩
    rw [hsameSpends q hconnectorF.2 hid.symm] at hconnectorF
    exact not_spends_challenge g hp List.mem_cons_self rfl hconnectorF.1
  | connectorD _ hspent =>
    have hmem := Ledger.mem_spends_of_watched hwatched (hid ▸ hspent)
    exact not_spends_challenge g hp (List.mem_cons_of_mem _ List.mem_cons_self) rfl hmem
  | prover verifierAssert hverifier _ hspent =>
    have hmem := Ledger.mem_spends_of_watched hwatched (hid ▸ hspent)
    exact not_spends_challenge g hp
      (List.mem_cons_of_mem _ (List.mem_cons_of_mem _ hverifier)) rfl hmem

theorem recognised_of_stored {watched : List Transaction} (hwatched : g.transactions ⊆ watched)
    (btc : ChainView sha256 watched) (goat : GoatView)
    (hprekickoff : btc.txConfirmed (g.curPrekickoff.tx.computeTxid sha256) = true)
    (hkickoff : btc.txConfirmed (g.kickoff.tx.computeTxid sha256) = true)
    (hconf : btc.txConfirmed (p.tx.computeTxid sha256) = true) :
    PunishmentRecognised btc goat g p.tx := by
  have hscan := scan_of_kickedOff g btc goat hwatched hprekickoff hkickoff
  obtain ⟨d, hd, hfinish⟩ : ∃ d, detectGuardianDisprove btc g.toBitvmGcGraph = some d ∧
      d.challengeFinishTxid = p.tx.computeTxid sha256 := by
    by_cases hquick : btc.txConfirmed (g.quickChallenge.tx.computeTxid sha256) = true
    · -- both kinds spend the guardian connector, so at most one transaction is confirmed
      refine ⟨_, if_pos hquick, ?_⟩
      have hpmem : p.tx ∈ g.transactions := by
        rcases hp with rfl | rfl
        · exact g.quickChallenge_mem
        · exact g.challengeIncompleteKickoff_mem
      obtain ⟨vout, hspends⟩ := guardian_spends g hp
      refine Ledger.txid_eq_of_shared (o := g.guardianConnector sha256 topology)
        (hwatched g.quickChallenge_mem) (hwatched hpmem) hquick hconf ?_ ?_
      · change _ ∈ g.quickChallenge.tx.spends
        rw [g.quickChallenge_spends]
        exact List.mem_cons_self
      · change _ ∈ p.tx.spends
        rw [hspends]
        exact List.mem_cons_self
    · rcases hp with rfl | rfl
      · exact absurd hconf hquick
      · exact ⟨_, (if_neg hquick).trans (if_pos hconf), rfl⟩
  have hkicked : scanKickedOff topology btc g.toBitvmGcGraph
      (initialChallengeSubStatus g.watchtowerNum g.verifierNum) =
      ⟨.disprove, (initialChallengeSubStatus g.watchtowerNum g.verifierNum).withDisprove d, none,
        some d⟩ := by
    unfold scanKickedOff
    rw [hd]
  exact .of_scan (by rw [hscan, hkicked]) (by rw [hscan, hkicked]) hfinish

end

/-- In every chain state with Pre-Kickoff, Kickoff and the built punishment confirmed, the
punishment is recognised exactly if the builder had no output to add. -/
theorem guardian_punishment_recognised_iff (constants : GoatConstants) {stored : PreSigned}
    {receiveScript : Bytes} {rate : FeeRate} {tx : Transaction} {anchored : Bool}
    (hbuilt : (stored = g.quickChallenge ∧
        buildQuickChallengeTx constants g.toBitvmGcGraph receiveScript rate = .ok (tx, anchored)) ∨
      (stored = g.challengeIncompleteKickoff ∧
        buildChallengeIncompleteKickoffTx constants g.toBitvmGcGraph receiveScript rate =
          .ok (tx, anchored)))
    (btc : ChainView sha256 (tx :: g.transactions)) (goat : GoatView)
    (hprekickoff : btc.txConfirmed (g.curPrekickoff.tx.computeTxid sha256) = true)
    (hkickoff : btc.txConfirmed (g.kickoff.tx.computeTxid sha256) = true)
    (htx : btc.txConfirmed (tx.computeTxid sha256) = true) : PunishmentRecognised btc goat g tx ↔
      RemainderCoversFee constants stored receiveScript rate := by
  have hstored : stored = g.quickChallenge ∨ stored = g.challengeIncompleteKickoff :=
    hbuilt.imp And.left And.left
  have hadded : addChangeOrAnchorOutput constants stored.tx stored.totalInput receiveScript rate =
      .ok (tx, anchored) := by
    have hpunishment : buildPunishment constants g.toBitvmGcGraph stored receiveScript rate =
        .ok (tx, anchored) := by
      rcases hbuilt with ⟨rfl, h⟩ | ⟨rfl, h⟩ <;> exact h
    unfold buildPunishment at hpunishment
    split at hpunishment
    · cases hpunishment
    · exact hpunishment
  rcases addChangeOrAnchorOutput_ok constants hadded with ⟨hcovers, rfl⟩ | ⟨hnot, output, rfl⟩
  · have hwatched : g.transactions ⊆ stored.tx :: g.transactions := List.subset_cons_self _ _
    exact iff_of_true (recognised_of_stored g hstored hwatched btc goat hprekickoff hkickoff htx)
      hcovers
  · refine iff_of_false (fun hrecognised => ?_) hnot
    obtain ⟨d, hd, hfinish⟩ := Option.map_eq_some_iff.mp hrecognised.finish
    exact not_finishSource_of_pushed g hstored btc (hfinish ▸ finishSource_of_scan hd)

end Recognised

namespace Unrecognised

open Smallest

def constants : GoatConstants := ⟨330, ⟨0, [0x51, 0x02, 0x4E, 0x73]⟩⟩

def receiveScript : Bytes := [0x00, 0x20] ++ List.replicate 32 7

def goat : GoatView := ⟨fun _ => zero32, fun _ => .none⟩

def withChange : Transaction := pushOutput graph.quickChallenge.tx ⟨9865, receiveScript⟩

def confirmed (punishment : Transaction) : List Transaction :=
  [graph.curPrekickoff.tx, graph.kickoff.tx, punishment]

theorem confirmed_subset {punishment : Transaction} {named : List Transaction}
    (hgraph : graph.transactions ⊆ named) (hpunishment : punishment ∈ named) :
    confirmed punishment ++ [] ++ punishment :: graph.transactions ⊆ named := by
  have hcur : graph.curPrekickoff.tx ∈ named := hgraph graph.curPrekickoff_mem
  have hkickoff : graph.kickoff.tx ∈ named := hgraph graph.kickoff_mem
  intro t ht
  simp only [confirmed, List.append_nil, List.cons_append, List.nil_append, List.mem_cons] at ht
  rcases ht with rfl | rfl | rfl | rfl | ht
  · exact hcur
  · exact hkickoff
  · exact hpunishment
  · exact hpunishment
  · exact hgraph ht

def changeView : ChainView hash (withChange :: graph.transactions) :=
  Ledger.ofDistinct (withChange :: graph.transactions) (confirmed withChange) []
    (List.nodup_cons.mpr ⟨by decide +kernel, graph.distinct⟩)
    (confirmed_subset (List.subset_cons_self _ _) List.mem_cons_self) (by decide +kernel)

theorem change_unrecognised :
    buildQuickChallengeTx constants graph.toBitvmGcGraph receiveScript (.satPerVbyte 1) =
      .ok (withChange, false) ∧
    changeView.txConfirmed (graph.curPrekickoff.tx.computeTxid hash) = true ∧
    changeView.txConfirmed (graph.kickoff.tx.computeTxid hash) = true ∧
    changeView.txConfirmed (withChange.computeTxid hash) = true ∧
    (scanGraphChainState topology changeView goat graph.toBitvmGcGraph).status =
      .operatorKickOff := by
  decide +kernel

def exactView : ChainView hash (graph.quickChallenge.tx :: graph.transactions) :=
  Ledger.ofDistinct graph.transactions (confirmed graph.quickChallenge.tx) [] graph.distinct
    (confirmed_subset (List.Subset.refl _) graph.quickChallenge_mem) (by decide +kernel)

theorem exact_recognised : PunishmentRecognised exactView goat graph graph.quickChallenge.tx :=
  (guardian_punishment_recognised_iff graph constants
    (.inl ⟨rfl, (by decide +kernel : buildQuickChallengeTx constants graph.toBitvmGcGraph
      receiveScript (.satPerVbyte 74) = .ok (graph.quickChallenge.tx, false))⟩)
    exactView goat (by decide +kernel) (by decide +kernel) (by decide +kernel)).mpr
    (by decide +kernel)

end Unrecognised

end BitvmNode.Pegout
