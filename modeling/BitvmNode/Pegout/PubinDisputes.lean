import BitvmNode.Pegout.VerifierAssert

/-!
# Disputes about the public input

The operator builds the transaction that commits to its public input alone, so it chooses at which
input connector E stands.
-/

namespace BitvmNode.Pegout

open Reasoning Bitcoin Setup

def filledTo (f : Nat → Bytes) (n i : Nat) : List Bytes :=
    (List.range i).map f ++ List.replicate (n - i) []

theorem filledTo_zero (f : Nat → Bytes) (n : Nat) : filledTo f n 0 = List.replicate n [] := rfl

theorem filledTo_full (f : Nat → Bytes) (n : Nat) : filledTo f n n = (List.range n).map f := by
  rw [filledTo, Nat.sub_self, List.replicate_zero, List.append_nil]

theorem filledTo_succ_eq_set (f : Nat → Bytes) {n i : Nat} (hi : i < n) :
    filledTo f n (i + 1) = (filledTo f n i).set i (f i) := by
  have hleft : n - i = (n - (i + 1)) + 1 := by omega
  have hlength : ((List.range i).map f).length ≤ i := by simp
  unfold filledTo
  rw [hleft, List.set_append_right _ _ hlength, List.replicate_succ, List.range_succ,
    List.map_append]
  simp

theorem filledTo_succ_of_nil {f : Nat → Bytes} {n i : Nat} (hi : i < n) (hnil : f i = []) :
    filledTo f n (i + 1) = filledTo f n i := by
  have hleft : n - i = (n - (i + 1)) + 1 := by omega
  unfold filledTo
  rw [hleft, List.replicate_succ, List.range_succ, List.map_append, List.map_singleton, hnil,
    List.append_assoc]
  rfl

section Acknowledgements

variable {sha256 : Bytes → Bytes32} {watched : List Transaction} {topology : OutputTopology}
  (library : ConnectorLibrary) (btc : ChainView sha256 watched) (g : WiredGraph sha256 topology)

theorem previousOutput_of_outpointSpentTxin {btc : ChainView sha256 watched} {o : OutPoint}
    {txid : Bytes32} {vin : Nat} {txin : TxIn}
    (h : btc.outpointSpentTxin o = some (txid, vin, txin)) :
    btc.outpointSpentTxid o = some txid ∧ txin.previousOutput = o ∧
      ∃ tx, btc.lookup txid = some tx ∧ tx.input[vin]? = some txin ∧ vin = tx.spends.idxOf o := by
  unfold ChainView.outpointSpentTxin at h
  split at h
  · rename_i tx hspender
    obtain ⟨hknown, hspends⟩ := Ledger.of_spender hspender
    split at h
    · rename_i found hfound
      obtain ⟨input, hinput, heq⟩ := Option.map_eq_some_iff.mp h
      cases heq
      obtain ⟨hfoundKnown, hid⟩ := Ledger.of_lookup hfound
      have hsame : found.spends = tx.spends :=
        Ledger.spends_eq_of_txid (.inl hfoundKnown) (.inl hknown) hid
      refine ⟨?_, ?_, found, hfound, hinput, by rw [hsame]⟩
      · unfold ChainView.outpointSpentTxid Ledger.spentBy
        rw [hspender]
        rfl
      · have hat : found.spends[tx.spends.idxOf o]? = some txin.previousOutput := by
          rw [Transaction.spends, List.getElem?_map, hinput]
          rfl
        have hmem : o ∈ tx.spends := hspends
        rw [hsame, List.getElem?_idxOf hmem] at hat
        exact (Option.some.inj hat).symm
    · cases h
  · cases h

def AckSettled (i : Nat) : Prop :=
  btc.outpointSpentTxid (g.ackConnector sha256 topology i) = none ∨
    ∃ spender, btc.outpointSpentTxid (g.ackConnector sha256 topology i) = some spender ∧
      btc.isConfirmed spender = true ∧
      (timeoutTxid sha256 g.toBitvmGcGraph i = some spender ∨
        ∃ vin txin preimage,
          btc.outpointSpentTxin (g.ackConnector sha256 topology i) = some (spender, vin, txin) ∧
            library.extractOperatorPreimage txin = .ok preimage)

def ackPreimage (i : Nat) : Bytes :=
  match btc.outpointSpentTxin (g.ackConnector sha256 topology i) with
  | none => []
  | some (spender, _, txin) =>
      if timeoutTxid sha256 g.toBitvmGcGraph i = some spender then []
      else ((library.extractOperatorPreimage txin).toOption).getD []

def ackPreimages : List Bytes := (List.range g.watchtowerNum).map (ackPreimage library btc g)

variable {library btc g}

theorem ackPreimage_of_unspent {i : Nat}
    (h : btc.outpointSpentTxid (g.ackConnector sha256 topology i) = none) :
    ackPreimage library btc g i = [] := by
  have hspender : btc.spender (g.ackConnector sha256 topology i) = none := by
    exact Option.map_eq_none_iff.mp h
  unfold ackPreimage ChainView.outpointSpentTxin
  rw [hspender]

theorem ackPreimage_of_timeout {i : Nat} {spender : Bytes32}
    (hspent : btc.outpointSpentTxid (g.ackConnector sha256 topology i) = some spender)
    (htimeout : timeoutTxid sha256 g.toBitvmGcGraph i = some spender) :
    ackPreimage library btc g i = [] := by
  unfold ackPreimage
  split
  · rfl
  · rename_i txid vin txin htxin
    have hsame := (previousOutput_of_outpointSpentTxin htxin).1
    rw [hspent] at hsame
    rw [if_pos (htimeout.trans hsame)]

variable (hlayout : ∀ i < g.watchtowerNum, (topology.ackConnector i).toNat = 2 * i + 1)
  (hsettled : ∀ i < g.watchtowerNum, AckSettled library btc g i)

include hlayout hsettled

theorem collect_place_from (left : Nat) :
    ∀ i, i + left = g.watchtowerNum → ∃ txins,
      collectAckTxins topology btc g.toBitvmGcGraph i (g.watchtowerChallengeTimeouts.drop i) =
        .ok txins ∧
        placeAckPreimages topology library g.toBitvmGcGraph txins
          (filledTo (ackPreimage library btc g) g.watchtowerNum i) =
            .ok (ackPreimages library btc g) := by
  induction left with
  | zero =>
    intro i hi
    have hlast : i = g.watchtowerNum := by omega
    subst hlast
    refine ⟨[], ?_, ?_⟩
    · rw [← g.watchtowerChallengeTimeouts_length, List.drop_length]
      rfl
    · rw [filledTo_full]
      rfl
  | succ left ih =>
    intro i hi
    have hlt : i < g.watchtowerNum := by omega
    obtain ⟨txins, hcollect, hplace⟩ := ih (i + 1) (by omega)
    have hbound : i < g.watchtowerChallengeTimeouts.length := by
      rw [g.watchtowerChallengeTimeouts_length]
      exact hlt
    have hdrop : g.watchtowerChallengeTimeouts.drop i =
        g.watchtowerChallengeTimeouts[i] :: g.watchtowerChallengeTimeouts.drop (i + 1) :=
      List.drop_eq_getElem_cons hbound
    have htimeout : timeoutTxid sha256 g.toBitvmGcGraph i =
        some (g.watchtowerChallengeTimeouts[i].tx.computeTxid sha256) := by
      unfold timeoutTxid
      rw [List.getElem?_eq_getElem hbound]
      rfl
    rw [hdrop]
    unfold collectAckTxins
    rcases hsettled i hlt with hunspent | ⟨spender, hspent, -, hbranch⟩
    · rw [filledTo_succ_of_nil hlt (ackPreimage_of_unspent hunspent)] at hplace
      rw [hunspent]
      exact ⟨txins, hcollect, hplace⟩
    · rw [hspent]
      dsimp only
      by_cases htimedOut : spender = g.watchtowerChallengeTimeouts[i].tx.computeTxid sha256
      · have hnil : ackPreimage library btc g i = [] :=
          ackPreimage_of_timeout hspent (htimedOut ▸ htimeout)
        rw [filledTo_succ_of_nil hlt hnil] at hplace
        rw [if_pos htimedOut]
        exact ⟨txins, hcollect, hplace⟩
      · have hother : ¬ timeoutTxid sha256 g.toBitvmGcGraph i = some spender := by
          rw [htimeout, Option.some.injEq]
          exact Ne.symm htimedOut
        obtain ⟨vin, txin, preimage, htxin, hpreimage⟩ := hbranch.resolve_left hother
        rw [if_neg htimedOut, htxin, hcollect]
        refine ⟨txin :: txins, rfl, ?_⟩
        -- the input spends the connector of this watchtower
        have hvout : txin.previousOutput.vout.toNat = 2 * i + 1 := by
          rw [(previousOutput_of_outpointSpentTxin htxin).2.1]
          exact hlayout i hlt
        have hindex : (2 * i + 1) / 2 = i := by omega
        have hplaced : ackPreimage library btc g i = preimage := by
          unfold ackPreimage
          rw [htxin]
          dsimp only
          rw [if_neg hother, hpreimage]
          rfl
        dsimp only [placeAckPreimages]
        rw [hvout, hindex, if_neg (by omega), if_neg (by rw [hlayout i hlt]; omega), hpreimage]
        dsimp only
        rw [← hplaced, ← filledTo_succ_eq_set _ hlt]
        exact hplace

end Acknowledgements

section Dispute

variable {sha256 : Bytes → Bytes32} {watched : List Transaction} {topology : OutputTopology}
  (library : ConnectorLibrary) (btc : ChainView sha256 watched) (g : WiredGraph sha256 topology)
  (gcData : List BitvmGcCircuitData) (host : VerifierHost)

/-- The public input that the operator has committed to, at input `vin` of a transaction of its own,
differs from the one that it asserts, and nothing else has been done about the assertion. -/
structure PubinDispute (assertTx commitTx : Transaction) (vin : Nat) (witnessData : RawWitness) :
    Prop where
  slot : ∃ verifierIndex, findVerifierIndexByPubkey gcData host.localPubkey =
    .ok (some verifierIndex) ∧
    btc.outpointSpentTxid (g.verifierConnector sha256 topology verifierIndex) = none
  slots : gcData.length = g.verifierNum
  asserted : btc.lookup (g.operatorAssert.tx.computeTxid sha256) = some assertTx
  assertConfirmed : btc.isConfirmed (g.operatorAssert.tx.computeTxid sha256) = true
  connectorD : btc.outpointSpentTxid (g.connectorD sha256 topology) = none
  commitConfirmed : btc.isConfirmed (commitTx.computeTxid sha256) = true
  commitLookup : btc.lookup (commitTx.computeTxid sha256) = some commitTx
  notTimeout : commitTx.computeTxid sha256 ≠ g.operatorCommitTimeout.tx.computeTxid sha256
  acks : ∀ i < g.watchtowerNum, AckSettled library btc g i
  /-- The input on connector E is read by its leaf, and no other input of the transaction is. -/
  otherInputs : ∀ txin ∈ commitTx.input, txin.previousOutput ≠ g.connectorE sha256 topology →
    ∃ error, library.extractCommitPubin g.toBitvmGcGraph txin = .error error
  mismatch : ∃ commitTxin commitWitness assertTxin assertion assertWitness pi2 pi3 leaf,
    btc.outpointSpentTxin (g.connectorE sha256 topology) =
      some (commitTx.computeTxid sha256, vin, commitTxin) ∧
    library.extractCommitPubin g.toBitvmGcGraph commitTxin = .ok commitWitness ∧
    assertTx.input.head? = some assertTxin ∧
    library.extractAssertion g.toBitvmGcGraph assertTxin = .ok assertion ∧
    splitOperatorAssertWotsAndExtraData library.scripts assertion = .ok (assertWitness, pi2, pi3) ∧
    library.validatePubin commitWitness assertWitness (ackPreimages library btc g)
      (library.pubinDisproveLeaf g.toBitvmGcGraph) = some (witnessData, leaf)

variable {library btc g gcData host} {assertTx commitTx : Transaction} {vin : Nat}
  {witnessData : RawWitness}

theorem findVerifierIndexByPubkey_lt {verifierPubkey : String} {verifierIndex : Nat}
    (h : findVerifierIndexByPubkey gcData verifierPubkey = .ok (some verifierIndex)) :
    verifierIndex < gcData.length := by
  unfold findVerifierIndexByPubkey at h
  split at h
  · cases h
  · rename_i index hfilter
    cases h
    have hmem : verifierIndex ∈ [verifierIndex] := List.mem_singleton_self _
    rw [← hfilter] at hmem
    exact List.mem_range.mp (List.mem_filter.mp hmem).1
  · cases h

theorem validateVerifierSlot_ok {verifierIndex : Nat} (hslots : gcData.length = g.verifierNum)
    (hlt : verifierIndex < gcData.length) :
    validateVerifierSlot g.toBitvmGcGraph gcData verifierIndex = .ok () := by
  have hdisproves : g.disproves.length = g.verifierNum := by
    have h := congrArg List.length g.disproves_spends
    rwa [List.length_map, List.length_map] at h
  have hverifiers : g.verifierAsserts.length = g.verifierNum := rfl
  unfold validateVerifierSlot
  rw [if_neg (by omega), if_neg (by omega), if_neg (by omega)]

section

variable (h : PubinDispute library btc g gcData host assertTx commitTx vin witnessData)

include h

theorem PubinDispute.first_input :
    ∃ first, commitTx.input.head? = some first ∧
      (vin = 0 → btc.outpointSpentTxin (g.connectorE sha256 topology) =
        some (commitTx.computeTxid sha256, 0, first)) ∧
      (vin ≠ 0 → first.previousOutput ≠ g.connectorE sha256 topology) := by
  obtain ⟨commitTxin, -, -, -, -, -, -, -, hspent, -⟩ := h.mismatch
  obtain ⟨-, -, found, hlookup, hinput, hvin⟩ := previousOutput_of_outpointSpentTxin hspent
  have hfound : commitTx = found := Option.some.inj (h.commitLookup.symm.trans hlookup)
  subst hfound
  cases hcommit : commitTx.input with
  | nil =>
    rw [hcommit] at hinput
    simp at hinput
  | cons first rest =>
    refine ⟨first, rfl, ?_, ?_⟩
    · intro hzero
      rw [hzero, hcommit, List.getElem?_cons_zero] at hinput
      rw [hspent, hzero, Option.some.inj hinput]
    · intro hpos heq
      have hidx : commitTx.spends.idxOf (g.connectorE sha256 topology) = 0 := by
        rw [Transaction.spends, hcommit, List.map_cons, heq, List.idxOf_cons_self]
      exact hpos (hvin.trans hidx)

variable (hlayout : ∀ i < g.watchtowerNum, (topology.ackConnector i).toNat = 2 * i + 1)

include hlayout

/-- The comparison disproves what stands at the first input, and otherwise leaves it to the
challenge. -/
theorem PubinDispute.checkPubin_eq :
    checkPubin topology library btc g.toBitvmGcGraph gcData host assertTx =
      if vin = 0 then .stop
        (pubinDisproveStep sha256 topology library g.toBitvmGcGraph gcData host witnessData)
      else .proceed false := by
  obtain ⟨first, hfirst, hatZero, hlater⟩ := h.first_input
  obtain ⟨commitTxin, commitWitness, assertTxin, assertion, assertWitness, pi2, pi3, leaf, hspent,
    hcommit, hassert, hassertion, hsplit, hvalidate⟩ := h.mismatch
  obtain ⟨txins, hcollect, hplace⟩ :=
    collect_place_from hlayout h.acks g.watchtowerNum 0 (Nat.zero_add _)
  rw [List.drop_zero] at hcollect
  rw [filledTo_zero] at hplace
  have hconfirmed : btc.txConfirmed (commitTx.computeTxid sha256) = true := h.commitConfirmed
  unfold checkPubin
  rw [(previousOutput_of_outpointSpentTxin hspent).1]
  dsimp only
  rw [if_neg h.notTimeout, if_neg (by rw [hconfirmed]; decide), h.commitLookup]
  dsimp only
  rw [hassert, hfirst]
  rw [hcollect]
  dsimp only
  unfold validatePubinDisprove
  rw [hplace]
  dsimp only
  by_cases hzero : vin = 0
  · have hsame : first = commitTxin := by
      have hboth := (hatZero hzero).symm.trans hspent
      exact congrArg (fun found => found.2.2) (Option.some.inj hboth)
    rw [if_pos hzero, hsame, hcommit]
    dsimp only
    rw [hassertion]
    dsimp only
    rw [hsplit]
    dsimp only
    rw [hvalidate]
  · obtain ⟨error, herror⟩ := h.otherInputs first (List.mem_of_mem_head? hfirst) (hlater hzero)
    rw [if_neg hzero, herror]

theorem PubinDispute.verifierAssert_eq :
    verifierAssert topology library btc g.toBitvmGcGraph gcData host
      (g.operatorAssert.tx.computeTxid sha256) =
      if vin = 0 then pubinDisproveStep sha256 topology library g.toBitvmGcGraph gcData
        host witnessData
      else challengeAssert library btc g.toBitvmGcGraph gcData host assertTx false := by
  obtain ⟨verifierIndex, hindex, hverifier⟩ := h.slot
  have hslot := validateVerifierSlot_ok h.slots (findVerifierIndexByPubkey_lt hindex)
  have hconnectorD : settledBy (spendOf btc ⟨g.operatorAssert.tx.computeTxid sha256,
      topology.connectorD gcData.length⟩) "assert connector-D" = none := by
    rw [h.slots]
    exact (settledBy_eq_none_iff _ _).mpr ((spendOf_eq_unspent_iff btc _).mpr h.connectorD)
  have hconnector : settledBy (spendOf btc ⟨g.operatorAssert.tx.computeTxid sha256,
      topology.verifierConnector verifierIndex⟩) "verifier connector" = none :=
    (settledBy_eq_none_iff _ _).mpr ((spendOf_eq_unspent_iff btc _).mpr hverifier)
  unfold verifierAssert
  rw [h.asserted]
  rw [hindex]
  dsimp only
  rw [hslot]
  rw [hconnectorD]
  rw [hconnector, h.checkPubin_eq hlayout]
  by_cases hzero : vin = 0
  · rw [if_pos hzero, if_pos hzero]
  · rw [if_neg hzero, if_neg hzero]

end

variable (sha256) in
def Disproves (run : StepRun) : Prop :=
  ∃ tx, run = .broadcastPending [tx] ("Pubin-Disprove " ++ displayTxid (tx.computeTxid sha256))

theorem Disproves.not_ended {run : StepRun} (h : Disproves sha256 run) : ¬ run.Ended := by
  obtain ⟨tx, rfl⟩ := h
  exact StepRun.not_ended_broadcastPending _ _

theorem not_disproves_challengeAssert (pubinConsistent : Bool) :
    ¬ Disproves sha256 (challengeAssert library btc g.toBitvmGcGraph gcData host assertTx
      pubinConsistent) := by
  rintro ⟨tx, hrun⟩
  have hnote : ∀ txs, StepRun.broadcastPending txs "ChallengeAssert" ≠
      .broadcastPending [tx] ("Pubin-Disprove " ++ displayTxid (tx.computeTxid sha256)) := by
    intro txs heq
    -- the notes differ in their first character
    have hreason := (StepOutcome.retry.inj (congrArg StepRun.outcome heq)).1
    have hchars := congrArg (fun note => note.toList.head?) hreason
    simp [String.toList_append] at hchars
  unfold challengeAssert at hrun
  split at hrun
  · cases hrun
  split at hrun
  · cases hrun
  · cases hrun
  split at hrun
  · cases hrun
  split at hrun
  · cases hrun
  · cases hrun
  · exact hnote _ hrun

/-- For every graph and chain with a dispute about the public input, the job broadcasts the disproof
exactly if connector E stands at the first input of the transaction that commits to it.  Otherwise
it goes on to the challenge of the proof. -/
theorem pubin_mismatch_disproved_iff
    (h : PubinDispute library btc g gcData host assertTx commitTx vin witnessData)
    (hlayout : ∀ i < g.watchtowerNum, (topology.ackConnector i).toNat = 2 * i + 1)
    (hcalls : Disproves sha256
      (pubinDisproveStep sha256 topology library g.toBitvmGcGraph gcData host witnessData)) :
    let run := verifierAssert topology library btc g.toBitvmGcGraph gcData host
      (g.operatorAssert.tx.computeTxid sha256)
    ((Disproves sha256 run ∧ ¬ run.Ended) ↔ vin = 0) ∧
      (vin ≠ 0 → run = challengeAssert library btc g.toBitvmGcGraph gcData host assertTx
        false) := by
  intro run
  have hrun : run = if vin = 0 then _ else _ := h.verifierAssert_eq hlayout
  by_cases hzero : vin = 0
  · rw [if_pos hzero] at hrun
    rw [hrun]
    exact ⟨iff_of_true ⟨hcalls, hcalls.not_ended⟩ hzero, fun hpos => absurd hzero hpos⟩
  · rw [if_neg hzero] at hrun
    rw [hrun]
    exact ⟨iff_of_false (fun hdisproves => not_disproves_challengeAssert false hdisproves.1) hzero,
      fun _ => rfl⟩

end Dispute

namespace SecondCommit

open Smallest

def connectorE : OutPoint := ⟨txid Smallest.watchtowerChallengeInit, 2⟩

def first : Transaction := (spending [connectorE] [⟨5000, []⟩]).tx

def second : Transaction := (spending [⟨zero32, 9⟩, connectorE] [⟨5000, []⟩]).tx

def named : List Transaction := first :: second :: graph.transactions

theorem named_distinct : (named.map (Transaction.computeTxid hash)).Nodup :=
  List.nodup_cons.mpr ⟨by decide +kernel, List.nodup_cons.mpr ⟨by decide +kernel, graph.distinct⟩⟩

def before : List Transaction :=
  [graph.curPrekickoff.tx, graph.kickoff.tx, graph.challenge.tx, graph.watchtowerChallengeInit.tx,
    graph.operatorAssert.tx]

def firstView : ChainView hash graph.transactions :=
  Ledger.ofDistinct named (before ++ [first]) [] named_distinct (by decide +kernel)
    (by decide +kernel)

def secondView : ChainView hash graph.transactions :=
  Ledger.ofDistinct named (before ++ [second]) [] named_distinct (by decide +kernel)
    (by decide +kernel)

def library : ConnectorLibrary where
  scripts := ⟨256, 1, 1, by decide⟩
  extractAssertion _ _ := .ok [List.replicate 20 0, [1], [], []]
  extractCommitPubin _ txin := if txin.previousOutput = connectorE then .ok []
    else .error "another leaf"
  extractOperatorPreimage _ := .error "no acknowledgement"
  recoverPi2Pi3 _ _ := false
  rawWitnessToSignature items := items
  verifierLeaf _ _ := .ok ([], [])
  validatePubin _ _ _ _ := some ([[7]], [])
  pubinDisproveLeaf _ := []
  pubinDisprove g witness := .ok ⟨⟨txid g.operatorAssert, 1⟩, [], 0xFFFFFFFF, witness⟩
  p2aOutput := ⟨0, []⟩
  generateOpreturnScript data := data

def gcData : List BitvmGcCircuitData := [⟨"verifier", [], []⟩]

def host : VerifierHost where
  localPubkey := "verifier"
  statement := .ok fun _ => true
  state := some ⟨"verifier", "operator", [], ⟨[]⟩, ⟨[], []⟩, [], some ⟨0, 1, 0, [], 0⟩⟩
  challengeLabels _ _ _ := .ok [List.replicate 16 0]
  buildSignAndBroadcast txin _ outputs := .ok ⟨2, 0, [txin], outputs⟩
  withCpfp tx := .ok [tx]

def job (btc : ChainView hash graph.transactions) (host : VerifierHost) : StepRun :=
  verifierAssert topology library btc graph.toBitvmGcGraph gcData host
    (graph.operatorAssert.tx.computeTxid hash)

def commitTxin : TxIn := ⟨connectorE, [], 0xFFFFFFFF, []⟩

theorem dispute_of {btc : ChainView hash graph.transactions} {commitTx : Transaction} {vin : Nat}
    (hspends : btc.outpointSpentTxid (graph.verifierConnector hash topology 0) = none ∧
      btc.outpointSpentTxid (graph.connectorD hash topology) = none ∧
      btc.outpointSpentTxid (graph.ackConnector hash topology 0) = none ∧
      btc.outpointSpentTxin (graph.connectorE hash topology) =
        some (commitTx.computeTxid hash, vin, commitTxin))
    (hassert : btc.lookup (graph.operatorAssert.tx.computeTxid hash) =
      some graph.operatorAssert.tx ∧
      btc.isConfirmed (graph.operatorAssert.tx.computeTxid hash) = true)
    (hcommit : btc.lookup (commitTx.computeTxid hash) = some commitTx ∧
      btc.isConfirmed (commitTx.computeTxid hash) = true ∧
      commitTx.computeTxid hash ≠ graph.operatorCommitTimeout.tx.computeTxid hash) :
    PubinDispute library btc graph gcData host graph.operatorAssert.tx commitTx vin [[7]] where
  slot := ⟨0, by decide, hspends.1⟩
  slots := by decide +kernel
  asserted := hassert.1
  assertConfirmed := hassert.2
  connectorD := hspends.2.1
  commitConfirmed := hcommit.2.1
  commitLookup := hcommit.1
  notTimeout := hcommit.2.2
  acks := by
    -- one watchtower, which has not challenged
    intro i hi
    have hzero : i = 0 := Nat.lt_one_iff.mp hi
    subst hzero
    exact .inl hspends.2.2.1
  otherInputs := fun _ _ hother => ⟨"another leaf", if_neg hother⟩
  mismatch := ⟨commitTxin, [], ⟨⟨txid kickoff, 2⟩, [], 0xFFFFFFFF, []⟩, _, _, _, _, [],
    hspends.2.2.2, by decide +kernel, by decide +kernel, rfl, rfl, rfl⟩

theorem first_dispute :
    PubinDispute library firstView graph gcData host graph.operatorAssert.tx first 0 [[7]] :=
  dispute_of (by decide +kernel) (by decide +kernel) (by decide +kernel)

theorem second_dispute :
    PubinDispute library secondView graph gcData host graph.operatorAssert.tx second 1 [[7]] :=
  dispute_of (by decide +kernel) (by decide +kernel) (by decide +kernel)

end SecondCommit

open SecondCommit

/-- The same mismatch, committed at the second input, is not disproved: a verifier that can
challenges the proof, and one without its setup gives up. -/
theorem second_input_not_disproved :
    PubinDispute library secondView Smallest.graph gcData host
        Smallest.graph.operatorAssert.tx second 1 [[7]] ∧
      (job secondView host).broadcast.map Transaction.spends =
        [[Smallest.graph.verifierConnector Smallest.hash Smallest.topology 0]] ∧
      (job secondView { host with state := none }).Ended := by
  refine ⟨second_dispute, ?_⟩
  decide +kernel

theorem pubin_mismatch_disproved_first :
    Disproves Smallest.hash (job firstView host) := by
  have hlayout : ∀ i < Smallest.graph.watchtowerNum, (Smallest.topology.ackConnector i).toNat =
    2 * i + 1 := by
    decide +kernel
  have h := pubin_mismatch_disproved_iff first_dispute hlayout ⟨_, rfl⟩
  exact (h.1.mpr rfl).1

end BitvmNode.Pegout
