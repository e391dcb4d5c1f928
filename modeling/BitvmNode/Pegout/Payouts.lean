import BitvmNode.Pegout.Stages

/-!
# Payouts

A scan reports Take-1 exactly when it is confirmed.  Take-2 is reported only if connector A is spent
too: without a Challenge the scan stops at the Kickoff.  All payouts of one peg-in spend its
connector, so that of its graphs only one is ever reported as paid.
-/

namespace BitvmNode.Pegout

open Reasoning Bitcoin Graphs

namespace StageFacts

variable {f : StageFacts}

theorem connectorA_of_take1 (h : f.stage = .operatorTake1) : f.connectorA = some true := by
  unfold stage kickedOff challenged setup at h
  grind

theorem take2_of_stage (h : f.stage = .operatorTake2) :
    f.connectorA = some false ∧ f.take2 = true := by
  unfold stage kickedOff challenged setup at h
  grind

end StageFacts

variable {sha256 : Bytes → Bytes32} {topology : OutputTopology}

namespace ChainState

variable {g : WiredGraph sha256 topology} (c : ChainState g)

theorem stage_of_kickoff_spent {o : OutPoint} {txid : Bytes32}
    (hspent : c.btc.confirmedSpender o = some txid)
    (howner : o.txid = g.kickoff.tx.computeTxid sha256) : c.facts.stage = c.facts.kickedOff := by
  have hmem : g.kickoffConnector sha256 topology ∈ g.kickoff.tx.spends := by simp [g.kickoff_spends]
  have hkickoff : c.btc.isConfirmed (g.kickoff.tx.computeTxid sha256) = true :=
    c.parents.of_spent hspent g.kickoff_mem howner
  have hconnector := Ledger.confirmedSpender_of_watched g.kickoff_mem hkickoff hmem
  have hprekickoff : c.facts.prekickoff = true :=
    c.parents.of_spent hconnector g.curPrekickoff_mem rfl
  have hfact : c.facts.kickoff = some true :=
    Option.map_eq_some_iff.mpr ⟨_, hconnector, decide_eq_true rfl⟩
  simp only [StageFacts.stage, hprekickoff, hfact, if_true]

theorem take1_reported_iff : c.scan.status = .operatorTake1 ↔
    c.btc.isConfirmed (g.take1.tx.computeTxid sha256) = true := by
  have hmem : g.connectorA sha256 topology ∈ g.take1.tx.spends := by simp [g.take1_spends]
  rw [scan_status]
  constructor
  · intro hstage
    obtain ⟨txid, hspent, heq⟩ := Option.map_eq_some_iff.mp (StageFacts.connectorA_of_take1 hstage)
    rw [decide_eq_true_eq] at heq
    exact heq ▸ Ledger.isConfirmed_of_confirmedSpender hspent
  · intro hconfirmed
    have hspent := Ledger.confirmedSpender_of_watched g.take1_mem hconfirmed hmem
    have hfact : c.facts.connectorA = some true :=
      Option.map_eq_some_iff.mpr ⟨_, hspent, decide_eq_true rfl⟩
    rw [c.stage_of_kickoff_spent hspent rfl]
    simp only [StageFacts.kickedOff, c.facts_consistent.take1_guardian hfact, hfact,
      Bool.false_eq_true, if_false]

theorem take2_reported_iff : c.scan.status = .operatorTake2 ↔
    c.btc.isConfirmed (g.take2.tx.computeTxid sha256) = true ∧
      (c.btc.confirmedSpender (g.connectorA sha256 topology)).isSome = true := by
  rw [scan_status]
  constructor
  · intro hstage
    obtain ⟨hconnector, htake2⟩ := StageFacts.take2_of_stage hstage
    obtain ⟨txid, hspent, -⟩ := Option.map_eq_some_iff.mp hconnector
    exact ⟨htake2, by rw [hspent, Option.isSome_some]⟩
  · rintro ⟨hconfirmed, hsome⟩
    obtain ⟨txid, hspent⟩ := Option.isSome_iff_exists.mp hsome
    -- both Takes spend the connector of the peg-in, so connector A was spent by a Challenge
    have hne : txid ≠ g.take1.tx.computeTxid sha256 := by
      rintro rfl
      refine c.not_confirmed_of_shared (o := g.connectorZero sha256) g.take1_mem g.take2_mem
        (Ledger.isConfirmed_of_confirmedSpender hspent) ?_ ?_ ?_ hconfirmed
      · simp [g.take1_spends]
      · simp [g.take2_spends]
      · simp [g.take1_spends, g.take2_spends]
    have hfact : c.facts.connectorA = some false :=
      Option.map_eq_some_iff.mpr ⟨txid, hspent, decide_eq_false hne⟩
    have htake2 : c.facts.take2 = true := hconfirmed
    have hc := c.facts_consistent
    rw [c.stage_of_kickoff_spent hspent rfl]
    simp only [StageFacts.kickedOff, StageFacts.challenged, hfact, htake2, hc.take2_guardian htake2,
      hc.take2_flow htake2, hc.take2_disproved htake2, hc.take2_init htake2, hc.take2_assert htake2,
      Bool.false_eq_true, Bool.and_self, if_false, if_true]

/-- What is reported as paid: the payout is confirmed and spends the peg-in. -/
theorem exists_payout (h : c.scan.status = .operatorTake1 ∨ c.scan.status = .operatorTake2) :
    ∃ take ∈ [g.take1, g.take2], ∃ tx ∈ c.btc.confirmed, tx.computeTxid sha256 =
      take.tx.computeTxid sha256 ∧
      g.connectorZero sha256 ∈ tx.spends := by
  have hspent {take : PreSigned} (hmem : take.tx ∈ g.transactions)
      (hconfirmed : c.btc.isConfirmed (take.tx.computeTxid sha256) = true)
      (ho : g.connectorZero sha256 ∈ take.tx.spends) : ∃ tx ∈ c.btc.confirmed,
        tx.computeTxid sha256 = take.tx.computeTxid sha256 ∧ g.connectorZero sha256 ∈ tx.spends :=
    Ledger.confirmedSpender_eq_some_iff.mp (Ledger.confirmedSpender_of_watched hmem hconfirmed ho)
  rcases h with h | h
  · exact ⟨g.take1, by simp,
      hspent g.take1_mem (c.take1_reported_iff.mp h) (by simp [g.take1_spends])⟩
  · exact ⟨g.take2, by simp,
      hspent g.take2_mem (c.take2_reported_iff.mp h).1 (by simp [g.take2_spends])⟩

end ChainState

/-- Scans of two graphs of one peg-in, the second on the same or a longer chain: if both report a
payout, one confirmed transaction is the payout of both. -/
theorem payouts_exclusive {g g' : WiredGraph sha256 topology}
    (hpegin : g.pegin.tx.computeTxid sha256 = g'.pegin.tx.computeTxid sha256) {c : ChainState g}
    {c' : ChainState g'} (hgrows : c.btc.confirmed ⊆ c'.btc.confirmed)
    (hpaid : c.scan.status = .operatorTake1 ∨ c.scan.status = .operatorTake2)
    (hpaid' : c'.scan.status = .operatorTake1 ∨ c'.scan.status = .operatorTake2) :
    ∃ tx ∈ c.btc.confirmed, (∃ take ∈ [g.take1, g.take2], tx.computeTxid sha256 =
        take.tx.computeTxid sha256) ∧
      ∃ take' ∈ [g'.take1, g'.take2], tx.computeTxid sha256 = take'.tx.computeTxid sha256 := by
  obtain ⟨take, htake, tx, htx, hid, hspends⟩ := c.exists_payout hpaid
  obtain ⟨take', htake', tx', htx', hid', hspends'⟩ := c'.exists_payout hpaid'
  have hsame : g.connectorZero sha256 = g'.connectorZero sha256 := by
    rw [BitvmGcGraph.connectorZero, BitvmGcGraph.connectorZero, hpegin]
  have honce := c'.btc.spentOnce tx (hgrows htx) tx' htx' _ hspends (hsame ▸ hspends')
  exact ⟨tx, htx, ⟨take, htake, hid⟩, take', htake', honce.trans hid'⟩

/-- Payouts are reported as they are confirmed, and a report is final: scans of a longer chain
repeat it. -/
theorem payout_reports_final {g : WiredGraph sha256 topology} {c c' : ChainState g}
    (h : c.Extends c') :
    (c.scan.status = .operatorTake1 ↔ c.btc.isConfirmed (g.take1.tx.computeTxid sha256) = true) ∧
      (c.scan.status = .operatorTake2 ↔ c.btc.isConfirmed (g.take2.tx.computeTxid sha256) = true ∧
        (c.btc.confirmedSpender (g.connectorA sha256 topology)).isSome = true) ∧
      (c.scan.status = .operatorTake1 ∨ c.scan.status = .operatorTake2 →
        c'.scan.status = c.scan.status) := by
  refine ⟨c.take1_reported_iff, c.take2_reported_iff, ?_⟩
  rintro (hpaid | hpaid)
  · rw [hpaid, ChainState.take1_reported_iff]
    exact h.btc.isConfirmed (c.take1_reported_iff.mp hpaid)
  · obtain ⟨hconfirmed, hsome⟩ := c.take2_reported_iff.mp hpaid
    obtain ⟨txid, hspent⟩ := Option.isSome_iff_exists.mp hsome
    rw [hpaid, ChainState.take2_reported_iff, h.btc.confirmedSpender hspent]
    exact ⟨h.btc.isConfirmed hconfirmed, rfl⟩

namespace PaidGraph

open Smallest

def confirmed : List Transaction :=
    [graph.pegin.tx, graph.curPrekickoff.tx, graph.kickoff.tx, graph.take1.tx]

theorem confirmed_subset : confirmed ⊆ graph.transactions := by
  decide +kernel

theorem parentsConfirmed :
    ∀ t ∈ confirmed, ∀ o ∈ t.spends, ∀ u ∈ graph.transactions, o.txid = u.computeTxid hash →
      confirmed.any (fun v => v.computeTxid hash = u.computeTxid hash) = true := by
  decide +kernel

def state : ChainState graph where
  btc := Ledger.ofDistinct graph.transactions confirmed [] graph.distinct
    (by rw [List.append_nil]; exact List.append_subset.mpr ⟨confirmed_subset, List.Subset.refl _⟩)
      (by decide +kernel)
  goat := ⟨fun _ => zero32, fun _ => .none⟩
  parents := parentsConfirmed

theorem paid_once : ∃ tx ∈ confirmed,
    (∃ take ∈ [graph.take1, graph.take2], tx.computeTxid hash = take.tx.computeTxid hash) ∧
      ∃ take' ∈ [graph.take1, graph.take2], tx.computeTxid hash = take'.tx.computeTxid hash :=
  payouts_exclusive rfl (List.Subset.refl state.btc.confirmed) (.inl (by decide +kernel))
    (.inl (by decide +kernel))

theorem paid_for_good : state.scan.status = .operatorTake1 := by
  have hself : state.Extends state := ⟨⟨List.Subset.refl _⟩, id⟩
  exact (payout_reports_final hself).1.mpr (by decide +kernel)

end PaidGraph

end BitvmNode.Pegout
