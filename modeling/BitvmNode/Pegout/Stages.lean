import BitvmNode.Pegout.ChainState

/-!
# The stage of a graph on a growing chain

What a scan decides depends on eleven facts.
-/

namespace BitvmNode.Pegout

open Reasoning Bitcoin Signing Graphs

/-- The facts a stage depends on.  A connector is unspent (`none`) or spent by a confirmed
transaction, which is the Kickoff (Take-1) or another one. -/
structure StageFacts where
  (posted committeePreSigned prekickoff : Bool)
  kickoff : Option Bool
  guardian : Bool
  connectorA : Option Bool
  (flow initVisible assertVisible disproved : Bool)
  take2 : Bool

namespace StageFacts

def setup (f : StageFacts) : GraphStatus :=
  if f.posted then .operatorDataPushed
  else if f.committeePreSigned then .committeePresigned
  else .operatorPresigned

def challenged (f : StageFacts) : GraphStatus :=
  if f.flow then .disprove
  else if f.initVisible && f.assertVisible then
    if f.disproved then .disprove else if f.take2 then .operatorTake2 else .challenge
  else .challenge

def kickedOff (f : StageFacts) : GraphStatus :=
  if f.guardian then .disprove
  else
    match f.connectorA with
    | none => .operatorKickOff
    | some true => .operatorTake1
    | some false => f.challenged

def stage (f : StageFacts) : GraphStatus :=
  if f.prekickoff then
    match f.kickoff with
    | none => .preKickoff
    | some false => .skipped
    | some true => f.kickedOff
  else f.setup

/-- What transactions on shared connectors exclude, and what their parents imply. -/
structure Consistent (f : StageFacts) : Prop where
  take1_guardian : f.connectorA = some true → f.guardian = false
  take2_guardian : f.take2 = true → f.guardian = false
  take2_flow : f.take2 = true → f.flow = false
  take2_disproved : f.take2 = true → f.disproved = false
  take2_init : f.take2 = true → f.initVisible = true
  take2_assert : f.take2 = true → f.assertVisible = true
  disproved_assert : f.disproved = true → f.assertVisible = true

/-- What stays true on a growing chain.  The two visible transactions are missing. -/
structure Grows (f f' : StageFacts) : Prop where
  posted : f.posted = true → f'.posted = true
  committeePreSigned : f'.committeePreSigned = f.committeePreSigned
  prekickoff : f.prekickoff = true → f'.prekickoff = true
  kickoff : ∀ b, f.kickoff = some b → f'.kickoff = some b
  guardian : f.guardian = true → f'.guardian = true
  connectorA : ∀ b, f.connectorA = some b → f'.connectorA = some b
  flow : f.flow = true → f'.flow = true
  disproved : f.disproved = true → f'.disproved = true
  take2 : f.take2 = true → f'.take2 = true

/-- A disprove was seen while Watchtower-Challenge-Init was visible; now that transaction is gone
and no punishment is confirmed that is recognised without it. -/
structure Forgotten (f f' : StageFacts) : Prop where
  seen : f.stage = .disprove
  guardian : f'.guardian = false
  flow : f'.flow = false
  initVisible : f'.initVisible = false

end StageFacts

/-- A later stage follows an earlier one: it is the same or an allowed successor, and the same if
the earlier one is closed. -/
structure Follows (earlier later : GraphStatus) : Prop where
  reached : later = earlier ∨ earlier ∈ later.allowedTransitionFrom .chainReconcile
  closed : earlier.isClosed = true → later = earlier

instance (earlier later : GraphStatus) : Decidable (Follows earlier later) :=
  decidable_of_iff
    ((later = earlier ∨ earlier ∈ later.allowedTransitionFrom .chainReconcile) ∧
      (earlier.isClosed = true → later = earlier))
    ⟨fun h => ⟨h.1, h.2⟩, fun h => ⟨h.reached, h.closed⟩⟩

theorem Follows.refl (status : GraphStatus) : Follows status status := ⟨.inl rfl, fun _ => rfl⟩

namespace StageFacts

variable {f f' : StageFacts}

theorem setup_cases (f : StageFacts) :
    f.setup = .operatorDataPushed ∨ f.setup = .committeePresigned ∨
    f.setup = .operatorPresigned := by
  unfold setup
  split
  · exact .inl rfl
  · split
    · exact .inr (.inl rfl)
    · exact .inr (.inr rfl)

theorem challenged_cases (f : StageFacts) :
    f.challenged = .disprove ∨ f.challenged = .operatorTake2 ∨ f.challenged = .challenge := by
  unfold challenged
  repeat' split
  all_goals simp

theorem take2_of_challenged (h : f.challenged = .operatorTake2) : f.take2 = true := by
  by_contra hnot
  rw [Bool.not_eq_true] at hnot
  unfold challenged at h
  revert h
  repeat' split
  all_goals simp_all

theorem flow_or_disproved_of_challenged (h : f.challenged = .disprove) :
    f.flow = true ∨ f.disproved = true := by
  by_contra hnot
  rw [not_or, Bool.not_eq_true, Bool.not_eq_true] at hnot
  unfold challenged at h
  revert h
  repeat' split
  all_goals simp_all

theorem kickedOff_cases (f : StageFacts) :
    f.kickedOff ∈ [.disprove, .operatorKickOff, .operatorTake1, .operatorTake2, .challenge] := by
  unfold kickedOff
  split
  · simp
  · split
    · simp
    · simp
    · rcases f.challenged_cases with h | h | h <;> simp [h]

def started : List GraphStatus :=
  [.preKickoff, .skipped, .disprove, .operatorKickOff, .operatorTake1, .operatorTake2, .challenge]

theorem stage_mem_started (h : f.prekickoff = true) : f.stage ∈ started := by
  simp only [stage, h, if_true]
  split
  · simp [started]
  · simp [started]
  · exact List.mem_cons_of_mem _ (List.mem_cons_of_mem _ f.kickedOff_cases)

theorem follows_setup (h : Grows f f') (hbefore : f.prekickoff = false) :
    Follows f.stage f'.stage := by
  have hstage : f.stage = f.setup := by simp [stage, hbefore]
  rw [hstage]
  by_cases hafter : f'.prekickoff = true
  · -- every stage from the Pre-Kickoff on may follow the set-up
    have hlater := stage_mem_started hafter
    generalize f'.stage = later at hlater
    rcases f.setup_cases with h | h | h <;> rw [h] <;> revert later <;> decide
  · have hstage' : f'.stage = f'.setup := by simp [stage, hafter]
    rw [hstage']
    unfold setup
    rw [h.committeePreSigned]
    by_cases hposted : f.posted = true
    · simp only [hposted, h.posted hposted, if_true]
      exact .refl _
    · by_cases hposted' : f'.posted = true <;> by_cases hsigned : f.committeePreSigned = true <;>
        simp only [hposted, hposted', hsigned, if_true, Bool.false_eq_true, if_false] <;> decide

theorem follows_challenged (h : Grows f f') (hc : Consistent f') :
    Follows f.challenged f'.challenged ∨
      (f.challenged = .disprove ∧ f'.flow = false ∧ f'.initVisible = false) := by
  rcases f.challenged_cases with hstage | hstage | hstage
  · -- a disprove by the flow stays; one by connector D needs both transactions to be visible
    by_cases hflow : f'.flow = true
    · left
      have hlater : f'.challenged = .disprove := by simp [challenged, hflow]
      rw [hstage, hlater]
      exact .refl _
    · by_cases hinit : f'.initVisible = true
      · left
        have hbefore : f.disproved = true :=
          (flow_or_disproved_of_challenged hstage).resolve_left fun hf => hflow (h.flow hf)
        have hdisproved := h.disproved hbefore
        have hlater : f'.challenged = .disprove := by
          simp [challenged, hflow, hinit, hc.disproved_assert hdisproved, hdisproved]
        rw [hstage, hlater]
        exact .refl _
      · exact .inr ⟨hstage, by simpa using hflow, by simpa using hinit⟩
  · left
    have hlater : f'.challenged = .operatorTake2 := by
      have ht := h.take2 (take2_of_challenged hstage)
      simp [challenged, hc.take2_flow ht, hc.take2_init ht, hc.take2_assert ht,
        hc.take2_disproved ht, ht]
    rw [hstage, hlater]
    exact .refl _
  · left
    rw [hstage]
    rcases f'.challenged_cases with h' | h' | h' <;> rw [h'] <;> decide

theorem follows_kickedOff (h : Grows f f') (hc : Consistent f') : Follows f.kickedOff f'.kickedOff ∨
      (f.kickedOff = .disprove ∧ f'.guardian = false ∧ f'.flow = false ∧
        f'.initVisible = false) := by
  by_cases hguardian' : f'.guardian = true
  · -- a guardian punishment excludes both Takes
    left
    have hlater : f'.kickedOff = .disprove := by simp [kickedOff, hguardian']
    have hearlier : f.kickedOff ∈ [.disprove, .operatorKickOff, .challenge] := by
      unfold kickedOff
      split
      · simp
      · split
        · simp
        · rename_i htake1
          have hno := hc.take1_guardian (h.connectorA _ htake1)
          cases hguardian'.symm.trans hno
        · rcases f.challenged_cases with hs | hs | hs
          · simp [hs]
          · have hno := hc.take2_guardian (h.take2 (take2_of_challenged hs))
            cases hguardian'.symm.trans hno
          · simp [hs]
    rw [hlater]
    generalize f.kickedOff = earlier at hearlier
    revert earlier
    decide
  · have hno' : f'.guardian = false := by simpa using hguardian'
    have hno : f.guardian ≠ true := fun hg => hguardian' (h.guardian hg)
    cases hA : f.connectorA with
    | none =>
      left
      have hearlier : f.kickedOff = .operatorKickOff := by simp [kickedOff, hno, hA]
      have hlater := f'.kickedOff_cases
      rw [hearlier]
      generalize f'.kickedOff = later at hlater
      revert later
      decide
    | some byTake1 =>
      have hA' := h.connectorA _ hA
      cases byTake1 with
      | true =>
        left
        have hearlier : f.kickedOff = .operatorTake1 := by simp [kickedOff, hno, hA]
        have hlater : f'.kickedOff = .operatorTake1 := by simp [kickedOff, hno', hA']
        rw [hearlier, hlater]
        exact .refl _
      | false =>
        have hearlier : f.kickedOff = f.challenged := by simp [kickedOff, hno, hA]
        have hlater : f'.kickedOff = f'.challenged := by simp [kickedOff, hno', hA']
        rw [hearlier, hlater]
        exact (follows_challenged h hc).imp id fun ⟨hs, hflow, hinit⟩ => ⟨hs, hno', hflow, hinit⟩

theorem stage_ne_obsoleted (f : StageFacts) : f.stage ≠ .obsoleted := by
  intro hstage
  by_cases hprekickoff : f.prekickoff = true
  · have hstarted := stage_mem_started hprekickoff
    rw [hstage] at hstarted
    revert hstarted
    decide
  · have hsetup : f.stage = f.setup := if_neg hprekickoff
    rw [hsetup] at hstage
    rcases f.setup_cases with hs | hs | hs <;> rw [hs] at hstage <;> cases hstage

theorem follows_or_forgotten (h : Grows f f') (hc : Consistent f') :
    Follows f.stage f'.stage ∨ Forgotten f f' := by
  by_cases hprekickoff : f.prekickoff = true
  · have hprekickoff' := h.prekickoff hprekickoff
    cases hkickoff : f.kickoff with
    | none =>
      left
      have hearlier : f.stage = .preKickoff := by simp [stage, hprekickoff, hkickoff]
      have hlater := stage_mem_started hprekickoff'
      rw [hearlier]
      generalize f'.stage = later at hlater
      revert later
      decide
    | some byKickoff =>
      have hkickoff' := h.kickoff _ hkickoff
      cases byKickoff with
      | false =>
        left
        have hearlier : f.stage = .skipped := by simp [stage, hprekickoff, hkickoff]
        have hlater : f'.stage = .skipped := by simp [stage, hprekickoff', hkickoff']
        rw [hearlier, hlater]
        exact .refl _
      | true =>
        have hearlier : f.stage = f.kickedOff := by simp [stage, hprekickoff, hkickoff]
        have hlater : f'.stage = f'.kickedOff := by simp [stage, hprekickoff', hkickoff']
        rcases follows_kickedOff h hc with hfollows | ⟨hs, hguardian, hflow, hinit⟩
        · exact .inl (by rw [hearlier, hlater]; exact hfollows)
        · exact .inr ⟨hearlier.trans hs, hguardian, hflow, hinit⟩
  · exact .inl (follows_setup h (by simpa using hprekickoff))

theorem Forgotten.stage_ne (h : Forgotten f f') : f'.stage ≠ .disprove := by
  intro hstage
  have hkicked : f'.kickedOff ≠ .disprove := by
    simp only [kickedOff, h.guardian, challenged, h.flow, h.initVisible]
    repeat' split
    all_goals simp_all
  unfold stage at hstage
  split at hstage
  · split at hstage
    · cases hstage
    · cases hstage
    · exact hkicked hstage
  · rcases f'.setup_cases with hs | hs | hs <;> rw [hs] at hstage <;> cases hstage

theorem follows_iff (h : Grows f f') (hc : Consistent f') :
    Follows f.stage f'.stage ↔ ¬ Forgotten f f' := by
  constructor
  · intro hfollows hforgotten
    have hclosed : f.stage.isClosed = true := by rw [hforgotten.seen]; rfl
    exact hforgotten.stage_ne ((hfollows.closed hclosed).trans hforgotten.seen)
  · exact (follows_or_forgotten h hc).resolve_right

end StageFacts

section Facts

variable {sha256 : Bytes → Bytes32} {topology : OutputTopology}

/-- A state of both chains in which parents of confirmed transactions are confirmed. -/
structure ChainState (g : WiredGraph sha256 topology) where
  btc : ChainView sha256 g.transactions
  goat : GoatView
  parents : btc.ParentsConfirmed

namespace ChainState

variable {g : WiredGraph sha256 topology} (c : ChainState g)

def scan : GraphChainScan := scanGraphChainState topology c.btc c.goat g.toBitvmGcGraph

def facts : StageFacts where
  posted := c.goat.posted g.parameters.graphId
  committeePreSigned := g.committeePreSigned
  prekickoff := c.btc.isConfirmed (g.curPrekickoff.tx.computeTxid sha256)
  kickoff := (c.btc.confirmedSpender (g.kickoffConnector sha256 topology)).map
    (· = g.kickoff.tx.computeTxid sha256)
  guardian := (detectGuardianDisprove c.btc g.toBitvmGcGraph).isSome
  connectorA := (c.btc.confirmedSpender (g.connectorA sha256 topology)).map
    (· = g.take1.tx.computeTxid sha256)
  flow := (detectWatchtowerFlowDisprove c.btc g.toBitvmGcGraph).isSome
  initVisible := c.btc.isVisible (g.watchtowerChallengeInit.tx.computeTxid sha256)
  assertVisible := c.btc.isVisible (g.operatorAssert.tx.computeTxid sha256)
  disproved := (detectConnectorDDisprove topology c.btc g.toBitvmGcGraph).isSome
  take2 := c.btc.isConfirmed (g.take2.tx.computeTxid sha256)

/-- Later on both chains; pending transactions may come and go. -/
structure Extends (later : ChainState g) : Prop where
  btc : c.btc.Extends later.btc
  posted : c.goat.posted g.parameters.graphId = true → later.goat.posted g.parameters.graphId = true

theorem guardian_isSome_iff : c.facts.guardian = true ↔
    c.btc.isConfirmed (g.quickChallenge.tx.computeTxid sha256) = true ∨
      c.btc.isConfirmed (g.challengeIncompleteKickoff.tx.computeTxid sha256) = true := by
  change (detectGuardianDisprove c.btc g.toBitvmGcGraph).isSome = true ↔ _
  unfold detectGuardianDisprove ChainView.txConfirmed
  dsimp only
  split
  · simp_all
  · split <;> simp_all

theorem flow_isSome_iff : c.facts.flow = true ↔
    (∃ nack ∈ g.operatorChallengeNacks, c.btc.isConfirmed (nack.tx.computeTxid sha256) = true) ∨
      c.btc.isConfirmed (g.operatorCommitTimeout.tx.computeTxid sha256) = true := by
  change (detectWatchtowerFlowDisprove c.btc g.toBitvmGcGraph).isSome = true ↔ _
  unfold detectWatchtowerFlowDisprove ChainView.txConfirmed
  split
  case h_1 index hindex =>
    obtain ⟨hlt, hconf, -⟩ := List.findIdx?_eq_some_iff_getElem.mp hindex
    rw [List.getElem?_eq_getElem hlt, Option.map_some]
    exact iff_of_true rfl (.inl ⟨_, List.getElem_mem hlt, hconf⟩)
  case h_2 hindex =>
    have hnone : ¬ ∃ nack ∈ g.operatorChallengeNacks,
        c.btc.isConfirmed (nack.tx.computeTxid sha256) = true := by
      rintro ⟨nack, hmem, hconf⟩
      have hno := List.findIdx?_eq_none_iff.mp hindex nack hmem
      cases hconf.symm.trans hno
    dsimp only
    split <;> simp_all

theorem disproved_isSome_iff : c.facts.disproved = true ↔
    ∃ txid, c.btc.confirmedSpender (g.connectorD sha256 topology) = some txid ∧
      txid ≠ g.take2.tx.computeTxid sha256 := by
  change (detectConnectorDDisprove topology c.btc g.toBitvmGcGraph).isSome = true ↔ _
  unfold detectConnectorDDisprove
  rw [ChainView.outpointSpentConfirmed_eq]
  cases c.btc.confirmedSpender (g.connectorD sha256 topology) with
  | none => simp
  | some txid =>
    by_cases htake2 : txid = g.take2.tx.computeTxid sha256
    · simp [htake2]
    · simp only [if_neg htake2]
      split <;> simp [htake2]

theorem disproved_of_verifierRounds {subStatus : ChallengeSubStatus} {d : DetectedDisprove}
    (h : ((verifierBranches g.toBitvmGcGraph).foldl (verifierRound c.btc) (subStatus, none)).2 =
      some d) :
    c.facts.disproved = true := by
  obtain hstart | ⟨branch, hmem, hfinish, hspent⟩ := exists_branch_of_verifierRounds _ _ h
  · cases hstart
  · have hdisprove := (mem_of_mem_verifierBranches hmem).2
    have hconf := Ledger.isConfirmed_of_confirmedSpender hspent
    rw [hfinish] at hconf
    obtain ⟨verifierAssert, -, hspends⟩ := g.disprove_spends hdisprove
    have hconnectorD : c.btc.confirmedSpender (g.connectorD sha256 topology) =
        some (branch.1.2.tx.computeTxid sha256) := by
      refine Ledger.confirmedSpender_of_watched (g.disprove_mem hdisprove) hconf ?_
      change _ ∈ branch.1.2.tx.spends
      rw [hspends]
      simp
    refine c.disproved_isSome_iff.mpr ⟨_, hconnectorD, ?_⟩
    exact g.txid_ne_of_length (g.disprove_mem hdisprove) g.take2_mem
      (by rw [hspends, g.take2_spends]; simp)

theorem scanAsserted_status (subStatus : ChallengeSubStatus) (challengeTxid : Option Bytes32) :
    (scanAsserted topology c.btc g.toBitvmGcGraph subStatus challengeTxid).status =
      if c.facts.disproved then .disprove else if c.facts.take2 then .operatorTake2
        else .challenge := by
  unfold scanAsserted
  split
  case h_1 disprove hrounds =>
    rw [if_pos (c.disproved_of_verifierRounds (by rw [hrounds]))]
  case h_2 =>
    rw [show c.facts.disproved =
      (detectConnectorDDisprove topology c.btc g.toBitvmGcGraph).isSome from rfl]
    cases detectConnectorDDisprove topology c.btc g.toBitvmGcGraph with
    | some disprove => rfl
    | none =>
      change GraphChainScan.status (if c.facts.take2 = true then _ else _) = _
      cases c.facts.take2 <;> rfl

theorem scanChallenge_status (subStatus : ChallengeSubStatus) (challengeTxid : Option Bytes32)
    (hguardian : detectGuardianDisprove c.btc g.toBitvmGcGraph = none) :
    (scanChallenge topology c.btc g.toBitvmGcGraph subStatus challengeTxid).status =
      c.facts.challenged := by
  unfold scanChallenge StageFacts.challenged
  rw [hguardian, show c.facts.flow =
    (detectWatchtowerFlowDisprove c.btc g.toBitvmGcGraph).isSome from rfl]
  cases detectWatchtowerFlowDisprove c.btc g.toBitvmGcGraph with
  | some disprove => rfl
  | none =>
    change GraphChainScan.status (if c.facts.initVisible = false then _ else _) = _
    cases c.facts.initVisible with
    | false => rfl
    | true =>
      change GraphChainScan.status (if c.facts.assertVisible = false then _ else _) = _
      cases c.facts.assertVisible with
      | false => rfl
      | true => exact c.scanAsserted_status _ _

theorem scanKickedOff_status (subStatus : ChallengeSubStatus) :
    (scanKickedOff topology c.btc g.toBitvmGcGraph subStatus).status = c.facts.kickedOff := by
  unfold scanKickedOff StageFacts.kickedOff
  rw [show c.facts.guardian = (detectGuardianDisprove c.btc g.toBitvmGcGraph).isSome from rfl]
  cases hguardian : detectGuardianDisprove c.btc g.toBitvmGcGraph with
  | some disprove => rfl
  | none =>
    rw [ChainView.outpointSpentConfirmed_eq, show c.facts.connectorA =
      (c.btc.confirmedSpender (g.connectorA sha256 topology)).map
        (decide <| · = g.take1.tx.computeTxid sha256) from rfl]
    cases c.btc.confirmedSpender (g.connectorA sha256 topology) with
    | none => rfl
    | some txid =>
      by_cases htake1 : txid = g.take1.tx.computeTxid sha256
      · simp [htake1]
      · simp [htake1, c.scanChallenge_status _ _ hguardian]

theorem scan_status : c.scan.status = c.facts.stage := by
  unfold scan scanGraphChainState StageFacts.stage
  change GraphChainScan.status (if c.facts.prekickoff = false then _ else _) = _
  cases c.facts.prekickoff with
  | false => rfl
  | true =>
    rw [if_neg (by decide), if_pos rfl, ChainView.outpointSpentConfirmed_eq, show c.facts.kickoff =
      (c.btc.confirmedSpender (g.kickoffConnector sha256 topology)).map
        (decide <| · = g.kickoff.tx.computeTxid sha256) from rfl]
    cases c.btc.confirmedSpender (g.kickoffConnector sha256 topology) with
    | none => rfl
    | some txid =>
      by_cases hkickoff : txid = g.kickoff.tx.computeTxid sha256
      · simp [hkickoff, c.scanKickedOff_status]
      · simp [hkickoff]

theorem not_confirmed_of_shared {o : OutPoint} {t u : Transaction} (ht : t ∈ g.transactions)
    (hu : u ∈ g.transactions) (hconf : c.btc.isConfirmed (t.computeTxid sha256) = true)
    (ho : o ∈ t.spends) (ho' : o ∈ u.spends) (hlength : t.spends.length ≠ u.spends.length) :
    ¬ c.btc.isConfirmed (u.computeTxid sha256) = true := fun hconf' =>
  g.txid_ne_of_length ht hu hlength (Ledger.txid_eq_of_shared ht hu hconf hconf' ho ho')

theorem guardian_eq_false_of_take {t : Transaction} (ht : t ∈ g.transactions)
    (hconf : c.btc.isConfirmed (t.computeTxid sha256) = true)
    (ho : g.guardianConnector sha256 topology ∈ t.spends) (hlength : t.spends.length ≠ 2) :
    c.facts.guardian = false := by
  rw [Bool.eq_false_iff, Ne, guardian_isSome_iff]
  rintro (hquick | hincomplete)
  · refine c.not_confirmed_of_shared ht g.quickChallenge_mem hconf ho ?_ ?_ hquick
    · rw [g.quickChallenge_spends]; simp
    · rw [g.quickChallenge_spends]; exact hlength
  · refine c.not_confirmed_of_shared ht g.challengeIncompleteKickoff_mem hconf ho ?_ ?_ hincomplete
    · rw [g.challengeIncompleteKickoff_spends]; simp
    · rw [g.challengeIncompleteKickoff_spends]; exact hlength

theorem flow_eq_false_of_take2 (hconf : c.btc.isConfirmed (g.take2.tx.computeTxid sha256) = true) :
    c.facts.flow = false := by
  have hconnector : g.connectorF sha256 topology ∈ g.take2.tx.spends := by
    rw [g.take2_spends]; simp
  rw [Bool.eq_false_iff, Ne, flow_isSome_iff]
  rintro (⟨nack, hnack, hnackConf⟩ | htimeout)
  · obtain ⟨i, -, hspends⟩ := g.nack_spends hnack
    refine c.not_confirmed_of_shared g.take2_mem (g.nack_mem hnack) hconf hconnector ?_ ?_ hnackConf
    · rw [hspends]; simp
    · rw [hspends, g.take2_spends]; simp
  · refine c.not_confirmed_of_shared g.take2_mem g.operatorCommitTimeout_mem hconf hconnector
      ?_ ?_ htimeout
    · rw [g.operatorCommitTimeout_spends]; simp
    · rw [g.operatorCommitTimeout_spends, g.take2_spends]; simp

theorem facts_consistent : c.facts.Consistent := by
  have hspent : ∀ o ∈ g.take2.tx.spends, c.facts.take2 = true →
      c.btc.confirmedSpender o = some (g.take2.tx.computeTxid sha256) := fun o ho htake2 =>
    Ledger.confirmedSpender_of_watched g.take2_mem htake2 ho
  have hconnectorD : g.connectorD sha256 topology ∈ g.take2.tx.spends := by
    rw [g.take2_spends]; simp
  have hconnectorF : g.connectorF sha256 topology ∈ g.take2.tx.spends := by
    rw [g.take2_spends]; simp
  refine ⟨?take1_guardian, ?take2_guardian, ?take2_flow, ?take2_disproved, ?take2_init,
    ?take2_assert, ?disproved_assert⟩
  case take1_guardian =>
    intro hconnectorA
    obtain ⟨txid, htxid, heq⟩ := Option.map_eq_some_iff.mp hconnectorA
    have htake1 : txid = g.take1.tx.computeTxid sha256 := by simpa using heq
    subst htake1
    refine c.guardian_eq_false_of_take g.take1_mem
      (Ledger.isConfirmed_of_confirmedSpender htxid) ?_ ?_
    · rw [g.take1_spends]; simp
    · rw [g.take1_spends]; simp
  case take2_guardian =>
    intro htake2
    refine c.guardian_eq_false_of_take g.take2_mem htake2 ?_ ?_
    · rw [g.take2_spends]; simp
    · rw [g.take2_spends]; simp
  case take2_flow => exact c.flow_eq_false_of_take2
  case take2_disproved =>
    intro htake2
    rw [Bool.eq_false_iff, Ne, disproved_isSome_iff]
    rintro ⟨txid, htxid, hne⟩
    rw [hspent _ hconnectorD htake2] at htxid
    exact hne (Option.some.inj htxid).symm
  case take2_init =>
    intro htake2
    exact Ledger.isVisible_of_isConfirmed
      (c.parents.of_spent (hspent _ hconnectorF htake2) g.watchtowerChallengeInit_mem rfl)
  case take2_assert =>
    intro htake2
    exact Ledger.isVisible_of_isConfirmed
      (c.parents.of_spent (hspent _ hconnectorD htake2) g.operatorAssert_mem rfl)
  case disproved_assert =>
    intro hdisproved
    obtain ⟨txid, htxid, -⟩ := c.disproved_isSome_iff.mp hdisproved
    exact Ledger.isVisible_of_isConfirmed (c.parents.of_spent htxid g.operatorAssert_mem rfl)

variable {c} {c' : ChainState g}

theorem Extends.facts_grow (h : c.Extends c') : c.facts.Grows c'.facts := by
  have hconnector : ∀ (o : OutPoint) (txid : Bytes32) (b : Bool),
      (c.btc.confirmedSpender o).map (fun spentTxid => decide (spentTxid = txid)) = some b →
      (c'.btc.confirmedSpender o).map (fun spentTxid => decide (spentTxid = txid)) = some b := by
    intro o txid b hb
    obtain ⟨spentTxid, hspent, heq⟩ := Option.map_eq_some_iff.mp hb
    rw [h.btc.confirmedSpender hspent, Option.map_some, heq]
  refine ⟨h.posted, rfl, h.btc.isConfirmed, hconnector _ _, ?guardian, hconnector _ _,
    ?flow, ?disproved, h.btc.isConfirmed⟩
  case guardian =>
    rw [guardian_isSome_iff, guardian_isSome_iff]
    exact Or.imp h.btc.isConfirmed h.btc.isConfirmed
  case flow =>
    rw [flow_isSome_iff, flow_isSome_iff]
    exact Or.imp (fun ⟨nack, hmem, hconf⟩ => ⟨nack, hmem, h.btc.isConfirmed hconf⟩)
      h.btc.isConfirmed
  case disproved =>
    rw [disproved_isSome_iff, disproved_isSome_iff]
    exact fun ⟨txid, hspent, hne⟩ => ⟨txid, h.btc.confirmedSpender hspent, hne⟩

theorem Extends.follows_iff (h : c.Extends c') :
    Follows c.scan.status c'.scan.status ↔ ¬ c.facts.Forgotten c'.facts := by
  rw [scan_status, scan_status]
  exact StageFacts.follows_iff h.facts_grow c'.facts_consistent

theorem Extends.trans {c'' : ChainState g} (h : c.Extends c') (h' : c'.Extends c'') :
    c.Extends c'' :=
  ⟨h.btc.trans h'.btc, fun hposted => h'.posted (h.posted hposted)⟩

end ChainState

structure ScanRun (g : WiredGraph sha256 topology) where
  state : ChainState g
  unusable : Option Unusable
  flowSignals : List PegoutSignal
  instanceFailed : Bool
  now : Int

variable {g : WiredGraph sha256 topology}

def ScanRun.Before (earlier later : ScanRun g) : Prop := earlier.state.Extends later.state

instance : Trans (ScanRun.Before (g := g)) ScanRun.Before ScanRun.Before :=
  ⟨ChainState.Extends.trans⟩

variable (encode : ChallengeSubStatus → String)

/-- The status write of one scan, as the apply of a chain scan makes it. -/
def recordScan (graphs : GraphTable) (run : ScanRun g) :
    GraphTable × Option GraphStatusTransitionOutcome :=
  let scan := gatherChainScan encode run.unusable run.flowSignals run.state.scan
  match decideStatus scan run.instanceFailed with
  | some target =>
      let (graphs, outcome) := transitionGraphStatus graphs g.parameters.instanceId
        g.parameters.graphId target .chainReconcile scan.subStatus run.now
      (graphs, some outcome)
  | none => (graphs, none)

def recordScans (graphs : GraphTable) :
    List (ScanRun g) → List (GraphStatus × Option GraphStatusTransitionOutcome)
  | [] => []
  | run :: runs =>
      let (graphs, outcome) := recordScan encode graphs run
      (run.state.scan.status, outcome) :: recordScans graphs runs

/-- The row of the graph after a scan of the given stage: it has that stage, or none of the
chain's. -/
structure Tracks (g : WiredGraph sha256 topology) (stage : GraphStatus) (graphs : GraphTable)
    (row : Graph) : Prop where
  found : graphs.find? g.parameters.graphId = some row
  instanceId : row.instanceId = g.parameters.instanceId
  status : if stage ∈ StageFacts.started then row.status = stage
    else row.status ∈ GraphStatus.PRE_KICKOFF

def NotRejected (entry : GraphStatus × Option GraphStatusTransitionOutcome) : Prop :=
  entry.1 ∈ StageFacts.started → ∀ current, entry.2 ≠ some (.rejected current)

theorem decideStatus_of_started {run : ScanRun g} (h : run.state.scan.status ∈ StageFacts.started)
    (instanceFailed : Bool) :
    decideStatus (gatherChainScan encode run.unusable run.flowSignals run.state.scan)
      instanceFailed =
      some run.state.scan.status := by
  unfold decideStatus gatherChainScan
  generalize run.state.scan.status = stage at h ⊢
  cases stage <;> first | rfl | exact absurd h (by decide)

theorem decideStatus_of_not_started {scan : ChainScan} {target : GraphStatus}
    {instanceFailed : Bool} (h : scan.stage ∉ StageFacts.started)
    (htarget : decideStatus scan instanceFailed = some target) :
    target = .obsoleted ∨ target = .operatorDataPushed := by
  unfold decideStatus at htarget
  split at htarget
  case h_8 =>
    split at htarget
    · exact .inl (Option.some.inj htarget).symm
    · exact .inr (Option.some.inj htarget).symm
  case h_9 | h_10 | h_11 =>
    split at htarget
    · exact .inl (Option.some.inj htarget).symm
    · cases htarget
  all_goals simp_all [StageFacts.started]

theorem started_of_follows {earlier later : GraphStatus} (h : Follows earlier later)
    (hstarted : earlier ∈ StageFacts.started) (hlater : later ≠ .obsoleted) :
    later ∈ StageFacts.started := by
  have hall : ∀ earlier ∈ StageFacts.started,
      earlier ∉ GraphStatus.allowedTransitionFrom .operatorPresigned .chainReconcile ∧
      earlier ∉ GraphStatus.allowedTransitionFrom .committeePresigned .chainReconcile ∧
      earlier ∉ GraphStatus.allowedTransitionFrom .operatorDataPushed .chainReconcile := by decide
  obtain ⟨hpresigned, hcommittee, hpushed⟩ := hall earlier hstarted
  rcases h.reached with rfl | hallowed
  · exact hstarted
  · cases later
    case operatorPresigned => exact absurd hallowed hpresigned
    case committeePresigned => exact absurd hallowed hcommittee
    case operatorDataPushed => exact absurd hallowed hpushed
    case obsoleted => exact absurd rfl hlater
    all_goals decide

theorem allowed_of_preKickoff : ∀ status ∈ GraphStatus.PRE_KICKOFF, ∀ stage ∈ StageFacts.started,
    status ∈ stage.allowedTransitionFrom .chainReconcile := by
  decide

variable {encode} {graphs : GraphTable} {row : Graph} {earlier : GraphStatus} {run : ScanRun g}

theorem recordScan_of_decided {target : GraphStatus}
    (hfound : graphs.find? g.parameters.graphId = some row)
    (hinstance : row.instanceId = g.parameters.instanceId)
    (htarget : decideStatus (gatherChainScan encode run.unusable run.flowSignals run.state.scan)
      run.instanceFailed = some target) :
    ∃ stored, (recordScan encode graphs run).1.find? g.parameters.graphId = some stored ∧
      stored.instanceId = g.parameters.instanceId ∧ stored.status =
        (if row.status ∈ target.allowedTransitionFrom .chainReconcile then target else row.status) ∧
      (recordScan encode graphs run).2 = some
        (if row.status ∈ target.allowedTransitionFrom .chainReconcile then .applied
          else if row.status = target then .alreadyCurrent else .rejected row.status) := by
  dsimp only [recordScan]
  rw [htarget, ← hinstance]
  obtain ⟨hstatus, houtcome⟩ := transitionGraphStatus_spec hfound target .chainReconcile
    (gatherChainScan encode run.unusable run.flowSignals run.state.scan).subStatus run.now
  obtain ⟨stored, hstored, hkept⟩ := exists_find?_transitionGraphStatus hfound row.instanceId target
    .chainReconcile (gatherChainScan encode run.unusable run.flowSignals run.state.scan).subStatus
      run.now
  rw [hstored, Option.map_some] at hstatus
  exact ⟨stored, hstored, hkept, Option.some.inj hstatus, congrArg some houtcome⟩

variable (encode) in
theorem Tracks.recordScan (h : Tracks g earlier graphs row)
    (hfollows : Follows earlier run.state.scan.status) :
    (∃ row', Tracks g run.state.scan.status (recordScan encode graphs run).1 row') ∧
      NotRejected (run.state.scan.status, (recordScan encode graphs run).2) := by
  by_cases hstarted : run.state.scan.status ∈ StageFacts.started
  · -- the stage itself is written: the row has it already, or may move to it
    have hmoves : row.status ∈ run.state.scan.status.allowedTransitionFrom .chainReconcile ∨
        row.status = run.state.scan.status := by
      have htracked := h.status
      split at htracked
      · rw [htracked]
        exact hfollows.reached.symm.imp id Eq.symm
      · exact .inl (allowed_of_preKickoff _ htracked _ hstarted)
    obtain ⟨stored, hstored, hinstance, hstatus, houtcome⟩ :=
      recordScan_of_decided h.found h.instanceId
      (decideStatus_of_started encode hstarted run.instanceFailed)
    refine ⟨⟨stored, hstored, hinstance, ?_⟩, fun _ current => ?_⟩
    · rw [if_pos hstarted, hstatus]
      split
      · rfl
      · exact hmoves.resolve_left ‹_›
    · rw [houtcome]
      split
      · simp
      · simp [hmoves.resolve_left ‹_›]
  · -- nothing of the chain's is written over a row that has nothing of the chain's
    refine ⟨?_, fun hentry => absurd hentry hstarted⟩
    have hearlier : earlier ∉ StageFacts.started := by
      intro hin
      refine hstarted (started_of_follows hfollows hin ?_)
      intro hobsoleted
      have hstage := run.state.scan_status
      rw [hobsoleted] at hstage
      exact StageFacts.stage_ne_obsoleted _ hstage.symm
    have htracked := h.status
    rw [if_neg hearlier] at htracked
    cases htarget : decideStatus
        (gatherChainScan encode run.unusable run.flowSignals run.state.scan) run.instanceFailed with
    | none =>
      refine ⟨row, ?_, h.instanceId, by rw [if_neg hstarted]; exact htracked⟩
      dsimp only [BitvmNode.Pegout.recordScan]
      rw [htarget]
      exact h.found
    | some target =>
      obtain ⟨stored, hstored, hinstance, hstatus, -⟩ :=
        recordScan_of_decided h.found h.instanceId htarget
      refine ⟨stored, hstored, hinstance, ?_⟩
      rw [if_neg hstarted, hstatus]
      split
      · rcases decideStatus_of_not_started hstarted htarget with rfl | rfl <;> decide
      · exact htracked

/-- Along a run in which every scan follows the one before, no stage from the Pre-Kickoff on is
rejected. -/
theorem Tracks.recordScans {runs : List (ScanRun g)} (h : Tracks g earlier graphs row)
    (hfollows : (earlier :: runs.map (·.state.scan.status)).Pairwise Follows) :
    ∀ entry ∈ recordScans encode graphs runs, NotRejected entry := by
  induction runs generalizing graphs row earlier with
  | nil => exact fun _ hentry => absurd hentry List.not_mem_nil
  | cons run runs ih =>
    obtain ⟨hhead, htail⟩ := List.pairwise_cons.mp hfollows
    obtain ⟨⟨row', hrow'⟩, hnot⟩ := h.recordScan encode (hhead _ List.mem_cons_self)
    intro entry hentry
    rcases List.mem_cons.mp hentry with rfl | hentry
    · exact hnot
    · exact ih hrow' htail entry hentry

theorem follows_operatorPresigned (c : ChainState g) :
    Follows .operatorPresigned c.scan.status := by
  have hstage := c.facts.stage_ne_obsoleted
  rw [← c.scan_status] at hstage
  generalize c.scan.status = stage at hstage ⊢
  cases stage
  case obsoleted => exact absurd rfl hstage
  all_goals decide

/-- On a growing chain, later stages follow earlier ones and no write from the Pre-Kickoff on is
rejected, exactly if no disprove is forgotten between two of the scans. -/
theorem stages_never_regress_iff {runs : List (ScanRun g)} (hgrows : runs.IsChain ScanRun.Before)
    (hfound : graphs.find? g.parameters.graphId = some row)
    (hinstance : row.instanceId = g.parameters.instanceId)
    (hstatus : row.status ∈ GraphStatus.PRE_KICKOFF) :
    (runs.Pairwise (fun a b => Follows a.state.scan.status b.state.scan.status) ∧
        ∀ entry ∈ recordScans encode graphs runs, NotRejected entry) ↔
      runs.Pairwise (fun a b => ¬ a.state.facts.Forgotten b.state.facts) := by
  have hpairs : runs.Pairwise (fun a b => Follows a.state.scan.status b.state.scan.status) ↔
      runs.Pairwise (fun a b => ¬ a.state.facts.Forgotten b.state.facts) := by
    have hbefore := hgrows.pairwise
    constructor
    · intro h
      exact (hbefore.and h).imp fun ⟨hextends, hfollows⟩ => hextends.follows_iff.mp hfollows
    · intro h
      exact (hbefore.and h).imp fun ⟨hextends, hkept⟩ => hextends.follows_iff.mpr hkept
  rw [← hpairs, and_iff_left_iff_imp]
  intro hfollows
  -- a fresh row counts as a scan of the first status
  have htracks : Tracks g .operatorPresigned graphs row :=
    ⟨hfound, hinstance, by rw [if_neg (by decide)]; exact hstatus⟩
  refine htracks.recordScans (List.pairwise_cons.mpr ⟨?_, List.pairwise_map.mpr hfollows⟩)
  intro stage hstage
  obtain ⟨run, -, rfl⟩ := List.mem_map.mp hstage
  exact follows_operatorPresigned run.state

end Facts

namespace ForgottenDisprove

open Smallest

def confirmed : List Transaction :=
  [graph.pegin.tx, graph.curPrekickoff.tx, graph.kickoff.tx, graph.challenge.tx,
    graph.operatorAssert.tx] ++ (graph.verifierAsserts ++ graph.disproves).map (·.tx)

theorem confirmed_subset : confirmed ⊆ graph.transactions := by
  decide +kernel

theorem parentsConfirmed :
    ∀ t ∈ confirmed, ∀ o ∈ t.spends, ∀ u ∈ graph.transactions, o.txid = u.computeTxid hash →
      confirmed.any (fun v => v.computeTxid hash = u.computeTxid hash) = true := by
  decide +kernel

def state (mempool : List Transaction) (hmempool : mempool ⊆ graph.transactions) :
    ChainState graph where
  btc := Ledger.ofDistinct graph.transactions confirmed mempool graph.distinct
    (List.append_subset.mpr ⟨List.append_subset.mpr ⟨confirmed_subset, hmempool⟩,
      List.Subset.refl _⟩)
    (by decide +kernel)
  goat := ⟨fun _ => zero32, fun _ => .none⟩
  parents := parentsConfirmed

def seen : ChainState graph :=
  state [graph.watchtowerChallengeInit.tx]
    (List.cons_subset.mpr ⟨graph.watchtowerChallengeInit_mem, List.nil_subset _⟩)

def dropped : ChainState graph := state [] (List.nil_subset _)

def scanOf (c : ChainState graph) : ScanRun graph := ⟨c, none, [], false, 0⟩

def row : Graph := ⟨1, 2, 0, "operator", .operatorDataPushed, "", 0, 0⟩

def graphs : GraphTable := ⟨[row], by decide⟩

theorem disprove_forgotten :
    seen.Extends dropped ∧ seen.scan.status = .disprove ∧ dropped.scan.status = .challenge ∧
      recordScans (fun _ => "") graphs [scanOf seen, scanOf dropped] =
        [(.disprove, some .applied), (.challenge, some (.rejected .disprove))] := by
  refine ⟨⟨⟨List.Subset.refl _⟩, id⟩, ?_⟩
  decide +kernel

theorem disprove_kept : [scanOf dropped, scanOf seen].Pairwise
        (fun a b => Follows a.state.scan.status b.state.scan.status) ∧
      ∀ entry ∈ recordScans (fun _ => "") graphs [scanOf dropped, scanOf seen],
        NotRejected entry := by
  have hgrows : [scanOf dropped, scanOf seen].IsChain ScanRun.Before :=
    .cons_cons ⟨⟨List.Subset.refl _⟩, id⟩ (.singleton _)
  refine (stages_never_regress_iff hgrows (rfl : graphs.find? 1 = some row) rfl (by decide)).mpr ?_
  refine List.pairwise_pair.mpr fun hforgotten => ?_
  have hstage := hforgotten.seen
  revert hstage
  decide +kernel

end ForgottenDisprove

end BitvmNode.Pegout
