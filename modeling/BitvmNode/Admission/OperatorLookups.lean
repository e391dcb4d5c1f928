import BitvmNode.Admission.Bindings
import BitvmNode.Reasoning.Along

/-!
# Stake lookups of operators

A lookup is started for a peer and the key it is bound to, and answered later by a verdict.  It may
be bound to another key by the time of the answer, which is then ignored.
-/

namespace BitvmNode.Admission

open Reasoning

open PeerRegistry

def lookupsStarted (state : RegistryState) : RegistryOp → List (PeerId × OperatorKey)
  | .planOperatorRefresh peer pubkey now =>
      if (state.claimOperatorRefresh peer pubkey now).2 then [(peer, pubkey)] else []
  | .planDueOperatorRefreshes now rank => (planDueOperatorRefreshes state now rank).2
  | _ => []

structure Starts (before after : RegistryState) (lookups : List (PeerId × OperatorKey)) : Prop where
  inFlight : after.operatorsInFlight = before.operatorsInFlight ∪ (lookups.map Prod.fst).toFinset
  fresh : ∀ lookup ∈ lookups, lookup.1 ∉ before.operatorsInFlight
  nodup : (lookups.map Prod.fst).Nodup
  room : before.operatorsInFlight.card ≤ operatorMaxInFlightLookups →
    after.operatorsInFlight.card ≤ operatorMaxInFlightLookups

variable {state before after : RegistryState} {lookups : List (PeerId × OperatorKey)}

theorem Starts.none (hinFlight : after.operatorsInFlight = before.operatorsInFlight) :
    Starts before after [] where
  inFlight := by rw [hinFlight, List.map_nil, List.toFinset_nil, Finset.union_empty]
  fresh := by simp
  nodup := List.nodup_nil
  room := by rw [hinFlight]; exact id

theorem Starts.append {later : RegistryState} {more : List (PeerId × OperatorKey)}
    (h : Starts before after lookups) (hmore : Starts after later more) :
    Starts before later (lookups ++ more) where
  inFlight := by
    rw [hmore.inFlight, h.inFlight, List.map_append, List.toFinset_append, Finset.union_assoc]
  fresh := by
    intro lookup hlookup
    rcases List.mem_append.mp hlookup with hlookup | hlookup
    · exact h.fresh lookup hlookup
    · have hfresh := hmore.fresh lookup hlookup
      rw [h.inFlight, Finset.mem_union] at hfresh
      exact fun hbefore => hfresh (.inl hbefore)
  nodup := by
    rw [List.map_append]
    apply h.nodup.append hmore.nodup
    intro peer hpeer hagain
    obtain ⟨lookup, hlookup, rfl⟩ := List.mem_map.mp hagain
    apply hmore.fresh lookup hlookup
    rw [h.inFlight, Finset.mem_union, List.mem_toFinset]
    exact .inr hpeer
  room := fun hroom => hmore.room (h.room hroom)

theorem Starts.claim (state : RegistryState) (peer : PeerId) (pubkey : OperatorKey)
    (now : Instant) : Starts state (state.claimOperatorRefresh peer pubkey now).1
      (if (state.claimOperatorRefresh peer pubkey now).2 then [(peer, pubkey)] else []) := by
  have hrefused : Starts state state [] := .none rfl
  unfold RegistryState.claimOperatorRefresh
  by_cases hflying : peer ∈ state.operatorsInFlight
  · simp only [if_pos hflying]
    exact hrefused
  · simp only [if_neg hflying]
    cases state.operators.get? peer with
    | none => exact hrefused
    | some binding =>
      by_cases hother : binding.pubkey ≠ pubkey ∨ binding.needsRefresh now = false
      · simp only [if_pos hother]
        exact hrefused
      · simp only [if_neg hother]
        have hstart : ∀ after : RegistryState,
            after.operatorsInFlight = insert peer state.operatorsInFlight →
            state.operatorsInFlight.card < operatorMaxInFlightLookups →
              Starts state after [(peer, pubkey)] := by
          intro after hinserted hfree
          refine ⟨?_, ?_, List.nodup_singleton _, ?_⟩
          · rw [hinserted, Finset.insert_eq, Finset.union_comm]
            rfl
          · intro lookup hlookup
            rw [List.mem_singleton.mp hlookup]
            exact hflying
          · intro _
            rw [hinserted, Finset.card_insert_of_notMem hflying]
            exact hfree
        by_cases hknown : binding.staked = some true ∨ binding.trusted = true
        · simp only [if_pos hknown, decide_eq_true_eq]
          by_cases hfree : state.operatorsInFlight.card < operatorMaxInFlightLookups
          · simp only [if_pos hfree, if_true]
            exact hstart _ rfl hfree
          · simp only [if_neg hfree, Bool.false_eq_true, if_false]
            exact hrefused
        · simp only [if_neg hknown]
          by_cases hfull : operatorMaxUnknownInFlight ≤ state.operatorsInFlight.card
          · simp only [if_pos hfull, Bool.false_eq_true, if_false]
            exact hrefused
          · simp only [if_neg hfull]
            have hfree : state.operatorsInFlight.card < operatorMaxInFlightLookups := by
              unfold operatorMaxUnknownInFlight at hfull
              unfold operatorMaxInFlightLookups
              omega
            cases (state.operatorDiscovery.take operatorDiscoveryLookupsPerMinute now).2 with
            | true => exact hstart _ rfl hfree
            | false => exact .none rfl

/-- By induction on the due bindings: each claim is made in the state that the earlier ones left. -/
theorem Starts.planDue (state : RegistryState) (now : Instant) (rank : PeerId → Nat) :
    Starts state (planDueOperatorRefreshes state now rank).1
      (planDueOperatorRefreshes state now rank).2 := by
  dsimp only [planDueOperatorRefreshes]
  generalize (List.filter _ _ ++ List.filter _ _) = due
  suffices h : ∀ before claimed, Starts before state claimed →
      let result := due.foldl (fun before entry =>
        let claim := RegistryState.claimOperatorRefresh before.1 entry.1 entry.2.pubkey now
        (claim.1, if claim.2 then before.2 ++ [(entry.1, entry.2.pubkey)] else before.2)) (state,
        claimed)
      Starts before result.1 result.2 from h state [] (.none rfl)
  induction due generalizing state with
  | nil => exact fun before claimed hclaimed => hclaimed
  | cons entry due ih =>
    intro before claimed hclaimed
    have hnext : Starts before (state.claimOperatorRefresh entry.1 entry.2.pubkey now).1
        (if (state.claimOperatorRefresh entry.1 entry.2.pubkey now).2 then
          claimed ++ [(entry.1, entry.2.pubkey)] else claimed) := by
      have hboth := hclaimed.append (.claim state entry.1 entry.2.pubkey now)
      split at hboth
      next hadmitted => rwa [if_pos hadmitted]
      next hrefused => rwa [if_neg hrefused, ← List.append_nil claimed]
    exact ih _ before _ hnext

def RegistryOp.Verdict (op : RegistryOp) (peer : PeerId) (pubkey : OperatorKey) (staked : Bool) :
    Prop :=
  (∃ now, op = .recordOperatorStake peer pubkey (some staked) now) ∨
    staked = true ∧ ∃ now, op = .confirmSeededOperator peer pubkey now

/-- A verdict that is there was there before, on a binding of the same key, or is brought by the
operation. -/
def KeepsVerdicts (before after : RegistryState) (op : RegistryOp) : Prop :=
  ∀ peer binding staked, after.operators.get? peer = some binding → binding.staked = some staked →
    (∃ old, before.operators.get? peer = some old ∧ old.pubkey = binding.pubkey ∧
        old.staked = some staked) ∨
      op.Verdict peer binding.pubkey staked

variable {op : RegistryOp}

theorem KeepsVerdicts.of_same (hoperators : after.operators = before.operators) :
    KeepsVerdicts before after op := by
  intro peer binding staked hbinding hstaked
  rw [hoperators] at hbinding
  exact .inl ⟨binding, hbinding, rfl, hstaked⟩

theorem KeepsVerdicts.insert (after : RegistryState) {peer : PeerId} {new : OperatorBinding}
    (hnew : ∀ staked, new.staked = some staked →
      (∃ old, before.operators.get? peer = some old ∧ old.pubkey = new.pubkey ∧
          old.staked = some staked) ∨
        op.Verdict peer new.pubkey staked)
    (hothers : ∀ other binding, other ≠ peer → after.operators.get? other = some binding →
      before.operators.get? other = some binding) :
    KeepsVerdicts before { after with operators := after.operators.insert peer new } op := by
  intro other binding staked hbinding hstaked
  rw [Map.get?_insert] at hbinding
  by_cases hother : other = peer
  · rw [if_pos hother, Option.some.injEq] at hbinding
    subst hbinding hother
    exact hnew staked hstaked
  · rw [if_neg hother] at hbinding
    exact .inl ⟨binding, hothers other binding hother hbinding, rfl, hstaked⟩

theorem KeepsVerdicts.observe (h : Consistent state) (peer : PeerId) (pubkey : OperatorKey)
    (issuedAt : Int) (now : Instant) :
    KeepsVerdicts state (observeOperatorBinding state peer pubkey issuedAt now).1 op := by
  rcases observe_spec h peer pubkey issuedAt now with ⟨-, hresult⟩ | ⟨-, kept, hreduced, -, hresult⟩
  · rw [hresult]
    exact .of_same rfl
  · rw [hresult]
    refine KeepsVerdicts.insert { kept with operatorOwner := _ } ?_ hreduced.operators
    intro staked hstaked
    left
    cases hprevious : state.operators.get? peer with
    | none =>
      rw [hprevious] at hstaked
      cases hstaked
    | some previous =>
      rw [hprevious] at hstaked
      dsimp only [boundAs] at hstaked ⊢
      by_cases hsame : previous.pubkey = pubkey
      · rw [if_pos hsame] at hstaked ⊢
        exact ⟨previous, rfl, rfl, hstaked⟩
      · rw [if_neg hsame] at hstaked
        cases hstaked

theorem KeepsVerdicts.trust {trusted : RegistryState} {peer : PeerId} {pubkey : OperatorKey}
    (htrust : trustOperatorBinding state peer pubkey = .ok trusted) :
    trusted.operatorsInFlight = state.operatorsInFlight ∧ KeepsVerdicts state trusted op := by
  unfold trustOperatorBinding at htrust
  split at htrust
  · cases htrust
  · split at htrust
    · cases htrust
    · cases htrust
      refine ⟨rfl, KeepsVerdicts.insert { state with operatorOwner := _ } ?_
        fun other binding _ => id⟩
      intro staked hstaked
      left
      cases hbinding : state.operators.get? peer with
      | none =>
        rw [hbinding] at hstaked
        cases hstaked
      | some binding =>
        rw [hbinding] at hstaked
        exact ⟨binding, rfl, rfl, hstaked⟩

/-- An answer takes its peer out of flight; every other operation starts lookups, mostly none. -/
theorem registryStep_lookups (state : RegistryState) (op : RegistryOp) :
    match op with
    | .recordOperatorStake peer _ _ _ =>
        (registryStep state op).operatorsInFlight = state.operatorsInFlight.erase peer
    | _ => Starts state (registryStep state op) (lookupsStarted state op) := by
  cases op with
  | observeOperatorBinding peer pubkey issuedAt now =>
    exact .none (observeOperatorBinding_frame state peer pubkey issuedAt now).2
  | trustOperatorBinding peer pubkey =>
    apply Starts.none
    simp only [registryStep]
    split
    next trusted htrust =>
      have hboth : _ ∧ KeepsVerdicts state trusted (.trustOperatorBinding peer pubkey) :=
        KeepsVerdicts.trust htrust
      exact hboth.1
    next => rfl
  | planOperatorRefresh peer pubkey now => exact .claim state peer pubkey now
  | planDueOperatorRefreshes now rank => exact .planDue state now rank
  | recordOperatorStake peer pubkey staked now =>
    simp only [registryStep, recordOperatorStake]
    split <;> rfl
  | confirmSeededOperator peer pubkey now =>
    apply Starts.none
    simp only [registryStep, confirmSeededOperator]
    split <;> rfl
  | seedVerifiedCommitteePeer | planDueCommitteeRefreshes | planRefresh | planCandidateLookup
  | planNeighbourLookup | planRefusedPeerLookup | recordVerifierSet | recordCommitteePeer =>
    exact .none (SameOperators.of_step state rfl).operatorsInFlight

theorem registryStep_verdicts (h : Consistent state) (op : RegistryOp) :
    KeepsVerdicts state (registryStep state op) op := by
  cases op with
  | observeOperatorBinding peer pubkey issuedAt now => exact .observe h peer pubkey issuedAt now
  | trustOperatorBinding peer pubkey =>
    simp only [registryStep]
    split
    next trusted htrust => exact (KeepsVerdicts.trust htrust).2
    next => exact .of_same rfl
  | planOperatorRefresh peer pubkey now =>
    exact .of_same (SameRecords.claimOperatorRefresh state peer pubkey now).operators
  | planDueOperatorRefreshes now rank =>
    exact .of_same (SameRecords.planDueOperatorRefreshes state now rank).operators
  | recordOperatorStake peer pubkey staked now =>
    simp only [registryStep, recordOperatorStake]
    split
    next staked binding hfound =>
      refine KeepsVerdicts.insert { state with operatorsInFlight := _ } ?_ fun other binding _ => id
      rintro verdict ⟨rfl⟩
      have hpubkey : binding.pubkey = pubkey := by
        simpa using (Option.filter_eq_some_iff.mp hfound).2
      rw [hpubkey]
      exact .inr (.inl ⟨now, rfl⟩)
    next => exact .of_same rfl
  | confirmSeededOperator peer pubkey now =>
    simp only [registryStep, confirmSeededOperator]
    split
    next binding hfound =>
      refine KeepsVerdicts.insert state ?_ fun other binding _ => id
      rintro verdict ⟨rfl⟩
      have hkey : binding.pubkey = pubkey ∧ binding.staked = none := by
        simpa using (Option.filter_eq_some_iff.mp hfound).2
      rw [hkey.1]
      exact .inr (.inr ⟨rfl, now, rfl⟩)
    next => exact .of_same rfl
  | seedVerifiedCommitteePeer | planDueCommitteeRefreshes | planRefresh | planCandidateLookup
  | planNeighbourLookup | planRefusedPeerLookup | recordVerifierSet | recordCommitteePeer =>
    exact .of_same (SameOperators.of_step state rfl).operators

theorem inFlight_run (ops : List RegistryOp) :
    (registryRun .default ops).operatorsInFlight.card ≤ operatorMaxInFlightLookups := by
  induction ops using List.reverseRecOn with
  | nil => exact Nat.zero_le _
  | append_singleton ops op ih =>
    rw [registryRun_concat]
    have hstep := registryStep_lookups (registryRun .default ops) op
    cases op with
    | recordOperatorStake peer pubkey staked now =>
      rw [hstep]
      exact Finset.card_erase_le.trans ih
    | _ => exact hstep.room ih

theorem verdicts_run (ops : List RegistryOp) {peer : PeerId} {binding : OperatorBinding}
    {staked : Bool} (hbinding : (registryRun .default ops).operators.get? peer = some binding)
    (hstaked : binding.staked = some staked) :
    ∃ op ∈ ops, op.Verdict peer binding.pubkey staked := by
  induction ops using List.reverseRecOn generalizing binding with
  | nil => cases hbinding
  | append_singleton ops op ih =>
    rw [registryRun_concat] at hbinding
    rcases registryStep_verdicts (consistent_run ops) op peer binding staked hbinding hstaked with
      ⟨old, hold, hsame, hverdict⟩ | hverdict
    · obtain ⟨earlier, hearlier, hbrought⟩ := ih hold hverdict
      rw [hsame] at hbrought
      exact ⟨earlier, List.mem_append_left _ hearlier, hbrought⟩
    · exact ⟨op, List.mem_append_right _ (List.mem_singleton_self op), hverdict⟩

structure Lookups where
  state : RegistryState
  outstanding : List (PeerId × OperatorKey)

def Lookups.step (s : Lookups) (op : RegistryOp) : Lookups where
  state := registryStep s.state op
  outstanding :=
    match op with
    | .recordOperatorStake peer pubkey _ _ => s.outstanding.filter (· ≠ (peer, pubkey))
    | _ => s.outstanding ++ lookupsStarted s.state op

def Answers (s : Lookups) (op : RegistryOp) : Prop :=
  ∀ peer pubkey staked now, op = .recordOperatorStake peer pubkey staked now →
    (peer, pubkey) ∈ s.outstanding

/-- The peers in flight are those of the outstanding lookups, each with one. -/
structure Lookups.Single (s : Lookups) : Prop where
  nodup : (s.outstanding.map Prod.fst).Nodup
  inFlight : s.state.operatorsInFlight = (s.outstanding.map Prod.fst).toFinset

theorem Lookups.Single.answer {s : Lookups} (h : s.Single) {peer : PeerId} {pubkey : OperatorKey}
    (hmem : (peer, pubkey) ∈ s.outstanding) (staked : Option Bool) (now : Instant) :
    (s.step (.recordOperatorStake peer pubkey staked now)).Single := by
  have hflying := registryStep_lookups s.state (.recordOperatorStake peer pubkey staked now)
  refine ⟨h.nodup.sublist (List.filter_sublist.map Prod.fst), hflying.trans ?_⟩
  rw [h.inFlight]
  ext other
  simp only [Finset.mem_erase, List.mem_toFinset, List.mem_map, Lookups.step, List.mem_filter,
    decide_eq_true_eq]
  constructor
  · rintro ⟨hne, lookup, hlookup, rfl⟩
    exact ⟨lookup, ⟨hlookup, fun heq => hne (congrArg Prod.fst heq)⟩, rfl⟩
  · rintro ⟨lookup, ⟨hlookup, hne⟩, rfl⟩
    exact ⟨fun heq => hne (List.inj_on_of_nodup_map h.nodup hlookup hmem heq), lookup, hlookup, rfl⟩

theorem Lookups.Single.step {s : Lookups} (h : s.Single) (op : RegistryOp)
    (hanswers : Answers s op) : (s.step op).Single := by
  have hstep := registryStep_lookups s.state op
  cases op with
  | recordOperatorStake peer pubkey staked now =>
    exact h.answer (hanswers peer pubkey staked now rfl) staked now
  | _ =>
    constructor
    · change ((s.outstanding ++ lookupsStarted s.state _).map Prod.fst).Nodup
      rw [List.map_append]
      apply h.nodup.append hstep.nodup
      intro peer hpeer hagain
      obtain ⟨lookup, hlookup, rfl⟩ := List.mem_map.mp hagain
      apply hstep.fresh lookup hlookup
      rw [h.inFlight, List.mem_toFinset]
      exact hpeer
    · change (registryStep s.state _).operatorsInFlight =
        ((s.outstanding ++ lookupsStarted s.state _).map _).toFinset
      rw [hstep.inFlight, h.inFlight, List.map_append, List.toFinset_append]

/-- After every sequence of operations the two maps of the operators are inverse to each other, at
most the allowed number of peers is in flight, and a stake verdict was brought for the very key of
the binding it stands on. -/
theorem operator_registry_inverse (ops : List RegistryOp) :
    (∀ peer key, (∃ binding, (registryRun .default ops).operators.get? peer = some binding ∧
        binding.pubkey = key) ↔
        (registryRun .default ops).operatorOwner.get? key = some peer) ∧
      (registryRun .default ops).operatorsInFlight.card ≤ operatorMaxInFlightLookups ∧
      (∀ op, ((lookupsStarted (registryRun .default ops) op).map Prod.fst).Nodup ∧
        ∀ lookup ∈ lookupsStarted (registryRun .default ops) op,
          lookup.1 ∉ (registryRun .default ops).operatorsInFlight ∧
            lookup.1 ∈ (registryRun .default (ops ++ [op])).operatorsInFlight) ∧
      (∀ peer binding staked, (registryRun .default ops).operators.get? peer = some binding →
        binding.staked = some staked → ∃ op ∈ ops, op.Verdict peer binding.pubkey staked) ∧
      (Along Lookups.step Answers ⟨.default, []⟩ ops →
        ((ops.foldl Lookups.step ⟨.default, []⟩).outstanding.map Prod.fst).Nodup ∧
          (registryRun .default ops).operatorsInFlight =
            ((ops.foldl Lookups.step ⟨.default, []⟩).outstanding.map Prod.fst).toFinset) := by
  refine ⟨fun peer key => (consistent_run ops key peer).symm, inFlight_run ops, ?_, ?_, ?_⟩
  · intro op
    have hstep := registryStep_lookups (registryRun .default ops) op
    rw [registryRun_concat]
    cases op with
    | recordOperatorStake => exact ⟨List.nodup_nil, nofun⟩
    | _ =>
      refine ⟨hstep.nodup, fun lookup hlookup => ⟨hstep.fresh lookup hlookup, ?_⟩⟩
      rw [hstep.inFlight, Finset.mem_union, List.mem_toFinset]
      exact .inr (List.mem_map_of_mem hlookup)
  · intro peer binding staked hbinding hstaked
    exact verdicts_run ops hbinding hstaked
  · intro hanswers
    have hstate : (ops.foldl Lookups.step ⟨.default, []⟩).state = registryRun .default ops := by
      induction ops using List.reverseRecOn with
      | nil => rfl
      | append_singleton ops op ih =>
        rw [List.foldl_append, registryRun_concat, ← ih hanswers.of_append]
        rfl
    have hsingle : (ops.foldl Lookups.step ⟨.default, []⟩).Single :=
      hanswers.invariant ⟨List.nodup_nil, rfl⟩ fun s op hs => hs.step op
    rw [← hstate]
    exact ⟨hsingle.nodup, hsingle.inFlight⟩

end BitvmNode.Admission
