import BitvmNode.Admission.Committee

/-!
# Operator bindings

A binding says, with the signature of a master key, that the key belongs to a peer since a given
time.  A key goes to another peer only with a newer binding.
-/

namespace BitvmNode.Admission

open Reasoning

open PeerRegistry

/-- The two maps say the same: a key is owned by the peer that is bound to it. -/
def Consistent (state : RegistryState) : Prop :=
  ∀ key peer, state.operatorOwner.get? key = some peer ↔
    ∃ binding, state.operators.get? peer = some binding ∧ binding.pubkey = key

def enter (state : RegistryState) (peer : PeerId) (binding : OperatorBinding) : RegistryState :=
  { state with
    operatorOwner := state.operatorOwner.insert binding.pubkey peer
    operators := state.operators.insert peer binding }

/-- The maps agree on the other keys, none of which is the peer's, and no other peer is bound to
this key. -/
structure Cleared (state : RegistryState) (key : OperatorKey) (peer : PeerId) : Prop where
  others : ∀ other, other ≠ key → ∀ owner, state.operatorOwner.get? other = some owner ↔
    ∃ binding, state.operators.get? owner = some binding ∧ binding.pubkey = other ∧ owner ≠ peer
  bound : ∀ owner binding, state.operators.get? owner = some binding → binding.pubkey = key →
    owner = peer

variable {state : RegistryState}

theorem Cleared.enter {peer : PeerId} {binding : OperatorBinding}
    (h : Cleared state binding.pubkey peer) : Consistent (enter state peer binding) := by
  intro key owner
  change (state.operatorOwner.insert binding.pubkey peer).get? key = some owner ↔
    ∃ found, (state.operators.insert peer binding).get? owner = some found ∧ found.pubkey = key
  rw [Map.get?_insert, Map.get?_insert]
  by_cases hkey : key = binding.pubkey
  · rw [if_pos hkey]
    constructor
    · rintro ⟨rfl⟩
      exact ⟨binding, by rw [if_pos rfl], hkey.symm⟩
    · rintro ⟨found, hfound, hpubkey⟩
      by_cases howner : owner = peer
      · rw [howner]
      · rw [if_neg howner] at hfound
        exact absurd (h.bound owner found hfound (hpubkey.trans hkey)) howner
  · rw [if_neg hkey, h.others key hkey]
    constructor
    · rintro ⟨found, hfound, hpubkey, howner⟩
      exact ⟨found, by rw [if_neg howner]; exact hfound, hpubkey⟩
    · rintro ⟨found, hfound, hpubkey⟩
      by_cases howner : owner = peer
      · rw [if_pos howner] at hfound
        cases hfound
        exact absurd hpubkey.symm hkey
      · rw [if_neg howner] at hfound
        exact ⟨found, hfound, hpubkey, howner⟩

theorem Consistent.setBinding (h : Consistent state) {peer : PeerId} {old binding : OperatorBinding}
    (hold : state.operators.get? peer = some old) (hpubkey : binding.pubkey = old.pubkey) :
    Consistent { state with operators := state.operators.insert peer binding } := by
  intro key owner
  change state.operatorOwner.get? key = some owner ↔
    ∃ found, (state.operators.insert peer binding).get? owner = some found ∧ found.pubkey = key
  rw [h key owner, Map.get?_insert]
  by_cases howner : owner = peer
  · subst howner
    rw [if_pos rfl, hold]
    simp only [Option.some.injEq, exists_eq_left', hpubkey]
  · rw [if_neg howner]

structure Reduced (before after : RegistryState) (peer : PeerId) : Prop where
  operators : ∀ owner binding, owner ≠ peer → after.operators.get? owner = some binding →
    before.operators.get? owner = some binding
  owners : ∀ key owner, after.operatorOwner.get? key = some owner →
    before.operatorOwner.get? key = some owner

def newBinding (pubkey : OperatorKey) (issuedAt : Int) : OperatorBinding where
  pubkey := pubkey
  issuedAt := issuedAt
  staked := none
  fetchedAt := none
  trusted := false

def boundAs (previous : Option OperatorBinding) (pubkey : OperatorKey) (issuedAt : Int) :
    OperatorBinding × Bool :=
  match previous with
  | some previous =>
      if previous.pubkey = pubkey then
        ({ previous with issuedAt := max previous.issuedAt issuedAt }, false)
      else (newBinding pubkey issuedAt, previous.staked = some true)
  | none => (newBinding pubkey issuedAt, false)

/-- The key has an owner that is another peer, with a binding that is not older. -/
def HeldBack (state : RegistryState) (peer : PeerId) (pubkey : OperatorKey) (issuedAt : Int) :
    Prop :=
  ∃ owner binding, state.operatorOwner.get? pubkey = some owner ∧ owner ≠ peer ∧
    state.operators.get? owner = some binding ∧ issuedAt ≤ binding.issuedAt

structure Freed (before after : RegistryState) (peer : PeerId) (pubkey : OperatorKey) : Prop where
  own : after.operators.get? peer = before.operators.get? peer
  owners : after.operatorOwner = before.operatorOwner
  reduced : ∀ owner binding, after.operators.get? owner = some binding →
    before.operators.get? owner = some binding
  bound : ∀ owner binding, after.operators.get? owner = some binding → binding.pubkey = pubkey →
    owner = peer
  others : ∀ owner binding, before.operators.get? owner = some binding → binding.pubkey ≠ pubkey →
    after.operators.get? owner = some binding

theorem transferKey_spec (h : Consistent state) (peer : PeerId) (pubkey : OperatorKey)
    (issuedAt : Int) :
    (transferKey state peer pubkey issuedAt = none ∧ HeldBack state peer pubkey issuedAt) ∨
      ∃ freed, transferKey state peer pubkey issuedAt = some freed ∧
        ¬ HeldBack state peer pubkey issuedAt ∧ Freed state freed peer pubkey := by
  unfold transferKey
  cases howner : state.operatorOwner.get? pubkey with
  | none =>
    right
    refine ⟨state, rfl, ?_, rfl, rfl, fun _ _ hfound => hfound, ?_, fun _ _ hfound _ => hfound⟩
    · rintro ⟨owner, binding, howner', -⟩
      rw [howner] at howner'
      cases howner'
    · intro owner binding hfound hpubkey
      have hown := (h pubkey owner).mpr ⟨binding, hfound, hpubkey⟩
      cases howner.symm.trans hown
  | some owner =>
    have honly (other : PeerId) (binding : OperatorBinding) (hfound : state.operators.get? other =
        some binding)
        (hpubkey : binding.pubkey = pubkey) : other = owner := by
      have hown := (h pubkey other).mpr ⟨binding, hfound, hpubkey⟩
      rw [howner] at hown
      exact (Option.some.inj hown).symm
    by_cases hpeer : owner = peer
    · right
      subst hpeer
      refine ⟨state, by dsimp only; rw [if_pos rfl], ?_, rfl, rfl, fun _ _ hfound => hfound, honly,
        fun _ _ hfound _ => hfound⟩
      rintro ⟨other, binding, hother, hne, -⟩
      rw [howner] at hother
      exact hne (Option.some.inj hother).symm
    · obtain ⟨binding, hbinding, hpubkey⟩ := (h pubkey owner).mp howner
      dsimp only
      rw [if_neg hpeer, hbinding, Option.all_some]
      by_cases hnewer : binding.issuedAt < issuedAt
      · right
        rw [if_pos (decide_eq_true hnewer)]
        refine ⟨_, rfl, ?_, ?_, rfl, ?_, ?_, ?_⟩
        · rintro ⟨other, found, hother, -, hfound, hold⟩
          cases howner.symm.trans hother
          cases hbinding.symm.trans hfound
          omega
        · exact (Map.get?_remove _ _ _).trans (if_neg (Ne.symm hpeer))
        · exact fun other found hfound => (Map.get?_remove_eq_some.mp hfound).2
        · intro other found hfound hpubkey'
          obtain ⟨hne, hfound⟩ := Map.get?_remove_eq_some.mp hfound
          exact absurd (honly other found hfound hpubkey') hne
        · intro other found hfound hpubkey'
          refine Map.get?_remove_eq_some.mpr ⟨?_, hfound⟩
          rintro rfl
          cases hbinding.symm.trans hfound
          exact hpubkey' hpubkey
      · left
        rw [if_neg (by simpa using Int.not_lt.mp hnewer)]
        exact ⟨rfl, owner, binding, howner, hpeer, hbinding, Int.not_lt.mp hnewer⟩

theorem boundAs_pubkey (previous : Option OperatorBinding) (pubkey : OperatorKey) (issuedAt : Int) :
    (boundAs previous pubkey issuedAt).1.pubkey = pubkey := by
  unfold boundAs
  split
  · split
    next hpubkey => exact hpubkey
    next => rfl
  · rfl

variable {before : RegistryState} {pubkey : OperatorKey}

theorem Freed.cleared {freed kept : RegistryState} {peer : PeerId} (hconsistent : Consistent before)
    (hfreed : Freed before freed peer pubkey) (hoperators : kept.operators = freed.operators)
    (howners : ∀ key owner, key ≠ pubkey →
      (kept.operatorOwner.get? key = some owner ↔ before.operatorOwner.get? key = some owner ∧
        owner ≠ peer)) :
    Cleared kept pubkey peer := by
  constructor
  · intro key hkey owner
    rw [howners key owner hkey, hconsistent key owner, hoperators]
    constructor
    · rintro ⟨⟨binding, hfound, hpubkey⟩, hne⟩
      exact ⟨binding, hfreed.others owner binding hfound (hpubkey ▸ hkey), hpubkey, hne⟩
    · rintro ⟨binding, hfound, hpubkey, hne⟩
      exact ⟨⟨binding, hfreed.reduced owner binding hfound, hpubkey⟩, hne⟩
  · rw [hoperators]
    exact hfreed.bound

theorem evictOperators_cleared {peer : PeerId} (h : Cleared state pubkey peer)
    (now : Instant) : Cleared (evictOperators state now) pubkey peer := by
  have hoperators (owner : PeerId) : (evictOperators state now).operators.get? owner =
      (state.operators.get? owner).filter fun binding =>
        binding.isRegistered now || binding.trusted :=
    Map.get?_retain _ _ _
  have howners (key : OperatorKey) : (evictOperators state now).operatorOwner.get? key =
      (state.operatorOwner.get? key).filter fun owner =>
        ((evictOperators state now).operators.get? owner).isSome := Map.get?_retain _ _ _
  constructor
  · intro key hkey owner
    rw [howners, Option.filter_eq_some_iff, h.others key hkey owner, hoperators,
      Option.isSome_iff_exists]
    simp only [Option.filter_eq_some_iff]
    constructor
    · rintro ⟨⟨binding, hfound, hpubkey, hne⟩, found, hfound', hkept⟩
      rw [hfound] at hfound'
      cases hfound'
      exact ⟨binding, ⟨hfound, hkept⟩, hpubkey, hne⟩
    · rintro ⟨binding, ⟨hfound, hkept⟩, hpubkey, hne⟩
      exact ⟨⟨binding, hfound, hpubkey, hne⟩, binding, hfound, hkept⟩
  · intro owner binding hfound hpubkey
    rw [hoperators, Option.filter_eq_some_iff] at hfound
    exact h.bound owner binding hfound.1 hpubkey

theorem evictOperators_reduced {peer : PeerId} (h : Reduced before state peer)
    (now : Instant) : Reduced before (evictOperators state now) peer := by
  constructor
  · intro owner binding hne hfound
    have hkept : (evictOperators state now).operators.get? owner = _ := Map.get?_retain _ _ _
    rw [hkept, Option.filter_eq_some_iff] at hfound
    exact h.operators owner binding hne hfound.1
  · intro key owner hfound
    have hkept : (evictOperators state now).operatorOwner.get? key = _ := Map.get?_retain _ _ _
    rw [hkept, Option.filter_eq_some_iff] at hfound
    exact h.owners key owner hfound.1

/-- What an observation does: nothing if the key is held back; else the binding is entered, and
everything else that is there afterwards was there before. -/
theorem observe_spec (h : Consistent state) (peer : PeerId) (pubkey : OperatorKey) (issuedAt : Int)
    (now : Instant) :
    (HeldBack state peer pubkey issuedAt ∧ observeOperatorBinding state peer pubkey issuedAt now =
        (state, false)) ∨
      ¬ HeldBack state peer pubkey issuedAt ∧ ∃ kept, Reduced state kept peer ∧
      Cleared kept pubkey peer ∧
          observeOperatorBinding state peer pubkey issuedAt now =
            (enter kept peer (boundAs (state.operators.get? peer) pubkey issuedAt).1,
              (boundAs (state.operators.get? peer) pubkey issuedAt).2) := by
  unfold observeOperatorBinding
  rcases transferKey_spec h peer pubkey issuedAt with ⟨hnone, hheld⟩ | ⟨freed, hsome, hnot, hfreed⟩
  · left
    rw [hnone]
    exact ⟨hheld, rfl⟩
  · right
    refine ⟨hnot, ?_⟩
    rw [hsome]
    dsimp only
    rw [hfreed.own]
    have hreduced : Reduced state freed peer :=
      ⟨fun owner binding _ => hfreed.reduced owner binding,
        fun key owner => by rw [hfreed.owners]; exact id⟩
    unfold boundAs
    cases hprevious : state.operators.get? peer with
    | none =>
      have hcleared : Cleared freed pubkey peer := by
        refine hfreed.cleared h rfl fun key owner _ => ?_
        rw [hfreed.owners]
        refine ⟨fun howner => ⟨howner, ?_⟩, And.left⟩
        rintro rfl
        obtain ⟨binding, hfound, -⟩ := (h key owner).mp howner
        cases hprevious.symm.trans hfound
      dsimp only
      split
      · exact ⟨_, evictOperators_reduced hreduced now, evictOperators_cleared hcleared now, rfl⟩
      · exact ⟨_, hreduced, hcleared, rfl⟩
    | some previous =>
      have hown (key : OperatorKey) : state.operatorOwner.get? key = some peer ↔
        key = previous.pubkey := by
        rw [h key peer, hprevious]
        simp only [Option.some.injEq, exists_eq_left', eq_comm]
      dsimp only
      by_cases hpubkey : previous.pubkey = pubkey
      · rw [if_pos hpubkey, if_pos hpubkey]
        refine ⟨freed, hreduced, ?_, ?_⟩
        · refine hfreed.cleared h rfl fun key owner hkey => ?_
          rw [hfreed.owners]
          refine ⟨fun howner => ⟨howner, ?_⟩, And.left⟩
          rintro rfl
          exact hkey (((hown key).mp howner).trans hpubkey)
        · unfold enter
          rw [hpubkey]
      · rw [if_neg hpubkey, if_neg hpubkey]
        have hrelease : releaseKey freed peer previous.pubkey =
            { freed with operatorOwner := freed.operatorOwner.remove previous.pubkey } := by
          unfold releaseKey
          rw [hfreed.owners, if_pos ((hown _).mpr rfl)]
        rw [hrelease]
        refine ⟨_, ?_, ?_, rfl⟩
        · exact ⟨hreduced.operators, fun key owner howner =>
            hreduced.owners key owner (Map.get?_remove_eq_some.mp howner).2⟩
        · refine hfreed.cleared h rfl fun key owner hkey => ?_
          change (freed.operatorOwner.remove previous.pubkey).get? key = some owner ↔ _
          rw [Map.get?_remove_eq_some, hfreed.owners]
          constructor
          · rintro ⟨hne, howner⟩
            refine ⟨howner, ?_⟩
            rintro rfl
            exact hne ((hown key).mp howner)
          · rintro ⟨howner, hne⟩
            refine ⟨fun heq => hne ?_, howner⟩
            exact Option.some.inj (howner.symm.trans ((hown key).mpr heq))

theorem Consistent.of_same {after : RegistryState} (h : Consistent before)
    (hoperators : after.operators = before.operators)
    (howners : after.operatorOwner = before.operatorOwner) :
    Consistent after := by
  unfold Consistent
  rw [hoperators, howners]
  exact h

theorem Consistent.of_sameRecords {after : RegistryState} (h : Consistent before)
    (hsame : SameRecords before after) : Consistent after :=
  h.of_same hsame.operators hsame.operatorOwner

theorem Consistent.observe (h : Consistent state) (peer : PeerId) (pubkey : OperatorKey)
    (issuedAt : Int) (now : Instant) :
    Consistent (observeOperatorBinding state peer pubkey issuedAt now).1 := by
  rcases observe_spec h peer pubkey issuedAt now with ⟨-, hresult⟩ | ⟨-, kept, -, hcleared, hresult⟩
  · rw [hresult]
    exact h
  · rw [hresult]
    apply Cleared.enter
    rw [boundAs_pubkey]
    exact hcleared

theorem Consistent.trust {trusted : RegistryState} (h : Consistent state) {peer : PeerId}
    (htrust : trustOperatorBinding state peer pubkey = .ok trusted) : Consistent trusted := by
  unfold trustOperatorBinding at htrust
  split at htrust
  · cases htrust
  next hpeer =>
    split at htrust
    · cases htrust
    next hkey =>
      have hpubkey (binding : OperatorBinding) (hfound : state.operators.get? peer = some binding) :
          binding.pubkey = pubkey := by
        by_contra hne
        rw [hfound, Option.filter_some, if_pos (by simpa using hne)] at hpeer
        cases hpeer
      have howner (owner : PeerId) (hfound : state.operatorOwner.get? pubkey = some owner) :
        owner = peer := by
        by_contra hne
        rw [hfound, Option.filter_some, if_pos (by simpa using hne)] at hkey
        cases hkey
      have hcleared : Cleared state pubkey peer := by
        constructor
        · intro key hne owner
          rw [h key owner]
          constructor
          · rintro ⟨binding, hfound, hbound⟩
            refine ⟨binding, hfound, hbound, ?_⟩
            rintro rfl
            exact hne (hbound.symm.trans (hpubkey binding hfound))
          · rintro ⟨binding, hfound, hbound, -⟩
            exact ⟨binding, hfound, hbound⟩
        · intro owner binding hfound hbound
          exact howner owner ((h pubkey owner).mpr ⟨binding, hfound, hbound⟩)
      cases htrust
      have henter : ∀ binding : OperatorBinding, binding.pubkey = pubkey → Consistent
          { state with
            operatorOwner := state.operatorOwner.insert pubkey peer
            operators := state.operators.insert peer binding } := by
        rintro binding rfl
        exact hcleared.enter
      apply henter
      split
      next binding hfound => exact hpubkey binding hfound
      next => rfl

theorem Consistent.step (h : Consistent state) (op : RegistryOp) :
    Consistent (registryStep state op) := by
  cases op with
  | observeOperatorBinding peer pubkey issuedAt now => exact h.observe peer pubkey issuedAt now
  | trustOperatorBinding peer pubkey =>
    simp only [registryStep]
    split
    next trusted htrust => exact h.trust htrust
    next => exact h
  | planOperatorRefresh peer pubkey now =>
    exact h.of_sameRecords (SameRecords.claimOperatorRefresh state peer pubkey now)
  | planDueOperatorRefreshes now rank =>
    exact h.of_sameRecords (SameRecords.planDueOperatorRefreshes state now rank)
  | recordOperatorStake peer pubkey staked now =>
    simp only [registryStep, recordOperatorStake]
    split
    next staked binding hfound =>
      have h' : Consistent { state with operatorsInFlight := state.operatorsInFlight.erase peer } :=
        h
      exact h'.setBinding (Option.filter_eq_some_iff.mp hfound).1 rfl
    next => exact h
  | confirmSeededOperator peer pubkey now =>
    simp only [registryStep, confirmSeededOperator]
    split
    next binding hfound => exact h.setBinding (Option.filter_eq_some_iff.mp hfound).1 rfl
    next => exact h
  | seedVerifiedCommitteePeer | planDueCommitteeRefreshes | planRefresh | planCandidateLookup
  | planNeighbourLookup | planRefusedPeerLookup | recordVerifierSet | recordCommitteePeer =>
    exact h.of_same (SameOperators.of_step state rfl).operators
      (SameOperators.of_step state rfl).operatorOwner

theorem consistent_run (ops : List RegistryOp) : Consistent (registryRun .default ops) := by
  have hrun (state : RegistryState) (hstate : Consistent state) :
    Consistent (registryRun state ops) := by
    induction ops generalizing state with
    | nil => exact hstate
    | cons op ops ih => exact ih _ (hstate.step op)
  apply hrun
  intro key peer
  simp [RegistryState.default]

structure MovesForward (before after : RegistryState) (released : Bool) (peer : PeerId)
    (issuedAt : Int) : Prop where
  bindings : ∀ other old new, before.operators.get? other = some old →
    after.operators.get? other = some new → old.issuedAt ≤ new.issuedAt
  owners : ∀ key owner owner', before.operatorOwner.get? key = some owner →
    after.operatorOwner.get? key = some owner' → owner ≠ owner' →
    ∃ old new, before.operators.get? owner = some old ∧ old.pubkey = key ∧
      after.operators.get? owner' = some new ∧ new.pubkey = key ∧ old.issuedAt < new.issuedAt
  replays : ∀ current, before.operators.get? peer = some current → issuedAt < current.issuedAt →
    after.operators.get? peer = some current ∧ released = false

def RebindsBack (state : RegistryState) (peer : PeerId) (pubkey : OperatorKey) (issuedAt : Int) :
    Prop :=
  (∃ current, state.operators.get? peer = some current ∧ current.pubkey ≠ pubkey ∧
    issuedAt < current.issuedAt) ∧ ¬ HeldBack state peer pubkey issuedAt

theorem le_boundAs (previous : Option OperatorBinding) (pubkey : OperatorKey) (issuedAt : Int) :
    issuedAt ≤ (boundAs previous pubkey issuedAt).1.issuedAt := by
  unfold boundAs
  split
  · split
    · exact le_max_right _ _
    · exact le_refl _
  · exact le_refl _

theorem observe_movesForward_iff (h : Consistent state) (peer : PeerId) (pubkey : OperatorKey)
    (issuedAt : Int) (now : Instant) :
    MovesForward state (observeOperatorBinding state peer pubkey issuedAt now).1
        (observeOperatorBinding state peer pubkey issuedAt now).2 peer issuedAt ↔
      ¬ RebindsBack state peer pubkey issuedAt := by
  have hconsistent := h.observe peer pubkey issuedAt now
  rcases observe_spec h peer pubkey issuedAt now with
    ⟨hheld, hresult⟩ | ⟨hfree, kept, hreduced, hcleared, hresult⟩
  · -- nothing changes
    rw [hresult]
    refine ⟨fun _ hback => hback.2 hheld, fun _ => ⟨?_, ?_, fun _ hcurrent _ => ⟨hcurrent, rfl⟩⟩⟩
    · intro other old new hold hnew
      cases hold.symm.trans hnew
      exact le_refl _
    · intro key owner owner' howner howner' hne
      rw [howner] at howner'
      exact absurd (Option.some.inj howner') hne
  · rw [hresult] at hconsistent ⊢
    have hbound := boundAs_pubkey (state.operators.get? peer) pubkey issuedAt
    have hissued := le_boundAs (state.operators.get? peer) pubkey issuedAt
    constructor
    · rintro hforward ⟨⟨current, hcurrent, hne, hold⟩, -⟩
      have hnew : boundAs (state.operators.get? peer) pubkey issuedAt =
          (newBinding pubkey issuedAt, decide (current.staked = some true)) := by
        rw [hcurrent]
        exact if_neg hne
      have hle := hforward.bindings peer current _ hcurrent (Map.get?_insert_self _ _ _)
      rw [hnew] at hle
      exact absurd hle (Int.not_le.mpr hold)
    · intro hback
      -- an older binding of the peer is one to the same key
      have hreplay (current : OperatorBinding) (hcurrent : state.operators.get? peer = some current)
          (hold : issuedAt < current.issuedAt) :
          boundAs (state.operators.get? peer) pubkey issuedAt = (current, false) := by
        have hsame : current.pubkey = pubkey := by
          by_contra hne
          exact hback ⟨⟨current, hcurrent, hne, hold⟩, hfree⟩
        rw [hcurrent, boundAs, if_pos hsame, max_eq_left (le_of_lt hold)]
      generalize boundAs (state.operators.get? peer) pubkey issuedAt = bound at *
      have hown : (enter kept peer bound.1).operators.get? peer = some bound.1 :=
        Map.get?_insert_self _ _ _
      have hkept (other : PeerId) (new : OperatorBinding) (hne : other ≠ peer)
          (hnew : (enter kept peer bound.1).operators.get? other = some new) :
          state.operators.get? other = some new := by
        refine hreduced.operators other new hne ?_
        rw [← hnew]
        exact (Map.get?_insert_of_ne _ hne).symm
      refine ⟨?_, ?_, ?_⟩
      · intro other old new hold hnew
        by_cases hpeer : other = peer
        · subst hpeer
          cases hown.symm.trans hnew
          rcases Int.lt_or_le issuedAt old.issuedAt with hlt | hle
          · rw [hreplay old hold hlt]
          · exact le_trans hle hissued
        · rw [hkept other new hpeer hnew] at hold
          cases hold
          exact le_refl _
      · intro key owner owner' howner howner' hne
        obtain ⟨old, hold, hpubkey⟩ := (h key owner).mp howner
        obtain ⟨new, hnew, hpubkey'⟩ := (hconsistent key owner').mp howner'
        refine ⟨old, new, hold, hpubkey, hnew, hpubkey', ?_⟩
        by_cases hpeer : owner' = peer
        · subst hpeer
          cases hown.symm.trans hnew
          have hkey : key = pubkey := hpubkey'.symm.trans hbound
          have hnewer : old.issuedAt < issuedAt := by
            by_contra hlt
            exact hfree ⟨owner, old, hkey ▸ howner, hne, hold, Int.not_lt.mp hlt⟩
          exact lt_of_lt_of_le hnewer hissued
        · -- a binding of another peer was there before, with its key
          have hsame := (h key owner').mpr ⟨new, hkept owner' new hpeer hnew, hpubkey'⟩
          rw [howner] at hsame
          exact absurd (Option.some.inj hsame) hne
      · intro current hcurrent hold
        rw [hown, hreplay current hcurrent hold]
        exact ⟨rfl, rfl⟩

/-- In every history the bindings move forward with each observation exactly if no peer is rebound
by an older binding to another key. -/
theorem bindings_move_forward_iff (ops : List RegistryOp) :
    (∀ before peer pubkey issuedAt now after,
        ops = before ++ .observeOperatorBinding peer pubkey issuedAt now :: after →
        MovesForward (registryRun .default before)
          (observeOperatorBinding (registryRun .default before) peer pubkey issuedAt now).1
          (observeOperatorBinding (registryRun .default before) peer pubkey issuedAt now).2
            peer issuedAt) ↔
      ∀ before peer pubkey issuedAt now after,
        ops = before ++ .observeOperatorBinding peer pubkey issuedAt now :: after →
        ¬ RebindsBack (registryRun .default before) peer pubkey issuedAt := by
  simp only [observe_movesForward_iff (consistent_run _)]

/-- A self-declared record of a node.  The fields that only `validate` reads are kept as bytes. -/
structure NodeInfo where
  (peerId actor bindingSig : String)
  bindingIssuedAt : Int
  rest : Bytes

structure NodeInfoChecks where
  displayPeer : PeerId → String
  parsePeer : String → Option PeerId
  validate : NodeInfo → Except String Unit
  verifyNodeInfoBinding : NodeInfo → Option OperatorKey

def nodeInfoBindingMaxFutureSecs : Int := 10 * 60

section NodeInfoMessages

variable (checks : NodeInfoChecks)

def checkNodeInfo (fromPeer : PeerId) (currentTimeSecs : Int)
    (info : NodeInfo) : Except String Unit := do
  if info.peerId ≠ checks.displayPeer fromPeer then
    throw s!"payload claims peer_id {info.peerId}"
  checks.validate info
  if info.bindingSig = "" then return
  if (checks.verifyNodeInfoBinding info).isNone then
    throw "node info binding signature is invalid"
  -- a binding of the future would win against every honest one until then
  if info.bindingIssuedAt > currentTimeSecs + nodeInfoBindingMaxFutureSecs then
    throw "node info binding is dated in the future"

def learnNodeInfoBinding (state : RegistryState) (info : NodeInfo) (now : Instant) :
    RegistryState × Bool :=
  if info.actor ≠ "Operator" then (state, false)
  else
    match checks.verifyNodeInfoBinding info, checks.parsePeer info.peerId with
    | some operatorKey, some peer =>
        observeOperatorBinding state peer operatorKey info.bindingIssuedAt now
    | _, _ => (state, false)

end NodeInfoMessages

namespace Replay

def peer : PeerId := ⟨[1]⟩

def checks : NodeInfoChecks where
  displayPeer := fun _ => "peer"
  parsePeer := fun _ => some peer
  validate := fun _ => .ok ()
  verifyNodeInfoBinding := fun info => some (beBytes32 (beNat info.rest))

def announced (key : UInt8) (issuedAt : Int) : NodeInfo :=
  ⟨"peer", "Operator", "sig", issuedAt, [key]⟩

def history : List RegistryOp :=
  [.observeOperatorBinding peer (beBytes32 1) 200 0,
    .recordOperatorStake peer (beBytes32 1) (some true) 1]

/-- A message of earlier passes the check, moves the peer back to its former key and revokes its
registration. -/
theorem older_message_rebinds : checkNodeInfo checks peer 300 (announced 2 100) = .ok () ∧
      senderClass (registryRun .default history) peer 2 = .registered ∧
      (learnNodeInfoBinding checks (registryRun .default history) (announced 2 100) 2).2 = true ∧
      senderClass (learnNodeInfoBinding checks (registryRun .default history) (announced 2 100) 2).1
        peer 2 =
        .unregistered ∧
      ¬ ∀ before peer pubkey issuedAt now after, history ++
          [.observeOperatorBinding Replay.peer (beBytes32 2) 100 2] =
          before ++ .observeOperatorBinding peer pubkey issuedAt now :: after →
        MovesForward (registryRun .default before)
          (observeOperatorBinding (registryRun .default before) peer pubkey issuedAt now).1
          (observeOperatorBinding (registryRun .default before) peer pubkey issuedAt now).2 peer
            issuedAt := by
  refine ⟨rfl, by decide +kernel, by decide +kernel, by decide +kernel, ?_⟩
  intro h
  have hforward := h history peer (beBytes32 2) 100 2 [] rfl
  have hcurrent : (registryRun .default history).operators.get? peer =
      some ⟨beBytes32 1, 200, some true, some 1, false⟩ := by decide +kernel
  have hreleased : (observeOperatorBinding (registryRun .default history) peer
    (beBytes32 2) 100 2).2 = true := by
    decide +kernel
  have hkept := (hforward.replays _ hcurrent (by decide)).2
  cases hkept

end Replay

end BitvmNode.Admission
