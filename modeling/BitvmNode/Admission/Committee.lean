import Mathlib.Data.List.Induction
import Mathlib.Tactic.Linarith
import BitvmNode.Admission.Registry

/-!
# The committee in the registry

How long a positive verdict counts.
-/

namespace BitvmNode.Admission

open Reasoning

open PeerRegistry

def Denies (op : RegistryOp) (peer : PeerId) : Prop :=
  ∃ now rank, op = .recordCommitteePeer peer (some false) now rank

/-- The operation dates the entry of the peer: a positive verdict, or the restored entry of a peer
that has none. -/
def Dates (state : RegistryState) (op : RegistryOp) (peer : PeerId) (fetchedAt : Instant) : Prop :=
  (∃ rank, op = .recordCommitteePeer peer (some true) fetchedAt rank) ∨
    ∃ now, op = .seedVerifiedCommitteePeer peer now ∧ state.committee.get? peer = none ∧
      fetchedAt = seededFetchedAt now committeeStaleLimit

/-- The operation drops the entry of the peer: it is a verdict for a peer without an entry, it finds
the table full, and the entry is due for a refresh. -/
def Drops (state : RegistryState) (op : RegistryOp) (peer : PeerId) : Prop :=
  ∃ other registered now rank entry, op = .recordCommitteePeer other (some registered) now rank ∧
    state.committee.get? other = none ∧ committeeCacheMaxEntries ≤ state.committee.size ∧
    state.committee.get? peer = some entry ∧ entry.needsRefresh now = true

def NotDenied (state : RegistryState) (peer : PeerId) : Prop :=
  ∀ entry, state.committee.get? peer = some entry → entry.registered = true

variable {peer : PeerId}

theorem get?_makeRoom {committee roomy : Map PeerId CommitteeEntry} {registered : Bool}
    {now : Instant} {rank : PeerId → Nat}
    (hentry : ∀ entry, committee.get? peer = some entry → entry.registered = true)
    (hroom : makeRoom committee registered now rank = some roomy) : roomy.get? peer =
      if committeeCacheMaxEntries ≤ committee.size then (committee.get? peer).filter fun entry =>
        !entry.needsRefresh now
      else committee.get? peer := by
  dsimp only [makeRoom] at hroom
  have hretained := Map.get?_retain committee (fun _ entry => !entry.needsRefresh now) peer
  split at hroom
  next hfull =>
    rw [if_pos hfull, ← hretained]
    split at hroom
    · split at hroom
      · split at hroom
        next evict victim hfound =>
          -- the victim is not registered, so it is another peer
          cases hroom
          have hvictim : committee.get? evict = some victim ∧ victim.registered = false := by
            have hmem := Map.mem_iterate.mp (List.mem_of_find?_eq_some hfound)
            have hkept := Map.get?_retain committee (fun _ entry => !entry.needsRefresh now) evict
            rw [hmem] at hkept
            exact ⟨(Option.filter_eq_some_iff.mp
              hkept.symm).1, by simpa using List.find?_some hfound⟩
          have hne : peer ≠ evict := by
            rintro rfl
            exact Bool.false_ne_true (hvictim.2.symm.trans (hentry victim hvictim.1))
          rw [Map.get?_remove, if_neg hne]
        next =>
          cases hroom
          rfl
      · cases hroom
    · cases hroom
      rfl
  next hroomy =>
    cases hroom
    rw [if_neg hroomy]

theorem recordCommitteePeer_positive (state : RegistryState) (peer : PeerId) (now : Instant)
    (rank : PeerId → Nat) :
    (recordCommitteePeer state peer (some true) now rank).1.committee.get? peer =
      some ⟨true, now⟩ := by
  have hroom : (makeRoom state.committee true now rank).isSome = true := by
    dsimp only [makeRoom]
    split
    · split
      · rw [if_pos rfl]
        split <;> rfl
      · rfl
    · rfl
  dsimp only [recordCommitteePeer]
  split
  next committee hcommittee => exact Map.get?_insert_self _ _ _
  next hnone =>
    split at hnone
    · cases hnone
    · rw [hnone] at hroom
      cases hroom

variable {state : RegistryState}

theorem recordCommitteePeer_other {other : PeerId} (hne : peer ≠ other)
    (hentry : NotDenied state peer) (registered : Bool) (now : Instant) (rank : PeerId → Nat) :
    (recordCommitteePeer state other (some registered) now rank).1.committee.get? peer =
      if state.committee.get? other = none ∧ committeeCacheMaxEntries ≤ state.committee.size then
        (state.committee.get? peer).filter fun entry => !entry.needsRefresh now
      else state.committee.get? peer := by
  dsimp only [recordCommitteePeer]
  cases hother : state.committee.get? other with
  | some entry =>
    rw [Option.isSome_some, if_pos rfl, if_neg fun h => nomatch h.1]
    exact Map.get?_insert_of_ne _ hne
  | none =>
    rw [Option.isSome_none, if_neg Bool.false_ne_true]
    cases hroom : makeRoom state.committee registered now rank with
    | some committee =>
      dsimp only
      rw [Map.get?_insert_of_ne _ hne, get?_makeRoom hentry hroom]
      simp only [true_and]
    | none =>
      have hfull : committeeCacheMaxEntries ≤ state.committee.size := by
        by_contra hroomy
        unfold makeRoom at hroom
        rw [if_neg hroomy] at hroom
        cases hroom
      rw [if_pos ⟨rfl, hfull⟩]
      exact Map.get?_retain _ _ _

theorem observeOperatorBinding_frame (state : RegistryState) (peer : PeerId) (pubkey : OperatorKey)
    (issuedAt : Int) (now : Instant) :
    (observeOperatorBinding state peer pubkey issuedAt now).1.committee = state.committee ∧
      (observeOperatorBinding state peer pubkey issuedAt now).1.operatorsInFlight =
        state.operatorsInFlight := by
  have htransfer : ∀ moved, transferKey state peer pubkey issuedAt = some moved →
      moved.committee = state.committee ∧ moved.operatorsInFlight = state.operatorsInFlight := by
    intro moved hmoved
    unfold transferKey at hmoved
    split at hmoved
    · cases hmoved
      exact ⟨rfl, rfl⟩
    · split at hmoved
      · cases hmoved
        exact ⟨rfl, rfl⟩
      · split at hmoved
        · cases hmoved
          exact ⟨rfl, rfl⟩
        · cases hmoved
  unfold observeOperatorBinding
  split
  · exact ⟨rfl, rfl⟩
  next moved hmoved =>
    rw [← (htransfer moved hmoved).1, ← (htransfer moved hmoved).2]
    split
    next previous hprevious =>
      split
      · exact ⟨rfl, rfl⟩
      · dsimp only [releaseKey, bindOperator]
        split <;> exact ⟨rfl, rfl⟩
    next =>
      dsimp only [bindOperator]
      split <;> exact ⟨rfl, rfl⟩

variable {op : RegistryOp}

theorem committee_step_dates {fetchedAt : Instant} (h : Dates state op peer fetchedAt) :
    (registryStep state op).committee.get? peer = some ⟨true, fetchedAt⟩ := by
  rcases h with ⟨rank, rfl⟩ | ⟨now, rfl, hnone, rfl⟩
  · exact recordCommitteePeer_positive state peer fetchedAt rank
  · change (seedVerifiedCommitteePeer state peer now).committee.get? peer = _
    unfold seedVerifiedCommitteePeer
    rw [hnone]
    exact Map.get?_insert_self _ _ _

theorem committee_step_drops (hentry : NotDenied state peer) (h : Drops state op peer) :
    (registryStep state op).committee.get? peer = none := by
  obtain ⟨other, registered, now, rank, entry, rfl, hother, hfull, hpeer, hdue⟩ := h
  have hne : peer ≠ other := by
    rintro rfl
    cases hother.symm.trans hpeer
  change (recordCommitteePeer state other (some registered) now rank).1.committee.get? peer = none
  rw [recordCommitteePeer_other hne hentry, if_pos ⟨hother, hfull⟩, hpeer, Option.filter_some, hdue]
  rfl

theorem committee_step_kept (hentry : NotDenied state peer) (hdenies : ¬ Denies op peer)
    (hdates : ∀ fetchedAt, ¬ Dates state op peer fetchedAt) (hdrops : ¬ Drops state op peer) :
    (registryStep state op).committee.get? peer = state.committee.get? peer := by
  cases op with
  | observeOperatorBinding other pubkey issuedAt now =>
    exact congrArg (Map.get? · peer)
      (observeOperatorBinding_frame state other pubkey issuedAt now).1
  | trustOperatorBinding other pubkey =>
    simp only [registryStep, trustOperatorBinding]
    split
    next trusted htrusted =>
      split at htrusted
      · cases htrusted
      · split at htrusted
        · cases htrusted
        · cases htrusted
          rfl
    next => rfl
  | planOperatorRefresh other pubkey now =>
    exact congrArg (Map.get? · peer)
      (SameRecords.claimOperatorRefresh state other pubkey now).committee
  | planDueOperatorRefreshes now rank =>
    exact congrArg (Map.get? · peer) (SameRecords.planDueOperatorRefreshes state now rank).committee
  | recordOperatorStake other pubkey staked now =>
    simp only [registryStep, recordOperatorStake]
    split <;> rfl
  | confirmSeededOperator other pubkey now =>
    simp only [registryStep, confirmSeededOperator]
    split <;> rfl
  | seedVerifiedCommitteePeer other now =>
    simp only [registryStep, seedVerifiedCommitteePeer]
    split
    · rfl
    next hnone =>
      have hne : peer ≠ other := by
        rintro rfl
        exact hdates _ (.inr ⟨now, rfl, hnone, rfl⟩)
      exact Map.get?_insert_of_ne _ hne
  | planDueCommitteeRefreshes now rank => rfl
  | planRefresh other now =>
    exact congrArg (Map.get? · peer) (CommitteePlan.planRefresh state other now).committee
  | planCandidateLookup other now =>
    exact congrArg (Map.get? · peer)
      (CommitteePlan.claimCommitteeLookup state other .candidate now).committee
  | planNeighbourLookup other now =>
    exact congrArg (Map.get? · peer)
      (CommitteePlan.claimCommitteeLookup state other .neighbour now).committee
  | planRefusedPeerLookup other now =>
    exact congrArg (Map.get? · peer)
      (CommitteePlan.claimCommitteeLookup state other .refused now).committee
  | recordVerifierSet verifiers now => cases verifiers <;> rfl
  | recordCommitteePeer other registered now rank =>
    cases registered with
    | none => rfl
    | some registered =>
      have hne : peer ≠ other := by
        rintro rfl
        cases registered with
        | true => exact hdates now (.inl ⟨rank, rfl⟩)
        | false => exact hdenies ⟨now, rank, rfl⟩
      change (recordCommitteePeer state other (some registered) now rank).1.committee.get? peer = _
      rw [recordCommitteePeer_other hne hentry]
      split
      next hfull =>
        -- an entry that is not due stays
        cases hpeer : state.committee.get? peer with
        | none => rfl
        | some entry =>
          have hfresh : entry.needsRefresh now = false := by
            apply Bool.eq_false_of_not_eq_true
            intro hdue
            exact hdrops ⟨other, registered, now, rank, entry, rfl, hfull.1, hfull.2, hpeer, hdue⟩
          rw [Option.filter_some, hfresh]
          rfl
      next => rfl

theorem NotDenied.step (hentry : NotDenied state peer)
    (hdenies : ¬ Denies op peer) : NotDenied (registryStep state op) peer := by
  intro entry hfound
  by_cases hdates : ∃ fetchedAt, Dates state op peer fetchedAt
  · obtain ⟨fetchedAt, hdates⟩ := hdates
    rw [committee_step_dates hdates] at hfound
    cases hfound
    rfl
  · by_cases hdrops : Drops state op peer
    · rw [committee_step_drops hentry hdrops] at hfound
      cases hfound
    · rw [committee_step_kept hentry hdenies (not_exists.mp hdates) hdrops] at hfound
      exact hentry entry hfound

def Untouched (peer : PeerId) : RegistryState → List RegistryOp → Prop
  | _, [] => True
  | state, op :: ops =>
      ((∀ fetchedAt, ¬ Dates state op peer fetchedAt) ∧ ¬ Drops state op peer) ∧
        Untouched peer (registryStep state op) ops

def LastDated (peer : PeerId) (fetchedAt : Instant) : RegistryState → List RegistryOp → Prop
  | _, [] => False
  | state, op :: ops =>
      LastDated peer fetchedAt (registryStep state op) ops ∨
        Dates state op peer fetchedAt ∧ Untouched peer (registryStep state op) ops

theorem committee_step_iff (fetchedAt : Instant) (hentry : NotDenied state peer)
    (hdenies : ¬ Denies op peer) :
    (registryStep state op).committee.get? peer = some ⟨true, fetchedAt⟩ ↔
    Dates state op peer fetchedAt ∨
        ((∀ at_, ¬ Dates state op peer at_) ∧ ¬ Drops state op peer) ∧
          state.committee.get? peer = some ⟨true, fetchedAt⟩ := by
  by_cases hdates : ∃ at_, Dates state op peer at_
  · obtain ⟨at_, hdates⟩ := hdates
    constructor
    · intro hfound
      rw [committee_step_dates hdates] at hfound
      cases hfound
      exact .inl hdates
    · rintro (hdates' | ⟨⟨hnone, -⟩, -⟩)
      · exact committee_step_dates hdates'
      · exact absurd hdates (hnone at_)
  · have hdates := not_exists.mp hdates
    by_cases hdrops : Drops state op peer
    · rw [committee_step_drops hentry hdrops]
      constructor
      · nofun
      · rintro (hdates' | ⟨⟨-, hkept⟩, -⟩)
        · exact absurd hdates' (hdates fetchedAt)
        · exact absurd hdrops hkept
    · rw [committee_step_kept hentry hdenies hdates hdrops]
      constructor
      · intro hfound
        exact .inr ⟨⟨hdates, hdrops⟩, hfound⟩
      · rintro (hdates' | ⟨-, hfound⟩)
        · exact absurd hdates' (hdates fetchedAt)
        · exact hfound

theorem committee_run_iff (fetchedAt : Instant) (ops : List RegistryOp) (state : RegistryState)
    (hentry : NotDenied state peer) (hdenies : ∀ op ∈ ops, ¬ Denies op peer) :
    (registryRun state ops).committee.get? peer = some ⟨true, fetchedAt⟩ ↔
    LastDated peer fetchedAt state ops ∨
        Untouched peer state ops ∧ state.committee.get? peer = some ⟨true, fetchedAt⟩ := by
  induction ops generalizing state with
  | nil => simp [registryRun, LastDated, Untouched]
  | cons op ops ih =>
    have hop := hdenies op List.mem_cons_self
    have hrest := ih (registryStep state op) (hentry.step hop) fun op hmem =>
      hdenies op (List.mem_cons_of_mem _ hmem)
    change (registryRun (registryStep state op) ops).committee.get? peer = _ ↔ _
    rw [hrest, committee_step_iff fetchedAt hentry hop]
    simp only [LastDated, Untouched]
    tauto

theorem NotDenied.run (ops : List RegistryOp) (state : RegistryState)
    (hentry : NotDenied state peer) (hdenies : ∀ op ∈ ops, ¬ Denies op peer) :
    NotDenied (registryRun state ops) peer := by
  induction ops generalizing state with
  | nil => exact hentry
  | cons op ops ih =>
    exact ih _ (hentry.step (hdenies op List.mem_cons_self)) fun op hmem =>
      hdenies op (List.mem_cons_of_mem _ hmem)

theorem senderClass_eq_committee_iff (state : RegistryState) (peer : PeerId) (now : Instant) :
    senderClass state peer now = .committee ↔
      ∃ entry, state.committee.get? peer = some entry ∧ entry.isRegistered now = true := by
  unfold senderClass
  cases state.committee.get? peer with
  | none =>
    rw [Option.any_none, if_neg Bool.false_ne_true]
    split <;> simp
  | some entry =>
    cases hregistered : entry.isRegistered now with
    | true => simp [hregistered]
    | false =>
      rw [Option.any_some, hregistered, if_neg Bool.false_ne_true]
      split <;> simp [hregistered]

theorem class_lasts_iff (hentry : NotDenied state peer) (t : Instant) :
    (∀ now, t ≤ now → now < t + committeeStaleLimit → senderClass state peer now = .committee) ↔
      ∃ fetchedAt, t ≤ fetchedAt ∧ state.committee.get? peer = some ⟨true, fetchedAt⟩ := by
  have hregistered (fetchedAt now : Int) :
      CommitteeEntry.isRegistered ⟨true, fetchedAt⟩ now = true ↔
        now < fetchedAt + committeeStaleLimit := by
    unfold CommitteeEntry.isRegistered
    rw [Bool.true_and, decide_eq_true_eq]
    exact Instant.saturatingDurationSince_lt_iff (by decide) now fetchedAt
  constructor
  · intro h
    -- the last moment of the interval decides
    have hlimit : (1 : Int) ≤ committeeStaleLimit := by decide
    obtain ⟨⟨registered, fetchedAt⟩, hfound, hlast⟩ := (senderClass_eq_committee_iff _ _ _).mp
      (h (t + committeeStaleLimit - 1) (by linarith) (by linarith))
    obtain rfl : registered = true := hentry _ hfound
    rw [hregistered] at hlast
    exact ⟨fetchedAt, by linarith [Int.add_one_le_iff.mpr hlast], hfound⟩
  · rintro ⟨fetchedAt, hfetched, hfound⟩ now hfrom huntil
    refine (senderClass_eq_committee_iff _ _ _).mpr ⟨_, hfound, ?_⟩
    rw [hregistered]
    linarith

/-- After a positive verdict at `t` that is not contradicted, the peer is in the committee's class
until `t` is stale exactly if the last operation that concerns its entry dates it at `t` or
later. -/
theorem committee_class_kept_iff (state : RegistryState) (peer : PeerId) (t : Instant)
    (rank : PeerId → Nat) (ops : List RegistryOp) (h : ∀ op ∈ ops, ¬ Denies op peer) :
    (∀ now, t ≤ now → now < t + committeeStaleLimit →
        senderClass (registryRun state (.recordCommitteePeer peer (some true) t rank :: ops)) peer
          now = .committee) ↔
      ∃ fetchedAt, t ≤ fetchedAt ∧
        LastDated peer fetchedAt state (.recordCommitteePeer peer (some true) t rank :: ops) := by
  let verdict := RegistryOp.recordCommitteePeer peer (some true) t rank
  have hdates : Dates state verdict peer t := .inl ⟨rank, rfl⟩
  have hstored : NotDenied (registryStep state verdict) peer := by
    intro entry hfound
    rw [committee_step_dates hdates] at hfound
    cases hfound
    rfl
  change (∀ now, t ≤ now → now < t + committeeStaleLimit →
    senderClass (registryRun (registryStep state verdict) ops) peer now = .committee) ↔ _
  rw [class_lasts_iff (hstored.run ops _ h)]
  refine exists_congr fun fetchedAt => and_congr_right fun hfetched => ?_
  rw [committee_run_iff fetchedAt ops _ hstored h, committee_step_dates hdates]
  -- the verdict itself dates the entry at `t`
  have hsame : Dates state verdict peer fetchedAt ↔
    some (⟨true, t⟩ : CommitteeEntry) = some ⟨true, fetchedAt⟩ := by
    constructor
    · intro hdates'
      rw [← committee_step_dates hdates, committee_step_dates hdates']
    · intro heq
      cases heq
      exact hdates
  simp only [LastDated]
  rw [← hsame, and_comm]

namespace CachePressure

def member : PeerId := ⟨[]⟩

def stranger (i : Nat) : PeerId := ⟨beBytes 4 i⟩

theorem stranger_inj {i j : Nat} (hi : i < 2 ^ 32) (hj : j < 2 ^ 32) (h : stranger i = stranger j) :
    i = j := by
  have hbytes := congrArg (beNat ∘ PeerId.toBytes) h
  simp only [stranger, Function.comp, beNat_beBytes] at hbytes
  omega

theorem stranger_ne_member (i : Nat) : stranger i ≠ member := by
  intro h
  have hlength := congrArg (List.length ∘ PeerId.toBytes) h
  simp [stranger, member, beBytes_length] at hlength

def later : Instant := committeePositiveTtl

def confirmed : RegistryOp := .recordCommitteePeer member (some true) 0 fun _ => 0

def turnedAway (i : Nat) : RegistryOp :=
  .recordCommitteePeer (stranger i) (some false) later fun _ => 0

structure Filling (n : Nat) (state : RegistryState) : Prop where
  size : state.committee.size = n + 1
  kept : state.committee.get? member = some ⟨true, 0⟩
  absent : ∀ i, n ≤ i → i < 2 ^ 32 → state.committee.get? (stranger i) = none
  others : state.verifiers = ∅ ∧ state.operators = Map.empty

theorem filling_start : Filling 0 (registryRun .default [confirmed]) where
  size := by decide
  kept := by decide
  absent := by
    intro i _ _
    change (Map.insert Map.empty member ⟨true, 0⟩).get? (stranger i) = none
    rw [Map.get?_insert_of_ne _ (stranger_ne_member i)]
    rfl
  others := ⟨rfl, rfl⟩

variable {n : Nat}

theorem Filling.step {state : RegistryState} (h : Filling n state)
    (hn : n + 1 < committeeCacheMaxEntries) :
    Filling (n + 1) (registryStep state (turnedAway n)) := by
  have hmax : committeeCacheMaxEntries = 4096 := rfl
  have hnew : state.committee.get? (stranger n) = none := h.absent n (Nat.le_refl n) (by omega)
  have hroomy : ¬ committeeCacheMaxEntries ≤ state.committee.size := by rw [h.size]; omega
  have hstep : registryStep state (turnedAway n) =
      { state with
        committeeInFlight := state.committeeInFlight.erase (stranger n)
        committee := state.committee.insert (stranger n) ⟨false, later⟩ } := by
    simp only [registryStep, turnedAway, recordCommitteePeer, hnew, Option.isSome_none,
      Bool.false_eq_true, if_false, makeRoom, hroomy]
  rw [hstep]
  refine ⟨?_, ?_, ?_, h.others⟩
  · change (state.committee.insert (stranger n) ⟨false, later⟩).size = n + 1 + 1
    rw [Map.size_insert_of_none _ hnew, h.size]
  · exact (Map.get?_insert_of_ne _ (Ne.symm (stranger_ne_member n))).trans h.kept
  · intro i hi hsmall
    have hne : stranger i ≠ stranger n := by
      intro heq
      have := stranger_inj hsmall (by omega) heq
      omega
    exact (Map.get?_insert_of_ne _ hne).trans (h.absent i (by omega) hsmall)

theorem filling (hn : n < committeeCacheMaxEntries) :
    Filling n (registryRun .default (confirmed :: (List.range n).map turnedAway)) := by
  induction n with
  | zero => exact filling_start
  | succ n ih =>
    rw [List.range_succ, List.map_append, ← List.cons_append, registryRun_append]
    exact (ih (by omega)).step hn

theorem Filling.full {state : RegistryState} (h : Filling n state)
    (hn : n + 1 = committeeCacheMaxEntries) :
    senderClass (registryStep state (turnedAway n)) member later = .unregistered := by
  have hentry : NotDenied state member := by
    intro entry hfound
    cases h.kept.symm.trans hfound
    rfl
  have hdrops : Drops state (turnedAway n) member := by
    refine ⟨stranger n, false, later, fun _ => 0, ⟨true, 0⟩, rfl, ?_, ?_, h.kept, by decide⟩
    · have hmax : committeeCacheMaxEntries = 4096 := rfl
      exact h.absent n (Nat.le_refl n) (by omega)
    · rw [h.size, hn]
  have hothers : (registryStep state (turnedAway n)).verifiers = state.verifiers ∧
      (registryStep state (turnedAway n)).operators = state.operators := by
    simp only [registryStep, turnedAway, recordCommitteePeer]
    split <;> exact ⟨rfl, rfl⟩
  unfold senderClass
  rw [committee_step_drops hentry hdrops, hothers.1, hothers.2, h.others.1, h.others.2]
  rfl

/-- The verdicts for 4096 strangers take the member's class away after ten of the thirty minutes. -/
theorem member_unclassified :
    (∀ op ∈ (List.range committeeCacheMaxEntries).map turnedAway, ¬ Denies op member) ∧
      0 ≤ later ∧ later < 0 + committeeStaleLimit ∧
      senderClass (registryRun .default
          (confirmed :: (List.range committeeCacheMaxEntries).map turnedAway))
        member later = .unregistered := by
  refine ⟨?_, by decide, by decide, ?_⟩
  · rintro op hop ⟨now, rank, rfl⟩
    obtain ⟨i, -, hop⟩ := List.mem_map.mp hop
    exact stranger_ne_member i (RegistryOp.recordCommitteePeer.inj hop).1
  · obtain ⟨n, hn⟩ : ∃ n, committeeCacheMaxEntries = n + 1 := ⟨4095, rfl⟩
    have hfilling : Filling n (registryRun .default (confirmed :: (List.range n).map turnedAway)) :=
      filling (by omega)
    rw [hn, List.range_succ, List.map_append, ← List.cons_append, registryRun_append]
    exact hfilling.full hn.symm

theorem member_kept_with_room :
    senderClass (registryRun .default [confirmed, turnedAway 0]) member (committeeStaleLimit - 1) =
      .committee := by
  refine (committee_class_kept_iff .default member 0 (fun _ => 0) [turnedAway 0] ?_).mpr ?_ _
    (by decide) (by decide)
  · rintro op hop ⟨now, rank, rfl⟩
    cases List.mem_singleton.mp hop
  · refine ⟨0, by decide, .inr ⟨.inl ⟨_, rfl⟩, ⟨?_, ?_⟩, trivial⟩⟩
    · rintro fetchedAt (⟨rank, hop⟩ | ⟨now, hop, -⟩)
      · cases hop
      · cases hop
    · rintro ⟨other, registered, now, rank, entry, -, -, hfull, -⟩
      exact absurd hfull (by decide)

end CachePressure

end BitvmNode.Admission
