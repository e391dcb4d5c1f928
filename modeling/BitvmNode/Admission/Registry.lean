import BitvmNode.Reasoning.Bytes
import BitvmNode.Reasoning.Maps

/-!
# The peer registry

Which peers are committee members, verifiers or operators on chain, as far as lookups have told, and
the budgets of these lookups.  Every operation runs under one lock, so a history of the registry is
a sequence of operations.
-/

namespace BitvmNode.Admission

open Reasoning

structure PeerId where
  toBytes : Bytes
  deriving DecidableEq

/-- A monotonic clock in nanoseconds, as the platform represents it: a signed number of seconds. -/
abbrev Instant := Int

abbrev Duration := Nat

namespace Duration

def fromSecs (secs : Nat) : Duration := secs * 1000000000

end Duration

namespace Instant

def saturatingDurationSince (now earlier : Instant) : Duration := (now - earlier).toNat

theorem saturatingDurationSince_lt_iff {limit : Nat} (hlimit : 0 < limit) (now earlier : Int) :
    saturatingDurationSince now earlier < limit ↔ now < earlier + limit := by
  change (now - earlier).toNat < limit ↔ now < earlier + limit
  omega

def checkedSub (now : Instant) (duration : Duration) : Option Instant :=
  if -(2 ^ 63) * 1000000000 ≤ now - duration then some (now - duration) else none

end Instant

inductive SenderClass where
  | committee
  | registered
  | unregistered
  deriving DecidableEq

def verifierSetRefreshInterval : Duration := .fromSecs (5 * 60)
def verifierSetRetryInterval : Duration := .fromSecs 30
def committeePositiveTtl : Duration := .fromSecs (10 * 60)
def committeeNegativeTtl : Duration := .fromSecs (2 * 60)
def committeeStaleLimit : Duration := .fromSecs (30 * 60)
def committeeCacheMaxEntries : Nat := 4096
def committeeDiscoveryLookupsPerMinute : Nat := 60
def committeeMaxInFlightLookups : Nat := 16
def committeeMaxUnknownInFlight : Nat := 12
def operatorDiscoveryLookupsPerMinute : Nat := 60
def operatorMaxInFlightLookups : Nat := 16
def operatorMaxUnknownInFlight : Nat := 12
def refusedPeerLookupsPerMinute : Nat := 30
def operatorStakeTtl : Duration := .fromSecs (10 * 60)
def operatorStakeStaleLimit : Duration := .fromSecs (30 * 60)
def operatorCacheMaxEntries : Nat := 4096
def seededTrust : Duration := .fromSecs (5 * 60)

structure CommitteeEntry where
  registered : Bool
  fetchedAt : Instant
  deriving DecidableEq

namespace CommitteeEntry

def ttl (entry : CommitteeEntry) : Duration :=
  if entry.registered then committeePositiveTtl else committeeNegativeTtl

def needsRefresh (entry : CommitteeEntry) (now : Instant) : Bool :=
  entry.ttl ≤ now.saturatingDurationSince entry.fetchedAt

def isRegistered (entry : CommitteeEntry) (now : Instant) : Bool :=
  entry.registered && now.saturatingDurationSince entry.fetchedAt < committeeStaleLimit

end CommitteeEntry

abbrev OperatorKey := Bytes32

/-- A peer that has proved to own a master key, and what the chain says about the stake of the
key. -/
structure OperatorBinding where
  pubkey : OperatorKey
  issuedAt : Int
  staked : Option Bool
  fetchedAt : Option Instant
  trusted : Bool
  deriving DecidableEq

namespace OperatorBinding

def needsRefresh (binding : OperatorBinding) (now : Instant) : Bool :=
  match binding.fetchedAt with
  | none => true
  | some fetchedAt => operatorStakeTtl ≤ now.saturatingDurationSince fetchedAt

def isRegistered (binding : OperatorBinding) (now : Instant) : Bool :=
  binding.staked = some true &&
    binding.fetchedAt.any fun fetchedAt => now.saturatingDurationSince fetchedAt <
      operatorStakeStaleLimit

end OperatorBinding

structure DiscoveryBudget where
  windowStartedAt : Option Instant
  lookupsInWindow : Nat

def DiscoveryBudget.take (budget : DiscoveryBudget) (perMinute : Nat) (now : Instant) :
    DiscoveryBudget × Bool :=
  let windowOpen := budget.windowStartedAt.any fun startedAt =>
    now.saturatingDurationSince startedAt < Duration.fromSecs 60
  let budget := if windowOpen then budget else ⟨some now, 0⟩
  if perMinute ≤ budget.lookupsInWindow then (budget, false)
  else ({ budget with lookupsInWindow := budget.lookupsInWindow + 1 }, true)

inductive LookupBudget where
  | candidate
  | neighbour
  | refused

structure RegistryState where
  verifiers : Finset Bytes
  (verifiersFetchedAt verifiersAttemptedAt : Option Instant)
  verifiersInFlight : Bool
  committee : Map PeerId CommitteeEntry
  committeeInFlight : Finset PeerId
  operators : Map PeerId OperatorBinding
  operatorOwner : Map OperatorKey PeerId
  operatorsInFlight : Finset PeerId
  (committeeDiscovery neighbourDiscovery refusedDiscovery operatorDiscovery : DiscoveryBudget)

namespace RegistryState

def default : RegistryState where
  verifiers := ∅
  verifiersFetchedAt := none
  verifiersAttemptedAt := none
  verifiersInFlight := false
  committee := .empty
  committeeInFlight := ∅
  operators := .empty
  operatorOwner := .empty
  operatorsInFlight := ∅
  committeeDiscovery := ⟨none, 0⟩
  neighbourDiscovery := ⟨none, 0⟩
  refusedDiscovery := ⟨none, 0⟩
  operatorDiscovery := ⟨none, 0⟩

variable (state : RegistryState)

def verifierSetDue (now : Instant) : Bool :=
  if state.verifiersAttemptedAt.any fun attemptedAt =>
      now.saturatingDurationSince attemptedAt < verifierSetRetryInterval then false
  else
    match state.verifiersFetchedAt with
    | some fetchedAt => verifierSetRefreshInterval ≤ now.saturatingDurationSince fetchedAt
    | none => true

def claimVerifierSetRefresh (now : Instant) : RegistryState × Bool :=
  if !state.verifierSetDue now || state.verifiersInFlight then (state, false)
  else ({ state with verifiersInFlight := true, verifiersAttemptedAt := some now }, true)

def chargeLookup (budget : LookupBudget) (now : Instant) : RegistryState × Bool :=
  let inFlight := state.committeeInFlight.card
  match budget with
  | .candidate =>
      if inFlight < committeeMaxUnknownInFlight then
        let (discovery, taken) :=
          state.committeeDiscovery.take committeeDiscoveryLookupsPerMinute now
        ({ state with committeeDiscovery := discovery }, taken)
      else (state, false)
  | .neighbour =>
      if inFlight < committeeMaxInFlightLookups then
        let (discovery, taken) :=
          state.neighbourDiscovery.take committeeDiscoveryLookupsPerMinute now
        ({ state with neighbourDiscovery := discovery }, taken)
      else (state, false)
  | .refused =>
      if inFlight < committeeMaxUnknownInFlight then
        let (discovery, taken) := state.refusedDiscovery.take refusedPeerLookupsPerMinute now
        ({ state with refusedDiscovery := discovery }, taken)
      else (state, false)

def claimCommitteeLookup (peer : PeerId) (budget : LookupBudget) (now : Instant) :
    RegistryState × Bool :=
  if peer.toBytes ∈ state.verifiers ∨ peer ∈ state.committeeInFlight then (state, false)
  else if (state.committee.get? peer).any fun entry => !entry.needsRefresh now then (state, false)
  else
    let knownRegistered := (state.committee.get? peer).any CommitteeEntry.registered
    -- known members may use every slot and are not charged
    let (state, admitted) :=
      if knownRegistered then
        (state, decide (state.committeeInFlight.card < committeeMaxInFlightLookups))
      else state.chargeLookup budget now
    if admitted then ({ state with committeeInFlight := insert peer state.committeeInFlight }, true)
    else (state, false)

def claimOperatorRefresh (peer : PeerId) (pubkey : OperatorKey) (now : Instant) :
    RegistryState × Bool :=
  if peer ∈ state.operatorsInFlight then (state, false)
  else
    match state.operators.get? peer with
    | none => (state, false)
    | some binding =>
        if binding.pubkey ≠ pubkey ∨ binding.needsRefresh now = false then (state, false)
        else
          let inFlight := state.operatorsInFlight.card
          let (state, admitted) :=
            if binding.staked = some true ∨ binding.trusted then
              (state, decide (inFlight < operatorMaxInFlightLookups))
            else if operatorMaxUnknownInFlight ≤ inFlight then (state, false)
            else
              let (discovery, taken) :=
                state.operatorDiscovery.take operatorDiscoveryLookupsPerMinute now
              ({ state with operatorDiscovery := discovery }, taken)
          if admitted then ({ state with operatorsInFlight := insert peer state.operatorsInFlight },
            true)
          else (state, false)

end RegistryState

def seededFetchedAt (now : Instant) (staleLimit : Duration) : Instant :=
  (now.checkedSub (staleLimit - seededTrust)).getD now

namespace PeerRegistry

open RegistryState

variable (state : RegistryState)

def senderClass (peer : PeerId) (now : Instant) : SenderClass :=
  if (state.committee.get? peer).any (·.isRegistered now) then .committee
  else if peer.toBytes ∈ state.verifiers ∨ (state.operators.get? peer).any (·.isRegistered now) then
    .registered
  else .unregistered

def operatorPeerFor (pubkey : OperatorKey) : Option PeerId := state.operatorOwner.get? pubkey

def transferKey (peer : PeerId) (pubkey : OperatorKey) (issuedAt : Int) : Option RegistryState :=
  match state.operatorOwner.get? pubkey with
  | none => some state
  | some currentOwner =>
      if currentOwner = peer then some state
      else if (state.operators.get? currentOwner).all fun existing =>
        existing.issuedAt < issuedAt then
        some { state with operators := state.operators.remove currentOwner }
      else none

def releaseKey (peer : PeerId) (pubkey : OperatorKey) : RegistryState :=
  if state.operatorOwner.get? pubkey = some peer then
    { state with operatorOwner := state.operatorOwner.remove pubkey }
  else state

def evictOperators (now : Instant) : RegistryState :=
  let operators := state.operators.retain fun _ binding =>
    binding.isRegistered now || binding.trusted
  { state with
    operators := operators
    operatorOwner := state.operatorOwner.retain fun _ owner => (operators.get? owner).isSome }

def bindOperator (peer : PeerId) (pubkey : OperatorKey) (issuedAt : Int) : RegistryState :=
  { state with
    operatorOwner := state.operatorOwner.insert pubkey peer
    operators := state.operators.insert peer
      { pubkey := pubkey, issuedAt := issuedAt, staked := none, fetchedAt := none,
        trusted := false } }

/-- A verified binding; the answer is whether the persisted registration of the peer must be
revoked. `now` is read for the eviction only. -/
def observeOperatorBinding (peer : PeerId) (pubkey : OperatorKey) (issuedAt : Int) (now : Instant) :
    RegistryState × Bool :=
  match transferKey state peer pubkey issuedAt with
  | none => (state, false)
  | some state =>
      match state.operators.get? peer with
      | some previous =>
          if previous.pubkey = pubkey then
            -- the same key again keeps its verdict
            ({ state with
                operators := state.operators.insert peer
                  { previous with issuedAt := max previous.issuedAt issuedAt }
                operatorOwner := state.operatorOwner.insert pubkey peer }, false)
          else
            (bindOperator (releaseKey state peer previous.pubkey) peer pubkey issuedAt,
              previous.staked = some true)
      | none =>
          let state :=
            if operatorCacheMaxEntries ≤ state.operators.size then
              evictOperators state now else state
          (bindOperator state peer pubkey issuedAt, false)

inductive TrustedBindingConflict where
  | peerBoundToAnotherKey (pubkey : OperatorKey)
  | keyBoundToAnotherPeer (peer : PeerId)

def trustOperatorBinding (peer : PeerId) (pubkey : OperatorKey) :
    Except TrustedBindingConflict RegistryState :=
  match (state.operators.get? peer).filter fun existing => existing.pubkey ≠ pubkey with
  | some existing => .error (.peerBoundToAnotherKey existing.pubkey)
  | none =>
      match (state.operatorOwner.get? pubkey).filter fun owner => owner ≠ peer with
      | some owner => .error (.keyBoundToAnotherPeer owner)
      | none =>
          let binding : OperatorBinding :=
            match state.operators.get? peer with
            | some binding => { binding with trusted := true }
            | none =>
                { pubkey, issuedAt := 0, staked := none, fetchedAt := none, trusted := true }
          .ok { state with
            operatorOwner := state.operatorOwner.insert pubkey peer
            operators := state.operators.insert peer binding }

def planDueOperatorRefreshes (now : Instant) (rank : PeerId → Nat) :
    RegistryState × List (PeerId × OperatorKey) :=
  let due := (state.operators.iterate rank).filter fun (peer, binding) =>
    binding.needsRefresh now && (binding.staked ≠ some false || binding.trusted) && peer ∉
      state.operatorsInFlight
  let known (entry : PeerId × OperatorBinding) : Bool :=
    entry.2.staked = some true || entry.2.trusted
  (due.filter known ++ due.filter fun entry => !known entry).foldl
    (fun (state, claimed) (peer, binding) =>
      let (state, admitted) := claimOperatorRefresh state peer binding.pubkey now
      (state, if admitted then claimed ++ [(peer, binding.pubkey)] else claimed))
    (state, [])

def recordOperatorStake (peer : PeerId) (pubkey : OperatorKey) (staked : Option Bool)
    (now : Instant) : RegistryState × Option Bool :=
  let state := { state with operatorsInFlight := state.operatorsInFlight.erase peer }
  match staked, (state.operators.get? peer).filter fun binding => binding.pubkey = pubkey with
  | some staked, some binding =>
      let binding := { binding with staked := some staked, fetchedAt := some now }
      ({ state with operators := state.operators.insert peer binding }, some staked)
  | _, _ => (state, none)

def confirmSeededOperator (peer : PeerId) (pubkey : OperatorKey) (now : Instant) : RegistryState :=
  match (state.operators.get? peer).filter fun binding =>
    binding.pubkey = pubkey ∧ binding.staked = none with
  | some binding =>
      let fetchedAt := seededFetchedAt now operatorStakeStaleLimit
      let binding := { binding with staked := some true, fetchedAt := some fetchedAt }
      { state with operators := state.operators.insert peer binding }
  | none => state

def seedVerifiedOperator (peer : PeerId) (pubkey : OperatorKey) (issuedAt : Int) (now : Instant) :
    RegistryState :=
  confirmSeededOperator (observeOperatorBinding state peer pubkey issuedAt now).1 peer pubkey now

def seedVerifiedCommitteePeer (peer : PeerId) (now : Instant) : RegistryState :=
  match state.committee.get? peer with
  | some _ => state
  | none =>
      let entry : CommitteeEntry := ⟨true, seededFetchedAt now committeeStaleLimit⟩
      { state with committee := state.committee.insert peer entry }

def planDueCommitteeRefreshes (now : Instant) (rank : PeerId → Nat) : RegistryState × List PeerId :=
  let due := ((state.committee.iterate rank).filter fun (peer, entry) =>
    entry.registered && entry.needsRefresh now && peer ∉ state.committeeInFlight).map Prod.fst
  let free := committeeMaxInFlightLookups - state.committeeInFlight.card
  let claimed := due.take free
  ({ state with committeeInFlight := state.committeeInFlight ∪ claimed.toFinset }, claimed)

structure RefreshPlan where
  (verifierSet committeePeer : Bool)

def planRefresh (peer : Option PeerId) (now : Instant) : RegistryState × RefreshPlan :=
  let (state, verifierSet) := claimVerifierSetRefresh state now
  match peer with
  | some peer =>
      let (state, committeePeer) := claimCommitteeLookup state peer .candidate now
      (state, ⟨verifierSet, committeePeer⟩)
  | none => (state, ⟨verifierSet, false⟩)

def planCandidateLookup (peer : PeerId) (now : Instant) : RegistryState × Bool :=
  claimCommitteeLookup state peer .candidate now

def planNeighbourLookup (peer : PeerId) (now : Instant) : RegistryState × Bool :=
  claimCommitteeLookup state peer .neighbour now

def planRefusedPeerLookup (peer : PeerId) (now : Instant) : RegistryState × Bool :=
  claimCommitteeLookup state peer .refused now

def recordVerifierSet (verifiers : Option (List Bytes)) (now : Instant) : RegistryState :=
  let state := { state with verifiersInFlight := false }
  match verifiers with
  | some verifiers => { state with verifiers := verifiers.toFinset, verifiersFetchedAt := some now }
  | none => state

/-- Room for a new entry: a full table drops what is due for a refresh, and if it is full still, one
entry that is not registered, the first in the order of the map.  Nothing if there is no room. -/
def makeRoom (committee : Map PeerId CommitteeEntry) (registered : Bool) (now : Instant)
    (rank : PeerId → Nat) : Option (Map PeerId CommitteeEntry) :=
  if committeeCacheMaxEntries ≤ committee.size then
    let committee := committee.retain fun _ entry => !entry.needsRefresh now
    if committeeCacheMaxEntries ≤ committee.size then
      if registered then
        match (committee.iterate rank).find? fun entry => !entry.2.registered with
        | some (evict, _) => some (committee.remove evict)
        | none => some committee
      else none
    else some committee
  else some committee

def recordCommitteePeer (peer : PeerId) (registered : Option Bool) (now : Instant)
    (rank : PeerId → Nat) : RegistryState × Option Bool :=
  let state := { state with committeeInFlight := state.committeeInFlight.erase peer }
  match registered with
  | none => (state, none)
  | some registered =>
      match if (state.committee.get? peer).isSome then some state.committee
          else makeRoom state.committee registered now rank with
      | some committee =>
          ({ state with committee := committee.insert peer ⟨registered, now⟩ }, some registered)
      | none =>
          let committee := state.committee.retain fun _ entry => !entry.needsRefresh now
          ({ state with committee }, some registered)

end PeerRegistry

inductive RegistryOp where
  | observeOperatorBinding (peer : PeerId) (pubkey : OperatorKey) (issuedAt : Int) (now : Instant)
  | trustOperatorBinding (peer : PeerId) (pubkey : OperatorKey)
  | planOperatorRefresh (peer : PeerId) (pubkey : OperatorKey) (now : Instant)
  | planDueOperatorRefreshes (now : Instant) (rank : PeerId → Nat)
  | recordOperatorStake (peer : PeerId) (pubkey : OperatorKey) (staked : Option Bool)
      (now : Instant)
  | confirmSeededOperator (peer : PeerId) (pubkey : OperatorKey) (now : Instant)
  | seedVerifiedCommitteePeer (peer : PeerId) (now : Instant)
  | planDueCommitteeRefreshes (now : Instant) (rank : PeerId → Nat)
  | planRefresh (peer : Option PeerId) (now : Instant)
  | planCandidateLookup (peer : PeerId) (now : Instant)
  | planNeighbourLookup (peer : PeerId) (now : Instant)
  | planRefusedPeerLookup (peer : PeerId) (now : Instant)
  | recordVerifierSet (verifiers : Option (List Bytes)) (now : Instant)
  | recordCommitteePeer (peer : PeerId) (registered : Option Bool) (now : Instant)
      (rank : PeerId → Nat)

open PeerRegistry in
def registryStep (state : RegistryState) : RegistryOp → RegistryState
  | .observeOperatorBinding peer pubkey issuedAt now =>
      (observeOperatorBinding state peer pubkey issuedAt now).1
  | .trustOperatorBinding peer pubkey =>
      match trustOperatorBinding state peer pubkey with
      | .ok state => state
      | .error _ => state
  | .planOperatorRefresh peer pubkey now => (state.claimOperatorRefresh peer pubkey now).1
  | .planDueOperatorRefreshes now rank => (planDueOperatorRefreshes state now rank).1
  | .recordOperatorStake peer pubkey staked now =>
      (recordOperatorStake state peer pubkey staked now).1
  | .confirmSeededOperator peer pubkey now => confirmSeededOperator state peer pubkey now
  | .seedVerifiedCommitteePeer peer now => seedVerifiedCommitteePeer state peer now
  | .planDueCommitteeRefreshes now rank => (planDueCommitteeRefreshes state now rank).1
  | .planRefresh peer now => (planRefresh state peer now).1
  | .planCandidateLookup peer now => (planCandidateLookup state peer now).1
  | .planNeighbourLookup peer now => (planNeighbourLookup state peer now).1
  | .planRefusedPeerLookup peer now => (planRefusedPeerLookup state peer now).1
  | .recordVerifierSet verifiers now => recordVerifierSet state verifiers now
  | .recordCommitteePeer peer registered now rank =>
      (recordCommitteePeer state peer registered now rank).1

variable (state : RegistryState)

def registryRun (ops : List RegistryOp) : RegistryState := ops.foldl registryStep state

theorem registryRun_append (ops rest : List RegistryOp) :
    registryRun state (ops ++ rest) = registryRun (registryRun state ops) rest :=
  List.foldl_append

theorem registryRun_concat (ops : List RegistryOp) (op : RegistryOp) :
    registryRun state (ops ++ [op]) = registryStep (registryRun state ops) op :=
  registryRun_append state ops [op]

structure SameRecords (before after : RegistryState) : Prop where
  committee : after.committee = before.committee
  operators : after.operators = before.operators
  operatorOwner : after.operatorOwner = before.operatorOwner

structure SameOperators (before after : RegistryState) : Prop where
  operators : after.operators = before.operators
  operatorOwner : after.operatorOwner = before.operatorOwner
  operatorsInFlight : after.operatorsInFlight = before.operatorsInFlight

structure CommitteePlan (before after : RegistryState) : Prop extends SameRecords before after,
  SameOperators before after

namespace CommitteePlan

theorem trans {a b c : RegistryState} (hab : CommitteePlan a b) (hbc : CommitteePlan b c) :
    CommitteePlan a c :=
  ⟨⟨hbc.committee.trans hab.committee, hbc.operators.trans hab.operators,
    hbc.operatorOwner.trans hab.operatorOwner⟩, hbc.operatorsInFlight.trans hab.operatorsInFlight⟩

theorem claimVerifierSetRefresh (state : RegistryState) (now : Instant) :
    CommitteePlan state (state.claimVerifierSetRefresh now).1 := by
  unfold RegistryState.claimVerifierSetRefresh
  split <;> exact ⟨⟨rfl, rfl, rfl⟩, rfl⟩

theorem chargeLookup (state : RegistryState) (budget : LookupBudget) (now : Instant) :
    CommitteePlan state (state.chargeLookup budget now).1 := by
  unfold RegistryState.chargeLookup
  cases budget with
  | candidate | neighbour | refused => dsimp only; split <;> exact ⟨⟨rfl, rfl, rfl⟩, rfl⟩

theorem claimCommitteeLookup (state : RegistryState) (peer : PeerId) (budget : LookupBudget)
    (now : Instant) : CommitteePlan state (state.claimCommitteeLookup peer budget now).1 := by
  dsimp only [RegistryState.claimCommitteeLookup]
  split
  · exact ⟨⟨rfl, rfl, rfl⟩, rfl⟩
  · split
    · exact ⟨⟨rfl, rfl, rfl⟩, rfl⟩
    · split
      · split <;> exact ⟨⟨rfl, rfl, rfl⟩, rfl⟩
      · have hcharge := chargeLookup state budget now
        split
        · exact hcharge.trans ⟨⟨rfl, rfl, rfl⟩, rfl⟩
        · exact hcharge

theorem planRefresh (state : RegistryState) (peer : Option PeerId) (now : Instant) :
    CommitteePlan state (PeerRegistry.planRefresh state peer now).1 := by
  unfold PeerRegistry.planRefresh
  have hset := claimVerifierSetRefresh state now
  cases peer with
  | none => exact hset
  | some peer => exact hset.trans (claimCommitteeLookup _ peer .candidate now)

end CommitteePlan

def RegistryOp.forOperators : RegistryOp → Bool
  | .observeOperatorBinding .. | .trustOperatorBinding .. | .planOperatorRefresh ..
  | .planDueOperatorRefreshes .. | .recordOperatorStake .. | .confirmSeededOperator .. => true
  | _ => false

theorem SameOperators.of_step {op : RegistryOp} (h : op.forOperators = false) :
    SameOperators state (registryStep state op) := by
  cases op with
  | observeOperatorBinding | trustOperatorBinding | planOperatorRefresh | planDueOperatorRefreshes
  | recordOperatorStake | confirmSeededOperator => cases h
  | seedVerifiedCommitteePeer peer now =>
    simp only [registryStep, PeerRegistry.seedVerifiedCommitteePeer]
    split <;> exact ⟨rfl, rfl, rfl⟩
  | planDueCommitteeRefreshes now rank => exact ⟨rfl, rfl, rfl⟩
  | planRefresh peer now => exact (CommitteePlan.planRefresh state peer now).toSameOperators
  | planCandidateLookup peer now =>
    exact (CommitteePlan.claimCommitteeLookup state peer .candidate now).toSameOperators
  | planNeighbourLookup peer now =>
    exact (CommitteePlan.claimCommitteeLookup state peer .neighbour now).toSameOperators
  | planRefusedPeerLookup peer now =>
    exact (CommitteePlan.claimCommitteeLookup state peer .refused now).toSameOperators
  | recordVerifierSet verifiers now => cases verifiers <;> exact ⟨rfl, rfl, rfl⟩
  | recordCommitteePeer peer registered now rank =>
    simp only [registryStep, PeerRegistry.recordCommitteePeer]
    repeat' split
    all_goals exact ⟨rfl, rfl, rfl⟩

namespace SameRecords

theorem refl : SameRecords state state := ⟨rfl, rfl, rfl⟩

theorem trans {a b c : RegistryState} (hab : SameRecords a b) (hbc : SameRecords b c) :
    SameRecords a c :=
  ⟨hbc.committee.trans hab.committee, hbc.operators.trans hab.operators,
    hbc.operatorOwner.trans hab.operatorOwner⟩

theorem claimOperatorRefresh (state : RegistryState) (peer : PeerId) (pubkey : OperatorKey)
    (now : Instant) : SameRecords state (state.claimOperatorRefresh peer pubkey now).1 := by
  dsimp only [RegistryState.claimOperatorRefresh]
  repeat' split
  all_goals exact ⟨rfl, rfl, rfl⟩

theorem planDueOperatorRefreshes (state : RegistryState) (now : Instant) (rank : PeerId → Nat) :
    SameRecords state (PeerRegistry.planDueOperatorRefreshes state now rank).1 := by
  dsimp only [PeerRegistry.planDueOperatorRefreshes]
  generalize (List.filter _ _ ++ List.filter _ _) = due
  -- one claim after the other
  suffices h : ∀ claimed : List (PeerId × OperatorKey), SameRecords state (due.foldl
      (fun (state, claimed) (peer, binding) =>
        let (state, admitted) := RegistryState.claimOperatorRefresh state peer binding.pubkey now
        (state, if admitted then claimed ++ [(peer, binding.pubkey)] else claimed)) (state,
        claimed)).1 from
    h []
  induction due generalizing state with
  | nil => exact fun _ => refl state
  | cons entry due ih =>
    intro claimed
    exact (claimOperatorRefresh state entry.1 entry.2.pubkey now).trans (ih _ _)

end SameRecords

end BitvmNode.Admission
