import BitvmNode.Admission.Rate

/-!
# The committee's reserve

In the global tier and in that of a direct peer only the committee may draw on the last part of
the burst.  The committee then fares at least as well as with a bucket of its own of that capacity,
whatever all others send: the real bucket, charged by everybody, simulates the one charged by the
committee.  Both are kept in `f64`: against exact counts the real bucket can lose the last bit.
-/

namespace BitvmNode.Admission

open Reasoning

structure RateLimits.ReserveFits (limits : RateLimits) : Prop where
  reserve_le_one : limits.committeeReserve ≤ 1
  global_nonneg : ∀ kind, 0 ≤ limits.global.burst kind
  directPeer_nonneg : ∀ kind, 0 ≤ limits.directPeer.burst kind

instance : Fintype TokenKind := ⟨{.msgs, .bytes}, fun kind => by cases kind <;> decide⟩

theorem RateLimits.defaults_reserveFits : RateLimits.defaults.ReserveFits := by
  constructor <;> decide +kernel

theorem BucketTable.get_tracked (table : BucketTable) (key : PeerId) :
    table.get (.tracked key) = (table.buckets.get? key).getD table.overflow := rfl

/-- A bucket for the committee alone.  Its tokens may fall below zero. -/
structure ReserveBucket where
  part : TokenKind → RateBucket

namespace ReserveBucket

variable (limits : RateLimits) (tier : TierRate)

def capacity (kind : TokenKind) : ℚ := f64 (tier.burst kind * limits.committeeReserve)

def full (now : Instant) : ReserveBucket := ⟨fun kind => .full (capacity limits tier kind) now⟩

def level (bucket : ReserveBucket) (kind : TokenKind) (now : Instant) : ℚ :=
  ((bucket.part kind).refill (tier.perSec kind) (capacity limits tier kind) now).tokens

/-- A look at the tier refills the bucket too; an admitted message of the committee is charged. -/
def settle (bucket : ReserveBucket) (call : ChargeCall) (admitted : Bool) : ReserveBucket where
  part kind :=
    ⟨if admitted ∧ call.cls = .committee then
        f64 (bucket.level limits tier kind call.now - kind.cost call.bytes)
      else bucket.level limits tier kind call.now, call.now⟩

structure Covered (reserved : ReserveBucket) (bucket : DualBucket) : Prop where
  refilledAt : ∀ kind, (reserved.part kind).refilledAt = (bucket.part kind).refilledAt
  tokens : ∀ kind, (reserved.part kind).tokens ≤ (bucket.part kind).tokens

variable {limits tier} {reserved : ReserveBucket} {bucket : DualBucket} {call : ChargeCall}

section

variable (hreserve : limits.committeeReserve ≤ 1) (htier : ∀ kind, 0 ≤ tier.burst kind)

include hreserve htier

theorem capacity_le (kind : TokenKind) : capacity limits tier kind ≤ tier.burst kind := by
  have hrounded : f64 (tier.burst kind) = tier.burst kind := by
    cases kind <;> exact f64_f64 _
  calc capacity limits tier kind ≤ f64 (tier.burst kind) :=
        f64_monotone (mul_le_of_le_one_right (htier kind) hreserve)
    _ = tier.burst kind := hrounded

theorem covered_new (now : Instant) : (full limits tier now).Covered (tier.newBucket now) where
  refilledAt := by
    intro kind
    cases kind <;> rfl
  tokens := by
    intro kind
    have hcapacity := capacity_le hreserve htier kind
    cases kind <;> exact hcapacity

theorem Covered.level_le (h : reserved.Covered bucket) (kind : TokenKind) (now : Instant) :
    reserved.level limits tier kind now ≤ bucket.level tier kind now := by
  have htokens := h.tokens kind
  unfold level DualBucket.level RateBucket.refill
  rw [h.refilledAt kind]
  exact min_le_min (f64_monotone (by linarith)) (capacity_le hreserve htier kind)

theorem Covered.settle (admitted : Bool) (h : reserved.Covered bucket)
    (hfits : admitted = true → RateState.Fits tier bucket call (RateState.reserve limits call)) :
    (reserved.settle limits tier call admitted).Covered
      (bucket.settle tier call.bytes call.now admitted) := by
  constructor <;> intro kind <;> rw [DualBucket.part_settle]
  · rfl
  have hlevel := h.level_le hreserve htier kind call.now
  unfold ReserveBucket.settle
  cases admitted with
  | false => simpa using hlevel
  | true =>
    by_cases hclass : call.cls = .committee
    · simp only [hclass, and_self, if_true]
      exact f64_monotone (by linarith)
    · -- who is not of the committee leaves the whole capacity behind
      have hleft := hfits rfl kind
      rw [RateState.reserve, if_neg hclass] at hleft
      simp only [hclass, and_false, if_false, if_true]
      exact (min_le_right _ _).trans hleft

theorem Covered.fits (h : reserved.Covered bucket) (hclass : call.cls = .committee)
    (hfits : ∀ kind : TokenKind, kind.cost call.bytes ≤ reserved.level limits tier kind call.now) :
    RateState.Fits tier bucket call (RateState.reserve limits call) := by
  intro kind
  have hlevel := h.level_le hreserve htier kind call.now
  have hcost := hfits kind
  rw [RateState.reserve, if_pos hclass, mul_zero]
  exact f64_monotone (by linarith)

end

end ReserveBucket

namespace RateState

variable (limits : RateLimits)

/-- The committee's own bucket after a run of calls, of which only some look at the tier. -/
def reserveAfter (tier : TierRate) (looks : ChargeCall → Bool) :
    RateState → ReserveBucket → List ChargeCall → ReserveBucket
  | _, reserved, [] => reserved
  | state, reserved, call :: calls =>
      reserveAfter tier looks (state.next limits call)
        (if looks call then reserved.settle limits tier call (state.admits limits call)
          else reserved)
        calls

def Tracks (state : RateState) (peer : PeerId) : Prop := (state.direct.buckets.get? peer).isSome

variable {limits} {state : RateState} {call : ChargeCall} {calls : List ChargeCall}

theorem covered_global (hlimits : limits.ReserveFits) {reserved : ReserveBucket}
    (h : reserved.Covered state.global) :
    (reserveAfter limits limits.global (fun _ => true) state reserved calls).Covered
      (calls.foldl (next limits) state).global := by
  induction calls generalizing state reserved with
  | nil => exact h
  | cons call calls ih =>
    have hstep := h.settle hlimits.reserve_le_one hlimits.global_nonneg (state.admits limits call)
      fun hadmits => (admits_iff.mp hadmits).1
    rw [← charge_global] at hstep
    exact ih hstep

variable {peer : PeerId} {bucket : DualBucket}

theorem directSlot_of_tracked (h : state.direct.buckets.get? call.directPeer = some bucket) :
    (state.directSlot limits call).1.get (state.directSlot limits call).2 = bucket := by
  have hslot : state.directSlot limits call = (state.direct, .tracked call.directPeer) := by
    unfold directSlot BucketTable.slot
    rw [h]
    rfl
  rw [hslot, BucketTable.get_tracked, h, Option.getD_some]

theorem direct_next (hbucket : state.direct.buckets.get? peer = some bucket)
    (htracks : (state.next limits call).Tracks peer) :
    (state.next limits call).direct.buckets.get? peer =
      some (if call.directPeer = peer then
        bucket.settle limits.directPeer call.bytes call.now (state.admits limits call)
          else bucket) := by
  unfold Tracks next at htracks
  unfold next
  rw [charge_direct] at htracks ⊢
  unfold directSlot at htracks ⊢
  have hseated := state.direct.seated_slot call.directPeer limits.directPeer limits.maxTrackedPeers
    false call.now
  generalize state.direct.slot call.directPeer limits.directPeer limits.maxTrackedPeers false
    call.now = seat at hseated htracks ⊢
  -- another peer's call can only sweep the bucket away
  have hswept (h : ((state.direct.sweep limits.maxTrackedPeers call.now).buckets.get?
      peer).isSome) : (state.direct.sweep limits.maxTrackedPeers call.now).buckets.get? peer =
        some bucket := by
    rcases state.direct.get?_sweep limits.maxTrackedPeers call.now peer with hsame | ⟨hnone, -⟩
    · rw [hsame, hbucket]
    · rw [hnone] at h
      cases h
  cases hseated with
  | known other hother =>
    simp only [BucketTable.set, BucketTable.get_tracked, Map.get?_insert]
    by_cases hpeer : call.directPeer = peer
    · rw [if_pos hpeer.symm, if_pos hpeer, hpeer, hbucket, Option.getD_some]
    · rw [if_neg (Ne.symm hpeer), if_neg hpeer, hbucket]
  | shared hnone _ _ =>
    have hpeer : call.directPeer ≠ peer := by
      rintro rfl
      cases hbucket.symm.trans hnone
    simp only [BucketTable.set] at htracks ⊢
    rw [if_neg hpeer, hswept htracks]
  | entered hnone =>
    have hpeer : call.directPeer ≠ peer := by
      rintro rfl
      cases hbucket.symm.trans hnone
    simp only [BucketTable.set, Map.get?_insert, if_neg (Ne.symm hpeer)] at htracks ⊢
    rw [if_neg hpeer, hswept htracks]

theorem direct_entered (hbefore : ¬state.Tracks peer)
    (htracks : (state.next limits call).Tracks peer) :
    call.directPeer = peer ∧ (state.next limits call).direct.buckets.get? peer =
      some ((limits.directPeer.newBucket call.now).settle limits.directPeer call.bytes call.now
        (state.admits limits call)) ∧
      (state.directSlot limits call).1.get (state.directSlot limits call).2 =
        limits.directPeer.newBucket call.now := by
  have hunknown : state.direct.buckets.get? peer = none := by simpa [Tracks] using hbefore
  unfold Tracks next at htracks
  unfold next
  rw [charge_direct] at htracks ⊢
  unfold directSlot at htracks ⊢
  have hseated := state.direct.seated_slot call.directPeer limits.directPeer limits.maxTrackedPeers
    false call.now
  generalize state.direct.slot call.directPeer limits.directPeer limits.maxTrackedPeers false
    call.now = seat at hseated htracks ⊢
  have hswept : (state.direct.sweep limits.maxTrackedPeers call.now).buckets.get? peer = none := by
    rcases state.direct.get?_sweep limits.maxTrackedPeers call.now peer with hsame | ⟨hnone, -⟩
    · rw [hsame, hunknown]
    · exact hnone
  cases hseated with
  | known other hother =>
    have hpeer : peer ≠ call.directPeer := by
      rintro rfl
      cases hunknown.symm.trans hother
    simp only [BucketTable.set, Map.get?_insert_of_ne _ hpeer, hunknown] at htracks
    cases htracks
  | shared =>
    simp only [BucketTable.set, hswept] at htracks
    cases htracks
  | entered hnone =>
    by_cases hpeer : peer = call.directPeer
    · subst hpeer
      simp [BucketTable.set, BucketTable.get_tracked]
    · simp only [BucketTable.set, Map.get?_insert_of_ne _ hpeer, hswept] at htracks
      cases htracks

theorem covered_direct (hlimits : limits.ReserveFits) {reserved : ReserveBucket}
    (hbucket : state.direct.buckets.get? peer = some bucket) (h : reserved.Covered bucket)
    (htracks : ∀ earlier later, calls = earlier ++ later →
      (earlier.foldl (next limits) state).Tracks peer) :
    ∃ last, (calls.foldl (next limits) state).direct.buckets.get? peer = some last ∧
      (reserveAfter limits limits.directPeer (·.directPeer = peer) state reserved calls).Covered
        last := by
  induction calls generalizing state bucket reserved with
  | nil => exact ⟨bucket, hbucket, h⟩
  | cons call calls ih =>
    have hnext := direct_next hbucket (htracks [call] calls rfl)
    have hrun (earlier later : List ChargeCall) (hcalls : calls = earlier ++ later) :
        (earlier.foldl (next limits) (state.next limits call)).Tracks peer :=
      htracks (call :: earlier) later (by rw [hcalls]; rfl)
    rw [reserveAfter]
    by_cases hpeer : call.directPeer = peer
    · rw [if_pos hpeer] at hnext
      have hstep := h.settle hlimits.reserve_le_one hlimits.directPeer_nonneg
        (state.admits limits call) fun hadmits => by
          have hfits := (admits_iff.mp hadmits).2.2.2
          rwa [directSlot_of_tracked (by rwa [hpeer])] at hfits
      simp only [hpeer, decide_true, if_true]
      exact ih hnext hstep hrun
    · rw [if_neg hpeer] at hnext
      simp only [hpeer, decide_false, Bool.false_eq_true, if_false]
      exact ih hnext h hrun

theorem covered_tracked (hlimits : limits.ReserveFits) {entering : ChargeCall}
    (hbefore : ¬state.Tracks peer) (htracks : ∀ earlier later, calls = earlier ++ later →
      (earlier.foldl (next limits) (state.next limits entering)).Tracks peer) :
    ∃ last, (calls.foldl (next limits) (state.next limits entering)).direct.buckets.get? peer =
        some last ∧
      (reserveAfter limits limits.directPeer (·.directPeer = peer) state
        (ReserveBucket.full limits limits.directPeer entering.now) (entering :: calls)).Covered
          last := by
  obtain ⟨hpeer, hentered, hget⟩ := direct_entered hbefore (htracks [] calls rfl)
  have hnew := ReserveBucket.covered_new hlimits.reserve_le_one hlimits.directPeer_nonneg
    entering.now
  have hstep := hnew.settle hlimits.reserve_le_one hlimits.directPeer_nonneg
    (state.admits limits entering) fun hadmits => by
      have hfits := (admits_iff.mp hadmits).2.2.2
      rwa [hget] at hfits
  have hrun := covered_direct hlimits hentered hstep htracks
  rw [reserveAfter]
  simp only [hpeer, decide_true, if_true]
  exact hrun

end RateState

open RateState

/-- At every moment of every run: the global bucket has at least the tokens of a bucket that the
committee had for itself, so what fits there is not refused for the global rate; and the same for
the bucket of a direct peer, as long as it stays tracked. -/
theorem committee_reserve_unreachable (limits : RateLimits) (hlimits : limits.ReserveFits)
    (start : Instant) (calls : List ChargeCall) :
    (∀ state reserved, state = calls.foldl (next limits) (new limits start) →
      reserved = reserveAfter limits limits.global (fun _ => true) (new limits start)
        (.full limits limits.global start) calls →
      (∀ kind t, reserved.level limits limits.global kind t ≤
        state.global.level limits.global kind t) ∧
        ∀ call : ChargeCall, call.cls = .committee →
          (∀ kind : TokenKind,
            kind.cost call.bytes ≤ reserved.level limits limits.global kind call.now) →
          (state.charge limits call).2 ≠ .error .globalRate) ∧
    ∀ peer before entering during, calls = before ++ entering :: during →
      ¬(before.foldl (next limits) (new limits start)).Tracks peer →
      (∀ earlier later, during = earlier ++ later →
        ((before ++ entering :: earlier).foldl (next limits) (new limits start)).Tracks peer) →
      ∀ state reserved bucket, state = calls.foldl (next limits) (new limits start) →
      reserved = reserveAfter limits limits.directPeer (·.directPeer = peer)
        (before.foldl (next limits) (new limits start))
        (.full limits limits.directPeer entering.now) (entering :: during) →
      state.direct.buckets.get? peer = some bucket →
      (∀ kind t, reserved.level limits limits.directPeer kind t ≤
        bucket.level limits.directPeer kind t) ∧
        ∀ call : ChargeCall, call.cls = .committee → call.directPeer = peer →
          (∀ kind : TokenKind,
            kind.cost call.bytes ≤ reserved.level limits limits.directPeer kind call.now) →
          (state.charge limits call).2 ≠ .error .directPeerRate := by
  constructor
  · rintro state reserved rfl rfl
    have hnew : (ReserveBucket.full limits limits.global start).Covered (new limits start).global :=
      ReserveBucket.covered_new hlimits.reserve_le_one hlimits.global_nonneg start
    have hcovered := @covered_global limits _ calls hlimits _ hnew
    refine ⟨hcovered.level_le hlimits.reserve_le_one hlimits.global_nonneg, ?_⟩
    intro call hclass hfits hrefused
    exact charge_eq_globalRate_iff.mp hrefused
      (hcovered.fits hlimits.reserve_le_one hlimits.global_nonneg hclass hfits)
  · rintro peer before entering during rfl hbefore hduring state reserved bucket hstate rfl hbucket
    have hrun (earlier later : List ChargeCall) (hsplit : during = earlier ++ later) :
        (earlier.foldl (next limits)
          ((before.foldl (next limits) (new limits start)).next limits entering)).Tracks peer := by
      have htracks := hduring earlier later hsplit
      rwa [List.foldl_append] at htracks
    obtain ⟨last, hlast, hcovered⟩ := covered_tracked hlimits hbefore hrun
    rw [List.foldl_append, List.foldl_cons] at hstate
    have hsame : last = bucket := by
      rw [hstate, hlast] at hbucket
      exact Option.some.inj hbucket
    rw [hsame] at hcovered
    refine ⟨hcovered.level_le hlimits.reserve_le_one hlimits.directPeer_nonneg, ?_⟩
    rintro call hclass rfl hfits hrefused
    apply not_fits_of_directPeerRate hrefused
    rw [directSlot_of_tracked hbucket]
    exact hcovered.fits hlimits.reserve_le_one hlimits.directPeer_nonneg hclass hfits

/-! ## Against exact counts -/

/-- The committee's bucket with exact counts; such a bucket needs no looks. -/
structure ExactReserve where
  tokens : TokenKind → ℚ
  chargedAt : Instant

namespace ExactReserve

variable (limits : RateLimits) (tier : TierRate)

def full (now : Instant) : ExactReserve :=
  ⟨fun kind => tier.burst kind * limits.committeeReserve, now⟩

def level (bucket : ExactReserve) (kind : TokenKind) (now : Instant) : ℚ :=
  min (bucket.tokens kind +
      (Instant.saturatingDurationSince now bucket.chargedAt : ℚ) / 1000000000 * tier.perSec kind)
    (tier.burst kind * limits.committeeReserve)

def charge (bucket : ExactReserve) (call : ChargeCall) : ExactReserve :=
  ⟨fun kind => bucket.level limits tier kind call.now - kind.cost call.bytes, call.now⟩

/-- Charged with the admitted messages of the committee. -/
def after : RateState → ExactReserve → List ChargeCall → ExactReserve
  | _, bucket, [] => bucket
  | state, bucket, call :: calls =>
      after (state.next limits call)
        (if state.admits limits call ∧ call.cls = .committee then bucket.charge limits tier call
        else bucket) calls

end ExactReserve

namespace LastBit

def limits : RateLimits := { RateLimits.defaults with global := ⟨4, 10, 512 * mib, 32 * mib⟩ }

def messageAt (cls : SenderClass) (millis : Nat) : ChargeCall :=
  ⟨⟨[0]⟩, ⟨[1]⟩, cls, 100, millis * 1000000⟩

/-- The burst is used up, then one refused message looks at the bucket before it is refilled. -/
def calls : List ChargeCall :=
  [messageAt .registered 0, messageAt .registered 0, messageAt .registered 0,
    messageAt .committee 0, messageAt .registered 90]

theorem limits_reserveFits : limits.ReserveFits := by
  constructor <;> decide +kernel

theorem committee_waits_for_reserve : limits.ReserveFits ∧
      (∀ kind t, (reserveAfter limits limits.global (fun _ => true) (new limits 0)
          (.full limits limits.global 0) calls).level limits limits.global kind t ≤
        (calls.foldl (next limits) (new limits 0)).global.level limits.global kind t) ∧
      ((calls.foldl (next limits) (new limits 0)).charge limits (messageAt .committee 101)).2 ≠
        .error .globalRate := by
  have hrun := (committee_reserve_unreachable limits limits_reserveFits 0 calls).1 _ _ rfl rfl
  refine ⟨limits_reserveFits, hrun.1, hrun.2 (messageAt .committee 101) rfl ?_⟩
  decide +kernel

theorem committee_refused_at_exact_refill : limits.ReserveFits ∧
      (calls.map ChargeCall.now).Pairwise (· ≤ ·) ∧
      (∀ kind : TokenKind, kind.cost (messageAt .committee 100).bytes ≤
        ((ExactReserve.full limits limits.global 0).after limits limits.global (new limits 0)
          calls).level limits limits.global kind (messageAt .committee 100).now) ∧
      ((calls.foldl (next limits) (new limits 0)).charge limits (messageAt .committee 100)).2 =
        .error .globalRate := by
  refine ⟨limits_reserveFits, by decide, ?_, ?_⟩ <;> decide +kernel

end LastBit

end BitvmNode.Admission
