import BitvmNode.Admission.Replay
import BitvmNode.Reasoning.Floats

/-!
# The inbound rate limits

A message is charged to several tiers at once: its direct peer, its author, all unregistered
authors together, and everything together.  Each tier counts messages and bytes.  The counts are
`f64` numbers, given here by their values; each operation of the source on them rounds.
-/

namespace BitvmNode.Admission

open Reasoning

def SenderClass.isRegistered : SenderClass → Bool
  | .committee | .registered => true
  | .unregistered => false

def Duration.asSecsF64 (d : Duration) : ℚ :=
  f64 (f64 (d / 1000000000 : Nat) + f64 (f64 (d % 1000000000 : Nat) / 1000000000))

structure RateBucket where
  tokens : ℚ
  refilledAt : Instant

namespace RateBucket

def full (burst : ℚ) (now : Instant) : RateBucket := ⟨burst, now⟩

def refill (bucket : RateBucket) (rate burst : ℚ) (now : Instant) : RateBucket :=
  let elapsed := Duration.asSecsF64 (Instant.saturatingDurationSince now bucket.refilledAt)
  ⟨min (f64 (bucket.tokens + f64 (elapsed * rate))) burst, now⟩

end RateBucket

structure DualBucket where
  (msgs bytes : RateBucket)

structure TierRate where
  (msgBurst msgPerSec : Nat)
  (byteBurst bytePerSec : Int)

namespace TierRate

def newBucket (tier : TierRate) (now : Instant) : DualBucket :=
  ⟨.full (f64 tier.msgBurst) now, .full (f64 tier.byteBurst) now⟩

def peekAbove (tier : TierRate) (bucket : DualBucket) (bytes : Int) (reserve : ℚ) (now : Instant) :
    DualBucket × Bool :=
  let msgs := bucket.msgs.refill (f64 tier.msgPerSec) (f64 tier.msgBurst) now
  let byteTokens := bucket.bytes.refill (f64 tier.bytePerSec) (f64 tier.byteBurst) now
  (⟨msgs, byteTokens⟩,
    decide (f64 (f64 tier.msgBurst * reserve) ≤ f64 (msgs.tokens - 1)) &&
      decide (f64 (f64 tier.byteBurst * reserve) ≤ f64 (byteTokens.tokens - f64 bytes)))

def peek (tier : TierRate) (bucket : DualBucket) (bytes : Int) (now : Instant) :
    DualBucket × Bool :=
  tier.peekAbove bucket bytes 0 now

def spend (_tier : TierRate) (bucket : DualBucket) (bytes : Int) : DualBucket :=
  ⟨⟨f64 (bucket.msgs.tokens - 1), bucket.msgs.refilledAt⟩,
    ⟨f64 (bucket.bytes.tokens - f64 bytes), bucket.bytes.refilledAt⟩⟩

end TierRate

structure RateLimits where
  (directPeer registeredAuthor unregisteredAuthor unregisteredTotal : TierRate)
  (unregisteredForward global : TierRate)
  committeeReserve : ℚ
  maxTrackedPeers : Nat

def mib : Int := 1024 * 1024

def RateLimits.defaults : RateLimits where
  directPeer := ⟨16384, 4096, 512 * mib, 32 * mib⟩
  registeredAuthor := ⟨8192, 512, 256 * mib, 8 * mib⟩
  unregisteredAuthor := ⟨32, 2, 4 * mib, 128 * 1024⟩
  unregisteredTotal := ⟨1024, 32, 32 * mib, mib⟩
  unregisteredForward := ⟨256, 16, 8 * mib, 512 * 1024⟩
  global := ⟨16384, 4096, 512 * mib, 32 * mib⟩
  committeeReserve := 1 / 4
  maxTrackedPeers := 8192

def rateBucketIdleForget : Duration := .fromSecs 60
def rateTableSweepInterval : Duration := .fromSecs 5

structure BucketTable where
  buckets : Map PeerId DualBucket
  overflow : DualBucket
  sweptAt : Option Instant

inductive BucketSlot where
  | tracked (key : PeerId)
  | overflow

namespace BucketTable

def new (overflowTier : TierRate) (now : Instant) : BucketTable :=
  ⟨Map.empty, overflowTier.newBucket now, none⟩

variable (table : BucketTable)

/-- A full table is swept now and then: buckets that nobody looked at for a while are forgotten. -/
def sweep (cap : Nat) (now : Instant) : BucketTable :=
  if cap ≤ table.buckets.size ∧
      (∀ at_ ∈ table.sweptAt, rateTableSweepInterval ≤ Instant.saturatingDurationSince now at_) then
    { table with
      sweptAt := some now
      buckets := table.buckets.retain fun _ bucket =>
        Instant.saturatingDurationSince now bucket.msgs.refilledAt < rateBucketIdleForget }
  else table

/-- The slot `key` is charged to; a pinned key always has one of its own. -/
def slot (key : PeerId) (tier : TierRate) (cap : Nat) (pinned : Bool) (now : Instant) :
    BucketTable × BucketSlot :=
  if (table.buckets.get? key).isSome then (table, .tracked key)
  else
    let table := table.sweep cap now
    if cap ≤ table.buckets.size ∧ pinned = false then (table, .overflow)
    else ({ table with buckets := table.buckets.insert key (tier.newBucket now) }, .tracked key)

def get : BucketSlot → DualBucket
  | .tracked key => (table.buckets.get? key).getD table.overflow
  | .overflow => table.overflow

def set (slot : BucketSlot) (bucket : DualBucket) : BucketTable :=
  match slot with
  | .tracked key => { table with buckets := table.buckets.insert key bucket }
  | .overflow => { table with overflow := bucket }

end BucketTable

structure RateState where
  (direct authors : BucketTable)
  (unregisteredTotal unregisteredForward global : DualBucket)

structure ChargeCall where
  (directPeer author : PeerId)
  cls : SenderClass
  bytes : Int
  now : Instant

namespace RateState

variable (limits : RateLimits)

def new (now : Instant) : RateState where
  direct := .new limits.directPeer now
  authors := .new limits.unregisteredAuthor now
  unregisteredTotal := limits.unregisteredTotal.newBucket now
  unregisteredForward := limits.unregisteredForward.newBucket now
  global := limits.global.newBucket now

def authorTier (call : ChargeCall) : TierRate :=
  if call.cls.isRegistered then limits.registeredAuthor else limits.unregisteredAuthor

def reserve (call : ChargeCall) : ℚ := if call.cls = .committee then 0 else limits.committeeReserve

variable (state : RateState)

def directSlot (call : ChargeCall) : BucketTable × BucketSlot :=
  state.direct.slot call.directPeer limits.directPeer limits.maxTrackedPeers false call.now

def authorSlot (call : ChargeCall) : BucketTable × BucketSlot :=
  state.authors.slot call.author (authorTier limits call) limits.maxTrackedPeers
    call.cls.isRegistered call.now

/-- All tiers are tested before any is charged; the refilled buckets are kept in any case. -/
def charge (call : ChargeCall) : RateState × Except DropReason Unit :=
  let (directTable, directSlot) := state.directSlot limits call
  let (authorTable, authorSlot) := state.authorSlot limits call
  let (direct, directOk) :=
    limits.directPeer.peekAbove (directTable.get directSlot) call.bytes
      (reserve limits call) call.now
  let (author, authorOk) :=
    (authorTier limits call).peek (authorTable.get authorSlot) call.bytes call.now
  let (unregistered, unregisteredOk) :=
    if call.cls.isRegistered then (state.unregisteredTotal, true)
    else limits.unregisteredTotal.peek state.unregisteredTotal call.bytes call.now
  let (global, globalOk) :=
    limits.global.peekAbove state.global call.bytes (reserve limits call) call.now
  let outcome : Except DropReason Unit :=
    if globalOk = false then .error .globalRate
    else if unregisteredOk = false then .error .unregisteredRate
    else if authorOk = false then .error .authorRate
    else if directOk = false then .error .directPeerRate
    else .ok ()
  let admitted := outcome = .ok ()
  ({ direct := directTable.set directSlot
        (if admitted then limits.directPeer.spend direct call.bytes else direct)
     authors := authorTable.set authorSlot
        (if admitted then (authorTier limits call).spend author call.bytes else author)
     unregisteredTotal :=
        if admitted ∧ call.cls.isRegistered = false then
          limits.unregisteredTotal.spend unregistered call.bytes
        else unregistered
     unregisteredForward := state.unregisteredForward
     global := if admitted then limits.global.spend global call.bytes else global }, outcome)

end RateState

inductive TokenKind where
  | msgs
  | bytes
  deriving DecidableEq

def TokenKind.cost (kind : TokenKind) (bytes : Int) : ℚ :=
  match kind with
  | .msgs => 1
  | .bytes => f64 bytes

def TierRate.burst (tier : TierRate) : TokenKind → ℚ
  | .msgs => f64 tier.msgBurst
  | .bytes => f64 tier.byteBurst

def TierRate.perSec (tier : TierRate) : TokenKind → ℚ
  | .msgs => f64 tier.msgPerSec
  | .bytes => f64 tier.bytePerSec

namespace DualBucket

def part (bucket : DualBucket) : TokenKind → RateBucket
  | .msgs => bucket.msgs
  | .bytes => bucket.bytes

/-- What a look at `now` finds in the bucket. -/
def level (bucket : DualBucket) (tier : TierRate) (kind : TokenKind) (now : Instant) : ℚ :=
  ((bucket.part kind).refill (tier.perSec kind) (tier.burst kind) now).tokens

def settle (bucket : DualBucket) (tier : TierRate) (bytes : Int) (now : Instant) (admitted : Bool) :
    DualBucket :=
  let refilled := (tier.peek bucket bytes now).1
  if admitted then tier.spend refilled bytes else refilled

end DualBucket

theorem TierRate.peekAbove_eq_true_iff {tier : TierRate} {bucket : DualBucket} {bytes : Int}
    {now : Instant} (reserve : ℚ) : (tier.peekAbove bucket bytes reserve now).2 = true ↔
      ∀ kind : TokenKind, f64 (tier.burst kind * reserve) ≤
        f64 (bucket.level tier kind now - kind.cost bytes) := by
  have htest : (tier.peekAbove bucket bytes reserve now).2 = true ↔
      f64 (tier.burst .msgs * reserve) ≤
          f64 (bucket.level tier .msgs now - TokenKind.cost .msgs bytes) ∧
        f64 (tier.burst .bytes * reserve) ≤
          f64 (bucket.level tier .bytes now - TokenKind.cost .bytes bytes) := by
    simp only [peekAbove, Bool.and_eq_true, decide_eq_true_eq]
    rfl
  rw [htest]
  constructor
  · rintro ⟨hm, hb⟩ kind
    cases kind
    · exact hm
    · exact hb
  · intro h
    exact ⟨h .msgs, h .bytes⟩

theorem DualBucket.part_settle (bucket : DualBucket) (tier : TierRate) (bytes : Int) (now : Instant)
    (admitted : Bool) (kind : TokenKind) : (bucket.settle tier bytes now admitted).part kind =
      ⟨if admitted then f64 (bucket.level tier kind now - kind.cost bytes)
        else bucket.level tier kind now, now⟩ := by
  cases admitted <;> cases kind <;> rfl

namespace BucketTable

variable (table : BucketTable)

@[simp]
theorem sweep_overflow (cap : Nat) (now : Instant) :
    (table.sweep cap now).overflow = table.overflow := by
  unfold sweep
  split <;> rfl

theorem get?_sweep (cap : Nat) (now : Instant) (k : PeerId) :
    (table.sweep cap now).buckets.get? k = table.buckets.get? k ∨
      ((table.sweep cap now).buckets.get? k = none ∧ ∃ bucket, table.buckets.get? k = some bucket ∧
        rateBucketIdleForget ≤ Instant.saturatingDurationSince now bucket.msgs.refilledAt) := by
  unfold sweep
  split
  · dsimp only
    rw [Map.get?_retain]
    cases hget : table.buckets.get? k with
    | none => exact .inl rfl
    | some bucket =>
      by_cases hidle : Instant.saturatingDurationSince now bucket.msgs.refilledAt <
        rateBucketIdleForget
      · exact .inl (by rw [Option.filter_some, if_pos (by simpa using hidle)])
      · exact .inr
          ⟨by rw [Option.filter_some, if_neg (by simpa using hidle)], bucket, rfl,
            Nat.le_of_not_lt hidle⟩
  · exact .inl rfl

inductive Seated (table : BucketTable) (key : PeerId) (tier : TierRate) (cap : Nat) (pinned : Bool)
    (now : Instant) : BucketTable × BucketSlot → Prop
  | known (bucket : DualBucket) (h : table.buckets.get? key = some bucket) :
      Seated table key tier cap pinned now (table, .tracked key)
  | shared (h : table.buckets.get? key = none) (hpinned : pinned = false)
      (hfull : cap ≤ (table.sweep cap now).buckets.size) :
      Seated table key tier cap pinned now (table.sweep cap now, .overflow)
  | entered (h : table.buckets.get? key = none) :
      Seated table key tier cap pinned now
        ({ table.sweep cap now with
            buckets := (table.sweep cap now).buckets.insert key (tier.newBucket now) },
          .tracked key)

theorem seated_slot (key : PeerId) (tier : TierRate) (cap : Nat) (pinned : Bool) (now : Instant) :
    Seated table key tier cap pinned now (table.slot key tier cap pinned now) := by
  unfold slot
  cases hget : table.buckets.get? key with
  | some bucket =>
    exact .known bucket hget
  | none =>
    rw [if_neg (by simp)]
    dsimp only
    split
    · rename_i hfull
      exact .shared hget hfull.2 hfull.1
    · exact .entered hget

end BucketTable

namespace RateState

variable {limits : RateLimits} {state : RateState} {call : ChargeCall}

variable (limits state call) in
def admits : Bool := decide ((state.charge limits call).2 = .ok ())

theorem charge_global : (state.charge limits call).1.global =
      state.global.settle limits.global call.bytes call.now (state.admits limits call) := by
  unfold DualBucket.settle admits
  simp only [decide_eq_true_eq]
  rfl

theorem charge_direct : (state.charge limits call).1.direct =
      (state.directSlot limits call).1.set (state.directSlot limits call).2
        (((state.directSlot limits call).1.get (state.directSlot limits call).2).settle
            limits.directPeer
          call.bytes call.now (state.admits limits call)) := by
  unfold DualBucket.settle admits
  simp only [decide_eq_true_eq]
  rfl

def Fits (tier : TierRate) (bucket : DualBucket) (call : ChargeCall) (reserve : ℚ) : Prop :=
  ∀ kind : TokenKind, f64 (tier.burst kind * reserve) ≤
    f64 (bucket.level tier kind call.now - kind.cost call.bytes)

theorem admits_iff :
    state.admits limits call = true ↔ Fits limits.global state.global call (reserve limits call) ∧
        (call.cls.isRegistered = false →
          Fits limits.unregisteredTotal state.unregisteredTotal call 0) ∧
        Fits (authorTier limits call)
          ((state.authorSlot limits call).1.get (state.authorSlot limits call).2) call 0 ∧
        Fits limits.directPeer
          ((state.directSlot limits call).1.get (state.directSlot limits call).2) call
          (reserve limits call) := by
  unfold Fits
  simp only [← TierRate.peekAbove_eq_true_iff]
  unfold admits charge TierRate.peek
  cases hclass : call.cls.isRegistered <;> simp [ite_eq_iff]

theorem charge_eq_globalRate_iff : (state.charge limits call).2 = .error .globalRate ↔
      ¬Fits limits.global state.global call (reserve limits call) := by
  unfold Fits
  rw [← TierRate.peekAbove_eq_true_iff]
  unfold charge
  simp [ite_eq_iff]

theorem not_fits_of_directPeerRate (h : (state.charge limits call).2 = .error .directPeerRate) :
    ¬Fits limits.directPeer ((state.directSlot limits call).1.get (state.directSlot limits call).2)
      call
      (reserve limits call) := by
  unfold Fits
  rw [← TierRate.peekAbove_eq_true_iff]
  unfold charge at h
  simp only [ite_eq_iff] at h
  simp_all

variable (limits)

def next (state : RateState) (call : ChargeCall) : RateState := (state.charge limits call).1

end RateState

end BitvmNode.Admission
