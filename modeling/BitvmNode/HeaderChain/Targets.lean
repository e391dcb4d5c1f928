import Mathlib.Data.Nat.Size
import BitvmNode.HeaderChain.Consensus

/-!
# Compact targets

The Bitcoin library's reading and writing of compact targets and its difficulty adjustment, and the
circuit's own arithmetic on targets compared with them: on every target that a chain can require,
the two read the same number, hashes are compared with it, and work is the quotient of `2 ^ 256`
except where the division is exact.
-/

namespace BitvmNode.HeaderChain

open Reasoning

namespace Target

def fromCompact (bits : UInt32) : Nat :=
  let unshiftedExpt := bits.toNat / 2 ^ 24
  let (mant, expt) :=
    if unshiftedExpt ≤ 3 then ((bits.toNat % 2 ^ 24) >>> (8 * (3 - unshiftedExpt)), 0)
    else (bits.toNat % 2 ^ 24, 8 * (unshiftedExpt - 3))
  if 0x7FFFFF < mant then 0 else (mant <<< expt) % 2 ^ 256

/-- The three leading bytes, or the two leading ones behind a zero if the first would read as a
sign. -/
def toCompactLossy (target : Nat) : UInt32 :=
  let size := (target.size + 7) / 8
  let compact :=
    if size ≤ 3 then ((target % 2 ^ 64) <<< (8 * (3 - size))) % 2 ^ 32
    else (target >>> (8 * (size - 3))) % 2 ^ 32
  if compact &&& 0x00800000 ≠ 0 then UInt32.ofNat (compact >>> 8 ||| (size + 1) <<< 24)
  else UInt32.ofNat (compact ||| size <<< 24)

def maxAttainable : Network → Nat
  | .mainnet | .testnet4 => 0xFFFF <<< 208
  | .signet => 0x377AE <<< 216
  | .regtest => 0x7FFFFF <<< 232

end Target

def powTargetTimespan : Nat := 14 * 24 * 60 * 60

def noPowRetargeting (network : Network) : Bool := network = .regtest

def fromNextWorkRequired (network : Network) (last : UInt32) (timespan : UInt64) : UInt32 :=
  if noPowRetargeting network then last
  else
    let minTimespan := powTargetTimespan >>> 2
    let maxTimespan := powTargetTimespan <<< 2
    let actualTimespan := min (max timespan.toNat minTimespan) maxTimespan
    let prevTarget := Target.fromCompact last
    let maximumRetarget := min ((prevTarget <<< 2) % 2 ^ 256) (Target.maxAttainable network)
    let retarget := prevTarget * actualTimespan % 2 ^ 256 / powTargetTimespan
    if maximumRetarget ≤ retarget then Target.toCompactLossy maximumRetarget
      else Target.toCompactLossy retarget

/-- The compact targets that a chain can come to require. -/
inductive Reachable (cfg : Config) : UInt32 → Prop
  | initial : Reachable cfg cfg.constants.maxBits
  | adjusted {bits : UInt32} (h : Reachable cfg bits) (epochStartTime lastTimestamp : UInt32) :
      Reachable cfg (calculateNewDifficulty cfg epochStartTime lastTimestamp bits)

/-- No sign, and an exponent that keeps the mantissa within 256 bits. -/
def Canonical (bits : UInt32) : Prop := bits.toNat % 2 ^ 24 < 2 ^ 23 ∧ bits.toNat / 2 ^ 24 ≤ 32

instance (bits : UInt32) : Decidable (Canonical bits) := by
  unfold Canonical
  infer_instance

theorem canonical_of_parts {size compact : Nat} (hsize : size ≤ 32) (hcompact : compact < 2 ^ 23) :
    Canonical (UInt32.ofNat (compact ||| size <<< 24)) := by
  have hor : compact ||| size <<< 24 = size * 2 ^ 24 + compact := by
    rw [Nat.or_comm, ← Nat.shiftLeft_add_eq_or_of_lt (by omega : compact < 2 ^ 24),
      Nat.shiftLeft_eq]
  have htoNat : (UInt32.ofNat (compact ||| size <<< 24)).toNat = size * 2 ^ 24 + compact := by
    rw [hor]
    exact u32_toNat_ofNat (by omega)
  unfold Canonical
  omega

theorem and_signBit_ne_zero_iff {compact : Nat} (h : compact < 2 ^ 24) :
    compact &&& 0x00800000 ≠ 0 ↔ 2 ^ 23 ≤ compact := by
  have hand : compact &&& 0x00800000 = (compact.testBit 23).toNat * 2 ^ 23 :=
    Nat.and_two_pow compact 23
  rw [hand, Nat.testBit_eq_decide_div_mod_eq]
  by_cases hbit : 2 ^ 23 ≤ compact
  · have hone : compact / 2 ^ 23 % 2 = 1 := by omega
    simp only [hone, hbit]
    decide
  · have hzero : compact / 2 ^ 23 % 2 = 0 := by omega
    simp only [hzero, hbit]
    decide

theorem toCompactLossy_canonical {target : Nat} (h : target < 2 ^ 255) :
    Canonical (Target.toCompactLossy target) := by
  have hbits : target.size ≤ 255 := Nat.size_le.mpr h
  unfold Target.toCompactLossy
  generalize hsize : (target.size + 7) / 8 = size
  have hfits : target < 2 ^ (8 * size) := Nat.size_le.mp (by omega)
  have hsmall : size ≤ 32 := by omega
  -- the leading bytes, before the sign is looked at
  have hcompact : ∃ compact, (if size ≤ 3 then ((target % 2 ^ 64) <<< (8 * (3 - size))) % 2 ^ 32
      else (target >>> (8 * (size - 3))) % 2 ^ 32) = compact ∧ compact < 2 ^ 24 ∧ (size = 32 →
        compact < 2 ^ 23) := by
    refine ⟨_, rfl, ?_⟩
    by_cases hshort : size ≤ 3
    · rw [if_pos hshort, Nat.shiftLeft_eq]
      have hpow : 2 ^ (8 * size) * 2 ^ (8 * (3 - size)) = 2 ^ 24 := by
        rw [← Nat.pow_add]
        congr 1
        omega
      have hlt : target % 2 ^ 64 * 2 ^ (8 * (3 - size)) < 2 ^ 24 := by
        rw [← hpow]
        exact Nat.mul_lt_mul_of_pos_right ((Nat.mod_le _ _).trans_lt hfits) (Nat.two_pow_pos _)
      omega
    · rw [if_neg hshort, Nat.shiftRight_eq_div_pow]
      have hlt : target / 2 ^ (8 * (size - 3)) < 2 ^ 24 := by
        apply Nat.div_lt_of_lt_mul
        rw [← Nat.pow_add]
        rwa [show 8 * (size - 3) + 24 = 8 * size by omega]
      have hmod := Nat.mod_le (target / 2 ^ (8 * (size - 3))) (2 ^ 32)
      refine ⟨by omega, ?_⟩
      rintro rfl
      have htop : target / 2 ^ (8 * (32 - 3)) < 2 ^ 23 := by
        apply Nat.div_lt_of_lt_mul
        rwa [← Nat.pow_add]
      omega
  obtain ⟨compact, hvalue, hlt, htop⟩ := hcompact
  simp only [hvalue]
  by_cases hsign : compact &&& 0x00800000 ≠ 0
  · rw [if_pos hsign]
    have hset := (and_signBit_ne_zero_iff hlt).mp hsign
    apply canonical_of_parts (by omega)
    rw [Nat.shiftRight_eq_div_pow]
    omega
  · rw [if_neg hsign]
    apply canonical_of_parts hsmall
    have hclear := mt (and_signBit_ne_zero_iff hlt).mpr hsign
    omega

theorem maxAttainable_lt (network : Network) : Target.maxAttainable network < 2 ^ 255 := by
  cases network <;> decide +kernel

theorem fromNextWorkRequired_canonical {network : Network} {last : UInt32} (hlast : Canonical last)
    (timespan : UInt64) : Canonical (fromNextWorkRequired network last timespan) := by
  have hmax := maxAttainable_lt network
  unfold fromNextWorkRequired
  by_cases hfixed : noPowRetargeting network = true
  · rw [if_pos hfixed]
    exact hlast
  · rw [if_neg hfixed]
    dsimp only
    split
    · apply toCompactLossy_canonical
      exact (min_le_right _ _).trans_lt hmax
    · rename_i hbelow
      apply toCompactLossy_canonical
      omega

theorem reachable_canonical {cfg : Config} (hcfg : cfg.fromNextWorkRequired = fromNextWorkRequired)
    {bits : UInt32} (h : Reachable cfg bits) : Canonical bits := by
  induction h with
  | initial =>
    unfold Config.constants
    cases cfg.network <;> decide +kernel
  | adjusted _ _ _ ih =>
    unfold calculateNewDifficulty
    rw [hcfg]
    exact fromNextWorkRequired_canonical ih _

variable {bits : UInt32}

theorem Canonical.shift_lt (h : Canonical bits) :
    (bits.toNat % 2 ^ 24) <<< (8 * (bits.toNat / 2 ^ 24 - 3)) < 2 ^ 255 := by
  have hshift : 2 ^ (8 * (bits.toNat / 2 ^ 24 - 3)) ≤ 2 ^ 232 :=
    Nat.pow_le_pow_right (by omega) (by have := h.2; omega)
  rw [Nat.shiftLeft_eq]
  calc bits.toNat % 2 ^ 24 * 2 ^ (8 * (bits.toNat / 2 ^ 24 - 3))
      ≤ bits.toNat % 2 ^ 24 * 2 ^ 232 := Nat.mul_le_mul_left _ hshift
    _ < 2 ^ 23 * 2 ^ 232 := Nat.mul_lt_mul_of_pos_right h.1 (Nat.two_pow_pos _)
    _ = 2 ^ 255 := by rw [← Nat.pow_add]

theorem Canonical.fromCompact_lt (h : Canonical bits) : Target.fromCompact bits < 2 ^ 255 := by
  have hshift := h.shift_lt
  unfold Target.fromCompact
  by_cases hsize : bits.toNat / 2 ^ 24 ≤ 3
  · simp only [hsize, if_true, Nat.shiftLeft_zero]
    split
    · exact Nat.two_pow_pos _
    · have hmod := Nat.mod_le ((bits.toNat % 2 ^ 24) >>> (8 * (3 - bits.toNat / 2 ^ 24))) (2 ^ 256)
      omega
  · simp only [hsize, if_false]
    split
    · exact Nat.two_pow_pos _
    · rw [Nat.mod_eq_of_lt (by omega)]
      exact hshift

theorem Canonical.beNat_bitsToTarget (h : Canonical bits) :
    beNat (bitsToTarget bits).toList = Target.fromCompact bits := by
  have hmantissa := h.1
  unfold bitsToTarget Target.fromCompact
  rw [beNat_beBytes32]
  by_cases hsize : bits.toNat / 2 ^ 24 ≤ 3
  · have hmant : (bits.toNat % 2 ^ 24) >>> (8 * (3 - bits.toNat / 2 ^ 24)) ≤ bits.toNat % 2 ^ 24 :=
      Nat.shiftRight_le _ _
    simp only [hsize, if_true, Nat.shiftLeft_zero]
    rw [if_neg (by omega)]
  · simp only [hsize, if_false]
    rw [if_neg (by omega), Nat.mod_mod]

theorem calculateWork_eq_iff {target : Bytes32} (h : beNat target.toList < 2 ^ 255) :
    calculateWork target = 2 ^ 256 / (beNat target.toList + 1) ↔
    ¬beNat target.toList + 1 ∣ 2 ^ 256 := by
  have hmin : min (beNat target.toList + 1) (2 ^ 256 - 1) = beNat target.toList + 1 := by omega
  have hsucc : (2 ^ 256 - 1 + 1) / (beNat target.toList + 1) =
      (2 ^ 256 - 1) / (beNat target.toList + 1) +
      if beNat target.toList + 1 ∣ 2 ^ 256 - 1 + 1 then 1 else 0 := Nat.succ_div
  rw [show 2 ^ 256 - 1 + 1 = 2 ^ 256 by norm_num] at hsucc
  unfold calculateWork
  rw [hmin, hsucc]
  simp

/-- On every target that a chain can require, the circuit reads what the library reads, compares
hashes as numbers with it, and computes the work of the target; except that the work is one too low
where `target + 1` divides `2 ^ 256`. -/
theorem target_arithmetic_iff (cfg : Config)
    (hcfg : cfg.fromNextWorkRequired = fromNextWorkRequired) (bits : UInt32)
    (h : Reachable cfg bits) : beNat (bitsToTarget bits).toList = Target.fromCompact bits ∧
      (bits.toNat % 2 ^ 24) <<< (8 * (bits.toNat / 2 ^ 24 - 3)) < 2 ^ 256 ∧
      (∀ hash, checkHashValid hash (bitsToTarget bits) = true ↔
        leNat hash.toList ≤ Target.fromCompact bits) ∧
      (calculateWork (bitsToTarget bits) = 2 ^ 256 / (Target.fromCompact bits + 1) ↔
        ¬Target.fromCompact bits + 1 ∣ 2 ^ 256) := by
  have hcanonical := reachable_canonical hcfg h
  have htarget := hcanonical.beNat_bitsToTarget
  have hsmall := hcanonical.fromCompact_lt
  refine ⟨htarget, ?_, ?_, ?_⟩
  · have hshift := hcanonical.shift_lt
    omega
  · intro hash
    rw [checkHashValid_iff, htarget]
  · rw [← htarget] at hsmall ⊢
    exact calculateWork_eq_iff hsmall

namespace Targets

def config (network : Network) : Config where
  network := network
  sha256 _ := Vector.replicate 32 0
  fromNextWorkRequired := fromNextWorkRequired

theorem initial_target_arithmetic :
    (config .mainnet).fromNextWorkRequired = fromNextWorkRequired ∧
    Reachable (config .mainnet) 0x1D00FFFF ∧
      ¬Target.fromCompact 0x1D00FFFF + 1 ∣ 2 ^ 256 ∧
      calculateWork (bitsToTarget 0x1D00FFFF) = 2 ^ 256 / (Target.fromCompact 0x1D00FFFF + 1) := by
  have hreach : Reachable (config .mainnet) 0x1D00FFFF := .initial
  have hdvd : ¬Target.fromCompact 0x1D00FFFF + 1 ∣ 2 ^ 256 := by decide +kernel
  exact ⟨rfl, hreach, hdvd,
    (target_arithmetic_iff (config .mainnet) rfl 0x1D00FFFF hreach).2.2.2.mpr hdvd⟩

def quartered (bits : UInt32) : UInt32 := calculateNewDifficulty (config .mainnet) 0 0 bits

theorem reachable_quartered (n : Nat) : Reachable (config .mainnet) (quartered^[n] 0x1D00FFFF) := by
  induction n with
  | zero => exact .initial
  | succ n ih =>
    rw [Function.iterate_succ_apply']
    exact .adjusted ih 0 0

/-- After 104 such epochs the target is 65535, and its work is not the quotient. -/
theorem work_of_small_target :
    ∃ bits, Reachable (config .mainnet) bits ∧ Target.fromCompact bits = 65535 ∧
    calculateWork (bitsToTarget bits) = 2 ^ 240 - 1 ∧
    2 ^ 256 / (Target.fromCompact bits + 1) = 2 ^ 240 := by
  have hbits : quartered^[104] 0x1D00FFFF = 0x0300FFFF := by decide +kernel
  refine ⟨0x0300FFFF, hbits ▸ reachable_quartered 104, ?_, ?_, ?_⟩ <;> decide +kernel

end Targets

end BitvmNode.HeaderChain
