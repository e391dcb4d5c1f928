import BitvmNode.Bitcoin.Transaction
import BitvmNode.Reasoning.Encodings

/-!
# Witnesses of swap claims

The witness of a claim holds the paying transaction behind a length of 256 bits.  The length is
added to the offset of the transaction before it is compared with the length of the witness, in
machine words of 64 bits.  What a sum that does not fit does depends on how the program was built:
it stops, or the sum wraps.

The outer `none` stands for a panic.
-/

namespace BitvmNode.Swap

open Reasoning Bitcoin

inductive Build where
  | checked
  | wrapping

def Build.add (build : Build) (a b : Nat) : Option Nat :=
  if a + b < 2 ^ 64 then some (a + b)
  else
    match build with
    | .checked => none
    | .wrapping => some ((a + b) % 2 ^ 64)

def slice (bytes : Bytes) (start stop : Nat) : Option Bytes :=
  if start ≤ stop ∧ stop ≤ bytes.length then some ((bytes.drop start).take (stop - start)) else none

structure ClaimData where
  txid : Bytes32
  (nonce outputAmount : UInt64)
  outputScript : Bytes
  confirmations : UInt32
  btcRelayContract : Bytes
  witness : String

structure TransactionCodec where
  deserialize : Bytes → Except String Transaction
  computeTxid : Transaction → Bytes32

/-- The lock time below or above the limit of block heights, and the low bits of the first sequence
number. -/
def claimNonce (lockTime sequence : UInt32) : UInt64 :=
  let lockTimeVal := if lockTime ≥ 500000000 then lockTime - 500000000 else lockTime
  (lockTimeVal.toUInt64 <<< 24) ||| (sequence.toUInt64 &&& 0x00ffffff)

def claimDataOf (codec : TransactionCodec) (witness : Bytes) (confirmations : UInt32)
    (btcRelayContract : Bytes) (vout : Nat) (txBytes : Bytes) : Except String ClaimData :=
  match codec.deserialize txBytes with
  | .error e => .error e
  | .ok tx =>
      match tx.output[vout]? with
      | none => .error "vout index out of bounds"
      | some output =>
          match tx.input[0]? with
          | none => .error "transaction has no inputs"
          | some first => .ok
              { txid := codec.computeTxid tx
                nonce := claimNonce tx.lockTime first.sequence
                outputAmount := output.value
                outputScript := output.scriptPubkey
                confirmations
                btcRelayContract
                witness := hexEncode witness }

def field (witness : Bytes) (offset length : Nat) : Bytes := (witness.drop offset).take length

def txLen (witness : Bytes) : Nat := beNat (field witness 220 32)

def claimDataFromWitness (build : Build) (codec : TransactionCodec) (witness : Bytes) :
    Option (Except String ClaimData) :=
  if witness.length < 32 then some (.error "witness too short for txoHash")
  else if witness.length < 32 + 4 then some (.error "witness too short for confirmations")
  else if witness.length < 36 + 20 then some (.error "witness too short for btcRelayContract")
  else if witness.length < 56 + 160 then some (.error "witness too short for blockheader")
  else if witness.length < 216 + 4 then some (.error "witness too short for vout")
  else if witness.length < 220 + 32 then some (.error "witness too short for transaction length")
  else if 2 ^ 64 ≤ txLen witness then some (.error "tx length too large")
  else do
    let stop ← build.add 252 (txLen witness)
    if witness.length < stop then some (.error "witness too short for transaction data")
    else do
      let txBytes ← slice witness 252 stop
      some (claimDataOf codec witness (UInt32.ofNat (beNat (field witness 32 4)))
        (field witness 36 20) (beNat (field witness 216 4)) txBytes)

def LengthWraps (witness : Bytes) : Prop :=
  252 ≤ witness.length ∧ 2 ^ 64 - 252 ≤ txLen witness ∧ txLen witness < 2 ^ 64

/-- The claim has its fields where the contract has them, with the transaction in the bytes after
its length. -/
def FieldsAt (codec : TransactionCodec) (witness : Bytes) (data : ClaimData) : Prop :=
  252 + txLen witness ≤ witness.length ∧
    claimDataOf codec witness (UInt32.ofNat (beNat (field witness 32 4))) (field witness 36 20)
      (beNat (field witness 216 4)) (field witness 252 (txLen witness)) = .ok data

section

variable {build : Build} {codec : TransactionCodec} {witness : Bytes}

theorem claimDataFromWitness_of_long (h : 252 ≤ witness.length) (hlen : txLen witness < 2 ^ 64) :
    claimDataFromWitness build codec witness = (build.add 252 (txLen witness)).bind fun stop =>
      if witness.length < stop then some (.error "witness too short for transaction data")
      else (slice witness 252 stop).bind fun txBytes =>
        some (claimDataOf codec witness (UInt32.ofNat (beNat (field witness 32 4)))
            (field witness 36 20)
          (beNat (field witness 216 4)) txBytes) := by
  unfold claimDataFromWitness
  rw [if_neg (by omega), if_neg (by omega), if_neg (by omega), if_neg (by omega), if_neg (by omega),
    if_neg (by omega), if_neg (by omega)]
  rfl

/-- A sum that wraps ends in front of the transaction, which the comparison lets pass and the slice
does not. -/
theorem claimDataFromWitness_of_wraps (h : LengthWraps witness) :
    claimDataFromWitness build codec witness = none := by
  obtain ⟨hlong, hge, hlt⟩ := h
  rw [claimDataFromWitness_of_long hlong hlt]
  unfold Build.add
  rw [if_neg (by omega)]
  cases build with
  | checked => rfl
  | wrapping =>
    have hwrapped : (252 + txLen witness) % 2 ^ 64 = 252 + txLen witness - 2 ^ 64 := by omega
    have hslice : slice witness 252 (252 + txLen witness - 2 ^ 64) = none := by
      unfold slice
      rw [if_neg (by omega)]
    rw [hwrapped, Option.bind_some, if_neg (by omega), hslice]
    rfl

theorem claimDataFromWitness_of_fits (hlong : 252 ≤ witness.length)
    (hlen : txLen witness < 2 ^ 64 - 252) : claimDataFromWitness build codec witness =
      some (if witness.length < 252 + txLen witness then
          .error "witness too short for transaction data"
        else claimDataOf codec witness (UInt32.ofNat (beNat (field witness 32 4)))
          (field witness 36 20)
          (beNat (field witness 216 4)) (field witness 252 (txLen witness))) := by
  rw [claimDataFromWitness_of_long hlong (by omega)]
  unfold Build.add
  rw [if_pos (by omega), Option.bind_some]
  split
  · rfl
  · have hslice : slice witness 252 (252 + txLen witness) =
      some (field witness 252 (txLen witness)) := by
      unfold slice field
      rw [if_pos (by omega), Nat.add_sub_cancel_left]
    rw [hslice]
    rfl

theorem claimDataFromWitness_of_short (h : witness.length < 252) :
    ∃ message, claimDataFromWitness build codec witness = some (.error message) := by
  unfold claimDataFromWitness
  split_ifs <;> exact ⟨_, rfl⟩

theorem claimDataFromWitness_of_large (hlong : 252 ≤ witness.length)
    (hlen : 2 ^ 64 ≤ txLen witness) :
    claimDataFromWitness build codec witness = some (.error "tx length too large") := by
  unfold claimDataFromWitness
  rw [if_neg (by omega), if_neg (by omega), if_neg (by omega), if_neg (by omega), if_neg (by omega),
    if_neg (by omega), if_pos hlen]

/-- A witness is answered exactly when its length word does not wrap, and the answer has the fields
of the witness. -/
theorem claimDataFromWitness_returns_iff (build : Build) (codec : TransactionCodec)
    (witness : Bytes) :
    ((claimDataFromWitness build codec witness).isSome ↔ ¬ LengthWraps witness) ∧
      ∀ data, claimDataFromWitness build codec witness = some (.ok data) →
        FieldsAt codec witness data := by
  by_cases hshort : witness.length < 252
  · obtain ⟨message, hmessage⟩ := @claimDataFromWitness_of_short build codec witness hshort
    rw [hmessage]
    exact ⟨⟨fun _ h => absurd h.1 (by omega), fun _ => rfl⟩, nofun⟩
  · by_cases hlarge : 2 ^ 64 ≤ txLen witness
    · rw [claimDataFromWitness_of_large (by omega) hlarge]
      exact ⟨⟨fun _ h => absurd h.2.2 (by omega), fun _ => rfl⟩, nofun⟩
    · by_cases hwraps : LengthWraps witness
      · rw [claimDataFromWitness_of_wraps hwraps]
        exact ⟨⟨nofun, fun h => absurd hwraps h⟩, nofun⟩
      · have hfits : txLen witness < 2 ^ 64 - 252 := by
          by_contra hge
          exact hwraps ⟨by omega, by omega, by omega⟩
        rw [claimDataFromWitness_of_fits (by omega) hfits]
        refine ⟨⟨fun _ => hwraps, fun _ => rfl⟩, fun data hdata => ?_⟩
        by_cases hmissing : witness.length < 252 + txLen witness
        · rw [if_pos hmissing] at hdata
          cases hdata
        · rw [if_neg hmissing] at hdata
          exact ⟨by omega, Option.some.inj hdata⟩

end

def wrappingWitness : Bytes := List.replicate 244 0 ++ List.replicate 8 255

def noTransactions : TransactionCodec where
  deserialize := fun _ => .error "unexpected end of file"
  computeTxid := fun _ => Vector.replicate 32 0

/-- No build answers it. -/
theorem wrapping_witness_panics :
    claimDataFromWitness .checked noTransactions wrappingWitness = none ∧
      claimDataFromWitness .wrapping noTransactions wrappingWitness = none := by
  have hwraps : LengthWraps wrappingWitness := by
    unfold LengthWraps
    decide +kernel
  exact ⟨claimDataFromWitness_of_wraps hwraps, claimDataFromWitness_of_wraps hwraps⟩

end BitvmNode.Swap
