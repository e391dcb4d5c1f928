import BitvmNode.Pegout.ChainState

/-!
# Steps of the settlement jobs

A job looks at the chain, broadcasts or not, and either ends, asks to be run again, or fails.
-/

namespace BitvmNode.Pegout

open Reasoning Bitcoin

inductive Delay where
  | blocks (n : Nat)
  | secs (n : Nat)
  deriving DecidableEq

inductive StepOutcome where
  | done (note : String)
  | retry (reason : String) (after : Delay)
  | failed (error : String)
  deriving DecidableEq

structure StepRun where
  broadcast : List Transaction
  outcome : StepOutcome
  deriving DecidableEq

namespace StepRun

def ignore (note : String) : StepRun := ⟨[], .done note⟩

def fail (error : String) : StepRun := ⟨[], .failed error⟩

def afterBlocks (reason : String) (blocks : Nat) : StepRun :=
  ⟨[], .retry reason (.blocks (max blocks 1))⟩

def broadcastPending (txs : List Transaction) (what : String) : StepRun :=
  ⟨txs, .retry (what ++ " broadcast; waiting for its confirmation") (.blocks 1)⟩

def Ended (run : StepRun) : Prop := ∃ note, run.outcome = .done note

instance (run : StepRun) : Decidable run.Ended :=
  match h : run.outcome with
  | .done note => isTrue ⟨note, h⟩
  | .retry _ _ => isFalse fun ⟨_, h'⟩ => by rw [h] at h'; cases h'
  | .failed _ => isFalse fun ⟨_, h'⟩ => by rw [h] at h'; cases h'

@[simp] theorem ended_ignore (note : String) : (ignore note).Ended := ⟨note, rfl⟩

@[simp] theorem not_ended_fail (error : String) : ¬ (fail error).Ended := by
  rintro ⟨_, h⟩
  cases h

@[simp] theorem not_ended_afterBlocks (reason : String) (blocks : Nat) :
    ¬ (afterBlocks reason blocks).Ended := by
  rintro ⟨_, h⟩
  cases h

@[simp] theorem not_ended_broadcastPending (txs : List Transaction) (what : String) :
    ¬ (broadcastPending txs what).Ended := by
  rintro ⟨_, h⟩
  cases h

end StepRun

/-- A txid is written with its bytes reversed. -/
def displayTxid (txid : Bytes32) : String := hexEncode txid.toList.reverse

inductive Spend where
  | unspent
  | pending (txid : Bytes32)
  | confirmed (txid : Bytes32)

inductive Presence where
  | absent
  | mempool
  | confirmed

section Looks

variable {sha256 : Bytes → Bytes32} {watched : List Transaction} (btc : ChainView sha256 watched)

def spendOf (o : OutPoint) : Spend :=
  match btc.outpointSpentTxid o with
  | none => .unspent
  | some spender => if btc.txConfirmed spender then .confirmed spender else .pending spender

def presenceOf (txid : Bytes32) : Presence :=
  if btc.txVisible txid = false then .absent
  else if btc.txConfirmed txid then .confirmed
  else .mempool

theorem spendOf_eq_unspent_iff (o : OutPoint) :
    spendOf btc o = .unspent ↔ btc.spentBy o = none := by
  unfold spendOf ChainView.outpointSpentTxid
  cases btc.spentBy o with
  | none => simp
  | some spender => by_cases h : btc.txConfirmed spender <;> simp [h]

theorem presenceOf_eq_absent_iff (txid : Bytes32) :
    presenceOf btc txid = .absent ↔ btc.isVisible txid = false := by
  unfold presenceOf ChainView.txVisible
  by_cases h : btc.isVisible txid = false
  · simp [h]
  · by_cases hconf : btc.txConfirmed txid <;> simp [h, hconf]

theorem presenceOf_eq_confirmed_iff (txid : Bytes32) :
    presenceOf btc txid = .confirmed ↔ btc.isConfirmed txid = true := by
  unfold presenceOf ChainView.txVisible ChainView.txConfirmed
  by_cases hconf : btc.isConfirmed txid = true
  · have hvisible := Ledger.isVisible_of_isConfirmed hconf
    simp [hconf, hvisible]
  · by_cases h : btc.isVisible txid = false <;> simp [h, hconf]

end Looks

def settledBy (spend : Spend) (what : String) : Option StepRun :=
  match spend with
  | .unspent => none
  | .confirmed by_ => some (.ignore (what ++ " already spent by " ++ displayTxid by_))
  | .pending by_ => some (.afterBlocks (what ++ " spent by unconfirmed " ++ displayTxid by_) 1)

theorem settledBy_eq_none_iff (spend : Spend) (what : String) :
    settledBy spend what = none ↔ spend = .unspent := by
  cases spend <;> simp [settledBy]

def present (presence : Presence) (what : String) : Option StepRun :=
  match presence with
  | .absent => none
  | .confirmed => some (.ignore (what ++ " is confirmed"))
  | .mempool => some (.afterBlocks (what ++ " is in the mempool") 1)

end BitvmNode.Pegout
