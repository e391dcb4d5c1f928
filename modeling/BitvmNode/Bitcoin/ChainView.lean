import BitvmNode.Bitcoin.Transaction
import BitvmNode.Reasoning.Ledgers

/-!
# What the Bitcoin backend reports

The ledger of confirmed and pending Bitcoin transactions as the node reads it, the lookups of the
node's Bitcoin helpers over it, and the size of a transaction from which fees are computed.
-/

namespace BitvmNode.Bitcoin

open Reasoning

namespace Transaction

def spends (tx : Transaction) : List OutPoint := tx.input.map TxIn.previousOutput

@[simp] theorem spends_stripWitness (tx : Transaction) : tx.stripWitness.spends = tx.spends := by
  simp [spends, stripWitness, Function.comp_def]

def witnessSize (witness : List Bytes) : Nat :=
  (varInt witness.length).length + (witness.map fun item => (varBytes item).length).sum

def usesSegwitSerialization (tx : Transaction) : Bool :=
  tx.input.any (fun i => !i.witness.isEmpty) || tx.input.isEmpty

def baseSize (tx : Transaction) : Nat := tx.encode.length

def totalSize (tx : Transaction) : Nat :=
  if tx.usesSegwitSerialization then
    2 + tx.baseSize + (tx.input.map fun i => witnessSize i.witness).sum
  else tx.baseSize

def weight (tx : Transaction) : Nat := 3 * tx.baseSize + tx.totalSize

def toVbytesCeil (weight : Nat) : Nat := (weight + 3) / 4

end Transaction

/-- Transactions are named by their txid, which commits to everything but the witnesses. -/
def txModel (sha256 : Bytes → Bytes32) : TxModel Transaction Bytes32 Transaction OutPoint where
  txid := Transaction.computeTxid sha256
  body := Transaction.stripWitness
  spends := Transaction.spends
  owner := OutPoint.txid
  spends_congr t u h := by
    rw [← Transaction.spends_stripWitness t, h, Transaction.spends_stripWitness]

abbrev ChainView (sha256 : Bytes → Bytes32) (watched : List Transaction) :=
  Ledger (txModel sha256) watched

namespace ChainView

variable {sha256 : Bytes → Bytes32} {watched : List Transaction} (btc : ChainView sha256 watched)

def txVisible (txid : Bytes32) : Bool := btc.isVisible txid

def txConfirmed (txid : Bytes32) : Bool := btc.isConfirmed txid

def outpointSpentTxid (o : OutPoint) : Option Bytes32 := btc.spentBy o

/-- A pending spend can be replaced, so that nothing irreversible is decided on it. -/
def outpointSpentConfirmed (o : OutPoint) : Option Bytes32 :=
  match btc.outpointSpentTxid o with
  | some spentTxid => if btc.txConfirmed spentTxid then some spentTxid else none
  | none => none

def outpointSpentTxin (o : OutPoint) : Option (Bytes32 × Nat × TxIn) :=
  match btc.spender o with
  | some tx =>
      let vin := tx.spends.idxOf o
      match btc.lookup (tx.computeTxid sha256) with
      | some spentTx => spentTx.input[vin]?.map fun txin => (tx.computeTxid sha256, vin, txin)
      | none => none
  | none => none

theorem outpointSpentConfirmed_eq (o : OutPoint) :
    btc.outpointSpentConfirmed o = btc.confirmedSpender o := by
  unfold outpointSpentConfirmed outpointSpentTxid Ledger.confirmedSpender txConfirmed
  cases btc.spentBy o with
  | none => rfl
  | some id => rw [Option.filter_some]

theorem exists_outpointSpentTxin {o : OutPoint} {tx : Transaction} (h : btc.spender o = some tx) :
    ∃ txin, btc.outpointSpentTxin o = some (tx.computeTxid sha256, tx.spends.idxOf o, txin) := by
  obtain ⟨hknown, hspends⟩ := Ledger.of_spender h
  obtain ⟨found, hfound, hsame⟩ := Ledger.exists_lookup hknown
  have hlt : tx.spends.idxOf o < found.input.length := by
    have hlength := congrArg List.length hsame
    rw [← List.length_map TxIn.previousOutput]
    exact hlength ▸ List.idxOf_lt_length_of_mem hspends
  refine ⟨found.input[tx.spends.idxOf o], ?_⟩
  unfold outpointSpentTxin
  change btc.lookup (tx.computeTxid sha256) = some found at hfound
  simp only [h, hfound, List.getElem?_eq_getElem hlt, Option.map_some]

end ChainView

end BitvmNode.Bitcoin
