import BitvmNode.Reasoning.Bytes

/-!
# Bitcoin transactions

The transaction types of the Bitcoin library and their consensus encoding without witnesses, which
is what a transaction id commits to.
-/

namespace BitvmNode.Bitcoin

open Reasoning

structure OutPoint where
  txid : Bytes32
  vout : UInt32
  deriving DecidableEq

structure TxIn where
  previousOutput : OutPoint
  scriptSig : Bytes
  sequence : UInt32
  witness : List Bytes
  deriving DecidableEq

structure TxOut where
  value : UInt64
  scriptPubkey : Bytes
  deriving DecidableEq

structure Transaction where
  version : Int32
  lockTime : UInt32
  input : List TxIn
  output : List TxOut
  deriving DecidableEq

/-- The sum of amounts adds the numbers of satoshi unchecked: it wraps. -/
def sumAmounts (amounts : List UInt64) : UInt64 := amounts.foldl (· + ·) 0

theorem toNat_foldl_add (amounts : List UInt64) (start : UInt64) :
    (amounts.foldl (· + ·) start).toNat = (start.toNat + (amounts.map UInt64.toNat).sum) %
      2 ^ 64 := by
  induction amounts generalizing start with
  | nil => simp [Nat.mod_eq_of_lt start.toNat_lt]
  | cons amount amounts ih =>
    rw [List.foldl_cons, ih, UInt64.toNat_add, List.map_cons, List.sum_cons, Nat.mod_add_mod,
      Nat.add_assoc]

theorem toNat_sumAmounts {amounts : List UInt64} (h : (amounts.map UInt64.toNat).sum < 2 ^ 64) :
    (sumAmounts amounts).toNat = (amounts.map UInt64.toNat).sum := by
  rw [sumAmounts, toNat_foldl_add, UInt64.toNat_zero, Nat.zero_add, Nat.mod_eq_of_lt h]

def varInt (n : Nat) : Bytes :=
  if n < 0xFD then leBytes 1 n
  else if n ≤ 0xFFFF then 0xFD :: leBytes 2 n
  else if n ≤ 0xFFFFFFFF then 0xFE :: leBytes 4 n
  else 0xFF :: leBytes 8 n

def varBytes (bs : Bytes) : Bytes := varInt bs.length ++ bs

def OutPoint.encode (o : OutPoint) : Bytes := o.txid.toList ++ leBytes 4 o.vout.toNat

def TxIn.encode (i : TxIn) : Bytes :=
  i.previousOutput.encode ++ varBytes i.scriptSig ++ leBytes 4 i.sequence.toNat

def TxOut.encode (o : TxOut) : Bytes := leBytes 8 o.value.toNat ++ varBytes o.scriptPubkey

def Transaction.encode (tx : Transaction) : Bytes :=
  leBytes 4 tx.version.toUInt32.toNat ++
    (varInt tx.input.length ++ (tx.input.map TxIn.encode).flatten) ++
    (varInt tx.output.length ++ (tx.output.map TxOut.encode).flatten) ++
    leBytes 4 tx.lockTime.toNat

def Transaction.computeTxid (sha256 : Bytes → Bytes32) (tx : Transaction) : Bytes32 :=
  sha256 (sha256 tx.encode).toList

def Transaction.stripWitness (tx : Transaction) : Transaction :=
  { tx with input := tx.input.map fun i => { i with witness := [] } }

theorem Transaction.encode_stripWitness (tx : Transaction) :
    tx.stripWitness.encode = tx.encode := by
  unfold Transaction.encode Transaction.stripWitness
  rw [List.length_map, List.map_map]
  rfl

theorem Transaction.computeTxid_stripWitness (sha256 : Bytes → Bytes32) (tx : Transaction) :
    tx.stripWitness.computeTxid sha256 = tx.computeTxid sha256 := by
  unfold Transaction.computeTxid
  rw [Transaction.encode_stripWitness]

end BitvmNode.Bitcoin
