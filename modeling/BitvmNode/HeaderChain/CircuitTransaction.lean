import BitvmNode.HeaderChain.Spv
import BitvmNode.Reasoning.Codecs

/-!
# Transactions as the circuits read them

A circuit gets its transactions in a hand-written Borsh form: version, lock time, inputs with their
witnesses, outputs.
-/

namespace BitvmNode.HeaderChain

open Reasoning Bitcoin

/-- A length as a machine word; no vector has more entries than such a word counts. -/
def writeUsize (n : Nat) : Option Bytes := if n < 2 ^ 64 then some (leBytes 8 n) else none

def readUsize : Reader Nat := readNat 8

def serializeTxin (txin : TxIn) : Option Bytes := do
  let scriptSig ← writeVec txin.scriptSig
  let witness ← writeVecOf writeVec txin.witness
  some (txin.previousOutput.txid.toList ++ (leBytes 4 txin.previousOutput.vout.toNat ++
    (scriptSig ++ (leBytes 4 txin.sequence.toNat ++ witness))))

def deserializeTxin : Reader TxIn := do
  let txid ← readArray32
  let vout ← readU32
  let scriptSig ← readVec
  let sequence ← readU32
  let witness ← readVecOf readVec
  pure ⟨⟨txid, vout⟩, scriptSig, sequence, witness⟩

def serializeTxout (txout : TxOut) : Option Bytes := do
  let scriptPubkey ← writeVec txout.scriptPubkey
  some (leBytes 8 txout.value.toNat ++ scriptPubkey)

def deserializeTxout : Reader TxOut := do
  let value ← readU64
  let scriptPubkey ← readVec
  pure ⟨value, scriptPubkey⟩

namespace CircuitTransaction

def serialize (tx : Transaction) : Option Bytes := do
  let inputLen ← writeUsize tx.input.length
  let input ← writeItems serializeTxin tx.input
  let outputLen ← writeUsize tx.output.length
  let output ← writeItems serializeTxout tx.output
  some (leBytes 4 tx.version.toUInt32.toNat ++ (leBytes 4 tx.lockTime.toNat ++
    (inputLen ++ (input ++ (outputLen ++ output)))))

def deserializeReader : Reader Transaction := do
  let version ← readU32
  let lockTime ← readU32
  let inputLen ← readUsize
  let input ← readItems deserializeTxin inputLen
  let outputLen ← readUsize
  let output ← readItems deserializeTxout outputLen
  pure ⟨version.toInt32, lockTime, input, output⟩

def txid (sha256 : Bytes → Bytes32) (tx : Transaction) : Bytes32 :=
  let version := leBytes 4 tx.version.toUInt32.toNat
  let input := varInt tx.input.length ++ (tx.input.map TxIn.encode).flatten
  let output := varInt tx.output.length ++ (tx.output.map TxOut.encode).flatten
  let lockTime := leBytes 4 tx.lockTime.toNat
  calculateDoubleSha256 sha256 (version ++ input ++ output ++ lockTime)

theorem txid_eq (sha256 : Bytes → Bytes32) (tx : Transaction) : txid sha256 tx =
    HeaderChain.txid sha256 tx := rfl

end CircuitTransaction

theorem reads_readUsize {n : Nat} {bytes : Bytes} (h : writeUsize n = some bytes) :
    Reads readUsize bytes n := by
  unfold writeUsize at h
  split at h
  · rename_i hlt
    cases h
    exact reads_readNat hlt
  · cases h

theorem deserializeTxin_readsBack : ReadsBack deserializeTxin serializeTxin := by
  intro txin bytes h
  obtain ⟨scriptSig, hscript, h⟩ := Option.bind_eq_some_iff.mp h
  obtain ⟨witness, hwitness, h⟩ := Option.bind_eq_some_iff.mp h
  cases h
  have hreadScript := readVec_readsBack _ _ hscript
  have hreadWitness := readVec_readsBack.vecOf _ _ hwitness
  apply (reads_readArray32 txin.previousOutput.txid).bind
  apply (reads_readU32 txin.previousOutput.vout).bind
  apply hreadScript.bind
  apply (reads_readU32 txin.sequence).bind
  exact hreadWitness.bind_pure

theorem deserializeTxout_readsBack : ReadsBack deserializeTxout serializeTxout := by
  intro txout bytes h
  obtain ⟨scriptPubkey, hscript, h⟩ := Option.bind_eq_some_iff.mp h
  cases h
  apply (reads_readU64 txout.value).bind
  exact (readVec_readsBack _ _ hscript).bind_pure

theorem deserializeReader_readsBack :
    ReadsBack CircuitTransaction.deserializeReader CircuitTransaction.serialize := by
  intro tx bytes h
  obtain ⟨inputLen, hinputLen, h⟩ := Option.bind_eq_some_iff.mp h
  obtain ⟨input, hinput, h⟩ := Option.bind_eq_some_iff.mp h
  obtain ⟨outputLen, houtputLen, h⟩ := Option.bind_eq_some_iff.mp h
  obtain ⟨output, houtput, h⟩ := Option.bind_eq_some_iff.mp h
  cases h
  have hreadInput := deserializeTxin_readsBack.items hinput
  have hreadOutput := deserializeTxout_readsBack.items houtput
  apply (reads_readU32 tx.version.toUInt32).bind
  apply (reads_readU32 tx.lockTime).bind
  apply (reads_readUsize hinputLen).bind
  apply hreadInput.bind
  apply (reads_readUsize houtputLen).bind
  exact hreadOutput.bind_pure

structure Encodable (tx : Transaction) : Prop where
  input_length : tx.input.length < 2 ^ 64
  output_length : tx.output.length < 2 ^ 64
  scriptSig_length : ∀ txin ∈ tx.input, txin.scriptSig.length < 2 ^ 32
  witness_length : ∀ txin ∈ tx.input, txin.witness.length < 2 ^ 32
  witness_item_length : ∀ txin ∈ tx.input, ∀ item ∈ txin.witness, item.length < 2 ^ 32
  scriptPubkey_length : ∀ txout ∈ tx.output, txout.scriptPubkey.length < 2 ^ 32

theorem serializeTxin_isSome_iff {txin : TxIn} :
    (serializeTxin txin).isSome ↔ txin.scriptSig.length < 2 ^ 32 ∧
      txin.witness.length < 2 ^ 32 ∧ ∀ item ∈ txin.witness, item.length < 2 ^ 32 := by
  have hscript : txin.scriptSig.length < 2 ^ 32 ↔ (writeVec txin.scriptSig).isSome :=
    writeVec_isSome_iff.symm
  have hitems : (∀ item ∈ txin.witness, item.length < 2 ^ 32) ↔
      ∀ item ∈ txin.witness, (writeVec item).isSome := by
    simp only [writeVec_isSome_iff]
  rw [hscript, hitems, ← writeVecOf_isSome_iff, serializeTxin]
  cases writeVec txin.scriptSig with
  | none => simp
  | some scriptSig => cases writeVecOf writeVec txin.witness <;> simp

theorem serializeTxout_isSome_iff {txout : TxOut} :
    (serializeTxout txout).isSome ↔ txout.scriptPubkey.length < 2 ^ 32 := by
  rw [← writeVec_isSome_iff, serializeTxout]
  cases writeVec txout.scriptPubkey <;> simp

theorem writeUsize_isSome_iff {n : Nat} : (writeUsize n).isSome ↔ n < 2 ^ 64 := by
  unfold writeUsize
  by_cases hlt : n < 2 ^ 64
  · rw [if_pos hlt]
    exact iff_of_true rfl hlt
  · rw [if_neg hlt]
    exact iff_of_false Bool.false_ne_true hlt

theorem serialize_isSome_iff {tx : Transaction} :
    (CircuitTransaction.serialize tx).isSome ↔ Encodable tx := by
  have hparts : (CircuitTransaction.serialize tx).isSome ↔
      (writeUsize tx.input.length).isSome ∧ (writeItems serializeTxin tx.input).isSome ∧
      (writeUsize tx.output.length).isSome ∧ (writeItems serializeTxout tx.output).isSome := by
    rw [CircuitTransaction.serialize]
    cases writeUsize tx.input.length with
    | none => simp
    | some inputLen =>
      cases writeItems serializeTxin tx.input with
      | none => simp
      | some input =>
        cases writeUsize tx.output.length with
        | none => simp
        | some outputLen => cases writeItems serializeTxout tx.output <;> simp
  rw [hparts, writeUsize_isSome_iff, writeUsize_isSome_iff, writeItems_isSome_iff,
    writeItems_isSome_iff]
  simp only [serializeTxin_isSome_iff, serializeTxout_isSome_iff]
  constructor
  · rintro ⟨hinputs, hinput, houtputs, houtput⟩
    exact ⟨hinputs, houtputs, fun i hi => (hinput i hi).1, fun i hi => (hinput i hi).2.1,
      fun i hi => (hinput i hi).2.2, houtput⟩
  · intro h
    exact ⟨h.input_length, fun i hi => ⟨h.scriptSig_length i hi, h.witness_length i hi,
      h.witness_item_length i hi⟩, h.output_length, h.scriptPubkey_length⟩

/-- The serialization of a transaction, followed by anything, is read as the same transaction and
used up exactly; no two transactions share one; every transaction whose lengths fit has one; and the
id computed of what was read is the double hash of the consensus encoding without witnesses. -/
theorem circuit_transaction_encoding (sha256 : Bytes → Bytes32) :
    (∀ tx bytes, CircuitTransaction.serialize tx = some bytes → ∀ rest,
      ∃ read, CircuitTransaction.deserializeReader.run (bytes ++ rest) =
        some (read, rest) ∧ read = tx ∧
        CircuitTransaction.txid sha256 read = sha256 (sha256 tx.stripWitness.encode).toList) ∧
    (∀ tx tx' bytes, CircuitTransaction.serialize tx = some bytes →
      CircuitTransaction.serialize tx' = some bytes → tx = tx') ∧
    ∀ tx, (CircuitTransaction.serialize tx).isSome ↔ Encodable tx := by
  refine ⟨?_, fun tx tx' bytes h h' => deserializeReader_readsBack.injective h h',
    fun tx => serialize_isSome_iff⟩
  intro tx bytes h rest
  refine ⟨tx, deserializeReader_readsBack tx bytes h rest, rfl, ?_⟩
  rw [CircuitTransaction.txid_eq, Transaction.encode_stripWitness]
  rfl

end BitvmNode.HeaderChain
