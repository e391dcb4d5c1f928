import BitvmNode.Bitcoin.Script
import BitvmNode.Bitcoin.Sighash
import BitvmNode.Reasoning.Encodings
import BitvmNode.Reasoning.HashTrees

/-!
# Publisher sets

The multisig script of a publisher set, and the check of a witness that spends it.  The hash, the
DER parser and ECDSA are parameters.
-/

namespace BitvmNode.CommitChain

open Reasoning Bitcoin

abbrev PublicKey := Vector UInt8 33

instance : LawfulBEq PublicKey := Vector.instLawfulBEq

abbrev EcdsaSignature := Bytes

structure Secp where
  sha256 : Bytes → Bytes32
  fromDer : Bytes → Option EcdsaSignature
  verifyEcdsa : Bytes32 → EcdsaSignature → PublicKey → Bool

def firstDuplicate (seen : List PublicKey) : List PublicKey → Option PublicKey
  | [] => none
  | pk :: pks => if pk ∈ seen then some pk else firstDuplicate (pk :: seen) pks

def validatePublisherSet (publicKeys : List PublicKey) (threshold : Nat) : Except String Unit :=
  let total := publicKeys.length
  if publicKeys = [] ∨ total > 20 ∨ threshold = 0 ∨ threshold > total then
    .error (s!"Invalid Publisher set: public key count {total}, threshold {threshold}; " ++
      "expected 1 to 20 public keys and a threshold between 1 and the public key count")
  else
    match firstDuplicate [] publicKeys with
    | some publicKey =>
        let text := hexEncode publicKey.toList
        .error s!"Duplicate Publisher public key: {text}"
    | none => .ok ()

def multisigScript (publicKeys : List PublicKey) (threshold : Nat) : Bytes :=
  Script.pushInt threshold ++ (publicKeys.flatMap fun pk => 0x21 :: pk.toList) ++
    Script.pushInt publicKeys.length ++ [Script.opCheckMultisig]

def createSequencerUpdateScript (publicKeys : List PublicKey) (threshold : Nat) : Option Bytes :=
  match validatePublisherSet publicKeys threshold with
  | .error _ => none
  | .ok () => some (multisigScript publicKeys threshold)

inductive WitnessError where
  | prevoutMismatch
  | witnessTooShort
  | redeemScriptMismatch
  | signatureTooShort (index : Nat)
  | invalidDer (index : Nat)
  | sighash
  deriving DecidableEq

variable (secp : Secp)

def parseSig (i : Nat) (raw : Bytes) : Except WitnessError (EcdsaSignature × EcdsaSighashType) :=
  match raw.getLast? with
  | none => .error (.signatureTooShort i)
  | some flag =>
      match secp.fromDer raw.dropLast with
      | none => .error (.invalidDer i)
      | some sig => .ok (sig, EcdsaSighashType.fromConsensus flag)

def parseSigs : Nat → List Bytes → Except WitnessError (List (EcdsaSignature × EcdsaSighashType))
  | _, [] => .ok []
  | i, raw :: raws => do
      let sig ← parseSig secp i raw
      let sigs ← parseSigs (i + 1) raws
      .ok (sig :: sigs)

/-- The loop over the public keys: each one is tried against the current signature only, and the
loop stops at the threshold or when no signature is left. -/
def matchSigs (sighash : EcdsaSighashType → Option Bytes32) (threshold : Nat) :
    List PublicKey → List (EcdsaSignature × EcdsaSighashType) → Nat → Except WitnessError Nat
  | [], _, matched => .ok matched
  | _ :: _, [], matched => .ok matched
  | pk :: pks, (sig, sighashTy) :: sigs, matched =>
      match sighash sighashTy with
      | none => .error .sighash
      | some msg =>
          if secp.verifyEcdsa msg sig pk then
            if matched + 1 ≥ threshold then .ok (matched + 1)
            else matchSigs sighash threshold pks sigs (matched + 1)
          else matchSigs sighash threshold pks ((sig, sighashTy) :: sigs) matched

def rawSigs (witness : List Bytes) : List Bytes := (witness.drop 1).take (witness.length - 2)

def verifyP2wshMultisigWitness (tx : Transaction) (inputIndex : Nat) (prevout : TxOut)
    (redeemScript : Bytes) (pubkeys : List PublicKey)
    (threshold : Nat) : Option (Except WitnessError Bool) := do
  let txin ← tx.input[inputIndex]?
  let witness := txin.witness
  if prevout.scriptPubkey ≠ Script.newP2wsh secp.sha256 redeemScript then
    some (.error .prevoutMismatch)
  else if witness.length < 2 then some (.error .witnessTooShort)
  else if witness.getLast? ≠ some redeemScript then some (.error .redeemScriptMismatch)
  else if rawSigs witness = [] then some (.ok false)
  else
    some do
      let parsedSigs ← parseSigs secp 0 (rawSigs witness)
      let matched ← matchSigs secp
        (fun ty => p2wshSignatureHash secp.sha256 tx inputIndex redeemScript prevout.value ty)
          threshold
        pubkeys parsedSigs 0
      .ok (matched ≥ threshold)

structure ValidPublisherSet (publicKeys : List PublicKey) (threshold : Nat) : Prop where
  pos : 1 ≤ threshold
  le : threshold ≤ publicKeys.length
  count : publicKeys.length ≤ 20
  nodup : publicKeys.Nodup

variable {keys : List PublicKey}

theorem firstDuplicate_eq_none {seen : List PublicKey} :
    firstDuplicate seen keys = none ↔ keys.Nodup ∧ ∀ pk ∈ keys, pk ∉ seen := by
  induction keys generalizing seen with
  | nil => simp [firstDuplicate]
  | cons pk pks ih =>
    rw [firstDuplicate]
    by_cases hseen : pk ∈ seen
    · simp [hseen]
    · rw [if_neg hseen, ih, List.nodup_cons]
      constructor
      · rintro ⟨hnodup, hnew⟩
        refine ⟨⟨fun h => hnew pk h List.mem_cons_self, hnodup⟩, ?_⟩
        intro x hx
        rcases List.mem_cons.mp hx with rfl | hx
        · exact hseen
        · exact fun h => hnew x hx (List.mem_cons_of_mem _ h)
      · rintro ⟨⟨hpk, hnodup⟩, hnew⟩
        refine ⟨hnodup, fun x hx h => ?_⟩
        rcases List.mem_cons.mp h with rfl | h
        · exact hpk hx
        · exact hnew x (List.mem_cons_of_mem _ hx) h

variable {threshold : Nat}

theorem validatePublisherSet_eq_ok :
    validatePublisherSet keys threshold = .ok () ↔ ValidPublisherSet keys threshold := by
  unfold validatePublisherSet
  by_cases hbad : keys = [] ∨ keys.length > 20 ∨ threshold = 0 ∨ threshold > keys.length
  · simp only [hbad, if_true]
    refine ⟨fun h => (by cases h), fun h => ?_⟩
    have hpos := h.pos
    have hle := h.le
    have hcount := h.count
    rcases hbad with rfl | hbad
    · rw [List.length_nil] at hle
      omega
    · omega
  · simp only [hbad, if_false]
    push Not at hbad
    cases hdup : firstDuplicate [] keys with
    | some pk =>
      refine ⟨fun h => (by cases h), fun h => ?_⟩
      have hnone := firstDuplicate_eq_none.mpr ⟨h.nodup, fun _ _ => List.not_mem_nil⟩
      cases hdup.symm.trans hnone
    | none =>
      exact ⟨fun _ => ⟨by omega, hbad.2.2.2, hbad.2.1, (firstDuplicate_eq_none.mp hdup).1⟩,
        fun _ => rfl⟩

theorem createSequencerUpdateScript_eq_some {script : Bytes} :
    createSequencerUpdateScript keys threshold = some script ↔
      ValidPublisherSet keys threshold ∧ script = multisigScript keys threshold := by
  rw [← validatePublisherSet_eq_ok]
  unfold createSequencerUpdateScript
  cases validatePublisherSet keys threshold with
  | error e => simp
  | ok _ => simp [eq_comm]

theorem keyPushes_inj {m n : Nat} {keys' : List PublicKey} (hm : 1 ≤ m ∧ m ≤ 20)
    (hn : 1 ≤ n ∧ n ≤ 20) {xs ys : Bytes}
    (h : (keys.flatMap fun pk => 0x21 :: pk.toList) ++ (Script.pushInt m ++ xs) =
      (keys'.flatMap fun pk => 0x21 :: pk.toList) ++ (Script.pushInt n ++ ys)) : keys = keys' := by
  have hhead (k : Nat) (hk : 1 ≤ k ∧ k ≤ 20) : (Script.pushInt k).head? ≠ some 0x21 := by
    unfold Script.pushInt
    by_cases h16 : 1 ≤ k ∧ k ≤ 16
    · rw [if_pos h16]
      intro h
      have hb := congrArg UInt8.toNat (Option.some.inj h)
      have hk16 : (UInt8.ofNat (0x50 + k)).toNat = 0x50 + k :=
        UInt8.toNat_ofNat_of_lt (by change 0x50 + k < 256; omega)
      rw [hk16] at hb
      change 0x50 + k = 33 at hb
      omega
    · rw [if_neg h16, if_neg (by omega)]
      simp
  have hne (k : Nat) : Script.pushInt k ≠ [] := by
    unfold Script.pushInt
    split
    · simp
    · split <;> simp
  induction keys generalizing keys' with
  | nil =>
    cases keys' with
    | nil => rfl
    | cons pk pks =>
      have hfirst := congrArg List.head? h
      rw [List.flatMap_nil, List.nil_append, List.head?_append_of_ne_nil _ (hne m)] at hfirst
      exact absurd hfirst (hhead m hm)
  | cons pk pks ih =>
    cases keys' with
    | nil =>
      have hfirst := congrArg List.head? h
      rw [List.flatMap_nil, List.nil_append, List.head?_append_of_ne_nil _ (hne n)] at hfirst
      exact absurd hfirst.symm (hhead n hn)
    | cons pk' pks' =>
      simp only [List.flatMap_cons, List.cons_append, List.append_assoc, List.cons.injEq,
        true_and] at h
      obtain ⟨hpk, hrest⟩ := List.append_inj h (by simp)
      rw [Vector.toList_inj.mp hpk, ih hrest]

theorem multisigScript_inj {keys' : List PublicKey} {m n : Nat} (hv : ValidPublisherSet keys m)
    (hv' : ValidPublisherSet keys' n) (h : multisigScript keys m = multisigScript keys' n) :
    keys = keys' ∧ m = n := by
  have hpos := hv.pos
  have hle := hv.le
  have hcount := hv.count
  have hpos' := hv'.pos
  have hle' := hv'.le
  have hcount' := hv'.count
  unfold multisigScript at h
  simp only [List.append_assoc] at h
  obtain ⟨hmn, hrest⟩ := Script.pushInt_append_inj ⟨hpos, by omega⟩ ⟨hpos', by omega⟩ h
  exact ⟨keyPushes_inj ⟨by omega, hcount⟩ ⟨by omega, hcount'⟩ hrest, hmn⟩

end BitvmNode.CommitChain
