import Mathlib.Data.List.FinRange
import BitvmNode.Reasoning.GreedyMatching
import BitvmNode.Reasoning.Sha256
import BitvmNode.CommitChain.Publisher

/-!
# Which witnesses of a publisher set are accepted

The loop tries each key against one signature only, the first that has no key yet.
-/

namespace BitvmNode.CommitChain

open Reasoning Bitcoin

section

variable (secp : Secp) (sighash : EcdsaSighashType → Option Bytes32)

def verifies (sig : EcdsaSignature × EcdsaSighashType) (pk : PublicKey) : Bool :=
  match sighash sig.2 with
  | none => false
  | some msg => secp.verifyEcdsa msg sig.1 pk

/-- The first `threshold` signatures, with strictly increasing places of keys that made them. -/
def SignedInOrder (keys : List PublicKey) (sigs : List (EcdsaSignature × EcdsaSighashType))
    (threshold : Nat) : Prop :=
  ∃ place : Fin threshold → Fin keys.length, StrictMono place ∧
    ∀ j : Fin threshold, ∃ sig, sigs[j.1]? = some sig ∧
      verifies secp sighash sig (keys.get (place j)) = true

variable {secp sighash} {keys : List PublicKey} {sigs : List (EcdsaSignature × EcdsaSighashType)}
  {threshold : Nat}

theorem signedInOrder_iff : SignedInOrder secp sighash keys sigs threshold ↔
      threshold ≤ sigs.length ∧
      MatchedInOrder (verifies secp sighash) keys (sigs.take threshold) := by
  rw [matchedInOrder_iff_strictMono]
  constructor
  · rintro ⟨place, hmono, hvalid⟩
    have hle : threshold ≤ sigs.length := by
      by_contra hlt
      obtain ⟨sig, hsig, -⟩ := hvalid ⟨sigs.length, by omega⟩
      rw [List.getElem?_eq_none (le_refl _)] at hsig
      cases hsig
    have hlength : (sigs.take threshold).length = threshold := List.length_take_of_le hle
    refine ⟨hle, fun j => place (Fin.cast hlength j), fun i j hij => hmono hij, fun j => ?_⟩
    obtain ⟨sig, hsig, hverify⟩ := hvalid (Fin.cast hlength j)
    have hget : (sigs.take threshold).get j = sig := by
      rw [List.get_eq_getElem, List.getElem_take]
      exact (List.getElem?_eq_some_iff.mp hsig).2
    rw [hget]
    exact hverify
  · rintro ⟨hle, place, hmono, hvalid⟩
    have hlength : (sigs.take threshold).length = threshold := List.length_take_of_le hle
    refine ⟨fun j => place (Fin.cast hlength.symm j), fun i j hij => hmono hij, fun j => ?_⟩
    have hj : j.1 < sigs.length := by omega
    refine ⟨sigs[j.1], List.getElem?_eq_getElem hj, ?_⟩
    have hget := hvalid (Fin.cast hlength.symm j)
    rw [List.get_eq_getElem, List.getElem_take] at hget
    exact hget

/-- The loop counts up to the threshold exactly when the signatures that are still missing find
their keys. -/
theorem matchSigs_iff_matchAll (hsighash : ∀ sig ∈ sigs, (sighash sig.2).isSome) {matched : Nat}
    (hmatched : matched < threshold) :
    ∃ total, matchSigs secp sighash threshold keys sigs matched = .ok total ∧
      (threshold ≤ total ↔ threshold - matched ≤ sigs.length ∧
        matchAll (verifies secp sighash) keys (sigs.take (threshold - matched)) = true) := by
  induction keys generalizing sigs matched with
  | nil =>
    refine ⟨matched, rfl, fun h => absurd h (by omega), fun ⟨hle, hall⟩ => ?_⟩
    cases sigs with
    | nil =>
      rw [List.length_nil] at hle
      omega
    | cons sig sigs =>
      obtain ⟨missing, hmissing⟩ : ∃ missing, threshold - matched = missing + 1 :=
        ⟨threshold - matched - 1, by omega⟩
      rw [hmissing, List.take_succ_cons] at hall
      cases hall
  | cons pk pks ih =>
    cases sigs with
    | nil =>
      refine ⟨matched, rfl, fun h => absurd h (by omega), fun ⟨hle, _⟩ => ?_⟩
      rw [List.length_nil] at hle
      omega
    | cons sig sigs =>
      obtain ⟨missing, hmissing⟩ : ∃ missing, threshold - matched = missing + 1 :=
        ⟨threshold - matched - 1, by omega⟩
      obtain ⟨msg, hmsg⟩ := Option.isSome_iff_exists.mp (hsighash sig List.mem_cons_self)
      have hverifies : verifies secp sighash sig pk = secp.verifyEcdsa msg sig.1 pk := by
        unfold verifies
        rw [hmsg]
      have hrest : ∀ other ∈ sigs, (sighash other.2).isSome :=
        fun other hother => hsighash other (List.mem_cons_of_mem _ hother)
      rw [matchSigs, hmsg, hmissing, List.take_succ_cons, List.length_cons, matchAll, hverifies]
      dsimp only
      by_cases hverify : secp.verifyEcdsa msg sig.1 pk = true
      · rw [if_pos hverify, if_pos hverify]
        by_cases hdone : matched + 1 ≥ threshold
        · have hlast : missing = 0 := by omega
          rw [if_pos hdone, hlast, List.take_zero]
          exact ⟨matched + 1, rfl, fun _ => ⟨by omega, by rw [matchAll]⟩, fun _ => hdone⟩
        · obtain ⟨total, htotal, hiff⟩ := ih hrest (show matched + 1 < threshold by omega)
          rw [if_neg hdone]
          refine ⟨total, htotal, hiff.trans ?_⟩
          rw [show threshold - (matched + 1) = missing by omega]
          exact and_congr_left fun _ => by omega
      · -- the key is passed over for good
        obtain ⟨total, htotal, hiff⟩ := ih hsighash hmatched
        rw [if_neg hverify, if_neg hverify]
        refine ⟨total, htotal, hiff.trans ?_⟩
        rw [hmissing, List.take_succ_cons, List.length_cons]

variable {inputIndex : Nat} {txin : TxIn}

theorem p2wshSignatureHash_isSome {tx : Transaction} (h : tx.input[inputIndex]? = some txin)
    (sha256 : Bytes → Bytes32) (script : Bytes) (value : UInt64)
    (ty : EcdsaSighashType) : (p2wshSignatureHash sha256 tx inputIndex script value ty).isSome := by
  unfold p2wshSignatureHash
  rw [h]
  rfl

variable {tx : Transaction} {prevout : TxOut} {script : Bytes}

theorem verifyP2wshMultisigWitness_eq_true (hpos : 1 ≤ threshold) :
    verifyP2wshMultisigWitness secp tx inputIndex prevout script keys threshold = some (.ok true) ↔
      ∃ txin sigs, tx.input[inputIndex]? = some txin ∧
        prevout.scriptPubkey = Script.newP2wsh secp.sha256 script ∧
        txin.witness.getLast? = some script ∧ parseSigs secp 0 (rawSigs txin.witness) = .ok sigs ∧
        threshold ≤ sigs.length ∧ MatchedInOrder (verifies secp fun ty =>
          p2wshSignatureHash secp.sha256 tx inputIndex script prevout.value ty) keys
            (sigs.take threshold) := by
  unfold verifyP2wshMultisigWitness
  cases htxin : tx.input[inputIndex]? with
  | none => simp
  | some txin =>
    simp only [Option.bind_eq_bind, Option.bind_some, Option.some.injEq, exists_eq_left',
      exists_and_left]
    by_cases hne : rawSigs txin.witness = []
    · -- no signature: none is accepted, and there is no first one to give away
      have hnone : ¬ ∃ sigs, parseSigs secp 0 (rawSigs txin.witness) = .ok sigs ∧
          threshold ≤ sigs.length ∧
          MatchedInOrder (verifies secp fun ty =>
              p2wshSignatureHash secp.sha256 tx inputIndex script prevout.value ty)
            keys (sigs.take threshold) := by
        rintro ⟨sigs, hsigs, hle, -⟩
        rw [hne] at hsigs
        cases hsigs
        rw [List.length_nil] at hle
        omega
      split_ifs <;> simp [hnone]
    · have hlong : ¬ txin.witness.length < 2 := by
        intro hshort
        apply hne
        unfold rawSigs
        rw [show txin.witness.length - 2 = 0 by omega, List.take_zero]
      rw [if_neg hlong, if_neg hne]
      by_cases hprevout : prevout.scriptPubkey = Script.newP2wsh secp.sha256 script
      · by_cases hlast : txin.witness.getLast? = some script
        · rw [if_neg (not_not.mpr hprevout), if_neg (not_not.mpr hlast)]
          cases hsigs : parseSigs secp 0 (rawSigs txin.witness) with
          | error e => simp [Bind.bind, Except.bind]
          | ok sigs =>
            obtain ⟨total, htotal, hcount⟩ := @matchSigs_iff_matchAll secp _ keys sigs threshold
              (fun sig _ => p2wshSignatureHash_isSome htxin secp.sha256 script prevout.value sig.2)
                0 hpos
            rw [Nat.sub_zero, matchAll_iff] at hcount
            simp [Bind.bind, Except.bind, htotal, hprevout, hlast, hcount]
        · rw [if_neg (not_not.mpr hprevout), if_pos hlast]
          simp [hlast]
      · simp [hprevout]

/-- A witness of a valid set is accepted exactly when its first signatures, as many as the
threshold, can be given to keys in the order of the script; then as many different keys have
signed. -/
theorem multisig_matching_iff {tx : Transaction} {inputIndex : Nat} {prevout : TxOut} {txin : TxIn}
    (hset : validatePublisherSet keys threshold = .ok ())
    (htxin : tx.input[inputIndex]? = some txin)
    (hprevout : prevout.scriptPubkey = Script.newP2wsh secp.sha256 (multisigScript keys threshold))
    (hlast : txin.witness.getLast? = some (multisigScript keys threshold))
    (hsigs : parseSigs secp 0 (rawSigs txin.witness) = .ok sigs) :
    (verifyP2wshMultisigWitness secp tx inputIndex prevout (multisigScript keys threshold)
        keys threshold =
        some (.ok true) ↔
      SignedInOrder secp (fun ty => p2wshSignatureHash secp.sha256 tx inputIndex
          (multisigScript keys threshold)
        prevout.value ty) keys sigs threshold) ∧
    (verifyP2wshMultisigWitness secp tx inputIndex prevout (multisigScript keys threshold)
        keys threshold =
        some (.ok true) →
      ∃ signers : List PublicKey, signers.length = threshold ∧ signers.Nodup ∧
        ∀ pk ∈ signers, pk ∈ keys ∧
        ∃ sig ∈ sigs, verifies secp (fun ty => p2wshSignatureHash secp.sha256 tx inputIndex
          (multisigScript keys threshold) prevout.value ty) sig pk = true) := by
  have hvalid := validatePublisherSet_eq_ok.mp hset
  have hpos := hvalid.pos
  have hiff : verifyP2wshMultisigWitness secp tx inputIndex prevout (multisigScript keys threshold)
        keys threshold =
        some (.ok true) ↔
      SignedInOrder secp (fun ty => p2wshSignatureHash secp.sha256 tx inputIndex
        (multisigScript keys threshold) prevout.value ty) keys sigs threshold := by
    rw [signedInOrder_iff, verifyP2wshMultisigWitness_eq_true hpos]
    constructor
    · rintro ⟨_, _, htxin', -, -, hsigs', hmatched⟩
      obtain rfl := Option.some.inj (htxin.symm.trans htxin')
      obtain rfl := Except.ok.inj (hsigs.symm.trans hsigs')
      exact hmatched
    · exact fun hmatched => ⟨txin, sigs, htxin, hprevout, hlast, hsigs, hmatched⟩
  refine ⟨hiff, fun h => ?_⟩
  obtain ⟨place, hmono, hverify⟩ := hiff.mp h
  refine ⟨List.ofFn fun j => keys.get (place j), List.length_ofFn, ?_, ?_⟩
  · rw [List.nodup_ofFn]
    exact (List.nodup_iff_injective_get.mp hvalid.nodup).comp hmono.injective
  · intro pk hpk
    obtain ⟨j, rfl⟩ := (List.mem_ofFn' _ _).mp hpk
    obtain ⟨sig, hsig, hgood⟩ := hverify j
    exact ⟨List.get_mem _ _, sig, List.mem_of_getElem? hsig, hgood⟩

end

section

variable (secp : Secp)

structure SignedBy (sighash : EcdsaSighashType → Option Bytes32) (raws : List Bytes)
    (pk : PublicKey) (raw : Bytes) : Prop where
  mem : raw ∈ raws
  valid : ∃ flag sig msg, raw.getLast? = some flag ∧ secp.fromDer raw.dropLast = some sig ∧
    sighash (EcdsaSighashType.fromConsensus flag) = some msg ∧ secp.verifyEcdsa msg sig pk = true

def ThresholdSigned (sighash : EcdsaSighashType → Option Bytes32) (keys : List PublicKey)
    (threshold : Nat) (raws : List Bytes) : Prop :=
  ∃ signers : List (PublicKey × Bytes), threshold ≤ signers.length ∧
    (signers.map Prod.fst).Sublist keys ∧ (signers.map Prod.fst).Nodup ∧
    ∀ q ∈ signers, SignedBy secp sighash raws q.1 q.2

theorem parseSigs_eq_ok {i : Nat} {raws : List Bytes}
    {sigs : List (EcdsaSignature × EcdsaSighashType)} (h : parseSigs secp i raws = .ok sigs) :
    ∀ s ∈ sigs, ∃ raw ∈ raws, ∃ flag, raw.getLast? = some flag ∧
      secp.fromDer raw.dropLast = some s.1 ∧ s.2 = EcdsaSighashType.fromConsensus flag := by
  induction raws generalizing i sigs with
  | nil =>
    cases h
    simp
  | cons raw raws ih =>
    rw [parseSigs, except_bind_eq_ok] at h
    obtain ⟨sig, hsig, h⟩ := h
    obtain ⟨rest, hrest, h⟩ := except_bind_eq_ok.mp h
    cases h
    intro s hs
    rcases List.mem_cons.mp hs with rfl | hs
    · unfold parseSig at hsig
      cases hflag : raw.getLast? with
      | none => simp [hflag] at hsig
      | some flag =>
        cases hder : secp.fromDer raw.dropLast with
        | none => simp [hflag, hder] at hsig
        | some der =>
          simp only [hflag, hder, Except.ok.injEq] at hsig
          refine ⟨raw, List.mem_cons_self, flag, hflag, ?_⟩
          rw [← hsig]
          exact ⟨hder, rfl⟩
    · obtain ⟨r, hr, hflag⟩ := ih hrest s hs
      exact ⟨r, List.mem_cons_of_mem _ hr, hflag⟩

theorem verifyP2wshMultisigWitness_true {tx : Transaction} {inputIndex : Nat} {prevout : TxOut}
    {redeemScript : Bytes} {keys : List PublicKey} {threshold : Nat}
    (hkeys : ValidPublisherSet keys threshold)
    (h : verifyP2wshMultisigWitness secp tx inputIndex prevout redeemScript keys threshold =
      some (.ok true)) :
    ∃ txin, tx.input[inputIndex]? = some txin ∧
      prevout.scriptPubkey = Script.newP2wsh secp.sha256 redeemScript ∧
      txin.witness.getLast? = some redeemScript ∧ ThresholdSigned secp
        (fun ty => p2wshSignatureHash secp.sha256 tx inputIndex redeemScript prevout.value ty)
          keys threshold
        (rawSigs txin.witness) := by
  obtain ⟨txin, sigs, htxin, hprevout, hlast, hsigs, hle, chosen, hsub, hfits⟩ :=
    (verifyP2wshMultisigWitness_eq_true hkeys.pos).mp h
  refine ⟨txin, htxin, hprevout, hlast, ?_⟩
  -- each counted signature is one of the raw ones
  have hraw : ∀ pk ∈ chosen, ∃ raw, SignedBy secp
      (fun ty => p2wshSignatureHash secp.sha256 tx inputIndex redeemScript prevout.value ty)
      (rawSigs txin.witness) pk raw := by
    intro pk hpk
    obtain ⟨⟨j, hj⟩, rfl⟩ := List.get_of_mem hpk
    have hverify := hfits.get (hfits.length_eq ▸ hj) hj
    obtain ⟨raw, hmem, flag, hflag, hder, hty⟩ :=
      parseSigs_eq_ok secp hsigs _ (List.mem_of_mem_take (List.get_mem _ _))
    unfold verifies at hverify
    split at hverify
    · cases hverify
    · rename_i msg hmsg
      exact ⟨raw, hmem, flag, _, msg, hflag, hder, hty ▸ hmsg, hverify⟩
  choose! raw hraw using hraw
  have hfst : (chosen.map fun pk => (pk, raw pk)).map Prod.fst = chosen := by
    rw [List.map_map]
    exact List.map_id _
  refine ⟨chosen.map fun pk => (pk, raw pk), ?_, hfst.symm ▸ hsub,
    hfst.symm ▸ hsub.nodup hkeys.nodup, ?_⟩
  · rw [List.length_map, ← hfits.length_eq, List.length_take_of_le hle]
  · intro p hp
    obtain ⟨pk, hpk, rfl⟩ := List.mem_map.mp hp
    exact hraw pk hpk

end

namespace TwoOfThree

def secp : Secp where
  sha256 := Sha256.digest
  fromDer := some
  verifyEcdsa := fun _ sig pk => sig = [pk[32]]

def key (n : UInt8) : PublicKey := Vector.push (Vector.replicate 32 2) n

def keys : List PublicKey := [key 1, key 2, key 3]

def script : Bytes := multisigScript keys 2

def prevout : TxOut := ⟨1000, Script.newP2wsh Sha256.digest script⟩

def tx : Transaction where
  version := 2
  lockTime := 0
  input := [⟨⟨zero32, 0⟩, [], 0, [[], [1, 1], [3, 1], script]⟩]
  output := []

theorem multisig_matching_first_and_third :
    verifyP2wshMultisigWitness secp tx 0 prevout script keys 2 = some (.ok true) := by
  have hset : validatePublisherSet keys 2 = .ok () := by decide +kernel
  have hsigs : parseSigs secp 0 [[1, 1], [3, 1]] =
      .ok [([1], EcdsaSighashType.fromConsensus 1), ([3], EcdsaSighashType.fromConsensus 1)] := rfl
  have hprevout : prevout.scriptPubkey = Script.newP2wsh secp.sha256 (multisigScript keys 2) := by
    unfold prevout script secp
    rfl
  have hlast : [[], [1, 1], [3, 1], script].getLast? = some (multisigScript keys 2) := by
    rfl
  apply (multisig_matching_iff hset (show tx.input[0]? = some _ from rfl) hprevout hlast
    hsigs).1.mpr
  have hverifies : ∀ n : UInt8, verifies secp
      (fun ty => p2wshSignatureHash secp.sha256 tx 0 script prevout.value ty)
      ([n], EcdsaSighashType.fromConsensus 1) (key n) = true := by
    intro n
    obtain ⟨msg, hmsg⟩ := Option.isSome_iff_exists.mp (p2wshSignatureHash_isSome
      (show tx.input[0]? = some _ from rfl) secp.sha256 script prevout.value
        (EcdsaSighashType.fromConsensus 1))
    dsimp only [verifies]
    rw [hmsg]
    simp [secp, key]
  refine ⟨fun j => if j = 0 then ⟨0, by decide⟩ else ⟨2, by decide⟩, by decide, fun j => ?_⟩
  match j with
  | 0 => exact ⟨_, rfl, hverifies 1⟩
  | 1 => exact ⟨_, rfl, hverifies 3⟩

end TwoOfThree

end BitvmNode.CommitChain
