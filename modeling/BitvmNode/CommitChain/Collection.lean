import BitvmNode.CommitChain.Matching

/-!
# Collecting the publishers' signatures

Anybody may append witnesses for an update on Goat.
-/

namespace BitvmNode.CommitChain

open Reasoning Bitcoin

structure SequencerSetUpdateWitness where
  sigHash : Bytes32
  (btcPubKey btcSig : Bytes)

structure SigLibrary extends Secp where
  publicKeyFromSlice : Bytes → Option PublicKey
  fromCompact : Bytes → Option EcdsaSignature
  serializeDer : EcdsaSignature → Bytes

section

variable (library : SigLibrary) (btcPublicKeys : List PublicKey) (expectedSighash : Bytes32)

def signatureBytes (signature : EcdsaSignature) : Bytes := library.serializeDer signature ++ [0x81]

def checkWitness (witness : SequencerSetUpdateWitness) : Option (PublicKey × EcdsaSignature) := do
  let publicKey ← library.publicKeyFromSlice witness.btcPubKey
  guard (publicKey ∈ btcPublicKeys)
  guard (witness.sigHash = expectedSighash)
  let signature ← library.fromCompact witness.btcSig
  guard (library.verifyEcdsa expectedSighash signature publicKey = true)
  some (publicKey, signature)

def addWitness (signaturesByMember : Nat → Option Bytes) (witness : SequencerSetUpdateWitness) :
    Nat → Option Bytes :=
  match checkWitness library btcPublicKeys expectedSighash witness with
  | none => signaturesByMember
  | some (publicKey, signature) =>
      let memberIndex := btcPublicKeys.idxOf publicKey
      if (signaturesByMember memberIndex).isSome then signaturesByMember
      else Function.update signaturesByMember memberIndex (some (signatureBytes library signature))

def collectOrderedPublisherSignatures (witnesses : List SequencerSetUpdateWitness)
    (threshold goatBlockNumber : Nat) : Except String (List Bytes) :=
  let signaturesByMember := witnesses.foldl (addWitness library btcPublicKeys expectedSighash)
    fun _ => none
  let signatures := (List.range btcPublicKeys.length).filterMap signaturesByMember
  let count := signatures.length
  if count ≥ threshold then .ok (signatures.take threshold)
  else .error
    s!"only {count} valid publisher signatures for Goat height {goatBlockNumber}; need {threshold}"

def finalize (tx : Transaction) (sigs : List Bytes) (redeemScript : Bytes) : Option Transaction :=
  match tx.input with
  | [] => none
  | first :: rest =>
      some { tx with input := { first with witness := [] :: sigs ++ [redeemScript] } :: rest }

/-- The entry is by the publisher: over the sighash of the transaction, and valid under the key. -/
def Endorses (witness : SequencerSetUpdateWitness) (pk : PublicKey) : Prop :=
  library.publicKeyFromSlice witness.btcPubKey = some pk ∧ witness.sigHash = expectedSighash ∧
    ∃ signature, library.fromCompact witness.btcSig = some signature ∧
      library.verifyEcdsa expectedSighash signature pk = true

def firstSignature (witnesses : List SequencerSetUpdateWitness) (pk : PublicKey) :
    Option EcdsaSignature :=
  witnesses.findSome? fun witness =>
    (checkWitness library btcPublicKeys expectedSighash witness).bind fun entry =>
      if entry.1 = pk then some entry.2 else none

variable {library expectedSighash} {keys : List PublicKey} {witness : SequencerSetUpdateWitness}
  {pk : PublicKey}

theorem checkWitness_eq_some {signature : EcdsaSignature} :
    checkWitness library keys expectedSighash witness = some (pk, signature) ↔
      library.publicKeyFromSlice witness.btcPubKey = some pk ∧ pk ∈ keys ∧
      witness.sigHash = expectedSighash ∧
        library.fromCompact witness.btcSig = some signature ∧
        library.verifyEcdsa expectedSighash signature pk = true := by
  simp only [checkWitness, Option.bind_eq_bind, Option.bind_eq_some_iff, guard_eq_some,
    exists_const, Option.some.injEq, Prod.mk.injEq]
  constructor
  · rintro ⟨_, hkey, hmem, hsighash, _, hsig, hverify, rfl, rfl⟩
    exact ⟨hkey, hmem, hsighash, hsig, hverify⟩
  · rintro ⟨hkey, hmem, hsighash, hsig, hverify⟩
    exact ⟨pk, hkey, hmem, hsighash, signature, hsig, hverify, rfl, rfl⟩

theorem firstSignature_eq_some {witnesses : List SequencerSetUpdateWitness}
    {signature : EcdsaSignature}
    (h : firstSignature library keys expectedSighash witnesses pk = some signature) :
    ∃ witness ∈ witnesses, checkWitness library keys expectedSighash witness =
      some (pk, signature) := by
  obtain ⟨witness, hmem, hentry⟩ := List.exists_of_findSome?_eq_some h
  obtain ⟨⟨key, sig⟩, hcheck, hkey⟩ := Option.bind_eq_some_iff.mp hentry
  obtain ⟨rfl, hsig⟩ := Option.ite_none_right_eq_some.mp hkey
  cases hsig
  exact ⟨witness, hmem, hcheck⟩

theorem firstSignature_isSome (hpk : pk ∈ keys) (witnesses : List SequencerSetUpdateWitness) :
    (firstSignature library keys expectedSighash witnesses pk).isSome ↔
      ∃ witness ∈ witnesses, Endorses library expectedSighash witness pk := by
  constructor
  · intro h
    obtain ⟨signature, hsignature⟩ := Option.isSome_iff_exists.mp h
    obtain ⟨witness, hmem, hcheck⟩ := firstSignature_eq_some hsignature
    obtain ⟨hkey, -, hsighash, hvalid⟩ := checkWitness_eq_some.mp hcheck
    exact ⟨witness, hmem, hkey, hsighash, signature, hvalid⟩
  · rintro ⟨witness, hmem, hkey, hsighash, signature, hvalid⟩
    rw [firstSignature, List.findSome?_isSome_iff]
    refine ⟨witness, hmem, ?_⟩
    rw [checkWitness_eq_some.mpr ⟨hkey, hpk, hsighash, hvalid⟩, Option.bind_some, if_pos rfl]
    rfl

/-- The slot of a member keeps what it has, or takes the first signature of the member. -/
theorem foldl_addWitness (hpk : pk ∈ keys) (witnesses : List SequencerSetUpdateWitness)
    (slots : Nat → Option Bytes) :
    witnesses.foldl (addWitness library keys expectedSighash) slots (keys.idxOf pk) =
      (slots (keys.idxOf pk)).or
      ((firstSignature library keys expectedSighash witnesses pk).map
        (signatureBytes library)) := by
  induction witnesses generalizing slots with
  | nil => simp [firstSignature]
  | cons witness witnesses ih =>
    rw [List.foldl_cons, ih, addWitness]
    simp only [firstSignature, List.findSome?_cons]
    cases hcheck : checkWitness library keys expectedSighash witness with
    | none => rfl
    | some entry =>
      obtain ⟨key, signature⟩ := entry
      dsimp only [Option.bind_some]
      by_cases hkey : key = pk
      · subst hkey
        cases hslot : slots (keys.idxOf key) <;> simp [hslot]
      · have hother : keys.idxOf pk ≠ keys.idxOf key := fun heq =>
          hkey ((List.idxOf_inj hpk).mp heq).symm
        rw [if_neg hkey]
        split
        · rfl
        · rw [Function.update_of_ne hother]

theorem collectOrderedPublisherSignatures_eq_ok (hkeys : keys.Nodup)
    {witnesses : List SequencerSetUpdateWitness} {threshold goatBlockNumber : Nat}
    {sigs : List Bytes} :
    collectOrderedPublisherSignatures library keys expectedSighash witnesses threshold
      goatBlockNumber = .ok sigs ↔
      threshold ≤ (keys.filterMap (firstSignature library keys expectedSighash witnesses)).length ∧
        ((keys.filterMap (firstSignature library keys expectedSighash witnesses)).take
            threshold).map
          (signatureBytes library) = sigs := by
  have hrange : List.range keys.length = keys.map fun pk => keys.idxOf pk := by
    refine List.ext_getElem (by simp) fun i hi _ => ?_
    rw [List.getElem_range, List.getElem_map, hkeys.idxOf_getElem]
  have hcollected : ((List.range keys.length).filterMap
      (witnesses.foldl (addWitness library keys expectedSighash) fun _ => none)) =
        (keys.filterMap (firstSignature library keys expectedSighash witnesses)).map
          (signatureBytes library) := by
    rw [hrange, List.filterMap_map, List.map_filterMap]
    exact List.filterMap_congr fun pk hpk => foldl_addWitness hpk witnesses _
  dsimp only [collectOrderedPublisherSignatures]
  rw [hcollected, List.length_map, ← List.map_take]
  split_ifs with hcount <;> simp [hcount]

theorem threshold_le_collected_iff (hkeys : keys.Nodup) (witnesses : List SequencerSetUpdateWitness)
    (threshold : Nat) :
    threshold ≤ (keys.filterMap (firstSignature library keys expectedSighash witnesses)).length ↔
      ∃ signers : List PublicKey, signers.Nodup ∧ threshold ≤ signers.length ∧
        ∀ pk ∈ signers, pk ∈ keys ∧
          ∃ witness ∈ witnesses, Endorses library expectedSighash witness pk := by
  rw [List.length_filterMap_eq_countP, List.countP_eq_length_filter]
  constructor
  · intro h
    refine ⟨_, hkeys.filter _, h, fun pk hpk => ?_⟩
    obtain ⟨hmem, hsome⟩ := List.mem_filter.mp hpk
    exact ⟨hmem, (firstSignature_isSome hmem witnesses).mp hsome⟩
  · rintro ⟨signers, hnodup, hle, hsigned⟩
    refine hle.trans (List.subperm_of_subset hnodup fun pk hpk => ?_).length_le
    obtain ⟨hmem, hwitness⟩ := hsigned pk hpk
    exact List.mem_filter.mpr ⟨hmem, (firstSignature_isSome hmem witnesses).mpr hwitness⟩

theorem filterMap_matched (f : PublicKey → Option EcdsaSignature) (keys : List PublicKey) :
    ∃ chosen, List.Sublist chosen keys ∧ List.Forall₂ (fun signature pk => f pk = some signature)
      (keys.filterMap f) chosen := by
  induction keys with
  | nil => exact ⟨[], List.nil_sublist _, List.Forall₂.nil⟩
  | cons pk keys ih =>
    obtain ⟨chosen, hsub, hchosen⟩ := ih
    cases hpk : f pk with
    | none =>
      rw [List.filterMap_cons_none hpk]
      exact ⟨chosen, hsub.cons pk, hchosen⟩
    | some signature =>
      rw [List.filterMap_cons_some hpk]
      exact ⟨pk :: chosen, hsub.cons_cons pk, .cons hpk hchosen⟩

theorem parseSigs_signatureBytes {signatures : List EcdsaSignature}
    (hder : ∀ signature ∈ signatures, library.fromDer (library.serializeDer signature) =
      some signature) (i : Nat) :
    parseSigs library.toSecp i (signatures.map (signatureBytes library)) =
      .ok (signatures.map fun signature => (signature, .allPlusAnyoneCanPay)) := by
  induction signatures generalizing i with
  | nil => rfl
  | cons signature signatures ih =>
    obtain ⟨hfirst, hrest⟩ := List.forall_mem_cons.mp hder
    have hparse : parseSig library.toSecp i (signatureBytes library signature) =
        .ok (signature, .allPlusAnyoneCanPay) := by
      simp only [parseSig, signatureBytes, List.getLast?_append, List.getLast?_singleton,
        Option.some_or, List.dropLast_concat, hfirst]
      rfl
    rw [List.map_cons, parseSigs, hparse, ih hrest]
    rfl

theorem finalize_accepted {threshold : Nat} (hpos : 1 ≤ threshold) {tx : Transaction}
    {value : UInt64} (hsighash : p2wshSignatureHash library.sha256 tx 0
      (multisigScript keys threshold) value .allPlusAnyoneCanPay =
      some expectedSighash) {signatures : List EcdsaSignature} (hlength :
        signatures.length = threshold)
    (hder : ∀ signature ∈ signatures, library.fromDer (library.serializeDer signature) =
      some signature)
    (hmatched : MatchedInOrder (library.verifyEcdsa expectedSighash) keys signatures) :
    ∃ final, finalize tx (signatures.map (signatureBytes library)) (multisigScript keys threshold) =
      some final ∧
      verifyP2wshMultisigWitness library.toSecp final 0
        ⟨value, Script.newP2wsh library.sha256 (multisigScript keys threshold)⟩
          (multisigScript keys threshold) keys
        threshold = some (.ok true) := by
  cases hinput : tx.input with
  | nil => simp [p2wshSignatureHash, hinput] at hsighash
  | cons first rest =>
    refine ⟨_, by rw [finalize, hinput], (verifyP2wshMultisigWitness_eq_true hpos).mpr
      ⟨_, _, rfl, rfl, List.getLast?_concat
        .., by simpa [rawSigs] using parseSigs_signatureBytes hder 0, ?_, ?_⟩⟩
    · rw [List.length_map, hlength]
    · obtain ⟨chosen, hsub, hfits⟩ := hmatched
      refine ⟨chosen, hsub, ?_⟩
      rw [List.take_of_length_le (by rw [List.length_map, hlength]), List.forall₂_map_left_iff]
      refine hfits.imp fun signature pk hverify => ?_
      -- the sighash leaves the witnesses out
      have hsame := hsighash
      rw [p2wshSignatureHash, hinput] at hsame
      simp only [verifies, p2wshSignatureHash]
      simp_all

/-- Witnesses that anybody appends cannot stop an update: the collection succeeds exactly if enough
publishers have a good entry, and the circuit accepts the transaction that is finalized with it. -/
theorem publisher_update_unstoppable {threshold : Nat} (goatBlockNumber : Nat)
    (hder : ∀ compact signature, library.fromCompact compact = some signature →
      library.fromDer (library.serializeDer signature) = some signature)
    (hset : validatePublisherSet keys threshold = .ok ()) {tx : Transaction} {value : UInt64}
    (hsighash : p2wshSignatureHash library.sha256 tx 0 (multisigScript keys threshold) value
      .allPlusAnyoneCanPay =
      some expectedSighash) :
    let collect witnesses :=
      collectOrderedPublisherSignatures library keys expectedSighash witnesses threshold
        goatBlockNumber
    (∀ witnesses, (∃ sigs, collect witnesses = .ok sigs) ↔
      ∃ signers : List PublicKey, signers.Nodup ∧ threshold ≤ signers.length ∧
        ∀ pk ∈ signers, pk ∈ keys ∧
          ∃ witness ∈ witnesses, Endorses library expectedSighash witness pk) ∧
    (∀ witnesses appended, (∃ sigs, collect witnesses = .ok sigs) →
      ∃ sigs, collect (witnesses ++ appended) = .ok sigs) ∧
    ∀ witnesses sigs, collect witnesses = .ok sigs →
      ∃ final, finalize tx sigs (multisigScript keys threshold) = some final ∧
        verifyP2wshMultisigWitness library.toSecp final 0
          ⟨value, Script.newP2wsh library.sha256 (multisigScript keys threshold)⟩
            (multisigScript keys threshold) keys
          threshold = some (.ok true) := by
  intro collect
  have hvalid := validatePublisherSet_eq_ok.mp hset
  have hcollect (witnesses : List SequencerSetUpdateWitness) (sigs : List Bytes) :=
    @collectOrderedPublisherSignatures_eq_ok library expectedSighash keys hvalid.nodup
      witnesses threshold goatBlockNumber sigs
  have hiff : ∀ witnesses, (∃ sigs, collect witnesses = .ok sigs) ↔
      ∃ signers : List PublicKey, signers.Nodup ∧ threshold ≤ signers.length ∧
        ∀ pk ∈ signers, pk ∈ keys ∧
          ∃ witness ∈ witnesses, Endorses library expectedSighash witness pk := by
    intro witnesses
    rw [← threshold_le_collected_iff hvalid.nodup]
    simp only [collect, hcollect, exists_and_left, exists_eq', and_true]
  refine ⟨hiff, fun witnesses appended h => ?_, fun witnesses sigs h => ?_⟩
  · obtain ⟨signers, hnodup, hle, hsigned⟩ := (hiff witnesses).mp h
    refine (hiff _).mpr ⟨signers, hnodup, hle, fun pk hpk => ?_⟩
    obtain ⟨hmem, witness, hwitness, hendorses⟩ := hsigned pk hpk
    exact ⟨hmem, witness, List.mem_append_left _ hwitness, hendorses⟩
  · obtain ⟨hle, rfl⟩ := (hcollect witnesses sigs).mp h
    obtain ⟨chosen, hsub, hchosen⟩ :=
      filterMap_matched (firstSignature library keys expectedSighash witnesses) keys
    refine finalize_accepted hvalid.pos hsighash (List.length_take_of_le hle)
      (fun signature hmem => ?_) ⟨chosen.take threshold, (List.take_sublist _ _).trans hsub, ?_⟩
    · obtain ⟨pk, -, hfirst⟩ := List.mem_filterMap.mp (List.mem_of_mem_take hmem)
      obtain ⟨witness, -, hcheck⟩ := firstSignature_eq_some hfirst
      exact hder _ _ (checkWitness_eq_some.mp hcheck).2.2.2.1
    · refine (List.forall₂_take threshold hchosen).imp fun signature pk hfirst => ?_
      obtain ⟨witness, -, hcheck⟩ := firstSignature_eq_some hfirst
      exact (checkWitness_eq_some.mp hcheck).2.2.2.2

end

namespace TwoOfThree

def library : SigLibrary where
  toSecp := secp
  publicKeyFromSlice bytes := bytes.getLast?.map key
  fromCompact := some
  serializeDer := id

def entry (sigHash : Bytes32) (n : UInt8) : SequencerSetUpdateWitness :=
  ⟨sigHash, (key n).toList, [n]⟩

theorem endorses_entry (sigHash : Bytes32) (n : UInt8) :
    Endorses library sigHash (entry sigHash n) (key n) :=
  ⟨rfl, rfl, [n], rfl, decide_eq_true rfl⟩

def entries (sigHash : Bytes32) : List SequencerSetUpdateWitness :=
  [⟨zero32, [], []⟩, entry sigHash 3, entry sigHash 4, entry sigHash 1, entry sigHash 3]

theorem update_of_first_and_third : ∃ sigHash sigs final,
    p2wshSignatureHash secp.sha256 tx 0 script prevout.value .allPlusAnyoneCanPay = some sigHash ∧
      collectOrderedPublisherSignatures library keys sigHash (entries sigHash) 2 7 = .ok sigs ∧
      finalize tx sigs script = some final ∧
      verifyP2wshMultisigWitness secp final 0 prevout script keys 2 = some (.ok true) := by
  obtain ⟨sigHash, hsighash⟩ := Option.isSome_iff_exists.mp (p2wshSignatureHash_isSome
    (show tx.input[0]? = some _ from rfl) secp.sha256 script prevout.value .allPlusAnyoneCanPay)
  have hset : validatePublisherSet keys 2 = .ok () := by decide +kernel
  have hclaim := @publisher_update_unstoppable library sigHash keys 2 7 (fun _ _ _ => rfl) hset tx
    prevout.value hsighash
  obtain ⟨sigs, hsigs⟩ :=
    (hclaim.1 (entries sigHash)).mpr ⟨[key 1, key 3], by decide +kernel, by decide, by
    have hmem : ∀ pk ∈ [key 1, key 3], pk ∈ keys := by decide +kernel
    intro pk hpk
    refine ⟨hmem pk hpk, ?_⟩
    simp only [List.mem_cons, List.not_mem_nil, or_false] at hpk
    obtain rfl | rfl := hpk
    · exact ⟨entry sigHash 1, by simp [entries], endorses_entry sigHash 1⟩
    · exact ⟨entry sigHash 3, by simp [entries], endorses_entry sigHash 3⟩⟩
  obtain ⟨final, hfinal, haccepted⟩ := hclaim.2.2 _ _ hsigs
  exact ⟨sigHash, sigs, final, hsighash, hsigs, hfinal, haccepted⟩

end TwoOfThree

end BitvmNode.CommitChain
