import Mathlib.Data.List.Perm.Subperm
import BitvmNode.Admission.Registry
import BitvmNode.Reasoning.Runs
import BitvmNode.Signing.Rounds

/-!
# Endorsements of a graph

A graph is finalised with one endorsement of every committee member of its instance, and its
parameters are endorsed by the verifiers of its garbled circuits.  The checks count the
endorsements, look each one up and refuse repetitions; that nobody is missing follows from the
counts.

The other checks of a finalised graph and the libraries are parameters.
-/

namespace BitvmNode.Graphs

open Reasoning Signing Admission

inductive ValidationError where
  | invalidGraph (reason : String)
  /-- Something else went wrong, for example a call to the chain. -/
  | other (reason : String)
  deriving DecidableEq

abbrev SchnorrSignature := Vector UInt8 64

def xOnly (key : PublicKey) : Bytes := (key.bytes.drop 1).take 32

structure SimplifiedGraph where
  (operatorPreSigned committeePreSigned : Bool)
  gcVerifierPubkeys : List PublicKey

structure PeginData where
  committeePubkeys : List Bytes
  committeeAddresses : List EvmAddress

def PeginData.members (data : PeginData) : List (Bytes × EvmAddress) :=
  data.committeePubkeys.zip data.committeeAddresses

structure CommitteeEndorsement where
  pubkey : PublicKey
  evmAddr : EvmAddress
  sig : Bytes

structure VerifierEndorsement where
  verifierPubkey : PublicKey
  verifierIndex : Nat
  verifierPeerId : String
  signature : SchnorrSignature

structure EndorsementHost (F : Type) where
  publicKeyFromSlice : (bytes : Bytes) → Except String { key : PublicKey // key.bytes = bytes }
  fromSimplified : SimplifiedGraph → Except String F
  /-- The policy, the pre-signatures, the instance, the challenge amount and the watchtowers. -/
  checkGraph : F → Except ValidationError Unit
  gatewayGetPeginData : F → Except ValidationError PeginData
  getGraphDigest : F → Except ValidationError Bytes32
  graphParamsHash : F → Except String Bytes32
  simplifiedParamsHash : SimplifiedGraph → Except String Bytes32
  recoverAddressFromPrehash : Bytes32 → Bytes → Except String EvmAddress
  verifySchnorr : SchnorrSignature → Bytes32 → Bytes → Bool
  peerIdFromStr : String → Except String PeerId
  committeeManaIsVerifier : Bytes → Except String Bool

variable {F : Type} (host : EndorsementHost F)

/-- The texts in which the two loops over committee endorsements differ. -/
structure EndorsementTexts where
  (duplicatePubkey duplicateAddress addressMismatch notInCommittee : String)
  (failed invalidSignature : String)

def graphTexts : EndorsementTexts where
  duplicatePubkey := "duplicate committee pubkey in endorsements"
  duplicateAddress := "duplicate evm address in endorsements"
  addressMismatch := "committee evm address mismatch"
  notInCommittee := "endorser not in committee set"
  failed := "failed to verify endorsement: "
  invalidSignature := "invalid endorsement signature"

def paramsTexts : EndorsementTexts where
  duplicatePubkey := "duplicate committee pubkey in params endorsements"
  duplicateAddress := "duplicate evm address in params endorsements"
  addressMismatch := "committee evm address mismatch in params endorsements"
  notInCommittee := "params endorser not in committee set"
  failed := "failed to verify params endorsement: "
  invalidSignature := "invalid params endorsement signature"

/-- The address of the first member with the key.  A key on chain that cannot be read fails the
search when it is reached. -/
def expectedAddress (pubkey : PublicKey) :
    List (Bytes × EvmAddress) → Except ValidationError (Option EvmAddress)
  | [] => .ok none
  | (bytes, address) :: rest =>
      match host.publicKeyFromSlice bytes with
      | .error e => .error (.invalidGraph ("invalid committee pubkey on-chain: " ++ e))
      | .ok onChain =>
          if onChain.1 = pubkey then .ok (some address) else expectedAddress pubkey rest

def verifyEndorsement (evmAddress : EvmAddress) (digest : Bytes32) (signature : Bytes) :
    Except String Bool :=
  (host.recoverAddressFromPrehash digest signature).map fun address => address = evmAddress

/-- One round of the loops, over the pairs of a key and an address since the counts agree.  The
parameters are hashed in each round. -/
def checkEndorsement (texts : EndorsementTexts) (members : List (Bytes × EvmAddress))
    (digest : Except String Bytes32)
    (seen : List CommitteeEndorsement) (endorsement : CommitteeEndorsement) :
    Except ValidationError Unit := do
  require (endorsement.pubkey ∉ seen.map CommitteeEndorsement.pubkey)
    (.invalidGraph texts.duplicatePubkey)
  require (endorsement.evmAddr ∉ seen.map CommitteeEndorsement.evmAddr)
    (.invalidGraph texts.duplicateAddress)
  match ← expectedAddress host endorsement.pubkey members with
  | some expected => require (expected = endorsement.evmAddr) (.invalidGraph texts.addressMismatch)
  | none => throw (.invalidGraph texts.notInCommittee)
  let valid ← (digest.bind fun digest => verifyEndorsement host endorsement.evmAddr digest
    endorsement.sig).mapError fun e => .invalidGraph (texts.failed ++ e)
  require (valid = true) (.invalidGraph texts.invalidSignature)

def validateFinalizedGraph (graph : SimplifiedGraph)
    (endorseSigs paramsEndorseSigs : List CommitteeEndorsement) : Except ValidationError Unit := do
  require (graph.operatorPreSigned ∧ graph.committeePreSigned)
    (.invalidGraph "finalized graph is missing operator or committee pre-signatures")
  let fullGraph ← (host.fromSimplified graph).mapError fun e =>
    .invalidGraph ("invalid graph structure: " ++ e)
  host.checkGraph fullGraph
  let peginData ← host.gatewayGetPeginData fullGraph
  let graphDigest ← host.getGraphDigest fullGraph
  let count := peginData.committeePubkeys.length
  require (count = peginData.committeeAddresses.length)
    (.invalidGraph "on-chain committee pubkey and address counts differ")
  let endorsed := endorseSigs.length
  require (endorsed = count)
    (.invalidGraph s!"endorsement count {endorsed} does not match instance committee count {count}")
  let paramsEndorsed := paramsEndorseSigs.length
  require (paramsEndorsed = count)
    (.invalidGraph
      s!"params endorsement count {paramsEndorsed} does not match instance committee count {count}")
  checkEach (checkEndorsement host graphTexts peginData.members (.ok graphDigest)) [] endorseSigs
  checkEach (checkEndorsement host paramsTexts peginData.members (host.graphParamsHash fullGraph))
    [] paramsEndorseSigs

def checkVerifierEndorsement (graph : SimplifiedGraph) (seen : List VerifierEndorsement)
    (endorsement : VerifierEndorsement) : Except ValidationError Unit := do
  let peer ← (host.peerIdFromStr endorsement.verifierPeerId).mapError fun _ =>
    .other "invalid verifier endorsement peer"
  require (∀ earlier ∈ seen, (host.peerIdFromStr earlier.verifierPeerId).toOption ≠ some peer)
    (.invalidGraph "duplicate verifier endorsement peer")
  let index := endorsement.verifierIndex
  let pubkey := hexEncode endorsement.verifierPubkey.bytes
  match graph.gcVerifierPubkeys[index]? with
  | none => throw (.invalidGraph s!"verifier params endorsement index {index} out of range")
  | some slotPubkey =>
      let slot := hexEncode slotPubkey.bytes
      require (slotPubkey = endorsement.verifierPubkey)
        (.invalidGraph (s!"verifier params endorsement slot mismatch at index {index}: " ++
          s!"signature pubkey={pubkey}, graph pubkey={slot}"))
      require (xOnly endorsement.verifierPubkey ∉ seen.map fun earlier =>
          xOnly earlier.verifierPubkey)
        (.invalidGraph s!"duplicate verifier params endorsement pubkey: {pubkey}")
      require (index ∉ seen.map VerifierEndorsement.verifierIndex)
        (.invalidGraph s!"duplicate verifier params endorsement index: {index}")
      let paramsHash ← (host.simplifiedParamsHash graph).mapError .other
      require (host.verifySchnorr endorsement.signature paramsHash
        (xOnly endorsement.verifierPubkey) =
          true) (.invalidGraph s!"invalid verifier params endorsement signature for {pubkey}")

def checkRegistered (endorsement : VerifierEndorsement) : Except ValidationError Unit := do
  let peer ← (host.peerIdFromStr endorsement.verifierPeerId).mapError .other
  let registered ← (host.committeeManaIsVerifier peer.toBytes).mapError fun _ =>
    .other "recheck verifier registration before committee setup"
  require (registered = true) (.invalidGraph "endorsement peer is not a registered verifier")

def validateVerifierGraphParamsEndorsements (graph : SimplifiedGraph)
    (verifierEndorsements : List VerifierEndorsement) : Except ValidationError Unit := do
  let count := verifierEndorsements.length
  let expected := graph.gcVerifierPubkeys.length
  require (count = expected)
    (.invalidGraph
      s!"verifier params endorsement count {count} does not match GC slot count {expected}")
  checkEach (checkVerifierEndorsement host graph) [] verifierEndorsements
  checkEach (fun _ => checkRegistered host) [] verifierEndorsements

variable {host}
variable {graph : SimplifiedGraph} {members : List (Bytes × EvmAddress)}
  {digest : Except String Bytes32}

structure CommitteeEndorses (host : EndorsementHost F) (members : List (Bytes × EvmAddress))
    (digest : Except String Bytes32) (endorsements : List CommitteeEndorsement) : Prop where
  members_perm : (endorsements.map fun e => (e.pubkey.bytes, e.evmAddr)).Perm members
  recovers : ∀ e ∈ endorsements, ∃ d, digest = .ok d ∧
    host.recoverAddressFromPrehash d e.sig = .ok e.evmAddr

structure VerifiersEndorse (host : EndorsementHost F) (graph : SimplifiedGraph)
    (endorsements : List VerifierEndorsement) : Prop where
  slots_perm : (endorsements.map (·.verifierIndex)).Perm (List.range graph.gcVerifierPubkeys.length)
  keys_nodup : (endorsements.map fun e => xOnly e.verifierPubkey).Nodup
  slot_key : ∀ e ∈ endorsements, graph.gcVerifierPubkeys[e.verifierIndex]? = some e.verifierPubkey
  peers_nodup : (endorsements.map fun e => (host.peerIdFromStr e.verifierPeerId).toOption).Nodup
  registered : ∀ e ∈ endorsements, ∃ peer, host.peerIdFromStr e.verifierPeerId = .ok peer ∧
    host.committeeManaIsVerifier peer.toBytes = .ok true
  valid : ∀ e ∈ endorsements, ∃ key hash, graph.gcVerifierPubkeys[e.verifierIndex]? = some key ∧
    host.simplifiedParamsHash graph = .ok hash ∧
      host.verifySchnorr e.signature hash (xOnly key) = true

theorem expectedAddress_mem {pubkey : PublicKey} {address : EvmAddress}
    (h : expectedAddress host pubkey members = .ok (some address)) :
    (pubkey.bytes, address) ∈ members := by
  fun_induction expectedAddress host pubkey members with
  | case1 => cases h
  | case2 => cases h
  | case3 bytes found rest onChain hread hsame =>
    cases h
    rw [← hsame, onChain.2]
    exact List.mem_cons_self
  | case4 bytes found rest onChain hread hne ih => exact List.mem_cons_of_mem _ (ih h)

theorem checkEndorsement_eq_ok {texts : EndorsementTexts} {seen : List CommitteeEndorsement}
    {e : CommitteeEndorsement} (h : checkEndorsement host texts members digest seen e = .ok ()) :
    e.evmAddr ∉ seen.map (·.evmAddr) ∧ (e.pubkey.bytes, e.evmAddr) ∈ members ∧
      ∃ d, digest = .ok d ∧ host.recoverAddressFromPrehash d e.sig = .ok e.evmAddr := by
  obtain ⟨⟨⟩, -, h⟩ := except_bind_eq_ok.mp h
  obtain ⟨⟨⟩, haddress, h⟩ := except_bind_eq_ok.mp h
  obtain ⟨expected, hexpected, h⟩ := except_bind_eq_ok.mp h
  refine ⟨require_eq_ok.mp haddress, ?_⟩
  cases expected with
  | none => cases h
  | some expected =>
    obtain ⟨⟨⟩, hsame, h⟩ := except_bind_eq_ok.mp h
    obtain ⟨valid, hverify, hvalid⟩ := except_bind_eq_ok.mp h
    cases require_eq_ok.mp hsame
    refine ⟨expectedAddress_mem hexpected, ?_⟩
    cases digest with
    | error e => cases hverify
    | ok d =>
      obtain ⟨address, hrecover, hmatch⟩ := except_map_eq_ok.mp (except_mapError_eq_ok.mp hverify)
      rw [← hmatch, require_eq_ok, decide_eq_true_iff] at hvalid
      exact ⟨d, rfl, hvalid ▸ hrecover⟩

variable {texts : EndorsementTexts} {endorsements : List CommitteeEndorsement}

theorem committeeEndorses_of_checkEach (hcount : endorsements.length = members.length)
    (h : checkEach (checkEndorsement host texts members digest) [] endorsements = .ok ()) :
    CommitteeEndorses host members digest endorsements := by
  have hchecked : ∀ before e after, endorsements = before ++ e :: after →
      checkEndorsement host texts members digest before e = .ok () := checkEach_eq_ok h
  have heach : ∀ e ∈ endorsements, (e.pubkey.bytes, e.evmAddr) ∈ members ∧
      ∃ d, digest = .ok d ∧ host.recoverAddressFromPrehash d e.sig = .ok e.evmAddr := by
    intro e he
    obtain ⟨earlier, hchecked⟩ := exists_check_of_mem h he
    exact (checkEndorsement_eq_ok hchecked).2
  have hnodup : (endorsements.map fun e => (e.pubkey.bytes, e.evmAddr)).Nodup := by
    apply nodup_map_of_split
    intro before e after hsplit hrepeated
    apply (checkEndorsement_eq_ok (hchecked before e after hsplit)).1
    obtain ⟨earlier, hearlier, hpair⟩ := List.mem_map.mp hrepeated
    exact List.mem_map.mpr ⟨earlier, hearlier, congrArg Prod.snd hpair⟩
  have hsub : (endorsements.map fun e => (e.pubkey.bytes, e.evmAddr)) ⊆ members := by
    intro pair hpair
    obtain ⟨e, he, rfl⟩ := List.mem_map.mp hpair
    exact (heach e he).1
  constructor
  · apply (List.subperm_of_subset hnodup hsub).perm_of_length_le
    rw [List.length_map]
    exact hcount.ge
  · intro e he
    exact (heach e he).2

theorem checkVerifierEndorsement_eq_ok {seen : List VerifierEndorsement} {e : VerifierEndorsement}
    (h : checkVerifierEndorsement host graph seen e = .ok ()) :
    (host.peerIdFromStr e.verifierPeerId).toOption ∉
      (seen.map fun e => (host.peerIdFromStr e.verifierPeerId).toOption) ∧
      xOnly e.verifierPubkey ∉ (seen.map fun e => xOnly e.verifierPubkey) ∧
      e.verifierIndex ∉ seen.map (·.verifierIndex) ∧ graph.gcVerifierPubkeys[e.verifierIndex]? =
        some e.verifierPubkey ∧
      ∃ hash, host.simplifiedParamsHash graph = .ok hash ∧
        host.verifySchnorr e.signature hash (xOnly e.verifierPubkey) = true := by
  obtain ⟨peer, hpeer, h⟩ := except_bind_eq_ok.mp h
  obtain ⟨⟨⟩, hnewPeer, h⟩ := except_bind_eq_ok.mp h
  rw [except_mapError_eq_ok] at hpeer
  rw [require_eq_ok] at hnewPeer
  cases hslot : graph.gcVerifierPubkeys[e.verifierIndex]? with
  | none =>
    dsimp only at h
    rw [hslot] at h
    cases h
  | some slotPubkey =>
    dsimp only at h
    rw [hslot] at h
    obtain ⟨⟨⟩, hsame, h⟩ := except_bind_eq_ok.mp h
    obtain ⟨⟨⟩, hnewKey, h⟩ := except_bind_eq_ok.mp h
    obtain ⟨⟨⟩, hnewIndex, h⟩ := except_bind_eq_ok.mp h
    obtain ⟨hash, hhash, hvalid⟩ := except_bind_eq_ok.mp h
    rw [require_eq_ok] at hsame hnewKey hnewIndex hvalid
    rw [except_mapError_eq_ok] at hhash
    refine ⟨?_, hnewKey, hnewIndex, by rw [hsame], hash, hhash, hvalid⟩
    rw [hpeer]
    intro hrepeated
    obtain ⟨earlier, hearlier, hsamePeer⟩ := List.mem_map.mp hrepeated
    exact hnewPeer earlier hearlier hsamePeer

theorem checkRegistered_eq_ok {e : VerifierEndorsement} (h : checkRegistered host e = .ok ()) :
    ∃ peer, host.peerIdFromStr e.verifierPeerId = .ok peer ∧
      host.committeeManaIsVerifier peer.toBytes = .ok true := by
  obtain ⟨peer, hpeer, h⟩ := except_bind_eq_ok.mp h
  obtain ⟨registered, hquery, h⟩ := except_bind_eq_ok.mp h
  rw [except_mapError_eq_ok] at hpeer hquery
  rw [require_eq_ok] at h
  exact ⟨peer, hpeer, h ▸ hquery⟩

theorem verifiersEndorse_of_validate {endorsements : List VerifierEndorsement}
    (h : validateVerifierGraphParamsEndorsements host graph endorsements = .ok ()) :
    VerifiersEndorse host graph endorsements := by
  obtain ⟨⟨⟩, hcount, h⟩ := except_bind_eq_ok.mp h
  obtain ⟨⟨⟩, hloop, hregistered⟩ := except_bind_eq_ok.mp h
  rw [require_eq_ok] at hcount
  have hchecked : ∀ before e after, endorsements = before ++ e :: after →
      checkVerifierEndorsement host graph before e = .ok () := checkEach_eq_ok hloop
  have heach : ∀ e ∈ endorsements, graph.gcVerifierPubkeys[e.verifierIndex]? =
      some e.verifierPubkey ∧
      ∃ hash, host.simplifiedParamsHash graph = .ok hash ∧
        host.verifySchnorr e.signature hash (xOnly e.verifierPubkey) = true := by
    intro e he
    obtain ⟨earlier, hchecked⟩ := exists_check_of_mem hloop he
    exact (checkVerifierEndorsement_eq_ok hchecked).2.2.2
  refine ⟨?_, ?_, fun e he => (heach e he).1, ?_, ?_, ?_⟩
  · -- as many different indices of slots as there are slots
    have hnodup : (endorsements.map (·.verifierIndex)).Nodup :=
      nodup_map_of_split _ fun before e after hsplit =>
      (checkVerifierEndorsement_eq_ok (hchecked before e after hsplit)).2.2.1
    have hsub : endorsements.map (·.verifierIndex) ⊆ List.range graph.gcVerifierPubkeys.length := by
      intro index hindex
      obtain ⟨e, he, rfl⟩ := List.mem_map.mp hindex
      obtain ⟨hbound, -⟩ := List.getElem?_eq_some_iff.mp (heach e he).1
      exact List.mem_range.mpr hbound
    apply (List.subperm_of_subset hnodup hsub).perm_of_length_le
    rw [List.length_map, List.length_range]
    exact hcount.ge
  · exact nodup_map_of_split _ fun before e after hsplit =>
      (checkVerifierEndorsement_eq_ok (hchecked before e after hsplit)).2.1
  · exact nodup_map_of_split _ fun before e after hsplit =>
      (checkVerifierEndorsement_eq_ok (hchecked before e after hsplit)).1
  · intro e he
    obtain ⟨-, hchecked⟩ := exists_check_of_mem hregistered he
    exact checkRegistered_eq_ok hchecked
  · intro e he
    obtain ⟨hslot, hash, hhash, hvalid⟩ := heach e he
    exact ⟨e.verifierPubkey, hash, hslot, hhash, hvalid⟩

/-- Accepted endorsements are in bijection with the members of the committee and with the garbled
circuits. -/
theorem endorsements_bijective (host : EndorsementHost F) (graph : SimplifiedGraph) :
    (∀ endorseSigs paramsEndorseSigs, validateFinalizedGraph host graph endorseSigs
        paramsEndorseSigs = .ok () →
      ∃ fullGraph data digest, host.fromSimplified graph = .ok fullGraph ∧
        host.gatewayGetPeginData fullGraph = .ok data ∧ host.getGraphDigest fullGraph = .ok digest ∧
        data.committeePubkeys.length = data.committeeAddresses.length ∧
        CommitteeEndorses host data.members (.ok digest) endorseSigs ∧
        CommitteeEndorses host data.members (host.graphParamsHash fullGraph) paramsEndorseSigs) ∧
    ∀ endorsements, validateVerifierGraphParamsEndorsements host graph endorsements = .ok () →
      VerifiersEndorse host graph endorsements := by
  constructor
  · intro endorseSigs paramsEndorseSigs h
    obtain ⟨⟨⟩, -, h⟩ := except_bind_eq_ok.mp h
    obtain ⟨fullGraph, hfull, h⟩ := except_bind_eq_ok.mp h
    obtain ⟨⟨⟩, -, h⟩ := except_bind_eq_ok.mp h
    obtain ⟨data, hdata, h⟩ := except_bind_eq_ok.mp h
    obtain ⟨digest, hdigest, h⟩ := except_bind_eq_ok.mp h
    obtain ⟨⟨⟩, hcounts, h⟩ := except_bind_eq_ok.mp h
    obtain ⟨⟨⟩, hendorsed, h⟩ := except_bind_eq_ok.mp h
    obtain ⟨⟨⟩, hparams, h⟩ := except_bind_eq_ok.mp h
    obtain ⟨⟨⟩, hgraphLoop, hparamsLoop⟩ := except_bind_eq_ok.mp h
    rw [except_mapError_eq_ok] at hfull
    rw [require_eq_ok] at hcounts hendorsed hparams
    have hmembers : data.members.length = data.committeePubkeys.length := by
      rw [PeginData.members, List.length_zip, ← hcounts, Nat.min_self]
    exact ⟨fullGraph, data, digest, hfull, hdata, hdigest, hcounts,
      committeeEndorses_of_checkEach (hendorsed.trans hmembers.symm) hgraphLoop,
      committeeEndorses_of_checkEach (hparams.trans hmembers.symm) hparamsLoop⟩
  · intro endorsements h
    exact verifiersEndorse_of_validate h

def sampleKey : PublicKey := ⟨2 :: List.replicate 32 7, by decide⟩

def sampleHost : EndorsementHost Unit where
  publicKeyFromSlice bytes :=
    if h : bytes = sampleKey.bytes then .ok ⟨sampleKey, h.symm⟩ else .error "malformed public key"
  fromSimplified _ := .ok ()
  checkGraph _ := .ok ()
  gatewayGetPeginData _ := .ok ⟨[sampleKey.bytes], [default]⟩
  getGraphDigest _ := .ok default
  graphParamsHash _ := .ok default
  simplifiedParamsHash _ := .ok default
  recoverAddressFromPrehash _ _ := .ok default
  verifySchnorr _ _ _ := true
  peerIdFromStr text := .ok ⟨text.toUTF8.toList⟩
  committeeManaIsVerifier _ := .ok true

example : validateFinalizedGraph sampleHost ⟨true, true, [sampleKey]⟩ [⟨sampleKey, default, []⟩]
      [⟨sampleKey, default, []⟩] = .ok () ∧
    validateVerifierGraphParamsEndorsements sampleHost ⟨true, true, [sampleKey]⟩
      [⟨sampleKey, 0, "v", default⟩] =
      .ok () := by
  decide +kernel

end BitvmNode.Graphs
