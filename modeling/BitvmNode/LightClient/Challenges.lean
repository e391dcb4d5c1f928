import BitvmNode.LightClient.Propose

/-!
# What a watchtower can do to the operator's proof

A watchtower signs its challenge as it likes: Bitcoin accepts every spend of its connector through
the leaf with its key, with the connector at any input, under any sighash type and with an annex.
-/

namespace BitvmNode.LightClient

open Reasoning Bitcoin Verifier CommitChain HeaderChain StateChain

/-- The message that Bitcoin nodes take the signature over.  Without an annex, and for the one type
that the circuit accepts, it is the one of the library. -/
structure Consensus (taproot : Taproot) where
  message : Transaction → Nat → List TxOut → Option Bytes → Bytes → TapSighashType → Option Bytes32
  message_eq : ∀ tx i prevOuts prevOut script, prevOuts[i]? = some prevOut →
    message tx i prevOuts none script .allPlusAnyoneCanPay =
      taproot.scriptSpendSignatureHash tx i prevOut script .allPlusAnyoneCanPay

/-- A spend of the connector through the leaf with the key that Bitcoin nodes accept.  The stack
below the script holds the signature and nothing else; an annex is told by its first byte. -/
structure LeafSpend {taproot : Taproot} (consensus : Consensus taproot) (tx : Transaction)
    (connector : OutPoint) (prevOut : TxOut) (key : Bytes32) where
  position : Nat
  txin : TxIn
  prevOuts : List TxOut
  (signatureBytes signature : Bytes)
  sighashType : TapSighashType
  (control controlBlock : Bytes)
  outputKey : Bytes32
  annex : Option Bytes
  hash : Bytes32
  input : tx.input[position]? = some txin
  spends : txin.previousOutput = connector
  distinct : (tx.input.map (·.previousOutput)).Nodup
  witness : txin.witness = [signatureBytes, watchtowerScript key, control] ++ annex.toList
  annexByte : ∀ bytes ∈ annex, bytes.head? = some 0x50
  leafVersion : control.head? = some 0xc0 ∨ control.head? = some 0xc1
  output : prevOuts[position]? = some prevOut
  isP2tr : prevOut.scriptPubkey.length = 34 ∧ prevOut.scriptPubkey.take 2 = [0x51, 0x20]
  outputKey_eq : taproot.xOnlyFromSlice (prevOut.scriptPubkey.drop 2) = .ok outputKey
  control_eq : taproot.controlBlockDecode control = .ok controlBlock
  commits : taproot.verifyTaprootCommitment controlBlock outputKey (watchtowerScript key) = true
  key_eq : taproot.xOnlyFromSlice key.toList = .ok key
  signature_eq : taproot.signatureFromSlice signatureBytes = some (signature, sighashType)
  hash_eq : consensus.message tx position prevOuts annex (watchtowerScript key) sighashType =
    some hash
  signed : taproot.verifySchnorr signature hash key = .ok ()

/-- The form that the circuit accepts: the connector is the first input, the signature is of the
type `SIGHASH_ALL | SIGHASH_ANYONECANPAY`, and there is no annex. -/
def LeafSpend.Plain {taproot : Taproot} {consensus : Consensus taproot} {tx : Transaction}
    {connector : OutPoint} {prevOut : TxOut} {key : Bytes32}
    (spend : LeafSpend consensus tx connector prevOut key) : Prop :=
  spend.position = 0 ∧ spend.sighashType = .allPlusAnyoneCanPay ∧ spend.annex = none

section

variable {taproot : Taproot} {consensus : Consensus taproot} {tx : Transaction}
variable {connector : OutPoint} {prevOut : TxOut} {key : Bytes32}

theorem okOr_eq_ok {α : Type} {x : Option α} {err : String} {a : α} :
    okOr x err = .ok a ↔ x = some a := by
  cases x with
  | none | some b => simp [okOr]

theorem ensure_eq_ok {p : Prop} [Decidable p] {err : String} {u : Unit} :
    ensure p err = .ok u ↔ p := by
  by_cases h : p <;> simp [ensure, h]

theorem LeafSpend.Plain.verifies {spend : LeafSpend consensus tx connector prevOut key}
    (h : spend.Plain) :
    verifyTaprootLeafSchnorrSignature taproot (watchtowerScript key) tx 0 prevOut key = .ok () := by
  obtain ⟨hposition, htype, hannex⟩ := h
  have hwitness : spend.txin.witness =
      [spend.signatureBytes, watchtowerScript key, spend.control] := by
    rw [spend.witness, hannex]
    rfl
  have hinput : tx.input[0]? = some spend.txin := by
    rw [← hposition]
    exact spend.input
  have hmessage : taproot.scriptSpendSignatureHash tx 0 prevOut (watchtowerScript key)
      .allPlusAnyoneCanPay = some spend.hash := by
    have houtput := spend.output
    have hhash := spend.hash_eq
    rw [hposition] at houtput hhash
    rw [hannex, htype, consensus.message_eq _ _ _ _ _ houtput] at hhash
    exact hhash
  have hsignature := spend.signature_eq
  rw [htype] at hsignature
  simp only [verifyTaprootLeafSchnorrSignature, except_bind_eq_ok, okOr_eq_ok, ensure_eq_ok]
  refine ⟨spend.txin, hinput,
      spend.signatureBytes, by rw [hwitness]; rfl, _, hsignature, (), rfl, (),
    by
      rw [hwitness]; exact Nat.le_refl 3, watchtowerScript key, by
        rw [hwitness]; rfl, (), rfl, spend.control,
    by rw [hwitness]; rfl, spend.controlBlock, spend.control_eq, (), spend.isP2tr, spend.outputKey,
    spend.outputKey_eq, (), spend.commits, spend.hash, hmessage, spend.signed⟩

theorem LeafSpend.plain_of_verifies (spend : LeafSpend consensus tx connector prevOut key)
    {txin : TxIn} (hinput : tx.input[0]? = some txin) (hspends : txin.previousOutput = connector)
    {key' : Bytes32} (h : verifyTaprootLeafSchnorrSignature taproot (watchtowerScript key) tx 0
      prevOut key' = .ok ()) :
    spend.Plain := by
  -- no two inputs spend one output
  have hposition : spend.position = 0 := by
    have hat : (tx.input.map (·.previousOutput))[spend.position]? = some connector := by
      rw [List.getElem?_map, spend.input, Option.map_some, spend.spends]
    have hfirst : (tx.input.map (·.previousOutput))[0]? = some connector := by
      rw [List.getElem?_map, hinput, Option.map_some, hspends]
    have hlt : spend.position < (tx.input.map (·.previousOutput)).length :=
      (List.getElem?_eq_some_iff.mp hat).1
    exact (List.getElem?_inj hlt spend.distinct).mp (hat.trans hfirst.symm)
  have hsame : tx.input[0]? = some spend.txin := by
    rw [← hposition]
    exact spend.input
  simp only [verifyTaprootLeafSchnorrSignature, except_bind_eq_ok, okOr_eq_ok, ensure_eq_ok] at h
  obtain ⟨txin', hinput', bytes, hbytes, ⟨signature, sighashType⟩, hsignature, _, htype, _,
    hlen, script, hscript, _, hscriptEq, -⟩ := h
  obtain rfl : spend.txin = txin' := Option.some.inj (hsame.symm.trans hinput')
  have hfirst : spend.signatureBytes = bytes := by
    rw [spend.witness] at hbytes
    exact Option.some.inj hbytes
  refine ⟨hposition, ?_, ?_⟩
  · rw [← hfirst, spend.signature_eq, Option.some.injEq, Prod.mk.injEq] at hsignature
    exact hsignature.2.trans htype
  · cases hannex : spend.annex with
    | none => rfl
    | some annex =>
      -- below the annex stands the control block, not the script
      exfalso
      rw [spend.witness, hannex] at hscript
      have hcontrol : spend.control = watchtowerScript key := by
        rw [hscriptEq] at hscript
        exact Option.some.inj hscript
      rcases spend.leafVersion with hbyte | hbyte
      · rw [hcontrol] at hbyte
        cases hbyte
      · rw [hcontrol] at hbyte
        cases hbyte

end

section

variable (env : Env) (input : ProposeInput) (headerState : ChainState)
  (initTxn : Option Transaction)
variable (watchtowerId : ProgramId) (operatorConsensusBlockHeight : UInt32)

def connectorOf (challenge : IndexedWatchtowerChallenge) : OutPoint :=
  ⟨input.watchtowerChallengeInitTxid, challenge.nodeIndex.toUInt32 * 2⟩

structure ChallengeSpend (consensus : Consensus env.taproot)
    (challenge : IndexedWatchtowerChallenge) where
  initTransaction : Transaction
  prevOut : TxOut
  key : Bytes32
  init_eq : initTxn = some initTransaction
  prevOut_eq : initTransaction.output[(connectorOf input challenge).vout.toNat]? = some prevOut
  key_eq : input.graphWatchtowerXonlyPublicKeys[challenge.nodeIndex.toNat]? = some key
  spend : LeafSpend consensus challenge.spv.transaction (connectorOf input challenge) prevOut key

/-- The payload counts as a claim about this graph and claims more work or a later commitment than
the operator has. -/
def Exceeds (challenge : IndexedWatchtowerChallenge) : Prop :=
  ∃ claim, countedClaim env.sha256 env.groth16 watchtowerId input.graphId
    challenge.spv.transaction = some claim ∧
    (beNat headerState.totalWork.toList < beNat claim.totalWork ∨
      operatorConsensusBlockHeight.toNat < leNat claim.consensusBlockHeight)

def challengeLoop : Option Unit :=
  input.watchtowerChallenges.forM
    (checkChallenge env input headerState initTxn watchtowerId operatorConsensusBlockHeight)

def finishProposal (outputs : Outputs) : Option (Bytes32 × Bytes32 × Bytes32) := do
  guard (isFound input.graphId outputs.state.chainState.withdrawals = true)
  guard (input.operatorCommittedBlockhash = outputs.header.chainState.bestBlockHash)
  some (input.operatorCommittedBlockhash,
    hashOperatorConstant env input.graphId input.operatorGenesisSequencerCommitTxid
      input.watchtowerChallengeInitTxid input.graphWatchtowerXonlyPublicKeys,
    ⟨(leBytes 32 input.includedWatchtowers.toNat).toArray, leBytes_length _ _⟩)

variable {env input headerState initTxn watchtowerId operatorConsensusBlockHeight}

theorem compareClaim_eq_some {claim : WatchtowerCommitment} {u : Unit} :
    compareClaim headerState.totalWork operatorConsensusBlockHeight claim = some u ↔
      ¬ (beNat headerState.totalWork.toList < beNat claim.totalWork ∨
        operatorConsensusBlockHeight.toNat < leNat claim.consensusBlockHeight) := by
  simp only [compareClaim, Option.bind_eq_bind, Option.bind_eq_some_iff, guard_eq_some,
    exists_const, not_or, Nat.not_lt]

variable (hchain : ∃ before headers, ChainState.applyBlocks env.header before headers =
    some headerState)

include hchain

theorem height_le_of_verify {spv : Spv} {height : UInt32}
    (h : spv.verify env.sha256 headerState.blockHashesMmr = some height) :
    height ≤ headerState.blockHeight := by
  obtain ⟨before, headers, hrun⟩ := hchain
  obtain ⟨l, -, hfinish⟩ := Option.bind_eq_some_iff.mp hrun
  simp only [LoopState.finish, Option.ite_none_left_eq_some, Option.some.injEq, not_not,
    ne_eq] at hfinish
  obtain ⟨hlast, hsize, rfl⟩ := hfinish
  obtain ⟨-, hproof, rfl⟩ := (Spv.verify_eq_some _).mp h
  have hbelow : spv.mmrInclusionProof.leafIndex < l.state.blockHeight + 1 := by
    rw [← hsize]
    by_contra hge
    simp [MmrGuest.verifyProof, MmrInclusionProof.getSubroot, MmrInclusionProof.position,
      UInt32.not_lt.mp hge] at hproof
  rw [UInt32.lt_iff_toNat_lt, UInt32.toNat_add] at hbelow
  change _ < (l.state.blockHeight.toNat + 1) % 2 ^ 32 at hbelow
  rw [UInt32.le_iff_toNat_le]
  change _ ≤ l.state.blockHeight.toNat
  omega

variable {consensus : Consensus env.taproot} {challenge : IndexedWatchtowerChallenge}

theorem authenticateChallenge_iff
    (hspv : ∃ height, challenge.spv.verify env.sha256 headerState.blockHashesMmr = some height)
    (spend : ChallengeSpend env input initTxn consensus challenge) :
    authenticateChallenge env input headerState initTxn challenge = some () ↔
    spend.spend.Plain := by
  obtain ⟨height, hverify⟩ := hspv
  have hheight := height_le_of_verify hchain hverify
  have hxonly : (env.taproot.xOnlyFromSlice spend.key.toList).toOption = some spend.key :=
    except_toOption_eq_some.mpr spend.spend.key_eq
  simp only [authenticateChallenge, Option.bind_eq_bind, Option.bind_eq_some_iff, guard_eq_some,
    exists_const, except_toOption_eq_some]
  constructor
  · rintro ⟨_, -, -, txin, hinput, htxid, hvout, _, hinit, prevOut, hprevOut, key, hkey, xonly,
      hxonly', hsignature⟩
    obtain rfl := Option.some.inj (spend.init_eq.symm.trans hinit)
    obtain rfl := Option.some.inj (spend.prevOut_eq.symm.trans hprevOut)
    obtain rfl := Option.some.inj (spend.key_eq.symm.trans hkey)
    obtain rfl := Except.ok.inj (spend.spend.key_eq.symm.trans hxonly')
    refine spend.spend.plain_of_verifies hinput ?_ hsignature
    rw [connectorOf, ← htxid, ← hvout]
  · intro hplain
    have hinput := spend.spend.input
    rw [hplain.1] at hinput
    refine ⟨height, hverify, hheight, spend.spend.txin, hinput, ?_, ?_, spend.initTransaction,
      spend.init_eq, spend.prevOut, spend.prevOut_eq, spend.key, spend.key_eq, spend.key,
      spend.spend.key_eq, hplain.verifies⟩
    · rw [spend.spend.spends, connectorOf]
    · rw [spend.spend.spends, connectorOf]

theorem checkChallenge_iff
    (hspv : ∃ height, challenge.spv.verify env.sha256 headerState.blockHashesMmr = some height)
    (spend : ChallengeSpend env input initTxn consensus challenge) :
    checkChallenge env input headerState initTxn watchtowerId operatorConsensusBlockHeight
      challenge = some () ↔
      spend.spend.Plain ∧ ¬ Exceeds env input headerState watchtowerId operatorConsensusBlockHeight
        challenge := by
  rw [← authenticateChallenge_iff hchain hspv spend]
  simp only [checkChallenge, Option.bind_eq_bind, Option.bind_eq_some_iff]
  constructor
  · rintro ⟨_, hauth, hclaim⟩
    refine ⟨hauth, ?_⟩
    rintro ⟨claim, hcounted, hexceeds⟩
    rw [hcounted] at hclaim
    exact compareClaim_eq_some.mp hclaim hexceeds
  · rintro ⟨hauth, hnot⟩
    refine ⟨(), hauth, ?_⟩
    cases hcounted : countedClaim env.sha256 env.groth16 watchtowerId input.graphId
        challenge.spv.transaction with
    | none => rfl
    | some claim => exact compareClaim_eq_some.mpr fun hexceeds => hnot ⟨claim, hcounted, hexceeds⟩

theorem challengeLoop_iff (hspv : ∀ challenge ∈ input.watchtowerChallenges,
      ∃ height, challenge.spv.verify env.sha256 headerState.blockHashesMmr = some height)
    (spend : ∀ challenge ∈ input.watchtowerChallenges, ChallengeSpend env input initTxn consensus
      challenge) :
    challengeLoop env input headerState initTxn watchtowerId operatorConsensusBlockHeight =
      some () ↔
      (∀ challenge hmem, (spend challenge hmem).spend.Plain) ∧
      ¬ ∃ challenge ∈ input.watchtowerChallenges,
          Exceeds env input headerState watchtowerId operatorConsensusBlockHeight challenge := by
  constructor
  · intro h
    have heach := fun challenge hmem =>
      (checkChallenge_iff hchain (hspv challenge hmem) (spend challenge hmem)).mp
        (forM_eq_some h challenge hmem)
    refine ⟨fun challenge hmem => (heach challenge hmem).1, ?_⟩
    rintro ⟨challenge, hmem, hexceeds⟩
    exact (heach challenge hmem).2 hexceeds
  · rintro ⟨hplain, hnone⟩
    refine forM_of_forall fun challenge hmem => ?_
    exact (checkChallenge_iff hchain (hspv challenge hmem) (spend challenge hmem)).mpr
      ⟨hplain challenge hmem, fun hexceeds => hnone ⟨challenge, hmem, hexceeds⟩⟩

end

/-- The loop aborts for the claims that exceed the operator's and for nothing else, exactly if every
challenge is signed in the plain form (or some claim exceeds the operator's anyway).  What the
circuit puts out after the loop does not depend on the challenges. -/
theorem watchtower_cannot_block_iff (env : Env) (consensus : Consensus env.taproot)
    (input : ProposeInput) (headerState : ChainState) (initTxn : Option Transaction)
    (watchtowerId : ProgramId) (operatorConsensusBlockHeight : UInt32) (hchain : ∃ before headers,
      ChainState.applyBlocks env.header before headers = some headerState)
    (hindices : validateWatchtowerChallengeIndices (u256ToLeBits input.includedWatchtowers)
      input.graphWatchtowerXonlyPublicKeys.length (input.watchtowerChallenges.map (·.nodeIndex)) =
        .ok ())
    (hspv : ∀ challenge ∈ input.watchtowerChallenges,
      ∃ height, challenge.spv.verify env.sha256 headerState.blockHashesMmr = some height)
    (spend : ∀ challenge ∈ input.watchtowerChallenges, ChallengeSpend env input initTxn consensus
      challenge) :
    ((challengeLoop env input headerState initTxn watchtowerId operatorConsensusBlockHeight = none ↔
        ∃ challenge ∈ input.watchtowerChallenges,
          Exceeds env input headerState watchtowerId operatorConsensusBlockHeight challenge) ↔
      ((∀ challenge hmem, (spend challenge hmem).spend.Plain) ∨
          ∃ challenge ∈ input.watchtowerChallenges,
          Exceeds env input headerState watchtowerId operatorConsensusBlockHeight challenge)) ∧
      ∀ outputs authorized, checkChains env input.operatorGenesisSequencerCommitTxid input.chains =
          some (outputs, operatorConsensusBlockHeight, authorized) →
        checkedChallengeInitTransaction env.sha256 input.watchtowerChallengeInitTxid
          input.watchtowerChallengeInitTxn (!input.watchtowerChallenges.isEmpty) = some initTxn →
        proposeLongestChain env input =
            (challengeLoop env input outputs.header.chainState initTxn authorized.watchtower
            operatorConsensusBlockHeight).bind fun _ => finishProposal env input outputs := by
  refine ⟨?_, fun outputs authorized hchains hinit => by
    simp only [proposeLongestChain, hchains, hindices, hinit, challengeLoop, finishProposal,
      Except.toOption, Option.bind_eq_bind, Option.bind_some]⟩
  have hnone : challengeLoop env input headerState initTxn watchtowerId
      operatorConsensusBlockHeight = none ↔
        ¬ challengeLoop env input headerState initTxn watchtowerId operatorConsensusBlockHeight =
          some () := by
    cases challengeLoop env input headerState initTxn watchtowerId operatorConsensusBlockHeight with
    | none | some u => simp
  rw [hnone, challengeLoop_iff hchain hspv spend]
  by_cases hexceeds : ∃ challenge ∈ input.watchtowerChallenges,
      Exceeds env input headerState watchtowerId operatorConsensusBlockHeight challenge
  · simp [hexceeds]
  · simp [hexceeds]

/-! ## A challenge without a payload

The only watchtower of a graph signs a transaction without outputs, under the given sighash type. -/

namespace EmptyChallenge

def taproot : Taproot where
  xOnlyFromSlice bytes :=
    if h : bytes.length = 32 then .ok ⟨bytes.toArray, h⟩ else .error "malformed key"
  signatureFromSlice bytes :=
    if bytes.length = 64 then some (bytes, .default)
    else if bytes.getLast? = some 0x81 then some (bytes.take 64, .allPlusAnyoneCanPay)
    else none
  controlBlockDecode bytes := .ok bytes
  verifyTaprootCommitment _ _ _ := true
  scriptSpendSignatureHash _ _ _ _ _ := some zero32
  verifySchnorr _ _ _ := .ok ()

def consensus : Consensus taproot where
  message _ _ _ _ _ _ := some zero32
  message_eq _ _ _ _ _ _ := rfl

def env : Env where
  sha256 := Sha256.digest
  fromDer _ := none
  verifyEcdsa _ _ _ := false
  sequencerHash _ := none
  network := .regtest
  fromNextWorkRequired := fun _ bits _ => bits
  groth16 := ⟨fun _ => .error "", fun _ => none, fun _ => .error "", fun _ _ _ _ => .error ""⟩
  headerCodec := .ofTable []
  commitCodec := .ofTable []
  stateCodec := .ofTable []
  decodeTx _ := none
  decodeMsgNewEthBlock _ := none
  lightBlockFromSlice _ := none
  verifyValidatorSets _ := false
  verifyCommit _ := false
  keccak256 := Sha256.digest
  hashSlow _ := zero32
  execute _ _ := none
  taproot := taproot

def key : Bytes32 := beBytes32 5

def prevOut : TxOut := ⟨330, [0x51, 0x20] ++ key.toList⟩

def initTransaction : Transaction := ⟨2, 0, [], [prevOut]⟩

def signatureBytes : TapSighashType → Bytes
  | .allPlusAnyoneCanPay => List.replicate 64 7 ++ [0x81]
  | _ => List.replicate 64 7

def txin (sighashType : TapSighashType) : TxIn where
  previousOutput := ⟨initTransaction.computeTxid Sha256.digest, 0⟩
  scriptSig := []
  sequence := 0
  witness := [signatureBytes sighashType, watchtowerScript key, 0xc0 :: key.toList]

def tx (sighashType : TapSighashType) : Transaction := ⟨2, 0, [txin sighashType], []⟩

def blockHeader (sighashType : TapSighashType) : CircuitBlockHeader :=
  ⟨1, zero32, HeaderChain.txid Sha256.digest (tx sighashType), 0, 0, 0⟩

def spv (sighashType : TapSighashType) : Spv :=
  ⟨tx sighashType, ⟨0, []⟩, blockHeader sighashType, ⟨0, []⟩⟩

def challenge (sighashType : TapSighashType) : IndexedWatchtowerChallenge := ⟨0, spv sighashType⟩

def headerState (sighashType : TapSighashType) : ChainState where
  blockHeight := 0
  totalWork := beBytes32 (beNat zero32.toList)
  bestBlockHash := (blockHeader sighashType).computeBlockHash Sha256.digest
  currentTargetBits := 0
  epochStartTime := 0
  prev11Timestamps := Vector.replicate 11 0
  blockHashesMmr := ⟨[(blockHeader sighashType).computeBlockHash Sha256.digest], 1⟩

def input (sighashType : TapSighashType) : ProposeInput where
  includedWatchtowers := 1
  graphId := Vector.replicate 16 1
  operatorGenesisSequencerCommitTxid := zero32
  watchtowerChallengeInitTxid := initTransaction.computeTxid Sha256.digest
  watchtowerChallengeInitTxn := some initTransaction
  watchtowerChallenges := [challenge sighashType]
  graphWatchtowerXonlyPublicKeys := [key]
  chains := ⟨⟨[], [], [], ""⟩, ⟨[], [], [], ""⟩, ⟨[], [], [], ""⟩, spv sighashType⟩
  operatorCommittedBlockhash := zero32

variable (sighashType : TapSighashType)

theorem headerState_of_chain : ∃ before headers,
    ChainState.applyBlocks env.header before headers = some (headerState sighashType) :=
  ⟨{ headerState sighashType with totalWork := zero32 }, [], rfl⟩

theorem indices_match :
    validateWatchtowerChallengeIndices (u256ToLeBits (input sighashType).includedWatchtowers)
    (input sighashType).graphWatchtowerXonlyPublicKeys.length
    ((input sighashType).watchtowerChallenges.map (·.nodeIndex)) = .ok () := by
  change validateWatchtowerChallengeIndices (u256ToLeBits 1) 1 [0] = .ok ()
  decide +kernel

theorem spv_verifies :
    (spv sighashType).verify env.sha256 (headerState sighashType).blockHashesMmr = some 0 := by
  have hposition : (⟨0, []⟩ : MmrInclusionProof Bytes32).position 1 = some (0, 0, 0) := by
    decide +kernel
  refine (Spv.verify_eq_some _).mpr ⟨rfl, ?_, rfl⟩
  simp [MmrGuest.verifyProof, MmrInclusionProof.getSubroot, MmrInclusionProof.hashUp, headerState,
    spv, env, hposition]

theorem xOnly_key : taproot.xOnlyFromSlice key.toList = .ok key := by
  decide +kernel

def leafSpend (h : sighashType = .default ∨ sighashType = .allPlusAnyoneCanPay) :
    LeafSpend consensus (tx sighashType) ⟨initTransaction.computeTxid Sha256.digest,
      0⟩ prevOut key where
  position := 0
  txin := txin sighashType
  prevOuts := [prevOut]
  signatureBytes := signatureBytes sighashType
  signature := List.replicate 64 7
  sighashType := sighashType
  control := 0xc0 :: key.toList
  controlBlock := 0xc0 :: key.toList
  outputKey := key
  annex := none
  hash := zero32
  input := rfl
  spends := rfl
  distinct := List.nodup_singleton _
  witness := rfl
  annexByte := by simp
  leafVersion := Or.inl rfl
  output := rfl
  isP2tr := by decide +kernel
  outputKey_eq := xOnly_key
  control_eq := rfl
  commits := rfl
  key_eq := xOnly_key
  signature_eq := by rcases h with rfl | rfl <;> decide +kernel
  hash_eq := rfl
  signed := rfl

def challengeSpend (h : sighashType = .default ∨ sighashType = .allPlusAnyoneCanPay)
    (c : IndexedWatchtowerChallenge) (hmem : c ∈ (input sighashType).watchtowerChallenges) :
    ChallengeSpend env (input sighashType) (some initTransaction) consensus c where
  initTransaction := initTransaction
  prevOut := prevOut
  key := key
  init_eq := rfl
  prevOut_eq := by rw [List.mem_singleton.mp hmem]; rfl
  key_eq := by rw [List.mem_singleton.mp hmem]; rfl
  spend := by
    rw [List.mem_singleton.mp hmem]
    exact leafSpend sighashType h

theorem spvs_verify : ∀ c ∈ (input sighashType).watchtowerChallenges,
    ∃ height, c.spv.verify env.sha256 (headerState sighashType).blockHashesMmr = some height := by
  intro c hmem
  rw [List.mem_singleton.mp hmem]
  exact ⟨0, spv_verifies sighashType⟩

theorem not_exceeds {watchtowerId : ProgramId} {height : UInt32} :
    ¬ ∃ c ∈ (input sighashType).watchtowerChallenges,
      Exceeds env (input sighashType) (headerState sighashType) watchtowerId height c := by
  rintro ⟨c, hmem, claim, hcounted, -⟩
  rw [List.mem_singleton.mp hmem] at hcounted
  cases hcounted

theorem plain_iff (h : sighashType = .default ∨ sighashType = .allPlusAnyoneCanPay) :
    (∀ c hmem, (challengeSpend sighashType h c hmem).spend.Plain) ↔
    sighashType = .allPlusAnyoneCanPay := by
  constructor
  · intro hall
    exact (hall (challenge sighashType) (List.mem_singleton_self _)).2.1
  · intro htype c hmem
    obtain rfl := List.mem_singleton.mp hmem
    exact ⟨rfl, htype, rfl⟩

theorem passed_over :
    challengeLoop env (input .allPlusAnyoneCanPay) (headerState .allPlusAnyoneCanPay)
      (some initTransaction) zero32 0 ≠ none := by
  have hiff := (watchtower_cannot_block_iff env consensus (input .allPlusAnyoneCanPay)
    (headerState .allPlusAnyoneCanPay) (some initTransaction) zero32 0 (headerState_of_chain _)
    (indices_match _) (spvs_verify _) (challengeSpend _ (Or.inr rfl))).1
  intro hnone
  exact not_exceeds _ ((hiff.mpr (Or.inl ((plain_iff _ _).mpr rfl))).mp hnone)

/-- Signed under the default type, a challenge that Bitcoin accepts and that claims nothing stops
the operator's proof. -/
theorem default_signature_blocks : (∃ before headers,
        ChainState.applyBlocks env.header before headers = some (headerState .default)) ∧
      validateWatchtowerChallengeIndices (u256ToLeBits (input .default).includedWatchtowers)
        (input .default).graphWatchtowerXonlyPublicKeys.length
        ((input .default).watchtowerChallenges.map (·.nodeIndex)) = .ok () ∧
      (∀ c ∈ (input .default).watchtowerChallenges,
        (∃ height, c.spv.verify env.sha256 (headerState .default).blockHashesMmr = some height) ∧
          Nonempty (ChallengeSpend env (input .default) (some initTransaction) consensus c)) ∧
      (¬ ∃ c ∈ (input .default).watchtowerChallenges, Exceeds env (input .default)
        (headerState .default) zero32 0 c) ∧
      challengeLoop env (input .default) (headerState .default) (some initTransaction) zero32 0 =
        none := by
  refine ⟨headerState_of_chain _, indices_match _,
    fun c hmem => ⟨spvs_verify _ c hmem, ⟨challengeSpend _ (Or.inl rfl) c hmem⟩⟩, not_exceeds _, ?_⟩
  by_contra hsome
  obtain ⟨u, hu⟩ := Option.ne_none_iff_exists'.mp hsome
  have hplain :=
    ((challengeLoop_iff (headerState_of_chain _) (spvs_verify _) (challengeSpend _ (Or.inl rfl))).mp
      hu).1
  exact absurd ((plain_iff _ _).mp hplain) (by decide)

end EmptyChallenge

end BitvmNode.LightClient
