import BitvmNode.HeaderChain.Circuit
import BitvmNode.CommitChain.Circuit
import BitvmNode.LightClient.Watchtower

/-!
# The operator's and the watchtower's proof

`propose_longest_chain` ties a header chain, a commit chain and a state chain proof together, places
the last commit transaction in a block of the header chain, compares the watchtowers' claims with
the operator's chain and looks the graph up in the list of withdrawals.  `none` stands for a panic.
-/

namespace BitvmNode.LightClient

open Reasoning Bitcoin Verifier CommitChain HeaderChain StateChain

def rootCommitProgramId : ProgramId :=
  beBytes32 0x4dc626c63149074f261a81b2719491482d112e2564e1f68b948237f679a1f3fc

structure Env extends CommitChain.Env where
  network : Network
  fromNextWorkRequired : Network → UInt32 → UInt64 → UInt32
  groth16 : Groth16
  headerCodec : OutputCodec BlockHeaderCircuitOutput
  commitCodec : OutputCodec CommitChainCircuitOutput
  stateCodec : OutputCodec StateChainCircuitOutput
  decodeTx : Bytes → Option Tx
  decodeMsgNewEthBlock : Bytes → Option MsgNewEthBlock
  lightBlockFromSlice : Bytes → Option LightBlock
  verifyValidatorSets : LightBlock → Bool
  verifyCommit : LightBlock → Bool
  keccak256 : Bytes → Bytes32
  hashSlow : EvmHeader → Bytes32
  execute : EthClientExecutorInput → List StorageCheck → Option EvmHeader
  taproot : Taproot

namespace Env

variable (env : Env)

def header : HeaderChain.Config where
  network := env.network
  sha256 := env.sha256
  fromNextWorkRequired := env.fromNextWorkRequired

def state : StateChain.Env where
  sha256 := env.sha256
  decodeTx := env.decodeTx
  decodeMsgNewEthBlock := env.decodeMsgNewEthBlock
  lightBlockFromSlice := env.lightBlockFromSlice
  verifyValidatorSets := env.verifyValidatorSets
  verifyCommit := env.verifyCommit
  keccak256 := env.keccak256
  hashSlow := env.hashSlow
  execute := env.execute

end Env

variable (env : Env)

def checkProgramId (actualProgramId outputProgramId authorizedProgramId : ProgramId) :
    Option Unit := do
  guard (actualProgramId = authorizedProgramId)
  guard (outputProgramId = actualProgramId)

def checkedHistoryRoot (programType : ProgramType)
    (actualProgramId outputProgramId authorizedProgramId : ProgramId)
    (history : Bytes32) : Option Bytes32 := do
  checkProgramId actualProgramId outputProgramId authorizedProgramId
  some (finalizeHistory env.sha256 programType history actualProgramId)

structure Outputs where
  commit : CommitChainCircuitOutput
  header : BlockHeaderCircuitOutput
  state : StateChainCircuitOutput
  (headerProgramId stateProgramId commitProgramId : ProgramId)

/-- The latest Bitcoin commitment authorises every supplied circuit proof. -/
def verifyCommitmentAuthorization (outputs : Outputs) (rootCommitProgramId : ProgramId)
    (sequencerSetHash : Bytes32) : Option AuthorizedProgramIds := do
  guard (outputs.commitProgramId = rootCommitProgramId)
  let authorized := outputs.commit.chainState.authorizedProgramIds
  authorized.validate.toOption
  checkProgramId outputs.commitProgramId outputs.commit.selfProgramId authorized.commit
  let headerHistory ← checkedHistoryRoot env .header outputs.headerProgramId
    outputs.header.selfProgramId authorized.header outputs.header.programHistoryHash
  let stateHistory ← checkedHistoryRoot env .state outputs.stateProgramId
    outputs.state.selfProgramId authorized.state outputs.state.programHistoryHash
  let root := programHistoryRoot env.sha256 headerHistory stateHistory
  let checkpointRoot := proofCheckpointRoot env.sha256 outputs.header.upgradeCheckpointHash
    outputs.state.upgradeCheckpointHash
  guard (checkpointRoot = outputs.commit.chainState.proofCheckpointRoot)
  let commitment ← (extractCommitChainCommitment
    outputs.commit.chainState.commitTxn.output).toOption
  let digest ← commitChainCommitmentDigest env.sha256 sequencerSetHash
    outputs.state.chainState.genesisEvmBlockHash root checkpointRoot authorized
  guard (commitment = digest)
  some authorized

structure ChainInputs where
  (headerChain commitChain stateChain : ProofInput)
  spv : Spv

/-- What both circuits check of the chains.  The result also has the height of the commit
transaction and the programs it authorises. -/
def checkChains (genesisSequencerCommitTxid : Bytes32) (input : ChainInputs) :
    Option (Outputs × UInt32 × AuthorizedProgramIds) := do
  let commitProgramId ← (verifyGroth16Proof env.sha256 env.groth16 input.commitChain).toOption
  let commit ← env.commitCodec.decode input.commitChain.zkmPublicValues
  guard (commit.chainState.commitTxn.computeTxid env.sha256 =
    input.spv.transaction.computeTxid env.sha256)
  guard (genesisSequencerCommitTxid = commit.chainState.genesisTxid)
  let headerProgramId ← (verifyGroth16Proof env.sha256 env.groth16 input.headerChain).toOption
  let header ← env.headerCodec.read input.headerChain.zkmPublicValues
  guard (header.chainState.blockHashesMmr.size = header.chainState.blockHeight + 1)
  let consensusBlockHeight ← input.spv.verify env.sha256 header.chainState.blockHashesMmr
  let stateProgramId ← (verifyGroth16Proof env.sha256 env.groth16 input.stateChain).toOption
  let state ← env.stateCodec.read input.stateChain.zkmPublicValues
  let cosmosBlock ← env.lightBlockFromSlice state.chainState.latestCosmosBlock
  verifySequencerCommit env.state.toCbft cosmosBlock
  let commitSequencerSetHash ← env.sequencerHash commit.chainState.sequencers
  let outputs : Outputs := ⟨commit, header, state, headerProgramId, stateProgramId, commitProgramId⟩
  match cosmosBlock.header.validatorsHash with
  | .none => none
  | .sha256 sequencerSetHash => do
      let authorized ← verifyCommitmentAuthorization env outputs rootCommitProgramId
        sequencerSetHash
      guard (commitSequencerSetHash = .sha256 sequencerSetHash)
      some (outputs, consensusBlockHeight, authorized)

def watchLongestChain (genesisSequencerCommitTxid : Bytes32)
    (input : ChainInputs) : Option (Bytes32 × UInt32) := do
  let (outputs, commitmentBlockHeight, _) ← checkChains env genesisSequencerCommitTxid input
  some (outputs.header.chainState.totalWork, commitmentBlockHeight)

structure ProposeInput where
  includedWatchtowers : BitVec 256
  graphId : GraphId
  (operatorGenesisSequencerCommitTxid watchtowerChallengeInitTxid : Bytes32)
  watchtowerChallengeInitTxn : Option Transaction
  watchtowerChallenges : List IndexedWatchtowerChallenge
  graphWatchtowerXonlyPublicKeys : List Bytes32
  chains : ChainInputs
  operatorCommittedBlockhash : Bytes32

def operatorConstantPreimage (graphId : GraphId) (operatorGenesisSequencerCommitTxid
    watchtowerChallengeInitTxid : Bytes32) (watchtowerXonlyPublicKeys : List Bytes32) : Bytes :=
  utf8 "bitvm/operator-constant/v3" ++ graphId.toList ++
    operatorGenesisSequencerCommitTxid.toList ++
    watchtowerChallengeInitTxid.toList ++ beBytes 2 watchtowerXonlyPublicKeys.length ++
    (watchtowerXonlyPublicKeys.map Vector.toList).flatten

def hashOperatorConstant (graphId : GraphId) (operatorGenesisSequencerCommitTxid
    watchtowerChallengeInitTxid : Bytes32) (watchtowerXonlyPublicKeys : List Bytes32) : Bytes32 :=
  env.sha256 (operatorConstantPreimage graphId operatorGenesisSequencerCommitTxid
    watchtowerChallengeInitTxid watchtowerXonlyPublicKeys)

/-- The challenge is in the header chain, spends its own output of the challenge-init transaction
and is signed by its watchtower. -/
def authenticateChallenge (input : ProposeInput) (headerState : ChainState)
    (initTxn : Option Transaction) (challenge : IndexedWatchtowerChallenge) : Option Unit := do
  let challengeHeight ← challenge.spv.verify env.sha256 headerState.blockHashesMmr
  guard (challengeHeight ≤ headerState.blockHeight)
  let tx := challenge.spv.transaction
  let txin ← tx.input[0]?
  let expectedVout : UInt32 := challenge.nodeIndex.toUInt32 * 2
  guard (txin.previousOutput.txid = input.watchtowerChallengeInitTxid)
  guard (txin.previousOutput.vout = expectedVout)
  let initTxn ← initTxn
  let prevOut ← initTxn.output[expectedVout.toNat]?
  let key ← input.graphWatchtowerXonlyPublicKeys[challenge.nodeIndex.toNat]?
  let xonly ← (env.taproot.xOnlyFromSlice key.toList).toOption
  (verifyTaprootLeafSchnorrSignature env.taproot (watchtowerScript xonly) tx 0 prevOut
    xonly).toOption

/-- A claim that counts must not exceed the operator's work or the height of its commitment. -/
def compareClaim (operatorTotalWork : Bytes32) (operatorConsensusBlockHeight : UInt32)
    (claim : WatchtowerCommitment) : Option Unit := do
  guard (beNat claim.totalWork ≤ beNat operatorTotalWork.toList)
  guard (leNat claim.consensusBlockHeight ≤ operatorConsensusBlockHeight.toNat)

def checkChallenge (input : ProposeInput) (headerState : ChainState) (initTxn : Option Transaction)
    (watchtowerId : ProgramId) (operatorConsensusBlockHeight : UInt32)
    (challenge : IndexedWatchtowerChallenge) : Option Unit := do
  authenticateChallenge env input headerState initTxn challenge
  match countedClaim env.sha256 env.groth16 watchtowerId input.graphId
    challenge.spv.transaction with
  | none => some ()
  | some claim => compareClaim headerState.totalWork operatorConsensusBlockHeight claim

def isFound (graphId : GraphId) (withdrawals : List WithdrawalSlot) : Bool :=
  withdrawals.any fun withdrawal => graphId ∈ withdrawal.graphIds

def proposeLongestChain (input : ProposeInput) : Option (Bytes32 × Bytes32 × Bytes32) := do
  let (outputs, operatorConsensusBlockHeight, authorized) ←
    checkChains env input.operatorGenesisSequencerCommitTxid input.chains
  let headerState := outputs.header.chainState
  (validateWatchtowerChallengeIndices (u256ToLeBits input.includedWatchtowers)
    input.graphWatchtowerXonlyPublicKeys.length
    (input.watchtowerChallenges.map (·.nodeIndex))).toOption
  let initTxn ← checkedChallengeInitTransaction env.sha256 input.watchtowerChallengeInitTxid
    input.watchtowerChallengeInitTxn (!input.watchtowerChallenges.isEmpty)
  input.watchtowerChallenges.forM
    (checkChallenge env input headerState initTxn authorized.watchtower
      operatorConsensusBlockHeight)
  guard (isFound input.graphId outputs.state.chainState.withdrawals = true)
  guard (input.operatorCommittedBlockhash = headerState.bestBlockHash)
  let constant := hashOperatorConstant env input.graphId input.operatorGenesisSequencerCommitTxid
    input.watchtowerChallengeInitTxid input.graphWatchtowerXonlyPublicKeys
  some (input.operatorCommittedBlockhash, constant,
    ⟨(leBytes 32 input.includedWatchtowers.toNat).toArray, by simp⟩)

def authorizationRoots (header state : Bytes32 × Bytes32) : Bytes32 × Bytes32 :=
  (programHistoryRoot env.sha256 header.1 state.1, proofCheckpointRoot env.sha256 header.2 state.2)

/-- The commit output names the programs, and its transaction carries the commitment to the
roots. -/
def CommitsToRoots (commit : CommitChainCircuitOutput)
    (commitProgramId headerProgramId stateProgramId : ProgramId)
    (sequencerSetHash genesisEvmBlockHash : Bytes32) (roots : Bytes32 × Bytes32) : Prop :=
  let authorized := commit.chainState.authorizedProgramIds
  authorized.validate = .ok () ∧ commitProgramId = authorized.commit ∧
    commit.selfProgramId = commitProgramId ∧
    headerProgramId = authorized.header ∧ stateProgramId = authorized.state ∧
    roots.2 = commit.chainState.proofCheckpointRoot ∧
    ∃ commitment, extractCommitChainCommitment commit.chainState.commitTxn.output = .ok commitment ∧
      commitChainCommitmentDigest env.sha256 sequencerSetHash genesisEvmBlockHash roots.1 roots.2
        authorized =
        some commitment

variable {env}

theorem verifyCommitmentAuthorization_eq_some {outputs : Outputs} {root : ProgramId}
    {sequencerSetHash : Bytes32} {authorized : AuthorizedProgramIds} :
    verifyCommitmentAuthorization env outputs root sequencerSetHash = some authorized ↔
      outputs.commit.chainState.authorizedProgramIds = authorized ∧ outputs.commitProgramId = root ∧
      outputs.header.selfProgramId = outputs.headerProgramId ∧
      outputs.state.selfProgramId = outputs.stateProgramId ∧
      CommitsToRoots env outputs.commit outputs.commitProgramId outputs.headerProgramId
        outputs.stateProgramId
        sequencerSetHash outputs.state.chainState.genesisEvmBlockHash (authorizationRoots env
          (finalizeHistory env.sha256 .header outputs.header.programHistoryHash
              outputs.headerProgramId,
            outputs.header.upgradeCheckpointHash)
          (finalizeHistory env.sha256 .state outputs.state.programHistoryHash
              outputs.stateProgramId,
            outputs.state.upgradeCheckpointHash)) := by
  simp only [verifyCommitmentAuthorization, checkedHistoryRoot, checkProgramId, Option.bind_eq_bind,
    Option.bind_eq_some_iff, guard_eq_some, exists_const, Option.some.injEq, CommitsToRoots,
      authorizationRoots,
    except_toOption_eq_some]
  aesop

variable (env)

/-- What the digest of the commit transaction should be taken over, by the proofs at hand. -/
def Outputs.preimage (outputs : Outputs) (sequencerSetHash : Bytes32) : Bytes :=
  let authorized := outputs.commit.chainState.authorizedProgramIds
  commitmentPreimage sequencerSetHash outputs.state.chainState.genesisEvmBlockHash
    (programHistoryRoot env.sha256
      (finalizeHistory env.sha256 .header outputs.header.programHistoryHash authorized.header)
      (finalizeHistory env.sha256 .state outputs.state.programHistoryHash authorized.state))
    outputs.commit.chainState.proofCheckpointRoot authorized

structure SequencersChecked (outputs : Outputs) (cosmosBlock : LightBlock)
    (sequencerSetHash : Bytes32) : Prop where
  parsed : env.lightBlockFromSlice outputs.state.chainState.latestCosmosBlock = some cosmosBlock
  validatorSets : env.verifyValidatorSets cosmosBlock = true
  commit : env.verifyCommit cosmosBlock = true
  hash : cosmosBlock.header.validatorsHash = .sha256 sequencerSetHash
  sequencers : env.sequencerHash outputs.commit.chainState.sequencers =
    some (.sha256 sequencerSetHash)
  digest : extractCommitChainCommitment outputs.commit.chainState.commitTxn.output =
    .ok (env.sha256 (outputs.preimage env sequencerSetHash))

structure ChainsChecked (genesisTxid : Bytes32) (input : ChainInputs) (outputs : Outputs)
    (height : UInt32) : Prop where
  commitProof : verifyGroth16Proof env.sha256 env.groth16 input.commitChain =
    .ok rootCommitProgramId
  commitOutput : env.commitCodec.decode input.commitChain.zkmPublicValues = some outputs.commit
  commitSelf : outputs.commit.selfProgramId = rootCommitProgramId
  txid : outputs.commit.chainState.commitTxn.computeTxid env.sha256 =
    input.spv.transaction.computeTxid env.sha256
  genesis : genesisTxid = outputs.commit.chainState.genesisTxid
  headerProof : verifyGroth16Proof env.sha256 env.groth16 input.headerChain =
    .ok outputs.commit.chainState.authorizedProgramIds.header
  headerOutput : env.headerCodec.read input.headerChain.zkmPublicValues = some outputs.header
  headerSelf : outputs.header.selfProgramId =
    outputs.commit.chainState.authorizedProgramIds.header
  spv : input.spv.verify env.sha256 outputs.header.chainState.blockHashesMmr = some height
  stateProof : verifyGroth16Proof env.sha256 env.groth16 input.stateChain =
    .ok outputs.commit.chainState.authorizedProgramIds.state
  stateOutput : env.stateCodec.read input.stateChain.zkmPublicValues = some outputs.state
  stateSelf : outputs.state.selfProgramId = outputs.commit.chainState.authorizedProgramIds.state
  sequencers : ∃ cosmosBlock sequencerSetHash,
    SequencersChecked env outputs cosmosBlock sequencerSetHash

variable {env}

theorem checkChains_eq_some {genesisTxid : Bytes32} {input : ChainInputs} {outputs : Outputs}
    {height : UInt32} {authorized : AuthorizedProgramIds}
    (h : checkChains env genesisTxid input = some (outputs, height, authorized)) :
    authorized = outputs.commit.chainState.authorizedProgramIds ∧
      ChainsChecked env genesisTxid input outputs height := by
  simp only [checkChains, verifySequencerCommit, Option.bind_eq_bind, Option.bind_eq_some_iff,
    guard_eq_some, exists_const, except_toOption_eq_some] at h
  obtain ⟨commitId, hcommitProof, commit, hcommit, htxid, hgenesis, headerId, hheaderProof, header,
    hheader, -, consensusHeight, hspv, stateId, hstateProof, state, hstate, cosmosBlock, hparsed,
    ⟨hsets, hverdict⟩, sequencerHash, hsequencers, h⟩ := h
  -- the sequencer set must have a hash
  cases hhash : cosmosBlock.header.validatorsHash with
  | none =>
    rw [hhash] at h
    cases h
  | sha256 sequencerSetHash =>
    simp only [hhash, Option.bind_eq_some_iff, guard_eq_some, exists_const, Option.some.injEq] at h
    obtain ⟨ids, hauthorization, hsame, heq⟩ := h
    cases heq
    obtain ⟨rfl, hroot, hheaderSelf, hstateSelf, -, -, hcommitSelf, hheaderId, hstateId,
      hcheckpoint, _, hcommitment,
      hdigest⟩ := verifyCommitmentAuthorization_eq_some.mp hauthorization
    obtain ⟨-, -, -, rfl⟩ := commitChainCommitmentDigest_eq_some.mp hdigest
    refine ⟨rfl, ?_⟩
    rw [hsame] at hsequencers
    rw [hcheckpoint, authorizationRoots, hheaderId, hstateId] at hcommitment
    exact
      { commitProof := by rw [hcommitProof]; exact congrArg Except.ok hroot
        commitOutput := hcommit
        commitSelf := hcommitSelf.trans hroot
        txid := htxid
        genesis := hgenesis
        headerProof := by rw [hheaderProof]; exact congrArg Except.ok hheaderId
        headerOutput := hheader
        headerSelf := hheaderSelf.trans hheaderId
        spv := hspv
        stateProof := by rw [hstateProof]; exact congrArg Except.ok hstateId
        stateOutput := hstate
        stateSelf := hstateSelf.trans hstateId
        sequencers := ⟨cosmosBlock, sequencerSetHash, hparsed, hsets, hverdict, hhash, hsequencers,
          hcommitment⟩ }

theorem proposeLongestChain_eq_some {input : ProposeInput} {h c m : Bytes32}
    (hrun : proposeLongestChain env input = some (h, c, m)) : ∃ outputs height initTxn,
      ChainsChecked env input.operatorGenesisSequencerCommitTxid input.chains outputs height ∧
      (∀ challenge ∈ input.watchtowerChallenges,
          checkChallenge env input outputs.header.chainState initTxn
          outputs.commit.chainState.authorizedProgramIds.watchtower height challenge = some ()) ∧
      isFound input.graphId outputs.state.chainState.withdrawals = true ∧
      h = outputs.header.chainState.bestBlockHash ∧
      c = hashOperatorConstant env input.graphId input.operatorGenesisSequencerCommitTxid
        input.watchtowerChallengeInitTxid input.graphWatchtowerXonlyPublicKeys := by
  simp only [proposeLongestChain, Option.bind_eq_bind, Option.bind_eq_some_iff, guard_eq_some,
    exists_const, Option.some.injEq] at hrun
  obtain ⟨⟨outputs, height, authorized⟩, hchains, _, -, initTxn, -, _, hloop, hfound, hbest, heq⟩ :=
    hrun
  cases heq
  obtain ⟨rfl, hchecked⟩ := checkChains_eq_some hchains
  exact ⟨outputs, height, initTxn, hchecked, forM_eq_some hloop, hfound, hbest, rfl⟩

end BitvmNode.LightClient
