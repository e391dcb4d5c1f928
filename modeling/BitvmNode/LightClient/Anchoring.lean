import BitvmNode.StateChain.EvmChain
import BitvmNode.LightClient.Propose

/-!
# Anchoring of an operator's proof

If verified proofs were made by the programs they verify as, and the programs that the last commit
transaction authorises are the circuits modelled here, then an accepted run stands for a header
chain, a publisher-signed commit chain in it, and an execution chain named by the committed
sequencers.
-/

namespace BitvmNode.LightClient

open Reasoning Bitcoin Verifier CommitChain HeaderChain StateChain

variable (env : Env)

/-- Validator sets of the consensus layer: how they are hashed, and when one of them has signed. -/
structure Validators where
  setHash : List Validator → TmHash
  hasSigned : CosmosHeader → Validator → Bytes → Bool

namespace Validators

variable (tm : Validators)

def totalPower (block : LightBlock) : Nat := (block.validators.map fun v => v.power.toNat).sum

def signedPower (block : LightBlock) : Nat :=
  ((block.validators.zip block.signatures).map fun (v, signature) =>
    match signature with
    | some bytes => if tm.hasSigned block.header v bytes then v.power.toNat else 0
    | none => 0).sum

def SignedByTwoThirds (block : LightBlock) : Prop :=
  2 * totalPower block < 3 * tm.signedPower block

instance (block : LightBlock) : Decidable (tm.SignedByTwoThirds block) :=
  inferInstanceAs (Decidable (_ < _))

/-- What the two verdicts of the light client verifier mean. -/
structure Describes : Prop where
  validatorSets : ∀ block, env.verifyValidatorSets block = true →
    block.header.validatorsHash = tm.setHash block.validators
  commit : ∀ block, env.verifyCommit block = true → tm.SignedByTwoThirds block

end Validators

abbrev Programs := ProgramId → Program ProgramId Bytes

def headerProgram : Program ProgramId Bytes :=
  (headerChain env.header).program env.sha256 env.groth16 env.headerCodec

def stateProgram : Program ProgramId Bytes :=
  (stateChain env.state).program env.sha256 env.groth16 env.stateCodec

def commitProgram : Program ProgramId Bytes :=
  commitChainProgram env.toEnv env.groth16 env.commitCodec

/-- Proofs are sound, outputs are read back as they were written, and the pinned program is the
commit chain circuit. -/
structure Trusted (programs : Programs) (tm : Validators) : Prop where
  sound : SoundVerifier (verifiedAs env.sha256 env.groth16) programs
  headerCodec : env.headerCodec.RoundTrips
  commitCodec : env.commitCodec.RoundTrips
  stateCodec : env.stateCodec.RoundTrips
  pinned : programs rootCommitProgramId = commitProgram env
  validators : tm.Describes env

/-- What the publishers of a commit transaction commit to: besides the current programs the earlier
ones of the header and of the state chain, last one first. -/
structure Authorisation where
  (sequencerSetHash genesisEvmBlockHash proofCheckpointRoot : Bytes32)
  ids : AuthorizedProgramIds
  (headerPrograms statePrograms : List ProgramId)

namespace Authorisation

variable (a : Authorisation)

def headerHistory : Bytes32 := historyOf env.sha256 .header a.headerPrograms

def stateHistory : Bytes32 := historyOf env.sha256 .state a.statePrograms

def preimage : Bytes :=
  commitmentPreimage a.sequencerSetHash a.genesisEvmBlockHash
    (programHistoryRoot env.sha256
        (finalizeHistory env.sha256 .header (a.headerHistory env) a.ids.header)
      (finalizeHistory env.sha256 .state (a.stateHistory env) a.ids.state))
    a.proofCheckpointRoot a.ids

/-- The transaction authorises these programs, and they are the circuits. -/
structure Holds (programs : Programs) (tx : Transaction) : Prop where
  digest : extractCommitChainCommitment tx.output = .ok (env.sha256 (a.preimage env))
  header : ∀ p ∈ a.ids.header :: a.headerPrograms, programs p = headerProgram env
  state : ∀ p ∈ a.ids.state :: a.statePrograms, programs p = stateProgram env

end Authorisation

def digestStrings (a : Authorisation) (outputs : Outputs) (sequencerSetHash : Bytes32) :
    List Bytes :=
  let ids := outputs.commit.chainState.authorizedProgramIds
  [outputs.preimage env sequencerSetHash, a.preimage env] ++
    (rootStrings env.sha256 outputs.header.programHistoryHash ids.header
        outputs.state.programHistoryHash ids.state ++
      rootStrings env.sha256 (a.headerHistory env) a.ids.header (a.stateHistory env) a.ids.state)

def AuthorisationCollides (programs : Programs) (a : Authorisation) (outputs : Outputs) : Prop :=
  (∃ cosmosBlock sequencerSetHash, SequencersChecked env outputs cosmosBlock sequencerSetHash ∧
      CollisionIn env.sha256 (digestStrings env a outputs sequencerSetHash)) ∨
    ChainCircuit.HistoryCollision env.sha256 env.headerCodec (headerChain env.header) programs
      a.headerPrograms ∨
    ChainCircuit.HistoryCollision env.sha256 env.stateCodec (stateChain env.state) programs
      a.statePrograms

variable {env}

theorem authorised_of_checked {programs : Programs} {a : Authorisation} {outputs : Outputs}
    {cosmosBlock : LightBlock} {sequencerSetHash : Bytes32}
    (hauth : a.Holds env programs outputs.commit.chainState.commitTxn)
    (hseq : SequencersChecked env outputs cosmosBlock sequencerSetHash) :
    (outputs.commit.chainState.authorizedProgramIds = a.ids ∧
        outputs.header.programHistoryHash = a.headerHistory env ∧
        outputs.state.programHistoryHash = a.stateHistory env) ∨
      CollisionIn env.sha256 (digestStrings env a outputs sequencerSetHash) := by
  have hdigest : env.sha256 (outputs.preimage env sequencerSetHash) = env.sha256 (a.preimage env) :=
    Except.ok.inj (hseq.digest.symm.trans hauth.digest)
  rcases eq_or_collision env.sha256 hdigest with hpreimage | hcol
  · obtain ⟨-, -, hroot, -, hids⟩ := commitmentPreimage_inj hpreimage
    rcases programHistoryRoot_inj env.sha256 hroot with ⟨hheader, -, hstate, -⟩ | hcol
    · exact Or.inl ⟨hids, hheader, hstate⟩
    · exact Or.inr (hcol.mono fun _ hmem => List.mem_append_right _ hmem)
  · exact Or.inr (hcol.mono fun _ hmem => List.mem_append_left _ hmem)

variable (env)

/-- The chains behind an accepted run.  `txids` are the ids of the transactions of the block in
which the commit transaction is claimed to be. -/
structure Anchored (tm : Validators) (input : ProposeInput) (txids : List Bytes32)
    (outputs : Outputs) (h c : Bytes32) (height : UInt32) (batches : List (List CircuitBlockHeader))
    (commits : List CircuitCommit) (stateBatches : List (List CircuitStateBlock)) : Prop where
  headerChain : FromGenesis env.header batches outputs.header.chainState
  tip : batches.flatten.getLast?.map (CircuitBlockHeader.computeBlockHash env.sha256) = some h
  work : ∀ challenge ∈ input.watchtowerChallenges, ∀ claim,
    countedClaim env.sha256 env.groth16 outputs.commit.chainState.authorizedProgramIds.watchtower
        input.graphId challenge.spv.transaction = some claim →
      beNat claim.totalWork ≤ beNat outputs.header.chainState.totalWork.toList
  constant : c = hashOperatorConstant env input.graphId input.operatorGenesisSequencerCommitTxid
    input.watchtowerChallengeInitTxid input.graphWatchtowerXonlyPublicKeys
  commitChain : CommitInv env.toEnv input.operatorGenesisSequencerCommitTxid commits
    outputs.commit.chainState
  nonempty : commits ≠ []
  included :
    (batches.flatten[height.toNat]? = some input.chains.spv.blockHeader ∧
        outputs.commit.chainState.commitTxn.computeTxid env.sha256 ∈ txids) ∨
      CollisionIn (calculateDoubleSha256 env.sha256)
        (rangeStrings env.sha256 batches.flatten outputs.header.chainState.blockHashesMmr
          input.chains.spv ++ treeStrings env.sha256 input.chains.spv txids)
  stateRun : (stateChain env.state).Reaches stateBatches outputs.state.chainState
  evmChain : stateBatches.flatten.length ≤ 2 ^ 64 →
    (∃ headers, ProvenChain env.state headers outputs.state.chainState) ∨
      CollisionIn env.hashSlow (evmHeaders env.state stateBatches.flatten)
  sequencers : ∃ cosmosBlock sequencerSetHash root,
    env.lightBlockFromSlice outputs.state.chainState.latestCosmosBlock = some cosmosBlock ∧
      tm.SignedByTwoThirds cosmosBlock ∧
      tm.setHash cosmosBlock.validators = .sha256 sequencerSetHash ∧
      CommitsTo env.toEnv outputs.commit.chainState.commitTxn sequencerSetHash
        outputs.state.chainState.genesisEvmBlockHash root
        outputs.commit.chainState.proofCheckpointRoot
        outputs.commit.chainState.authorizedProgramIds
        outputs.commit.chainState.publisherPublicKeys outputs.commit.chainState.threshold.toNat

section Runs

variable {env} {programs : Programs} {tm : Validators} {a : Authorisation} {input : ProposeInput}
variable {outputs : Outputs} {height : UInt32} {g : Bytes32} {chains : ChainInputs}

theorem stateChain_of_checked (htrust : Trusted env programs tm)
    (hauth : a.Holds env programs outputs.commit.chainState.commitTxn)
    (hchecked : ChainsChecked env g chains outputs height)
    (hids : outputs.commit.chainState.authorizedProgramIds = a.ids)
    (hhistory : outputs.state.programHistoryHash = a.stateHistory env) :
    (∃ batches, (stateChain env.state).Reaches batches outputs.state.chainState) ∨
      ChainCircuit.HistoryCollision env.sha256 env.stateCodec (stateChain env.state) programs
        a.statePrograms := by
  have hprograms := hauth.state
  rw [← hids] at hprograms
  exact ChainCircuit.reaches_of_verified env.groth16 htrust.stateCodec htrust.sound
    hchecked.stateProof hchecked.stateOutput hchecked.stateSelf hprograms hhistory

theorem commitChain_of_checked (htrust : Trusted env programs tm)
    (hchecked : ChainsChecked env g chains outputs height) :
    ∃ commits, commits ≠ [] ∧ CommitInv env.toEnv g commits outputs.commit.chainState := by
  have hmade := htrust.sound _ _ _ (verifiedAs_of_ok _ _ hchecked.commitProof)
  obtain ⟨g', commits, hne, hrun⟩ := commits_of_made htrust.commitCodec hmade htrust.pinned
    hchecked.commitOutput hchecked.commitSelf
  have inv := CommitInv.run env.toEnv hrun
  rw [hchecked.genesis, inv.genesis]
  exact ⟨commits, hne, inv⟩

/-- The commit transaction is in the block of the inclusion proof, if the Merkle path is as long as
the block's tree is deep. -/
theorem included_of_checked {txids : List Bytes32} {batches : List (List CircuitBlockHeader)}
    (hchecked : ChainsChecked env g chains outputs height)
    (hheader : FromGenesis env.header batches outputs.header.chainState)
    (hroot : (BitcoinMerkleTree.new (merklePair env.sha256) txids).root =
      some chains.spv.blockHeader.merkleRoot)
    (hdepth : chains.spv.blockInclusionProof.path.length =
      BitcoinMerkleTree.depth (merklePair env.sha256) txids) :
    (batches.flatten[height.toNat]? = some chains.spv.blockHeader ∧
        outputs.commit.chainState.commitTxn.computeTxid env.sha256 ∈ txids) ∨
      CollisionIn (calculateDoubleSha256 env.sha256)
        (rangeStrings env.sha256 batches.flatten outputs.header.chainState.blockHashesMmr
          chains.spv ++ treeStrings env.sha256 chains.spv txids) := by
  obtain ⟨hmerkle, hrange, rfl⟩ := (Spv.verify_eq_some env.sha256).mp hchecked.spv
  rw [← hmerkle] at hroot
  rcases Spv.header_at env.sha256 (Tracks.of_accepted env.header hheader.accepted).mmr hrange with
    hat | hcol
  · rcases Spv.txid_mem env.sha256 hroot hdepth with hmem | hcol
    · left
      refine ⟨hat, ?_⟩
      rw [hchecked.txid]
      exact hmem
    · exact Or.inr (hcol.mono fun _ hmem => List.mem_append_right _ hmem)
  · exact Or.inr (hcol.mono fun _ hmem => List.mem_append_left _ hmem)

theorem tip_of_fromGenesis {batches : List (List CircuitBlockHeader)} {s : ChainState}
    (h : FromGenesis env.header batches s) :
    batches.flatten.getLast?.map (CircuitBlockHeader.computeBlockHash env.sha256) =
      some s.bestBlockHash := by
  have htracks := Tracks.of_accepted env.header h.accepted
  cases hlast : batches.flatten.getLast? with
  | none =>
    have hgenesis := h.genesis
    rw [List.getLast?_eq_none_iff.mp hlast] at hgenesis
    cases hgenesis
  | some header =>
    rw [Option.map_some, htracks.best header hlast]
    rfl

/-- The header of the kept consensus block is signed by the sequencers that the transaction commits
to. -/
theorem sequencers_of_checked {cosmosBlock : LightBlock} {sequencerSetHash : Bytes32}
    {commits : List CircuitCommit} (htrust : Trusted env programs tm)
    (hseq : SequencersChecked env outputs cosmosBlock sequencerSetHash) (hne : commits ≠ [])
    (hinv : CommitInv env.toEnv g commits outputs.commit.chainState) :
    tm.SignedByTwoThirds cosmosBlock ∧
    tm.setHash cosmosBlock.validators = .sha256 sequencerSetHash ∧
      ∃ root, CommitsTo env.toEnv outputs.commit.chainState.commitTxn sequencerSetHash
        outputs.state.chainState.genesisEvmBlockHash root
          outputs.commit.chainState.proofCheckpointRoot
        outputs.commit.chainState.authorizedProgramIds outputs.commit.chainState.publisherPublicKeys
        outputs.commit.chainState.threshold.toNat := by
  refine ⟨htrust.validators.commit _ hseq.commit, ?_, _, hseq.digest, ?_, ?_⟩
  · rw [← htrust.validators.validatorSets _ hseq.validatorSets, hseq.hash]
  all_goals
    -- the connector is that of the last commit
    obtain ⟨last, hlast⟩ : ∃ last, commits.getLast? = some last :=
      ⟨_, List.getLast?_eq_some_getLast hne⟩
    obtain ⟨_, -, hcommits⟩ := hinv.committed last (List.mem_of_getLast? hlast)
    rw [hinv.last last hlast]
  · exact hcommits.connector
  · exact hcommits.valid

variable (env programs tm a input)

/-- An accepted run stands for the three chains, each up to the collisions named with it, if the
Merkle path of the commit transaction is as long as the tree of its block is deep. -/
theorem proposeLongestChain_anchored (h c m : Bytes32) (txids : List Bytes32)
    (htrust : Trusted env programs tm)
    (hauth : ∀ output, env.commitCodec.decode input.chains.commitChain.zkmPublicValues =
      some output →
      a.Holds env programs output.chainState.commitTxn)
    (hroot : (BitcoinMerkleTree.new (merklePair env.sha256) txids).root =
      some input.chains.spv.blockHeader.merkleRoot)
    (hdepth : input.chains.spv.blockInclusionProof.path.length =
      BitcoinMerkleTree.depth (merklePair env.sha256) txids)
    (hrun : proposeLongestChain env input = some (h, c, m)) : ∃ outputs height,
      env.commitCodec.decode input.chains.commitChain.zkmPublicValues = some outputs.commit ∧
      env.headerCodec.read input.chains.headerChain.zkmPublicValues = some outputs.header ∧
      env.stateCodec.read input.chains.stateChain.zkmPublicValues = some outputs.state ∧
      (AuthorisationCollides env programs a outputs ∨ ∃ batches commits stateBatches,
          Anchored env tm input txids outputs h c height batches commits stateBatches) := by
  obtain ⟨outputs, height, initTxn, hchecked, hchallenges, -, rfl, rfl⟩ :=
    proposeLongestChain_eq_some hrun
  refine ⟨outputs, height, hchecked.commitOutput, hchecked.headerOutput, hchecked.stateOutput, ?_⟩
  have hholds := hauth _ hchecked.commitOutput
  obtain ⟨cosmosBlock, sequencerSetHash, hseq⟩ := hchecked.sequencers
  rcases authorised_of_checked hholds hseq with ⟨hids, hheaderHistory, hstateHistory⟩ | hcol
  · have hprograms := hholds.header
    rw [← hids] at hprograms
    rcases ChainCircuit.reaches_of_verified env.groth16 htrust.headerCodec htrust.sound
      hchecked.headerProof hchecked.headerOutput hchecked.headerSelf hprograms
        hheaderHistory with ⟨batches, hreach⟩ | hcol
    · have hheader := FromGenesis.of_reaches _ hreach
      rcases stateChain_of_checked htrust hholds hchecked hids hstateHistory with
        ⟨stateBatches, hstate⟩ | hcol
      · obtain ⟨commits, hne, hcommits⟩ := commitChain_of_checked htrust hchecked
        obtain ⟨hsigned, hset, root, hcommitsTo⟩ := sequencers_of_checked htrust hseq hne hcommits
        refine Or.inr ⟨batches, commits, stateBatches, ?_⟩
        exact
          { headerChain := hheader
            tip := tip_of_fromGenesis hheader
            work := by
              intro challenge hmem claim hclaim
              obtain ⟨_, -, hcompare⟩ := Option.bind_eq_some_iff.mp (hchallenges challenge hmem)
              simp only [hclaim, compareClaim, Option.bind_eq_bind, Option.bind_eq_some_iff,
                guard_eq_some, exists_const] at hcompare
              exact hcompare.1
            constant := rfl
            commitChain := hcommits
            nonempty := hne
            included := included_of_checked hchecked hheader hroot hdepth
            stateRun := hstate
            evmChain := provenChain_of_reaches hstate
            sequencers := ⟨cosmosBlock, sequencerSetHash, root, hseq.parsed, hsigned, hset,
              hcommitsTo⟩ }
      · exact Or.inl (Or.inr (Or.inr hcol))
    · exact Or.inl (Or.inr (Or.inl hcol))
  · exact Or.inl (Or.inl ⟨cosmosBlock, sequencerSetHash, hseq, hcol⟩)

end Runs

/-! ### Two runs on a test network

The header chain is the genesis block of regtest and one block after it; the commit chain is one
transaction, the state chain two execution blocks.  In the first run the commit transaction is in
the block.  In the second its id is the first half of the 64 bytes of another transaction of the
block.

SHA-256 is the real one, except that the pinned id stands for the id of the commit chain's verifying
key, which is not part of the sources.  The other library functions are given by their values on
what occurs. -/

namespace Example

/-- What sets the runs apart: the commit transaction, its block and its place there, and the
contract whose slot is listed. -/
structure Scenario where
  lockTime : UInt32
  txid : Bytes32
  block : CircuitBlockHeader
  (blockHash peak : Bytes32)
  path : BlockInclusionProof Bytes32
  contract : Address

def vkHashes : List String :=
  ["0x0000000000000000000000000000000000000000000000000000000000000001",
    "0x0000000000000000000000000000000000000000000000000000000000000002",
    "0x0000000000000000000000000000000000000000000000000000000000000003"]

def partStarkVk : Bytes := [0x5a]

def commitKeyString : Bytes :=
  utf8 "bitvm/program-id/v1" ++ beBytes 32 3 ++
    beBytes 32 0xbbeebd879e1dff6918546dc0c179fdde505f2a21591c9a9c96e36b054ec5af83

def sha256 (bs : Bytes) : Bytes32 :=
  if bs = commitKeyString then rootCommitProgramId else Sha256.digest bs

def proofs : List ProofInput :=
  vkHashes.zipIdx.map fun (vkHash, i) => ⟨[0xaa], [UInt8.ofNat (i + 1)], utf8 vkHash, "v2.0.0"⟩

def groth16 : Groth16 where
  fromUtf8 bs := okOr (vkHashes.find? fun vkHash => utf8 vkHash = bs) "invalid utf-8 sequence"
  tryGetPartStarkVk version := if version = "v2.0.0" then some partStarkVk else none
  decodeZkmVkeyHash vkHash :=
    okOr ((vkHashes.idxOf? vkHash).map fun i => beBytes32 (i + 1)) "invalid vkey hash"
  verifyByImmGroth16Vk proof values vkHash _ :=
    ensure ((⟨proof, values, utf8 vkHash, "v2.0.0"⟩ : ProofInput) ∈ proofs) "invalid proof"

def headerId : ProgramId :=
  beBytes32 0x52004dd2828bac67a59afc953b594035848bca8fccddf4fd6506f7aa2d659105

def stateId : ProgramId :=
  beBytes32 0xdd160a058caece78a42d27ada1186e5e2d40d7be97e70ac733ee9b5e879fa769

def ids : AuthorizedProgramIds := ⟨headerId, stateId, rootCommitProgramId, beBytes32 4⟩

def historyRoot : Bytes32 :=
  beBytes32 0x5a73bfbe74b3305e6cff7d2c61cf5a40caef1fb481b3b2fb518695c1bcfa679f

def checkpointRoot : Bytes32 :=
  beBytes32 0x34670e36c21e467eb0519d45b9315d979c0fbd7c39ff99e1dafd42069d94d202

/-! The execution chain and the consensus block that names its tip. -/

def evm0 : EvmHeader := ⟨100, beBytes32 0xdf, some (beBytes32 0x70), []⟩

def evm1 : EvmHeader := ⟨101, beBytes32 0xe0, some (beBytes32 0x71), []⟩

def hashSlow (header : EvmHeader) : Bytes32 :=
  if header = evm0 then beBytes32 0xe0
  else if header = evm1 then beBytes32 0xe1
  else Sha256.digest (leBytes 8 header.number.toNat ++ header.parentHash.toList ++ header.rest)

def graphId : GraphId := Vector.replicate 16 0x67

def gateway : Address := Vector.replicate 20 0x9f

def baseSlot : Bytes32 := beBytes32 16

def validator : Validator :=
  ⟨beBytes 33 0x032c0b7cf95324a07d05398b240174dc0c2be444d96b159aa6c7f7b1e668680991, 10⟩

def validators : Validators where
  setHash set :=
    if set = [validator] then .sha256 CommitChain.Example.sequencerSetHash else .none
  hasSigned _ _ bytes := bytes = [0x51]

def lightBlock (dataHash : Option TmHash) : LightBlock where
  header := ⟨.sha256 CommitChain.Example.sequencerSetHash, dataHash, []⟩
  validators := [validator]
  signatures := [some [0x51]]

def dataHash1 : Bytes32 :=
  beBytes32 0x157710a2085f4f89fc6d1a70942a635b8ce788ec76e240ec23cd05b4eaf343cb

variable (sc : Scenario)

def storage (contract : Address) (slot : Bytes32) : Nat :=
  if contract = sc.contract ∧
    slot = Sha256.digest (graphId.toList ++ List.replicate 16 0 ++ baseSlot.toList) then 1
  else 0

def stateBlocks : List CircuitStateBlock :=
  [⟨[], [0xc0], ⟨evm0, []⟩, []⟩,
    ⟨[[0x71]], [0xc1], ⟨evm1, []⟩, [⟨sc.contract, baseSlot, [graphId]⟩]⟩]

/-! The commit transaction. -/

def commitTx : Transaction where
  version := 2
  lockTime := sc.lockTime
  input := [⟨⟨beBytes32 0x55, 1⟩, [], 0xFFFFFFFF, []⟩]
  output :=
    [⟨10000, beBytes 34 0x0020090e494a0afd279cb8de52b66664aed6fde1021cf0fede59088653fbb87dfe46⟩,
      ⟨0, beBytes 34 0x6a207e75147092ac5f039eb35f87f98f38e15a66776122f9c905ec50477a3cb372b7⟩]

def commit : CircuitCommit where
  commitTxn := commitTx sc
  genesisTxid := sc.txid
  publisherPublicKeys :=
    [CommitChain.Example.key0, CommitChain.Example.key1, CommitChain.Example.key2]
  threshold := 2
  nextPublisherPublicKeys := none
  nextThreshold := none
  sequencers := [CommitChain.Example.sequencer]
  genesisEvmBlockHash := beBytes32 0xe0
  programHistoryRoot := historyRoot
  blockHeight := 1
  proofCheckpointRoot := checkpointRoot
  authorizedProgramIds := ids

/-! The three outputs and the inputs that lead to them. -/

def headerOutput : BlockHeaderCircuitOutput where
  chainState :=
    { blockHeight := 1
      totalWork := beBytes32 4
      bestBlockHash := sc.blockHash
      currentTargetBits := 0x207fffff
      epochStartTime := 0
      prev11Timestamps := #v[1296688602, 1296688603, 0, 0, 0, 0, 0, 0, 0, 0, 0]
      blockHashesMmr := ⟨[sc.peak], 2⟩ }
  selfProgramId := headerId
  programHistoryHash := initialHistory sha256 .header
  upgradeCheckpointHash := zero32

def stateOutput : StateChainCircuitOutput where
  chainState :=
    { evmBlockHeight := 102
      genesisEvmBlockHash := beBytes32 0xe0
      latestEvmBlockHash := beBytes32 0xe1
      latestCosmosBlock := [0xc1]
      withdrawals := [⟨sc.contract, baseSlot, [graphId]⟩] }
  selfProgramId := stateId
  programHistoryHash := initialHistory sha256 .state
  upgradeCheckpointHash := zero32

def commitOutput : CommitChainCircuitOutput :=
  ⟨(commit sc).stateAfter sc.txid, rootCommitProgramId⟩

def codecOf {α : Type} [DecidableEq α] (tag : UInt8) (output : α) : OutputCodec α where
  encode written := if written = output then some [tag] else none
  decode values := if values = [tag] then some output else none
  read values := if values = [tag] then some output else none

theorem codecOf_roundTrips {α : Type} [DecidableEq α] (tag : UInt8) (output : α) :
    (codecOf tag output).RoundTrips := by
  constructor
  all_goals
    intro written values h
    simp only [codecOf, Option.ite_none_right_eq_some, Option.some.injEq] at h ⊢
    exact ⟨h.2.symm, h.1.symm⟩

def library : Env where
  sha256 := sha256
  fromDer := CommitChain.Example.library.fromDer
  verifyEcdsa := CommitChain.Example.library.verifyEcdsa
  sequencerHash := CommitChain.Example.library.sequencerHash
  network := .regtest
  fromNextWorkRequired := fun _ bits _ => bits
  groth16 := groth16
  headerCodec := codecOf 1 (headerOutput sc)
  stateCodec := codecOf 2 (stateOutput sc)
  commitCodec := codecOf 3 (commitOutput sc)
  decodeTx bytes :=
    if bytes = [0x71] then some ⟨some [⟨"/goat.goat.v1.MsgNewEthBlock", [0x72]⟩]⟩ else none
  decodeMsgNewEthBlock bytes :=
    if bytes = [0x72] then some ⟨some ⟨101, beBytes 32 0xe1, beBytes 32 0xe0⟩⟩ else none
  lightBlockFromSlice bytes :=
    if bytes = [0xc0] then some (lightBlock none)
    else if bytes = [0xc1] then some (lightBlock (some (.sha256 dataHash1)))
    else none
  verifyValidatorSets block := block.header.validatorsHash = validators.setHash block.validators
  verifyCommit block := validators.SignedByTwoThirds block
  keccak256 := Sha256.digest
  hashSlow := hashSlow
  execute input checks :=
    if ∀ check ∈ checks, storage sc check.contract check.slot = check.value then
      some input.currentBlock
    else none
  taproot :=
    { xOnlyFromSlice := fun _ => .error "malformed public key"
      signatureFromSlice := fun _ => none
      controlBlockDecode := fun _ => .error "invalid control block"
      verifyTaprootCommitment := fun _ _ _ => false
      scriptSpendSignatureHash := fun _ _ _ _ _ => none
      verifySchnorr := fun _ _ _ => .error "invalid signature" }

def unused : ProofInput := ⟨[], [], [], ""⟩

def headerInput : HeaderChainCircuitInput :=
  ⟨unused, headerId, .genesisBlock, [genesisHeader .regtest, sc.block]⟩

def stateInput : StateChainCircuitInput := ⟨unused, stateId, .genesisBlock, stateBlocks sc⟩

def commitInput : CommitChainCircuitInput :=
  ⟨unused, rootCommitProgramId, .genesisBlock, [commit sc]⟩

def programs : Programs := fun id =>
  if id = headerId then headerProgram (library sc)
  else if id = stateId then stateProgram (library sc)
  else if id = rootCommitProgramId then commitProgram (library sc)
  else ⟨Empty, fun _ => none, fun _ => none⟩

structure Runs : Prop where
  header : headerChainCircuit (library sc).header groth16 (library sc).headerCodec
    (headerInput sc) =
    some (headerOutput sc)
  state : stateChainCircuit (library sc).state groth16 (library sc).stateCodec (stateInput sc) =
    some (stateOutput sc)
  commit : commitChainCircuit (library sc).toEnv groth16 (library sc).commitCodec (commitInput sc) =
    some (commitOutput sc)

theorem verifiedAs_proofs : proofs.map (verifiedAs sha256 groth16) =
    [some (headerId, [1]), some (stateId, [2]), some (rootCommitProgramId, [3])] := by
  decide +kernel

theorem mem_proofs_of_verifiedAs {proof : ProofInput} {r : ProgramId × Bytes}
    (h : verifiedAs sha256 groth16 proof = some r) : proof ∈ proofs := by
  obtain ⟨id, hid, -⟩ := Option.map_eq_some_iff.mp h
  have hok := except_toOption_eq_some.mp hid
  simp only [verifyGroth16Proof, except_bind_eq_ok] at hok
  obtain ⟨vkHash, hutf8, partVk, hpart, hverify⟩ := hok
  have hbytes : utf8 vkHash = proof.zkmVkHash := by
    simp only [groth16, okOr] at hutf8
    split at hutf8
    · rename_i found hfound
      cases hutf8
      simpa using List.find?_some hfound
    · cases hutf8
  have hversion : proof.zkmVersion = "v2.0.0" := by
    simp only [bundledPartStarkVk, groth16] at hpart
    by_contra hne
    rw [if_neg hne] at hpart
    cases hpart
  split at hverify
  · cases hverify
  · rename_i hcheck
    simp only [groth16, ensure] at hcheck
    by_contra hmem
    rw [hbytes, ← hversion, if_neg hmem] at hcheck
    cases hcheck

theorem trusted {sc : Scenario} (runs : Runs sc) :
    Trusted (library sc) (programs sc) validators := by
  have hheader : programs sc headerId = headerProgram (library sc) := rfl
  have hstate : programs sc stateId = stateProgram (library sc) := if_neg (by decide +kernel)
  have hcommit : programs sc rootCommitProgramId = commitProgram (library sc) := by
    unfold programs
    rw [if_neg (by decide +kernel), if_neg (by decide +kernel), if_pos rfl]
  refine
    { sound := ?_
      headerCodec := codecOf_roundTrips _ _
      stateCodec := codecOf_roundTrips _ _
      commitCodec := codecOf_roundTrips _ _
      pinned := hcommit
      validators := ⟨fun _ h => of_decide_eq_true h, fun _ h => of_decide_eq_true h⟩ }
  intro proof id values hverified
  have hmem : verifiedAs sha256 groth16 proof ∈ proofs.map (verifiedAs sha256 groth16) :=
    List.mem_map_of_mem (mem_proofs_of_verifiedAs hverified)
  rw [verifiedAs_proofs, show verifiedAs sha256 groth16 proof =
    some (id, values) from hverified] at hmem
  -- each of the three proofs was made by a run from the genesis block
  simp only [List.mem_cons, Option.some.injEq, Prod.mk.injEq, List.not_mem_nil, or_false] at hmem
  rcases hmem with ⟨rfl, rfl⟩ | ⟨rfl, rfl⟩ | ⟨rfl, rfl⟩
  · refine Made.of_run hheader (headerInput sc) ?_ (nofun)
    exact Option.bind_eq_some_iff.mpr ⟨_, runs.header, if_pos rfl⟩
  · refine Made.of_run hstate (stateInput sc) ?_ (nofun)
    exact Option.bind_eq_some_iff.mpr ⟨_, runs.state, if_pos rfl⟩
  · refine Made.of_run hcommit (commitInput sc) ?_ (nofun)
    exact Option.bind_eq_some_iff.mpr ⟨_, runs.commit, if_pos rfl⟩

def listed : Scenario where
  lockTime := 0
  txid := beBytes32 0xfeda713cc1778adbc5ce41b66735652a9d511c2233bae6be61275ecc469050e5
  block :=
    { version := 0x20000000
      prevBlockHash := beBytes32 0x06226e46111a0b59caaf126043eb5bbf28c34f3a5e332a1fc7b2b73cf188910f
      merkleRoot := beBytes32 0x53c7c466537ffb3b744be7d6097d2fa412b8f0f5bdf4320381f4880b4264a67f
      time := 1296688603
      bits := 0x207fffff
      nonce := 1 }
  blockHash := beBytes32 0xd71bb939972446405fd131f2c9f3f4f60bf30915574f9afea3e05121f9da5049
  peak := beBytes32 0x8f1965818579c23a0667017f001b5675974a4baca7c4476aa2b0cfe776daa920
  path :=
    ⟨1, [beBytes32 0xa97291230171e01b292a71f955121a8a9e592110ee785d3b9fb0ddf4c82bebbd]⟩
  contract := gateway

def embedded : Scenario where
  lockTime := 408
  txid := beBytes32 0x9b78a9250121ce2eb13039e582338ce70fdcc73bc4abfd3ffa98fc3da014e0b3
  block :=
    { version := 0x20000000
      prevBlockHash := beBytes32 0x06226e46111a0b59caaf126043eb5bbf28c34f3a5e332a1fc7b2b73cf188910f
      merkleRoot := beBytes32 0x77584b2fbb40feaba17ee7dbc3ce1fd03bee66ece2838c1be802e51a80ea95ba
      time := 1296688603
      bits := 0x207fffff
      nonce := 0 }
  blockHash := beBytes32 0x87cc46d9894fe2bc6315b62ae008a09a3cac76e8aeafbc81185321f988cf1743
  peak := beBytes32 0x50614d80b41b1d30d479333fc1d64f469cbc384c22c81cad72a7777efeb6761d
  path :=
    ⟨2, [beBytes32 0x00000000000000000000ffffffff01e803000000000000045151515100000000,
      beBytes32 0xa97291230171e01b292a71f955121a8a9e592110ee785d3b9fb0ddf4c82bebbd]⟩
  contract := gateway

/-- A transaction of 64 bytes, the first 32 of which are the id of the commit transaction. -/
def embeddingTx : Transaction where
  version := 631863451
  lockTime := 0
  input := [⟨⟨beBytes32 0x21ce2eb13039e582338ce70fdcc73bc4abfd3ffa98fc3da014e0b30000000000, 0⟩, [],
    0xFFFFFFFF, []⟩]
  output := [⟨1000, [0x51, 0x51, 0x51, 0x51]⟩]

/-! The runs. -/

def spv : Spv where
  transaction := commitTx sc
  blockInclusionProof := sc.path
  blockHeader := sc.block
  mmrInclusionProof :=
    ⟨1, [beBytes32 0x06226e46111a0b59caaf126043eb5bbf28c34f3a5e332a1fc7b2b73cf188910f]⟩

def proof (k : Nat) : ProofInput := proofs.getD k unused

def input : ProposeInput where
  includedWatchtowers := 0
  graphId := graphId
  operatorGenesisSequencerCommitTxid := sc.txid
  watchtowerChallengeInitTxid := zero32
  watchtowerChallengeInitTxn := none
  watchtowerChallenges := []
  graphWatchtowerXonlyPublicKeys := [beBytes32 0x77]
  chains := ⟨proof 0, proof 2, proof 1, spv sc⟩
  operatorCommittedBlockhash := sc.blockHash

def constant : Bytes32 :=
  hashOperatorConstant (library sc) graphId sc.txid zero32 [beBytes32 0x77]

def authorisation : Authorisation :=
  ⟨CommitChain.Example.sequencerSetHash, beBytes32 0xe0, checkpointRoot, ids, [], []⟩

theorem authorisation_holds {sc : Scenario} {tx : Transaction}
    (h : extractCommitChainCommitment tx.output =
      .ok (sha256 (authorisation.preimage (library sc)))) :
    authorisation.Holds (library sc) (programs sc) tx := by
  refine ⟨h, ?_, ?_⟩
  · intro p hp
    rw [List.mem_singleton.mp hp]
    rfl
  · intro p hp
    rw [List.mem_singleton.mp hp]
    exact if_neg (by decide +kernel)

theorem listed_runs : Runs listed := by
  constructor
  all_goals decide +kernel

theorem embedded_runs : Runs embedded := by
  constructor
  all_goals decide +kernel

theorem listed_accepted : proposeLongestChain (library listed) (input listed) =
    some (listed.blockHash, constant listed, zero32) := by
  decide +kernel

theorem authorisation_of_decode {sc : Scenario} {output : CommitChainCircuitOutput}
    (hdigest : extractCommitChainCommitment (commitTx sc).output =
      .ok (sha256 (authorisation.preimage (library sc))))
    (h : (library sc).commitCodec.decode (input sc).chains.commitChain.zkmPublicValues =
      some output) :
    authorisation.Holds (library sc) (programs sc) output.chainState.commitTxn := by
  have hvalues : (input sc).chains.commitChain.zkmPublicValues = [3] := rfl
  cases h
  exact authorisation_holds hdigest

end Example

section

open Example

theorem proposeLongestChain_anchored_listed :
    let env := library listed
    let txids := [HeaderChain.txid sha256 coinbaseTx, HeaderChain.txid sha256 (commitTx listed)]
    proposeLongestChain env (input listed) = some (listed.blockHash, constant listed, zero32) ∧
      ∃ outputs height,
        env.commitCodec.decode (input listed).chains.commitChain.zkmPublicValues =
          some outputs.commit ∧
        env.headerCodec.read (input listed).chains.headerChain.zkmPublicValues =
          some outputs.header ∧
        env.stateCodec.read (input listed).chains.stateChain.zkmPublicValues = some outputs.state ∧
        (AuthorisationCollides env (programs listed) authorisation outputs ∨
          ∃ batches commits stateBatches,
            Anchored env validators (input listed) txids outputs listed.blockHash (constant listed)
              height batches commits stateBatches) := by
  intro env txids
  have hdigest : extractCommitChainCommitment (commitTx listed).output =
      .ok (sha256 (authorisation.preimage env)) := by decide +kernel
  have hroot : (BitcoinMerkleTree.new (merklePair env.sha256) txids).root =
      some (input listed).chains.spv.blockHeader.merkleRoot := by decide +kernel
  have hdepth : (input listed).chains.spv.blockInclusionProof.path.length =
      BitcoinMerkleTree.depth (merklePair env.sha256) txids := by decide +kernel
  exact ⟨listed_accepted,
      proposeLongestChain_anchored env (programs listed) validators authorisation
    (input listed) _ _ _ txids (trusted listed_runs)
      (fun _ => authorisation_of_decode hdigest) hroot
    hdepth listed_accepted⟩

/-- The other run is accepted as well, although the commit transaction is in no block of the header
chain. -/
theorem proposeLongestChain_accepts_embedded :
    let env := library embedded
    let txids := [HeaderChain.txid sha256 coinbaseTx, HeaderChain.txid sha256 embeddingTx]
    let headers := [genesisHeader .regtest, embedded.block]
    proposeLongestChain env (input embedded) =
      some (embedded.blockHash, constant embedded, zero32) ∧
      Trusted env (programs embedded) validators ∧
      authorisation.Holds env (programs embedded) (commitTx embedded) ∧
      FromGenesis env.header [headers] (headerOutput embedded).chainState ∧
      (BitcoinMerkleTree.new (merklePair sha256) [(genesisHeader .regtest).merkleRoot]).root =
        some (genesisHeader .regtest).merkleRoot ∧
      (BitcoinMerkleTree.new (merklePair sha256) txids).root = some embedded.block.merkleRoot ∧
      (commitTx embedded).computeTxid sha256 ∉ (genesisHeader .regtest).merkleRoot :: txids ∧
      ¬ CollisionIn (calculateDoubleSha256 sha256)
        (rangeStrings sha256 headers (headerOutput embedded).chainState.blockHashesMmr
            (spv embedded) ++
          treeStrings sha256 (spv embedded) txids) := by
  intro env txids headers
  refine ⟨by decide +kernel, trusted embedded_runs,
    authorisation_holds (by decide +kernel), ⟨?_, rfl⟩, rfl, by
      decide +kernel, by decide +kernel, ?_⟩
  · decide +kernel
  · unfold CollisionIn
    decide +kernel

end

end BitvmNode.LightClient
