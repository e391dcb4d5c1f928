import Mathlib.Data.List.Chain
import BitvmNode.Reasoning.Sha256
import BitvmNode.StateChain.EvmChain

/-!
# The linkage of the state chain

What the circuit accepts from a genesis batch on is one chain of execution blocks, each named by the
consensus block that came with it, whatever the batches.  The executor is taken to return the header
it has executed.
-/

namespace BitvmNode.StateChain

open Reasoning Verifier CommitChain

def CircuitStateBlock.header (block : CircuitStateBlock) : EvmHeader := block.evmBlock.currentBlock

variable (env : Env)

def ReturnsExecuted : Prop :=
  ∀ input checks header, env.execute input checks = some header → header = input.currentBlock

/-- `block` comes next after `parent`, and the consensus block that came with it says so. -/
structure Extends (parent block : CircuitStateBlock) : Prop where
  number : block.header.number.toNat = parent.header.number.toNat + 1
  parentHash : block.header.parentHash = env.hashSlow parent.header
  committed : CommittedBy env block block.header

def ChecksListed (block : CircuitStateBlock) : Prop :=
  ∃ checks, env.execute block.evmBlock checks = some block.header ∧
    ∀ withdrawal ∈ block.withdrawals, ∀ graphId ∈ withdrawal.graphIds,
      ⟨withdrawal.contract, slotId env withdrawal.baseSlot graphId, 1⟩ ∈ checks

/-- The state is the one after the linked blocks `first :: rest`, of which `first` alone is the
genesis block. -/
structure Linked (first : CircuitStateBlock) (rest : List CircuitStateBlock) (s : StateChainState) :
    Prop where
  genesis : env.hashSlow first.header = s.genesisEvmBlockHash
  once : ∀ block ∈ rest, env.hashSlow block.header ≠ s.genesisEvmBlockHash
  chain : List.IsChain (Extends env) (first :: rest)
  tip : s.latestEvmBlockHash = env.hashSlow (rest.getLastD first).header
  cosmos : s.latestCosmosBlock = (rest.getLastD first).cosmosBlock
  height : s.evmBlockHeight.toNat = first.header.number.toNat + rest.length + 1
  withdrawals : s.withdrawals = rest.flatMap (·.withdrawals)
  checked : ∀ block ∈ rest, ChecksListed env block

variable {env} {first : CircuitStateBlock} {rest : List CircuitStateBlock} {s s' : StateChainState}

theorem u64_toNat_succ {n : UInt64} (h : n.toNat + 1 < 2 ^ 64) : (n + 1).toNat = n.toNat + 1 := by
  exact Nat.mod_eq_of_lt h

theorem number_getLastD (h : List.IsChain (Extends env) (first :: rest)) :
    (rest.getLastD first).header.number.toNat = first.header.number.toNat + rest.length := by
  induction rest generalizing first with
  | nil => rfl
  | cons block rest ih =>
    obtain ⟨hnext, hchain⟩ := List.isChain_cons_cons.mp h
    have hlast := ih hchain
    rw [List.getLastD_cons, hlast, hnext.number, List.length_cons]
    omega

theorem Linked.start (hexecutor : ReturnsExecuted env)
    (hfits : first.header.number.toNat + 1 < 2 ^ 64) {cosmosBlock : Bytes}
    (h : (StateChainState.new first.evmBlock.currentBlock.number
      (env.hashSlow first.evmBlock.currentBlock) cosmosBlock).applyBlock env first = some s) :
    Linked env first [] s := by
  obtain ⟨header, hexecute, -, hheight, hgenesis, hlatest, hcosmos, hcases⟩ :=
    StateChainState.applyBlock_eq_some h
  obtain rfl : header = first.header := hexecutor _ _ _ hexecute
  rcases hcases with ⟨-, hwithdrawals⟩ | ⟨hother, -⟩
  · exact
      { genesis := hgenesis.symm
        once := by simp
        chain := List.isChain_singleton _
        tip := hlatest
        cosmos := hcosmos
        height := by rw [hheight]; exact u64_toNat_succ hfits
        withdrawals := hwithdrawals
        checked := by simp }
  · exact absurd rfl hother

theorem Linked.step (hexecutor : ReturnsExecuted env) {block : CircuitStateBlock}
    (inv : Linked env first rest s) (hfits : first.header.number.toNat + rest.length + 2 < 2 ^ 64)
    (hkeccak : ¬ CollisionIn env.hashSlow ((first :: rest ++ [block]).map (·.header)))
    (h : s.applyBlock env block = some s') : Linked env first (rest ++ [block]) s' := by
  obtain ⟨header, hexecute, hnumber, hheight, hgenesis, hlatest, hcosmos, hcases⟩ :=
    StateChainState.applyBlock_eq_some h
  obtain rfl : header = block.header := hexecutor _ _ _ hexecute
  have htip := number_getLastD inv.chain
  have hblock : block.header.number.toNat = first.header.number.toNat + rest.length + 1 := by
    rw [hnumber, inv.height]
  have hother : env.hashSlow block.header ≠ s.genesisEvmBlockHash := by
    intro hhash
    refine hkeccak ⟨first.header, by simp, block.header, by simp, ?_, inv.genesis.trans hhash.symm⟩
    intro hsame
    rw [← hsame] at hblock
    omega
  rcases hcases with ⟨hhash, -⟩ | ⟨-, hparent, hcommitted, hwithdrawals⟩
  · exact absurd hhash hother
  have hextends : Extends env (rest.getLastD first) block :=
    ⟨by omega, by rw [hparent, inv.tip], hcommitted⟩
  exact
    { genesis := inv.genesis.trans hgenesis.symm
      once := by
        rw [hgenesis]
        intro other hmem
        rcases List.mem_append.mp hmem with hmem | hmem
        · exact inv.once other hmem
        · rw [List.mem_singleton.mp hmem]
          exact hother
      chain := by
        rw [← List.cons_append, List.isChain_append]
        refine ⟨inv.chain, List.isChain_singleton _, ?_⟩
        intro last hlast next hnext
        rw [List.getLast?_cons, Option.mem_some_iff] at hlast
        rw [List.head?_singleton, Option.mem_some_iff] at hnext
        rw [← hlast, ← hnext, ← List.getLastD_eq_getLast?]
        exact hextends
      tip := by rw [hlatest, List.getLastD_concat]
      cosmos := by rw [hcosmos, List.getLastD_concat]
      height := by
        rw [hheight, u64_toNat_succ (by rw [inv.height]; omega), inv.height, List.length_append,
          List.length_singleton]
        omega
      withdrawals := by
        rw [hwithdrawals, inv.withdrawals, List.flatMap_append, List.flatMap_singleton]
      checked := by
        intro other hmem
        rcases List.mem_append.mp hmem with hmem | hmem
        · exact inv.checked other hmem
        · rw [List.mem_singleton.mp hmem]
          refine ⟨_, hexecute, fun withdrawal hwithdrawal graphId hgraphId => ?_⟩
          exact (mem_storageInfo env).mpr ⟨withdrawal, hwithdrawal, graphId, hgraphId, rfl⟩ }

theorem linked_of_applyBlocks (hexecutor : ReturnsExecuted env)
    (hfits : first.header.number.toNat + rest.length + 1 < 2 ^ 64)
    (hkeccak : ¬ CollisionIn env.hashSlow ((first :: rest).map (·.header))) {cosmosBlock : Bytes}
    (h : (StateChainState.new first.evmBlock.currentBlock.number
      (env.hashSlow first.evmBlock.currentBlock) cosmosBlock).applyBlocks env (first :: rest) =
        some s) : Linked env first rest s := by
  obtain ⟨s₁, hfirst, hrest⟩ := foldlM_cons_some.mp h
  have hrun := foldlM_invariant
    (fun blocks s => first.header.number.toNat + blocks.length + 1 < 2 ^ 64 →
      ¬ CollisionIn env.hashSlow ((first :: blocks).map (·.header)) → Linked env first blocks s)
    (by
      intro blocks block s s' inv hblock hfits hkeccak
      rw [List.length_append, List.length_singleton] at hfits
      -- what holds of all blocks holds of those before the last
      have hbefore : ¬ CollisionIn env.hashSlow ((first :: blocks).map (·.header)) := by
        intro hcollision
        refine hkeccak (hcollision.mono ?_)
        rw [← List.cons_append, List.map_append]
        intro header hmem
        exact List.mem_append_left _ hmem
      exact (inv (by omega) hbefore).step hexecutor (by omega) hkeccak hblock)
    (fun hfits _ => Linked.start hexecutor hfits hfirst) hrest
  exact hrun hfits hkeccak

/-- Whatever the batches, the circuit accepts one linked chain of blocks from the genesis block on,
up to the number that the height can hold, and the state it ends in depends on the blocks alone. -/
theorem state_chain_linkage {groth16 : Groth16} {codec : OutputCodec StateChainCircuitOutput}
    (hcodec : codec.RoundTrips) (hexecutor : ReturnsExecuted env)
    {batches : List (List CircuitStateBlock)} {output : StateChainCircuitOutput}
    (h : (stateChain env).Accepts env.sha256 groth16 codec batches output)
    (hkeccak : ¬ CollisionIn env.hashSlow (batches.flatten.map (·.header))) :
    (∃ first rest, batches.flatten = first :: rest ∧ (Linked env first rest output.chainState ↔
        first.header.number.toNat + rest.length + 1 < 2 ^ 64)) ∧
      (∀ batches' output', (stateChain env).Accepts env.sha256 groth16 codec batches' output' →
        batches'.flatten = batches.flatten → output'.chainState = output.chainState) ∧
      ∀ batches' : List (List CircuitStateBlock), batches'.head? ≠ some [] →
        batches'.flatten = batches.flatten →
        (stateChain env).Reaches batches' output.chainState := by
  obtain ⟨hhead, first, rest, hflat, hrun⟩ := reaches_iff.mp (h.reaches hcodec)
  refine ⟨⟨first, rest, hflat, ?_, ?_⟩, ?_, ?_⟩
  · intro linked
    rw [← linked.height]
    exact UInt64.toNat_lt _
  · intro hfits
    rw [hflat] at hkeccak
    exact linked_of_applyBlocks hexecutor hfits hkeccak hrun
  · intro batches' output' h' hsame
    obtain ⟨-, first', rest', hflat', hrun'⟩ := reaches_iff.mp (h'.reaches hcodec)
    obtain ⟨rfl, rfl⟩ := List.cons.inj (hflat'.symm.trans (hsame.trans hflat))
    exact Option.some.inj (hrun'.symm.trans hrun)
  · intro batches' hhead' hsame
    exact reaches_iff.mpr ⟨hhead', first, rest, hsame.trans hflat, hrun⟩

/-! ## A chain of two blocks

The genesis block has the number `n`; the second block comes in a batch and a proof of its own. -/

namespace TwoBlocks

variable (sha256 : Bytes → Bytes32) (n : UInt64)

def genesis : CircuitStateBlock where
  cosmosTxns := []
  cosmosBlock := [0xc0]
  evmBlock := ⟨⟨n, beBytes32 0, none, []⟩, []⟩
  withdrawals := []

def paid : WithdrawalSlot := ⟨Vector.replicate 20 7, beBytes32 9, [Vector.replicate 16 5]⟩

def second : CircuitStateBlock where
  cosmosTxns := [[0x71]]
  cosmosBlock := [0xc1]
  evmBlock := ⟨⟨n + 1, beBytes32 1, none, []⟩, []⟩
  withdrawals := [paid]

def dataHash : Bytes32 := sha256 (0x00 :: (sha256 [0x71]).toList)

def library : Env where
  sha256 := sha256
  decodeTx _ := some ⟨some [⟨"/goat.goat.v1.MsgNewEthBlock", [0x72]⟩]⟩
  decodeMsgNewEthBlock _ := some ⟨some ⟨n + 1, (beBytes32 2).toList, (beBytes32 1).toList⟩⟩
  lightBlockFromSlice _ := some ⟨⟨.none, some (.sha256 (dataHash sha256)), []⟩, [], []⟩
  verifyValidatorSets _ := true
  verifyCommit _ := true
  keccak256 := sha256
  hashSlow header := if header.number = n then beBytes32 1 else beBytes32 2
  execute input _ := some input.currentBlock

def groth16 : Groth16 where
  fromUtf8 _ := .ok "key"
  tryGetPartStarkVk _ := some []
  decodeZkmVkeyHash _ := .ok (beBytes32 0)
  verifyByImmGroth16Vk _ _ _ _ := .ok ()

def programId : ProgramId :=
  taggedHash sha256 (utf8 "bitvm/program-id/v1") [(beBytes32 0).toList, (sha256 []).toList]

def outputOf (s : StateChainState) : StateChainCircuitOutput :=
  ⟨s, programId sha256, initialHistory sha256 .state, zero32⟩

def afterGenesis : StateChainState := ⟨n + 1, beBytes32 1, beBytes32 1, [0xc0], []⟩

def afterSecond : StateChainState := ⟨n + 1 + 1, beBytes32 1, beBytes32 2, [0xc1], [paid]⟩

def codec : OutputCodec StateChainCircuitOutput :=
  .ofTable [([1], outputOf sha256 (afterGenesis n)), ([2], outputOf sha256 (afterSecond n))]

theorem codec_roundTrips : (codec sha256 n).RoundTrips :=
  OutputCodec.ofTable_roundTrips (by simp)

theorem executor_returns : ReturnsExecuted (library sha256 n) := by
  intro input checks header h
  exact (Option.some.inj h).symm

theorem succ_ne : n + 1 ≠ n := by
  intro h
  rw [UInt64.add_eq_left] at h
  cases h

theorem hash_genesis : (library sha256 n).hashSlow (genesis n).header = beBytes32 1 := if_pos rfl

theorem hash_second : (library sha256 n).hashSlow (second n).header = beBytes32 2 :=
  if_neg (succ_ne n)

theorem hashes_ne : beBytes32 1 ≠ beBytes32 2 := by
  decide

theorem apply_genesis :
    (StateChainState.new n (beBytes32 1) [0xc0]).applyBlock (library sha256 n) (genesis n) =
      some (afterGenesis n) := by
  have hlink : (StateChainState.new n (beBytes32 1) [0xc0]).linkBlock (library sha256 n) (genesis n)
      (genesis n).header ⟨⟨.none, some (.sha256 (dataHash sha256)), []⟩, [], []⟩ = some [] :=
    if_neg (not_not.mpr (hash_genesis sha256 n))
  refine StateChainState.applyBlock_iff.mpr ⟨(genesis n).header, rfl, rfl, rfl, _, rfl,
    _, hlink, ?_⟩
  rw [hash_genesis]
  rfl

theorem apply_second :
    (afterGenesis n).applyBlock (library sha256 n) (second n) = some (afterSecond n) := by
  have hpayload : checkElBlockFromPayload (library sha256 n).toCbft (n + 1)
      ((library sha256 n).hashSlow (second n).header) (beBytes32 1) [[0x71]] (dataHash sha256) =
        some () := by
    rw [hash_second]
    simp [checkElBlockFromPayload, parseCbftTxPayload, library, merkleRootFromBase64Txns,
      computeMerkleRoot, computeMerkleRootFuel, merkleLeafHash, dataHash]
  have hlink : (afterGenesis n).linkBlock (library sha256 n) (second n) (second n).header
      ⟨⟨.none, some (.sha256 (dataHash sha256)), []⟩, [], []⟩ = some [paid] := by
    unfold StateChainState.linkBlock
    rw [if_pos (by rw [hash_second]; exact hashes_ne.symm)]
    refine Option.bind_eq_some_iff.mpr ⟨(), ?_, rfl⟩
    exact guard_bind_eq_some.mpr ⟨rfl, Option.bind_eq_some_iff.mpr ⟨_, rfl, hpayload⟩⟩
  refine StateChainState.applyBlock_iff.mpr ⟨(second n).header, rfl, rfl, rfl, _, rfl, _, hlink, ?_⟩
  rw [hash_second]
  rfl

theorem run_genesis : (stateChain (library sha256 n)).run sha256 groth16 (codec sha256 n)
    ⟨⟨[], [], [], ""⟩, programId sha256, .genesisBlock, [genesis n]⟩ =
      some (outputOf sha256 (afterGenesis n)) := by
  refine ChainCircuit.run_of_start rfl (foldlM_cons_some.mpr ⟨_, ?_, rfl⟩)
  change (StateChainState.new n ((library sha256 n).hashSlow (genesis n).header) [0xc0]).applyBlock
    (library sha256 n) (genesis n) = _
  rw [hash_genesis]
  exact apply_genesis sha256 n

theorem run_second : (stateChain (library sha256 n)).run sha256 groth16 (codec sha256 n)
    ⟨⟨[], [1], [], ""⟩, programId sha256, .prevProof, [second n]⟩ =
      some (outputOf sha256 (afterSecond n)) := by
  refine ChainCircuit.run_of_start ?_ (foldlM_cons_some.mpr ⟨_, apply_second sha256 n, rfl⟩)
  have hverify : verifyGroth16Proof sha256 groth16 ⟨[], [1], [], ""⟩ = .ok (programId sha256) := rfl
  simp [ChainCircuit.start, hverify, codec, OutputCodec.ofTable, outputOf, Except.toOption,
    nextHistory]

theorem encode_genesis : (codec sha256 n).encode (outputOf sha256 (afterGenesis n)) = some [1] := by
  simp [codec, OutputCodec.ofTable]

theorem accepted : (stateChain (library sha256 n)).Accepts sha256 groth16 (codec sha256 n)
    [[genesis n], [second n]] (outputOf sha256 (afterSecond n)) :=
  .next (.genesis rfl (run_genesis sha256 n)) rfl (encode_genesis sha256 n) (run_second sha256 n)

theorem no_collision : ¬ CollisionIn (library sha256 n).hashSlow
    ([[genesis n], [second n]].flatten.map (·.header)) := by
  rintro ⟨x, hx, y, hy, hne, heq⟩
  simp only [List.flatten_cons, List.flatten_nil, List.append_nil, List.cons_append,
    List.nil_append, List.map_cons, List.map_nil, List.mem_cons, List.not_mem_nil,
    or_false] at hx hy
  rcases hx with rfl | rfl <;> rcases hy with rfl | rfl
  · exact hne rfl
  · rw [hash_genesis, hash_second] at heq
    exact hashes_ne heq
  · rw [hash_genesis, hash_second] at heq
    exact hashes_ne heq.symm
  · exact hne rfl

theorem linked_from_seven :
    Linked (library Sha256.digest 7) (genesis 7) [second 7] (afterSecond 7) := by
  obtain ⟨⟨first, rest, hflat, hiff⟩, -⟩ := state_chain_linkage (codec_roundTrips Sha256.digest 7)
    (executor_returns Sha256.digest 7) (accepted Sha256.digest 7) (no_collision Sha256.digest 7)
  obtain ⟨rfl, rfl⟩ := List.cons.inj hflat
  exact hiff.mpr (by decide)

/-- After the last number of the type a block with the number zero is accepted, and the height that
is kept is one. -/
theorem number_wraps :
    (stateChain (library Sha256.digest (-1))).Accepts Sha256.digest groth16
        (codec Sha256.digest (-1))
        [[genesis (-1)], [second (-1)]] (outputOf Sha256.digest (afterSecond (-1))) ∧
      (codec Sha256.digest (-1)).RoundTrips ∧ ReturnsExecuted (library Sha256.digest (-1)) ∧
      ¬ CollisionIn (library Sha256.digest (-1)).hashSlow
        ([[genesis (-1)], [second (-1)]].flatten.map (·.header)) ∧
      (genesis (-1)).header.number.toNat = 2 ^ 64 - 1 ∧ (second (-1)).header.number.toNat = 0 ∧
      (afterSecond (-1)).evmBlockHeight.toNat = 1 ∧
      ¬ Linked (library Sha256.digest (-1)) (genesis (-1)) [second (-1)] (afterSecond (-1)) := by
  refine ⟨accepted _ _, codec_roundTrips _ _, executor_returns _ _, no_collision _ _, by decide,
    by decide, by decide, ?_⟩
  intro linked
  have hheight := linked.height
  revert hheight
  decide

end TwoBlocks

end BitvmNode.StateChain
