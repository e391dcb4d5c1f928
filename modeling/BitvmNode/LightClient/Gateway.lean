import BitvmNode.LightClient.Anchoring

/-!
# The withdrawal behind an operator's proof

The state chain accumulates lists of slots that were checked block by block.  The operator's proof
looks for its graph in these lists and compares neither the contract nor the mapping.
-/

namespace BitvmNode.LightClient

open Reasoning Bitcoin Verifier CommitChain HeaderChain StateChain

abbrev PostState := EthClientExecutorInput → Address → Bytes32 → Nat

/-- The executor succeeds only if each listed slot holds the listed value after the block. -/
def ChecksSlots (env : StateChain.Env) (postState : PostState) : Prop :=
  ∀ input checks header, env.execute input checks = some header →
    ∀ check ∈ checks, postState input check.contract check.slot = check.value

structure Deployment where
  gateway : Address
  baseSlot : Bytes32

def CheckedInRun (env : StateChain.Env) (blocks : List CircuitStateBlock)
    (withdrawal : WithdrawalSlot) : Prop :=
  ∃ block ∈ blocks, ∃ header, withdrawal ∈ block.withdrawals ∧
    executeElBlockAndCheckWithdrawTx env block.withdrawals block.evmBlock = some header

variable {env : StateChain.Env} {blocks : List CircuitStateBlock}

theorem CheckedInRun.append {more : List CircuitStateBlock} {withdrawal : WithdrawalSlot}
    (h : CheckedInRun env blocks withdrawal) : CheckedInRun env (blocks ++ more) withdrawal := by
  obtain ⟨block, hblock, header, hmem, hexecute⟩ := h
  exact ⟨block, List.mem_append_left _ hblock, header, hmem, hexecute⟩

theorem checkedInRun_step {s s' : StateChainState} {block : CircuitStateBlock}
    (inv : ∀ withdrawal ∈ s.withdrawals, CheckedInRun env blocks withdrawal)
    (h : s.applyBlock env block = some s') :
    ∀ withdrawal ∈ s'.withdrawals, CheckedInRun env (blocks ++ [block]) withdrawal := by
  obtain ⟨header, hexecute, -, -, -, -, -, hcases⟩ := StateChainState.applyBlock_eq_some h
  intro withdrawal hmem
  rcases hcases with ⟨-, hsame⟩ | ⟨-, -, -, happend⟩
  · rw [hsame] at hmem
    exact (inv withdrawal hmem).append
  · rw [happend, List.mem_append] at hmem
    rcases hmem with hmem | hmem
    · exact (inv withdrawal hmem).append
    · exact ⟨block, List.mem_append_right _ (List.mem_singleton_self block), header, hmem, hexecute⟩

theorem checkedInRun_of_reaches {batches : List (List CircuitStateBlock)} {s : StateChainState}
    (h : (stateChain env).Reaches batches s) :
    ∀ withdrawal ∈ s.withdrawals, CheckedInRun env batches.flatten withdrawal := by
  obtain ⟨first, rest, s₀, rfl, hgenesis, hrun⟩ := h
  obtain ⟨block, -, hs₀⟩ := Option.bind_eq_some_iff.mp hgenesis
  cases hs₀
  -- a fresh state has no withdrawals
  have start : ∀ withdrawal ∈ (StateChainState.new block.evmBlock.currentBlock.number
      (env.hashSlow block.evmBlock.currentBlock) block.cosmosBlock).withdrawals,
      CheckedInRun env [] withdrawal := nofun
  have hflat := (foldlM_flatten (StateChainState.applyBlock env) _ (first :: rest)).symm.trans hrun
  have hrun := foldlM_invariant (fun blocks s => ∀ withdrawal ∈ s.withdrawals,
    CheckedInRun env blocks withdrawal) (fun _ _ _ _ inv hstep =>
      checkedInRun_step inv hstep) start hflat
  rwa [List.nil_append] at hrun

theorem CheckedInRun.slot {postState : PostState} {withdrawal : WithdrawalSlot} {graphId : GraphId}
    (hexecutor : ChecksSlots env postState) (h : CheckedInRun env blocks withdrawal)
    (hgraph : graphId ∈ withdrawal.graphIds) : ∃ block ∈ blocks, ∃ header,
      executeElBlockAndCheckWithdrawTx env block.withdrawals block.evmBlock = some header ∧
      postState block.evmBlock withdrawal.contract (slotId env withdrawal.baseSlot graphId) =
        1 := by
  obtain ⟨block, hblock, header, hmem, hexecute⟩ := h
  have hcheck : (⟨withdrawal.contract, slotId env withdrawal.baseSlot graphId, 1⟩ : StorageCheck) ∈
      storageInfo env block.withdrawals :=
    (mem_storageInfo env).mpr ⟨withdrawal, hmem, graphId, hgraph, rfl⟩
  exact ⟨block, hblock, header, hexecute, hexecutor _ _ _ hexecute _ hcheck⟩

section Runs

variable (env : Env) (programs : Programs) (tm : Validators) (a : Authorisation)

theorem stateRun_of_accepted {input : ProposeInput} {r : Bytes32 × Bytes32 × Bytes32}
    (htrust : Trusted env programs tm)
    (hauth : ∀ output, env.commitCodec.decode input.chains.commitChain.zkmPublicValues =
      some output →
      a.Holds env programs output.chainState.commitTxn)
    (hrun : proposeLongestChain env input = some r) :
    ∃ outputs, env.stateCodec.read input.chains.stateChain.zkmPublicValues = some outputs.state ∧
      isFound input.graphId outputs.state.chainState.withdrawals = true ∧
      (AuthorisationCollides env programs a outputs ∨
        ∃ batches, (stateChain env.state).Reaches batches outputs.state.chainState) := by
  obtain ⟨outputs, height, initTxn, hchecked, -, hfound, -, -⟩ := proposeLongestChain_eq_some hrun
  refine ⟨outputs, hchecked.stateOutput, hfound, ?_⟩
  have hholds := hauth _ hchecked.commitOutput
  obtain ⟨cosmosBlock, sequencerSetHash, hseq⟩ := hchecked.sequencers
  rcases authorised_of_checked hholds hseq with ⟨hids, -, hhistory⟩ | hcol
  · rcases stateChain_of_checked htrust hholds hchecked hids hhistory with hreach | hcol
    · exact Or.inr hreach
    · exact Or.inl (Or.inr (Or.inr hcol))
  · exact Or.inl (Or.inl ⟨cosmosBlock, sequencerSetHash, hseq, hcol⟩)

/-- An accepted run has a block that leaves the graph's withdraw status of the gateway at one, if
some entry of the proven list that names the graph is for the gateway and its mapping. -/
theorem proposeLongestChain_gateway (input : ProposeInput) (r : Bytes32 × Bytes32 × Bytes32)
    (deployment : Deployment) (postState : PostState)
    (htrust : Trusted env programs tm) (hexecutor : ChecksSlots env.state postState)
    (hauth : ∀ output, env.commitCodec.decode input.chains.commitChain.zkmPublicValues =
      some output →
      a.Holds env programs output.chainState.commitTxn)
    (hrun : proposeLongestChain env input = some r)
    (hlisted : ∀ output, env.stateCodec.read input.chains.stateChain.zkmPublicValues = some output →
      ∃ withdrawal ∈ output.chainState.withdrawals, input.graphId ∈ withdrawal.graphIds ∧
        withdrawal.contract = deployment.gateway ∧ withdrawal.baseSlot = deployment.baseSlot) :
    ∃ outputs, env.stateCodec.read input.chains.stateChain.zkmPublicValues = some outputs.state ∧
      (AuthorisationCollides env programs a outputs ∨
        ∃ batches, (stateChain env.state).Reaches batches outputs.state.chainState ∧
          ∃ block ∈ batches.flatten, ∃ header,
            executeElBlockAndCheckWithdrawTx env.state block.withdrawals block.evmBlock =
              some header ∧
            postState block.evmBlock deployment.gateway
              (slotId env.state deployment.baseSlot input.graphId) = 1) := by
  obtain ⟨outputs, hread, -, hcases⟩ := stateRun_of_accepted env programs tm a htrust hauth hrun
  refine ⟨outputs, hread, ?_⟩
  rcases hcases with hcol | ⟨batches, hreach⟩
  · exact Or.inl hcol
  · right
    obtain ⟨withdrawal, hmem, hgraph, hcontract, hslot⟩ := hlisted _ hread
    have hchecked := checkedInRun_of_reaches hreach withdrawal hmem
    refine ⟨batches, hreach, ?_⟩
    rw [← hcontract, ← hslot]
    exact hchecked.slot hexecutor hgraph

end Runs

namespace Example

def deployment : Deployment := ⟨gateway, baseSlot⟩

theorem library_checksSlots (sc : Scenario) :
    ChecksSlots (library sc).state (fun _ => storage sc) := by
  intro input checks header h
  simp only [library, Env.state, Option.ite_none_right_eq_some] at h
  exact h.1

/-- The same chains with a contract of the prover's own, which has a mapping at the same base
slot. -/
def rogue : Scenario := { listed with contract := Vector.replicate 20 0xbb }

theorem rogue_runs : Runs rogue := by
  constructor
  all_goals decide +kernel

end Example

section

open Example

theorem proposeLongestChain_gateway_listed :
    let env := library listed
    proposeLongestChain env (input listed) = some (listed.blockHash, constant listed, zero32) ∧
      ∃ outputs, env.stateCodec.read (input listed).chains.stateChain.zkmPublicValues =
        some outputs.state ∧
        (AuthorisationCollides env (programs listed) authorisation outputs ∨
          ∃ batches, (stateChain env.state).Reaches batches outputs.state.chainState ∧
            ∃ block ∈ batches.flatten, ∃ header,
              executeElBlockAndCheckWithdrawTx env.state block.withdrawals block.evmBlock =
                some header ∧
              storage listed gateway (slotId env.state baseSlot graphId) = 1) := by
  intro env
  have hdigest : extractCommitChainCommitment (commitTx listed).output =
      .ok (sha256 (authorisation.preimage env)) := by decide +kernel
  have hlisted : ∀ output,
      env.stateCodec.read (input listed).chains.stateChain.zkmPublicValues = some output →
      ∃ withdrawal ∈ output.chainState.withdrawals, graphId ∈ withdrawal.graphIds ∧
        withdrawal.contract = gateway ∧ withdrawal.baseSlot = baseSlot := by
    intro output hread
    have hvalues : (input listed).chains.stateChain.zkmPublicValues = [2] := rfl
    cases hread
    exact ⟨_, List.mem_singleton_self _, List.mem_singleton_self _, rfl, rfl⟩
  exact ⟨listed_accepted, proposeLongestChain_gateway env (programs listed) validators authorisation
    (input listed) _ deployment (fun _ => storage listed) (trusted listed_runs)
    (library_checksSlots listed) (fun _ => authorisation_of_decode hdigest) listed_accepted hlisted⟩

/-- A run is accepted whose only evidence is a slot of another contract, with the gateway's slot
unset after every block. -/
theorem proposeLongestChain_accepts_rogue :
    let env := library rogue
    proposeLongestChain env (input rogue) = some (rogue.blockHash, constant rogue, zero32) ∧
      Trusted env (programs rogue) validators ∧
      authorisation.Holds env (programs rogue) (commitTx rogue) ∧
      ChecksSlots env.state (fun _ => storage rogue) ∧
      (stateChain env.state).Reaches [stateBlocks rogue] (stateOutput rogue).chainState ∧
      (∀ withdrawal ∈ (stateOutput rogue).chainState.withdrawals, withdrawal.contract ≠ gateway) ∧
      ∀ slot, storage rogue gateway slot = 0 := by
  intro env
  have hother : ¬ gateway = rogue.contract := by decide +kernel
  refine ⟨by decide +kernel, trusted rogue_runs, authorisation_holds (by decide +kernel),
    library_checksSlots rogue, ?_, ?_, ?_⟩
  · exact ⟨_, _, _, rfl, rfl, by decide +kernel⟩
  · intro withdrawal hmem
    rw [List.mem_singleton.mp hmem]
    exact fun h => hother h.symm
  · intro slot
    exact if_neg fun h => hother h.1

end

end BitvmNode.LightClient
