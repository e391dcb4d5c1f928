import BitvmNode.ChainCircuit
import BitvmNode.CommitChain.Authenticity

/-!
# The commit chain circuit

Unlike the header and the state chain, the commit chain has no history of programs: a proof is
extended by the program that made it only.
-/

namespace BitvmNode.CommitChain

open Reasoning Verifier

structure CommitChainCircuitInput where
  proof : ProofInput
  selfProgramId : ProgramId
  prevProof : PrevProofType
  commits : List CircuitCommit

structure CommitChainCircuitOutput where
  chainState : CommitChainState
  selfProgramId : ProgramId
  deriving DecidableEq

variable (env : Env) (groth16 : Groth16) (codec : OutputCodec CommitChainCircuitOutput)

def commitChainStart (input : CommitChainCircuitInput) (first : CircuitCommit) :
    Option CommitChainState :=
  match input.prevProof with
  | .genesisBlock => some (CommitChainState.new first.genesisTxid)
  | .prevProof => do
      let previousProgramId ← (verifyGroth16Proof env.sha256 groth16 input.proof).toOption
      let output ← codec.decode input.proof.zkmPublicValues
      guard (output.selfProgramId = previousProgramId)
      guard (previousProgramId = input.selfProgramId)
      some output.chainState

def commitChainCircuit (input : CommitChainCircuitInput) : Option CommitChainCircuitOutput := do
  let first ← input.commits.head?
  let chainState ← commitChainStart env groth16 codec input first
  let chainState ← chainState.applyCommit env input.commits
  some ⟨chainState, input.selfProgramId⟩

def commitChainProgram : Program ProgramId Bytes where
  Input := CommitChainCircuitInput
  commits input := commitChainCircuit env groth16 codec input >>= codec.encode
  verifies input :=
    match input.prevProof with
    | .genesisBlock => none
    | .prevProof => verifiedAs env.sha256 groth16 input.proof

variable {env groth16 codec}

theorem commitChainCircuit_eq_some {input : CommitChainCircuitInput}
    {output : CommitChainCircuitOutput}
    (h : commitChainCircuit env groth16 codec input = some output) :
    output.selfProgramId = input.selfProgramId ∧ input.commits ≠ [] ∧
      ((∃ g, (CommitChainState.new g).applyCommit env input.commits = some output.chainState) ∨
        ∃ prev, input.prevProof = .prevProof ∧
          verifyGroth16Proof env.sha256 groth16 input.proof = .ok input.selfProgramId ∧
          codec.decode input.proof.zkmPublicValues = some prev ∧
          prev.selfProgramId = input.selfProgramId ∧
          prev.chainState.applyCommit env input.commits = some output.chainState) := by
  simp only [commitChainCircuit, Option.bind_eq_bind, Option.bind_eq_some_iff] at h
  obtain ⟨first, hfirst, s₀, hstart, s, hs, hout⟩ := h
  cases hout
  refine ⟨rfl, ?_, ?_⟩
  · intro hempty
    rw [hempty] at hfirst
    cases hfirst
  unfold commitChainStart at hstart
  cases hprev : input.prevProof with
  | genesisBlock =>
    left
    rw [hprev] at hstart
    cases hstart
    exact ⟨_, hs⟩
  | prevProof =>
    right
    simp only [hprev, Option.bind_eq_bind, Option.bind_eq_some_iff, Option.some.injEq] at hstart
    obtain ⟨previous, hverify, prev, hdecode, _, hself, _, hsame, rfl⟩ := hstart
    have hself := guard_eq_some.mp hself
    have hsame := guard_eq_some.mp hsame
    subst hsame
    exact ⟨prev, rfl, except_toOption_eq_some.mp hverify, hdecode, hself, hs⟩

theorem commits_of_made {programs : ProgramId → Program ProgramId Bytes} {id : ProgramId}
    {values : Bytes} (hcodec : codec.RoundTrips) (hmade : Made programs id values)
    (hprogram : programs id = commitChainProgram env groth16 codec)
    {output : CommitChainCircuitOutput} (hdecode : codec.decode values = some output)
    (hself : output.selfProgramId = id) : ∃ g commits, commits ≠ [] ∧
      (CommitChainState.new g).applyCommit env commits = some output.chainState := by
  -- induction over the earlier proofs, all of them made by the same program
  refine Made.rule (fun id values => programs id = commitChainProgram env groth16 codec →
    ∀ output : CommitChainCircuitOutput, codec.decode values = some output →
    output.selfProgramId = id → ∃ g commits, commits ≠ [] ∧
      (CommitChainState.new g).applyCommit env commits = some output.chainState)
    ?_ hmade hprogram output hdecode hself
  intro id values program hprogram' input hcommit hearlier hprogram output hdecode hself
  obtain rfl : program = commitChainProgram env groth16 codec := hprogram'.symm.trans hprogram
  obtain ⟨output', hrun, hencode⟩ := Option.bind_eq_some_iff.mp hcommit
  obtain rfl : output' = output := by
    rw [hcodec.decode_encode _ _ hencode] at hdecode
    exact Option.some.inj hdecode
  obtain ⟨hid, hne, ⟨g, hrun⟩ | ⟨prev, hprev, hverify, hprevDecode, hprevSelf, hrun⟩⟩ :=
    commitChainCircuit_eq_some hrun
  · exact ⟨g, _, hne, hrun⟩
  · rw [hself] at hid
    subst hid
    have hverifies : (commitChainProgram env groth16 codec).verifies input =
        some (input.selfProgramId, input.proof.zkmPublicValues) := by
      simp only [commitChainProgram, hprev, verifiedAs_of_ok _ _ hverify]
    obtain ⟨-, ih⟩ := hearlier _ _ hverifies
    obtain ⟨g, commits, -, hbefore⟩ := ih hprogram prev hprevDecode hprevSelf
    refine ⟨g, commits ++ input.commits, by simp [hne], ?_⟩
    unfold CommitChainState.applyCommit at hbefore hrun ⊢
    rw [foldlM_append_some]
    exact ⟨_, hbefore, hrun⟩

end BitvmNode.CommitChain
