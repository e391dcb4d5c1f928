import BitvmNode.LightClient.ProgramHistory

/-!
# The roots that the publishers commit to

The publishers' tool works out, outside the circuits, what the next recursive step of either chain
will put out.
-/

open BitvmNode.Reasoning BitvmNode.Verifier

namespace BitvmNode.ChainCircuit

variable {σ β : Type} (sha256 : Bytes → Bytes32) (groth16 : Groth16)
variable (codec : OutputCodec (ChainCircuitOutput σ)) (circuit : ChainCircuit σ β)

def nextRoots (previous : MadeProof) (output : ChainCircuitOutput σ) (nextProgramId : ProgramId) :
    Bytes32 × Bytes32 :=
  let history :=
    nextHistory sha256 circuit.programType output.programHistoryHash previous.programId
      nextProgramId
  let checkpoint :=
    if previous.programId = nextProgramId then output.upgradeCheckpointHash
    else
      proofCheckpoint sha256 circuit.programType output.upgradeCheckpointHash previous.programId
        nextProgramId previous.values
  (finalizeHistory sha256 circuit.programType history nextProgramId, checkpoint)

def nextHistoryRoot (name : String) (proof : ProofInput) (nextProgramId : ProgramId) :
    Except String (Bytes32 × Bytes32) := do
  let previousProgramId ← verifyGroth16Proof sha256 groth16 proof
  match codec.decode proof.zkmPublicValues with
  | none => .error s!"unknown {name}-chain public output format"
  | some output =>
      if output.selfProgramId ≠ previousProgramId then .error s!"{name} ProgramId mismatch"
      else .ok (circuit.nextRoots sha256 ⟨previousProgramId, proof.zkmPublicValues⟩ output
        nextProgramId)

def Holds (proof : ProofInput) (p : MadeProof) : Prop :=
  verifyGroth16Proof sha256 groth16 proof = .ok p.programId ∧ proof.zkmPublicValues = p.values

/-- Steps that the next program alone has run lead from the one proof to the other. -/
def ExtendedBy (nextProgramId : ProgramId) : MadeProof → MadeProof → Prop :=
  Relation.ReflTransGen fun q r => circuit.Follows sha256 groth16 codec q r ∧
    r.programId = nextProgramId

variable {sha256 groth16 codec circuit} {p q : MadeProof} {output output' : ChainCircuitOutput σ}
  {next : ProgramId}

theorem nextHistoryRoot_eq_ok {name : String} {proof : ProofInput}
    (hproof : Holds sha256 groth16 proof p) (hown : OwnOutput codec p output) :
    circuit.nextHistoryRoot sha256 groth16 codec name proof next =
      .ok (circuit.nextRoots sha256 p output next) := by
  unfold nextHistoryRoot
  rw [hproof.1, hproof.2, hown.1]
  exact if_neg (not_not.mpr hown.2)

theorem nextRoots_self (hid : p.programId = next) : circuit.nextRoots sha256 p output next =
      (finalizeHistory sha256 circuit.programType output.programHistoryHash next,
        output.upgradeCheckpointHash) := by
  rw [nextRoots, nextHistory, if_pos hid, if_pos hid]

theorem ExtendedBy.keeps {α : Type} {f : σ → α}
    (hf : ∀ s batch s', circuit.apply s batch = some s' → f s' = f s)
    (hcodec : codec.RoundTrips) (h : circuit.ExtendedBy sha256 groth16 codec next p q)
    (hown : OwnOutput codec p output) (hown' : OwnOutput codec q output') :
    circuit.nextRoots sha256 q output' next = circuit.nextRoots sha256 p output next ∧
      f output'.chainState = f output.chainState := by
  induction h generalizing output' with
  | refl =>
    obtain rfl : output = output' := Option.some.inj (hown.1.symm.trans hown'.1)
    exact ⟨rfl, rfl⟩
  | tail _ step ih =>
    obtain ⟨hfollows, hnext⟩ := step
    obtain ⟨prev, hprev, hhistory, hcheckpoint, batch, hbatch⟩ := hfollows.reads hcodec hown'
    obtain ⟨hroots, hkept⟩ := ih hprev
    -- the step has put out what the tool works out for it
    rw [nextRoots_self hnext, hhistory, hcheckpoint, hnext, ← hroots, hf _ _ _ hbatch]
    exact ⟨rfl, hkept⟩

end BitvmNode.ChainCircuit

namespace BitvmNode.LightClient

open BitvmNode.HeaderChain BitvmNode.StateChain BitvmNode.ChainCircuit BitvmNode.CommitChain

section

variable (env : Env)

def nextHeaderHistoryRoot (proof : ProofInput) (nextProgramId : ProgramId) :
    Except String (Bytes32 × Bytes32) :=
  (headerChain env.header).nextHistoryRoot env.sha256 env.groth16 env.headerCodec "header" proof
    nextProgramId

def nextStateHistoryRoot (proof : ProofInput) (nextProgramId : ProgramId) :
    Except String (Bytes32 × Bytes32) :=
  (stateChain env.state).nextHistoryRoot env.sha256 env.groth16 env.stateCodec "state" proof
    nextProgramId

def initialAuthorizationRoots (headerProgramId stateProgramId : ProgramId) : Bytes32 × Bytes32 :=
  authorizationRoots env
    (finalizeHistory env.sha256 .header (initialHistory env.sha256 .header) headerProgramId, zero32)
    (finalizeHistory env.sha256 .state (initialHistory env.sha256 .state) stateProgramId, zero32)

def deriveAuthorizationRoots (headerProof stateProof : ProofInput)
    (nextHeaderProgramId nextStateProgramId : ProgramId) : Except String (Bytes32 × Bytes32) := do
  let header ← nextHeaderHistoryRoot env headerProof nextHeaderProgramId
  let state ← nextStateHistoryRoot env stateProof nextStateProgramId
  .ok (authorizationRoots env header state)

/-- However far the two programs extend the proofs, a commitment is accepted exactly if it is to
these roots, and the tool works out the same ones. -/
def KeepRoots (nextHeader nextState : ProgramId) (p q : MadeProof) (genesisEvmBlockHash : Bytes32)
    (roots : Bytes32 × Bytes32) : Prop :=
  ∀ p' q' header state, (headerChain env.header).ExtendedBy env.sha256 env.groth16 env.headerCodec
    nextHeader p p' →
    p'.programId = nextHeader → OwnOutput env.headerCodec p' header →
    (stateChain env.state).ExtendedBy env.sha256 env.groth16 env.stateCodec nextState q q' →
    q'.programId = nextState → OwnOutput env.stateCodec q' state →
    (∀ commit commitProgramId sequencerSetHash, (verifyCommitmentAuthorization env
        ⟨commit, header, state, nextHeader, nextState, commitProgramId⟩ commitProgramId
          sequencerSetHash).isSome ↔
      CommitsToRoots env commit commitProgramId nextHeader nextState sequencerSetHash
        genesisEvmBlockHash roots) ∧
    ∀ headerProof stateProof, Holds env.sha256 env.groth16 headerProof p' →
      Holds env.sha256 env.groth16 stateProof q' →
      deriveAuthorizationRoots env headerProof stateProof nextHeader nextState = .ok roots

variable {env} {p q : MadeProof} {header : BlockHeaderCircuitOutput}
  {state : StateChainCircuitOutput}
variable {nextHeader nextState : ProgramId}

theorem deriveAuthorizationRoots_eq_ok {headerProof stateProof : ProofInput}
    (hheader : Holds env.sha256 env.groth16 headerProof p)
    (hheaderOwn : OwnOutput env.headerCodec p header)
    (hstate : Holds env.sha256 env.groth16 stateProof q)
    (hstateOwn : OwnOutput env.stateCodec q state) :
    deriveAuthorizationRoots env headerProof stateProof nextHeader nextState =
      .ok (authorizationRoots env
          ((headerChain env.header).nextRoots env.sha256 p header nextHeader)
        ((stateChain env.state).nextRoots env.sha256 q state nextState)) := by
  rw [deriveAuthorizationRoots, nextHeaderHistoryRoot, nextStateHistoryRoot,
    nextHistoryRoot_eq_ok hheader hheaderOwn, nextHistoryRoot_eq_ok hstate hstateOwn]
  rfl

theorem keepRoots (hheaderCodec : env.headerCodec.RoundTrips)
    (hstateCodec : env.stateCodec.RoundTrips) (hheaderOwn : OwnOutput env.headerCodec p header)
    (hstateOwn : OwnOutput env.stateCodec q state) :
    KeepRoots env nextHeader nextState p q state.chainState.genesisEvmBlockHash
      (authorizationRoots env ((headerChain env.header).nextRoots env.sha256 p header nextHeader)
        ((stateChain env.state).nextRoots env.sha256 q state nextState)) := by
  intro p' q' header' state' hheader hheaderId hheaderOwn' hstate hstateId hstateOwn'
  have hgenesis : ∀ s batch s', (stateChain env.state).apply s batch = some s' →
      s'.genesisEvmBlockHash = s.genesisEvmBlockHash := by
    intro s batch s' happly
    induction batch generalizing s with
    | nil =>
      cases happly
      rfl
    | cons block blocks ih =>
      obtain ⟨t, hblock, hrest⟩ := foldlM_cons_some.mp happly
      obtain ⟨_, -, -, -, hkept, -⟩ := StateChainState.applyBlock_eq_some hblock
      exact (ih t hrest).trans hkept
  obtain ⟨hheaderRoots, -⟩ :=
    hheader.keeps (f := fun _ => ()) (fun _ _ _ _ => rfl) hheaderCodec hheaderOwn hheaderOwn'
  obtain ⟨hstateRoots, hsame⟩ := hstate.keeps hgenesis hstateCodec hstateOwn hstateOwn'
  rw [← hheaderRoots, ← hstateRoots, ← hsame]
  refine ⟨fun commit commitProgramId sequencerSetHash => ?_,
    fun headerProof stateProof hheaderProof hstateProof =>
    deriveAuthorizationRoots_eq_ok hheaderProof hheaderOwn' hstateProof hstateOwn'⟩
  rw [nextRoots_self hheaderId, nextRoots_self hstateId, Option.isSome_iff_exists]
  simp only [verifyCommitmentAuthorization_eq_some, hheaderOwn'.2.trans hheaderId,
    hstateOwn'.2.trans hstateId, true_and, exists_eq_left']
  rfl

/-- The roots that the tool publishes are those of every later proof of the programs it names, and
the initial roots are those of fresh chains. -/
theorem published_roots_kept (env : Env) (hheaderCodec : env.headerCodec.RoundTrips)
    (hstateCodec : env.stateCodec.RoundTrips) :
    (∀ headerProof stateProof p q header state nextHeader nextState,
      Holds env.sha256 env.groth16 headerProof p → OwnOutput env.headerCodec p header →
      Holds env.sha256 env.groth16 stateProof q →
      OwnOutput env.stateCodec q state →
      ∃ roots, deriveAuthorizationRoots env headerProof stateProof nextHeader nextState =
        .ok roots ∧
        KeepRoots env nextHeader nextState p q state.chainState.genesisEvmBlockHash roots) ∧
    ∀ p q header state, (headerChain env.header).Starts env.sha256 env.groth16 env.headerCodec p →
      OwnOutput env.headerCodec p header →
      (stateChain env.state).Starts env.sha256 env.groth16 env.stateCodec q →
      OwnOutput env.stateCodec q state →
      KeepRoots env p.programId q.programId p q state.chainState.genesisEvmBlockHash
        (initialAuthorizationRoots env p.programId q.programId) := by
  constructor
  · intro headerProof stateProof p q header state nextHeader nextState hheader hheaderOwn
      hstate hstateOwn
    exact ⟨_, deriveAuthorizationRoots_eq_ok hheader hheaderOwn hstate hstateOwn,
      keepRoots hheaderCodec hstateCodec hheaderOwn hstateOwn⟩
  · intro p q header state hheader hheaderOwn hstate hstateOwn
    have hkeep := @keepRoots env p q header state p.programId q.programId hheaderCodec hstateCodec
      hheaderOwn hstateOwn
    obtain ⟨hheaderHistory, hheaderCheckpoint⟩ := hheader.reads hheaderCodec hheaderOwn.1
    obtain ⟨hstateHistory, hstateCheckpoint⟩ := hstate.reads hstateCodec hstateOwn.1
    rw [nextRoots_self rfl, nextRoots_self rfl, hheaderHistory, hheaderCheckpoint, hstateHistory,
      hstateCheckpoint] at hkeep
    exact hkeep

end

namespace TwoBlocks

open StateChain.TwoBlocks

def headerOutput : BlockHeaderCircuitOutput :=
  ⟨ChainState.new env.header, programId Sha256.digest, initialHistory Sha256.digest .header, zero32⟩

def withHeader : Env := { env with headerCodec := .ofTable [([9], headerOutput)] }

theorem roots_kept :
    ∃ roots, ∀ n ∈ ([1, 2] : List UInt8), deriveAuthorizationRoots withHeader ⟨[], [9], [], ""⟩
    ⟨[], [n], [], ""⟩ (programId Sha256.digest) (programId Sha256.digest) = .ok roots := by
  have hheader : OwnOutput withHeader.headerCodec ⟨programId Sha256.digest, [9]⟩ headerOutput :=
    ⟨by simp [withHeader, OutputCodec.ofTable], rfl⟩
  have hsecond : (stateChain withHeader.state).Follows withHeader.sha256 withHeader.groth16
      withHeader.stateCodec first last := by
    cases honest.sequence with
    | next follows rest => exact follows rfl
  obtain ⟨roots, hroots, hkeep⟩ :=
    (published_roots_kept withHeader (OutputCodec.ofTable_roundTrips (by simp))
    (codec_roundTrips Sha256.digest 7)).1 ⟨[], [9], [], ""⟩ ⟨[], [1], [],
      ""⟩ _ _ _ _ (programId Sha256.digest) (programId Sha256.digest) ⟨rfl, rfl⟩ hheader ⟨rfl,
      rfl⟩ own_first
  have hagain := (hkeep _ _ _ _ .refl rfl hheader (.single ⟨hsecond, rfl⟩) rfl own_last).2
    ⟨[], [9], [], ""⟩ ⟨[], [2], [], ""⟩ ⟨rfl, rfl⟩ ⟨rfl, rfl⟩
  exact ⟨roots, List.forall_mem_cons.mpr ⟨hroots, List.forall_mem_singleton.mpr hagain⟩⟩

end TwoBlocks

end BitvmNode.LightClient
