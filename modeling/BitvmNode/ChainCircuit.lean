import BitvmNode.Reasoning.RecursiveProofs
import BitvmNode.Reasoning.Runs
import BitvmNode.Verifier

/-!
# Circuits that extend a chain by a batch

The header and the state chain circuit have one shape: start from a genesis state or from the output
of the previous proof, keep the history of programs, and apply a batch.  `none` stands for a panic.
-/

open BitvmNode.Reasoning BitvmNode.Verifier

namespace BitvmNode

inductive PrevProofType where
  | genesisBlock
  | prevProof

structure ChainCircuitInput (β : Type) where
  proof : ProofInput
  selfProgramId : ProgramId
  prevProof : PrevProofType
  batch : List β

structure ChainCircuitOutput (σ : Type) where
  chainState : σ
  selfProgramId : ProgramId
  (programHistoryHash upgradeCheckpointHash : Bytes32)
  deriving DecidableEq

structure OutputCodec (α : Type) where
  encode : α → Option Bytes
  decode : Bytes → Option α
  read : Bytes → Option α

structure OutputCodec.RoundTrips {α : Type} (codec : OutputCodec α) : Prop where
  decode_encode : ∀ output values, codec.encode output = some values →
    codec.decode values = some output
  read_encode : ∀ output values, codec.encode output = some values → codec.read values = some output

def OutputCodec.ofTable {α : Type} [DecidableEq α] (table : List (Bytes × α)) : OutputCodec α where
  encode output := (table.find? fun entry => entry.2 = output).map (·.1)
  decode values := (table.find? fun entry => entry.1 = values).map (·.2)
  read values := (table.find? fun entry => entry.1 = values).map (·.2)

theorem OutputCodec.ofTable_roundTrips {α : Type} [DecidableEq α] {table : List (Bytes × α)}
    (hkeys : (table.map (·.1)).Nodup) : (OutputCodec.ofTable table).RoundTrips := by
  have hread : ∀ output values, (OutputCodec.ofTable table).encode output = some values →
      (OutputCodec.ofTable table).decode values = some output := by
    intro output values h
    obtain ⟨entry, hentry, rfl⟩ := Option.map_eq_some_iff.mp h
    have hmem := List.mem_of_find?_eq_some hentry
    have houtput : entry.2 = output := by simpa using List.find?_some hentry
    obtain ⟨found, hfound⟩ : ∃ found, (table.find? fun e => e.1 = entry.1) = some found :=
      Option.isSome_iff_exists.mp (List.find?_isSome.mpr ⟨entry, hmem, by simp⟩)
    have hkey : found.1 = entry.1 := by simpa using List.find?_some hfound
    have hsame : found = entry :=
      List.inj_on_of_nodup_map hkeys (List.mem_of_find?_eq_some hfound) hmem hkey
    change Option.map _ (table.find? _) = _
    rw [hfound, Option.map_some, hsame, houtput]
  exact ⟨hread, hread⟩

structure ChainCircuit (σ β : Type) where
  programType : ProgramType
  genesis : List β → Option σ
  apply : σ → List β → Option σ

namespace ChainCircuit

variable {σ β : Type} (sha256 : Bytes → Bytes32) (groth16 : Groth16)
variable (codec : OutputCodec (ChainCircuitOutput σ)) (circuit : ChainCircuit σ β)

def start (input : ChainCircuitInput β) : Option (σ × Bytes32 × Bytes32) :=
  match input.prevProof with
  | .genesisBlock => do
      let chainState ← circuit.genesis input.batch
      some (chainState, initialHistory sha256 circuit.programType, zero32)
  | .prevProof => do
      let previousProgramId ← (verifyGroth16Proof sha256 groth16 input.proof).toOption
      let output ← codec.decode input.proof.zkmPublicValues
      guard (output.selfProgramId = previousProgramId)
      let history := nextHistory sha256 circuit.programType output.programHistoryHash
        previousProgramId input.selfProgramId
      let checkpoint :=
        if previousProgramId = input.selfProgramId then output.upgradeCheckpointHash
        else
          proofCheckpoint sha256 circuit.programType output.upgradeCheckpointHash previousProgramId
            input.selfProgramId input.proof.zkmPublicValues
      some (output.chainState, history, checkpoint)

def run (input : ChainCircuitInput β) : Option (ChainCircuitOutput σ) := do
  let (chainState, history, checkpoint) ← circuit.start sha256 groth16 codec input
  let chainState ← circuit.apply chainState input.batch
  some ⟨chainState, input.selfProgramId, history, checkpoint⟩

/-- The circuit as a program: it commits to its output, and relies on the previous proof only where
it verifies it. -/
def program : Program ProgramId Bytes where
  Input := ChainCircuitInput β
  commits input := circuit.run sha256 groth16 codec input >>= codec.encode
  verifies input :=
    match input.prevProof with
    | .genesisBlock => none
    | .prevProof => verifiedAs sha256 groth16 input.proof

def Reaches (batches : List (List β)) (s : σ) : Prop :=
  ∃ first rest s₀, batches = first :: rest ∧ circuit.genesis first = some s₀ ∧
    batches.foldlM circuit.apply s₀ = some s

theorem Reaches.snoc {circuit : ChainCircuit σ β} {batches : List (List β)}
    {batch : List β} {s s' : σ} (h : circuit.Reaches batches s)
    (hs : circuit.apply s batch = some s') :
    circuit.Reaches (batches ++ [batch]) s' := by
  obtain ⟨first, rest, s₀, rfl, hgenesis, hrun⟩ := h
  refine ⟨first, rest ++ [batch], s₀, rfl, hgenesis, ?_⟩
  rw [foldlM_append_some]
  refine ⟨s, hrun, ?_⟩
  rw [foldlM_cons_some]
  exact ⟨s', hs, rfl⟩

/-- The circuit has accepted the batches one after the other and put out `output` last: the first
run starts at a genesis, and each later one verifies a proof of the output before. -/
inductive Accepts : List (List β) → ChainCircuitOutput σ → Prop
  | genesis {input : ChainCircuitInput β} {output : ChainCircuitOutput σ}
      (starts : input.prevProof = .genesisBlock)
      (accepted : circuit.run sha256 groth16 codec input = some output) :
        Accepts [input.batch] output
  | next {batches : List (List β)} {previous output : ChainCircuitOutput σ}
      {input : ChainCircuitInput β} (earlier : Accepts batches previous)
      (follows : input.prevProof = .prevProof)
      (values : codec.encode previous = some input.proof.zkmPublicValues)
      (accepted : circuit.run sha256 groth16 codec input = some output) :
      Accepts (batches ++ [input.batch]) output

variable {sha256 : Bytes → Bytes32} {groth16 : Groth16}
variable {codec : OutputCodec (ChainCircuitOutput σ)} {circuit : ChainCircuit σ β}

theorem run_of_start {input : ChainCircuitInput β} {s t : σ} {history checkpoint : Bytes32}
    (hstart : circuit.start sha256 groth16 codec input = some (s, history, checkpoint))
    (happly : circuit.apply s input.batch = some t) :
    circuit.run sha256 groth16 codec input =
      some ⟨t, input.selfProgramId, history, checkpoint⟩ := by
  simp only [run, hstart, happly, Option.bind_eq_bind, Option.bind_some]

variable {output : ChainCircuitOutput σ}

theorem run_eq_some {input : ChainCircuitInput β}
    (h : circuit.run sha256 groth16 codec input = some output) :
    output.selfProgramId = input.selfProgramId ∧
      ((input.prevProof = .genesisBlock ∧ ∃ s₀, circuit.genesis input.batch = some s₀ ∧
          circuit.apply s₀ input.batch = some output.chainState ∧
          output.programHistoryHash = initialHistory sha256 circuit.programType ∧
          output.upgradeCheckpointHash = zero32) ∨
        ∃ previous prev, input.prevProof = .prevProof ∧
          verifyGroth16Proof sha256 groth16 input.proof = .ok previous ∧
          codec.decode input.proof.zkmPublicValues = some prev ∧ prev.selfProgramId = previous ∧
          circuit.apply prev.chainState input.batch = some output.chainState ∧
          output.programHistoryHash = nextHistory sha256 circuit.programType
            prev.programHistoryHash previous input.selfProgramId ∧
          output.upgradeCheckpointHash =
            if previous = input.selfProgramId then prev.upgradeCheckpointHash
            else
              proofCheckpoint sha256 circuit.programType prev.upgradeCheckpointHash previous
                input.selfProgramId input.proof.zkmPublicValues) := by
  simp only [run, Option.bind_eq_bind, Option.bind_eq_some_iff] at h
  obtain ⟨⟨s₀, history, checkpoint⟩, hstart, s, hs, hout⟩ := h
  cases hout
  refine ⟨rfl, ?_⟩
  unfold start at hstart
  cases hprev : input.prevProof with
  | genesisBlock =>
    left
    simp only [hprev, Option.bind_eq_bind, Option.bind_eq_some_iff, Option.some.injEq] at hstart
    obtain ⟨s₁, hgenesis, heq⟩ := hstart
    cases heq
    exact ⟨rfl, s₀, hgenesis, hs, rfl, rfl⟩
  | prevProof =>
    right
    simp only [hprev, Option.bind_eq_bind, Option.bind_eq_some_iff] at hstart
    obtain ⟨previous, hverify, prev, hdecode, _, hguard, heq⟩ := hstart
    cases heq
    exact ⟨previous, prev, rfl, except_toOption_eq_some.mp hverify, hdecode,
      guard_eq_some.mp hguard, hs, rfl, rfl⟩

theorem Accepts.reaches (hcodec : codec.RoundTrips) {batches : List (List β)}
    (h : circuit.Accepts sha256 groth16 codec batches output) :
    circuit.Reaches batches output.chainState := by
  induction h with
  | @genesis input output starts accepted =>
    obtain ⟨-, ⟨-, s₀, hgenesis, happly, -⟩ | ⟨_, _, hprev, -⟩⟩ := run_eq_some accepted
    · refine ⟨input.batch, [], s₀, rfl, hgenesis, ?_⟩
      rw [foldlM_cons_some]
      exact ⟨_, happly, rfl⟩
    · cases starts.symm.trans hprev
  | @next batches previous output input _ follows values accepted ih =>
    obtain ⟨-, ⟨hgenesis, -⟩ | ⟨_, prev, -, -, hdecode, -, happly, -⟩⟩ := run_eq_some accepted
    · cases follows.symm.trans hgenesis
    · -- the output that is read back is the one that was written
      obtain rfl : previous = prev := by
        rw [hcodec.decode_encode _ _ values] at hdecode
        exact Option.some.inj hdecode
      exact ih.snoc happly

variable (sha256 groth16 codec circuit)

def HistoryCollision (programs : ProgramId → Program ProgramId Bytes) (older : List ProgramId) :
    Prop :=
  ∃ id values prev, Made programs id values ∧ codec.decode values = some prev ∧
    ∃ x ∈ historyStrings sha256 circuit.programType older,
      x ≠ historyStep circuit.programType prev.programHistoryHash id ∧
        sha256 x = sha256 (historyStep circuit.programType prev.programHistoryHash id)

variable {sha256 codec circuit}
  {programs : ProgramId → Program ProgramId Bytes} {older : List ProgramId}

theorem HistoryCollision.cons {p : ProgramId}
    (h : HistoryCollision sha256 codec circuit programs older) :
    HistoryCollision sha256 codec circuit programs (p :: older) := by
  obtain ⟨id, values, prev, hmade, hdecode, x, hx, hne, heq⟩ := h
  exact ⟨id, values, prev, hmade, hdecode, x, List.mem_cons_of_mem _ hx, hne, heq⟩

variable {id : ProgramId}

theorem decode_of_read {values : Bytes} (hcodec : codec.RoundTrips)
    (hmade : Made programs id values)
    (hprogram : programs id = circuit.program sha256 groth16 codec)
    (hread : codec.read values = some output) :
    codec.decode values = some output := by
  refine Made.rule (fun id values => programs id = circuit.program sha256 groth16 codec →
    codec.read values = some output → codec.decode values = some output) ?_ hmade hprogram hread
  intro id values program hprogram' input hcommit _ hprogram hread
  obtain rfl : program = circuit.program sha256 groth16 codec := hprogram'.symm.trans hprogram
  obtain ⟨written, -, hencode⟩ := Option.bind_eq_some_iff.mp hcommit
  rw [hcodec.decode_encode _ _ hencode, ← hread, hcodec.read_encode _ _ hencode]

/-- A proof by a program of the chain, whose history is one of such programs only, is about a state
that batches reach from a genesis, up to collisions in the history. -/
theorem reaches_of_made {values : Bytes} (hcodec : codec.RoundTrips)
    (hmade : Made programs id values)
    (hprogram : programs id = circuit.program sha256 groth16 codec)
    (hdecode : codec.decode values = some output) (hself : output.selfProgramId = id)
    (holder : ∀ p ∈ older, programs p = circuit.program sha256 groth16 codec)
    (hhistory : output.programHistoryHash = historyOf sha256 circuit.programType older) :
    (∃ batches, circuit.Reaches batches output.chainState) ∨
    HistoryCollision sha256 codec circuit programs older := by
  -- induction over the earlier proofs; `older` shrinks where the program changes
  refine Made.rule (fun id values => programs id = circuit.program sha256 groth16 codec →
    ∀ output, codec.decode values = some output → output.selfProgramId = id →
    ∀ older, (∀ p ∈ older, programs p = circuit.program sha256 groth16 codec) →
    output.programHistoryHash = historyOf sha256 circuit.programType older →
    (∃ batches, circuit.Reaches batches output.chainState) ∨
      HistoryCollision sha256 codec circuit programs older)
    ?_ hmade hprogram output hdecode hself older holder hhistory
  intro id values program hprogram' input hcommit hearlier hprogram output hdecode hself older
    holder hhistory
  obtain rfl : program = circuit.program sha256 groth16 codec := hprogram'.symm.trans hprogram
  obtain ⟨output', hrun, hencode⟩ := Option.bind_eq_some_iff.mp hcommit
  obtain rfl : output' = output := by
    rw [hcodec.decode_encode _ _ hencode] at hdecode
    exact Option.some.inj hdecode
  obtain ⟨hid, hcases⟩ := run_eq_some hrun
  rw [hself] at hid
  rcases hcases with ⟨-, s₀, hgenesis, happly, -⟩ |
    ⟨previous, prev, hprevProof, hverify, hprevDecode, hprevSelf, happly, hnext, -⟩
  · refine Or.inl ⟨[input.batch], input.batch, [], s₀, rfl, hgenesis, ?_⟩
    rw [foldlM_cons_some]
    exact ⟨_, happly, rfl⟩
  · have hverifies : (circuit.program sha256 groth16 codec).verifies input =
        some (previous, input.proof.zkmPublicValues) := by
      simp only [ChainCircuit.program, hprevProof, verifiedAs_of_ok _ _ hverify]
    obtain ⟨hprevMade, ih⟩ := hearlier _ _ hverifies
    have extend {older' : List ProgramId} (hprevProgram : programs previous =
          circuit.program sha256 groth16 codec)
        (holder' : ∀ p ∈ older', programs p = circuit.program sha256 groth16 codec)
        (hprevHistory : prev.programHistoryHash = historyOf sha256 circuit.programType older') :
        (∃ batches, circuit.Reaches batches output'.chainState) ∨
          HistoryCollision sha256 codec circuit programs older' := by
      rcases ih hprevProgram prev hprevDecode hprevSelf older' holder' hprevHistory with ⟨batches,
        hreach⟩ | hcol
      · exact Or.inl ⟨_, hreach.snoc happly⟩
      · exact Or.inr hcol
    rw [hnext] at hhistory
    rcases nextHistory_eq_historyOf sha256 hhistory with
      ⟨hsame, hprevHistory⟩ | ⟨rest, rfl, hprevHistory⟩ | ⟨x, hx, hne, heq⟩
    · refine extend ?_ holder hprevHistory
      rw [hsame, ← hid, hprogram]
    · rcases extend (holder previous List.mem_cons_self)
        (fun p hp => holder p (List.mem_cons_of_mem _ hp)) hprevHistory with hreach | hcol
      · exact Or.inl hreach
      · exact Or.inr hcol.cons
    · exact Or.inr ⟨previous, _, prev, hprevMade, hprevDecode, x, hx, hne, heq⟩

theorem reaches_of_verified {proof : ProofInput} (hcodec : codec.RoundTrips)
    (hsound : SoundVerifier (verifiedAs sha256 groth16) programs)
    (hverify : verifyGroth16Proof sha256 groth16 proof = .ok id)
    (hread : codec.read proof.zkmPublicValues = some output) (hself : output.selfProgramId = id)
    (hprograms : ∀ p ∈ id :: older, programs p = circuit.program sha256 groth16 codec)
    (hhistory : output.programHistoryHash = historyOf sha256 circuit.programType older) :
    (∃ batches, circuit.Reaches batches output.chainState) ∨
    HistoryCollision sha256 codec circuit programs older := by
  have hmade := hsound _ _ _ (verifiedAs_of_ok _ _ hverify)
  have hprogram := hprograms id List.mem_cons_self
  have hdecode := decode_of_read groth16 hcodec hmade hprogram hread
  exact reaches_of_made groth16 hcodec hmade hprogram hdecode hself
    (fun p hp => hprograms p (List.mem_cons_of_mem _ hp)) hhistory

end ChainCircuit

end BitvmNode
