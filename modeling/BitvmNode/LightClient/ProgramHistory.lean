import Mathlib.Data.List.Destutter
import BitvmNode.LightClient.Propose
import BitvmNode.StateChain.Linkage

/-!
# What a finalized history says of the programs that were run

The proofs of a chain verify each other.  A program that is not one of the chain's may claim any
history and any checkpoint; its id, however, enters the history as soon as a program of the chain
goes on from it.
-/

open BitvmNode.Reasoning BitvmNode.Verifier

namespace BitvmNode.ChainCircuit

structure MadeProof where
  programId : ProgramId
  values : Bytes

variable {σ β : Type} (sha256 : Bytes → Bytes32) (groth16 : Groth16)
variable (codec : OutputCodec (ChainCircuitOutput σ)) (circuit : ChainCircuit σ β)

def Starts (p : MadeProof) : Prop :=
  ∃ input output, input.prevProof = .genesisBlock ∧
    circuit.run sha256 groth16 codec input = some output ∧ codec.encode output = some p.values

def Follows (q p : MadeProof) : Prop :=
  ∃ input output, input.prevProof = .prevProof ∧ verifyGroth16Proof sha256 groth16 input.proof =
    .ok q.programId ∧
    input.proof.zkmPublicValues = q.values ∧
    circuit.run sha256 groth16 codec input = some output ∧ codec.encode output = some p.values

variable (honest : ProgramId → Prop)

/-- Proofs of which each was made on the one before, the last one first.  What programs other than
the honest ones put out is arbitrary. -/
inductive Sequence : List MadeProof → Prop
  | first {p : MadeProof} (starts : honest p.programId → circuit.Starts sha256 groth16 codec p) :
      Sequence [p]
  | next {p q : MadeProof} {earlier : List MadeProof}
      (follows : honest p.programId → circuit.Follows sha256 groth16 codec q p)
      (rest : Sequence (q :: earlier)) : Sequence (p :: q :: earlier)

def OwnOutput (p : MadeProof) (output : ChainCircuitOutput σ) : Prop :=
  codec.decode p.values = some output ∧ output.selfProgramId = p.programId

structure HonestSequence (proofs : List MadeProof) : Prop where
  sequence : circuit.Sequence sha256 groth16 codec honest proofs
  honest : ∀ p ∈ proofs, honest p.programId
  own : ∀ p ∈ proofs, ∃ output, OwnOutput codec p output

def programsOf (proofs : List MadeProof) : List ProgramId :=
  (proofs.map (·.programId)).destutter (· ≠ ·)

def upgradesOf : List MadeProof → List Upgrade
  | p :: q :: earlier =>
      if p.programId = q.programId then upgradesOf (q :: earlier)
      else ⟨q.programId, p.programId, q.values⟩ :: upgradesOf (q :: earlier)
  | _ => []

def stepStrings (p q : MadeProof) : List Bytes :=
  match codec.decode q.values with
  | some output =>
      [historyStep circuit.programType output.programHistoryHash q.programId,
        checkpointString sha256 circuit.programType output.upgradeCheckpointHash ⟨q.programId,
          p.programId, q.values⟩,
        q.values]
  | none => []

def hashedStrings : List MadeProof → List Bytes
  | p :: q :: earlier => circuit.stepStrings sha256 codec p q ++ hashedStrings (q :: earlier)
  | _ => [historySeedTag ++ [circuit.programType.toU8]]

section

variable {sha256 groth16 codec circuit}
variable {p q : MadeProof} {output : ChainCircuitOutput σ}

theorem Starts.reads (hcodec : codec.RoundTrips) (h : circuit.Starts sha256 groth16 codec p)
    (hread : codec.decode p.values = some output) :
    output.programHistoryHash = initialHistory sha256 circuit.programType ∧
    output.upgradeCheckpointHash = zero32 := by
  obtain ⟨input, written, hgenesis, hrun, hencode⟩ := h
  obtain rfl : written = output := by
    rw [hcodec.decode_encode _ _ hencode] at hread
    exact Option.some.inj hread
  obtain ⟨-, ⟨-, _, -, -, hhistory, hcheckpoint⟩ | ⟨_, _, hprev, -⟩⟩ := run_eq_some hrun
  · exact ⟨hhistory, hcheckpoint⟩
  · cases hgenesis.symm.trans hprev

theorem Follows.reads (hcodec : codec.RoundTrips) (h : circuit.Follows sha256 groth16 codec q p)
    (hown : OwnOutput codec p output) : ∃ prev, OwnOutput codec q prev ∧
      output.programHistoryHash = nextHistory sha256 circuit.programType prev.programHistoryHash
        q.programId p.programId ∧
      (output.upgradeCheckpointHash =
        if q.programId = p.programId then prev.upgradeCheckpointHash
        else
          sha256 (checkpointString sha256 circuit.programType prev.upgradeCheckpointHash
            ⟨q.programId, p.programId, q.values⟩)) ∧
      ∃ batch, circuit.apply prev.chainState batch = some output.chainState := by
  obtain ⟨hread, hself⟩ := hown
  obtain ⟨input, written, hprevProof, hverify, hvalues, hrun, hencode⟩ := h
  obtain rfl : written = output := by
    rw [hcodec.decode_encode _ _ hencode] at hread
    exact Option.some.inj hread
  obtain ⟨hid, ⟨hgenesis, -⟩ | ⟨previous, prev, -, hverify', hdecode, hprevSelf, happly, hhistory,
    hcheckpoint⟩⟩ := run_eq_some hrun
  · cases hprevProof.symm.trans hgenesis
  · obtain rfl : q.programId = previous := by
      rw [hverify] at hverify'
      exact Except.ok.inj hverify'
    rw [hvalues] at hdecode hcheckpoint
    rw [← hid, hself] at hhistory hcheckpoint
    exact ⟨prev, ⟨hdecode, hprevSelf⟩, hhistory, hcheckpoint, _, happly⟩

theorem mem_stepStrings (hread : codec.decode q.values = some output) :
    historyStep circuit.programType output.programHistoryHash q.programId ∈
      circuit.stepStrings sha256 codec p q ∧
      checkpointString sha256 circuit.programType output.upgradeCheckpointHash
        ⟨q.programId, p.programId, q.values⟩ ∈ circuit.stepStrings sha256 codec p q ∧
      q.values ∈ circuit.stepStrings sha256 codec p q := by
  simp [stepStrings, hread]

variable {earlier : List MadeProof}

theorem programsOf_cons_cons : programsOf (p :: q :: earlier) =
      if p.programId = q.programId then programsOf (q :: earlier)
      else p.programId :: programsOf (q :: earlier) := by
  by_cases hsame : p.programId = q.programId
  · simp [programsOf, List.destutter_cons', hsame]
  · simp [programsOf, List.destutter_cons', hsame]

theorem programsOf_cons : ∃ older, programsOf (p :: earlier) = p.programId :: older := by
  induction earlier generalizing p with
  | nil => exact ⟨[], rfl⟩
  | cons q earlier ih =>
    rw [programsOf_cons_cons]
    by_cases hsame : p.programId = q.programId
    · rw [if_pos hsame, hsame]
      exact ih
    · rw [if_neg hsame]
      exact ⟨_, rfl⟩

theorem length_upgradesOf :
    (upgradesOf (p :: earlier)).length + 1 = (programsOf (p :: earlier)).length := by
  induction earlier generalizing p with
  | nil => rfl
  | cons q earlier ih =>
    rw [programsOf_cons_cons, upgradesOf]
    by_cases hsame : p.programId = q.programId
    · rw [if_pos hsame, if_pos hsame, ih]
    · rw [if_neg hsame, if_neg hsame, List.length_cons, List.length_cons, ih]

theorem mem_programsOf {proofs : List MadeProof} {id : ProgramId} (h : id ∈ programsOf proofs) :
    ∃ p ∈ proofs, p.programId = id :=
  List.mem_map.mp ((List.destutter_sublist _ _).subset h)

end

section

variable {sha256 groth16 codec circuit honest}
variable {p : MadeProof} {earlier : List MadeProof} {output : ChainCircuitOutput σ}

theorem HonestSequence.starts {proofs : List MadeProof}
    (h : circuit.HonestSequence sha256 groth16 codec honest proofs) :
    ∃ first, proofs.getLast? = some first ∧ circuit.Starts sha256 groth16 codec first := by
  obtain ⟨hsequence, hhonest, -⟩ := h
  induction hsequence with
  | @first p starts => exact ⟨p, rfl, starts (hhonest p List.mem_cons_self)⟩
  | @next p q earlier _ _ ih =>
    exact ih fun r hr => hhonest r (List.mem_cons_of_mem _ hr)

theorem HonestSequence.reads (hcodec : codec.RoundTrips)
    (h : circuit.HonestSequence sha256 groth16 codec honest (p :: earlier))
    (hown : OwnOutput codec p output) {older : List ProgramId}
    (holder : programsOf (p :: earlier) = p.programId :: older) :
    output.programHistoryHash = historyOf sha256 circuit.programType older ∧
      historyStrings sha256 circuit.programType older ⊆
        circuit.hashedStrings sha256 codec (p :: earlier) ∧
      output.upgradeCheckpointHash = checkpointOf sha256 circuit.programType
        (upgradesOf (p :: earlier)) ∧
      checkpointStrings sha256 circuit.programType (upgradesOf (p :: earlier)) ⊆
        circuit.hashedStrings sha256 codec (p :: earlier) := by
  induction earlier generalizing p output older with
  | nil =>
    obtain ⟨hhistory, hcheckpoint⟩ : _ ∧ _ := by
      cases h.sequence with
      | first starts => exact (starts (h.honest p List.mem_cons_self)).reads hcodec hown.1
    cases holder
    exact ⟨hhistory, fun x hx => hx, hcheckpoint, List.nil_subset _⟩
  | cons q earlier ih =>
    cases h.sequence with
    | next follows rest =>
      obtain ⟨prev, hprevOwn, hhistory, hcheckpoint, -⟩ :=
        (follows (h.honest p List.mem_cons_self)).reads hcodec hown
      have hprev : circuit.HonestSequence sha256 groth16 codec honest (q :: earlier) :=
        ⟨rest, fun r hr => h.honest r (List.mem_cons_of_mem _ hr),
          fun r hr => h.own r (List.mem_cons_of_mem _ hr)⟩
      obtain ⟨before, hbefore⟩ := @programsOf_cons q earlier
      obtain ⟨hprevHistory, hprevStrings, hprevCheckpoint, hprevCheckpoints⟩ :=
        ih hprev hprevOwn hbefore
      obtain ⟨hstep, hupgrade, hvalues⟩ := mem_stepStrings (p := p) hprevOwn.1
      rw [programsOf_cons_cons] at holder
      rw [upgradesOf, hashedStrings]
      by_cases hsame : p.programId = q.programId
      · -- the program is unchanged: nothing is added
        rw [if_pos hsame, hbefore, hsame] at holder
        obtain rfl := (List.cons.inj holder).2
        rw [if_pos hsame.symm] at hcheckpoint
        rw [nextHistory, if_pos hsame.symm] at hhistory
        rw [if_pos hsame, hhistory, hcheckpoint]
        exact ⟨hprevHistory, fun x hx => List.mem_append_right _ (hprevStrings hx), hprevCheckpoint,
          fun x hx => List.mem_append_right _ (hprevCheckpoints hx)⟩
      · have hother : ¬ q.programId = p.programId := fun heq => hsame heq.symm
        rw [if_neg hsame, hbefore] at holder
        obtain rfl := (List.cons.inj holder).2
        rw [if_neg hother] at hcheckpoint
        rw [nextHistory, if_neg hother] at hhistory
        rw [if_neg hsame, hhistory, hcheckpoint, hprevHistory, hprevCheckpoint]
        rw [hprevHistory] at hstep
        rw [hprevCheckpoint] at hupgrade
        refine ⟨rfl, ?_, rfl, ?_⟩
        · intro x hx
          rcases List.mem_cons.mp hx with rfl | hx
          · exact List.mem_append_left _ hstep
          · exact List.mem_append_right _ (hprevStrings hx)
        · intro x hx
          rcases List.mem_cons.mp hx with rfl | hx
          · exact List.mem_append_left _ hupgrade
          · rcases List.mem_cons.mp hx with rfl | hx
            · exact List.mem_append_left _ hvalues
            · exact List.mem_append_right _ (hprevCheckpoints hx)

/-- A sequence that ends in an honest program with the history of honest programs is one of these
programs, up to a collision. -/
theorem Sequence.honest_of_history (hcodec : codec.RoundTrips)
    (h : circuit.Sequence sha256 groth16 codec honest (p :: earlier))
    (hown : OwnOutput codec p output) (hhonest : honest p.programId) {older : List ProgramId}
    (holder : ∀ id ∈ older, honest id)
    (hhistory : output.programHistoryHash = historyOf sha256 circuit.programType older) :
    (circuit.HonestSequence sha256 groth16 codec honest (p :: earlier) ∧
        programsOf (p :: earlier) = p.programId :: older) ∨
      CollisionIn sha256 (circuit.hashedStrings sha256 codec (p :: earlier) ++
        historyStrings sha256 circuit.programType older) := by
  induction earlier generalizing p output older with
  | nil =>
    have hstart : output.programHistoryHash = initialHistory sha256 circuit.programType := by
      cases h with
      | first starts => exact ((starts hhonest).reads hcodec hown.1).1
    cases older with
    | nil =>
      left
      refine ⟨⟨h, ?_, ?_⟩, rfl⟩
      · intro r hr
        rw [List.mem_singleton.mp hr]
        exact hhonest
      · intro r hr
        rw [List.mem_singleton.mp hr]
        exact ⟨output, hown⟩
    | cons last older =>
      -- the seed and a step are strings of different lengths
      right
      refine ⟨historySeedTag ++ [circuit.programType.toU8], by simp [hashedStrings],
        historyStep circuit.programType (historyOf sha256 circuit.programType older) last,
        by simp [historyStrings], historyStep_ne_seed, ?_⟩
      rw [hstart] at hhistory
      simpa [initialHistory, taggedHash, historyOf] using hhistory
  | cons q earlier ih =>
    cases h with
    | next follows rest =>
      obtain ⟨prev, hprevOwn, hnext, -⟩ := (follows hhonest).reads hcodec hown
      have extend {before : List ProgramId} (hprevHonest : honest q.programId)
          (hbefore : ∀ id ∈ before, honest id)
          (hprev : prev.programHistoryHash = historyOf sha256 circuit.programType before) :
          (circuit.HonestSequence sha256 groth16 codec honest (p :: q :: earlier) ∧
              programsOf (q :: earlier) = q.programId :: before) ∨
            CollisionIn sha256 (circuit.hashedStrings sha256 codec (p :: q :: earlier) ++
              historyStrings sha256 circuit.programType before) := by
        rcases ih rest hprevOwn hprevHonest hbefore hprev with ⟨hseq, hprograms⟩ | hcollision
        · left
          refine ⟨⟨.next follows rest, ?_, ?_⟩, hprograms⟩
          · exact List.forall_mem_cons.mpr ⟨hhonest, hseq.honest⟩
          · exact List.forall_mem_cons.mpr ⟨⟨output, hown⟩, hseq.own⟩
        · right
          refine hcollision.mono ?_
          intro x hx
          rw [hashedStrings, List.append_assoc]
          exact List.mem_append_right _ hx
      rw [hnext] at hhistory
      rw [programsOf_cons_cons]
      by_cases hsame : p.programId = q.programId
      · rw [nextHistory, if_pos hsame.symm] at hhistory
        rw [if_pos hsame, hsame]
        exact extend (hsame ▸ hhonest) holder hhistory
      · rw [if_neg hsame]
        rcases nextHistory_eq_historyOf sha256 hhistory with
          ⟨heq, -⟩ | ⟨before, rfl, hprev⟩ | ⟨x, hx, hne, heq⟩
        · exact absurd heq.symm hsame
        · rcases extend (holder q.programId List.mem_cons_self)
            (fun id hid => holder id (List.mem_cons_of_mem _ hid)) hprev with ⟨hseq,
              hprograms⟩ | hcollision
          · left
            exact ⟨hseq, by rw [hprograms]⟩
          · right
            refine hcollision.mono ?_
            intro x hx
            rcases List.mem_append.mp hx with hx | hx
            · exact List.mem_append_left _ hx
            · exact List.mem_append_right _ (List.mem_cons_of_mem _ hx)
        · right
          refine ⟨x, List.mem_append_right _ hx, _, ?_, hne, heq⟩
          exact List.mem_append_left _ (List.mem_append_left _ (mem_stepStrings hprevOwn.1).1)

theorem sequence_of_made {programs : ProgramId → Program ProgramId Bytes} {id : ProgramId}
    {values : Bytes} (hmade : Made programs id values) :
    ∃ earlier, circuit.Sequence sha256 groth16 codec
      (fun id => programs id = circuit.program sha256 groth16 codec) (⟨id, values⟩ :: earlier) := by
  refine Made.rule (fun id values => ∃ earlier, circuit.Sequence sha256 groth16 codec
    (fun id => programs id = circuit.program sha256 groth16 codec)
      (⟨id, values⟩ :: earlier)) ?_ hmade
  intro id values program hprogram input hcommit hearlier
  by_cases hhonest : programs id = circuit.program sha256 groth16 codec
  · obtain rfl : program = circuit.program sha256 groth16 codec := hprogram.symm.trans hhonest
    obtain ⟨output, hrun, hencode⟩ := Option.bind_eq_some_iff.mp hcommit
    obtain ⟨-, ⟨hgenesis, -⟩ | ⟨previous, prev, hprev, hverify, -⟩⟩ := run_eq_some hrun
    · exact ⟨[], .first fun _ => ⟨input, output, hgenesis, hrun, hencode⟩⟩
    · have hverifies : (circuit.program sha256 groth16 codec).verifies input =
          some (previous, input.proof.zkmPublicValues) := by
        simp only [ChainCircuit.program, hprev, verifiedAs_of_ok _ _ hverify]
      obtain ⟨-, earlier, hsequence⟩ := hearlier _ _ hverifies
      exact ⟨⟨previous, input.proof.zkmPublicValues⟩ :: earlier,
        .next (fun _ => ⟨input, output, hprev, hverify, rfl, hrun, hencode⟩) hsequence⟩
  · exact ⟨[], .first fun h => absurd h hhonest⟩

end

def finalString (p : MadeProof) (output : ChainCircuitOutput σ) : Bytes :=
  historyFinalTag ++ [[circuit.programType.toU8], output.programHistoryHash.toList,
    p.programId.toList].flatten

/-- A sequence whose finalized history is that of an honest one has the same programs, from a
genesis on, and carries the same values from one to the other if the checkpoints are the same; or
two of the strings that are hashed collide. -/
def BindsHistory : Prop :=
  ∀ (p p' : MadeProof) (earlier earlier' : List MadeProof) (output output' : ChainCircuitOutput σ),
    circuit.Sequence sha256 groth16 codec honest (p :: earlier) → OwnOutput codec p output →
    circuit.HonestSequence sha256 groth16 codec honest (p' :: earlier') →
      OwnOutput codec p' output' →
    finalizeHistory sha256 circuit.programType output.programHistoryHash p.programId =
      finalizeHistory sha256 circuit.programType output'.programHistoryHash p'.programId →
    (programsOf (p :: earlier) = programsOf (p' :: earlier') ∧
        (∃ first, (p :: earlier).getLast? = some first ∧
          circuit.Starts sha256 groth16 codec first) ∧
        (output.upgradeCheckpointHash = output'.upgradeCheckpointHash →
          upgradesOf (p :: earlier) = upgradesOf (p' :: earlier'))) ∨
      CollisionIn sha256
        (circuit.finalString p output :: circuit.hashedStrings sha256 codec (p :: earlier) ++
          circuit.finalString p' output' :: circuit.hashedStrings sha256 codec (p' :: earlier'))

/-- A proof that verifies has been made at the end of a sequence in which the programs of the chain
are the honest ones, if the verifier is sound. -/
def CoversVerified : Prop :=
  ∀ programs, SoundVerifier (verifiedAs sha256 groth16) programs → ∀ proof id,
    verifyGroth16Proof sha256 groth16 proof = .ok id →
    ∃ earlier, circuit.Sequence sha256 groth16 codec (fun id => programs id =
        circuit.program sha256 groth16 codec)
      (⟨id, proof.zkmPublicValues⟩ :: earlier)

variable {sha256 groth16 codec circuit honest}

theorem bindsHistory (hcodec : codec.RoundTrips) :
    circuit.BindsHistory sha256 groth16 codec honest := by
  intro p p' earlier earlier' output output' hsequence hown hhonest hown' hfinal
  by_cases hcollision : CollisionIn sha256
      (circuit.finalString p output :: circuit.hashedStrings sha256 codec (p :: earlier) ++
        circuit.finalString p' output' :: circuit.hashedStrings sha256 codec (p' :: earlier'))
  · exact Or.inr hcollision
  left
  -- from here on the strings that occur do not collide
  obtain ⟨hhistory, hid⟩ :
      output.programHistoryHash = output'.programHistoryHash ∧ p.programId = p'.programId := by
    rcases eq_or_collision sha256 hfinal with hstring | hcol
    · exact finalizeHistory_inj hstring
    · refine absurd (hcol.mono ?_) hcollision
      simp [finalString]
  obtain ⟨older, holder⟩ := @programsOf_cons p' earlier'
  obtain ⟨hhistory', hstrings', hcheckpoint', hcheckpoints'⟩ := hhonest.reads hcodec hown' holder
  have honestOf : ∀ id ∈ programsOf (p' :: earlier'), honest id := by
    intro id hmem
    obtain ⟨r, hr, rfl⟩ := mem_programsOf hmem
    exact hhonest.honest r hr
  rw [holder] at honestOf
  obtain ⟨hhonest', holder'⟩ := List.forall_mem_cons.mp honestOf
  rcases hsequence.honest_of_history hcodec hown (hid ▸ hhonest') holder'
    (hhistory.trans hhistory') with ⟨hsame, hprograms⟩ | hcol
  · obtain ⟨-, -, hcheckpoint, hcheckpoints⟩ := hsame.reads hcodec hown hprograms
    have hequal : programsOf (p :: earlier) = programsOf (p' :: earlier') := by
      rw [hprograms, holder, hid]
    refine ⟨hequal, hsame.starts, ?_⟩
    intro heq
    have hlen : (upgradesOf (p :: earlier)).length = (upgradesOf (p' :: earlier')).length := by
      have h1 := @length_upgradesOf p earlier
      have h2 := @length_upgradesOf p' earlier'
      rw [hequal] at h1
      omega
    rw [hcheckpoint, hcheckpoint'] at heq
    rcases checkpointOf_inj sha256 hlen heq with hupgrades | hcol
    · exact hupgrades
    · refine absurd (hcol.mono ?_) hcollision
      intro x hx
      rcases List.mem_append.mp hx with hx | hx
      · exact List.mem_append_left _ (List.mem_cons_of_mem _ (hcheckpoints hx))
      · exact List.mem_append_right _ (List.mem_cons_of_mem _ (hcheckpoints' hx))
  · refine absurd (hcol.mono ?_) hcollision
    intro x hx
    rcases List.mem_append.mp hx with hx | hx
    · exact List.mem_append_left _ (List.mem_cons_of_mem _ hx)
    · exact List.mem_append_right _ (List.mem_cons_of_mem _ (hstrings' hx))

theorem coversVerified : circuit.CoversVerified sha256 groth16 codec := by
  intro programs hsound proof id hverify
  exact sequence_of_made (hsound _ _ _ (verifiedAs_of_ok _ _ hverify))

end BitvmNode.ChainCircuit

namespace BitvmNode.LightClient

open BitvmNode.HeaderChain BitvmNode.StateChain BitvmNode.ChainCircuit

theorem historyOf_types_differ {sha256 : Bytes → Bytes32} {older older' : List ProgramId}
    (h : historyOf sha256 .header older = historyOf sha256 .state older') : CollisionIn sha256
      (historyStrings sha256 .header older ++ historyStrings sha256 .state older') := by
  -- either history is the hash of the first of its strings
  cases older with
  | nil =>
    cases older' with
    | nil =>
      refine ⟨historySeedTag ++ [ProgramType.header.toU8], by simp [historyStrings],
        historySeedTag ++ [ProgramType.state.toU8], by simp [historyStrings], types_differ, ?_⟩
      simpa [historyOf, initialHistory, taggedHash] using h
    | cons last' older' =>
      refine ⟨historySeedTag ++ [ProgramType.header.toU8], by simp [historyStrings],
        historyStep .state (historyOf sha256 .state older') last', by simp [historyStrings],
        historyStep_ne_seed, ?_⟩
      simpa [historyOf, initialHistory, taggedHash] using h
  | cons last older =>
    cases older' with
    | nil =>
      refine ⟨historyStep .header (historyOf sha256 .header older) last, by simp [historyStrings],
        historySeedTag ++ [ProgramType.state.toU8], by simp [historyStrings],
        historyStep_ne_seed.symm, ?_⟩
      simpa [historyOf, initialHistory, taggedHash] using h
    | cons last' older' =>
      exact ⟨historyStep .header (historyOf sha256 .header older) last, by simp [historyStrings],
        historyStep .state (historyOf sha256 .state older') last', by simp [historyStrings],
        types_differ, h⟩

/-- The finalized history of either chain binds the programs that were run and the checkpoint binds
what they passed on, and no history of one chain is one of the other. -/
theorem program_history_binding (env : Env) (hheader : env.headerCodec.RoundTrips)
    (hstate : env.stateCodec.RoundTrips) (honestHeader honestState : ProgramId → Prop) :
    ((headerChain env.header).BindsHistory env.sha256 env.groth16 env.headerCodec honestHeader ∧
        (headerChain env.header).CoversVerified env.sha256 env.groth16 env.headerCodec) ∧
      ((stateChain env.state).BindsHistory env.sha256 env.groth16 env.stateCodec honestState ∧
        (stateChain env.state).CoversVerified env.sha256 env.groth16 env.stateCodec) ∧
      (∀ older older', historyOf env.sha256 .header older = historyOf env.sha256 .state older' →
          CollisionIn env.sha256
          (historyStrings env.sha256 .header older ++ historyStrings env.sha256 .state older')) ∧
      ∀ p p' output output', finalizeHistory env.sha256 .header output.programHistoryHash
          p.programId =
          finalizeHistory env.sha256 .state output'.programHistoryHash p'.programId →
        CollisionIn env.sha256 [(headerChain env.header).finalString p output,
          (stateChain env.state).finalString p' output'] := by
  refine ⟨⟨ChainCircuit.bindsHistory hheader, ChainCircuit.coversVerified⟩,
    ⟨ChainCircuit.bindsHistory hstate, ChainCircuit.coversVerified⟩,
    fun older older' h => historyOf_types_differ h, ?_⟩
  intro p p' output output' h
  exact ⟨_, List.mem_cons_self, _, List.mem_cons_of_mem _ List.mem_cons_self, types_differ, h⟩

namespace TwoBlocks

open StateChain.TwoBlocks

def env : Env where
  sha256 := Sha256.digest
  fromDer _ := none
  verifyEcdsa _ _ _ := false
  sequencerHash _ := none
  network := .regtest
  fromNextWorkRequired := fun _ bits _ => bits
  groth16 := groth16
  headerCodec := .ofTable []
  commitCodec := .ofTable []
  stateCodec := codec Sha256.digest 7
  decodeTx := (library Sha256.digest 7).decodeTx
  decodeMsgNewEthBlock := (library Sha256.digest 7).decodeMsgNewEthBlock
  lightBlockFromSlice := (library Sha256.digest 7).lightBlockFromSlice
  verifyValidatorSets _ := true
  verifyCommit _ := true
  keccak256 := Sha256.digest
  hashSlow := (library Sha256.digest 7).hashSlow
  execute := (library Sha256.digest 7).execute
  taproot := ⟨fun _ => .error "", fun _ => none, fun _ => .error "", fun _ _ _ => false,
    fun _ _ _ _ _ => none, fun _ _ _ => .error ""⟩

def first : MadeProof := ⟨programId Sha256.digest, [1]⟩

def last : MadeProof := ⟨programId Sha256.digest, [2]⟩

def lastOutput : StateChainCircuitOutput := outputOf Sha256.digest (afterSecond 7)

theorem own_first : OwnOutput env.stateCodec first (outputOf Sha256.digest (afterGenesis 7)) :=
  ⟨by simp [env, codec, OutputCodec.ofTable, first], rfl⟩

theorem own_last : OwnOutput env.stateCodec last lastOutput :=
  ⟨by simp [env, codec, OutputCodec.ofTable, last, lastOutput], rfl⟩

theorem honest : (stateChain env.state).HonestSequence env.sha256 env.groth16 env.stateCodec
    (· = programId Sha256.digest) [last, first] := by
  have hencode : env.stateCodec.encode lastOutput = some last.values := by
    have hother : outputOf Sha256.digest (afterGenesis 7) ≠ lastOutput := by
      intro h
      have hheight := congrArg (fun output => output.chainState.evmBlockHeight) h
      revert hheight
      decide
    have hsame : outputOf Sha256.digest (afterSecond 7) = lastOutput := rfl
    simp [env, codec, OutputCodec.ofTable, last, hother, hsame]
  refine ⟨.next ?_ (.first ?_), ?_, ?_⟩
  · intro _
    exact ⟨_, _, rfl, rfl, rfl, run_second Sha256.digest 7, hencode⟩
  · intro _
    exact ⟨_, _, rfl, run_genesis Sha256.digest 7, encode_genesis Sha256.digest 7⟩
  · simp [last, first]
  · simp only [List.forall_mem_cons, List.not_mem_nil, false_imp_iff, implies_true, and_true]
    exact ⟨⟨_, own_last⟩, ⟨_, own_first⟩⟩

theorem made_from_genesis : (programsOf [last, first] = [programId Sha256.digest] ∧
      ∃ start, [last, first].getLast? = some start ∧
        (stateChain env.state).Starts env.sha256 env.groth16 env.stateCodec start) ∨
      CollisionIn env.sha256 ((stateChain env.state).finalString last lastOutput ::
        (stateChain env.state).hashedStrings env.sha256 env.stateCodec [last, first] ++
        (stateChain env.state).finalString last lastOutput ::
          (stateChain env.state).hashedStrings env.sha256 env.stateCodec [last, first]) := by
  have hbinds := (program_history_binding env (OutputCodec.ofTable_roundTrips (by simp))
    (codec_roundTrips Sha256.digest 7) (fun _ => False) (· = programId Sha256.digest)).2.1.1
  rcases hbinds last last [first] [first] lastOutput lastOutput honest.sequence own_last
    honest own_last rfl with ⟨-, hstart, -⟩ | hcollision
  · exact Or.inl ⟨by simp [programsOf, last, first], hstart⟩
  · exact Or.inr hcollision

end TwoBlocks

end BitvmNode.LightClient
