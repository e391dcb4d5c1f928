import BitvmNode.Reasoning.Along
import BitvmNode.Reasoning.HashTrees
import BitvmNode.Setup.Verifier

/-!
# One selection for a package

The writes of a verifier one by one, with crashes between them.  The payload is public as soon as it
is in the store; the selection that it opens is remembered only when the file of the graph has been
replaced.
-/

namespace BitvmNode.Setup

open Reasoning Signing Graphs

structure Opening where
  (instanceId graphId : Uuid)
  candidateIndex : Nat
  package : CACSetupPackage
  selection : List Nat
  payload : CompactSolderingProofPayload

def Opening.ready (codec : PayloadCodec) (opening : Opening) : SolderingProofReady :=
  codec.ready opening.instanceId opening.graphId opening.candidateIndex opening.payload

/-- What is left to do for the job of a graph.  The state is in memory; the file may be gone by the
time it is replaced. -/
inductive Execution where
  | keep (instanceId : Uuid) (state : VerifierBabeSetupState)
  | publish (opening : Opening) (state : VerifierBabeSetupState)
  | remember (opening : Opening) (state : VerifierBabeSetupState)
  | reply (ready : SolderingProofReady)

/-- Files, the payload store, and the jobs under way, one for each graph.  The other fields are
history. -/
structure VerifierNode where
  files : Uuid × Uuid → Option VerifierBabeSetupState
  store : PayloadPath → Option CompactSolderingProofPayload
  running : Uuid → Option Execution
  garbled : List (CACSetupPackage × Uuid × Uuid)
  (written remembered : List Opening)
  sent : List SolderingProofReady
  endorsed : List Endorsement

def VerifierNode.init : VerifierNode :=
  ⟨fun _ => none, fun _ => none, fun _ => none, [], [], [], [], []⟩

namespace VerifierNode

def setFile (node : VerifierNode) (path : Uuid × Uuid) (file : Option VerifierBabeSetupState) :
    VerifierNode :=
  { node with files := fun other => if other = path then file else node.files other }

def setRunning (node : VerifierNode) (graphId : Uuid) (execution : Option Execution) :
    VerifierNode :=
  { node with running := fun other => if other = graphId then execution else node.running other }

def writePayload (codec : PayloadCodec) (node : VerifierNode) (opening : Opening) : VerifierNode :=
  { node with
    store := fun path =>
      if path = (opening.ready codec).path then some opening.payload else node.store path
    written := opening :: node.written }

end VerifierNode

/-- A step of the node: a job starts on a message, or goes on, or ends; a crash; the cleanup of a
file. -/
inductive SetupStep where
  | initGraph (graphId : Uuid) (inbound : Inbound) (init : InitGraph) (inputs : SetupInputs)
  | cutCircuits (graphId : Uuid) (inbound : Inbound) (cut : CutCircuits) (instanceFailed : Bool)
  | createGraph (graphId : Uuid) (inbound : Inbound) (create : CreateGraph)
  | proceed (graphId : Uuid)
  | crash
  | deletePayload (instanceId graphId : Uuid) (status : Option GraphStatus) (isStale : Bool)
  | deleteFile (instanceId graphId : Uuid) (status : Option GraphStatus) (isStale : Bool)

section Machine

variable (garbling : Garbling) (codec : PayloadCodec) (verifyInitGraph : InitGraph → Bool)
  (localPubkey : String) (node : VerifierNode)

def VerifierNode.proceed (graphId : Uuid) : VerifierNode :=
  match node.running graphId with
  | some (.keep instanceId state) =>
      (node.setFile (instanceId, graphId) (some state)).setRunning graphId none
  | some (.publish opening state) =>
      (node.writePayload codec opening).setRunning graphId (some (.remember opening state))
  | some (.remember opening state) =>
      let state :=
        { state with
          finalizedIndices := opening.selection
          solderingProofReady := some (opening.ready codec) }
      { (node.setFile (opening.instanceId, graphId) (some state)).setRunning graphId
          (some (.reply (opening.ready codec))) with
        remembered := opening :: node.remembered }
  | some (.reply ready) => { node.setRunning graphId none with sent := ready :: node.sent }
  | none => node

def SetupStep.exec : SetupStep → VerifierNode
  | .initGraph graphId inbound init inputs =>
      if (node.running graphId).isSome then node
      else
        match verifierSetup verifyInitGraph localPubkey graphId inbound init inputs
            (node.files (init.instanceId, graphId)) with
        | .error _ => node
        | .ok state =>
            { node.setRunning graphId (some (.keep init.instanceId state)) with
              garbled := (state.setupPackage, init.instanceId, graphId) :: node.garbled }
  | .cutCircuits graphId inbound cut instanceFailed =>
      if (node.running graphId).isSome then node
      else
        match verifierSolder garbling localPubkey graphId inbound cut instanceFailed
            (node.files (cut.instanceId, graphId)) with
        | .error _ => node
        | .ok (.done ready) => node.setRunning graphId (some (.reply ready))
        | .ok (.opened state payload) =>
            node.setRunning graphId (some (.publish ⟨cut.instanceId, graphId, cut.candidateIndex,
              state.setupPackage, cut.selectedCircuitIndexes, payload⟩ state))
  | .createGraph graphId inbound create =>
      if (node.running graphId).isSome then node
      else
        match verifierValidateGraph codec localPubkey graphId inbound create
            (node.files (create.instanceId, graphId)) node.store with
        | .error _ => node
        | .ok endorsement => { node with endorsed := endorsement :: node.endorsed }
  | .proceed graphId => node.proceed codec graphId
  | .crash => { node with running := fun _ => none }
  | .deletePayload instanceId graphId status isStale =>
      match node.files (instanceId, graphId) with
      | some state =>
          match state.solderingProofReady with
          | some ready =>
              if shouldCleanupBabeSetupState status isStale then
                { node with store := fun path => if path = ready.path then none
                  else node.store path }
              else node
          | none => node
      | none => node
  | .deleteFile instanceId graphId status isStale =>
      if shouldCleanupBabeSetupState status isStale then node.setFile (instanceId, graphId) none
        else node

def runSetup (steps : List SetupStep) : VerifierNode :=
  steps.foldl (SetupStep.exec garbling codec verifyInitGraph localPubkey) node

/-- Circuits that are garbled are new: their package has not been seen before. -/
def SetupStep.Fresh : SetupStep → Prop
  | .initGraph _ _ _ inputs =>
      ∀ package privateState, inputs.garbled = .ok (package, privateState) →
      ∀ entry ∈ node.garbled, entry.1 ≠ package
  | _ => True

def FreshRun (steps : List SetupStep) : Prop :=
  Along (SetupStep.exec garbling codec verifyInitGraph localPubkey) SetupStep.Fresh node steps

variable {garbling codec verifyInitGraph localPubkey}
  {graphId : Uuid} {file : Option VerifierBabeSetupState} {inbound : Inbound}

theorem verifierSetup_ok {init : InitGraph} {inputs : SetupInputs} {state : VerifierBabeSetupState}
    (h : verifierSetup verifyInitGraph localPubkey graphId inbound init inputs file = .ok state) :
    file = some state ∨ state.solderingProofReady = none ∧
      ∃ privateState, inputs.garbled = .ok (state.setupPackage, privateState) := by
  unfold verifierSetup at h
  split_ifs at h
  split at h
  · rename_i saved hsaved
    split_ifs at h
    cases h
    exact .inl (Option.filter_eq_some_iff.mp hsaved).1
  · split at h
    · cases h
    · rename_i package privateState hgarbled
      cases h
      exact .inr ⟨rfl, privateState, hgarbled⟩

theorem openRealSetupAndSolder_ok {privateState : BabeVerifierPrivateState}
    {package : CACSetupPackage} {selection : List Nat} {payload : CompactSolderingProofPayload}
    (h : openRealSetupAndSolder garbling privateState package selection = .ok payload) :
    payload = openAndSolder garbling privateState package selection := by
  unfold openRealSetupAndSolder at h
  split at h
  · cases h
  · split at h
    · cases h
    · split at h
      · cases h
      · cases h
        rfl

theorem verifierSolder_ok {cut : CutCircuits} {instanceFailed : Bool} {start : SolderStart}
    (h : verifierSolder garbling localPubkey graphId inbound cut instanceFailed file = .ok start) :
    ∃ state, file = some state ∧
      ((∃ ready, start = .done ready ∧ state.solderingProofReady = some ready) ∨
        state.solderingProofReady = none ∧ start = .opened state
          (openAndSolder garbling state.privateState state.setupPackage
            cut.selectedCircuitIndexes)) := by
  unfold verifierSolder at h
  -- three checks of the message, then the file, then three checks against the state
  iterate 4
    split at h
    · cases h
  rename_i state
  refine ⟨state, rfl, ?_⟩
  dsimp only at h
  iterate 3
    split at h
    · cases h
  cases hready : state.solderingProofReady with
  | some ready =>
    rw [hready] at h
    dsimp only at h
    split_ifs at h
    cases h
    exact .inl ⟨ready, rfl, rfl⟩
  | none =>
    rw [hready] at h
    dsimp only at h
    split at h
    · cases h
    · rename_i payload hpayload
      cases h
      rw [openRealSetupAndSolder_ok hpayload]
      exact .inr ⟨rfl, rfl⟩

theorem verifierValidateGraph_ok {create : CreateGraph}
    {store : PayloadPath → Option CompactSolderingProofPayload} {endorsement : Endorsement}
    (h : verifierValidateGraph codec localPubkey graphId inbound create file store =
      .ok endorsement) :
    ∃ state ready payload, file = some state ∧ state.solderingProofReady = some ready ∧
      store ready.path = some payload ∧
      codec.ready ready.instanceId ready.graphId ready.candidateIndex payload =
        ready ∧ endorsement.package = state.setupPackage ∧
      payloadGcData localPubkey state.setupPackage payload = .ok endorsement.gcData := by
  unfold verifierValidateGraph at h
  split at h
  · cases h
  split at h
  · cases h
  split at h
  · cases h
  · cases h
  split at h
  · cases h
  · cases h
  unfold endorseSavedGcData at h
  split at h
  · cases h
  rename_i state
  split at h
  · cases h
  split at h
  · cases h
  rename_i ready hready
  split at h
  · cases h
  rename_i stored hstored
  split at h
  · cases h
  rename_i expected hexpected
  split at h
  · cases h
  cases h
  refine ⟨state, ready, stored, rfl, hready, hstored, ?_⟩
  -- the length and the hash are those of the message
  dsimp only [decodeSolderingProofPayload] at hexpected
  split at hexpected
  · cases hexpected
  rename_i hlength
  split at hexpected
  · cases hexpected
  rename_i hhash
  rw [Decidable.not_not] at hlength hhash
  refine ⟨?_, rfl, hexpected⟩
  dsimp only [PayloadCodec.ready]
  rw [hlength, hhash]

section Invariant

variable (garbling codec localPubkey)

section History

variable (garbled : List (CACSetupPackage × Uuid × Uuid)) (remembered written : List Opening)

structure StateSound (path : Uuid × Uuid) (state : VerifierBabeSetupState) : Prop where
  owner : (state.setupPackage, path) ∈ garbled
  knows : ∀ opening ∈ remembered, opening.package = state.setupPackage →
    state.solderingProofReady = some (opening.ready codec)
  names : ∀ ready, state.solderingProofReady = some ready → ∃ opening ∈ remembered,
    opening.package = state.setupPackage ∧ opening.ready codec = ready

structure OpeningSound (graphId : Uuid) (opening : Opening) (state : VerifierBabeSetupState) :
    Prop where
  graph : opening.graphId = graphId
  package : opening.package = state.setupPackage
  owner : (opening.package, opening.instanceId, graphId) ∈ garbled
  first : ∀ other ∈ remembered, other.package ≠ opening.package
  payload : ∃ privateState, opening.payload =
    openAndSolder garbling privateState opening.package opening.selection

def ExecutionSound (graphId : Uuid) : Execution → Prop
  | .keep instanceId state => StateSound codec garbled remembered (instanceId, graphId) state
  | .publish opening state => OpeningSound garbling garbled remembered graphId opening state
  | .remember opening state =>
      OpeningSound garbling garbled remembered graphId opening state ∧ opening ∈ written
  | .reply ready => ∃ opening ∈ remembered, opening.ready codec = ready

end History

structure VerifierNode.Sound (node : VerifierNode) : Prop where
  oneOwner : ∀ entry ∈ node.garbled, ∀ other ∈ node.garbled, entry.1 = other.1 → entry.2 = other.2
  files : ∀ path state, node.files path = some state →
    StateSound codec node.garbled node.remembered path state
  running : ∀ graphId execution, node.running graphId = some execution →
    ExecutionSound garbling codec node.garbled node.remembered node.written graphId execution
  remembered : node.remembered ⊆ node.written
  owners : ∀ opening ∈ node.remembered,
    (opening.package, opening.instanceId, opening.graphId) ∈ node.garbled
  once : ∀ opening ∈ node.remembered, ∀ other ∈ node.remembered, opening.package = other.package →
    opening = other
  payloads : ∀ opening ∈ node.written, ∃ privateState, opening.payload =
    openAndSolder garbling privateState opening.package opening.selection
  store : ∀ path payload, node.store path = some payload → ∃ opening ∈ node.written,
    (opening.ready codec).path = path ∧ opening.payload = payload
  sent : ∀ ready ∈ node.sent, ∃ opening ∈ node.remembered, opening.ready codec = ready
  endorsed : ∀ endorsement ∈ node.endorsed, ∃ opening ∈ node.remembered, ∃ stored ∈ node.written,
    opening.package = endorsement.package ∧ stored.ready codec = opening.ready codec ∧
      payloadGcData localPubkey endorsement.package stored.payload = .ok endorsement.gcData

variable {garbling codec localPubkey} {node : VerifierNode}
  {garbled garbled' : List (CACSetupPackage × Uuid × Uuid)}
  {remembered written written' : List Opening}
  {path : Uuid × Uuid} {state : VerifierBabeSetupState}

theorem StateSound.mono (h : StateSound codec garbled remembered path state)
    (hgarbled : garbled ⊆ garbled') : StateSound codec garbled' remembered path state :=
  { h with owner := hgarbled h.owner }

variable {graphId : Uuid} {opening : Opening}

theorem ExecutionSound.mono {execution : Execution}
    (h : ExecutionSound garbling codec garbled remembered written graphId execution)
    (hgarbled : garbled ⊆ garbled') (hwritten : written ⊆ written') :
    ExecutionSound garbling codec garbled' remembered written' graphId execution := by
  cases execution with
  | keep instanceId state => exact StateSound.mono h hgarbled
  | publish opening state => exact { h with owner := hgarbled h.owner }
  | remember opening state => exact ⟨{ h.1 with owner := hgarbled h.1.owner }, hwritten h.2⟩
  | reply ready => exact h

theorem StateSound.remember (h : StateSound codec garbled remembered path state)
    (hne : opening.package ≠ state.setupPackage) :
    StateSound codec garbled (opening :: remembered) path state := by
  refine ⟨h.owner, ?_, ?_⟩
  · intro other hother hpackage
    rcases List.mem_cons.mp hother with rfl | hold
    · exact absurd hpackage hne
    · exact h.knows other hold hpackage
  · intro ready hready
    obtain ⟨other, hother, hrest⟩ := h.names ready hready
    exact ⟨other, List.mem_cons_of_mem _ hother, hrest⟩

theorem OpeningSound.remember {next : Opening}
    (h : OpeningSound garbling garbled remembered graphId next state)
    (hne : opening.package ≠ next.package) :
    OpeningSound garbling garbled (opening :: remembered) graphId next state := by
  refine { h with first := ?_ }
  intro known hknown
  rcases List.mem_cons.mp hknown with rfl | hold
  · exact hne
  · exact h.first known hold

theorem ExecutionSound.remember {execution : Execution}
    (h : ExecutionSound garbling codec garbled remembered written graphId execution)
    (hne : ∀ package instanceId, (package, instanceId, graphId) ∈ garbled →
      opening.package ≠ package) :
    ExecutionSound garbling codec garbled (opening :: remembered) written graphId execution := by
  cases execution with
  | keep instanceId state => exact StateSound.remember h (hne _ _ h.owner)
  | publish next state => exact OpeningSound.remember h (hne _ _ h.owner)
  | remember next state => exact ⟨OpeningSound.remember h.1 (hne _ _ h.1.owner), h.2⟩
  | reply ready =>
    obtain ⟨known, hknown, hready⟩ := h
    exact ⟨known, List.mem_cons_of_mem _ hknown, hready⟩

section

variable (h : node.Sound garbling codec localPubkey)

include h

theorem VerifierNode.Sound.of_running {execution : Option Execution}
    (hexecution : ∀ started, execution = some started →
      ExecutionSound garbling codec node.garbled node.remembered node.written graphId started) :
    (node.setRunning graphId execution).Sound garbling codec localPubkey := by
  refine { h with running := ?_ }
  intro other started hstarted
  dsimp only [VerifierNode.setRunning] at hstarted
  split_ifs at hstarted with hgraph
  · exact hgraph ▸ hexecution started hstarted
  · exact h.running other started hstarted

theorem VerifierNode.Sound.of_file {file : Option VerifierBabeSetupState}
    (hfile : ∀ state, file = some state →
      StateSound codec node.garbled node.remembered path state) :
    (node.setFile path file).Sound garbling codec localPubkey := by
  refine { h with files := ?_ }
  intro other state hstate
  dsimp only [VerifierNode.setFile] at hstate
  split_ifs at hstate with hpath
  · exact hpath ▸ hfile state hstate
  · exact h.files other state hstate

theorem VerifierNode.Sound.of_garbled {entry : CACSetupPackage × Uuid × Uuid}
    (hentry : ∀ other ∈ node.garbled, other.1 = entry.1 → other.2 = entry.2) :
    ({ node with garbled := entry :: node.garbled } : VerifierNode).Sound
      garbling codec localPubkey := by
  have hsubset : node.garbled ⊆ entry :: node.garbled := List.subset_cons_self entry node.garbled
  refine { h with oneOwner := ?_, files := ?_, running := ?_, owners := ?_ }
  · intro first hfirst second hsecond hpackage
    rcases List.mem_cons.mp hfirst with rfl | hold <;>
      rcases List.mem_cons.mp hsecond with rfl | hold'
    · rfl
    · exact (hentry second hold' hpackage.symm).symm
    · exact hentry first hold hpackage
    · exact h.oneOwner first hold second hold' hpackage
  · exact fun path state hfile => (h.files path state hfile).mono hsubset
  · exact fun graphId execution hexecution =>
      (h.running graphId execution hexecution).mono hsubset (List.Subset.refl _)
  · exact fun opening hopening => hsubset (h.owners opening hopening)

theorem VerifierNode.Sound.initGraph {inbound : Inbound} {init : InitGraph}
    {inputs : SetupInputs} (hfresh : (SetupStep.initGraph graphId inbound init inputs).Fresh node) :
    ((SetupStep.initGraph graphId inbound init inputs).exec garbling codec verifyInitGraph
      localPubkey node).Sound garbling codec localPubkey := by
  dsimp only [SetupStep.exec]
  split
  · exact h
  split
  · exact h
  rename_i state hstate
  rcases verifierSetup_ok hstate with hfile | ⟨hready, privateState, hgarbled⟩
  · -- the package of the file has its owner already
    have hsaved := h.files _ state hfile
    have howner := h.of_garbled fun other hother hpackage =>
      h.oneOwner other hother _ hsaved.owner hpackage
    apply howner.of_running
    intro started hstarted
    cases hstarted
    exact hsaved.mono (List.subset_cons_self _ _)
  · have hnew := hfresh state.setupPackage privateState hgarbled
    have hentry : ∀ other ∈ node.garbled, other.1 = state.setupPackage →
        other.2 = (init.instanceId, graphId) :=
      fun other hother hpackage => absurd hpackage (hnew other hother)
    apply (h.of_garbled hentry).of_running
    intro started hstarted
    cases hstarted
    refine ⟨List.mem_cons_self, ?_, ?_⟩
    · intro opening hopening hpackage
      exact absurd hpackage (hnew _ (h.owners opening hopening))
    · intro ready hsome
      cases hready.symm.trans hsome

theorem VerifierNode.Sound.cutCircuits {inbound : Inbound} {cut : CutCircuits}
    {instanceFailed : Bool} :
    ((SetupStep.cutCircuits graphId inbound cut instanceFailed).exec garbling codec verifyInitGraph
      localPubkey node).Sound garbling codec localPubkey := by
  dsimp only [SetupStep.exec]
  split
  · exact h
  cases hstart : verifierSolder garbling localPubkey graphId inbound cut instanceFailed
      (node.files (cut.instanceId, graphId)) with
  | error => exact h
  | ok start =>
    obtain ⟨state, hfile, hcase⟩ := verifierSolder_ok hstart
    have hsaved := h.files _ state hfile
    rcases hcase with ⟨ready, rfl, hready⟩ | ⟨hready, rfl⟩ <;> apply h.of_running <;>
      intro started hstarted <;> cases hstarted
    · obtain ⟨opening, hopening, -, hnamed⟩ := hsaved.names ready hready
      exact ⟨opening, hopening, hnamed⟩
    · refine ⟨rfl, rfl, hsaved.owner, ?_, state.privateState, rfl⟩
      -- a remembered opening of this package would stand in the file
      intro other hother hpackage
      cases hready.symm.trans (hsaved.knows other hother hpackage)

theorem VerifierNode.Sound.createGraph {inbound : Inbound} {create : CreateGraph} :
    ((SetupStep.createGraph graphId inbound create).exec garbling codec verifyInitGraph localPubkey
      node).Sound garbling codec localPubkey := by
  dsimp only [SetupStep.exec]
  split
  · exact h
  split
  · exact h
  rename_i endorsement hendorsement
  refine { h with endorsed := ?_ }
  intro other hother
  rcases List.mem_cons.mp hother with rfl | hold
  · obtain ⟨state, ready, payload, hfile, hready, hstored, hcodec, hpackage, hdata⟩ :=
      verifierValidateGraph_ok hendorsement
    obtain ⟨opening, hopening, hsame, hnamed⟩ := (h.files _ state hfile).names ready hready
    obtain ⟨stored, hwritten, hpath, rfl⟩ := h.store ready.path payload hstored
    -- the place in the store fixes all of the message but the length, and the payload fixes that
    have hinstance : stored.instanceId = ready.instanceId := congrArg PayloadPath.instanceId hpath
    have hgraph : stored.graphId = ready.graphId := congrArg PayloadPath.graphId hpath
    have hcandidate : stored.candidateIndex = ready.candidateIndex :=
      congrArg PayloadPath.candidateIndex hpath
    have hmessage : stored.ready codec = ready := by
      rw [Opening.ready, hinstance, hgraph, hcandidate]
      exact hcodec
    refine ⟨opening, hopening, stored, hwritten, hsame.trans hpackage.symm, ?_, ?_⟩
    · rw [hmessage, hnamed]
    · rw [hpackage]
      exact hdata
  · exact h.endorsed other hold

theorem VerifierNode.Sound.publish
    (hopening : OpeningSound garbling node.garbled node.remembered graphId opening state) :
    (node.writePayload codec opening).Sound garbling codec localPubkey := by
  have hsubset : node.written ⊆ opening :: node.written :=
    List.subset_cons_self opening node.written
  refine { h with
    running := ?_, remembered := List.Subset.trans h.remembered hsubset, payloads := ?_
    store := ?_, endorsed := ?_ }
  · exact fun other execution hexecution =>
      (h.running other execution hexecution).mono (List.Subset.refl _) hsubset
  · intro other hother
    rcases List.mem_cons.mp hother with rfl | hold
    · exact hopening.payload
    · exact h.payloads other hold
  · intro path payload hpayload
    dsimp only [writePayload] at hpayload
    split_ifs at hpayload with hpath
    · cases hpayload
      exact ⟨opening, List.mem_cons_self, hpath.symm, rfl⟩
    · obtain ⟨other, hother, hrest⟩ := h.store path payload hpayload
      exact ⟨other, hsubset hother, hrest⟩
  · intro endorsement hendorsement
    obtain ⟨first, hfirst, stored, hstored, hrest⟩ := h.endorsed endorsement hendorsement
    exact ⟨first, hfirst, stored, hsubset hstored, hrest⟩

theorem VerifierNode.Sound.remember
    (hrunning : node.running graphId = some (.remember opening state)) :
    (node.proceed codec graphId).Sound garbling codec localPubkey := by
  obtain ⟨hopening, hwritten⟩ :
      OpeningSound garbling node.garbled node.remembered graphId opening state ∧
        opening ∈ node.written := h.running graphId _ hrunning
  have hpackage := hopening.package
  have hsubset : node.remembered ⊆ opening :: node.remembered :=
    List.subset_cons_self opening node.remembered
  unfold VerifierNode.proceed
  rw [hrunning]
  refine { h with
    files := ?_, running := ?_, remembered := ?_, owners := ?_, once := ?_, sent := ?_
    endorsed := ?_ }
  · intro path saved hsaved
    change (if path = (opening.instanceId, graphId) then _ else node.files path) = some saved
      at hsaved
    split_ifs at hsaved with hpath
    · cases hsaved
      subst hpath
      refine ⟨hpackage ▸ hopening.owner, ?_, ?_⟩
      · intro other hother hsame
        rcases List.mem_cons.mp hother with rfl | hold
        · rfl
        · exact absurd (hsame.trans hpackage.symm) (hopening.first other hold)
      · intro ready hready
        cases hready
        exact ⟨opening, List.mem_cons_self, hpackage, rfl⟩
    · have hstate := h.files path saved hsaved
      exact hstate.remember fun hsame =>
        hpath (h.oneOwner _ hstate.owner _ hopening.owner hsame.symm)
  · intro other execution hexecution
    change (if other = graphId then _ else node.running other) = some execution at hexecution
    split_ifs at hexecution with hother
    · cases hexecution
      exact ⟨opening, List.mem_cons_self, rfl⟩
    · -- a job of another graph has another package
      refine (h.running other execution hexecution).remember fun package instanceId howner hsame =>
        ?_
      exact hother (congrArg Prod.snd (h.oneOwner _ howner _ hopening.owner hsame.symm))
  · exact List.cons_subset.mpr ⟨hwritten, h.remembered⟩
  · exact List.forall_mem_cons.mpr ⟨by rw [hopening.graph]; exact hopening.owner, h.owners⟩
  · intro first hfirst second hsecond hsame
    rcases List.mem_cons.mp hfirst with rfl | hold <;>
      rcases List.mem_cons.mp hsecond with rfl | hold'
    · rfl
    · exact absurd hsame.symm (hopening.first second hold')
    · exact absurd hsame (hopening.first first hold)
    · exact h.once first hold second hold' hsame
  · intro ready hready
    obtain ⟨known, hknown, hrest⟩ := h.sent ready hready
    exact ⟨known, hsubset hknown, hrest⟩
  · intro endorsement hendorsement
    obtain ⟨known, hknown, hrest⟩ := h.endorsed endorsement hendorsement
    exact ⟨known, hsubset hknown, hrest⟩

theorem VerifierNode.Sound.proceed (graphId : Uuid) :
    (node.proceed codec graphId).Sound garbling codec localPubkey := by
  cases hrunning : node.running graphId with
  | none =>
    unfold VerifierNode.proceed
    rw [hrunning]
    exact h
  | some execution =>
    have hsound := h.running graphId execution hrunning
    cases execution with
    | keep instanceId state =>
      unfold VerifierNode.proceed
      rw [hrunning]
      have hfile : ∀ saved, some state = some saved →
          StateSound codec node.garbled node.remembered (instanceId, graphId) saved := by
        intro saved hsaved
        cases hsaved
        exact hsound
      exact (h.of_file hfile).of_running nofun
    | publish opening state =>
      unfold VerifierNode.proceed
      rw [hrunning]
      apply (h.publish hsound).of_running
      intro started hstarted
      cases hstarted
      exact ⟨hsound, List.mem_cons_self⟩
    | remember opening state => exact h.remember hrunning
    | reply ready =>
      have hidle := @of_running _ _ _ _ graphId h none nofun
      unfold VerifierNode.proceed
      rw [hrunning]
      exact { hidle with sent := List.forall_mem_cons.mpr ⟨hsound, h.sent⟩ }

theorem VerifierNode.Sound.of_store {store : PayloadPath → Option CompactSolderingProofPayload}
    (hstore : ∀ path payload, store path = some payload → node.store path = some payload) :
    ({ node with store } : VerifierNode).Sound garbling codec localPubkey :=
  { h with store := fun path payload hpayload =>
    h.store path payload (hstore path payload hpayload) }

theorem VerifierNode.Sound.exec {step : SetupStep} (hfresh : step.Fresh node) :
    (step.exec garbling codec verifyInitGraph localPubkey node).Sound garbling codec
      localPubkey := by
  cases step with
  | initGraph graphId inbound init inputs => exact h.initGraph hfresh
  | cutCircuits graphId inbound cut instanceFailed => exact h.cutCircuits
  | createGraph graphId inbound create => exact h.createGraph
  | proceed graphId => exact h.proceed graphId
  | crash => exact { h with running := nofun }
  | deletePayload instanceId graphId status isStale =>
    dsimp only [SetupStep.exec]
    split
    · split
      · split_ifs
        · apply h.of_store
          intro path payload hpayload
          split_ifs at hpayload
          exact hpayload
        · exact h
      · exact h
    · exact h
  | deleteFile instanceId graphId status isStale =>
    dsimp only [SetupStep.exec]
    split_ifs
    · exact h.of_file nofun
    · exact h

end

theorem VerifierNode.init_sound : VerifierNode.init.Sound garbling codec localPubkey := by
  have hremembered : VerifierNode.init.remembered ⊆ VerifierNode.init.written := List.Subset.refl _
  constructor <;> first | exact hremembered | (intros; contradiction)

end Invariant

/-- All payloads of a package are for one selection. -/
def OneSelection (written : List Opening) : Prop :=
  ∀ opening ∈ written, ∀ other ∈ written, opening.package = other.package →
    opening.selection = other.selection

instance (written : List Opening) : Decidable (OneSelection written) := by
  unfold OneSelection
  infer_instance

/-- A circuit whose seed is revealed by one payload and which another one finalises. -/
def Crosses (opening other : Opening) : Prop :=
  ∃ entry ∈ opening.payload.opened, ∃ data ∈ other.payload.finalized, entry.1 = data.index

instance (opening other : Opening) : Decidable (Crosses opening other) := by
  unfold Crosses
  infer_instance

variable {node : VerifierNode}

/-- No crash between the write of a payload and that of the file. -/
def SetupStep.Uninterrupted (node : VerifierNode) (step : SetupStep) : Prop :=
  step = .crash → ∀ graphId opening state,
    node.running graphId ≠ some (.remember opening state)

def VerifierNode.Remembers (node : VerifierNode) : Prop :=
  ∀ opening ∈ node.written, opening ∈ node.remembered ∨
    ∃ graphId state, node.running graphId = some (.remember opening state)

theorem VerifierNode.Remembers.setRunning (h : node.Remembers) {graphId : Uuid}
    (hidle : ∀ opening state, node.running graphId ≠ some (.remember opening state))
    (execution : Option Execution) : (node.setRunning graphId execution).Remembers := by
  intro opening hopening
  rcases h opening hopening with hold | ⟨other, state, hrunning⟩
  · exact .inl hold
  · refine .inr ⟨other, state, ?_⟩
    have hne : other ≠ graphId := by
      rintro rfl
      exact hidle opening state hrunning
    exact (if_neg hne).trans hrunning

theorem VerifierNode.Remembers.proceed (h : node.Remembers) (graphId : Uuid) :
    (node.proceed codec graphId).Remembers := by
  unfold VerifierNode.proceed
  cases hrunning : node.running graphId with
  | none => exact h
  | some execution =>
    cases execution with
    | keep instanceId state =>
      have hfile : (node.setFile (instanceId, graphId) (some state)).Remembers := h
      exact hfile.setRunning (fun _ _ hremember => (nomatch hrunning.symm.trans hremember)) none
    | publish opening state =>
      intro other hother
      rcases List.mem_cons.mp hother with rfl | hold
      · exact .inr ⟨graphId, state, if_pos rfl⟩
      · exact h.setRunning (fun _ _ hremember => (nomatch hrunning.symm.trans hremember))
          _ other hold
    | remember opening state =>
      intro other hother
      rcases h other hother with hold | ⟨otherId, otherState, hremember⟩
      · exact .inl (List.mem_cons_of_mem _ hold)
      · by_cases hgraph : otherId = graphId
        · subst hgraph
          cases hrunning.symm.trans hremember
          exact .inl List.mem_cons_self
        · exact .inr ⟨otherId, otherState, (if_neg hgraph).trans hremember⟩
    | reply ready =>
      exact h.setRunning (fun _ _ hremember => (nomatch hrunning.symm.trans hremember)) none

theorem VerifierNode.Remembers.exec (h : node.Remembers) {step : SetupStep}
    (hstep : step.Uninterrupted node) :
    (step.exec garbling codec verifyInitGraph localPubkey node).Remembers := by
  have hstart {graphId : Uuid} (hnone : ¬ (node.running graphId).isSome = true)
      (execution : Option Execution) : (node.setRunning graphId execution).Remembers := by
    refine h.setRunning (fun opening state hremember => ?_) execution
    rw [hremember] at hnone
    exact hnone rfl
  cases step with
  | initGraph graphId inbound init inputs =>
    dsimp only [SetupStep.exec]
    split_ifs with hrunning
    · exact h
    · split
      · exact h
      · exact hstart hrunning _
  | cutCircuits graphId inbound cut instanceFailed =>
    dsimp only [SetupStep.exec]
    split_ifs with hrunning
    · exact h
    · split
      · exact h
      · exact hstart hrunning _
      · exact hstart hrunning _
  | createGraph graphId inbound create =>
    dsimp only [SetupStep.exec]
    split
    · exact h
    · split <;> exact h
  | proceed graphId => exact h.proceed graphId
  | crash =>
    intro opening hopening
    rcases h opening hopening with hold | ⟨graphId, state, hremember⟩
    · exact .inl hold
    · exact absurd hremember (hstep rfl graphId opening state)
  | deletePayload instanceId graphId status isStale =>
    dsimp only [SetupStep.exec]
    split
    · split
      · split_ifs <;> exact h
      · exact h
    · exact h
  | deleteFile instanceId graphId status isStale =>
    dsimp only [SetupStep.exec]
    split_ifs <;> exact h

theorem VerifierNode.Sound.oneSelection (h : node.Sound garbling codec localPubkey)
    (hremembers : node.Remembers) : OneSelection node.written := by
  intro opening hopening other hother hpackage
  rcases hremembers opening hopening with hfirst | ⟨graphId, state, hfirst⟩
  · rcases hremembers other hother with hsecond | ⟨graphId', state', hsecond⟩
    · rw [h.once opening hfirst other hsecond hpackage]
    · obtain ⟨hsound, -⟩ := h.running graphId' _ hsecond
      exact absurd hpackage (hsound.first opening hfirst)
  · obtain ⟨hsound, -⟩ := h.running graphId _ hfirst
    rcases hremembers other hother with hsecond | ⟨graphId', state', hsecond⟩
    · exact absurd hpackage.symm (hsound.first other hsecond)
    · -- one package belongs to one graph, which has one job
      obtain ⟨hsound', -⟩ := h.running graphId' _ hsecond
      have hgraph : graphId = graphId' :=
        congrArg Prod.snd (h.oneOwner _ hsound.owner _ hsound'.owner hpackage)
      subst hgraph
      cases hfirst.symm.trans hsecond
      rfl

theorem VerifierNode.Sound.not_remembering (h : node.Sound garbling codec localPubkey)
    (hknown : ∀ entry ∈ node.garbled, ∃ known ∈ node.remembered, known.package = entry.1)
    (graphId : Uuid) (opening : Opening) (state : VerifierBabeSetupState) :
    node.running graphId ≠ some (.remember opening state) := by
  intro hremember
  obtain ⟨hopening, -⟩ := h.running graphId _ hremember
  obtain ⟨known, hmem, hpackage⟩ := hknown _ hopening.owner
  exact hopening.first known hmem hpackage

theorem VerifierNode.Sound.not_crosses (h : node.Sound garbling codec localPubkey)
    {opening other : Opening} (hopening : opening ∈ node.written) (hother : other ∈ node.written)
    (hselection : opening.selection = other.selection) : ¬ Crosses opening other := by
  rintro ⟨entry, hentry, data, hdata, hindex⟩
  obtain ⟨privateState, hpayload⟩ := h.payloads opening hopening
  obtain ⟨privateState', hpayload'⟩ := h.payloads other hother
  rw [hpayload] at hentry
  rw [hpayload'] at hdata
  obtain ⟨index, hunselected, rfl⟩ := List.mem_map.mp hentry
  obtain ⟨selected, hselected, rfl⟩ := List.mem_map.mp hdata
  have hout : index ∉ opening.selection := of_decide_eq_true (List.mem_filter.mp hunselected).2
  change index = selected at hindex
  rw [hselection, hindex] at hout
  exact hout hselected

theorem VerifierNode.Sound.endorsed_selection (h : node.Sound garbling codec localPubkey)
    {endorsement : Endorsement} (hendorsement : endorsement ∈ node.endorsed) :
    (∃ opening ∈ node.remembered, opening.package = endorsement.package ∧
        payloadGcData localPubkey endorsement.package opening.payload = .ok endorsement.gcData) ∨
      CollisionIn (fun payload => codec.sha256 (codec.serialize payload))
        (node.written.map Opening.payload) := by
  obtain ⟨opening, hopening, stored, hstored, hpackage, hready, hdata⟩ :=
    h.endorsed endorsement hendorsement
  by_cases hpayload : stored.payload = opening.payload
  · rw [hpayload] at hdata
    exact .inl ⟨opening, hopening, hpackage, hdata⟩
  · right
    have hhash := congrArg SolderingProofReady.payloadHash hready
    exact ⟨stored.payload, List.mem_map_of_mem hstored, opening.payload,
      List.mem_map_of_mem (h.remembered hopening), hpayload, hhash⟩

/-- In every run against any messages, with crashes after any other write, the payloads of a package
are for one selection.  Messages and endorsements are for payloads that a file has taken up, at most
one of each package, wherever the node crashes. -/
theorem one_selection {steps : List SetupStep}
    (hfresh : FreshRun garbling codec verifyInitGraph localPubkey .init steps) :
    let final := runSetup garbling codec verifyInitGraph localPubkey .init steps
    (Along (SetupStep.exec garbling codec verifyInitGraph localPubkey) SetupStep.Uninterrupted
        .init steps →
      OneSelection final.written ∧ ∀ opening ∈ final.written, ∀ other ∈ final.written,
        opening.package = other.package → ¬ Crosses opening other) ∧
    final.remembered ⊆ final.written ∧
    (∀ opening ∈ final.remembered, ∀ other ∈ final.remembered,
      opening.package = other.package → opening = other) ∧
    (∀ ready ∈ final.sent, ∃ opening ∈ final.remembered, opening.ready codec = ready) ∧
    ∀ endorsement ∈ final.endorsed,
      (∃ opening ∈ final.remembered, opening.package = endorsement.package ∧
        payloadGcData localPubkey endorsement.package opening.payload = .ok endorsement.gcData) ∨
      CollisionIn (fun payload => codec.sha256 (codec.serialize payload))
        (final.written.map Opening.payload) := by
  intro final
  have h : final.Sound garbling codec localPubkey :=
    hfresh.invariant VerifierNode.init_sound fun _ _ h hstep => h.exec hstep
  refine ⟨?_, h.remembered, h.once, h.sent, fun endorsement => h.endorsed_selection⟩
  intro huninterrupted
  have hremembers : final.Remembers :=
    huninterrupted.invariant nofun fun _ _ h hstep => h.exec hstep
  have hone := h.oneSelection hremembers
  refine ⟨hone, ?_⟩
  intro opening hopening other hother hpackage
  exact h.not_crosses hopening hother (hone opening hopening other hother hpackage)

end Machine

namespace Interrupted

def package : CACSetupPackage := ⟨List.replicate BABE_N_CC ⟨[], []⟩⟩

def seeds : BabeVerifierPrivateState :=
  ⟨(List.range BABE_N_CC).map fun index => [UInt8.ofNat index], []⟩

def garbling : Garbling := ⟨fun _ => package, fun _ _ => [], fun _ _ => [], []⟩

def codec : PayloadCodec := ⟨id, fun payload => payload.soldering.finalizedIndices.map UInt8.ofNat⟩

def inbound : Inbound := ⟨0, [1]⟩

def steps : List SetupStep :=
  [.initGraph 7 inbound ⟨0, 7, "operator", [1], []⟩ ⟨false, true, .ok (package, seeds)⟩,
    .proceed 7,
    .cutCircuits 7 inbound ⟨0, 7, "verifier", 0, [0, 1, 2, 3, 4, 5, 6]⟩ false,
    .proceed 7,
    .crash,
    .cutCircuits 7 inbound ⟨0, 7, "verifier", 0, [7, 8, 9, 10, 11, 12, 13]⟩ false,
    .proceed 7,
    .proceed 7,
    .proceed 7]

def final : VerifierNode := runSetup garbling codec (fun _ => true) "verifier" .init steps

theorem fresh : FreshRun garbling codec (fun _ => true) "verifier" .init steps :=
  .cons (nofun) (.of_forall (by simp [SetupStep.Fresh]))

/-- The same job until its file has been written. -/
def toldSteps : List SetupStep :=
  [.initGraph 7 inbound ⟨0, 7, "operator", [1], []⟩ ⟨false, true, .ok (package, seeds)⟩,
    .proceed 7,
    .cutCircuits 7 inbound ⟨0, 7, "verifier", 0, [0, 1, 2, 3, 4, 5, 6]⟩ false,
    .proceed 7,
    .proceed 7]

/-- After the crash another selection is refused, and the first one is answered again. -/
def againSteps : List SetupStep :=
  [.cutCircuits 7 inbound ⟨0, 7, "verifier", 0, [7, 8, 9, 10, 11, 12, 13]⟩ false,
    .cutCircuits 7 inbound ⟨0, 7, "verifier", 0, [0, 1, 2, 3, 4, 5, 6]⟩ false,
    .proceed 7]

theorem fresh_told : FreshRun garbling codec (fun _ => true) "verifier" .init toldSteps :=
  .cons (nofun) (.of_forall (by simp [SetupStep.Fresh]))

theorem fresh_laterCrash : FreshRun garbling codec (fun _ => true) "verifier" .init
    (toldSteps ++ .crash :: againSteps) :=
  Along.append fresh_told (.of_forall (by simp [againSteps, SetupStep.Fresh]))

theorem sound_told : (toldSteps.foldl (SetupStep.exec garbling codec (fun _ => true) "verifier")
    .init).Sound garbling codec "verifier" :=
  fresh_told.invariant VerifierNode.init_sound fun _ _ h hstep => h.exec hstep

theorem uninterrupted_laterCrash :
    Along (SetupStep.exec garbling codec (fun _ => true) "verifier") SetupStep.Uninterrupted .init
      (toldSteps ++ .crash :: againSteps) := by
  refine .append (.of_forall ?_) (.cons ?_ (.of_forall ?_))
  · simp [toldSteps, SetupStep.Uninterrupted]
  · -- the only package has its opening in the file
    intro _
    exact VerifierNode.Sound.not_remembering sound_told (by decide +kernel)
  · simp [againSteps, SetupStep.Uninterrupted]

end Interrupted

open Interrupted

/-- The first payload is public and in no file; the second opens what the first has finalised, and
the other way round. -/
theorem two_selections_written :
    FreshRun garbling codec (fun _ => true) "verifier" .init steps ∧
    ¬ OneSelection final.written ∧
    (∃ opening ∈ final.written, ∃ other ∈ final.written,
      opening.package = other.package ∧ Crosses opening other ∧ Crosses other opening) ∧
    final.written.length = 2 ∧ final.sent.length = 1 := by
  refine ⟨fresh, ?_, ?_, ?_, ?_⟩ <;> decide +kernel

theorem one_selection_later_crash :
    let final := runSetup garbling codec (fun _ => true) "verifier" .init
      (toldSteps ++ .crash :: againSteps)
    Along (SetupStep.exec garbling codec (fun _ => true) "verifier")
        SetupStep.Uninterrupted .init (toldSteps ++ .crash :: againSteps) ∧
      OneSelection final.written ∧ final.written.length = 1 ∧ final.sent.length = 1 :=
  ⟨uninterrupted_laterCrash,
    ((one_selection fresh_laterCrash).1 uninterrupted_laterCrash).1,
    by decide +kernel, by decide +kernel⟩

end BitvmNode.Setup
