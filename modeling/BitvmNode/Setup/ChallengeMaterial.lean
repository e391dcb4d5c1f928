import BitvmNode.Pegout.PubinDisputes

/-!
# The setup that a challenge needs

The cleanup decides from the status of a graph and the age of its file.
-/

namespace BitvmNode.Setup

open Reasoning Bitcoin Signing Graphs Pegout

def cleanupStatus (graphs : GraphTable) (instanceId graphId : Uuid) : Option GraphStatus :=
  match graphs.find? graphId with
  | some graph => if graph.instanceId = instanceId then some graph.status else none
  | none => none

structure Keeper where
  graphs : GraphTable
  files : Uuid × Uuid → Option VerifierBabeSetupState

/-- Every write of a status, and the cleanup of the files that it gets to. -/
inductive KeeperStep where
  | scan (instanceId graphId : Uuid) (chainScan : ChainScan) (instanceFailed : Bool) (now : Int)
  | goatEvent (instanceId graphId : Uuid) (target : GraphStatus) (now : Int)
  | definition (instanceId graphId : Uuid) (now : Int)
  | obsolete (instanceId graphId : Uuid) (now : Int)
  | ingest (row : Graph)
  | setup (path : Uuid × Uuid) (state : VerifierBabeSetupState)
  | cleanup (reached isStale : Uuid × Uuid → Bool)

/-- The evidence and the target of a status write. -/
def KeeperStep.exec (node : Keeper) : KeeperStep → Keeper
  | .scan instanceId graphId chainScan instanceFailed now =>
      match decideStatus chainScan instanceFailed with
      | some target => { node with
          graphs := (transitionGraphStatus node.graphs instanceId graphId target .chainReconcile
            chainScan.subStatus now).1 }
      | none => node
  | .goatEvent instanceId graphId target now => { node with
      graphs := (transitionGraphStatus node.graphs instanceId graphId target .goatEvent
        none now).1 }
  | .definition instanceId graphId now => { node with
      graphs := (transitionGraphStatus node.graphs instanceId graphId .committeePresigned
        .definition none now).1 }
  | .obsolete instanceId graphId now => { node with
      graphs := (obsoleteGraph node.graphs instanceId graphId now).1 }
  | .ingest row => { node with graphs := node.graphs.insertOrIgnore row }
  | .setup path state => { node with
      files := fun other => if other = path then some ((node.files path).getD state)
        else node.files other }
  | .cleanup reached isStale => { node with
      files := fun path =>
        if reached path ∧ shouldCleanupBabeSetupState (cleanupStatus node.graphs path.1 path.2)
          (isStale path) then
          none
        else node.files path }

def runKeeper (node : Keeper) (steps : List KeeperStep) : Keeper := steps.foldl KeeperStep.exec node

theorem runKeeper_append (node : Keeper) (earlier later : List KeeperStep) :
    runKeeper node (earlier ++ later) = runKeeper (runKeeper node earlier) later :=
  List.foldl_append

def Keeper.HasStatus (node : Keeper) (path : Uuid × Uuid) (status : GraphStatus) : Prop :=
  ∃ row, node.graphs.find? path.2 = some row ∧ row.instanceId = path.1 ∧ row.status = status

section Keeping

variable {node : Keeper} {path : Uuid × Uuid} {status : GraphStatus}

section

variable (h : node.HasStatus path status)

include h

theorem Keeper.HasStatus.unique {other : GraphStatus} (h' : node.HasStatus path other) :
    status = other := by
  obtain ⟨row, hfound, -, rfl⟩ := h
  obtain ⟨row', hfound', -, rfl⟩ := h'
  rw [hfound] at hfound'
  rw [Option.some.inj hfound']

theorem Keeper.HasStatus.cleanupStatus :
    cleanupStatus node.graphs path.1 path.2 = some status := by
  obtain ⟨row, hfound, hinstance, rfl⟩ := h
  unfold Setup.cleanupStatus
  rw [hfound]
  exact if_pos hinstance

theorem hasStatus_transition (instanceId graphId : Uuid) (target : GraphStatus)
    (source : GraphStatusSource) (subStatus : Option String) (now : Int) :
    let moved := (transitionGraphStatus node.graphs instanceId graphId target source
      subStatus now).1
    ∃ status', ({ node with graphs := moved } : Keeper).HasStatus path status' ∧
      (status' = status ∨ status' = target ∧ status ∈ target.allowedTransitionFrom source) := by
  obtain ⟨row, hfound, hinstance, rfl⟩ := h
  have hsame : ∃ status', node.HasStatus path status' ∧
      (status' = row.status ∨ status' = target ∧
        row.status ∈ target.allowedTransitionFrom source) :=
    ⟨row.status, ⟨row, hfound, hinstance, rfl⟩, .inl rfl⟩
  dsimp only [transitionGraphStatus, Keeper.HasStatus]
  split
  · exact hsame
  split
  · -- the conditional update
    rw [Table.find?_update (by intro _; rfl), hfound, Option.map_some]
    by_cases hrow : row.graphId = graphId ∧ row.instanceId = instanceId ∧
        row.status ∈ target.allowedTransitionFrom source
    · rw [if_pos hrow]
      exact ⟨target, ⟨_, rfl, hinstance, rfl⟩, .inr ⟨rfl, hrow.2.2⟩⟩
    · rw [if_neg hrow]
      exact ⟨row.status, ⟨row, rfl, hinstance, rfl⟩, .inl rfl⟩
  split
  · -- a replay writes the sub-status at most
    rw [Table.find?_update (by intro _; rfl), hfound, Option.map_some]
    split
    · exact ⟨row.status, ⟨_, rfl, hinstance, rfl⟩, .inl rfl⟩
    · exact ⟨row.status, ⟨row, rfl, hinstance, rfl⟩, .inl rfl⟩
  · exact hsame

theorem Keeper.HasStatus.exec (step : KeeperStep) :
    ∃ status', (step.exec node).HasStatus path status' ∧
      (status' = status ∨ ∃ source, status ∈ status'.allowedTransitionFrom source) := by
  have hmoves : ∀ instanceId graphId target source subStatus now,
      ∃ status', (({ node with graphs :=
          (transitionGraphStatus node.graphs instanceId graphId target source subStatus now).1 } :
            Keeper).HasStatus
        path status') ∧
        (status' = status ∨ ∃ source, status ∈ status'.allowedTransitionFrom source) := by
    intro instanceId graphId target source subStatus now
    obtain ⟨status', hstatus', hedge⟩ :=
      hasStatus_transition h instanceId graphId target source subStatus now
    refine ⟨status', hstatus', hedge.imp_right ?_⟩
    rintro ⟨rfl, hallowed⟩
    exact ⟨source, hallowed⟩
  cases step with
  | scan instanceId graphId chainScan instanceFailed now =>
    dsimp only [KeeperStep.exec]
    split
    · exact hmoves ..
    · exact ⟨status, h, .inl rfl⟩
  | goatEvent instanceId graphId target now | definition instanceId graphId now => exact hmoves ..
  | obsolete instanceId graphId now =>
    exact hmoves instanceId graphId .obsoleted .chainReconcile none now
  | ingest row =>
    obtain ⟨found, hfound, hinstance, rfl⟩ := h
    refine ⟨found.status, ⟨found, ?_, hinstance, rfl⟩, .inl rfl⟩
    change (node.graphs.insertOrIgnore row).find? path.2 = some found
    rw [Table.find?_insertOrIgnore, hfound]
    split <;> rfl
  | setup written state | cleanup reached isStale => exact ⟨status, h, .inl rfl⟩

theorem Keeper.HasStatus.run (steps : List KeeperStep) :
    ∃ status', (runKeeper node steps).HasStatus path status' := by
  induction steps generalizing node status with
  | nil => exact ⟨status, h⟩
  | cons step steps ih =>
    obtain ⟨next, hnext, -⟩ := h.exec step
    exact ih hnext

theorem Keeper.HasStatus.closed_exec (hclosed : status.isClosed = true)
    (step : KeeperStep) : (step.exec node).HasStatus path status := by
  obtain ⟨status', hstatus', rfl | ⟨source, hallowed⟩⟩ := h.exec step
  · exact hstatus'
  · rw [GraphStatus.not_isClosed_of_allowed hallowed] at hclosed
    cases hclosed

theorem Keeper.HasStatus.closed_run (hclosed : status.isClosed = true)
    (steps : List KeeperStep) : (runKeeper node steps).HasStatus path status := by
  induction steps generalizing node with
  | nil => exact h
  | cons step steps ih => exact ih (h.closed_exec hclosed step)

end

theorem shouldCleanup_of_status {isStale : Bool}
    (h : shouldCleanupBabeSetupState (some status) isStale = true) :
    status.isClosed = true ∨ status = .obsoleted ∧ isStale = true := by
  dsimp only [shouldCleanupBabeSetupState] at h
  split_ifs at h with hclosed hobsoleted
  · exact .inl hclosed
  · exact .inr ⟨of_decide_eq_true hobsoleted, h⟩

variable {state : VerifierBabeSetupState}

theorem file_exec (hfile : node.files path = some state) (hstatus : node.HasStatus path status)
    (step : KeeperStep) :
    (step.exec node).files path = some state ∨ ∃ reached isStale, step = .cleanup reached isStale ∧
        (status.isClosed = true ∨ status = .obsoleted ∧ reached path = true ∧
          isStale path = true) := by
  cases step with
  | scan instanceId graphId chainScan instanceFailed now =>
    left
    dsimp only [KeeperStep.exec]
    split
    · exact hfile
    · exact hfile
  | goatEvent | definition | obsolete | ingest => exact .inl hfile
  | setup written fresh =>
    left
    dsimp only [KeeperStep.exec]
    split_ifs with hsame
    · rw [← hsame, hfile]
      rfl
    · exact hfile
  | cleanup reached isStale =>
    by_cases hdeleted : reached path ∧
        shouldCleanupBabeSetupState (cleanupStatus node.graphs path.1 path.2) (isStale path)
    · right
      obtain ⟨hreached, hcleanup⟩ := hdeleted
      rw [hstatus.cleanupStatus] at hcleanup
      refine ⟨reached, isStale, rfl, (shouldCleanup_of_status hcleanup).imp_right ?_⟩
      rintro ⟨hobsoleted, hstale⟩
      exact ⟨hobsoleted, hreached, hstale⟩
    · left
      dsimp only [KeeperStep.exec]
      rw [if_neg hdeleted]
      exact hfile

/-- In the run, the file has gone while its graph was obsolete. -/
def DeletedObsoleted (node : Keeper) (path : Uuid × Uuid) (state : VerifierBabeSetupState)
    (steps : List KeeperStep) : Prop :=
  ∃ earlier reached isStale later, steps = earlier ++ .cleanup reached isStale :: later ∧
    (runKeeper node earlier).files path = some state ∧
      (runKeeper node earlier).HasStatus path .obsoleted ∧
    reached path = true ∧ isStale path = true

theorem file_run (hfile : node.files path = some state) (hstatus : node.HasStatus path status)
    (steps : List KeeperStep) : (runKeeper node steps).files path = some state ∨
      (∃ status', (runKeeper node steps).HasStatus path status' ∧ status'.isClosed = true) ∨
      DeletedObsoleted node path state steps := by
  induction steps using List.reverseRecOn with
  | nil => exact .inl hfile
  | append_singleton steps step ih =>
    have hlast : runKeeper node (steps ++ [step]) = step.exec (runKeeper node steps) :=
      runKeeper_append ..
    rw [hlast]
    rcases ih with hkept | ⟨status', hcurrent, hclosed⟩ | hdeleted
    · obtain ⟨status', hcurrent⟩ := hstatus.run steps
      rcases file_exec hkept hcurrent step with hfile' |
        ⟨reached, isStale, rfl, hclosed | ⟨rfl, hreached, hstale⟩⟩
      · exact .inl hfile'
      · exact .inr (.inl ⟨status', hcurrent.closed_exec hclosed _, hclosed⟩)
      · exact .inr (.inr ⟨steps, reached, isStale, [], rfl, hkept, hcurrent, hreached, hstale⟩)
    · exact .inr (.inl ⟨status', hcurrent.closed_exec hclosed step, hclosed⟩)
    · obtain ⟨earlier, reached, isStale, later, rfl, hrest⟩ := hdeleted
      exact .inr (.inr ⟨earlier, reached, isStale,
        later ++ [step], by rw [List.append_assoc, List.cons_append], hrest⟩)

theorem Keeper.HasStatus.challenged (h : node.HasStatus path .obsoleted) :
    ∃ step : KeeperStep, (step.exec node).HasStatus path .challenge := by
  obtain ⟨row, hfound, hinstance, hobsoleted⟩ := h
  refine ⟨.scan path.1 path.2 ⟨.challenge, none, none, []⟩ false 0, ?_⟩
  obtain ⟨hstatus, -⟩ := transitionGraphStatus_spec hfound .challenge .chainReconcile none 0
  obtain ⟨stored, hstored, hkept⟩ :=
    exists_find?_transitionGraphStatus hfound row.instanceId .challenge .chainReconcile none 0
  rw [hstored, hobsoleted, if_pos (by decide), Option.map_some] at hstatus
  rw [hinstance] at hstored hkept
  exact ⟨stored, hstored, hkept, Option.some.inj hstatus⟩

def missingState : StepRun := .ignore "ChallengeAssert not built: missing BABE verifier state"

theorem ignore_inj {a b : String} (h : StepRun.ignore a = StepRun.ignore b) : a = b :=
  StepOutcome.done.inj (congrArg StepRun.outcome h)

theorem settledBy_ne_missingState {spend : Spend} {what : String}
    (hwhat : what.toList.head? ≠ some 'C' ∧ what.toList ≠ []) :
    settledBy spend what ≠ some missingState := by
  intro h
  unfold settledBy at h
  split at h
  · cases h
  · have hnote := congrArg (fun note => note.toList.head?) (ignore_inj (Option.some.inj h))
    rw [String.toList_append, String.toList_append, List.append_assoc,
      List.head?_append_of_ne_nil _ hwhat.2] at hnote
    exact hwhat.1 hnote
  · cases Option.some.inj h

section Job

variable {sha256 : Bytes → Bytes32} {watched : List Transaction} {topology : OutputTopology}
  {library : ConnectorLibrary} {btc : ChainView sha256 watched} {g : Pegout.BitvmGcGraph}
  {gcData : List BitvmGcCircuitData} {host : VerifierHost} {assertTx : Transaction}

theorem checkPubin_stop_not_ended {run : StepRun}
    (h : checkPubin topology library btc g gcData host assertTx = .stop run) : ¬ run.Ended := by
  have hdisprove : ∀ witnessData,
    ¬ (pubinDisproveStep sha256 topology library g gcData host witnessData).Ended := by
    intro witnessData
    unfold pubinDisproveStep
    split
    · exact StepRun.not_ended_fail _
    split
    · exact StepRun.not_ended_fail _
    split
    · exact StepRun.not_ended_fail _
    · exact StepRun.not_ended_broadcastPending _ _
  unfold checkPubin at h
  split at h
  · cases h
    exact StepRun.not_ended_afterBlocks _ _
  split at h
  · cases h
  split at h
  · cases h
    exact StepRun.not_ended_afterBlocks _ _
  split at h
  · cases h
    exact StepRun.not_ended_afterBlocks _ _
  split at h
  · cases h
    exact StepRun.not_ended_fail _
  · cases h
    exact StepRun.not_ended_fail _
  split at h
  · cases h
    exact StepRun.not_ended_afterBlocks _ _
  split at h
  · cases h
    exact hdisprove _
  · cases h
  · cases h

theorem broadcast_none {verifierIndex : Nat}
    (hindex : findVerifierIndexByPubkey gcData host.localPubkey = .ok (some verifierIndex))
    (h : broadcastVerifierChallengeAssertTx library btc g gcData host assertTx false = .ok none) :
    host.state.bind VerifierBabeSetupState.solderingProofReady = none := by
  unfold broadcastVerifierChallengeAssertTx at h
  rw [hindex] at h
  dsimp only at h
  split at h
  · cases h
  · cases h
  split at h
  · cases h
  · cases h
  cases hstate : host.state with
  | none => rfl
  | some saved =>
    rw [hstate] at h
    dsimp only at h
    cases hready : saved.solderingProofReady with
    | none => exact hready
    | some ready =>
      rw [hready] at h
      dsimp only at h
      split at h
      · cases h
      split at h
      · cases h
      split at h
      · cases h
      split at h
      · cases h
      · cases hcpfp : host.withCpfp _ with
        | error | ok txs => rw [hcpfp] at h; cases h

theorem verifierAssert_missingState {assertTxid : Bytes32}
    (h : verifierAssert topology library btc g gcData host assertTxid = missingState) :
    host.state.bind VerifierBabeSetupState.solderingProofReady = none := by
  have hended : missingState.Ended := StepRun.ended_ignore _
  unfold verifierAssert at h
  split at h
  · cases h
  split at h
  · cases h
  · exact absurd (ignore_inj h) (by decide)
  rename_i verifierIndex hindex
  split at h
  · cases h
  split at h
  · rename_i step hstep
    exact absurd (hstep.trans (congrArg some h)) (settledBy_ne_missingState (by decide))
  split at h
  · rename_i step hstep
    exact absurd (hstep.trans (congrArg some h)) (settledBy_ne_missingState (by decide))
  split at h
  · rename_i run hrun
    exact absurd (h ▸ hended) (checkPubin_stop_not_ended hrun)
  unfold challengeAssert at h
  split at h
  · cases h
  split at h
  · cases h
  · cases h
  split at h
  · exact absurd (ignore_inj h) (by decide)
  split at h
  · cases h
  · rename_i hnone
    exact broadcast_none hindex hnone
  · cases h

end Job

/-- From a stored graph whose setup is complete, in every run: a deletion is followed by no
challenge exactly if the graph was not obsolete; a challenge without the file has such a deletion
behind it; and with the file the job does not give up. -/
theorem challenge_material_kept_iff (hfile : node.files path = some state)
    (hstatus : node.HasStatus path status) (hready : state.solderingProofReady ≠ none) :
    (∀ steps reached isStale, (runKeeper node steps).files path = some state →
      (runKeeper node (steps ++ [.cleanup reached isStale])).files path = none →
      ((∀ later, ¬ (runKeeper node (steps ++ .cleanup reached isStale :: later)).HasStatus path
          .challenge) ↔
        ¬ (runKeeper node steps).HasStatus path .obsoleted)) ∧
    (∀ steps, (runKeeper node steps).HasStatus path .challenge →
        (runKeeper node steps).files path ≠ some state →
      DeletedObsoleted node path state steps) ∧
    ∀ {sha256 : Bytes → Bytes32} {watched : List Transaction} (topology : OutputTopology)
      (library : ConnectorLibrary) (btc : ChainView sha256 watched) (g : Pegout.BitvmGcGraph)
      (gcData : List BitvmGcCircuitData) (host : VerifierHost) (assertTxid : Bytes32),
      host.state = some state → verifierAssert topology library btc g gcData host assertTxid ≠
        missingState := by
  refine ⟨?_, ?_, ?_⟩
  · intro steps reached isStale hkept hdeleted
    obtain ⟨current, hcurrent⟩ := hstatus.run steps
    have hafter : ∀ later, runKeeper node (steps ++ .cleanup reached isStale :: later) =
        runKeeper (KeeperStep.exec (runKeeper node steps) (.cleanup reached isStale)) later :=
      fun later => runKeeper_append ..
    have hcase := file_exec hkept hcurrent (.cleanup reached isStale)
    rw [hafter []] at hdeleted
    have hgone : current.isClosed = true ∨ current = .obsoleted := by
      rcases hcase with hstill | ⟨_, _, -, hclosed | ⟨hobsoleted, -⟩⟩
      · exact absurd (hstill.symm.trans hdeleted) (by simp)
      · exact .inl hclosed
      · exact .inr hobsoleted
    constructor
    · intro hnever hobsoleted
      have hstays : (KeeperStep.exec (runKeeper node steps) (.cleanup reached isStale)).HasStatus
        path .obsoleted :=
        hobsoleted
      obtain ⟨step, hchallenged⟩ := hstays.challenged
      exact hnever [step] (by rw [hafter]; exact hchallenged)
    · intro hnot later hchallenged
      have hclosed : current.isClosed = true := by
        rcases hgone with hclosed | rfl
        · exact hclosed
        · exact absurd hcurrent hnot
      rw [hafter] at hchallenged
      have hstill := (hcurrent.closed_exec hclosed (.cleanup reached isStale)).closed_run
        hclosed later
      rw [hstill.unique hchallenged] at hclosed
      cases hclosed
  · intro steps hchallenged hlost
    rcases file_run hfile hstatus steps with hkept | ⟨closed, hstill, hclosed⟩ | hdeleted
    · exact absurd hkept hlost
    · rw [hstill.unique hchallenged] at hclosed
      cases hclosed
    · exact hdeleted
  · intro sha256 watched topology library btc g gcData host assertTxid hstate hmissing
    have hnone := verifierAssert_missingState hmissing
    rw [hstate] at hnone
    exact hready hnone

end Keeping

namespace FailedInstance

open Smallest

def path : Uuid × Uuid := (2, 1)

def saved : VerifierBabeSetupState :=
  ⟨"verifier", "operator", [], ⟨[]⟩, ⟨[], []⟩, [], some ⟨2, 1, 0, [], 0⟩⟩

def start : Keeper where
  graphs := Table.empty.insertOrIgnore ⟨1, 2, 0, "operator", .committeePresigned, "", 0, 0⟩
  files other := if other = path then some saved else none

def goat : GoatView := ⟨fun _ => zero32, fun _ => .none⟩

def report (btc : ChainView hash graph.transactions) : ChainScan :=
  gatherChainScan (fun _ => "") none [] (scanGraphChainState topology btc goat graph.toBitvmGcGraph)

def emptyView : ChainView hash graph.transactions :=
  Ledger.ofDistinct graph.transactions [] [] graph.distinct (by decide +kernel) (by decide +kernel)

/-- The instance fails before anything is on the chain, and the cleanup comes when the file is old;
then the operator kicks off, is challenged, and asserts. -/
def steps : List KeeperStep :=
  [.scan 2 1 (report emptyView) true 10, .cleanup (fun _ => true) (fun _ => true),
    .scan 2 1 (report SecondCommit.secondView) true 20]

def host (node : Keeper) : VerifierHost := { SecondCommit.host with state := node.files path }

theorem start_status : start.HasStatus path .committeePresigned := ⟨_, rfl, rfl, rfl⟩

end FailedInstance

open FailedInstance in
/-- The cleanup deletes the setup of an obsolete graph with all its signatures; the graph is
challenged later, and the job of the verifier gives up. -/
theorem obsolete_setup_deleted :
    Smallest.graph.committeePreSigned = true ∧ start.files path = some saved ∧
    saved.solderingProofReady ≠ none ∧ start.HasStatus path .committeePresigned ∧
    (runKeeper start (steps.take 2)).files path = none ∧
    ((runKeeper start steps).graphs.find? path.2).map Graph.status = some .challenge ∧
    verifierAssert Smallest.topology SecondCommit.library SecondCommit.secondView
      Smallest.graph.toBitvmGcGraph
      SecondCommit.gcData (host (runKeeper start steps))
      (Smallest.graph.operatorAssert.tx.computeTxid Smallest.hash) = missingState := by
  refine ⟨rfl, rfl, by decide, start_status, ?_, ?_, ?_⟩ <;> decide +kernel

open FailedInstance in
theorem challenge_material_kept_failed :
    ¬ (runKeeper start []).HasStatus path .obsoleted ∧ start.HasStatus path .committeePresigned ∧
      verifierAssert Smallest.topology SecondCommit.library SecondCommit.firstView
        Smallest.graph.toBitvmGcGraph
        SecondCommit.gcData (host start)
          (Smallest.graph.operatorAssert.tx.computeTxid Smallest.hash) ≠
          missingState := by
  have hall := @challenge_material_kept_iff start path .committeePresigned saved rfl
    start_status (by decide)
  refine ⟨fun hobsoleted => ?_, start_status, hall.2.2 _ _ _ _ _ _ _ rfl⟩
  have hsame : GraphStatus.committeePresigned = .obsoleted := start_status.unique hobsoleted
  cases hsame

end BitvmNode.Setup
