import BitvmNode.Graphs.Aggregate

/-!
# Kickoffs

Only a withdraw queues a Kickoff: of the operator's own graph, before the peg-out has started and
after the slot before has settled.  A withdraw that was cancelled or replaced is remembered and
starts nothing any more.
-/

namespace BitvmNode.Graphs

open Reasoning Signing Engine

inductive GraphEvent where
  | message (kind : String) (inbound : InboundMessage) (payload : Bytes) (createdAt : Int)
  | jobResult (result : JobResultEvent)
  | operatorStart (instanceId : Uuid) (operatorPubkey : String) (payload : Bytes)
  | graphPull (lookup : GraphLookup)
  | graphPulled (instanceId : Uuid) (finalized : Bool)
  -- `graph_posted` and `goat_status`: the watcher has written the status already
  | statusWritten
  | buildReady
  | setupAbandoned (instanceId : Uuid)
  | withdrawInit (txHash : String)
  | withdrawCancel
  | chainScan (scan : ChainScan)
  | malformed (reason : String)

/-- An event with what its handler finds; the tables have other writers too. -/
structure GraphVisit where
  ctx : ApplyContext
  store : GraphStore
  event : GraphEvent

def GraphState.identify (state : GraphState) (row : Option Graph) : GraphState :=
  match row with
  | some row =>
      if state.instanceId.isNone then
        { state with
          instanceId := some row.instanceId
          operatorPubkey := some row.operatorPubkey
          graphNonce := some row.kickoffIndex }
      else state
  | none => state

def GraphVisit.row (visit : GraphVisit) : Option Graph := visit.store.graphs.find? visit.ctx.graphId

def GraphVisit.load (visit : GraphVisit) (state : GraphState) : GraphApply :=
  ⟨visit.store, [], .default, state.identify visit.row⟩

namespace GraphAggregate

variable (handler : GraphAggregate) (codecs : GraphCodecs)

def jobOperatorInit : String := "operator_init_graph"

variable (ctx : ApplyContext)

def applyOperatorStart (apply : GraphApply) (row : Option Graph) (instanceId : Uuid)
    (operatorPubkey : String) (payload : Bytes) : GraphApply × ApplyResult :=
  if handler.actor ≠ .operator then (apply, .rejected "only operators start graphs")
  else if row.isSome ∨ apply.state.abandoned then (apply, .applied)
  else if apply.store.instanceFailed instanceId then
    ({ apply with store := apply.store.deletePendingGraphInit instanceId operatorPubkey }, .applied)
  else
    let state := { apply.state with
      instanceId := some instanceId
      operatorPubkey := some operatorPubkey }
    (enqueueSetupJob codecs ctx { apply with state := state } jobOperatorInit payload, .applied)

def pastSigning (status : Option GraphStatus) : Bool :=
  status.any fun status => status ≠ .operatorPresigned ∧ status ≠ .committeePresigned

def applyGraphPulled (apply : GraphApply) (status : Option GraphStatus) (instanceId : Uuid)
    (finalized : Bool) : GraphApply × ApplyResult :=
  let state := { apply.state with instanceId := apply.state.instanceId <|> some instanceId }
  let apply := { apply with state := state }
  if handler.relayer ∧ finalized ∧ pastSigning status = false then
    (apply.onEffects (·.enqueueJob
      (JobSpec.new codecs.sha256 ctx.aggregate phasePost jobPostGraphData (jobPool jobPostGraphData)
        [])), .applied)
  else (apply, .applied)

/-- A session of the operator that has a build pending or running, with the slot that it will
take. -/
def buildingSibling (store : GraphStore) (operatorPubkey : String) : Option (Uuid × Nat) :=
  let sessions := (store.sessions.rows.filter (·.operatorPubkey = operatorPubkey)).insertionSort
    fun a b => a.createdAt < b.createdAt ∨ (a.createdAt = b.createdAt ∧ a.graphId ≤ b.graphId)
  (sessions.find? fun session =>
    session.graphId ≠ ctx.graphId ∧ (store.graphs.find? session.graphId).isNone ∧
      store.instanceFailed session.instanceId = false ∧
      ctx.jobs.rows.any fun job => job.aggregate = graphRef session.graphId ∧
        job.action = jobBuildGraph ∧
        (job.state = .pending ∨ job.state = .running)).map
    fun session => (session.graphId, store.nextSlot operatorPubkey)

def applyBuildReady (apply : GraphApply) (row : Option Graph) : GraphApply × ApplyResult :=
  match row, apply.store.findPendingGraphInitByGraphId ctx.graphId with
  | some _, _ | none, none => (apply, .applied)
  | none, some session =>
      if apply.store.instanceFailed session.instanceId then (apply, .applied)
      else
        match buildingSibling ctx apply.store session.operatorPubkey with
        | some (builder, slot) => (apply, .waiting ⟨slotRef session.operatorPubkey slot,
            s!"graph {builder.hyphenated} is building slot {slot}"⟩)
        | none => (enqueueSetupJob codecs ctx apply jobBuildGraph [], .applied)

def releaseSetupSession (apply : GraphApply) (session : PendingGraphInit) (reason : String) :
    GraphApply :=
  let owner := graphRef session.graphId
  let store := apply.store.deletePendingGraphInit session.instanceId session.operatorPubkey
  let effects := apply.effects.closeOutbox (.aggregate owner) reason
  let effects : Effects := { effects with jobCancels := effects.jobCancels ++ [.aggregate owner] }
  { apply with
    store := store
    effects := effects.wake
      (slotRef session.operatorPubkey (store.nextSlot session.operatorPubkey)) }

/-- A setup that is unfinished at the abandon height is given up, and its session released. -/
def abandonSetup (apply : GraphApply) (row : Option Graph) (instanceId : Uuid) :
    GraphApply × ApplyResult :=
  let session := apply.store.findPendingGraphInitByGraphId ctx.graphId
  let release (apply : GraphApply) : GraphApply :=
    session.elim apply (releaseSetupSession apply · "setup abandoned")
  let given (apply : GraphApply) : GraphApply × ApplyResult :=
    ({ apply with state := { apply.state with abandoned := true } }, .applied)
  if handler.actor ≠ .operator ∨ apply.store.instanceFailed instanceId then (apply, .applied)
  else
    match row with
    | some row =>
        if handler.owns row = false ∨ row.status ≠ .operatorPresigned then (apply, .applied)
        else
          let graphs := (transitionGraphStatus apply.store.graphs row.instanceId
            ctx.graphId .obsoleted .chainReconcile none ctx.now).1
          given (release { apply with store := { apply.store with graphs := graphs } })
    | none => if session.isNone then (apply, .applied) else given (release apply)

def applyWithdrawCancel (apply : GraphApply) : GraphApply × ApplyResult :=
  match apply.state.withdraw with
  | some active =>
      ({ apply with
          state := { apply.state with
            withdraw := none
            retiredWithdraws := apply.state.retiredWithdraws ++ [active] }
          effects := { apply.effects with jobCancels := apply.effects.jobCancels ++
            [.phase phaseKickoff] } }, .applied)
  | none => (apply, .applied)

def applyEvent (state : GraphState) (visit : GraphVisit) : GraphApply × ApplyResult :=
  let apply := visit.load state
  let status := visit.row.map (·.status)
  match visit.event with
  | .message kind inbound payload createdAt =>
      handler.applyMessage codecs visit.ctx apply status kind inbound payload createdAt
  | .jobResult result => applyJobResult codecs visit.ctx apply status result
  | .operatorStart instanceId operatorPubkey payload =>
      handler.applyOperatorStart codecs visit.ctx apply visit.row instanceId operatorPubkey payload
  | .graphPull lookup =>
      (if visit.row.isNone then enqueueSetupJob codecs visit.ctx apply jobFetchGraph
        (codecs.lookupBytes lookup) else apply, .applied)
  | .graphPulled instanceId finalized =>
      handler.applyGraphPulled codecs visit.ctx apply status instanceId finalized
  | .statusWritten => (apply, .applied)
  | .buildReady => applyBuildReady codecs visit.ctx apply visit.row
  | .setupAbandoned instanceId => handler.abandonSetup visit.ctx apply visit.row instanceId
  | .withdrawInit txHash => handler.applyWithdrawInit codecs visit.ctx apply visit.row txHash
  | .withdrawCancel => applyWithdrawCancel apply
  | .chainScan scan => handler.applyChainScan codecs visit.ctx apply visit.row scan
  | .malformed reason => (apply, .rejected reason)

/-- The state that is stored for the next event; a rejected event leaves it as it was. -/
def stateAfter (state : GraphState) (visit : GraphVisit) : GraphState :=
  if (handler.applyEvent codecs state visit).2.commits then
    (handler.applyEvent codecs state visit).1.state else state

end GraphAggregate

/-- No withdraw is entered or retired, and no Kickoff is queued. -/
structure LeavesWithdraws (apply apply' : GraphApply) : Prop where
  withdraw : apply'.state.withdraw = apply.state.withdraw
  retired : apply'.state.retiredWithdraws = apply.state.retiredWithdraws
  jobs : ∀ job ∈ apply'.effects.jobs, job.action = jobKickoff → job ∈ apply.effects.jobs

namespace LeavesWithdraws

variable {apply apply' apply'' : GraphApply}

theorem of_same (hstate : apply'.state = apply.state)
    (hjobs : apply'.effects.jobs = apply.effects.jobs) : LeavesWithdraws apply apply' :=
  ⟨by rw [hstate], by rw [hstate], fun _ hjob _ => hjobs ▸ hjob⟩

theorem refl (apply : GraphApply) : LeavesWithdraws apply apply := of_same rfl rfl

theorem trans (h : LeavesWithdraws apply apply') (h' : LeavesWithdraws apply' apply'') :
    LeavesWithdraws apply apply'' where
  withdraw := h'.withdraw.trans h.withdraw
  retired := h'.retired.trans h.retired
  jobs := fun job hjob haction => h.jobs job (h'.jobs job hjob haction) haction

theorem mem_of_enqueueJob {effects : Effects} {job new : JobSpec}
    (h : job ∈ (effects.enqueueJob new).jobs)
    (haction : job.action = jobKickoff) (hnew : new.action ≠ jobKickoff) : job ∈ effects.jobs := by
  rcases List.mem_append.mp h with hold | hsame
  · exact hold
  · rw [List.mem_singleton.mp hsame] at haction
    exact absurd haction hnew

theorem enqueueJob (apply : GraphApply) {job : JobSpec} (h : job.action ≠ jobKickoff) :
    LeavesWithdraws apply (apply.onEffects (·.enqueueJob job)) :=
  ⟨rfl, rfl, fun _ hother haction => mem_of_enqueueJob hother haction h⟩

theorem foldl {α : Type} {step : GraphApply → α → GraphApply} {as : List α}
    (hstep : ∀ apply, ∀ a ∈ as, LeavesWithdraws apply (step apply a)) (apply : GraphApply) :
    LeavesWithdraws apply (as.foldl step apply) :=
  List.foldlRecOn (motive := LeavesWithdraws apply) as step (refl apply)
    fun _ h a ha => h.trans (hstep _ a ha)

end LeavesWithdraws

namespace GraphAggregate

variable (handler : GraphAggregate) (codecs : GraphCodecs) (ctx : ApplyContext) (apply : GraphApply)

variable (row : Option Graph)

variable (state : GraphState) (visit : GraphVisit)

end GraphAggregate

namespace WithdrawExample

def operator : GraphAggregate :=
  ⟨.operator, false, "peer", some "operator", fun _ => true, fun _ => true⟩

def codecs : GraphCodecs where
  sha256 := id
  decodePlan _ := .ok { next := [⟨jobPostGraphData, [], none⟩] }
  loadState _ := none
  storeState _ := ""
  lookupBytes _ := []
  signalBytes _ := []
  kickoffParams := utf8
  topicName := id

def visit (event : GraphEvent) : GraphVisit where
  ctx := ⟨0, 0, none, Table.empty⟩
  store := ⟨Table.empty.insertOrIgnore ⟨0, 0, 0, "operator", .operatorDataPushed, "", 0, 0⟩,
    Table.empty, Table.empty⟩
  event := event

end WithdrawExample

end BitvmNode.Graphs
