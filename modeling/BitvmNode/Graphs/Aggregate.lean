import BitvmNode.Engine.Effects
import BitvmNode.Graphs.Status
import BitvmNode.Instance.Store

/-!
# The graph aggregate

The handler of the events of one graph.
-/

namespace BitvmNode.Graphs

open Reasoning Signing Engine Instance

inductive Actor where
  | committee
  | operator
  | verifier
  | watchtower
  | publisher
  | all
  deriving DecidableEq

namespace Actor

def display : Actor → String
  | .committee => "Committee"
  | .operator => "Operator"
  | .verifier => "Verifier"
  | .watchtower => "Watchtower"
  | .publisher => "Publisher"
  | .all => "All"

end Actor

def phasePost : String := "Post"
def phaseKickoff : String := "Kickoff"
def phaseSettlement : String := "Settlement"

def jobPhase : String := "graph"

def jobVerifierSetup : String := "verifier_setup"
def jobIngestGenCircuits : String := "ingest_gen_circuits"
def jobVerifierSolder : String := "verifier_solder"
def jobIngestSolderingProof : String := "ingest_soldering_proof"
def jobBuildGraph : String := "build_graph"
def jobVerifierValidateGraph : String := "verifier_validate_graph"
def jobCommitteeIngestGraph : String := "committee_ingest_graph"
def jobIngestVerifierEndorsement : String := "ingest_verifier_endorsement"
def jobIngestNonces : String := "ingest_nonces"
def jobIngestVote : String := "ingest_vote"
def jobCommitteePresign : String := "committee_presign"
def jobIngestPresign : String := "ingest_presign"
def jobIngestEndorsement : String := "ingest_endorsement"
def jobFinalizeGraph : String := "finalize_graph"
def jobIngestFinalized : String := "ingest_finalized"
def jobPostGraphData : String := "post_graph_data"
def jobFetchGraph : String := "fetch_graph"

def jobKickoff : String := "kickoff"
def jobSettlePredecessors : String := "settle_predecessors"
def jobEnforcePreviousSlot : String := "enforce_previous_slot"
def jobProceedWithdraw : String := "proceed_withdraw"
def jobChallengeKickoff : String := "challenge_kickoff"
def jobWatchtowerChallengeInit : String := "watchtower_challenge_init"
def jobWatchtowerChallenge : String := "watchtower_challenge"
def jobWatchtowerProofTimeout : String := "watchtower_proof_timeout"
def jobChallengeAck : String := "challenge_ack"
def jobWatchtowerTimeout : String := "watchtower_timeout"
def jobChallengeNack : String := "challenge_nack"
def jobCommitPubin : String := "commit_pubin"
def jobCommitTimeout : String := "commit_timeout"
def jobProverAssert : String := "prover_assert"
def jobVerifierAssert : String := "verifier_assert"
def jobWronglyChallenged : String := "wrongly_challenged"
def jobDisprove : String := "disprove"
def jobFinishDisproved : String := "finish_disproved"
def jobTake1 : String := "take1"
def jobFinishHappy : String := "finish_happy"
def jobTake2 : String := "take2"
def jobFinishUnhappy : String := "finish_unhappy"

def pegoutJobs : List String :=
  [jobKickoff, jobSettlePredecessors, jobEnforcePreviousSlot, jobProceedWithdraw,
    jobChallengeKickoff, jobWatchtowerChallengeInit, jobWatchtowerChallenge,
      jobWatchtowerProofTimeout, jobChallengeAck,
    jobWatchtowerTimeout, jobChallengeNack, jobCommitPubin, jobCommitTimeout, jobProverAssert,
    jobVerifierAssert, jobWronglyChallenged, jobDisprove, jobFinishDisproved, jobTake1,
      jobFinishHappy,
    jobTake2, jobFinishUnhappy]

def pegoutJobPool (action : String) : JobPool :=
  if action ∈ [jobWatchtowerChallenge, jobCommitPubin, jobProverAssert, jobVerifierAssert,
      jobWronglyChallenged] then .pegout
  else .network

def jobPool (action : String) : JobPool :=
  if action ∈ pegoutJobs then pegoutJobPool action
  else if action ∈ [jobVerifierSetup, jobVerifierSolder, jobIngestSolderingProof, jobBuildGraph,
      jobVerifierValidateGraph, jobCommitteeIngestGraph, jobCommitteePresign, jobIngestPresign,
      jobFinalizeGraph, jobIngestFinalized] then .cpu
  else .network

def routeAction (kind : String) (actor : Actor) : Option String :=
  match kind, actor with
  | "InitGraph", .verifier => some jobVerifierSetup
  | "GenCircuits", .operator => some jobIngestGenCircuits
  | "CutCircuits", .verifier => some jobVerifierSolder
  | "SolderingProofReady", .operator => some jobIngestSolderingProof
  | "CreateGraph", .verifier => some jobVerifierValidateGraph
  | "CreateGraph", .committee => some jobCommitteeIngestGraph
  | "VerifierGraphParamsEndorsement", .committee => some jobIngestVerifierEndorsement
  | "NonceGeneration", .committee | "NonceGeneration", .operator => some jobIngestNonces
  | "AggNonceConsensus", .committee => some jobIngestVote
  | "CommitteePresign", .committee | "CommitteePresign", .operator => some jobIngestPresign
  | "EndorseGraph", .operator => some jobIngestEndorsement
  | "GraphFinalize", _ => some jobIngestFinalized
  | _, _ => none

def signingRoundOver (status : Option GraphStatus) : Bool :=
  status.any fun status => status ≠ .operatorPresigned

def retired (status : Option GraphStatus) : Bool :=
  status.any fun status => status.isObsoleted || status.isClosed

inductive GraphLookup where
  | id (instanceId graphId : Uuid) (finalized : Bool)
  | slot (operatorPubkey : String) (graphNonce : Nat)

structure InboundMessage where
  author : String
  instanceId : Uuid
  graphNonce : Option Nat
  operatorPubkey : Option String
  message : Bytes

structure PlannedMessage where
  (outboxId phaseRef kind actor : String)
  payload : Bytes
  ackSet : Option AckSet

structure NextJob where
  action : String
  params : Bytes
  delaySecs : Option Int

inductive DisproveTxType where
  | disprove
  | quickChallenge
  | challengeIncompleteKickoff
  | pubinDisprove
  | operatorChallengeNack
  | operatorCommitTimeout
  deriving DecidableEq

inductive PegoutSignal where
  | preKickoffSent
  | kickoffSent
  | take1Ready
  | take1Sent
  | challengeSent (challengeTxid : Bytes)
  | watchtowerChallengeInitSent
  | watchtowerChallengeSent (watchtowerIndex : Nat)
  | watchtowerChallengeTimeout
  | nackReady (watchtowerIndex : Nat)
  | operatorCommitPubinReady
  | operatorCommitPubinTimeout
  | assertReady
  | assertSent (assertTxid : Bytes)
  | challengeAssertSent (challengeAssertTxid : Bytes) (verifierIndex : Nat)
  | wronglyChallengeTimeout (challengeAssertTxid : Bytes) (verifierIndex : Nat)
  | disproveSent (disproveType : DisproveTxType) (index : Nat) (challengeFinishTxid : Bytes)
  | take2Ready
  | take2Sent
  deriving DecidableEq

/-- A fact that makes a graph unusable before its Pre-Kickoff confirms. -/
inductive Unusable where
  | connectorZeroTaken (spentBy : Bytes)
  | prekickoffInputSpent (outpoint : Bytes × Nat) (spentBy : Bytes)
  | earlierSlotDead (slot : Nat)

/-- One scan of a graph.  The column for the challenge txid is not modelled. -/
structure ChainScan where
  stage : GraphStatus
  subStatus : Option String
  unusable : Option Unusable
  signals : List PegoutSignal

structure GraphStateUpdate where
  instanceId : Option Uuid := none
  operatorPubkey : Option String := none
  graphNonce : Option Nat := none
  finalized : Option Bool := none

structure GraphPlan where
  messages : List PlannedMessage := []
  closeRows : List String := []
  next : List NextJob := []
  state : GraphStateUpdate := {}
  deletePendingSession : Bool := false
  notifyInstanceEndorsed : Bool := false
  wakeRefs : List String := []

structure GraphState where
  instanceId : Option Uuid := none
  operatorPubkey : Option String := none
  graphNonce : Option Nat := none
  finalized : Bool := false
  withdraw : Option String := none
  retiredWithdraws : List String := []
  dead : Bool := false
  abandoned : Bool := false

def GraphState.merge (state : GraphState) (update : GraphStateUpdate) : GraphState :=
  { state with
    instanceId := update.instanceId <|> state.instanceId
    operatorPubkey := update.operatorPubkey <|> state.operatorPubkey
    graphNonce := update.graphNonce <|> state.graphNonce
    finalized := update.finalized.getD state.finalized }

structure PendingGraphInit where
  instanceId : Uuid
  operatorPubkey : String
  graphId : Uuid
  (updatedAt createdAt : Int)

def PendingGraphInit.key (session : PendingGraphInit) : Uuid × String :=
  (session.instanceId, session.operatorPubkey)

structure GraphStore where
  graphs : GraphTable
  instances : InstanceTable
  sessions : Table PendingGraphInit.key

namespace GraphStore

variable (store : GraphStore)

def instanceFailed (instanceId : Uuid) : Bool :=
  (store.instances.find? instanceId).any (·.status.isFailed)

def findGraphByOperatorSlot (operatorPubkey : String) (graphNonce : Nat) : Option Graph :=
  store.graphs.rows.find? fun graph =>
    graph.operatorPubkey = operatorPubkey ∧ graph.kickoffIndex = graphNonce

def latestSlot (operatorPubkey : String) : Option Graph :=
  ((store.graphs.rows.filter fun graph => graph.operatorPubkey = operatorPubkey).insertionSort
    fun a b => b.kickoffIndex ≤ a.kickoffIndex).head?

def nextSlot (operatorPubkey : String) : Nat :=
  ((store.latestSlot operatorPubkey).map fun graph => graph.kickoffIndex + 1).getD 0

def findPendingGraphInitByGraphId (graphId : Uuid) : Option PendingGraphInit :=
  store.sessions.rows.find? fun session => session.graphId = graphId

def deletePendingGraphInit (instanceId : Uuid) (operatorPubkey : String) : GraphStore :=
  { store with sessions := store.sessions.delete fun session =>
      session.instanceId = instanceId ∧ session.operatorPubkey = operatorPubkey }

end GraphStore

structure GraphAggregate where
  actor : Actor
  relayer : Bool
  localPeer : String
  localOperator : Option String
  holdsInstanceKey : Uuid → Bool
  isRegisteredPeer : String → Bool

structure GraphCodecs where
  sha256 : Bytes → Bytes
  decodePlan : Bytes → Except String GraphPlan
  loadState : String → Option GraphState
  storeState : GraphState → String
  lookupBytes : GraphLookup → Bytes
  signalBytes : PegoutSignal → Bytes
  kickoffParams : String → Bytes
  topicName : String → String

structure ApplyContext where
  now : Int
  graphId : Uuid
  current : Option EngineAggregate
  jobs : JobTable

namespace ApplyContext

def aggregate (ctx : ApplyContext) : AggregateRef := graphRef ctx.graphId

end ApplyContext

structure GraphApply where
  store : GraphStore
  writes : List HandlerWrite
  effects : Effects
  state : GraphState

namespace GraphApply

def onEffects (apply : GraphApply) (f : Effects → Effects) : GraphApply :=
  { apply with effects := f apply.effects }

def recordEvent (apply : GraphApply) (event : NewEngineInboxEvent) (now : Int) : GraphApply :=
  { apply with writes := apply.writes ++ [.recordEvent event now] }

end GraphApply

def slotRef (operatorPubkey : String) (graphNonce : Nat) : String :=
  s!"slot:{operatorPubkey}:{graphNonce}"

def WaitingFor.on (aggregate : AggregateRef) (detail : String) : WaitingFor :=
  ⟨aggregate.wakeRef, detail⟩

def parkedMessageTtlSecs : Int := 2 * 24 * 60 * 60

def buildReadyEvent (graphId : Uuid) : NewEngineInboxEvent where
  eventId := "graph:" ++ graphId.hyphenated ++ ":build-ready"
  aggregate := graphRef graphId
  kind := "build_ready"
  source := .local
  author := ""
  admissionClass := ""
  payload := []
  ack := none

def graphEndorsedEvent (instanceId graphId : Uuid) : NewEngineInboxEvent where
  eventId := "instance:" ++ instanceId.hyphenated ++ ":graph-endorsed:" ++ graphId.hyphenated
  aggregate := ⟨"instance", instanceId.hyphenated⟩
  kind := "graph_endorsed"
  source := .local
  author := ""
  admissionClass := ""
  payload := utf8 (Json.object [("graph_id", Json.string graphId.hyphenated)])
  ack := none

namespace GraphAggregate

variable (handler : GraphAggregate) (codecs : GraphCodecs) (ctx : ApplyContext)

def owns (row : Graph) : Bool :=
  handler.actor = .operator && handler.localOperator = some row.operatorPubkey

def enqueueSetupJob (apply : GraphApply) (action : String) (payload : Bytes) : GraphApply :=
  apply.onEffects (·.enqueueJob
    (JobSpec.new codecs.sha256 ctx.aggregate jobPhase action (jobPool action) payload))

/-- A message that waits for a definition; the fetch is spent on registered authors only. -/
def parkForDefinition (apply : GraphApply) (inbound : InboundMessage) (createdAt : Int)
    (lookup : GraphLookup) (waiting : WaitingFor) : GraphApply × ApplyResult :=
  if apply.store.instanceFailed inbound.instanceId then (apply, .applied)
  else
    let waited := ctx.now - createdAt
    if waited > parkedMessageTtlSecs then
      (apply, .rejected s!"waited {waited}s for the {waiting.detail}; giving up")
    else if handler.isRegisteredPeer inbound.author then
      (enqueueSetupJob codecs ctx apply jobFetchGraph (codecs.lookupBytes lookup), .waiting waiting)
    else (apply, .waiting waiting)

def GraphState.learn (state : GraphState) (inbound : InboundMessage) : GraphState :=
  { state with
    instanceId := state.instanceId <|> some inbound.instanceId
    operatorPubkey := state.operatorPubkey <|> inbound.operatorPubkey
    graphNonce := state.graphNonce <|> inbound.graphNonce }

/-- The checks by kind; a message that passes them goes to its job (none). -/
def checkMessage (apply : GraphApply) (status : Option GraphStatus) (kind : String)
    (inbound : InboundMessage) (createdAt : Int) : Option (GraphApply × ApplyResult) :=
  if kind = "InitGraph" then
    if status.isSome then some (apply, .applied) else none
  else if kind = "GenCircuits" ∨ kind = "SolderingProofReady" then
    if (apply.store.findPendingGraphInitByGraphId ctx.graphId).all
        (·.instanceId ≠ inbound.instanceId) then some (apply, .applied)
    else none
  else if kind = "CreateGraph" then
    match handler.actor, inbound.operatorPubkey, inbound.graphNonce with
    | .committee, some operatorPubkey, some graphNonce =>
        -- one definition for a slot, and the slot before it first
        match (apply.store.findGraphByOperatorSlot operatorPubkey graphNonce).filter
          (·.graphId ≠ ctx.graphId) with
        | some existing =>
            some (apply, .rejected (s!"slot {operatorPubkey}:{graphNonce} already holds graph " ++
              existing.graphId.hyphenated))
        | none =>
            if graphNonce > 0 ∧ (apply.store.findGraphByOperatorSlot operatorPubkey
              (graphNonce - 1)).isNone then
              some (handler.parkForDefinition codecs ctx apply inbound createdAt
                (.slot operatorPubkey (graphNonce - 1)) ⟨slotRef operatorPubkey (graphNonce - 1),
                  s!"previous graph definition for slot {graphNonce}"⟩)
            else none
    | _, _, _ => none
  else if kind = "VerifierGraphParamsEndorsement" ∨ kind = "NonceGeneration" ∨
      kind = "AggNonceConsensus" ∨ kind = "CommitteePresign" ∨ kind = "EndorseGraph" then
    if status.isNone then
      if handler.actor = .operator then some (apply, .applied)
      else
        some (handler.parkForDefinition codecs ctx apply inbound createdAt
          (.id inbound.instanceId ctx.graphId false)
            (WaitingFor.on ctx.aggregate "graph definition not stored yet"))
    else if signingRoundOver status then some (apply, .applied)
    else none
  else if kind = "GraphFinalize" then
    if apply.state.finalized then some (apply, .applied) else none
  else none

def applyMessage (apply : GraphApply) (status : Option GraphStatus) (kind : String)
    (inbound : InboundMessage) (payload : Bytes) (createdAt : Int) : GraphApply × ApplyResult :=
  if inbound.author = handler.localPeer then (apply, .applied)
  else
    match routeAction kind handler.actor with
    | none => (apply, .rejected s!"{kind} is not handled by {handler.actor.display}")
    | some action =>
        if handler.actor = .committee ∧ kind ≠ "GraphFinalize" ∧
            handler.holdsInstanceKey inbound.instanceId = false then (apply, .applied)
        else if retired status then (apply, .applied)
        else
          let apply := { apply with state := GraphState.learn apply.state inbound }
          match handler.checkMessage codecs ctx apply status kind inbound createdAt with
          | some ended => ended
          | none => (enqueueSetupJob codecs ctx apply action payload, .applied)

def outboxMessage (message : PlannedMessage) : OutboxMessage where
  outboxId := message.outboxId
  phaseRef := message.phaseRef
  kind := message.kind
  topic := codecs.topicName message.actor
  payload := message.payload
  ackSet := message.ackSet

/-- A follow-up job; builds of one operator run one at a time, behind an event of their own. -/
def applyNextJob (apply : GraphApply) (next : NextJob) : GraphApply :=
  if next.action = jobBuildGraph then apply.recordEvent (buildReadyEvent ctx.graphId) ctx.now
  else
    let phase :=
      if next.action = jobPostGraphData then phasePost
      else if next.action ∈ pegoutJobs then phaseSettlement
      else jobPhase
    let job := JobSpec.new codecs.sha256 ctx.aggregate phase next.action
      (jobPool next.action) next.params
    let job :=
      match next.delaySecs with
      | some delay => job.withRunAfter (ctx.now + max delay 0)
      | none => job
    apply.onEffects (·.enqueueJob job)

def deliverPlan (apply : GraphApply) (plan : GraphPlan) : GraphApply :=
  { apply with
    state := apply.state.merge plan.state
    effects := plan.closeRows.foldl (fun effects row => effects.closeOutbox (.row row) "superseded")
      ((plan.messages.map (outboxMessage codecs)).foldl Effects.send apply.effects) }

def applyPlan (apply : GraphApply) (plan : GraphPlan) : GraphApply :=
  let apply := deliverPlan codecs apply plan
  let apply := plan.next.foldl (applyNextJob codecs ctx) apply
  let apply :=
    match plan.deletePendingSession, apply.state.instanceId, apply.state.operatorPubkey with
    | true, some instanceId, some operatorPubkey =>
        { apply with store := apply.store.deletePendingGraphInit instanceId operatorPubkey }
    | _, _, _ => apply
  let apply :=
    match plan.notifyInstanceEndorsed, apply.state.instanceId with
    | true, some instanceId => apply.recordEvent (graphEndorsedEvent instanceId ctx.graphId) ctx.now
    | _, _ => apply
  apply.onEffects fun effects => plan.wakeRefs.foldl Effects.wake effects

/-- The plan that is applied: late setup actions of a retired graph are dropped except for their
wakes, those of peg-out jobs are not. -/
def planFor (status : Option GraphStatus) (action : String) (plan : GraphPlan) : GraphPlan :=
  if retired status ∧ action ∉ pegoutJobs then { wakeRefs := plan.wakeRefs } else plan

def applyJobResult (apply : GraphApply) (status : Option GraphStatus) (result : JobResultEvent) :
    GraphApply × ApplyResult :=
  let cleared (apply : GraphApply) : GraphApply × ApplyResult :=
    ({ apply with writes := apply.writes ++ [.clearJobResult result.jobId] }, .applied)
  match result.outcome with
  | .done bytes =>
      match codecs.decodePlan bytes with
      | .error error => (apply, .rejected s!"malformed plan from {result.action}: {error}")
      | .ok plan => cleared (applyPlan codecs ctx apply (planFor status result.action plan))
  | .failed _ =>
      match apply.state.operatorPubkey with
      | some operatorPubkey =>
          if result.action = jobBuildGraph then
            cleared (apply.onEffects
              (·.wake (slotRef operatorPubkey (apply.store.nextSlot operatorPubkey))))
          else cleared apply
      | none => cleared apply
  | .cancelled | .poisoned _ => cleared apply

def predecessorUnsettled (store : GraphStore) (operatorPubkey : String) (graphNonce : Nat) :
    Option String :=
  if graphNonce = 0 then none
  else
    match store.findGraphByOperatorSlot operatorPubkey (graphNonce - 1) with
    | some previous =>
        if previous.status.isClosed then none
        else some (s!"previous slot {previous.kickoffIndex} (graph " ++
            previous.graphId.hyphenated ++
          s!") is {previous.status.display}")
    | none => some s!"previous slot {graphNonce - 1} is not stored"

def kickoffJob (action txHash : String) : JobSpec :=
  JobSpec.new codecs.sha256 ctx.aggregate phaseKickoff action (pegoutJobPool action)
    (codecs.kickoffParams txHash)

/-- A new withdraw replaces the active one: the cancel between them was missed. -/
def replaceWithdraw (apply : GraphApply) (txHash : String) : GraphApply :=
  match apply.state.withdraw.filter (· ≠ txHash) with
  | some active =>
      let effects := [jobKickoff, jobSettlePredecessors].foldl
        (fun effects action => effects.cancelJob (kickoffJob codecs ctx action active).jobId)
          apply.effects
      { apply with
        effects := effects
        state := { apply.state with
          withdraw := some txHash
          retiredWithdraws := apply.state.retiredWithdraws ++ [active] } }
  | none => { apply with state := { apply.state with withdraw := some txHash } }

def applyWithdrawInit (apply : GraphApply) (row : Option Graph) (txHash : String) :
    GraphApply × ApplyResult :=
  match row with
  | none => (apply, .applied)
  | some row =>
      if handler.owns row = false then (apply, .applied)
      else if txHash ∈ apply.state.retiredWithdraws then (apply, .applied)
      else if row.status.isClosed ∨ row.status.isPegoutStarted then
        ({ apply with state := { apply.state with withdraw := none } }, .applied)
      else
        let apply := replaceWithdraw codecs ctx apply txHash
        let settle := kickoffJob codecs ctx jobSettlePredecessors txHash
        match predecessorUnsettled apply.store row.operatorPubkey row.kickoffIndex with
        | none =>
            (apply.onEffects fun effects => (effects.cancelJob settle.jobId).enqueueJob
              (kickoffJob codecs ctx jobKickoff txHash), .applied)
        | some detail =>
            (apply.onEffects (·.enqueueJob settle),
              .waiting ⟨slotRef row.operatorPubkey (row.kickoffIndex - 1), detail⟩)

end GraphAggregate

def decideStatus (scan : ChainScan) (instanceFailed : Bool) : Option GraphStatus :=
  match scan.stage with
  | .preKickoff | .operatorKickOff | .challenge | .disprove | .operatorTake1 | .operatorTake2
  | .skipped => some scan.stage
  | .operatorDataPushed =>
      if scan.unusable.isSome then some .obsoleted else some .operatorDataPushed
  | .operatorPresigned | .committeePresigned =>
      if scan.unusable.isSome ∨ instanceFailed then some .obsoleted else none
  | .obsoleted => if scan.unusable.isSome then some .obsoleted else none

/-- The job a role runs for a signal; `own` says whether the graph belongs to the local operator. -/
def routeSignal (signal : PegoutSignal) (actor : Actor) (relayer own : Bool) : Option String :=
  let when (condition : Bool) (action : String) : Option String :=
    if condition then some action else none
  match signal, actor with
  | .preKickoffSent, .verifier => some jobEnforcePreviousSlot
  | .kickoffSent, .committee => when relayer jobProceedWithdraw
  | .kickoffSent, .verifier => some jobChallengeKickoff
  | .challengeSent _, .operator => when own jobWatchtowerChallengeInit
  | .watchtowerChallengeInitSent, .watchtower => some jobWatchtowerChallenge
  | .assertSent _, .watchtower => some jobWatchtowerProofTimeout
  | .watchtowerChallengeSent _, .operator => when own jobChallengeAck
  | .watchtowerChallengeTimeout, .operator => when own jobWatchtowerTimeout
  | .nackReady _, .verifier => some jobChallengeNack
  | .operatorCommitPubinReady, .operator => when own jobCommitPubin
  | .operatorCommitPubinTimeout, .verifier => some jobCommitTimeout
  | .assertReady, .operator => when own jobProverAssert
  | .assertSent _, .verifier => some jobVerifierAssert
  | .challengeAssertSent _ _, .operator => when own jobWronglyChallenged
  | .wronglyChallengeTimeout _ _, .verifier => some jobDisprove
  | .disproveSent _ _ _, .committee => when relayer jobFinishDisproved
  | .take1Ready, .operator => when own jobTake1
  | .take1Sent, .committee => when relayer jobFinishHappy
  | .take2Ready, .operator => when own jobTake2
  | .take2Sent, .committee => when relayer jobFinishUnhappy
  | _, _ => none

namespace GraphAggregate

variable (handler : GraphAggregate) (codecs : GraphCodecs) (ctx : ApplyContext)

def applySignal (own : Bool) (effects : Effects) (signal : PegoutSignal) : Effects :=
  let job (action : String) (signal : PegoutSignal) : JobSpec :=
    JobSpec.new codecs.sha256 ctx.aggregate phaseSettlement action (pegoutJobPool action)
      (codecs.signalBytes signal)
  let effects :=
    match routeSignal signal handler.actor handler.relayer own with
    | some action => effects.enqueueJob (job action signal)
    | none => effects
  match signal with
  | .assertSent _ =>
      if handler.actor = .watchtower then
        effects.cancelJob (job jobWatchtowerChallenge .watchtowerChallengeInitSent).jobId
      else effects
  | _ => effects

def applyChainScan (apply : GraphApply) (row : Option Graph) (scan : ChainScan) :
    GraphApply × ApplyResult :=
  match row with
  | none => (apply, .applied)
  | some row =>
      let graphs :=
        match decideStatus scan (apply.store.instanceFailed row.instanceId) with
        | some target => (transitionGraphStatus apply.store.graphs row.instanceId ctx.graphId target
            .chainReconcile scan.subStatus ctx.now).1
        | none => apply.store.graphs
      let dead : Bool :=
        match scan.unusable with
        | some (.prekickoffInputSpent _ _) => true
        | _ => apply.state.dead
      ({ apply with
          store := { apply.store with graphs := graphs }
          state := { apply.state with dead := dead }
          effects := scan.signals.foldl (handler.applySignal codecs ctx (handler.owns row))
            apply.effects },
        .applied)

end GraphAggregate

end BitvmNode.Graphs
