import BitvmNode.Signing.Committee
import BitvmNode.Engine.Jobs

/-!
# The status of a transaction graph

The status is written by several sources with different authority: a stored definition, a finalised
event of Goat, and the reconciliation with the Bitcoin chain.
-/

namespace BitvmNode.Graphs

open Reasoning Signing Engine

inductive GraphStatus where
  | operatorPresigned
  | committeePresigned
  | operatorDataPushed
  | preKickoff
  | operatorKickOff
  | challenge
  | disprove
  | obsoleted
  | skipped
  | operatorTake1
  | operatorTake2
  deriving DecidableEq

inductive GraphStatusSource where
  | definition
  | goatEvent
  | chainReconcile

inductive GraphStatusTransitionOutcome where
  | applied
  | alreadyCurrent
  | rejected (current : GraphStatus)
  | notFound
  deriving DecidableEq

namespace GraphStatus

def display : GraphStatus → String
  | .operatorPresigned => "OperatorPresigned"
  | .committeePresigned => "CommitteePresigned"
  | .operatorDataPushed => "OperatorDataPushed"
  | .preKickoff => "PreKickoff"
  | .operatorKickOff => "OperatorKickOff"
  | .challenge => "Challenge"
  | .disprove => "Disprove"
  | .obsoleted => "Obsoleted"
  | .skipped => "Skipped"
  | .operatorTake1 => "OperatorTake1"
  | .operatorTake2 => "OperatorTake2"

def getClosedStatus : List GraphStatus := [.operatorTake1, .operatorTake2, .skipped, .disprove]

def isClosed (status : GraphStatus) : Bool := getClosedStatus.contains status

def isObsoleted (status : GraphStatus) : Bool := status = .obsoleted

def getPegoutStartedStatus : List GraphStatus := [.operatorKickOff, .challenge]

def isPegoutStarted (status : GraphStatus) : Bool := getPegoutStartedStatus.contains status

def EARLY : List GraphStatus := [.operatorPresigned, .committeePresigned]

def EARLY_OR_OBSOLETED : List GraphStatus := [.operatorPresigned, .committeePresigned, .obsoleted]

def PRE_KICKOFF : List GraphStatus :=
  [.operatorPresigned, .committeePresigned, .operatorDataPushed, .obsoleted]

def KICKOFF : List GraphStatus :=
  [.operatorPresigned, .committeePresigned, .operatorDataPushed, .preKickoff, .obsoleted]

def CHALLENGE : List GraphStatus :=
  [.operatorPresigned, .committeePresigned, .operatorDataPushed, .preKickoff, .obsoleted,
    .operatorKickOff]

def TAKE1 : List GraphStatus :=
  [.operatorPresigned, .committeePresigned, .operatorDataPushed, .preKickoff, .obsoleted,
    .operatorKickOff]

def TAKE2_OR_DISPROVE : List GraphStatus :=
  [.operatorPresigned, .committeePresigned, .operatorDataPushed, .preKickoff, .obsoleted,
    .operatorKickOff, .challenge]

def SKIPPED : List GraphStatus :=
  [.operatorPresigned, .committeePresigned, .operatorDataPushed, .preKickoff, .obsoleted]

def OBSOLETED : List GraphStatus :=
  [.operatorPresigned, .committeePresigned, .operatorDataPushed, .preKickoff,
    .operatorKickOff, .challenge]

/-- The states from which `target` may be reached with the given evidence; closed states are in none
of the lists. -/
def allowedTransitionFrom (target : GraphStatus) (source : GraphStatusSource) : List GraphStatus :=
  match source with
  | .definition =>
      match target with
      | .committeePresigned => [.operatorPresigned]
      | _ => []
  | .goatEvent =>
      match target with
      | .operatorDataPushed => EARLY
      | .operatorTake1 => TAKE1
      | .operatorTake2 | .disprove => TAKE2_OR_DISPROVE
      | _ => []
  | .chainReconcile =>
      match target with
      | .committeePresigned => [.operatorPresigned]
      | .operatorDataPushed => EARLY_OR_OBSOLETED
      | .obsoleted => OBSOLETED
      | .preKickoff => PRE_KICKOFF
      | .operatorKickOff => KICKOFF
      | .challenge => CHALLENGE
      | .operatorTake1 => TAKE1
      | .operatorTake2 | .disprove => TAKE2_OR_DISPROVE
      | .skipped => SKIPPED
      | .operatorPresigned => []

end GraphStatus

def graphRef (graphId : Uuid) : AggregateRef := ⟨"graph", graphId.hyphenated⟩

structure Graph where
  (graphId instanceId : Uuid)
  kickoffIndex : Nat
  operatorPubkey : String
  status : GraphStatus
  subStatus : String
  (statusUpdatedAt updatedAt : Int)

abbrev GraphTable := Table Graph.graphId

def graphStatusTransitionOutcome (graphs : GraphTable) (instanceId graphId : Uuid)
    (target : GraphStatus) : GraphStatusTransitionOutcome :=
  match graphs.find? graphId with
  | none => .notFound
  | some current =>
      if current.instanceId ≠ instanceId then .notFound
      else if current.status = target then .alreadyCurrent
      else .rejected current.status

/-- The conditional update decides.  Every status of the enumeration is a protocol status, so the
check for those that are only displayed never fails. -/
def transitionGraphStatus (graphs : GraphTable) (instanceId graphId : Uuid) (target : GraphStatus)
    (source : GraphStatusSource) (subStatus : Option String) (now : Int) :
    GraphTable × GraphStatusTransitionOutcome :=
  let allowedFrom := target.allowedTransitionFrom source
  if allowedFrom = [] then (graphs, graphStatusTransitionOutcome graphs instanceId graphId target)
  else if graphs.rows.any fun row =>
      row.graphId = graphId ∧ row.instanceId = instanceId ∧ row.status ∈ allowedFrom then
    (graphs.update (fun row => row.graphId = graphId ∧ row.instanceId = instanceId ∧
        row.status ∈ allowedFrom)
      (fun row => { row with
        status := target
        subStatus := subStatus.getD row.subStatus
        statusUpdatedAt := now
        updatedAt := now }) fun _ => rfl, .applied)
  else
    match graphStatusTransitionOutcome graphs instanceId graphId target, subStatus with
    | .alreadyCurrent, some subStatus =>
        (graphs.update (fun row => row.graphId = graphId ∧ row.instanceId = instanceId ∧
            row.status = target)
          (fun row => { row with subStatus := subStatus, updatedAt := now }) fun _ =>
            rfl, .alreadyCurrent)
    | outcome, _ => (graphs, outcome)

def obsoleteGraph (graphs : GraphTable) (instanceId graphId : Uuid) (now : Int) :
    GraphTable × Bool :=
  let (graphs, outcome) :=
    transitionGraphStatus graphs instanceId graphId .obsoleted .chainReconcile none now
  (graphs, outcome = .applied ∨ outcome = .alreadyCurrent)

def obsoleteInstanceGraphsExcept (graphs : GraphTable) (instanceId : Uuid)
    (retainedGraphId : Option Uuid) (now : Int) : GraphTable :=
  let ofInstance := graphs.rows.filter fun graph => graph.instanceId = instanceId
  ofInstance.foldl (fun graphs graph =>
    if some graph.graphId ≠ retainedGraphId then
      (obsoleteGraph graphs instanceId graph.graphId now).1
    else graphs) graphs

section Transition

variable {graphs : GraphTable} {graphId : Uuid} {row : Graph}
  (hrow : graphs.find? graphId = some row)

include hrow

theorem graphStatusTransitionOutcome_of_find? (target : GraphStatus) :
    graphStatusTransitionOutcome graphs row.instanceId graphId target =
      if row.status = target then .alreadyCurrent else .rejected row.status := by
  unfold graphStatusTransitionOutcome
  rw [hrow]
  exact if_neg (fun h => h rfl)

theorem transitionGraphStatus_spec (target : GraphStatus)
    (source : GraphStatusSource) (subStatus : Option String) (now : Int) :
    (((transitionGraphStatus graphs row.instanceId graphId target source subStatus now).1.find?
        graphId).map Graph.status =
      some (if row.status ∈ target.allowedTransitionFrom source then target else row.status)) ∧
    (transitionGraphStatus graphs row.instanceId graphId target source subStatus now).2 =
      if row.status ∈ target.allowedTransitionFrom source then .applied
      else if row.status = target then .alreadyCurrent else .rejected row.status := by
  obtain ⟨hmem, hkey⟩ := Table.find?_eq_some.mp hrow
  have houtcome := graphStatusTransitionOutcome_of_find? hrow target
  by_cases hallowed : row.status ∈ target.allowedTransitionFrom source
  · -- the conditional update finds the row
    have hne : target.allowedTransitionFrom source ≠ [] := List.ne_nil_of_mem hallowed
    have hany : graphs.rows.any (fun r => r.graphId = graphId ∧ r.instanceId = row.instanceId ∧
        r.status ∈ target.allowedTransitionFrom source) = true := by
      rw [List.any_eq_true]
      exact ⟨row, hmem, by simp [hkey, hallowed]⟩
    unfold transitionGraphStatus
    simp only [if_neg hne, if_pos hany, if_pos hallowed]
    rw [Table.find?_update (by intro _; rfl), hrow, Option.map_some, Option.map_some]
    simp [hkey, hallowed]
  · -- only the sub-status of a replay may change
    have hany : ¬ graphs.rows.any (fun r => r.graphId = graphId ∧ r.instanceId = row.instanceId ∧
        r.status ∈ target.allowedTransitionFrom source) = true := by
      rw [List.any_eq_true]
      rintro ⟨other, hother, hp⟩
      obtain ⟨hid, -, hstatus⟩ := of_decide_eq_true hp
      have hsame : graphs.find? graphId = some other := Table.find?_eq_some.mpr ⟨hother, hid⟩
      rw [hrow] at hsame
      exact hallowed (Option.some.inj hsame ▸ hstatus)
    unfold transitionGraphStatus
    by_cases hnil : target.allowedTransitionFrom source = []
    · simp only [if_pos hnil, if_neg hallowed]
      exact ⟨by rw [hrow, Option.map_some], houtcome⟩
    · simp only [if_neg hnil, if_neg hany, if_neg hallowed, houtcome]
      by_cases hcurrent : row.status = target
      · cases subStatus with
        | none => simp [hcurrent, hrow]
        | some text =>
          simp only [if_pos hcurrent]
          rw [Table.find?_update (by intro _; rfl), hrow]
          simp only [Option.map_some]
          refine ⟨congrArg some ?_, trivial⟩
          split <;> rfl
      · simp [hcurrent, hrow]

theorem exists_find?_transitionGraphStatus (instanceId : Uuid)
    (target : GraphStatus) (source : GraphStatusSource) (subStatus : Option String) (now : Int) :
    ∃ stored,
      (transitionGraphStatus graphs instanceId graphId target source subStatus now).1.find?
        graphId =
        some stored ∧ stored.instanceId = row.instanceId := by
  dsimp only [transitionGraphStatus]
  split
  · exact ⟨row, hrow, rfl⟩
  · split
    · rw [Table.find?_update (by intro _; rfl), hrow, Option.map_some]
      refine ⟨_, rfl, ?_⟩
      split <;> rfl
    · split
      · rw [Table.find?_update (by intro _; rfl), hrow, Option.map_some]
        refine ⟨_, rfl, ?_⟩
        split <;> rfl
      · exact ⟨row, hrow, rfl⟩

end Transition

theorem GraphStatus.not_isClosed_of_allowed {status target : GraphStatus}
    {source : GraphStatusSource} (h : status ∈ target.allowedTransitionFrom source) :
    status.isClosed = false := by
  have hall : ∀ source target, ∀ status ∈ GraphStatus.allowedTransitionFrom target source,
      status.isClosed = false := by
    intro source target
    cases source <;> cases target <;> decide
  exact hall source target status h

end BitvmNode.Graphs
