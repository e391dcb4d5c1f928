import Mathlib.Data.List.Sort
import BitvmNode.Reasoning.Bytes
import BitvmNode.Reasoning.Tables

/-!
# The job table of the execution engine

A job is claimed with a lease and a new generation; its holder renews the lease and reports with its
generation. Every definition is one statement of the store, or the statements of one function in
order.
-/

namespace BitvmNode.Engine

open Reasoning

structure AggregateRef where
  (kind id : String)
  deriving DecidableEq

inductive JobPool where
  | cpu
  | pegout
  | network
  deriving DecidableEq

inductive EngineJobState where
  | pending
  | running
  | done
  | failed
  | cancelled
  | poisoned
  deriving DecidableEq

def EngineJobState.terminal : EngineJobState → Bool
  | .pending | .running => false
  | .done | .failed | .cancelled | .poisoned => true

structure EngineJob where
  jobId : String
  aggregate : AggregateRef
  (phase action : String)
  pool : JobPool
  params : Option Bytes
  state : EngineJobState
  generation : Nat
  leaseUntil : Int
  attempts : Nat
  nextAt : Int
  deadlineAt : Option Int
  cancelRequested : Bool
  result : Option Bytes
  lastError : Option String
  (createdAt updatedAt : Int)
  finishedAt : Option Int
  deriving DecidableEq

structure NewEngineJob where
  jobId : String
  aggregate : AggregateRef
  (phase action : String)
  pool : JobPool
  params : Bytes
  deadlineAt : Option Int
  firstAt : Int

structure EnginePoison where
  aggregate : AggregateRef
  (action reason : String)
  poisonCount : Nat
  (poisonedAt blockedUntil updatedAt : Int)

def EnginePoison.key (poison : EnginePoison) : AggregateRef × String :=
    (poison.aggregate, poison.action)

abbrev JobTable := Table EngineJob.jobId

abbrev PoisonTable := Table EnginePoison.key

inductive EngineJobFinish where
  | done (result : Bytes)
  | retry (error : String) (nextAt : Int)
  | failed (error : String)
  | poisoned (error : String)

inductive EngineJobFinishOutcome where
  | applied (state : EngineJobState)
  | stale (currentGeneration : Nat) (state : EngineJobState)
  | missing
  deriving DecidableEq

inductive EngineJobInsert where
  | inserted
  | existing (state : EngineJobState)

def newJobRow (job : NewEngineJob) (now : Int) : EngineJob where
  jobId := job.jobId
  aggregate := job.aggregate
  phase := job.phase
  action := job.action
  pool := job.pool
  params := some job.params
  state := .pending
  generation := 0
  leaseUntil := 0
  attempts := 0
  nextAt := job.firstAt
  deadlineAt := job.deadlineAt
  cancelRequested := false
  result := none
  lastError := none
  createdAt := now
  updatedAt := now
  finishedAt := none

variable (jobs : JobTable)

def insertEngineJob (job : NewEngineJob) (now : Int) : JobTable × EngineJobInsert :=
  match jobs.find? job.jobId with
  | none => (jobs.insertOrIgnore (newJobRow job now), .inserted)
  | some row => (jobs, .existing row.state)

def othersLive (job : EngineJob) (now : Int) : Prop :=
  ∃ other ∈ jobs.rows, other.aggregate = job.aggregate ∧ other.jobId ≠ job.jobId ∧
    other.state = .running ∧ now < other.leaseUntil

instance (jobs : JobTable) (job : EngineJob) (now : Int) : Decidable (othersLive jobs job now) :=
  inferInstanceAs (Decidable (∃ other ∈ jobs.rows, _ ∧ _))

/-- Pending and due, or running with a lapsed lease and no cancel request. -/
def Due (job : EngineJob) (now : Int) : Prop :=
  job.state = .pending ∧ job.nextAt ≤ now ∨ job.state = .running ∧ job.leaseUntil ≤ now ∧
    job.cancelRequested = false

instance (job : EngineJob) (now : Int) : Decidable (Due job now) :=
  inferInstanceAs (Decidable (_ ∨ _))

variable (poisons : PoisonTable)

def heldBack (job : EngineJob) (now : Int) : Bool :=
  match poisons.find? (job.aggregate, job.action) with
  | some poison => now < poison.blockedUntil
  | none => false

def claimCandidates (pool : JobPool) (now : Int) (limit : Nat) : List String :=
  let due := jobs.rows.filter fun job =>
    job.pool = pool ∧ Due job now ∧ heldBack poisons job now = false ∧ ¬ othersLive jobs job now
  let sorted := due.insertionSort fun a b =>
    a.nextAt < b.nextAt ∨ a.nextAt = b.nextAt ∧ a.createdAt ≤ b.createdAt
  (sorted.take limit).map EngineJob.jobId

def claimedRow (now leaseUntil : Int) (job : EngineJob) : EngineJob :=
  { job with
    state := .running
    generation := job.generation + 1
    leaseUntil := leaseUntil
    attempts := job.attempts + 1
    updatedAt := now }

def claimEngineJob (jobId : String) (now leaseUntil : Int) : JobTable × Option EngineJob :=
  let claimable (job : EngineJob) : Prop :=
    job.jobId = jobId ∧ Due job now ∧ ¬ othersLive jobs job now
  (jobs.update claimable (claimedRow now leaseUntil) fun _ => rfl,
    (jobs.returning claimable (claimedRow now leaseUntil)).head?)

def claimDueEngineJobs (pool : JobPool)
    (now leaseUntil : Int) (limit : Nat) : JobTable × List EngineJob :=
  (claimCandidates jobs poisons pool now limit).foldl (fun (jobs, claimed) jobId =>
      let (jobs, row) := claimEngineJob jobs jobId now leaseUntil
      (jobs, claimed ++ row.toList))
    (jobs, [])

def Lapsed (job : EngineJob) (now : Int) : Prop :=
  job.state = .running ∧ job.leaseUntil ≤ now ∧ job.cancelRequested = true

instance (job : EngineJob) (now : Int) : Decidable (Lapsed job now) :=
  inferInstanceAs (Decidable (_ ∧ _))

def sweptRow (now : Int) (job : EngineJob) : EngineJob :=
  { job with
    state := .cancelled
    lastError := some "cancelled"
    leaseUntil := 0
    finishedAt := some now
    updatedAt := now }

def finishLapsedCancelledEngineJobs (now : Int) : JobTable × List EngineJob :=
  (jobs.update (Lapsed · now) (sweptRow now) fun _ => rfl,
    jobs.returning (Lapsed · now) (sweptRow now))

def HeldBy (jobId : String) (generation : Nat) (job : EngineJob) : Prop :=
  job.jobId = jobId ∧ job.generation = generation ∧ job.state = .running

instance (jobId : String) (generation : Nat) : DecidablePred (HeldBy jobId generation) :=
  fun _ => inferInstanceAs (Decidable (_ ∧ _))

/-- The lease itself is not looked at: a holder whose lease has lapsed may renew it. -/
def renewEngineJobLease (jobId : String) (generation : Nat)
    (leaseUntil now : Int) : JobTable × Bool :=
  (jobs.update (HeldBy jobId generation)
      (fun job => { job with leaseUntil := leaseUntil, updatedAt := now }) fun _ => rfl,
    jobs.rows.any fun job => HeldBy jobId generation job)

def finishValues (cancelRequested : Bool) :
    EngineJobFinish → EngineJobState × Option Bytes × Option String × Int
  | .done result => (if cancelRequested then .cancelled else .done, some result, none, 0)
  | .retry error nextAt =>
      if cancelRequested then (.cancelled, none, some "cancelled", 0)
      else (.pending, none, some error, nextAt)
  | .failed error => (.failed, none, some error, 0)
  | .poisoned error => (.poisoned, none, some error, 0)

def finishedRow (finish : EngineJobFinish) (now : Int) (job : EngineJob) : EngineJob :=
  let (state, result, error, nextAt) := finishValues job.cancelRequested finish
  { job with
    state := state
    result := result
    lastError := error
    nextAt := nextAt
    leaseUntil := 0
    finishedAt := if state.terminal then some now else none
    updatedAt := now }

def finishEngineJob (jobId : String) (generation : Nat) (finish : EngineJobFinish)
    (now : Int) : JobTable × EngineJobFinishOutcome :=
  match jobs.find? jobId with
  | none => (jobs, .missing)
  | some current =>
      if current.generation ≠ generation ∨ current.state ≠ .running then
        (jobs, .stale current.generation current.state)
      else
        (jobs.update (HeldBy jobId generation) (finishedRow finish now) fun job => by
            unfold finishedRow; rfl,
          .applied (finishValues current.cancelRequested finish).1)

def cancelledRow (now : Int) (job : EngineJob) : EngineJob :=
  { job with state := .cancelled, finishedAt := some now, updatedAt := now }

def flaggedRow (now : Int) (job : EngineJob) : EngineJob :=
  { job with cancelRequested := true, updatedAt := now }

def cancelRow (now : Int) (job : EngineJob) : EngineJob :=
  match job.state with
  | .pending => cancelledRow now job
  | .running => flaggedRow now job
  | _ => job

theorem cancelRow_jobId (now : Int) (job : EngineJob) : (cancelRow now job).jobId = job.jobId := by
  unfold cancelRow
  split <;> rfl

def cancelWhere (p : EngineJob → Prop) [DecidablePred p] (now : Int) : JobTable :=
  jobs.update p (cancelRow now) (cancelRow_jobId now)

def openRows (p : EngineJob → Prop) [DecidablePred p] : List EngineJob :=
  jobs.rows.filter fun job => p job ∧ job.state.terminal = false

def cancelEngineJob (jobId : String) (now : Int) : JobTable × Bool :=
  (cancelWhere jobs (·.jobId = jobId) now, !(openRows jobs (·.jobId = jobId)).isEmpty)

def cancelEngineJobsForAggregate (aggregate : AggregateRef) (now : Int) : JobTable × Nat :=
  (cancelWhere jobs (·.aggregate = aggregate) now, (openRows jobs (·.aggregate = aggregate)).length)

def cancelEngineJobsForPhase (aggregate : AggregateRef) (phase : String)
    (now : Int) : JobTable × Nat :=
  (openRows jobs fun job => job.aggregate = aggregate ∧ job.phase = phase).foldl
    (fun (jobs, cancelled) job =>
      let (jobs, hit) := cancelEngineJob jobs job.jobId now
      (jobs, if hit then cancelled + 1 else cancelled))
    (jobs, 0)

def clearEngineJobResult (jobId : String) (now : Int) : JobTable :=
  jobs.update (fun job => job.jobId = jobId ∧ job.state.terminal = true)
    (fun job => { job with result := none, params := none, updatedAt := now }) fun _ => rfl

def resetEngineJobLeases : JobTable :=
  jobs.update (fun job => job.state = .running ∧ 0 < job.leaseUntil)
    (fun job => { job with leaseUntil := 0 }) fun _ => rfl

def purgeEngineJobs (before : Int) : JobTable :=
  jobs.delete fun job => job.state.terminal = true ∧ job.updatedAt < before

end BitvmNode.Engine
