import BitvmNode.Engine.Jobs
import BitvmNode.Reasoning.Texts

/-!
# The outbox of the execution engine

Messages that the publisher sends again and again until they are closed: by an aggregate, or, for a
heavy message, by the last outstanding acknowledgement.
-/

namespace BitvmNode.Engine

open Reasoning

inductive EngineOutboxState where
  | «open»
  | closed
  deriving DecidableEq

abbrev AckSet := Table (Prod.fst : String × String → String)

structure NewEngineOutboxMessage where
  outboxId : String
  aggregate : AggregateRef
  (phaseRef kind topic : String)
  payload : Bytes
  ackSet : Option AckSet
  firstAt : Int

structure EngineOutboxMessage where
  outboxId : String
  aggregate : AggregateRef
  (phaseRef kind topic : String)
  payload : Bytes
  ackSet : Option AckSet
  state : EngineOutboxState
  closeReason : Option String
  publishCount : Nat
  (nextAt leaseUntil : Int)
  lastError : Option String
  (createdAt updatedAt : Int)
  closedAt : Option Int

abbrev OutboxTable := Table EngineOutboxMessage.outboxId

inductive EngineOutboxCloseTarget where
  | row (outboxId : String)
  | phase (owner : AggregateRef) (phaseRef : String)
  | aggregate (owner : AggregateRef)

inductive EngineOutboxAck where
  | matched (outboxId : String) (closed : Bool)
  | noMatch

def newOutboxRow (message : NewEngineOutboxMessage) (now : Int) : EngineOutboxMessage where
  outboxId := message.outboxId
  aggregate := message.aggregate
  phaseRef := message.phaseRef
  kind := message.kind
  topic := message.topic
  payload := message.payload
  ackSet := message.ackSet
  state := .open
  closeReason := none
  publishCount := 0
  nextAt := message.firstAt
  leaseUntil := 0
  lastError := none
  createdAt := now
  updatedAt := now
  closedAt := none

variable (outbox : OutboxTable)

def insertEngineOutboxMessage (message : NewEngineOutboxMessage) (now : Int) :
    OutboxTable × Bool :=
  (outbox.insertOrIgnore (newOutboxRow message now), (outbox.find? message.outboxId).isNone)

def OutboxDue (message : EngineOutboxMessage) (now : Int) : Prop :=
  message.state = .open ∧ message.nextAt ≤ now ∧ message.leaseUntil ≤ now

instance (message : EngineOutboxMessage) (now : Int) : Decidable (OutboxDue message now) :=
  inferInstanceAs (Decidable (_ ∧ _))

def claimEngineOutboxMessage (outboxId : String) (now leaseUntil : Int) :
    OutboxTable × Option EngineOutboxMessage :=
  let claimable (message : EngineOutboxMessage) : Prop :=
    message.outboxId = outboxId ∧ OutboxDue message now
  let lease (message : EngineOutboxMessage) : EngineOutboxMessage :=
    { message with leaseUntil := leaseUntil, updatedAt := now }
  (outbox.update claimable lease fun _ => rfl, (outbox.returning claimable lease).head?)

def outboxCandidates (now : Int) (limit : Nat) : List String :=
  let due := outbox.rows.filter fun message => OutboxDue message now
  let sorted := due.insertionSort fun a b =>
    a.nextAt < b.nextAt ∨ a.nextAt = b.nextAt ∧ a.createdAt ≤ b.createdAt
  (sorted.take limit).map EngineOutboxMessage.outboxId

def claimDueEngineOutboxMessages (now leaseUntil : Int) (limit : Nat) :
    OutboxTable × List EngineOutboxMessage :=
  (outboxCandidates outbox now limit).foldl (fun (outbox, claimed) outboxId =>
      let (outbox, row) := claimEngineOutboxMessage outbox outboxId now leaseUntil
      (outbox, claimed ++ row.toList))
    (outbox, [])

def recordEngineOutboxPublish (outboxId : String) (nextAt now : Int) : OutboxTable :=
  outbox.update (fun message => message.outboxId = outboxId ∧ message.state = .open) (fun message =>
      { message with
        publishCount := message.publishCount + 1
        nextAt := nextAt
        leaseUntil := 0
        lastError := none
        updatedAt := now }) fun _ => rfl

def recordEngineOutboxPublishFailure (outboxId error : String) (nextAt now : Int) : OutboxTable :=
  outbox.update (fun message => message.outboxId = outboxId ∧ message.state = .open) (fun message =>
      { message with nextAt := nextAt, leaseUntil := 0, lastError := some error, updatedAt := now })
    fun _ => rfl

def closedRow (reason : String) (now : Int) (message : EngineOutboxMessage) : EngineOutboxMessage :=
  { message with
    state := .closed
    payload := []
    closeReason := some reason
    closedAt := some now
    leaseUntil := 0
    updatedAt := now }

def EngineOutboxCloseTarget.Hits (target : EngineOutboxCloseTarget)
    (message : EngineOutboxMessage) : Prop :=
  match target with
  | .row outboxId => message.outboxId = outboxId
  | .phase owner phaseRef => message.aggregate = owner ∧ message.phaseRef = phaseRef
  | .aggregate owner => message.aggregate = owner

instance (target : EngineOutboxCloseTarget) (message : EngineOutboxMessage) :
    Decidable (target.Hits message) :=
  match target with
  | .row outboxId => inferInstanceAs (Decidable (message.outboxId = outboxId))
  | .phase owner phaseRef =>
      inferInstanceAs (Decidable (message.aggregate = owner ∧ message.phaseRef = phaseRef))
  | .aggregate owner => inferInstanceAs (Decidable (message.aggregate = owner))

def closeEngineOutbox (target : EngineOutboxCloseTarget) (reason : String)
    (now : Int) : OutboxTable :=
  outbox.update (fun message => target.Hits message ∧ message.state = .open) (closedRow reason now)
    fun _ => rfl

def ackSetJson (ackSet : AckSet) : String :=
  Json.object (ackSet.rows.map fun (peer, deliveryId) => (peer, Json.string deliveryId))

def mentions (text part : String) : Bool := text.toList.tails.any part.toList.isPrefixOf

def acknowledgedRow (peer : String) (now : Int) (message : EngineOutboxMessage) :
    EngineOutboxMessage :=
  let rest := message.ackSet.map fun ackSet => ackSet.delete (·.1 = peer)
  if rest.all (·.rows.isEmpty) then { closedRow "acked" now message with ackSet := rest }
  else { message with ackSet := rest, updatedAt := now }

/-- Only a peer that is outstanding with exactly this delivery id counts.  The first row that
matches takes the acknowledgement. -/
def acknowledgeEngineOutbox (peer deliveryId : String) (now : Int) :
    OutboxTable × EngineOutboxAck :=
  let candidate (message : EngineOutboxMessage) : Bool :=
    message.state = .open ∧ message.ackSet.any fun ackSet =>
      mentions (ackSetJson ackSet) deliveryId ∧ ackSet.find? peer = some (peer, deliveryId)
  match outbox.rows.find? candidate with
  | none => (outbox, .noMatch)
  | some message =>
      (outbox.update (fun row => row.outboxId = message.outboxId ∧ row.state = .open)
          (acknowledgedRow peer now) fun row => by
            unfold acknowledgedRow; dsimp only; split <;> rfl,
        .matched message.outboxId ((acknowledgedRow peer now message).state = .closed))

def resetEngineOutboxLeases : OutboxTable :=
  outbox.update (fun message => message.state = .open ∧ 0 < message.leaseUntil)
    (fun message => { message with leaseUntil := 0 }) fun _ => rfl

def purgeClosedOutboxRows (before : Int) : OutboxTable :=
  outbox.delete fun message => message.state = .closed ∧ message.updatedAt < before

end BitvmNode.Engine
