import BitvmNode.Engine.Jobs

/-!
# The inbox of the execution engine

Every event is recorded once, under an id that its producer derives from the content.  A row is
pending until a worker marks it; only a pending row can be marked, and only a failed one is armed
again.
-/

namespace BitvmNode.Engine

open Reasoning

inductive EngineInboxState where
  | pending
  | applied
  | failed
  | poisoned
  deriving DecidableEq

inductive EventSource where
  | network
  | chain
  | height
  | job
  | «local»
  deriving DecidableEq

structure EngineAckTarget where
  (peer deliveryId : String)

structure NewEngineInboxEvent where
  eventId : String
  aggregate : AggregateRef
  kind : String
  source : EventSource
  (author admissionClass : String)
  payload : Bytes
  ack : Option EngineAckTarget

/-- A row of the inbox.  A pending row with a `waitingRef` is parked. -/
structure EngineInboxEvent where
  seq : Nat
  eventId : String
  aggregate : AggregateRef
  shardKey : Nat
  kind : String
  source : EventSource
  (author admissionClass : String)
  payload : Option Bytes
  payloadSize : Nat
  state : EngineInboxState
  attempts : Nat
  nextAt : Int
  (waitingRef waitingDetail ackPeer ackDeliveryId : Option String)
  lastError : Option String
  (createdAt updatedAt : Int)
  appliedAt : Option Int
  deriving DecidableEq

def EngineInboxEvent.ackTarget (event : EngineInboxEvent) : Option EngineAckTarget :=
  match event.ackPeer, event.ackDeliveryId with
  | some peer, some deliveryId => some ⟨peer, deliveryId⟩
  | _, _ => none

inductive EngineInboxInsert where
  | inserted (seq : Nat)
  | duplicate (state : EngineInboxState) (ackAgain rearmed : Bool)

def engineShardKey (aggregate : AggregateRef) : Nat :=
  let offset : UInt64 := 0xcbf29ce484222325
  let prime : UInt64 := 0x00000100000001b3
  let hash := (utf8 aggregate.kind ++ utf8 ":" ++ utf8 aggregate.id).foldl
    (fun hash byte => (hash ^^^ byte.toUInt64) * prime) offset
  (hash >>> 1).toNat

abbrev InboxTable := Table EngineInboxEvent.eventId

structure Inbox where
  table : InboxTable
  lastSeq : Nat

namespace Inbox

def empty : Inbox := ⟨.empty, 0⟩

def find? (inbox : Inbox) (eventId : String) : Option EngineInboxEvent := inbox.table.find? eventId

end Inbox

def newInboxRow (seq : Nat) (event : NewEngineInboxEvent) (now : Int) : EngineInboxEvent where
  seq := seq
  eventId := event.eventId
  aggregate := event.aggregate
  shardKey := engineShardKey event.aggregate
  kind := event.kind
  source := event.source
  author := event.author
  admissionClass := event.admissionClass
  payload := some event.payload
  payloadSize := event.payload.length
  state := .pending
  attempts := 0
  nextAt := now
  waitingRef := none
  waitingDetail := none
  ackPeer := event.ack.map EngineAckTarget.peer
  ackDeliveryId := event.ack.map EngineAckTarget.deliveryId
  lastError := none
  createdAt := now
  updatedAt := now
  appliedAt := none

def rearmedRow (now : Int) (row : EngineInboxEvent) : EngineInboxEvent :=
  { row with
    state := .pending
    nextAt := now
    waitingRef := none
    waitingDetail := none
    lastError := none
    updatedAt := now }

variable (inbox : Inbox)

/-- Record an event once.  A known id is left as it is, except that a failed row is armed again. -/
def insertEngineInboxEvent (event : NewEngineInboxEvent) (now : Int) : Inbox × EngineInboxInsert :=
  match inbox.find? event.eventId with
  | none =>
      let seq := inbox.lastSeq + 1
      (⟨inbox.table.insertOrIgnore (newInboxRow seq event now), seq⟩, .inserted seq)
  | some existing =>
      let ackAgain : Bool :=
        match existing.state with
        | .applied => true
        | .pending => existing.waitingRef.isSome
        | .failed | .poisoned => false
      if existing.state = .failed then
        ({ inbox with
            table := inbox.table.update (fun row => row.eventId = event.eventId ∧
                row.state = .failed)
              (rearmedRow now) fun _ => rfl },
          .duplicate existing.state ackAgain true)
      else (inbox, .duplicate existing.state ackAgain false)

def nextRunnableEngineInboxEvent (poisons : PoisonTable) (shardCount shard : Nat)
    (now : Int) : Option EngineInboxEvent :=
  let heldBack (event : EngineInboxEvent) : Bool :=
    match poisons.find? (event.aggregate, event.kind) with
    | some poison => now < poison.blockedUntil
    | none => false
  let runnable := inbox.table.rows.filter fun event =>
    event.state = .pending ∧ event.nextAt ≤ now ∧ event.shardKey % shardCount = shard ∧
      heldBack event = false
  (runnable.insertionSort fun a b => a.seq ≤ b.seq).head?

/-! ## Marks

`UPDATE … WHERE event_id = ? AND state = 'Pending'`: the second component says whether a row was
hit. -/

def markPending (eventId : String) (set : EngineInboxEvent → EngineInboxEvent)
    (hset : ∀ row, (set row).eventId = row.eventId) : Inbox × Bool :=
  ({ inbox with
      table := inbox.table.update (fun row => row.eventId = eventId ∧
        row.state = .pending) set hset },
    inbox.table.rows.any fun row => row.eventId = eventId ∧ row.state = .pending)

def appliedRow (now : Int) (row : EngineInboxEvent) : EngineInboxEvent :=
  { row with
    state := .applied
    payload := none
    waitingRef := none
    waitingDetail := none
    lastError := none
    appliedAt := some now
    updatedAt := now }

def waitingRow (waitingRef waitingDetail : String) (nextAt now : Int) (row : EngineInboxEvent) :
    EngineInboxEvent :=
  { row with
    waitingRef := some waitingRef
    waitingDetail := some waitingDetail
    nextAt := nextAt
    updatedAt := now }

def retryRow (error : String) (nextAt now : Int) (row : EngineInboxEvent) : EngineInboxEvent :=
  { row with
    attempts := row.attempts + 1
    nextAt := nextAt
    lastError := some error
    waitingRef := none
    waitingDetail := none
    updatedAt := now }

def givenUpRow (state : EngineInboxState) (reason : String) (now : Int) (row : EngineInboxEvent) :
    EngineInboxEvent :=
  { row with
    state := state
    attempts := row.attempts + 1
    lastError := some reason
    waitingRef := none
    waitingDetail := none
    updatedAt := now }

def markEngineInboxApplied (eventId : String) (now : Int) : Inbox × Bool :=
  markPending inbox eventId (appliedRow now) fun _ => rfl

def markEngineInboxWaiting (eventId waitingRef waitingDetail : String)
    (nextAt now : Int) : Inbox × Bool :=
  markPending inbox eventId (waitingRow waitingRef waitingDetail nextAt now) fun _ => rfl

def markEngineInboxRetry (eventId error : String) (nextAt now : Int) : Inbox × Bool :=
  markPending inbox eventId (retryRow error nextAt now) fun _ => rfl

def markEngineInboxFailed (eventId reason : String) (now : Int) : Inbox × Bool :=
  markPending inbox eventId (givenUpRow .failed reason now) fun _ => rfl

def markEngineInboxPoisoned (eventId reason : String) (now : Int) : Inbox × Bool :=
  markPending inbox eventId (givenUpRow .poisoned reason now) fun _ => rfl

def runNow (p : EngineInboxEvent → Prop) [DecidablePred p] (now : Int) : Inbox × Nat :=
  ({ inbox with
      table := inbox.table.update (fun row => row.state = .pending ∧ p row ∧ now < row.nextAt)
        (fun row => { row with nextAt := now, updatedAt := now }) fun _ => rfl },
    inbox.table.rows.countP fun row => row.state = .pending ∧ p row ∧ now < row.nextAt)

def wakeRef (now : Int) (sofar : Inbox × Nat) (waitingRef : String) : Inbox × Nat :=
  let (woke, hit) := runNow sofar.1 (·.waitingRef = some waitingRef) now
  if hit = 0 then sofar else (woke, sofar.2 + hit)

def wakeEngineInboxWaiting (refs : List String) (now : Int) : Inbox × Nat :=
  refs.foldl (wakeRef now) (inbox, 0)

def rearmEngineInboxWaiting (now : Int) : Inbox × Nat :=
  let (rearmed, hit) := runNow inbox (·.waitingRef.isSome) now
  if hit = 0 then (inbox, 0) else (rearmed, hit)

def rearmEngineInboxPending (now : Int) : Inbox × Nat := runNow inbox (fun _ => True) now

def purgeTerminalInboxRows (before : Int) : Inbox :=
  { inbox with table := inbox.table.delete fun row => row.state ≠ .pending ∧
    row.updatedAt < before }

def purgeRejectedNetworkInboxRows (before : Int) : Inbox :=
  { inbox with
    table := inbox.table.delete fun row =>
      row.source = .network ∧ row.state = .failed ∧ row.updatedAt < before }

end BitvmNode.Engine
