import BitvmNode.Engine.Database

/-!
# Job results

A job that ends for good is reported to its aggregate as an inbox event.
-/

namespace BitvmNode.Engine

open Reasoning

inductive JobResultOutcome where
  | done (result : Bytes)
  | failed (error : String)
  | cancelled
  | poisoned (error : String)
  deriving DecidableEq

structure JobResultEvent where
  (jobId phase action : String)
  generation : Nat
  stale : Bool
  outcome : JobResultOutcome

def JobResultOutcome.toJson : JobResultOutcome → String
  | .done result => Json.object [("Done", Json.array (result.map fun byte => Json.nat byte.toNat))]
  | .failed error => Json.object [("Failed", Json.string error)]
  | .cancelled => Json.string "Cancelled"
  | .poisoned error => Json.object [("Poisoned", Json.string error)]

namespace JobResultEvent

def toJson (event : JobResultEvent) : String :=
  Json.object
    [("job_id", Json.string event.jobId), ("phase", Json.string event.phase),
      ("action", Json.string event.action), ("generation", Json.nat event.generation),
      ("stale", Json.bool event.stale), ("outcome", event.outcome.toJson)]

def eventId (jobId : String) (generation : Nat) : String := s!"job-result:{jobId}:{generation}"

def jobResultKind : String := "job_result"

def intoNewEvent (event : JobResultEvent) (aggregate : AggregateRef) : NewEngineInboxEvent where
  eventId := eventId event.jobId event.generation
  aggregate := aggregate
  kind := jobResultKind
  source := .job
  author := ""
  admissionClass := ""
  payload := utf8 event.toJson
  ack := none

end JobResultEvent

variable {β : Type}

def reportedOutcome : EngineJobFinishOutcome → EngineJobFinish → Option (Bool × JobResultOutcome)
  | .applied .done, .done result => some (false, .done result)
  | .applied .cancelled, _ => some (false, .cancelled)
  | .applied .failed, .failed error => some (false, .failed error)
  | .applied .poisoned, .poisoned error => some (false, .poisoned error)
  | .applied _, _ => none
  | .stale _ _, .done result => some (true, .done result)
  | .stale _ _, .failed error => some (true, .failed error)
  | .stale _ _, .poisoned error => some (true, .poisoned error)
  | .stale _ _, .retry _ _ => none
  | .missing, _ => none

def recordJobFinish (config : EngineConfig) (db : Db β) (job : EngineJob) (generation : Nat)
    (finish : EngineJobFinish) (now : Int) : Db β :=
  let (jobs, outcome) := finishEngineJob db.jobs job.jobId generation finish now
  let poisons :=
    match outcome, finish with
    | .applied _, .poisoned reason =>
        markEngineAggregatePoisoned db.poisons job.aggregate job.action reason now
          config.poisonBackoff
    | .applied _, _ => releaseEnginePoison db.poisons job.aggregate job.action
    | _, _ => db.poisons
  let inbox :=
    match reportedOutcome outcome finish with
    | some (stale, outcome) =>
        let event : JobResultEvent :=
          { jobId := job.jobId, phase := job.phase, action := job.action, generation,
            stale, outcome }
        (insertEngineInboxEvent db.inbox (event.intoNewEvent job.aggregate) now).1
    | none => db.inbox
  { db with jobs, poisons, inbox }

def sweptEvent (job : EngineJob) : NewEngineInboxEvent :=
  let event : JobResultEvent :=
    { jobId := job.jobId
      phase := job.phase
      action := job.action
      generation := job.generation
      stale := false
      outcome := .cancelled }
  event.intoNewEvent job.aggregate

def insertSweptEvents (inbox : Inbox) (swept : List EngineJob) (now : Int) : Inbox :=
  swept.foldl (fun inbox job => (insertEngineInboxEvent inbox (sweptEvent job) now).1) inbox

/-- A cancelled job without a live holder is not run again: it is finished here, with its event. -/
def finishLapsedCancelled (db : Db β) (now : Int) : Db β :=
  let (jobs, swept) := finishLapsedCancelledEngineJobs db.jobs now
  { db with jobs, inbox := insertSweptEvents db.inbox swept now }

theorem colon_notMem_toDigits (n : Nat) : ':' ∉ Nat.toDigits 10 n := by
  intro h
  have hdigit := Nat.isDigit_of_mem_toDigits (by decide) (by decide) h
  exact absurd hdigit (by decide)

theorem JobResultEvent.eventId_toList (jobId : String) (generation : Nat) :
    (eventId jobId generation).toList =
      "job-result:".toList ++ (jobId.toList ++ ':' :: Nat.toDigits 10 generation) := by
  unfold eventId
  simp only [toString, Nat.repr_eq_ofList_toDigits, String.toList_append, String.toList_ofList]
  simp

theorem JobResultEvent.eventId_inj {jobId jobId' : String} {generation generation' : Nat}
    (h : eventId jobId generation = eventId jobId' generation') :
    jobId = jobId' ∧ generation = generation' := by
  have hlist := congrArg String.toList h
  rw [eventId_toList, eventId_toList] at hlist
  obtain ⟨hjob, hdigits⟩ := append_cons_inj_of_notMem_right (colon_notMem_toDigits _)
    (colon_notMem_toDigits _) (List.append_cancel_left hlist)
  have hvalue := congrArg (Nat.ofDigitChars 10 · 0) hdigits
  simp only [Nat.ofDigitChars_ten_toDigits] at hvalue
  exact ⟨String.toList_inj.mp hjob, hvalue⟩

def JobResultEvent.jsonHead (event : JobResultEvent) : String :=
  "\x7b" ++ (Json.string "job_id" ++ ":" ++ Json.string event.jobId) ++ "," ++
    (Json.string "phase" ++ ":" ++ Json.string event.phase) ++ "," ++
    (Json.string "action" ++ ":" ++ Json.string event.action) ++ "," ++
    (Json.string "generation" ++ ":" ++ Json.nat event.generation) ++ "," ++
      Json.string "stale" ++ ":"

theorem JobResultEvent.toJson_eq (event : JobResultEvent) :
    event.toJson = event.jsonHead ++ (Json.bool event.stale ++
      ("," ++ Json.string "outcome" ++ ":" ++ event.outcome.toJson ++ "\x7d")) := by
  simp only [toJson, jsonHead, Json.object, Json.items, List.map_cons, List.map_nil,
    String.append_assoc]

theorem JobResultEvent.payload_ne {event other : JobResultEvent}
    (hhead : event.jsonHead = other.jsonHead) (hne : event.stale ≠ other.stale ∨
      event.stale = other.stale ∧ event.outcome = .cancelled ∧ other.outcome ≠ .cancelled) :
    utf8 event.toJson ≠ utf8 other.toJson := by
  intro h
  have htail := utf8_inj h
  rw [toJson_eq, toJson_eq, hhead, String.append_right_inj] at htail
  have hlist := congrArg String.toList htail
  rcases hne with hstale | ⟨hstale, hcancelled, hother⟩
  · simp only [String.toList_append, Json.bool] at hlist
    cases hevent : event.stale <;> cases hthis : other.stale <;> simp_all
  · simp only [hstale, String.toList_append, List.append_assoc, List.append_cancel_left_eq] at hlist
    cases houtcome : other.outcome with
    | cancelled => exact hother houtcome
    | done | failed | poisoned =>
      simp [hcancelled, houtcome, JobResultOutcome.toJson, Json.object, Json.string,
        String.toList_append] at hlist

end BitvmNode.Engine
