import BitvmNode.Engine.Inbox

/-!
# Steps of the inbox

The statements on the inbox in any order.  What a step can do to one row is said once, in
`InboxChange`.
-/

namespace BitvmNode.Engine

open Reasoning

inductive InboxOp where
  | insert (event : NewEngineInboxEvent)
  | applied (eventId : String)
  | waiting (eventId waitingRef waitingDetail : String) (nextAt : Int)
  | retry (eventId error : String) (nextAt : Int)
  | failed (eventId reason : String)
  | poisoned (eventId reason : String)
  | wake (refs : List String)
  | rearmWaiting
  | rearmPending
  | purgeTerminal (before : Int)
  | purgeRejected (before : Int)

structure InboxStep where
  now : Int
  op : InboxOp

variable (inbox : Inbox)

def InboxStep.exec (step : InboxStep) : Inbox :=
  match step.op with
  | .insert event => (insertEngineInboxEvent inbox event step.now).1
  | .applied eventId => (markEngineInboxApplied inbox eventId step.now).1
  | .waiting eventId waitingRef waitingDetail nextAt =>
      (markEngineInboxWaiting inbox eventId waitingRef waitingDetail nextAt step.now).1
  | .retry eventId error nextAt => (markEngineInboxRetry inbox eventId error nextAt step.now).1
  | .failed eventId reason => (markEngineInboxFailed inbox eventId reason step.now).1
  | .poisoned eventId reason => (markEngineInboxPoisoned inbox eventId reason step.now).1
  | .wake refs => (wakeEngineInboxWaiting inbox refs step.now).1
  | .rearmWaiting => (rearmEngineInboxWaiting inbox step.now).1
  | .rearmPending => (rearmEngineInboxPending inbox step.now).1
  | .purgeTerminal before => purgeTerminalInboxRows inbox before
  | .purgeRejected before => purgeRejectedNetworkInboxRows inbox before

def runInbox (steps : List InboxStep) : Inbox := steps.foldl InboxStep.exec inbox

theorem runInbox_append (steps more : List InboxStep) :
    runInbox inbox (steps ++ more) = runInbox (runInbox inbox steps) more := List.foldl_append

theorem find?_insertEngineInboxEvent (event : NewEngineInboxEvent) (now : Int) (k : String) :
    (insertEngineInboxEvent inbox event now).1.find? k =
      if k = event.eventId then
        some (match inbox.find? k with
          | none => newInboxRow (inbox.lastSeq + 1) event now
          | some row => if row.state = .failed then rearmedRow now row else row)
      else inbox.find? k := by
  unfold insertEngineInboxEvent
  cases hfind : inbox.find? event.eventId with
  | none =>
    change (inbox.table.insertOrIgnore _).find? k = _
    rw [Table.find?_insertOrIgnore]
    change (if k = event.eventId then _ else inbox.find? k) = _
    split_ifs with hk
    · subst hk
      change some ((inbox.find? _).getD _) = _
      rw [hfind]
      rfl
    · rfl
  | some existing =>
    by_cases hfailed : existing.state = .failed
    · simp only [hfailed, ↓reduceIte]
      rw [Inbox.find?, Table.find?_update (by intro _; rfl), ← Inbox.find?]
      split_ifs with hk
      · subst hk
        have hid : existing.eventId = event.eventId := Table.key_of_find? hfind
        simp only [hfind, Option.map_some, hid, true_and]
      · cases hrow : inbox.find? k with
        | none => rfl
        | some row =>
          have hid : row.eventId = k := Table.key_of_find? hrow
          rw [Option.map_some, if_neg (fun h => hk (hid.symm.trans h.1))]
    · simp only [if_neg hfailed]
      split_ifs with hk
      · subst hk
        simp only [hfind, if_neg hfailed]
      · rfl

def Inbox.payload? (k : String) : Option (Option Bytes) :=
  (inbox.find? k).map EngineInboxEvent.payload

variable {inbox : Inbox} {k : String}

theorem Inbox.payload?_eq_none : inbox.payload? k = none ↔ inbox.find? k = none :=
  Option.map_eq_none_iff

theorem payload?_insertEngineInboxEvent (inbox : Inbox) (event : NewEngineInboxEvent) (now : Int)
    (k : String) : (insertEngineInboxEvent inbox event now).1.payload? k =
      if k = event.eventId then some ((inbox.payload? k).getD (some event.payload))
      else inbox.payload? k := by
  unfold Inbox.payload?
  rw [find?_insertEngineInboxEvent]
  split_ifs with hk
  · cases inbox.find? k with
    | none => rfl
    | some row =>
      simp only [Option.map_some, Option.getD_some]
      split_ifs <;> rfl
  · rfl

theorem find?_markPending (inbox : Inbox) (eventId : String)
    (set : EngineInboxEvent → EngineInboxEvent) (hset : ∀ row, (set row).eventId = row.eventId)
    (k : String) :
    (markPending inbox eventId set hset).1.find? k = (inbox.find? k).map fun row =>
      if row.eventId = eventId ∧ row.state = .pending then set row else row :=
  Table.find?_update hset k

theorem find?_runNow (inbox : Inbox) (p : EngineInboxEvent → Prop) [DecidablePred p] (now : Int)
    (k : String) : (runNow inbox p now).1.find? k = (inbox.find? k).map fun row =>
      if row.state = .pending ∧ p row ∧ now < row.nextAt then
        { row with nextAt := now, updatedAt := now }
      else row :=
  Table.find?_update (by intro _; rfl) k

theorem runNow_of_miss (inbox : Inbox) (p : EngineInboxEvent → Prop) [DecidablePred p] (now : Int)
    (hmiss : (runNow inbox p now).2 = 0) : (runNow inbox p now).1 = inbox := by
  have hnone : ∀ row ∈ inbox.table.rows, ¬ (row.state = .pending ∧ p row ∧ now < row.nextAt) := by
    intro row hrow hhit
    apply List.countP_eq_zero.mp hmiss row hrow
    simpa using hhit
  obtain ⟨table, lastSeq⟩ := inbox
  simp only [runNow, Inbox.mk.injEq, and_true]
  exact Table.update_eq_self (by intro _; rfl) hnone

theorem wakeRef_fst (now : Int) (sofar : Inbox × Nat) (waitingRef : String) :
    (wakeRef now sofar waitingRef).1 = (runNow sofar.1 (·.waitingRef = some waitingRef) now).1 := by
  dsimp only [wakeRef]
  split_ifs with hmiss
  · exact (runNow_of_miss sofar.1 _ now hmiss).symm
  · rfl

theorem find?_wakeEngineInboxWaiting (inbox : Inbox) (refs : List String) (now : Int) (k : String) :
    (wakeEngineInboxWaiting inbox refs now).1.find? k = (inbox.find? k).map fun row =>
      if row.state = .pending ∧ (∃ ref ∈ refs, row.waitingRef = some ref) ∧ now < row.nextAt then
        { row with nextAt := now, updatedAt := now }
      else row := by
  -- the number of rows woken so far does not matter
  have hfold : ∀ sofar : Inbox × Nat, (refs.foldl (wakeRef now) sofar).1.find? k =
      (sofar.1.find? k).map fun row =>
        if row.state = .pending ∧ (∃ ref ∈ refs, row.waitingRef = some ref) ∧ now < row.nextAt then
          { row with nextAt := now, updatedAt := now }
        else row := by
    induction refs with
    | nil => simp
    | cons ref refs ih =>
      intro sofar
      rw [List.foldl_cons, ih, wakeRef_fst, find?_runNow, Option.map_map]
      congr 1
      funext row
      simp only [Function.comp, List.mem_cons, exists_eq_or_imp]
      -- a row that has been woken is due, and no later reference wakes it again
      by_cases hrow : row.state = .pending ∧ row.waitingRef = some ref ∧ now < row.nextAt
      · simp [hrow]
      · rw [if_neg hrow]
        congr 1
        apply propext
        constructor
        · rintro ⟨hstate, href, hlt⟩
          exact ⟨hstate, .inr href, hlt⟩
        · rintro ⟨hstate, hself | href, hlt⟩
          · exact absurd ⟨hstate, hself, hlt⟩ hrow
          · exact ⟨hstate, href, hlt⟩
  exact hfold (inbox, 0)

inductive InboxChange (step : InboxStep) (row : EngineInboxEvent) : Option EngineInboxEvent → Prop
  | same : InboxChange step row (some row)
  | rearmed (event : NewEngineInboxEvent) (hop : step.op = .insert event)
      (hid : row.eventId = event.eventId) (hstate : row.state = .failed) :
      InboxChange step row (some (rearmedRow step.now row))
  | applied (hop : step.op = .applied row.eventId) (hstate : row.state = .pending) :
      InboxChange step row (some (appliedRow step.now row))
  | parked (waitingRef waitingDetail : String) (nextAt : Int)
      (hop : step.op = .waiting row.eventId waitingRef waitingDetail nextAt)
      (hstate : row.state = .pending) :
      InboxChange step row (some (waitingRow waitingRef waitingDetail nextAt step.now row))
  | retried (error : String) (nextAt : Int) (hop : step.op = .retry row.eventId error nextAt)
      (hstate : row.state = .pending) :
      InboxChange step row (some (retryRow error nextAt step.now row))
  | failed (reason : String) (hop : step.op = .failed row.eventId reason)
      (hstate : row.state = .pending) :
      InboxChange step row (some (givenUpRow .failed reason step.now row))
  | poisoned (reason : String) (hop : step.op = .poisoned row.eventId reason)
      (hstate : row.state = .pending) :
      InboxChange step row (some (givenUpRow .poisoned reason step.now row))
  | woken (hop : (∃ refs, step.op = .wake refs) ∨ step.op = .rearmWaiting ∨ step.op = .rearmPending)
      (hstate : row.state = .pending) :
      InboxChange step row (some { row with nextAt := step.now, updatedAt := step.now })
  | purged (before : Int) (hop : step.op = .purgeTerminal before ∨ step.op = .purgeRejected before)
      (hstate : row.state ≠ .pending) : InboxChange step row none

variable {row : EngineInboxEvent}

theorem find?_markPending_change (eventId : String) (set : EngineInboxEvent → EngineInboxEvent)
    (hset : ∀ row, (set row).eventId = row.eventId) (hrow : inbox.find? row.eventId = some row) :
    (row.eventId = eventId ∧ row.state = .pending ∧
        (markPending inbox eventId set hset).1.find? row.eventId = some (set row)) ∨
      (markPending inbox eventId set hset).1.find? row.eventId = some row := by
  rw [find?_markPending, hrow, Option.map_some]
  by_cases hhit : row.eventId = eventId ∧ row.state = .pending
  · rw [if_pos hhit]
    exact .inl ⟨hhit.1, hhit.2, rfl⟩
  · rw [if_neg hhit]
    exact .inr rfl

theorem find?_markPending_ne_some (eventId : String) (set : EngineInboxEvent → EngineInboxEvent)
    (hset : ∀ row, (set row).eventId = row.eventId) (hnone : inbox.find? k = none) :
    (markPending inbox eventId set hset).1.find? k ≠ some row := by
  rw [find?_markPending, hnone]
  simp

variable (step : InboxStep)

theorem woken_or_same {q : Prop} [Decidable q]
    (hop : (∃ refs, step.op = .wake refs) ∨ step.op = .rearmWaiting ∨ step.op = .rearmPending)
    (hq : q → row.state = .pending) : InboxChange step row
      (some (if q then { row with nextAt := step.now, updatedAt := step.now } else row)) := by
  split_ifs with h
  · exact .woken hop (hq h)
  · exact .same

theorem rearmEngineInboxWaiting_fst (inbox : Inbox) (now : Int) :
    (rearmEngineInboxWaiting inbox now).1 = (runNow inbox (·.waitingRef.isSome) now).1 := by
  dsimp only [rearmEngineInboxWaiting]
  split_ifs with hmiss
  · exact (runNow_of_miss inbox _ now hmiss).symm
  · rfl

theorem InboxStep.rowChange
    (hrow : inbox.find? k = some row) : InboxChange step row ((step.exec inbox).find? k) := by
  have hid : row.eventId = k := Table.key_of_find? hrow
  subst hid
  obtain ⟨now, op⟩ := step
  cases op with
  | insert event =>
    change InboxChange _ row ((insertEngineInboxEvent inbox event now).1.find? _)
    rw [find?_insertEngineInboxEvent, hrow]
    dsimp only
    split_ifs with hid hfailed
    · exact .rearmed event rfl hid hfailed
    · exact .same
    · exact .same
  | applied eventId =>
    rcases find?_markPending_change eventId (appliedRow now) (fun _ => rfl) hrow with ⟨rfl,
      hstate, h⟩ | h
    · exact h ▸ .applied rfl hstate
    · exact h ▸ .same
  | waiting eventId waitingRef waitingDetail nextAt =>
    rcases find?_markPending_change eventId (waitingRow waitingRef waitingDetail nextAt now)
      (fun _ => rfl) hrow with ⟨rfl, hstate, h⟩ | h
    · exact h ▸ .parked waitingRef waitingDetail nextAt rfl hstate
    · exact h ▸ .same
  | retry eventId error nextAt =>
    rcases find?_markPending_change eventId (retryRow error nextAt now)
      (fun _ => rfl) hrow with ⟨rfl, hstate, h⟩ | h
    · exact h ▸ .retried error nextAt rfl hstate
    · exact h ▸ .same
  | failed eventId reason =>
    rcases find?_markPending_change eventId (givenUpRow .failed reason now) (fun _ => rfl)
      hrow with ⟨rfl, hstate, h⟩ | h
    · exact h ▸ .failed reason rfl hstate
    · exact h ▸ .same
  | poisoned eventId reason =>
    rcases find?_markPending_change eventId (givenUpRow .poisoned reason now) (fun _ => rfl)
      hrow with ⟨rfl, hstate, h⟩ | h
    · exact h ▸ .poisoned reason rfl hstate
    · exact h ▸ .same
  | wake refs =>
    change InboxChange _ row ((wakeEngineInboxWaiting inbox refs now).1.find? _)
    rw [find?_wakeEngineInboxWaiting, hrow]
    exact woken_or_same ⟨now, .wake refs⟩ (.inl ⟨refs, rfl⟩) fun h => h.1
  | rearmWaiting =>
    change InboxChange _ row ((rearmEngineInboxWaiting inbox now).1.find? _)
    rw [rearmEngineInboxWaiting_fst, find?_runNow, hrow]
    exact woken_or_same ⟨now, .rearmWaiting⟩ (.inr (.inl rfl)) fun h => h.1
  | rearmPending =>
    change InboxChange _ row ((runNow inbox (fun _ => True) now).1.find? _)
    rw [find?_runNow, hrow]
    exact woken_or_same ⟨now, .rearmPending⟩ (.inr (.inr rfl)) fun h => h.1
  | purgeTerminal before =>
    change InboxChange _ row ((inbox.table.delete _).find? _)
    rw [Table.find?_delete]
    change InboxChange _ row ((inbox.find? _).filter _)
    rw [hrow, Option.filter_some]
    split_ifs with hkept
    · exact .same
    · exact .purged before (.inl rfl) (by simp_all)
  | purgeRejected before =>
    change InboxChange _ row ((inbox.table.delete _).find? _)
    rw [Table.find?_delete]
    change InboxChange _ row ((inbox.find? _).filter _)
    rw [hrow, Option.filter_some]
    split_ifs with hkept
    · exact .same
    · exact .purged before (.inr rfl) (by simp_all)

theorem InboxStep.row_appears (hnone : inbox.find? k = none)
    (hrow : (step.exec inbox).find? k = some row) :
    ∃ event, step.op = .insert event ∧ event.eventId = k ∧
      row = newInboxRow (inbox.lastSeq + 1) event step.now := by
  obtain ⟨now, op⟩ := step
  cases op with
  | insert event =>
    change (insertEngineInboxEvent inbox event now).1.find? k = _ at hrow
    rw [find?_insertEngineInboxEvent, hnone] at hrow
    split_ifs at hrow with hk
    · exact ⟨event, rfl, hk.symm, (Option.some.inj hrow).symm⟩
  | wake refs =>
    change (wakeEngineInboxWaiting inbox refs now).1.find? k = _ at hrow
    rw [find?_wakeEngineInboxWaiting, hnone] at hrow
    cases hrow
  | rearmWaiting =>
    change (rearmEngineInboxWaiting inbox now).1.find? k = _ at hrow
    rw [rearmEngineInboxWaiting_fst, find?_runNow, hnone] at hrow
    cases hrow
  | rearmPending =>
    change (runNow inbox (fun _ => True) now).1.find? k = _ at hrow
    rw [find?_runNow, hnone] at hrow
    cases hrow
  | purgeTerminal before | purgeRejected before =>
    change (inbox.table.delete _).find? k = _ at hrow
    rw [Table.find?_delete] at hrow
    change (inbox.find? k).filter _ = _ at hrow
    rw [hnone] at hrow
    cases hrow
  | applied eventId | waiting eventId | retry eventId | failed eventId | poisoned eventId =>
    exact absurd hrow (find?_markPending_ne_some _ _ _ hnone)

end BitvmNode.Engine
