import BitvmNode.EventWatch.Watcher
import BitvmNode.Reasoning.Along

/-!
# Which events reach their handlers

Every copy of the contract's row, stale or not, only names heights below which all blocks have been
asked for in committed transactions; so no interleaving leaves a gap.  Only an answer that the
indexer cuts off can lose an event.
-/

namespace BitvmNode.EventWatch

open Reasoning

namespace QueryBuilder

theorem modify_append (builder : QueryBuilder) (query : SingleQuery) (f : SingleQuery → SingleQuery)
    (hnew : query.entity ∉ builder.map SingleQuery.entity) :
    modify query.entity f (builder ++ [query]) = builder ++ [f query] := by
  induction builder with
  | nil => simp [modify]
  | cons other builder ih =>
    rw [List.map_cons, List.mem_cons, not_or] at hnew
    rw [List.cons_append, modify, if_neg (Ne.symm hnew.1), ih hnew.2, List.cons_append]

theorem foldl_addField (builder : QueryBuilder) (query : SingleQuery)
    (hnew : query.entity ∉ builder.map SingleQuery.entity) (fields : List String) :
    fields.foldl (addField query.entity) (builder ++ [query]) =
      builder ++ [{ query with fields := query.fields ++ fields }] := by
  induction fields generalizing query with
  | nil => simp
  | cons field fields ih =>
    rw [List.foldl_cons, addField, modify_append builder query _ hnew]
    have hrest := ih { query with fields := query.fields ++ [field] } hnew
    simp only [List.append_assoc, List.singleton_append] at hrest
    exact hrest

end QueryBuilder

open QueryBuilder

def entityQuery (range : BlockRange) (entity : EventEntity) : SingleQuery where
  entity := entity
  fields := entity.fields
  filters := [.blockNumberGte range.startBlock, .blockNumberLte range.endBlock]
  orderBy := some "blockNumber"
  orderDirection := some "asc"
  first := none
  skip := none

theorem addSingleQuery_eq {builder : QueryBuilder} {range : BlockRange} {entity : EventEntity}
    (hnew : entity ∉ builder.map SingleQuery.entity) :
    addSingleQuery (some range) builder entity = builder ++ [entityQuery range entity] := by
  -- the query under construction is the last one, and the only one of its entity
  let fresh : SingleQuery := ⟨entity, [], [], none, none, none, none⟩
  let filled : SingleQuery := { fresh with fields := entity.fields }
  let ordered : SingleQuery :=
    { filled with orderBy := some "blockNumber", orderDirection := some "asc" }
  let bounded : SingleQuery := { ordered with filters := [.blockNumberGte range.startBlock] }
  have hfields : entity.fields.foldl (addField entity) (builder ++ [fresh]) =
      builder ++ [filled] :=
    foldl_addField builder fresh hnew entity.fields
  have horder : setOrderBy entity "blockNumber" "asc" (builder ++ [filled]) =
      builder ++ [ordered] :=
    modify_append builder filled _ hnew
  have hlower : addFilter entity (builder ++ [ordered])
      (.blockNumberGte range.startBlock) = builder ++ [bounded] :=
    modify_append builder ordered _ hnew
  have hupper : addFilter entity (builder ++ [bounded])
      (.blockNumberLte range.endBlock) = builder ++ [entityQuery range entity] :=
    modify_append builder bounded _ hnew
  show addFilter entity (addFilter entity
    (setOrderBy entity "blockNumber" "asc"
      (entity.fields.foldl (addField entity) (builder ++ [fresh]))) _) _ = _
  rw [hfields, horder, hlower, hupper]

theorem getEventsQuery_eq {eventEntities : List EventEntity} (hnodup : eventEntities.Nodup)
    (range : BlockRange) :
    getEventsQuery eventEntities (some range) = eventEntities.map (entityQuery range) := by
  have hfold : ∀ (rest done : List EventEntity), (done ++ rest).Nodup →
      rest.foldl (addSingleQuery (some range)) (done.map (entityQuery range)) =
        (done ++ rest).map (entityQuery range) := by
    intro rest
    induction rest with
    | nil =>
      intro done _
      simp
    | cons entity rest ih =>
      intro done hdone
      have hnew : entity ∉ (done.map (entityQuery range)).map SingleQuery.entity := by
        intro hmem
        rw [List.map_map] at hmem
        obtain ⟨other, hother, rfl⟩ := List.mem_map.mp hmem
        exact List.disjoint_of_nodup_append hdone hother List.mem_cons_self
      have hnext := ih (done ++ [entity]) (by simpa using hdone)
      rw [List.foldl_cons, addSingleQuery_eq hnew]
      simpa using hnext
  exact hfold eventEntities [] hnodup

namespace Indexer

variable {Event : Type} (indexer : Indexer Event)

def inRange (entity : EventEntity) (range : BlockRange) : List Event :=
  (indexer.events entity).filter fun event => range.Mem (indexer.blockNumber event)

theorem execute_entityQuery (range : BlockRange) (entity : EventEntity) :
    indexer.execute (entityQuery range entity) =
      (indexer.inRange entity range).take defaultFirst := by
  unfold execute inRange
  simp only [entityQuery, Option.getD_none, List.drop_zero]
  congr 2
  funext event
  rw [Bool.eq_iff_iff, decide_eq_true_iff]
  simp [BlockFilter.admits, BlockRange.Mem]

theorem mem_fetch {eventEntities : List EventEntity} (hnodup : eventEntities.Nodup)
    {range : BlockRange} {entity : EventEntity} {event : Event} :
    (entity, event) ∈ indexer.fetch eventEntities range ↔
      entity ∈ eventEntities ∧ event ∈ (indexer.inRange entity range).take defaultFirst := by
  have hfind : ∀ other ∈ eventEntities,
      (eventEntities.map (entityQuery range)).find? (·.entity = other) =
        some (entityQuery range other) := by
    intro other hother
    rw [List.find?_map]
    have hsame : eventEntities.find? ((fun query : SingleQuery => decide (query.entity = other)) ∘
        entityQuery range) = some other := by
      rw [List.find?_eq_some_iff_append]
      obtain ⟨before, after, hsplit⟩ := List.append_of_mem hother
      refine ⟨by simp [entityQuery], before, after, hsplit, ?_⟩
      intro earlier hearlier
      rw [hsplit] at hnodup
      have hne : earlier ≠ other := fun h =>
        List.disjoint_of_nodup_append hnodup hearlier (h ▸ List.mem_cons_self)
      rw [Bool.not_eq_true', Function.comp_apply, decide_eq_false_iff_not]
      exact hne
    rw [hsame, Option.map_some]
  unfold fetch
  rw [getEventsQuery_eq hnodup, List.mem_flatMap]
  constructor
  · rintro ⟨other, hother, hmem⟩
    rw [hfind other hother] at hmem
    change (entity, event) ∈ (indexer.execute (entityQuery range other)).map _ at hmem
    rw [execute_entityQuery] at hmem
    obtain ⟨_, hevent, heq⟩ := List.mem_map.mp hmem
    cases heq
    exact ⟨hother, hevent⟩
  · rintro ⟨hentity, hevent⟩
    refine ⟨entity, hentity, ?_⟩
    rw [hfind entity hentity]
    show (entity, event) ∈ (indexer.execute (entityQuery range entity)).map _
    rw [execute_entityQuery]
    exact List.mem_map_of_mem hevent

end Indexer

namespace Watcher

variable {Event : Type} {indexer : Indexer Event} {eventEntities : List EventEntity} {start : Int}

def Scanned (start : Int) (committed : List BlockRange) (height : Int) : Prop :=
  ∀ h, start ≤ h → h < height → ∃ range ∈ committed, range.Mem h

def tickCursor : MonitorTick → Option Int
  | .idle => none
  | .contractRead contract | .handling contract _ => some contract.fromHeight

def historyCursor : HistorySync → Option Int
  | .idle => none
  | .waiting contract | .handling contract _ _ => some contract.fromHeight

/-- The row and all copies of it name scanned heights, and what was handed over is what the
committed ranges returned. -/
structure Sound (indexer : Indexer Event) (eventEntities : List EventEntity) (start : Int)
    (w : Watcher Event) : Prop where
  stored : ∀ contract, w.stored = some contract → Scanned start w.committed contract.fromHeight
  tick : ∀ height, tickCursor w.tick = some height → Scanned start w.committed height
  history : ∀ height, historyCursor w.history = some height → Scanned start w.committed height
  handed : w.handed = w.committed.flatMap (indexer.fetch eventEntities)

variable {contract : WatchContract}

theorem Scanned.commit {committed : List BlockRange} {toHeight : Int}
    (h : Scanned start committed contract.fromHeight) :
    Scanned start (committed ++ [contract.range toHeight]) (toHeight + 1) := by
  intro block hstart hlt
  by_cases hbelow : block < contract.fromHeight
  · obtain ⟨range, hmem, hrange⟩ := h block hstart hbelow
    exact ⟨range, List.mem_append_left _ hmem, hrange⟩
  · refine ⟨contract.range toHeight, List.mem_append_right _ List.mem_cons_self, ?_⟩
    show contract.fromHeight ≤ block ∧ block ≤ toHeight
    omega

theorem Scanned.mono {committed : List BlockRange} {height : Int}
    (h : Scanned start committed height) (more : List BlockRange) :
    Scanned start (committed ++ more) height := by
  intro block hstart hlt
  obtain ⟨range, hmem, hrange⟩ := h block hstart hlt
  exact ⟨range, List.mem_append_left _ hmem, hrange⟩

theorem scanned_start (committed : List BlockRange) : Scanned start committed start := by
  intro block hstart hlt
  omega

variable {w : Watcher Event}

section

variable (h : Sound indexer eventEntities start w)

include h

theorem scanned_getWatchContract (gap now : Int) :
    Scanned start w.committed (getWatchContract start gap w.stored now).fromHeight := by
  cases hstored : w.stored with
  | none => exact scanned_start _
  | some contract =>
    by_cases hstart : start > contract.fromHeight
    · have hfrom : (getWatchContract start gap (some contract) now).fromHeight = start :=
        if_pos hstart
      rw [hfrom]
      exact scanned_start _
    · have hfrom : (getWatchContract start gap (some contract) now).fromHeight =
        contract.fromHeight :=
        if_neg hstart
      rw [hfrom]
      exact h.stored contract hstored

theorem Sound.idle :
    Sound indexer eventEntities start { w with tick := .idle } :=
  ⟨h.stored, nofun, h.history, h.handed⟩

theorem Sound.upsertWatchContract (hcontract : Scanned start w.committed contract.fromHeight)
    (saved : Bool) : Sound indexer eventEntities start (w.upsertWatchContract contract saved) := by
  unfold Watcher.upsertWatchContract
  split
  · refine ⟨?_, h.tick, h.history, h.handed⟩
    intro row hrow
    cases hrow
    exact hcontract
  · exact h

theorem Sound.monitorTip (htick : w.tick = .contractRead contract) (tip : Option Int) (now : Int)
    (saved : Bool) : Sound indexer eventEntities start (w.monitorTip contract tip now saved) := by
  have hcontract : Scanned start w.committed contract.fromHeight := h.tick _ (by rw [htick]; rfl)
  unfold Watcher.monitorTip
  cases tip with
  | none => exact h.idle
  | some tip =>
    dsimp only
    split_ifs
    · exact h.idle
    · exact h.idle
    · -- the history sync starts from the copy that this tick has read
      apply Sound.upsertWatchContract
      · refine ⟨h.stored, nofun, ?_, h.handed⟩
        intro height hheight
        cases hheight
        exact hcontract
      · exact hcontract
    · exact h.idle
    · refine ⟨h.stored, ?_, h.history, h.handed⟩
      intro height hheight
      cases hheight
      exact hcontract

theorem Sound.historyTip (hhistory : w.history = .waiting contract)
    (tip : Option Int) : Sound indexer eventEntities start (w.historyTip contract tip) := by
  have hcontract : Scanned start w.committed contract.fromHeight :=
    h.history _ (by rw [hhistory]; rfl)
  unfold Watcher.historyTip
  cases tip with
  | none => exact h
  | some tip =>
    dsimp only
    split_ifs
    · exact h
    · refine ⟨h.stored, h.tick, ?_, h.handed⟩
      intro height hheight
      cases hheight
      exact hcontract

theorem Sound.commitRange (hcontract : Scanned start w.committed contract.fromHeight)
    (toHeight : Int) (status : WatchContractStatus) (now : Int) (saved : Bool) :
    Sound indexer eventEntities start
      (w.commitRange indexer eventEntities contract toHeight status now saved) := by
  apply Sound.upsertWatchContract
  · refine ⟨?_, ?_, ?_, ?_⟩
    · exact fun row hrow => (h.stored row hrow).mono _
    · exact fun height hheight => (h.tick height hheight).mono _
    · exact fun height hheight => (h.history height hheight).mono _
    · show w.handed ++ _ = (w.committed ++ [_]).flatMap _
      rw [h.handed, List.flatMap_append, List.flatMap_singleton]
  · exact hcontract.commit

theorem Sound.historyCommit {toHeight tip : Int}
    (hhistory : w.history = .handling contract toHeight tip) (now : Int) (saved : Bool) :
    Sound indexer eventEntities start
      (w.historyCommit indexer eventEntities contract toHeight tip now saved) := by
  have hcontract : Scanned start w.committed contract.fromHeight :=
    h.history _ (by rw [hhistory]; rfl)
  unfold Watcher.historyCommit
  split_ifs
  · have hcommit := h.commitRange hcontract toHeight .synced now saved
    exact ⟨hcommit.stored, hcommit.tick, nofun, hcommit.handed⟩
  · have hcommit := h.commitRange hcontract toHeight .syncing now saved
    refine ⟨hcommit.stored, hcommit.tick, ?_, hcommit.handed⟩
    intro height hheight
    cases hheight
    show Scanned start (w.commitRange indexer eventEntities contract toHeight .syncing now
      saved).committed _
    unfold Watcher.commitRange Watcher.upsertWatchContract
    split <;> exact hcontract.commit

theorem Sound.step (action : WatchAction) :
    Sound indexer eventEntities start (w.step indexer eventEntities start action) := by
  cases action with
  | tickStart gap now =>
    cases htick : w.tick with
    | idle =>
      simp only [Watcher.step, htick]
      refine ⟨h.stored, ?_, h.history, h.handed⟩
      intro height hheight
      cases hheight
      exact scanned_getWatchContract h gap now
    | contractRead contract | handling contract toHeight => simpa only [Watcher.step, htick] using h
  | tickTip tip now saved =>
    cases htick : w.tick with
    | idle | handling contract toHeight => simpa only [Watcher.step, htick] using h
    | contractRead contract =>
      simp only [Watcher.step, htick]
      exact h.monitorTip htick tip now saved
  | tickCommit now saved =>
    cases htick : w.tick with
    | idle | contractRead contract => simpa only [Watcher.step, htick] using h
    | handling contract toHeight =>
      simp only [Watcher.step, htick]
      exact (h.commitRange (h.tick _ (by rw [htick]; rfl)) toHeight .synced now saved).idle
  | tickAbort => exact h.idle
  | historyTip tip =>
    cases hhistory : w.history with
    | idle | handling contract toHeight tip => simpa only [Watcher.step, hhistory] using h
    | waiting contract =>
      simp only [Watcher.step, hhistory]
      exact h.historyTip hhistory tip
  | historyCommit now saved =>
    cases hhistory : w.history with
    | idle | waiting contract => simpa only [Watcher.step, hhistory] using h
    | handling contract toHeight tip =>
      simp only [Watcher.step, hhistory]
      exact h.historyCommit hhistory now saved
  | historyFail now saved =>
    -- the row is only marked as failed
    have hmarked : ∀ contract,
        (if saved then w.stored.map fun contract =>
            { contract with status := WatchContractStatus.failed, updatedAt := now }
          else w.stored) = some contract → Scanned start w.committed contract.fromHeight := by
      intro contract hcontract
      split at hcontract
      · obtain ⟨row, hrow, rfl⟩ := Option.map_eq_some_iff.mp hcontract
        exact h.stored row hrow
      · exact h.stored contract hcontract
    cases hhistory : w.history with
    | idle => simpa only [Watcher.step, hhistory] using h
    | waiting contract | handling contract toHeight tip =>
      simp only [Watcher.step, hhistory]
      exact ⟨hmarked, h.tick, nofun, h.handed⟩
  | historyPanic => exact ⟨h.stored, h.tick, nofun, h.handed⟩
  | restart =>
    exact ⟨h.stored, nofun, nofun, h.handed⟩

theorem Sound.run (actions : List WatchAction) :
    Sound indexer eventEntities start (w.run indexer eventEntities start actions) := by
  induction actions generalizing w with
  | nil => exact h
  | cons action actions ih => exact ih (h.step action)

end

theorem sound_empty : Sound indexer eventEntities start (Watcher.empty : Watcher Event) :=
  ⟨nofun, nofun, nofun, rfl⟩

def Covered (indexer : Indexer Event) (eventEntities : List EventEntity) (start : Int)
    (w : Watcher Event) : Prop :=
  ∀ contract, w.stored = some contract → ∀ entity ∈ eventEntities, ∀ event ∈ indexer.events entity,
    start ≤ indexer.blockNumber event → indexer.blockNumber event < contract.fromHeight →
      (entity, event) ∈ w.handed

/-- The range whose events an action hands over, if it commits. -/
def committing (w : Watcher Event) : WatchAction → Option BlockRange
  | .tickCommit _ _ =>
      match w.tick with
      | .handling contract toHeight => some (contract.range toHeight)
      | _ => none
  | .historyCommit _ _ =>
      match w.history with
      | .handling contract toHeight _ => some (contract.range toHeight)
      | _ => none
  | _ => none

/-- A range that is committed holds no more events of an entity than one answer of the indexer. -/
def Uncrowded (indexer : Indexer Event) (eventEntities : List EventEntity) (w : Watcher Event)
    (action : WatchAction) : Prop :=
  ∀ range, w.committing action = some range → ∀ entity ∈ eventEntities,
    (indexer.inRange entity range).length ≤ defaultFirst

theorem committed_upsertWatchContract (contract : WatchContract) (saved : Bool) :
    (w.upsertWatchContract contract saved).committed = w.committed := by
  unfold Watcher.upsertWatchContract
  split <;> rfl

theorem committed_step (action : WatchAction) :
    (w.step indexer eventEntities start action).committed =
      w.committed ++ (w.committing action).toList := by
  have hnone : w.committed = w.committed ++ [] := (List.append_nil _).symm
  cases action with
  | tickStart gap now =>
    simp only [Watcher.step, committing]
    split <;> exact hnone
  | tickTip tip now saved =>
    simp only [Watcher.step, committing]
    split
    · unfold Watcher.monitorTip
      cases tip with
      | none => exact hnone
      | some tip =>
        dsimp only
        split_ifs <;> first | exact hnone | exact (committed_upsertWatchContract _ _).trans hnone
    · exact hnone
  | tickCommit now saved =>
    cases htick : w.tick with
    | idle | contractRead contract => simp [Watcher.step, committing, htick]
    | handling contract toHeight =>
      simp only [Watcher.step, committing, htick]
      exact committed_upsertWatchContract _ _
  | tickAbort | historyPanic | restart => exact hnone
  | historyTip tip =>
    simp only [Watcher.step, committing]
    split
    · unfold Watcher.historyTip
      cases tip with
      | none => exact hnone
      | some tip =>
        dsimp only
        split <;> exact hnone
    · exact hnone
  | historyCommit now saved =>
    cases hhistory : w.history with
    | idle | waiting contract => simp [Watcher.step, committing, hhistory]
    | handling contract toHeight tip =>
      simp only [Watcher.step, committing, hhistory, Watcher.historyCommit]
      split <;> exact committed_upsertWatchContract _ _
  | historyFail now saved =>
    simp only [Watcher.step, committing]
    split <;> exact hnone

variable (indexer) in
theorem mem_handed_iff (hnodup : eventEntities.Nodup) (h : Sound indexer eventEntities start w)
    {entity : EventEntity} {event : Event} : (entity, event) ∈ w.handed ↔ entity ∈ eventEntities ∧
      ∃ range ∈ w.committed, event ∈ (indexer.inRange entity range).take defaultFirst := by
  rw [h.handed, List.mem_flatMap]
  constructor
  · rintro ⟨range, hrange, hmem⟩
    obtain ⟨hentity, hevent⟩ := (indexer.mem_fetch hnodup).mp hmem
    exact ⟨hentity, range, hrange, hevent⟩
  · rintro ⟨hentity, range, hrange, hevent⟩
    exact ⟨range, hrange, (indexer.mem_fetch hnodup).mpr ⟨hentity, hevent⟩⟩

theorem covered_of_uncrowded (hnodup : eventEntities.Nodup)
    (h : Sound indexer eventEntities start w)
    (hshort : ∀ range ∈ w.committed, ∀ entity ∈ eventEntities,
      (indexer.inRange entity range).length ≤ defaultFirst) :
    Covered indexer eventEntities start w := by
  intro contract hcontract entity hentity event hheld hstart hlt
  rw [mem_handed_iff indexer hnodup h]
  -- no block below the stored height was left out, and no answer was cut off
  obtain ⟨range, hrange, hmem⟩ := h.stored contract hcontract _ hstart hlt
  refine ⟨hentity, range, hrange, ?_⟩
  rw [List.take_of_length_le (hshort range hrange entity hentity), Indexer.inRange, List.mem_filter]
  exact ⟨hheld, by simpa using hmem⟩

/-- Whatever the interleaving, no event is passed over as long as no range that is committed holds
more events of an entity than one answer of the indexer. -/
theorem events_covered (indexer : Indexer Event) (eventEntities : List EventEntity)
    (hnodup : eventEntities.Nodup) (start : Int) (actions : List WatchAction)
    (h : Along (step indexer eventEntities start) (Uncrowded indexer eventEntities) Watcher.empty
      actions) :
    Covered indexer eventEntities start
      (Watcher.empty.run indexer eventEntities start actions) := by
  refine covered_of_uncrowded hnodup (sound_empty.run actions) ?_
  refine @Along.invariant _ _ _ _ (fun w => ∀ range ∈ w.committed, ∀ entity ∈ eventEntities,
    (indexer.inRange entity range).length ≤ defaultFirst) _ _ h nofun ?_
  intro w action hcommitted hguard range hrange
  rw [committed_step, List.mem_append, Option.mem_toList] at hrange
  rcases hrange with hrange | hrange
  · exact hcommitted range hrange
  · exact hguard range hrange

end Watcher

namespace CrowdedBlock

def indexer (count : Nat) : Indexer Nat where
  blockNumber _ := 5
  events entity := if entity = .initWithdraws then List.range count else []
  sorted entity := by
    rw [List.pairwise_map]
    exact List.pairwise_of_forall fun _ _ => Int.le_refl _

def actions : List WatchAction := [.tickStart 10 0, .tickTip (some 7) 0 true, .tickCommit 0 true]

/-- With 101 withdraws in one block the last one is passed over. -/
theorem withdraw_passed_over : (Watcher.empty.run (indexer 101) [.initWithdraws] 1 actions).stored =
        some ⟨10, 8, .synced, 0⟩ ∧
      100 ∈ (indexer 101).events .initWithdraws ∧ (EventEntity.initWithdraws, 100) ∉
        (Watcher.empty.run (indexer 101) [.initWithdraws] 1 actions).handed := by
  decide +kernel

theorem uncrowded_hundred : Along (Watcher.step (indexer 100) [.initWithdraws] 1)
    (Watcher.Uncrowded (indexer 100) [.initWithdraws]) Watcher.empty actions := by
  refine .cons ?_ (.cons ?_ (.cons ?_ .nil))
  · exact nofun
  · exact nofun
  · intro range hrange
    cases hrange
    decide +kernel

theorem hundred_withdraws_covered :
    Along (Watcher.step (indexer 100) [.initWithdraws] 1)
        (Watcher.Uncrowded (indexer 100) [.initWithdraws]) Watcher.empty actions ∧
      Watcher.Covered (indexer 100) [.initWithdraws] 1
        (Watcher.empty.run (indexer 100) [.initWithdraws] 1 actions) :=
  ⟨uncrowded_hundred,
    Watcher.events_covered (indexer 100) [.initWithdraws] (by decide) 1 actions uncrowded_hundred⟩

end CrowdedBlock

end BitvmNode.EventWatch
