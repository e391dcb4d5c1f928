import Mathlib.Data.List.MinMax
import BitvmNode.Reasoning.Encodings
import BitvmNode.Reasoning.Interruptions

/-!
# The history of sequencer sets

A task follows the Cosmos chain and records where the hash of the validators changes.  The rows and
the position of the scan are written by separate statements, the position only every few blocks, so
an interrupted scan goes over blocks again with the hash it remembered.
-/

namespace BitvmNode.EventWatch

open Reasoning

@[ext]
structure SequencerSetHashChange where
  (cosmosBlockHeight goatBlockHeight : Nat)
  validatorsHash : String

structure SequencerSetScanState where
  (nextCosmosBlockHeight latestGoatBlockHeight : Nat)
  latestValidatorsHash : String
  deriving DecidableEq

/-- The rows of the changes, the last inserted one first, and the only row of the scan state. -/
structure MonitorDb where
  changes : List SequencerSetHashChange := []
  scanState : Option SequencerSetScanState := none

namespace MonitorDb

def upsertSequencerSetHashChange (row : SequencerSetHashChange) (db : MonitorDb) :
    Unit × MonitorDb :=
  let changes :=
    if db.changes.any fun stored => stored.cosmosBlockHeight = row.cosmosBlockHeight then
      db.changes.map fun stored => if stored.cosmosBlockHeight = row.cosmosBlockHeight then
        row else stored
    else row :: db.changes
  ((), { db with changes })

def upsertSequencerSetScanState (state : SequencerSetScanState) (db : MonitorDb) :
    Unit × MonitorDb :=
  ((), { db with scanState := some state })

def findLatestSequencerSetHashChange (db : MonitorDb) : Option SequencerSetHashChange :=
  db.changes.argmax SequencerSetHashChange.cosmosBlockHeight

def findFirstSequencerSetHashChangeByGoatBlockAtOrBefore (db : MonitorDb) (goatBlockHeight : Nat) :
    Option SequencerSetHashChange :=
  (db.changes.filter fun row => row.goatBlockHeight ≤ goatBlockHeight).argmax
    SequencerSetHashChange.goatBlockHeight

end MonitorDb

/-- The validators hash of a Cosmos block and the Goat block it carries, as the node answers for
them. -/
abbrev CosmosChain := Nat → Bytes × Option Nat

section Model

variable (chain : CosmosChain) (startCosmosBlock : Nat)

def checkI64 (n : Nat) : Interruptible MonitorDb Unit :=
  if n < 2 ^ 63 then pure () else throw .failed

def loadOrInitScanState : Interruptible MonitorDb SequencerSetScanState := do
  match ← effect fun db => (db.scanState, db) with
  | some state => return state
  | none =>
    match ← effect fun db => (db.findLatestSequencerSetHashChange, db) with
    | some lastChange =>
      let state := ⟨lastChange.cosmosBlockHeight + 1, lastChange.goatBlockHeight,
        lastChange.validatorsHash⟩
      effect (MonitorDb.upsertSequencerSetScanState state)
      return state
    | none =>
      match ← effect fun db => (chain startCosmosBlock, db) with
      | (_, none) => throw .failed
      | (validatorsHash, some goatBlockHeight) =>
        let validatorsHashHex := hexEncode validatorsHash
        checkI64 startCosmosBlock
        checkI64 goatBlockHeight
        effect (MonitorDb.upsertSequencerSetHashChange ⟨startCosmosBlock, goatBlockHeight,
          validatorsHashHex⟩)
        let state := ⟨startCosmosBlock + 1, goatBlockHeight, validatorsHashHex⟩
        effect (MonitorDb.upsertSequencerSetScanState state)
        return state

def scanBlock (state : SequencerSetScanState) : Interruptible MonitorDb SequencerSetScanState := do
  match ← effect fun db => (chain state.nextCosmosBlockHeight, db) with
  | (_, none) => return state
  | (validatorsHash, some goatBlockHeight) =>
    let validatorsHashHex := hexEncode validatorsHash
    checkI64 goatBlockHeight
    if state.latestValidatorsHash ≠ validatorsHashHex then
      effect (MonitorDb.upsertSequencerSetHashChange ⟨state.nextCosmosBlockHeight, goatBlockHeight,
        validatorsHashHex⟩)
    return ⟨state.nextCosmosBlockHeight, goatBlockHeight, validatorsHashHex⟩

def scanStateFlushInterval : Nat := 10

def scanBlocks :
    (blocks blocksSinceLastFlush : Nat) → SequencerSetScanState → Interruptible MonitorDb Unit
  | 0, _, _ => return
  | blocks + 1, blocksSinceLastFlush, state => do
    let scanned ← onFailure (scanBlock chain state)
      (effect (MonitorDb.upsertSequencerSetScanState state))
    let state := { scanned with nextCosmosBlockHeight := scanned.nextCosmosBlockHeight + 1 }
    if scanStateFlushInterval ≤ blocksSinceLastFlush + 1 ∨ blocks = 0 then
      effect (MonitorDb.upsertSequencerSetScanState state)
      scanBlocks blocks 0 state
    else
      scanBlocks blocks (blocksSinceLastFlush + 1) state

def syncSequencerSetHashChanges (tip : Nat) : Interruptible MonitorDb Unit := do
  let state ← loadOrInitScanState chain startCosmosBlock
  let latestCosmosBlock ← effect fun db => (tip, db)
  checkI64 latestCosmosBlock
  scanBlocks chain (latestCosmosBlock + 1 - state.nextCosmosBlockHeight) 0 state

def monitorRun (calls : List (Nat × List Bool)) : MonitorDb :=
  calls.foldl (fun db call =>
    (syncSequencerSetHashChanges chain startCosmosBlock call.1 ⟨db, call.2⟩).2.state) {}

def latestHash : Nat → String
  | 0 => hexEncode (chain startCosmosBlock).1
  | n + 1 =>
      match chain (startCosmosBlock + n + 1) with
      | (_, none) => latestHash n
      | (validatorsHash, some _) => hexEncode validatorsHash

def changeHistory : Nat → List SequencerSetHashChange
  | 0 =>
      [⟨startCosmosBlock, (chain startCosmosBlock).2.getD 0, hexEncode (chain startCosmosBlock).1⟩]
  | n + 1 =>
      match chain (startCosmosBlock + n + 1) with
      | (_, none) => changeHistory n
      | (validatorsHash, some goatBlockHeight) =>
          if latestHash chain startCosmosBlock n ≠ hexEncode validatorsHash then
            ⟨startCosmosBlock + n + 1, goatBlockHeight, hexEncode validatorsHash⟩ :: changeHistory n
          else changeHistory n

end Model

variable {chain : CosmosChain} {start m n p : Nat} {row : SequencerSetHashChange} {db : MonitorDb}
  {state : SequencerSetScanState}

variable (chain start) in
theorem changeHistory_succ (n : Nat) :
    (changeHistory chain start (n + 1) = changeHistory chain start n ∧
      latestHash chain start (n + 1) = latestHash chain start n) ∨
    ∃ hash goat, chain (start + n + 1) = (hash, some goat) ∧
      latestHash chain start (n + 1) = hexEncode hash ∧
      latestHash chain start n ≠ hexEncode hash ∧ changeHistory chain start (n + 1) =
        ⟨start + n + 1, goat, hexEncode hash⟩ :: changeHistory chain start n := by
  rw [changeHistory, latestHash]
  split
  · exact .inl ⟨rfl, rfl⟩
  · rename_i hash goat hblock
    by_cases hsame : latestHash chain start n = hexEncode hash
    · exact .inl ⟨if_neg (not_not.mpr hsame), hsame.symm⟩
    · exact .inr ⟨hash, goat, hblock, rfl, hsame, if_pos hsame⟩

theorem exists_of_mem_changeHistory (hstart : (chain start).2.isSome)
    (hrow : row ∈ changeHistory chain start n) : row.cosmosBlockHeight ≤ start + n ∧
      ∃ hash, chain row.cosmosBlockHeight = (hash, some row.goatBlockHeight) ∧
        row.validatorsHash = hexEncode hash := by
  induction n with
  | zero =>
    rw [changeHistory, List.mem_singleton] at hrow
    subst hrow
    exact ⟨Nat.le_refl _,
      _, by rw [Option.getD_of_ne_none (Option.isSome_iff_ne_none.mp hstart)], rfl⟩
  | succ n ih =>
    rcases changeHistory_succ chain start n with ⟨hsame, -⟩ | ⟨hash, goat, hblock, -, -, hnew⟩
    · rw [hsame] at hrow
      obtain ⟨hle, hexists⟩ := ih hrow
      exact ⟨Nat.le_succ_of_le hle, hexists⟩
    · rw [hnew, List.mem_cons] at hrow
      rcases hrow with rfl | hrow
      · exact ⟨Nat.le_refl _, hash, hblock, rfl⟩
      · obtain ⟨hle, hexists⟩ := ih hrow
        exact ⟨Nat.le_succ_of_le hle, hexists⟩

variable (chain start) in
theorem changeHistory_append (h : m ≤ n) :
    ∃ later, changeHistory chain start n = later ++ changeHistory chain start m ∧
      ∀ row ∈ later, start + m < row.cosmosBlockHeight := by
  induction n, h using Nat.le_induction with
  | base => exact ⟨[], rfl, by simp⟩
  | succ n hle ih =>
    obtain ⟨later, hlater, hheights⟩ := ih
    rcases changeHistory_succ chain start n with ⟨hsame, -⟩ | ⟨hash, goat, -, -, -, hnew⟩
    · exact ⟨later, hsame.trans hlater, hheights⟩
    · refine ⟨_ :: later, by rw [hnew, hlater, List.cons_append], ?_⟩
      rw [List.forall_mem_cons]
      exact ⟨by dsimp only; omega, hheights⟩

theorem changeHistory_shape (hstart : (chain start).2.isSome) (n : Nat) :
    (∃ newest older, changeHistory chain start n = newest :: older ∧
      newest.validatorsHash = latestHash chain start n) ∧
    (changeHistory chain start n).Pairwise (fun newer older => older.cosmosBlockHeight <
      newer.cosmosBlockHeight) ∧
    (changeHistory chain start n).IsChain fun newer older =>
      newer.validatorsHash ≠ older.validatorsHash := by
  induction n with
  | zero => exact ⟨⟨_, [], rfl, rfl⟩, List.pairwise_singleton _ _, .singleton _⟩
  | succ n ih =>
    rcases changeHistory_succ chain start n with ⟨hsame, hlatest⟩ |
      ⟨hash, goat, -, hlatest, hchanged, hnew⟩
    · rwa [hsame, hlatest]
    · obtain ⟨⟨newest, older, hshape, hnewest⟩, hsorted, hchain⟩ := ih
      refine ⟨⟨_, _, hnew, hlatest.symm⟩, ?_, ?_⟩
      · rw [hnew, List.pairwise_cons]
        refine ⟨fun row hrow => ?_, hsorted⟩
        exact Nat.lt_succ_of_le (exists_of_mem_changeHistory hstart hrow).1
      · rw [hnew, hshape, List.isChain_cons_cons, ← hshape]
        exact ⟨fun heq => hchanged (hnewest.symm.trans heq.symm), hchain⟩

variable (chain start) in
def Fits (p : Nat) (state : SequencerSetScanState) : Prop :=
  ∃ m ≤ p, state.nextCosmosBlockHeight = start + m + 1 ∧
    state.latestValidatorsHash = latestHash chain start m

variable (chain start) in
def Follows (p : Nat) (db : MonitorDb) : Prop :=
  db.changes = changeHistory chain start p ∧ ∀ state, db.scanState = some state →
    Fits chain start p state

variable (chain start) in
/-- The table holds the changes of some number of blocks, not less than the scan has passed. -/
def Consistent (db : MonitorDb) : Prop :=
  (db.changes = [] ∧ db.scanState = none) ∨ ∃ p, Follows chain start p db ∧
    (db.scanState = none → p = 0)

variable (chain start) in
def Tracks (state : SequencerSetScanState) (db : MonitorDb) : Prop :=
  ∃ p, Follows chain start p db ∧ Fits chain start p state ∧ db.scanState ≠ none

theorem Tracks.consistent (h : Tracks chain start state db) : Consistent chain start db := by
  obtain ⟨p, hfollows, -, hsome⟩ := h
  exact .inr ⟨p, hfollows, fun hnone => absurd hnone hsome⟩

theorem Follows.save (h : Follows chain start p db) (hfits : Fits chain start p state) :
    Tracks chain start state (db.upsertSequencerSetScanState state).2 :=
  ⟨p, ⟨h.1, fun _ hstate => Option.some.inj hstate ▸ hfits⟩, hfits, Option.some_ne_none _⟩

theorem keeps_checkI64 {I P : MonitorDb → Prop} (h : ∀ db, P db → I db) :
    Keeps I P (checkI64 n) fun _ => P := by
  unfold checkI64
  split
  · exact Keeps.pure fun _ hp => hp
  · exact Keeps.throw h

theorem Follows.record (hstart : (chain start).2.isSome) (h : Follows chain start p db) (hm : m ≤ p)
    {hash : Bytes} {goat : Nat} (hblock : chain (start + m + 1) = (hash, some goat))
    (hchanged : latestHash chain start m ≠ hexEncode hash) : Follows chain start (max p (m + 1))
      (db.upsertSequencerSetHashChange ⟨start + m + 1, goat, hexEncode hash⟩).2 := by
  have hnew : changeHistory chain start (m + 1) =
      ⟨start + m + 1, goat, hexEncode hash⟩ :: changeHistory chain start m := by
    rw [changeHistory, hblock]
    exact if_pos hchanged
  refine ⟨?_, fun state hstate => ?_⟩
  · rw [MonitorDb.upsertSequencerSetHashChange, h.1]
    rcases Nat.lt_or_eq_of_le hm with hlt | rfl
    · -- the row is there, and the rows of a block are equal
      have hmem : ⟨start + m + 1, goat, hexEncode hash⟩ ∈ changeHistory chain start p := by
        obtain ⟨later, hlater, -⟩ := changeHistory_append chain start hlt
        rw [hlater, hnew]
        exact List.mem_append_right _ List.mem_cons_self
      rw [if_pos (List.any_eq_true.mpr ⟨_, hmem, decide_eq_true rfl⟩), max_eq_left hlt]
      refine (List.map_congr_left fun stored hstored => ?_).trans (List.map_id _)
      split
      · rename_i hsame
        obtain ⟨-, hash', hstored, hhash⟩ := exists_of_mem_changeHistory hstart hstored
        rw [hsame, hblock, Prod.mk.injEq, Option.some.injEq] at hstored
        exact SequencerSetHashChange.ext hsame.symm hstored.2 (hstored.1 ▸ hhash.symm)
      · rfl
    · have hfresh : ¬ (changeHistory chain start m).any fun stored =>
        stored.cosmosBlockHeight = start + m + 1 := by
        rw [List.any_eq_true]
        rintro ⟨stored, hstored, hsame⟩
        have hle := (exists_of_mem_changeHistory hstart hstored).1
        have heq := of_decide_eq_true hsame
        omega
      rw [if_neg hfresh, max_eq_right (Nat.le_succ m), hnew]
  · obtain ⟨k, hk, hfits⟩ := h.2 state hstate
    exact ⟨k, hk.trans (le_max_left _ _), hfits⟩

theorem Follows.pass (h : Follows chain start p db) (hsame : changeHistory chain start (m + 1) =
    changeHistory chain start m) (hm : m ≤ p) : Follows chain start (max p (m + 1)) db := by
  refine ⟨?_, fun state hstate => ?_⟩
  · rcases Nat.lt_or_eq_of_le hm with hlt | rfl
    · rw [max_eq_left hlt, h.1]
    · rw [max_eq_right (Nat.le_succ m), hsame, h.1]
  · obtain ⟨k, hk, hfits⟩ := h.2 state hstate
    exact ⟨k, hk.trans (le_max_left _ _), hfits⟩

theorem keeps_scanBlock (hstart : (chain start).2.isSome) :
    Keeps (Tracks chain start state) (Tracks chain start state) (scanBlock chain state)
      fun scanned => Tracks chain start
        { scanned with nextCosmosBlockHeight := scanned.nextCosmosBlockHeight + 1 } := by
  apply Keeps.read fun _ h => h
  rintro ⟨hash, goat⟩
  cases goat with
  | none =>
    apply Keeps.pure
    rintro db ⟨⟨p, hfollows, ⟨m, hm, hnext, hlatest⟩, hsome⟩, hblock⟩
    rw [hnext] at hblock
    refine ⟨_, hfollows.pass ?_ hm, ⟨m + 1, le_max_right _ _, ?_, ?_⟩, hsome⟩
    · rw [changeHistory, hblock]
    · exact congrArg (· + 1) hnext
    · rw [latestHash, hblock]
      exact hlatest
  | some goat =>
    apply Keeps.bind (keeps_checkI64 fun _ h => h.1)
    intro _
    split
    · rename_i hchanged
      apply Keeps.last fun _ h => h.1
      rintro db ⟨⟨p, hfollows, ⟨m, hm, hnext, hlatest⟩, hsome⟩, hblock⟩
      rw [hnext] at hblock ⊢
      rw [hlatest] at hchanged
      refine ⟨_, hfollows.record hstart hm hblock hchanged,
        ⟨m + 1, le_max_right _ _, rfl, ?_⟩, hsome⟩
      rw [latestHash, hblock]
    · rename_i hsame
      apply Keeps.pure
      rintro db ⟨⟨p, hfollows, ⟨m, hm, hnext, hlatest⟩, hsome⟩, hblock⟩
      rw [hnext] at hblock ⊢
      rw [hlatest] at hsame
      refine ⟨_, hfollows.pass ?_ hm, ⟨m + 1, le_max_right _ _, rfl, ?_⟩, hsome⟩
      · rw [changeHistory, hblock]
        exact if_neg hsame
      · rw [latestHash, hblock]

theorem keeps_scanBlocks (hstart : (chain start).2.isSome) (blocks sinceFlush : Nat)
    (state : SequencerSetScanState) :
    Keeps (Consistent chain start) (Tracks chain start state)
      (scanBlocks chain blocks sinceFlush state)
      fun _ => Consistent chain start := by
  induction blocks generalizing sinceFlush state with
  | zero => exact Keeps.pure fun _ h => h.consistent
  | succ blocks ih =>
    apply Keeps.bind
    · apply Keeps.onFailure (keeps_scanBlock hstart) (fun _ h => h.consistent)
      exact Keeps.effect (fun _ h => h.consistent) fun _ ⟨_, hfollows, hfits, _⟩ =>
        (hfollows.save hfits).consistent
    · intro scanned
      split
      · exact Keeps.bind (Keeps.effect (fun _ h => h.consistent) fun _ ⟨_, hfollows, hfits, _⟩ =>
          hfollows.save hfits) fun _ => ih _ _
      · exact ih _ _

theorem keeps_loadOrInitScanState :
    Keeps (Consistent chain start) (Consistent chain start) (loadOrInitScanState chain start)
      (Tracks chain start) := by
  apply Keeps.read fun _ h => h
  intro stored
  cases stored with
  | some state =>
    apply Keeps.pure
    rintro db ⟨⟨-, hnone⟩ | ⟨p, hfollows, -⟩, hstate⟩
    · cases hnone.symm.trans hstate
    · exact ⟨p, hfollows, hfollows.2 state hstate, hstate ▸ Option.some_ne_none _⟩
  | none =>
    apply Keeps.read fun _ h => h.1
    intro last
    cases last with
    | some last =>
      -- only the first change was recorded when the first position could not be saved
      apply Keeps.last fun _ h => h.1.1
      rintro db ⟨⟨⟨hempty, -⟩ | ⟨p, hfollows, hfirst⟩, hnone⟩, hlast⟩
      · rw [MonitorDb.findLatestSequencerSetHashChange, hempty] at hlast
        cases hlast
      · cases hfirst hnone
        rw [MonitorDb.findLatestSequencerSetHashChange, hfollows.1] at hlast
        cases hlast
        exact hfollows.save ⟨0, Nat.le_refl _, rfl, rfl⟩
    | none =>
      apply Keeps.bind (Q := fun block db => (db.changes = [] ∧ db.scanState = none) ∧
        chain start = block)
      · apply Keeps.effect (fun _ h => h.1.1)
        rintro db ⟨⟨-, hnone⟩, hlast⟩
        exact ⟨⟨List.argmax_eq_none.mp hlast, hnone⟩, rfl⟩
      rintro ⟨hash, goat⟩
      cases goat with
      | none => exact Keeps.throw fun _ h => .inl h.1
      | some goat =>
        apply Keeps.bind (keeps_checkI64 fun _ h => .inl h.1)
        intro _
        apply Keeps.bind (keeps_checkI64 fun _ h => .inl h.1)
        intro _
        apply Keeps.bind (Q := fun _ db => (Follows chain start 0 db ∧ db.scanState = none) ∧
          chain start = (hash, some goat))
        · apply Keeps.effect (fun _ h => .inl h.1)
          rintro db ⟨⟨hempty, hnone⟩, hblock⟩
          refine ⟨⟨⟨?_, fun state hstate => ?_⟩, hnone⟩, hblock⟩
          · rw [MonitorDb.upsertSequencerSetHashChange, hempty, changeHistory, hblock]
            rfl
          · exact absurd (hnone.symm.trans hstate) (Option.some_ne_none _).symm
        intro _
        apply Keeps.last fun _ h => .inr ⟨0, h.1.1, fun _ => rfl⟩
        rintro db ⟨⟨hfollows, -⟩, hblock⟩
        exact hfollows.save ⟨0, Nat.le_refl _, rfl, by rw [latestHash, hblock]⟩

theorem consistent_run (hstart : (chain start).2.isSome) (calls : List (Nat × List Bool)) :
    Consistent chain start (monitorRun chain start calls) := by
  have hcall : ∀ tip, Keeps (Consistent chain start) (Consistent chain start)
      (syncSequencerSetHashChanges chain start tip) fun _ => Consistent chain start := by
    intro tip
    apply Keeps.bind keeps_loadOrInitScanState
    intro state
    apply Keeps.bind (Q := fun _ => Tracks chain start state)
    · exact Keeps.effect (fun _ h => h.consistent) fun _ h => h
    intro latest
    apply Keeps.bind (keeps_checkI64 fun _ h => h.consistent)
    intro _
    exact keeps_scanBlocks hstart _ _ _
  unfold monitorRun
  induction calls using List.reverseRecOn with
  | nil => exact .inl ⟨rfl, rfl⟩
  | append_singleton calls call ih =>
    rw [List.foldl_append]
    exact (hcall call.1).state ih

theorem latestHash_of_carries {goat : Nat} (h : (chain (start + m)).2 = some goat) :
    latestHash chain start m = hexEncode (chain (start + m)).1 := by
  cases m with
  | zero => rfl
  | succ m =>
    rw [← Nat.add_assoc] at h ⊢
    rw [latestHash]
    split
    · rename_i hblock
      rw [hblock] at h
      cases h
    · rename_i hblock
      rw [hblock]

theorem find_changeHistory (hstart : (chain start).2.isSome)
    (hgoat : ∀ c d g g', c < d → (chain c).2 = some g →
      (chain d).2 = some g' → g < g') (hchanges : db.changes = changeHistory chain start p) (hm :
        m ≤ p) {goat : Nat}
    (hcarries : (chain (start + m)).2 = some goat) :
    ∃ row, db.findFirstSequencerSetHashChangeByGoatBlockAtOrBefore goat = some row ∧
      row.validatorsHash = hexEncode (chain (start + m)).1 := by
  obtain ⟨⟨newest, older, hshape, hnewest⟩, hsorted, -⟩ := changeHistory_shape hstart m
  obtain ⟨later, hlater, hheights⟩ := changeHistory_append chain start hm
  have hgoats : ∀ row ∈ changeHistory chain start p, (chain row.cosmosBlockHeight).2 =
    some row.goatBlockHeight := by
    intro row hrow
    obtain ⟨-, hash, hblock, -⟩ := exists_of_mem_changeHistory hstart hrow
    rw [hblock]
  have hmem : newest ∈ changeHistory chain start p := by
    rw [hlater, hshape]
    exact List.mem_append_right _ List.mem_cons_self
  have hle : newest.goatBlockHeight ≤ goat := by
    have hheight := (exists_of_mem_changeHistory hstart
      (hshape ▸ List.mem_cons_self : newest ∈ _)).1
    rcases Nat.lt_or_eq_of_le hheight with hlt | heq
    · exact (hgoat _ _ _ _ hlt (hgoats newest hmem) hcarries).le
    · rw [← heq, hgoats newest hmem] at hcarries
      exact (Option.some.inj hcarries).le
  -- every other change up to the Goat block is an older one
  have hmax : ∀ row ∈ changeHistory chain start p, row.goatBlockHeight ≤ goat → row = newest ∨
      row.goatBlockHeight < newest.goatBlockHeight := by
    intro row hrow hrowLe
    have hnot : row ∉ later := fun hin =>
      absurd (hgoat _ _ _ _ (hheights row hin) hcarries (hgoats row hrow)) (by omega)
    have hin := hrow
    rw [hlater, List.mem_append, hshape, List.mem_cons] at hin
    rcases hin with hin | rfl | hin
    · exact absurd hin hnot
    · exact .inl rfl
    · rw [hshape] at hsorted
      exact .inr (hgoat _ _ _ _ (List.rel_of_pairwise_cons hsorted hin) (hgoats row hrow)
        (hgoats newest hmem))
  have hcandidate : newest ∈ db.changes.filter fun row => row.goatBlockHeight ≤ goat :=
    List.mem_filter.mpr ⟨hchanges ▸ hmem, decide_eq_true hle⟩
  unfold MonitorDb.findFirstSequencerSetHashChangeByGoatBlockAtOrBefore
  cases hfind : (db.changes.filter fun row => row.goatBlockHeight ≤ goat).argmax
    (·.goatBlockHeight) with
  | none =>
    rw [List.argmax_eq_none.mp hfind] at hcandidate
    cases hcandidate
  | some row =>
    obtain ⟨hrow, hrowLe⟩ := List.mem_filter.mp (List.argmax_mem hfind)
    have hge := List.le_of_mem_argmax hcandidate hfind
    rcases hmax row (hchanges ▸ hrow) (of_decide_eq_true hrowLe) with rfl | hlt
    · exact ⟨row, rfl, hnewest.trans (latestHash_of_carries hcarries)⟩
    · exact absurd hge (Nat.not_le.mpr hlt)

/-- Whatever interrupts the calls, each scanned block finds its hash and consecutive changes
differ. -/
theorem sequencerSetHistory_exact (chain : CosmosChain) (start : Nat)
    (hstart : (chain start).2.isSome)
    (hgoat : ∀ c d g g', c < d → (chain c).2 = some g → (chain d).2 = some g' → g < g')
    (calls : List (Nat × List Bool)) :
    (∀ state, (monitorRun chain start calls).scanState = some state → ∀ c goat, start ≤ c →
      c < state.nextCosmosBlockHeight → (chain c).2 = some goat →
      ∃ row, (monitorRun chain start calls).findFirstSequencerSetHashChangeByGoatBlockAtOrBefore
        goat = some row ∧
        row.validatorsHash = hexEncode (chain c).1) ∧
    (monitorRun chain start calls).changes.Pairwise
      (fun newer older => older.cosmosBlockHeight < newer.cosmosBlockHeight) ∧
    (monitorRun chain start calls).changes.IsChain fun newer older =>
      newer.validatorsHash ≠ older.validatorsHash := by
  rcases consistent_run hstart calls with ⟨hempty, hnone⟩ | ⟨p, ⟨hchanges, hfits⟩, -⟩
  · rw [hempty, hnone]
    exact ⟨fun _ hstate => (Option.some_ne_none _ hstate.symm).elim, .nil, .nil⟩
  · refine ⟨?_, hchanges ▸ (changeHistory_shape hstart p).2⟩
    intro state hstate c goat hfrom hbefore hcarries
    obtain ⟨k, hk, hnext, -⟩ := hfits state hstate
    obtain ⟨m, rfl⟩ := Nat.exists_eq_add_of_le hfrom
    exact find_changeHistory hstart hgoat hchanges (by omega) hcarries

theorem sequencerSetHistory_alternating :
    ∃ row, (monitorRun (fun c => ([UInt8.ofNat (c / 2)], some c)) 3
        [(9, [true, true, true, true, true, true, true]),
        (9, List.replicate 20 true)]).findFirstSequencerSetHashChangeByGoatBlockAtOrBefore 7 =
          some row ∧
      row.validatorsHash = hexEncode [3] :=
  (sequencerSetHistory_exact (fun c => ([UInt8.ofNat (c / 2)], some c)) 3 rfl
    (fun c d g g' hlt hc hd => by cases hc; cases hd; exact hlt) _).1 ⟨10, 9, hexEncode [4]⟩ (by
      decide) 7 7 (by decide)
    (by decide) rfl

end BitvmNode.EventWatch
