import Mathlib.Data.List.Nodup
import Mathlib.Tactic.Common

/-!
# Looking up commit proofs

The row of a commit proof says from which Bitcoin height on the commit is the latest one.  A new row
ends the interval of the row before it through an update that is keyed by where that interval
starts.
-/

namespace BitvmNode.ProofBuilder

/-- The rows of the commit chain; every statement names the chain.  The columns that are only
reported are left out. -/
structure LongRunningTaskProof where
  (blockStart blockEnd : Nat)
  pathToProof : String
  proofState : Nat
  /-- History: the number of the call that recorded the row. -/
  call : Nat

def LongRunningTaskProof.Includes (row : LongRunningTaskProof) (blockNumber : Nat) : Prop :=
  blockNumber < row.blockEnd ∧ row.blockStart ≤ blockNumber

instance (row : LongRunningTaskProof) (blockNumber : Nat) : Decidable (row.Includes blockNumber) :=
  inferInstanceAs (Decidable (_ ∧ _))

/-- The query has a limit and no order: `choice` is which of the matching rows the database
returns. -/
def findLongRunningTaskProofIncludingBlockNumber (rows : List LongRunningTaskProof)
    (blockNumber choice : Nat) : Option LongRunningTaskProof :=
  let matching := rows.filter fun row => row.Includes blockNumber
  matching[choice % matching.length]?

def LongRunningTaskProof.ended (start size state : Nat) (row : LongRunningTaskProof) :
    LongRunningTaskProof :=
  if row.blockStart = start then { row with proofState := state, blockEnd := start + size } else row

def updateLongRunningTaskProofState (blockStart batchSize proofState : Nat)
    (rows : List LongRunningTaskProof) : List LongRunningTaskProof :=
  rows.map (·.ended blockStart batchSize proofState)

def proven : Nat := 2

structure CommitCall where
  start : Nat
  pathToProof : String
  replaceExisting : Bool
  choice : Nat

def openEnd : Nat := 0xffffffff

/-- The batch size is the one that the only caller gives, and the previous row starts at `start` or
before. -/
def createCommitChainProof (rows : List LongRunningTaskProof) (number : Nat) (call : CommitCall) :
    List LongRunningTaskProof :=
  let kept :=
    if call.replaceExisting then []
    else match findLongRunningTaskProofIncludingBlockNumber rows call.start call.choice with
      | some previous =>
          updateLongRunningTaskProofState previous.blockStart (call.start - previous.blockStart)
            previous.proofState rows
      | none => rows
  { blockStart := call.start, blockEnd := call.start + (openEnd - call.start),
    pathToProof := call.pathToProof, proofState := proven, call := number } :: kept

def commitTable : List CommitCall → List LongRunningTaskProof
  | [] => []
  | call :: earlier => createCommitChainProof (commitTable earlier) earlier.length call

structure RecordedCommit where
  (number height : Nat)

def recordedCommits : List CommitCall → List RecordedCommit
  | [] => []
  | call :: earlier =>
      ⟨earlier.length, call.start⟩ :: if call.replaceExisting then [] else recordedCommits earlier

def HeightsOrdered : List CommitCall → Prop
  | [] => True
  | call :: earlier =>
      (call.replaceExisting = true ∨
          ∀ commit ∈ recordedCommits earlier, commit.height ≤ call.start) ∧
        HeightsOrdered earlier

/-- Which commit each height belongs to, whatever row the database returns. -/
structure LookupExact (rows : List LongRunningTaskProof) (commits : List RecordedCommit) :
    Prop where
  disjoint : rows.Pairwise fun row other => ∀ height, row.Includes height → ¬ other.Includes height
  covers : ∀ commit ∈ commits, ∀ height, commit.height ≤ height → height < openEnd →
    ∃ row ∈ rows, row.Includes height
  latest : ∀ height choice, height < openEnd →
    (findLongRunningTaskProofIncludingBlockNumber rows height choice).map
      LongRunningTaskProof.call =
      (commits.find? fun commit => commit.height ≤ height).map RecordedCommit.number

/-- Only commits of the latest block share their height. -/
def RepeatsOnlyLast (commits : List RecordedCommit) : Prop :=
  commits.Pairwise fun newer older => newer.height = older.height →
    ∀ commit ∈ commits, commit.height ≤ older.height

/-- Two commits in one block, then a later one: a height in between finds the row of either, and one
of them is not the latest. -/
def sharedBlock : List CommitCall :=
    [⟨20, "c.bin", false, 0⟩, ⟨10, "b.bin", false, 0⟩, ⟨10, "a.bin", false, 0⟩]

theorem sharedBlock_overlaps : HeightsOrdered sharedBlock ∧
    (findLongRunningTaskProofIncludingBlockNumber (commitTable sharedBlock) 15 1).map
      (·.pathToProof) = some "a.bin" ∧
    (findLongRunningTaskProofIncludingBlockNumber (commitTable sharedBlock) 15 0).map
      (·.pathToProof) = some "b.bin" ∧
    ¬ LookupExact (commitTable sharedBlock) (recordedCommits sharedBlock) := by
  refine ⟨?_, by decide, by decide, fun h => ?_⟩
  · simp [sharedBlock, HeightsOrdered, recordedCommits]
  · have hlatest := h.latest 15 1 (by decide)
    exact absurd hlatest (by decide)

variable {calls : List CommitCall} {call : CommitCall} {newest row : LongRunningTaskProof}
  {older rows : List LongRunningTaskProof} {number height : Nat}

def LongRunningTaskProof.commit (row : LongRunningTaskProof) : RecordedCommit :=
  ⟨row.call, row.blockStart⟩

theorem commitTable_commits (calls : List CommitCall) :
    (commitTable calls).map LongRunningTaskProof.commit = recordedCommits calls := by
  induction calls with
  | nil => rfl
  | cons call earlier ih =>
    rw [commitTable, createCommitChainProof, recordedCommits, List.map_cons]
    congr 1
    split
    · rfl
    · split
      · rw [updateLongRunningTaskProofState, List.map_map, ← ih]
        apply List.map_congr_left
        intro row _
        simp only [Function.comp_apply, LongRunningTaskProof.commit, LongRunningTaskProof.ended]
        split <;> rfl
      · exact ih

/-- The newest row is open, every other one ends where a later height was recorded. -/
structure Stacked (newest : LongRunningTaskProof) (older : List LongRunningTaskProof) : Prop where
  newest_end : newest.blockEnd = openEnd
  ordered : (newest :: older).Pairwise fun newer old => old.blockStart ≤ newer.blockStart
  end_le : ∀ row ∈ older, row.blockEnd ≤ newest.blockStart
  nonempty : ∀ row ∈ older, row.blockStart < newest.blockStart → row.blockStart < row.blockEnd
  end_le_later : ∀ row ∈ older, ∀ later ∈ older, row.blockStart < later.blockStart →
    row.blockEnd ≤ later.blockStart
  covered : ∀ row ∈ older, ∀ height, row.blockStart ≤ height → height < newest.blockStart →
    ∃ row ∈ older, row.Includes height

theorem Stacked.start_le (h : Stacked newest older) (hrow : row ∈ newest :: older) :
    row.blockStart ≤ newest.blockStart := by
  rcases List.mem_cons.mp hrow with rfl | hrow
  · exact Nat.le_refl _
  · exact List.rel_of_pairwise_cons h.ordered hrow

theorem Stacked.find_eq (h : Stacked newest older) (hstart : newest.blockStart ≤ height)
    (hend : height < openEnd) (choice : Nat) :
    findLongRunningTaskProofIncludingBlockNumber (newest :: older) height choice = some newest := by
  have hnewest : newest.Includes height := ⟨h.newest_end ▸ hend, hstart⟩
  have holder : older.filter (fun row => decide (row.Includes height)) = [] := by
    rw [List.filter_eq_nil_iff]
    intro row hrow hincludes
    have hlt := (of_decide_eq_true hincludes).1
    have hle := h.end_le row hrow
    omega
  simp [findLongRunningTaskProofIncludingBlockNumber, hnewest, holder, Nat.mod_one]

@[simp] theorem ended_blockStart (start size state : Nat) (row : LongRunningTaskProof) :
    (row.ended start size state).blockStart = row.blockStart := by
  unfold LongRunningTaskProof.ended
  split <;> rfl

theorem ended_of_eq {start size state : Nat} (h : row.blockStart = start) :
    (row.ended start size state).blockEnd = start + size := by
      rw [LongRunningTaskProof.ended, if_pos h]

theorem ended_of_ne {start size state : Nat} (h : row.blockStart ≠ start) :
    row.ended start size state = row :=
  if_neg h

theorem Stacked.record (h : Stacked newest older) (hstart : newest.blockStart ≤ row.blockStart)
    (hopen : row.blockEnd = openEnd) (state : Nat) :
    Stacked row (updateLongRunningTaskProofState newest.blockStart
        (row.blockStart - newest.blockStart) state
      (newest :: older)) := by
  rw [updateLongRunningTaskProofState]
  have hsize : newest.blockStart + (row.blockStart - newest.blockStart) = row.blockStart :=
    Nat.add_sub_cancel' hstart
  generalize row.blockStart - newest.blockStart = size at hsize
  -- the rows that start with the newest one end at the new height, the others are as before
  have hcases : ∀ old ∈ newest :: older,
      (old.blockStart = newest.blockStart ∧ (old.ended newest.blockStart size state).blockEnd =
        row.blockStart) ∨
      (old.blockStart < newest.blockStart ∧ old ∈ older ∧
        old.ended newest.blockStart size state = old) := by
    intro old hold
    by_cases heq : old.blockStart = newest.blockStart
    · exact .inl ⟨heq, (ended_of_eq heq).trans hsize⟩
    · refine .inr ⟨Nat.lt_of_le_of_ne (h.start_le hold) heq, ?_, ended_of_ne heq⟩
      rcases List.mem_cons.mp hold with rfl | hold
      · exact absurd rfl heq
      · exact hold
  refine ⟨hopen, ?_, ?_, ?_, ?_, ?_⟩
  · rw [List.pairwise_cons, List.forall_mem_map, List.pairwise_map]
    simp only [ended_blockStart]
    exact ⟨fun old hold => Nat.le_trans (h.start_le hold) hstart, h.ordered⟩
  · rw [List.forall_mem_map]
    intro old hold
    rcases hcases old hold with ⟨-, hend⟩ | ⟨-, hkept, hsame⟩
    · exact Nat.le_of_eq hend
    · rw [hsame]
      exact Nat.le_trans (h.end_le old hkept) hstart
  · rw [List.forall_mem_map]
    intro old hold hbefore
    rcases hcases old hold with ⟨-, hend⟩ | ⟨hearlier, hkept, hsame⟩
    · rwa [hend]
    · rw [hsame]
      exact h.nonempty old hkept hearlier
  · simp only [List.forall_mem_map, ended_blockStart]
    intro old hold later hlater hbefore
    have hle := h.start_le hlater
    rcases hcases old hold with ⟨hnewest, -⟩ | ⟨-, hkept, hsame⟩
    · omega
    · rw [hsame]
      rcases List.mem_cons.mp hlater with hnewest | hlater
      · exact hnewest ▸ h.end_le old hkept
      · exact h.end_le_later old hkept later hlater hbefore
  · simp only [List.forall_mem_map, ended_blockStart]
    intro old hold height hfrom hbefore
    by_cases hnewest : newest.blockStart ≤ height
    · refine ⟨_, List.mem_map_of_mem List.mem_cons_self, ?_, ?_⟩
      · rwa [ended_of_eq rfl, hsize]
      · rwa [ended_blockStart]
    · rcases hcases old hold with ⟨hsame, -⟩ | ⟨-, hkept, -⟩
      · omega
      · obtain ⟨found, hfound, hincludes⟩ := h.covered old hkept height hfrom (by omega)
        have hne : found.blockStart ≠ newest.blockStart := by
          have hle := hincludes.2
          omega
        exact ⟨found, List.mem_map.mpr ⟨found, List.mem_cons_of_mem _ hfound, ended_of_ne hne⟩,
          hincludes⟩

theorem Stacked.single (hopen : row.blockEnd = openEnd) : Stacked row [] :=
  ⟨hopen, List.pairwise_singleton _ _, by simp, by simp, by simp, by simp⟩

theorem commitTable_stacked (hordered : HeightsOrdered (call :: calls))
    (hheights : ∀ c ∈ call :: calls, c.start < openEnd) :
    ∃ newest older, commitTable (call :: calls) = newest :: older ∧ newest.blockStart = call.start ∧
      Stacked newest older := by
  induction calls generalizing call with
  | nil =>
    have hlt := hheights call List.mem_cons_self
    have hopen := Nat.add_sub_cancel' (Nat.le_of_lt hlt)
    have htable : commitTable [call] =
        [⟨call.start, call.start + (openEnd - call.start), call.pathToProof, proven, 0⟩] := by
      rw [commitTable, createCommitChainProof]
      congr 1
      split <;> rfl
    exact ⟨_, [], htable, rfl, Stacked.single hopen⟩
  | cons earlier calls ih =>
    have hlt := hheights call List.mem_cons_self
    have hopen := Nat.add_sub_cancel' (Nat.le_of_lt hlt)
    obtain ⟨newest, older, htable, hnewest, hstacked⟩ :=
      ih hordered.2 fun c hc => hheights c (List.mem_cons_of_mem _ hc)
    rw [commitTable, createCommitChainProof, htable]
    cases hreplace : call.replaceExisting with
    | true => exact ⟨_, _, rfl, rfl, Stacked.single hopen⟩
    | false =>
      have hstart : newest.blockStart ≤ call.start := by
        rw [hnewest]
        rcases hordered.1 with hreplaced | hheight
        · cases hreplace.symm.trans hreplaced
        · exact hheight _ List.mem_cons_self
      rw [hstacked.find_eq hstart hlt]
      refine ⟨_, _, rfl, rfl, ?_⟩
      exact hstacked.record hstart hopen newest.proofState

theorem find_cases (rows : List LongRunningTaskProof) (height choice : Nat) :
    (∃ row ∈ rows, row.Includes height ∧
      findLongRunningTaskProofIncludingBlockNumber rows height choice = some row) ∨
    (findLongRunningTaskProofIncludingBlockNumber rows height choice = none ∧
      ∀ row ∈ rows, ¬ row.Includes height) := by
  cases hfind : findLongRunningTaskProofIncludingBlockNumber rows height choice with
  | some row =>
    have hmem := List.mem_filter.mp (List.mem_of_getElem? hfind)
    exact .inl ⟨row, hmem.1, of_decide_eq_true hmem.2, rfl⟩
  | none =>
    refine .inr ⟨rfl, ?_⟩
    have hlen := List.getElem?_eq_none_iff.mp hfind
    rcases Nat.eq_zero_or_pos (rows.filter fun row => row.Includes height).length with hempty | hpos
    · intro row hrow hincludes
      exact List.filter_eq_nil_iff.mp (List.length_eq_zero_iff.mp hempty) row hrow
        (decide_eq_true hincludes)
    · have hlt := Nat.mod_lt choice hpos
      omega

section

variable (h : Stacked newest older)

include h

theorem Stacked.exists_includes (hrow : row ∈ newest :: older)
    (hfrom : row.blockStart ≤ height) (hbefore : height < openEnd) :
    ∃ r ∈ newest :: older, r.Includes height := by
  by_cases hnewest : newest.blockStart ≤ height
  · exact ⟨newest, List.mem_cons_self, h.newest_end ▸ hbefore, hnewest⟩
  · rcases List.mem_cons.mp hrow with rfl | hrow
    · exact absurd hfrom hnewest
    · obtain ⟨found, hfound, hincludes⟩ :=
        h.covered row hrow height hfrom (Nat.lt_of_not_le hnewest)
      exact ⟨found, List.mem_cons_of_mem _ hfound, hincludes⟩

theorem Stacked.repeatsOnlyLast (hdisjoint : (newest :: older).Pairwise fun row other =>
      ∀ height, row.Includes height → ¬ other.Includes height) :
    RepeatsOnlyLast ((newest :: older).map LongRunningTaskProof.commit) := by
  rw [RepeatsOnlyLast, List.pairwise_map]
  apply hdisjoint.imp_of_mem
  intro row other hrow hother hapart hsame
  rw [List.forall_mem_map]
  intro later hlater
  by_contra hlt
  have htop := h.start_le hlater
  have hheld : ∀ r ∈ newest :: older, r.blockStart = other.blockStart →
    r.Includes other.blockStart := by
    intro r hr hstart
    have hbelow : r.blockStart < newest.blockStart := by
      change ¬ later.blockStart ≤ other.blockStart at hlt
      omega
    rcases List.mem_cons.mp hr with rfl | hr
    · exact absurd hbelow (Nat.lt_irrefl _)
    · exact ⟨hstart ▸ h.nonempty r hr hbelow, Nat.le_of_eq hstart⟩
  exact hapart other.blockStart (hheld row hrow hsame) (hheld other hother rfl)

variable (hrepeats : RepeatsOnlyLast ((newest :: older).map LongRunningTaskProof.commit))

include hrepeats

theorem Stacked.apart :
    (newest :: older).Pairwise fun newer row => ∀ height, row.Includes height →
    height < newer.blockStart := by
  have hpairs := h.ordered.and (List.pairwise_map.mp hrepeats)
  rw [List.pairwise_cons] at hpairs ⊢
  constructor
  · intro row hrow height hincludes
    exact Nat.lt_of_lt_of_le hincludes.1 (h.end_le row hrow)
  · apply hpairs.2.imp_of_mem
    intro newer row hnewer hrow ⟨hstart, hlast⟩ height hincludes
    have hend := h.end_le row hrow
    have hin := hincludes.1
    rcases Nat.lt_or_eq_of_le hstart with hlt | heq
    · have hnext := h.end_le_later row hrow newer hnewer hlt
      omega
    · -- both are of the newest height, and only the newest row of it has an interval
      have htop : newest.blockStart ≤ row.blockStart :=
        hlast heq.symm newest.commit List.mem_cons_self
      omega

theorem Stacked.find?_eq (hrow : row ∈ newest :: older) (hincludes : row.Includes height) :
    (newest :: older).find? (fun r => r.blockStart ≤ height) = some row := by
  obtain ⟨newer, later, hsplit⟩ := List.append_of_mem hrow
  refine List.find?_eq_some_iff_append.mpr ⟨decide_eq_true hincludes.2, newer, later, hsplit, ?_⟩
  intro other hother
  have hapart := (List.pairwise_append.mp (hsplit ▸ h.apart hrepeats)).2.2 other hother row
    List.mem_cons_self
  rw [Bool.not_eq_true', decide_eq_false_iff_not, Nat.not_le]
  exact hapart height hincludes

theorem Stacked.lookupExact :
    LookupExact (newest :: older) ((newest :: older).map LongRunningTaskProof.commit) := by
  refine ⟨?_, ?_, ?_⟩
  · apply (h.apart hrepeats).imp
    intro row other hapart height hincludes hother
    exact Nat.not_le.mpr (hapart height hother) hincludes.2
  · rw [List.forall_mem_map]
    intro row hrow height hfrom hbefore
    exact h.exists_includes hrow hfrom hbefore
  · intro height choice hbefore
    have hcommits : (((newest :: older).map LongRunningTaskProof.commit).find? fun commit =>
        commit.height ≤ height) =
        ((newest :: older).find? fun r => r.blockStart ≤ height).map LongRunningTaskProof.commit :=
          List.find?_map ..
    rw [hcommits, Option.map_map]
    rcases find_cases (newest :: older) height choice with ⟨row, hrow, hincludes, hfind⟩ |
      ⟨hfind, hnone⟩
    · rw [hfind, h.find?_eq hrepeats hrow hincludes]
      rfl
    · rw [hfind, List.find?_eq_none.mpr]
      · rfl
      · intro row hrow hfrom
        obtain ⟨found, hfound, hincludes⟩ :=
          h.exists_includes hrow (of_decide_eq_true hfrom) hbefore
        exact hnone found hfound hincludes

end

/-- After ordered calls the lookups are exact if and only if only the latest block holds several
commits. -/
theorem lookupExact_iff (calls : List CommitCall) (hordered : HeightsOrdered calls)
    (hheights : ∀ call ∈ calls, call.start < openEnd) :
    LookupExact (commitTable calls) (recordedCommits calls) ↔
    RepeatsOnlyLast (recordedCommits calls) := by
  cases calls with
  | nil => exact ⟨fun _ => List.Pairwise.nil,
      fun _ => ⟨List.Pairwise.nil, by simp [recordedCommits], fun _ _ _ => rfl⟩⟩
  | cons call earlier =>
    obtain ⟨newest, older, htable, -, hstacked⟩ := commitTable_stacked hordered hheights
    rw [← commitTable_commits, htable]
    constructor
    · intro h
      exact hstacked.repeatsOnlyLast h.disjoint
    · intro h
      exact hstacked.lookupExact h

theorem lookupExact_two_commits :
    LookupExact (commitTable [⟨20, "b.bin", false, 0⟩, ⟨10, "a.bin", false, 0⟩])
      (recordedCommits [⟨20, "b.bin", false, 0⟩, ⟨10, "a.bin", false, 0⟩]) := by
  refine (lookupExact_iff _ ?_ ?_).mpr ?_
  · simp [HeightsOrdered, recordedCommits]
  · simp [openEnd]
  · simp [RepeatsOnlyLast, recordedCommits]

end BitvmNode.ProofBuilder
