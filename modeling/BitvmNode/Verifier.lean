import BitvmNode.Reasoning.Bytes
import BitvmNode.Reasoning.HashTrees

/-!
# Program identities, their histories and proof verification

A program is known by its id, a tagged hash of its verifying key.
-/

namespace BitvmNode.Verifier

open Reasoning

abbrev ProgramId := Bytes32

inductive ProgramType where
  | header
  | state

def ProgramType.toU8 : ProgramType → UInt8
  | .header => 1
  | .state => 2

variable (sha256 : Bytes → Bytes32)

def taggedHash (tag : Bytes) (parts : List Bytes) : Bytes32 := sha256 (tag ++ parts.flatten)

def historySeedTag : Bytes := utf8 "bitvm/vk-history-seed/v1"

def historyStepTag : Bytes := utf8 "bitvm/vk-history-step/v1"

def historyFinalTag : Bytes := utf8 "bitvm/vk-history-final/v1"

def programHistoryTag : Bytes := utf8 "bitvm/program-history/v1"

def proofUpgradeTag : Bytes := utf8 "bitvm/proof-upgrade/v1"

def proofCheckpointRootTag : Bytes := utf8 "bitvm/proof-checkpoint-root/v1"

def initialHistory (programType : ProgramType) : Bytes32 :=
  taggedHash sha256 historySeedTag [[programType.toU8]]

def nextHistory (programType : ProgramType) (previousHistory : Bytes32)
    (previousProgramId currentProgramId : ProgramId) : Bytes32 :=
  if previousProgramId = currentProgramId then previousHistory
  else
    taggedHash sha256 historyStepTag [[programType.toU8], previousHistory.toList,
      previousProgramId.toList]

def finalizeHistory (programType : ProgramType) (history : Bytes32) (currentProgramId : ProgramId) :
    Bytes32 :=
  taggedHash sha256 historyFinalTag [[programType.toU8], history.toList, currentProgramId.toList]

def programHistoryRoot (headerHistory stateHistory : Bytes32) : Bytes32 :=
  taggedHash sha256 programHistoryTag [headerHistory.toList, stateHistory.toList]

/-- Extends a circuit checkpoint with the authenticated predecessor output at an upgrade. -/
def proofCheckpoint (programType : ProgramType) (previousCheckpoint : Bytes32)
    (previousProgramId currentProgramId : ProgramId) (previousPublicValues : Bytes) : Bytes32 :=
  taggedHash sha256 proofUpgradeTag
    [[programType.toU8], previousCheckpoint.toList, previousProgramId.toList,
      currentProgramId.toList, (sha256 previousPublicValues).toList]

def proofCheckpointRoot (headerCheckpoint stateCheckpoint : Bytes32) : Bytes32 :=
  taggedHash sha256 proofCheckpointRootTag [headerCheckpoint.toList, stateCheckpoint.toList]

/-- The library functions behind the verification: strings, the verifying keys that are bundled, and
the Groth16 verifier itself. -/
structure Groth16 where
  fromUtf8 : Bytes → Except String String
  tryGetPartStarkVk : String → Option Bytes
  decodeZkmVkeyHash : String → Except String Bytes32
  verifyByImmGroth16Vk : Bytes → Bytes → String → Bytes → Except String Unit

variable (groth16 : Groth16)

def bundledPartStarkVk (zkmVersion : String) : Except String Bytes :=
  match groth16.tryGetPartStarkVk zkmVersion with
  | some partStarkVk => .ok partStarkVk
  | none => .error s!"no partial STARK verifying key is bundled for Ziren {zkmVersion}"

def programIdWithPartVk (zkmVkHash : String) (partStarkVk : Bytes) : Except String ProgramId := do
  let vkHash ← groth16.decodeZkmVkeyHash zkmVkHash
  .ok (taggedHash sha256 (utf8 "bitvm/program-id/v1") [vkHash.toList, (sha256 partStarkVk).toList])

structure ProofInput where
  (zkmProof zkmPublicValues zkmVkHash : Bytes)
  zkmVersion : String
  deriving DecidableEq

def verifyGroth16Proof (input : ProofInput) : Except String ProgramId := do
  let zkmVkHash ← groth16.fromUtf8 input.zkmVkHash
  let partStarkVk ← bundledPartStarkVk groth16 input.zkmVersion
  match groth16.verifyByImmGroth16Vk input.zkmProof input.zkmPublicValues zkmVkHash partStarkVk with
  | .error err => .error s!"Verify Groth16 proof, err: {err}"
  | .ok () => programIdWithPartVk sha256 groth16 zkmVkHash partStarkVk

def verifiedAs (input : ProofInput) : Option (ProgramId × Bytes) :=
  (verifyGroth16Proof sha256 groth16 input).toOption.map (·, input.zkmPublicValues)

theorem verifiedAs_of_ok {input : ProofInput} {id : ProgramId}
    (h : verifyGroth16Proof sha256 groth16 input = .ok id) :
    verifiedAs sha256 groth16 input = some (id, input.zkmPublicValues) := by
  rw [verifiedAs, h]
  rfl

def historyStep (programType : ProgramType) (history : Bytes32) (previous : ProgramId) : Bytes :=
  historyStepTag ++ [[programType.toU8], history.toList, previous.toList].flatten

/-- The history of a chain whose earlier programs, last one first, are `older`. -/
def historyOf (programType : ProgramType) : List ProgramId → Bytes32
  | [] => initialHistory sha256 programType
  | previous :: older => sha256 (historyStep programType (historyOf programType older) previous)

def historyStrings (programType : ProgramType) : List ProgramId → List Bytes
  | [] => [historySeedTag ++ [programType.toU8]]
  | previous :: older =>
      historyStep programType (historyOf sha256 programType older) previous ::
        historyStrings programType older

variable {programType : ProgramType} {history : Bytes32} {previous : ProgramId}

theorem historyStep_inj {history' : Bytes32} {previous' : ProgramId}
    (h : historyStep programType history previous = historyStep programType history' previous') :
    history = history' ∧ previous = previous' := by
  simp only [historyStep, List.flatten_cons, List.flatten_nil, List.append_nil] at h
  exact Bytes32.append_inj (List.append_cancel_left (List.append_cancel_left h))

theorem historyStep_ne_seed {programType' : ProgramType} :
    historySeedTag ++ [programType.toU8] ≠ historyStep programType' history previous := by
  intro h
  have hseed : historySeedTag.length = 24 := by decide +kernel
  have hstep : historyStepTag.length = 24 := by decide +kernel
  have hlen := congrArg List.length h
  simp [historyStep, hseed, hstep] at hlen

theorem types_differ {tag xs ys : Bytes} :
    tag ++ ([ProgramType.header.toU8] ++ xs) ≠ tag ++ ([ProgramType.state.toU8] ++ ys) := by
  intro h
  have hbyte := congrArg List.head? (List.append_cancel_left h)
  revert hbyte
  simp [ProgramType.toU8]

/-- A history that has become that of `older` was so before, or has passed on from the last of
them. -/
theorem nextHistory_eq_historyOf {current : ProgramId} {older : List ProgramId}
    (h : nextHistory sha256 programType history previous current =
      historyOf sha256 programType older) :
    (previous = current ∧ history = historyOf sha256 programType older) ∨
      (∃ rest, older = previous :: rest ∧ history = historyOf sha256 programType rest) ∨
      ∃ x ∈ historyStrings sha256 programType older, x ≠ historyStep programType history previous ∧
          sha256 x = sha256 (historyStep programType history previous) := by
  unfold nextHistory at h
  split_ifs at h with hsame
  · exact Or.inl ⟨hsame, h⟩
  right
  cases older with
  | nil =>
    right
    refine ⟨_, List.mem_singleton_self _, historyStep_ne_seed, ?_⟩
    simpa [historyOf, initialHistory, taggedHash, historyStep] using h.symm
  | cons last rest =>
    by_cases hstring : historyStep programType history previous =
        historyStep programType (historyOf sha256 programType rest) last
    · left
      obtain ⟨hhistory, hlast⟩ := historyStep_inj hstring
      exact ⟨rest, by rw [hlast], hhistory⟩
    · right
      exact ⟨_, List.mem_cons_self, fun hne => hstring hne.symm, h.symm⟩

structure Upgrade where
  (previous current : ProgramId)
  values : Bytes

def checkpointString (programType : ProgramType) (checkpoint : Bytes32) (upgrade : Upgrade) :
    Bytes :=
  proofUpgradeTag ++ [[programType.toU8], checkpoint.toList, upgrade.previous.toList,
    upgrade.current.toList, (sha256 upgrade.values).toList].flatten

def checkpointOf (programType : ProgramType) : List Upgrade → Bytes32
  | [] => zero32
  | upgrade :: older =>
      sha256 (checkpointString sha256 programType (checkpointOf programType older) upgrade)

def checkpointStrings (programType : ProgramType) : List Upgrade → List Bytes
  | [] => []
  | upgrade :: older =>
      checkpointString sha256 programType (checkpointOf sha256 programType older) upgrade ::
        upgrade.values :: checkpointStrings programType older

theorem checkpointString_inj {checkpoint checkpoint' : Bytes32} {upgrade upgrade' : Upgrade}
    (h : checkpointString sha256 programType checkpoint upgrade =
      checkpointString sha256 programType checkpoint' upgrade') :
    checkpoint = checkpoint' ∧ upgrade.previous = upgrade'.previous ∧
      upgrade.current = upgrade'.current ∧ sha256 upgrade.values = sha256 upgrade'.values := by
  simp only [checkpointString, List.flatten_cons, List.flatten_nil, List.append_nil] at h
  obtain ⟨hcheckpoint, h⟩ :=
    Bytes32.append_inj' (List.append_cancel_left (List.append_cancel_left h))
  obtain ⟨hprevious, h⟩ := Bytes32.append_inj' h
  obtain ⟨hcurrent, hvalues⟩ := Bytes32.append_inj h
  exact ⟨hcheckpoint, hprevious, hcurrent, hvalues⟩

theorem checkpointOf_inj {upgrades upgrades' : List Upgrade}
    (hlen : upgrades.length = upgrades'.length)
    (h : checkpointOf sha256 programType upgrades = checkpointOf sha256 programType upgrades') :
    upgrades = upgrades' ∨ CollisionIn sha256 (checkpointStrings sha256 programType upgrades ++
      checkpointStrings sha256 programType upgrades') := by
  induction upgrades generalizing upgrades' with
  | nil =>
    left
    exact (List.length_eq_zero_iff.mp hlen.symm).symm
  | cons upgrade older ih =>
    cases upgrades' with
    | nil => cases hlen
    | cons upgrade' older' =>
      rcases eq_or_collision sha256 h with hstring | hcollision
      · obtain ⟨hcheckpoint, hprevious, hcurrent, hhash⟩ := checkpointString_inj sha256 hstring
        rcases eq_or_collision sha256 hhash with hvalues | hcollision
        · rcases ih (Nat.succ.inj hlen) hcheckpoint with holder | hcollision
          · left
            obtain ⟨previous, current, values⟩ := upgrade
            obtain ⟨previous', current', values'⟩ := upgrade'
            cases hprevious
            cases hcurrent
            cases hvalues
            rw [holder]
          · right
            refine hcollision.mono ?_
            intro x hx
            rcases List.mem_append.mp hx with hx | hx
            · simp [checkpointStrings, hx]
            · simp [checkpointStrings, hx]
        · right
          exact hcollision.mono (by simp [checkpointStrings])
      · right
        exact hcollision.mono (by simp [checkpointStrings])

def rootStrings (headerHistory : Bytes32) (headerId : ProgramId) (stateHistory : Bytes32)
    (stateId : ProgramId) : List Bytes :=
  [programHistoryTag ++ [(finalizeHistory sha256 .header headerHistory headerId).toList,
      (finalizeHistory sha256 .state stateHistory stateId).toList].flatten,
    historyFinalTag ++ [[ProgramType.header.toU8], headerHistory.toList, headerId.toList].flatten,
    historyFinalTag ++ [[ProgramType.state.toU8], stateHistory.toList, stateId.toList].flatten]

theorem finalizeHistory_inj {history' : Bytes32} {id id' : ProgramId}
    (h : historyFinalTag ++ [[programType.toU8], history.toList, id.toList].flatten =
      historyFinalTag ++ [[programType.toU8], history'.toList, id'.toList].flatten) :
    history = history' ∧ id = id' := by
  simp only [List.flatten_cons, List.flatten_nil, List.append_nil] at h
  exact Bytes32.append_inj (List.append_cancel_left (List.append_cancel_left h))

theorem programHistoryRoot_inj {hh hh' sh sh' : Bytes32} {hid hid' sid sid' : ProgramId}
    (h : programHistoryRoot sha256 (finalizeHistory sha256 .header hh hid)
      (finalizeHistory sha256 .state sh sid) =
      programHistoryRoot sha256 (finalizeHistory sha256 .header hh' hid')
        (finalizeHistory sha256 .state sh' sid')) :
    (hh = hh' ∧ hid = hid' ∧ sh = sh' ∧ sid = sid') ∨
      CollisionIn sha256 (rootStrings sha256 hh hid sh sid ++
        rootStrings sha256 hh' hid' sh' sid') := by
  rcases eq_or_collision sha256 h with hroot | hcol
  · simp only [List.flatten_cons, List.flatten_nil, List.append_nil] at hroot
    obtain ⟨hheader, hstate⟩ := Bytes32.append_inj (List.append_cancel_left hroot)
    rcases eq_or_collision sha256 hheader with hheader | hcol
    · rcases eq_or_collision sha256 hstate with hstate | hcol
      · left
        obtain ⟨h1, h2⟩ := finalizeHistory_inj hheader
        obtain ⟨h3, h4⟩ := finalizeHistory_inj hstate
        exact ⟨h1, h2, h3, h4⟩
      · right
        exact hcol.mono (by simp [rootStrings])
    · right
      exact hcol.mono (by simp [rootStrings])
  · right
    exact hcol.mono (by simp [rootStrings])

end BitvmNode.Verifier
