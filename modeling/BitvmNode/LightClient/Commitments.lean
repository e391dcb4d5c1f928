import BitvmNode.LightClient.Watchtower

/-!
# Watchtower commitments

The watchtower concatenates the fields of its commitment and spreads the bytes over outputs of its
challenge, one push each, the last of them behind OP_RETURN.
-/

namespace BitvmNode.LightClient

open Reasoning Bitcoin HeaderChain

def buildWatchtowerCommitment (graphId : Vector UInt8 16) (proof : Vector UInt8 260)
    (publicInputs : Vector UInt8 36) (vkHash zkmVersion : String) : Option Bytes :=
  if (utf8 vkHash).length = vkHashSize then
    some (graphId.toList ++ (proof.toList ++ (publicInputs.toList ++ (utf8 vkHash ++
      (leBytes zkmVersionLenSize (utf8 zkmVersion).length ++ utf8 zkmVersion)))))
  else none

def stringFromUtf8 (describe : Bytes → String) (bytes : Bytes) : Except String String :=
  match String.fromUTF8? ⟨bytes.toArray⟩ with
  | some text => .ok text
  | none => .error (describe bytes)

theorem stringFromUtf8_eq_ok_iff {describe : Bytes → String} {bytes : Bytes} {text : String} :
    stringFromUtf8 describe bytes = .ok text ↔ utf8 text = bytes := by
  have hutf8 : ∀ text : String, utf8 text = text.toByteArray.data.toList :=
    fun text => byteArray_toList text.toUTF8
  unfold stringFromUtf8 String.fromUTF8?
  constructor
  · intro h
    by_cases hvalid : (ByteArray.mk bytes.toArray).IsValidUTF8
    · rw [dif_pos hvalid] at h
      cases Except.ok.inj h
      exact hutf8 _
    · rw [dif_neg hvalid] at h
      cases h
  · intro h
    have hbytes : ByteArray.mk bytes.toArray = text.toByteArray := by
      apply ByteArray.ext
      rw [← h, hutf8]
    have hvalid : (ByteArray.mk bytes.toArray).IsValidUTF8 := by
      rw [hbytes]
      exact text.isValidUTF8
    rw [dif_pos hvalid]
    exact congrArg Except.ok (String.toByteArray_inj.mp hbytes)

section Parsing

theorem splitAt_append {n : Nat} {xs : Bytes} (h : xs.length = n) (ys : Bytes) :
    (xs ++ ys).splitAt n = (xs, ys) := by
  rw [List.splitAt_eq, List.take_left' h, List.drop_left' h]

variable {describe : Bytes → String} {commitment : Bytes} {parsed : WatchtowerCommitment}

structure LaidOut (commitment : Bytes) (parsed : WatchtowerCommitment) : Prop where
  graphId_length : parsed.graphId.length = graphIdSize
  proof_length : parsed.proof.length = proofSize
  publicValues_length : parsed.publicValues.length = publicInputsSize
  vkHash_length : parsed.vkHash.length = vkHashSize
  version_pos : utf8 parsed.zkmVersion ≠ []
  version_lt : (utf8 parsed.zkmVersion).length < 2 ^ 32
  totalWork_eq : parsed.totalWork = parsed.publicValues.take totalWorkSize
  height_eq : parsed.consensusBlockHeight = parsed.publicValues.drop totalWorkSize
  bytes_eq : commitment = parsed.graphId ++ (parsed.proof ++ (parsed.publicValues ++
    (parsed.vkHash ++ (leBytes zkmVersionLenSize (utf8 parsed.zkmVersion).length ++
      utf8 parsed.zkmVersion))))

theorem LaidOut.parse (h : LaidOut commitment parsed) :
    parseWatchtowerCommitment (stringFromUtf8 describe) commitment = .ok parsed := by
  have hlen : (leBytes zkmVersionLenSize (utf8 parsed.zkmVersion).length).length =
    zkmVersionLenSize :=
    leBytes_length _ _
  have hread : leNat (leBytes zkmVersionLenSize (utf8 parsed.zkmVersion).length) =
      (utf8 parsed.zkmVersion).length := by
    rw [leNat_leBytes]
    exact Nat.mod_eq_of_lt h.version_lt
  have hpos : (utf8 parsed.zkmVersion).length ≠ 0 := by
    rw [Ne, List.length_eq_zero_iff]
    exact h.version_pos
  have hsize : commitment.length = minCommitmentSize + (utf8 parsed.zkmVersion).length := by
    rw [h.bytes_eq]
    simp only [List.length_append, h.graphId_length, h.proof_length, h.publicValues_length,
      h.vkHash_length, hlen, minCommitmentSize]
    omega
  have htext : stringFromUtf8 describe (utf8 parsed.zkmVersion) = .ok parsed.zkmVersion :=
    stringFromUtf8_eq_ok_iff.mpr rfl
  dsimp only [parseWatchtowerCommitment]
  rw [if_neg (by omega), hsize, h.bytes_eq, splitAt_append h.graphId_length,
    splitAt_append h.proof_length, splitAt_append h.publicValues_length,
    splitAt_append h.vkHash_length, splitAt_append hlen, hread]
  rw [if_neg hpos, if_neg (fun h => h rfl), htext]
  rw [← h.totalWork_eq, ← h.height_eq]

theorem LaidOut.of_parse
    (h : parseWatchtowerCommitment (stringFromUtf8 describe) commitment = .ok parsed) :
    LaidOut commitment parsed := by
  unfold parseWatchtowerCommitment at h
  simp only [List.splitAt_eq] at h
  split at h
  · cases h
  rename_i hmin
  split at h
  · cases h
  rename_i hpos
  split at h
  · cases h
  rename_i hsize
  split at h
  · cases h
  rename_i version hversion
  cases Except.ok.inj h
  have htext := stringFromUtf8_eq_ok_iff.mp hversion
  -- the rest after each cut
  set rest1 := commitment.drop graphIdSize with hrest1
  set rest2 := rest1.drop proofSize with hrest2
  set rest3 := rest2.drop publicInputsSize with hrest3
  set rest4 := rest3.drop vkHashSize with hrest4
  have hlen1 : rest1.length = commitment.length - 16 := List.length_drop
  have hlen2 : rest2.length = rest1.length - 260 := List.length_drop
  have hlen3 : rest3.length = rest2.length - 36 := List.length_drop
  have hlen4 : rest4.length = rest3.length - 66 := List.length_drop
  have hmin' : 382 ≤ commitment.length := Nat.not_lt.mp hmin
  have hfield : (rest4.take zkmVersionLenSize).length = zkmVersionLenSize := by
    rw [List.length_take]
    change min 4 rest4.length = 4
    omega
  have hlt : leNat (rest4.take zkmVersionLenSize) < 256 ^ zkmVersionLenSize := by
    have hlt := leNat_lt (rest4.take zkmVersionLenSize)
    rwa [hfield] at hlt
  have hlength : (utf8 version).length = leNat (rest4.take zkmVersionLenSize) := by
    have hsize' : commitment.length = 382 + leNat (rest4.take zkmVersionLenSize) := not_not.mp hsize
    rw [htext, List.length_drop]
    change rest4.length - 4 = _
    omega
  have hleading : leBytes zkmVersionLenSize (utf8 version).length =
    rest4.take zkmVersionLenSize := by
    apply leNat_inj
    · rw [leBytes_length, hfield]
    · rw [leNat_leBytes, hlength, Nat.mod_eq_of_lt hlt]
  constructor
  · change (commitment.take 16).length = 16
    rw [List.length_take]
    omega
  · change (rest1.take 260).length = 260
    rw [List.length_take]
    omega
  · change (rest2.take 36).length = 36
    rw [List.length_take]
    omega
  · change (rest3.take 66).length = 66
    rw [List.length_take]
    omega
  · intro hempty
    have hzero : (utf8 version).length = 0 := by
      rw [show utf8 version = [] from hempty]
      rfl
    exact hpos (hlength ▸ hzero)
  · change (utf8 version).length < 2 ^ 32
    rw [hlength]
    exact hlt
  · rfl
  · rfl
  · change commitment = commitment.take graphIdSize ++ (rest1.take proofSize ++
      (rest2.take publicInputsSize ++ (rest3.take vkHashSize ++
        (leBytes zkmVersionLenSize (utf8 version).length ++ utf8 version))))
    rw [hleading, htext, List.take_append_drop, List.take_append_drop, List.take_append_drop,
      List.take_append_drop, List.take_append_drop]

end Parsing

structure CommitmentOutput where
  value : UInt64
  opcode : UInt8
  chunk : Bytes
  opcode_lone : opcode = 0 ∨ 0x4e < opcode
  chunk_lt : chunk.length < 2 ^ 32

open CommitmentOutput

namespace CommitmentOutput

def toTxOut (output : CommitmentOutput) : TxOut :=
  ⟨output.value, output.opcode :: Script.pushSlice output.chunk⟩

def isReturn (output : CommitmentOutput) : Bool := output.opcode = Script.opReturn

def isNumber (output : CommitmentOutput) : Bool := Script.isNumberPush output.chunk

end CommitmentOutput

theorem extractDataFrom_cons (data : Bytes) (output : CommitmentOutput) (rest : List TxOut) :
    extractDataFrom data (output.toTxOut :: rest) =
      if output.isNumber then .error "invalid challenge commitment script: non-minimal datapush"
      else if output.isReturn then .ok (data ++ output.chunk)
      else extractDataFrom (data ++ output.chunk) rest := by
  have hread : Script.instructionsMinimal output.toTxOut.scriptPubkey =
      if output.isNumber then .error .nonMinimalPush
      else .ok [Script.loneInstruction output.opcode, .pushBytes output.chunk] :=
    Script.instructionsMinimal_lone_pushSlice output.opcode_lone output.chunk_lt
  rw [extractDataFrom, hread]
  cases output.isNumber with
  | true => rfl
  | false =>
    have hfirst : some (Script.loneInstruction output.opcode) =
        some (Script.Instruction.op Script.opReturn) ↔ output.isReturn = true := by
      simp only [Option.some.injEq, isReturn, decide_eq_true_eq,
        Script.loneInstruction]
      by_cases hzero : output.opcode = 0
      · simp only [hzero, if_true]
        decide
      · simp [hzero]
    simp only [Bool.false_eq_true, if_false, List.getElem?_cons_succ,
      List.getElem?_cons_zero, hfirst]

theorem extractDataFrom_outputs (data : Bytes) (outputs : List CommitmentOutput)
    (last : CommitmentOutput) (rest : List TxOut)
    (hinner : ∀ output ∈ outputs, output.isReturn = false) (hlast : last.isReturn = true) :
    extractDataFrom data ((outputs ++ [last]).map toTxOut ++ rest) =
      if (outputs ++ [last]).any isNumber then
        .error "invalid challenge commitment script: non-minimal datapush"
      else .ok (data ++ (outputs ++ [last]).flatMap chunk) := by
  induction outputs generalizing data with
  | nil =>
    change extractDataFrom data (last.toTxOut :: rest) = _
    rw [extractDataFrom_cons, hlast]
    simp
  | cons output outputs ih =>
    have hhead := hinner output List.mem_cons_self
    have htail := ih (data ++ output.chunk) fun o ho => hinner o (List.mem_cons_of_mem output ho)
    change extractDataFrom data (output.toTxOut :: (List.map toTxOut
      (outputs ++ [last]) ++ rest)) = _
    rw [extractDataFrom_cons, hhead, htail, List.cons_append, List.any_cons, List.flatMap_cons]
    cases output.isNumber with
    | true => rfl
    | false => simp only [Bool.false_eq_true, if_false, Bool.false_or, List.append_assoc]

def readWatchtowerCommitment (describe : Bytes → String) (txouts : List TxOut) :
    Except String WatchtowerCommitment := do
  let commitment ← extractDataFromCommitmentOutputs txouts
  parseWatchtowerCommitment (stringFromUtf8 describe) commitment

/-- A commitment that was built and spread over outputs is read back exactly if no output pushes a
single byte that Bitcoin has an opcode for: such a push is not minimal and the whole challenge is
refused.  Conversely an accepted commitment was built from the fields it is read as. -/
theorem watchtower_commitment_round_trip (describe : Bytes → String) :
    (∀ (graphId : Vector UInt8 16) (proof : Vector UInt8 260) (publicInputs : Vector UInt8 36)
      (vkHash zkmVersion : String), (utf8 vkHash).length = vkHashSize → zkmVersion ≠ "" →
      (utf8 zkmVersion).length < 2 ^ 32 →
      ∃ commitment, buildWatchtowerCommitment graphId proof publicInputs vkHash zkmVersion =
          some commitment ∧
        ∀ (outputs : List CommitmentOutput) (last : CommitmentOutput) (rest : List TxOut),
          (∀ output ∈ outputs, output.isReturn = false) → last.isReturn = true →
          (outputs ++ [last]).flatMap chunk = commitment →
          (readWatchtowerCommitment describe
              ((outputs ++ [last]).map toTxOut ++ rest) =
            .ok
              { graphId := graphId.toList
                proof := proof.toList
                publicValues := publicInputs.toList
                vkHash := utf8 vkHash
                totalWork := publicInputs.toList.take 32
                consensusBlockHeight := (publicInputs.toList.drop 32).take 4
                zkmVersion := zkmVersion } ↔
            ∀ output ∈ outputs ++ [last], output.isNumber = false)) ∧
    ∀ (commitment : Bytes) (parsed : WatchtowerCommitment),
      parseWatchtowerCommitment (stringFromUtf8 describe) commitment = .ok parsed →
      ∀ vkHash, utf8 vkHash = parsed.vkHash →
      ∃ graphId proof publicInputs, graphId.toList = parsed.graphId ∧ proof.toList = parsed.proof ∧
        publicInputs.toList = parsed.publicValues ∧
        buildWatchtowerCommitment graphId proof publicInputs vkHash parsed.zkmVersion =
          some commitment := by
  constructor
  · intro graphId proof publicInputs vkHash zkmVersion hvk hversion hlt
    refine ⟨_, if_pos hvk, fun outputs last rest hinner hlast hchunks => ?_⟩
    have hheight : (publicInputs.toList.drop 32).take 4 = publicInputs.toList.drop 32 :=
      List.take_of_length_le (by rw [List.length_drop, Vector.length_toList])
    have hlaid : LaidOut ((outputs ++ [last]).flatMap chunk)
        ⟨graphId.toList, proof.toList, publicInputs.toList, utf8 vkHash,
          publicInputs.toList.take 32, (publicInputs.toList.drop 32).take 4, zkmVersion⟩ := by
      refine ⟨Vector.length_toList, Vector.length_toList, Vector.length_toList, hvk, ?_, hlt, rfl,
        hheight, hchunks⟩
      intro hempty
      have hnil : utf8 "" = [] := by decide +kernel
      exact hversion (utf8_inj (hempty.trans hnil.symm))
    unfold readWatchtowerCommitment extractDataFromCommitmentOutputs
    rw [extractDataFrom_outputs [] outputs last rest hinner hlast, List.nil_append]
    cases hnumber : (outputs ++ [last]).any isNumber with
    | true =>
      obtain ⟨output, hmem, houtput⟩ := List.any_eq_true.mp hnumber
      constructor
      · intro h
        cases h
      · intro h
        rw [h output hmem] at houtput
        cases houtput
    | false =>
      refine ⟨fun _ output hmem => ?_, fun _ => hlaid.parse⟩
      exact Bool.eq_false_iff.mpr fun h => List.any_eq_false.mp hnumber output hmem h
  · intro commitment parsed hparse vkHash hvk
    have h := LaidOut.of_parse hparse
    refine ⟨⟨parsed.graphId.toArray, h.graphId_length⟩, ⟨parsed.proof.toArray, h.proof_length⟩,
      ⟨parsed.publicValues.toArray, h.publicValues_length⟩, rfl, rfl, rfl, ?_⟩
    rw [buildWatchtowerCommitment, if_pos (hvk ▸ h.vkHash_length), hvk]
    exact congrArg some h.bytes_eq.symm

namespace OneByteVersion

def vkHash : String := String.ofList (List.replicate 66 '0')

def version : String := "\x01"

def fields : Bytes := List.replicate 312 0 ++ utf8 vkHash ++ [1, 0, 0, 0]

def first : CommitmentOutput where
  value := 330
  opcode := 0
  chunk := fields
  opcode_lone := .inl rfl
  chunk_lt := by decide +kernel

def last : CommitmentOutput where
  value := 0
  opcode := Script.opReturn
  chunk := [1]
  opcode_lone := by decide
  chunk_lt := by decide

/-- The version ends up alone behind OP_RETURN, as the push of a number: nothing is read back. -/
theorem commitment_refused :
    (utf8 vkHash).length = vkHashSize ∧ version ≠ "" ∧ (utf8 version).length < 2 ^ 32 ∧
    buildWatchtowerCommitment (Vector.replicate 16 0) (Vector.replicate 260 0)
      (Vector.replicate 36 0) vkHash version = some ([first, last].flatMap chunk) ∧
    first.isReturn = false ∧ last.isReturn = true ∧
    readWatchtowerCommitment (fun _ => "") ([first, last].map toTxOut) =
      .error "invalid challenge commitment script: non-minimal datapush" := by
  refine
    ⟨by decide +kernel, by decide, by decide +kernel, by decide +kernel, by decide, by decide, ?_⟩
  have hread := extractDataFrom_outputs [] [first] last [] (by decide) (by decide)
  rw [List.append_nil] at hread
  have hnumber : ([first] ++ [last]).any isNumber = true := by decide +kernel
  rw [hnumber] at hread
  unfold readWatchtowerCommitment extractDataFromCommitmentOutputs
  rw [show [first, last] = [first] ++ [last] from rfl, hread]
  rfl

end OneByteVersion

end BitvmNode.LightClient
