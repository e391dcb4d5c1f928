import BitvmNode.Swap.ClaimWitness

/-!
# The claim of an escrow in a call trace

The search walks the calls of a transaction in the order of the trace.  It does not look whether a
call was reverted, and below a claim of the escrow it does not look any further, even if it could
not decode its witness.

The decoder of calls and the hash of an escrow are parameters.
-/

namespace BitvmNode.Swap

open Reasoning

inductive EscrowManagerCall (Escrow : Type) where
  | initializeEscrow (escrow : Escrow)
  | claim (escrow : Escrow) (witness : Bytes)

structure EscrowInterface where
  Escrow : Type
  abiDecode : Bytes → Option (EscrowManagerCall Escrow)
  hashEscrowData : Escrow → Bytes32

inductive CallFrame where
  | mk (callee : Option Bytes) (input : Bytes) (reverted : Bool) (calls : List CallFrame)

section

variable (build : Build) (codec : TransactionCodec) (interface : EscrowInterface)
  (swapContractAddress : Bytes) (escrowHash : Bytes32)

def claimWitness (callee : Option Bytes) (input : Bytes) : Option Bytes :=
  if callee = some swapContractAddress then
    match interface.abiDecode input with
    | some (.claim escrow witness) =>
        if interface.hashEscrowData escrow = escrowHash then some witness else none
    | _ => none
  else none

mutual

def findClaimData : CallFrame → Option (Option ClaimData)
  | .mk callee input _ calls =>
      match claimWitness interface swapContractAddress escrowHash callee input with
      | some witness =>
          match claimDataFromWitness build codec witness with
          | none => none
          | some (.ok claimData) => some (some claimData)
          | some (.error _) => some none
      | none => findInCalls calls

def findInCalls : List CallFrame → Option (Option ClaimData)
  | [] => some none
  | call :: calls =>
      match findClaimData call with
      | none => none
      | some (some claimData) => some (some claimData)
      | some none => findInCalls calls

end

mutual

/-- The claims of the escrow that took effect: neither they nor a call around them was reverted. -/
def settledClaims : CallFrame → List Bytes
  | .mk callee input reverted calls =>
      if reverted then []
      else (claimWitness interface swapContractAddress escrowHash callee input).toList ++
        settledInCalls calls

def settledInCalls : List CallFrame → List Bytes
  | [] => []
  | call :: calls => settledClaims call ++ settledInCalls calls

end

mutual

/-- The claims of the escrow that are not inside another one, in the order of the trace. -/
def outermostClaims : CallFrame → List Bytes
  | .mk callee input _ calls =>
      match claimWitness interface swapContractAddress escrowHash callee input with
      | some witness => [witness]
      | none => outermostInCalls calls

def outermostInCalls : List CallFrame → List Bytes
  | [] => []
  | call :: calls => outermostClaims call ++ outermostInCalls calls

end

def Decodes (witness : Bytes) (claimData : ClaimData) : Prop :=
  claimDataFromWitness build codec witness = some (.ok claimData)

def unrejected (witness : Bytes) : Bool :=
  match claimDataFromWitness build codec witness with
  | some (.error _) => false
  | _ => true

/-- The first of the outermost claims whose witness is not rejected. -/
def firstUnrejected (call : CallFrame) : Option Bytes :=
  (outermostClaims interface swapContractAddress escrowHash call).find? (unrejected build codec)

/-- If the escrow was claimed with a witness that decodes, the search finds the data of such a
claim. -/
def SearchComplete (call : CallFrame) : Prop :=
  (∃ witness ∈ settledClaims interface swapContractAddress escrowHash call, ∃ claimData,
      Decodes build codec witness claimData) →
    ∃ witness ∈ settledClaims interface swapContractAddress escrowHash call, ∃ claimData,
      Decodes build codec witness claimData ∧
        findClaimData build codec interface swapContractAddress escrowHash call =
          some (some claimData)

def scan : List Bytes → Option (Option ClaimData)
  | [] => some none
  | witness :: witnesses =>
      match claimDataFromWitness build codec witness with
      | none => none
      | some (.ok claimData) => some (some claimData)
      | some (.error _) => scan witnesses

end

section

variable {build : Build} {codec : TransactionCodec} {interface : EscrowInterface}
  {swapContractAddress : Bytes} {escrowHash : Bytes32}

theorem scan_append (xs ys : List Bytes) : scan build codec (xs ++ ys) =
      match scan build codec xs with
      | none => none
      | some (some claimData) => some (some claimData)
      | some none => scan build codec ys := by
  induction xs with
  | nil => rfl
  | cons x xs ih =>
    rw [List.cons_append, scan, scan]
    split
    · rfl
    · rfl
    · exact ih

mutual

theorem findClaimData_eq_scan : ∀ call : CallFrame,
    findClaimData build codec interface swapContractAddress escrowHash call =
      scan build codec (outermostClaims interface swapContractAddress escrowHash call)
  | .mk callee input reverted calls => by
    rw [findClaimData, outermostClaims]
    cases claimWitness interface swapContractAddress escrowHash callee input with
    | some witness =>
      dsimp only
      rw [scan]
      split <;> rfl
    | none => exact findInCalls_eq_scan calls

theorem findInCalls_eq_scan : ∀ calls : List CallFrame,
    findInCalls build codec interface swapContractAddress escrowHash calls =
      scan build codec (outermostInCalls interface swapContractAddress escrowHash calls)
  | [] => by rw [findInCalls, outermostInCalls]; rfl
  | call :: calls => by
    rw [findInCalls, outermostInCalls, scan_append, findClaimData_eq_scan call,
      findInCalls_eq_scan calls]

end

theorem scan_eq_some_iff (witnesses : List Bytes) (claimData : ClaimData) :
    scan build codec witnesses = some (some claimData) ↔
      ∃ witness, witnesses.find? (unrejected build codec) = some witness ∧
        Decodes build codec witness claimData := by
  induction witnesses with
  | nil => simp [scan]
  | cons witness witnesses ih =>
    rw [scan, List.find?_cons]
    unfold Decodes unrejected
    cases hanswer : claimDataFromWitness build codec witness with
    | none => simp [hanswer]
    | some answer =>
      cases answer with
      | error e => exact ih
      | ok data => simp [hanswer]

theorem findClaimData_eq_some_iff {call : CallFrame} {claimData : ClaimData} :
    findClaimData build codec interface swapContractAddress escrowHash call =
      some (some claimData) ↔
      ∃ witness, firstUnrejected build codec interface swapContractAddress escrowHash call =
        some witness ∧
        Decodes build codec witness claimData := by
  rw [findClaimData_eq_scan, scan_eq_some_iff]
  rfl

theorem Decodes.witness_inj {witness other : Bytes} {claimData : ClaimData}
    (h : Decodes build codec witness claimData) (h' : Decodes build codec other claimData) :
    witness = other := by
  have hfield : ∀ {witness : Bytes}, Decodes build codec witness claimData →
      claimData.witness = hexEncode witness := by
    intro witness h
    obtain ⟨-, hdata⟩ := (claimDataFromWitness_returns_iff build codec witness).2 claimData h
    unfold claimDataOf at hdata
    split at hdata
    · cases hdata
    · split at hdata
      · cases hdata
      · split at hdata
        · cases hdata
        · cases hdata
          rfl
  exact hexEncode_injective ((hfield h).symm.trans (hfield h'))

end

/-- The search is complete for a trace exactly when, if the escrow was claimed at all, the first
outermost claim that is not rejected has the witness of a claim that took effect. -/
theorem claim_search_complete_iff (build : Build) (codec : TransactionCodec)
    (interface : EscrowInterface) (swapContractAddress : Bytes) (escrowHash : Bytes32)
    (call : CallFrame) :
    SearchComplete build codec interface swapContractAddress escrowHash call ↔
      ((∃ witness ∈ settledClaims interface swapContractAddress escrowHash call, ∃ claimData,
          Decodes build codec witness claimData) →
        ∃ witness ∈ settledClaims interface swapContractAddress escrowHash call,
          firstUnrejected build codec interface swapContractAddress escrowHash call = some witness ∧
            ∃ claimData, Decodes build codec witness claimData) := by
  apply imp_congr_right
  intro _
  constructor
  · rintro ⟨witness, hwitness, claimData, hdecodes, hfound⟩
    obtain ⟨first, hfirst, hfirstDecodes⟩ := findClaimData_eq_some_iff.mp hfound
    rw [hfirstDecodes.witness_inj hdecodes] at hfirst
    exact ⟨witness, hwitness, hfirst, claimData, hdecodes⟩
  · rintro ⟨witness, hwitness, hfirst, claimData, hdecodes⟩
    exact ⟨witness, hwitness, claimData, hdecodes,
      findClaimData_eq_some_iff.mpr ⟨witness, hfirst, hdecodes⟩⟩

namespace TwoClaims

def codec : TransactionCodec where
  deserialize := fun _ => .ok ⟨2, 0, [⟨⟨zero32, 0⟩, [], 0, []⟩], [⟨1000, []⟩]⟩
  computeTxid := fun _ => zero32

def interface : EscrowInterface where
  Escrow := Unit
  abiDecode := fun input => some (.claim () input)
  hashEscrowData := fun _ => zero32

def contract : Bytes := [1]

def witness (first : UInt8) : Bytes := first :: List.replicate 251 0

def claim (input : Bytes) (reverted : Bool) (calls : List CallFrame) : CallFrame :=
  .mk (some contract) input reverted calls

def afterReverted : CallFrame :=
  .mk none [] false [claim (witness 1) true [], claim (witness 2) false []]

def insideRejected : CallFrame :=
  .mk none [] false [claim [] false [claim (witness 2) false []]]

theorem witness_two_decodes : ∃ claimData, Decodes .wrapping codec (witness 2) claimData := by
  have hlength : (witness 2).length = 252 := by decide +kernel
  have hempty : txLen (witness 2) = 0 := by decide +kernel
  have hvout : beNat (field (witness 2) 216 4) = 0 := by decide +kernel
  unfold Decodes
  rw [claimDataFromWitness_of_fits (by omega) (by omega), if_neg (by omega), hvout]
  exact ⟨_, rfl⟩

/-- In neither trace the search finds the claim that took effect. -/
theorem search_incomplete :
    ¬ SearchComplete .wrapping codec interface contract zero32 afterReverted ∧
      ¬ SearchComplete .wrapping codec interface contract zero32 insideRejected := by
  have hreverted : settledClaims interface contract zero32 afterReverted = [witness 2] := by
    decide +kernel
  have hrejected : settledClaims interface contract zero32 insideRejected = [[], witness 2] := by
    decide +kernel
  have hfirst : firstUnrejected .wrapping codec interface contract zero32 afterReverted =
    some (witness 1) := by
    decide +kernel
  have hnone : firstUnrejected .wrapping codec interface contract zero32 insideRejected = none := by
    decide +kernel
  constructor
  · intro hcomplete
    obtain ⟨w, hw, claimData, hdecodes, hfound⟩ :=
      hcomplete ⟨witness 2, by rw [hreverted]; exact List.mem_singleton_self _, witness_two_decodes⟩
    rw [hreverted, List.mem_singleton] at hw
    obtain ⟨first, hfirst', hfirstDecodes⟩ := findClaimData_eq_some_iff.mp hfound
    rw [hfirst] at hfirst'
    cases hfirst'
    rw [hw] at hdecodes
    exact absurd (hfirstDecodes.witness_inj hdecodes) (by decide +kernel)
  · intro hcomplete
    obtain ⟨w, -, claimData, -, hfound⟩ :=
      hcomplete
        ⟨witness 2, by rw [hrejected]; exact List.mem_cons_of_mem _ (List.mem_singleton_self _),
          witness_two_decodes⟩
    obtain ⟨first, hfirst', -⟩ := findClaimData_eq_some_iff.mp hfound
    cases hfirst'

def beforeReverted : CallFrame :=
  .mk none [] false [claim (witness 2) false [], claim (witness 1) true []]

/-- The claim that took effect stands before the reverted one. -/
theorem search_complete_settled_first :
    SearchComplete .wrapping codec interface contract zero32 beforeReverted := by
  have hsettled : settledClaims interface contract zero32 beforeReverted = [witness 2] := by
    decide +kernel
  have hfirst : firstUnrejected .wrapping codec interface contract zero32 beforeReverted =
    some (witness 2) := by
    decide +kernel
  refine (claim_search_complete_iff .wrapping codec interface contract zero32 beforeReverted).mpr
    fun _ => ?_
  exact ⟨witness 2, by rw [hsettled]; exact List.mem_singleton_self _, hfirst, witness_two_decodes⟩

end TwoClaims

end BitvmNode.Swap
