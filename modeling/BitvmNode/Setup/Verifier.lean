import BitvmNode.Graphs.Status

/-!
# The setup of a verifier

A verifier garbles its circuits for one graph, commits to them in a package, and later opens all of
them but the selection of the operator: the seeds of the opened circuits, and the data of the
finalised ones, go to a payload in a store that the operator reads.
-/

namespace BitvmNode.Setup

open Reasoning Signing Graphs

def BABE_N_CC : Nat := 181

def BABE_M_CC : Nat := 7

def GC_INPUT_WIRES : Nat := 768

structure CACInstanceCommit where
  epk : List (Bytes × Bytes)
  hMsg : Bytes
  deriving DecidableEq

structure CACSetupPackage where
  commits : List CACInstanceCommit
  deriving DecidableEq

structure BabeVerifierPrivateState where
  instanceSeeds : List Bytes
  statementDigest : Bytes

structure FinalizedInstanceData where
  index : Nat
  tables : Bytes
  deriving DecidableEq

structure CompactSolderingData where
  finalizedIndices : List Nat
  proof : Bytes
  deriving DecidableEq

structure CompactSolderingProofPayload where
  opened : List (Nat × Bytes)
  finalized : List FinalizedInstanceData
  soldering : CompactSolderingData
  deriving DecidableEq

structure SolderingProofReady where
  (instanceId graphId : Uuid)
  candidateIndex : Nat
  payloadHash : Bytes
  totalLen : Nat

structure PayloadPath where
  (instanceId graphId : Uuid)
  candidateIndex : Nat
  payloadHash : Bytes
  deriving DecidableEq

def SolderingProofReady.path (ready : SolderingProofReady) : PayloadPath :=
  ⟨ready.instanceId, ready.graphId, ready.candidateIndex, ready.payloadHash⟩

structure VerifierBabeSetupState where
  (verifierPubkey operatorPubkey : String)
  operatorPeerId : Bytes
  setupPackage : CACSetupPackage
  privateState : BabeVerifierPrivateState
  finalizedIndices : List Nat
  solderingProofReady : Option SolderingProofReady

/-- The circuits of the garbling library: the package that seeds commit to, the data of a finalised
circuit, the proof for a selection; and the digest of the statement that the node verifies. -/
structure Garbling where
  commit : BabeVerifierPrivateState → CACSetupPackage
  finalize : BabeVerifierPrivateState → Nat → Bytes
  prove : BabeVerifierPrivateState → List Nat → Bytes
  statementDigest : Bytes

structure PayloadCodec where
  sha256 : Bytes → Bytes
  serialize : CompactSolderingProofPayload → Bytes

def validateFinalizedIndices (package : CACSetupPackage) (finalizedIndices : List Nat) :
    Except String Unit :=
  if finalizedIndices.dedup.length ≠ finalizedIndices.length then .error "duplicate finalized index"
  else if finalizedIndices.isEmpty then .error "at least one finalized index is required"
  else if finalizedIndices.any fun index => package.commits.length ≤ index then
    .error "finalized index out of range"
  else .ok ()

def openAndSolder (garbling : Garbling) (privateState : BabeVerifierPrivateState)
    (package : CACSetupPackage) (finalizedIndices : List Nat) : CompactSolderingProofPayload where
  opened := ((List.range package.commits.length).filter fun index => index ∉ finalizedIndices).map
    fun index => (index, privateState.instanceSeeds.getD index [])
  finalized := finalizedIndices.map fun index => ⟨index, garbling.finalize privateState index⟩
  soldering := ⟨finalizedIndices, garbling.prove privateState finalizedIndices⟩

def openRealSetupAndSolder (garbling : Garbling) (privateState : BabeVerifierPrivateState)
    (package : CACSetupPackage) (finalizedIndices : List Nat) :
    Except String CompactSolderingProofPayload :=
  if privateState.statementDigest ≠ garbling.statementDigest then
    .error "BABE setup statement does not match persisted verifier state"
  else
    match validateFinalizedIndices package finalizedIndices with
    | .error error => .error error
    | .ok () =>
        if garbling.commit privateState ≠ package then
          .error "persisted BABE verifier state does not reproduce setup package"
        else .ok (openAndSolder garbling privateState package finalizedIndices)

def PayloadCodec.ready (codec : PayloadCodec) (instanceId graphId : Uuid) (candidateIndex : Nat)
    (payload : CompactSolderingProofPayload) : SolderingProofReady :=
  let bytes := codec.serialize payload
  ⟨instanceId, graphId, candidateIndex, codec.sha256 bytes, bytes.length⟩

def decodeSolderingProofPayload (codec : PayloadCodec) (ready : SolderingProofReady)
    (payload : CompactSolderingProofPayload) : Except String CompactSolderingProofPayload :=
  let actual := (codec.serialize payload).length
  let expected := ready.totalLen
  if actual ≠ expected then
    .error s!"SolderingProof payload length {actual} does not match total_len {expected}"
  else if codec.sha256 (codec.serialize payload) ≠ ready.payloadHash then
    .error "SolderingProof payload hash mismatch"
  else .ok payload

structure BitvmGcCircuitData where
  verifierPubkey : String
  finalMsgHashlocks : List Bytes
  wireHashes : List (Bytes × Bytes)
  deriving DecidableEq

def extractGcCircuitData (verifierPubkey : String) (epk : List (Bytes × Bytes))
    (hMsgs : List Bytes) : Except String BitvmGcCircuitData :=
  let actual := epk.length
  if actual ≠ GC_INPUT_WIRES then
    .error s!"BABE epk has {actual} entries; expected {GC_INPUT_WIRES}"
  else .ok ⟨verifierPubkey, hMsgs, epk⟩

def buildBabeProverHashlocks (package : CACSetupPackage) (finalized : List FinalizedInstanceData) :
    Except String (List Bytes) :=
  finalized.mapM fun data =>
    match package.commits[data.index]? with
    | some commit => .ok commit.hMsg
    | none => .error "finalized BABE instance index is out of range"

def payloadGcData (verifierPubkey : String) (package : CACSetupPackage)
    (payload : CompactSolderingProofPayload) : Except String BitvmGcCircuitData :=
  if payload.finalized.length ≠ BABE_M_CC then
    .error "local verifier finalized BABE instance count mismatch"
  else
    let first := payload.finalized.head?.bind fun data => package.commits[data.index]?
    (buildBabeProverHashlocks package payload.finalized).bind
      (extractGcCircuitData verifierPubkey ((first.map CACInstanceCommit.epk).getD []))

inductive JobEnd where
  | ignore (reason : String)
  | invalid (reason : String)
  | failed (error : String)

structure Inbound where
  instanceId : Uuid
  author : Bytes

structure InitGraph where
  (instanceId graphId : Uuid)
  operatorPubkey : String
  (operatorPeerId signature : Bytes)

structure CutCircuits where
  (instanceId graphId : Uuid)
  verifierPubkey : String
  candidateIndex : Nat
  selectedCircuitIndexes : List Nat

structure CreateGraph where
  (instanceId graphId : Uuid)
  graphNonce : Nat
  (parametersInstanceId parametersGraphId : Uuid)
  parametersNonce : Nat
  gcData : List BitvmGcCircuitData
  slotCheck : Nat → Except String Unit
  preSignatures : Except String Unit

structure SetupInputs where
  (instanceFailed staked : Bool)
  garbled : Except String (CACSetupPackage × BabeVerifierPrivateState)

section Jobs

variable (garbling : Garbling) (codec : PayloadCodec) (verifyInitGraph : InitGraph → Bool)
  (localPubkey : String)

/-- The state that the setup job keeps: the saved one, or one for new circuits. -/
def verifierSetup (graphId : Uuid) (inbound : Inbound) (init : InitGraph) (inputs : SetupInputs)
    (file : Option VerifierBabeSetupState) : Except JobEnd VerifierBabeSetupState :=
  if init.graphId ≠ graphId ∨ init.instanceId ≠ inbound.instanceId then
    .error (.invalid "InitGraph identity mismatch")
  else if init.operatorPeerId ≠ inbound.author then
    .error (.ignore "signed operator peer id differs from the P2P source")
  else if verifyInitGraph init = false then
    .error (.invalid "invalid operator signature on InitGraph")
  else if inputs.instanceFailed then .error (.ignore "instance failed; verifier setup skipped")
  else if inputs.staked = false then .error (.ignore "operator does not meet stake requirements")
  else
    match file.filter (·.verifierPubkey = localPubkey) with
    | some saved =>
        if saved.operatorPubkey ≠ init.operatorPubkey ∨
          saved.operatorPeerId ≠ init.operatorPeerId then
          .error (.ignore "a different authenticated operator identity owns this verifier setup")
        else .ok saved
    | none =>
        match inputs.garbled with
        | .error error => .error (.failed error)
        | .ok (package, privateState) =>
            .ok ⟨localPubkey, init.operatorPubkey, init.operatorPeerId, package,
              privateState, [], none⟩

/-- The soldering job has been done before, or it opens the package. -/
inductive SolderStart where
  | done (ready : SolderingProofReady)
  | opened (state : VerifierBabeSetupState) (payload : CompactSolderingProofPayload)

def verifierSolder (graphId : Uuid) (inbound : Inbound) (cut : CutCircuits) (instanceFailed : Bool)
    (file : Option VerifierBabeSetupState) : Except JobEnd SolderStart :=
  if cut.graphId ≠ graphId ∨ cut.instanceId ≠ inbound.instanceId then
    .error (.invalid "CutCircuits identity mismatch")
  else if instanceFailed then .error (.ignore "instance failed; verifier soldering skipped")
  else if localPubkey ≠ cut.verifierPubkey then
    .error (.ignore "target verifier pubkey does not match the local verifier")
  else
    match file with
    | none => .error (.ignore "missing BABE verifier setup state")
    | some state =>
        if state.verifierPubkey ≠ cut.verifierPubkey then
          .error (.ignore "verifier pubkey does not match the saved BABE setup state")
        else if state.operatorPeerId ≠ inbound.author then
          .error (.ignore "sender is not the operator that initiated this verifier setup")
        else
          let selected := cut.selectedCircuitIndexes
          let count := selected.length
          if count ≠ BABE_M_CC then
            .error (.invalid s!"invalid CutCircuits selection: expected {BABE_M_CC}, got {count}")
          else
            match state.solderingProofReady with
            | some ready =>
                let asked := cut.candidateIndex
                let persisted := ready.candidateIndex
                if persisted ≠ asked then
                  .error (.invalid (s!"CutCircuits candidate index {asked} conflicts with " ++
                    s!"persisted slot {persisted}"))
                else if state.finalizedIndices ≠ selected then
                  .error
                    (.invalid "CutCircuits finalized indices conflict with persisted selection")
                else .ok (.done ready)
            | none =>
                match openRealSetupAndSolder garbling state.privateState state.setupPackage
                  selected with
                | .error error => .error (.failed error)
                | .ok payload => .ok (.opened state payload)

def findVerifierIndexByPubkey (gcData : List BitvmGcCircuitData) (verifierPubkey : String) :
    Except String (Option Nat) :=
  match (List.range gcData.length).filter fun index =>
      (gcData[index]?).any fun data => data.verifierPubkey = verifierPubkey with
  | [] => .ok none
  | [index] => .ok (some index)
  | _ => .error s!"graph contains duplicate slots for verifier {verifierPubkey}"

/-- The GC data that the verifier endorses, for the package that it has saved. -/
structure Endorsement where
  graphId : Uuid
  package : CACSetupPackage
  gcData : BitvmGcCircuitData

/-- The second half of the validation: the GC data of the graph against the payload that is
saved. -/
def endorseSavedGcData (graphId : Uuid) (create : CreateGraph) (verifierIndex : Nat)
    (file : Option VerifierBabeSetupState)
    (store : PayloadPath → Option CompactSolderingProofPayload) :
    Except JobEnd Endorsement :=
  match file with
  | none => .error (.ignore "missing local BABE verifier state")
  | some state =>
      if state.verifierPubkey ≠ localPubkey then
        .error (.ignore "local BABE verifier pubkey mismatch")
      else
        match state.solderingProofReady with
        | none => .error (.ignore "local verifier has no soldering proof")
        | some ready =>
            match store ready.path with
            | none =>
                .error (.failed "read local soldering proof payload for graph params endorsement")
            | some stored =>
                match (decodeSolderingProofPayload codec ready stored).bind
                    (payloadGcData localPubkey state.setupPackage) with
                | .error error => .error (.failed error)
                | .ok expected =>
                    if create.gcData[verifierIndex]? ≠ some expected then
                      .error (.invalid ("graph GC data for the local verifier does not match " ++
                        "the local soldering proof"))
                    else .ok ⟨graphId, state.setupPackage, expected⟩

def verifierValidateGraph (graphId : Uuid) (inbound : Inbound) (create : CreateGraph)
    (file : Option VerifierBabeSetupState)
    (store : PayloadPath → Option CompactSolderingProofPayload) :
    Except JobEnd Endorsement :=
  if create.graphId ≠ graphId ∨ create.instanceId ≠ inbound.instanceId then
    .error (.invalid "CreateGraph identity mismatch")
  else if create.instanceId ≠ create.parametersInstanceId ∨
      create.graphId ≠ create.parametersGraphId ∨
      create.graphNonce ≠ create.parametersNonce then
    .error (.invalid "CreateGraph envelope and graph parameters name different graphs")
  else
    match findVerifierIndexByPubkey create.gcData localPubkey with
    | .error error => .error (.failed error)
    | .ok none => .error (.ignore "local verifier is not in this graph")
    | .ok (some verifierIndex) =>
        match create.slotCheck verifierIndex, create.preSignatures with
        | .error error, _ => .error (.failed error)
        | _, .error error => .error (.invalid s!"invalid operator pre-signatures: {error}")
        | .ok (), .ok () =>
            endorseSavedGcData codec localPubkey graphId create verifierIndex file store

end Jobs

def shouldCleanupBabeSetupState (status : Option GraphStatus) (isStale : Bool) : Bool :=
  match status with
  | some status => if status.isClosed then true else if status.isObsoleted then isStale else false
  | none => isStale

end BitvmNode.Setup
