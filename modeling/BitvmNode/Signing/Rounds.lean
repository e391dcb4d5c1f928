import BitvmNode.Reasoning.Maps
import BitvmNode.Signing.Committee

/-!
# Material of the committee's rounds

Nonces, votes and partial signatures of one instance or graph are kept in one map by committee key,
which is stored as one text.
-/

namespace BitvmNode.Signing

open Reasoning

abbrev SchnorrSignature := Vector UInt8 64

abbrev PartialSignatureBytes := Bytes32

abbrev CommitteePartialSignatures := CommitteeMusig2Data PartialSignatureBytes

abbrev EvmAddress := Vector UInt8 20

inductive MaterialKind where
  | pubNonce
  | consensus
  | partialSig
  deriving DecidableEq

inductive RoundMaterial (N P : Type) where
  | pubNonce (nonce : N)
  | consensus (hash : Bytes32) (signature : SchnorrSignature)
  | partialSig (sig : P)
  deriving DecidableEq

def RoundMaterial.kind {N P : Type} : RoundMaterial N P → MaterialKind
  | .pubNonce _ => .pubNonce
  | .consensus _ _ => .consensus
  | .partialSig _ => .partialSig

structure InstanceProcessDataItem where
  pubNonce : Option PubNonce := none
  aggNonceConsensusHash : Option Bytes32 := none
  aggNonceConsensusSignature : Option SchnorrSignature := none
  partialSign : Option PartialSignatureBytes := none
  endorseSignature : Bytes := []

structure GraphProcessDataItem where
  committeePubNonce : Option CommitteePubNonces := none
  aggNonceConsensusHash : Option Bytes32 := none
  aggNonceConsensusSignature : Option SchnorrSignature := none
  partialSigs : Option CommitteePartialSignatures := none
  committeeEvmAddress : Option EvmAddress := none
  endorseSignature : Bytes := []
  paramsEndorseSignature : Bytes := []
  verifierIndex : Option Nat := none
  verifierPeerId : Option String := none
  verifierParamsSignature : Option SchnorrSignature := none

structure MaterialFields (Item N P : Type) where
  default : Item
  get : Item → MaterialKind → Option (RoundMaterial N P)
  set : Item → RoundMaterial N P → Item
  get_default : ∀ kind, get default kind = none
  get_set : ∀ item material kind,
    get (set item material) kind = if kind = material.kind then some material else get item kind
  kind_of_get : ∀ {item kind material}, get item kind = some material → material.kind = kind

def storedConsensus {N P : Type} (hash : Option Bytes32) (signature : Option SchnorrSignature) :
    Option (RoundMaterial N P) :=
  match hash, signature with
  | some hash, some signature => some (.consensus hash signature)
  | _, _ => none

namespace InstanceProcessDataItem

def get (item : InstanceProcessDataItem) :
    MaterialKind → Option (RoundMaterial PubNonce PartialSignatureBytes)
  | .pubNonce => item.pubNonce.map .pubNonce
  | .consensus => storedConsensus item.aggNonceConsensusHash item.aggNonceConsensusSignature
  | .partialSig => item.partialSign.map .partialSig

def set (item : InstanceProcessDataItem) :
    RoundMaterial PubNonce PartialSignatureBytes → InstanceProcessDataItem
  | .pubNonce nonce => { item with pubNonce := some nonce }
  | .consensus hash signature =>
      { item with aggNonceConsensusHash := some hash, aggNonceConsensusSignature := some signature }
  | .partialSig sig => { item with partialSign := some sig }

end InstanceProcessDataItem

namespace GraphProcessDataItem

def get (item : GraphProcessDataItem) :
    MaterialKind → Option (RoundMaterial CommitteePubNonces CommitteePartialSignatures)
  | .pubNonce => item.committeePubNonce.map .pubNonce
  | .consensus => storedConsensus item.aggNonceConsensusHash item.aggNonceConsensusSignature
  | .partialSig => item.partialSigs.map .partialSig

def set (item : GraphProcessDataItem) :
    RoundMaterial CommitteePubNonces CommitteePartialSignatures → GraphProcessDataItem
  | .pubNonce nonces => { item with committeePubNonce := some nonces }
  | .consensus hash signature =>
      { item with aggNonceConsensusHash := some hash, aggNonceConsensusSignature := some signature }
  | .partialSig sigs => { item with partialSigs := some sigs }

end GraphProcessDataItem

theorem kind_of_storedConsensus {N P : Type} {hash : Option Bytes32}
    {signature : Option SchnorrSignature} {material : RoundMaterial N P}
    (h : storedConsensus hash signature = some material) :
    material.kind = .consensus := by
  unfold storedConsensus at h
  split at h
  · cases h
    rfl
  · cases h

variable {kind : MaterialKind}

theorem kind_of_map {α N P : Type} {stored : Option α} {enter : α → RoundMaterial N P}
    {material : RoundMaterial N P} (hkind : ∀ value, (enter value).kind = kind)
    (h : stored.map enter = some material) : material.kind = kind := by
  obtain ⟨value, -, rfl⟩ := Option.map_eq_some_iff.mp h
  exact hkind value

def instanceFields : MaterialFields InstanceProcessDataItem PubNonce PartialSignatureBytes where
  default := {}
  get := InstanceProcessDataItem.get
  set := InstanceProcessDataItem.set
  get_default kind := by cases kind <;> rfl
  get_set item material kind := by cases material <;> cases kind <;> rfl
  kind_of_get {item kind material} h := by
    cases kind with
    | pubNonce | partialSig => exact kind_of_map (fun _ => rfl) h
    | consensus => exact kind_of_storedConsensus h

def graphFields :
    MaterialFields GraphProcessDataItem CommitteePubNonces CommitteePartialSignatures where
  default := {}
  get := GraphProcessDataItem.get
  set := GraphProcessDataItem.set
  get_default kind := by cases kind <;> rfl
  get_set item material kind := by cases material <;> cases kind <;> rfl
  kind_of_get {item kind material} h := by
    cases kind with
    | pubNonce | partialSig => exact kind_of_map (fun _ => rfl) h
    | consensus => exact kind_of_storedConsensus h

section Maps

variable {Item N P : Type} [DecidableEq N] [DecidableEq P] (fields : MaterialFields Item N P)

def materialOf (processData : Map PublicKey Item) (key : PublicKey) (kind : MaterialKind) :
    Option (RoundMaterial N P) :=
  (processData.get? key).bind fun item => fields.get item kind

/-- Enter the material unless other material of its kind is there. -/
def storeMaterial (processData : Map PublicKey Item) (key : PublicKey)
    (material : RoundMaterial N P) : Option (Map PublicKey Item) :=
  if (materialOf fields processData key material.kind).any (· ≠ material) then none
  else some (processData.insert key
    (fields.set ((processData.get? key).getD fields.default) material))

variable {processData : Map PublicKey Item} {key : PublicKey} {material : RoundMaterial N P}

theorem materialOf_storeMaterial {stored : Map PublicKey Item}
    (h : storeMaterial fields processData key material = some stored) (other : PublicKey)
    (kind : MaterialKind) :
    materialOf fields stored other kind =
      if other = key ∧ kind = material.kind then some material
      else materialOf fields processData other kind := by
  unfold storeMaterial at h
  split at h
  · cases h
  · cases h
    unfold materialOf
    rw [Map.get?_insert]
    by_cases hkey : other = key
    · subst hkey
      rw [if_pos rfl, Option.bind_some, fields.get_set]
      by_cases hkind : kind = material.kind
      · rw [if_pos hkind, if_pos ⟨rfl, hkind⟩]
      · rw [if_neg hkind, if_neg fun h => hkind h.2]
        cases processData.get? other with
        | none => exact fields.get_default kind
        | some item => rfl
    · rw [if_neg hkey, if_neg fun h => hkey h.1]

theorem materialOf_storeMaterial_of_some {stored : Map PublicKey Item} {other : PublicKey}
    {existing : RoundMaterial N P} (h : storeMaterial fields processData key material = some stored)
    (hexisting : materialOf fields processData other kind = some existing) :
    materialOf fields stored other kind = some existing := by
  rw [materialOf_storeMaterial fields h]
  split
  next hsame =>
    obtain ⟨rfl, rfl⟩ := hsame
    unfold storeMaterial at h
    split at h
    · cases h
    next hfree =>
      rw [hexisting, Option.any_some] at hfree
      rw [show existing = material by simpa using hfree]
  next => exact hexisting

end Maps

/-- The serialisation of a map; what was written can be read back. -/
structure ProcessDataCodec (Item Text : Type) where
  encode : Map PublicKey Item → Text
  decode : Text → Option (Map PublicKey Item)
  decode_encode : ∀ processData, decode (encode processData) = some processData

structure PeginInstanceProcessData (Text : Type) where
  instanceId : Uuid
  processData : Text
  (updatedAt createdAt : Int)

structure PeginGraphProcessData (Text : Type) where
  (graphId instanceId : Uuid)
  isEndorsed : Bool
  processData : Text
  (updatedAt createdAt : Int)

structure RoundStore (I G : Type) where
  instanceRows : Table (@PeginInstanceProcessData.instanceId I)
  graphRows : Table (@PeginGraphProcessData.graphId G)

def RoundStore.empty {I G : Type} : RoundStore I G := ⟨.empty, .empty⟩

structure StorageFaults where
  acquire : Bool := false
  read : Bool := false
  write : Bool := false

inductive RoundError where
  | storage
  | malformed
  | invalidPeginData (text : String)
  | invalidGraph (text : String)

structure RoundCodecs (I G : Type) where
  instances : ProcessDataCodec InstanceProcessDataItem I
  graphs : ProcessDataCodec GraphProcessDataItem G

section Storage

variable {I G : Type} (codecs : RoundCodecs I G) (store : RoundStore I G)
  (faults : StorageFaults) (now : Int)

def upsertPeginInstanceProcessData (instanceId : Uuid)
    (processData : Map PublicKey InstanceProcessDataItem) : RoundStore I G :=
  let text := codecs.instances.encode processData
  let row : PeginInstanceProcessData I := ⟨instanceId, text, now, now⟩
  { store with
    instanceRows := (store.instanceRows.insertOrIgnore row).update
      (fun row => row.instanceId = instanceId)
        (fun row => { row with processData := text, updatedAt := now }) fun _ => rfl }

/-- A read that fails, and a text that does not parse, count as an empty map. -/
def findPeginInstanceProcessData (instanceId : Uuid) : Map PublicKey InstanceProcessDataItem :=
  if faults.read then .empty
  else
    match store.instanceRows.find? instanceId with
    | some data => (codecs.instances.decode data.processData).getD .empty
    | none => .empty

def upsertPeginGraphProcessData (graphId instanceId : Uuid) (isEndorsed : Bool)
    (processData : Map PublicKey GraphProcessDataItem) : RoundStore I G :=
  let text := codecs.graphs.encode processData
  let row : PeginGraphProcessData G := ⟨graphId, instanceId, isEndorsed, text, now, now⟩
  { store with
    graphRows := (store.graphRows.insertOrIgnore row).update (fun row => row.graphId = graphId)
      (fun row => { row with
        processData := text
        instanceId := instanceId
        isEndorsed := isEndorsed
        updatedAt := now }) fun _ => rfl }

def findPeginGraphProcessData (graphId : Uuid) :
    Except RoundError (Bool × Map PublicKey GraphProcessDataItem) :=
  if faults.read then .error .storage
  else
    match store.graphRows.find? graphId with
    | some data =>
        match codecs.graphs.decode data.processData with
        | some processData => .ok (data.isEndorsed, processData)
        | none => .error .malformed
    | none => .ok (false, .empty)

def storeForInstance (instanceId : Uuid) (key : PublicKey)
    (material : RoundMaterial PubNonce PartialSignatureBytes) (name : String) :
    RoundStore I G × Except RoundError Unit :=
  if faults.acquire then (store, .error .storage)
  else
    let processData := findPeginInstanceProcessData codecs store faults instanceId
    match storeMaterial instanceFields processData key material with
    | none =>
        (store, .error (.invalidPeginData
            (name ++ " changed for instance " ++ instanceId.hyphenated ++
          " and committee " ++ hexEncode key.bytes)))
    | some processData =>
        if faults.write then (store, .error .storage)
        else (upsertPeginInstanceProcessData codecs store now instanceId processData, .ok ())

def storeCommitteePubNonceForInstance (instanceId : Uuid) (key : PublicKey) (pubNonce : PubNonce) :
    RoundStore I G × Except RoundError Unit :=
  storeForInstance codecs store faults now instanceId key (.pubNonce pubNonce) "committee pub nonce"

def storeCommitteeAggNonceConsensusForInstance (instanceId : Uuid) (key : PublicKey)
    (hash : Bytes32) (signature : SchnorrSignature) : RoundStore I G × Except RoundError Unit :=
  storeForInstance codecs store faults now instanceId key (.consensus hash signature)
    "committee PeginConfirm nonce consensus"

def storeCommitteePartialSigForInstance (instanceId : Uuid) (key : PublicKey)
    (sig : PartialSignatureBytes) : RoundStore I G × Except RoundError Unit :=
  storeForInstance codecs store faults now instanceId key
    (.partialSig sig) "committee partial signature"

def changeGraphProcessData (instanceId graphId : Uuid)
    (change : Map PublicKey GraphProcessDataItem →
      Except RoundError (Map PublicKey GraphProcessDataItem)) :
    RoundStore I G × Except RoundError Unit :=
  if faults.acquire then (store, .error .storage)
  else
    match findPeginGraphProcessData codecs store faults graphId with
    | .error error => (store, .error error)
    | .ok (isEndorsed, processData) =>
        match change processData with
        | .error error => (store, .error error)
        | .ok processData =>
            if faults.write then (store, .error .storage)
            else (upsertPeginGraphProcessData codecs store now graphId instanceId isEndorsed
              processData, .ok ())

def enterMaterial (graphId : Uuid) (key : PublicKey)
    (material : RoundMaterial CommitteePubNonces CommitteePartialSignatures) (name : String)
    (processData : Map PublicKey GraphProcessDataItem) :
    Except RoundError (Map PublicKey GraphProcessDataItem) :=
  match storeMaterial graphFields processData key material with
  | none =>
      .error (.invalidGraph (name ++ " changed for graph " ++ graphId.hyphenated ++
        " and committee " ++
      hexEncode key.bytes))
  | some processData => .ok processData

def storeForGraph (instanceId graphId : Uuid) (key : PublicKey)
    (material : RoundMaterial CommitteePubNonces CommitteePartialSignatures) (name : String) :
    RoundStore I G × Except RoundError Unit :=
  changeGraphProcessData codecs store faults now instanceId graphId
    (enterMaterial graphId key material name)

def storeCommitteePubNoncesForGraph (instanceId graphId : Uuid) (key : PublicKey)
    (pubNonces : CommitteePubNonces) : RoundStore I G × Except RoundError Unit :=
  storeForGraph codecs store faults now instanceId graphId key
    (.pubNonce pubNonces) "committee pub nonces"

def storeCommitteeAggNonceConsensusForGraph (instanceId graphId : Uuid) (key : PublicKey)
    (hash : Bytes32) (signature : SchnorrSignature) : RoundStore I G × Except RoundError Unit :=
  storeForGraph codecs store faults now instanceId graphId key (.consensus hash signature)
    "committee agg nonce consensus"

def storeCommitteePartialSigsForGraph (instanceId graphId : Uuid) (key : PublicKey)
    (sigs : CommitteePartialSignatures) : RoundStore I G × Except RoundError Unit :=
  storeForGraph codecs store faults now instanceId graphId key (.partialSig sigs)
    "committee partial signatures"

def modifyItem (processData : Map PublicKey GraphProcessDataItem) (key : PublicKey)
    (change : GraphProcessDataItem → GraphProcessDataItem) : Map PublicKey GraphProcessDataItem :=
  processData.insert key (change ((processData.get? key).getD {}))

/-- Endorsements are not write-once. -/
def enterEndorsement (key : PublicKey) (evmAddress : EvmAddress)
    (endorseSignature paramsEndorseSignature : Bytes)
    (processData : Map PublicKey GraphProcessDataItem) :
    Except RoundError (Map PublicKey GraphProcessDataItem) :=
  .ok (modifyItem processData key fun item => { item with
    endorseSignature := endorseSignature
    paramsEndorseSignature := paramsEndorseSignature
    committeeEvmAddress := some evmAddress })

def storeCommitteeEndorsementForGraph (instanceId graphId : Uuid) (key : PublicKey)
    (evmAddress : EvmAddress) (endorseSignature paramsEndorseSignature : Bytes) :
    RoundStore I G × Except RoundError Unit :=
  changeGraphProcessData codecs store faults now instanceId graphId
    (enterEndorsement key evmAddress endorseSignature paramsEndorseSignature)

def enterEndorsements (endorseSigs paramsEndorseSigs : List (PublicKey × EvmAddress × Bytes))
    (processData : Map PublicKey GraphProcessDataItem) :
    Except RoundError (Map PublicKey GraphProcessDataItem) :=
  let processData := endorseSigs.foldl (fun processData entry =>
    modifyItem processData entry.1 fun item => { item with
      endorseSignature := entry.2.2
      committeeEvmAddress := some entry.2.1 }) processData
  .ok (paramsEndorseSigs.foldl (fun processData entry =>
    modifyItem processData entry.1 fun item => { item with
      paramsEndorseSignature := entry.2.2
      committeeEvmAddress := some entry.2.1 }) processData)

def storeCommitteeEndorsementsForGraph (instanceId graphId : Uuid)
    (endorseSigs paramsEndorseSigs : List (PublicKey × EvmAddress × Bytes)) :
    RoundStore I G × Except RoundError Unit :=
  changeGraphProcessData codecs store faults now instanceId graphId
    (enterEndorsements endorseSigs paramsEndorseSigs)

end Storage

inductive RoundCall where
  | pubNonceForInstance (instanceId : Uuid) (key : PublicKey) (pubNonce : PubNonce)
  | aggNonceConsensusForInstance (instanceId : Uuid) (key : PublicKey) (hash : Bytes32)
      (signature : SchnorrSignature)
  | partialSigForInstance (instanceId : Uuid) (key : PublicKey) (sig : PartialSignatureBytes)
  | pubNoncesForGraph (instanceId graphId : Uuid) (key : PublicKey) (pubNonces : CommitteePubNonces)
  | aggNonceConsensusForGraph (instanceId graphId : Uuid) (key : PublicKey) (hash : Bytes32)
      (signature : SchnorrSignature)
  | partialSigsForGraph (instanceId graphId : Uuid) (key : PublicKey)
      (sigs : CommitteePartialSignatures)
  | endorsementForGraph (instanceId graphId : Uuid) (key : PublicKey) (evmAddress : EvmAddress)
      (endorseSignature paramsEndorseSignature : Bytes)
  | endorsementsForGraph (instanceId graphId : Uuid)
      (endorseSigs paramsEndorseSigs : List (PublicKey × EvmAddress × Bytes))

namespace RoundCall

def instanceTarget :
    RoundCall → Option (Uuid × PublicKey × RoundMaterial PubNonce PartialSignatureBytes)
  | .pubNonceForInstance instanceId key pubNonce => some (instanceId, key, .pubNonce pubNonce)
  | .aggNonceConsensusForInstance instanceId key hash signature =>
      some (instanceId, key, .consensus hash signature)
  | .partialSigForInstance instanceId key sig => some (instanceId, key, .partialSig sig)
  | _ => none

def graphTarget :
    RoundCall → Option (Uuid × PublicKey × RoundMaterial CommitteePubNonces
      CommitteePartialSignatures)
  | .pubNoncesForGraph _ graphId key pubNonces => some (graphId, key, .pubNonce pubNonces)
  | .aggNonceConsensusForGraph _ graphId key hash signature =>
      some (graphId, key, .consensus hash signature)
  | .partialSigsForGraph _ graphId key sigs => some (graphId, key, .partialSig sigs)
  | _ => none

end RoundCall

section Runs

variable {I G : Type} (codecs : RoundCodecs I G) (store : RoundStore I G)

def roundStep (call : RoundCall) (faults : StorageFaults) (now : Int) :
    RoundStore I G × Except RoundError Unit :=
  match call with
  | .pubNonceForInstance instanceId key pubNonce =>
      storeCommitteePubNonceForInstance codecs store faults now instanceId key pubNonce
  | .aggNonceConsensusForInstance instanceId key hash signature =>
      storeCommitteeAggNonceConsensusForInstance codecs store faults now instanceId key
        hash signature
  | .partialSigForInstance instanceId key sig =>
      storeCommitteePartialSigForInstance codecs store faults now instanceId key sig
  | .pubNoncesForGraph instanceId graphId key pubNonces =>
      storeCommitteePubNoncesForGraph codecs store faults now instanceId graphId key pubNonces
  | .aggNonceConsensusForGraph instanceId graphId key hash signature =>
      storeCommitteeAggNonceConsensusForGraph codecs store faults now instanceId graphId key
        hash signature
  | .partialSigsForGraph instanceId graphId key sigs =>
      storeCommitteePartialSigsForGraph codecs store faults now instanceId graphId key sigs
  | .endorsementForGraph instanceId graphId key evmAddress endorseSignature
      paramsEndorseSignature =>
      storeCommitteeEndorsementForGraph codecs store faults now instanceId graphId key evmAddress
        endorseSignature paramsEndorseSignature
  | .endorsementsForGraph instanceId graphId endorseSigs paramsEndorseSigs =>
      storeCommitteeEndorsementsForGraph codecs store faults now instanceId graphId endorseSigs
        paramsEndorseSigs

def roundRun (calls : List (RoundCall × StorageFaults × Int)) : RoundStore I G :=
  calls.foldl (fun store (call, faults, now) => (roundStep codecs store call faults now).1) store

def instanceMaterial (instanceId : Uuid) (key : PublicKey) (kind : MaterialKind) :
    Option (RoundMaterial PubNonce PartialSignatureBytes) :=
  (store.instanceRows.find? instanceId).bind fun row =>
    (codecs.instances.decode row.processData).bind fun processData =>
      materialOf instanceFields processData key kind

def graphMaterial (graphId : Uuid) (key : PublicKey) (kind : MaterialKind) :
    Option (RoundMaterial CommitteePubNonces CommitteePartialSignatures) :=
  (store.graphRows.find? graphId).bind fun row =>
    (codecs.graphs.decode row.processData).bind fun processData =>
      materialOf graphFields processData key kind

/-- A call keeps all material, and if it would change some it fails and leaves everything as it
was. -/
structure WriteOnce (store : RoundStore I G) (call : RoundCall) (faults : StorageFaults)
    (now : Int) : Prop where
  instances : ∀ instanceId key kind material,
    instanceMaterial codecs store instanceId key kind = some material →
    instanceMaterial codecs (roundStep codecs store call faults now).1 instanceId key kind =
      some material
  graphs : ∀ graphId key kind material, graphMaterial codecs store graphId key kind =
    some material →
    graphMaterial codecs (roundStep codecs store call faults now).1 graphId key kind = some material
  refusesInstance : ∀ instanceId key material existing,
    call.instanceTarget = some (instanceId, key, material) →
    instanceMaterial codecs store instanceId key material.kind = some existing →
      existing ≠ material →
    (∃ error, (roundStep codecs store call faults now).2 = .error error) ∧
      (roundStep codecs store call faults now).1 = store
  refusesGraph : ∀ graphId key material existing,
    call.graphTarget = some (graphId, key, material) →
    graphMaterial codecs store graphId key material.kind = some existing → existing ≠ material →
    (∃ error, (roundStep codecs store call faults now).2 = .error error) ∧
      (roundStep codecs store call faults now).1 = store

/-- A call for an instance whose read fails and whose write does not, while other material is
stored. -/
def Forgets (call : RoundCall) (faults : StorageFaults) : Prop :=
  ∃ instanceId key material, call.instanceTarget = some (instanceId, key, material) ∧
    faults.acquire = false ∧ faults.read = true ∧ faults.write = false ∧
    ∃ other kind existing, instanceMaterial codecs store instanceId other kind = some existing ∧
      (other, existing) ≠ (key, material)

variable {codecs}

theorem instanceMaterial_upsert (now : Int) (instanceId other : Uuid)
    (processData : Map PublicKey InstanceProcessDataItem) (key : PublicKey) (kind : MaterialKind) :
    instanceMaterial codecs (upsertPeginInstanceProcessData codecs store now instanceId processData)
      other key kind =
      if other = instanceId then materialOf instanceFields processData key kind
      else instanceMaterial codecs store other key kind := by
  have hfind : (upsertPeginInstanceProcessData codecs store now instanceId
    processData).instanceRows.find? other = _ :=
    Table.find?_upsert store.instanceRows _ _ _ other
  rw [instanceMaterial, hfind]
  split
  · rw [Option.bind_some, codecs.instances.decode_encode, Option.bind_some]
  · rfl

theorem graphMaterial_upsert (now : Int) (graphId other instanceId : Uuid)
    (isEndorsed : Bool) (processData : Map PublicKey GraphProcessDataItem) (key : PublicKey)
    (kind : MaterialKind) :
    graphMaterial codecs
        (upsertPeginGraphProcessData codecs store now graphId instanceId isEndorsed processData)
        other key kind =
      if other = graphId then materialOf graphFields processData key kind
      else graphMaterial codecs store other key kind := by
  have hfind : (upsertPeginGraphProcessData codecs store now graphId instanceId isEndorsed
      processData).graphRows.find? other = _ := Table.find?_upsert store.graphRows _ _ _ other
  rw [graphMaterial, hfind]
  split
  · rw [Option.bind_some, codecs.graphs.decode_encode, Option.bind_some]
  · rfl

variable {store : RoundStore I G} {faults : StorageFaults} {instanceId : Uuid} {key : PublicKey}
    {material : RoundMaterial PubNonce PartialSignatureBytes}

theorem materialOf_findPeginInstanceProcessData (hread : faults.read = false)
    (h : instanceMaterial codecs store instanceId key kind = some material) :
    materialOf instanceFields
      (findPeginInstanceProcessData codecs store faults instanceId) key kind =
      some material := by
  obtain ⟨row, hrow, hdecoded⟩ := Option.bind_eq_some_iff.mp h
  obtain ⟨processData, hdecoded, hmaterial⟩ := Option.bind_eq_some_iff.mp hdecoded
  unfold findPeginInstanceProcessData
  rw [hread, if_neg Bool.false_ne_true, hrow]
  dsimp only
  rw [hdecoded]
  exact hmaterial

variable {call : RoundCall}

theorem roundStep_of_instanceTarget (h : call.instanceTarget = some (instanceId, key, material))
    (store : RoundStore I G) (faults : StorageFaults) (now : Int) :
    ∃ name, roundStep codecs store call faults now =
      storeForInstance codecs store faults now instanceId key material name := by
  cases call with
  | pubNonceForInstance instanceId' key' pubNonce
  | aggNonceConsensusForInstance instanceId' key' hash signature
  | partialSigForInstance instanceId' key' sig => cases h; exact ⟨_, rfl⟩
  | _ => cases h

/-- A change of a graph's map that keeps its material. -/
def KeepsMaterial (change : Map PublicKey GraphProcessDataItem →
      Except RoundError (Map PublicKey GraphProcessDataItem)) : Prop :=
  ∀ processData changed, change processData = .ok changed → ∀ key kind material,
    materialOf graphFields processData key kind = some material →
    materialOf graphFields changed key kind = some material

theorem materialOf_modifyItem {change : GraphProcessDataItem → GraphProcessDataItem}
    (hchange : ∀ item kind, (change item).get kind = item.get kind)
    (processData : Map PublicKey GraphProcessDataItem) (key other : PublicKey)
    (kind : MaterialKind) :
    materialOf graphFields (modifyItem processData key change) other kind =
      materialOf graphFields processData other kind := by
  unfold materialOf modifyItem
  rw [Map.get?_insert]
  split
  next hkey =>
    subst hkey
    refine (hchange _ kind).trans ?_
    cases processData.get? other with
    | none => exact graphFields.get_default kind
    | some item => rfl
  next => rfl

theorem materialOf_foldl_modifyItem {α : Type} {key : α → PublicKey}
    {change : α → GraphProcessDataItem → GraphProcessDataItem}
    (hchange : ∀ x item kind, (change x item).get kind = item.get kind) (xs : List α)
    (processData : Map PublicKey GraphProcessDataItem) (other : PublicKey) (kind : MaterialKind) :
    materialOf graphFields
        (xs.foldl (fun processData x => modifyItem processData (key x) (change x)) processData)
          other kind =
      materialOf graphFields processData other kind := by
  induction xs generalizing processData with
  | nil => rfl
  | cons x xs ih => rw [List.foldl_cons, ih, materialOf_modifyItem (hchange x)]

theorem roundStep_of_graph (h : call.instanceTarget = none) (store : RoundStore I G)
    (faults : StorageFaults) (now : Int) :
    ∃ instanceId graphId change, roundStep codecs store call faults now =
        changeGraphProcessData codecs store faults now instanceId graphId change ∧
        KeepsMaterial change ∧
      ∀ target key material, call.graphTarget = some (target, key, material) → target = graphId ∧
        ∀ processData existing, materialOf graphFields processData key material.kind =
          some existing →
          existing ≠ material → ∃ error, change processData = .error error := by
  have hmaterial (instanceId graphId : Uuid) (key : PublicKey)
      (material : RoundMaterial CommitteePubNonces CommitteePartialSignatures) (name : String) :
      ∃ instanceId' graphId' change, storeForGraph codecs store faults now instanceId graphId key
          material name =
          changeGraphProcessData codecs store faults now instanceId' graphId' change ∧
            KeepsMaterial change ∧
        ∀ target key' material', some (graphId, key, material) = some (target, key', material') →
          target = graphId' ∧
          ∀ processData existing, materialOf graphFields processData key' material'.kind =
            some existing →
            existing ≠ material' → ∃ error, change processData = .error error := by
    refine ⟨instanceId, graphId, enterMaterial graphId key material name, rfl, ?_, ?_⟩
    · intro processData changed hchanged other kind existing hexisting
      unfold enterMaterial at hchanged
      split at hchanged
      · cases hchanged
      next stored hstored =>
        cases hchanged
        exact materialOf_storeMaterial_of_some graphFields hstored hexisting
    · rintro target key' material' ⟨rfl⟩
      refine ⟨rfl, fun processData existing hexisting hne => ?_⟩
      unfold enterMaterial storeMaterial
      rw [hexisting, Option.any_some, if_pos (by simpa using hne)]
      exact ⟨_, rfl⟩
  cases call with
  | pubNonceForInstance | aggNonceConsensusForInstance | partialSigForInstance => cases h
  | pubNoncesForGraph instanceId graphId key pubNonces
  | aggNonceConsensusForGraph instanceId graphId key hash signature
  | partialSigsForGraph instanceId graphId key sigs => exact hmaterial instanceId graphId key _ _
  | endorsementForGraph instanceId graphId key evmAddress endorseSignature paramsEndorseSignature =>
    refine ⟨instanceId, graphId,
      enterEndorsement key evmAddress endorseSignature paramsEndorseSignature, rfl, ?_, nofun⟩
    intro processData changed hchanged other kind existing hexisting
    cases hchanged
    rw [materialOf_modifyItem (by intro item kind; cases kind <;> rfl)]
    exact hexisting
  | endorsementsForGraph instanceId graphId endorseSigs paramsEndorseSigs =>
    refine ⟨instanceId, graphId, enterEndorsements endorseSigs paramsEndorseSigs, rfl, ?_, nofun⟩
    intro processData changed hchanged other kind existing hexisting
    cases hchanged
    rw [materialOf_foldl_modifyItem (by intro x item kind; cases kind <;> rfl),
      materialOf_foldl_modifyItem (by intro x item kind; cases kind <;> rfl)]
    exact hexisting

theorem changeGraphProcessData_cases (store : RoundStore I G) (faults : StorageFaults) (now : Int)
    (instanceId graphId : Uuid) (change : Map PublicKey GraphProcessDataItem →
      Except RoundError (Map PublicKey GraphProcessDataItem)) :
    (∃ error, changeGraphProcessData codecs store faults now instanceId graphId change =
        (store, .error error)) ∨
      ∃ isEndorsed processData changed,
        findPeginGraphProcessData codecs store faults graphId = .ok (isEndorsed, processData) ∧
        change processData = .ok changed ∧
        changeGraphProcessData codecs store faults now instanceId graphId change =
          (upsertPeginGraphProcessData codecs store now graphId instanceId isEndorsed changed,
            .ok ()) := by
  unfold changeGraphProcessData
  split
  · exact .inl ⟨_, rfl⟩
  · split
    · exact .inl ⟨_, rfl⟩
    next isEndorsed processData hfound =>
      split
      · exact .inl ⟨_, rfl⟩
      next changed hchanged =>
        split
        · exact .inl ⟨_, rfl⟩
        · exact .inr ⟨isEndorsed, processData, changed, hfound, hchanged, rfl⟩

theorem materialOf_findPeginGraphProcessData {graphId : Uuid} {isEndorsed : Bool}
    {processData : Map PublicKey GraphProcessDataItem}
    (h : findPeginGraphProcessData codecs store faults graphId = .ok (isEndorsed, processData))
    (key : PublicKey) (kind : MaterialKind) :
    graphMaterial codecs store graphId key kind = materialOf graphFields processData key kind := by
  unfold findPeginGraphProcessData at h
  unfold graphMaterial
  split at h
  · cases h
  · split at h
    next row hrow =>
      split at h
      next decoded hdecoded =>
        cases h
        rw [hrow, Option.bind_some, hdecoded, Option.bind_some]
      next => cases h
    next hnone =>
      cases h
      rw [hnone]
      rfl

variable (codecs) in
theorem storeForInstance_cases (store : RoundStore I G) (faults : StorageFaults) (now : Int)
    (instanceId : Uuid) (key : PublicKey) (material : RoundMaterial PubNonce PartialSignatureBytes)
    (name : String) :
    (∃ error, storeForInstance codecs store faults now instanceId key material name =
        (store, .error error)) ∨
      ∃ stored, faults.acquire = false ∧ faults.write = false ∧
        storeMaterial instanceFields (findPeginInstanceProcessData codecs store faults instanceId)
          key material =
          some stored ∧
        storeForInstance codecs store faults now instanceId key material name =
          (upsertPeginInstanceProcessData codecs store now instanceId stored, .ok ()) := by
  unfold storeForInstance
  split
  · exact .inl ⟨_, rfl⟩
  next hacquire =>
    dsimp only
    split
    · exact .inl ⟨_, rfl⟩
    next stored hstored =>
      split
      · exact .inl ⟨_, rfl⟩
      next hwrite =>
        exact .inr ⟨stored, Bool.eq_false_of_not_eq_true hacquire,
          Bool.eq_false_of_not_eq_true hwrite, hstored, rfl⟩

theorem writeOnce_of_error {now : Int} {error : RoundError}
    (h : roundStep codecs store call faults now = (store, .error error)) :
    WriteOnce codecs store call faults now := by
  refine ⟨?_, ?_, ?_, ?_⟩ <;> rw [h]
  · exact fun _ _ _ _ hmaterial => hmaterial
  · exact fun _ _ _ _ hmaterial => hmaterial
  · exact fun _ _ _ _ _ _ _ => ⟨⟨error, rfl⟩, rfl⟩
  · exact fun _ _ _ _ _ _ _ => ⟨⟨error, rfl⟩, rfl⟩

theorem writeOnce_of_graph (h : call.instanceTarget = none) (store : RoundStore I G)
    (faults : StorageFaults) (now : Int) : WriteOnce codecs store call faults now := by
  obtain ⟨instanceId, graphId, change, hstep, hkeeps, htarget⟩ :=
    roundStep_of_graph h store faults now
  have hnoInstance {P : Prop} {instanceId key material}
      (hcall : call.instanceTarget = some (instanceId, key, material)) : P := by
    cases h.symm.trans hcall
  rcases changeGraphProcessData_cases store faults now instanceId graphId change with
    ⟨error, hresult⟩ | ⟨isEndorsed, processData, changed, hfound, hchanged, hresult⟩
  · exact writeOnce_of_error (hstep.trans hresult)
  · rw [hresult] at hstep
    refine ⟨?_, ?_, fun _ _ _ _ hcall => hnoInstance hcall, ?_⟩
    · rw [hstep]
      exact fun _ _ _ _ hmaterial => hmaterial
    · rw [hstep]
      intro other key kind material hmaterial
      rw [graphMaterial_upsert]
      split
      next hsame =>
        subst hsame
        rw [materialOf_findPeginGraphProcessData hfound] at hmaterial
        exact hkeeps processData changed hchanged key kind material hmaterial
      next => exact hmaterial
    · intro target key material existing hcall hexisting hne
      obtain ⟨rfl, hrefused⟩ := htarget target key material hcall
      rw [materialOf_findPeginGraphProcessData hfound] at hexisting
      obtain ⟨error, hrefused⟩ := hrefused processData existing hexisting hne
      cases hchanged.symm.trans hrefused

theorem kind_of_instanceMaterial
    (h : instanceMaterial codecs store instanceId key kind = some material) :
    material.kind = kind := by
  obtain ⟨row, -, hdecoded⟩ := Option.bind_eq_some_iff.mp h
  obtain ⟨processData, -, hmaterial⟩ := Option.bind_eq_some_iff.mp hdecoded
  obtain ⟨item, -, hget⟩ := Option.bind_eq_some_iff.mp hmaterial
  exact instanceFields.kind_of_get hget

theorem instanceMaterial_forgotten {stored : Map PublicKey InstanceProcessDataItem}
    (hread : faults.read = true) (hstored : storeMaterial instanceFields
      (findPeginInstanceProcessData codecs store faults instanceId) key
      material = some stored) (other : PublicKey) (kind : MaterialKind) :
    materialOf instanceFields stored other kind =
      if other = key ∧ kind = material.kind then some material else none := by
  have hempty : findPeginInstanceProcessData codecs store faults instanceId = .empty := by
    unfold findPeginInstanceProcessData
    rw [if_pos hread]
  rw [materialOf_storeMaterial instanceFields hstored, hempty]
  rfl

theorem writeOnce_of_instance (h : call.instanceTarget = some (instanceId, key, material))
    (store : RoundStore I G) (faults : StorageFaults) (now : Int) :
    WriteOnce codecs store call faults now ↔ ¬ Forgets codecs store call faults := by
  obtain ⟨name, hstep⟩ : ∃ name, roundStep codecs store call faults now = _ :=
    roundStep_of_instanceTarget h store faults now
  have hgraphTarget : call.graphTarget = none := by
    cases call <;> first | rfl | cases h
  constructor
  · rintro hkeeps ⟨_, _, _, hcall, hacquire, hread, hwrite, other, kind, existing, hexisting, hne⟩
    cases h.symm.trans hcall
    rcases storeForInstance_cases codecs store faults now instanceId key material name with
      ⟨error, hresult⟩ | ⟨stored, -, -, hstored, hresult⟩
    · -- nothing stops the call
      have hresult := congrArg Prod.snd hresult
      unfold storeForInstance findPeginInstanceProcessData at hresult
      rw [hacquire, hread, hwrite] at hresult
      cases hresult
    · have hkept := hkeeps.instances instanceId other kind existing hexisting
      rw [hstep, hresult, instanceMaterial_upsert, if_pos rfl,
        instanceMaterial_forgotten hread hstored] at hkept
      split at hkept
      next hsame =>
        cases hkept
        exact hne (by rw [hsame.1])
      next => cases hkept
  · intro hforgets
    rcases storeForInstance_cases codecs store faults now instanceId key material name with
      ⟨error, hresult⟩ | ⟨stored, hacquire, hwrite, hstored, hresult⟩
    · exact writeOnce_of_error (hstep.trans hresult)
    · -- the material that is stored is found, or it is that of the call
      have hfound (other : PublicKey) (kind : MaterialKind)
          (existing : RoundMaterial PubNonce PartialSignatureBytes)
          (hexisting : instanceMaterial codecs store instanceId other kind = some existing) :
          materialOf instanceFields stored other kind = some existing := by
        cases hread : faults.read with
        | false =>
          exact materialOf_storeMaterial_of_some instanceFields hstored
            (materialOf_findPeginInstanceProcessData hread hexisting)
        | true =>
          have hsame : (other, existing) = (key, material) := by
            by_contra hne
            exact hforgets ⟨instanceId, key, material, h, hacquire, hread, hwrite, other,
              kind, existing, hexisting, hne⟩
          cases hsame
          rw [instanceMaterial_forgotten hread hstored,
            if_pos ⟨rfl, (kind_of_instanceMaterial hexisting).symm⟩]
      rw [hresult] at hstep
      refine ⟨?_, ?_, ?_, ?_⟩
      · rw [hstep]
        intro other key' kind existing hexisting
        rw [instanceMaterial_upsert]
        split
        next hsame =>
          subst hsame
          exact hfound key' kind existing hexisting
        next => exact hexisting
      · rw [hstep]
        exact fun _ _ _ _ hmaterial => hmaterial
      · intro _ _ _ existing hcall hexisting hne
        cases h.symm.trans hcall
        have hsame := hfound key material.kind existing hexisting
        rw [materialOf_storeMaterial instanceFields hstored, if_pos ⟨rfl, rfl⟩] at hsame
        exact absurd (Option.some.inj hsame).symm hne
      · intro _ _ _ _ hcall
        cases hgraphTarget.symm.trans hcall

theorem writeOnce_iff (store : RoundStore I G) (call : RoundCall) (faults : StorageFaults)
    (now : Int) : WriteOnce codecs store call faults now ↔ ¬ Forgets codecs store call faults := by
  cases h : call.instanceTarget with
  | some target => exact writeOnce_of_instance h store faults now
  | none =>
    refine ⟨?_, fun _ => writeOnce_of_graph h store faults now⟩
    rintro - ⟨_, _, _, hcall, -⟩
    cases h.symm.trans hcall

variable (codecs)

/-- In every sequence of calls the material of the rounds is write-once exactly if no call for an
instance whose read fails replaces a map with other material. -/
theorem round_material_write_once_iff (calls : List (RoundCall × StorageFaults × Int)) :
    (∀ before call faults now after, calls = before ++ (call, faults, now) :: after →
        WriteOnce codecs (roundRun codecs .empty before) call faults now) ↔
      ∀ before call faults now after, calls = before ++ (call, faults, now) :: after →
        ¬ Forgets codecs (roundRun codecs .empty before) call faults := by
  simp only [writeOnce_iff]

end Runs

namespace FailedRead

def memberKey (x : UInt8) : PublicKey where
  bytes := 2 :: List.replicate 32 x
  wellFormed := by simp

def plain :
    RoundCodecs (Map PublicKey InstanceProcessDataItem) (Map PublicKey GraphProcessDataItem) where
  instances := ⟨id, some, fun _ => rfl⟩
  graphs := ⟨id, some, fun _ => rfl⟩

def nonce (x : UInt8) : PubNonce := Vector.replicate 66 x

def first : RoundCall := .pubNonceForInstance 1 (memberKey 1) (nonce 1)

def second : RoundCall := .pubNonceForInstance 1 (memberKey 2) (nonce 2)

/-- Two members contribute; the read of the second call fails, and the nonce of the first member is
gone. -/
theorem nonce_forgotten :
    let before := roundRun plain .empty [(first, {}, 10)]
    let after := roundRun plain .empty [(first, {}, 10), (second, { read := true }, 20)]
    instanceMaterial plain before 1 (memberKey 1) .pubNonce = some (.pubNonce (nonce 1)) ∧
      (roundStep plain before second { read := true } 20).2.isOk = true ∧
      instanceMaterial plain after 1 (memberKey 1) .pubNonce = none ∧
      ¬ WriteOnce plain before second { read := true } 20 := by
  have hstored : instanceMaterial plain (roundRun plain .empty [(first, {}, 10)]) 1
      (memberKey 1) .pubNonce =
      some (.pubNonce (nonce 1)) := by decide +kernel
  refine ⟨hstored, by decide +kernel, by decide +kernel, ?_⟩
  rw [writeOnce_iff, not_not]
  exact ⟨1, memberKey 2, .pubNonce (nonce 2), rfl, rfl, rfl, rfl, memberKey 1, .pubNonce,
    .pubNonce (nonce 1), hstored, by decide +kernel⟩

end FailedRead

end BitvmNode.Signing
