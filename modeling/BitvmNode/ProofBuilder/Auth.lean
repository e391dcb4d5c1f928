import BitvmNode.Reasoning.DecimalTexts
import BitvmNode.Reasoning.FieldDigests
import BitvmNode.Reasoning.JsonValues
import BitvmNode.Reasoning.Maps
import BitvmNode.Reasoning.Runs
import BitvmNode.Bitcoin.KeyTexts

/-!
# Authentication of requests to the proof builder

A request carries a signature over its role, method, path, time, nonce and body.  The time must be
close to the clock of the server, on either side of it, and a nonce of a signer is refused as long
as it is remembered.

The hash and the check of a signature are parameters.  The clock is read twice: when the time of the
request is checked and when its nonce is recorded.
-/

namespace BitvmNode.ProofBuilder

open Reasoning Bitcoin

structure Crypto where
  sha256 : Bytes → Bytes32
  verifySchnorr : Bytes → Bytes32 → XOnlyKey → Bool

inductive ProofBuilderAuthRole where
  | operator
  | watchtower

def ProofBuilderAuthRole.asStr : ProofBuilderAuthRole → String
  | .operator => "operator"
  | .watchtower => "watchtower"

structure AuthHeaders where
  (timestamp nonce publicKey signature : Option String)

structure ApiError where
  status : Nat
  message : String
  deriving DecidableEq

def unauthorized (message : String) : ApiError := ⟨401, message⟩

def forbidden (message : String) : ApiError := ⟨403, message⟩

def AUTH_DOMAIN : String := "bitvm-proof-builder-auth-v1"

def AUTH_WINDOW_SECS : Int := 300

def AUTH_NONCE_LEN : Nat := 16

structure SignedFields where
  role : ProofBuilderAuthRole
  (method path timestamp nonce : String)
  publicKey : String
  body : JsonValue

mutual

def sortJsonValue : JsonValue → JsonValue
  | .arr items => .arr (sortJsonItems items)
  | .obj fields => .obj ((sortJsonFields fields).insertionSort fun left right => left.1 ≤ right.1)
  | .null => .null
  | .bool b => .bool b
  | .int n => .int n
  | .str s => .str s

def sortJsonItems : List JsonValue → List JsonValue
  | [] => []
  | item :: items => sortJsonValue item :: sortJsonItems items

def sortJsonFields : List (String × JsonValue) → List (String × JsonValue)
  | [] => []
  | (name, value) :: fields => (name, sortJsonValue value) :: sortJsonFields fields

end

def canonicalJsonBytes (body : JsonValue) : Option Bytes := (sortJsonValue body).toVec

namespace SignedFields

variable (fields : SignedFields)

def texts : List String :=
  [AUTH_DOMAIN, fields.role.asStr, fields.method, fields.path, fields.timestamp, fields.nonce,
    fields.publicKey]

/-- The request as it was meant, whatever the order of the keys in its objects. -/
def canonical : SignedFields := { fields with body := sortJsonValue fields.body }

end SignedFields

def requestDigest (sha256 : Bytes → Bytes32) (fields : SignedFields) : Option Bytes32 :=
  match canonicalJsonBytes fields.body with
  | none => none
  | some bytes => fieldsDigest sha256 fields.texts bytes

def canonicalTimestamp (text : String) : Option Int := (parseInt64 text).filter fun n =>
    toString n = text

/-- `(now - value).abs()` in a release build: the least 64-bit number is its own absolute value. -/
def timestampDistance (now value : Int) : Int := wrapInt64 (wrapInt64 (now - value)).natAbs

def validateTimestamp (now : Int) (timestamp : String) : Bool :=
  match canonicalTimestamp timestamp with
  | none => false
  | some value => timestampDistance now value ≤ AUTH_WINDOW_SECS

def xonlyText (key : XOnlyKey) : String := hexEncode (beBytes 32 key)

def verifyProofBuilderRequestSignature (crypto : Crypto) (now : Int) (role : ProofBuilderAuthRole)
    (method path timestamp nonce : String) (publicKey : XOnlyKey) (signature : String)
    (body : JsonValue) : Bool :=
  validateTimestamp now timestamp &&
    ((hexDecode nonce).map List.length == some AUTH_NONCE_LEN) &&
      match hexDecode signature,
        requestDigest crypto.sha256 ⟨role, method, path, timestamp, nonce,
          xonlyText publicKey, body⟩ with
      | some bytes, some digest => bytes.length = 64 && crypto.verifySchnorr bytes digest publicKey
      | _, _ => false

abbrev AcceptedNonces := Map (XOnlyKey × String) Int

/-- A nonce that is used again is refused, with its time renewed. -/
def recordNonce (accepted : AcceptedNonces) (now : Int) (signer : XOnlyKey) (nonce : String) :
    AcceptedNonces × Except ApiError Unit :=
  let kept := accepted.retain fun _ acceptedAt => now - acceptedAt ≤ AUTH_WINDOW_SECS
  (kept.insert (signer, nonce) now,
    match kept.get? (signer, nonce) with
    | some _ => .error (unauthorized "request nonce has already been used")
    | none => .ok ())

def requiredHeader (value : Option String) (name : String) : Except ApiError String :=
  okOrElse value (unauthorized s!"missing or invalid {name} header")

structure Credentials where
  (timestamp nonce : String)
  signer : XOnlyKey
  signature : String
  deriving DecidableEq

def readCredentials (headers : AuthHeaders) (claimedWatchtowerPublicKey : Option String) :
    Except ApiError Credentials := do
  let timestamp ← requiredHeader headers.timestamp "x-proof-auth-timestamp"
  let nonce ← requiredHeader headers.nonce "x-proof-auth-nonce"
  let signerValue ← requiredHeader headers.publicKey "x-proof-auth-public-key"
  let signature ← requiredHeader headers.signature "x-proof-auth-signature"
  match normalizePublicKey signerValue with
  | none => .error (unauthorized "invalid signer public key")
  | some signer =>
      match claimedWatchtowerPublicKey.map normalizePublicKey with
      | none => .ok ⟨timestamp, nonce, signer, signature⟩
      | some none => .error (forbidden "invalid watchtower public key")
      | some (some claimed) =>
          if claimed = signer then .ok ⟨timestamp, nonce, signer, signature⟩
          else .error (forbidden "watchtower signer does not match request public key")

/-- The clock when the time of a request is checked and when its nonce is recorded. -/
structure Clocks where
  (checkedAt recordedAt : Int)

def authenticate (crypto : Crypto) (accepted : AcceptedNonces) (clocks : Clocks)
    (headers : AuthHeaders) (role : ProofBuilderAuthRole) (method path : String) (body : JsonValue)
    (claimedWatchtowerPublicKey : Option String) : AcceptedNonces × Except ApiError XOnlyKey :=
  match readCredentials headers claimedWatchtowerPublicKey with
  | .error e => (accepted, .error e)
  | .ok ⟨timestamp, nonce, signer, signature⟩ =>
      if verifyProofBuilderRequestSignature crypto clocks.checkedAt role method path timestamp
        nonce signer signature body then
        match recordNonce accepted clocks.recordedAt signer nonce with
        | (nonces, .error e) => (nonces, .error e)
        | (nonces, .ok ()) => (nonces, .ok signer)
      else (accepted, .error (unauthorized "invalid request signature"))

end BitvmNode.ProofBuilder
