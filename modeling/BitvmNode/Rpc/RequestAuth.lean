import BitvmNode.Reasoning.Along
import BitvmNode.Reasoning.ReplayCaches
import BitvmNode.Reasoning.Sha256
import BitvmNode.Signing.Committee
import BitvmNode.ProofBuilder.Auth

/-!
# Signed requests to the node

A request carries a signature of the node's own key over its time, nonce, method, target and body.
The clock is read when the headers are there.  The nonce is looked up with that reading when the
body has come, and others may have dropped it from the table in between with later readings.

The requests of a process are answered concurrently: a step reads the headers of one of them, or
answers one whose body has come.
-/

open BitvmNode.Reasoning BitvmNode.Bitcoin
open BitvmNode.Signing (Uuid)
open BitvmNode.ProofBuilder (Crypto)

namespace BitvmNode.Rpc

structure AuthHeaders where
  (timestamp nonce signature : Option String)

structure ErrorResponse where
  status : Nat
  (error message : String)

def authError (message : String) : ErrorResponse := ⟨401, "AUTH_ERROR", message⟩

def AUTH_WINDOW_SECS : Int := 300

def AUTH_DOMAIN : String := "bitvm-rpc-auth-v2"

def MAX_AUTH_BODY_BYTES : Nat := 2 * 1024 * 1024

def headerValue (value : Option String) (name : String) : Except ErrorResponse String :=
  okOrElse value (authError s!"missing {name} header")

def parseTimestamp (headers : AuthHeaders) (now : Int) : Except ErrorResponse (String × Int) := do
  let text ← headerValue headers.timestamp "x-auth-timestamp"
  match parseInt64 text with
  | none => .error (authError "invalid timestamp")
  | some timestamp =>
      if (now - timestamp).natAbs > AUTH_WINDOW_SECS.natAbs then
        .error (authError "timestamp expired")
      else .ok (text, timestamp)

def parseHyphenated (chars : List Char) : Option Bytes :=
  if chars.length = 36 ∧ ∀ place ∈ [8, 13, 18, 23], chars[place]? = some '-' then
    decodeHexChars (chars.take 8 ++ (chars.drop 9).take 4 ++ (chars.drop 14).take 4 ++
        (chars.drop 19).take 4 ++
      chars.drop 24)
  else none

/-- The digits alone, with hyphens, with hyphens in braces, or behind the name of the scheme. -/
def parseUuid (text : String) : Option Uuid :=
  let chars := text.toList
  let bytes :=
    if chars.length = 32 then decodeHexChars chars
    else if chars.length = 36 then parseHyphenated chars
    else if chars.length = 38 ∧ chars.head? = some '\x7b' ∧ chars.getLast? = some '\x7d' then
      parseHyphenated (chars.drop 1).dropLast
    else if chars.length = 45 ∧ chars.take 9 = "urn:uuid:".toList then
      parseHyphenated (chars.drop 9)
    else none
  bytes.map fun bytes => BitVec.ofNat 128 (beNat bytes)

def parseNonce (headers : AuthHeaders) : Except ErrorResponse String := do
  let nonce ← headerValue headers.nonce "x-auth-nonce"
  match parseUuid nonce with
  | none => .error (authError "invalid nonce")
  | some parsed =>
      if parsed.hyphenated ≠ nonce then .error (authError "invalid nonce") else .ok nonce

def parseSignature (headers : AuthHeaders) : Except ErrorResponse Bytes := do
  let text ← headerValue headers.signature "x-auth-signature"
  match hexDecode text with
  | none => .error (authError "invalid signature hex encoding")
  | some bytes =>
      if bytes.length = 64 then .ok bytes else .error (authError "invalid signature format")

structure ParsedAuth where
  timestampStr : String
  timestamp : Int
  nonce : String
  signature : Bytes

def parseAuthHeaders (headers : AuthHeaders) (now : Int) : Except ErrorResponse ParsedAuth := do
  let (timestampStr, timestamp) ← parseTimestamp headers now
  let nonce ← parseNonce headers
  let signature ← parseSignature headers
  .ok ⟨timestampStr, timestamp, nonce, signature⟩

structure SignedRequest where
  (timestamp nonce method target : String)
  body : Bytes
  deriving DecidableEq

namespace SignedRequest

variable (request : SignedRequest)

def texts : List String :=
    [AUTH_DOMAIN, request.timestamp, request.nonce, request.method, request.target]

def hashed (sha256 : Bytes → Bytes32) : List Bytes := fieldsHashed sha256 request.texts request.body

end SignedRequest

def requestAuthDigest (sha256 : Bytes → Bytes32) (request : SignedRequest) : Option Bytes32 :=
  fieldsDigest sha256 request.texts request.body

def verifyAuthSignature (crypto : Crypto) (signature : Bytes) (request : SignedRequest)
    (key : XOnlyKey) : Bool :=
  match requestAuthDigest crypto.sha256 request with
  | none => false
  | some digest => crypto.verifySchnorr signature digest key

/-- The nonces that were used, with the last second at which they are kept. -/
abbrev AuthNonces := Map String Int

def consumeAuthNonce (nonces : AuthNonces) (nonce : String) (expiresAt now : Int) :
    AuthNonces × Bool :=
  let kept := nonces.retain fun _ expiresAt => expiresAt ≥ now
  (kept.insert nonce expiresAt, (kept.get? nonce).isNone)

structure Parts where
  headers : AuthHeaders
  (method target : String)

structure Pending where
  parts : Parts
  now : Int
  auth : ParsedAuth

def Pending.request (pending : Pending) (body : Bytes) : SignedRequest :=
  ⟨pending.auth.timestampStr, pending.auth.nonce, pending.parts.method, pending.parts.target, body⟩

structure Process where
  clock : Int
  pending : Map Nat Pending
  nonces : AuthNonces
  ran : List SignedRequest

inductive Event where
  | tick (seconds : Nat)
  | arrive (id : Nat) (parts : Parts)
  | body (id : Nat) (bytes : Option Bytes)

section

variable (crypto : Crypto) (key : Option XOnlyKey)

def Process.arrive (process : Process) (id : Nat) (parts : Parts) :
    Process × Except ErrorResponse Unit :=
  match parseAuthHeaders parts.headers process.clock with
  | .error e => (process, .error e)
  | .ok auth =>
      ({ process with pending := process.pending.insert id ⟨parts, process.clock, auth⟩ }, .ok ())

def Process.finish (process : Process) (pending : Pending) (bytes : Option Bytes) :
    Process × Except ErrorResponse Unit :=
  match bytes.filter fun bytes => bytes.length ≤ MAX_AUTH_BODY_BYTES with
  | none => (process, .error ⟨413, "PAYLOAD_TOO_LARGE", "request body exceeds 2 MiB limit"⟩)
  | some body =>
      match key with
      | none => (process, .error (authError "server key configuration error (BITVM_SECRET)"))
      | some key =>
          if verifyAuthSignature crypto pending.auth.signature (pending.request body) key then
            match consumeAuthNonce process.nonces pending.auth.nonce
              (pending.auth.timestamp + AUTH_WINDOW_SECS) pending.now with
            | (nonces, true) =>
                ({ process with nonces, ran := process.ran ++ [pending.request body] }, .ok ())
            | (nonces, false) =>
                ({ process with nonces },
                  .error ⟨409, "AUTH_REPLAY", "authentication nonce has already been used"⟩)
          else (process, .error (authError "signature verification failed"))

def Process.step (process : Process) : Event → Process
  | .tick seconds => { process with clock := process.clock + seconds }
  | .arrive id parts => (process.arrive id parts).1
  | .body id bytes =>
      match process.pending.get? id with
      | none => process
      | some pending =>
          (Process.finish crypto key { process with pending := process.pending.remove id }
            pending bytes).1

def Process.start (clock : Int) : Process := ⟨clock, Map.empty, Map.empty, []⟩

def Process.run (clock : Int) (events : List Event) : Process :=
  events.foldl (Process.step crypto key) (Process.start clock)

end

end BitvmNode.Rpc
