import BitvmNode.Reasoning.ReplayCaches
import BitvmNode.Reasoning.Sha256
import BitvmNode.ProofBuilder.Auth

/-!
# Replays of requests to the proof builder

The time of a request may lie on either side of the server's clock, while its nonce is remembered
from the time at which it was recorded.  A request that is recorded before its own time is still in
date when its nonce is forgotten.
-/

namespace BitvmNode.ProofBuilder

open Reasoning Bitcoin

theorem asStr_injective : Function.Injective ProofBuilderAuthRole.asStr := by
  intro a b h
  cases a <;> cases b <;> first | rfl | exact absurd h (by decide)

namespace SignedFields

def hashed (sha256 : Bytes → Bytes32) (fields : SignedFields) : List Bytes :=
  fieldsHashed sha256 fields.texts (sortJsonValue fields.body).text

/-- The same request, unless the hash has a collision. -/
def Means (sha256 : Bytes → Bytes32) (fields other : SignedFields) : Prop :=
  fields.canonical = other.canonical ∨
    CollisionIn sha256 (fields.hashed sha256 ++ other.hashed sha256)

variable {sha256 : Bytes → Bytes32} {fields other : SignedFields} {digest : Bytes32}

theorem requestDigest_eq_some : requestDigest sha256 fields = some digest ↔
      (sortJsonValue fields.body).text.length < 2 ^ 63 ∧
        fieldsDigest sha256 fields.texts (sortJsonValue fields.body).text = some digest := by
  unfold requestDigest canonicalJsonBytes
  cases hvec : (sortJsonValue fields.body).toVec with
  | none =>
    refine ⟨nofun, fun h => ?_⟩
    have hsome := JsonValue.toVec_eq_some.mpr ⟨rfl, h.1⟩
    cases hvec.symm.trans hsome
  | some bytes =>
    obtain ⟨rfl, hlength⟩ := JsonValue.toVec_eq_some.mp hvec
    exact ⟨fun h => ⟨hlength, h⟩, fun h => h.2⟩

theorem means_of_digest (h : requestDigest sha256 fields = some digest)
    (h' : requestDigest sha256 other = some digest) : fields.Means sha256 other := by
  rcases fieldsDigest_inj (requestDigest_eq_some.mp h).2
    (requestDigest_eq_some.mp h').2 with hsame | hcollision
  · left
    obtain ⟨htexts, htext⟩ := hsame
    have hvalue := JsonValue.text_injective htext
    simp only [texts, List.cons.injEq, and_true, true_and] at htexts
    obtain ⟨hrole, hmethod, hpath, htimestamp, hnonce, hkey⟩ := htexts
    simp only [canonical, SignedFields.mk.injEq]
    exact ⟨asStr_injective hrole, hmethod, hpath, htimestamp, hnonce, hkey, hvalue⟩
  · exact Or.inr hcollision

end SignedFields

structure AuthRequest where
  clocks : Clocks
  headers : AuthHeaders
  role : ProofBuilderAuthRole
  (method path : String)
  body : JsonValue
  claimedWatchtowerPublicKey : Option String

open AuthRequest

section

variable (crypto : Crypto)

def AuthRequest.authenticate (accepted : AcceptedNonces) (request : AuthRequest) :
    AcceptedNonces × Except ApiError XOnlyKey :=
  ProofBuilder.authenticate crypto accepted request.clocks request.headers request.role
    request.method request.path request.body request.claimedWatchtowerPublicKey

def noncesAfter (requests : List AuthRequest) : AcceptedNonces :=
  requests.foldl (fun accepted request => (request.authenticate crypto accepted).1) Map.empty

def answer (before : List AuthRequest) (request : AuthRequest) : Except ApiError XOnlyKey :=
  (request.authenticate crypto (noncesAfter crypto before)).2

def AuthRequest.SameAs (request other : AuthRequest) : Prop :=
  request.headers.timestamp = other.headers.timestamp ∧
    request.headers.nonce = other.headers.nonce ∧
    sortJsonValue request.body = sortJsonValue other.body

/-- No signer has the same request accepted twice. -/
def AcceptedOnce (requests : List AuthRequest) : Prop :=
  ∀ before request between again, before ++ request :: between ++ [again] <+: requests →
    ∀ signer, answer crypto before request = .ok signer →
      answer crypto (before ++ request :: between) again = .ok signer → ¬ request.SameAs again

/-- The signer has signed the request: its role, method, path, time, nonce and the value of its
body. -/
def AuthRequest.SignedBy (signed : XOnlyKey → SignedFields → Prop) (signer : XOnlyKey)
    (request : AuthRequest) : Prop :=
  ∃ timestamp nonce, request.headers.timestamp = some timestamp ∧
    request.headers.nonce = some nonce ∧
    ∃ fields, signed signer fields ∧ fields.Means crypto.sha256
      ⟨request.role, request.method, request.path, timestamp, nonce, xonlyText signer, request.body⟩

def AcceptedSigned (signed : XOnlyKey → SignedFields → Prop) (requests : List AuthRequest) : Prop :=
  ∀ before request, before ++ [request] <+: requests →
    ∀ signer, answer crypto before request = .ok signer → request.SignedBy crypto signed signer

def Unforgeable (signed : XOnlyKey → SignedFields → Prop) : Prop :=
  ∀ signature digest key, crypto.verifySchnorr signature digest key = true →
    ∃ fields, signed key fields ∧ requestDigest crypto.sha256 fields = some digest

end

/-- The clock reads a time after the epoch and before the end of the 64-bit numbers, and moves on by
at most `delay` seconds between its two readings. -/
structure Clocks.Plausible (delay : Nat) (clocks : Clocks) : Prop where
  epoch : 0 ≤ clocks.checkedAt
  ordered : clocks.checkedAt ≤ clocks.recordedAt
  delay : clocks.recordedAt ≤ clocks.checkedAt + delay
  ends : clocks.recordedAt + AUTH_WINDOW_SECS < 2 ^ 63

/-- The clock does not go back, and when it is read for a request that is not too early to be in
date, it is at most `lead` seconds behind the time of the request. -/
structure Timely (lead : Int) (delay : Nat) (requests : List AuthRequest) : Prop where
  ordered : requests.Pairwise fun request later =>
    request.clocks.recordedAt ≤ later.clocks.recordedAt
  clocks : ∀ request ∈ requests, request.clocks.Plausible delay
  lead : ∀ request ∈ requests, ∀ timestamp value, request.headers.timestamp = some timestamp →
    canonicalTimestamp timestamp = some value →
    value ≤ request.clocks.checkedAt + AUTH_WINDOW_SECS → value ≤ request.clocks.recordedAt + lead

def staleNonce (now acceptedAt : Int) : Bool := AUTH_WINDOW_SECS < now - acceptedAt

def AuthRequest.verified (crypto : Crypto) (request : AuthRequest) : Option Credentials :=
  match readCredentials request.headers request.claimedWatchtowerPublicKey with
  | .error _ => none
  | .ok c =>
      if verifyProofBuilderRequestSignature crypto request.clocks.checkedAt request.role
        request.method request.path c.timestamp c.nonce c.signer c.signature request.body then
          some c else none

def AuthRequest.use (request : AuthRequest) (c : Credentials) : KeyUse (XOnlyKey × String) Int :=
  ⟨request.clocks.recordedAt, (c.signer, c.nonce), request.clocks.recordedAt⟩

def uses (crypto : Crypto) (requests : List AuthRequest) : List (KeyUse (XOnlyKey × String) Int) :=
  requests.filterMap fun request => (request.verified crypto).map request.use

section

variable {crypto : Crypto} {accepted : AcceptedNonces} {request : AuthRequest} {c : Credentials}

theorem recordNonce_eq (now : Int) (signer : XOnlyKey) (nonce : String) :
    recordNonce accepted now signer nonce =
      (ReplayCache.enter staleNonce accepted ⟨now, (signer, nonce), now⟩,
        if ReplayCache.fresh staleNonce accepted ⟨now, (signer, nonce), now⟩ then .ok ()
        else .error (unauthorized "request nonce has already been used")) := by
  have hkept : (accepted.retain fun _ acceptedAt => decide (now - acceptedAt ≤ AUTH_WINDOW_SECS)) =
      ReplayCache.kept staleNonce accepted now := by
    unfold ReplayCache.kept staleNonce
    congr
    funext _ acceptedAt
    rw [← decide_not, decide_eq_decide]
    omega
  unfold recordNonce ReplayCache.enter ReplayCache.fresh
  rw [hkept]
  dsimp only
  cases (ReplayCache.kept staleNonce accepted now).get? (signer, nonce) <;> rfl

theorem AuthRequest.authenticate_of_unverified (h : request.verified crypto = none) :
    (request.authenticate crypto accepted).1 = accepted ∧
      ∀ signer, (request.authenticate crypto accepted).2 ≠ .ok signer := by
  unfold authenticate ProofBuilder.authenticate
  unfold verified at h
  cases hread : readCredentials request.headers request.claimedWatchtowerPublicKey with
  | error e => exact ⟨rfl, nofun⟩
  | ok c =>
    rw [hread] at h
    dsimp only at h ⊢
    split at h
    · cases h
    · rename_i hbad
      rw [if_neg hbad]
      exact ⟨rfl, nofun⟩

theorem AuthRequest.authenticate_of_verified (h : request.verified crypto = some c) :
    request.authenticate crypto accepted = (ReplayCache.enter staleNonce accepted (request.use c),
      if ReplayCache.fresh staleNonce accepted (request.use c) then .ok c.signer
      else .error (unauthorized "request nonce has already been used")) := by
  unfold authenticate ProofBuilder.authenticate
  unfold verified at h
  cases hread : readCredentials request.headers request.claimedWatchtowerPublicKey with
  | error e =>
    rw [hread] at h
    cases h
  | ok read =>
    rw [hread] at h
    dsimp only at h ⊢
    split at h
    · rename_i hgood
      cases h
      rw [if_pos hgood, recordNonce_eq]
      unfold use
      cases ReplayCache.fresh staleNonce accepted ⟨request.clocks.recordedAt, (c.signer, c.nonce),
        request.clocks.recordedAt⟩ <;> rfl
    · cases h

theorem uses_append (requests others : List AuthRequest) :
    uses crypto (requests ++ others) = uses crypto requests ++ uses crypto others :=
  List.filterMap_append

theorem uses_cons (h : request.verified crypto = some c) (requests : List AuthRequest) :
    uses crypto (request :: requests) = request.use c :: uses crypto requests := by
  unfold uses
  rw [List.filterMap_cons, h]
  rfl

theorem mem_uses {requests : List AuthRequest} {use : KeyUse (XOnlyKey × String) Int}
    (h : use ∈ uses crypto requests) :
    ∃ request ∈ requests, use.clock = request.clocks.recordedAt ∧
      use.value = request.clocks.recordedAt := by
  obtain ⟨request, hrequest, huse⟩ := List.mem_filterMap.mp h
  obtain ⟨c, -, rfl⟩ := Option.map_eq_some_iff.mp huse
  exact ⟨request, hrequest, rfl, rfl⟩

theorem noncesAfter_eq (requests : List AuthRequest) :
    noncesAfter crypto requests = ReplayCache.after staleNonce (uses crypto requests) := by
  induction requests using List.reverseRecOn with
  | nil => rfl
  | append_singleton requests request ih =>
    have hstep : noncesAfter crypto (requests ++ [request]) =
        (request.authenticate crypto (noncesAfter crypto requests)).1 := by
      unfold noncesAfter
      rw [List.foldl_append]
      rfl
    rw [hstep, ih, uses_append]
    cases hverified : request.verified crypto with
    | none =>
      have hnone : uses crypto [request] = [] := by
        unfold uses
        rw [List.filterMap_cons, hverified]
        rfl
      rw [(authenticate_of_unverified hverified).1, hnone, List.append_nil]
    | some c =>
      rw [authenticate_of_verified hverified, uses_cons hverified]
      exact (ReplayCache.after_concat _ _ _).symm

theorem answer_eq_ok {before : List AuthRequest} {signer : XOnlyKey} :
    answer crypto before request = .ok signer ↔
      ∃ c, request.verified crypto = some c ∧ c.signer = signer ∧
        ReplayCache.fresh staleNonce (ReplayCache.after staleNonce (uses crypto before))
          (request.use c) = true := by
  unfold answer
  rw [noncesAfter_eq]
  cases hverified : request.verified crypto with
  | none =>
    refine ⟨fun h => absurd h ((authenticate_of_unverified hverified).2 signer), ?_⟩
    rintro ⟨c, h, -⟩
    cases h
  | some c =>
    rw [authenticate_of_verified hverified]
    split
    · rename_i hfresh
      exact ⟨fun h => ⟨c, rfl, Except.ok.inj h, hfresh⟩,
        fun ⟨c', h, hsigner, _⟩ => by cases h; rw [hsigner]⟩
    · rename_i hused
      exact ⟨nofun, fun ⟨c', h, _, hfresh⟩ => by cases h; exact absurd hfresh hused⟩

theorem timestamp_nonce_of_readCredentials {headers : AuthHeaders} {claimed : Option String}
    (h : readCredentials headers claimed = .ok c) :
    headers.timestamp = some c.timestamp ∧ headers.nonce = some c.nonce := by
  obtain ⟨timestamp, htimestamp, h⟩ := except_bind_eq_ok.mp h
  obtain ⟨nonce, hnonce, h⟩ := except_bind_eq_ok.mp h
  obtain ⟨signerValue, -, h⟩ := except_bind_eq_ok.mp h
  obtain ⟨signature, -, h⟩ := except_bind_eq_ok.mp h
  rw [okOrElse_eq_ok.mp htimestamp, okOrElse_eq_ok.mp hnonce]
  split at h
  · cases h
  · split at h
    · cases h
      exact ⟨rfl, rfl⟩
    · cases h
    · split at h
      · cases h
        exact ⟨rfl, rfl⟩
      · cases h

structure AuthRequest.Verified (crypto : Crypto) (request : AuthRequest) (c : Credentials) :
    Prop where
  timestamp : request.headers.timestamp = some c.timestamp
  nonce : request.headers.nonce = some c.nonce
  inDate : ∃ value, canonicalTimestamp c.timestamp = some value ∧
    timestampDistance request.clocks.checkedAt value ≤ AUTH_WINDOW_SECS
  signature : ∃ signature digest, crypto.verifySchnorr signature digest c.signer = true ∧
    requestDigest crypto.sha256 ⟨request.role, request.method, request.path, c.timestamp, c.nonce,
      xonlyText c.signer, request.body⟩ = some digest

theorem AuthRequest.verified_spec (h : request.verified crypto = some c) :
    request.Verified crypto c := by
  unfold verified at h
  cases hread : readCredentials request.headers request.claimedWatchtowerPublicKey with
  | error e =>
    rw [hread] at h
    cases h
  | ok read =>
    rw [hread] at h
    dsimp only at h
    split at h
    · rename_i hgood
      cases h
      obtain ⟨htimestamp, hnonce⟩ := timestamp_nonce_of_readCredentials hread
      unfold verifyProofBuilderRequestSignature at hgood
      rw [Bool.and_eq_true, Bool.and_eq_true] at hgood
      obtain ⟨⟨htime, -⟩, hsignature⟩ := hgood
      refine ⟨htimestamp, hnonce, ?_, ?_⟩
      · unfold validateTimestamp at htime
        split at htime
        · cases htime
        · rename_i value hvalue
          exact ⟨value, hvalue, of_decide_eq_true htime⟩
      · split at hsignature
        · rename_i bytes digest hbytes hdigest
          rw [Bool.and_eq_true] at hsignature
          exact ⟨bytes, digest, hsignature.2, hdigest⟩
        · cases hsignature
    · cases h

theorem acceptedSigned_of_unforgeable {signed : XOnlyKey → SignedFields → Prop}
    (h : Unforgeable crypto signed) (requests : List AuthRequest) :
    AcceptedSigned crypto signed requests := by
  intro before request _ signer hanswer
  obtain ⟨c, hverified, rfl, -⟩ := answer_eq_ok.mp hanswer
  have hspec := verified_spec hverified
  obtain ⟨signature, digest, hvalid, hdigest⟩ := hspec.signature
  obtain ⟨fields, hsigned, hfields⟩ := h signature digest c.signer hvalid
  exact ⟨c.timestamp, c.nonce, hspec.timestamp, hspec.nonce, fields, hsigned,
    SignedFields.means_of_digest hfields hdigest⟩

theorem canonicalTimestamp_inInt64 {text : String} {value : Int}
    (h : canonicalTimestamp text = some value) : inInt64 value := by
  obtain ⟨hparsed, -⟩ := Option.filter_eq_some_iff.mp h
  exact inInt64_of_parseInt64 hparsed

variable {delay : Nat}

/-- Besides the window there is one more time in date, far before the epoch. -/
theorem timestampDistance_le_iff {clocks : Clocks} {value : Int}
    (h : clocks.Plausible delay) (hvalue : inInt64 value) :
    timestampDistance clocks.checkedAt value ≤ AUTH_WINDOW_SECS ↔
      (clocks.checkedAt - value).natAbs ≤ 300 ∨ value = clocks.checkedAt - 2 ^ 63 := by
  have hepoch := h.epoch
  have hordered := h.ordered
  have hends := h.ends
  unfold inInt64 at hvalue
  unfold AUTH_WINDOW_SECS at hends ⊢
  unfold timestampDistance wrapInt64
  omega

theorem Timely.acceptedOnce {lead : Int} {requests : List AuthRequest}
    (h : Timely lead delay requests) (hlead : lead + delay ≤ 0) (hdelay : delay ≤ 300) :
    AcceptedOnce crypto requests := by
  intro before request between again hrun signer hfirst hagain hsame
  obtain ⟨c, hverified, rfl, -⟩ := answer_eq_ok.mp hfirst
  obtain ⟨c', hverified', hsigner, hfresh⟩ := answer_eq_ok.mp hagain
  have hspec := verified_spec hverified
  have hspec' := verified_spec hverified'
  have htimestamp : c'.timestamp = c.timestamp := by
    have htexts := hsame.1
    rw [hspec.timestamp, hspec'.timestamp] at htexts
    exact (Option.some.inj htexts).symm
  have hnonce : c'.nonce = c.nonce := by
    have htexts := hsame.2.1
    rw [hspec.nonce, hspec'.nonce] at htexts
    exact (Option.some.inj htexts).symm
  obtain ⟨value, hvalue, hwindow⟩ := hspec.inDate
  obtain ⟨value', hvalue', hwindow'⟩ := hspec'.inDate
  rw [htimestamp, hvalue] at hvalue'
  cases hvalue'
  have hrequest : request ∈ requests :=
    hrun.subset (List.mem_append_left _ (List.mem_append_right _ List.mem_cons_self))
  have hagain' : again ∈ requests :=
    hrun.subset (List.mem_append_right _ (List.mem_singleton_self again))
  have htime := h.lead request hrequest c.timestamp value hspec.timestamp hvalue
  have hclocks := h.clocks request hrequest
  have hclocks' := h.clocks again hagain'
  have hrange := canonicalTimestamp_inInt64 hvalue
  rw [timestampDistance_le_iff hclocks hrange] at hwindow
  rw [timestampDistance_le_iff hclocks' hrange] at hwindow'
  have hordered := h.ordered.sublist hrun.sublist
  rw [List.append_assoc, List.pairwise_append] at hordered
  have hlater := List.pairwise_append.mp hordered.2.1
  have hwindow300 : AUTH_WINDOW_SECS = 300 := rfl
  rw [hwindow300] at htime
  -- both are checked in the window of the time they carry, or both in the same second
  have hlast : again.clocks.recordedAt ≤ request.clocks.recordedAt + 300 := by
    obtain ⟨hepoch, hordered, hdelayed, hends⟩ := hclocks
    obtain ⟨hepoch', hordered', hdelayed', hends'⟩ := hclocks'
    rw [hwindow300] at hends hends'
    omega
  have hbetween : ∀ other ∈ request :: between, request.clocks.recordedAt ≤
    other.clocks.recordedAt := by
    intro other hother
    rcases List.mem_cons.mp hother with rfl | hother
    · exact le_refl _
    · exact (List.pairwise_cons.mp hlater.1).1 other hother
  have hagainLast : ∀ other ∈ request :: between, other.clocks.recordedAt ≤
    again.clocks.recordedAt :=
    fun other hother => hlater.2.2 other hother again (List.mem_singleton_self again)
  have hused : ReplayCache.fresh staleNonce
      (ReplayCache.after staleNonce (uses crypto (before ++ request :: between))) (again.use c') =
        false := by
    rw [uses_append, uses_cons hverified]
    apply ReplayCache.not_fresh_of_used
    · show (c'.signer, c'.nonce) = (c.signer, c.nonce)
      rw [hsigner, hnonce]
    · intro entry hentry _ other hother
      rw [← uses_cons hverified] at hentry
      obtain ⟨r, hr, -, hentryAt⟩ := mem_uses hentry
      have hotherAt : other.clock ≤ again.clocks.recordedAt := by
        rcases List.mem_append.mp hother with hother | hother
        · obtain ⟨r', hr', hclock, -⟩ := mem_uses hother
          rw [hclock]
          exact hagainLast r' (List.mem_cons_of_mem _ hr')
        · rw [List.mem_singleton.mp hother]
          exact le_refl _
      have hr300 := hbetween r hr
      unfold staleNonce
      rw [decide_eq_false_iff_not, hwindow300, hentryAt]
      omega
  cases hused.symm.trans hfresh

/-- In every order of any requests none is accepted twice, and what is accepted was signed by the
signer, if no request is recorded earlier than `delay` seconds after its own time. -/
theorem request_accepted_once {signed : XOnlyKey → SignedFields → Prop}
    (hunforgeable : Unforgeable crypto signed) {lead : Int} {delay : Nat}
    {requests : List AuthRequest} (h : Timely lead delay requests) (hlead : lead + delay ≤ 0)
    (hdelay : delay ≤ 300) :
    AcceptedOnce crypto requests ∧ AcceptedSigned crypto signed requests :=
  ⟨h.acceptedOnce hlead hdelay, acceptedSigned_of_unforgeable hunforgeable requests⟩

end

namespace RequestAt1000

def nonce : String := hexEncode (List.replicate 16 0)

def generatorText : String := "79be667ef9dcbbac55a06295ce870b07029bfcdb2dce28d959f2815b16f81798"

def generatorKey : XOnlyKey := 0x79be667ef9dcbbac55a06295ce870b07029bfcdb2dce28d959f2815b16f81798

def fields : SignedFields :=
  ⟨.operator, "POST", "/v1/proofs/operator_proofs", "1000", nonce, generatorText, .null⟩

/-- The holder of the key has signed one request. -/
def crypto : Crypto where
  sha256 := Sha256.digest
  verifySchnorr _ digest key :=
    key = generatorKey && requestDigest Sha256.digest fields = some digest

theorem unforgeable :
    Unforgeable crypto fun key signed => key = generatorKey ∧ signed = fields := by
  intro signature digest key h
  simp only [crypto, Bool.and_eq_true, decide_eq_true_eq] at h
  exact ⟨fields, ⟨h.1, rfl⟩, h.2⟩

def signature : String := hexEncode (List.replicate 64 0)

def headers : AuthHeaders := ⟨some "1000", some nonce, some generatorText, some signature⟩

def credentials : Credentials := ⟨"1000", nonce, generatorKey, signature⟩

def requestOf (clocks : Clocks) : AuthRequest :=
  ⟨clocks, headers, .operator, "POST", "/v1/proofs/operator_proofs", .null, none⟩

theorem canonicalTimestamp_1000 : canonicalTimestamp "1000" = some 1000 := by decide +kernel

section

variable {lead : Int} {delay : Nat} {clocks later : Clocks}

theorem verified_requestOf (h : (clocks.checkedAt - 1000).natAbs ≤ 300) :
    (requestOf clocks).verified crypto = some credentials := by
  have hread : readCredentials headers none = .ok credentials := by decide +kernel
  -- at its own time the whole check is evaluated, at another one only the time is looked at again
  have hchecked : verifyProofBuilderRequestSignature crypto 1000 .operator "POST"
      "/v1/proofs/operator_proofs" "1000" nonce generatorKey signature .null = true := by
    decide +kernel
  have htime : validateTimestamp clocks.checkedAt "1000" = true := by
    unfold validateTimestamp timestampDistance wrapInt64 AUTH_WINDOW_SECS
    rw [canonicalTimestamp_1000]
    dsimp only
    rw [decide_eq_true_eq]
    omega
  unfold verifyProofBuilderRequestSignature at hchecked
  rw [Bool.and_eq_true, Bool.and_eq_true] at hchecked
  unfold AuthRequest.verified
  rw [show (requestOf clocks).headers = headers from rfl,
    show (requestOf clocks).claimedWatchtowerPublicKey = none from rfl, hread]
  apply if_pos
  dsimp only [requestOf, credentials]
  unfold verifyProofBuilderRequestSignature
  rw [Bool.and_eq_true, Bool.and_eq_true]
  exact ⟨⟨htime, hchecked.1.2⟩, hchecked.2⟩

theorem not_acceptedOnce (hclocks : (clocks.checkedAt - 1000).natAbs ≤ 300)
    (hlater : (later.checkedAt - 1000).natAbs ≤ 300)
    (hforgotten : 300 < later.recordedAt - clocks.recordedAt) :
    ¬ AcceptedOnce crypto [requestOf clocks, requestOf later] := by
  intro honce
  refine honce [] _ [] _ (List.prefix_refl _) generatorKey ?_ ?_ ⟨rfl, rfl, rfl⟩
  · exact answer_eq_ok.mpr ⟨credentials, verified_requestOf hclocks, rfl, rfl⟩
  · refine answer_eq_ok.mpr ⟨_, verified_requestOf hlater, rfl, ?_⟩
    rw [List.nil_append, uses_cons (verified_requestOf hclocks)]
    exact ReplayCache.fresh_of_stale [] rfl (decide_eq_true hforgotten)

theorem timely_pair (hlead : 1000 ≤ clocks.recordedAt + lead)
    (hordered : clocks.recordedAt ≤ later.recordedAt) (hclocks : clocks.Plausible delay)
    (hlater : later.Plausible delay) :
    Timely lead delay [requestOf clocks, requestOf later] where
  ordered := List.pairwise_pair.mpr hordered
  clocks := by
    intro request hrequest
    rcases List.mem_pair.mp hrequest with rfl | rfl
    · exact hclocks
    · exact hlater
  lead := by
    intro request hrequest timestamp value htimestamp hvalue _
    have htext : timestamp = "1000" ∧ clocks.recordedAt ≤ request.clocks.recordedAt := by
      rcases List.mem_pair.mp hrequest with rfl | rfl
      · exact ⟨(Option.some.inj htimestamp).symm, le_refl _⟩
      · exact ⟨(Option.some.inj htimestamp).symm, hordered⟩
    rw [htext.1, canonicalTimestamp_1000] at hvalue
    cases hvalue
    omega

/-- No larger lead is safe. -/
theorem lead_add_delay_le_zero (hdelay : delay ≤ 300)
    (h : ∀ requests, Timely lead delay requests → AcceptedOnce crypto requests) :
    lead + delay ≤ 0 := by
  by_contra hpositive
  by_cases hlead : 1 ≤ lead
  · apply @not_acceptedOnce ⟨999, 999⟩ ⟨1300, 1300⟩ (by decide) (by decide) (by decide)
    apply h
    apply timely_pair
    · dsimp only
      omega
    · decide
    · constructor <;> dsimp only [AUTH_WINDOW_SECS] <;> omega
    · constructor <;> dsimp only [AUTH_WINDOW_SECS] <;> omega
  -- the first request as early as it may be, the second one as late
  · apply @not_acceptedOnce ⟨min (1000 - lead) 1300, 1000 - lead⟩ ⟨1300, 1301 - lead⟩
    iterate 3
      · dsimp only
        omega
    apply h
    apply timely_pair
    · dsimp only
      omega
    · dsimp only
      omega
    · constructor <;> dsimp only [AUTH_WINDOW_SECS] <;> omega
    · constructor <;> dsimp only [AUTH_WINDOW_SECS] <;> omega

end

theorem plausible_at {t : Int} (hepoch : 0 ≤ t) (hends : t + 300 < 2 ^ 63) :
    Clocks.Plausible 0 ⟨t, t⟩ := by
  constructor <;> dsimp only [AUTH_WINDOW_SECS] <;> omega

def sentAt (first later : Int) : List AuthRequest :=
  [requestOf ⟨first, first⟩, requestOf ⟨later, later⟩]

end RequestAt1000

open RequestAt1000

/-- A request that comes one second before its own time is accepted again 301 seconds later. -/
theorem early_request_accepted_twice :
    Timely 1 0 (sentAt 999 1300) ∧ ¬ AcceptedOnce RequestAt1000.crypto (sentAt 999 1300) :=
  ⟨timely_pair (by decide) (by decide) (plausible_at (by decide) (by decide))
    (plausible_at (by decide) (by decide)),
    not_acceptedOnce (by decide) (by decide) (by decide)⟩

theorem request_in_time_accepted_once :
    Timely 0 0 (sentAt 1000 1300) ∧ AcceptedOnce RequestAt1000.crypto (sentAt 1000 1300) := by
  have htimely : Timely 0 0 (sentAt 1000 1300) :=
    timely_pair (by decide) (by decide) (plausible_at (by decide) (by decide))
      (plausible_at (by decide) (by decide))
  exact ⟨htimely, (request_accepted_once unforgeable htimely (by decide) (by decide)).1⟩

end BitvmNode.ProofBuilder
