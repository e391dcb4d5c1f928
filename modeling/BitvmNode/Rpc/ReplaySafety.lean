import BitvmNode.Rpc.RequestAuth

/-!
# A signed request reaches its handler once

A nonce is kept until the time of its request is out of date, as long as no other request has read a
later clock.
-/

open BitvmNode.Reasoning BitvmNode.Bitcoin
open ReplayCache

open BitvmNode.ProofBuilder (Crypto)

namespace BitvmNode.Rpc

section

variable (crypto : Crypto) (key : XOnlyKey) (signed : SignedRequest → Prop)

def Unforgeable : Prop :=
  ∀ signature digest, crypto.verifySchnorr signature digest key = true →
    ∃ request, signed request ∧ requestAuthDigest crypto.sha256 request = some digest

def NonceOnce : Prop :=
  ∀ request other, signed request → signed other → request.nonce = other.nonce → request = other

/-- The request is made of headers and a body that were sent to the process. -/
def Offered (events : List Event) (request : SignedRequest) : Prop :=
  ∃ id parts, .arrive id parts ∈ events ∧ parts.headers.timestamp = some request.timestamp ∧
    parts.headers.nonce = some request.nonce ∧ parts.method = request.method ∧
      parts.target = request.target ∧
    ∃ id', .body id' (some request.body) ∈ events

/-- The hash has no collision between a request that was signed and one that was sent. -/
def NoCollision (events : List Event) : Prop :=
  ∀ request other, signed request → Offered events other →
    ¬ CollisionIn crypto.sha256 (request.hashed crypto.sha256 ++ other.hashed crypto.sha256)

end

def InTime (slack : Int) (process : Process) : Event → Prop
  | .body id _ => ∀ pending, process.pending.get? id = some pending →
      process.clock ≤ pending.auth.timestamp + AUTH_WINDOW_SECS + slack
  | _ => True

theorem InTime.mono {slack slack' : Int} {process : Process} {event : Event}
    (h : InTime slack process event) (hle : slack ≤ slack') : InTime slack' process event := by
  cases event with
  | body id bytes =>
    intro pending hpending
    have hclock := h pending hpending
    omega
  | tick seconds => trivial
  | arrive id parts => trivial

instance (slack : Int) (process : Process) :
    (event : Event) → Decidable (InTime slack process event)
  | .body id _ => inferInstanceAs (Decidable (∀ pending ∈ process.pending.get? id,
      process.clock ≤ pending.auth.timestamp + AUTH_WINDOW_SECS + slack))
  | .tick _ | .arrive _ _ => instDecidableTrue

def expired (now expiresAt : Int) : Bool := expiresAt < now

def Pending.use (pending : Pending) : KeyUse String Int :=
  ⟨pending.now, pending.auth.nonce, pending.auth.timestamp + AUTH_WINDOW_SECS⟩

theorem consumeAuthNonce_eq (nonces : AuthNonces) (pending : Pending) :
    consumeAuthNonce nonces pending.auth.nonce (pending.auth.timestamp + AUTH_WINDOW_SECS)
      pending.now =
      (enter expired nonces pending.use, fresh expired nonces pending.use) := by
  have hkept : (nonces.retain fun _ expiresAt => decide (expiresAt ≥ pending.now)) =
      kept expired nonces pending.now := by
    unfold kept expired
    congr
    funext _ expiresAt
    rw [← decide_not, decide_eq_decide]
    omega
  unfold consumeAuthNonce
  rw [hkept]
  rfl

section

variable {crypto : Crypto} {key : XOnlyKey} {process : Process} {pending : Pending}
  {bytes : Option Bytes} {id : Nat} {now : Int}

/-- The nonce is entered, and the handler runs if it was not there. -/
def Process.consume (process : Process) (pending : Pending) (body : Bytes) : Process :=
  { process with
    nonces := enter expired process.nonces pending.use
    ran := if fresh expired process.nonces pending.use then process.ran ++ [pending.request body]
      else process.ran }

theorem Process.finish_cases : (process.finish crypto (some key) pending bytes).1 = process ∨
    ∃ body, bytes = some body ∧
      verifyAuthSignature crypto pending.auth.signature (pending.request body) key = true ∧
      (process.finish crypto (some key) pending bytes).1 = process.consume pending body := by
  unfold Process.finish
  split
  · exact Or.inl rfl
  · rename_i body hbody
    obtain ⟨hbytes, -⟩ := Option.filter_eq_some_iff.mp hbody
    dsimp only
    split
    · rename_i hvalid
      right
      refine ⟨body, hbytes, hvalid, ?_⟩
      unfold Process.consume
      rw [consumeAuthNonce_eq]
      cases fresh expired process.nonces pending.use <;> rfl
    · exact Or.inl rfl

theorem Process.step_body_of_none (h : process.pending.get? id = none) :
    process.step crypto (some key) (.body id bytes) = process := by
  dsimp only [Process.step]
  rw [h]

theorem Process.step_body_of_some (h : process.pending.get? id = some pending) :
    process.step crypto (some key) (.body id bytes) =
      (Process.finish crypto (some key) { process with pending := process.pending.remove id }
        pending bytes).1 := by
  dsimp only [Process.step]
  rw [h]

theorem parseAuthHeaders_ok {headers : AuthHeaders} {auth : ParsedAuth}
    (h : parseAuthHeaders headers now = .ok auth) :
    headers.timestamp = some auth.timestampStr ∧
    parseInt64 auth.timestampStr = some auth.timestamp ∧
      headers.nonce = some auth.nonce := by
  obtain ⟨⟨text, timestamp⟩, htimestamp, h⟩ := except_bind_eq_ok.mp h
  obtain ⟨nonce, hnonce, h⟩ := except_bind_eq_ok.mp h
  obtain ⟨signature, -, h⟩ := except_bind_eq_ok.mp h
  cases h
  have htext : headers.timestamp = some text ∧ parseInt64 text = some timestamp := by
    obtain ⟨read, hread, htimestamp⟩ := except_bind_eq_ok.mp htimestamp
    split at htimestamp
    · cases htimestamp
    · rename_i value hvalue
      split at htimestamp
      · cases htimestamp
      · cases htimestamp
        exact ⟨okOrElse_eq_ok.mp hread, hvalue⟩
  have hnonceText : headers.nonce = some nonce := by
    obtain ⟨read, hread, hnonce⟩ := except_bind_eq_ok.mp hnonce
    split at hnonce
    · cases hnonce
    · split at hnonce
      · cases hnonce
      · cases hnonce
        exact okOrElse_eq_ok.mp hread
  exact ⟨htext.1, htext.2, hnonceText⟩

/-- The table of a process and the uses that made it: all of requests that were signed. -/
structure Traced (signed : SignedRequest → Prop) (events : List Event) (process : Process)
    (uses : List (KeyUse String Int)) : Prop where
  nonces : process.nonces = after expired uses
  clocks : ∀ use ∈ uses, use.clock ≤ process.clock
  origin : ∀ use ∈ uses, ∃ request timestamp, signed request ∧ use.key = request.nonce ∧
    parseInt64 request.timestamp = some timestamp ∧ use.value = timestamp + AUTH_WINDOW_SECS
  ran : ∀ request ∈ process.ran, signed request ∧ ∃ use ∈ uses, use.key = request.nonce
  pending : ∀ id pending, process.pending.get? id = some pending → pending.now ≤ process.clock ∧
    parseAuthHeaders pending.parts.headers pending.now = .ok pending.auth ∧
    ∃ id, .arrive id pending.parts ∈ events

variable {signed : SignedRequest → Prop} {events : List Event} {event : Event}
  {uses : List (KeyUse String Int)}

theorem Traced.start (clock : Int) : Traced signed events (Process.start clock) [] where
  nonces := rfl
  clocks := nofun
  origin := nofun
  ran := nofun
  pending := nofun

variable {request : SignedRequest}

theorem signed_of_verify (hunforgeable : Unforgeable crypto key signed)
    (hcollision : NoCollision crypto signed events) {signature : Bytes}
    (hoffered : Offered events request)
    (h : verifyAuthSignature crypto signature request key = true) : signed request := by
  unfold verifyAuthSignature at h
  split at h
  · cases h
  · rename_i digest hdigest
    obtain ⟨other, hsigned, hother⟩ := hunforgeable signature digest h
    rcases fieldsDigest_inj hother hdigest with hsame | hbad
    · have hrequest : other = request := by
        obtain ⟨htexts, hbody⟩ := hsame
        simp only [SignedRequest.texts, List.cons.injEq, true_and, and_true] at htexts
        cases other
        cases request
        simp only [SignedRequest.mk.injEq]
        exact ⟨htexts.1, htexts.2.1, htexts.2.2.1, htexts.2.2.2, hbody⟩
      rw [← hrequest]
      exact hsigned
    · exact absurd hbad (hcollision other request hsigned hoffered)

section

variable (h : Traced signed events process uses)

include h

theorem Traced.offered (hpending : process.pending.get? id = some pending)
    {body : Bytes} {id' : Nat} (hbody : .body id' (some body) ∈ events) :
    Offered events (pending.request body) := by
  obtain ⟨-, hparse, origin, harrive⟩ := h.pending id pending hpending
  obtain ⟨htimestamp, -, hnonce⟩ := parseAuthHeaders_ok hparse
  exact ⟨origin, pending.parts, harrive, htimestamp, hnonce, rfl, rfl, id', hbody⟩

theorem Traced.not_fresh (hnonce : NonceOnce signed)
    (hpending : process.pending.get? id = some pending) {body : Bytes}
    (hsigned : signed (pending.request body)) (hran : pending.request body ∈ process.ran)
    (hintime : process.clock ≤ pending.auth.timestamp + AUTH_WINDOW_SECS) :
    fresh expired process.nonces pending.use = false := by
  obtain ⟨-, use, huse, hkey⟩ := h.ran _ hran
  obtain ⟨hnow, hparse, -⟩ := h.pending id pending hpending
  obtain ⟨-, htimestamp, -⟩ := parseAuthHeaders_ok hparse
  obtain ⟨earlier, later, hsplit⟩ := List.append_of_mem huse
  rw [h.nonces, hsplit]
  apply not_fresh_of_used
  · exact hkey.symm
  · intro entry hentry hentryKey other hother
    -- every use of the nonce was one of this request
    have hmem : entry ∈ uses := hsplit ▸ List.mem_append_right _ hentry
    obtain ⟨request, timestamp, hsigned', hkey', htimestamp', hvalue⟩ := h.origin entry hmem
    have hsame : request = pending.request body :=
      hnonce request _ hsigned' hsigned (by rw [← hkey', hentryKey, hkey])
    have hvalue' : entry.value = pending.auth.timestamp + AUTH_WINDOW_SECS := by
      rw [hsame] at htimestamp'
      have htimes : some timestamp = some pending.auth.timestamp :=
        htimestamp'.symm.trans htimestamp
      rw [hvalue, Option.some.inj htimes]
    have hclock : other.clock ≤ process.clock := by
      rcases List.mem_append.mp hother with hother | hother
      · exact h.clocks other (hsplit ▸ List.mem_append_right _ (List.mem_cons_of_mem _ hother))
      · rw [List.mem_singleton.mp hother]
        exact hnow
    unfold expired
    rw [decide_eq_false_iff_not, hvalue']
    omega

theorem Traced.tick (seconds : Nat) :
    Traced signed events { process with clock := process.clock + seconds } uses where
  nonces := h.nonces
  clocks := by
    intro use huse
    have hclock := h.clocks use huse
    show use.clock ≤ process.clock + seconds
    omega
  origin := h.origin
  ran := h.ran
  pending := by
    intro id pending hpending
    obtain ⟨hnow, hparse, harrive⟩ := h.pending id pending hpending
    refine ⟨?_, hparse, harrive⟩
    show pending.now ≤ process.clock + seconds
    omega

theorem Traced.arrive {parts : Parts} (hevent : .arrive id parts ∈ events) :
    Traced signed events (process.arrive id parts).1 uses := by
  unfold Process.arrive
  split
  · exact h
  · rename_i auth hauth
    refine ⟨h.nonces, h.clocks, h.origin, h.ran, ?_⟩
    intro other pending hpending
    change (process.pending.insert id _).get? other = some pending at hpending
    rw [Map.get?_insert] at hpending
    split at hpending
    · cases hpending
      exact ⟨le_refl _, hauth, id, hevent⟩
    · exact h.pending other pending hpending

theorem Traced.remove (id : Nat) :
    Traced signed events { process with pending := process.pending.remove id } uses := by
  refine ⟨h.nonces, h.clocks, h.origin, h.ran, ?_⟩
  intro other pending hpending
  exact h.pending other pending (Map.get?_remove_eq_some.mp hpending).2

theorem Traced.consume (hpending : process.pending.get? id = some pending)
    {body : Bytes} (hsigned : signed (pending.request body)) :
    let answered := { process with pending := process.pending.remove id }
    Traced signed events (answered.consume pending body) (uses ++ [pending.use]) := by
  obtain ⟨hnow, hparse, -⟩ := h.pending id pending hpending
  obtain ⟨-, htimestamp, -⟩ := parseAuthHeaders_ok hparse
  have hold : ∀ request ∈ process.ran, signed request ∧
    ∃ use ∈ uses ++ [pending.use], use.key = request.nonce := by
    intro request hrequest
    obtain ⟨hrequestSigned, use, huse, hkey⟩ := h.ran request hrequest
    exact ⟨hrequestSigned, use, List.mem_append_left _ huse, hkey⟩
  unfold Process.consume
  constructor
  · rw [after_concat, ← h.nonces]
  · intro use huse
    rcases List.mem_append.mp huse with huse | huse
    · exact h.clocks use huse
    · rw [List.mem_singleton.mp huse]
      exact hnow
  · intro use huse
    rcases List.mem_append.mp huse with huse | huse
    · exact h.origin use huse
    · rw [List.mem_singleton.mp huse]
      exact ⟨pending.request body, pending.auth.timestamp, hsigned, rfl, htimestamp, rfl⟩
  · intro request hrequest
    split at hrequest
    · rcases List.mem_append.mp hrequest with hrequest | hrequest
      · exact hold request hrequest
      · rw [List.mem_singleton.mp hrequest]
        exact ⟨hsigned, pending.use, List.mem_append_right _ (List.mem_singleton_self _), rfl⟩
    · exact hold request hrequest
  · exact (h.remove id).pending

theorem Traced.step (hunforgeable : Unforgeable crypto key signed)
    (hcollision : NoCollision crypto signed events) (hevent : event ∈ events) :
    (∃ uses', Traced signed events (process.step crypto (some key) event) uses') ∧
      (NonceOnce signed → InTime 0 process event → process.ran.Nodup →
        (process.step crypto (some key) event).ran.Nodup) := by
  cases event with
  | tick seconds => exact ⟨⟨uses, h.tick seconds⟩, fun _ _ hnodup => hnodup⟩
  | arrive id parts =>
    refine ⟨⟨uses, h.arrive hevent⟩, fun _ _ hnodup => ?_⟩
    have hran : (process.arrive id parts).1.ran = process.ran := by
      unfold Process.arrive
      split <;> rfl
    show (process.arrive id parts).1.ran.Nodup
    rw [hran]
    exact hnodup
  | body id bytes =>
    cases hpending : process.pending.get? id with
    | none =>
      rw [Process.step_body_of_none hpending]
      exact ⟨⟨uses, h⟩, fun _ _ hnodup => hnodup⟩
    | some pending =>
      rw [Process.step_body_of_some hpending]
      have hcases := @Process.finish_cases crypto key
        { process with pending := process.pending.remove id } pending bytes
      rcases hcases with hkeep | ⟨body, rfl, hvalid, hdone⟩
      · rw [hkeep]
        exact ⟨⟨uses, h.remove id⟩, fun _ _ hnodup => hnodup⟩
      · have hsigned := signed_of_verify hunforgeable hcollision (h.offered hpending hevent) hvalid
        rw [hdone]
        refine ⟨⟨_, h.consume hpending hsigned⟩, fun hnonce hintime hnodup => ?_⟩
        unfold Process.consume
        dsimp only
        split
        · rename_i hfresh
          rw [List.nodup_append]
          refine ⟨hnodup, List.nodup_singleton _, ?_⟩
          intro ran hran request hrequest hsame
          rw [List.mem_singleton.mp hrequest] at hsame
          have hclock := hintime pending hpending
          have hused := h.not_fresh hnonce hpending hsigned (hsame ▸ hran) (by omega)
          cases hused.symm.trans hfresh
        · exact hnodup

end

/-- The handlers ran once for each request, all of them signed. -/
structure RanOnce (signed : SignedRequest → Prop) (process : Process) : Prop where
  once : process.ran.Nodup
  signed : ∀ request ∈ process.ran, signed request

/-- In every interleaving the handlers run once for each signed request, if every request is
answered before its time is out of date. -/
theorem request_runs_once (hunforgeable : Unforgeable crypto key signed)
    (hnonce : NonceOnce signed) (hcollision : NoCollision crypto signed events) {clock : Int}
    (h : Along (Process.step crypto (some key)) (InTime 0) (Process.start clock) events) :
    RanOnce signed (Process.run crypto (some key) clock events) := by
  have hguarded : Along (Process.step crypto (some key))
      (fun process event => InTime 0 process event ∧ event ∈ events)
        (Process.start clock) events := by
    intro earlier event later hevents
    refine ⟨h earlier event later hevents, ?_⟩
    rw [hevents]
    exact List.mem_append_right _ List.mem_cons_self
  have hinv : (∃ uses, Traced signed events (Process.run crypto (some key) clock events) uses) ∧
      (Process.run crypto (some key) clock events).ran.Nodup := by
    refine @Along.invariant _ _ _ _ (fun process => (∃ uses, Traced signed events process uses) ∧
        process.ran.Nodup)
      _ _ hguarded ?_ ?_
    · exact ⟨⟨[], Traced.start clock⟩, List.nodup_nil⟩
    · intro process event hprocess hevent
      obtain ⟨⟨uses, htraced⟩, hnodup⟩ := hprocess
      have hstep := htraced.step hunforgeable hcollision hevent.2
      exact ⟨hstep.1, hstep.2 hnonce hevent.1 hnodup⟩
  obtain ⟨⟨uses, htraced⟩, hnodup⟩ := hinv
  exact ⟨hnodup, fun request hrequest => (htraced.ran request hrequest).1⟩

end

namespace TwoRequests

def firstRequest : SignedRequest where
  timestamp := "1000"
  nonce := "00000000-0000-4000-8000-000000000001"
  method := "POST"
  target := "/v1/graphs/pegout"
  body := []

def secondRequest : SignedRequest where
  timestamp := "1301"
  nonce := "00000000-0000-4000-8000-000000000002"
  method := "POST"
  target := "/v1/graphs/pegout"
  body := []

def signed (request : SignedRequest) : Prop := request = firstRequest ∨ request = secondRequest

def crypto : Crypto where
  sha256 := Sha256.digest
  verifySchnorr := fun _ digest _ =>
    requestAuthDigest Sha256.digest firstRequest = some digest ∨
      requestAuthDigest Sha256.digest secondRequest = some digest

def key : XOnlyKey := 1

theorem unforgeable : Unforgeable crypto key signed := by
  intro signature digest h
  rcases of_decide_eq_true h with hfirst | hsecond
  · exact ⟨firstRequest, Or.inl rfl, hfirst⟩
  · exact ⟨secondRequest, Or.inr rfl, hsecond⟩

theorem nonceOnce : NonceOnce signed := by
  rintro request other (rfl | rfl) (rfl | rfl) hnonce
  · rfl
  · exact absurd hnonce (by decide)
  · exact absurd hnonce (by decide)
  · rfl

theorem no_collision : ¬ CollisionIn Sha256.digest
    (firstRequest.hashed Sha256.digest ++ secondRequest.hashed Sha256.digest) := by
  unfold CollisionIn
  decide +kernel

def partsOf (request : SignedRequest) : Parts :=
  ⟨⟨some request.timestamp, some request.nonce, some (hexEncode (List.replicate 64 0))⟩,
    request.method, request.target⟩

/-- The events of requests with an empty body. -/
def Sends : Event → Prop
  | .tick _ => True
  | .arrive _ parts => parts = partsOf firstRequest ∨ parts = partsOf secondRequest
  | .body _ bytes => bytes = some []

theorem signed_of_offered {events : List Event} (h : ∀ event ∈ events, Sends event)
    {request : SignedRequest} (hoffered : Offered events request) : signed request := by
  obtain ⟨id, parts, harrive, htimestamp, hnonce, hmethod, htarget, id', hbody⟩ := hoffered
  have hempty := Option.some.inj (h _ hbody)
  cases request
  rcases h _ harrive with rfl | rfl
  · left
    cases htimestamp
    cases hnonce
    cases hmethod
    cases htarget
    cases hempty
    rfl
  · right
    cases htimestamp
    cases hnonce
    cases hmethod
    cases htarget
    cases hempty
    rfl

theorem noCollision {events : List Event} (h : ∀ event ∈ events, Sends event) :
    NoCollision crypto signed events := by
  intro request other hrequest hother hbad
  apply no_collision
  apply hbad.mono
  intro bytes hbytes
  have hmem : ∀ {request : SignedRequest}, signed request → bytes ∈ request.hashed Sha256.digest →
      bytes ∈ firstRequest.hashed Sha256.digest ++ secondRequest.hashed Sha256.digest := by
    rintro request (rfl | rfl) hbytes
    · exact List.mem_append_left _ hbytes
    · exact List.mem_append_right _ hbytes
  rcases List.mem_append.mp hbytes with hbytes | hbytes
  · exact hmem hrequest hbytes
  · exact hmem (signed_of_offered h hother) hbytes

/-- The second request drops the nonce of the first one while the body of its replay is on the
way. -/
def lateReplay : List Event :=
  [.arrive 0 (partsOf firstRequest), .body 0 (some []), .tick 300, .arrive 1 (partsOf firstRequest),
    .tick 1, .arrive 2 (partsOf secondRequest), .body 2 (some []), .body 1 (some [])]

theorem lateReplay_noCollision : NoCollision crypto signed lateReplay := by
  apply noCollision
  simp [lateReplay, Sends]

theorem lateReplay_inTime :
    Along (Process.step crypto (some key)) (InTime 1) (Process.start 1000) lateReplay := by
  decide +kernel

theorem lateReplay_not_ranOnce :
    ¬ RanOnce signed (Process.run crypto (some key) 1000 lateReplay) := by
  intro h
  exact absurd h.once (by decide +kernel)

/-- The handler runs again for the first request, whose replay was read at 1300 and answered at
1301. -/
theorem late_body_runs_twice : NoCollision crypto signed lateReplay ∧
    Along (Process.step crypto (some key)) (InTime 1) (Process.start 1000) lateReplay ∧
    ¬ RanOnce signed (Process.run crypto (some key) 1000 lateReplay) :=
  ⟨lateReplay_noCollision, lateReplay_inTime, lateReplay_not_ranOnce⟩

/-- No answer can be allowed to come later than that. -/
theorem slack_le_zero {slack : Int} (h : ∀ clock events, NoCollision crypto signed events →
      Along (Process.step crypto (some key)) (InTime slack) (Process.start clock) events →
      RanOnce signed (Process.run crypto (some key) clock events)) : slack ≤ 0 := by
  by_contra hslack
  apply lateReplay_not_ranOnce
  apply h 1000 lateReplay lateReplay_noCollision
  intro earlier event later hevents
  exact (lateReplay_inTime earlier event later hevents).mono (by omega)

def inTime : List Event :=
  [.arrive 0 (partsOf firstRequest), .body 0 (some []), .tick 300, .arrive 1 (partsOf firstRequest),
    .body 1 (some []), .tick 1, .arrive 2 (partsOf secondRequest), .body 2 (some [])]

theorem request_in_time_runs_once :
    Along (Process.step crypto (some key)) (InTime 0) (Process.start 1000) inTime ∧
      RanOnce signed (Process.run crypto (some key) 1000 inTime) := by
  have hinTime : Along (Process.step crypto (some key)) (InTime 0) (Process.start 1000) inTime := by
    decide +kernel
  refine ⟨hinTime, request_runs_once unforgeable nonceOnce (noCollision ?_) hinTime⟩
  simp [inTime, Sends]

end TwoRequests

end BitvmNode.Rpc
