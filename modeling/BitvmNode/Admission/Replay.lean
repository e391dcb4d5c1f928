import BitvmNode.Admission.Registry
import BitvmNode.Reasoning.SequenceWindows

/-!
# The replay guard

One sequence window per author, in memory only.  The guard is locked for the time of a call, so its
history is a sequence of calls.
-/

namespace BitvmNode.Admission

open Reasoning

inductive DropReason where
  | replayedSequence
  | futureSequence
  | forwardRate
  | directPeerRate
  | authorRate
  | unregisteredRate
  | globalRate
  deriving DecidableEq

def replayWindow : Nat := 1024
def replayMaxTrackedAuthors : Nat := 16384
def replayMaxFuture : Duration := .fromSecs (10 * 60)
def clockLeadsMaxAuthors : Nat := 64

structure AuthorSequence extends Window where
  rejected : Nat

namespace AuthorSequence

def default : AuthorSequence := ⟨Window.empty, 0⟩

/-- The part of an admission that concerns the author's entry. -/
def admitSequence (state : AuthorSequence) (sequenceNumber : Nat) :
    AuthorSequence × Except DropReason Unit :=
  if state.highest < sequenceNumber then
    let floor := sequenceNumber - replayWindow
    let recent := state.recent.filter (floor ≤ ·)
    ({ state with highest := sequenceNumber, recent := insert sequenceNumber recent }, .ok ())
  else if replayWindow ≤ state.highest - sequenceNumber ∨ sequenceNumber ∈ state.recent then
    ({ state with rejected := min (state.rejected + 1) (2 ^ 32 - 1) }, .error .replayedSequence)
  else ({ state with recent := insert sequenceNumber state.recent }, .ok ())

theorem admit_of_admits {state : AuthorSequence} {n : Nat}
    (h : state.admits replayWindow n = true) :
    (state.admitSequence n).1.toWindow = state.enter replayWindow n ∧
    (state.admitSequence n).2 = .ok () := by
  simp only [Window.admits, Bool.or_eq_true, Bool.and_eq_true, decide_eq_true_eq] at h
  unfold admitSequence Window.enter
  by_cases habove : state.highest < n
  · rw [if_pos habove, if_pos habove]
    exact ⟨rfl, rfl⟩
  · have hnear : ¬(replayWindow ≤ state.highest - n ∨ n ∈ state.recent) := by
      rintro (hfar | hmem)
      · exact absurd (h.resolve_left habove).1 (by omega)
      · exact (h.resolve_left habove).2 hmem
    rw [if_neg habove, if_neg habove, if_neg hnear]
    exact ⟨rfl, rfl⟩

theorem admit_of_not_admits {state : AuthorSequence} {n : Nat}
    (h : state.admits replayWindow n = false) :
    (state.admitSequence n).1.toWindow = state.toWindow ∧
    (state.admitSequence n).2 = .error .replayedSequence := by
  simp only [Window.admits, Bool.or_eq_false_iff, Bool.and_eq_false_iff, decide_eq_false_iff_not,
    Decidable.not_not] at h
  have hrefused : replayWindow ≤ state.highest - n ∨ n ∈ state.recent := by
    rcases h.2 with hfar | hmem
    · exact .inl (by omega)
    · exact .inr hmem
  unfold admitSequence
  rw [if_neg h.1, if_pos hrefused]
  exact ⟨rfl, rfl⟩

end AuthorSequence

structure ReplayGuard where
  authors : Map PeerId AuthorSequence
  clockLeads : Map PeerId Nat

open ReplayGuard

structure AdmitCall where
  author : PeerId
  sequenceNumber : Option UInt64
  unixNanos : UInt64

namespace ReplayGuard

def empty : ReplayGuard := ⟨Map.empty, Map.empty⟩

def noteClockLead (guard : ReplayGuard) (author : PeerId) (leadNanos : Nat) : ReplayGuard :=
  if guard.clockLeads.size < clockLeadsMaxAuthors ∨ (guard.clockLeads.get? author).isSome then
    let lead := (guard.clockLeads.get? author).getD 0
    { guard with clockLeads := guard.clockLeads.insert author (max lead leadNanos) }
  else guard

def makeRoom (rank : PeerId → Nat) (authors : Map PeerId AuthorSequence) (author : PeerId) :
    Map PeerId AuthorSequence :=
  if (authors.get? author).isNone ∧ replayMaxTrackedAuthors ≤ authors.size then
    match (authors.iterate rank).head? with
    | some (evicted, _) => authors.remove evicted
    | none => authors
  else authors

def admitSequence (rank : PeerId → Nat) (guard : ReplayGuard) (call : AdmitCall) :
    ReplayGuard × Except DropReason Unit :=
  match call.sequenceNumber with
  | none => (guard, .error .replayedSequence)
  | some n =>
      let sequenceNumber := n.toNat
      let unixNanos := call.unixNanos.toNat
      let guard :=
        if unixNanos < sequenceNumber then
          guard.noteClockLead call.author (sequenceNumber - unixNanos) else guard
      -- the limit is a saturating sum
      if min (unixNanos + replayMaxFuture) (2 ^ 64 - 1) < sequenceNumber then
        (guard, .error .futureSequence)
      else
        let authors := makeRoom rank guard.authors call.author
        let (state, outcome) :=
          ((authors.get? call.author).getD .default).admitSequence sequenceNumber
        ({ guard with authors := authors.insert call.author state }, outcome)

@[simp]
theorem noteClockLead_authors (guard : ReplayGuard) (author : PeerId) (leadNanos : Nat) :
    (guard.noteClockLead author leadNanos).authors = guard.authors := by
  unfold noteClockLead
  split <;> rfl

theorem makeRoom_of_lt {rank : PeerId → Nat} {authors : Map PeerId AuthorSequence} {author : PeerId}
    (h : (authors.get? author).isNone → authors.size < replayMaxTrackedAuthors) :
    makeRoom rank authors author = authors := by
  unfold makeRoom
  rw [if_neg]
  intro hfull
  have := h hfull.1
  omega

def window? (guard : ReplayGuard) (author : PeerId) : Option Window :=
  (guard.authors.get? author).map AuthorSequence.toWindow

def window (guard : ReplayGuard) (author : PeerId) : Window :=
    (guard.window? author).getD Window.empty

def InTime (call : AdmitCall) (n : UInt64) : Prop :=
  n.toNat ≤ call.unixNanos.toNat + replayMaxFuture

theorem not_future_iff (call : AdmitCall) (n : UInt64) :
    ¬min (call.unixNanos.toNat + replayMaxFuture) (2 ^ 64 - 1) < n.toNat ↔ InTime call n := by
  have hn : n.toNat < 2 ^ 64 := n.toNat_lt
  unfold InTime
  omega

section Admissions

variable (rank : PeerId → Nat) {guard : ReplayGuard} {call : AdmitCall} {n : UInt64}

def HasRoom (guard : ReplayGuard) (call : AdmitCall) : Prop :=
  (guard.authors.get? call.author).isNone → guard.authors.size < replayMaxTrackedAuthors

theorem admit_of_inTime (hroom : guard.HasRoom call) (hn : call.sequenceNumber = some n)
    (htime : InTime call n) : ∃ state : AuthorSequence, state.toWindow = guard.window call.author ∧
      (guard.admitSequence rank call).2 = (state.admitSequence n.toNat).2 ∧
      (guard.admitSequence rank call).1.authors =
        guard.authors.insert call.author (state.admitSequence n.toNat).1 := by
  refine ⟨(guard.authors.get? call.author).getD .default, ?_, ?_⟩
  · unfold window window?
    cases guard.authors.get? call.author <;> rfl
  simp only [admitSequence, hn, if_neg ((not_future_iff call n).mpr htime)]
  split <;> simp only [noteClockLead_authors, makeRoom_of_lt hroom, and_self]

theorem admit_of_not_inTime (hn : call.sequenceNumber = some n) (htime : ¬InTime call n) :
    (guard.admitSequence rank call).2 = .error .futureSequence ∧
      (guard.admitSequence rank call).1.authors = guard.authors := by
  have hfuture := not_not.mp (mt (not_future_iff call n).mp htime)
  simp only [admitSequence, hn, if_pos hfuture]
  split <;> simp only [noteClockLead_authors, and_self]

theorem admit_eq_ok_iff (hroom : guard.HasRoom call) :
    (guard.admitSequence rank call).2 = .ok () ↔ ∃ n, call.sequenceNumber = some n ∧ InTime call n ∧
      (guard.window call.author).admits replayWindow n.toNat = true := by
  cases hn : call.sequenceNumber with
  | none => simp [admitSequence, hn]
  | some n =>
    simp only [Option.some.injEq, exists_eq_left']
    by_cases htime : InTime call n
    · obtain ⟨state, hwindow, houtcome, -⟩ := admit_of_inTime rank hroom hn htime
      rw [houtcome, ← hwindow]
      cases hadmits : state.admits replayWindow n.toNat with
      | true => simp [htime, (AuthorSequence.admit_of_admits hadmits).2]
      | false => simp [(AuthorSequence.admit_of_not_admits hadmits).2]
    · simp [htime, (admit_of_not_inTime rank hn htime).1]

theorem window?_admit_of_ok (hroom : guard.HasRoom call) (hn : call.sequenceNumber = some n)
    (hok : (guard.admitSequence rank call).2 = .ok ()) (author : PeerId) :
    (guard.admitSequence rank call).1.window? author =
      if author = call.author then some ((guard.window call.author).enter replayWindow n.toNat)
      else guard.window? author := by
  obtain ⟨m, hm, htime, hadmits⟩ := (admit_eq_ok_iff rank hroom).mp hok
  obtain rfl : n = m := Option.some.inj (hn.symm.trans hm)
  obtain ⟨state, hwindow, -, hauthors⟩ := admit_of_inTime rank hroom hn htime
  rw [← hwindow] at hadmits ⊢
  unfold window?
  rw [hauthors, Map.get?_insert]
  by_cases hauthor : author = call.author
  · rw [if_pos hauthor, if_pos hauthor, Option.map_some, (AuthorSequence.admit_of_admits hadmits).1]
  · rw [if_neg hauthor, if_neg hauthor]

theorem window?_admit_of_refused (hroom : guard.HasRoom call)
    (hrefused : (guard.admitSequence rank call).2 ≠ .ok ()) (author : PeerId) :
    (guard.admitSequence rank call).1.window? author = guard.window? author := by
  cases hn : call.sequenceNumber with
  | none => simp only [admitSequence, hn]
  | some n =>
    unfold window?
    by_cases htime : InTime call n
    · obtain ⟨state, hwindow, houtcome, hauthors⟩ := admit_of_inTime rank hroom hn htime
      cases hadmits : state.admits replayWindow n.toNat with
      | true =>
        rw [houtcome] at hrefused
        exact absurd (AuthorSequence.admit_of_admits hadmits).2 hrefused
      | false =>
        have hkept := (AuthorSequence.admit_of_not_admits hadmits).1
        rw [hauthors, Map.get?_insert]
        by_cases hauthor : author = call.author
        · rw [if_pos hauthor, Option.map_some, hkept, hwindow, hauthor]
          -- an empty window admits every number, so a refused author has an entry
          cases hentry : guard.authors.get? call.author with
          | none =>
            have hempty : guard.window call.author = Window.empty := by
              rw [window, window?, hentry]
              rfl
            rw [hwindow, hempty, Window.admits_empty (by decide)] at hadmits
            cases hadmits
          | some entry =>
            rw [window, window?, hentry]
            rfl
        · rw [if_neg hauthor]
    · rw [(admit_of_not_inTime rank hn htime).2]

end Admissions

end ReplayGuard

structure ReplayRecord where
  guard : ReplayGuard
  admitted : List (PeerId × UInt64)

namespace ReplayRecord

def start : ReplayRecord := ⟨.empty, []⟩

def next (rank : PeerId → Nat) (record : ReplayRecord) (call : AdmitCall) : ReplayRecord where
  guard := (record.guard.admitSequence rank call).1
  admitted :=
    match call.sequenceNumber, (record.guard.admitSequence rank call).2 with
    | some n, .ok () => record.admitted ++ [(call.author, n)]
    | _, _ => record.admitted

def after (rank : PeerId → Nat) (calls : List AdmitCall) : ReplayRecord :=
  calls.foldl (next rank) start

def seen (record : ReplayRecord) (author : PeerId) : Finset Nat :=
  ((record.admitted.filter (·.1 = author)).map (·.2.toNat)).toFinset

def highest (record : ReplayRecord) (author : PeerId) : Nat := (record.seen author).sup id

variable {n : UInt64}

theorem mem_seen {record : ReplayRecord} {author : PeerId} :
    n.toNat ∈ record.seen author ↔ (author, n) ∈ record.admitted := by
  simp only [seen, List.mem_toFinset, List.mem_map, List.mem_filter, decide_eq_true_eq]
  constructor
  · rintro ⟨⟨a, m⟩, ⟨hmem, rfl⟩, hm⟩
    obtain rfl : m = n := UInt64.toNat_inj.mp hm
    exact hmem
  · intro hmem
    exact ⟨(author, n), ⟨hmem, rfl⟩, rfl⟩

structure Sound (callers : Finset PeerId) (record : ReplayRecord) : Prop where
  known : ∀ author w, record.guard.window? author = some w → author ∈ callers
  tracks : ∀ author, (record.guard.window author).Tracks replayWindow (record.seen author)
  nodup : record.admitted.Nodup

variable {rank : PeerId → Nat} {callers : Finset PeerId} {record : ReplayRecord} {call : AdmitCall}

theorem sound_start : Sound callers start where
  known author w h := by cases h
  tracks _ := Window.tracks_empty
  nodup := List.nodup_nil

theorem Sound.hasRoom (h : Sound callers record) (hcall : call.author ∈ callers)
    (hcallers : callers.card ≤ replayMaxTrackedAuthors) : record.guard.HasRoom call := by
  intro hnone
  have hkeys (k : PeerId) (v : AuthorSequence) (hget : record.guard.authors.get? k = some v) :
    k ∈ callers := by
    apply h.known k v.toWindow
    rw [window?, hget, Option.map_some]
  have hsize := Map.size_lt_card hkeys hcall (Option.isNone_iff_eq_none.mp hnone)
  omega

theorem next_of_refused (hrefused : (record.guard.admitSequence rank call).2 ≠ .ok ()) :
    (record.next rank call).admitted = record.admitted := by
  unfold next
  split
  · rename_i hok
    exact absurd hok hrefused
  · rfl

theorem Sound.admit_iff (h : Sound callers record) (hroom : record.guard.HasRoom call)
    (hn : call.sequenceNumber = some n) (hnew : (call.author, n) ∉ record.admitted) :
    (record.guard.admitSequence rank call).2 = .ok () ↔
    n.toNat ≤ call.unixNanos.toNat + replayMaxFuture ∧
        (record.highest call.author < n.toNat ∨
          record.highest call.author - n.toNat < replayWindow) := by
  have htracks := h.tracks call.author
  have hunseen : n.toNat ∉ record.seen call.author := fun hseen => hnew (mem_seen.mp hseen)
  have hhighest : (record.guard.window call.author).highest = record.highest call.author :=
    htracks.highest_eq
  rw [admit_eq_ok_iff rank hroom, hn]
  simp only [Option.some.injEq, exists_eq_left']
  rw [htracks.admits_iff, hhighest]
  simp only [hunseen, not_false_eq_true, true_and]
  rfl

theorem Sound.next (h : Sound callers record) (hcall : call.author ∈ callers)
    (hcallers : callers.card ≤ replayMaxTrackedAuthors) :
    Sound callers (record.next rank call) := by
  have hroom := h.hasRoom hcall hcallers
  by_cases hok : (record.guard.admitSequence rank call).2 = .ok ()
  · obtain ⟨n, hn, -, hadmits⟩ := (admit_eq_ok_iff rank hroom).mp hok
    have hadmitted : (record.next rank call).admitted = record.admitted ++ [(call.author, n)] := by
      simp only [ReplayRecord.next, hn, hok]
    have hwindow := window?_admit_of_ok rank hroom hn hok
    have hunseen := ((h.tracks call.author).admits_iff.mp hadmits).1
    constructor
    · intro author w hw
      by_cases hauthor : author = call.author
      · rwa [hauthor]
      · apply h.known author w
        rwa [ReplayRecord.next, hwindow, if_neg hauthor] at hw
    · intro author
      by_cases hauthor : author = call.author
      · have hseen : (record.next rank call).seen author =
          insert n.toNat (record.seen call.author) := by
          unfold seen
          rw [hadmitted, hauthor]
          ext m
          simp [List.filter_append]
        have hnext : (record.next rank call).guard.window author =
            (record.guard.window call.author).enter replayWindow n.toNat := by
          rw [window, ReplayRecord.next, hwindow, if_pos hauthor, Option.getD_some]
        rw [hseen, hnext]
        exact (h.tracks call.author).enter hadmits
      · have hseen : (record.next rank call).seen author = record.seen author := by
          unfold seen
          rw [hadmitted, List.filter_append]
          simp [Ne.symm hauthor]
        have hnext : (record.next rank call).guard.window author = record.guard.window author := by
          rw [window, ReplayRecord.next, hwindow, if_neg hauthor]
          rfl
        rw [hseen, hnext]
        exact h.tracks author
    · rw [hadmitted, List.nodup_append]
      refine ⟨h.nodup, List.nodup_singleton _, ?_⟩
      intro entry hmem last hlast
      rw [List.mem_singleton] at hlast
      rintro rfl
      exact hunseen (mem_seen.mpr (hlast ▸ hmem))
  · have hadmitted := next_of_refused hok
    have hwindow := window?_admit_of_refused rank hroom hok
    constructor
    · intro author w hw
      apply h.known author w
      rwa [ReplayRecord.next, hwindow] at hw
    · intro author
      have hseen : (record.next rank call).seen author = record.seen author := by
        rw [seen, hadmitted, seen]
      have hnext : (record.next rank call).guard.window author = record.guard.window author := by
        rw [window, ReplayRecord.next, hwindow]
        rfl
      rw [hseen, hnext]
      exact h.tracks author
    · rw [hadmitted]
      exact h.nodup

theorem sound_after {calls : List AdmitCall} (hcalls : ∀ call ∈ calls, call.author ∈ callers)
    (hcallers : callers.card ≤ replayMaxTrackedAuthors) : Sound callers (after rank calls) := by
  induction calls using List.reverseRecOn with
  | nil => exact sound_start
  | append_singleton calls call ih =>
    have hsound := ih fun c hc => hcalls c (List.mem_append_left _ hc)
    have hcall := hcalls call (List.mem_append_right _ (List.mem_singleton_self _))
    have hstep : Sound callers ((after rank calls).next rank call) := hsound.next hcall hcallers
    rwa [after, List.foldl_append]

end ReplayRecord

open ReplayRecord in
/-- Over any sequence of calls by at most `replayMaxTrackedAuthors` authors no number of an author
is admitted twice, an unseen number is admitted for its distances alone, and the windows stay
small. -/
theorem replay_guard_exact (rank : PeerId → Nat) (calls : List AdmitCall)
    (hauthors : (calls.map AdmitCall.author).toFinset.card ≤ replayMaxTrackedAuthors) :
    (after rank calls).admitted.Nodup ∧ (∀ earlier call later, calls = earlier ++ call :: later →
        (∀ n, call.sequenceNumber = some n → (call.author, n) ∉ (after rank earlier).admitted →
          (((after rank earlier).guard.admitSequence rank call).2 = .ok () ↔
            n.toNat ≤ call.unixNanos.toNat + replayMaxFuture ∧
            ((after rank earlier).highest call.author < n.toNat ∨
                (after rank earlier).highest call.author - n.toNat < replayWindow))) ∧
        (((after rank earlier).guard.admitSequence rank call).2 ≠ .ok () →
          ∀ author, ((after rank earlier).guard.admitSequence rank call).1.window? author =
            (after rank earlier).guard.window? author)) ∧
      ∀ earlier later, calls = earlier ++ later →
        ∀ author w, (after rank earlier).guard.window? author = some w →
          (∀ n ∈ w.recent, n ≤ w.highest ∧ w.highest - n ≤ replayWindow) ∧
          w.recent.card ≤ replayWindow + 1 := by
  have hsound (earlier later : List AdmitCall) (hcalls : calls = earlier ++ later) :
      Sound (calls.map AdmitCall.author).toFinset (after rank earlier) := by
    apply sound_after _ hauthors
    intro call hcall
    rw [List.mem_toFinset, hcalls, List.map_append]
    exact List.mem_append_left _ (List.mem_map_of_mem hcall)
  refine ⟨(hsound calls [] (List.append_nil _).symm).nodup, ?_, ?_⟩
  · intro earlier call later hcalls
    have hbefore := hsound earlier (call :: later) hcalls
    have hcaller : call.author ∈ (calls.map AdmitCall.author).toFinset := by
      rw [List.mem_toFinset, hcalls]
      simp
    have hroom := hbefore.hasRoom hcaller hauthors
    exact ⟨fun n hn hnew => hbefore.admit_iff hroom hn hnew,
      fun hrefused => window?_admit_of_refused rank hroom hrefused⟩
  · intro earlier later hcalls author w hw
    have htracks := (hsound earlier later hcalls).tracks author
    have hwindow : (after rank earlier).guard.window author = w := by
      rw [window, hw, Option.getD_some]
    rw [hwindow] at htracks
    exact ⟨fun n hn => htracks.mem_recent hn, htracks.card_recent⟩

def windowCalls : List AdmitCall :=
  [2000, 977, 976, 977].map fun n => ⟨⟨[1]⟩, some n, 0⟩

theorem windowCalls_exact :
    (windowCalls.map AdmitCall.author).toFinset.card ≤ replayMaxTrackedAuthors ∧
    (ReplayRecord.after (fun _ => 0) windowCalls).admitted = [(⟨[1]⟩, 2000), (⟨[1]⟩, 977)] ∧
    (ReplayRecord.after (fun _ => 0) windowCalls).admitted.Nodup :=
  ⟨by decide, by decide +kernel, (replay_guard_exact (fun _ => 0) windowCalls (by decide)).1⟩

end BitvmNode.Admission
