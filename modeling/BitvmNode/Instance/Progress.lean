import BitvmNode.Instance.Lifecycle

/-!
# Where a peg-in can go

A step of the lifecycle leaves the status of a row as it is, or it is an event whose decision names
the next status.
-/

namespace BitvmNode.Instance

open Reasoning Signing

/-- The place in the order of the live states.  The failure states stand outside of it. -/
def InstanceBridgeInStatus.rank : InstanceBridgeInStatus → Nat
  | .userInited => 0
  | .committeesAnswered => 1
  | .userBroadcastPeginPrepare => 2
  | .presigned => 3
  | .relayerL1Broadcasted => 4
  | .relayerL2Minted => 5
  | .timeout | .userCanceled | .noEnoughCommitteesAnswered | .userDiscarded => 6

/-- What may be stored after `status`: no live state before it, nothing else after a failure except
the cancel after a timeout, and nothing else after the mint. -/
structure Follows (status later : InstanceBridgeInStatus) : Prop where
  forward : status.isFailed = false → later.isFailed = false → status.rank ≤ later.rank
  failed : status.isFailed = true → later = status ∨ (status = .timeout ∧ later = .userCanceled)
  minted : status = .relayerL2Minted → later = .relayerL2Minted

instance (status later : InstanceBridgeInStatus) : Decidable (Follows status later) :=
  decidable_of_iff
    ((status.isFailed = false → later.isFailed = false → status.rank ≤ later.rank) ∧
      (status.isFailed = true → later = status ∨ (status = .timeout ∧ later = .userCanceled)) ∧
      (status = .relayerL2Minted → later = .relayerL2Minted))
    ⟨fun ⟨hforward, hfailed, hminted⟩ => ⟨hforward, hfailed, hminted⟩,
      fun ⟨hforward, hfailed, hminted⟩ => ⟨hforward, hfailed, hminted⟩⟩

namespace Follows

theorem refl (status : InstanceBridgeInStatus) : Follows status status :=
  ⟨fun _ _ => le_rfl, fun _ => .inl rfl, id⟩

theorem isFailed {status later : InstanceBridgeInStatus} (h : Follows status later)
    (hfailed : status.isFailed = true) : later.isFailed = true := by
  rcases h.failed hfailed with rfl | ⟨-, rfl⟩
  · exact hfailed
  · rfl

theorem trans {a b c : InstanceBridgeInStatus} (hab : Follows a b) (hbc : Follows b c) :
    Follows a c where
  forward hlive hlater := by
    cases hfailed : b.isFailed with
    | false => exact (hab.forward hlive hfailed).trans (hbc.forward hfailed hlater)
    | true =>
      -- a live state after a failure
      have hcontra := hbc.isFailed hfailed
      cases hlater.symm.trans hcontra
  failed hfailed := by
    rcases hab.failed hfailed with rfl | ⟨htimeout, rfl⟩
    · exact hbc.failed hfailed
    · rcases hbc.failed rfl with rfl | ⟨hcancel, -⟩
      · exact .inr ⟨htimeout, rfl⟩
      · cases hcancel
  minted h := hbc.minted (hab.minted h)

end Follows

section Snapshot

variable {status current next : InstanceBridgeInStatus} {prepareHeight : Int} {keyDeleted : Bool}
  {snapshot : BtcSnapshot} {deadlines : PeginDeadlines} {stage : PrepareStage}

theorem prepareStage_eq_some (h : prepareStage status prepareHeight snapshot = some stage) :
    stage = ⟨status, prepareHeight, none⟩ ∨ ((status = .userInited ∨ status = .committeesAnswered) ∧
        stage.current = .userBroadcastPeginPrepare ∧
        stage.recorded = some stage.prepareHeight) := by
  unfold prepareStage at h
  split at h
  next hstatus =>
    split at h
    · cases h
      exact .inr ⟨hstatus, rfl, rfl⟩
    · split at h
      · cases h
      · cases h
        exact .inl rfl
  next => exact .inl (Option.some.inj h).symm

theorem prepareStage_eq_none (h : prepareStage status prepareHeight snapshot = none) :
    status = .committeesAnswered := by
  unfold prepareStage at h
  split at h
  · split at h
    · cases h
    · split at h
      next hspent => exact hspent.1
      next => cases h
  · cases h

theorem follows_prepareStage (h : prepareStage status prepareHeight snapshot = some stage) :
    Follows status stage.current := by
  rcases prepareStage_eq_some h with rfl | ⟨hstatus, hcurrent, -⟩
  · exact .refl status
  · rw [hcurrent]
    rcases hstatus with rfl | rfl <;> decide

theorem follows_confirmStage :
    Follows current (confirmStage current prepareHeight snapshot deadlines) := by
  unfold confirmStage
  split
  next hcurrent => rcases hcurrent with rfl | rfl <;> split_ifs <;> decide
  next => exact .refl current

/-- A snapshot on which a peg-in with this Prepare height is given up. -/
def BtcSnapshot.Abandons (snapshot : BtcSnapshot) (deadlines : PeginDeadlines)
    (prepareHeight : Int) : Prop :=
  0 < prepareHeight ∧ prepareHeight + deadlines.t0Blocks + deadlines.bufferBlocks ≤
    snapshot.height ∧
    ∃ confirm, snapshot.confirm = some confirm ∧ confirm.confirmed = false ∧
      confirm.inMempool = false

theorem PeginDeadlines.abandonHeight_eq_some {height : Int}
    (h : deadlines.abandonHeight prepareHeight = some height) :
    0 < prepareHeight ∧ height = prepareHeight + deadlines.t0Blocks + deadlines.bufferBlocks := by
  unfold PeginDeadlines.abandonHeight PeginDeadlines.cancelFromHeight at h
  split at h
  next hknown =>
    cases h
    exact ⟨hknown, rfl⟩
  next => cases h

theorem abandons_of_confirmStage (hcurrent : current ≠ .timeout)
    (h : confirmStage current prepareHeight snapshot deadlines = .timeout) :
    snapshot.Abandons deadlines prepareHeight := by
  unfold confirmStage at h
  split_ifs at h with _ hconfirmed _ _ hdue
  -- of the chain facts only the deadline ends in a timeout
  · obtain ⟨hheight, hmempool⟩ := hdue
    cases hconfirm : snapshot.confirm with
    | none =>
      rw [hconfirm] at hmempool
      cases hmempool
    | some confirm =>
      rw [hconfirm, Option.any_some] at hmempool hconfirmed
      cases habandon : deadlines.abandonHeight prepareHeight with
      | none =>
        rw [habandon] at hheight
        cases hheight
      | some height =>
        rw [habandon, Option.any_some, decide_eq_true_eq] at hheight
        obtain ⟨hknown, rfl⟩ := PeginDeadlines.abandonHeight_eq_some habandon
        exact ⟨hknown, hheight, confirm,
          hconfirm, by simpa using hconfirmed, by simpa using hmempool⟩
  · exact absurd h hcurrent
  · exact absurd h hcurrent

theorem next_decideBtcSnapshot
    (h : (decideBtcSnapshot status prepareHeight keyDeleted snapshot deadlines).next = some next) :
    Follows status next ∧ (next = .timeout → snapshot.Abandons deadlines
      ((decideBtcSnapshot status prepareHeight keyDeleted snapshot deadlines).prepareHeight.getD
        prepareHeight)) := by
  cases hfailed : status.isFailed with
  | true =>
    unfold decideBtcSnapshot at h
    split_ifs at h with htimeout
    · cases h
      rw [htimeout]
      exact ⟨by decide, fun hcancel => nomatch hcancel⟩
    · cases h
  | false =>
    unfold decideBtcSnapshot at h ⊢
    rw [if_neg (by simp [hfailed])] at h ⊢
    cases hstage : prepareStage status prepareHeight snapshot with
    | none =>
      rw [hstage] at h
      cases h
      rw [prepareStage_eq_none hstage]
      exact ⟨by decide, fun hdiscarded => nomatch hdiscarded⟩
    | some stage =>
      rw [hstage] at h
      dsimp only at h ⊢
      split_ifs at h
      cases h
      refine ⟨(follows_prepareStage hstage).trans follows_confirmStage, ?_⟩
      intro htimeout
      rcases prepareStage_eq_some hstage with rfl | ⟨-, hcurrent, hrecorded⟩
      · apply abandons_of_confirmStage _ htimeout
        rintro rfl
        cases hfailed
      · rw [hrecorded]
        apply abandons_of_confirmStage _ htimeout
        rw [hcurrent]
        decide

end Snapshot

theorem next_decideEvent {deadlines : PeginDeadlines} {row : InstanceRow} {event : InstanceEvent}
    {transition : Transition} {next : InstanceBridgeInStatus}
    (h : decideEvent deadlines row event = some transition) (hnext : transition.next = some next) :
    Follows row.status next ∧ (next = .timeout → ∃ snapshot, event = .btcSnapshot snapshot ∧
        snapshot.Abandons deadlines (transition.prepareHeight.getD row.btcHeight)) := by
  cases event with
  | btcSnapshot snapshot =>
    cases h
    obtain ⟨hfollows, htimeout⟩ := next_decideBtcSnapshot hnext
    exact ⟨hfollows, fun heq => ⟨snapshot, rfl, htimeout heq⟩⟩
  | answerWindow window =>
    cases h
    unfold decideAnswerWindow at hnext
    split at hnext
    · cases hnext
    next hopen =>
      have hinited : row.status = .userInited := by
        by_contra hne
        exact hopen (.inl hne)
      rw [hinited]
      cases hnext
      split
      · exact ⟨by decide, fun heq => nomatch heq⟩
      · exact ⟨by decide, fun heq => nomatch heq⟩
  | graphEndorsed endorsed =>
    dsimp only [decideEvent] at h
    split at h
    · cases h
    · cases h
      unfold decideGraphEndorsed at hnext
      split at hnext
      next hpresign =>
        cases hnext
        rw [hpresign.1]
        exact ⟨by decide, fun heq => nomatch heq⟩
      next => cases hnext
  | l2Minted txHash =>
    cases h
    unfold decideL2Minted at hnext
    split at hnext
    · cases hnext
    next hlive =>
      split at hnext
      · cases hnext
        refine ⟨⟨fun _ _ => ?_, fun hfailed => absurd hfailed hlive, fun _ => rfl⟩,
          fun heq => nomatch heq⟩
        cases hstatus : row.status <;> rw [hstatus] at hlive <;> revert hlive <;> decide
      · cases hnext

section Steps

variable {peginTxids : InstanceRow → Option (Bytes × Bytes × Bytes)} {deadlines : PeginDeadlines}
  {instances : InstanceTable} {instanceId : Uuid}

theorem find?_updateInstance (instances : InstanceTable) (update : InstanceUpdate) (now : Int)
    (instanceId : Uuid) :
    (updateInstance instances update now).1.find? instanceId =
      (instances.find? instanceId).map fun row =>
        if update.hasUpdates = true ∧ update.admits row = true then update.set now row
          else row := by
  unfold updateInstance
  split
  next hnone =>
    have hid : (fun row : InstanceRow =>
        if update.hasUpdates = true ∧ update.admits row = true then update.set now row
          else row) = id := by
      funext row
      rw [if_neg (by simp [hnone])]
      rfl
    rw [hid, Option.map_id]
    rfl
  next hsome =>
    have hupdates : update.hasUpdates = true := by simpa using hsome
    rw [Table.find?_update (by intro _; rfl)]
    congr 1
    funext row
    simp only [hupdates, true_and]

theorem transitionUpdate_writes (row : InstanceRow) (next : InstanceBridgeInStatus)
    (transition : Transition) :
    (transitionUpdate peginTxids row next transition).status = some next ∧
      (transitionUpdate peginTxids row next transition).btcHeight = transition.prepareHeight ∧
      (transitionUpdate peginTxids row next transition).instanceId = row.instanceId := by
  unfold transitionUpdate
  repeat' split
  all_goals exact ⟨rfl, rfl, rfl⟩

variable {row : InstanceRow}

/-- What a commit does to the row of its instance: it keeps the status, or it writes the one decided
on together with the height of the Prepare. -/
theorem find?_commit {transition : Transition} {now : Int} {committed : InstanceTable}
    (hrow : instances.find? row.instanceId = some row)
    (h : commit peginTxids instances row transition now = some committed) :
    ∃ row', committed.find? row.instanceId = some row' ∧ (row'.status = row.status ∨
        (transition.next = some row'.status ∧
          row'.btcHeight = transition.prepareHeight.getD row.btcHeight)) := by
  unfold commit at h
  split at h
  next next hnext =>
    obtain ⟨hnext, -⟩ := Option.filter_eq_some_iff.mp hnext
    dsimp only at h
    split at h
    · cases h
      rw [find?_updateInstance, hrow]
      refine ⟨_, rfl, ?_⟩
      obtain ⟨hstatus, hheight, -⟩ := transitionUpdate_writes row next transition
      dsimp only
      split
      · right
        unfold InstanceUpdate.set
        rw [hstatus, hheight]
        exact ⟨hnext, rfl⟩
      · exact .inl rfl
    · cases h
  next =>
    split at h
    · cases h
      rw [find?_updateInstance, hrow]
      refine ⟨_, rfl, .inl ?_⟩
      dsimp only
      split <;> rfl
    · cases h
      exact ⟨row, hrow, .inl rfl⟩

theorem find?_commit_of_ne {transition : Transition} {now : Int} {committed : InstanceTable}
    (hne : instanceId ≠ row.instanceId)
    (h : commit peginTxids instances row transition now = some committed) :
    committed.find? instanceId = instances.find? instanceId := by
  have hother (update : InstanceUpdate) (hid : update.instanceId = row.instanceId) :
      (updateInstance instances update now).1.find? instanceId = instances.find? instanceId := by
    rw [find?_updateInstance]
    cases hfind : instances.find? instanceId with
    | none => rfl
    | some other =>
      have hkey : other.instanceId = instanceId := Table.key_of_find? hfind
      have hnot : ¬ update.admits other = true := by
        unfold InstanceUpdate.admits
        rw [hkey, hid]
        simp [hne]
      rw [Option.map_some, if_neg (fun hand => hnot hand.2)]
  unfold commit at h
  split at h
  next next _ =>
    dsimp only at h
    split at h
    · cases h
      exact hother _ (transitionUpdate_writes row next transition).2.2
    · cases h
  next =>
    split at h
    · cases h
      exact hother _ rfl
    · cases h
      rfl

/-- The event decides on the status of `row'`, and the commit records the height that belongs to
it. -/
def Decides (deadlines : PeginDeadlines) (row : InstanceRow) (event : InstanceEvent)
    (row' : InstanceRow) : Prop :=
  ∃ transition, decideEvent deadlines row event = some transition ∧
    transition.next = some row'.status ∧
    row'.btcHeight = transition.prepareHeight.getD row.btcHeight

variable (peginTxids deadlines) in
/-- An event either leaves the status of a stored row as it is, or it is an event of this row that
decided on the new status. -/
theorem find?_applyEvent (hrow : instances.find? instanceId = some row) (target : Uuid)
    (event : InstanceEvent) (now : Int) :
    ∃ row', (applyEvent peginTxids deadlines instances target event now).find? instanceId =
      some row' ∧
      (row'.status = row.status ∨ (target = instanceId ∧ Decides deadlines row event row')) := by
  unfold applyEvent
  split
  · exact ⟨row, hrow, .inl rfl⟩
  next read hread =>
    split
    · exact ⟨row, hrow, .inl rfl⟩
    next transition hdecide =>
      cases hcommit : commit peginTxids instances read transition now with
      | none => exact ⟨row, hrow, .inl rfl⟩
      | some committed =>
        rw [Option.getD_some]
        have hkey : read.instanceId = target := Table.key_of_find? hread
        by_cases htarget : target = instanceId
        · -- the row that was read is the stored one
          subst htarget
          cases hrow.symm.trans hread
          rw [← hkey] at hrow ⊢
          obtain ⟨row', hrow', hcases⟩ := find?_commit hrow hcommit
          refine ⟨row', hrow', ?_⟩
          rcases hcases with hsame | ⟨hnext, hheight⟩
          · exact .inl hsame
          · exact .inr ⟨rfl, transition, hdecide, hnext, hheight⟩
        · rw [find?_commit_of_ne (by rw [hkey]; exact fun h => htarget h.symm) hcommit]
          exact ⟨row, hrow, .inl rfl⟩

theorem find?_insertInstanceIfAbsent (instances : InstanceTable) (row : InstanceRow)
    (instanceId : Uuid) : (insertInstanceIfAbsent instances row).find? instanceId =
      if instanceId = row.instanceId then
        some ((instances.find? instanceId).getD { row with keyDeleted := false })
      else instances.find? instanceId :=
  Table.find?_insertOrIgnore instances { row with keyDeleted := false } instanceId

theorem find?_insertInstanceIfAbsent_of_some (hrow : instances.find? instanceId = some row)
    (new : InstanceRow) : (insertInstanceIfAbsent instances new).find? instanceId = some row := by
  rw [find?_insertInstanceIfAbsent, hrow]
  split <;> rfl

theorem find?_upsertPeginRequestInstance {request : InstanceRow}
    (hrequest : request.status = .userInited) (hrow : instances.find? instanceId = some row) :
    ∃ row', (upsertPeginRequestInstance instances request).find? instanceId = some row' ∧
      row'.status = row.status := by
  unfold upsertPeginRequestInstance
  split
  · exact ⟨row, find?_insertInstanceIfAbsent_of_some hrow request, rfl⟩
  · rw [Table.find?_update (by intro _; rfl), hrow]
    refine ⟨_, rfl, ?_⟩
    dsimp only
    split
    next hinited => exact hrequest.trans hinited.2.symm
    next => rfl

variable (peginTxids deadlines) in
theorem find?_lifecycleStep (hrow : instances.find? instanceId = some row) (step : LifecycleStep) :
    ∃ row', (lifecycleStep peginTxids deadlines instances step).find? instanceId = some row' ∧
      (row'.status = row.status ∨
        ∃ event now, step = .apply instanceId event now ∧ Decides deadlines row event row') := by
  cases step with
  | apply target event now =>
    obtain ⟨row', hrow', hsame | ⟨rfl, hdecides⟩⟩ :=
      find?_applyEvent peginTxids deadlines hrow target event now
    · exact ⟨row', hrow', .inl hsame⟩
    · exact ⟨row', hrow', .inr ⟨event, now, rfl, hdecides⟩⟩
  | peginRequest params outsideWindow now =>
    cases outsideWindow with
    | true => exact ⟨row, find?_insertInstanceIfAbsent_of_some hrow _, .inl rfl⟩
    | false =>
      have hrequest : (generateInstance params now).status = .userInited := rfl
      obtain ⟨row', hrow', hsame⟩ := find?_upsertPeginRequestInstance hrequest hrow
      exact ⟨row', hrow', .inl hsame⟩
  | bridgeIn params txHash now => exact ⟨row, find?_insertInstanceIfAbsent_of_some hrow _, .inl rfl⟩
  -- the last three touch other columns only
  | committeeAnswer target address pubkey now =>
    refine ⟨_, (Table.find?_update (by intro _; rfl) instanceId).trans (by rw [hrow]; rfl), .inl ?_⟩
    dsimp only
    split <;> rfl
  | keyDeleted target now =>
    refine ⟨_, (find?_updateInstance instances _ now instanceId).trans (by rw [hrow]; rfl), .inl ?_⟩
    dsimp only
    split <;> rfl
  | parameters target parameters now =>
    refine ⟨_, (Table.find?_update (by intro _; rfl) instanceId).trans (by rw [hrow]; rfl), .inl ?_⟩
    dsimp only
    split <;> rfl

theorem find?_lifecycleStep_of_none (hnone : instances.find? instanceId = none)
    {step : LifecycleStep}
    (h : (lifecycleStep peginTxids deadlines instances step).find? instanceId = some row) :
    row.status = .userInited ∨ row.status = .relayerL2Minted := by
  have hinsert {new : InstanceRow}
      (h : (insertInstanceIfAbsent instances new).find? instanceId = some row) :
        row.status = new.status := by
    rw [find?_insertInstanceIfAbsent, hnone] at h
    split at h
    · cases h
      rfl
    · cases h
  cases step with
  | apply target event now =>
    change (applyEvent peginTxids deadlines instances target event now).find? instanceId =
      some row at h
    unfold applyEvent at h
    split at h
    · cases hnone.symm.trans h
    next read hread =>
      split at h
      · cases hnone.symm.trans h
      next transition _ =>
        cases hcommit : commit peginTxids instances read transition now with
        | none =>
          rw [hcommit, Option.getD_none, hnone] at h
          cases h
        | some committed =>
          have hne : instanceId ≠ read.instanceId := by
            rintro rfl
            rw [Table.key_of_find? hread, hread] at hnone
            cases hnone
          rw [hcommit, Option.getD_some, find?_commit_of_ne hne hcommit, hnone] at h
          cases h
  | peginRequest params outsideWindow now =>
    left
    cases outsideWindow with
    | true => exact hinsert h
    | false =>
      change (upsertPeginRequestInstance instances _).find? instanceId = some row at h
      unfold upsertPeginRequestInstance at h
      split at h
      · exact hinsert h
      · rw [Table.find?_update (by intro _; rfl), hnone] at h
        cases h
  | bridgeIn params txHash now => exact .inr (hinsert h)
  | committeeAnswer target address pubkey now | parameters target parameters now =>
    rw [lifecycleStep, Table.find?_update (by intro _; rfl), hnone] at h
    cases h
  | keyDeleted target now =>
    rw [lifecycleStep, find?_updateInstance, hnone] at h
    cases h

theorem follows_lifecycleRun (hrow : instances.find? instanceId = some row)
    (steps : List LifecycleStep) :
    ∃ row', (lifecycleRun peginTxids deadlines instances steps).find? instanceId = some row' ∧
      Follows row.status row'.status := by
  induction steps generalizing instances row with
  | nil => exact ⟨row, hrow, .refl row.status⟩
  | cons step steps ih =>
    obtain ⟨middle, hmiddle, hmove⟩ := find?_lifecycleStep peginTxids deadlines hrow step
    obtain ⟨row', hrow', hlater⟩ := ih hmiddle
    refine ⟨row', hrow', ?_⟩
    rcases hmove with hsame | ⟨event, now, -, transition, hdecide, hnext, -⟩
    · rw [hsame] at hlater
      exact hlater
    · exact (next_decideEvent hdecide hnext).1.trans hlater

/-- The timeout is entered on a snapshot only, and with the height of the Prepare that is stored
then. -/
theorem abandons_of_timeout {step : LifecycleStep}
    (hbefore : ∀ row, instances.find? instanceId = some row → row.status ≠ .timeout)
    (hrow : (lifecycleStep peginTxids deadlines instances step).find? instanceId = some row)
    (htimeout : row.status = .timeout) :
    ∃ snapshot now, step = .apply instanceId (.btcSnapshot snapshot) now ∧
      snapshot.Abandons deadlines row.btcHeight := by
  cases hstored : instances.find? instanceId with
  | none =>
    rcases find?_lifecycleStep_of_none hstored hrow with hnew |
      hnew <;> (rw [hnew] at htimeout; cases htimeout)
  | some stored =>
    obtain ⟨row', hrow', hmove⟩ := find?_lifecycleStep peginTxids deadlines hstored step
    rw [hrow] at hrow'
    cases hrow'
    rcases hmove with hsame | ⟨event, now, rfl, transition, hdecide, hnext, hheight⟩
    · exact absurd (hsame ▸ htimeout) (hbefore stored hstored)
    · obtain ⟨snapshot, rfl, habandons⟩ := (next_decideEvent hdecide hnext).2 htimeout
      rw [hheight]
      exact ⟨snapshot, now, rfl, habandons⟩

end Steps

/-- In every run of the writers a stored instance keeps to the order of the states, its failure
closes the signing gate for good, and a timeout has the deadline and an invisible Confirm behind
it. -/
theorem pegin_lifecycle (peginTxids : InstanceRow → Option (Bytes × Bytes × Bytes))
    (deadlines : PeginDeadlines) (instances : InstanceTable) (steps : List LifecycleStep)
    (instanceId : Uuid) :
    (∀ row, instances.find? instanceId = some row →
      ∃ row', (lifecycleRun peginTxids deadlines instances steps).find? instanceId = some row' ∧
        Follows row.status row'.status ∧ (row.status.isFailed = true →
          ∀ height, (signingGate (some (row'.status, row'.btcHeight)) height deadlines).isOpen =
            false)) ∧
      ∀ step row', (∀ row, (lifecycleRun peginTxids deadlines instances steps).find? instanceId =
          some row →
          row.status ≠ .timeout) →
        (lifecycleStep peginTxids deadlines (lifecycleRun peginTxids deadlines instances steps)
          step).find? instanceId = some row' →
        row'.status = .timeout →
        ∃ snapshot now, step = .apply instanceId (.btcSnapshot snapshot) now ∧
          snapshot.Abandons deadlines row'.btcHeight := by
  constructor
  · intro row hrow
    obtain ⟨row', hrow', hfollows⟩ := follows_lifecycleRun hrow steps
    refine ⟨row', hrow', hfollows, fun hfailed height => ?_⟩
    simp only [signingGate, if_pos (hfollows.isFailed hfailed)]
    rfl
  · intro step row' hbefore hrow' htimeout
    exact abandons_of_timeout hbefore hrow' htimeout

namespace GivenUp

def deadlines : PeginDeadlines := ⟨60, 6, 32⟩

def params : GenerateInstanceParams where
  instanceId := 1
  network := "regtest"
  fromAddr := "bcrt1q"
  toAddr := "0x01"
  amount := 100000
  fees := []
  inputUtxos := "[]"
  peginRequestTxHash := "0x02"
  peginRequestHeight := 7
  peginTimestamp := 10
  userXonlyPubkey := []
  userChangeAddr := "bcrt1q"
  userRefundAddr := "bcrt1q"

def prepared : LifecycleStep :=
  .apply 1 (.btcSnapshot ⟨1001, some ⟨true, some 1000, false⟩, none, none, none⟩) 30

def silent : LifecycleStep :=
  .apply 1 (.btcSnapshot ⟨1066, none, some ⟨false, none, false⟩, none, none⟩) 40

def signing : List LifecycleStep := [.peginRequest params false 20, prepared]

def txids (_ : InstanceRow) : Option (Bytes × Bytes × Bytes) := none

def statusAfter (steps : List LifecycleStep) : Option (InstanceBridgeInStatus × Int) :=
  ((lifecycleRun txids deadlines .empty steps).find? 1).map fun row => (row.status, row.btcHeight)

/-- At the height 1066 the instance is given up, and it stays so when the mint is reported. -/
theorem stays_given_up :
    (∃ row', (lifecycleRun txids deadlines
        (lifecycleRun txids deadlines .empty (signing ++ [silent]))
        [.apply 1 (.l2Minted "0x03") 50]).find? 1 = some row' ∧ Follows .timeout row'.status ∧
        ∀ height, (signingGate (some (row'.status, row'.btcHeight)) height deadlines).isOpen =
          false) ∧
      ∃ snapshot now, silent = .apply 1 (.btcSnapshot snapshot) now ∧
        snapshot.Abandons deadlines 1000 := by
  constructor
  · have hstatus : statusAfter (signing ++ [silent]) = some (.timeout, 1000) := by decide +kernel
    obtain ⟨row, hrow, hpair⟩ := Option.map_eq_some_iff.mp hstatus
    obtain ⟨htimeout, -⟩ := Prod.mk.inj hpair
    obtain ⟨row', hrow', hfollows, hgate⟩ := (pegin_lifecycle txids deadlines
      (lifecycleRun txids deadlines .empty (signing ++ [silent]))
        [.apply 1 (.l2Minted "0x03") 50] 1).1
      row hrow
    rw [htimeout] at hfollows hgate
    exact ⟨row', hrow', hfollows, hgate rfl⟩
  · have hbefore : statusAfter signing = some (.userBroadcastPeginPrepare, 1000) := by
      decide +kernel
    have hafter : statusAfter (signing ++ [silent]) = some (.timeout, 1000) := by decide +kernel
    obtain ⟨before, hrow, hpair⟩ := Option.map_eq_some_iff.mp hbefore
    obtain ⟨after, hrow', hpair'⟩ := Option.map_eq_some_iff.mp hafter
    obtain ⟨hsigning, -⟩ := Prod.mk.inj hpair
    obtain ⟨htimeout, hheight⟩ := Prod.mk.inj hpair'
    rw [← hheight]
    apply (pegin_lifecycle txids deadlines .empty signing 1).2 silent after _ hrow' htimeout
    intro row hread
    cases hrow.symm.trans hread
    rw [hsigning]
    decide

end GivenUp

end BitvmNode.Instance
