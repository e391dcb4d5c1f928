import BitvmNode.Pegout.OperatorPubin

/-!
# The committed inputs do not change

The commitment is only started by a scan that has seen every watchtower connector spent by a
confirmed transaction.
-/

namespace BitvmNode.Pegout

open Reasoning Bitcoin Graphs

section Branches

variable {sha256 : Bytes → Bytes32} {topology : OutputTopology} {reads : Nat → BlockView sha256}
  {wci : Bytes32} {timeoutTxids : List Bytes32}

def ChallengeBranch.ofSpender (timeoutTxids : List Bytes32) (index : Nat) (txid : Bytes32) :
    ChallengeBranch :=
  if timeoutTxids[index]? = some txid then ⟨none, false, some txid⟩
  else ⟨some (displayTxid txid), true, some txid⟩

@[simp] theorem ChallengeBranch.ofSpender_resolved (index : Nat) (txid : Bytes32) :
    (ChallengeBranch.ofSpender timeoutTxids index txid).resolved = some txid := by
  unfold ofSpender
  split <;> rfl

theorem challengeBranch_of_confirmedSpender {index : Nat} {txid : Bytes32}
    (h : ∀ k, (reads k).view.confirmedSpender ⟨wci, topology.watchtowerConnector index⟩ =
      some txid) :
    challengeBranch topology reads wci timeoutTxids index =
      .ok (.ofSpender timeoutTxids index txid) := by
  have hspent : (reads (2 * index)).view.outpointSpentTxid
      ⟨wci, topology.watchtowerConnector index⟩ = some txid :=
    Ledger.spentBy_of_confirmedSpender (h (2 * index))
  have hconf : ((reads (2 * index + 1)).getTxStatus txid).confirmed = true := by
    rw [BlockView.getTxStatus_confirmed]
    exact Ledger.isConfirmed_of_confirmedSpender (h (2 * index + 1))
  unfold challengeBranch ChallengeBranch.ofSpender
  simp only [hspent, hconf, Bool.true_eq_false, if_false]
  split <;> rfl

def resolvedInfo (timeoutTxids : List Bytes32) (branch : Nat → Bytes32) (num : Nat) :
    WatchtowerChallengeInfo :=
  let branches := (List.range num).map fun i => ChallengeBranch.ofSpender timeoutTxids i (branch i)
  ⟨branches.map (·.challengeTxid), branches.map (·.included), (List.range num).map branch⟩

theorem getWatchtowerChallengeInfo_of_confirmedSpender {num : Nat} {branch : Nat → Bytes32}
    (h : ∀ i < num, ∀ k, (reads k).view.confirmedSpender ⟨wci, topology.watchtowerConnector i⟩ =
      some (branch i)) :
    getWatchtowerChallengeInfo topology reads wci timeoutTxids num =
      .ok (resolvedInfo timeoutTxids branch num) := by
  have hbranches : (List.range num).mapM (challengeBranch topology reads wci timeoutTxids) =
      .ok ((List.range num).map fun i => .ofSpender timeoutTxids i (branch i)) := by
    apply mapM_eq_ok_of_forall₂
    rw [List.forall₂_map_right_iff, List.forall₂_same]
    intro i hi
    exact challengeBranch_of_confirmedSpender (h i (List.mem_range.mp hi))
  have hresolved : ((List.range num).map fun i => ChallengeBranch.ofSpender timeoutTxids i
      (branch i)).filterMap (·.resolved) = (List.range num).map branch := by
    simp
  unfold getWatchtowerChallengeInfo resolvedInfo
  rw [hbranches]
  simp only [bind, Except.bind, hresolved]

end Branches

def IsAnchor {sha256 : Bytes → Bytes32} (btc : BlockView sha256) (txids : List Bytes32)
    (hash : Bytes32) : Prop :=
  ∃ height block, btc.blocks[height]? = some block ∧ block.hash = hash ∧
    (∃ txid ∈ txids, (btc.getTxStatus txid).blockHeight = some height) ∧
    ∀ txid ∈ txids, ∃ below ≤ height, (btc.getTxStatus txid).blockHeight = some below

section Anchors

variable {sha256 : Bytes → Bytes32} {btc : BlockView sha256} {reads : Nat → BlockView sha256}
  {txids : List Bytes32} {hash : Bytes32}

theorem IsAnchor.unique {txids' : List Bytes32} {hash' : Bytes32} (h : IsAnchor btc txids hash)
    (h' : IsAnchor btc txids' hash') (hsame : ∀ txid, txid ∈ txids ↔ txid ∈ txids') :
    hash = hash' := by
  obtain ⟨height, block, hblock, rfl, ⟨txid, htxid, hheight⟩, hmax⟩ := h
  obtain ⟨height', block', hblock', rfl, ⟨txid', htxid', hheight'⟩, hmax'⟩ := h'
  obtain ⟨below, hbelow, hstatus⟩ := hmax txid' ((hsame txid').mpr htxid')
  obtain ⟨below', hbelow', hstatus'⟩ := hmax' txid ((hsame txid).mp htxid)
  rw [hheight'] at hstatus
  rw [hheight] at hstatus'
  have hle : height' ≤ height := by
    rw [Option.some.inj hstatus]
    exact hbelow
  have hge : height ≤ height' := by
    rw [Option.some.inj hstatus']
    exact hbelow'
  have heq : height = height' := Nat.le_antisymm hge hle
  rw [heq, hblock'] at hblock
  exact congrArg Block.hash (Option.some.inj hblock).symm

def Highest (btc : BlockView sha256) (seen : List Bytes32) : Option (Nat × Bytes32) → Prop
  | none => seen = []
  | some (height, hash) =>
      (∃ block, btc.blocks[height]? = some block ∧ block.hash = hash) ∧
      (∃ txid ∈ seen, (btc.getTxStatus txid).blockHeight = some height) ∧
      ∀ txid ∈ seen, ∃ below ≤ height, (btc.getTxStatus txid).blockHeight = some below

theorem Highest.snoc {seen : List Bytes32} {largest : Option (Nat × Bytes32)} {txid : Bytes32}
    {height : Nat} (h : Highest btc seen largest)
    (hstatus : btc.getTxStatus txid = ⟨true, some height, some hash⟩) :
    Highest btc (seen ++ [txid]) (if largest.all fun (h, _) => h < height then some (height, hash)
      else largest) := by
  have hconf : (btc.getTxStatus txid).confirmed = true := by rw [hstatus]
  obtain ⟨block, height', hblock, hstatus'⟩ := btc.getTxStatus_eq_of_confirmed hconf
  rw [hstatus] at hstatus'
  obtain ⟨-, hheight, hhash⟩ := TxStatus.mk.inj hstatus'
  cases Option.some.inj hheight
  have hnew : (btc.getTxStatus txid).blockHeight = some height := by rw [hstatus]
  cases largest with
  | none =>
    cases (show seen = [] from h)
    refine ⟨⟨block, hblock, (Option.some.inj hhash).symm⟩, ⟨txid, by simp, hnew⟩, ?_⟩
    intro other hother
    cases List.mem_singleton.mp hother
    exact ⟨height, le_refl height, hnew⟩
  | some old =>
    obtain ⟨oldHeight, oldHash⟩ := old
    obtain ⟨hold, ⟨oldTxid, hmem, hat⟩, hmax⟩ := h
    by_cases hlt : oldHeight < height
    · rw [if_pos (by simpa using hlt)]
      refine ⟨⟨block, hblock, (Option.some.inj hhash).symm⟩, ⟨txid, by simp, hnew⟩, ?_⟩
      intro other hother
      rcases List.mem_append.mp hother with hseen | hlast
      · obtain ⟨below, hle, hbelow⟩ := hmax other hseen
        exact ⟨below, by omega, hbelow⟩
      · cases List.mem_singleton.mp hlast
        exact ⟨height, le_refl height, hnew⟩
    · rw [if_neg (by simpa using hlt)]
      refine ⟨hold, ⟨oldTxid, List.mem_append_left _ hmem, hat⟩, ?_⟩
      intro other hother
      rcases List.mem_append.mp hother with hseen | hlast
      · exact hmax other hseen
      · cases List.mem_singleton.mp hlast
        exact ⟨height, by omega, hnew⟩

variable (hplace : ∀ k, ∀ txid ∈ txids, (reads k).getTxStatus txid = btc.getTxStatus txid)

include hplace

theorem highest_of_largestBranch {tipHeight confirms k : Nat} {seen : List Bytes32}
    {largest result : Option (Nat × Bytes32)} (hseen : Highest btc seen largest)
    (h : largestBranch reads tipHeight confirms k largest txids = .ok result) :
    Highest btc (seen ++ txids) result := by
  induction txids generalizing k seen largest with
  | nil =>
    cases h
    rwa [List.append_nil]
  | cons txid rest ih =>
    rw [largestBranch] at h
    dsimp only at h
    split at h
    case h_1 height hash hstatus =>
      rw [hplace k txid List.mem_cons_self] at hstatus
      split at h
      · cases h
      · have hrest := ih (fun k other hother => hplace k other (List.mem_cons_of_mem txid hother))
          (hseen.snoc hstatus) h
        rwa [List.append_assoc] at hrest
    case h_2 => cases h

theorem computeOperatorPubin_spec {confirms : Nat} {bits : List Bool} {bitmap : Bytes32}
    (h : computeOperatorPubinBlockhashAndBitmap reads confirms txids bits = .ok (hash, bitmap)) :
    IsAnchor btc txids hash ∧ bitmap = includedWatchtowersBitmap bits := by
  dsimp only [computeOperatorPubinBlockhashAndBitmap] at h
  split at h
  · cases h
  · cases h
  · rename_i height found hloop
    obtain ⟨rfl, rfl⟩ := Prod.mk.inj (Except.ok.inj h)
    have hnone : Highest btc [] none := rfl
    obtain ⟨⟨block, hblock, hhash⟩, hattained, hmax⟩ := highest_of_largestBranch hplace hnone hloop
    exact ⟨⟨height, block, hblock, hhash, hattained, hmax⟩, rfl⟩

end Anchors

section Scan

variable {sha256 : Bytes → Bytes32} {topology : OutputTopology} {reads : Nat → BlockView sha256}
  {timelocks : FlowTimelocks} {height : Int} {row : GraphTxids} {monitor : GraphBtcTxVoutMonitor}
  {wciTxid : Bytes32} {connectorFSpent : Option Bytes32}

def SeenResolved (topology : OutputTopology) (reads : Nat → BlockView sha256) (wciTxid : Bytes32)
    (index : Nat) : Prop :=
  ∃ txid, (reads (2 + 4 * index)).view.outpointSpentTxid ⟨wciTxid,
    topology.watchtowerConnector index⟩ = some txid ∧
      ((reads (4 + 4 * index)).getTxStatus txid).confirmed = true

variable {state : FlowState} {index : Nat}

theorem flowBranch_allResolved
    (h : (flowBranch topology reads timelocks height row monitor wciTxid connectorFSpent state
      index).allResolved = true) :
    state.allResolved = true ∧ SeenResolved topology reads wciTxid index := by
  unfold flowBranch at h
  cases hspent : (reads (2 + 4 * index)).view.outpointSpentTxid
      ⟨wciTxid, topology.watchtowerConnector index⟩ with
  | none =>
    rw [hspent] at h
    cases h
  | some txid =>
    rw [hspent] at h
    cases hconf : ((reads (4 + 4 * index)).getTxStatus txid).confirmed with
    | false =>
      simp only [Option.any_some, hconf, if_true] at h
      cases h
    | true =>
      refine ⟨?_, txid, hspent, hconf⟩
      simp only [Option.any_some, hconf, Bool.true_eq_false, if_false] at h
      split at h
      · split at h
        · cases h
        · exact h
      · exact h

theorem flowBranch_signals
    (h : .operatorCommitPubinReady ∈ (flowBranch topology reads timelocks height row monitor wciTxid
      connectorFSpent state index).signals) :
    .operatorCommitPubinReady ∈ state.signals := by
  dsimp only [flowBranch] at h
  split at h
  · split at h
    · exact h
    · split at h
      · have hchallenge : PegoutSignal.operatorCommitPubinReady ∈
            state.signals ++ [.watchtowerChallengeSent index] := by
          split at h
          · exact h
          · exact h
        simpa using hchallenge
      · exact h
  · exact h

theorem foldl_flowBranch_spec {indices : List Nat} {result : FlowState}
    (hresult : indices.foldl (flowBranch topology reads timelocks height row monitor wciTxid
      connectorFSpent) state = result) :
    (result.allResolved = true → state.allResolved = true ∧
      ∀ i ∈ indices, SeenResolved topology reads wciTxid i) ∧
    (.operatorCommitPubinReady ∈ result.signals → .operatorCommitPubinReady ∈ state.signals) := by
  induction indices generalizing state with
  | nil =>
    cases hresult
    exact ⟨fun h => ⟨h, by simp⟩, fun h => h⟩
  | cons index rest ih =>
    obtain ⟨hresolved, hsignals⟩ := ih hresult
    refine ⟨fun h => ?_, fun h => flowBranch_signals (hsignals h)⟩
    obtain ⟨hstep, hrest⟩ := hresolved h
    obtain ⟨hstate, hindex⟩ := flowBranch_allResolved hstep
    exact ⟨hstate, List.forall_mem_cons.mpr ⟨hindex, hrest⟩⟩

theorem seenResolved_of_ready {watchtowerNum : Nat → Nat}
    (hwci : row.watchtowerChallengeInitTxid = some wciTxid)
    (h : .operatorCommitPubinReady ∈ watchtowerFlow topology reads timelocks height row
      watchtowerNum
      (some monitor)) (hindex : index < watchtowerNum monitor.voutLen.toNat) :
    SeenResolved topology reads wciTxid index := by
  unfold watchtowerFlow at h
  rw [hwci] at h
  dsimp only at h
  have hnum : watchtowerNum monitor.voutLen.toNat ≠ 0 := by omega
  rw [if_neg hnum] at h
  generalize hstate : (List.range (watchtowerNum monitor.voutLen.toNat)).foldl _ _ = state at h
  obtain ⟨hresolved, hsignals⟩ := foldl_flowBranch_spec hstate
  have hall : state.allResolved = true := by
    rw [List.mem_append, List.mem_append, List.mem_append, List.mem_append] at h
    rcases h with (((hloop | htimeout) | hnack) | hready) | hassert
    · simpa using hsignals hloop
    · split at htimeout <;> simp at htimeout
    · simp at hnack
    · split at hready
      · rename_i hcond
        exact hcond.1
      · simp at hready
    · split at hassert <;> simp at hassert
  exact (hresolved hall).2 index (List.mem_range.mpr hindex)

end Scan

theorem routeSignal_eq_commitPubin {signal : PegoutSignal} {actor : Actor} {relayer own : Bool}
    (h : routeSignal signal actor relayer own = some jobCommitPubin) :
    signal = .operatorCommitPubinReady := by
  dsimp only [routeSignal] at h
  split at h
  all_goals first
    | rfl
    | (exfalso; revert h; decide)
    | (exfalso; split at h <;> revert h <;> decide)

section Commitment

variable {sha256 : Bytes → Bytes32} {topology : OutputTopology} {timeline : Timeline sha256}
  {host : CommitHost} {confirms : Nat} {g : BitvmGcGraph} {row : GraphTxids} {hash bitmap : Bytes32}

/-- The connectors of all watchtowers are spent by these confirmed transactions from moment `t`
on. -/
def ResolvedFrom (timeline : Timeline sha256) (topology : OutputTopology) (g : BitvmGcGraph)
    (branch : Nat → Bytes32) (t : Nat) : Prop :=
  ∀ i < g.watchtowerNum,
    (timeline.moment t).view.confirmedSpender (g.watchtowerConnector sha256 topology i) =
      some (branch i)

variable {branch : Nat → Bytes32} {t : Nat}

theorem ResolvedFrom.at {t' : Nat} (h : ResolvedFrom timeline topology g branch t) (hle : t ≤ t') :
    ResolvedFrom timeline topology g branch t' :=
  fun i hi => (timeline.extends_of_le hle).confirmedSpender (h i hi)

theorem ResolvedFrom.place {t' : Nat} (h : ResolvedFrom timeline topology g branch t) (hle : t ≤ t')
    {txid : Bytes32} (htxid : txid ∈ (List.range g.watchtowerNum).map branch) :
    (timeline.moment t').getTxStatus txid = (timeline.moment t).getTxStatus txid := by
  obtain ⟨i, hi, rfl⟩ := List.mem_map.mp htxid
  exact timeline.getTxStatus_eq hle
    (Ledger.isConfirmed_of_confirmedSpender (h i (List.mem_range.mp hi)))

theorem exists_resolvedFrom {timelocks : FlowTimelocks} {height : Int}
    {monitor : GraphBtcTxVoutMonitor} {watchtowerNum : Nat → Nat} {scan : Nat → Nat}
    (hrow : row.watchtowerChallengeInitTxid =
      some (g.watchtowerChallengeInit.tx.computeTxid sha256))
    (hmonitor : watchtowerNum monitor.voutLen.toNat = g.watchtowerNum) (hscan : ∀ k, scan k ≤ t)
    (hready : .operatorCommitPubinReady ∈ watchtowerFlow topology (timeline.moment ∘ scan) timelocks
      height row watchtowerNum (some monitor)) :
    ∃ branch, ResolvedFrom timeline topology g branch t := by
  have hbranch : ∀ i, ∃ txid, i < g.watchtowerNum →
      (timeline.moment t).view.confirmedSpender (g.watchtowerConnector sha256 topology i) =
        some txid := by
    intro i
    by_cases hi : i < g.watchtowerNum
    · obtain ⟨txid, hspent, hconf⟩ := seenResolved_of_ready hrow hready (hmonitor ▸ hi)
      rw [BlockView.getTxStatus_confirmed] at hconf
      have hspender := timeline.confirmedSpender_of_spentBy hspent hconf
      exact ⟨txid, fun _ => (timeline.extends_of_le (hscan (4 + 4 * i))).confirmedSpender hspender⟩
    · exact ⟨zero32, fun h => absurd h hi⟩
  choose branch hspender using hbranch
  exact ⟨branch, hspender⟩

theorem computed_of_resolved {reads : Nat → Nat} (h : ResolvedFrom timeline topology g branch t)
    (hreads : ∀ k, t ≤ reads k) {txids : List Bytes32}
    (hperm : txids.Perm ((List.range g.watchtowerNum).map branch))
    {bits : List Bool} (hok : computeOperatorPubinBlockhashAndBitmap
      (fun k => timeline.moment (reads k)) confirms txids
      bits = .ok (hash, bitmap)) :
    IsAnchor (timeline.moment t) txids hash ∧ bitmap = includedWatchtowersBitmap bits := by
  apply computeOperatorPubin_spec _ hok
  intro k txid htxid
  exact h.place (hreads k) (hperm.mem_iff.mp htxid)

theorem info_of_resolved {reads : Nat → Nat} (h : ResolvedFrom timeline topology g branch t)
    (hreads : ∀ k, t ≤ reads k) (timeoutTxids : List Bytes32) :
    getWatchtowerChallengeInfo topology (fun k => timeline.moment (reads k))
      (g.watchtowerChallengeInit.tx.computeTxid sha256) timeoutTxids g.watchtowerNum =
        .ok (resolvedInfo timeoutTxids branch g.watchtowerNum) :=
  getWatchtowerChallengeInfo_of_confirmedSpender fun i hi k => h.at (hreads k) i hi

theorem commitPubin_committed {reads : Nat → BlockView sha256}
    (h : (commitPubin topology reads host confirms g).committed = some (hash, bitmap)) :
    ∃ info tx, getWatchtowerChallengeInfo topology (fun k => reads (k + 2))
        (g.watchtowerChallengeInit.tx.computeTxid sha256) (g.timeoutTxids sha256) g.watchtowerNum =
          .ok info ∧
      computeOperatorPubinBlockhashAndBitmap (fun k => reads (k + 2 + 2 * g.watchtowerNum)) confirms
        info.resolvedBranchTxids info.includedWatchtowers = .ok (hash, bitmap) ∧
      host.commit g (buildOperatorGuestPubin hash host.pubinDisproveConstant bitmap) = .ok tx ∧
      (commitPubin topology reads host confirms g).step.broadcast = [tx] := by
  dsimp only [commitPubin] at h ⊢
  split at h
  · cases h
  · split at h
    · cases h
    · rename_i info hinfo
      split at h
      · cases h
      · rename_i hash' bitmap' hinputs
        split at h
        · cases h
        · rename_i tx htx
          obtain ⟨rfl, rfl⟩ := Prod.mk.inj (Option.some.inj h)
          exact ⟨info, tx, hinfo, hinputs, htx, rfl⟩

end Commitment

/-- The committed block hash and bitmap are final: when the operator commits, every watchtower
connector is spent by a confirmed transaction, and what is computed afterwards on a chain without
reorganisation is the same or nothing, in whatever order the branches are looked at. -/
theorem committed_inputs_stable {sha256 : Bytes → Bytes32} (topology : OutputTopology)
    (timeline : Timeline sha256) (g : BitvmGcGraph) (row : GraphTxids)
    (hrow : row.watchtowerChallengeInitTxid =
      some (g.watchtowerChallengeInit.tx.computeTxid sha256))
    (watchtowerNum : Nat → Nat) (monitor : GraphBtcTxVoutMonitor)
    (hmonitor : watchtowerNum monitor.voutLen.toNat = g.watchtowerNum)
    (scan commit later : Nat → Nat) (hmono : Monotone commit)
    (hqueued : ∀ i j, scan i ≤ commit j) (hlater : ∀ i j, commit i ≤ later j)
    (timelocks : FlowTimelocks) (height : Int) (signal : PegoutSignal) (actor : Actor)
    (relayer own : Bool)
    (hsignal : signal ∈ watchtowerFlow topology (timeline.moment ∘ scan) timelocks height row
      watchtowerNum (some monitor))
    (hrouted : routeSignal signal actor relayer own = some jobCommitPubin)
    (host : CommitHost) (confirms : Nat) (hash bitmap : Bytes32)
    (hcommitted : (commitPubin topology (timeline.moment ∘ commit) host confirms g).committed =
      some (hash, bitmap)) :
    (∀ i < g.watchtowerNum, ∃ txid, (timeline.moment (commit 0)).view.confirmedSpender
      (g.watchtowerConnector sha256 topology i) = some txid) ∧
    (∀ confirms' hash' bitmap', operatorProofInputs topology (timeline.moment ∘ later)
        confirms' row g =
      .ok (hash', bitmap') → hash' = hash ∧ bitmap' = bitmap) ∧
    ∃ info, getWatchtowerChallengeInfo topology (fun k => timeline.moment (commit (k + 2)))
        (g.watchtowerChallengeInit.tx.computeTxid sha256) (g.timeoutTxids sha256) g.watchtowerNum =
          .ok info ∧
      IsAnchor (timeline.moment (commit 0)) info.resolvedBranchTxids hash ∧
      ∀ txids, txids.Perm info.resolvedBranchTxids → ∀ confirms' hash' bitmap',
        computeOperatorPubinBlockhashAndBitmap (timeline.moment ∘ later) confirms' txids
          info.includedWatchtowers = .ok (hash', bitmap') → hash' = hash ∧ bitmap' = bitmap := by
  have hready := routeSignal_eq_commitPubin hrouted
  subst hready
  obtain ⟨branch, hbranch⟩ := exists_resolvedFrom hrow hmonitor (fun k => hqueued k 0) hsignal
  have hcommit : ∀ k, commit 0 ≤ commit k := fun k => hmono (Nat.zero_le k)
  obtain ⟨info, tx, hinfo, hinputs, -, -⟩ := commitPubin_committed hcommitted
  have hresolved := info_of_resolved hbranch (fun k => hcommit (k + 2)) (g.timeoutTxids sha256)
  have heq := Except.ok.inj (hinfo.symm.trans hresolved)
  subst heq
  obtain ⟨hanchor, hbitmap⟩ := computed_of_resolved hbranch
    (fun k => hcommit (k + 2 + 2 * g.watchtowerNum)) (List.Perm.refl _) hinputs
  -- whatever is computed from these branches later gives the same two values
  have hsame : ∀ offset txids, txids.Perm ((List.range g.watchtowerNum).map branch) →
      ∀ confirms' hash' bitmap',
      computeOperatorPubinBlockhashAndBitmap
        (fun k => timeline.moment (later (k + offset))) confirms'
        txids (resolvedInfo (g.timeoutTxids sha256) branch g.watchtowerNum).includedWatchtowers =
          .ok (hash', bitmap') → hash' = hash ∧ bitmap' = bitmap := by
    intro offset txids hperm confirms' hash' bitmap' hok
    obtain ⟨hanchor', hbitmap'⟩ :=
      computed_of_resolved hbranch (fun k => hlater 0 (k + offset)) hperm hok
    exact ⟨hanchor'.unique hanchor fun txid => hperm.mem_iff, hbitmap'.trans hbitmap.symm⟩
  refine ⟨fun i hi => ⟨branch i, hbranch i hi⟩, ?_, _, hinfo, hanchor,
    fun txids hperm => hsame 0 txids hperm⟩
  intro confirms' hash' bitmap' hok
  have hlaterInfo := info_of_resolved hbranch (hlater 0) (g.timeoutTxids sha256)
  unfold operatorProofInputs at hok
  rw [hrow] at hok
  dsimp only at hok
  split at hok
  · cases hok
  · rename_i info' hinfo'
    have heq := Except.ok.inj (hinfo'.symm.trans hlaterInfo)
    subst heq
    exact hsame _ _ (List.Perm.refl _) confirms' hash' bitmap' hok

namespace Smallest

def timeoutTx : Transaction :=
  (spending [⟨txid watchtowerChallengeInit, 0⟩, ⟨txid watchtowerChallengeInit, 1⟩] []).tx

def timedOutBlocks : List Block :=
  [⟨beBytes32 0, [graph.curPrekickoff.tx, graph.kickoff.tx, graph.watchtowerChallengeInit.tx]⟩,
    ⟨beBytes32 1, [timeoutTx]⟩, ⟨beBytes32 2, []⟩]

def timedOutView : BlockView hash where
  blocks := timedOutBlocks
  view := Ledger.ofDistinct graph.transactions (timedOutBlocks.flatMap Block.txs) [] graph.distinct
    (by decide +kernel) (by decide +kernel)
  confirmed_eq := rfl

def timedOut : Timeline hash where
  moment _ := timedOutView
  noReorg _ _ _ := List.prefix_rfl
  collisionFree _ _ t ht u hu h := timedOutView.view.collisionFree t
    (List.mem_append_left _ ht) u (List.mem_append_left _ hu) h

def timedOutRow : GraphTxids :=
  ⟨some (graph.watchtowerChallengeInit.tx.computeTxid hash), graph.timeoutTxids hash, none, none⟩

def commitHost : CommitHost := ⟨zero32, fun _ _ => .ok timeoutTx⟩

theorem timedOut_inputs_stable :
    (∀ i < graph.watchtowerNum, ∃ txid, (timedOut.moment 0).view.confirmedSpender
      (graph.watchtowerConnector hash topology i) = some txid) ∧
    (∀ confirms' hash' bitmap', operatorProofInputs topology
        (timedOut.moment ∘ fun _ => 0) confirms'
      timedOutRow graph.toBitvmGcGraph = .ok (hash', bitmap') → hash' = beBytes32 1 ∧
      bitmap' = zero32) ∧
    ∃ info, getWatchtowerChallengeInfo topology (fun _ => timedOut.moment 0)
        (graph.watchtowerChallengeInit.tx.computeTxid hash) (graph.timeoutTxids hash)
          graph.watchtowerNum = .ok info ∧
      IsAnchor (timedOut.moment 0) info.resolvedBranchTxids (beBytes32 1) ∧
      ∀ txids, txids.Perm info.resolvedBranchTxids → ∀ confirms' hash' bitmap',
        computeOperatorPubinBlockhashAndBitmap (timedOut.moment ∘ fun _ => 0) confirms' txids
          info.includedWatchtowers = .ok (hash', bitmap') → hash' = beBytes32 1 ∧
          bitmap' = zero32 :=
  committed_inputs_stable topology timedOut graph.toBitvmGcGraph timedOutRow rfl
    (fun outputs => (outputs - 2) / 2) ⟨1, 4⟩ (by decide) (fun _ => 0) (fun _ => 0) (fun _ => 0)
    (fun _ _ _ => le_refl 0) (fun _ _ => le_refl 0) (fun _ _ => le_refl 0) ⟨10, 10, 10⟩ 5
    .operatorCommitPubinReady .operator false true (by decide +kernel) (by decide) commitHost 0
    (beBytes32 1) zero32 (by decide +kernel)

end Smallest

end BitvmNode.Pegout
