import Mathlib.Algebra.Order.BigOperators.Group.List
import BitvmNode.Reasoning.Runs
import BitvmNode.EventWatch.Settlements

/-!
# What the rewards of the nodes add up to

A settlement is one for each instance, graph and kind.  The record of the settlement keeps a replay
from paying twice.
-/

namespace BitvmNode.EventWatch

open Reasoning Signing Engine Graphs

structure Settlement (Address : Type) where
  (instanceId graphId : Uuid)
  txType : GoatTxType
  payouts : List (Address × Nat)

def Settlement.key {Address : Type} (settlement : Settlement Address) : Uuid × Uuid × GoatTxType :=
  (settlement.instanceId, settlement.graphId, settlement.txType)

section Spec

variable (texts : GoatTexts) (reals : SqlReals) (s : WatchState)

def settles (instanceId graphId : Uuid) (status : GraphStatus) (now : Int) : Prop :=
  graphBelongsToInstance s.graphs instanceId graphId ∧
    ((applyGatewayGraphStatus s.graphs instanceId graphId status now).2 = .applied ∨
      (applyGatewayGraphStatus s.graphs instanceId graphId status now).2 = .alreadyCurrent)

instance (s : WatchState) (instanceId graphId : Uuid) (status : GraphStatus) (now : Int) :
    Decidable (settles s instanceId graphId status now) := inferInstanceAs (Decidable (_ ∧ _))

def appliedPaths (now : Int) (s : WatchState)
    (paths : WithdrawPathsEvent) : Option (Settlement texts.Address) := do
  let graphId ← texts.uuidFromStr (stripHexPrefixOwned paths.event.graphId)
  let instanceId ← texts.uuidFromStr (stripHexPrefixOwned paths.event.instanceId)
  let operator ← texts.addressFromStr paths.event.operatorAddr
  guard (settles s instanceId graphId paths.status now)
  some ⟨instanceId, graphId, paths.txType, [(operator, rewardAmount paths.event.rewardAmountSats)]⟩

def appliedDisproved (now : Int) (s : WatchState) (event : WithdrawDisprovedEvent) :
    Option (Settlement texts.Address) := do
  let graphId ← texts.uuidFromStr (stripHexPrefixOwned event.graphId)
  let instanceId ← texts.uuidFromStr (stripHexPrefixOwned event.instanceId)
  let challenger ← texts.addressFromStr event.challengerAddr
  let disprover ← texts.addressFromStr event.disproverAddr
  guard (settles s instanceId graphId .disprove now)
  some ⟨instanceId, graphId, .withdrawDisproved,
    [(challenger, rewardAmount event.challengerAmountSats),
      (disprover, rewardAmount event.disproverAmountSats)]⟩

def settlementsAlong {E : Type} (handle : WatchState → E → Except String WatchState)
    (applied : WatchState → E → Option (Settlement texts.Address)) :
    WatchState → List E → List (Settlement texts.Address)
  | _, [] => []
  | s, event :: events =>
      match handle s event with
      | .ok s' => (applied s event).toList ++ settlementsAlong handle applied s' events
      | .error _ => []

def batchSettlements (batch : SettlementBatch) : List (Settlement texts.Address) :=
  match handleWithdrawPathsEvents texts reals batch.now s batch.withdrawPathsEvents with
  | .error _ => []
  | .ok s₁ =>
      match handleWithdrawDisprovedEvents texts reals batch.now s₁
        batch.withdrawDisprovedEvents with
      | .error _ => []
      | .ok _ =>
          settlementsAlong texts (handleWithdrawPathsEvent texts reals batch.now)
              (appliedPaths texts batch.now) s batch.withdrawPathsEvents ++
            settlementsAlong texts (handleWithdrawDisprovedEvent texts reals batch.now)
              (appliedDisproved texts batch.now) s₁ batch.withdrawDisprovedEvents

def WatchState.settlements : WatchState → List WatchStep → List (Settlement texts.Address)
  | _, [] => []
  | s, .batch batch :: steps =>
      batchSettlements texts reals s batch ++ WatchState.settlements
        (s.step texts reals (.batch batch)) steps
  | s, .graphs graphs :: steps =>
      WatchState.settlements (s.step texts reals (.graphs graphs)) steps

def recorded (key : Uuid × Uuid × GoatTxType) : Bool := (s.records.find? key).isSome

def distinctSettlements (steps : List WatchStep) : List (Settlement texts.Address) :=
  firsts Settlement.key (recorded s) (s.settlements texts reals steps)

def owed (steps : List WatchStep) (node : Node) : List Nat :=
  (((distinctSettlements texts reals s steps).flatMap Settlement.payouts).filter fun payout =>
    texts.addressFromStr node.goatAddr = some payout.1).map Prod.snd

def storedReward (peerId : String) : Option Nat :=
  (s.nodes.find? peerId).bind fun node => numeral node.reward

end Spec

section Payment

variable {reals : SqlReals}

def credited (reals : SqlReals) (reward : String) (amount : Nat) : String :=
  sqlAdd reals reward (toString (((u256FromStr reward).getD 0 + amount) % 2 ^ 256))

theorem find?_updateNodeRewardByPeerId (nodes : NodeTable) (peerId reward p : String) :
    (updateNodeRewardByPeerId reals nodes peerId reward).find? p = (nodes.find? p).map fun node =>
        if node.peerId = peerId then { node with reward := sqlAdd reals node.reward reward }
          else node :=
  Table.find?_update (by intro _; rfl) p

theorem find?_foldl_updateNodeReward (read : List Node) (amount : Nat) (nodes : NodeTable)
    (hnodup : (read.map Node.peerId).Nodup)
    (hread : ∀ node ∈ read, nodes.find? node.peerId = some node) (p : String) :
    (read.foldl (fun nodes node => updateNodeRewardByPeerId reals nodes node.peerId
        (toString (addedReward node amount))) nodes).find? p =
      (nodes.find? p).map fun node =>
        if node ∈ read then { node with reward := credited reals node.reward amount }
          else node := by
  induction read generalizing nodes with
  | nil => simp
  | cons node read ih =>
    rw [List.map_cons, List.nodup_cons] at hnodup
    have hother : ∀ other ∈ read, other.peerId ≠ node.peerId := fun other hmem heq =>
      hnodup.1 (heq ▸ List.mem_map_of_mem hmem)
    -- the rows still to be written are as they were read
    have hrest : ∀ other ∈ read, (updateNodeRewardByPeerId reals nodes node.peerId
        (toString (addedReward node amount))).find? other.peerId = some other := by
      intro other hmem
      rw [find?_updateNodeRewardByPeerId, hread other (List.mem_cons_of_mem _ hmem),
        Option.map_some, if_neg (hother other hmem)]
    rw [List.foldl_cons, ih _ hnodup.2 hrest, find?_updateNodeRewardByPeerId, Option.map_map]
    cases hp : nodes.find? p with
    | none => rfl
    | some row =>
      have hpeer := Table.key_of_find? hp
      simp only [Option.map_some, Function.comp_apply, Option.some.injEq]
      by_cases hrow : row.peerId = node.peerId
      · have hsame : row = node := by
          have hnode := hread node List.mem_cons_self
          rw [← hrow, hpeer, hp, Option.some.injEq] at hnode
          exact hnode
        subst hsame
        rw [if_pos rfl, if_pos List.mem_cons_self, if_neg]
        · rfl
        · intro hmem
          exact hother _ hmem rfl
      · have hne : row ≠ node := fun h => hrow (h ▸ rfl)
        rw [if_neg hrow]
        simp only [List.mem_cons, hne, false_or]

theorem find?_addNodeReward (nodes : NodeTable) (goatAddr : String) (amount : Nat) (p : String) :
    (addNodeReward reals nodes goatAddr amount).find? p = (nodes.find? p).map fun node =>
        if node.goatAddr = goatAddr then { node with reward := credited reals node.reward amount }
        else node := by
  unfold addNodeReward
  rw [find?_foldl_updateNodeReward]
  · cases hp : nodes.find? p with
    | none => rfl
    | some node =>
      have hmem : node ∈ nodes.rows := (Table.find?_eq_some.mp hp).1
      simp [List.mem_filter, hmem]
  · exact nodes.nodup.sublist (List.filter_sublist.map _)
  · intro node hnode
    exact Table.mem_rows_iff.mp (List.mem_filter.mp hnode).1

end Payment

section Payments

variable {reals : SqlReals} {reward : String} {value : Nat}

theorem credited_of_lt {amount : Nat} (h : numeral reward = some value)
    (hlt : value + (value + amount) < 2 ^ 63) :
    credited reals reward amount = toString (value + (value + amount)) := by
  have hread : u256FromStr reward = some value := u256FromStr_of_numeral h (by omega)
  have hsum : (value + amount) % 2 ^ 256 = value + amount := Nat.mod_eq_of_lt (by omega)
  unfold credited
  rw [hread, Option.getD_some, hsum]
  exact sqlAdd_of_lt h (numeral_toString _) hlt

theorem credited_of_ge {amount : Nat} (h : numeral reward = some value) (hamount : amount < 2 ^ 63)
    (hge : 2 ^ 63 ≤ value + (value + amount)) :
    ∃ r, credited reals reward amount = reals.text r := by
  apply sqlAdd_of_ge h (numeral_toString _)
  by_cases hlarge : value < 2 ^ 63
  · have hread : u256FromStr reward = some value := u256FromStr_of_numeral h (by omega)
    rw [hread, Option.getD_some, Nat.mod_eq_of_lt (by omega)]
    exact hge
  · omega

theorem foldl_credited_text (r : reals.Real) (amounts : List Nat) :
    ∃ r', amounts.foldl (credited reals) (reals.text r) = reals.text r' := by
  induction amounts generalizing r with
  | nil => exact ⟨r, rfl⟩
  | cons amount amounts ih =>
    obtain ⟨r', hr'⟩ := sqlAdd_text r
      (toString (((u256FromStr (reals.text r)).getD 0 + amount) % 2 ^ 256))
    rw [List.foldl_cons]
    unfold credited at ih ⊢
    rw [hr']
    exact ih r'

theorem numeral_foldl_credited_text (r : reals.Real) (amounts : List Nat) :
    numeral (amounts.foldl (credited reals) (reals.text r)) = none := by
  obtain ⟨r', hr'⟩ := foldl_credited_text r amounts
  rw [hr']
  exact reals.numeral_text r'

theorem foldl_credited_lt {amounts : List Nat} {total : Nat} (h : numeral reward = some value)
    (hne : amounts ≠ []) (htotal : numeral (amounts.foldl (credited reals) reward) = some total) :
    total < 2 ^ 63 := by
  induction amounts generalizing reward value with
  | nil => exact absurd rfl hne
  | cons amount amounts ih =>
    rw [List.foldl_cons] at htotal
    have hstep : (∃ r, credited reals reward amount = reals.text r) ∨
        ∃ next, next < 2 ^ 63 ∧ credited reals reward amount = toString next := by
      by_cases hlt : value + ((u256FromStr reward).getD 0 + amount) % 2 ^ 256 < 2 ^ 63
      · exact .inr ⟨_, hlt, sqlAdd_of_lt h (numeral_toString _) hlt⟩
      · exact .inl (sqlAdd_of_ge h (numeral_toString _) (by omega))
    rcases hstep with ⟨r, hr⟩ | ⟨next, hlt, hnext⟩
    · rw [hr, numeral_foldl_credited_text] at htotal
      exact nomatch htotal
    · rw [hnext] at htotal
      cases amounts with
      | nil =>
        rw [List.foldl_nil, numeral_toString, Option.some.injEq] at htotal
        omega
      | cons amount' amounts => exact ih (numeral_toString next) (by simp) htotal

theorem le_foldl_credited {amounts : List Nat} (hamounts : ∀ amount ∈ amounts, amount < 2 ^ 63)
    {total : Nat} (h : numeral reward = some value)
    (htotal : numeral (amounts.foldl (credited reals) reward) = some total) :
    value + amounts.sum ≤ total := by
  induction amounts generalizing reward value with
  | nil =>
    rw [List.foldl_nil, h, Option.some.injEq] at htotal
    rw [List.sum_nil]
    omega
  | cons amount amounts ih =>
    rw [List.forall_mem_cons] at hamounts
    rw [List.foldl_cons] at htotal
    rw [List.sum_cons]
    by_cases hlt : value + (value + amount) < 2 ^ 63
    · rw [credited_of_lt h hlt] at htotal
      have hrest := ih hamounts.2 (numeral_toString _) htotal
      omega
    · have hreal : ∃ r, credited reals reward amount = reals.text r :=
        credited_of_ge h hamounts.1 (by omega)
      obtain ⟨r, hr⟩ := hreal
      rw [hr, numeral_foldl_credited_text] at htotal
      exact nomatch htotal

theorem foldl_credited_eq_sum_iff (amounts : List Nat) (h : numeral reward = some value) :
    numeral (amounts.foldl (credited reals) reward) = some (value + amounts.sum) ↔
      amounts = [] ∨ (value = 0 ∧ amounts.dropLast.sum = 0 ∧ amounts.sum < 2 ^ 63) := by
  induction amounts generalizing reward value with
  | nil => simp [h]
  | cons amount amounts ih =>
    rw [List.foldl_cons, List.sum_cons]
    constructor
    · intro htotal
      right
      have hlt : value + (amount + amounts.sum) < 2 ^ 63 :=
        foldl_credited_lt h (List.cons_ne_nil _ _) htotal
      have hle : ∀ a ∈ amounts, a < 2 ^ 63 := fun a ha => by
        have := List.le_sum_of_mem ha
        omega
      by_cases hstep : value + (value + amount) < 2 ^ 63
      · rw [credited_of_lt h hstep] at htotal
        have hbound := le_foldl_credited hle (numeral_toString _) htotal
        -- the old reward is counted once more, so it was zero
        have hzero : value = 0 := by omega
        subst hzero
        have htail : numeral (amounts.foldl (credited reals) (toString (0 + (0 + amount)))) =
            some ((0 + (0 + amount)) + amounts.sum) := by
          rw [htotal]
          congr 1
          omega
        refine ⟨rfl, ?_, by omega⟩
        rcases (ih (numeral_toString _)).mp htail with rfl | ⟨hamount, hrest, -⟩
        · rfl
        · cases amounts with
          | nil => rfl
          | cons amount' amounts =>
            rw [List.dropLast_cons_of_ne_nil (List.cons_ne_nil _ _), List.sum_cons, hrest]
            omega
      · have hreal : ∃ r, credited reals reward amount = reals.text r :=
          credited_of_ge h (by omega) (by omega)
        obtain ⟨r, hr⟩ := hreal
        rw [hr, numeral_foldl_credited_text] at htotal
        exact nomatch htotal
    · rintro (hnil | ⟨rfl, hlast, hsum⟩)
      · exact absurd hnil (List.cons_ne_nil _ _)
      · rw [credited_of_lt h (by omega)]
        have htail : numeral (amounts.foldl (credited reals) (toString (0 + (0 + amount)))) =
            some ((0 + (0 + amount)) + amounts.sum) := by
          apply (ih (numeral_toString _)).mpr
          cases amounts with
          | nil => exact .inl rfl
          | cons amount' amounts =>
            rw [List.dropLast_cons_of_ne_nil (List.cons_ne_nil _ _), List.sum_cons] at hlast
            exact .inr ⟨by omega, by omega, by omega⟩
        rw [htail]
        congr 1
        omega

end Payments

section Events

variable {texts : GoatTexts} {reals : SqlReals}

def payAll (texts : GoatTexts) (reals : SqlReals) (nodes : NodeTable)
    (settlement : Settlement texts.Address) : NodeTable :=
  settlement.payouts.foldl (fun nodes payout =>
    addNodeReward reals nodes (texts.addressToString payout.1) payout.2) nodes

/-- From `s` to `s'` the settlements of `trace` were applied: all are recorded, and those that were
not known before are paid. -/
structure Settled (texts : GoatTexts) (reals : SqlReals) (s : WatchState)
    (trace : List (Settlement texts.Address)) (s' : WatchState) : Prop where
  records : recorded s' = knownAfter Settlement.key (recorded s) trace
  nodes : s'.nodes = (firsts Settlement.key (recorded s) trace).foldl (payAll texts reals) s.nodes

variable {s s' : WatchState}

theorem Settled.refl (hrecords : s'.records = s.records)
    (hnodes : s'.nodes = s.nodes) : Settled texts reals s [] s' := by
  refine ⟨?_, ?_⟩
  · funext key
    simp [recorded, knownAfter, hrecords]
  · exact hnodes

theorem Settled.trans {s₁ s₂ s₃ : WatchState} {first second : List (Settlement texts.Address)}
    (h₁ : Settled texts reals s₁ first s₂) (h₂ : Settled texts reals s₂ second s₃) :
    Settled texts reals s₁ (first ++ second) s₃ := by
  refine ⟨?_, ?_⟩
  · rw [h₂.records, h₁.records, knownAfter_append]
  · rw [h₂.nodes, h₁.nodes, firsts_append, List.foldl_append, h₁.records]

theorem isSome_find?_upsertGoatTxRecord (records : GoatTxTable) (record : GoatTxRecord)
    (key : Uuid × Uuid × GoatTxType) : ((upsertGoatTxRecord records record).find? key).isSome =
      ((records.find? key).isSome || key = record.key) := by
  unfold upsertGoatTxRecord
  by_cases hkey : key = record.key
  · subst hkey
    cases hstored : records.find? record.key with
    | none => simp [Table.find?_insertOrReplace]
    | some stored =>
      have hmerged : (record.mergeStored stored).key = record.key := rfl
      simp [Table.find?_insertOrReplace, hmerged]
  · cases hstored : records.find? record.key with
    | none => simp [Table.find?_insertOrReplace, hkey]
    | some stored =>
      have hmerged : (record.mergeStored stored).key = record.key := rfl
      simp [Table.find?_insertOrReplace, hmerged, hkey]

variable {settlement : Settlement texts.Address}

theorem Settled.single {record : GoatTxRecord} (hkey : record.key = settlement.key)
    (hrecords : s'.records = upsertGoatTxRecord s.records record)
    (hnodes : s'.nodes = if (s.records.find? settlement.key).isNone then
      payAll texts reals s.nodes settlement else s.nodes) :
    Settled texts reals s [settlement] s' := by
  refine ⟨?_, ?_⟩
  · funext key
    simp only [recorded, knownAfter, hrecords, isSome_find?_upsertGoatTxRecord, hkey, List.map_cons,
      List.map_nil, List.mem_singleton]
  · rw [hnodes, firsts, recorded]
    cases hstored : s.records.find? settlement.key with
    | none | some stored => rfl

theorem parseUuid_eq_ok {text : String} {id : Uuid} :
    parseUuid texts text = .ok id ↔ texts.uuidFromStr (stripHexPrefixOwned text) = some id := by
  unfold parseUuid
  cases texts.uuidFromStr (stripHexPrefixOwned text) with
  | none | some id' => simp

variable {now : Int}

theorem settled_of_outcome {instanceId graphId : Uuid} {status : GraphStatus} {graphs : GraphTable}
    {rest : Except String WatchState}
    (h : (if graphBelongsToInstance s.graphs instanceId graphId = false then pure s
      else if (applyGatewayGraphStatus s.graphs instanceId graphId status now).2 ≠ .applied ∧
        (applyGatewayGraphStatus s.graphs instanceId graphId status now).2 ≠ .alreadyCurrent then
          pure { s with graphs }
      else rest) = Except.ok s') (hrest : rest = .ok s' → Settled texts reals s [settlement] s') :
    Settled texts reals s
      (do guard (settles s instanceId graphId status now); some settlement).toList s' := by
  by_cases hsettles : settles s instanceId graphId status now
  · have houtcome := hsettles.2
    rw [if_neg (by simp [hsettles.1]), if_neg (by tauto)] at h
    simp only [guard, hsettles, if_true, pure]
    exact hrest h
  · simp only [guard, hsettles, if_false]
    by_cases hbelongs : graphBelongsToInstance s.graphs instanceId graphId = false
    · rw [if_pos hbelongs] at h
      cases h
      exact .refl rfl rfl
    · have hnot : ¬ ((applyGatewayGraphStatus s.graphs instanceId graphId status now).2 = .applied ∨
        _) := fun houtcome =>
        hsettles ⟨by simpa using hbelongs, houtcome⟩
      rw [if_neg hbelongs, if_pos (not_or.mp hnot)] at h
      cases h
      exact .refl rfl rfl

theorem settled_of_paths {paths : WithdrawPathsEvent}
    (h : handleWithdrawPathsEvent texts reals now s paths = .ok s') :
    Settled texts reals s (appliedPaths texts now s paths).toList s' := by
  obtain ⟨graphId, hgraph, h⟩ := except_bind_eq_ok.mp h
  obtain ⟨instanceId, hinstance, h⟩ := except_bind_eq_ok.mp h
  rw [parseUuid_eq_ok] at hgraph hinstance
  simp only [appliedPaths, hgraph, hinstance, Option.bind_eq_bind, Option.bind_some,
    reflectGoatAddress] at h ⊢
  cases haddr : texts.addressFromStr paths.event.operatorAddr with
  | none =>
    simp only [haddr, Option.map_none, ite_self] at h
    cases h
    exact .refl rfl rfl
  | some operator =>
    rw [haddr] at h
    refine settled_of_outcome h fun hrest => ?_
    obtain ⟨height, -, hrest⟩ := except_bind_eq_ok.mp hrest
    cases hrest
    exact .single rfl rfl rfl

theorem settled_of_disproved {event : WithdrawDisprovedEvent}
    (h : handleWithdrawDisprovedEvent texts reals now s event = .ok s') :
    Settled texts reals s (appliedDisproved texts now s event).toList s' := by
  obtain ⟨graphId, hgraph, h⟩ := except_bind_eq_ok.mp h
  obtain ⟨instanceId, hinstance, h⟩ := except_bind_eq_ok.mp h
  rw [parseUuid_eq_ok] at hgraph hinstance
  simp only [appliedDisproved, hgraph, hinstance, Option.bind_eq_bind, Option.bind_some,
    reflectGoatAddress] at h ⊢
  cases hchallenger : texts.addressFromStr event.challengerAddr with
  | none =>
    simp only [hchallenger, Option.map_none, ite_self] at h
    cases h
    exact .refl rfl rfl
  | some challenger =>
    cases hdisprover : texts.addressFromStr event.disproverAddr with
    | none =>
      simp only [hchallenger, hdisprover, Option.map_none, Option.map_some, ite_self] at h
      cases h
      exact .refl rfl rfl
    | some disprover =>
      rw [hchallenger, hdisprover] at h
      refine settled_of_outcome h fun hrest => ?_
      obtain ⟨height, -, hrest⟩ := except_bind_eq_ok.mp hrest
      cases hrest
      exact .single rfl rfl rfl

theorem settled_along {E : Type} {handle : WatchState → E → Except String WatchState}
    {applied : WatchState → E → Option (Settlement texts.Address)}
    (hstep : ∀ s event s', handle s event = .ok s' →
      Settled texts reals s (applied s event).toList s') {events : List E} (h :
        events.foldlM handle s = .ok s') :
    Settled texts reals s (settlementsAlong texts handle applied s events) s' := by
  induction events generalizing s with
  | nil =>
    cases h
    exact .refl rfl rfl
  | cons event events ih =>
    obtain ⟨next, hnext, hrest⟩ := except_bind_eq_ok.mp h
    rw [settlementsAlong, hnext]
    exact (hstep s event next hnext).trans (ih hrest)

theorem settled_step (s : WatchState) (step : WatchStep) :
    Settled texts reals s (s.settlements texts reals [step]) (s.step texts reals step) := by
  cases step with
  | graphs graphs => exact .refl rfl rfl
  | batch batch =>
    simp only [WatchState.settlements, batchSettlements, WatchState.step, handleBatch,
      List.append_nil]
    cases hpaths : handleWithdrawPathsEvents texts reals batch.now s batch.withdrawPathsEvents with
    | error e => exact .refl rfl rfl
    | ok s₁ =>
      simp only [bind, Except.bind]
      cases hdisproved :
          handleWithdrawDisprovedEvents texts reals batch.now s₁ batch.withdrawDisprovedEvents with
      | error e => exact .refl rfl rfl
      | ok s₂ =>
        have h₁ := settled_along (fun _ _ _ => settled_of_paths) hpaths
        have h₂ := settled_along (fun _ _ _ => settled_of_disproved) hdisproved
        exact h₁.trans h₂

theorem settlements_cons (s : WatchState) (step : WatchStep) (steps : List WatchStep) :
    s.settlements texts reals (step :: steps) =
      s.settlements texts reals [step] ++ (s.step texts reals step).settlements texts
        reals steps := by
  cases step with
  | graphs graphs => rfl
  | batch batch =>
    rw [WatchState.settlements, WatchState.settlements, WatchState.settlements, List.append_nil]

theorem settled_run (s : WatchState) (steps : List WatchStep) :
    Settled texts reals s (s.settlements texts reals steps) (s.run texts reals steps) := by
  induction steps generalizing s with
  | nil => exact .refl rfl rfl
  | cons step steps ih =>
    rw [settlements_cons]
    exact (settled_step s step).trans (ih _)

def paid (texts : GoatTexts) (payouts : List (texts.Address × Nat)) (node : Node) : List Nat :=
  (payouts.filter fun payout => node.goatAddr = texts.addressToString payout.1).map Prod.snd

theorem find?_foldl_addNodeReward (payouts : List (texts.Address × Nat)) (nodes : NodeTable)
    (p : String) : (payouts.foldl (fun nodes payout =>
        addNodeReward reals nodes (texts.addressToString payout.1) payout.2) nodes).find? p =
      (nodes.find? p).map fun node =>
        { node with reward := (paid texts payouts node).foldl (credited reals) node.reward } := by
  induction payouts generalizing nodes with
  | nil => simp [paid]
  | cons payout payouts ih =>
    rw [List.foldl_cons, ih, find?_addNodeReward, Option.map_map]
    congr 1
    funext node
    by_cases haddr : node.goatAddr = texts.addressToString payout.1
    · simp [paid, haddr]
    · simp [paid, haddr]

theorem foldl_payAll (settlements : List (Settlement texts.Address)) (nodes : NodeTable) :
    settlements.foldl (payAll texts reals) nodes = (settlements.flatMap Settlement.payouts).foldl
      (fun nodes payout =>
        addNodeReward reals nodes (texts.addressToString payout.1) payout.2) nodes := by
  rw [List.foldl_flatMap]
  rfl

end Events

section Account

variable (texts : GoatTexts) (reals : SqlReals)

theorem paid_eq_nil {payouts : List (texts.Address × Nat)} {node : Node}
    (hspelling : reflectGoatAddress texts node.goatAddr ≠ some node.goatAddr) :
    paid texts payouts node = [] := by
  unfold paid
  rw [List.map_eq_nil_iff, List.filter_eq_nil_iff]
  intro payout _ haddr
  apply hspelling
  rw [decide_eq_true_eq] at haddr
  rw [haddr, reflectGoatAddress, texts.addressFromStr_toString, Option.map_some]

theorem paid_eq_owed {s : WatchState} {steps : List WatchStep} {node : Node}
    (hspelling : reflectGoatAddress texts node.goatAddr = some node.goatAddr) :
    paid texts ((distinctSettlements texts reals s steps).flatMap Settlement.payouts) node =
      owed texts reals s steps node := by
  unfold paid owed
  congr 1
  apply List.filter_congr
  intro payout _
  obtain ⟨addr, hparse, hshow⟩ := Option.map_eq_some_iff.mp hspelling
  rw [decide_eq_decide, hparse, Option.some.injEq]
  constructor
  · intro haddr
    rw [haddr, texts.addressFromStr_toString, Option.some.injEq] at hparse
    exact hparse.symm
  · rintro rfl
    exact hshow.symm

/-- Each reward meets a stored reward of zero, and the address is spelled as the watcher looks it
up. -/
def EachMeetsZero (s : WatchState) (steps : List WatchStep) (node : Node) (initial : Nat) : Prop :=
  if reflectGoatAddress texts node.goatAddr = some node.goatAddr then
    owed texts reals s steps node = [] ∨
      (initial = 0 ∧ (owed texts reals s steps node).dropLast.sum = 0 ∧
        (owed texts reals s steps node).sum < 2 ^ 63)
  else (owed texts reals s steps node).sum = 0

instance (s : WatchState) (steps : List WatchStep) (node : Node) (initial : Nat) :
    Decidable (EachMeetsZero texts reals s steps node initial) :=
  inferInstanceAs (Decidable (if reflectGoatAddress texts node.goatAddr =
    some node.goatAddr then _ else _))

theorem node_reward_exact_iff (s : WatchState) (steps : List WatchStep) (node : Node)
    (initial : Nat) (hnode : s.nodes.find? node.peerId = some node)
    (hreward : numeral node.reward = some initial) :
    storedReward (s.run texts reals steps) node.peerId =
      some (initial + (owed texts reals s steps node).sum) ↔
      EachMeetsZero texts reals s steps node initial := by
  have hsettled : Settled texts reals s _ _ := settled_run s steps
  unfold storedReward
  rw [hsettled.nodes, foldl_payAll, find?_foldl_addNodeReward, hnode, EachMeetsZero]
  change numeral ((paid texts ((distinctSettlements texts reals s steps).flatMap Settlement.payouts)
    node).foldl (credited reals) node.reward) = _ ↔ _
  split_ifs with hspelling
  · rw [paid_eq_owed texts reals hspelling]
    exact foldl_credited_eq_sum_iff _ hreward
  · -- the watcher does not find the node under this spelling
    rw [paid_eq_nil texts hspelling, List.foldl_nil, hreward, Option.some.injEq]
    omega

end Account

namespace TwoWithdrawals

def texts : GoatTexts where
  uuidFromStr text := (u256FromStr ("0x" ++ text)).map (BitVec.ofNat 128)
  Address := Bool
  addressFromStr text :=
    if text = "0xA1" then some true else if text = "0xB2" then some false else none
  addressToString addr := if addr then "0xA1" else "0xB2"
  addressFromStr_toString := by decide

def reals : SqlReals where
  Real := Unit
  ofInt _ := ()
  add _ _ := ()
  text _ := "1.0e+19"
  cast _ := .real ()
  numeral_text := fun _ => by decide +kernel
  cast_text := fun _ => ⟨(), rfl⟩

def graph (graphId instanceId : Uuid) : Graph where
  graphId := graphId
  instanceId := instanceId
  kickoffIndex := 0
  operatorPubkey := "operator"
  status := .operatorKickOff
  subStatus := ""
  statusUpdatedAt := 0
  updatedAt := 0

def operator : Node := ⟨"peer", "0xA1", "0"⟩

def state : WatchState where
  graphs := ⟨[graph 1 7, graph 2 8], by decide⟩
  records := .empty
  nodes := ⟨[operator], by decide⟩
  inbox := .empty

def withdraw (graphId instanceId amount : String) : WithdrawPathsEvent :=
  .withdrawHappyEvent ⟨"0xhash", "100", instanceId, graphId, "0xA1", amount⟩

def steps : List WatchStep :=
  [.batch ⟨[withdraw "0x01" "0x07" "5"], [], 0⟩,
    .batch ⟨[withdraw "0x01" "0x07" "5", withdraw "0x02" "0x08" "3"], [], 0⟩]

/-- Rewards of 5 and 3 end as 13: the first one is counted again with the second. -/
theorem reward_counted_again :
    state.nodes.find? "peer" = some operator ∧ numeral operator.reward = some 0 ∧
      owed texts reals state steps operator = [5, 3] ∧
      storedReward (state.run texts reals steps) "peer" = some 13 := by
  decide +kernel

theorem single_reward_exact :
    storedReward (state.run texts reals [steps.head (by decide), steps.head (by decide)]) "peer" =
      some (0 + (owed texts reals state [steps.head (by decide), steps.head (by decide)]
        operator).sum) :=
  (node_reward_exact_iff texts reals state _ operator 0 (by decide +kernel) (by decide +kernel)).mpr
    (by decide +kernel)

end TwoWithdrawals

end BitvmNode.EventWatch
