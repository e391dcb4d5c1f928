import BitvmNode.StateChainHost.Fetch

/-!
# What the fetching of the state chain returns

Every step of the collection in closed form: the calls that are found in a block, the entry they are
grouped into, and the blocks as a whole.
-/

namespace BitvmNode.StateChainHost

open Reasoning StateChain

section Collect

variable {α β : Type} {f : α → Option (List β)} {xs : List α}

theorem flatMapM_cons {x : α} :
    flatMapM f (x :: xs) = (f x).bind fun ys => (flatMapM f xs).map (ys ++ ·) := by
  unfold flatMapM
  rw [List.mapM_cons]
  cases f x with
  | none => rfl
  | some ys =>
    cases xs.mapM f with
    | none | some yss => rfl

theorem flatMapM_of_forall {g : α → List β} (h : ∀ x ∈ xs, f x = some (g x)) :
    flatMapM f xs = some (xs.flatMap g) := by
  induction xs with
  | nil => rfl
  | cons x xs ih =>
    rw [flatMapM_cons, h x List.mem_cons_self, ih fun y hy => h y (List.mem_cons_of_mem _ hy)]
    rfl

theorem flatMapM_eq_none {x : α} (hx : x ∈ xs) (h : f x = none) : flatMapM f xs = none := by
  induction xs with
  | nil => cases hx
  | cons y xs ih =>
    rw [flatMapM_cons]
    rcases List.mem_cons.mp hx with rfl | hx
    · rw [h]
      rfl
    · rw [ih hx]
      cases f y with
      | none | some ys => rfl

end Collect

variable (rpc : Rpc) (targets : List Target)

def answeredTxs (block : UInt64) : List RpcTransaction :=
  match rpc.getBlock block with
  | .found txids => txids.filterMap fun txid =>
      match rpc.getTransactionByHash txid with
      | .found txn => some txn
      | _ => none
  | _ => []

def CalldataOk (txn : RpcTransaction) : Prop :=
  ∀ target ∈ targets, txn.toAddress = some target.contract →
    4 ≤ txn.input.length ∧ (txn.input.take 4 = target.methodId.toList → 20 ≤ txn.input.length)

instance (txn : RpcTransaction) : Decidable (CalldataOk targets txn) :=
  inferInstanceAs (Decidable (∀ target ∈ targets, _))

def callOf (block : UInt64) (txn : RpcTransaction) (target : Target) : Option Event :=
  if txn.toAddress = some target.contract ∧ txn.input.take 4 = target.methodId.toList then
    (vectorOfList 16 ((txn.input.drop 4).take 16)).map (⟨block, ·, target.contract⟩)
  else none

def callsOf (block : UInt64) (txn : RpcTransaction) : List Event :=
  targets.flatMap fun target => (callOf block txn target).toList

def calls (block : UInt64) : List Event := (answeredTxs rpc block).flatMap (callsOf targets block)

theorem vectorOfList_isSome (n : Nat) (bs : Bytes) (h : bs.length = n) :
    ∃ v, vectorOfList n bs = some v := ⟨_, dif_pos h⟩

variable {block : UInt64}

theorem targetEvent_of_ok {txn : RpcTransaction} {target : Target}
    (h : txn.toAddress = some target.contract →
      4 ≤ txn.input.length ∧ (txn.input.take 4 = target.methodId.toList → 20 ≤ txn.input.length)) :
    targetEvent block txn target = some (callOf block txn target).toList := by
  unfold targetEvent callOf
  by_cases hto : txn.toAddress = some target.contract
  · obtain ⟨hfour, htwenty⟩ := h hto
    rw [if_pos hto, if_neg (by omega)]
    by_cases hmethod : txn.input.take 4 = target.methodId.toList
    · have hlen := htwenty hmethod
      obtain ⟨graphId, hgraph⟩ := vectorOfList_isSome 16 ((txn.input.drop 4).take 16)
        (by rw [List.length_take, List.length_drop]; omega)
      rw [if_pos hmethod, if_pos ⟨hto, hmethod⟩, hgraph]
      rfl
    · rw [if_neg hmethod, if_neg fun h => hmethod h.2]
      rfl
  · rw [if_neg hto, if_neg fun h => hto h.1]
    rfl

theorem targetEvent_of_not_ok {txn : RpcTransaction} {target : Target}
    (hto : txn.toAddress = some target.contract) (h : ¬ (4 ≤ txn.input.length ∧
      (txn.input.take 4 = target.methodId.toList → 20 ≤ txn.input.length))) :
    targetEvent block txn target = none := by
  unfold targetEvent
  rw [if_pos hto]
  by_cases hfour : txn.input.length < 4
  · rw [if_pos hfour]
  · -- long enough for the selector, but not for the graph id
    rw [if_neg hfour]
    have hshort : txn.input.take 4 = target.methodId.toList ∧ txn.input.length < 20 := by
      by_contra hnot
      exact h ⟨by omega, fun hmethod => by by_contra hlt; exact hnot ⟨hmethod, by omega⟩⟩
    rw [if_pos hshort.1, vectorOfList, dif_neg (by rw [List.length_take, List.length_drop]; omega)]
    rfl

theorem blockEvents_eq (block : UInt64) : blockEvents rpc targets block =
      if ∀ txn ∈ answeredTxs rpc block, CalldataOk targets txn then some (calls rpc targets block)
      else none := by
  cases hblock : rpc.getBlock block with
  | missing | failed => simp [blockEvents, calls, answeredTxs, hblock]
  | found txids =>
    have hanswered : answeredTxs rpc block = txids.filterMap fun txid =>
        match rpc.getTransactionByHash txid with
        | .found txn => some txn
        | _ => none := by simp only [answeredTxs, hblock]
    have hevents : blockEvents rpc targets block =
        flatMapM (transactionEvents rpc targets block) txids := by simp only [blockEvents, hblock]
    rw [hevents]
    split_ifs with hok
    · -- every transaction contributes its calls
      have hstep : ∀ txid ∈ txids, transactionEvents rpc targets block txid =
          some ((match rpc.getTransactionByHash txid with
            | .found txn => some txn
            | _ => none).toList.flatMap (callsOf targets block)) := by
        intro txid hmem
        unfold transactionEvents
        cases htx : rpc.getTransactionByHash txid with
        | missing | failed => rfl
        | found txn =>
          have htxn : CalldataOk targets txn := by
            apply hok
            rw [hanswered, List.mem_filterMap]
            exact ⟨txid, hmem, by rw [htx]⟩
          change flatMapM (targetEvent block txn) targets = some (callsOf targets block txn ++ [])
          rw [List.append_nil]
          exact flatMapM_of_forall fun target htarget => targetEvent_of_ok (htxn target htarget)
      rw [flatMapM_of_forall hstep, calls, hanswered, List.filterMap_eq_flatMap_toList,
        List.flatMap_assoc]
    · -- some transaction is too short
      push Not at hok
      obtain ⟨txn, hmem, hbad⟩ := hok
      rw [hanswered, List.mem_filterMap] at hmem
      obtain ⟨txid, htxid, hfound⟩ := hmem
      apply flatMapM_eq_none htxid
      unfold CalldataOk at hbad
      push Not at hbad
      obtain ⟨target, htarget, hto, hshort⟩ := hbad
      unfold transactionEvents
      cases htx : rpc.getTransactionByHash txid with
      | missing | failed => simp [htx] at hfound
      | found txn' =>
        simp only [htx, Option.some.injEq] at hfound
        subst hfound
        apply flatMapM_eq_none htarget
        apply targetEvent_of_not_ok hto
        rintro ⟨hfour, htwenty⟩
        obtain ⟨hmethod, hlt⟩ := hshort hfour
        exact absurd (htwenty hmethod) (by omega)

theorem block_of_mem_calls {event : Event} (h : event ∈ calls rpc targets block) :
    event.block = block := by
  obtain ⟨txn, -, h⟩ := List.mem_flatMap.mp h
  obtain ⟨target, -, h⟩ := List.mem_flatMap.mp h
  rw [Option.mem_toList] at h
  unfold callOf at h
  split_ifs at h
  obtain ⟨graphId, -, rfl⟩ := Option.map_eq_some_iff.mp h
  rfl

variable {range : List UInt64}

theorem filter_flatMap_calls (hnodup : range.Nodup) (hmem : block ∈ range) :
    ((range.flatMap (calls rpc targets)).filter fun event => event.block = block) =
      calls rpc targets block := by
  induction range with
  | nil => cases hmem
  | cons first rest ih =>
    obtain ⟨hfirst, hrest⟩ := List.nodup_cons.mp hnodup
    rw [List.flatMap_cons, List.filter_append]
    by_cases hsame : first = block
    · subst hsame
      -- all events of the first block, none of the others
      have hall : ((calls rpc targets first).filter fun event => event.block = first) =
          calls rpc targets first := by
        apply List.filter_eq_self.mpr
        intro event hevent
        simpa using block_of_mem_calls rpc targets hevent
      have hnone : ((rest.flatMap (calls rpc targets)).filter fun event => event.block = first) =
          [] := by
        apply List.filter_eq_nil_iff.mpr
        intro event hevent
        obtain ⟨other, hother, hcall⟩ := List.mem_flatMap.mp hevent
        have hblock := block_of_mem_calls rpc targets hcall
        simp only [decide_eq_true_eq]
        rintro rfl
        rw [hblock] at hfirst
        exact hfirst hother
      rw [hall, hnone, List.append_nil]
    · have hnone : ((calls rpc targets first).filter fun event => event.block = block) = [] := by
        apply List.filter_eq_nil_iff.mpr
        intro event hevent
        have hblock := block_of_mem_calls rpc targets hevent
        simp only [decide_eq_true_eq]
        rintro rfl
        exact hsame hblock.symm
      rcases List.mem_cons.mp hmem with heq | hin
      · exact absurd heq.symm hsame
      · rw [hnone, List.nil_append, ih hrest hin]

theorem blockRange_nodup (start batchSize : UInt64) : (blockRange start batchSize).Nodup := by
  apply List.Nodup.map_on _ List.nodup_range
  intro i hi j hj h
  rw [List.mem_range] at hi hj
  have hlt : (start + batchSize).toNat < 2 ^ 64 := (start + batchSize).toNat_lt
  have hij : UInt64.ofNat i = UInt64.ofNat j := UInt64.add_right_inj start |>.mp h
  have hnat := congrArg UInt64.toNat hij
  rwa [UInt64.toNat_ofNat_of_lt' (show i < 2 ^ 64 by omega),
    UInt64.toNat_ofNat_of_lt' (show j < 2 ^ 64 by omega)] at hnat

def RangeOk (range : List UInt64) : Prop :=
  ∀ block ∈ range, ∀ txn ∈ answeredTxs rpc block, CalldataOk targets txn

instance (range : List UInt64) : Decidable (RangeOk rpc targets range) :=
  List.decidableBAll (fun block => ∀ txn ∈ answeredTxs rpc block, CalldataOk targets txn) range

theorem fetchWithdrawalEvents_of_ok (h : RangeOk rpc targets range) :
    fetchWithdrawalEvents rpc targets range = some (range.flatMap (calls rpc targets)) := by
  apply flatMapM_of_forall
  intro block hblock
  rw [blockEvents_eq, if_pos (h block hblock)]

theorem fetchWithdrawalEvents_of_not_ok (h : ¬ RangeOk rpc targets range) :
    fetchWithdrawalEvents rpc targets range = none := by
  unfold RangeOk at h
  push Not at h
  obtain ⟨block, hblock, txn, htxn, hbad⟩ := h
  apply flatMapM_eq_none hblock
  rw [blockEvents_eq, if_neg]
  intro hall
  exact hbad (hall txn htxn)

def entryOf (event : Event) : WithdrawalSlot := ⟨event.contract, baseSlot, [event.graphId]⟩

def firstOf (events : List Event) (event : Event) : Event :=
  (events.find? fun first => first.contract = event.contract).getD event

theorem firstOf_contract (events : List Event) (event : Event) :
    (firstOf events event).contract = event.contract := by
  unfold firstOf
  cases hfind : events.find? fun first => first.contract = event.contract with
  | none => rfl
  | some first => simpa using List.find?_some hfind

variable {events : List Event}

theorem addEvent_eq {event : Event} {withdrawals : List WithdrawalSlot}
    (h : (withdrawals.find? fun withdrawal => withdrawal.contract = event.contract) =
      (events.find? fun first => first.contract = event.contract).map entryOf) :
    addEvent withdrawals event = withdrawals ++ [entryOf (firstOf events event)] := by
  unfold addEvent
  have hcontract := firstOf_contract events event
  unfold firstOf at hcontract ⊢
  rw [h]
  cases hfind : events.find? fun first => first.contract = event.contract with
  | none => rfl
  | some first =>
    rw [hfind] at hcontract
    simp only [Option.map_some, Option.getD_some, entryOf] at hcontract ⊢
    rw [hcontract]

theorem find_group (events : List Event) (contract : Address) :
    ((events.foldl addEvent []).find? fun withdrawal => withdrawal.contract = contract) =
      (events.find? fun first => first.contract = contract).map entryOf := by
  induction events using List.reverseRecOn generalizing contract with
  | nil => rfl
  | append_singleton events event ih =>
    rw [List.foldl_append, List.foldl_cons, List.foldl_nil, addEvent_eq (ih event.contract),
      List.find?_append, List.find?_append, ih contract]
    cases hfind : events.find? fun first => first.contract = contract with
    | some first => rfl
    | none =>
      -- the new entry is the contract's first one exactly if the event is its first one
      by_cases hcontract : event.contract = contract
      · have hfirst : firstOf events event = event := by
          rw [firstOf, hcontract, hfind]
          rfl
        rw [hfirst]
        simp [entryOf, hcontract]
      · have hother : (entryOf (firstOf events event)).contract ≠ contract := by
          change (firstOf events event).contract ≠ contract
          rw [firstOf_contract]
          exact hcontract
        simp [hother, hcontract]

theorem mem_group {withdrawal : WithdrawalSlot} (h : withdrawal ∈ events.foldl addEvent []) :
    ∃ event, (events.find? fun first => first.contract = withdrawal.contract) = some event ∧
      withdrawal = entryOf event := by
  induction events using List.reverseRecOn with
  | nil => cases h
  | append_singleton events event ih =>
    rw [List.foldl_append, List.foldl_cons, List.foldl_nil, addEvent_eq (find_group events _),
      List.mem_append, List.mem_singleton] at h
    rw [List.find?_append]
    rcases h with h | rfl
    · obtain ⟨first, hfirst, hentry⟩ := ih h
      refine ⟨first, ?_, hentry⟩
      rw [hfirst]
      rfl
    · refine ⟨firstOf events event, ?_, rfl⟩
      change ((events.find? fun first => first.contract = (firstOf events event).contract).or _) = _
      rw [firstOf_contract]
      unfold firstOf
      cases events.find? fun first => first.contract = event.contract with
      | some first => rfl
      | none => simp [entryOf]

theorem listed_group_iff {contract : Address} {graphId : GraphId} :
    (∃ withdrawal ∈ events.foldl addEvent [], withdrawal.contract = contract ∧
        graphId ∈ withdrawal.graphIds) ↔
      ∃ event, (events.find? fun first => first.contract = contract) = some event ∧
        event.graphId = graphId := by
  constructor
  · rintro ⟨withdrawal, hmem, rfl, hgraph⟩
    obtain ⟨event, hfind, hentry⟩ := mem_group hmem
    rw [hentry] at hgraph
    exact ⟨event, hfind, (List.mem_singleton.mp hgraph).symm⟩
  · rintro ⟨event, hfind, rfl⟩
    have hgroup := find_group events contract
    rw [hfind, Option.map_some] at hgroup
    refine ⟨entryOf event, List.mem_of_find?_eq_some hgroup, ?_, List.mem_singleton_self _⟩
    simpa using List.find?_some hgroup

theorem listed_groupWithdrawals_iff (hnodup : range.Nodup) (hmem : block ∈ range)
    {contract : Address} {graphId : GraphId} :
    (∃ withdrawal ∈ groupWithdrawals (range.flatMap (calls rpc targets)) block,
        withdrawal.contract = contract ∧ graphId ∈ withdrawal.graphIds) ↔
      ∃ event, ((calls rpc targets block).find? fun first => first.contract = contract) =
        some event ∧
        event.graphId = graphId := by
  rw [groupWithdrawals, filter_flatMap_calls rpc targets hnodup hmem, listed_group_iff]

/-- A run for a well-formed configuration.  The calls are collected before any block is requested,
so a call that is too short panics whatever the requests would return. -/
theorem fetchStateChain_eq {targets : List Target} {addresses methodIds : List Char}
    (hconfig : parseTargets addresses methodIds = some targets) (start batchSize : UInt64) :
    fetchStateChain rpc addresses methodIds start batchSize =
      if start = 0 then .error .panic
      else if rpc.urlParses = false then .error .error
      else if RangeOk rpc targets (blockRange start batchSize) then do
        let answers ← (blockRange start batchSize).mapM (requestBlock rpc start batchSize)
        if rpc.writes then
          .ok (List.zipWith (withWithdrawals
              ((blockRange start batchSize).flatMap (calls rpc targets)))
            (blockRange start batchSize) answers)
        else .error .error
      else .error .panic := by
  unfold fetchStateChain
  rw [hconfig]
  change (if start = 0 then _ else _) = _
  by_cases hstart : start = 0
  · rw [if_pos hstart, if_pos hstart]
  rw [if_neg hstart, if_neg hstart]
  by_cases hurl : rpc.urlParses = false
  · rw [if_pos hurl, if_pos hurl]
  rw [if_neg hurl, if_neg hurl]
  by_cases hok : RangeOk rpc targets (blockRange start batchSize)
  · rw [if_pos hok]
    change (fetchWithdrawalEvents rpc targets (blockRange start batchSize)).elim _ _ >>= _ = _
    rw [fetchWithdrawalEvents_of_ok rpc targets hok]
    change ((blockRange start batchSize).mapM fun block =>
      (requestBlock rpc start batchSize block).map _) >>= _ = _
    rw [mapM_map_except]
    cases (blockRange start batchSize).mapM (requestBlock rpc start batchSize) with
    | error e | ok answers => rfl
  · rw [if_neg hok]
    change (fetchWithdrawalEvents rpc targets (blockRange start batchSize)).elim _ _ >>= _ = _
    rw [fetchWithdrawalEvents_of_not_ok rpc targets hok]
    rfl

end BitvmNode.StateChainHost
