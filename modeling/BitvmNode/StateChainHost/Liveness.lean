import BitvmNode.StateChainHost.Completeness

/-!
# Whether a batch of blocks can be proved

Anybody can put calls of the configured contracts into a block.
-/

namespace BitvmNode.StateChainHost

open Reasoning StateChain

structure Ledger extends World where
  slots : UInt64 → Address → Bytes32 → Nat

/-- Every request for the range is answered, and every block has the fields of its fork. -/
structure Reliable (rpc : Rpc) (world : World) (range : List UInt64) : Prop where
  truthful : Truthful rpc world
  urlParses : rpc.urlParses = true
  writes : rpc.writes = true
  getBlock : ∀ block ∈ range, (rpc.getBlock block).isFound = true
  getTransactionByHash : ∀ block ∈ range, ∀ tx ∈ world.transactions block,
    (rpc.getTransactionByHash tx.txid).isFound = true
  executionBlock : ∀ block ∈ range, ∃ input root,
    rpc.fetchExecutionLayerBlock block = some input ∧
      input.currentBlock.parentBeaconBlockRoot = some root
  consensusBlock : ∀ block ∈ range, ∀ height, ∃ clBlockNumber cosmosTxns cosmosBlock bytes,
    rpc.fetchCbftValidatorInfo block height = some clBlockNumber ∧
      rpc.fetchCbftTxData clBlockNumber = some cosmosTxns ∧
      rpc.fetchCosmosBlock clBlockNumber = some cosmosBlock ∧
      rpc.cosmosBlockToVec cosmosBlock = some bytes

/-- The blocks of the range are valid: a successful call leaves the slot of its graph at one, failed
calls change nothing, and the executor accepts the block exactly if each listed slot holds the
listed value. -/
structure Executes (env : StateChain.Env) (ledger : Ledger) (targets : List Target)
    (range : List UInt64) : Prop where
  called : ∀ block ∈ range, ∀ contract graphId,
    Called ledger.toWorld targets block contract graphId →
      ledger.slots block contract (slotId env baseSlot graphId) = 1
  failed : ∀ block ∈ range,
    (∀ tx ∈ ledger.transactions block, ∀ call ∈ tx.call :: tx.inner, call.succeeded = false) →
      ledger.slots block = ledger.slots (block - 1)
  execute : ∀ block ∈ range, ∃ header, ∀ checks,
    env.execute (ledger.executionBlock block) checks =
      if ∀ check ∈ checks, ledger.slots block check.contract check.slot =
        check.value then some header
      else none

variable {rpc : Rpc} {world : World} {range : List UInt64} {block : UInt64}

theorem Reliable.request (h : Reliable rpc world range) (hblock : block ∈ range)
    (start batchSize : UInt64) :
    ∃ answers, requestBlock rpc start batchSize block = .ok answers := by
  obtain ⟨input, root, hinput, hroot⟩ := h.executionBlock block hblock
  obtain ⟨clBlockNumber, cosmosTxns, cosmosBlock, bytes, hinfo, htxns, hcosmos, hbytes⟩ :=
    h.consensusBlock block hblock (rpc.getCosmosBlockHeightAt root)
  refine ⟨(cosmosTxns, bytes, input), ?_⟩
  simp only [requestBlock, except_bind_eq_ok]
  exact ⟨input, by rw [hinput]; rfl, root, by rw [hroot]; rfl, clBlockNumber, by rw [hinfo]; rfl,
    cosmosTxns, by
      rw [htxns]; rfl, cosmosBlock, by rw [hcosmos]; rfl, bytes, by rw [hbytes]; rfl, rfl⟩

theorem Reliable.seen_eq (h : Reliable rpc world range) (hblock : block ∈ range) :
    seen rpc world block = world.transactions block := by
  rw [seen, if_pos (h.getBlock block hblock), List.filter_eq_self]
  exact h.getTransactionByHash block hblock

def blockCalls (world : World) (targets : List Target) (block : UInt64) : List Event :=
  (world.transactions block).flatMap fun tx => callsOf targets block tx.answer

theorem Reliable.calls_eq (h : Reliable rpc world range) (targets : List Target)
    (hblock : block ∈ range) : calls rpc targets block = blockCalls world targets block := by
  rw [StateChainHost.calls_eq rpc world targets h.truthful, seenCalls, h.seen_eq hblock, blockCalls]

theorem Reliable.rangeOk_iff (h : Reliable rpc world range) (targets : List Target) :
    RangeOk rpc targets range ↔
      ∀ block ∈ range, ∀ tx ∈ world.transactions block, CalldataOk targets tx.answer := by
  rw [StateChainHost.rangeOk_iff rpc world targets h.truthful]
  constructor
  · intro hseen block hblock tx htx
    exact hseen block hblock tx (by rwa [h.seen_eq hblock])
  · intro hall block hblock tx htx
    rw [h.seen_eq hblock] at htx
    exact hall block hblock tx htx

/-- The slot check of the circuit passes for one listed graph. -/
def SlotPasses (env : StateChain.Env) (input : EthClientExecutorInput) (withdrawal : WithdrawalSlot)
    (graphId : GraphId) : Prop :=
  ∃ header, executeElBlockAndCheckWithdrawTx env
    [⟨withdrawal.contract, withdrawal.baseSlot, [graphId]⟩] input = some header

section Checks

variable {env : StateChain.Env} {ledger : Ledger} {targets : List Target} {range : List UInt64}
  {block : UInt64} (h : Executes env ledger targets range)

include h

theorem Executes.execute_eq (hblock : block ∈ range) : ∃ header, ∀ withdrawals,
      ((∀ withdrawal ∈ withdrawals, ∀ graphId ∈ withdrawal.graphIds,
          ledger.slots block withdrawal.contract (slotId env withdrawal.baseSlot graphId) = 1) →
        executeElBlockAndCheckWithdrawTx env withdrawals (ledger.executionBlock block) =
          some header) ∧
      (∀ header', executeElBlockAndCheckWithdrawTx env withdrawals (ledger.executionBlock block) =
          some header' →
        ∀ withdrawal ∈ withdrawals, ∀ graphId ∈ withdrawal.graphIds,
          ledger.slots block withdrawal.contract (slotId env withdrawal.baseSlot graphId) = 1) := by
  obtain ⟨header, hexecute⟩ := h.execute block hblock
  refine ⟨header, fun withdrawals => ⟨?_, ?_⟩⟩
  · intro hslots
    rw [executeElBlockAndCheckWithdrawTx, hexecute, if_pos]
    intro check hcheck
    obtain ⟨withdrawal, hmem, graphId, hgraph, rfl⟩ := (mem_storageInfo env).mp hcheck
    exact hslots withdrawal hmem graphId hgraph
  · intro header' haccepts withdrawal hmem graphId hgraph
    rw [executeElBlockAndCheckWithdrawTx, hexecute] at haccepts
    split_ifs at haccepts with hall
    exact hall _ ((mem_storageInfo env).mpr ⟨withdrawal, hmem, graphId, hgraph, rfl⟩)

theorem Executes.slotPasses_iff (hblock : block ∈ range)
    {withdrawal : WithdrawalSlot} {graphId : GraphId} :
    SlotPasses env (ledger.executionBlock block) withdrawal graphId ↔
      ledger.slots block withdrawal.contract (slotId env withdrawal.baseSlot graphId) = 1 := by
  obtain ⟨header, hexecute⟩ := h.execute_eq hblock
  obtain ⟨haccepts, hslots⟩ := hexecute [⟨withdrawal.contract, withdrawal.baseSlot, [graphId]⟩]
  constructor
  · rintro ⟨header', hheader⟩
    exact hslots header' hheader _ List.mem_cons_self _ List.mem_cons_self
  · intro hone
    refine ⟨header, haccepts ?_⟩
    intro other hother id hid
    obtain rfl := List.mem_singleton.mp hother
    obtain rfl := List.mem_singleton.mp hid
    exact hone

theorem Executes.listed_pass_iff {rpc : Rpc}
    (hrpc : Reliable rpc ledger.toWorld range) (hnodup : range.Nodup) (hblock : block ∈ range) :
    (∀ withdrawal ∈ groupWithdrawals (range.flatMap (calls rpc targets)) block, ∀ graphId ∈
          withdrawal.graphIds,
          SlotPasses env (ledger.executionBlock block) withdrawal graphId) ↔
      ∀ contract event, ((blockCalls ledger.toWorld targets block).find? fun first =>
          first.contract = contract) =
          some event →
        ledger.slots block contract (slotId env baseSlot event.graphId) = 1 := by
  rw [groupWithdrawals, filter_flatMap_calls rpc targets hnodup hblock,
    hrpc.calls_eq targets hblock]
  constructor
  · intro hpass contract event hfind
    have hgroup := find_group (blockCalls ledger.toWorld targets block) contract
    rw [hfind, Option.map_some] at hgroup
    have hcontract : event.contract = contract := by simpa using List.find?_some hfind
    have hentry := hpass (entryOf event) (List.mem_of_find?_eq_some hgroup) event.graphId
      (List.mem_singleton_self _)
    rw [h.slotPasses_iff hblock] at hentry
    rw [← hcontract]
    exact hentry
  · intro hslots withdrawal hmem graphId hgraph
    obtain ⟨event, hfind, rfl⟩ := mem_group hmem
    obtain rfl := List.mem_singleton.mp hgraph
    rw [h.slotPasses_iff hblock]
    exact hslots _ event hfind

end Checks

def bare (block : CircuitStateBlock) : CircuitStateBlock := { block with withdrawals := [] }

theorem applyBlock_of_bare {env : StateChain.Env} {s t : StateChainState}
    {block : CircuitStateBlock}
    (hexecute : executeElBlockAndCheckWithdrawTx env block.withdrawals block.evmBlock =
      executeElBlockAndCheckWithdrawTx env [] block.evmBlock)
    (h : s.applyBlock env (bare block) = some t) (withdrawals : List WithdrawalSlot) :
    ∃ kept, ({ s with withdrawals := withdrawals } : StateChainState).applyBlock env block =
      some { t with withdrawals := kept } := by
  obtain ⟨header, hheader, hcurrent, hnumber, cosmosBlock, hparse, _, hlink, rfl⟩ :=
    StateChainState.applyBlock_iff.mp h
  have hlinked : ∃ kept,
      ({ s with withdrawals := withdrawals } : StateChainState).linkBlock env block header
        cosmosBlock = some kept := by
    unfold StateChainState.linkBlock at hlink ⊢
    by_cases hgenesis : env.hashSlow header ≠ s.genesisEvmBlockHash
    · rw [if_pos hgenesis] at hlink
      obtain ⟨u, hcheck, -⟩ := Option.bind_eq_some_iff.mp hlink
      rw [if_pos (show env.hashSlow header ≠ _ from hgenesis)]
      exact ⟨_, Option.bind_eq_some_iff.mpr ⟨u, hcheck, rfl⟩⟩
    · rw [if_neg (show ¬ env.hashSlow header ≠ _ from hgenesis)]
      exact ⟨_, rfl⟩
  obtain ⟨kept, hkept⟩ := hlinked
  refine ⟨kept, ?_⟩
  exact StateChainState.applyBlock_iff.mpr
    ⟨header, hexecute.trans hheader, hcurrent, hnumber, cosmosBlock, hparse, kept, hkept, rfl⟩

theorem applyBlocks_of_bare {env : StateChain.Env} {s t : StateChainState}
    {blocks : List CircuitStateBlock}
    (hexecute : ∀ block ∈ blocks, executeElBlockAndCheckWithdrawTx env block.withdrawals
      block.evmBlock =
        executeElBlockAndCheckWithdrawTx env [] block.evmBlock)
    (h : s.applyBlocks env (blocks.map bare) = some t) (withdrawals : List WithdrawalSlot) :
    ∃ kept, ({ s with withdrawals := withdrawals } : StateChainState).applyBlocks env blocks =
      some { t with withdrawals := kept } := by
  induction blocks generalizing s withdrawals with
  | nil =>
    cases h
    exact ⟨withdrawals, rfl⟩
  | cons block blocks ih =>
    obtain ⟨u, hblock, hrest⟩ := foldlM_cons_some.mp h
    obtain ⟨kept, hfirst⟩ :=
      applyBlock_of_bare (hexecute block List.mem_cons_self) hblock withdrawals
    obtain ⟨kept', htail⟩ :=
      ih (fun block' hmem => hexecute block' (List.mem_cons_of_mem _ hmem)) hrest kept
    exact ⟨kept', foldlM_cons_some.mpr ⟨_, hfirst, htail⟩⟩

theorem Reliable.fetchStateChain_eq {targets : List Target} {addresses methodIds : List Char}
    {start batchSize : UInt64} (h : Reliable rpc world (blockRange start batchSize))
    (hconfig : parseTargets addresses methodIds = some targets) :
    ∃ answers, List.Forall₂ (fun block answer => answer.2.2 = world.executionBlock block)
        (blockRange start batchSize) answers ∧
      fetchStateChain rpc addresses methodIds start batchSize =
        if start ≠ 0 ∧ RangeOk rpc targets (blockRange start batchSize) then
          .ok (List.zipWith (withWithdrawals
              ((blockRange start batchSize).flatMap (calls rpc targets)))
            (blockRange start batchSize) answers)
        else .error .panic := by
  obtain ⟨answers, hanswers⟩ := mapM_ok_of_forall fun block hblock =>
    h.request hblock start batchSize
  refine ⟨answers, ?_, ?_⟩
  · apply (forall₂_of_mapM_ok hanswers).imp
    intro block answer hrequest
    exact h.truthful.fetchExecutionLayerBlock block _ (requestBlock_evmBlock rpc hrequest)
  · rw [StateChainHost.fetchStateChain_eq rpc hconfig, hanswers, h.urlParses, h.writes]
    by_cases hstart : start = 0
    · rw [if_pos hstart, if_neg fun hand => hand.1 hstart]
    · rw [if_neg hstart, if_neg (by decide)]
      by_cases hok : RangeOk rpc targets (blockRange start batchSize)
      · rw [if_pos hok, if_pos ⟨hstart, hok⟩]
        rfl
      · rw [if_neg hok, if_neg fun hand => hok hand.2]

/-- A run lists only slots that pass, and does not panic, exactly if it starts after block zero,
every transaction to a configured contract has enough calldata, and the first call of each contract
in a block, successful or not, names a graph whose slot holds one after the block.  If what is
listed passes, the batch is accepted whenever it would be with nothing listed. -/
theorem fetchStateChain_provable_iff {env : StateChain.Env} {ledger : Ledger} {rpc : Rpc}
    {targets : List Target} {addresses methodIds : List Char} {start batchSize : UInt64}
    (hconfig : parseTargets addresses methodIds = some targets)
    (hrpc : Reliable rpc ledger.toWorld (blockRange start batchSize))
    (hexec : Executes env ledger targets (blockRange start batchSize)) :
    ((fetchStateChain rpc addresses methodIds start batchSize ≠ .error .panic ∧
        ∀ entries, fetchStateChain rpc addresses methodIds start batchSize = .ok entries →
          ∀ entry ∈ entries, ∀ withdrawal ∈ entry.withdrawals, ∀ graphId ∈ withdrawal.graphIds,
            SlotPasses env entry.evmBlock withdrawal graphId) ↔
      start ≠ 0 ∧ (∀ block ∈ blockRange start batchSize, ∀ tx ∈ ledger.transactions block,
          CalldataOk targets tx.answer) ∧
        ∀ block ∈ blockRange start batchSize, ∀ contract event,
          ((blockCalls ledger.toWorld targets block).find? fun first => first.contract = contract) =
            some event →
          ledger.slots block contract (slotId env baseSlot event.graphId) = 1) ∧
    ∀ entries, fetchStateChain rpc addresses methodIds start batchSize = .ok entries →
      (∀ entry ∈ entries, ∀ withdrawal ∈ entry.withdrawals, ∀ graphId ∈ withdrawal.graphIds,
        SlotPasses env entry.evmBlock withdrawal graphId) →
      ∀ s t, StateChainState.applyBlocks env s (entries.map bare) = some t →
        ∃ t', s.applyBlocks env entries = some t' := by
  obtain ⟨answers, hanswers, hrun⟩ := hrpc.fetchStateChain_eq hconfig
  rw [hrun, ← hrpc.rangeOk_iff targets]
  by_cases hok : start ≠ 0 ∧ RangeOk rpc targets (blockRange start batchSize)
  · rw [if_pos hok]
    simp only [Except.ok.injEq, forall_eq', ne_eq, reduceCtorEq, not_false_eq_true, true_and]
    constructor
    · rw [← and_assoc, and_iff_right hok]
      apply forall_mem_zipWith_iff hanswers
      intro block hblock answer hevm
      rw [← hexec.listed_pass_iff hrpc (blockRange_nodup start batchSize) hblock, ← hevm]
      rfl
    · intro hpass s t hbare
      -- with every slot in place the executor returns what it returns for the empty list
      have hsame : ∀ entry ∈ List.zipWith (withWithdrawals ((blockRange start batchSize).flatMap
            (calls rpc targets))) (blockRange start batchSize) answers,
          executeElBlockAndCheckWithdrawTx env entry.withdrawals entry.evmBlock =
            executeElBlockAndCheckWithdrawTx env [] entry.evmBlock := by
        intro entry hentry
        have hslots := hpass entry hentry
        obtain ⟨block, hblock, answer, hevm, rfl⟩ := exists_of_mem_zipWith hanswers hentry
        obtain ⟨header, hexecute⟩ := hexec.execute_eq hblock
        simp only [withWithdrawals, hevm] at hslots ⊢
        rw [(hexecute _).1 fun withdrawal hmem graphId hgraph =>
            (hexec.slotPasses_iff hblock).mp (hslots withdrawal hmem graphId hgraph),
          (hexecute []).1 fun withdrawal hmem => by cases hmem]
      obtain ⟨kept, hkept⟩ := applyBlocks_of_bare hsame hbare s.withdrawals
      exact ⟨_, hkept⟩
  · rw [if_neg hok]
    refine ⟨⟨fun h => absurd rfl h.1, fun h => absurd ⟨h.1, h.2.1⟩ hok⟩, ?_⟩
    intro entries hentries
    cases hentries

namespace Example

def graph (n : UInt8) : GraphId := Vector.replicate 16 n

def keccak256 (data : Bytes) : Bytes32 :=
  if data = (graph 7).toList ++ List.replicate 16 0 ++ baseSlot.toList then
    beBytes32 0x36ea49f58c6e5a2f1e8236ce0581a28f9b71048320d114319f5fcbe3003b3ff7
  else if data = (graph 9).toList ++ List.replicate 16 0 ++ baseSlot.toList then
    beBytes32 0x4b3f25f1350a4456ed78e41c336077a94779d3890f481feabe16e9143435b451
  else beBytes32 0

def slots (paid : List GraphId) (block : UInt64) (address : Address) (slot : Bytes32) : Nat :=
  if block ≠ 0 ∧ address = contract ∧ slot ∈ paid.map fun graphId =>
        keccak256 (graphId.toList ++ List.replicate 16 0 ++ baseSlot.toList) then 1
  else 0

def ledgerOf (txs : List ChainTx) (paid : List GraphId) : Ledger where
  toWorld := chainOf txs
  slots := slots paid

def library (paid : List GraphId) : StateChain.Env where
  sha256 := Sha256.digest
  decodeTx _ := none
  decodeMsgNewEthBlock _ := none
  lightBlockFromSlice _ := some ⟨⟨.none, none, []⟩, [], []⟩
  verifyValidatorSets _ := true
  verifyCommit _ := true
  keccak256 := keccak256
  hashSlow header := header.parentHash
  execute input checks :=
    if ∀ check ∈ checks, slots paid input.currentBlock.number check.contract check.slot =
      check.value
    then some input.currentBlock
    else none

theorem nodes_reliable {txs : List ChainTx}
    (h : ∀ tx ∈ txs, (txs.find? fun other => other.txid = tx.txid) = some tx)
    (range : List UInt64) :
    Reliable (nodes txs []) (chainOf txs) range where
  truthful := nodes_truthful [] h
  urlParses := rfl
  writes := rfl
  getBlock _ _ := rfl
  getTransactionByHash block _ tx hmem := by
    have hin : tx ∈ txs := by
      change tx ∈ (if block = 1 then txs else []) at hmem
      split at hmem
      · exact hmem
      · cases hmem
    simp only [nodes, List.not_mem_nil, if_false, h tx hin]
    rfl
  executionBlock block _ := ⟨executionBlock block, Vector.replicate 32 0, rfl, rfl⟩
  consensusBlock block _ height := ⟨block, [], _, [], rfl, rfl, rfl, rfl⟩

theorem ledger_executes {txs : List ChainTx} {paid : List GraphId}
    (hcalled : ∀ address graphId, Called (chainOf txs) targets 1 address graphId →
      address = contract ∧ graphId ∈ paid)
    (hfailed : paid = [] ∨ ∃ tx ∈ txs, tx.call.succeeded = true) :
    Executes (library paid) (ledgerOf txs paid) targets (blockRange 1 1) := by
  have hrange : ∀ block ∈ blockRange 1 1, block = 1 := fun block hblock =>
    List.mem_singleton.mp hblock
  refine ⟨?_, ?_, ?_⟩
  · intro block hblock address graphId hcall
    obtain rfl := hrange block hblock
    obtain ⟨rfl, hpaid⟩ := hcalled address graphId hcall
    exact if_pos ⟨by decide, rfl, List.mem_map.mpr ⟨graphId, hpaid, rfl⟩⟩
  · intro block hblock hall
    obtain rfl := hrange block hblock
    rcases hfailed with rfl | ⟨tx, htx, hok⟩
    · funext address slot
      simp [ledgerOf, slots]
    · have hno := hall tx htx tx.call List.mem_cons_self
      cases hok.symm.trans hno
  · intro block _
    exact ⟨(executionBlock block).currentBlock, fun checks => rfl⟩

def transfer : List ChainTx := [txOf 1 ⟨some contract, [], true⟩]

def reverted : List ChainTx := [txOf 1 (callFor 9 false)]

end Example

section

open Example

theorem not_called_of_failed {txs : List ChainTx} {address : Address} {graphId : GraphId}
    (h : ∀ tx ∈ txs, tx.inner = [] ∧ (tx.call.succeeded = false ∨ tx.call.input.length < 4)) :
    ¬ Called (chainOf txs) targets 1 address graphId := by
  rintro ⟨tx, htx, call, hcall, target, htarget, -, hok, -, hmethod, -⟩
  obtain ⟨hinner, hbad⟩ := h tx htx
  rw [hinner, List.mem_singleton] at hcall
  subst hcall
  rcases hbad with hbad | hshort
  · cases hok.symm.trans hbad
  · -- shorter than a selector
    have hlen := congrArg List.length hmethod
    rw [List.length_take, Vector.length_toList] at hlen
    omega

theorem fetchStateChain_provable_single :
    Reliable (nodes single []) (chainOf single) (blockRange 1 1) ∧
      Executes (library [graph 7]) (ledgerOf single [graph 7]) targets (blockRange 1 1) ∧
      fetchStateChain (nodes single []) addresses methodIds 1 1 ≠ .error .panic ∧
      ∀ entries, fetchStateChain (nodes single []) addresses methodIds 1 1 = .ok entries →
        ∀ entry ∈ entries, ∀ withdrawal ∈ entry.withdrawals, ∀ graphId ∈ withdrawal.graphIds,
          SlotPasses (library [graph 7]) entry.evmBlock withdrawal graphId := by
  have hreliable : Reliable (nodes single []) (chainOf single) (blockRange 1 1) :=
    nodes_reliable (by decide +kernel) _
  have hexecutes : Executes (library [graph 7]) (ledgerOf single [graph 7]) targets
      (blockRange 1 1) := by
    apply ledger_executes
    · rintro address graphId ⟨tx, htx, call, hcall, target, htarget, rfl, -, -, -, hgraph⟩
      obtain rfl := List.mem_singleton.mp htx
      obtain rfl := List.mem_singleton.mp htarget
      obtain rfl := List.mem_singleton.mp hcall
      refine ⟨rfl, List.mem_singleton.mpr ?_⟩
      apply Vector.toList_inj.mp
      rw [← hgraph]
      decide +kernel
    · exact Or.inr ⟨_, List.mem_singleton_self _, rfl⟩
  refine ⟨hreliable, hexecutes, ?_⟩
  apply (fetchStateChain_provable_iff parseTargets_eq hreliable hexecutes).1.mpr
  refine ⟨by decide, ?_, ?_⟩
  · intro block hblock tx htx
    obtain rfl := List.mem_singleton.mp hblock
    obtain rfl := List.mem_singleton.mp htx
    decide +kernel
  · intro block hblock address event hfind
    obtain rfl := List.mem_singleton.mp hblock
    have hcalls : blockCalls (chainOf single) targets 1 = [⟨1, graph 7, contract⟩] := by
      decide +kernel
    change (blockCalls (chainOf single) targets 1).find? _ = _ at hfind
    obtain rfl := List.mem_singleton.mp (List.mem_of_find?_eq_some hfind)
    have haddress : contract = address := by simpa using List.find?_some hfind
    rw [← haddress]
    decide +kernel

/-- A plain transfer to the contract makes the fetching panic, and a failed call for a graph that is
not being withdrawn has a slot listed that the executor refuses. -/
theorem fetchStateChain_stalled_by_user :
    (Reliable (nodes transfer []) (chainOf transfer) (blockRange 1 1) ∧
      Executes (library []) (ledgerOf transfer []) targets (blockRange 1 1) ∧
      fetchStateChain (nodes transfer []) addresses methodIds 1 1 = .error .panic) ∧
    Reliable (nodes reverted []) (chainOf reverted) (blockRange 1 1) ∧
      Executes (library []) (ledgerOf reverted []) targets (blockRange 1 1) ∧
      fetchStateChain (nodes reverted []) addresses methodIds 1 1 =
        .ok [entryWith [⟨contract, baseSlot, [graph 9]⟩]] ∧
      ¬ SlotPasses (library []) (executionBlock 1) ⟨contract, baseSlot, [graph 9]⟩ (graph 9) := by
  refine ⟨⟨nodes_reliable (by decide +kernel) _,
      ledger_executes ?_ (Or.inl rfl), by decide +kernel⟩,
    nodes_reliable (by decide +kernel) _, ledger_executes ?_ (Or.inl rfl), by decide +kernel, ?_⟩
  · intro address graphId hcalled
    exact absurd hcalled (not_called_of_failed (by decide +kernel))
  · intro address graphId hcalled
    exact absurd hcalled (not_called_of_failed (by decide +kernel))
  · rintro ⟨header, hheader⟩
    have hnone : executeElBlockAndCheckWithdrawTx (library []) [⟨contract, baseSlot, [graph 9]⟩]
        (executionBlock 1) = none := by decide +kernel
    cases hheader

end

end BitvmNode.StateChainHost
