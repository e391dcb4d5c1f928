import BitvmNode.LightClient.Propose
import BitvmNode.StateChain.EvmChain
import BitvmNode.StateChainHost.Collect

/-!
# Which calls reach the proven withdrawals

What the blocks of the execution layer hold is a parameter, and so is which requests are answered.
-/

namespace BitvmNode.StateChainHost

open Reasoning StateChain LightClient

/-- A message call; it has succeeded if its effects stand at the end of the transaction. -/
structure Call where
  toAddress : Option Address
  input : Bytes
  succeeded : Bool
  deriving DecidableEq

/-- A transaction with the calls that contracts make while it runs. -/
structure ChainTx where
  txid : Bytes32
  call : Call
  inner : List Call
  deriving DecidableEq

structure World where
  transactions : UInt64 → List ChainTx
  executionBlock : UInt64 → EthClientExecutorInput

def ChainTx.answer (tx : ChainTx) : RpcTransaction := ⟨tx.call.toAddress, tx.call.input⟩

def Call.Names (call : Call) (target : Target) (graphId : GraphId) : Prop :=
  call.succeeded = true ∧ call.toAddress = some target.contract ∧
    call.input.take 4 = target.methodId.toList ∧ (call.input.drop 4).take 16 = graphId.toList

/-- The block holds a successful call of a configured method of the contract for the graph. -/
def Called (world : World) (targets : List Target) (block : UInt64) (contract : Address)
    (graphId : GraphId) : Prop :=
  ∃ tx ∈ world.transactions block, ∃ call ∈ tx.call :: tx.inner, ∃ target ∈ targets,
    target.contract = contract ∧ call.Names target graphId

/-- Whatever is answered is true. -/
structure Truthful (rpc : Rpc) (world : World) : Prop where
  getBlock : ∀ block txids, rpc.getBlock block = .found txids →
    txids = (world.transactions block).map ChainTx.txid
  getTransactionByHash : ∀ block, ∀ tx ∈ world.transactions block, ∀ txn,
    rpc.getTransactionByHash tx.txid = .found txn → txn = tx.answer
  fetchExecutionLayerBlock : ∀ block input, rpc.fetchExecutionLayerBlock block = some input →
    input = world.executionBlock block

def Answer.isFound {α : Type} : Answer α → Bool
  | .found _ => true
  | _ => false

section Completeness

variable (rpc : Rpc) (world : World) (targets : List Target)

def seen (block : UInt64) : List ChainTx :=
  if (rpc.getBlock block).isFound then
    (world.transactions block).filter fun tx => (rpc.getTransactionByHash tx.txid).isFound
  else []

theorem answeredTxs_eq (htruth : Truthful rpc world) (block : UInt64) :
    answeredTxs rpc block = (seen rpc world block).map ChainTx.answer := by
  unfold answeredTxs seen
  cases hblock : rpc.getBlock block with
  | missing | failed => rfl
  | found txids =>
    have htx := htruth.getTransactionByHash block
    change List.filterMap _ txids = (List.filter _ (world.transactions block)).map ChainTx.answer
    rw [htruth.getBlock block txids hblock]
    generalize world.transactions block = txs at htx
    induction txs with
    | nil => rfl
    | cons tx txs ih =>
      have ih := ih fun tx' hmem => htx tx' (List.mem_cons_of_mem _ hmem)
      rw [List.map_cons, List.filterMap_cons, List.filter_cons]
      cases hfound : rpc.getTransactionByHash tx.txid with
      | missing | failed => exact ih
      | found txn =>
        rw [htx tx List.mem_cons_self txn hfound]
        exact congrArg (tx.answer :: ·) ih

def seenCalls (block : UInt64) : List Event :=
  (seen rpc world block).flatMap fun tx => callsOf targets block tx.answer

theorem calls_eq (htruth : Truthful rpc world) (block : UInt64) :
    calls rpc targets block = seenCalls rpc world targets block := by
  rw [calls, answeredTxs_eq rpc world htruth, List.flatMap_map, seenCalls]

def SeenOk (block : UInt64) : Prop :=
  ∀ tx ∈ seen rpc world block, CalldataOk targets tx.answer

theorem rangeOk_iff (htruth : Truthful rpc world) (range : List UInt64) :
    RangeOk rpc targets range ↔ ∀ block ∈ range, SeenOk rpc world targets block := by
  unfold RangeOk SeenOk
  simp only [answeredTxs_eq rpc world htruth, List.forall_mem_map]

/-- Every successful call of a contract names the graph of the first call of the contract that the
node learns of, which may have failed. -/
def NamedByFirst (block : UInt64) : Prop :=
  ∀ contract graphId, Called world targets block contract graphId →
    ∃ event, ((seenCalls rpc world targets block).find? fun first => first.contract = contract) =
      some event ∧ event.graphId = graphId

def blockNumbers (start batchSize : UInt64) : List UInt64 :=
  (List.range batchSize.toNat).map fun k => start + UInt64.ofNat k

variable {start batchSize : UInt64}

theorem blockRange_eq (h : start.toNat + batchSize.toNat < 2 ^ 64) :
    blockRange start batchSize = blockNumbers start batchSize := by
  have hend : (start + batchSize).toNat = start.toNat + batchSize.toNat := by
    rw [UInt64.toNat_add, Nat.mod_eq_of_lt h]
  rw [blockRange, blockNumbers, hend, Nat.add_sub_cancel_left]

theorem blockRange_eq_nil (h : ¬ start.toNat + batchSize.toNat < 2 ^ 64) :
    blockRange start batchSize = [] := by
  have hb : batchSize.toNat < 2 ^ 64 := batchSize.toNat_lt
  have hend : (start + batchSize).toNat ≤ start.toNat := by
    rw [UInt64.toNat_add]
    omega
  rw [blockRange, Nat.sub_eq_zero_of_le hend]
  rfl

/-- One entry for each block, in order, under which every graph of a successful call is listed. -/
def Complete (start batchSize : UInt64) (entries : List CircuitStateBlock) : Prop :=
  List.Forall₂
    (fun block entry => entry.evmBlock = world.executionBlock block ∧
      ∀ contract graphId, Called world targets block contract graphId →
        ∃ withdrawal ∈ entry.withdrawals, withdrawal.contract = contract ∧
          graphId ∈ withdrawal.graphIds)
    (blockNumbers start batchSize) entries

theorem requestBlock_evmBlock {block : UInt64}
    {answers : List Bytes × Bytes × EthClientExecutorInput}
    (h : requestBlock rpc start batchSize block = .ok answers) :
    rpc.fetchExecutionLayerBlock block = some answers.2.2 := by
  simp only [requestBlock, except_bind_eq_ok] at h
  obtain ⟨evmBlock, hevm, _, -, _, -, _, -, _, -, _, -, heq⟩ := h
  cases heq
  cases hfetch : rpc.fetchExecutionLayerBlock block with
  | none =>
    rw [hfetch] at hevm
    cases hevm
  | some input =>
    rw [hfetch] at hevm
    cases hevm
    rfl

theorem complete_iff (htruth : Truthful rpc world)
    {answers : List (List Bytes × Bytes × EthClientExecutorInput)}
    (hanswers : (blockRange start batchSize).mapM (requestBlock rpc start batchSize) =
      .ok answers) :
    Complete world targets start batchSize
        (List.zipWith (withWithdrawals ((blockRange start batchSize).flatMap (calls rpc targets)))
          (blockRange start batchSize) answers) ↔
      start.toNat + batchSize.toNat < 2 ^ 64 ∧
        ∀ block ∈ blockNumbers start batchSize, NamedByFirst rpc world targets block := by
  by_cases hfits : start.toNat + batchSize.toNat < 2 ^ 64
  · rw [and_iff_right hfits, Complete, ← blockRange_eq hfits]
    apply forall₂_zipWith_iff (forall₂_of_mapM_ok hanswers)
    intro block hblock request hrequest
    have hevm : request.2.2 = world.executionBlock block :=
      htruth.fetchExecutionLayerBlock block _ (requestBlock_evmBlock rpc hrequest)
    have hlisted : ∀ contract graphId,
        (∃ withdrawal ∈ groupWithdrawals
            ((blockRange start batchSize).flatMap (calls rpc targets)) block,
          withdrawal.contract = contract ∧ graphId ∈ withdrawal.graphIds) ↔ _ :=
      fun contract graphId =>
        listed_groupWithdrawals_iff rpc targets (blockRange_nodup start batchSize) hblock
    change (request.2.2 = _ ∧ ∀ contract graphId, _ → _) ↔ _
    rw [and_iff_right hevm, NamedByFirst, ← calls_eq rpc world targets htruth]
    simp only [withWithdrawals, hlisted]
  · -- the range is empty although blocks were asked for
    constructor
    · intro hcomplete
      rw [blockRange_eq_nil hfits, Complete, List.zipWith_nil_left, List.forall₂_nil_right_iff,
        blockNumbers, List.map_eq_nil_iff, List.range_eq_nil] at hcomplete
      have hs : start.toNat < 2 ^ 64 := start.toNat_lt
      omega
    · rintro ⟨h, -⟩
      exact absurd h hfits

/-- A graph under a complete entry is found in the proven withdrawals, unless its block is the
genesis block of the state chain. -/
theorem Complete.found {world : World} {targets : List Target} {entries : List CircuitStateBlock}
    (hcomplete : Complete world targets start batchSize entries) {env : StateChain.Env}
    {s s' : StateChainState} (happly : s.applyBlocks env entries = some s') {k : Nat}
    {block : UInt64} {entry : CircuitStateBlock}
    (hblock : (blockNumbers start batchSize)[k]? = some block) (hentry : entries[k]? = some entry)
    (hgenesis : ∀ header,
      executeElBlockAndCheckWithdrawTx env entry.withdrawals entry.evmBlock = some header →
        env.hashSlow header ≠ s.genesisEvmBlockHash) {contract : Address} {graphId : GraphId}
    (hcalled : Called world targets block contract graphId) :
    isFound graphId s'.withdrawals = true := by
  obtain ⟨hk, rfl⟩ := List.getElem?_eq_some_iff.mp hblock
  obtain ⟨hk', rfl⟩ := List.getElem?_eq_some_iff.mp hentry
  obtain ⟨-, hlisted⟩ := (List.forall₂_iff_get.mp hcomplete).2 k hk hk'
  obtain ⟨withdrawal, hmem, -, hgraph⟩ := hlisted contract graphId hcalled
  have hkept : withdrawal ∈ s'.withdrawals :=
    StateChainState.applyBlocks_keeps happly
      (Or.inr ⟨entries[k], List.getElem_mem hk', hmem, hgenesis⟩)
  rw [isFound, List.any_eq_true]
  exact ⟨withdrawal, hkept, by simpa using hgraph⟩

/-- A run returns an error or a complete list of entries exactly if it asks for a block after the
first one and one of its requests fails with an error before anything is returned, or every
successful call names the graph of the first call of its contract that was found.  What is listed in
complete entries is found in the state that they lead to. -/
theorem fetchStateChain_complete_iff {targets : List Target} {addresses methodIds : List Char}
    (hconfig : parseTargets addresses methodIds = some targets) (htruth : Truthful rpc world)
    (start batchSize : UInt64) : (((∃ failure, failure ≠ .panic ∧
          fetchStateChain rpc addresses methodIds start batchSize = .error failure) ∨
        ∃ entries, fetchStateChain rpc addresses methodIds start batchSize = .ok entries ∧
          Complete world targets start batchSize entries) ↔
      start ≠ 0 ∧ (rpc.urlParses = false ∨
          (∀ block ∈ blockRange start batchSize, SeenOk rpc world targets block) ∧
        ((∃ failure, failure ≠ .panic ∧
            (blockRange start batchSize).mapM (requestBlock rpc start batchSize) = .error failure) ∨
          (∃ answers, (blockRange start batchSize).mapM (requestBlock rpc start batchSize) =
            .ok answers) ∧
          (rpc.writes = false ∨ start.toNat + batchSize.toNat < 2 ^ 64 ∧
            ∀ block ∈ blockNumbers start batchSize, NamedByFirst rpc world targets block)))) ∧
    ∀ (entries : List CircuitStateBlock) (env : StateChain.Env) (s s' : StateChainState),
      Complete world targets start batchSize entries → s.applyBlocks env entries = some s' →
      ∀ (k : Nat) (block : UInt64) (entry : CircuitStateBlock),
        (blockNumbers start batchSize)[k]? = some block → entries[k]? = some entry →
        (∀ header, executeElBlockAndCheckWithdrawTx env entry.withdrawals entry.evmBlock =
            some header →
          env.hashSlow header ≠ s.genesisEvmBlockHash) →
        ∀ contract graphId, Called world targets block contract graphId →
          isFound graphId s'.withdrawals = true := by
  refine ⟨?_, fun entries env s s' hcomplete happly k block entry hblock hentry hgenesis _
    _ hcalled =>
    hcomplete.found happly hblock hentry hgenesis hcalled⟩
  rw [fetchStateChain_eq rpc hconfig, ← rangeOk_iff rpc world targets htruth]
  by_cases hstart : start = 0
  · simp [hstart]
  rw [if_neg hstart, and_iff_right hstart]
  by_cases hurl : rpc.urlParses = false
  · simp [hurl]
  rw [if_neg hurl, or_iff_right hurl]
  by_cases hok : RangeOk rpc targets (blockRange start batchSize)
  · rw [if_pos hok, and_iff_right hok]
    cases hanswers : (blockRange start batchSize).mapM (requestBlock rpc start batchSize) with
    | error failure =>
      -- the first request that fails decides
      simp [bind, Except.bind]
    | ok answers =>
      rw [← complete_iff rpc world targets htruth hanswers]
      cases hwrites : rpc.writes with
      | false | true => simp [bind, Except.bind]
  · simp [hok]

end Completeness

namespace Example

def contract : Address := Vector.replicate 20 0xaa

def method : Bytes := [0x12, 0x34, 0xab, 0xcd]

def addresses : List Char := ['0', 'x'] ++ List.replicate 40 'a'

def methodIds : List Char := ['1', '2', '3', '4', 'a', 'b', 'c', 'd']

def targets : List Target := [⟨contract, #v[0x12, 0x34, 0xab, 0xcd]⟩]

def callFor (graphId : UInt8) (succeeded : Bool) : Call :=
  ⟨some contract, method ++ List.replicate 16 graphId ++ List.replicate 16 0, succeeded⟩

def txOf (id : UInt8) (call : Call) : ChainTx := ⟨Vector.replicate 32 id, call, []⟩

def executionBlock (block : UInt64) : EthClientExecutorInput :=
  ⟨⟨block, Vector.replicate 32 0, some (Vector.replicate 32 0), []⟩, []⟩

def chainOf (txs : List ChainTx) : World where
  transactions block := if block = 1 then txs else []
  executionBlock := executionBlock

def nodes (txs : List ChainTx) (lost : List Bytes32) : Rpc where
  urlParses := true
  getBlock block := .found (((chainOf txs).transactions block).map ChainTx.txid)
  getTransactionByHash txid :=
    if txid ∈ lost then .failed
    else match txs.find? fun tx => tx.txid = txid with
      | some tx => .found tx.answer
      | none => .missing
  fetchExecutionLayerBlock block := some (executionBlock block)
  getCosmosBlockHeightAt _ := some 1
  fetchCbftValidatorInfo block _ := some block
  fetchCbftTxData _ := some []
  fetchCosmosBlock _ := some ⟨⟨.none, none, []⟩, [], []⟩
  cosmosBlockToVec _ := some []
  writes := true

theorem parseTargets_eq : parseTargets addresses methodIds = some targets := by decide +kernel

theorem nodes_truthful {txs : List ChainTx} (lost : List Bytes32)
    (h : ∀ tx ∈ txs, (txs.find? fun other => other.txid = tx.txid) = some tx) :
    Truthful (nodes txs lost) (chainOf txs) where
  getBlock block txids hfound := by
    injection hfound with htxids
    exact htxids.symm
  getTransactionByHash block tx hmem txn hfound := by
    have hin : tx ∈ txs := by
      change tx ∈ (if block = 1 then txs else []) at hmem
      split at hmem
      · exact hmem
      · cases hmem
    change (if tx.txid ∈ lost then Answer.failed else _) = _ at hfound
    split_ifs at hfound
    rw [h tx hin] at hfound
    injection hfound with htxn
    exact htxn.symm
  fetchExecutionLayerBlock block input hfound := by
    injection hfound with hinput
    exact hinput.symm

def entryWith (withdrawals : List WithdrawalSlot) : CircuitStateBlock :=
  ⟨[], [], executionBlock 1, withdrawals⟩

def single : List ChainTx := [txOf 1 (callFor 7 true)]

def pair : List ChainTx := [txOf 1 (callFor 7 true), txOf 2 (callFor 8 true)]

end Example

section

open Example

theorem fetchStateChain_complete_single : parseTargets addresses methodIds = some targets ∧
      Truthful (nodes single []) (chainOf single) ∧
      fetchStateChain (nodes single []) addresses methodIds 1 1 =
        .ok [entryWith [⟨contract, baseSlot, [Vector.replicate 16 7]⟩]] ∧
      Complete (chainOf single) targets 1 1
        [entryWith [⟨contract, baseSlot, [Vector.replicate 16 7]⟩]] := by
  have htruth : Truthful (nodes single []) (chainOf single) := nodes_truthful [] (by decide +kernel)
  have hrun : fetchStateChain (nodes single []) addresses methodIds 1 1 =
      .ok [entryWith [⟨contract, baseSlot, [Vector.replicate 16 7]⟩]] := by decide +kernel
  refine ⟨parseTargets_eq, htruth, hrun, ?_⟩
  have hrange : blockRange 1 1 = [1] := by decide +kernel
  have hnumbers : blockNumbers 1 1 = [1] := by decide +kernel
  have hseen : SeenOk (nodes single []) (chainOf single) targets 1 := by
    intro tx htx
    rw [List.mem_singleton.mp htx]
    decide +kernel
  have hfirst : NamedByFirst (nodes single []) (chainOf single) targets 1 := by
    rintro c g ⟨tx, htx, call, hcall, target, htarget, rfl, -, -, -, hgraph⟩
    obtain rfl := List.mem_singleton.mp htx
    obtain rfl := List.mem_singleton.mp htarget
    obtain rfl := List.mem_singleton.mp hcall
    refine ⟨⟨1, Vector.replicate 16 7, contract⟩, by decide +kernel, ?_⟩
    apply Vector.toList_inj.mp
    rw [← hgraph]
    decide +kernel
  -- the run does not fail, so the theorem's other case holds
  rcases (fetchStateChain_complete_iff _ _ parseTargets_eq htruth 1 1).1.mpr
    ⟨by decide, Or.inr ⟨by rw [hrange]; simpa using hseen, Or.inr ⟨⟨_, by rfl⟩, Or.inr ⟨by decide,
      by rw [hnumbers]; simpa using hfirst⟩⟩⟩⟩ with ⟨failure, -, hfail⟩ | ⟨entries, hok, hcomplete⟩
  · cases hrun.symm.trans hfail
  · cases hrun.symm.trans hok
    exact hcomplete

/-- Two successful calls of one contract for different graphs: only the first graph is listed.  And
one call whose transaction could not be fetched: nothing is listed.  Neither run fails. -/
theorem fetchStateChain_drops_withdrawal : (Truthful (nodes pair []) (chainOf pair) ∧
      Called (chainOf pair) targets 1 contract (Vector.replicate 16 8) ∧
      fetchStateChain (nodes pair []) addresses methodIds 1 1 =
        .ok [entryWith [⟨contract, baseSlot, [Vector.replicate 16 7]⟩,
          ⟨contract, baseSlot, [Vector.replicate 16 7]⟩]] ∧
      ¬ Complete (chainOf pair) targets 1 1
          [entryWith [⟨contract, baseSlot, [Vector.replicate 16 7]⟩,
          ⟨contract, baseSlot, [Vector.replicate 16 7]⟩]]) ∧
    Truthful (nodes single [Vector.replicate 32 1]) (chainOf single) ∧
      Called (chainOf single) targets 1 contract (Vector.replicate 16 7) ∧
      fetchStateChain (nodes single [Vector.replicate 32 1]) addresses methodIds 1 1 =
        .ok [entryWith []] ∧
      ¬ Complete (chainOf single) targets 1 1 [entryWith []] := by
  have hpair : Called (chainOf pair) targets 1 contract (Vector.replicate 16 8) :=
    ⟨txOf 2 (callFor 8 true), List.mem_cons_of_mem _ List.mem_cons_self, callFor 8 true,
      List.mem_cons_self, _, List.mem_singleton_self _, rfl, rfl, rfl, by decide +kernel,
      by decide +kernel⟩
  have hsingle : Called (chainOf single) targets 1 contract (Vector.replicate 16 7) :=
    ⟨txOf 1 (callFor 7 true), List.mem_cons_self, callFor 7 true, List.mem_cons_self, _,
      List.mem_singleton_self _, rfl, rfl, rfl, by decide +kernel, by decide +kernel⟩
  refine ⟨⟨nodes_truthful _ (by decide +kernel), hpair, by decide +kernel, ?_⟩,
    nodes_truthful _ (by decide +kernel), hsingle, by decide +kernel, ?_⟩
  · intro hcomplete
    obtain ⟨-, hlisted⟩ := (List.forall₂_cons.mp hcomplete).1
    obtain ⟨withdrawal, hmem, -, hgraph⟩ := hlisted contract _ hpair
    have hall : ∀ withdrawal ∈ (entryWith [⟨contract, baseSlot, [Vector.replicate 16 7]⟩,
        ⟨contract, baseSlot, [Vector.replicate 16 7]⟩]).withdrawals,
        Vector.replicate 16 8 ∉ withdrawal.graphIds := by decide +kernel
    exact hall withdrawal hmem hgraph
  · intro hcomplete
    obtain ⟨-, hlisted⟩ := (List.forall₂_cons.mp hcomplete).1
    obtain ⟨withdrawal, hmem, -⟩ := hlisted contract _ hsingle
    cases hmem

end

end BitvmNode.StateChainHost
