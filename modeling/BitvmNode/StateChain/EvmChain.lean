import BitvmNode.Reasoning.MachineWords
import BitvmNode.StateChain.Chain

/-!
# The execution chain behind a state

What an accepted state says of the execution blocks that led to it: they form a chain from the
genesis block, the consensus block that is kept names the last of them, and every withdrawal that is
kept was checked in one of them after the first.
-/

namespace BitvmNode.StateChain

open Reasoning CommitChain

variable (env : Env)

def NamedBy (bytes : Bytes) (header : EvmHeader) : Prop :=
  ∃ cosmosBlock txs, env.lightBlockFromSlice bytes = some cosmosBlock ∧
    cosmosBlock.header.dataHash = some (.sha256 (merkleRootFromBase64Txns env.toCbft txs)) ∧
    Names env.toCbft txs header.number (env.hashSlow header) header.parentHash

/-- The consensus block supplied with `block` has the supplied transactions, and the first of them
names `header`. -/
def CommittedBy (block : CircuitStateBlock) (header : EvmHeader) : Prop :=
  ∃ cosmosBlock, env.lightBlockFromSlice block.cosmosBlock = some cosmosBlock ∧
    cosmosBlock.header.dataHash =
      some (.sha256 (merkleRootFromBase64Txns env.toCbft block.cosmosTxns)) ∧
    Names env.toCbft block.cosmosTxns header.number (env.hashSlow header) header.parentHash

variable {block : CircuitStateBlock} {header : EvmHeader}

variable {env} in
theorem CommittedBy.namedBy (h : CommittedBy env block header) :
    NamedBy env block.cosmosBlock header := by
  obtain ⟨cosmosBlock, hparse, hdata, hnames⟩ := h
  exact ⟨cosmosBlock, block.cosmosTxns, hparse, hdata, hnames⟩

def CheckedIn (withdrawal : WithdrawalSlot) (header : EvmHeader) : Prop :=
  ∃ withdrawals input, withdrawal ∈ withdrawals ∧
    executeElBlockAndCheckWithdrawTx env withdrawals input = some header

namespace StateChainState

variable {env} {s s' : StateChainState} {block : CircuitStateBlock}

theorem dataHash_eq_some {cosmosBlock : LightBlock} {digest : Bytes32}
    (h : dataHash cosmosBlock = some digest) :
    cosmosBlock.header.dataHash = some (.sha256 digest) := by
  unfold dataHash at h
  split at h
  · rename_i hdata
    cases h
    exact hdata
  · cases h

theorem checkLink_eq_some {evmHeader : EvmHeader} {cosmosBlock : LightBlock} {u : Unit}
    (hparse : env.lightBlockFromSlice block.cosmosBlock = some cosmosBlock)
    (hnumber : evmHeader.number = block.evmBlock.currentBlock.number)
    (h : s.checkLink env block evmHeader cosmosBlock = some u) :
    evmHeader.parentHash = s.latestEvmBlockHash ∧ CommittedBy env block evmHeader := by
  simp only [checkLink, Option.bind_eq_bind, Option.bind_eq_some_iff, guard_eq_some,
    exists_const] at h
  obtain ⟨hparent, digest, hdigest, hcheck⟩ := h
  obtain ⟨hnames, rfl⟩ := checkElBlockFromPayload_eq_some _ hcheck
  refine ⟨hparent, cosmosBlock, hparse, dataHash_eq_some hdigest, ?_⟩
  rw [hnumber, hparent]
  exact hnames

theorem applyBlock_iff : s.applyBlock env block = some s' ↔
    ∃ header, executeElBlockAndCheckWithdrawTx env block.withdrawals block.evmBlock = some header ∧
      header.number = block.evmBlock.currentBlock.number ∧ header.number = s.evmBlockHeight ∧
      ∃ cosmosBlock, env.lightBlockFromSlice block.cosmosBlock = some cosmosBlock ∧
      ∃ withdrawals, s.linkBlock env block header cosmosBlock = some withdrawals ∧
        (⟨s.evmBlockHeight + 1, s.genesisEvmBlockHash, env.hashSlow header, block.cosmosBlock,
          withdrawals⟩ : StateChainState) = s' := by
  simp only [applyBlock, Option.bind_eq_bind, Option.bind_eq_some_iff, guard_eq_some, exists_const,
    Option.some.injEq]

theorem applyBlock_eq_some (h : s.applyBlock env block = some s') :
    ∃ header, executeElBlockAndCheckWithdrawTx env block.withdrawals block.evmBlock = some header ∧
      header.number = s.evmBlockHeight ∧ s'.evmBlockHeight = s.evmBlockHeight + 1 ∧
      s'.genesisEvmBlockHash = s.genesisEvmBlockHash ∧ s'.latestEvmBlockHash = env.hashSlow header ∧
      s'.latestCosmosBlock = block.cosmosBlock ∧
      ((env.hashSlow header = s.genesisEvmBlockHash ∧ s'.withdrawals = s.withdrawals) ∨
        (env.hashSlow header ≠ s.genesisEvmBlockHash ∧
          header.parentHash = s.latestEvmBlockHash ∧ CommittedBy env block header ∧
          s'.withdrawals = s.withdrawals ++ block.withdrawals)) := by
  obtain ⟨header, hexecute, hcurrent, hnumber, cosmosBlock, hparse, withdrawals, hlink, rfl⟩ :=
    applyBlock_iff.mp h
  refine ⟨header, hexecute, hnumber, rfl, rfl, rfl, rfl, ?_⟩
  unfold linkBlock at hlink
  by_cases hgenesis : env.hashSlow header = s.genesisEvmBlockHash
  · left
    rw [if_neg (not_not.mpr hgenesis)] at hlink
    exact ⟨hgenesis, (Option.some.inj hlink).symm⟩
  · right
    rw [if_pos hgenesis] at hlink
    obtain ⟨u, hcheck, hwithdrawals⟩ := Option.bind_eq_some_iff.mp hlink
    obtain ⟨hparent, hcommitted⟩ := checkLink_eq_some hparse hcurrent hcheck
    exact ⟨hgenesis, hparent, hcommitted, (Option.some.inj hwithdrawals).symm⟩

theorem applyBlocks_keeps {blocks : List CircuitStateBlock} (h : s.applyBlocks env blocks = some s')
    {withdrawal : WithdrawalSlot}
    (hmem : withdrawal ∈ s.withdrawals ∨ ∃ block ∈ blocks, withdrawal ∈ block.withdrawals ∧
      ∀ header, executeElBlockAndCheckWithdrawTx env block.withdrawals block.evmBlock =
        some header →
        env.hashSlow header ≠ s.genesisEvmBlockHash) :
    withdrawal ∈ s'.withdrawals := by
  induction blocks generalizing s with
  | nil =>
    cases h
    rcases hmem with hmem | ⟨block, hblock, -⟩
    · exact hmem
    · cases hblock
  | cons block blocks ih =>
    obtain ⟨u, hblock, hrest⟩ := foldlM_cons_some.mp h
    obtain ⟨header, hexecute, -, -, hgenesis, -, -, hcases⟩ := applyBlock_eq_some hblock
    apply ih hrest
    rcases hmem with hmem | ⟨other, hother, hlisted, hnot⟩
    · left
      rcases hcases with ⟨-, hwithdrawals⟩ | ⟨-, -, -, hwithdrawals⟩
      · rwa [hwithdrawals]
      · rw [hwithdrawals]
        exact List.mem_append_left _ hmem
    · rcases List.mem_cons.mp hother with rfl | hother
      · left
        rcases hcases with ⟨hhash, -⟩ | ⟨-, -, -, hwithdrawals⟩
        · exact absurd hhash (hnot header hexecute)
        · rw [hwithdrawals]
          exact List.mem_append_right _ hlisted
      · right
        refine ⟨other, hother, hlisted, ?_⟩
        rwa [hgenesis]

end StateChainState

/-- The state is the one after the chain `headers`. -/
structure ProvenChain (headers : List EvmHeader) (s : StateChainState) : Prop where
  first : ∃ header, headers[0]? = some header ∧ env.hashSlow header = s.genesisEvmBlockHash
  linked : ∀ i parent header, headers[i]? = some parent → headers[i + 1]? = some header →
    header.parentHash = env.hashSlow parent
  tip : ∃ header, headers.getLast? = some header ∧ s.latestEvmBlockHash = env.hashSlow header ∧
    (1 < headers.length → NamedBy env s.latestCosmosBlock header)
  checked : ∀ withdrawal ∈ s.withdrawals, ∃ i header, 1 ≤ i ∧ headers[i]? = some header ∧
    CheckedIn env withdrawal header

def evmHeaders (blocks : List CircuitStateBlock) : List EvmHeader :=
  blocks.map (fun block => block.evmBlock.currentBlock) ++
    blocks.filterMap fun block =>
      executeElBlockAndCheckWithdrawTx env block.withdrawals block.evmBlock

variable {env} {s : StateChainState}

theorem ProvenChain.snoc {headers : List EvmHeader} {s' : StateChainState}
    (inv : ProvenChain env headers s)
    (hexecute : executeElBlockAndCheckWithdrawTx env block.withdrawals block.evmBlock = some header)
    (hparent : header.parentHash = s.latestEvmBlockHash)
    (hnamed : NamedBy env block.cosmosBlock header)
    (hgenesis : s'.genesisEvmBlockHash = s.genesisEvmBlockHash)
    (hlatest : s'.latestEvmBlockHash = env.hashSlow header)
    (hcosmos : s'.latestCosmosBlock = block.cosmosBlock)
    (hwithdrawals : s'.withdrawals = s.withdrawals ++ block.withdrawals) :
    ProvenChain env (headers ++ [header]) s' := by
  obtain ⟨head, hhead, hfirst⟩ := inv.first
  obtain ⟨last, hlast, htip, -⟩ := inv.tip
  have hpos : 0 < headers.length := (List.getElem?_eq_some_iff.mp hhead).1
  refine ⟨⟨head, ?_, ?_⟩, ?_, ⟨header, List.getLast?_concat, hlatest, ?_⟩, ?_⟩
  · rw [List.getElem?_append_left hpos, hhead]
  · rw [hgenesis, hfirst]
  · intro i parent next hpar hnext
    have hi : i + 1 < (headers ++ [header]).length := (List.getElem?_eq_some_iff.mp hnext).1
    rw [List.length_append, List.length_singleton] at hi
    rw [List.getElem?_append_left (by omega)] at hpar
    by_cases hin : i + 1 < headers.length
    · rw [List.getElem?_append_left hin] at hnext
      exact inv.linked i parent next hpar hnext
    · -- the new block names the tip as its parent
      have hlen : headers.length = i + 1 := by omega
      rw [← hlen, List.getElem?_concat_length, Option.some.injEq] at hnext
      rw [List.getLast?_eq_getElem?, hlen, Nat.add_sub_cancel, hpar, Option.some.injEq] at hlast
      rw [← hnext, hparent, htip, hlast]
  · intro _
    rw [hcosmos]
    exact hnamed
  · intro withdrawal hmem
    rw [hwithdrawals, List.mem_append] at hmem
    rcases hmem with hmem | hmem
    · obtain ⟨i, checkedIn, hi, hget, hchecked⟩ := inv.checked withdrawal hmem
      have hlt : i < headers.length := (List.getElem?_eq_some_iff.mp hget).1
      refine ⟨i, checkedIn, hi, ?_, hchecked⟩
      rw [List.getElem?_append_left hlt, hget]
    · exact ⟨headers.length, header, hpos, List.getElem?_concat_length, _, _, hmem, hexecute⟩

variable {blocks : List CircuitStateBlock}

theorem evmHeaders_append {more : List CircuitStateBlock}
    (h : header ∈ evmHeaders env blocks) : header ∈ evmHeaders env (blocks ++ more) := by
  simp only [evmHeaders, List.mem_append, List.map_append, List.filterMap_append] at h ⊢
  rcases h with h | h
  · exact Or.inl (Or.inl h)
  · exact Or.inr (Or.inl h)

theorem mem_evmHeaders_of_execute (hmem : block ∈ blocks)
    (h : executeElBlockAndCheckWithdrawTx env block.withdrawals block.evmBlock = some header) :
    header ∈ evmHeaders env blocks :=
  List.mem_append_right _ (List.mem_filterMap.mpr ⟨block, hmem, h⟩)

variable (env)

structure RunInv (n : UInt64) (blocks : List CircuitStateBlock) (headers : List EvmHeader)
    (s : StateChainState) : Prop where
  chain : ProvenChain env headers s
  height : s.evmBlockHeight = n + UInt64.ofNat blocks.length
  number : ∀ header, headers[0]? = some header → header.number = n
  executed : ∀ header ∈ headers, header ∈ evmHeaders env blocks

variable {env}

/-- The genesis block.  If the executor returns a header with another hash, that header is linked to
the block as given. -/
theorem RunInv.first {cosmosBlock : Bytes}
    (h : (StateChainState.new block.evmBlock.currentBlock.number
      (env.hashSlow block.evmBlock.currentBlock) cosmosBlock).applyBlock env block = some s) :
    ∃ headers, RunInv env block.evmBlock.currentBlock.number [block] headers s := by
  obtain ⟨header, hexecute, hnumber, hheight, hgenesis, hlatest, hcosmos, hcases⟩ :=
    StateChainState.applyBlock_eq_some h
  have hexecuted := mem_evmHeaders_of_execute (List.mem_singleton_self block) hexecute
  rcases hcases with ⟨hhash, hwithdrawals⟩ | ⟨-, hparent, hcommitted, hwithdrawals⟩
  · refine ⟨[header], ⟨?_, hheight, ?_, ?_⟩⟩
    · refine ⟨⟨header, rfl,
        hhash.trans hgenesis.symm⟩, by simp, ⟨header, rfl, hlatest, by simp⟩, ?_⟩
      rw [hwithdrawals]
      intro withdrawal hmem
      cases hmem
    · intro head hhead
      cases hhead
      exact hnumber
    · intro other hother
      rw [List.mem_singleton] at hother
      rw [hother]
      exact hexecuted
  · have start : ProvenChain env [block.evmBlock.currentBlock]
        (StateChainState.new block.evmBlock.currentBlock.number
          (env.hashSlow block.evmBlock.currentBlock) cosmosBlock) :=
      ⟨⟨_, rfl, rfl⟩, by simp, ⟨_, rfl, rfl, by simp⟩, nofun⟩
    refine ⟨[block.evmBlock.currentBlock, header],
      ⟨start.snoc hexecute hparent hcommitted.namedBy hgenesis hlatest hcosmos hwithdrawals,
        hheight, ?_, ?_⟩⟩
    · intro head hhead
      cases hhead
      rfl
    · intro other hother
      rw [List.mem_cons, List.mem_singleton] at hother
      rcases hother with rfl | rfl
      · exact List.mem_append_left _ List.mem_cons_self
      · exact hexecuted

/-- A later block extends the chain; one that hashes to the genesis hash collides with the first
block, which has another number. -/
theorem RunInv.step {n : UInt64} {headers : List EvmHeader} {s' : StateChainState}
    (inv : RunInv env n blocks headers s) (hpos : blocks ≠ []) (hlen : blocks.length < 2 ^ 64)
    (h : s.applyBlock env block = some s') :
    (∃ headers, RunInv env n (blocks ++ [block]) headers s') ∨
      CollisionIn env.hashSlow (evmHeaders env (blocks ++ [block])) := by
  obtain ⟨header, hexecute, hnumber, hheight, hgenesis, hlatest, hcosmos, hcases⟩ :=
    StateChainState.applyBlock_eq_some h
  have hexecuted : header ∈ evmHeaders env (blocks ++ [block]) :=
    mem_evmHeaders_of_execute (List.mem_append_right _ (List.mem_singleton_self block)) hexecute
  rcases hcases with ⟨hhash, -⟩ | ⟨-, hparent, hcommitted, hwithdrawals⟩
  · right
    obtain ⟨head, hhead, hfirst⟩ := inv.chain.first
    refine ⟨head, evmHeaders_append (inv.executed head (List.mem_of_getElem? hhead)), header,
      hexecuted, ?_, hfirst.trans hhash.symm⟩
    intro hsame
    -- the numbers `n` and `n + blocks.length` differ below `2 ^ 64`
    have hn : n = n + UInt64.ofNat blocks.length := by
      rw [← inv.height, ← hnumber, ← hsame, inv.number head hhead]
    have hzero : UInt64.ofNat blocks.length = 0 := by
      rw [UInt64.left_eq_add] at hn
      exact hn
    have hmod := congrArg UInt64.toNat hzero
    rw [UInt64.toNat_ofNat_of_lt' hlen] at hmod
    exact hpos (List.length_eq_zero_iff.mp hmod)
  · left
    refine ⟨headers ++ [header],
      ⟨inv.chain.snoc hexecute hparent hcommitted.namedBy hgenesis hlatest hcosmos hwithdrawals,
        ?_, ?_, ?_⟩⟩
    · rw [hheight, inv.height, List.length_append, List.length_singleton, UInt64.ofNat_add,
        UInt64.add_assoc]
      rfl
    · intro head hhead
      obtain ⟨first, hfirst, -⟩ := inv.chain.first
      rw [List.getElem?_append_left (List.getElem?_eq_some_iff.mp hfirst).1] at hhead
      exact inv.number head hhead
    · intro other hother
      rcases List.mem_append.mp hother with hother | hother
      · exact evmHeaders_append (inv.executed other hother)
      · rw [List.mem_singleton] at hother
        rw [hother]
        exact hexecuted

theorem reaches_iff {batches : List (List CircuitStateBlock)} :
    (stateChain env).Reaches batches s ↔ batches.head? ≠ some [] ∧
    ∃ block blocks, batches.flatten = block :: blocks ∧
        (StateChainState.new block.evmBlock.currentBlock.number
          (env.hashSlow block.evmBlock.currentBlock) block.cosmosBlock).applyBlocks env (block ::
            blocks) = some s := by
  constructor
  · rintro ⟨first, rest, s₀, rfl, hgenesis, hrun⟩
    obtain ⟨block, hblock, hs₀⟩ := Option.bind_eq_some_iff.mp hgenesis
    cases hs₀
    cases first with
    | nil => cases hblock
    | cons b bs =>
      cases hblock
      refine ⟨by simp, block, bs ++ rest.flatten, rfl, ?_⟩
      exact (foldlM_flatten (StateChainState.applyBlock env) _ _).symm.trans hrun
  · rintro ⟨hhead, block, blocks, hflat, hrun⟩
    cases batches with
    | nil => cases hflat
    | cons first rest =>
      cases first with
      | nil => exact absurd rfl hhead
      | cons b bs =>
        obtain ⟨rfl, -⟩ := List.cons.inj hflat
        refine ⟨b :: bs, rest, _, rfl, rfl, ?_⟩
        rw [← hflat] at hrun
        exact (foldlM_flatten (StateChainState.applyBlock env) _ _).trans hrun

theorem provenChain_of_reaches {batches : List (List CircuitStateBlock)}
    (h : (stateChain env).Reaches batches s) (hlen : batches.flatten.length ≤ 2 ^ 64) :
    (∃ headers, ProvenChain env headers s) ∨
      CollisionIn env.hashSlow (evmHeaders env batches.flatten) := by
  obtain ⟨-, block, blocks, hflat, hrun⟩ := reaches_iff.mp h
  rw [hflat] at hlen ⊢
  obtain ⟨s₁, hfirst, hrest⟩ := foldlM_cons_some.mp hrun
  have start := RunInv.first hfirst
  have hrunInv := foldlM_invariant
    (fun blocks s => blocks ≠ [] ∧ (blocks.length ≤ 2 ^ 64 →
      (∃ headers, RunInv env block.evmBlock.currentBlock.number blocks headers s) ∨
        CollisionIn env.hashSlow (evmHeaders env blocks)))
    (by
      intro xs x s s' hinv hstep
      refine ⟨by simp, fun hle => ?_⟩
      rw [List.length_append, List.length_singleton] at hle
      rcases hinv.2 (by omega) with ⟨headers, inv⟩ | hcol
      · exact inv.step hinv.1 (by omega) hstep
      · exact Or.inr (hcol.mono fun _ hmem => evmHeaders_append hmem))
    (⟨by simp, fun _ => Or.inl start⟩ : [block] ≠ [] ∧ _) hrest
  rcases hrunInv.2 hlen with ⟨headers, inv⟩ | hcol
  · exact Or.inl ⟨headers, inv.chain⟩
  · exact Or.inr hcol

end BitvmNode.StateChain
