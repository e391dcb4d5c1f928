import BitvmNode.HeaderChain.ChainSoundness
import BitvmNode.Reasoning.HashChains

/-!
# Cutting a header chain into batches

Everything the loop keeps in locals can be read back from the state it leaves, so a list of headers
is accepted in one batch exactly when it is accepted in two, except where the first batch would end
at the height that stands for the empty chain.
-/

namespace BitvmNode.HeaderChain

open Reasoning

variable (cfg : Config)

/-- The locals of the loop in terms of the state. -/
structure LocalsInv (l : LoopState) : Prop where
  size : l.state.blockHashesMmr.size = l.state.blockHeight + 1
  target : l.currentTargetBytes =
    if cfg.isRegtest then beBytes32 cfg.constants.maxTarget
    else bitsToTarget l.state.currentTargetBits
  work : l.currentWork < 2 ^ 256
  lastTime : l.state.blockHeight ≠ 0xFFFFFFFF → l.lastBlockTime =
    if cfg.isTestnet4 then l.state.prev11Timestamps[ringSlot l.state.blockHeight.toNat] else 0
  lastTimeElse : cfg.isTestnet4 = false → l.lastBlockTime = 0

variable {s : ChainState}

theorem LocalsInv.start (hsize : s.blockHashesMmr.size = s.blockHeight + 1) :
    LocalsInv cfg (LoopState.start cfg s) where
  size := hsize
  target := rfl
  work := beNat_bytes32_lt s.totalWork
  lastTime := by
    intro hheight
    simp only [LoopState.start] at hheight ⊢
    rw [if_neg hheight]
  lastTimeElse := by
    intro htest
    simp only [LoopState.start, htest, Bool.false_eq_true, if_false]

variable {l l' : LoopState}

theorem LocalsInv.step {header : CircuitBlockHeader} (inv : LocalsInv cfg l)
    (hstep : l.applyBlock cfg header = some l') : LocalsInv cfg l' := by
  obtain ⟨-, -, -, -, mmr, hmmr, rfl⟩ := (LoopState.applyBlock_eq_some cfg).mp hstep
  refine
    { size := ?_, target := ?_, work := Nat.mod_lt _ (by decide), lastTime := ?_
      lastTimeElse := ?_ }
  · change mmr.size = l.state.blockHeight + 1 + 1
    obtain ⟨stack, -, hsize⟩ := Option.bind_eq_some_iff.mp hmmr
    rw [← Option.some.inj hsize, inv.size]
  · simp only [LoopState.advance]
    rw [inv.target]
    cases cfg.isRegtest with
    | true => simp
    | false => by_cases hlast : (l.state.blockHeight + 1) % blocksPerEpoch = blocksPerEpoch - 1 <;>
        simp [hlast]
  · intro _
    cases htest : cfg.isTestnet4 with
    | true => simp [LoopState.advance, htest]
    | false => simp [LoopState.advance, htest, inv.lastTimeElse htest]
  · intro htest
    simp [LoopState.advance, htest, inv.lastTimeElse htest]

variable {headers : List CircuitBlockHeader}

theorem LocalsInv.run (inv : LocalsInv cfg l)
    (hrun : headers.foldlM (LoopState.applyBlock cfg) l = some l') : LocalsInv cfg l' :=
  foldlM_preserves (fun _ _ _ hinv hstep => hinv.step cfg hstep) inv hrun

theorem applyBlock_height_run (hrun : headers.foldlM (LoopState.applyBlock cfg) l = some l') :
    l'.state.blockHeight = l.state.blockHeight + UInt32.ofNat headers.length := by
  induction headers generalizing l with
  | nil =>
    cases hrun
    simp
  | cons header headers ih =>
    obtain ⟨u, hu, hrest⟩ := foldlM_cons_some.mp hrun
    obtain ⟨-, -, -, -, mmr, -, rfl⟩ := (LoopState.applyBlock_eq_some cfg).mp hu
    rw [ih hrest, List.length_cons, ← u32_ofNat_add_one, UInt32.add_comm (UInt32.ofNat _) 1,
      ← UInt32.add_assoc]
    rfl

def LoopState.withTotalWork (w : Bytes32) (l : LoopState) : LoopState :=
  { l with state := { l.state with totalWork := w } }

theorem LoopState.applyBlock_withTotalWork (w : Bytes32) (l : LoopState)
    (header : CircuitBlockHeader) :
    (l.withTotalWork w).applyBlock cfg header =
      (l.applyBlock cfg header).map (LoopState.withTotalWork w) := by
  apply Option.ext
  intro l'
  rw [LoopState.applyBlock_eq_some, Option.map_eq_some_iff]
  constructor
  · rintro ⟨hprev, hbits, hhash, htime, mmr, hmmr, rfl⟩
    exact ⟨_, (LoopState.applyBlock_eq_some cfg).mpr ⟨hprev, hbits, hhash, htime, mmr, hmmr, rfl⟩,
      rfl⟩
  · rintro ⟨u, hu, rfl⟩
    obtain ⟨hprev, hbits, hhash, htime, mmr, hmmr, rfl⟩ := (LoopState.applyBlock_eq_some cfg).mp hu
    exact ⟨hprev, hbits, hhash, htime, mmr, hmmr, rfl⟩

theorem LoopState.run_withTotalWork (w : Bytes32) (l : LoopState)
    (headers : List CircuitBlockHeader) :
    headers.foldlM (LoopState.applyBlock cfg) (l.withTotalWork w) =
      (headers.foldlM (LoopState.applyBlock cfg) l).map (LoopState.withTotalWork w) := by
  induction headers generalizing l with
  | nil => rfl
  | cons header headers ih =>
    rw [List.foldlM_cons, List.foldlM_cons, LoopState.applyBlock_withTotalWork]
    cases LoopState.applyBlock cfg l header with
    | none => rfl
    | some u => exact ih u

theorem LocalsInv.finish (inv : LocalsInv cfg l) (s : ChainState) :
    l.finish = some s ↔ l.state.blockHeight ≠ 0xFFFFFFFF ∧
      s = { l.state with totalWork := beBytes32 l.currentWork } := by
  unfold LoopState.finish
  rw [Option.ite_none_left_eq_some, if_neg (not_not.mpr inv.size), Option.some.injEq,
    eq_comm (b := s)]

theorem LocalsInv.start_finish (inv : LocalsInv cfg l)
    (hheight : l.state.blockHeight ≠ 0xFFFFFFFF) :
    LoopState.start cfg { l.state with totalWork := beBytes32 l.currentWork } =
      l.withTotalWork (beBytes32 l.currentWork) := by
  unfold LoopState.start LoopState.withTotalWork
  rw [beNat_beBytes32, Nat.mod_eq_of_lt inv.work, inv.target, inv.lastTime hheight, if_neg hheight]

theorem applyBlocks_size {s' : ChainState} (h : s.applyBlocks cfg headers = some s') :
    s'.blockHashesMmr.size = s'.blockHeight + 1 := by
  obtain ⟨l, -, hfinish⟩ := Option.bind_eq_some_iff.mp h
  unfold LoopState.finish at hfinish
  simp only [Option.ite_none_left_eq_some, Option.some.injEq, ne_eq, not_not] at hfinish
  obtain ⟨-, hsize, rfl⟩ := hfinish
  exact hsize

variable {batches : List (List CircuitBlockHeader)}

theorem applyBatches_size (h : (ChainState.new cfg).applyBatches cfg batches = some s) :
    s.blockHashesMmr.size = s.blockHeight + 1 := by
  have hstep : ∀ headers (s s' : ChainState), s.blockHashesMmr.size = s.blockHeight + 1 →
      s.applyBlocks cfg headers = some s' → s'.blockHashesMmr.size = s'.blockHeight + 1 :=
    fun _ _ _ _ happly => applyBlocks_size cfg happly
  have hstart : (ChainState.new cfg).blockHashesMmr.size =
    (ChainState.new cfg).blockHeight + 1 := by
    change (0 : UInt32) = 0xFFFFFFFF + 1
    decide
  have hend := foldlM_preserves hstep hstart h
  exact hend

/-- From every reachable state, `a ++ b` in one batch is `a` and then `b`, unless the first batch
would end at the height of the empty chain, where it fails. -/
theorem applyBlocks_append (batches : List (List CircuitBlockHeader)) (s : ChainState)
    (hreach : (ChainState.new cfg).applyBatches cfg batches = some s)
    (a b : List CircuitBlockHeader) (t : ChainState) :
    (s.applyBlocks cfg (a ++ b) = some t ∧ s.blockHeight + UInt32.ofNat a.length ≠ 0xFFFFFFFF) ↔
      ∃ u, s.applyBlocks cfg a = some u ∧ u.applyBlocks cfg b = some t := by
  have hstart := LocalsInv.start cfg (applyBatches_size cfg hreach)
  unfold ChainState.applyBlocks
  simp only [Option.bind_eq_bind, Option.bind_eq_some_iff, foldlM_append_some]
  constructor
  · rintro ⟨⟨l', ⟨l, ha, hb⟩, hfinish⟩, hheight⟩
    have inv := hstart.run cfg ha
    have hne : l.state.blockHeight ≠ 0xFFFFFFFF := by
      rw [applyBlock_height_run cfg ha]
      exact hheight
    refine ⟨_, ⟨l, ha, (inv.finish cfg _).mpr ⟨hne, rfl⟩⟩, ?_⟩
    rw [inv.start_finish cfg hne, LoopState.run_withTotalWork, hb]
    exact ⟨_, rfl, hfinish⟩
  · rintro ⟨u, ⟨l, ha, hu⟩, l', hb, hfinish⟩
    have inv := hstart.run cfg ha
    obtain ⟨hne, rfl⟩ := (inv.finish cfg u).mp hu
    rw [inv.start_finish cfg hne, LoopState.run_withTotalWork, Option.map_eq_some_iff] at hb
    obtain ⟨m, hm, rfl⟩ := hb
    refine ⟨⟨m, ⟨l, ha, hm⟩, hfinish⟩, ?_⟩
    rw [applyBlock_height_run cfg ha] at hne
    exact hne

theorem applyBlocks_append_mainnet :
    ∃ t u, ((ChainState.new mainnetConfig).applyBlocks mainnetConfig
        ([mainnetGenesis] ++ [mainnetBlockOne]) = some t) ∧
      (ChainState.new mainnetConfig).applyBlocks mainnetConfig [mainnetGenesis] = some u ∧
      u.applyBlocks mainnetConfig [mainnetBlockOne] = some t := by
  have haccept : ((ChainState.new mainnetConfig).applyBlocks mainnetConfig
      ([mainnetGenesis] ++ [mainnetBlockOne])).isSome = true := by decide +kernel
  obtain ⟨t, ht⟩ := Option.isSome_iff_exists.mp haccept
  obtain ⟨u, hu⟩ := (applyBlocks_append mainnetConfig [] (ChainState.new mainnetConfig) rfl
    [mainnetGenesis] [mainnetBlockOne] t).mp ⟨ht, by decide⟩
  exact ⟨t, u, ht, hu⟩

/-- An empty first batch on the fresh state fails although the whole list is accepted. -/
theorem applyBlocks_empty_first :
    ((ChainState.new mainnetConfig).applyBlocks mainnetConfig ([] ++ [mainnetGenesis])).isSome =
      true ∧
      (ChainState.new mainnetConfig).applyBlocks mainnetConfig [] = none := by
  decide +kernel

/-- Each header names the hash of the one before, the first one zero. -/
abbrev HeadersTo (headers : List CircuitBlockHeader) (tip : Bytes32) : Prop :=
  Chained (CircuitBlockHeader.computeBlockHash cfg.sha256) CircuitBlockHeader.prevBlockHash
    zero32 headers tip

theorem HeadersTo.applyBlocks {done : List CircuitBlockHeader} {s' : ChainState}
    (hdone : HeadersTo cfg done s.bestBlockHash) (h : s.applyBlocks cfg headers = some s') :
    HeadersTo cfg (done ++ headers) s'.bestBlockHash := by
  obtain ⟨l, hrun, hfinish⟩ := Option.bind_eq_some_iff.mp h
  have hloop : HeadersTo cfg (done ++ headers) l.state.bestBlockHash := by
    refine foldlM_invariant (fun headers l => HeadersTo cfg headers l.state.bestBlockHash)
      ?_ hdone hrun
    intro headers header l l' hl hstep
    obtain ⟨hprev, -, -, -, mmr, -, rfl⟩ := (LoopState.applyBlock_eq_some cfg).mp hstep
    exact .snoc header (hprev ▸ hl)
  -- the work that is written back at the end does not touch the tip
  unfold LoopState.finish at hfinish
  rw [Option.ite_none_left_eq_some, Option.ite_none_left_eq_some] at hfinish
  rw [← Option.some.inj hfinish.2.2]
  exact hloop

theorem HeadersTo.applyBatches (h : (ChainState.new cfg).applyBatches cfg batches = some s) :
    HeadersTo cfg batches.flatten s.bestBlockHash := by
  have hnil : HeadersTo cfg (List.flatten []) (ChainState.new cfg).bestBlockHash := .nil
  have hrun := foldlM_invariant (fun batches s => HeadersTo cfg batches.flatten s.bestBlockHash)
    (by
      intro batches headers s s' hs hstep
      rw [List.flatten_append, List.flatten_singleton]
      exact hs.applyBlocks cfg hstep) hnil h
  rwa [List.nil_append] at hrun

/-- Accepted batches leave the state that their headers leave in one batch. -/
theorem applyBlocks_of_applyBatches (h : (ChainState.new cfg).applyBatches cfg batches = some s) :
    (batches = [] ∧ s = ChainState.new cfg) ∨
      (ChainState.new cfg).applyBlocks cfg batches.flatten = some s := by
  have hrun := foldlM_invariant (fun batches s => (batches = [] ∧ s = ChainState.new cfg) ∨
      (ChainState.new cfg).applyBlocks cfg batches.flatten = some s)
    (by
      intro batches headers s s' hs hstep
      right
      rw [List.flatten_append, List.flatten_singleton]
      rcases hs with ⟨rfl, rfl⟩ | hs
      · exact hstep
      · -- the next batch starts where the loop over the headers so far stopped
        obtain ⟨l, hl, hfinish⟩ := Option.bind_eq_some_iff.mp hs
        obtain ⟨m, hm, hlast⟩ := Option.bind_eq_some_iff.mp hstep
        have hfresh : (ChainState.new cfg).applyBatches cfg [] = some (ChainState.new cfg) := rfl
        have inv := (LocalsInv.start cfg (applyBatches_size cfg hfresh)).run cfg hl
        obtain ⟨hheight, rfl⟩ := (inv.finish cfg s).mp hfinish
        rw [inv.start_finish cfg hheight, LoopState.run_withTotalWork, Option.map_eq_some_iff] at hm
        obtain ⟨m, hm, rfl⟩ := hm
        exact Option.bind_eq_some_iff.mpr ⟨m, foldlM_append_some.mpr ⟨l, hl, hm⟩, hlast⟩)
    (.inl ⟨rfl, rfl⟩) h
  exact hrun

/-- The best block hash stands for all headers and for the rest of the state: two accepted chains
that end at one hash are the same, unless two of their headers collide or a header hashes to zero,
the hash that the first header has to name. -/
theorem tip_binds_chain {batches batches' : List (List CircuitBlockHeader)} {s s' : ChainState}
    (h : (ChainState.new cfg).applyBatches cfg batches = some s)
    (h' : (ChainState.new cfg).applyBatches cfg batches' = some s')
    (htip : s.bestBlockHash = s'.bestBlockHash) :
    (batches.flatten = batches'.flatten ∧ s = s') ∨
      CollisionIn (CircuitBlockHeader.computeBlockHash cfg.sha256)
        (batches.flatten ++ batches'.flatten) ∨
      ∃ header ∈ batches.flatten ++ batches'.flatten, header.computeBlockHash cfg.sha256 =
        zero32 := by
  have hbound := (HeadersTo.applyBatches cfg h).eq_of_tip (HeadersTo.applyBatches cfg h') htip
  refine hbound.imp_left fun hsame => ⟨hsame, ?_⟩
  -- no batch leaves the fresh state, while a batch without headers is refused there
  have hempty : (ChainState.new cfg).applyBlocks cfg [] = none := rfl
  rcases applyBlocks_of_applyBatches cfg h with ⟨rfl, rfl⟩ | hone
  · rcases applyBlocks_of_applyBatches cfg h' with ⟨-, rfl⟩ | hone'
    · rfl
    · rw [← hsame, List.flatten_nil, hempty] at hone'
      cases hone'
  · rcases applyBlocks_of_applyBatches cfg h' with ⟨rfl, rfl⟩ | hone'
    · rw [hsame, List.flatten_nil, hempty] at hone
      cases hone
    · rw [hsame, hone'] at hone
      exact (Option.some.inj hone).symm

theorem tip_binds_chain_mainnet : ∃ s s', (ChainState.new mainnetConfig).applyBatches mainnetConfig
        [[mainnetGenesis], [mainnetBlockOne]] = some s ∧
      (ChainState.new mainnetConfig).applyBatches mainnetConfig
        [[mainnetGenesis, mainnetBlockOne]] = some s' ∧
      (s = s' ∨ CollisionIn (CircuitBlockHeader.computeBlockHash Sha256.digest)
          [mainnetGenesis, mainnetBlockOne, mainnetGenesis, mainnetBlockOne] ∨
        ∃ header ∈ [mainnetGenesis, mainnetBlockOne, mainnetGenesis, mainnetBlockOne],
          header.computeBlockHash Sha256.digest = zero32) := by
  have haccept : ((ChainState.new mainnetConfig).applyBatches mainnetConfig
      [[mainnetGenesis], [mainnetBlockOne]]).isSome = true := by decide +kernel
  have hsame : ((ChainState.new mainnetConfig).applyBatches mainnetConfig
        [[mainnetGenesis, mainnetBlockOne]]).map ChainState.bestBlockHash =
          ((ChainState.new mainnetConfig).applyBatches mainnetConfig
          [[mainnetGenesis], [mainnetBlockOne]]).map ChainState.bestBlockHash := by decide +kernel
  obtain ⟨s, hs⟩ := Option.isSome_iff_exists.mp haccept
  rw [hs, Option.map_some] at hsame
  obtain ⟨s', hs', htip⟩ := Option.map_eq_some_iff.mp hsame
  exact ⟨s, s', hs, hs', (tip_binds_chain mainnetConfig hs hs' htip.symm).imp_left And.right⟩

end BitvmNode.HeaderChain
