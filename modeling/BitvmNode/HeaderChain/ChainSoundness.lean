import BitvmNode.Reasoning.Sha256
import BitvmNode.HeaderChain.Consensus

/-!
# Soundness of the header chain

One step of the loop keeps the invariant that ties the running state to the list of headers read so
far; batches keep it because every local is read back from the state.
-/

namespace BitvmNode.HeaderChain

open LoopState

open Reasoning

open Consensus

variable (cfg : Config) (headers : List CircuitBlockHeader) {l l' : LoopState}

theorem LoopState.applyBlock_eq_some {header : CircuitBlockHeader} :
    l.applyBlock cfg header = some l' ↔
    header.prevBlockHash = l.state.bestBlockHash ∧
    header.bits = (if cfg.isRegtest then cfg.constants.maxBits
        else (l.required cfg (l.state.blockHeight + 1) header).2.1) ∧
      checkHashValid (header.computeBlockHash cfg.sha256)
        (l.required cfg (l.state.blockHeight + 1) header).1 = true ∧
      validateTimestamp header.time l.state.prev11Timestamps = true ∧
      ∃ mmr, l.state.blockHashesMmr.append (hashPair cfg.sha256)
        (header.computeBlockHash cfg.sha256) = some mmr ∧
        l' = l.advance cfg header (header.computeBlockHash cfg.sha256)
          (l.required cfg (l.state.blockHeight + 1) header).2.2 mmr := by
  unfold applyBlock
  simp only [Option.ite_none_left_eq_some, Option.bind_eq_bind, Option.bind_eq_some_iff,
    Option.some.injEq, ne_eq, not_not, Bool.not_eq_false, eq_comm (b := l')]

structure LoopInv (n : Nat) (l : LoopState) : Prop where
  height : l.state.blockHeight + 1 = UInt32.ofNat n
  mmr : l.state.blockHashesMmr = MmrGuest.range (hashPair cfg.sha256) (hashAt cfg.sha256 headers) n
  best : l.state.bestBlockHash = tipBefore cfg headers n
  link : ∀ i header, i < n → headers[i]? = some header →
    header.prevBlockHash = tipBefore cfg headers i
  bits : ∀ i header, i < n → headers[i]? = some header → header.bits = requiredBits cfg headers i
  pow : ∀ i, i < n →
    leNat (hashAt cfg.sha256 headers i).toList ≤ beNat (requiredTarget cfg headers i).toList
  work : l.currentWork = chainWork cfg headers n % 2 ^ 256
  ring : ∀ i, i < n → n ≤ i + 11 →
    l.state.prev11Timestamps[ringSlot i] = timeAt headers i
  targetBits : l.state.currentTargetBits = epochBits cfg headers (n / 2016)
  targetBytes : l.currentTargetBytes = bitsToTarget l.state.currentTargetBits
  epochStart : cfg.isRegtest = false → 0 < n →
    l.state.epochStartTime = timeAt headers ((n - 1) / 2016 * 2016)
  lastTime : cfg.isTestnet4 = true → l.lastBlockTime = timeBefore headers n

section Step

variable {cfg headers} {n : Nat} {l : LoopState} {header : CircuitBlockHeader}
  (hget : headers[n]? = some header)

include hget

theorem LoopInv.required_eq (inv : LoopInv cfg headers n l) (hn : n < 2 ^ 32) :
    l.required cfg (l.state.blockHeight + 1) header =
        (requiredTarget cfg headers n, requiredBits cfg headers n,
        calculateWork (requiredTarget cfg headers n)) := by
  have hepoch : UInt32.ofNat n % blocksPerEpoch = 0 ↔ n % 2016 = 0 := u32_ofNat_mod_eq_iff hn _ _
  have htime := timeAt_of_get headers hget
  have hcurrent (h : ¬ minimumDifficulty cfg headers n) :
      (l.currentTargetBytes, l.state.currentTargetBits, calculateWork l.currentTargetBytes) =
        (requiredTarget cfg headers n, requiredBits cfg headers n,
          calculateWork (requiredTarget cfg headers n)) := by
    rw [inv.targetBytes, inv.targetBits, requiredTarget, requiredBits, if_neg h]
  unfold required
  rw [inv.height]
  simp only [hepoch]
  by_cases htest : cfg.isTestnet4 = true
  · rw [if_pos htest, inv.lastTime htest, ← htime]
    by_cases hgap : timeAt headers n > timeBefore headers n + 1200
    · rw [if_pos hgap]
      by_cases hfirst : n % 2016 = 0
      · rw [if_pos hfirst]
        exact hcurrent (fun h => h.2.1 hfirst)
      · -- a late block inside an epoch: minimum difficulty
        have hmin : minimumDifficulty cfg headers n := ⟨htest, hfirst, hgap⟩
        rw [if_neg hfirst, requiredTarget, requiredBits, if_pos hmin,
          minimumWorkTestnet_eq cfg htest]
        unfold Config.constants
        rw [maxTargetBytes_eq]
    · rw [if_neg hgap]
      exact hcurrent (fun h => hgap h.2.2)
  · rw [if_neg htest]
    exact hcurrent (fun h => htest h.1)

theorem LoopInv.ring_step (inv : LoopInv cfg headers n l) {height : Nat}
    (hheight : height = n) (i : Nat) (hi : i < n + 1) (hlast : n + 1 ≤ i + 11) :
    (l.state.prev11Timestamps.set (ringSlot height) header.time)[ringSlot i] =
      timeAt headers i := by
  subst hheight
  rw [Fin.getElem_fin, Vector.getElem_set]
  by_cases hin : i = height
  · rw [hin, if_pos rfl, timeAt_of_get headers hget]
  · have hslot : ¬ (ringSlot height).val = (ringSlot i).val := by
      simp only [ringSlot]
      omega
    rw [if_neg hslot]
    exact inv.ring i (by omega) (by omega)

theorem LoopInv.epochStart_step (inv : LoopInv cfg headers n l) (hreg : cfg.isRegtest = false) :
    (if cfg.isRegtest = false ∧ n % 2016 = 0 then header.time else l.state.epochStartTime) =
      timeAt headers (n / 2016 * 2016) := by
  by_cases hfirst : n % 2016 = 0
  · rw [if_pos ⟨hreg, hfirst⟩, show n / 2016 * 2016 = n by omega, timeAt_of_get headers hget]
  · rw [if_neg (fun h => hfirst h.2), inv.epochStart hreg (by omega),
      show (n - 1) / 2016 = n / 2016 by omega]

theorem LoopInv.targetBits_step (inv : LoopInv cfg headers n l) :
    (if cfg.isRegtest = false ∧ n % 2016 = 2015 then
        calculateNewDifficulty cfg
          (if cfg.isRegtest = false ∧ n % 2016 = 0 then header.time else l.state.epochStartTime)
          header.time l.state.currentTargetBits
      else l.state.currentTargetBits) = epochBits cfg headers ((n + 1) / 2016) := by
  cases hreg : cfg.isRegtest with
  | true =>
    rw [if_neg (by simp), inv.targetBits, epochBits_regtest cfg headers hreg,
      epochBits_regtest cfg headers hreg]
  | false =>
    by_cases hlast : n % 2016 = 2015
    · -- the last block of an epoch sets the bits of the next one
      have hstart := inv.epochStart_step hget hreg
      rw [hreg] at hstart
      rw [if_pos ⟨rfl, hlast⟩, hstart, show (n + 1) / 2016 = n / 2016 + 1 by omega, epochBits, hreg,
        inv.targetBits, show n / 2016 * 2016 = 2016 * (n / 2016) by omega,
        show 2016 * (n / 2016) + 2015 = n by omega, timeAt_of_get headers hget]
      rfl
    · rw [if_neg (fun h => hlast h.2), inv.targetBits, show (n + 1) / 2016 = n / 2016 by omega]

end Step

variable {n : Nat}

theorem LoopInv.step {header : CircuitBlockHeader} (inv : LoopInv cfg headers n l) (hn : n < 2 ^ 32)
    (hget : headers[n]? = some header)
    (hstep : l.applyBlock cfg header = some l') : LoopInv cfg headers (n + 1) l' := by
  obtain ⟨hprev, hbits, hhash, -, mmr, hmmr, rfl⟩ := (applyBlock_eq_some cfg).mp hstep
  have hreq := inv.required_eq hget hn
  rw [hreq] at hbits hhash ⊢
  have hfirst : UInt32.ofNat n % blocksPerEpoch = 0 ↔ n % 2016 = 0 := u32_ofNat_mod_eq_iff hn _ _
  have hlast : UInt32.ofNat n % blocksPerEpoch = blocksPerEpoch - 1 ↔ n % 2016 = 2015 :=
    u32_ofNat_mod_eq_iff hn _ _
  have htarget := inv.targetBits_step hget
  have hmmr' : mmr = MmrGuest.range (hashPair cfg.sha256) (hashAt cfg.sha256 headers) (n + 1) := by
    rw [inv.mmr, ← hashAt_of_get headers cfg.sha256 hget, MmrGuest.append_range] at hmmr
    exact (Option.some.inj hmmr).symm
  refine
    { height := ?_, mmr := hmmr', best := ?_, link := ?_, bits := ?_, pow := ?_,
      work := ?_, ring := ?_
      targetBits := ?_, targetBytes := ?_, epochStart := ?_, lastTime := ?_ }
  · simp only [advance, inv.height, u32_ofNat_add_one]
  · rw [tipBefore_succ, hashAt_of_get headers cfg.sha256 hget]
    rfl
  · intro i h hi hh
    by_cases hin : i = n
    · subst hin
      rw [hget] at hh
      rw [← Option.some.inj hh, hprev, inv.best]
    · exact inv.link i h (by omega) hh
  · intro i h hi hh
    by_cases hin : i = n
    · subst hin
      rw [hget] at hh
      rw [← Option.some.inj hh, hbits]
      -- on regtest the required bits are the maximum at every height
      cases hreg : cfg.isRegtest with
      | true =>
        rw [if_pos rfl, requiredBits, epochBits_regtest cfg headers hreg, ite_self]
      | false => rfl
    · exact inv.bits i h (by omega) hh
  · intro i hi
    by_cases hin : i = n
    · rw [hin, hashAt_of_get headers cfg.sha256 hget]
      exact (checkHashValid_iff _ _).mp hhash
    · exact inv.pow i (by omega)
  · rw [chainWork_succ]
    simp only [advance]
    rw [inv.work, Nat.mod_add_mod]
  · intro i hi hnear
    exact inv.ring_step hget (by rw [inv.height, u32_toNat_ofNat hn]) i hi hnear
  · simp only [advance, inv.height, hfirst, hlast, decide_eq_true_eq]
    exact htarget
  · simp only [advance, inv.height, hfirst, hlast, decide_eq_true_eq]
    by_cases hre : cfg.isRegtest = false ∧ n % 2016 = 2015
    · rw [if_pos hre, if_pos hre]
    · rw [if_neg hre, if_neg hre]
      exact inv.targetBytes
  · intro hreg _
    simp only [advance, inv.height, hfirst]
    exact inv.epochStart_step hget hreg
  · intro htest
    simp only [advance]
    rw [if_pos htest, timeBefore_succ, timeAt_of_get headers hget]

theorem LoopInv.run {done xs : List CircuitBlockHeader} (inv : LoopInv cfg headers done.length l)
    (hpre : done ++ xs <+: headers) (hlen : (done ++ xs).length ≤ 2 ^ 32)
    (hrun : xs.foldlM (applyBlock cfg) l = some l') :
    LoopInv cfg headers (done ++ xs).length l' := by
  apply foldlM_invariant (fun done l => done <+: headers → done.length ≤ 2 ^ 32 →
    LoopInv cfg headers done.length l) _ (fun _ _ => inv) hrun hpre hlen
  intro ys x s s' hinv hstep hys hlen
  have hget : headers[ys.length]? = some x := by
    obtain ⟨rest, rfl⟩ := hys
    rw [List.append_assoc, List.getElem?_append_right (le_refl _), Nat.sub_self]
    rfl
  rw [List.length_append, List.length_singleton] at hlen ⊢
  exact (hinv ((List.prefix_append _ _).trans hys) (by omega)).step cfg headers
    (by omega) hget hstep

theorem LoopInv.initial : LoopInv cfg headers 0 (start cfg (ChainState.new cfg)) where
  height := by
    change (0xFFFFFFFF : UInt32) + 1 = UInt32.ofNat 0
    decide
  mmr := rfl
  best := rfl
  link := by omega
  bits := by omega
  pow := by omega
  work := by
    change beNat (Vector.replicate 32 (0 : UInt8)).toList = 0 % 2 ^ 256
    decide
  ring := by omega
  targetBits := rfl
  targetBytes := by
    cases hreg : cfg.isRegtest with
    | true => simp only [start, hreg, if_true, ChainState.new, Config.constants, maxTarget_eq]
    | false => simp only [start, hreg, Bool.false_eq_true, if_false]
  epochStart := by omega
  lastTime := by
    intro htest
    simp [start, htest, ChainState.new, timeBefore]

variable {s : ChainState}

theorem LoopInv.reload (inv : LoopInv cfg headers n l) (hn : n ≤ 2 ^ 32)
    (hfinish : l.finish = some s) : LoopInv cfg headers n (start cfg s) := by
  unfold finish at hfinish
  simp only [Option.ite_none_left_eq_some, Option.some.injEq] at hfinish
  obtain ⟨hheight, -, rfl⟩ := hfinish
  refine { inv with work := ?_, targetBytes := ?_, lastTime := ?_ }
  · have hw : l.currentWork < 2 ^ 256 := by
      rw [inv.work]
      exact Nat.mod_lt _ (by decide)
    simp only [start]
    rw [beNat_beBytes32, Nat.mod_eq_of_lt hw, inv.work]
  · cases hreg : cfg.isRegtest with
    | true =>
      simp only [start, hreg, if_true]
      rw [inv.targetBits, epochBits_regtest cfg headers hreg]
      exact maxTarget_eq cfg.network
    | false => simp only [start, hreg, Bool.false_eq_true, if_false]
  · intro htest
    -- the height is that of the last header, whose time is in its slot
    have hpos : n ≠ 0 := by
      intro hz
      have h := inv.height
      rw [hz] at h
      exact hheight (by rw [← UInt32.add_sub_cancel l.state.blockHeight 1, h]; decide)
    obtain ⟨m, rfl⟩ := Nat.exists_eq_succ_of_ne_zero hpos
    have hm : l.state.blockHeight.toNat = m := by
      rw [← UInt32.add_sub_cancel l.state.blockHeight 1, inv.height, u32_ofNat_sub_one (by omega),
        u32_toNat_ofNat (by omega), Nat.succ_sub_one]
    simp only [start, htest, if_true, if_neg hheight, hm]
    exact inv.ring m (by omega) (by omega)

variable {s' : ChainState}

theorem LoopInv.batches (done : List CircuitBlockHeader) {batches : List (List CircuitBlockHeader)}
    (inv : LoopInv cfg headers done.length (start cfg s))
    (hpre : done ++ batches.flatten <+: headers) (hlen : (done ++ batches.flatten).length ≤ 2 ^ 32)
    (hrun : s.applyBatches cfg batches = some s') :
    LoopInv cfg headers (done ++ batches.flatten).length (start cfg s') := by
  induction batches generalizing done s with
  | nil =>
    cases hrun
    rw [List.flatten_nil, List.append_nil]
    exact inv
  | cons batch batches ih =>
    obtain ⟨u, hu, hrest⟩ := foldlM_cons_some.mp hrun
    obtain ⟨l, hl, hfinish⟩ := Option.bind_eq_some_iff.mp hu
    rw [List.flatten_cons, ← List.append_assoc] at hpre hlen ⊢
    have hshort : (done ++ batch).length ≤ 2 ^ 32 := by
      simp only [List.length_append] at hlen ⊢
      omega
    have hbatch := inv.run cfg headers ((List.prefix_append _ _).trans hpre) hshort hl
    exact ih (done ++ batch) (hbatch.reload cfg headers hshort hfinish) hpre hlen hrest

theorem ChainState.applyBlocks_height {batch : List CircuitBlockHeader}
    (h : s.applyBlocks cfg batch = some s') : s'.blockHeight ≠ 0xFFFFFFFF := by
  obtain ⟨l, -, hfinish⟩ := Option.bind_eq_some_iff.mp h
  unfold finish at hfinish
  simp only [Option.ite_none_left_eq_some, Option.some.injEq] at hfinish
  obtain ⟨hheight, -, rfl⟩ := hfinish
  exact hheight

theorem ChainState.applyBatches_height {batches : List (List CircuitBlockHeader)}
    (hne : batches ≠ []) (h : s.applyBatches cfg batches = some s') :
    s'.blockHeight ≠ 0xFFFFFFFF := by
  obtain ⟨front, last, rfl⟩ := (List.eq_nil_or_concat' batches).resolve_left hne
  obtain ⟨u, -, hlast⟩ := foldlM_append_some.mp h
  obtain ⟨v, hv, hnil⟩ := foldlM_cons_some.mp hlast
  cases hnil
  exact applyBlocks_height cfg hv

/-- The chain that accepted batches describe, for up to `2 ^ 32` headers. -/
theorem applyBatches_sound (batches : List (List CircuitBlockHeader)) (s : ChainState) (n : Nat)
    (haccept : (ChainState.new cfg).applyBatches cfg batches = some s)
    (hlen : batches.flatten.length = n + 1) (hn : n < 2 ^ 32) : s.blockHeight.toNat = n ∧
      s.blockHashesMmr.size.toNat = n + 1 ∧
      (∀ tip, batches.flatten[n]? = some tip → s.bestBlockHash = tip.computeBlockHash cfg.sha256) ∧
      (∀ i prev header, batches.flatten[i]? = some prev → batches.flatten[i + 1]? = some header →
        header.prevBlockHash = prev.computeBlockHash cfg.sha256) ∧
      (∀ i header, batches.flatten[i]? = some header →
            leNat (header.computeBlockHash cfg.sha256).toList ≤
            beNat (requiredTarget cfg batches.flatten i).toList ∧
          header.bits = requiredBits cfg batches.flatten i) ∧
      beNat s.totalWork.toList = chainWork cfg batches.flatten (n + 1) % 2 ^ 256 ∧
      MmrGuest.appendAll (hashPair cfg.sha256)
          (batches.flatten.map (CircuitBlockHeader.computeBlockHash cfg.sha256)) =
          some s.blockHashesMmr ∧
      (10 ≤ n → ∀ i header, n < i + 11 → batches.flatten[i]? = some header →
        s.prev11Timestamps[ringSlot i] = header.time) := by
  have inv := LoopInv.batches cfg batches.flatten [] (LoopInv.initial cfg _)
    List.prefix_rfl (by rw [List.nil_append]; omega) haccept
  rw [List.nil_append, hlen] at inv
  have hin {i : Nat} {header : CircuitBlockHeader} (h : batches.flatten[i]? = some header) :
      i < n + 1 := by
    rw [← hlen]
    exact (List.getElem?_eq_some_iff.mp h).1
  have hheight : s.blockHeight.toNat = n := by
    have h := inv.height
    change s.blockHeight + 1 = _ at h
    rw [← UInt32.add_sub_cancel s.blockHeight 1, h, u32_ofNat_sub_one (by omega),
      Nat.add_sub_cancel, u32_toNat_ofNat hn]
  -- at `2 ^ 32` headers the height would be the one of the empty chain, which is refused
  have hsmall : n + 1 < 2 ^ 32 := by
    have hne : batches ≠ [] := by
      rintro rfl
      simp at hlen
    have hmax := ChainState.applyBatches_height cfg hne haccept
    rw [Ne, ← UInt32.toNat_inj, hheight] at hmax
    change ¬ n = 4294967295 at hmax
    omega
  refine ⟨hheight, ?_, ?_, ?_, ?_, inv.work, ?_, ?_⟩
  · have h := congrArg MmrGuest.size inv.mmr
    change s.blockHashesMmr.size = UInt32.ofNat (n + 1) at h
    rw [h, u32_toNat_ofNat hsmall]
  · intro tip htip
    rw [← hashAt_of_get _ cfg.sha256 htip]
    exact inv.best
  · intro i prev header hprev hheader
    rw [← hashAt_of_get _ cfg.sha256 hprev]
    exact inv.link (i + 1) header (hin hheader) hheader
  · intro i header hheader
    rw [← hashAt_of_get _ cfg.sha256 hheader]
    exact ⟨inv.pow i (hin hheader), inv.bits i header (hin hheader) hheader⟩
  · rw [map_computeBlockHash, hlen, MmrGuest.appendAll_range]
    exact congrArg some inv.mmr.symm
  · intro _ i header hi hheader
    rw [← timeAt_of_get _ hheader]
    exact inv.ring i (hin hheader) (by omega)

def mainnetConfig : Config where
  network := .mainnet
  sha256 := Sha256.digest
  fromNextWorkRequired := fun _ bits _ => bits

def mainnetGenesis : CircuitBlockHeader where
  version := 1
  prevBlockHash := Vector.replicate 32 0
  merkleRoot := beBytes32 0x3ba3edfd7a7b12b27ac72c3e67768f617fc81bc3888a51323a9fb8aa4b1e5e4a
  time := 1231006505
  bits := 0x1d00ffff
  nonce := 2083236893

def mainnetBlockOne : CircuitBlockHeader where
  version := 1
  prevBlockHash := beBytes32 0x6fe28c0ab6f1b372c1a6a246ae63f74f931e8365e15a089c68d6190000000000
  merkleRoot := beBytes32 0x982051fd1e4ba744bbbe680e1fee14677ba1a3c3540bf7b1cdb606e857233e0e
  time := 1231469665
  bits := 0x1d00ffff
  nonce := 2573394689

theorem applyBatches_sound_mainnet : ∃ s, (ChainState.new mainnetConfig).applyBatches mainnetConfig
        [[mainnetGenesis], [mainnetBlockOne]] = some s ∧
      s.blockHeight.toNat = 1 ∧ s.blockHashesMmr.size.toNat = 2 ∧
      s.bestBlockHash = mainnetBlockOne.computeBlockHash Sha256.digest := by
  have haccept : ((ChainState.new mainnetConfig).applyBatches mainnetConfig
      [[mainnetGenesis], [mainnetBlockOne]]).isSome = true := by decide +kernel
  obtain ⟨s, hs⟩ := Option.isSome_iff_exists.mp haccept
  obtain ⟨hheight, hsize, hbest, -⟩ := applyBatches_sound mainnetConfig _ s 1 hs rfl (by decide)
  exact ⟨s, hs, hheight, hsize, hbest mainnetBlockOne rfl⟩

/-! ### Wrapping heights

The height is a `u32` that wraps, so the loop can be driven past `2 ^ 32` headers and ends at height
zero again.  A hash that is always zero makes such a chain easy to write down. -/

variable {arr : Vector UInt32 11} {t : UInt32}

theorem median_lt_of_count (h : 6 ≤ arr.toList.countP (· < t)) : median arr < t := by
  let sorted := arr.toList.insertionSort (· ≤ ·)
  have hperm : sorted.Perm arr.toList := List.perm_insertionSort _ _
  have hlen : sorted.length = 11 := by rw [hperm.length_eq, Vector.length_toList]
  have hsorted : sorted.Pairwise (· ≤ ·) := List.pairwise_insertionSort _ _
  rw [← hperm.countP_eq] at h
  have hfive : 5 < sorted.length := by omega
  have hmedian : median arr = sorted[5] := by
    rw [median, List.getD_eq_getElem?_getD, List.getElem?_eq_getElem hfive]
    rfl
  by_contra hge
  rw [hmedian, UInt32.not_lt] at hge
  -- from the sixth place on nothing is below `t`, so at most five are
  have hhigh : (sorted.drop 5).countP (· < t) = 0 := by
    rw [List.countP_eq_zero]
    intro x hx
    obtain ⟨i, hi, rfl⟩ := List.mem_iff_getElem.mp hx
    rw [List.getElem_drop, decide_eq_true_eq, UInt32.not_lt]
    rw [List.length_drop] at hi
    rcases Nat.eq_zero_or_pos i with hz | hpos
    · subst hz
      exact hge
    · exact UInt32.le_trans hge
        (List.pairwise_iff_getElem.mp hsorted 5 (5 + i) (by omega) (by omega) (by omega))
  have hlow : (sorted.take 5).countP (· < t) ≤ 5 := by
    have hle := List.countP_le_length (p := (· < t)) (l := sorted.take 5)
    rw [List.length_take] at hle
    omega
  rw [← List.take_append_drop 5 sorted, List.countP_append, hhigh] at h
  omega

theorem countP_ring (h : ∀ x ∈ arr.toList, x < t) : arr.toList.countP (· < t) = 11 := by
  rw [List.countP_eq_length.mpr (by simpa using h), Vector.length_toList]

theorem median_lt_of_all (h : ∀ x ∈ arr.toList, x < t) : median arr < t :=
  median_lt_of_count (by rw [countP_ring h]; decide)

theorem median_set_lt (h : ∀ x ∈ arr.toList, x < t) (k : Fin 11) : median (arr.set k t) < t := by
  apply median_lt_of_count
  rw [Vector.toList_set, List.countP_set (by rw [Vector.length_toList]; exact k.isLt),
    countP_ring h]
  split <;> omega

def zeroConfig : Config where
  network := .regtest
  sha256 := fun _ => Vector.replicate 32 0
  fromNextWorkRequired := fun _ bits _ => bits

def zeroHeader (t : Nat) : CircuitBlockHeader where
  version := 0
  prevBlockHash := Vector.replicate 32 0
  merkleRoot := Vector.replicate 32 0
  time := UInt32.ofNat t
  bits := 0x207FFFFF
  nonce := 0

structure ZeroInv (n : Nat) (l : LoopState) : Prop where
  height : l.state.blockHeight + 1 = UInt32.ofNat n
  best : l.state.bestBlockHash = Vector.replicate 32 0
  target : l.currentTargetBytes = beBytes32 zeroConfig.constants.maxTarget
  mmr : l.state.blockHashesMmr =
    MmrGuest.range (hashPair zeroConfig.sha256) (fun _ => Vector.replicate 32 0) n

theorem ZeroInv.step {t : Nat} (inv : ZeroInv n l)
    (ht : median l.state.prev11Timestamps < UInt32.ofNat t) :
    ∃ l' k, l.applyBlock zeroConfig (zeroHeader t) = some l' ∧ ZeroInv (n + 1) l' ∧
      l'.state.prev11Timestamps = l.state.prev11Timestamps.set (k : Fin 11) (UInt32.ofNat t) := by
  have happend := MmrGuest.append_range (hashPair zeroConfig.sha256)
    (fun _ => Vector.replicate 32 0) n
  have hhash : checkHashValid (Vector.replicate 32 0) (beBytes32 zeroConfig.constants.maxTarget) =
      true := by decide
  refine ⟨l.advance zeroConfig (zeroHeader t) (Vector.replicate 32 0)
    (calculateWork (beBytes32 zeroConfig.constants.maxTarget))
    (MmrGuest.range (hashPair zeroConfig.sha256) (fun _ => Vector.replicate 32 0) (n + 1)),
    ringSlot (l.state.blockHeight + 1).toNat, ?_, ?_, rfl⟩
  · rw [applyBlock_eq_some]
    have hrequired : l.required zeroConfig (l.state.blockHeight + 1) (zeroHeader t) =
        (l.currentTargetBytes, l.state.currentTargetBits, calculateWork l.currentTargetBytes) := rfl
    rw [hrequired, inv.best, inv.mmr, inv.target]
    exact ⟨rfl, rfl, hhash, decide_eq_true ht, _, happend, rfl⟩
  · exact
      { height := by simp only [advance, inv.height, u32_ofNat_add_one]
        best := rfl
        target := by
          exact inv.target
        mmr := rfl }

def zeroPairs (m : Nat) : List CircuitBlockHeader :=
  (List.range m).flatMap fun i => [zeroHeader (i + 1), zeroHeader (i + 1)]

theorem zeroPairs_run (m : Nat) (hm : m ≤ 2 ^ 31) :
    ∃ l, (zeroPairs m).foldlM (applyBlock zeroConfig)
        (start zeroConfig (ChainState.new zeroConfig)) = some l ∧
      ZeroInv (2 * m) l ∧ ∀ x ∈ l.state.prev11Timestamps.toList, x < UInt32.ofNat (m + 1) := by
  induction m with
  | zero =>
    refine ⟨_, rfl, ⟨by decide, rfl, rfl, rfl⟩, ?_⟩
    intro x hx
    have hzero : x = 0 := by
      change x ∈ (Vector.replicate 11 (0 : UInt32)).toList at hx
      exact List.eq_of_mem_replicate hx
    rw [hzero]
    decide
  | succ m ih =>
    obtain ⟨l, hrun, inv, hring⟩ := ih (by omega)
    obtain ⟨l1, k1, hstep1, inv1, hring1⟩ := inv.step (median_lt_of_all hring)
    have hmedian := median_set_lt hring k1
    rw [← hring1] at hmedian
    obtain ⟨l2, k2, hstep2, inv2, hring2⟩ := inv1.step hmedian
    refine ⟨l2, ?_, ?_, ?_⟩
    · rw [zeroPairs, List.range_succ, List.flatMap_append, foldlM_append_some]
      refine ⟨l, hrun, ?_⟩
      rw [List.flatMap_singleton, foldlM_cons_some]
      refine ⟨l1, hstep1, ?_⟩
      rw [foldlM_cons_some]
      exact ⟨l2, hstep2, rfl⟩
    · rw [show 2 * (m + 1) = 2 * m + 1 + 1 by omega]
      exact inv2
    · intro x hx
      have hlt : UInt32.ofNat (m + 1) < UInt32.ofNat (m + 1 + 1) := by
        rw [UInt32.lt_iff_toNat_lt, u32_toNat_ofNat (by omega), u32_toNat_ofNat (by omega)]
        omega
      rw [hring2, hring1, Vector.toList_set, Vector.toList_set] at hx
      rcases List.mem_or_eq_of_mem_set hx with hx | rfl
      · rcases List.mem_or_eq_of_mem_set hx with hx | rfl
        · exact UInt32.lt_trans (hring x hx) hlt
        · exact hlt
      · exact hlt

theorem zeroPairs_length (m : Nat) : (zeroPairs m).length = 2 * m := by
  simp [zeroPairs, List.length_flatMap, Nat.mul_comm]

/-- A chain of `2 ^ 32 + 1` headers is accepted and ends at height zero. -/
theorem applyBatches_wraps : ∃ (batches : List (List CircuitBlockHeader)) (s : ChainState),
      (ChainState.new zeroConfig).applyBatches zeroConfig batches = some s ∧
      batches.flatten.length = 2 ^ 32 + 1 ∧ s.blockHeight.toNat ≠ 2 ^ 32 ∧
      s.blockHashesMmr.size.toNat ≠ 2 ^ 32 + 1 := by
  obtain ⟨l, hrun, inv, hring⟩ := zeroPairs_run (2 ^ 31) (le_refl _)
  obtain ⟨l', k, hstep, inv', -⟩ := inv.step (median_lt_of_all hring)
  have hheight : l'.state.blockHeight = 0 := by
    rw [← UInt32.add_sub_cancel l'.state.blockHeight 1, inv'.height]
    decide
  have hsize : l'.state.blockHashesMmr.size = 1 := by
    rw [inv'.mmr]
    decide
  refine ⟨[zeroPairs (2 ^ 31) ++ [zeroHeader (2 ^ 31 + 1)]],
    { l'.state with totalWork := beBytes32 l'.currentWork }, ?_, ?_, ?_, ?_⟩
  · unfold ChainState.applyBatches
    rw [foldlM_cons_some]
    refine ⟨_, ?_, rfl⟩
    unfold ChainState.applyBlocks
    rw [Option.bind_eq_bind, Option.bind_eq_some_iff]
    refine ⟨l', foldlM_append_some.mpr ⟨l, hrun, foldlM_cons_some.mpr ⟨l', hstep, rfl⟩⟩, ?_⟩
    unfold finish
    rw [hheight, hsize, if_neg (by decide), if_neg (by decide)]
  · rw [List.flatten_singleton, List.length_append, zeroPairs_length]
    rfl
  · change ¬ l'.state.blockHeight.toNat = 2 ^ 32
    rw [hheight]
    decide
  · change ¬ l'.state.blockHashesMmr.size.toNat = 2 ^ 32 + 1
    rw [hsize]
    decide

end BitvmNode.HeaderChain
