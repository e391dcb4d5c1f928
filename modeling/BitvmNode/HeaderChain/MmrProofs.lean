import BitvmNode.Reasoning.Sha256
import BitvmNode.HeaderChain.MmrRange

/-!
# Inclusion proofs of the mountain ranges

Completeness: the proofs that the host generates are accepted by host and guest.  Soundness: what
the guest accepts is the leaf at the proof's index, up to collisions of the pair hash.
-/

namespace BitvmNode.HeaderChain

open Reasoning

variable {H : Type} (hashPair : H → H → H) (leaf : Nat → H)

namespace MmrInclusionProof

def peakLevel (proof : MmrInclusionProof H) (mmrSize : UInt32) : Nat :=
  (mmrSize.toNat ^^^ proof.leafIndex.toNat).log2

variable (proof : MmrInclusionProof H) (mmrSize : UInt32)

theorem peakLevel_lt : proof.peakLevel mmrSize < 32 := by
  unfold peakLevel
  by_cases hz : mmrSize.toNat ^^^ proof.leafIndex.toNat = 0
  · rw [hz]
    decide
  · exact (Nat.log2_lt hz).mpr (Nat.xor_lt_two_pow mmrSize.toNat_lt proof.leafIndex.toNat_lt)

theorem position_of_lt (hlt : proof.leafIndex.toNat < mmrSize.toNat) :
    proof.position mmrSize =
      some (ones (31 - proof.peakLevel mmrSize) (mmrSize.toNat / 2 ^ (proof.peakLevel mmrSize + 1)),
        UInt32.ofNat (proof.leafIndex.toNat % 2 ^ proof.peakLevel mmrSize),
        proof.peakLevel mmrSize) := by
  have hlevel := peakLevel_lt proof mmrSize
  have hguard : ¬ (mmrSize = 0 ∨ proof.leafIndex ≥ mmrSize) := by
    rw [u32_eq_zero_iff, ge_iff_le, UInt32.le_iff_toNat_le]
    omega
  have hne : mmrSize ^^^ proof.leafIndex ≠ 0 := by
    rw [Ne, u32_eq_zero_iff, UInt32.toNat_xor, Nat.xor_eq_zero_iff]
    omega
  have hpeak : 31 - leadingZeros (mmrSize ^^^ proof.leafIndex) = proof.peakLevel mmrSize := by
    rw [leadingZeros, if_neg hne, UInt32.toNat_xor]
    unfold peakLevel at hlevel ⊢
    omega
  -- shifting by 32 is out of range for `checked_shr`, and counts no ones either way
  have hones : countOnes (checkedShr mmrSize (proof.peakLevel mmrSize + 1)) =
      ones (31 - proof.peakLevel mmrSize) (mmrSize.toNat / 2 ^ (proof.peakLevel mmrSize + 1)) := by
    generalize proof.peakLevel mmrSize = level at hlevel ⊢
    have hsize : mmrSize.toNat / 2 ^ (level + 1) < 2 ^ (31 - level) := by
      rw [Nat.div_lt_iff_lt_mul (Nat.two_pow_pos _), ← pow_add,
        show 31 - level + (level + 1) = 32 by omega]
      exact mmrSize.toNat_lt
    unfold countOnes checkedShr
    by_cases h : level + 1 < 32
    · rw [if_pos h, u32_toNat_shiftRight _ h, ← ones_mod (31 - level) (level + 1),
        Nat.mod_eq_of_lt hsize, show 31 - level + (level + 1) = 32 by omega]
    · rw [if_neg h, show 31 - level = 0 by omega]
      rfl
  have hmask : proof.leafIndex &&& ((1 : UInt32) <<< UInt32.ofNat (proof.peakLevel mmrSize) - 1) =
      UInt32.ofNat (proof.leafIndex.toNat % 2 ^ proof.peakLevel mmrSize) := by
    apply UInt32.toNat_inj.mp
    rw [u32_toNat_and_mask _ hlevel, u32_toNat_ofNat]
    exact lt_of_le_of_lt (Nat.mod_le _ _) proof.leafIndex.toNat_lt
  unfold position
  rw [if_neg hguard]
  simp only [hpeak, hones, hmask]

def hashUpPairs (internalIndex : UInt32) (i : Nat) (currentHash : H) : List H → List (H × H)
  | [] => []
  | sibling :: rest =>
      (if internalIndex &&& ((1 : UInt32) <<< UInt32.ofNat i) = 0 then (currentHash, sibling)
        else (sibling, currentHash)) ::
      hashUpPairs internalIndex (i + 1)
        (if internalIndex &&& ((1 : UInt32) <<< UInt32.ofNat i) = 0 then
          hashPair currentHash sibling
        else hashPair sibling currentHash) rest

theorem hashUpPairs_eq_climbPairs (internalIndex : UInt32) (i : Nat) (x : H) (path : List H)
    (hi : i + path.length ≤ 32) : hashUpPairs hashPair internalIndex i x path =
      climbPairs hashPair (internalIndex.toNat / 2 ^ i) x path := by
  induction path generalizing i x with
  | nil => rfl
  | cons sibling rest ih =>
    rw [List.length_cons] at hi
    rw [hashUpPairs, climbPairs, ih _ _ (by omega), Nat.div_div_eq_div_mul, ← pow_succ]
    simp only [u32_and_bit_eq_zero_iff internalIndex (show i < 32 by omega)]

theorem hashUp_eq_climb (internalIndex : UInt32) (i : Nat) (x : H) (path : List H)
    (hi : i + path.length ≤ 32) :
    hashUp hashPair internalIndex i x path =
      climb hashPair (internalIndex.toNat / 2 ^ i) x path := by
  induction path generalizing i x with
  | nil => rfl
  | cons sibling rest ih =>
    rw [List.length_cons] at hi
    rw [hashUp, climb, ih _ _ (by omega), Nat.div_div_eq_div_mul, ← pow_succ]
    simp only [u32_and_bit_eq_zero_iff internalIndex (show i < 32 by omega)]

theorem getSubroot_of_lt (x : H)
    (hlt : proof.leafIndex.toNat < mmrSize.toNat) : proof.getSubroot hashPair mmrSize x =
      if proof.inclusionProof.length ≠ proof.peakLevel mmrSize then none
      else some (ones (31 - proof.peakLevel mmrSize)
          (mmrSize.toNat / 2 ^ (proof.peakLevel mmrSize + 1)),
        climb hashPair proof.leafIndex.toNat x proof.inclusionProof) := by
  have hlevel := peakLevel_lt proof mmrSize
  unfold getSubroot
  rw [position_of_lt proof mmrSize hlt]
  simp only [Option.bind_eq_bind, Option.bind_some]
  by_cases hlen : proof.inclusionProof.length = proof.peakLevel mmrSize
  · have hsmall : proof.leafIndex.toNat % 2 ^ proof.peakLevel mmrSize < 2 ^ 32 :=
      lt_of_le_of_lt (Nat.mod_le _ _) proof.leafIndex.toNat_lt
    rw [if_neg (not_not.mpr hlen), if_neg (not_not.mpr hlen),
      hashUp_eq_climb _ _ _ _ _ (by omega), u32_toNat_ofNat hsmall, pow_zero, Nat.div_one, ← hlen,
      (climb_mod _ _ _ _).1]
  · rw [if_pos hlen, if_pos hlen]

end MmrInclusionProof

open MmrInclusionProof

namespace MmrHost

theorem proofPath_upper (d k m i : Nat) (hi : i < m) (hd : m < 2 ^ (d + 1)) (hm : m < 2 ^ 32) :
    proofPath (level hashPair leaf k m :: upper hashPair leaf d k m) (UInt32.ofNat i) =
      some (siblings hashPair leaf k i (m ^^^ i).log2) := by
  have hstop (k m i : Nat) (hi : i < m) (hm : m < 2 ^ 32) :
      (UInt32.ofNat i = UInt32.ofNat (level hashPair leaf k m).length - 1 ∧
        (level hashPair leaf k m).length % 2 = 1) ↔ i + 1 = m ∧ m % 2 = 1 := by
    rw [level_length, u32_ofNat_sub_one (by omega), u32_ofNat_inj (by omega) (by omega)]
    omega
  induction d generalizing k m i with
  | zero =>
    have hone : i + 1 = m ∧ m % 2 = 1 := by omega
    rw [proofPath, if_pos ((hstop k m i hi hm).mpr hone), log2_xor_last hone.1 hone.2]
    rfl
  | succ d ih =>
    rw [proofPath]
    by_cases h : i + 1 = m ∧ m % 2 = 1
    · rw [if_pos ((hstop k m i hi hm).mpr h), log2_xor_last h.1 h.2]
      rfl
    · have hhalf : i / 2 < m / 2 := by omega
      -- the sibling of an index below the last full pair is itself below `m`
      have hsibling : (if UInt32.ofNat i % 2 = 0 then UInt32.ofNat i + 1
          else UInt32.ofNat i - 1).toNat = if i % 2 = 0 then i + 1 else i - 1 := by
        by_cases heven : i % 2 = 0
        · rw [if_pos heven, if_pos ((u32_mod_two_eq_zero_iff _).mpr
            (by rw [u32_toNat_ofNat (by omega)]; exact heven)), u32_ofNat_add_one,
            u32_toNat_ofNat (by omega)]
        · rw [if_neg heven, if_neg (mt (u32_mod_two_eq_zero_iff _).mp
            (by rw [u32_toNat_ofNat (by omega)]; exact heven)), u32_ofNat_sub_one (by omega),
            u32_toNat_ofNat (by omega)]
      have hin : (if i % 2 = 0 then i + 1 else i - 1) < m := by
        split <;> omega
      rw [if_neg (mt (hstop k m i hi hm).mp h)]
      simp only [hsibling, level_get hashPair leaf hin, Option.bind_eq_bind, Option.bind_some]
      rw [upper, u32_half_ofNat (by omega), ih _ _ _ hhalf (by omega) (by omega),
        log2_xor_half hhalf, siblings]
      rfl

theorem generateProof_range {n i : Nat} (hi : i < n) (hn : n < 2 ^ 32) :
    (range hashPair leaf n).generateProof (UInt32.ofNat i) =
      some (leaf i, ⟨UInt32.ofNat i, siblings hashPair leaf 0 i (n ^^^ i).log2⟩) := by
  have hempty : (level hashPair leaf 0 n).isEmpty = false := by
    rw [List.isEmpty_eq_false_iff, ← List.length_pos_iff, level_length]
    omega
  have hbound : ¬ (level hashPair leaf 0 n).length ≤ (UInt32.ofNat i).toNat := by
    rw [level_length, u32_toNat_ofNat (by omega)]
    omega
  have hpath := proofPath_upper hashPair leaf n.log2 0 n i hi Nat.lt_log2_self hn
  unfold generateProof range
  simp only [List.getElem?_cons_zero, Option.bind_eq_bind, Option.bind_some, hempty,
    hbound, if_false, Bool.false_eq_true, hpath]
  rw [u32_toNat_ofNat (by omega), level_get _ _ hi]
  rfl

end MmrHost

theorem getSubroot_siblings {n i : Nat} (hi : i < n) (hn : n < 2 ^ 32) : ∃ subrootIdx subroot,
      getSubroot hashPair
          ⟨UInt32.ofNat i, siblings hashPair leaf 0 i (n ^^^ i).log2⟩ (UInt32.ofNat n) (leaf i) =
        some (subrootIdx, subroot) ∧
      (peaks hashPair leaf 32 0 n).reverse[subrootIdx]? = some subroot := by
  let proof : MmrInclusionProof H := ⟨UInt32.ofNat i, siblings hashPair leaf 0 i (n ^^^ i).log2⟩
  have hin : (UInt32.ofNat i).toNat = i := u32_toNat_ofNat (by omega)
  have hsize : (UInt32.ofNat n).toNat = n := u32_toNat_ofNat hn
  have hpeak : proof.peakLevel (UInt32.ofNat n) = (n ^^^ i).log2 := by
    rw [peakLevel, hin, hsize]
  have hlevel := proof.peakLevel_lt (UInt32.ofNat n)
  obtain ⟨hbit, hindex⟩ := peak_of_index n i hi
  have hget := peaks_reverse_get hashPair leaf (31 - (n ^^^ i).log2) _ 0 n hbit
  rw [show (n ^^^ i).log2 + (31 - (n ^^^ i).log2 + 1) = 32 by omega, hindex] at hget
  refine ⟨_, _, ?_, hget⟩
  have hsub := getSubroot_of_lt hashPair proof (UInt32.ofNat n) (leaf i)
    (by rw [hin, hsize]; exact hi)
  rw [hpeak, hsize, if_neg (not_not.mpr (siblings_length _ _ _ _ _)), hin] at hsub
  rw [hsub]
  have hclimb := climb_siblings hashPair leaf 0 i (n ^^^ i).log2
  rw [node_zero] at hclimb
  rw [hclimb]

/-- Guest and host agree on every list of leaves that a `u32` can count, and every generated proof
is accepted by both. -/
theorem guest_host_equivalent [DecidableEq H] (leaves : List H) (hpos : 0 < leaves.length)
    (hlen : leaves.length < 2 ^ 32) : ∃ host guest, MmrHost.appendAll hashPair leaves = some host ∧
      MmrGuest.appendAll hashPair leaves = some guest ∧
      guest.subroots = host.getSubroots ∧ guest.size.toNat = leaves.length ∧
      ∀ (i : UInt32) (hi : i.toNat < leaves.length), ∃ proof, host.generateProof i =
        some (leaves[i.toNat], proof) ∧
        host.verifyProof hashPair leaves[i.toNat] proof = some true ∧
        guest.verifyProof hashPair leaves[i.toNat] proof = true := by
  let leaf (i : Nat) : H := leaves.getD i leaves[0]
  have hleaves : leaves = (List.range leaves.length).map leaf := list_eq_map_getD leaves leaves[0]
  have hleaf (i : Nat) (hi : i < leaves.length) : leaf i = leaves[i] := by
    simp only [leaf, List.getD_eq_getElem?_getD, List.getElem?_eq_getElem hi, Option.getD_some]
  have hsize : (UInt32.ofNat leaves.length).toNat = leaves.length := u32_toNat_ofNat hlen
  refine ⟨MmrHost.range hashPair leaf leaves.length, MmrGuest.range hashPair leaf leaves.length, ?_,
    ?_, ?_, hsize, ?_⟩
  · rw [hleaves, List.length_map, List.length_range]
    exact MmrHost.appendAll_range hashPair leaf leaves.length
  · rw [hleaves, List.length_map, List.length_range]
    exact MmrGuest.appendAll_range hashPair leaf leaves.length
  · rw [MmrGuest.range_subroots_of_lt _ _ hlen, MmrHost.getSubroots_range _ _ hlen]
  · intro i hi
    have hproof := MmrHost.generateProof_range hashPair leaf hi hlen
    rw [UInt32.ofNat_toNat] at hproof
    obtain ⟨subrootIdx, subroot, hsub, hget⟩ := getSubroot_siblings hashPair leaf hi hlen
    rw [UInt32.ofNat_toNat] at hsub
    rw [← hleaf _ hi]
    refine ⟨_, hproof, ?_, ?_⟩
    · unfold MmrHost.verifyProof
      rw [MmrHost.getSubroots_range _ _ hlen]
      simp only [MmrHost.range, List.getElem?_cons_zero, Option.bind_eq_bind, Option.bind_some,
        MmrHost.level_length, hsub, hget, decide_true]
    · unfold MmrGuest.verifyProof
      rw [MmrGuest.range_subroots_of_lt _ _ hlen]
      simp only [MmrGuest.range, hsub, hget, decide_true]

theorem guest_host_equivalent_three :
    0 < [beBytes32 1, beBytes32 2, beBytes32 3].length ∧ ∃ host guest,
        MmrHost.appendAll (HeaderChain.hashPair Sha256.digest) [beBytes32 1, beBytes32 2,
          beBytes32 3] = some host ∧
        MmrGuest.appendAll (HeaderChain.hashPair Sha256.digest) [beBytes32 1, beBytes32 2,
          beBytes32 3] = some guest ∧
        guest.subroots = host.getSubroots := by
  obtain ⟨host, guest, hhost, hguest, hsub, -⟩ := guest_host_equivalent
    (HeaderChain.hashPair Sha256.digest) [beBytes32 1, beBytes32 2, beBytes32 3]
      (by decide) (by decide)
  exact ⟨by decide, host, guest, hhost, hguest, hsub⟩

namespace MmrGuest

def appendPairs : List H → H → UInt32 → List (H × H)
  | [], _, _ => []
  | sibling :: rest, current, size =>
      if size % 2 = 1 then
        (sibling, current) :: appendPairs rest (hashPair sibling current) (size / 2)
      else []

def buildPairs (mmr : MmrGuest H) : List H → List (H × H)
  | [] => []
  | leaf :: leaves =>
      appendPairs hashPair mmr.subroots.reverse leaf mmr.size ++
        match mmr.append hashPair leaf with
        | none => []
        | some next => buildPairs next leaves

def verifyPairs (mmr : MmrGuest H) (x : H) (proof : MmrInclusionProof H) : List (H × H) :=
  match proof.position mmr.size with
  | none => []
  | some (_, internalIndex, expectedPathLen) =>
      if proof.inclusionProof.length ≠ expectedPathLen then []
      else hashUpPairs hashPair internalIndex 0 x proof.inclusionProof

theorem mem_appendPairs (t w k m j : Nat) (stack : List H) (size : UInt32)
    (hsize : size.toNat = m % 2 ^ w) (ht : t < w) (hm : m + 1 = (j + 1) * 2 ^ (t + 1)) :
    (node hashPair leaf (k + t) (2 * j), node hashPair leaf (k + t) (2 * j + 1)) ∈
      appendPairs hashPair (peaks hashPair leaf w k m ++ stack) (node hashPair leaf k m) size := by
  -- all of the `t + 1` low bits of `m` are ones, so the carry reaches level `k + t`
  induction t generalizing w k m size with
  | zero =>
    obtain ⟨w, rfl⟩ : ∃ v, w = v + 1 := ⟨w - 1, by omega⟩
    have hmod : m % 2 ^ (w + 1) = m % 2 + 2 * (m / 2 % 2 ^ w) := by
      rw [pow_succ, Nat.mul_comm, Nat.mod_mul]
    have hodd : size % 2 = 1 := by
      rw [u32_mod_two_eq_one_iff, hsize]
      omega
    rw [peaks_odd _ _ _ _ _ (by omega), List.cons_append, appendPairs, if_pos hodd,
      show 2 * j = m - 1 by omega, show m - 1 + 1 = m by omega, Nat.add_zero]
    exact List.mem_cons_self
  | succ t ih =>
    obtain ⟨w, rfl⟩ : ∃ v, w = v + 1 := ⟨w - 1, by omega⟩
    have hmod : m % 2 ^ (w + 1) = m % 2 + 2 * (m / 2 % 2 ^ w) := by
      rw [pow_succ, Nat.mul_comm, Nat.mod_mul]
    have hdouble : (j + 1) * 2 ^ (t + 1 + 1) = 2 * ((j + 1) * 2 ^ (t + 1)) := by ring
    have hodd : size % 2 = 1 := by
      rw [u32_mod_two_eq_one_iff, hsize]
      omega
    have hnode : hashPair (node hashPair leaf k (m - 1)) (node hashPair leaf k m) =
        node hashPair leaf (k + 1) (m / 2) := by
      rw [node, show 2 * (m / 2) = m - 1 by omega, show m - 1 + 1 = m by omega]
    rw [peaks_odd _ _ _ _ _ (by omega), List.cons_append, appendPairs, if_pos hodd, hnode,
      show k + (t + 1) = k + 1 + t by omega]
    apply List.mem_cons_of_mem
    exact ih w (k + 1) (m / 2) (size / 2) (by rw [u32_toNat_half, hsize]; omega)
      (by omega) (by omega)

theorem mem_buildPairs {n m : Nat} (hm : m < n) {q : H × H}
    (hq : q ∈ appendPairs hashPair (range hashPair leaf m).subroots.reverse (leaf m)
      (UInt32.ofNat m)) :
    q ∈ buildPairs hashPair new ((List.range n).map leaf) := by
  have hrun (d s : Nat) (hs : s ≤ m) (hmd : m < s + d) :
      q ∈ buildPairs hashPair (range hashPair leaf s) ((List.range' s d).map leaf) := by
    induction d generalizing s with
    | zero => omega
    | succ d ih =>
      rw [List.range'_succ, List.map_cons, buildPairs, append_range]
      by_cases hsm : s = m
      · subst hsm
        exact List.mem_append_left _ hq
      · exact List.mem_append_right _ (ih (s + 1) (by omega) (by omega))
  rw [List.range_eq_range']
  exact hrun n 0 (by omega) (by omega)

theorem treePair_mem_buildPairs {n : Nat} {q : H × H} (hq : TreePair hashPair leaf 32 n q) :
    q ∈ buildPairs hashPair new ((List.range n).map leaf) := by
  obtain ⟨k, j, hk, hle, rfl⟩ := hq
  have hpos : 0 < (j + 1) * 2 ^ (k + 1) := Nat.mul_pos (by omega) (Nat.two_pow_pos _)
  apply mem_buildPairs hashPair leaf (show (j + 1) * 2 ^ (k + 1) - 1 < n by omega)
  rw [range, List.reverse_append, List.reverse_reverse]
  have hmem := mem_appendPairs hashPair leaf k 32 0 ((j + 1) * 2 ^ (k + 1) - 1) j
    ((List.range (((j + 1) * 2 ^ (k + 1) - 1) / 2 ^ 32)).map (node hashPair leaf 32)).reverse
    (UInt32.ofNat ((j + 1) * 2 ^ (k + 1) - 1)) UInt32.toNat_ofNat' hk (by omega)
  rwa [Nat.zero_add] at hmem

end MmrGuest

open MmrGuest

namespace MmrGuest

variable {proof : MmrInclusionProof H}

theorem verifyProof_accepts [DecidableEq H] {mmr : MmrGuest H} {x : H}
    (h : mmr.verifyProof hashPair x proof = true) :
    proof.leafIndex.toNat < mmr.size.toNat ∧
    proof.inclusionProof.length = proof.peakLevel mmr.size ∧
      mmr.subroots[ones (31 - proof.peakLevel mmr.size)
          (mmr.size.toNat / 2 ^ (proof.peakLevel mmr.size + 1))]? =
        some (climb hashPair proof.leafIndex.toNat x proof.inclusionProof) := by
  unfold verifyProof at h
  by_cases hlt : proof.leafIndex.toNat < mmr.size.toNat
  · rw [getSubroot_of_lt _ _ _ _ hlt] at h
    by_cases hlen : proof.inclusionProof.length = proof.peakLevel mmr.size
    · rw [if_neg (not_not.mpr hlen)] at h
      exact ⟨hlt, hlen, of_decide_eq_true h⟩
    · rw [if_pos hlen] at h
      cases h
  · unfold getSubroot position at h
    rw [if_pos (Or.inr (UInt32.le_iff_toNat_le.mpr (by omega)))] at h
    cases h

theorem verifyPairs_of_accepts [DecidableEq H] {mmr : MmrGuest H} {x : H}
    (h : mmr.verifyProof hashPair x proof = true) : verifyPairs hashPair mmr x proof =
      climbPairs hashPair proof.leafIndex.toNat x proof.inclusionProof := by
  obtain ⟨hlt, hlen, -⟩ := verifyProof_accepts hashPair h
  have hlevel := proof.peakLevel_lt mmr.size
  have hsmall : proof.leafIndex.toNat % 2 ^ proof.peakLevel mmr.size < 2 ^ 32 :=
    lt_of_le_of_lt (Nat.mod_le _ _) proof.leafIndex.toNat_lt
  unfold verifyPairs
  rw [position_of_lt _ _ hlt]
  simp only [hlen, ne_eq, not_true_eq_false, if_false]
  rw [hashUpPairs_eq_climbPairs _ _ _ _ _ (by omega), u32_toNat_ofNat hsmall,
    pow_zero, Nat.div_one, ← hlen, (climb_mod _ _ _ _).2]

/-- The subroot that a proof is compared with: the peak of the leaf's own tree, or after a wrap of
the size a node of a higher level. -/
theorem range_subroot {n : Nat} {y : H} (hlt : proof.leafIndex.toNat < n % 2 ^ 32)
    (hget : (range hashPair leaf n).subroots[ones (31 - proof.peakLevel (UInt32.ofNat n))
      (n % 2 ^ 32 / 2 ^ (proof.peakLevel (UInt32.ofNat n) + 1))]? = some y) :
    ∃ k j, k + proof.peakLevel (UInt32.ofNat n) ≤ 32 ∧
      (j + 1) * 2 ^ (k + proof.peakLevel (UInt32.ofNat n)) ≤ n ∧
      y = node hashPair leaf (k + proof.peakLevel (UInt32.ofNat n)) j ∧
      (k = 0 → j = proof.leafIndex.toNat / 2 ^ proof.peakLevel (UInt32.ofNat n)) ∧
      (n ≤ 2 ^ 32 → k = 0) := by
  have hlevel := proof.peakLevel_lt (UInt32.ofNat n)
  have hdef : proof.peakLevel (UInt32.ofNat n) =
      (n % 2 ^ 32 ^^^ proof.leafIndex.toNat).log2 := by
    rw [peakLevel, UInt32.toNat_ofNat']
  obtain ⟨hbit, hindex⟩ := peak_of_index _ _ hlt
  rw [← hdef] at hbit hindex
  generalize proof.peakLevel (UInt32.ofNat n) = L at hlevel hbit hindex hget ⊢
  have hdiv (t : Nat) (ht : t ≤ 32) : n % 2 ^ 32 / 2 ^ t = n / 2 ^ t % 2 ^ (32 - t) := by
    conv_lhs => rw [show 32 = t + (32 - t) by omega, pow_add, Nat.mod_mul_right_div_self]
  have hones : ones (31 - L) (n % 2 ^ 32 / 2 ^ (L + 1)) = ones (31 - L) (n / 2 ^ (L + 1)) := by
    rw [hdiv _ (by omega), show 32 - (L + 1) = 31 - L by omega]
    exact ones_mod (31 - L) 0 _
  rw [hones] at hget
  unfold range at hget
  -- a peak of level `t` is complete
  have hcomplete (t : Nat) (h : n / 2 ^ t % 2 = 1) : (n / 2 ^ t - 1 + 1) * 2 ^ t ≤ n := by
    have hpos : 0 < n / 2 ^ t := Nat.pos_of_ne_zero (fun hz => by simp [hz] at h)
    rw [Nat.sub_add_cancel hpos]
    exact Nat.div_mul_le_self n (2 ^ t)
  by_cases hn : n < 2 ^ 32
  · rw [Nat.mod_eq_of_lt hn] at hbit hindex
    have hpeak := peaks_reverse_get hashPair leaf (31 - L) L 0 n hbit
    rw [show L + (31 - L + 1) = 32 by omega, Nat.zero_add] at hpeak
    rw [Nat.div_eq_of_lt hn] at hget
    refine ⟨0, n / 2 ^ L - 1, by omega, ?_, ?_, fun _ => hindex, fun _ => rfl⟩
    · rw [Nat.zero_add]
      exact hcomplete L hbit
    · rw [Nat.zero_add]
      exact Option.some.inj (hget.symm.trans hpeak)
  · by_cases hs : ones (31 - L) (n / 2 ^ (L + 1)) < n / 2 ^ 32
    · -- one of the full trees of height 32
      rw [List.getElem?_append_left (by simpa using hs), List.getElem?_map,
        List.getElem?_range hs] at hget
      refine ⟨32 - L, ones (31 - L) (n / 2 ^ (L + 1)), by omega, ?_, ?_, by omega, by omega⟩
      · rw [show 32 - L + L = 32 by omega]
        exact le_trans (Nat.mul_le_mul_right _ hs) (Nat.div_mul_le_self n (2 ^ 32))
      · rw [show 32 - L + L = 32 by omega]
        exact (Option.some.inj hget).symm
    · -- a peak that stands before the leaf's own
      rw [List.getElem?_append_right (by simpa using hs), List.length_map,
        List.length_range] at hget
      have hbefore : ones (31 - L) (n / 2 ^ (L + 1)) - n / 2 ^ 32 <
          ones (31 - L) (n / 2 ^ (L + 1)) := by omega
      obtain ⟨t, hLt, ht, htbit, hy⟩ := peaks_reverse_get_lt hashPair leaf (k := 0) (t := L) hbefore
        (by rw [show L + (31 - L + 1) = 32 by omega]; exact hget)
      refine ⟨t - L, n / 2 ^ t - 1, by omega, ?_, ?_, by omega, by omega⟩
      · rw [show t - L + L = t by omega]
        exact hcomplete t htbit
      · rw [show t - L + L = t by omega, hy, Nat.zero_add]

end MmrGuest

/-- What the guest over `n` leaves accepts: the leaf at the index, or a value whose path collides
with the trees, or after a wrap of the size an inner node of them. -/
theorem MmrGuest.range_accepts [DecidableEq H] {n : Nat} {x : H} {proof : MmrInclusionProof H}
    (haccept : (range hashPair leaf n).verifyProof hashPair x proof = true) :
    (proof.leafIndex.toNat < n ∧ x = leaf proof.leafIndex.toNat) ∨
      (∃ p ∈ (range hashPair leaf n).verifyPairs hashPair x proof,
        ∃ q, TreePair hashPair leaf 32 n q ∧ p ≠ q ∧ hashPair p.1 p.2 = hashPair q.1 q.2) ∨
      (2 ^ 32 < n ∧ ∃ q, TreePair hashPair leaf 32 n q ∧ x = hashPair q.1 q.2) := by
  obtain ⟨hlt, hlen, hget⟩ := verifyProof_accepts hashPair haccept
  have hpairs := verifyPairs_of_accepts hashPair haccept
  change proof.inclusionProof.length = proof.peakLevel (UInt32.ofNat n) at hlen
  obtain ⟨k, j, hk, hle, hroot, hzero, hsmall⟩ := range_subroot hashPair leaf hlt hget
  rw [← hlen] at hk hle hroot hzero
  rw [hpairs]
  rcases climb_sound hashPair leaf 32 n k j _ x proof.inclusionProof hk hle hroot with hx | hcol
  · by_cases hk0 : k = 0
    · -- the path climbs to the peak of the leaf's own tree
      left
      rw [hk0, hzero hk0, node_zero, Nat.div_add_mod'] at hx
      exact ⟨lt_of_lt_of_le hlt (Nat.mod_le _ _), hx⟩
    · right
      right
      refine ⟨by by_contra hn; exact hk0 (hsmall (by omega)), ?_⟩
      obtain ⟨k, rfl⟩ : ∃ v, k = v + 1 := ⟨k - 1, by omega⟩
      refine ⟨(_, _), ⟨k, _, by omega, ?_, rfl⟩, hx⟩
      calc (j * 2 ^ proof.inclusionProof.length +
              proof.leafIndex.toNat % 2 ^ proof.inclusionProof.length + 1) * 2 ^ (k + 1)
          ≤ (j + 1) * 2 ^ proof.inclusionProof.length * 2 ^ (k + 1) := by
            apply Nat.mul_le_mul_right
            rw [Nat.add_mul, Nat.one_mul]
            omega
        _ = (j + 1) * 2 ^ (k + 1 + proof.inclusionProof.length) := by
            ring
        _ ≤ n := hle
  · right
    left
    exact hcol

/-- What a guest accepts is the leaf at the proof's index, or two pairs hashed on the way collide;
once the size has wrapped, it may also be the hash of a pair that was taken for a leaf. -/
theorem verifyProof_sound [DecidableEq H] (leaves : List H) (guest : MmrGuest H)
    (hbuild : appendAll hashPair leaves = some guest) (x : H) (proof : MmrInclusionProof H)
    (haccept : guest.verifyProof hashPair x proof = true) :
    (∃ hi : proof.leafIndex.toNat < leaves.length, x = leaves[proof.leafIndex.toNat]) ∨
      CollisionIn (fun q => hashPair q.1 q.2)
        (guest.verifyPairs hashPair x proof ++ buildPairs hashPair new leaves) ∨
      (2 ^ 32 < leaves.length ∧ ∃ q ∈ buildPairs hashPair new leaves, x = hashPair q.1 q.2) := by
  let leaf (i : Nat) : H := leaves.getD i x
  have hleaves : leaves = (List.range leaves.length).map leaf := list_eq_map_getD leaves x
  have hguest : guest = range hashPair leaf leaves.length := by
    rw [hleaves, appendAll_range] at hbuild
    rw [← Option.some.inj hbuild]
  have hmem {q : H × H} (hq : TreePair hashPair leaf 32 leaves.length q) :
      q ∈ buildPairs hashPair new leaves := by
    rw [hleaves]
    exact treePair_mem_buildPairs hashPair leaf hq
  rw [hguest] at haccept ⊢
  rcases range_accepts hashPair leaf haccept with
    ⟨hi, hx⟩ | ⟨p, hp, q, hq, hne, heq⟩ | ⟨hn, q, hq, hx⟩
  · left
    refine ⟨hi, ?_⟩
    rw [hx]
    simp only [leaf, List.getD_eq_getElem?_getD, List.getElem?_eq_getElem hi, Option.getD_some]
  · right
    left
    exact ⟨p, List.mem_append_left _ hp, q, List.mem_append_right _ (hmem hq), hne, heq⟩
  · right
    right
    exact ⟨hn, q, hmem hq, hx⟩

theorem verifyProof_sound_two :
    let pair := HeaderChain.hashPair Sha256.digest
    let leaves := [beBytes32 1, beBytes32 2]
    let guest : MmrGuest Bytes32 := ⟨[pair (beBytes32 1) (beBytes32 2)], 2⟩
    let proof : MmrInclusionProof Bytes32 := ⟨1, [beBytes32 1]⟩
    appendAll pair leaves = some guest ∧ guest.verifyProof pair (beBytes32 2) proof = true ∧
      ((∃ hi : proof.leafIndex.toNat < leaves.length, beBytes32 2 = leaves[proof.leafIndex.toNat]) ∨
        CollisionIn (fun q => pair q.1 q.2)
          (guest.verifyPairs pair (beBytes32 2) proof ++ buildPairs pair new leaves) ∨
        (2 ^ 32 < leaves.length ∧ ∃ q ∈ buildPairs pair new leaves, beBytes32 2 =
          pair q.1 q.2)) := by
  intro pair leaves guest proof
  have hbuild : appendAll pair leaves = some guest := by decide +kernel
  have haccept : guest.verifyProof pair (beBytes32 2) proof = true := by decide +kernel
  exact ⟨hbuild, haccept, verifyProof_sound pair leaves guest hbuild (beBytes32 2) proof haccept⟩

end BitvmNode.HeaderChain
