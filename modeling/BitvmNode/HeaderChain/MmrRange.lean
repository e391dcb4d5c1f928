import BitvmNode.Reasoning.MachineWords
import BitvmNode.Reasoning.Runs
import BitvmNode.HeaderChain.Mmr

/-!
# What the two mountain ranges hold

After `n` appends both representations are functions of the leaves alone: the guest holds the peaks
of the perfect trees, the host every level of them.
-/

namespace BitvmNode.HeaderChain

open Reasoning

variable {H : Type} (hashPair : H → H → H) (leaf : Nat → H)

namespace MmrGuest

/-- The carry runs through the `w` low bits of the number of nodes; if all of them are ones, the
tree of height `k + w` is complete and stands in front of what was there. -/
theorem appendLoop_peaks (w k m : Nat) (stack : List H) (size : UInt32)
    (hsize : size.toNat = m % 2 ^ w) :
    appendLoop hashPair (peaks hashPair leaf w k m ++ stack) (node hashPair leaf k m) size =
      some (peaks hashPair leaf w k (m + 1) ++
        ((if (m + 1) % 2 ^ w = 0 then [node hashPair leaf (k + w) (m / 2 ^ w)] else []) ++
          stack)) := by
  induction w generalizing k m size with
  | zero =>
    have hz : ¬ size % 2 = 1 := by
      rw [u32_mod_two_eq_one_iff, hsize]
      simp [Nat.mod_one]
    cases stack <;> simp [peaks, appendLoop, hz, Nat.mod_one]
  | succ w ih =>
    have hmod : m % 2 ^ (w + 1) = m % 2 + 2 * (m / 2 % 2 ^ w) := by
      rw [pow_succ, Nat.mul_comm, Nat.mod_mul]
    have hmod' : (m + 1) % 2 ^ (w + 1) = (m + 1) % 2 + 2 * ((m + 1) / 2 % 2 ^ w) := by
      rw [pow_succ, Nat.mul_comm, Nat.mod_mul]
    rcases Nat.mod_two_eq_zero_or_one m with h | h
    · -- an even level takes the node
      have hbit : ¬ size % 2 = 1 := by
        rw [u32_mod_two_eq_one_iff, hsize]
        omega
      rw [peaks_even _ _ _ _ _ h, peaks_odd _ _ _ _ (m + 1) (by omega),
        show (m + 1) / 2 = m / 2 by omega, if_neg (by omega), Nat.add_sub_cancel]
      cases hstack : peaks hashPair leaf w (k + 1) (m / 2) ++ stack <;>
        simp [appendLoop, hbit, hstack]
    · -- an odd one merges it with its peak and carries
      have hbit : size % 2 = 1 := by
        rw [u32_mod_two_eq_one_iff, hsize]
        omega
      have hcarry : (m + 1) % 2 ^ (w + 1) = 0 ↔ (m / 2 + 1) % 2 ^ w = 0 := by
        rw [hmod', show (m + 1) / 2 = m / 2 + 1 by omega]
        omega
      have hnode : hashPair (node hashPair leaf k (m - 1)) (node hashPair leaf k m) =
          node hashPair leaf (k + 1) (m / 2) := by
        rw [node, show 2 * (m / 2) = m - 1 by omega, show m - 1 + 1 = m by omega]
      rw [peaks_odd _ _ _ _ _ h, peaks_even _ _ _ _ (m + 1) (by omega),
        List.cons_append, appendLoop, if_pos hbit, hnode,
          ih (k + 1) (m / 2) (size / 2) (by rw [u32_toNat_half, hsize]; omega),
        show (m + 1) / 2 = m / 2 + 1 by omega, Nat.div_div_eq_div_mul, ← Nat.pow_succ',
        show k + 1 + w = k + (w + 1) by omega]
      simp only [hcarry]

def range (n : Nat) : MmrGuest H where
  subroots := (List.range (n / 2 ^ 32)).map (node hashPair leaf 32) ++
    (peaks hashPair leaf 32 0 n).reverse
  size := UInt32.ofNat n

theorem append_range (n : Nat) :
    (range hashPair leaf n).append hashPair (leaf n) = some (range hashPair leaf (n + 1)) := by
  have hloop := appendLoop_peaks hashPair leaf 32 0 n
    ((List.range (n / 2 ^ 32)).map (node hashPair leaf 32)).reverse (UInt32.ofNat n)
    UInt32.toNat_ofNat'
  rw [node_zero, Nat.zero_add] at hloop
  unfold append range
  rw [List.reverse_append, List.reverse_reverse, hloop]
  by_cases hfull : (n + 1) % 2 ^ 32 = 0
  · rw [if_pos hfull, show (n + 1) / 2 ^ 32 = n / 2 ^ 32 + 1 by omega, List.range_succ]
    simp
  · rw [if_neg hfull, show (n + 1) / 2 ^ 32 = n / 2 ^ 32 by omega]
    simp

theorem appendAll_range (n : Nat) :
    appendAll hashPair ((List.range n).map leaf) = some (range hashPair leaf n) :=
  foldlM_range leaf (range hashPair leaf) (append_range hashPair leaf) n

theorem range_subroots_of_lt {n : Nat} (hn : n < 2 ^ 32) :
    (range hashPair leaf n).subroots = (peaks hashPair leaf 32 0 n).reverse := by
  rw [range, Nat.div_eq_of_lt hn]
  rfl

end MmrGuest

namespace MmrHost

def level (k m : Nat) : List H := (List.range m).map (node hashPair leaf k)

def upper : Nat → Nat → Nat → List (List H)
  | 0, _, _ => []
  | d + 1, k, m => level hashPair leaf (k + 1) (m / 2) :: upper d (k + 1) (m / 2)

theorem level_length (k m : Nat) : (level hashPair leaf k m).length = m := by
  rw [level, List.length_map, List.length_range]

theorem level_get {k m i : Nat} (hi : i < m) :
    (level hashPair leaf k m)[i]? = some (node hashPair leaf k i) := by
  rw [level, List.getElem?_map, List.getElem?_range hi]
  rfl

theorem level_succ (k m : Nat) :
    level hashPair leaf k m ++ [node hashPair leaf k m] = level hashPair leaf k (m + 1) := by
  simp only [level, List.range_succ, List.map_append, List.map_cons, List.map_nil]

theorem upper_snoc (d k m : Nat) : upper hashPair leaf (d + 1) k m =
      upper hashPair leaf d k m ++ [level hashPair leaf (k + (d + 1)) (m / 2 ^ (d + 1))] := by
  induction d generalizing k m with
  | zero => simp [upper]
  | succ d ih =>
    rw [upper, ih, upper, List.cons_append, Nat.div_div_eq_div_mul, ← Nat.pow_succ',
      show k + 1 + (d + 1) = k + (d + 1 + 1) by omega]

theorem upper_getLast (d k m : Nat) :
    (level hashPair leaf k m :: upper hashPair leaf d k m).getLast? =
      some (level hashPair leaf (k + d) (m / 2 ^ d)) := by
  cases d with
  | zero => simp [upper]
  | succ d => rw [upper_snoc, ← List.cons_append, List.getLast?_concat]

theorem pushParents_upper (d k m : Nat) :
    pushParents hashPair (level hashPair leaf k (m + 1)) (upper hashPair leaf d k m) =
      some (level hashPair leaf k (m + 1) :: upper hashPair leaf d k (m + 1)) := by
  induction d generalizing k m with
  | zero => rfl
  | succ d ih =>
    rw [upper, upper, pushParents, level_length]
    by_cases h : (m + 1) % 2 = 1
    · rw [if_pos h, show (m + 1) / 2 = m / 2 by omega]
    · have hnode : hashPair (node hashPair leaf k (m - 1)) (node hashPair leaf k m) =
          node hashPair leaf (k + 1) (m / 2) := by
        rw [node, show 2 * (m / 2) = m - 1 by omega, show m - 1 + 1 = m by omega]
      rw [if_neg h, show m + 1 - 2 = m - 1 by omega, Nat.add_sub_cancel, level_get _ _ (by omega),
        level_get _ _ (by omega)]
      simp only [Option.bind_eq_bind, Option.bind_some]
      rw [hnode, level_succ, ih, show (m + 1) / 2 = m / 2 + 1 by omega]
      rfl

def range (n : Nat) : MmrHost H :=
  ⟨level hashPair leaf 0 n :: upper hashPair leaf n.log2 0 n⟩

theorem log2_succ_cases (n : Nat) : ((n + 1) / 2 ^ n.log2 = 1 ∧ (n + 1).log2 = n.log2) ∨
      ((n + 1) / 2 ^ n.log2 = 2 ∧ (n + 1).log2 = n.log2 + 1 ∧ (n + 1) / 2 ^ (n.log2 + 1) = 1) := by
  have hlt : n < 2 ^ (n.log2 + 1) := Nat.lt_log2_self
  by_cases hz : n = 0
  · left
    subst hz
    decide
  have hle : 2 ^ n.log2 ≤ n := Nat.log2_self_le hz
  have hpow : 2 ^ (n.log2 + 1) = 2 ^ n.log2 * 2 := pow_succ 2 _
  by_cases hfull : n + 1 = 2 ^ (n.log2 + 1)
  · right
    refine ⟨?_, ?_, ?_⟩
    · rw [hfull, hpow, Nat.mul_div_cancel_left _ (Nat.two_pow_pos _)]
    · rw [hfull, Nat.log2_two_pow]
    · rw [hfull, Nat.div_self (Nat.two_pow_pos _)]
  · left
    refine ⟨?_, ?_⟩
    · exact Nat.div_eq_of_lt_le (by omega) (by omega)
    · exact (Nat.log2_eq_iff (by omega)).mpr ⟨by omega, by omega⟩

theorem append_range (n : Nat) :
    (range hashPair leaf n).append hashPair (leaf n) = some (range hashPair leaf (n + 1)) := by
  have hbottom : level hashPair leaf 0 n ++ [leaf n] = level hashPair leaf 0 (n + 1) :=
    level_succ hashPair leaf 0 n
  unfold append range recalculatePeaks
  simp only [hbottom, pushParents_upper, Option.bind_eq_bind, Option.bind_some, upper_getLast,
    Nat.zero_add, level_length]
  rcases log2_succ_cases n with ⟨htop, hlog⟩ | ⟨htop, hlog, hnext⟩
  · rw [htop, if_neg (by omega), hlog]
    rfl
  · -- the top level is full: one more level with one node
    rw [htop, if_pos (by omega), level_get _ _ (by omega), level_get _ _ (by omega),
      hlog, upper_snoc, hnext, Nat.zero_add]
    rfl

theorem appendAll_range (n : Nat) :
    appendAll hashPair ((List.range n).map leaf) = some (range hashPair leaf n) :=
  foldlM_range leaf (range hashPair leaf) (append_range hashPair leaf) n

theorem oddLevels_upper (d k m : Nat) :
    (level hashPair leaf k m :: upper hashPair leaf d k m).filterMap (fun level =>
      if level.length % 2 = 1 then level[level.length - 1]? else none) =
        peaks hashPair leaf (d + 1) k m := by
  induction d generalizing k m with
  | zero =>
    rw [upper, peaks, peaks, List.append_nil]
    by_cases h : m % 2 = 1
    · rw [List.filterMap_cons, level_length, if_pos h, level_get _ _ (by omega), if_pos h]
      rfl
    · simp [level_length, h]
  | succ d ih =>
    rw [upper, peaks, ← ih, List.filterMap_cons, level_length]
    by_cases h : m % 2 = 1
    · rw [if_pos h, level_get _ _ (by omega), if_pos h]
      rfl
    · rw [if_neg h, if_neg h]
      rfl

theorem getSubroots_range {n : Nat} (hn : n < 2 ^ 32) :
    (range hashPair leaf n).getSubroots = (peaks hashPair leaf 32 0 n).reverse := by
  have hlog : n.log2 < 32 := by
    by_cases hz : n = 0
    · subst hz
      decide
    · exact (Nat.log2_lt hz).mpr hn
  have hlt : n < 2 ^ (n.log2 + 1) := Nat.lt_log2_self
  unfold getSubroots range
  rw [oddLevels_upper, ← peaks_of_lt hashPair leaf _ (31 - n.log2) 0 n hlt,
    show n.log2 + 1 + (31 - n.log2) = 32 by omega]

end MmrHost

end BitvmNode.HeaderChain
