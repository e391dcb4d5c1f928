import Mathlib.Data.Nat.Bitwise
import Mathlib.Data.List.Basic
import Mathlib.Tactic.Ring

/-!
# Perfect hash trees and mountain ranges of them

An unbounded supply of leaves is hashed pairwise into perfect trees: `node k j` is the digest of the
`j`-th subtree of height `k`.  A range of `n` leaves is a row of such trees, one for each one-bit of
`n`.
-/

namespace BitvmNode.Reasoning

/-- Two different members of `qs` with one image. -/
def CollisionIn {α β : Type} (hash : α → β) (qs : List α) : Prop :=
  ∃ x ∈ qs, ∃ y ∈ qs, x ≠ y ∧ hash x = hash y

theorem CollisionIn.mono {α β : Type} {hash : α → β} {qs rs : List α}
    (h : CollisionIn hash qs) (hsub : ∀ q ∈ qs, q ∈ rs) : CollisionIn hash rs := by
  obtain ⟨x, hx, y, hy, hne, heq⟩ := h
  exact ⟨x, hsub x hx, y, hsub y hy, hne, heq⟩

theorem eq_or_collision {α β : Type} (hash : α → β) {x y : α} (h : hash x = hash y) :
    x = y ∨ CollisionIn hash [x, y] := by
  by_cases hxy : x = y
  · exact Or.inl hxy
  · exact Or.inr ⟨x, by simp, y, by simp, hxy, h⟩

section Trees

variable {H : Type} (pair : H → H → H) (leaf : Nat → H)

def node : Nat → Nat → H
  | 0, j => leaf j
  | k + 1, j => pair (node k (2 * j)) (node k (2 * j + 1))

theorem node_zero (j : Nat) : node pair leaf 0 j = leaf j := rfl

/-- The children of the inner nodes, up to level `w`, of the perfect trees over the first `n`
leaves. -/
def TreePair (w n : Nat) (q : H × H) : Prop :=
  ∃ k j, k < w ∧ (j + 1) * 2 ^ (k + 1) ≤ n ∧
    q = (node pair leaf k (2 * j), node pair leaf k (2 * j + 1))

/-- Hashes `x` upwards with its siblings; the bits of `idx` say on which side `x` stands. -/
def climb (idx : Nat) (x : H) : List H → H
  | [] => x
  | s :: ss => climb (idx / 2) (if idx % 2 = 0 then pair x s else pair s x) ss

def climbPairs (idx : Nat) (x : H) : List H → List (H × H)
  | [] => []
  | s :: ss =>
      (if idx % 2 = 0 then (x, s) else (s, x)) :: climbPairs (idx / 2) (if idx % 2 = 0 then pair x s
        else pair s x) ss

/-- The sibling digests of node `i` of level `k`, from that level upwards. -/
def siblings (k i : Nat) : Nat → List H
  | 0 => []
  | m + 1 =>
      node pair leaf k (if i % 2 = 0 then i + 1 else i - 1) :: siblings (k + 1) (i / 2) m

theorem siblings_length (k i m : Nat) : (siblings pair leaf k i m).length = m := by
  induction m generalizing k i with
  | zero => rfl
  | succ m ih => simp only [siblings, List.length_cons, ih]

theorem climb_siblings (k i m : Nat) :
    climb pair i (node pair leaf k i) (siblings pair leaf k i m) =
      node pair leaf (k + m) (i / 2 ^ m) := by
  induction m generalizing k i with
  | zero => simp [siblings, climb]
  | succ m ih =>
    have hstep : (if i % 2 = 0 then
          pair (node pair leaf k i) (node pair leaf k (if i % 2 = 0 then i + 1 else i - 1))
        else pair (node pair leaf k (if i % 2 = 0 then i + 1 else i - 1)) (node pair leaf k i)) =
        node pair leaf (k + 1) (i / 2) := by
      by_cases hi : i % 2 = 0
      · rw [if_pos hi, if_pos hi, node, show 2 * (i / 2) = i by omega]
      · rw [if_neg hi, if_neg hi, node, show 2 * (i / 2) = i - 1 by omega,
          show i - 1 + 1 = i by omega]
    rw [siblings, climb, hstep, ih, Nat.div_div_eq_div_mul, ← Nat.pow_succ',
      show k + 1 + m = k + (m + 1) by omega]

/-- A path that reaches a genuine node starts at the genuine node below it, or one of its steps and
one of the tree's pairs collide. -/
theorem climb_sound (w n k j idx : Nat) (x : H) (path : List H) (hw : k + path.length ≤ w)
    (hin : (j + 1) * 2 ^ (k + path.length) ≤ n)
    (h : climb pair idx x path = node pair leaf (k + path.length) j) :
    x = node pair leaf k (j * 2 ^ path.length + idx % 2 ^ path.length) ∨
      ∃ p ∈ climbPairs pair idx x path, ∃ q, TreePair pair leaf w n q ∧ p ≠ q ∧
        pair p.1 p.2 = pair q.1 q.2 := by
  induction path generalizing k idx x with
  | nil =>
    left
    simpa [climb, Nat.mod_one] using h
  | cons s ss ih =>
    have hlen : k + (s :: ss).length = k + 1 + ss.length := by simp only [List.length_cons]; omega
    rw [hlen] at hw hin h
    rcases ih (k + 1) (idx / 2) _ hw hin h with hx | ⟨p, hp, q, hq⟩
    · -- the step's parent is a genuine inner node: compare the two pairs hashed into it
      let b := j * 2 ^ ss.length + idx / 2 % 2 ^ ss.length
      have hidx : j * 2 ^ (s :: ss).length + idx % 2 ^ (s :: ss).length = 2 * b + idx % 2 := by
        have hmod : idx % 2 ^ (ss.length + 1) = idx % 2 + 2 * (idx / 2 % 2 ^ ss.length) := by
          rw [pow_succ, Nat.mul_comm, Nat.mod_mul]
        rw [List.length_cons, hmod, pow_succ]
        ring
      have htree : TreePair pair leaf w n
          (node pair leaf k (2 * b), node pair leaf k (2 * b + 1)) := by
        refine ⟨k, b, by omega, ?_, rfl⟩
        have hb : b + 1 ≤ (j + 1) * 2 ^ ss.length := by
          rw [Nat.add_mul, Nat.one_mul]
          omega
        calc (b + 1) * 2 ^ (k + 1) ≤ (j + 1) * 2 ^ ss.length * 2 ^ (k + 1) :=
              Nat.mul_le_mul_right _ hb
          _ = (j + 1) * 2 ^ (k + 1 + ss.length) := by rw [pow_add _ (k + 1)]; ring
          _ ≤ n := hin
      rw [hidx]
      by_cases heven : idx % 2 = 0
      · rw [if_pos heven] at hx
        by_cases hp : (x, s) = (node pair leaf k (2 * b), node pair leaf k (2 * b + 1))
        · left
          rw [heven]
          exact congrArg Prod.fst hp
        · right
          refine ⟨(x, s), ?_, _, htree, hp, hx⟩
          simp only [climbPairs, if_pos heven, List.mem_cons, true_or]
      · rw [if_neg heven] at hx
        by_cases hp : (s, x) = (node pair leaf k (2 * b), node pair leaf k (2 * b + 1))
        · left
          rw [show idx % 2 = 1 by omega]
          exact congrArg Prod.snd hp
        · right
          refine ⟨(s, x), ?_, _, htree, hp, hx⟩
          simp only [climbPairs, if_neg heven, List.mem_cons, true_or]
    · right
      refine ⟨p, ?_, q, hq⟩
      rw [climbPairs]
      exact List.mem_cons_of_mem _ hp

theorem climb_mod (idx : Nat) (x : H) (path : List H) :
    climb pair (idx % 2 ^ path.length) x path = climb pair idx x path ∧
      climbPairs pair (idx % 2 ^ path.length) x path = climbPairs pair idx x path := by
  induction path generalizing idx x with
  | nil => exact ⟨rfl, rfl⟩
  | cons s ss ih =>
    have hmod : idx % 2 ^ (ss.length + 1) = idx % 2 + 2 * (idx / 2 % 2 ^ ss.length) := by
      rw [pow_succ, Nat.mul_comm, Nat.mod_mul]
    have hlow : idx % 2 ^ (ss.length + 1) % 2 = idx % 2 := by omega
    have hhigh : idx % 2 ^ (ss.length + 1) / 2 = idx / 2 % 2 ^ ss.length := by omega
    constructor
    · rw [List.length_cons, climb, climb, hlow, hhigh, (ih _ _).1]
    · rw [List.length_cons, climbPairs, climbPairs, hlow, hhigh, (ih _ _).2]

def ones : Nat → Nat → Nat
  | 0, _ => 0
  | w + 1, m => m % 2 + ones w (m / 2)

theorem ones_mod (w v m : Nat) : ones (w + v) (m % 2 ^ w) = ones w m := by
  induction w generalizing m with
  | zero =>
    rw [pow_zero, Nat.mod_one, ones]
    induction v with
    | zero => rfl
    | succ v ih => simpa [ones] using ih
  | succ w ih =>
    have hmod : m % 2 ^ (w + 1) = m % 2 + 2 * (m / 2 % 2 ^ w) := by
      rw [pow_succ, Nat.mul_comm, Nat.mod_mul]
    have hlow : m % 2 ^ (w + 1) % 2 = m % 2 := by omega
    have hhigh : m % 2 ^ (w + 1) / 2 = m / 2 % 2 ^ w := by omega
    rw [show w + 1 + v = w + v + 1 by omega, ones, ones, hlow, hhigh, ih]

/-- Among the `w` levels from `k` up, the last node of each level that has an odd number of them, if
level `k` has `m` nodes. -/
def peaks : Nat → Nat → Nat → List H
  | 0, _, _ => []
  | w + 1, k, m =>
      (if m % 2 = 1 then [node pair leaf k (m - 1)] else []) ++ peaks w (k + 1) (m / 2)

theorem peaks_odd (w k m : Nat) (h : m % 2 = 1) : peaks pair leaf (w + 1) k m =
      node pair leaf k (m - 1) :: peaks pair leaf w (k + 1) (m / 2) := by
  rw [peaks, if_pos h, List.singleton_append]

theorem peaks_even (w k m : Nat) (h : m % 2 = 0) :
    peaks pair leaf (w + 1) k m = peaks pair leaf w (k + 1) (m / 2) := by
  rw [peaks, if_neg (by omega), List.nil_append]

theorem peaks_zero (w k : Nat) : peaks pair leaf w k 0 = [] := by
  induction w generalizing k with
  | zero => rfl
  | succ w ih => rw [peaks_even _ _ _ _ _ rfl, Nat.zero_div, ih]

theorem peaks_length (w k m : Nat) : (peaks pair leaf w k m).length = ones w m := by
  induction w generalizing k m with
  | zero => rfl
  | succ w ih =>
    rcases Nat.mod_two_eq_zero_or_one m with h | h
    · rw [peaks_even pair leaf w k m h, ih, ones, h, Nat.zero_add]
    · rw [peaks_odd pair leaf w k m h, List.length_cons, ih, ones, h, Nat.add_comm]

theorem peaks_add (t u k m : Nat) : peaks pair leaf (t + u) k m =
      peaks pair leaf t k m ++ peaks pair leaf u (k + t) (m / 2 ^ t) := by
  induction t generalizing k m with
  | zero => simp [peaks]
  | succ t ih =>
    rw [show t + 1 + u = t + u + 1 by omega, peaks, peaks, ih, List.append_assoc,
      Nat.div_div_eq_div_mul, ← Nat.pow_succ', show k + 1 + t = k + (t + 1) by omega]

theorem peaks_of_lt (w v k m : Nat) (hm : m < 2 ^ w) :
    peaks pair leaf (w + v) k m = peaks pair leaf w k m := by
  rw [peaks_add, Nat.div_eq_of_lt hm, peaks_zero, List.append_nil]

theorem mem_peaks {w k m : Nat} {x : H} (h : x ∈ peaks pair leaf w k m) :
    ∃ t, t < w ∧ m / 2 ^ t % 2 = 1 ∧ x = node pair leaf (k + t) (m / 2 ^ t - 1) := by
  induction w generalizing k m with
  | zero => simp [peaks] at h
  | succ w ih =>
    rw [peaks, List.mem_append] at h
    rcases h with h | h
    · by_cases hodd : m % 2 = 1
      · rw [if_pos hodd, List.mem_singleton] at h
        exact ⟨0, by omega, by simpa using hodd, by simpa using h⟩
      · simp [if_neg hodd] at h
    · obtain ⟨t, ht, hbit, hx⟩ := ih h
      refine ⟨t + 1, by omega, ?_, ?_⟩
      · rw [Nat.pow_succ', ← Nat.div_div_eq_div_mul]
        exact hbit
      · rw [hx, Nat.pow_succ', ← Nat.div_div_eq_div_mul, show k + 1 + t = k + (t + 1) by omega]

/-- Counted from the highest tree, the peak of level `k + t` comes after one peak for each one-bit
above bit `t`. -/
theorem peaks_reverse_get (u t k m : Nat) (hbit : m / 2 ^ t % 2 = 1) :
    (peaks pair leaf (t + (u + 1)) k m).reverse[ones u (m / 2 ^ (t + 1))]? =
      some (node pair leaf (k + t) (m / 2 ^ t - 1)) := by
  have hhigh : m / 2 ^ (t + 1) = m / 2 ^ t / 2 := by rw [Nat.div_div_eq_div_mul, ← pow_succ]
  rw [peaks_add, peaks_odd _ _ _ _ _ hbit, List.reverse_append, List.reverse_cons, hhigh,
    List.append_assoc]
  have hlen : (peaks pair leaf u (k + t + 1) (m / 2 ^ t / 2)).reverse.length =
      ones u (m / 2 ^ t / 2) := by rw [List.length_reverse, peaks_length]
  rw [List.getElem?_append_right (by omega), hlen, Nat.sub_self]
  rfl

theorem peaks_reverse_get_lt {u t k m s : Nat} {x : H} (hs : s < ones u (m / 2 ^ (t + 1)))
    (hx : (peaks pair leaf (t + (u + 1)) k m).reverse[s]? = some x) :
    ∃ t', t < t' ∧ t' < t + (u + 1) ∧ m / 2 ^ t' % 2 = 1 ∧
      x = node pair leaf (k + t') (m / 2 ^ t' - 1) := by
  rw [show t + (u + 1) = t + 1 + u by omega, peaks_add, List.reverse_append,
    List.getElem?_append_left (by rw [List.length_reverse, peaks_length]; exact hs)] at hx
  have hmem := List.mem_reverse.mp (List.mem_of_getElem? hx)
  obtain ⟨r, hr, hbit, hnode⟩ := mem_peaks pair leaf hmem
  rw [Nat.div_div_eq_div_mul, ← pow_add] at hbit hnode
  exact ⟨t + 1 +
    r, by omega, by omega, hbit, by rw [hnode, show k + (t + 1) + r = k + (t + 1 + r) by omega]⟩

/-- Below the highest bit in which an index differs from a larger count, the count has a one-bit
whose tree holds the index. -/
theorem peak_of_index (n i : Nat) (h : i < n) :
    n / 2 ^ (n ^^^ i).log2 % 2 = 1 ∧ n / 2 ^ (n ^^^ i).log2 - 1 = i / 2 ^ (n ^^^ i).log2 := by
  have hne : n ^^^ i ≠ 0 := by
    rw [Ne, Nat.xor_eq_zero_iff]
    omega
  let p := (n ^^^ i).log2
  have hlt : n ^^^ i < 2 ^ (p + 1) := Nat.lt_log2_self
  have habove : n / 2 ^ (p + 1) = i / 2 ^ (p + 1) := by
    have hz : (n ^^^ i) / 2 ^ (p + 1) = 0 := Nat.div_eq_of_lt hlt
    rw [← Nat.shiftRight_eq_div_pow, Nat.shiftRight_xor_distrib, Nat.xor_eq_zero_iff] at hz
    rwa [Nat.shiftRight_eq_div_pow, Nat.shiftRight_eq_div_pow] at hz
  have hdiff : n / 2 ^ p % 2 ≠ i / 2 ^ p % 2 := by
    have hone : (n ^^^ i).testBit p = true := Nat.testBit_log2 hne
    rw [Nat.testBit_xor] at hone
    simp only [Nat.testBit_eq_decide_div_mod_eq] at hone
    intro he
    rw [he] at hone
    simp at hone
  have hn2 : n / 2 ^ (p + 1) = n / 2 ^ p / 2 := by rw [Nat.div_div_eq_div_mul, ← pow_succ]
  have hi2 : i / 2 ^ (p + 1) = i / 2 ^ p / 2 := by rw [Nat.div_div_eq_div_mul, ← pow_succ]
  have hle : i / 2 ^ p ≤ n / 2 ^ p := Nat.div_le_div_right (by omega)
  generalize n / 2 ^ p = a at *
  generalize i / 2 ^ p = b at *
  omega

theorem log2_xor_half {n i : Nat} (h : i / 2 < n / 2) :
    (n ^^^ i).log2 = (n / 2 ^^^ i / 2).log2 + 1 := by
  have hne : n / 2 ^^^ i / 2 ≠ 0 := by
    rw [Ne, Nat.xor_eq_zero_iff]
    omega
  have hhalf : (n ^^^ i) / 2 = n / 2 ^^^ i / 2 := Nat.xor_div_two
  rw [Nat.log2_def, if_pos (by omega), hhalf]

theorem log2_xor_last {n i : Nat} (hi : i + 1 = n) (hn : n % 2 = 1) : (n ^^^ i).log2 = 0 := by
  have hhalf : (n ^^^ i) / 2 = n / 2 ^^^ i / 2 := Nat.xor_div_two
  rw [show n / 2 = i / 2 by omega, Nat.xor_self] at hhalf
  rw [Nat.log2_def, if_neg (by omega)]

end Trees

end BitvmNode.Reasoning
