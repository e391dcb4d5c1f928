import BitvmNode.Reasoning.ItemTrees
import BitvmNode.StateChain.Cbft

/-!
# The root of a block's transactions

The tree of a list splits it at the largest power of two below its length, so lists of different
lengths have trees of different shapes.
-/

namespace BitvmNode.StateChain

open Reasoning

variable {n fuel : Nat}

theorem doubleBelow_spec {k : Nat} (hk : k < n) (hfuel : n ≤ k * 2 ^ (fuel + 1)) {e : Nat}
    (hpow : k = 2 ^ e) :
    (∃ e', doubleBelow n fuel k = 2 ^ e') ∧ doubleBelow n fuel k < n ∧
    n ≤ 2 * doubleBelow n fuel k := by
  induction fuel generalizing k e with
  | zero => exact ⟨⟨e, hpow⟩, hk, by simpa [doubleBelow, Nat.mul_comm] using hfuel⟩
  | succ fuel ih =>
    unfold doubleBelow
    by_cases hdouble : 2 * k < n
    · rw [if_pos hdouble]
      apply ih hdouble _ (show 2 * k = 2 ^ (e + 1) by rw [hpow, Nat.pow_succ, Nat.mul_comm])
      calc n ≤ k * 2 ^ (fuel + 1 + 1) := hfuel
        _ = 2 * k * 2 ^ (fuel + 1) := by
          rw [Nat.pow_succ 2 (fuel + 1), Nat.mul_comm 2 k, Nat.mul_assoc, Nat.mul_comm 2]
    · rw [if_neg hdouble]
      exact ⟨⟨e, hpow⟩, hk, by omega⟩

theorem largestPowerOfTwoLessThan_spec (hn : 2 ≤ n) :
    (∃ e, largestPowerOfTwoLessThan n = 2 ^ e) ∧ largestPowerOfTwoLessThan n < n ∧
      ∀ e, 2 ^ e < n → 2 ^ e ≤ largestPowerOfTwoLessThan n := by
  have henough : n ≤ 1 * 2 ^ (n + 1) := by
    have hlt := Nat.lt_two_pow_self (n := n + 1)
    omega
  obtain ⟨⟨e', he'⟩, hlt, hle⟩ :=
    doubleBelow_spec (show 1 < n by omega) henough (show 1 = 2 ^ 0 from rfl)
  refine ⟨⟨e', he'⟩, hlt, ?_⟩
  intro e he
  change 2 ^ e ≤ doubleBelow n n 1
  rw [he'] at hle ⊢
  have hexp : e < e' + 1 :=
    (Nat.pow_lt_pow_iff_right (by omega : 1 < 2)).mp (by rw [Nat.pow_succ]; omega)
  exact Nat.pow_le_pow_right (by omega) (by omega)

theorem largestPowerOfTwoLessThan_pos (hn : 2 ≤ n) : 0 < largestPowerOfTwoLessThan n := by
  obtain ⟨⟨e, he⟩, -⟩ := largestPowerOfTwoLessThan_spec hn
  rw [he]
  exact Nat.two_pow_pos e

def itemTreeFuel {α : Type} : Nat → List α → ItemTree α
  | 0, _ => .empty
  | fuel + 1, items =>
      match items with
      | [] => .empty
      | [item] => .leaf item
      | items =>
          let k := largestPowerOfTwoLessThan items.length
          .node (itemTreeFuel fuel (items.take k)) (itemTreeFuel fuel (items.drop k))

def itemTree {α : Type} (items : List α) : ItemTree α := itemTreeFuel items.length items

variable {α : Type} {items : List α}

theorem length_parts_lt (h : 2 ≤ items.length) :
    (items.take (largestPowerOfTwoLessThan items.length)).length < items.length ∧
      (items.drop (largestPowerOfTwoLessThan items.length)).length < items.length := by
  have hpos := largestPowerOfTwoLessThan_pos h
  have hlt := (largestPowerOfTwoLessThan_spec h).2.1
  rw [List.length_take, List.length_drop]
  omega

theorem itemTreeFuel_two_le (h : 2 ≤ items.length) : itemTreeFuel (fuel + 1) items =
      .node (itemTreeFuel fuel (items.take (largestPowerOfTwoLessThan items.length)))
        (itemTreeFuel fuel (items.drop (largestPowerOfTwoLessThan items.length))) := by
  match items, h with
  | _ :: _ :: _, _ => rfl

theorem items_itemTreeFuel (h : items.length ≤ fuel) : (itemTreeFuel fuel items).items = items := by
  induction fuel generalizing items with
  | zero =>
    have hempty : items = [] := List.length_eq_zero_iff.mp (by omega)
    rw [hempty]
    rfl
  | succ fuel ih =>
    rcases Nat.lt_or_ge items.length 2 with hshort | hlong
    · match items, hshort with
      | [], _ => rfl
      | [item], _ => rfl
    · have hparts := length_parts_lt hlong
      rw [itemTreeFuel_two_le hlong, ItemTree.items, ih (by omega), ih (by omega),
        List.take_append_drop]

theorem itemTreeFuel_congr {fuel' : Nat} (h : items.length ≤ fuel) (h' : items.length ≤ fuel') :
    itemTreeFuel fuel items = itemTreeFuel fuel' items := by
  induction fuel generalizing fuel' items with
  | zero =>
    have hempty : items = [] := List.length_eq_zero_iff.mp (by omega)
    rw [hempty]
    cases fuel' <;> rfl
  | succ fuel ih =>
    rcases Nat.lt_or_ge items.length 2 with hshort | hlong
    · match items, hshort, fuel', h' with
      | [], _, 0, _ => rfl
      | [], _, _ + 1, _ => rfl
      | [item], _, _ + 1, _ => rfl
    · have hparts := length_parts_lt hlong
      obtain ⟨other, rfl⟩ : ∃ other, fuel' = other + 1 := ⟨fuel' - 1, by omega⟩
      rw [itemTreeFuel_two_le hlong, itemTreeFuel_two_le hlong,
        ih (by omega) (by omega : _ ≤ other), ih (by omega) (by omega : _ ≤ other)]

theorem itemTreeFuel_eq (h : items.length ≤ fuel) :
    itemTreeFuel fuel items = itemTree items := itemTreeFuel_congr h le_rfl

theorem items_itemTree (items : List α) : (itemTree items).items = items :=
  items_itemTreeFuel le_rfl

section Roots

variable (cbft : Cbft)

/-- Leaves, inner nodes and the empty tree as the source hashes them. -/
def txTree : TreeHash Bytes32 Bytes Bytes32 where
  hash := cbft.sha256
  emptyInput := []
  leafInput item := 0x00 :: item.toList
  nodeInput left right := 0x01 :: left.toList ++ right.toList

theorem txTree_separated : (txTree cbft).Separated where
  empty_ne_leaf _ := by simp [txTree]
  empty_ne_node _ _ := by simp [txTree]
  leaf_ne_node _ _ _ := by simp [txTree]
  leaf_inj a b h := by
    simp only [txTree, List.cons.injEq, true_and] at h
    exact Vector.toList_inj.mp h
  node_inj left right left' right' h := by
    simp only [txTree, List.cons_append, List.cons.injEq, true_and] at h
    exact Bytes32.append_inj h

theorem computeMerkleRootFuel_eq (fuel : Nat) (items : List Bytes32) :
    computeMerkleRootFuel cbft fuel items = (txTree cbft).root (itemTreeFuel fuel items) := by
  induction fuel generalizing items with
  | zero => rfl
  | succ fuel ih =>
    match items with
    | [] => rfl
    | [item] => rfl
    | first :: second :: rest =>
      simp only [computeMerkleRootFuel, itemTreeFuel, ih]
      rfl

theorem computeMerkleRoot_eq (items : List Bytes32) :
    computeMerkleRoot cbft items = (txTree cbft).root (itemTree items) :=
      computeMerkleRootFuel_eq cbft _ _

theorem computeMerkleRoot_two_le {items : List Bytes32} (h : 2 ≤ items.length) :
    computeMerkleRoot cbft items =
      merkleInnerNodeHash cbft
        (computeMerkleRoot cbft (items.take (largestPowerOfTwoLessThan items.length)))
        (computeMerkleRoot cbft (items.drop (largestPowerOfTwoLessThan items.length))) := by
  obtain ⟨fuel, hfuel⟩ : ∃ fuel, items.length = fuel + 1 := ⟨items.length - 1, by omega⟩
  have hparts := length_parts_lt h
  have hitems : itemTree items = itemTreeFuel (fuel + 1) items := by rw [itemTree, hfuel]
  rw [computeMerkleRoot_eq, computeMerkleRoot_eq, computeMerkleRoot_eq, hitems,
    itemTreeFuel_two_le h, itemTreeFuel_eq (by omega), itemTreeFuel_eq (by omega)]
  rfl

def txRootInputs (txns : List Bytes) : List Bytes :=
  txns ++ (txTree cbft).inputs (itemTree (txns.map cbft.sha256))

end Roots

theorem map_eq_or_collision {β : Type} (hash : α → β) {xs ys : List α}
    (h : xs.map hash = ys.map hash) : xs = ys ∨ CollisionIn hash (xs ++ ys) := by
  induction xs generalizing ys with
  | nil => exact .inl (List.map_eq_nil_iff.mp h.symm).symm
  | cons x xs ih =>
    cases ys with
    | nil => cases h
    | cons y ys =>
      rw [List.map_cons, List.map_cons, List.cons.injEq] at h
      rcases eq_or_collision hash h.1 with rfl | hcollision
      · rcases ih h.2 with rfl | hcollision
        · exact .inl rfl
        · refine .inr (hcollision.mono fun q hq => ?_)
          simp only [List.mem_append, List.mem_cons] at hq ⊢
          tauto
      · refine .inr (hcollision.mono fun q hq => ?_)
        simp only [List.mem_append, List.mem_cons, List.not_mem_nil, or_false] at hq ⊢
        tauto

/-- The root of a block's transactions binds them, across all lengths, up to a collision among what
was hashed; and the recursion reaches every length by splitting at the largest power of two below
it. -/
theorem tx_root_binding (cbft : Cbft) :
    (∀ a b : List Bytes, merkleRootFromBase64Txns cbft a = merkleRootFromBase64Txns cbft b →
      a = b ∨ CollisionIn cbft.sha256 (txRootInputs cbft a ++ txRootInputs cbft b)) ∧
    ∀ items : List Bytes32, 2 ≤ items.length → ∀ k, k = largestPowerOfTwoLessThan items.length →
      (∃ e, k = 2 ^ e) ∧ k < items.length ∧ (∀ e, 2 ^ e < items.length → 2 ^ e ≤ k) ∧
        (items.take k).length < items.length ∧ (items.drop k).length < items.length ∧
        computeMerkleRoot cbft items =
          merkleInnerNodeHash cbft (computeMerkleRoot cbft (items.take k))
            (computeMerkleRoot cbft (items.drop k)) := by
  constructor
  · intro a b hroot
    unfold merkleRootFromBase64Txns at hroot
    rw [computeMerkleRoot_eq, computeMerkleRoot_eq] at hroot
    rcases (txTree_separated cbft).eq_or_collision hroot with htree | hcollision
    · have hhashes : a.map cbft.sha256 = b.map cbft.sha256 := by
        rw [← items_itemTree (a.map cbft.sha256), htree, items_itemTree]
      refine (map_eq_or_collision cbft.sha256 hhashes).imp_right fun hcollision =>
        hcollision.mono fun q hq => ?_
      simp only [txRootInputs, List.mem_append] at hq ⊢
      tauto
    · refine .inr (CollisionIn.mono hcollision fun q hq => ?_)
      simp only [txRootInputs, List.mem_append] at hq ⊢
      tauto
  · rintro items hitems k rfl
    obtain ⟨hpow, hlt, hlargest⟩ := largestPowerOfTwoLessThan_spec hitems
    have hparts := length_parts_lt hitems
    exact ⟨hpow, hlt, hlargest, hparts.1, hparts.2, computeMerkleRoot_two_le cbft hitems⟩

end BitvmNode.StateChain
