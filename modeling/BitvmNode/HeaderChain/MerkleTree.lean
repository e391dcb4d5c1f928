import BitvmNode.Reasoning.HashTrees
import BitvmNode.Reasoning.MachineWords

/-!
# Merkle trees of Bitcoin blocks

A level of odd length hashes its last node with itself.  An inclusion proof is hashed upwards from a
leaf; the proof says how long its path is.
-/

namespace BitvmNode.HeaderChain

open Reasoning

variable {H : Type} (pair : H → H → H)

namespace BitcoinMerkleTree

def levelPairs : List H → List (H × H)
  | [] => []
  | [x] => [(x, x)]
  | x :: y :: rest => (x, y) :: levelPairs rest

def nextLevel (level : List H) : List H := (levelPairs level).map fun q => pair q.1 q.2

def levels : Nat → List H → List (List H)
  | 0, level => [level]
  | rounds + 1, level =>
      if level.length ≤ 1 then [level] else level :: levels rounds (nextLevel pair level)

end BitcoinMerkleTree

structure BitcoinMerkleTree (H : Type) where
  nodes : List (List H)

namespace BitcoinMerkleTree

def new (transactions : List H) : BitcoinMerkleTree H :=
  ⟨levels pair transactions.length transactions⟩

def root (tree : BitcoinMerkleTree H) : Option H := do
  let top ← tree.nodes.getLast?
  top[0]?

def depth (transactions : List H) : Nat := (new pair transactions).nodes.length - 1

def idxPath : List (List H) → UInt32 → Option (List H)
  | [], _ => some []
  | [_], _ => some []
  | level :: next :: above, i => do
      let sibling ←
        if i % 2 = 1 then level[i.toNat - 1]?
        else if UInt32.ofNat (level.length - 1) = i then level[i.toNat]?
        else level[(i + 1).toNat]?
      let rest ← idxPath (next :: above) (i / 2)
      some (sibling :: rest)

end BitcoinMerkleTree

structure BlockInclusionProof (H : Type) where
  idx : UInt32
  merkleProof : List H

def BitcoinMerkleTree.generateProof (tree : BitcoinMerkleTree H)
    (idx : UInt32) : Option (BlockInclusionProof H) := do
  let bottom ← tree.nodes[0]?
  if idx ≥ UInt32.ofNat bottom.length then none
  else do
    let path ← BitcoinMerkleTree.idxPath tree.nodes idx
    some ⟨idx, path⟩

namespace BlockInclusionProof

def hashUp (index : UInt32) (combinedHash : H) : List H → H
  | [] => combinedHash
  | sibling :: rest =>
      hashUp (index / 2) (if index % 2 = 0 then pair combinedHash sibling
        else pair sibling combinedHash) rest

def hashUpPairs (index : UInt32) (combinedHash : H) : List H → List (H × H)
  | [] => []
  | sibling :: rest =>
      (if index % 2 = 0 then (combinedHash, sibling) else (sibling, combinedHash)) ::
        hashUpPairs (index / 2) (if index % 2 = 0 then pair combinedHash sibling
          else pair sibling combinedHash) rest

def path (proof : BlockInclusionProof H) : List H :=
  proof.merkleProof.take (proof.merkleProof.length % 2 ^ 32)

def getRoot (proof : BlockInclusionProof H) (txid : H) : H :=
  hashUp pair proof.idx txid proof.path

end BlockInclusionProof

def verifyMerkleProof [DecidableEq H] (txid : H) (proof : BlockInclusionProof H) (root : H) :
    Bool :=
  proof.getRoot pair txid = root

namespace BitcoinMerkleTree

def treePairs : Nat → List H → List (H × H)
  | 0, _ => []
  | k + 1, level => levelPairs level ++ treePairs k (nextLevel pair level)

theorem mem_of_mem_levelPairs {level : List H} {q : H × H} (h : q ∈ levelPairs level) :
    q.1 ∈ level ∧ q.2 ∈ level := by
  fun_induction levelPairs level with
  | case1 => simp at h
  | case2 x =>
    rw [List.mem_singleton] at h
    rw [h]
    simp
  | case3 x y rest ih =>
    rcases List.mem_cons.mp h with rfl | h
    · simp
    · have hin := ih h
      exact ⟨by simp [hin.1], by simp [hin.2]⟩

theorem levelPairs_length (level : List H) :
    (levelPairs level).length = (level.length + 1) / 2 := by
  fun_induction levelPairs level with
  | case1 => simp
  | case2 x => simp
  | case3 x y rest ih =>
    simp only [List.length_cons, ih]
    omega

theorem levels_getLast (rounds : Nat) (level : List H) : (levels pair rounds level).getLast? =
      some ((nextLevel pair)^[(levels pair rounds level).length - 1] level) := by
  induction rounds generalizing level with
  | zero => rfl
  | succ rounds ih =>
    rw [levels]
    by_cases hone : level.length ≤ 1
    · rw [if_pos hone]
      rfl
    · have hpos : 0 < (levels pair rounds (nextLevel pair level)).length := by
        cases rounds with
        | zero => simp [levels]
        | succ rounds =>
          rw [levels]
          split <;> simp
      rw [if_neg hone, List.getLast?_cons, ih, List.length_cons, Nat.add_sub_cancel]
      obtain ⟨k, hk⟩ := Nat.exists_eq_succ_of_ne_zero (Nat.pos_iff_ne_zero.mp hpos)
      rw [hk, Function.iterate_succ_apply]
      rfl

theorem root_mem {transactions : List H} {r : H} (h : (new pair transactions).root = some r) :
    r ∈ (nextLevel pair)^[depth pair transactions] transactions := by
  obtain ⟨top, htop, hr⟩ := Option.bind_eq_some_iff.mp h
  rw [new, levels_getLast] at htop
  rw [depth, new, Option.some.inj htop]
  exact List.mem_of_getElem? hr

/-- A path of `k` steps that reaches a node `k` levels up starts at a node, or one of its steps and
one of the tree's pairs collide. -/
theorem hashUp_mem {level path : List H} {index : UInt32} {x : H}
    (h : BlockInclusionProof.hashUp pair index x path ∈ (nextLevel pair)^[path.length] level) :
    x ∈ level ∨ ∃ p ∈ BlockInclusionProof.hashUpPairs pair index x path,
      ∃ q ∈ treePairs pair path.length level, p ≠ q ∧ pair p.1 p.2 = pair q.1 q.2 := by
  induction path generalizing level index x with
  | nil => exact Or.inl h
  | cons sibling rest ih =>
    rcases ih h with hx | ⟨p, hp, q, hq, hcol⟩
    · rw [nextLevel, List.mem_map] at hx
      obtain ⟨q, hq, hqx⟩ := hx
      have hmem := mem_of_mem_levelPairs hq
      have hq' : q ∈ treePairs pair (rest.length + 1) level := List.mem_append_left _ hq
      by_cases hside : index % 2 = 0
      · rw [if_pos hside] at hqx
        by_cases hpq : (x, sibling) = q
        · left
          rw [← hpq] at hmem
          exact hmem.1
        · right
          refine ⟨(x, sibling), ?_, q, hq', hpq, hqx.symm⟩
          simp [BlockInclusionProof.hashUpPairs, hside]
      · rw [if_neg hside] at hqx
        by_cases hpq : (sibling, x) = q
        · left
          rw [← hpq] at hmem
          exact hmem.2
        · right
          refine ⟨(sibling, x), ?_, q, hq', hpq, hqx.symm⟩
          simp [BlockInclusionProof.hashUpPairs, hside]
    · right
      exact ⟨p, List.mem_cons_of_mem _ hp, q, List.mem_append_right _ hq, hcol⟩

end BitcoinMerkleTree

end BitvmNode.HeaderChain
