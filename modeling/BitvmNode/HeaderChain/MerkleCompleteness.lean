import BitvmNode.HeaderChain.Spv

/-!
# Every transaction of a block has an inclusion proof

The table of levels ends in the root that the definition of Bitcoin gives: as long as there is more
than one node, a level of odd length repeats its last node and the nodes are hashed in pairs.
-/

namespace BitvmNode.HeaderChain

open Reasoning

variable {H : Type} (pair : H → H → H)

def evenLevel (level : List H) : List H :=
  if level.length % 2 = 1 then level ++ level.getLast?.toList else level

def parents : List H → List H
  | left :: right :: rest => pair left right :: parents rest
  | _ => []

variable (level : List H)

theorem parents_length : (parents pair level).length = level.length / 2 := by
  fun_induction parents pair level with
  | case1 left right rest ih =>
    simp only [List.length_cons, ih]
    omega
  | case2 level hshort =>
    cases level with
    | nil => simp
    | cons x rest =>
      cases rest with
      | nil => simp
      | cons y rest => exact absurd rfl (hshort x y rest)

theorem evenLevel_length_le : (evenLevel level).length ≤ level.length + 1 := by
  unfold evenLevel
  split
  · rw [List.length_append]
    cases level.getLast? <;> simp
  · omega

def bitcoinMerkleRoot : List H → Option H
  | [] => none
  | [x] => some x
  | x :: y :: rest => bitcoinMerkleRoot (parents pair (evenLevel (x :: y :: rest)))
termination_by level => level.length
decreasing_by
  have hle := evenLevel_length_le (x :: y :: rest)
  rw [parents_length]
  simp only [List.length_cons] at hle ⊢
  omega

namespace BitcoinMerkleTree

theorem levelPairs_getElem? (j : Nat) :
    (levelPairs level)[j]? = level[2 * j]?.map fun x => (x, level[2 * j + 1]?.getD x) := by
  fun_induction levelPairs level generalizing j with
  | case1 => simp
  | case2 x =>
    cases j with
    | zero => rfl
    | succ j => simp
  | case3 x y rest ih =>
    cases j with
    | zero => rfl
    | succ j =>
      rw [List.getElem?_cons_succ, ih]
      rfl

theorem nextLevel_length : (nextLevel pair level).length = (level.length + 1) / 2 := by
  rw [nextLevel, List.length_map, levelPairs_length]

theorem nextLevel_getElem? (j : Nat) :
    (nextLevel pair level)[j]? = level[2 * j]?.map fun x => pair x (level[2 * j + 1]?.getD x) := by
  rw [nextLevel, List.getElem?_map, levelPairs_getElem?, Option.map_map]
  rfl

theorem nextLevel_eq_parents : nextLevel pair level = parents pair (evenLevel level) := by
  unfold nextLevel
  fun_induction levelPairs level with
  | case1 => rfl
  | case2 x => rfl
  | case3 x y rest ih =>
    have heven : evenLevel (x :: y :: rest) = x :: y :: evenLevel rest := by
      unfold evenLevel
      simp only [List.length_cons, Nat.add_mod_right, Nat.add_assoc, Nat.reduceAdd]
      split
      · rename_i hodd
        cases rest with
        | nil => simp at hodd
        | cons z rest => rfl
      · rfl
    rw [List.map_cons, ih, heven]
    rfl

theorem levels_cons (rounds : Nat) (level : List H) :
    ∃ above, levels pair rounds level = level :: above := by
  cases rounds with
  | zero => exact ⟨[], rfl⟩
  | succ rounds =>
    rw [levels]
    split
    · exact ⟨[], rfl⟩
    · exact ⟨_, rfl⟩

variable {level : List H}

theorem levels_of_short (h : level.length ≤ 1) (rounds : Nat) :
    levels pair rounds level = [level] := by
  cases rounds with
  | zero => rfl
  | succ rounds => rw [levels, if_pos h]

theorem root_cons (level : List H) {nodes : List (List H)} (h : nodes ≠ []) :
    root ⟨level :: nodes⟩ = root ⟨nodes⟩ := by
  cases nodes with
  | nil => exact absurd rfl h
  | cons next above => rfl

theorem root_levels (rounds : Nat) (level : List H) (h : level.length ≤ rounds + 1) :
    root ⟨levels pair rounds level⟩ = bitcoinMerkleRoot pair level := by
  induction rounds generalizing level with
  | zero =>
    cases level with
    | nil => rw [bitcoinMerkleRoot]; rfl
    | cons x rest =>
      have hrest : rest = [] :=
        List.length_eq_zero_iff.mp (by simp only [List.length_cons] at h; omega)
      rw [hrest, bitcoinMerkleRoot]
      rfl
  | succ rounds ih =>
    match level, h with
    | [], _ => rw [levels_of_short pair (by simp), bitcoinMerkleRoot]; rfl
    | [x], _ => rw [levels_of_short pair (by simp), bitcoinMerkleRoot]; rfl
    | x :: y :: rest, h =>
      have hlong : ¬ (x :: y :: rest).length ≤ 1 := by simp
      have hnext : (nextLevel pair (x :: y :: rest)).length ≤ rounds + 1 := by
        rw [nextLevel_length]
        omega
      obtain ⟨above, habove⟩ := levels_cons pair rounds (nextLevel pair (x :: y :: rest))
      rw [levels, if_neg hlong, root_cons _ (by rw [habove]; exact List.cons_ne_nil _ _),
        ih _ hnext, nextLevel_eq_parents, bitcoinMerkleRoot]

theorem idxPath_cons (level next : List H) (above : List (List H)) (i : UInt32) :
    idxPath (level :: next :: above) i =
      (if i % 2 = 1 then level[i.toNat - 1]?
        else if UInt32.ofNat (level.length - 1) = i then level[i.toNat]?
          else level[(i + 1).toNat]?).bind
        fun sibling => (idxPath (next :: above) (i / 2)).bind fun rest =>
          some (sibling :: rest) := by
  rw [idxPath]
  split_ifs <;> rfl

variable {x : H}

theorem sibling_spec {i : UInt32} (hx : level[i.toNat]? = some x)
    (hlength : level.length < 2 ^ 32) : ∃ sibling, (if i % 2 = 1 then level[i.toNat - 1]?
        else if UInt32.ofNat (level.length - 1) = i then level[i.toNat]?
          else level[(i + 1).toNat]?) = some sibling ∧
      (nextLevel pair level)[(i / 2).toNat]? =
        some (if i % 2 = 0 then pair x sibling else pair sibling x) := by
  have hi : i.toNat < level.length := (List.getElem?_eq_some_iff.mp hx).1
  rw [u32_toNat_half, nextLevel_getElem?]
  by_cases hodd : i % 2 = 1
  · -- the node is a right child
    have hodd' := (u32_mod_two_eq_one_iff i).mp hodd
    have hleft : 2 * (i.toNat / 2) = i.toNat - 1 := by omega
    have hright : 2 * (i.toNat / 2) + 1 = i.toNat := by omega
    have hlt : i.toNat - 1 < level.length := by omega
    have hne : ¬ i % 2 = 0 := by rw [hodd]; decide
    refine ⟨level[i.toNat - 1], ?_, ?_⟩
    · rw [if_pos hodd, List.getElem?_eq_getElem hlt]
    · rw [if_neg hne, hright, hleft, hx, List.getElem?_eq_getElem hlt]
      rfl
  · have heven' : i.toNat % 2 = 0 := by
      have hne : ¬ i.toNat % 2 = 1 := fun h => hodd ((u32_mod_two_eq_one_iff i).mpr h)
      omega
    have heven := (u32_mod_two_eq_zero_iff i).mpr heven'
    have hself : 2 * (i.toNat / 2) = i.toNat := by omega
    rw [if_neg hodd, hself, hx]
    by_cases hlast : UInt32.ofNat (level.length - 1) = i
    · -- the last node of an odd level is its own sibling
      have hend : i.toNat = level.length - 1 := by
        rw [← hlast, u32_toNat_ofNat (by omega)]
      refine ⟨x, by rw [if_pos hlast], ?_⟩
      rw [if_pos heven, List.getElem?_eq_none (by omega)]
      rfl
    · have hlt : i.toNat + 1 < level.length := by
        by_contra hge
        apply hlast
        apply UInt32.toNat_inj.mp
        rw [u32_toNat_ofNat (by omega)]
        omega
      have hsucc : (i + 1).toNat = i.toNat + 1 := by
        rw [UInt32.toNat_add]
        exact Nat.mod_eq_of_lt (by simp; omega)
      refine ⟨level[i.toNat + 1], ?_, ?_⟩
      · rw [if_neg hlast, hsucc, List.getElem?_eq_getElem hlt]
      · rw [if_pos heven, List.getElem?_eq_getElem hlt]
        rfl

def ReachesTop (nodes : List (List H)) (i : UInt32) (x : H) (rounds : Nat) : Prop :=
  ∃ path, idxPath nodes i = some path ∧ path.length ≤ rounds ∧
    root ⟨nodes⟩ = some (BlockInclusionProof.hashUp pair i x path)

theorem reachesTop_of_short {i : UInt32} (hx : level[i.toNat]? = some x) (hone : level.length ≤ 1)
    (rounds : Nat) : ReachesTop pair (levels pair rounds level) i x rounds := by
  have hi := (List.getElem?_eq_some_iff.mp hx).1
  have hzero : i.toNat = 0 := by omega
  rw [hzero] at hx
  rw [levels_of_short pair hone]
  exact ⟨[], rfl, Nat.zero_le _, hx⟩

/-- By induction on the rounds: the node and its sibling give the parent, from which the rest of the
path goes on. -/
theorem reachesTop_levels (rounds : Nat) (level : List H) (i : UInt32)
    (hx : level[i.toNat]? = some x) (hrounds : level.length ≤ rounds + 1)
    (hlength : level.length < 2 ^ 32) :
    ReachesTop pair (levels pair rounds level) i x rounds := by
  induction rounds generalizing level i x with
  | zero => exact reachesTop_of_short pair hx hrounds 0
  | succ rounds ih =>
    by_cases hone : level.length ≤ 1
    · exact reachesTop_of_short pair hx hone (rounds + 1)
    · obtain ⟨sibling, hsibling, hparent⟩ := sibling_spec pair hx hlength
      have hnext := nextLevel_length pair level
      obtain ⟨path, hpath, hpathLength, htop⟩ :=
        ih (nextLevel pair level) (i / 2) hparent (by omega) (by omega)
      obtain ⟨above, habove⟩ := levels_cons pair rounds (nextLevel pair level)
      rw [levels, if_neg hone]
      refine ⟨sibling :: path, ?_, ?_, ?_⟩
      · rw [habove] at hpath ⊢
        rw [idxPath_cons, hsibling, hpath]
        rfl
      · rw [List.length_cons]
        omega
      · rw [root_cons _ (by rw [habove]; exact List.cons_ne_nil _ _), htop,
          BlockInclusionProof.hashUp]

theorem generateProof_verifies [DecidableEq H] {transactions : List H}
    (hlength : transactions.length < 2 ^ 32) {i : Nat} {root : H} (hx : transactions[i]? = some x)
    (hroot : (new pair transactions).root = some root) :
    ∃ proof, (new pair transactions).generateProof (UInt32.ofNat i) = some proof ∧
      verifyMerkleProof pair x proof root = true := by
  have hi := (List.getElem?_eq_some_iff.mp hx).1
  have hindex : (UInt32.ofNat i).toNat = i := u32_toNat_ofNat (by omega)
  have hsize : (UInt32.ofNat transactions.length).toNat = transactions.length :=
    u32_toNat_ofNat hlength
  obtain ⟨path, hpath, hpathLength, htop⟩ :=
    reachesTop_levels pair transactions.length transactions (UInt32.ofNat i)
    (by rw [hindex]; exact hx) (by omega) hlength
  obtain ⟨above, habove⟩ := levels_cons pair transactions.length transactions
  refine ⟨⟨UInt32.ofNat i, path⟩, ?_, ?_⟩
  · have hbottom : (new pair transactions).nodes[0]? = some transactions := by
      rw [new, habove]
      rfl
    have hinside : ¬ UInt32.ofNat i ≥ UInt32.ofNat transactions.length := by
      rw [ge_iff_le, UInt32.le_iff_toNat_le, hindex, hsize]
      omega
    unfold generateProof
    rw [hbottom]
    show (if UInt32.ofNat i ≥ UInt32.ofNat transactions.length then none else _) = _
    rw [if_neg hinside]
    show (idxPath (levels pair transactions.length transactions) (UInt32.ofNat i)).bind _ = _
    rw [hpath]
    rfl
  · -- the whole path is read: its length fits in the counter
    have hread : (BlockInclusionProof.mk (UInt32.ofNat i) path).path = path := by
      unfold BlockInclusionProof.path
      rw [Nat.mod_eq_of_lt (by show path.length < 2 ^ 32; omega)]
      exact List.take_length
    unfold verifyMerkleProof BlockInclusionProof.getRoot
    rw [hread]
    exact decide_eq_true (Option.some.inj (htop.symm.trans hroot))

end BitcoinMerkleTree

theorem bitcoinMerkleRoot_isSome {level : List H} (h : level ≠ []) :
    (bitcoinMerkleRoot pair level).isSome := by
  fun_induction bitcoinMerkleRoot pair level with
  | case1 => exact absurd rfl h
  | case2 x => rfl
  | case3 x y rest ih =>
    apply ih
    intro hnil
    have hlength := congrArg List.length hnil
    rw [← BitcoinMerkleTree.nextLevel_eq_parents, BitcoinMerkleTree.nextLevel_length] at hlength
    simp only [List.length_cons, List.length_nil] at hlength
    omega

/-- The tree of a block has the block's Merkle root, and a proof under it for each of the
transactions. -/
theorem merkle_tree_complete (sha256 : Bytes → Bytes32) (transactions : List Bytes32)
    (hpos : 1 ≤ transactions.length) (hlength : transactions.length < 2 ^ 32) :
    ∃ root, bitcoinMerkleRoot (merklePair sha256) transactions = some root ∧
      (BitcoinMerkleTree.new (merklePair sha256) transactions).root = some root ∧
      ∀ i (hi : i < transactions.length), ∃ proof,
        (BitcoinMerkleTree.new (merklePair sha256) transactions).generateProof (UInt32.ofNat i) =
          some proof ∧
          verifyMerkleProof (merklePair sha256) transactions[i] proof root = true := by
  have hne : transactions ≠ [] := List.length_pos_iff.mp hpos
  obtain ⟨root, hroot⟩ :=
    Option.isSome_iff_exists.mp (bitcoinMerkleRoot_isSome (merklePair sha256) hne)
  have htop := BitcoinMerkleTree.root_levels (merklePair sha256) transactions.length
    transactions (by omega)
  rw [hroot] at htop
  refine ⟨root, hroot, htop, fun i hi => ?_⟩
  exact BitcoinMerkleTree.generateProof_verifies _ hlength (List.getElem?_eq_getElem hi) htop

theorem merkle_tree_complete_three :
    ∃ root, bitcoinMerkleRoot (merklePair Sha256.digest) [zero32, beBytes32 1, beBytes32 2] =
      some root ∧
      (BitcoinMerkleTree.new (merklePair Sha256.digest) [zero32, beBytes32 1, beBytes32 2]).root =
        some root := by
  obtain ⟨root, hroot, htree, -⟩ :=
    merkle_tree_complete Sha256.digest [zero32, beBytes32 1, beBytes32 2] (by decide)
    (by decide)
  exact ⟨root, hroot, htree⟩

end BitvmNode.HeaderChain
