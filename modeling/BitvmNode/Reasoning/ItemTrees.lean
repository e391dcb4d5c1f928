import BitvmNode.Reasoning.HashTrees

/-!
# Hash trees of any shape

A tree over items is hashed with different inputs for the empty tree, for a leaf and for an inner
node.
-/

namespace BitvmNode.Reasoning

inductive ItemTree (α : Type) where
  | empty
  | leaf (item : α)
  | node (left right : ItemTree α)

namespace ItemTree

variable {α : Type}

def items : ItemTree α → List α
  | .empty => []
  | .leaf item => [item]
  | .node left right => left.items ++ right.items

end ItemTree

structure TreeHash (α Q H : Type) where
  hash : Q → H
  emptyInput : Q
  leafInput : α → Q
  nodeInput : H → H → Q

namespace TreeHash

variable {α Q H : Type} (tree : TreeHash α Q H)

def root : ItemTree α → H
  | .empty => tree.hash tree.emptyInput
  | .leaf item => tree.hash (tree.leafInput item)
  | .node left right => tree.hash (tree.nodeInput (root left) (root right))

def inputs : ItemTree α → List Q
  | .empty => [tree.emptyInput]
  | .leaf item => [tree.leafInput item]
  | .node left right =>
      tree.nodeInput (tree.root left) (tree.root right) :: (inputs left ++ inputs right)

def topInput : ItemTree α → Q
  | .empty => tree.emptyInput
  | .leaf item => tree.leafInput item
  | .node left right => tree.nodeInput (tree.root left) (tree.root right)

theorem root_eq (t : ItemTree α) : tree.root t = tree.hash (tree.topInput t) := by
  cases t <;> rfl

theorem topInput_mem (t : ItemTree α) : tree.topInput t ∈ tree.inputs t := by
  cases t <;> exact List.mem_cons_self

/-- Inputs of different kinds are different, and each tells what it was made of. -/
structure Separated : Prop where
  empty_ne_leaf : ∀ item, tree.emptyInput ≠ tree.leafInput item
  empty_ne_node : ∀ left right, tree.emptyInput ≠ tree.nodeInput left right
  leaf_ne_node : ∀ item left right, tree.leafInput item ≠ tree.nodeInput left right
  leaf_inj : Function.Injective tree.leafInput
  node_inj : ∀ left right left' right', tree.nodeInput left right = tree.nodeInput left' right' →
    left = left' ∧ right = right'

variable {tree}

theorem topInput_eq_or_collision {s t : ItemTree α} (hroot : tree.root s = tree.root t) :
    tree.topInput s = tree.topInput t ∨ CollisionIn tree.hash (tree.inputs s ++ tree.inputs t) := by
  rw [root_eq, root_eq] at hroot
  rcases eq_or_collision tree.hash hroot with htop | hcollision
  · exact .inl htop
  · right
    apply hcollision.mono
    simp [topInput_mem]

theorem Separated.eq_or_collision (h : tree.Separated) {s t : ItemTree α}
    (hroot : tree.root s = tree.root t) :
    s = t ∨ CollisionIn tree.hash (tree.inputs s ++ tree.inputs t) := by
  induction s generalizing t with
  | empty =>
    refine (topInput_eq_or_collision hroot).imp_left fun htop => ?_
    cases t with
    | empty => rfl
    | leaf other => exact absurd htop (h.empty_ne_leaf _)
    | node left right => exact absurd htop (h.empty_ne_node _ _)
  | leaf item =>
    refine (topInput_eq_or_collision hroot).imp_left fun htop => ?_
    cases t with
    | empty => exact absurd htop.symm (h.empty_ne_leaf _)
    | leaf other => exact congrArg _ (h.leaf_inj htop)
    | node left right => exact absurd htop (h.leaf_ne_node _ _ _)
  | node left right ihleft ihright =>
    rcases topInput_eq_or_collision hroot with htop | hcollision
    · cases t with
      | empty => exact absurd htop.symm (h.empty_ne_node _ _)
      | leaf other => exact absurd htop.symm (h.leaf_ne_node _ _ _)
      | node left' right' =>
        -- equal inputs have equal subtree roots, and the subtrees are smaller
        obtain ⟨hleft, hright⟩ := h.node_inj _ _ _ _ htop
        rcases ihleft hleft with rfl | hcollision
        · rcases ihright hright with rfl | hcollision
          · exact .inl rfl
          · refine .inr (hcollision.mono fun q hq => ?_)
            simp only [List.mem_append, inputs, List.mem_cons] at hq ⊢
            tauto
        · refine .inr (hcollision.mono fun q hq => ?_)
          simp only [List.mem_append, inputs, List.mem_cons] at hq ⊢
          tauto
    · exact .inr hcollision

end TreeHash

end BitvmNode.Reasoning
