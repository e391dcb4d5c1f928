import BitvmNode.Reasoning.HashTrees

/-!
# Chains of digests

Every item of a chain names the digest of the item before it.  The digest of the last item then
stands for the whole chain.
-/

namespace BitvmNode.Reasoning

variable {α H : Type} {digest parent : α → H} {start tip tip' : H} {xs ys : List α}

/-- The chain of `xs` from the digest `start` ends at the digest `tip`. -/
inductive Chained (digest parent : α → H) (start : H) : List α → H → Prop
  | nil : Chained digest parent start [] start
  | snoc {xs : List α} (x : α) : Chained digest parent start xs (parent x) →
      Chained digest parent start (xs ++ [x]) (digest x)

/-- Two chains with one tip are the same, unless two of their items collide or one of them has the
digest that both chains start from. -/
theorem Chained.eq_of_tip (h : Chained digest parent start xs tip)
    (h' : Chained digest parent start ys tip') (htip : tip = tip') :
    xs = ys ∨ CollisionIn digest (xs ++ ys) ∨ ∃ x ∈ xs ++ ys, digest x = start := by
  induction h generalizing ys tip' with
  | nil =>
    cases h' with
    | nil => exact .inl rfl
    | snoc y h' => exact .inr (.inr ⟨y, by simp, htip.symm⟩)
  | @snoc xs x h ih =>
    cases h' with
    | nil => exact .inr (.inr ⟨x, by simp, htip⟩)
    | @snoc ys y h' =>
      have hsub : ∀ z ∈ xs ++ ys, z ∈ xs ++ [x] ++ (ys ++ [y]) := by
        intro z hz
        simp only [List.mem_append] at hz ⊢
        tauto
      rcases eq_or_collision digest htip with rfl | hcol
      · -- the last items are one, so the chains before them have one tip too
        rcases ih h' rfl with rfl | hcol | ⟨z, hz, hstart⟩
        · exact .inl rfl
        · exact .inr (.inl (hcol.mono hsub))
        · exact .inr (.inr ⟨z, hsub z hz, hstart⟩)
      · exact .inr (.inl (hcol.mono (by simp)))

end BitvmNode.Reasoning
