import Mathlib.Algebra.BigOperators.Group.Multiset.Basic
import Mathlib.Algebra.GroupWithZero.Nat
import Mathlib.Algebra.Order.BigOperators.Group.List
import Mathlib.Data.Multiset.Basic

/-!
# Largest first

The first items of a list in descending order are worth at least as much as any other items in the
same number.
-/

namespace BitvmNode.Reasoning

variable {α : Type} (value : α → Nat)

def Descending (items : List α) : Prop := items.Pairwise fun a b => value b ≤ value a

def worth (items : List α) : Nat := (items.map value).sum

variable {value}

@[simp] theorem worth_nil : worth value [] = 0 := rfl

@[simp] theorem worth_cons (a : α) (items : List α) : worth value (a :: items) =
    value a + worth value items := rfl

theorem worth_append (items items' : List α) :
    worth value (items ++ items') = worth value items + worth value items' := by
  rw [worth, List.map_append, List.sum_append, worth, worth]

theorem worth_take_le (items : List α) (k : Nat) :
    worth value (items.take k) ≤ worth value items := by
  have h : worth value (items.take k ++ items.drop k) =
      worth value (items.take k) + worth value (items.drop k) := worth_append _ _
  rw [List.take_append_drop] at h
  omega

/-- An item in front that is worth no less than any other replaces the last of the first `k`. -/
theorem worth_take_le_cons {a : α} {items : List α} (h : ∀ b ∈ items, value b ≤ value a) (k : Nat) :
    worth value (items.take k) ≤ worth value ((a :: items).take k) := by
  induction k generalizing a items with
  | zero => simp
  | succ k ih =>
    cases items with
    | nil => simp
    | cons b items =>
      rw [List.take_succ_cons, List.take_succ_cons, worth_cons, worth_cons]
      have hb : value b ≤ value a := h b List.mem_cons_self
      -- the same exchange one place further on
      have hrest : worth value (items.take k) ≤ worth value ((a :: items).take k) :=
        ih fun c hc => h c (List.mem_cons_of_mem b hc)
      cases k with
      | zero => simpa using hb
      | succ k =>
        rw [List.take_succ_cons, worth_cons] at hrest ⊢
        omega

/-- No items in the same number are worth more than the first ones of a descending list. -/
theorem Descending.sum_le_worth_take {items : List α} (h : Descending value items) {s : Multiset α}
    (hs : s ≤ (items : Multiset α)) : (s.map value).sum ≤ worth value (items.take s.card) := by
  induction items generalizing s with
  | nil =>
    rw [Multiset.coe_nil, Multiset.le_zero] at hs
    subst hs
    simp
  | cons a items ih =>
    obtain ⟨hfirst, hrest⟩ := List.pairwise_cons.mp h
    by_cases ha : a ∈ s
    · obtain ⟨s, rfl⟩ := Multiset.exists_cons_of_mem ha
      have hle := ih hrest ((Multiset.cons_le_cons_iff a).mp hs)
      rw [Multiset.map_cons, Multiset.sum_cons, Multiset.card_cons, List.take_succ_cons, worth_cons]
      omega
    · have hle := ih hrest ((Multiset.le_cons_of_notMem ha).mp hs)
      exact hle.trans (worth_take_le_cons hfirst s.card)

end BitvmNode.Reasoning
