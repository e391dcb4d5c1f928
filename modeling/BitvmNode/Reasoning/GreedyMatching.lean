import Mathlib.Data.List.NodupEquivFin

/-!
# Matching in order

Items are matched with candidates in the order of both lists, each item with the first candidate
that fits and comes after the one before.  This finds a matching in order whenever there is one.
-/

namespace BitvmNode.Reasoning

variable {α β : Type} (fits : α → β → Bool)

def matchAll : List β → List α → Bool
  | _, [] => true
  | [], _ :: _ => false
  | candidate :: candidates, item :: items =>
      if fits item candidate then matchAll candidates items else matchAll candidates (item :: items)

/-- The items fit, one by one, candidates that stand in the list in this order. -/
def MatchedInOrder (candidates : List β) (items : List α) : Prop :=
  ∃ chosen, List.Sublist chosen candidates ∧
    List.Forall₂ (fun item candidate => fits item candidate = true) items chosen

variable {fits} {candidates : List β} {items : List α} {candidate : β} {item : α}

theorem MatchedInOrder.nil : MatchedInOrder fits candidates [] :=
  ⟨[], List.nil_sublist _, List.Forall₂.nil⟩

theorem MatchedInOrder.cons (h : MatchedInOrder fits candidates items) :
    MatchedInOrder fits (candidate :: candidates) items := by
  obtain ⟨chosen, hsub, hfits⟩ := h
  exact ⟨chosen, hsub.cons candidate, hfits⟩

theorem MatchedInOrder.cons_cons (hfit : fits item candidate = true)
    (h : MatchedInOrder fits candidates items) :
    MatchedInOrder fits (candidate :: candidates) (item :: items) := by
  obtain ⟨chosen, hsub, hfits⟩ := h
  exact ⟨candidate :: chosen, hsub.cons_cons candidate, List.Forall₂.cons hfit hfits⟩

theorem MatchedInOrder.tail (h : MatchedInOrder fits (candidate :: candidates) (item :: items)) :
    MatchedInOrder fits candidates items := by
  obtain ⟨chosen, hsub, hfits⟩ := h
  cases hfits with
  | cons hfit hrest =>
    rename_i first chosen
    refine ⟨chosen, ?_, hrest⟩
    exact hsub.tail

theorem MatchedInOrder.of_not_fits
    (h : MatchedInOrder fits (candidate :: candidates) (item :: items))
    (hfit : fits item candidate = false) : MatchedInOrder fits candidates (item :: items) := by
  obtain ⟨chosen, hsub, hfits⟩ := h
  cases hfits with
  | cons hfirst hrest =>
    rename_i first chosen
    refine ⟨first :: chosen, ?_, List.Forall₂.cons hfirst hrest⟩
    cases hsub with
    | cons _ hsub => exact hsub
    | cons_cons _ hsub =>
      cases hfit.symm.trans hfirst

/-- Taking the first candidate that fits loses nothing: what follows it in any matching follows it
as well. -/
theorem matchAll_iff (candidates : List β) (items : List α) :
    matchAll fits candidates items = true ↔ MatchedInOrder fits candidates items := by
  induction candidates generalizing items with
  | nil =>
    cases items with
    | nil => exact ⟨fun _ => MatchedInOrder.nil, fun _ => rfl⟩
    | cons item items =>
      refine ⟨nofun, fun ⟨chosen, hsub, hfits⟩ => ?_⟩
      rw [List.sublist_nil.mp hsub] at hfits
      cases hfits
  | cons candidate candidates ih =>
    cases items with
    | nil => exact ⟨fun _ => MatchedInOrder.nil, fun _ => rfl⟩
    | cons item items =>
      rw [matchAll]
      by_cases hfit : fits item candidate = true
      · rw [if_pos hfit, ih]
        exact ⟨fun h => h.cons_cons hfit, fun h => h.tail⟩
      · rw [if_neg hfit, ih]
        exact ⟨fun h => h.cons, fun h => h.of_not_fits (Bool.eq_false_of_not_eq_true hfit)⟩

theorem matchedInOrder_iff_strictMono :
    MatchedInOrder fits candidates items ↔ ∃ place : Fin items.length →
    Fin candidates.length, StrictMono place ∧
      ∀ j, fits (items.get j) (candidates.get (place j)) = true := by
  constructor
  · rintro ⟨chosen, hsub, hfits⟩
    have hlength := hfits.length_eq
    obtain ⟨place, hplace⟩ := List.sublist_iff_exists_fin_orderEmbedding_get_eq.mp hsub
    refine ⟨fun j => place (Fin.cast hlength j), fun i j hij => ?_, fun j => ?_⟩
    · exact place.strictMono hij
    · rw [← hplace]
      exact (List.forall₂_iff_get.mp hfits).2 j.1 j.2 (by rw [← hlength]; exact j.2)
  · rintro ⟨place, hmono, hfits⟩
    refine ⟨List.ofFn fun j => candidates.get (place j), ?_, ?_⟩
    · rw [List.sublist_iff_exists_fin_orderEmbedding_get_eq]
      have hlength : (List.ofFn fun j => candidates.get (place j)).length = items.length :=
        List.length_ofFn
      refine ⟨OrderEmbedding.ofStrictMono (fun j => place (Fin.cast hlength j)) fun i j hij =>
        hmono hij, ?_⟩
      intro j
      rw [List.get_ofFn]
      rfl
    · rw [List.forall₂_iff_get]
      refine ⟨by rw [List.length_ofFn], fun i hi hi' => ?_⟩
      rw [List.get_ofFn]
      exact hfits ⟨i, hi⟩

end BitvmNode.Reasoning
