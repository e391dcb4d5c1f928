import Mathlib.Data.List.Induction

/-!
# Runs of guarded steps

A total step function with a condition on when a step may be taken.
-/

namespace BitvmNode.Reasoning

variable {σ τ : Type} {exec : σ → τ → σ} {guard : σ → τ → Prop} {inv : σ → Prop} {start : σ}
  {step : τ} {steps : List τ}

def Along (exec : σ → τ → σ) (guard : σ → τ → Prop) (start : σ) (steps : List τ) : Prop :=
  ∀ earlier step later, steps = earlier ++ step :: later → guard (earlier.foldl exec start) step

theorem Along.nil : Along exec guard start [] := by
  intro earlier step later hsteps
  simp at hsteps

theorem Along.cons (hstep : guard start step) (h : Along exec guard (exec start step) steps) :
    Along exec guard start (step :: steps) := by
  intro earlier other later hsteps
  cases earlier with
  | nil =>
    cases hsteps
    exact hstep
  | cons first earlier =>
    rw [List.cons_append, List.cons.injEq] at hsteps
    obtain ⟨rfl, hsteps⟩ := hsteps
    exact h earlier other later hsteps

theorem Along.of_cons (h : Along exec guard start (step :: steps)) :
    guard start step ∧ Along exec guard (exec start step) steps := by
  refine ⟨h [] step steps rfl, fun earlier other later hsteps => ?_⟩
  exact h (step :: earlier) other later (by rw [hsteps, List.cons_append])

instance Along.decidable (exec : σ → τ → σ) (guard : σ → τ → Prop)
    [∀ state step, Decidable (guard state step)] :
    ∀ start steps, Decidable (Along exec guard start steps)
  | _, [] => isTrue Along.nil
  | start, step :: steps =>
    have := Along.decidable exec guard (exec start step) steps
    decidable_of_iff (guard start step ∧ Along exec guard (exec start step) steps)
      ⟨fun h => .cons h.1 h.2, Along.of_cons⟩

theorem Along.of_append {later : List τ} (h : Along exec guard start (steps ++ later)) :
    Along exec guard start steps := by
  intro earlier other rest hsteps
  apply h earlier other (rest ++ later)
  rw [hsteps, List.append_assoc, List.cons_append]

theorem Along.of_forall (h : ∀ step ∈ steps, ∀ state, guard state step) :
    Along exec guard start steps := by
  intro earlier step later hsteps
  exact h step (hsteps ▸ List.mem_append_right _ List.mem_cons_self) _

theorem Along.append {later : List τ} (h : Along exec guard start steps)
    (hlater : Along exec guard (steps.foldl exec start) later) :
    Along exec guard start (steps ++ later) := by
  induction steps generalizing start with
  | nil => exact hlater
  | cons first steps ih => exact .cons h.of_cons.1 (ih h.of_cons.2 hlater)

theorem Along.of_concat (h : Along exec guard start (steps ++ [step])) :
    Along exec guard start steps ∧ guard (steps.foldl exec start) step :=
  ⟨h.of_append, h steps step [] rfl⟩

theorem Along.invariant (h : Along exec guard start steps) (hstart : inv start)
    (hstep : ∀ state step, inv state → guard state step → inv (exec state step)) :
    inv (steps.foldl exec start) := by
  induction steps using List.reverseRecOn with
  | nil => exact hstart
  | append_singleton steps step ih =>
    obtain ⟨hsteps, hlast⟩ := h.of_concat
    rw [List.foldl_append]
    exact hstep _ step (ih hsteps) hlast

end BitvmNode.Reasoning
