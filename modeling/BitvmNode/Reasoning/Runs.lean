import Mathlib.Data.List.Basic
import Mathlib.Data.List.Forall2
import Mathlib.Data.List.Induction
import Mathlib.Data.List.Nodup

/-!
# Runs of a partial step function

A loop over a list whose body may fail is `List.foldlM` in `Option`.  These are the rules by which
facts about one step become facts about the whole loop.
-/

namespace BitvmNode.Reasoning

variable {σ α : Type} {ε β : Type}

theorem except_bind_eq_ok {α : Type} {x : Except ε α} {f : α → Except ε β} {b : β} :
    (x >>= f) = .ok b ↔ ∃ a, x = .ok a ∧ f a = .ok b := by
  cases x with
  | error e | ok a => simp [bind, Except.bind]

theorem except_map_eq_ok {α : Type} {x : Except ε α} {f : α → β} {b : β} :
    x.map f = .ok b ↔ ∃ a, x = .ok a ∧ f a = b := by
  cases x <;> simp [Except.map]

theorem except_mapError_eq_ok {α ε' : Type} {x : Except ε α} {f : ε → ε'} {a : α} :
    x.mapError f = .ok a ↔ x = .ok a := by
  cases x <;> simp [Except.mapError]

/-- `Option::ok_or_else`. -/
def okOrElse {α : Type} (value : Option α) (error : ε) : Except ε α :=
  match value with
  | some a => .ok a
  | none => .error error

theorem okOrElse_eq_ok {α : Type} {value : Option α} {error : ε} {a : α} :
    okOrElse value error = .ok a ↔ value = some a := by
  cases value <;> simp [okOrElse]

theorem except_toOption_eq_some {α : Type} {x : Except ε α} {a : α} :
    x.toOption = some a ↔ x = .ok a := by
  cases x with
  | error e | ok b => simp [Except.toOption]

theorem guard_eq_some {p : Prop} [Decidable p] {u : Unit} :
    (guard p : Option Unit) = some u ↔ p := by
  by_cases h : p <;> simp [guard, h, failure]

theorem guard_bind_eq_some {p : Prop} [Decidable p] {f : Unit → Option β} {b : β} :
    ((guard p : Option Unit) >>= f) = some b ↔ p ∧ f () = some b := by
  by_cases h : p <;> simp [guard, h, failure]

variable {step : σ → α → Option σ} {s t : σ} {xs : List α}

theorem foldlM_cons_some {x : α} :
    (x :: xs).foldlM step s = some t ↔ ∃ u, step s x = some u ∧ xs.foldlM step u = some t := by
  rw [List.foldlM_cons, Option.bind_eq_bind, Option.bind_eq_some_iff]

theorem foldlM_append_some {ys : List α} : (xs ++ ys).foldlM step s = some t ↔
      ∃ u, xs.foldlM step s = some u ∧ ys.foldlM step u = some t := by
  rw [List.foldlM_append, Option.bind_eq_bind, Option.bind_eq_some_iff]

theorem foldlM_flatten (step : σ → α → Option σ) (s : σ) (batches : List (List α)) :
    batches.foldlM (fun s batch => batch.foldlM step s) s = batches.flatten.foldlM step s := by
  induction batches generalizing s with
  | nil => rfl
  | cons batch batches ih =>
    rw [List.foldlM_cons, List.flatten_cons, List.foldlM_append]
    congr 1
    funext u
    exact ih u

theorem foldlM_range (input : Nat → α) (state : Nat → σ)
    (hstep : ∀ i, step (state i) (input i) = some (state (i + 1)))
    (n : Nat) : ((List.range n).map input).foldlM step (state 0) = some (state n) := by
  induction n with
  | zero => rfl
  | succ n ih =>
    rw [List.range_succ, List.map_append, foldlM_append_some]
    refine ⟨state n, ih, ?_⟩
    rw [List.map_cons, List.map_nil, foldlM_cons_some]
    exact ⟨_, hstep n, rfl⟩

/-- An invariant of the state and of the inputs read so far. -/
theorem foldlM_invariant (inv : List α → σ → Prop)
    (hstep : ∀ xs x s s', inv xs s → step s x = some s' → inv (xs ++ [x]) s') {done : List α}
    (hinv : inv done s) (hrun : xs.foldlM step s = some t) : inv (done ++ xs) t := by
  induction xs generalizing done s with
  | nil =>
    rw [List.append_nil]
    cases hrun
    exact hinv
  | cons x xs ih =>
    obtain ⟨u, hu, hrest⟩ := foldlM_cons_some.mp hrun
    have hnext := ih (hstep done x s u hinv hu) hrest
    rwa [List.append_assoc] at hnext

theorem foldlM_preserves {inv : σ → Prop} (hstep : ∀ x s s', inv s → step s x = some s' → inv s')
    (hinv : inv s) (hrun : xs.foldlM step s = some t) : inv t := by
  induction xs generalizing s with
  | nil =>
    cases hrun
    exact hinv
  | cons x xs ih =>
    obtain ⟨u, hu, hrest⟩ := foldlM_cons_some.mp hrun
    exact ih (hstep x s u hinv hu) hrest

theorem forM_eq_some {check : α → Option Unit} {u : Unit}
    (h : xs.forM check = some u) : ∀ x ∈ xs, check x = some () := by
  induction xs with
  | nil => simp
  | cons x xs ih =>
    obtain ⟨_, hx, hrest⟩ := Option.bind_eq_some_iff.mp h
    intro y hy
    rcases List.mem_cons.mp hy with rfl | hy
    · exact hx
    · exact ih hrest y hy

theorem forM_of_forall {check : α → Option Unit} (h : ∀ x ∈ xs, check x = some ()) :
    xs.forM check = some () := by
  induction xs with
  | nil => rfl
  | cons x xs ih =>
    obtain ⟨hx, hrest⟩ := List.forall_mem_cons.mp h
    exact Option.bind_eq_some_iff.mpr ⟨(), hx, ih hrest⟩

section Except

variable {ε β γ : Type} {f : α → Except ε β}

theorem forall₂_of_mapM_ok {xs : List α} {ys : List β} (h : xs.mapM f = .ok ys) :
    List.Forall₂ (fun x y => f x = .ok y) xs ys := by
  induction xs generalizing ys with
  | nil =>
    cases h
    exact .nil
  | cons x xs ih =>
    rw [List.mapM_cons] at h
    obtain ⟨y, hy, htail⟩ := except_bind_eq_ok.mp h
    obtain ⟨rest, hrest, hys⟩ := except_bind_eq_ok.mp htail
    cases hys
    exact .cons hy (ih hrest)

theorem mapM_map_except (g : α → β → γ) (xs : List α) :
    xs.mapM (fun x => (f x).map (g x)) = (xs.mapM f).map (List.zipWith g xs) := by
  induction xs with
  | nil => rfl
  | cons x xs ih =>
    rw [List.mapM_cons, List.mapM_cons, ih]
    cases f x with
    | error e => rfl
    | ok y =>
      cases xs.mapM f with
      | error e | ok ys => rfl

end Except

variable {γ : Type}

theorem forall₂_zipWith_iff {g : α → β → γ} {r : α → β → Prop} {q : α → γ → Prop} {p : α → Prop}
    {ys : List β} (h : List.Forall₂ r xs ys) (hiff : ∀ x ∈ xs, ∀ y, r x y → (q x (g x y) ↔ p x)) :
    List.Forall₂ q xs (List.zipWith g xs ys) ↔ ∀ x ∈ xs, p x := by
  induction h with
  | nil => simp
  | cons hxy _ ih =>
    rw [List.zipWith_cons_cons, List.forall₂_cons, List.forall_mem_cons,
      hiff _ List.mem_cons_self _ hxy, ih fun x hx => hiff x (List.mem_cons_of_mem _ hx)]

theorem exists_of_mem_zipWith {g : α → β → γ} {r : α → β → Prop} {ys : List β}
    (h : List.Forall₂ r xs ys) {z : γ} (hz : z ∈ List.zipWith g xs ys) :
    ∃ x ∈ xs, ∃ y, r x y ∧ z = g x y := by
  induction h with
  | nil => cases hz
  | cons hxy _ ih =>
    rcases List.mem_cons.mp hz with rfl | hz
    · exact ⟨_, List.mem_cons_self, _, hxy, rfl⟩
    · obtain ⟨x, hx, hrest⟩ := ih hz
      exact ⟨x, List.mem_cons_of_mem _ hx, hrest⟩

theorem forall_mem_zipWith_iff {g : α → β → γ} {r : α → β → Prop} {q : γ → Prop} {p : α → Prop}
    {ys : List β} (h : List.Forall₂ r xs ys) (hiff : ∀ x ∈ xs, ∀ y, r x y → (q (g x y) ↔ p x)) :
    (∀ z ∈ List.zipWith g xs ys, q z) ↔ ∀ x ∈ xs, p x := by
  induction h with
  | nil => simp
  | cons hxy _ ih =>
    rw [List.zipWith_cons_cons, List.forall_mem_cons, List.forall_mem_cons,
      hiff _ List.mem_cons_self _ hxy, ih fun x hx => hiff x (List.mem_cons_of_mem _ hx)]

theorem mapM_ok_of_forall {f : α → Except ε β} (h : ∀ x ∈ xs, ∃ y, f x = .ok y) :
    ∃ ys, xs.mapM f = .ok ys := by
  induction xs with
  | nil => exact ⟨[], rfl⟩
  | cons x xs ih =>
    obtain ⟨y, hy⟩ := h x List.mem_cons_self
    obtain ⟨ys, hys⟩ := ih fun x' hx' => h x' (List.mem_cons_of_mem _ hx')
    refine ⟨y :: ys, ?_⟩
    rw [List.mapM_cons, hy, hys]
    rfl

theorem list_eq_map_getD (xs : List α) (x : α) :
    xs = (List.range xs.length).map fun i => xs.getD i x := by
  apply List.ext_getElem
  · rw [List.length_map, List.length_range]
  · intro i hi _
    simp [List.getElem?_eq_getElem hi]

theorem mapM_eq_ok_of_forall₂ {f : α → Except ε β} {xs : List α} {ys : List β}
    (h : List.Forall₂ (fun x y => f x = .ok y) xs ys) : xs.mapM f = .ok ys := by
  induction h with
  | nil => rfl
  | cons hx _ ih =>
    rw [List.mapM_cons, hx, ih]
    rfl

def require (p : Prop) [Decidable p] (error : ε) : Except ε Unit :=
  if p then .ok () else .error error

theorem require_eq_ok {p : Prop} [Decidable p] {error : ε} {u : Unit} :
    require p error = .ok u ↔ p := by
  unfold require
  split <;> simp_all

/-- A loop that looks at each element and those before it. -/
def checkEach (check : List α → α → Except ε Unit) (earlier : List α) : List α → Except ε Unit
  | [] => .ok ()
  | x :: xs => do
      check earlier x
      checkEach check (earlier ++ [x]) xs

theorem checkEach_eq_ok {check : List α → α → Except ε Unit} {earlier : List α} {u : Unit}
    (h : checkEach check earlier xs = .ok u) :
    ∀ before x after, xs = before ++ x :: after → check (earlier ++ before) x = .ok () := by
  induction xs generalizing earlier with
  | nil =>
    intro before x after hxs
    simp at hxs
  | cons first rest ih =>
    obtain ⟨⟨⟩, hfirst, hrest⟩ := except_bind_eq_ok.mp h
    intro before x after hxs
    cases before with
    | nil =>
      cases hxs
      rw [List.append_nil]
      exact hfirst
    | cons y before =>
      rw [List.cons_append, List.cons.injEq] at hxs
      obtain ⟨rfl, hxs⟩ := hxs
      have hlater := ih hrest before x after hxs
      rwa [List.append_assoc, List.singleton_append] at hlater

theorem exists_check_of_mem {check : List α → α → Except ε Unit} {earlier : List α}
    {u : Unit} {x : α} (h : checkEach check earlier xs = .ok u) (hx : x ∈ xs) :
    ∃ before, check before x = .ok () := by
  obtain ⟨before, after, hsplit⟩ := List.append_of_mem hx
  exact ⟨earlier ++ before, checkEach_eq_ok h before x after hsplit⟩

theorem nodup_map_of_split {κ : Type} (key : α → κ)
    (h : ∀ before x after, xs = before ++ x :: after → key x ∉ before.map key) :
    (xs.map key).Nodup := by
  induction xs using List.reverseRecOn with
  | nil => exact List.nodup_nil
  | append_singleton xs x ih =>
    have hinit : (xs.map key).Nodup := by
      apply ih
      intro before y after hxs
      exact h before y (after ++ [x]) (by rw [hxs, List.append_assoc, List.cons_append])
    rw [List.map_append]
    apply hinit.append (List.nodup_singleton _)
    intro k hk hlast
    rw [List.mem_singleton.mp hlast] at hk
    exact h xs x [] rfl hk

end BitvmNode.Reasoning
