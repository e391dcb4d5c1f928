import Mathlib.Data.List.Basic
import Mathlib.Data.List.Nodup

/-!
# Tables with a primary key

A table is a list of rows with pairwise different keys.  Its statements are those of a database that
changes rows in place: insert unless the key is known, update and delete by a condition.
-/

namespace BitvmNode.Reasoning

structure Table {κ ρ : Type} (key : ρ → κ) where
  rows : List ρ
  nodup : (rows.map key).Nodup

namespace Table

variable {κ ρ : Type} {key : ρ → κ}

def empty : Table key := ⟨[], List.nodup_nil⟩

instance [DecidableEq ρ] : DecidableEq (Table key) := fun t t' =>
  decidable_of_iff (t.rows = t'.rows) (by cases t; cases t'; simp)

section Statements

variable [DecidableEq κ]

def find? (t : Table key) (k : κ) : Option ρ := t.rows.find? fun r => key r = k

variable {t : Table key} {r : ρ}

theorem find?_eq_some {k : κ} : t.find? k = some r ↔ r ∈ t.rows ∧ key r = k := by
  constructor
  · intro h
    exact ⟨List.mem_of_find?_eq_some h, by simpa using List.find?_some h⟩
  · rintro ⟨hmem, rfl⟩
    obtain ⟨rows, hnodup⟩ := t
    change rows.find? (fun s => key s = key r) = some r
    induction rows with
    | nil => cases hmem
    | cons s rows ih =>
      obtain ⟨hs, hrows⟩ := List.nodup_cons.mp hnodup
      rcases List.mem_cons.mp hmem with rfl | hmem
      · simp
      · have hne : key s ≠ key r := fun h => hs (h ▸ List.mem_map_of_mem hmem)
        rw [List.find?_cons_of_neg (by simpa using hne)]
        exact ih hrows hmem

theorem key_of_find? {k : κ} (h : t.find? k = some r) : key r = k :=
  (find?_eq_some.mp h).2

theorem mem_rows_iff : r ∈ t.rows ↔ t.find? (key r) = some r := by
  rw [find?_eq_some, and_iff_left rfl]

theorem find?_eq_none {k : κ} : t.find? k = none ↔ k ∉ t.rows.map key := by
  simp [find?]

def insertOrIgnore (t : Table key) (r : ρ) : Table key :=
  if h : key r ∈ t.rows.map key then t
  else ⟨t.rows ++ [r], by
    rw [List.map_append, List.map_singleton]
    exact List.nodup_append.mpr ⟨t.nodup, List.nodup_singleton _, by
      intro a ha b hb hab
      rw [List.mem_singleton] at hb
      exact h (hb ▸ hab ▸ ha)⟩⟩

theorem find?_insertOrIgnore (t : Table key) (r : ρ) (k : κ) :
    (t.insertOrIgnore r).find? k = if k = key r then some ((t.find? k).getD r) else t.find? k := by
  unfold insertOrIgnore
  split_ifs with hknown hk hk
  · obtain ⟨s, hs, hkey⟩ := List.mem_map.mp hknown
    rw [hk, ← hkey, mem_rows_iff.mp hs]
    rfl
  · rfl
  · rw [hk]
    rw [find?_eq_none.mpr hknown]
    exact find?_eq_some.mpr ⟨List.mem_append_right _ (List.mem_singleton_self r), rfl⟩
  · change (t.rows ++ [r]).find? (fun s => key s = k) = _
    rw [List.find?_append]
    have hnone : [r].find? (fun s => key s = k) = none := by
      rw [List.find?_eq_none]
      intro s hs
      rw [List.mem_singleton.mp hs]
      simpa using fun h => hk h.symm
    rw [hnone, Option.or_none]
    rfl

/-- `UPDATE … SET … WHERE`; the key is not among the columns that are set. -/
def update (t : Table key) (p : ρ → Prop) [DecidablePred p] (f : ρ → ρ)
    (hf : ∀ r, key (f r) = key r) : Table key :=
  ⟨t.rows.map fun r => if p r then f r else r, by
    have hmap : (t.rows.map fun r => if p r then f r else r).map key = t.rows.map key := by
      rw [List.map_map]
      apply List.map_congr_left
      intro r _
      simp only [Function.comp]
      split
      · exact hf r
      · rfl
    rw [hmap]
    exact t.nodup⟩

variable {p : ρ → Prop} {f : ρ → ρ}

theorem find?_update {_ : DecidablePred p} (hf : ∀ r, key (f r) = key r) (k : κ) :
    (t.update p f hf).find? k = (t.find? k).map fun r => if p r then f r else r := by
  unfold find? update
  rw [List.find?_map]
  congr 2
  funext r
  simp only [Function.comp]
  split
  · rw [hf r]
  · rfl

/-- `INSERT … ON CONFLICT DO UPDATE`. -/
theorem find?_upsert (t : Table key) (r : ρ) (f : ρ → ρ) (hf : ∀ r, key (f r) = key r) (k : κ) :
    ((t.insertOrIgnore r).update (fun s => key s = key r) f hf).find? k =
      if k = key r then some (f ((t.find? k).getD r)) else t.find? k := by
  rw [find?_update, find?_insertOrIgnore]
  cases hrow : t.find? k with
  | none => split <;> simp
  | some s =>
    have hkey := key_of_find? hrow
    split <;> simp_all

omit [DecidableEq κ] in
/-- An update that no row qualifies for changes nothing. -/
theorem update_eq_self {_ : DecidablePred p} (hf : ∀ r, key (f r) = key r)
    (h : ∀ r ∈ t.rows, ¬ p r) : t.update p f hf = t := by
  have hrows : (t.rows.map fun r => if p r then f r else r) = t.rows := by
    have hid : ∀ r ∈ t.rows, (if p r then f r else r) = id r := fun r hr => if_neg (h r hr)
    rw [List.map_congr_left hid, List.map_id]
  obtain ⟨rows, hnodup⟩ := t
  simp only [update, mk.injEq]
  exact hrows

def delete (t : Table key) (p : ρ → Prop) [DecidablePred p] : Table key :=
  ⟨t.rows.filter fun r => ¬ p r, t.nodup.sublist (List.filter_sublist.map key)⟩

theorem find?_delete {_ : DecidablePred p} (k : κ) :
    (t.delete p).find? k = (t.find? k).filter fun r => ¬ p r := by
  apply Option.ext
  intro r
  rw [Option.filter_eq_some_iff, find?_eq_some, find?_eq_some, delete, List.mem_filter]
  constructor
  · rintro ⟨⟨hmem, hp⟩, hk⟩
    exact ⟨⟨hmem, hk⟩, hp⟩
  · rintro ⟨⟨hmem, hk⟩, hp⟩
    exact ⟨⟨hmem, hp⟩, hk⟩

def insertOrReplace (t : Table key) (r : ρ) : Table key :=
  (t.delete fun s => key s = key r).insertOrIgnore r

theorem find?_insertOrReplace (t : Table key) (r : ρ) (k : κ) :
    (t.insertOrReplace r).find? k = if k = key r then some r else t.find? k := by
  unfold insertOrReplace
  rw [find?_insertOrIgnore, find?_delete]
  cases hrow : t.find? k with
  | none => rfl
  | some s =>
    have hkey := key_of_find? hrow
    by_cases hk : k = key r
    · rw [if_pos hk, if_pos hk, Option.filter_some, if_neg (by simp [hkey, hk]), Option.getD_none]
    · rw [if_neg hk, if_neg hk, Option.filter_some, if_pos (by simp [hkey, hk])]

def returning (t : Table key) (p : ρ → Prop) [DecidablePred p] (f : ρ → ρ) : List ρ :=
  (t.rows.filter fun r => p r).map f

theorem mem_returning [DecidablePred p] :
    r ∈ t.returning p f ↔ ∃ s, t.find? (key s) = some s ∧ p s ∧ r = f s := by
  simp only [returning, List.mem_map, List.mem_filter, decide_eq_true_eq, mem_rows_iff]
  constructor
  · rintro ⟨s, ⟨hs, hp⟩, rfl⟩
    exact ⟨s, hs, hp, rfl⟩
  · rintro ⟨s, hs, hp, rfl⟩
    exact ⟨s, ⟨hs, hp⟩, rfl⟩

end Statements

end Table

section Firsts

variable {κ α : Type} [DecidableEq κ] (key : α → κ)

/-- The elements whose key is not known and occurs for the first time. -/
def firsts (known : κ → Bool) : List α → List α
  | [] => []
  | x :: xs =>
      if known (key x) then firsts known xs else x :: firsts (fun k => known k || k = key x) xs

def knownAfter (known : κ → Bool) (xs : List α) : κ → Bool := fun k => known k || k ∈ xs.map key

theorem knownAfter_append (known : κ → Bool) (xs ys : List α) :
    knownAfter key known (xs ++ ys) = knownAfter key (knownAfter key known xs) ys := by
  funext k
  simp only [knownAfter, List.map_append, List.mem_append, Bool.decide_or, Bool.or_assoc]

theorem firsts_append (known : κ → Bool) (xs ys : List α) : firsts key known (xs ++ ys) =
      firsts key known xs ++ firsts key (knownAfter key known xs) ys := by
  induction xs generalizing known with
  | nil =>
    have hnone : knownAfter key known [] = known := by
      funext k
      simp [knownAfter]
    rw [hnone]
    rfl
  | cons x xs ih =>
    simp only [List.cons_append, firsts]
    split_ifs with hx
    · rw [ih known]
      congr 2
      funext k
      by_cases hk : k = key x <;> simp [knownAfter, hk, hx]
    · rw [ih, List.cons_append]
      congr 3
      funext k
      by_cases hk : k = key x <;> simp [knownAfter, hk]

end Firsts

end BitvmNode.Reasoning
