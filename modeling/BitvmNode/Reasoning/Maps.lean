import Mathlib.Data.Finset.Card
import Mathlib.Data.List.Sort
import BitvmNode.Reasoning.Tables

/-!
# Finite maps

A map from keys to values, as a table of pairs.  The order in which such a map is iterated is not
part of it: `iterate` takes a rank for every key, so that a statement for all ranks is one for all
orders.
-/

namespace BitvmNode.Reasoning

abbrev Map (κ ν : Type) := Table (Prod.fst : κ × ν → κ)

namespace Map

variable {κ ν : Type} [DecidableEq κ]

def empty : Map κ ν := Table.empty

variable (m : Map κ ν)

def get? (k : κ) : Option ν := (m.find? k).map Prod.snd

def insert (k : κ) (v : ν) : Map κ ν := m.insertOrReplace (k, v)

def remove (k : κ) : Map κ ν := m.delete fun entry => entry.1 = k

def retain (p : κ → ν → Bool) : Map κ ν := m.delete fun entry => p entry.1 entry.2 = false

def size : Nat := m.rows.length

def iterate (rank : κ → Nat) : List (κ × ν) :=
  m.rows.insertionSort fun a b => rank a.1 ≤ rank b.1

@[simp]
theorem get?_empty (k : κ) : (empty : Map κ ν).get? k = none := rfl

variable {m : Map κ ν} {k : κ}

theorem get?_eq_some {v : ν} : m.get? k = some v ↔ (k, v) ∈ m.rows := by
  unfold get?
  rw [Option.map_eq_some_iff]
  constructor
  · rintro ⟨⟨key, value⟩, hfind, rfl⟩
    obtain rfl : key = k := Table.key_of_find? hfind
    exact Table.mem_rows_iff.mpr hfind
  · intro hmem
    exact ⟨(k, v), Table.mem_rows_iff.mp hmem, rfl⟩

theorem get?_eq_none : m.get? k = none ↔ k ∉ m.rows.map Prod.fst := by
  unfold get?
  rw [Option.map_eq_none_iff, Table.find?_eq_none]

theorem get?_insert (m : Map κ ν) (k : κ) (v : ν) (l : κ) :
    (m.insert k v).get? l = if l = k then some v else m.get? l := by
  unfold get? insert
  rw [Table.find?_insertOrReplace]
  split <;> rfl

@[simp]
theorem get?_insert_self (m : Map κ ν) (k : κ) (v : ν) : (m.insert k v).get? k = some v := by
  rw [get?_insert, if_pos rfl]

theorem get?_insert_of_ne {l : κ} (v : ν) (h : l ≠ k) : (m.insert k v).get? l = m.get? l := by
  rw [get?_insert, if_neg h]

theorem get?_retain (m : Map κ ν) (p : κ → ν → Bool) (k : κ) :
    (m.retain p).get? k = (m.get? k).filter (p k) := by
  unfold get? retain
  rw [Table.find?_delete]
  cases hfind : m.find? k with
  | none => rfl
  | some entry =>
    have hkey : entry.1 = k := Table.key_of_find? hfind
    rw [Option.filter_some, Option.map_some, Option.filter_some, ← hkey]
    cases p entry.1 entry.2 <;> rfl

theorem get?_remove (m : Map κ ν) (k l : κ) :
    (m.remove k).get? l = if l = k then none else m.get? l := by
  unfold get? remove
  rw [Table.find?_delete]
  cases hfind : m.find? l with
  | none => split <;> rfl
  | some entry =>
    have hkey : entry.1 = l := Table.key_of_find? hfind
    rw [Option.filter_some, hkey]
    by_cases h : l = k
    · rw [if_pos h, if_neg (by simpa using h)]
      rfl
    · rw [if_neg h, if_pos (by simpa using h)]

theorem get?_remove_eq_some {l : κ} {v : ν} :
    (m.remove k).get? l = some v ↔ l ≠ k ∧ m.get? l = some v := by
  rw [get?_remove, Option.ite_none_left_eq_some]

theorem size_insert_of_none (v : ν) (h : m.get? k = none) : (m.insert k v).size = m.size + 1 := by
  have hnew : k ∉ m.rows.map Prod.fst := get?_eq_none.mp h
  have hdelete : (m.delete fun entry => entry.1 = k).rows = m.rows := by
    apply List.filter_eq_self.mpr
    intro entry hmem
    have hne : entry.1 ≠ k := fun heq => hnew (heq ▸ List.mem_map_of_mem hmem)
    simpa using hne
  unfold insert size Table.insertOrReplace Table.insertOrIgnore
  rw [dif_neg (by rw [hdelete]; exact hnew)]
  simp only [hdelete, List.length_append, List.length_singleton]

theorem mem_iterate {rank : κ → Nat} {v : ν} : (k, v) ∈ m.iterate rank ↔ m.get? k = some v := by
  unfold iterate
  rw [List.mem_insertionSort, get?_eq_some]

/-- A map into a set of keys that lacks one of them is smaller than the set. -/
theorem size_lt_card {m : Map κ ν} {keys : Finset κ} {key : κ}
    (hkeys : ∀ k v, m.get? k = some v → k ∈ keys) (hkey : key ∈ keys) (hnone : m.get? key = none) :
    m.size < keys.card := by
  have hsub : (m.rows.map Prod.fst).toFinset ⊂ keys := by
    rw [Finset.ssubset_iff_of_subset]
    · exact ⟨key, hkey, by rw [List.mem_toFinset]; exact get?_eq_none.mp hnone⟩
    · intro k hk
      rw [List.mem_toFinset, List.mem_map] at hk
      obtain ⟨⟨k, v⟩, hmem, rfl⟩ := hk
      exact hkeys k v (get?_eq_some.mpr hmem)
  have hcard := Finset.card_lt_card hsub
  rwa [List.toFinset_card_of_nodup m.nodup, List.length_map] at hcard

end Map

end BitvmNode.Reasoning
