import Mathlib.Data.List.Induction
import BitvmNode.Reasoning.Maps

/-!
# Caches against replays

A table remembers the keys that were used.  A use drops the entries that are stale at its own clock,
enters its key and is fresh when the key was not there.
-/

namespace BitvmNode.Reasoning

structure KeyUse (κ ν : Type) where
  clock : Int
  key : κ
  value : ν

namespace ReplayCache

variable {κ ν : Type} [DecidableEq κ] (stale : Int → ν → Bool) (table : Map κ ν)

def kept (clock : Int) : Map κ ν := table.retain fun _ value => !stale clock value

def fresh (use : KeyUse κ ν) : Bool := ((kept stale table use.clock).get? use.key).isNone

def enter (use : KeyUse κ ν) : Map κ ν :=
  (kept stale table use.clock).insert use.key use.value

def after (uses : List (KeyUse κ ν)) : Map κ ν := uses.foldl (enter stale) Map.empty

theorem after_concat (uses : List (KeyUse κ ν)) (use : KeyUse κ ν) :
    after stale (uses ++ [use]) = enter stale (after stale uses) use := by
  rw [after, List.foldl_append]
  rfl

variable {stale} {table : Map κ ν} {use : KeyUse κ ν} {v : ν}

theorem get?_kept_of_not_stale {clock : Int} {k : κ} (h : table.get? k = some v)
    (hv : stale clock v = false) : (kept stale table clock).get? k = some v := by
  rw [kept, Map.get?_retain, h, Option.filter_some, hv]
  rfl

theorem get?_enter_self : (enter stale table use).get? use.key = some use.value :=
  Map.get?_insert_self _ _ _

theorem get?_enter_of_ne {k : κ} (h : k ≠ use.key) :
    (enter stale table use).get? k = (kept stale table use.clock).get? k :=
  Map.get?_insert_of_ne _ h

theorem not_fresh_of_get? (h : table.get? use.key = some v) (hv : stale use.clock v = false) :
    fresh stale table use = false := by
  rw [fresh, get?_kept_of_not_stale h hv]
  rfl

theorem fresh_of_stale (earlier : List (KeyUse κ ν)) {again : KeyUse κ ν}
    (hagain : again.key = use.key) (h : stale again.clock use.value = true) :
    fresh stale (after stale (earlier ++ [use])) again = true := by
  rw [fresh, kept, Map.get?_retain, after_concat, hagain, get?_enter_self, Option.filter_some, h]
  rfl

/-- By induction on the later uses: one that has the key renews its entry, and no other one drops
it. -/
theorem remembered (earlier : List (KeyUse κ ν)) {later : List (KeyUse κ ν)}
    (h : ∀ entry ∈ use :: later, entry.key = use.key →
      ∀ other ∈ later, stale other.clock entry.value = false) :
    ∃ entry ∈ use :: later, entry.key = use.key ∧
      (after stale (earlier ++ use :: later)).get? use.key = some entry.value := by
  induction later using List.reverseRecOn with
  | nil => exact ⟨use, List.mem_cons_self, rfl, by rw [after_concat, get?_enter_self]⟩
  | append_singleton later last ih =>
    have hsub : ∀ entry ∈ use :: later, entry ∈ use :: (later ++ [last]) := by
      intro entry hentry
      exact List.mem_append_left _ hentry
    obtain ⟨entry, hentry, hkey, hget⟩ := ih fun entry hentry hkey other hother =>
      h entry (hsub entry hentry) hkey other (List.mem_append_left _ hother)
    rw [← List.cons_append, ← List.append_assoc, after_concat]
    by_cases hlast : last.key = use.key
    · refine ⟨last, List.mem_append_right _ (List.mem_singleton_self last), hlast, ?_⟩
      rw [← hlast, get?_enter_self]
    · refine ⟨entry, List.mem_append_left _ hentry, hkey, ?_⟩
      have hkept := h entry (hsub entry hentry) hkey last
        (List.mem_append_right _ (List.mem_singleton_self last))
      rw [get?_enter_of_ne (Ne.symm hlast), get?_kept_of_not_stale hget hkept]

/-- The key is refused to a use at which the entries of the key are not stale either. -/
theorem not_fresh_of_used {earlier later : List (KeyUse κ ν)} {again : KeyUse κ ν}
    (hagain : again.key = use.key) (h : ∀ entry ∈ use :: later, entry.key = use.key →
      ∀ other ∈ later ++ [again], stale other.clock entry.value = false) :
    fresh stale (after stale (earlier ++ use :: later)) again = false := by
  have hkept : ∀ entry ∈ use :: later, entry.key = use.key →
    ∀ other ∈ later, stale other.clock entry.value = false :=
    fun entry hentry hkey other hother => h entry hentry hkey other (List.mem_append_left _ hother)
  obtain ⟨entry, hentry, hkey, hget⟩ := remembered earlier hkept
  rw [← hagain] at hget
  exact not_fresh_of_get? hget
    (h entry hentry hkey again (List.mem_append_right _ (List.mem_singleton_self again)))

end ReplayCache

end BitvmNode.Reasoning
