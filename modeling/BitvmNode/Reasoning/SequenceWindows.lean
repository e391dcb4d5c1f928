import Mathlib.Data.Finset.Lattice.Fold
import Mathlib.Data.Finset.Card
import Mathlib.Order.Interval.Finset.Nat
import Mathlib.Order.Lattice.Nat

/-!
# Sequence windows

A source numbers its messages, and the numbers arrive out of order.  A window keeps the highest
number seen and, of the numbers seen, those at most `width` below it.
-/

namespace BitvmNode.Reasoning

structure Window where
  highest : Nat
  recent : Finset Nat

namespace Window

variable (width : Nat)

def empty : Window := ⟨0, ∅⟩

/-- Above the highest number, or close below it and not remembered. -/
def admits (w : Window) (n : Nat) : Bool :=
  w.highest < n || (w.highest - n < width && decide (n ∉ w.recent))

def enter (w : Window) (n : Nat) : Window :=
  if w.highest < n then ⟨n, insert n (w.recent.filter (n - width ≤ ·))⟩
  else ⟨w.highest, insert n w.recent⟩

/-- The window after the numbers in `seen`. -/
structure Tracks (w : Window) (seen : Finset Nat) : Prop where
  highest_eq : w.highest = seen.sup id
  recent_eq : w.recent = seen.filter (w.highest - width ≤ ·)

variable {width} {w : Window} {seen : Finset Nat} {n : Nat}

theorem tracks_empty : empty.Tracks width ∅ := ⟨rfl, rfl⟩

theorem admits_empty (hwidth : 0 < width) (n : Nat) : empty.admits width n = true := by
  simp [admits, empty, hwidth]

variable (h : w.Tracks width seen)

include h

theorem Tracks.le_highest (hn : n ∈ seen) : n ≤ w.highest := by
  rw [h.highest_eq]
  exact Finset.le_sup (f := id) hn

/-- What pruning forgets is refused for its distance: membership in `recent` decides membership in
`seen` wherever it is asked. -/
theorem Tracks.admits_iff :
    w.admits width n = true ↔ n ∉ seen ∧ (w.highest < n ∨ w.highest - n < width) := by
  have hmem : n ∈ w.recent ↔ n ∈ seen ∧ w.highest - width ≤ n := by
    rw [h.recent_eq, Finset.mem_filter]
  have hle : n ∈ seen → n ≤ w.highest := h.le_highest
  simp only [admits, Bool.or_eq_true, Bool.and_eq_true, decide_eq_true_eq, hmem]
  constructor
  · rintro (habove | ⟨hnear, hnew⟩)
    · exact ⟨fun hn => by have := hle hn; omega, .inl habove⟩
    · exact ⟨fun hn => hnew ⟨hn, by omega⟩, .inr hnear⟩
  · rintro ⟨hnew, habove | hnear⟩
    · exact .inl habove
    · exact .inr ⟨hnear, fun hn => hnew hn.1⟩

theorem Tracks.enter (hn : w.admits width n = true) :
    (w.enter width n).Tracks width (insert n seen) := by
  obtain ⟨-, hplace⟩ := h.admits_iff.mp hn
  have hsup : (insert n seen).sup id = max n w.highest := by
    rw [Finset.sup_insert, ← h.highest_eq]
    rfl
  by_cases habove : w.highest < n
  · have hhigh : max n w.highest = n := by omega
    rw [Window.enter, if_pos habove]
    constructor
    · rw [hsup, hhigh]
    · -- the new floor lies above the old one, so the pruned numbers stay pruned
      rw [h.recent_eq, Finset.filter_insert, if_pos (Nat.sub_le n width), Finset.filter_filter]
      have hpruned : seen.filter (fun m => w.highest - width ≤ m ∧ n - width ≤ m) =
          seen.filter (n - width ≤ ·) := by
        apply Finset.filter_congr
        intro m _
        omega
      exact congrArg (insert n) hpruned
  · have hhigh : max n w.highest = w.highest := by omega
    rw [Window.enter, if_neg habove]
    constructor
    · rw [hsup, hhigh]
    · rw [h.recent_eq, Finset.filter_insert, if_pos (by dsimp only; omega)]

theorem Tracks.mem_recent (hn : n ∈ w.recent) : n ≤ w.highest ∧ w.highest - n ≤ width := by
  rw [h.recent_eq, Finset.mem_filter] at hn
  have := h.le_highest hn.1
  omega

theorem Tracks.card_recent : w.recent.card ≤ width + 1 := by
  have hsub : w.recent ⊆ Finset.Icc (w.highest - width) w.highest := by
    intro n hn
    have hbounds := h.mem_recent hn
    rw [Finset.mem_Icc]
    omega
  have hcard := Finset.card_le_card hsub
  rw [Nat.card_Icc] at hcard
  omega

end Window

end BitvmNode.Reasoning
