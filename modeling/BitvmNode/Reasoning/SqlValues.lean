import Mathlib.Data.List.Basic
import BitvmNode.Reasoning.Bytes

/-!
# The order of values in SQL

SQLite compares values of any two storage classes: integers come before texts, and texts before
blobs. Texts and blobs are compared byte by byte.
-/

namespace BitvmNode.Reasoning

def bytesLt : Bytes → Bytes → Bool
  | [], [] => false
  | [], _ :: _ => true
  | _ :: _, [] => false
  | a :: as, b :: bs => a < b || (a == b && bytesLt as bs)

inductive SqlValue where
  | integer (value : Int)
  | text (value : String)
  | blob (value : Bytes)

def SqlValue.lt : SqlValue → SqlValue → Bool
  | .integer a, .integer b => a < b
  | .integer _, _ => true
  | .text _, .integer _ => false
  | .text a, .text b => bytesLt (utf8 a) (utf8 b)
  | .text _, .blob _ => true
  | .blob a, .blob b => bytesLt a b
  | .blob _, _ => false

theorem bytesLt_irrefl (a : Bytes) : bytesLt a a = false := by
  induction a with
  | nil => rfl
  | cons a as ih => simp [bytesLt, ih]

theorem bytesLt_trans {a b c : Bytes} (hab : bytesLt a b) (hbc : bytesLt b c) : bytesLt a c := by
  induction a generalizing b c with
  | nil =>
    cases c with
    | nil => cases b <;> cases hbc
    | cons c cs => rfl
  | cons a as ih =>
    cases b with
    | nil => cases hab
    | cons b bs =>
      cases c with
      | nil => cases hbc
      | cons c cs =>
        simp only [bytesLt, Bool.or_eq_true, decide_eq_true_eq, Bool.and_eq_true, beq_iff_eq] at *
        rcases hab with hab | ⟨rfl, hab⟩
        · rcases hbc with hbc | ⟨rfl, hbc⟩
          · exact .inl (UInt8.lt_trans hab hbc)
          · exact .inl hab
        · rcases hbc with hbc | ⟨rfl, hbc⟩
          · exact .inl hbc
          · exact .inr ⟨rfl, ih hab hbc⟩

theorem bytesLt_trichotomy (a b : Bytes) : bytesLt a b ∨ a = b ∨ bytesLt b a := by
  induction a generalizing b with
  | nil =>
    cases b with
    | nil => exact .inr (.inl rfl)
    | cons b bs => exact .inl rfl
  | cons a as ih =>
    cases b with
    | nil => exact .inr (.inr rfl)
    | cons b bs =>
      simp only [bytesLt, Bool.or_eq_true, decide_eq_true_eq, Bool.and_eq_true, beq_iff_eq,
        List.cons.injEq]
      rcases Nat.lt_trichotomy a.toNat b.toNat with hlt | heq | hgt
      · exact .inl (.inl (UInt8.lt_iff_toNat_lt.mpr hlt))
      · obtain rfl := UInt8.toNat_inj.mp heq
        rcases ih bs with hlt | rfl | hgt
        · exact .inl (.inr ⟨rfl, hlt⟩)
        · exact .inr (.inl ⟨rfl, rfl⟩)
        · exact .inr (.inr (.inr ⟨rfl, hgt⟩))
      · exact .inr (.inr (.inl (UInt8.lt_iff_toNat_lt.mpr hgt)))

end BitvmNode.Reasoning
