import Mathlib.Data.Nat.ModEq
import Mathlib.Tactic.Ring
import Mathlib.Tactic.NormNum

/-!
# Byte strings and their integer values

Little- and big-endian readings of byte strings, the fixed-width arrays used for digests, and the
byte-by-byte comparison of two big-endian numbers.
-/

namespace BitvmNode.Reasoning

abbrev Bytes := List UInt8

abbrev Bytes32 := Vector UInt8 32

instance : LawfulBEq Bytes32 := Vector.instLawfulBEq

def zero32 : Bytes32 := Vector.replicate 32 0

def utf8 (s : String) : Bytes := s.toUTF8.toList

def leNat : Bytes → Nat
  | [] => 0
  | b :: bs => b.toNat + 256 * leNat bs

def leBytes : Nat → Nat → Bytes
  | 0, _ => []
  | w + 1, x => UInt8.ofNat x :: leBytes w (x / 256)

def beNat (bs : Bytes) : Nat := leNat bs.reverse

def beBytes (w x : Nat) : Bytes := (leBytes w x).reverse

@[simp] theorem leBytes_length (w x : Nat) : (leBytes w x).length = w := by
  induction w generalizing x with
  | zero => rfl
  | succ w ih => simp only [leBytes, List.length_cons, ih]

@[simp] theorem beBytes_length (w x : Nat) : (beBytes w x).length = w := by
  rw [beBytes, List.length_reverse, leBytes_length]

theorem leNat_lt (bs : Bytes) : leNat bs < 256 ^ bs.length := by
  induction bs with
  | nil => simp [leNat]
  | cons b bs ih =>
    have hb : b.toNat < 256 := b.toNat_lt
    rw [leNat, List.length_cons, pow_succ]
    omega

theorem beNat_lt (bs : Bytes) : beNat bs < 256 ^ bs.length := by
  have h := leNat_lt bs.reverse
  rwa [List.length_reverse] at h

theorem leNat_leBytes (w x : Nat) : leNat (leBytes w x) = x % 256 ^ w := by
  induction w generalizing x with
  | zero => simp [leBytes, leNat, Nat.mod_one]
  | succ w ih =>
    have hb : (UInt8.ofNat x).toNat = x % 256 := UInt8.toNat_ofNat'
    rw [leBytes, leNat, ih, hb, Nat.pow_succ, Nat.mul_comm (256 ^ w), Nat.mod_mul]

theorem beNat_beBytes (w x : Nat) : beNat (beBytes w x) = x % 256 ^ w := by
  rw [beNat, beBytes, List.reverse_reverse, leNat_leBytes]

theorem leNat_inj {xs ys : Bytes} (hlen : xs.length = ys.length) (h : leNat xs = leNat ys) :
    xs = ys := by
  induction xs generalizing ys with
  | nil => exact (List.length_eq_zero_iff.mp hlen.symm).symm
  | cons x xs ih =>
    cases ys with
    | nil => simp at hlen
    | cons y ys =>
      simp only [leNat] at h
      have hx : x.toNat < 256 := x.toNat_lt
      have hy : y.toNat < 256 := y.toNat_lt
      have hhead : x = y := UInt8.toNat_inj.mp (by omega)
      have htail : xs = ys := ih (by simpa using hlen) (by omega)
      rw [hhead, htail]

theorem leBytes_inj {w x y : Nat} (hx : x < 256 ^ w) (hy : y < 256 ^ w)
    (h : leBytes w x = leBytes w y) : x = y := by
  have hv := congrArg leNat h
  rwa [leNat_leBytes, leNat_leBytes, Nat.mod_eq_of_lt hx, Nat.mod_eq_of_lt hy] at hv

theorem leNat_append (xs ys : Bytes) :
    leNat (xs ++ ys) = leNat xs + 256 ^ xs.length * leNat ys := by
  induction xs with
  | nil => simp [leNat]
  | cons x xs ih =>
    simp only [List.cons_append, leNat, List.length_cons, ih]
    ring

theorem beNat_cons (x : UInt8) (xs : Bytes) :
    beNat (x :: xs) = x.toNat * 256 ^ xs.length + beNat xs := by
  rw [beNat, List.reverse_cons, leNat_append, beNat, List.length_reverse]
  simp only [leNat]
  ring

def lexLe : Bytes → Bytes → Bool
  | x :: xs, y :: ys => if x < y then true else if y < x then false else lexLe xs ys
  | _, _ => true

/-- On strings of one length the comparison is the order of the big-endian values. -/
theorem lexLe_iff (xs ys : Bytes) (hlen : xs.length = ys.length) :
    lexLe xs ys = true ↔ beNat xs ≤ beNat ys := by
  induction xs generalizing ys with
  | nil =>
    rw [List.length_eq_zero_iff.mp hlen.symm]
    simp [lexLe]
  | cons x xs ih =>
    cases ys with
    | nil => simp at hlen
    | cons y ys =>
      have htail : xs.length = ys.length := by simpa using hlen
      have hx := beNat_lt xs
      have hy := beNat_lt ys
      rw [htail] at hx
      rw [beNat_cons, beNat_cons, htail]
      simp only [lexLe]
      by_cases hlt : x < y
      · have hlt' : x.toNat + 1 ≤ y.toNat := hlt
        have hm := Nat.mul_le_mul_right (256 ^ ys.length) hlt'
        rw [Nat.add_mul, Nat.one_mul] at hm
        rw [if_pos hlt]
        simp only [true_iff]
        omega
      · rw [if_neg hlt]
        by_cases hgt : y < x
        · have hgt' : y.toNat + 1 ≤ x.toNat := hgt
          have hm := Nat.mul_le_mul_right (256 ^ ys.length) hgt'
          rw [Nat.add_mul, Nat.one_mul] at hm
          rw [if_pos hgt]
          simp only [Bool.false_eq_true, false_iff]
          omega
        · have heq : x.toNat = y.toNat := by
            rw [UInt8.lt_iff_toNat_lt] at hlt hgt
            omega
          rw [if_neg hgt, ih ys htail, heq]
          omega

def beBytes32 (x : Nat) : Bytes32 := ⟨(beBytes 32 x).toArray, by simp⟩

@[simp] theorem beBytes32_toList (x : Nat) : (beBytes32 x).toList = beBytes 32 x := by
  simp [beBytes32, Vector.toList]

theorem beNat_beBytes32 (x : Nat) : beNat (beBytes32 x).toList = x % 2 ^ 256 := by
  rw [beBytes32_toList, beNat_beBytes]
  norm_num

theorem beNat_bytes32_lt (v : Bytes32) : beNat v.toList < 2 ^ 256 := by
  have h := beNat_lt v.toList
  norm_num at h ⊢
  exact h

/-- What follows thirty-two bytes can be told from them. -/
theorem Bytes32.append_inj' {a c : Bytes32} {xs ys : Bytes}
    (h : a.toList ++ xs = c.toList ++ ys) : a = c ∧ xs = ys := by
  have hlen : a.toList.length = c.toList.length := by simp
  obtain ⟨h1, h2⟩ := List.append_inj h hlen
  exact ⟨Vector.toList_inj.mp h1, h2⟩

theorem Bytes32.append_inj {a b c d : Bytes32} (h : a.toList ++ b.toList = c.toList ++ d.toList) :
    a = c ∧ b = d := by
  obtain ⟨h1, h2⟩ := Bytes32.append_inj' h
  exact ⟨h1, Vector.toList_inj.mp h2⟩

end BitvmNode.Reasoning
