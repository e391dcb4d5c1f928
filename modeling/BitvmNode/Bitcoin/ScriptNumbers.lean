import BitvmNode.Reasoning.Bytes

/-!
# Script numbers

A number on the stack of a script is little endian with the sign in the top bit of the last byte.
Consensus reads up to four bytes and lets a number be padded; the Bitcoin library reads the shortest
form only.
-/

namespace BitvmNode.Bitcoin.Script

open Reasoning

def scriptNum (bytes : Bytes) : Int :=
  match bytes.getLast? with
  | none => 0
  | some last =>
      let low := leNat bytes.dropLast
      let unit := 256 ^ bytes.dropLast.length
      if last.toNat < 128 then ((low + last.toNat * unit : Nat) : Int)
      else -((low + (last.toNat - 128) * unit : Nat) : Int)

/-- The last byte carries more than the sign, or it is there because the byte before it uses the top
bit. -/
def isMinimal (bytes : Bytes) : Bool :=
  match bytes.reverse with
  | [] => true
  | [last] => last.toNat % 128 ≠ 0
  | last :: second :: _ => last.toNat % 128 ≠ 0 || 128 ≤ second.toNat

def readScriptint (bytes : Bytes) : Except String Int :=
  if bytes.isEmpty then .ok 0
  else if 4 < bytes.length then .error "numeric overflow (number on stack larger than 4 bytes)"
  else if isMinimal bytes = false then .error "non-minimal datapush"
  else .ok (scriptNum bytes)

theorem readScriptint_eq_ok_iff {bytes : Bytes} {n : Int} :
    readScriptint bytes = .ok n ↔ bytes.length ≤ 4 ∧ isMinimal bytes = true ∧
    scriptNum bytes = n := by
  unfold readScriptint
  cases bytes with
  | nil => simp [isMinimal, scriptNum]
  | cons b bs =>
    rw [if_neg (by simp)]
    split_ifs with hlong hminimal
    · simp only [false_iff]
      omega
    · simp [hminimal]
    · simp only [Bool.not_eq_false] at hminimal
      simp only [Except.ok.injEq, hminimal, true_and]
      constructor
      · intro h
        exact ⟨by omega, h⟩
      · exact And.right

theorem length_le_two_of_isMinimal {bytes : Bytes} (hminimal : isMinimal bytes = true)
    (hnonneg : 0 ≤ scriptNum bytes) (hlt : scriptNum bytes < 256) : bytes.length ≤ 2 := by
  by_contra hlong
  -- the last two bytes stand above at least one other
  obtain rfl | ⟨front, last, rfl⟩ := bytes.eq_nil_or_concat
  · simp at hlong
  obtain rfl | ⟨rest, second, rfl⟩ := front.eq_nil_or_concat
  · simp at hlong
  rw [List.concat_eq_append, List.concat_eq_append] at *
  have hrest : 1 ≤ rest.length := by
    simp only [List.length_append, List.length_singleton] at hlong
    omega
  have hpow : 256 ≤ 256 ^ rest.length := Nat.le_self_pow (by omega) 256
  have hlow : leNat (rest ++ [second]) = leNat rest + 256 ^ rest.length * second.toNat := by
    rw [leNat_append]
    simp [leNat]
  have hlength : 256 ^ (rest ++ [second]).length = 256 ^ rest.length * 256 := by
    rw [List.length_append, List.length_singleton, Nat.pow_succ]
  have htop : last.toNat % 128 ≠ 0 ∨ 128 ≤ second.toNat := by
    simpa [isMinimal] using hminimal
  simp only [scriptNum, List.getLast?_concat, List.dropLast_concat] at hnonneg hlt
  rw [hlow, hlength] at hnonneg hlt
  have hsecond : 128 ≤ second.toNat → 256 ≤ 256 ^ rest.length * second.toNat := by
    intro hge
    calc 256 ≤ 256 ^ rest.length := hpow
      _ ≤ 256 ^ rest.length * second.toNat := Nat.le_mul_of_pos_right _ (by omega)
  have hlast : ∀ top, 1 ≤ top → 256 ≤ top * (256 ^ rest.length * 256) := by
    intro top htop
    calc 256 ≤ 256 ^ rest.length * 256 := Nat.le_mul_of_pos_left _ (by omega)
      _ ≤ top * (256 ^ rest.length * 256) := Nat.le_mul_of_pos_left _ htop
  split_ifs at hnonneg hlt with hsign
  · have hlast := hlast last.toNat
    omega
  · have hlast := hlast (last.toNat - 128)
    omega

end BitvmNode.Bitcoin.Script
