import BitvmNode.Reasoning.Bytes
import BitvmNode.Reasoning.Runs

/-!
# Bitcoin scripts

The instruction iterator of the Bitcoin library in its minimal-push mode, and the few script
builders that the commit chain uses.
-/

namespace BitvmNode.Bitcoin.Script

open Reasoning

inductive Instruction where
  | pushBytes (bytes : Bytes)
  | op (opcode : UInt8)
  deriving DecidableEq

inductive Error where
  | nonMinimalPush
  | earlyEndOfScript

def Error.message : Error → String
  | .nonMinimalPush => "non-minimal datapush"
  | .earlyEndOfScript => "unexpected end of script"

def opReturn : UInt8 := 0x6a

def opCheckMultisig : UInt8 := 0xae

def takeSlice (n : Nat) (data : Bytes) : Except Error (Instruction × Bytes) :=
  if n ≤ data.length then .ok (.pushBytes (data.take n), data.drop n) else .error .earlyEndOfScript

def nextPushDataLen (lenLen minPushLen : Nat) (data : Bytes) : Except Error (Instruction × Bytes) :=
  if data.length < lenLen then .error .earlyEndOfScript
  else
    let n := leNat (data.take lenLen)
    if n < minPushLen then .error .nonMinimalPush else takeSlice n (data.drop lenLen)

def isNumber : Bytes → Bool
  | b :: _ => b = 0x81 ∨ (0 < b ∧ b ≤ 16)
  | [] => false

def nextInstruction (byte : UInt8) (data : Bytes) : Except Error (Instruction × Bytes) :=
  if byte ≤ 0x4b then
    if byte = 1 ∧ isNumber data then .error .nonMinimalPush else takeSlice byte.toNat data
  else if byte = 0x4c then nextPushDataLen 1 76 data
  else if byte = 0x4d then nextPushDataLen 2 0x100 data
  else if byte = 0x4e then nextPushDataLen 4 0x10000 data
  else .ok (.op byte, data)

/-- Collects all instructions or the first error.  Every instruction takes a byte, so the length of
the script is enough fuel. -/
def collect : Nat → Bytes → Except Error (List Instruction)
  | _, [] => .ok []
  | 0, _ :: _ => .error .earlyEndOfScript
  | fuel + 1, byte :: data => do
      let (instruction, rest) ← nextInstruction byte data
      let instructions ← collect fuel rest
      .ok (instruction :: instructions)

def instructionsMinimal (script : Bytes) : Except Error (List Instruction) :=
  collect script.length script

def pushInt (n : Nat) : Bytes :=
  if 1 ≤ n ∧ n ≤ 16 then [UInt8.ofNat (0x50 + n)] else if n = 0 then [0] else [1, UInt8.ofNat n]

def newP2wsh (sha256 : Bytes → Bytes32) (script : Bytes) : Bytes :=
  0x00 :: 0x20 :: (sha256 script).toList

theorem newP2wsh_inj {sha256 : Bytes → Bytes32} {a b : Bytes}
    (h : newP2wsh sha256 a = newP2wsh sha256 b) : sha256 a = sha256 b := by
  simp only [newP2wsh, List.cons.injEq, true_and] at h
  exact Vector.toList_inj.mp h

theorem pushInt_append_inj {m n : Nat} {xs ys : Bytes} (hm : 1 ≤ m ∧ m ≤ 20) (hn : 1 ≤ n ∧ n ≤ 20)
    (h : pushInt m ++ xs = pushInt n ++ ys) : m = n ∧ xs = ys := by
  have hbyte (k : Nat) (hk : k ≤ 16) : (UInt8.ofNat (0x50 + k)).toNat = 0x50 + k :=
    UInt8.toNat_ofNat_of_lt (by change 0x50 + k < 256; omega)
  have hsmall (k : Nat) (hk : k ≤ 20) : (UInt8.ofNat k).toNat = k :=
    UInt8.toNat_ofNat_of_lt (by change k < 256; omega)
  unfold pushInt at h
  by_cases hm16 : 1 ≤ m ∧ m ≤ 16 <;> by_cases hn16 : 1 ≤ n ∧ n ≤ 16
  · rw [if_pos hm16, if_pos hn16] at h
    simp only [List.singleton_append, List.cons.injEq] at h
    have hb := congrArg UInt8.toNat h.1
    rw [hbyte m hm16.2, hbyte n hn16.2] at hb
    exact ⟨by omega, h.2⟩
  · rw [if_pos hm16, if_neg hn16, if_neg (by omega)] at h
    simp only [List.cons_append, List.cons.injEq] at h
    have hb := congrArg UInt8.toNat h.1
    rw [hbyte m hm16.2] at hb
    change 0x50 + m = 1 at hb
    omega
  · rw [if_neg hm16, if_pos hn16, if_neg (by omega)] at h
    simp only [List.cons_append, List.cons.injEq] at h
    have hb := congrArg UInt8.toNat h.1
    rw [hbyte n hn16.2] at hb
    change 1 = 0x50 + n at hb
    omega
  · rw [if_neg hm16, if_neg hn16, if_neg (by omega), if_neg (by omega)] at h
    simp only [List.cons_append, List.cons.injEq, List.nil_append, true_and] at h
    have hb := congrArg UInt8.toNat h.1
    rw [hsmall m (by omega), hsmall n (by omega)] at hb
    exact ⟨hb, h.2⟩

/-- The push of a byte string with the shortest length field.  A string of one byte that has an
opcode of its own is pushed all the same. -/
def pushSlice (bytes : Bytes) : Bytes :=
  let n := bytes.length
  (if n < 0x4c then [UInt8.ofNat n]
  else if n < 0x100 then 0x4c :: leBytes 1 n
  else if n < 0x10000 then 0x4d :: leBytes 2 n
  else 0x4e :: leBytes 4 n) ++ bytes

def isNumberPush (bytes : Bytes) : Bool := bytes.length = 1 ∧ isNumber bytes

theorem takeSlice_length (bytes : Bytes) :
    takeSlice bytes.length bytes = .ok (.pushBytes bytes, []) := by
  rw [takeSlice, if_pos (le_refl _), List.take_length, List.drop_length]

variable {bytes : Bytes}

theorem nextPushDataLen_leBytes (lenLen minPushLen : Nat) (hmin : minPushLen ≤ bytes.length)
    (hfits : bytes.length < 256 ^ lenLen) :
    nextPushDataLen lenLen minPushLen (leBytes lenLen bytes.length ++ bytes) =
      .ok (.pushBytes bytes, []) := by
  have hlen : (leBytes lenLen bytes.length).length = lenLen := leBytes_length lenLen bytes.length
  have hread : leNat ((leBytes lenLen bytes.length ++ bytes).take lenLen) = bytes.length := by
    rw [List.take_left' hlen, leNat_leBytes, Nat.mod_eq_of_lt hfits]
  unfold nextPushDataLen
  rw [if_neg (by rw [List.length_append, hlen]; omega), hread]
  rw [if_neg (by omega), List.drop_left' hlen, takeSlice_length]

theorem exists_nextInstruction_pushSlice (hlt : bytes.length < 2 ^ 32) :
    ∃ byte data, pushSlice bytes = byte :: data ∧ nextInstruction byte data =
        if isNumberPush bytes then .error .nonMinimalPush else .ok (.pushBytes bytes, []) := by
  dsimp only [pushSlice]
  by_cases hdirect : bytes.length < 0x4c
  · have hbyte : (UInt8.ofNat bytes.length).toNat = bytes.length :=
      UInt8.toNat_ofNat_of_lt (by change bytes.length < 256; omega)
    have hle : UInt8.ofNat bytes.length ≤ 0x4b := by
      rw [UInt8.le_iff_toNat_le, hbyte]
      change bytes.length ≤ 75
      omega
    have hone : UInt8.ofNat bytes.length = 1 ↔ bytes.length = 1 := by
      rw [← UInt8.toNat_inj, hbyte]
      rfl
    refine ⟨UInt8.ofNat bytes.length, bytes, by rw [if_pos hdirect, List.singleton_append], ?_⟩
    rw [nextInstruction, if_pos hle, hbyte, takeSlice_length]
    simp only [hone, isNumberPush, decide_eq_true_eq]
  have hmany : isNumberPush bytes = false := by
    simp only [isNumberPush, decide_eq_false_iff_not]
    omega
  rw [if_neg hdirect, hmany]
  by_cases hshort : bytes.length < 0x100
  · refine ⟨0x4c, leBytes 1 bytes.length ++ bytes, by rw [if_pos hshort, List.cons_append], ?_⟩
    exact nextPushDataLen_leBytes 1 76 (by omega) (by omega)
  rw [if_neg hshort]
  by_cases hmedium : bytes.length < 0x10000
  · refine ⟨0x4d, leBytes 2 bytes.length ++ bytes, by rw [if_pos hmedium, List.cons_append], ?_⟩
    exact nextPushDataLen_leBytes 2 0x100 (by omega) (by omega)
  · refine ⟨0x4e, leBytes 4 bytes.length ++ bytes, by rw [if_neg hmedium, List.cons_append], ?_⟩
    exact nextPushDataLen_leBytes 4 0x10000 (by omega) (by omega)

def loneInstruction (opcode : UInt8) : Instruction :=
  if opcode = 0 then .pushBytes [] else .op opcode

theorem nextInstruction_lone {opcode : UInt8} (h : opcode = 0 ∨ 0x4e < opcode) (data : Bytes) :
    nextInstruction opcode data = .ok (loneInstruction opcode, data) := by
  rcases h with rfl | h
  · simp [nextInstruction, loneInstruction, takeSlice]
  · have hne : opcode ≠ 0 := by
      rintro rfl
      revert h
      decide
    have hdirect : ¬ opcode ≤ 0x4b := by
      change 78 < opcode.toNat at h
      change ¬ opcode.toNat ≤ 75
      omega
    have hpush : opcode ≠ 0x4c ∧ opcode ≠ 0x4d ∧ opcode ≠ 0x4e := by
      refine ⟨?_, ?_, ?_⟩
      all_goals
        rintro rfl
        revert h
        decide
    rw [nextInstruction, if_neg hdirect, if_neg hpush.1, if_neg hpush.2.1, if_neg hpush.2.2,
      loneInstruction, if_neg hne]

theorem instructionsMinimal_lone_pushSlice {opcode : UInt8} (hop : opcode = 0 ∨ 0x4e < opcode)
    (hlt : bytes.length < 2 ^ 32) : instructionsMinimal (opcode :: pushSlice bytes) =
      if isNumberPush bytes then .error .nonMinimalPush
      else .ok [loneInstruction opcode, .pushBytes bytes] := by
  obtain ⟨byte, data, hpush, hnext⟩ := exists_nextInstruction_pushSlice hlt
  rw [instructionsMinimal, hpush, List.length_cons, collect, nextInstruction_lone hop]
  change (collect (byte :: data).length (byte :: data) >>= _) = _
  rw [List.length_cons, collect, hnext]
  cases isNumberPush bytes with
  | true => rfl
  | false =>
    change (collect data.length [] >>= fun instructions => _) >>= _ = _
    rw [collect]
    rfl

end BitvmNode.Bitcoin.Script
