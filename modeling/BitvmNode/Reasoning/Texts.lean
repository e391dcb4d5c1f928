import Mathlib.Data.List.Basic
import BitvmNode.Reasoning.Bytes

/-!
# Texts

UTF-8 texts, ids made of parts, and the compact JSON texts of strings, lists and objects.
-/

namespace BitvmNode.Reasoning

theorem byteArray_toList (bytes : ByteArray) : bytes.toList = bytes.data.toList := by
  have hloop : ∀ n i (done : List UInt8), bytes.size - i = n →
      ByteArray.toList.loop bytes i done = done.reverse ++ bytes.data.toList.drop i := by
    intro n
    induction n with
    | zero =>
      intro i done hn
      have hge : bytes.data.toList.length ≤ i := by
        exact Nat.le_of_sub_eq_zero hn
      rw [ByteArray.toList.loop, if_neg (by omega), List.drop_eq_nil_of_le hge, List.append_nil]
    | succ n ih =>
      intro i done hn
      have hlt : i < bytes.size := by omega
      have hlen : i < bytes.data.toList.length := by
        exact hlt
      rw [ByteArray.toList.loop, if_pos hlt, ih (i + 1) _ (by omega), List.reverse_cons,
        List.append_assoc, List.drop_eq_getElem_cons hlen, Array.getElem_toList,
        ← getElem!_pos bytes.data i hlt]
      rfl
  exact hloop _ 0 [] rfl

theorem utf8_inj {s t : String} (h : utf8 s = utf8 t) : s = t := by
  unfold utf8 at h
  rw [byteArray_toList, byteArray_toList] at h
  apply String.toByteArray_inj.mp
  apply ByteArray.ext
  exact Array.toList_inj.mp h

/-- Two texts with a separator are split at its last occurrence. -/
theorem append_cons_inj_of_notMem_right {α : Type} {sep : α} {x x' y y' : List α} (hy : sep ∉ y)
    (hy' : sep ∉ y') (h : x ++ sep :: y = x' ++ sep :: y') : x = x' ∧ y = y' := by
  rcases List.append_eq_append_iff.mp h with ⟨gap, hx, hsep⟩ | ⟨gap, hx, hsep⟩
  · cases gap with
    | nil =>
      rw [List.nil_append, List.cons.injEq] at hsep
      exact ⟨by rw [hx, List.append_nil], hsep.2⟩
    | cons c gap =>
      rw [List.cons_append, List.cons.injEq] at hsep
      exact absurd (hsep.2 ▸ List.mem_append_right _ List.mem_cons_self) hy
  · cases gap with
    | nil =>
      rw [List.nil_append, List.cons.injEq] at hsep
      exact ⟨by rw [hx, List.append_nil], hsep.2.symm⟩
    | cons c gap =>
      rw [List.cons_append, List.cons.injEq] at hsep
      exact absurd (hsep.2 ▸ List.mem_append_right _ List.mem_cons_self) hy'
/-! ## JSON

A string is escaped character by character; the fields of an object come in the order they are
given. -/

namespace Json

def escape (c : Char) : String :=
  if c = '"' then "\\\""
  else if c = '\\' then "\\\\"
  else if c = '\x08' then "\\b"
  else if c = '\t' then "\\t"
  else if c = '\n' then "\\n"
  else if c = '\x0c' then "\\f"
  else if c = '\r' then "\\r"
  else if c.toNat < 0x20 then
    "\\u00" ++ String.ofList [Nat.digitChar (c.toNat / 16), Nat.digitChar (c.toNat % 16)]
  else c.toString

def string (s : String) : String := "\"" ++ String.join (s.toList.map escape) ++ "\""

def nat (n : Nat) : String := toString n

def bool (b : Bool) : String := if b then "true" else "false"

def items : List String → String
  | [] => ""
  | [item] => item
  | item :: next :: rest => item ++ "," ++ items (next :: rest)

def array (values : List String) : String := "[" ++ items values ++ "]"

def object (fields : List (String × String)) : String :=
  "\x7b" ++ items (fields.map fun (name, value) => string name ++ ":" ++ value) ++ "\x7d"

end Json

end BitvmNode.Reasoning
