import Mathlib.Algebra.Group.Int.Defs
import Mathlib.Algebra.Group.Nat.Defs
import Mathlib.Data.List.Basic
import Mathlib.Data.Nat.Notation

/-!
# Numbers kept as decimal texts

A column of texts on which a database does arithmetic.  SQLite reads both operands as numbers: a
text of digits is an integer as long as it fits in 64 bits, and a sum that leaves this range is
computed with floating point numbers.
-/

namespace BitvmNode.Reasoning

def numeral (text : String) : Option Nat :=
  if text.toList ≠ [] ∧ text.toList.all Char.isDigit then
    some (Nat.ofDigitChars 10 text.toList 0)
  else none

theorem numeral_eq_some {text : String} {n : Nat} : numeral text = some n ↔
      (text.toList ≠ [] ∧ text.toList.all Char.isDigit) ∧
      Nat.ofDigitChars 10 text.toList 0 = n := by
  unfold numeral
  split_ifs with h
  · simp only [Option.some.injEq, h, ne_eq, not_false_eq_true, true_and, and_self]
  · exact ⟨nofun, fun hsome => absurd hsome.1 h⟩

theorem numeral_toString (n : Nat) : numeral (toString n) = some n := by
  have hlist : (toString n).toList = Nat.toDigits 10 n := by
    rw [Nat.toString_eq_ofList_toDigits, String.toList_ofList]
  rw [numeral_eq_some, hlist]
  refine ⟨⟨?_, ?_⟩, Nat.ofDigitChars_ten_toDigits⟩
  · exact Nat.toDigits_ne_nil
  · rw [List.all_eq_true]
    intro c hc
    exact Nat.isDigit_of_mem_toDigits (by decide) (by decide) hc

def digitValue (c : Char) : Option Nat :=
  if '0' ≤ c ∧ c ≤ '9' then some (c.toNat - '0'.toNat)
  else if 'a' ≤ c ∧ c ≤ 'z' then some (c.toNat - 'a'.toNat + 10)
  else if 'A' ≤ c ∧ c ≤ 'Z' then some (c.toNat - 'A'.toNat + 10)
  else none

/-- One more digit; a digit that the base does not have or a number that is too large is an
error. -/
def pushDigit (radix value : Nat) (c : Char) : Option Nat := do
  let digit ← digitValue c
  guard (digit < radix)
  let value := radix * value + digit
  guard (value < 2 ^ 256)
  some value

def u256FromStrRadix (chars : List Char) (radix : Nat) : Option Nat :=
  (chars.filter (· ≠ '_')).foldlM (pushDigit radix) 0

def u256FromStr (text : String) : Option Nat :=
  match text.toList with
  | '0' :: 'x' :: rest => u256FromStrRadix rest 16
  | '0' :: 'X' :: rest => u256FromStrRadix rest 16
  | '0' :: 'o' :: rest => u256FromStrRadix rest 8
  | '0' :: 'O' :: rest => u256FromStrRadix rest 8
  | '0' :: 'b' :: rest => u256FromStrRadix rest 2
  | '0' :: 'B' :: rest => u256FromStrRadix rest 2
  | chars => u256FromStrRadix chars 10

theorem pushDigit_decimal {value : Nat} {c : Char} (hc : c.isDigit)
    (hlt : 10 * value + (c.toNat - '0'.toNat) < 2 ^ 256) :
    pushDigit 10 value c = some (10 * value + (c.toNat - '0'.toNat)) := by
  have hrange : 48 ≤ c.toNat ∧ c.toNat ≤ 57 := Char.isDigit_iff_toNat.mp hc
  have hchar : '0' ≤ c ∧ c ≤ '9' := by
    constructor
    · rw [Char.le_def, UInt32.le_iff_toNat_le]
      exact hrange.1
    · rw [Char.le_def, UInt32.le_iff_toNat_le]
      exact hrange.2
  have hdigit : c.toNat - '0'.toNat < 10 := by
    change c.toNat - 48 < 10
    omega
  unfold pushDigit digitValue
  rw [if_pos hchar]
  simp only [Option.bind_eq_bind, Option.bind_some, guard, hdigit, if_true, hlt, pure]

theorem le_ofDigitChars (chars : List Char) (value : Nat) :
    value ≤ Nat.ofDigitChars 10 chars value := by
  induction chars generalizing value with
  | nil => exact Nat.le_refl _
  | cons c chars ih =>
    rw [Nat.ofDigitChars_cons]
    have hnext := ih (10 * value + (c.toNat - '0'.toNat))
    omega

theorem foldlM_pushDigit {chars : List Char} (hdigits : chars.all Char.isDigit) {value : Nat}
    (hlt : Nat.ofDigitChars 10 chars value < 2 ^ 256) :
    chars.foldlM (pushDigit 10) value = some (Nat.ofDigitChars 10 chars value) := by
  induction chars generalizing value with
  | nil => rfl
  | cons c chars ih =>
    rw [List.all_cons, Bool.and_eq_true] at hdigits
    rw [Nat.ofDigitChars_cons] at hlt ⊢
    have hle := le_ofDigitChars chars (10 * value + (c.toNat - '0'.toNat))
    rw [List.foldlM_cons, pushDigit_decimal hdigits.1 (by omega)]
    exact ih hdigits.2 hlt

theorem u256FromStr_of_numeral {text : String} {n : Nat} (h : numeral text = some n)
    (hlt : n < 2 ^ 256) : u256FromStr text = some n := by
  obtain ⟨⟨hne, hdigits⟩, rfl⟩ := numeral_eq_some.mp h
  have hfilter : text.toList.filter (· ≠ '_') = text.toList := by
    apply List.filter_eq_self.mpr
    intro c hc
    have hdigit := List.all_eq_true.mp hdigits c hc
    simp only [ne_eq, decide_not, Bool.not_eq_eq_eq_not, Bool.not_true, decide_eq_false_iff_not]
    rintro rfl
    exact absurd hdigit (by decide)
  have hdecimal : u256FromStrRadix text.toList 10 = some (Nat.ofDigitChars 10 text.toList 0) := by
    unfold u256FromStrRadix
    rw [hfilter]
    exact foldlM_pushDigit hdigits hlt
  -- the letter of a prefix is no digit
  have hletter : ∀ c rest, text.toList = '0' :: c :: rest → c.isDigit := by
    intro c rest htext
    rw [htext, List.all_cons, List.all_cons, Bool.and_eq_true, Bool.and_eq_true] at hdigits
    exact hdigits.2.1
  unfold u256FromStr
  split
  · rename_i rest htext
    exact absurd (hletter 'x' rest htext) (by decide)
  · rename_i rest htext
    exact absurd (hletter 'X' rest htext) (by decide)
  · rename_i rest htext
    exact absurd (hletter 'o' rest htext) (by decide)
  · rename_i rest htext
    exact absurd (hletter 'O' rest htext) (by decide)
  · rename_i rest htext
    exact absurd (hletter 'b' rest htext) (by decide)
  · rename_i rest htext
    exact absurd (hletter 'B' rest htext) (by decide)
  · exact hdecimal

def inInt64 (value : Int) : Prop := -(2 ^ 63 : Int) ≤ value ∧ value < (2 ^ 63 : Int)

instance (value : Int) : Decidable (inInt64 value) := inferInstanceAs (Decidable (_ ∧ _))

/-- The result of a 64-bit operation that wraps. -/
def wrapInt64 (n : Int) : Int := (n + 2 ^ 63) % 2 ^ 64 - 2 ^ 63

def parseInt64 (text : String) : Option Int := do
  let value : Int ←
    match text.toList with
    | '-' :: digits => (numeral (String.ofList digits)).map fun n => -(n : Int)
    | '+' :: digits => (numeral (String.ofList digits)).map fun n => (n : Int)
    | _ => (numeral text).map fun n => (n : Int)
  guard (inInt64 value)
  some value

theorem inInt64_of_parseInt64 {text : String} {value : Int} (h : parseInt64 text = some value) :
    inInt64 value := by
  have hchecked {read : Option Int}
      (hread : (read >>= fun n => guard (inInt64 n) >>= fun _ => some n) = some value) :
      inInt64 value := by
    obtain ⟨n, -, hn⟩ := Option.bind_eq_some_iff.mp hread
    by_cases hin : inInt64 n
    · have hsame : n = value := by simpa [guard, hin] using hn
      exact hsame ▸ hin
    · simp [guard, hin] at hn
  dsimp only [parseInt64] at h
  split at h <;> exact hchecked h

inductive SqlNumber (Real : Type) where
  | integer (value : Int)
  | real (value : Real)

/-- The finite floating point numbers of the database.  The text of one has a decimal point, so that
it is no numeral and is read as a floating point number again. -/
structure SqlReals where
  Real : Type
  ofInt : Int → Real
  add : Real → Real → Real
  text : Real → String
  cast : String → SqlNumber Real
  numeral_text : ∀ r, numeral (text r) = none
  cast_text : ∀ r, ∃ r', cast (text r) = .real r'

variable (reals : SqlReals)

def sqlNumber (text : String) : SqlNumber reals.Real :=
  match numeral text with
  | some n => if inInt64 n then .integer n else .real (reals.ofInt n)
  | none => reals.cast text

def SqlNumber.toReal : SqlNumber reals.Real → reals.Real
  | .integer value => reals.ofInt value
  | .real value => value

def SqlNumber.add : SqlNumber reals.Real → SqlNumber reals.Real → SqlNumber reals.Real
  | .integer a, .integer b =>
      if inInt64 (a + b) then .integer (a + b)
        else .real (reals.add (reals.ofInt a) (reals.ofInt b))
  | a, b => .real (reals.add (SqlNumber.toReal reals a) (SqlNumber.toReal reals b))

def SqlNumber.text : SqlNumber reals.Real → String
  | .integer value => toString value
  | .real value => reals.text value

/-- `a + b` for two texts, as the text that the column stores. -/
def sqlAdd (a b : String) : String :=
  SqlNumber.text reals (SqlNumber.add reals (sqlNumber reals a) (sqlNumber reals b))

variable {reals} {a b : String} {m n : Nat}

theorem sqlAdd_of_lt (ha : numeral a = some m) (hb : numeral b = some n) (hlt : m + n < 2 ^ 63) :
    sqlAdd reals a b = toString (m + n) := by
  have hm : inInt64 (m : Int) := ⟨by omega, by omega⟩
  have hn : inInt64 (n : Int) := ⟨by omega, by omega⟩
  have hsum : inInt64 ((m : Int) + n) := ⟨by omega, by omega⟩
  simp only [sqlAdd, sqlNumber, ha, hb, hm, hn, if_true, SqlNumber.add, hsum, SqlNumber.text]
  rfl

theorem sqlAdd_of_ge (ha : numeral a = some m) (hb : numeral b = some n) (hge : 2 ^ 63 ≤ m + n) :
    ∃ r, sqlAdd reals a b = reals.text r := by
  have hsum : ¬ inInt64 ((m : Int) + n) := fun h => by
    have := h.2
    omega
  simp only [sqlAdd, sqlNumber, ha, hb]
  split_ifs
  · simp only [SqlNumber.add, hsum, if_false]
    exact ⟨_, rfl⟩
  · exact ⟨_, rfl⟩
  · exact ⟨_, rfl⟩
  · exact ⟨_, rfl⟩

theorem sqlAdd_text (r : reals.Real) (b : String) :
    ∃ r', sqlAdd reals (reals.text r) b = reals.text r' := by
  obtain ⟨r', hcast⟩ := reals.cast_text r
  simp only [sqlAdd, sqlNumber, reals.numeral_text, hcast]
  exact ⟨_, rfl⟩

end BitvmNode.Reasoning
