import BitvmNode.Reasoning.Encodings

/-!
# Texts of keys and transaction ids

A public key of secp256k1 is written in hexadecimal as its x coordinate alone, behind a byte for the
parity of the other coordinate, or with both coordinates.
-/

namespace BitvmNode.Bitcoin

open Reasoning

def hexValue (c : Char) : Option Nat :=
  let n := c.toNat
  if 48 ≤ n ∧ n ≤ 57 then some (n - 48)
  else if 97 ≤ n ∧ n ≤ 102 then some (n - 87)
  else if 65 ≤ n ∧ n ≤ 70 then some (n - 55)
  else none

def decodeHexChars : List Char → Option Bytes
  | [] => some []
  | [_] => none
  | high :: low :: rest =>
      match hexValue high, hexValue low, decodeHexChars rest with
      | some h, some l, some bytes => some (UInt8.ofNat (16 * h + l) :: bytes)
      | _, _, _ => none

def hexDecode (text : String) : Option Bytes := decodeHexChars text.toList

def fieldPrime : Nat := 2 ^ 256 - 2 ^ 32 - 977

def powMod (modulus base : Nat) : Nat → Nat → Nat
  | 0, _ => 1 % modulus
  | bits + 1, e =>
      let half := powMod modulus base bits (e / 2)
      let squared := half * half % modulus
      if e % 2 = 1 then squared * base % modulus else squared

def curveValue (x : Nat) : Nat := (x * x % fieldPrime * x + 7) % fieldPrime

def onCurve (x y : Nat) : Bool :=
  x < fieldPrime && y < fieldPrime && y * y % fieldPrime == curveValue x

def liftable (x : Nat) : Bool :=
  x < fieldPrime && onCurve x (powMod fieldPrime (curveValue x) 256 ((fieldPrime + 1) / 4))

abbrev XOnlyKey := Nat

def parsePoint : Bytes → Option XOnlyKey
  | [] => none
  | tag :: rest =>
      if rest.length = 32 then
        if (tag = 2 ∨ tag = 3) ∧ liftable (beNat rest) then some (beNat rest) else none
      else if rest.length = 64 then
        let x := beNat (rest.take 32)
        let y := beNat (rest.drop 32)
        if (tag = 4 ∨ tag = 6 ∧ y % 2 = 0 ∨ tag = 7 ∧ y % 2 = 1) ∧ onCurve x y then some x else none
      else none

def parseXOnly (text : String) : Option XOnlyKey :=
  match hexDecode text with
  | none => none
  | some bytes => if bytes.length = 32 ∧ liftable (beNat bytes) then some (beNat bytes) else none

def normalizePublicKey (text : String) : Option XOnlyKey :=
  match parseXOnly text with
  | some key => some key
  | none => (hexDecode text).bind parsePoint

end BitvmNode.Bitcoin
