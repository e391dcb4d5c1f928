import BitvmNode.Reasoning.Bytes
import Mathlib.Data.Nat.Bitwise

/-!
# Lists of bits and the numbers and byte strings that pack them

Bit `i` of a packed number has weight `2 ^ i`; in a packed byte string it is bit `i % 8` of byte `i
/ 8`.
-/

namespace BitvmNode.Reasoning

end BitvmNode.Reasoning
