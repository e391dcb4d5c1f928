import BitvmNode.Reasoning.JsonValues

/-!
# The committee's signing data

The parameters of an instance and of a graph, the transactions that the committee signs, and the
transcripts that its members agree on before they sign.
-/

namespace BitvmNode.Signing

open Reasoning

abbrev Uuid := BitVec 128

namespace Uuid

def asBytes (id : Uuid) : Bytes := beBytes 16 id.toNat

theorem asBytes_injective : Function.Injective asBytes := by
  intro a b h
  have hvalue := congrArg beNat h
  simp only [asBytes, beNat_beBytes] at hvalue
  apply BitVec.eq_of_toNat_eq
  omega

def hyphenated (id : Uuid) : String :=
  let part (start len : Nat) : String := hexEncode (((asBytes id).drop start).take len)
  part 0 4 ++ "-" ++ part 4 2 ++ "-" ++ part 6 2 ++ "-" ++ part 8 2 ++ "-" ++ part 10 6

end Uuid

structure PublicKey where
  bytes : Bytes
  wellFormed : (bytes.length = 33 ∧ (bytes.head? = some 2 ∨ bytes.head? = some 3)) ∨
    (bytes.length = 65 ∧ bytes.head? = some 4)
  deriving DecidableEq

abbrev PubNonce := Vector UInt8 66

structure CommitteeMusig2Data (T : Type) where
  (take1 take2 challenge watchtowerChallengeTimeout : List T)
  (operatorChallengeNack operatorCommitTimeout disprove : List T)
  deriving DecidableEq

abbrev CommitteePubNonces := CommitteeMusig2Data PubNonce

end BitvmNode.Signing
