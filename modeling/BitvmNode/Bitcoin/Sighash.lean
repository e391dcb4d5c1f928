import BitvmNode.Bitcoin.Transaction

/-!
# Signature hashes of witness programs

The message that a signature over a pay-to-witness-script-hash input signs.
-/

namespace BitvmNode.Bitcoin

open Reasoning

inductive EcdsaSighashType where
  | all
  | none
  | single
  | allPlusAnyoneCanPay
  | nonePlusAnyoneCanPay
  | singlePlusAnyoneCanPay
  deriving DecidableEq

namespace EcdsaSighashType

def fromConsensus (flag : UInt8) : EcdsaSighashType :=
  let n := flag &&& 0x9f
  if n = 0x01 then .all
  else if n = 0x02 then .none
  else if n = 0x03 then .single
  else if n = 0x81 then .allPlusAnyoneCanPay
  else if n = 0x82 then .nonePlusAnyoneCanPay
  else if n = 0x83 then .singlePlusAnyoneCanPay
  else if n &&& 0x80 = 0x80 then .allPlusAnyoneCanPay
  else .all

def toU32 : EcdsaSighashType → Nat
  | .all => 0x01
  | .none => 0x02
  | .single => 0x03
  | .allPlusAnyoneCanPay => 0x81
  | .nonePlusAnyoneCanPay => 0x82
  | .singlePlusAnyoneCanPay => 0x83

def splitAnyonecanpayFlag : EcdsaSighashType → EcdsaSighashType × Bool
  | .all => (.all, false)
  | .none => (.none, false)
  | .single => (.single, false)
  | .allPlusAnyoneCanPay => (.all, true)
  | .nonePlusAnyoneCanPay => (.none, true)
  | .singlePlusAnyoneCanPay => (.single, true)

end EcdsaSighashType

def p2wshSignatureHash (sha256 : Bytes → Bytes32) (tx : Transaction) (inputIndex : Nat)
    (witnessScript : Bytes) (value : UInt64) (sighashType : EcdsaSighashType) : Option Bytes32 := do
  let sha256d (bs : Bytes) : Bytes := (sha256 (sha256 bs).toList).toList
  let zeroHash := zero32.toList
  let (sighash, anyoneCanPay) := sighashType.splitAnyonecanpayFlag
  let prevouts :=
    if anyoneCanPay then zeroHash
    else sha256d (tx.input.flatMap fun i => i.previousOutput.encode)
  let sequences :=
    if anyoneCanPay ∨ sighash = .single ∨ sighash = .none then zeroHash
    else sha256d (tx.input.flatMap fun i => leBytes 4 i.sequence.toNat)
  let txin ← tx.input[inputIndex]?
  let outputs :=
    if sighash ≠ .single ∧ sighash ≠ .none then sha256d (tx.output.flatMap TxOut.encode)
    else
      match sighash, tx.output[inputIndex]? with
      | .single, some output => sha256d output.encode
      | _, _ => zeroHash
  some (sha256 (sha256 (leBytes 4 tx.version.toUInt32.toNat ++ prevouts ++ sequences ++
    txin.previousOutput.encode ++ varBytes witnessScript ++ leBytes 8 value.toNat ++
    leBytes 4 txin.sequence.toNat ++ outputs ++ leBytes 4 tx.lockTime.toNat ++
    leBytes 4 sighashType.toU32)).toList)

end BitvmNode.Bitcoin
