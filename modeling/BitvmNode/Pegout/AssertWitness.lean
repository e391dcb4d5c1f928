import BitvmNode.Bitcoin.ScriptNumbers
import BitvmNode.Pegout.Graph

/-!
# Witnesses of the assertions

The operator asserts with a WOTS signature on the stack, a hash and a digit for each digit, and the
rest of its proof behind it.  A verifier repeats the signature with the labels that it selects.  The
parsers of both parties take these stacks apart again.
-/

namespace BitvmNode.Pegout

open Reasoning Bitcoin Bitcoin.Script

abbrev RawWitness := List Bytes

structure AssertScripts where
  (wotsBase totalDigitLen inputWireNum : Nat)
  wotsBase_le : wotsBase ≤ 256

structure ConnectorLibrary where
  scripts : AssertScripts
  extractAssertion : BitvmGcGraph → TxIn → Except String RawWitness
  extractCommitPubin : BitvmGcGraph → TxIn → Except String RawWitness
  extractOperatorPreimage : TxIn → Except String Bytes
  recoverPi2Pi3 : Bytes → Bytes → Bool
  rawWitnessToSignature : List Bytes → List Bytes
  verifierLeaf : BitvmGcGraph → Nat → Except String (Bytes × Bytes)
  validatePubin : RawWitness → RawWitness → List Bytes → Bytes → Option (RawWitness × Bytes)
  pubinDisproveLeaf : BitvmGcGraph → Bytes
  pubinDisprove : BitvmGcGraph → RawWitness → Except String TxIn
  p2aOutput : TxOut
  generateOpreturnScript : Bytes → Bytes

namespace AssertScripts

def proverSigLen (scripts : AssertScripts) : Nat := 2 * scripts.totalDigitLen

end AssertScripts

def G2_COMPRESSED_SIZE : Nat := 64

def G1_COMPRESSED_SIZE : Nat := 32

/-- Each signature item is a hash with its digit behind it. -/
structure TxAssertWitness where
  wotsSig : List Bytes
  (pi2 pi3 : Bytes)
  deriving DecidableEq

section Parsers

variable (scripts : AssertScripts)

def splitOperatorAssertWotsAndExtraData (operatorAssertion : RawWitness) :
    Except String (RawWitness × Bytes × Bytes) :=
  let actual := operatorAssertion.length
  let expected := scripts.proverSigLen + 2
  if actual ≠ expected then
    .error s!"operator assert witness has {actual} stack items; expected {expected}"
  else
    match operatorAssertion.reverse with
    | pi3 :: pi2 :: rest => .ok (rest.reverse, pi2, pi3)
    | [_] => .error "operator assert witness is missing pi2"
    | [] => .error "operator assert witness is empty"

def wotsDigits : RawWitness → Except String (List Bytes)
  | digitSignature :: digitValueBytes :: rest =>
      let signatureLen := digitSignature.length
      let valueLen := digitValueBytes.length
      if signatureLen ≠ 20 then
        .error s!"operator assert WOTS digit signature has {signatureLen} bytes; expected 20"
      else if 2 < valueLen then
        .error s!"operator assert WOTS digit value has {valueLen} bytes; expected at most 2"
      else
        match readScriptint digitValueBytes with
        | .error error => .error s!"invalid operator assert WOTS digit value: {error}"
        | .ok digitValue =>
            if digitValue < 0 ∨ scripts.wotsBase ≤ digitValue then
              .error s!"operator assert WOTS digit value {digitValue} is out of range"
            else
              match wotsDigits rest with
              | .error error => .error error
              | .ok items => .ok ((digitSignature ++ [UInt8.ofNat digitValue.toNat]) :: items)
  | _ => .ok []

def operatorAssertWotsSignature (operatorAssertion : RawWitness) : Except String (List Bytes) :=
  let actual := operatorAssertion.length
  let expected := scripts.proverSigLen
  if actual ≠ expected then
    .error s!"operator assert WOTS witness has {actual} stack items; expected {expected}"
  else wotsDigits scripts operatorAssertion

end Parsers

def validateOperatorAssertExtraData (pi2 pi3 : Bytes) : Except String Unit :=
  let pi2Len := pi2.length
  let pi3Len := pi3.length
  if pi2Len ≠ G2_COMPRESSED_SIZE then
    .error s!"operator assert pi2 has {pi2Len} bytes; expected {G2_COMPRESSED_SIZE}"
  else if pi3Len ≠ G1_COMPRESSED_SIZE then
    .error s!"operator assert pi3 has {pi3Len} bytes; expected {G1_COMPRESSED_SIZE}"
  else .ok ()

section Library

variable (library : ConnectorLibrary) (g : BitvmGcGraph)

def operatorAssertion (operatorAssertTxin : TxIn) : Except String (RawWitness × Bytes × Bytes) :=
  match library.extractAssertion g operatorAssertTxin with
  | .error error => .error s!"failed to extract operator assertion: {error}"
  | .ok assertion => splitOperatorAssertWotsAndExtraData library.scripts assertion

/-- The operator reads its own assertion, and wants all of it. -/
def extractOperatorAssertWitness (operatorAssertTxin : TxIn) : Except String TxAssertWitness :=
  match operatorAssertion library g operatorAssertTxin with
  | .error error => .error error
  | .ok (assertion, pi2, pi3) =>
      match operatorAssertWotsSignature library.scripts assertion,
        validateOperatorAssertExtraData pi2 pi3 with
      | .error error, _ => .error error
      | _, .error error => .error error
      | .ok wotsSig, .ok () =>
          if library.recoverPi2Pi3 pi2 pi3 = false then
            .error "operator assert extra-data cannot recover pi2 and pi3"
          else .ok ⟨wotsSig, pi2, pi3⟩

/-- A verifier can challenge an assertion whose other two points make no sense. -/
def extractOperatorAssertWitnessForChallenge (operatorAssertTxin : TxIn) :
    Except String TxAssertWitness :=
  match operatorAssertion library g operatorAssertTxin with
  | .error error => .error error
  | .ok (assertion, pi2, pi3) =>
      match operatorAssertWotsSignature library.scripts assertion with
      | .error error => .error error
      | .ok wotsSig =>
          match validateOperatorAssertExtraData pi2 pi3 with
          | .ok () => .ok ⟨wotsSig, pi2, pi3⟩
          | .error _ => .ok ⟨wotsSig, [], []⟩

/-- The witness of a verifier's assertion: the signature as the operator has published it, and the
labels. -/
def verifierPublishLabels (tx : Transaction) (leaf : Bytes × Bytes) (labels : List Bytes)
    (assertion : RawWitness) : Transaction :=
  match tx.input with
  | [] => tx
  | first :: rest =>
      { tx with input := { first with witness := assertion ++ labels ++ [leaf.1, leaf.2] } :: rest }

def buildVerifierAssertTx (operatorAssertTxin : TxIn) (verifierIndex : Nat) (labels : List Bytes) :
    Except String Transaction :=
  match g.verifierAsserts[verifierIndex]? with
  | none => .error s!"invalid verifier index {verifierIndex}"
  | some verifierAssert =>
      match operatorAssertion library g operatorAssertTxin,
        library.verifierLeaf g verifierIndex with
      | .error error, _ => .error error
      | _, .error error => .error error
      | .ok (assertion, _, _), .ok leaf =>
          .ok (verifierPublishLabels verifierAssert.tx leaf labels assertion)

end Library

structure BabeChallengeAssertWitness where
  verifierIndex : Nat
  (inputLabels wotsSig : List Bytes)

def recoverChallengeAssertWitness (library : ConnectorLibrary) (challengeAssertTx : Transaction)
    (verifierIndex : Nat) : Except String BabeChallengeAssertWitness :=
  match challengeAssertTx.input.head? with
  | none => .error "challenge assert tx has no input"
  | some txin =>
      let items := txin.witness
      let actual := items.length
      let signatureLen := 2 * library.scripts.totalDigitLen
      let expected := signatureLen + library.scripts.inputWireNum + 2
      if actual ≠ expected then
        .error s!"unexpected challenge assert witness length: {actual} (expected {expected})"
      else
        let labels := (items.drop signatureLen).take library.scripts.inputWireNum
        if labels.all (fun label => label.length = 16) = false then
          .error "challenge assert label item is not 16 bytes"
        else .ok ⟨verifierIndex, labels, library.rawWitnessToSignature (items.take signatureLen)⟩

end BitvmNode.Pegout
