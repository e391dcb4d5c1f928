import BitvmNode.Reasoning.Bytes
import BitvmNode.Reasoning.HashTrees

/-!
# Merkle mountain ranges of the header chain

The host keeps every level of the range, the guest only its peaks.  `none` stands for a panic; `u32`
additions and subtractions wrap, as in the release builds of the circuits.
-/

namespace BitvmNode.HeaderChain

open Reasoning

def calculateDoubleSha256 (sha256 : Bytes → Bytes32) (input : Bytes) : Bytes32 :=
  sha256 (sha256 input).toList

def hashPair (sha256 : Bytes → Bytes32) (left right : Bytes32) : Bytes32 :=
  sha256 (left.toList ++ right.toList)

def leadingZeros (x : UInt32) : Nat := if x = 0 then 32 else 31 - x.toNat.log2

def countOnes (x : UInt32) : Nat := ones 32 x.toNat

def checkedShr (x : UInt32) (n : Nat) : UInt32 := if n < 32 then x >>> UInt32.ofNat n else 0

structure MmrInclusionProof (H : Type) where
  leafIndex : UInt32
  inclusionProof : List H

namespace MmrInclusionProof

variable {H : Type} (hashPair : H → H → H)

def position (proof : MmrInclusionProof H) (mmrSize : UInt32) : Option (Nat × UInt32 × Nat) :=
  if mmrSize = 0 ∨ proof.leafIndex ≥ mmrSize then none
  else
    let peakLevel := 31 - leadingZeros (mmrSize ^^^ proof.leafIndex)
    let internalMask := (1 : UInt32) <<< UInt32.ofNat peakLevel - 1
    let internalIndex := proof.leafIndex &&& internalMask
    let subrootIdx := countOnes (checkedShr mmrSize (peakLevel + 1))
    some (subrootIdx, internalIndex, peakLevel)

def hashUp (internalIndex : UInt32) (i : Nat) (currentHash : H) : List H → H
  | [] => currentHash
  | sibling :: rest =>
      hashUp internalIndex (i + 1)
        (if internalIndex &&& ((1 : UInt32) <<< UInt32.ofNat i) = 0 then
          hashPair currentHash sibling
        else hashPair sibling currentHash) rest

def getSubroot (proof : MmrInclusionProof H) (mmrSize : UInt32) (leaf : H) : Option (Nat × H) := do
  let (subrootIdx, internalIndex, expectedPathLen) ← proof.position mmrSize
  if proof.inclusionProof.length ≠ expectedPathLen then none
  else some (subrootIdx, hashUp hashPair internalIndex 0 leaf proof.inclusionProof)

end MmrInclusionProof

structure MmrGuest (H : Type) where
  subroots : List H
  size : UInt32
  deriving DecidableEq

namespace MmrGuest

variable {H : Type} (hashPair : H → H → H)

def new : MmrGuest H := ⟨[], 0⟩

/-- The `while size % 2 == 1` loop with the final push.  The subroots are a stack, last one first;
popping an empty stack panics. -/
def appendLoop : List H → H → UInt32 → Option (List H)
  | [], current, size => if size % 2 = 1 then none else some [current]
  | sibling :: rest, current, size =>
      if size % 2 = 1 then appendLoop rest (hashPair sibling current) (size / 2)
      else some (current :: sibling :: rest)

def append (mmr : MmrGuest H) (leaf : H) : Option (MmrGuest H) := do
  let stack ← appendLoop hashPair mmr.subroots.reverse leaf mmr.size
  some ⟨stack.reverse, mmr.size + 1⟩

def verifyProof [DecidableEq H] (mmr : MmrGuest H) (leaf : H) (proof : MmrInclusionProof H) :
    Bool :=
  match proof.getSubroot hashPair mmr.size leaf with
  | none => false
  | some (subrootIdx, subroot) => mmr.subroots[subrootIdx]? = some subroot

def appendAll (leaves : List H) : Option (MmrGuest H) := leaves.foldlM (append hashPair) new

end MmrGuest

structure MmrHost (H : Type) where
  nodes : List (List H)

namespace MmrHost

variable {H : Type} (hashPair : H → H → H)

def new : MmrHost H := ⟨[[]]⟩

def pushParents (level : List H) : List (List H) → Option (List (List H))
  | [] => some [level]
  | next :: above =>
      if level.length % 2 = 1 then some (level :: next :: above)
      else do
        let left ← level[level.length - 2]?
        let right ← level[level.length - 1]?
        let above ← pushParents (next ++ [hashPair left right]) above
        some (level :: above)

def recalculatePeaks : List (List H) → Option (List (List H))
  | [] => none
  | bottom :: above => do
      let nodes ← pushParents hashPair bottom above
      let top ← nodes.getLast?
      if top.length > 1 then do
        let left ← top[0]?
        let right ← top[1]?
        some (nodes ++ [[hashPair left right]])
      else some nodes

def append (mmr : MmrHost H) (leaf : H) : Option (MmrHost H) :=
  match mmr.nodes with
  | [] => none
  | bottom :: above => do
      let nodes ← recalculatePeaks hashPair ((bottom ++ [leaf]) :: above)
      some ⟨nodes⟩

def getSubroots (mmr : MmrHost H) : List H :=
  (mmr.nodes.filterMap fun level =>
    if level.length % 2 = 1 then level[level.length - 1]? else none).reverse

def proofPath : List (List H) → UInt32 → Option (List H)
  | [], _ => none
  | level :: above, currentIndex =>
      if currentIndex = UInt32.ofNat level.length - 1 ∧ level.length % 2 = 1 then some []
      else do
        let siblingIndex := if currentIndex % 2 = 0 then currentIndex + 1 else currentIndex - 1
        let sibling ← level[siblingIndex.toNat]?
        let rest ← proofPath above (currentIndex / 2)
        some (sibling :: rest)

def generateProof (mmr : MmrHost H) (index : UInt32) : Option (H × MmrInclusionProof H) := do
  let bottom ← mmr.nodes[0]?
  if bottom.isEmpty then none
  else if bottom.length ≤ index.toNat then none
  else do
    let proof ← proofPath mmr.nodes index
    let leaf ← bottom[index.toNat]?
    some (leaf, ⟨index, proof⟩)

def verifyProof [DecidableEq H] (mmr : MmrHost H) (leaf : H)
    (proof : MmrInclusionProof H) : Option Bool := do
  let bottom ← mmr.nodes[0]?
  match proof.getSubroot hashPair (UInt32.ofNat bottom.length) leaf with
  | none => some false
  | some (subrootIdx, subRoot) => some (mmr.getSubroots[subrootIdx]? = some subRoot)

def appendAll (leaves : List H) : Option (MmrHost H) := leaves.foldlM (append hashPair) new

end MmrHost

end BitvmNode.HeaderChain
