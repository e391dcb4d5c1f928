import BitvmNode.HeaderChain.MmrRange
import BitvmNode.HeaderChain.Chain

/-!
# What the network requires of a chain of headers

The rules in terms of the whole list of headers, without the running state of the circuit: the bits
of an epoch come from the times of the epoch before, and each height has its required bits and
target.
-/

namespace BitvmNode.HeaderChain.Consensus

open Reasoning

variable (cfg : Config) (headers : List CircuitBlockHeader)

def timeAt (i : Nat) : UInt32 := (headers[i]?.map CircuitBlockHeader.time).getD 0

def hashAt (sha256 : Bytes → Bytes32) (headers : List CircuitBlockHeader) (i : Nat) : Bytes32 :=
  (headers[i]?.map (CircuitBlockHeader.computeBlockHash sha256)).getD (Vector.replicate 32 0)

def tipBefore (n : Nat) : Bytes32 :=
  if n = 0 then Vector.replicate 32 0 else hashAt cfg.sha256 headers (n - 1)

def timeBefore (n : Nat) : UInt32 := if n = 0 then 0 else timeAt headers (n - 1)

def epochBits : Nat → UInt32
  | 0 => cfg.constants.maxBits
  | e + 1 =>
      if cfg.isRegtest then cfg.constants.maxBits
      else calculateNewDifficulty cfg (timeAt headers (2016 * e)) (timeAt headers (2016 * e + 2015))
        (epochBits e)

def minimumDifficulty (i : Nat) : Prop :=
  cfg.isTestnet4 = true ∧ i % 2016 ≠ 0 ∧ timeAt headers i > timeBefore headers i + 1200

instance (i : Nat) : Decidable (minimumDifficulty cfg headers i) := by
  unfold minimumDifficulty
  infer_instance

def requiredBits (i : Nat) : UInt32 :=
  if minimumDifficulty cfg headers i then cfg.constants.maxBits
    else epochBits cfg headers (i / 2016)

def requiredTarget (i : Nat) : Bytes32 := bitsToTarget (requiredBits cfg headers i)

def chainWork (n : Nat) : Nat :=
  ((List.range n).map fun i => calculateWork (requiredTarget cfg headers i)).sum

theorem timeAt_of_get {i : Nat} {header : CircuitBlockHeader} (h : headers[i]? = some header) :
    timeAt headers i = header.time := by
  rw [timeAt, h]
  rfl

theorem hashAt_of_get (sha256 : Bytes → Bytes32) {i : Nat} {header : CircuitBlockHeader}
    (h : headers[i]? = some header) : hashAt sha256 headers i = header.computeBlockHash sha256 := by
  rw [hashAt, h]
  rfl

theorem map_computeBlockHash (sha256 : Bytes → Bytes32) :
    headers.map (CircuitBlockHeader.computeBlockHash sha256) =
      (List.range headers.length).map (hashAt sha256 headers) := by
  apply List.ext_getElem
  · simp
  · intro i hi _
    rw [List.length_map] at hi
    simp [hashAt, List.getElem?_eq_getElem hi]

theorem tipBefore_succ (n : Nat) : tipBefore cfg headers (n + 1) = hashAt cfg.sha256 headers n :=
  rfl

theorem timeBefore_succ (n : Nat) : timeBefore headers (n + 1) = timeAt headers n := rfl

theorem chainWork_succ (n : Nat) : chainWork cfg headers (n + 1) =
      chainWork cfg headers n + calculateWork (requiredTarget cfg headers n) := by
  simp [chainWork, List.range_succ]

theorem epochBits_regtest (h : cfg.isRegtest = true) (e : Nat) :
    epochBits cfg headers e = cfg.constants.maxBits := by
  cases e with
  | zero => rfl
  | succ e => rw [epochBits, if_pos h]

theorem maxTargetBytes_eq (network : Network) :
    (networkConstants network).maxTargetBytes =
      bitsToTarget (networkConstants network).maxBits := by
  cases network <;> decide +kernel

theorem maxTarget_eq (network : Network) : beBytes32 (networkConstants network).maxTarget =
      bitsToTarget (networkConstants network).maxBits := by
  cases network <;> decide +kernel

theorem minimumWorkTestnet_eq (h : cfg.isTestnet4 = true) :
    minimumWorkTestnet = calculateWork (bitsToTarget cfg.constants.maxBits) := by
  unfold Config.constants
  rw [of_decide_eq_true h]
  decide +kernel

end BitvmNode.HeaderChain.Consensus
