import Mathlib.Data.List.Sort
import BitvmNode.Reasoning.Runs
import BitvmNode.HeaderChain.Mmr

/-!
# The header chain

`ChainState::apply_blocks` with the checks it makes on every header.  The double hash and the
difficulty adjustment of the Bitcoin library are parameters; `none` stands for a panic and `u32`
arithmetic wraps, as in the release builds of the circuits.
-/

namespace BitvmNode.HeaderChain

open Reasoning

inductive Network where
  | mainnet
  | testnet4
  | signet
  | regtest
  deriving DecidableEq

structure NetworkConstants where
  maxBits : UInt32
  maxTarget : Nat
  maxTargetBytes : Bytes32

def networkConstants : Network → NetworkConstants
  | .signet =>
      { maxBits := 0x1E0377AE
        maxTarget := 0x00000377AE000000000000000000000000000000000000000000000000000000
        maxTargetBytes := #v[0, 0, 3, 119, 174, 0, 0, 0, 0, 0, 0, 0, 0, 0, 0, 0, 0, 0, 0,
          0, 0, 0, 0, 0, 0, 0, 0, 0, 0, 0, 0, 0] }
  | .regtest =>
      { maxBits := 0x207FFFFF
        maxTarget := 0x7FFFFF0000000000000000000000000000000000000000000000000000000000
        maxTargetBytes := #v[127, 255, 255, 0, 0, 0, 0, 0, 0, 0, 0, 0, 0, 0, 0, 0, 0, 0, 0,
          0, 0, 0, 0, 0, 0, 0, 0, 0, 0, 0, 0, 0] }
  | .testnet4 | .mainnet =>
      { maxBits := 0x1D00FFFF
        maxTarget := 0x00000000FFFF0000000000000000000000000000000000000000000000000000
        maxTargetBytes := #v[0, 0, 0, 0, 255, 255, 0, 0, 0, 0, 0, 0, 0, 0, 0, 0, 0, 0, 0,
          0, 0, 0, 0, 0, 0, 0, 0, 0, 0, 0, 0, 0] }

def minimumWorkTestnet : Nat := 0x100010001

def blocksPerEpoch : UInt32 := 2016

structure Config where
  network : Network
  sha256 : Bytes → Bytes32
  fromNextWorkRequired : Network → UInt32 → UInt64 → UInt32

namespace Config

variable (cfg : Config)

def isRegtest : Bool := cfg.network = .regtest

def isTestnet4 : Bool := cfg.network = .testnet4

def constants : NetworkConstants := networkConstants cfg.network

end Config

structure CircuitBlockHeader where
  version : Int32
  (prevBlockHash merkleRoot : Bytes32)
  (time bits nonce : UInt32)
  deriving DecidableEq

namespace CircuitBlockHeader

def bytes (header : CircuitBlockHeader) : Bytes :=
  leBytes 4 header.version.toUInt32.toNat ++ header.prevBlockHash.toList ++
    header.merkleRoot.toList ++ leBytes 4 header.time.toNat ++ leBytes 4 header.bits.toNat ++
    leBytes 4 header.nonce.toNat

def computeBlockHash (sha256 : Bytes → Bytes32) (header : CircuitBlockHeader) : Bytes32 :=
  calculateDoubleSha256 sha256 header.bytes

end CircuitBlockHeader

def bitsToTarget (bits : UInt32) : Bytes32 :=
  let size := bits.toNat / 2 ^ 24
  let mantissa := bits.toNat % 2 ^ 24
  beBytes32 (if size ≤ 3 then mantissa >>> (8 * (3 - size))
    else (mantissa <<< (8 * (size - 3))) % 2 ^ 256)

def calculateWork (target : Bytes32) : Nat :=
  (2 ^ 256 - 1) / min (beNat target.toList + 1) (2 ^ 256 - 1)

def checkHashValid (hash targetBytes : Bytes32) : Bool :=
  lexLe hash.toList.reverse targetBytes.toList

theorem checkHashValid_iff (hash target : Bytes32) :
    checkHashValid hash target = true ↔ leNat hash.toList ≤ beNat target.toList := by
  unfold checkHashValid
  rw [lexLe_iff _ _ (by simp), beNat, List.reverse_reverse]

def median (arr : Vector UInt32 11) : UInt32 :=
  (arr.toList.insertionSort (· ≤ ·)).getD 5 0

def validateTimestamp (blockTime : UInt32) (prev11Timestamps : Vector UInt32 11) : Bool :=
  blockTime > median prev11Timestamps

def calculateNewDifficulty (cfg : Config) (epochStartTime lastTimestamp currentTarget : UInt32) :
    UInt32 :=
  let actualTimespan := if epochStartTime ≤ lastTimestamp then lastTimestamp - epochStartTime else 0
  cfg.fromNextWorkRequired cfg.network currentTarget actualTimespan.toUInt64

structure ChainState where
  blockHeight : UInt32
  (totalWork bestBlockHash : Bytes32)
  (currentTargetBits epochStartTime : UInt32)
  prev11Timestamps : Vector UInt32 11
  blockHashesMmr : MmrGuest Bytes32
  deriving DecidableEq

namespace ChainState

variable (cfg : Config)

def new : ChainState where
  blockHeight := 0xFFFFFFFF
  totalWork := Vector.replicate 32 0
  bestBlockHash := Vector.replicate 32 0
  currentTargetBits := cfg.constants.maxBits
  epochStartTime := 0
  prev11Timestamps := Vector.replicate 11 0
  blockHashesMmr := MmrGuest.new

end ChainState

def ringSlot (height : Nat) : Fin 11 := ⟨height % 11, Nat.mod_lt _ (by decide)⟩

/-- The state together with the locals that the loop of `apply_blocks` carries. -/
structure LoopState where
  state : ChainState
  currentTargetBytes : Bytes32
  currentWork : Nat
  lastBlockTime : UInt32

namespace LoopState

variable (cfg : Config)

def start (s : ChainState) : LoopState where
  state := s
  currentTargetBytes :=
    if cfg.isRegtest then beBytes32 cfg.constants.maxTarget else bitsToTarget s.currentTargetBits
  currentWork := beNat s.totalWork.toList
  lastBlockTime :=
    if cfg.isTestnet4 then
      if s.blockHeight = 0xFFFFFFFF then 0
      else s.prev11Timestamps[ringSlot s.blockHeight.toNat]
    else 0

/-- Target, bits and work required of `header` at `height`: on testnet4 a block that comes more than
twenty minutes after the last one may have minimum difficulty, except the first of an epoch. -/
def required (l : LoopState) (height : UInt32) (header : CircuitBlockHeader) :
    Bytes32 × UInt32 × Nat :=
  let current :=
    (l.currentTargetBytes, l.state.currentTargetBits, calculateWork l.currentTargetBytes)
  if cfg.isTestnet4 then
    if header.time > l.lastBlockTime + 1200 then
      if height % blocksPerEpoch = 0 then current
      else (cfg.constants.maxTargetBytes, cfg.constants.maxBits, minimumWorkTestnet)
    else current
  else current

def advance (l : LoopState) (header : CircuitBlockHeader) (newBlockHash : Bytes32) (workToAdd : Nat)
    (mmr : MmrGuest Bytes32) : LoopState :=
  let height := l.state.blockHeight + 1
  let epochStartTime :=
    if cfg.isRegtest = false ∧ height % blocksPerEpoch = 0 then header.time
      else l.state.epochStartTime
  let retarget : Bool := cfg.isRegtest = false ∧ height % blocksPerEpoch = blocksPerEpoch - 1
  let bits :=
    if retarget then
      calculateNewDifficulty cfg epochStartTime header.time l.state.currentTargetBits
    else l.state.currentTargetBits
  { state :=
      { l.state with
        blockHeight := height
        bestBlockHash := newBlockHash
        currentTargetBits := bits
        epochStartTime := epochStartTime
        prev11Timestamps :=
          l.state.prev11Timestamps.set (ringSlot height.toNat) header.time
        blockHashesMmr := mmr }
    currentTargetBytes := if retarget then bitsToTarget bits else l.currentTargetBytes
    currentWork := (l.currentWork + workToAdd) % 2 ^ 256
    lastBlockTime := if cfg.isTestnet4 then header.time else l.lastBlockTime }

def applyBlock (l : LoopState) (header : CircuitBlockHeader) : Option LoopState :=
  let height := l.state.blockHeight + 1
  let (targetToUse, expectedBits, workToAdd) := l.required cfg height header
  let newBlockHash := header.computeBlockHash cfg.sha256
  if header.prevBlockHash ≠ l.state.bestBlockHash then none
  else if header.bits ≠ (if cfg.isRegtest then cfg.constants.maxBits else expectedBits) then none
  else if checkHashValid newBlockHash targetToUse = false then none
  else if validateTimestamp header.time l.state.prev11Timestamps = false then none
  else do
    let mmr ← l.state.blockHashesMmr.append (hashPair cfg.sha256) newBlockHash
    some (l.advance cfg header newBlockHash workToAdd mmr)

def finish (l : LoopState) : Option ChainState :=
  if l.state.blockHeight = 0xFFFFFFFF then none
  else if l.state.blockHashesMmr.size ≠ l.state.blockHeight + 1 then none
  else some { l.state with totalWork := beBytes32 l.currentWork }

end LoopState

namespace ChainState

variable (cfg : Config)

def applyBlocks (s : ChainState) (blockHeaders : List CircuitBlockHeader) : Option ChainState := do
  let l ← blockHeaders.foldlM (LoopState.applyBlock cfg) (LoopState.start cfg s)
  l.finish

def applyBatches (s : ChainState) (batches : List (List CircuitBlockHeader)) : Option ChainState :=
  batches.foldlM (applyBlocks cfg) s

end ChainState

end BitvmNode.HeaderChain
