import BitvmNode.ChainCircuit
import BitvmNode.HeaderChain.ChainSoundness

/-!
# The header chain circuit

A proof of the header chain starts at the genesis block of its network and extends the previous
proof by a batch of headers.
-/

namespace BitvmNode.HeaderChain

open Reasoning Verifier

def genesisHeader : Network → CircuitBlockHeader
  | .mainnet =>
      { version := 1
        prevBlockHash := zero32
        merkleRoot := beBytes32 0x3ba3edfd7a7b12b27ac72c3e67768f617fc81bc3888a51323a9fb8aa4b1e5e4a
        time := 1231006505
        bits := 0x1d00ffff
        nonce := 2083236893 }
  | .testnet4 =>
      { version := 1
        prevBlockHash := zero32
        merkleRoot := beBytes32 0x4e7b2b9128fe0291db0693af2ae418b767e657cd407e80cb1434221eaea7a07a
        time := 1714777860
        bits := 0x1d00ffff
        nonce := 393743547 }
  | .signet =>
      { version := 1
        prevBlockHash := zero32
        merkleRoot := beBytes32 0x3ba3edfd7a7b12b27ac72c3e67768f617fc81bc3888a51323a9fb8aa4b1e5e4a
        time := 1598918400
        bits := 0x1e0377ae
        nonce := 52613770 }
  | .regtest =>
      { version := 1
        prevBlockHash := zero32
        merkleRoot := beBytes32 0x3ba3edfd7a7b12b27ac72c3e67768f617fc81bc3888a51323a9fb8aa4b1e5e4a
        time := 1296688602
        bits := 0x207fffff
        nonce := 2 }

abbrev HeaderChainCircuitInput := ChainCircuitInput CircuitBlockHeader

abbrev BlockHeaderCircuitOutput := ChainCircuitOutput ChainState

variable (cfg : Config)

def headerChain : ChainCircuit ChainState CircuitBlockHeader where
  programType := .header
  genesis blockHeaders := do
    let first ← blockHeaders.head?
    guard (first = genesisHeader cfg.network)
    some (ChainState.new cfg)
  apply := ChainState.applyBlocks cfg

def headerChainCircuit (groth16 : Groth16) (codec : OutputCodec BlockHeaderCircuitOutput)
    (input : HeaderChainCircuitInput) : Option BlockHeaderCircuitOutput :=
  (headerChain cfg).run cfg.sha256 groth16 codec input

/-- The headers are accepted in these batches and start at the network's genesis block. -/
structure FromGenesis (batches : List (List CircuitBlockHeader)) (s : ChainState) : Prop where
  accepted : (ChainState.new cfg).applyBatches cfg batches = some s
  genesis : batches.flatten.head? = some (genesisHeader cfg.network)

variable {s : ChainState} {batches : List (List CircuitBlockHeader)}

theorem FromGenesis.of_reaches
    (h : (headerChain cfg).Reaches batches s) : FromGenesis cfg batches s := by
  obtain ⟨first, rest, s₀, rfl, hgenesis, hrun⟩ := h
  simp only [headerChain, Option.bind_eq_bind, Option.bind_eq_some_iff] at hgenesis
  obtain ⟨header, hhead, _, hguard, hs⟩ := hgenesis
  cases hs
  refine ⟨hrun, ?_⟩
  rw [← guard_eq_some.mp hguard]
  cases first with
  | nil => cases hhead
  | cons h t => exact hhead

/-- The mountain range is that of the hashes of the headers, and the best hash is the last one's. -/
structure Tracks (headers : List CircuitBlockHeader) (s : ChainState) : Prop where
  mmr : MmrGuest.appendAll (hashPair cfg.sha256)
    (headers.map (CircuitBlockHeader.computeBlockHash cfg.sha256)) = some s.blockHashesMmr
  best : ∀ header, headers.getLast? = some header →
    s.bestBlockHash = header.computeBlockHash cfg.sha256

theorem Tracks.step {headers : List CircuitBlockHeader} {l l' : LoopState}
    {header : CircuitBlockHeader} (inv : Tracks cfg headers l.state)
    (h : l.applyBlock cfg header = some l') : Tracks cfg (headers ++ [header]) l'.state := by
  obtain ⟨-, -, -, -, mmr, hmmr, rfl⟩ := (LoopState.applyBlock_eq_some cfg).mp h
  constructor
  · rw [List.map_append, MmrGuest.appendAll, foldlM_append_some]
    refine ⟨_, inv.mmr, ?_⟩
    rw [List.map_cons, List.map_nil, foldlM_cons_some]
    exact ⟨mmr, hmmr, rfl⟩
  · intro last hlast
    rw [List.getLast?_concat, Option.some.injEq] at hlast
    rw [← hlast]
    rfl

theorem Tracks.batch {headers batch : List CircuitBlockHeader} {s' : ChainState}
    (inv : Tracks cfg headers s) (h : s.applyBlocks cfg batch = some s') :
    Tracks cfg (headers ++ batch) s' := by
  obtain ⟨l, hrun, hfinish⟩ := Option.bind_eq_some_iff.mp h
  have hinv : Tracks cfg (headers ++ batch) l.state :=
    foldlM_invariant (fun headers l => Tracks cfg headers l.state)
      (fun _ _ _ _ hinv hs => hinv.step cfg hs) (s := LoopState.start cfg s) inv hrun
  -- writing the work back changes neither field
  simp only [LoopState.finish, Option.ite_none_left_eq_some, Option.some.injEq] at hfinish
  obtain ⟨-, -, rfl⟩ := hfinish
  exact ⟨hinv.mmr, hinv.best⟩

theorem Tracks.of_accepted (h : (ChainState.new cfg).applyBatches cfg batches = some s) :
    Tracks cfg batches.flatten s := by
  have inv : Tracks cfg (List.flatten []) (ChainState.new cfg) := ⟨rfl, by simp⟩
  have hrun := foldlM_invariant (fun batches s => Tracks cfg batches.flatten s)
    (fun done batch s s' hinv hs => by
      rw [List.flatten_append, List.flatten_cons, List.flatten_nil, List.append_nil]
      exact hinv.batch cfg hs) inv h
  rwa [List.nil_append] at hrun

end BitvmNode.HeaderChain
