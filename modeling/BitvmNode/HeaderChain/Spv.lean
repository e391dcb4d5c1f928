import BitvmNode.Bitcoin.Transaction
import BitvmNode.HeaderChain.MmrProofs
import BitvmNode.HeaderChain.Consensus
import BitvmNode.HeaderChain.MerkleTree

/-!
# Simplified payment verification

A transaction is placed under the Merkle root of a header, and the header at an index of the
mountain range.  What acceptance proves is stated against the strings that were hashed on the way.
-/

namespace BitvmNode.HeaderChain

open Reasoning Bitcoin

variable (sha256 : Bytes → Bytes32)

def txid (transaction : Transaction) : Bytes32 :=
  calculateDoubleSha256 sha256 transaction.encode

def merklePair (left right : Bytes32) : Bytes32 :=
  calculateDoubleSha256 sha256 (left.toList ++ right.toList)

structure Spv where
  transaction : Transaction
  blockInclusionProof : BlockInclusionProof Bytes32
  blockHeader : CircuitBlockHeader
  mmrInclusionProof : MmrInclusionProof Bytes32

namespace Spv

def verify (spv : Spv) (mmrGuest : MmrGuest Bytes32) : Option UInt32 :=
  let blockMerkleRoot :=
    spv.blockInclusionProof.getRoot (merklePair sha256) (HeaderChain.txid sha256 spv.transaction)
  if blockMerkleRoot ≠ spv.blockHeader.merkleRoot then none
  else
    let blockHash := spv.blockHeader.computeBlockHash sha256
    if mmrGuest.verifyProof (hashPair sha256) blockHash spv.mmrInclusionProof then
      some spv.mmrInclusionProof.leafIndex
    else none

theorem verify_eq_some {spv : Spv} {mmrGuest : MmrGuest Bytes32} {height : UInt32} :
    spv.verify sha256 mmrGuest = some height ↔
      spv.blockInclusionProof.getRoot (merklePair sha256)
          (HeaderChain.txid sha256 spv.transaction) =
          spv.blockHeader.merkleRoot ∧
        mmrGuest.verifyProof (hashPair sha256) (spv.blockHeader.computeBlockHash sha256)
          spv.mmrInclusionProof = true ∧
        spv.mmrInclusionProof.leafIndex = height := by
  unfold verify
  simp only [Option.ite_none_left_eq_some, ne_eq, not_not, Option.ite_none_right_eq_some,
    Option.some.injEq]

end Spv

def pairStrings (pairs : List (Bytes32 × Bytes32)) : List Bytes :=
  pairs.map fun q => q.1.toList ++ q.2.toList

theorem pairString_inj {p q : Bytes32 × Bytes32}
    (h : p.1.toList ++ p.2.toList = q.1.toList ++ q.2.toList) : p = q := by
  obtain ⟨h1, h2⟩ := Bytes32.append_inj h
  exact Prod.ext h1 h2

theorem leBytes_u32_inj {x y : UInt32} (h : leBytes 4 x.toNat = leBytes 4 y.toNat) : x = y :=
  UInt32.toNat_inj.mp (leBytes_inj x.toNat_lt y.toNat_lt h)

theorem CircuitBlockHeader.bytes_inj {a b : CircuitBlockHeader} (h : a.bytes = b.bytes) :
    a = b := by
  obtain ⟨h, hnonce⟩ := List.append_inj' h (by simp)
  obtain ⟨h, hbits⟩ := List.append_inj' h (by simp)
  obtain ⟨h, htime⟩ := List.append_inj' h (by simp)
  obtain ⟨h, hmerkle⟩ := List.append_inj' h (by simp)
  obtain ⟨hversion, hprev⟩ := List.append_inj' h (by simp)
  cases a
  cases b
  simp only [CircuitBlockHeader.mk.injEq]
  exact ⟨congrArg Int32.ofUInt32 (leBytes_u32_inj hversion), Vector.toList_inj.mp hprev,
    Vector.toList_inj.mp hmerkle, leBytes_u32_inj htime, leBytes_u32_inj hbits,
    leBytes_u32_inj hnonce⟩

/-- The strings hashed by the headers, by the range over them and by the verification. -/
def rangeStrings (headers : List CircuitBlockHeader) (guest : MmrGuest Bytes32) (spv : Spv) :
    List Bytes :=
  let header := spv.blockHeader
  header.bytes :: (sha256 header.bytes).toList :: headers.map CircuitBlockHeader.bytes ++
    headers.map (fun h => (sha256 h.bytes).toList) ++
    pairStrings (guest.verifyPairs (hashPair sha256) (header.computeBlockHash sha256)
      spv.mmrInclusionProof) ++
    pairStrings (MmrGuest.buildPairs (hashPair sha256) MmrGuest.new
      (headers.map (CircuitBlockHeader.computeBlockHash sha256)))

def treeStrings (spv : Spv) (txids : List Bytes32) : List Bytes :=
  pairStrings (BlockInclusionProof.hashUpPairs (merklePair sha256) spv.blockInclusionProof.idx
      (HeaderChain.txid sha256 spv.transaction) spv.blockInclusionProof.path) ++
    pairStrings (BitcoinMerkleTree.treePairs (merklePair sha256)
      (BitcoinMerkleTree.depth (merklePair sha256) txids) txids)

theorem collision_of_sha256 {strings : List Bytes} {x y : Bytes} (hx : x ∈ strings)
    (hy : y ∈ strings) (hne : x ≠ y) (h : sha256 x = sha256 y) :
    CollisionIn (calculateDoubleSha256 sha256) strings :=
  ⟨x, hx, y, hy, hne, by rw [calculateDoubleSha256, calculateDoubleSha256, h]⟩

/-- The range authenticates the header, up to collisions.  A wrapped range would take a 64 byte pair
for the 32 bytes inside a header's double hash. -/
theorem Spv.header_at {headers : List CircuitBlockHeader} {guest : MmrGuest Bytes32} {spv : Spv}
    (hbuild : MmrGuest.appendAll (hashPair sha256)
      (headers.map (CircuitBlockHeader.computeBlockHash sha256)) = some guest)
    (haccept : guest.verifyProof (hashPair sha256) (spv.blockHeader.computeBlockHash sha256)
      spv.mmrInclusionProof = true) :
    headers[spv.mmrInclusionProof.leafIndex.toNat]? = some spv.blockHeader ∨
      CollisionIn (calculateDoubleSha256 sha256) (rangeStrings sha256 headers guest spv) := by
  have hguest : guest =
      MmrGuest.range (hashPair sha256) (Consensus.hashAt sha256 headers) headers.length := by
    rw [Consensus.map_computeBlockHash, MmrGuest.appendAll_range] at hbuild
    exact (Option.some.inj hbuild).symm
  have hbuilt {q : Bytes32 × Bytes32}
      (hq : TreePair (hashPair sha256) (Consensus.hashAt sha256 headers) 32 headers.length q) :
      q.1.toList ++ q.2.toList ∈ rangeStrings sha256 headers guest spv := by
    have hmem := MmrGuest.treePair_mem_buildPairs _ _ hq
    rw [← Consensus.map_computeBlockHash] at hmem
    exact List.mem_append_right _ (List.mem_map.mpr ⟨q, hmem, rfl⟩)
  have haccept' := haccept
  rw [hguest] at haccept'
  rcases MmrGuest.range_accepts _ _ haccept' with
    ⟨hi, hx⟩ | ⟨p, hp, q, hq, hne, heq⟩ | ⟨-, q, hq, hx⟩
  · -- the two headers have one hash
    obtain ⟨header, hheader⟩ : ∃ header, headers[spv.mmrInclusionProof.leafIndex.toNat]? =
      some header :=
      ⟨_, List.getElem?_eq_getElem hi⟩
    rw [Consensus.hashAt_of_get headers sha256 hheader] at hx
    by_cases hbytes : spv.blockHeader.bytes = header.bytes
    · left
      rw [CircuitBlockHeader.bytes_inj hbytes]
      exact hheader
    · right
      refine ⟨_, ?_, _, ?_, hbytes, hx⟩
      · simp [rangeStrings]
      · have hmem : header.bytes ∈ headers.map CircuitBlockHeader.bytes :=
          List.mem_map_of_mem (List.mem_of_getElem? hheader)
        simp only [rangeStrings, List.cons_append, List.mem_cons, List.mem_append, hmem,
          true_or, or_true]
  · right
    refine collision_of_sha256 sha256 ?_ (hbuilt hq) (fun h => hne (pairString_inj h)) heq
    have hmem : p.1.toList ++ p.2.toList ∈ pairStrings (guest.verifyPairs (hashPair sha256)
        (spv.blockHeader.computeBlockHash sha256) spv.mmrInclusionProof) := by
      rw [hguest]
      exact List.mem_map.mpr ⟨p, hp, rfl⟩
    simp only [rangeStrings, List.cons_append, List.mem_cons, List.mem_append, hmem,
      true_or, or_true]
  · right
    refine collision_of_sha256 sha256 (x := (sha256 spv.blockHeader.bytes).toList) ?_
      (hbuilt hq) ?_ hx
    · simp [rangeStrings]
    · intro h
      have hlen := congrArg List.length h
      simp at hlen

theorem Spv.txid_mem {spv : Spv} {txids : List Bytes32}
    (hroot : (BitcoinMerkleTree.new (merklePair sha256) txids).root =
      some (spv.blockInclusionProof.getRoot (merklePair sha256)
        (HeaderChain.txid sha256 spv.transaction)))
    (hdepth : spv.blockInclusionProof.path.length =
      BitcoinMerkleTree.depth (merklePair sha256) txids) :
    HeaderChain.txid sha256 spv.transaction ∈ txids ∨
      CollisionIn (calculateDoubleSha256 sha256) (treeStrings sha256 spv txids) := by
  have hmem := BitcoinMerkleTree.root_mem _ hroot
  rw [← hdepth] at hmem
  rcases BitcoinMerkleTree.hashUp_mem _ hmem with hx | ⟨p, hp, q, hq, hne, heq⟩
  · exact Or.inl hx
  · right
    refine ⟨_, List.mem_append_left _ (List.mem_map.mpr ⟨p, hp, rfl⟩), _,
      List.mem_append_right _ (List.mem_map.mpr ⟨q, ?_, rfl⟩), fun h => hne (pairString_inj h), heq⟩
    rw [← hdepth]
    exact hq

/-- An accepted transaction is at the returned height and in its block, if the Merkle path is as
long as the block's tree is deep. -/
theorem spv_verify_sound (headers : List CircuitBlockHeader) (guest : MmrGuest Bytes32) (spv : Spv)
    (height : UInt32) (txids : List Bytes32) (hbuild : MmrGuest.appendAll (hashPair sha256)
      (headers.map (CircuitBlockHeader.computeBlockHash sha256)) = some guest)
    (haccept : spv.verify sha256 guest = some height)
    (hroot : (BitcoinMerkleTree.new (merklePair sha256) txids).root =
      some spv.blockHeader.merkleRoot)
    (hdepth : spv.blockInclusionProof.path.length =
      BitcoinMerkleTree.depth (merklePair sha256) txids) :
    (headers[height.toNat]? = some spv.blockHeader ∧
        HeaderChain.txid sha256 spv.transaction ∈ txids) ∨
      CollisionIn (calculateDoubleSha256 sha256)
        (rangeStrings sha256 headers guest spv ++ treeStrings sha256 spv txids) := by
  obtain ⟨hmerkle, hrange, rfl⟩ := (Spv.verify_eq_some sha256).mp haccept
  rcases Spv.header_at sha256 hbuild hrange with hheader | hcol
  · rw [← hmerkle] at hroot
    rcases Spv.txid_mem sha256 hroot hdepth with htx | hcol
    · exact Or.inl ⟨hheader, htx⟩
    · exact Or.inr (hcol.mono fun q hq => List.mem_append_right _ hq)
  · exact Or.inr (hcol.mono fun q hq => List.mem_append_left _ hq)

def coinbaseTx : Transaction where
  version := 2
  lockTime := 439
  input := [⟨⟨Vector.replicate 32 0, 0xFFFFFFFF⟩, [0x51, 0x00], 0xFFFFFFFF, []⟩]
  output := [⟨5000000000, [0x51]⟩]

def spendTx : Transaction where
  version := 2
  lockTime := 1670063
  input := [⟨⟨Vector.replicate 32 0x11, 0⟩, [], 0xFFFFFFFF, []⟩]
  output := [⟨1000, [0x51]⟩]

/-- The 64 bytes hashed into the root of that block, read as a transaction. -/
def nodeTx : Transaction where
  version := 596734633
  lockTime := 1797636631
  input :=
    [⟨⟨beBytes32 0x71e01b292a71f955121a8a9e592110ee785d3b9fb0ddf4c82bebbd866e54cba8, 436203327⟩,
    [0xa0, 0xb5, 0x4f, 0x93], 0x593f8913, []⟩]
  output := [⟨18276965838393415691, []⟩]

def nodeHeader : CircuitBlockHeader where
  version := 0x20000000
  prevBlockHash := Vector.replicate 32 0
  merkleRoot := merklePair Sha256.digest (HeaderChain.txid Sha256.digest coinbaseTx)
    (HeaderChain.txid Sha256.digest spendTx)
  time := 1296688602
  bits := 0x207fffff
  nonce := 2

def nodeSpv : Spv where
  transaction := nodeTx
  blockInclusionProof := ⟨0, []⟩
  blockHeader := nodeHeader
  mmrInclusionProof := ⟨0, []⟩

/-- With an empty path the root itself is a transaction id: `nodeTx` is accepted although the block
has two other transactions. -/
theorem spv_accepts_inner_node :
    let txids := [HeaderChain.txid Sha256.digest coinbaseTx, HeaderChain.txid Sha256.digest spendTx]
    let guest : MmrGuest Bytes32 := ⟨[nodeHeader.computeBlockHash Sha256.digest], 1⟩
    MmrGuest.appendAll (hashPair Sha256.digest)
        ([nodeHeader].map (CircuitBlockHeader.computeBlockHash Sha256.digest)) = some guest ∧
      nodeSpv.verify Sha256.digest guest = some 0 ∧
      (BitcoinMerkleTree.new (merklePair Sha256.digest) txids).root =
        some nodeSpv.blockHeader.merkleRoot ∧
      HeaderChain.txid Sha256.digest nodeSpv.transaction ∉ txids ∧
      ¬ CollisionIn (calculateDoubleSha256 Sha256.digest)
        (rangeStrings Sha256.digest [nodeHeader] guest nodeSpv ++
          treeStrings Sha256.digest nodeSpv txids) := by
  unfold CollisionIn
  decide +kernel

def spendSpv : Spv where
  transaction := spendTx
  blockInclusionProof := ⟨1, [HeaderChain.txid Sha256.digest coinbaseTx]⟩
  blockHeader := nodeHeader
  mmrInclusionProof := ⟨0, []⟩

theorem spv_verify_sound_spend :
    let txids := [HeaderChain.txid Sha256.digest coinbaseTx, HeaderChain.txid Sha256.digest spendTx]
    let guest : MmrGuest Bytes32 := ⟨[nodeHeader.computeBlockHash Sha256.digest], 1⟩
    spendSpv.verify Sha256.digest guest = some 0 ∧
      (([nodeHeader][(0 : UInt32).toNat]? = some nodeHeader ∧
          HeaderChain.txid Sha256.digest spendTx ∈ txids) ∨
        CollisionIn (calculateDoubleSha256 Sha256.digest)
          (rangeStrings Sha256.digest [nodeHeader] guest spendSpv ++
            treeStrings Sha256.digest spendSpv txids)) := by
  intro txids guest
  have hbuild : MmrGuest.appendAll (hashPair Sha256.digest)
      ([nodeHeader].map (CircuitBlockHeader.computeBlockHash Sha256.digest)) = some guest := by
    decide +kernel
  have haccept : spendSpv.verify Sha256.digest guest = some 0 := by decide +kernel
  have hroot : (BitcoinMerkleTree.new (merklePair Sha256.digest) txids).root =
      some spendSpv.blockHeader.merkleRoot := by decide +kernel
  have hdepth : spendSpv.blockInclusionProof.path.length =
      BitcoinMerkleTree.depth (merklePair Sha256.digest) txids := by decide +kernel
  exact ⟨haccept, spv_verify_sound Sha256.digest [nodeHeader] guest spendSpv 0 txids hbuild haccept
    hroot hdepth⟩

end BitvmNode.HeaderChain
