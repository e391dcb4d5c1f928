import BitvmNode.HeaderChain.Circuit
import BitvmNode.HeaderChain.MerkleCompleteness

/-!
# Building payment proofs

The hosts of the watchtower and of the operator build the proof for a transaction from the archive
of headers and the transaction's block.  The circuit meets it with nothing but the mountain range
that the header chain proof leaves.
-/

namespace BitvmNode.HeaderChain

open Reasoning Bitcoin

/-- The height is the position in the archive of headers; `none` stands for a panic. -/
def buildSpv (sha256 : Bytes → Bytes32) (rawTxn : Transaction) (targetBlockPos : UInt32)
    (txdata : List Transaction) (blockHeaders : List CircuitBlockHeader) : Option Spv := do
  let latestSequencerCommitTxid := rawTxn.computeTxid sha256
  let mmrNative ← MmrHost.appendAll (hashPair sha256)
    (blockHeaders.map (CircuitBlockHeader.computeBlockHash sha256))
  let targetBlockHeader ← blockHeaders[targetBlockPos.toNat]?
  let txPos ← txdata.findIdx? fun x => x.computeTxid sha256 = latestSequencerCommitTxid
  let bitcoinMerkleTree :=
    BitcoinMerkleTree.new (merklePair sha256) (txdata.map (Transaction.computeTxid sha256))
  let bitcoinInclusionProof ← bitcoinMerkleTree.generateProof (UInt32.ofNat txPos)
  let root ← bitcoinMerkleTree.root
  guard (verifyMerkleProof (merklePair sha256) latestSequencerCommitTxid bitcoinInclusionProof root)
  let mmrInclusionProof ← mmrNative.generateProof targetBlockPos
  some ⟨rawTxn, bitcoinInclusionProof, targetBlockHeader, mmrInclusionProof.2⟩

variable {sha256 : Bytes → Bytes32} {headers : List CircuitBlockHeader}

/-- The host's range over the headers proves each of them to the guest's. -/
theorem headers_provable {guest : MmrGuest Bytes32} (hbuild : MmrGuest.appendAll (hashPair sha256)
      (headers.map (CircuitBlockHeader.computeBlockHash sha256)) = some guest)
    (hlength : headers.length < 2 ^ 32) {i : UInt32} {header : CircuitBlockHeader}
    (hheader : headers[i.toNat]? = some header) : ∃ host proof, MmrHost.appendAll (hashPair sha256)
        (headers.map (CircuitBlockHeader.computeBlockHash sha256)) = some host ∧
      host.generateProof i = some proof ∧ proof.2.leafIndex = i ∧
      guest.verifyProof (hashPair sha256) (header.computeBlockHash sha256) proof.2 = true := by
  have hi : i.toNat < headers.length := (List.getElem?_eq_some_iff.mp hheader).1
  rw [Consensus.map_computeBlockHash] at hbuild ⊢
  rw [MmrGuest.appendAll_range, Option.some.injEq] at hbuild
  have hproof := MmrHost.generateProof_range (hashPair sha256)
    (Consensus.hashAt sha256 headers) hi hlength
  obtain ⟨subrootIdx, subroot, hsub, hget⟩ :=
    getSubroot_siblings (hashPair sha256) (Consensus.hashAt sha256 headers) hi hlength
  rw [UInt32.ofNat_toNat] at hproof hsub
  refine ⟨_, _, MmrHost.appendAll_range _ _ _, hproof, rfl, ?_⟩
  unfold MmrGuest.verifyProof
  rw [← hbuild, ← Consensus.hashAt_of_get headers sha256 hheader,
    MmrGuest.range_subroots_of_lt _ _ hlength]
  simp only [MmrGuest.range, hsub, hget, decide_true]

theorem txid_provable {txdata : List Transaction} (hlength : txdata.length < 2 ^ 32)
    {transaction : Transaction} (htx : transaction ∈ txdata) {root : Bytes32}
    (hroot : bitcoinMerkleRoot (merklePair sha256) (txdata.map (Transaction.computeTxid sha256)) =
      some root) :
    ∃ txPos proof, txdata.findIdx? (fun x => x.computeTxid sha256 =
        transaction.computeTxid sha256) = some txPos ∧
      (BitcoinMerkleTree.new (merklePair sha256)
        (txdata.map (Transaction.computeTxid sha256))).generateProof (UInt32.ofNat txPos) =
          some proof ∧
      verifyMerkleProof (merklePair sha256) (transaction.computeTxid sha256) proof root = true := by
  obtain ⟨txPos, hfind⟩ := Option.isSome_iff_exists.mp
    (List.findIdx?_isSome.trans (List.any_eq_true.mpr ⟨transaction, htx, decide_eq_true rfl⟩) :
      (txdata.findIdx? fun x => x.computeTxid sha256 = transaction.computeTxid sha256).isSome =
        true)
  obtain ⟨hpos, hsame, -⟩ := List.findIdx?_eq_some_iff_getElem.mp hfind
  have hget : (txdata.map (Transaction.computeTxid sha256))[txPos]? =
    some (transaction.computeTxid sha256) := by
    rw [List.getElem?_map, List.getElem?_eq_getElem hpos, Option.map_some, of_decide_eq_true hsame]
  have htop := BitcoinMerkleTree.root_levels (merklePair sha256) _
    (txdata.map (Transaction.computeTxid sha256)) (Nat.le_succ _)
  rw [hroot] at htop
  obtain ⟨proof, hproof, hverify⟩ := BitcoinMerkleTree.generateProof_verifies (merklePair sha256)
    (by rw [List.length_map]; exact hlength) hget htop
  exact ⟨txPos, proof, hfind, hproof, hverify⟩

variable (cfg : Config)

/-- After any accepted batches the host can prove every transaction of every block of the chain, and
the circuit returns the block's own height. -/
theorem build_spv_accepted {batches : List (List CircuitBlockHeader)} {s : ChainState}
    (haccept : (ChainState.new cfg).applyBatches cfg batches = some s)
    (hchain : batches.flatten.length < 2 ^ 32) {pos : UInt32} {header : CircuitBlockHeader}
    (hheader : batches.flatten[pos.toNat]? = some header) {txdata : List Transaction}
    (hblock : txdata.length < 2 ^ 32) (hroot : bitcoinMerkleRoot (merklePair cfg.sha256)
      (txdata.map (Transaction.computeTxid cfg.sha256)) =
      some header.merkleRoot) {transaction : Transaction} (htx : transaction ∈ txdata) :
    ∃ spv, buildSpv cfg.sha256 transaction pos txdata batches.flatten = some spv ∧
      spv.transaction = transaction ∧
      spv.blockHeader = header ∧ spv.verify cfg.sha256 s.blockHashesMmr = some pos := by
  obtain ⟨host, mmrProof, hhost, hmmrProof, hindex, hrange⟩ :=
    headers_provable (Tracks.of_accepted cfg haccept).mmr hchain hheader
  obtain ⟨txPos, proof, hfind, hproof, hverify⟩ := txid_provable hblock htx hroot
  have htop : (BitcoinMerkleTree.new (merklePair cfg.sha256)
      (txdata.map (Transaction.computeTxid cfg.sha256))).root = some header.merkleRoot :=
    (BitcoinMerkleTree.root_levels _ _ _ (Nat.le_succ _)).trans hroot
  refine ⟨⟨transaction, proof, header, mmrProof.2⟩, ?_, rfl, rfl, ?_⟩
  · unfold buildSpv
    simp only [hhost, hheader, hfind, hproof, htop, hverify, hmmrProof, Option.bind_eq_bind,
      Option.bind_some, guard, if_true, Option.pure_def]
  · exact (Spv.verify_eq_some cfg.sha256).mpr ⟨of_decide_eq_true hverify, hrange, hindex⟩

def genesisCoinbase : Transaction where
  version := 1
  lockTime := 0
  input := [⟨⟨zero32, 0xFFFFFFFF⟩, [0x04, 0xff, 0xff, 0x00, 0x1d, 0x01, 0x04, 0x45] ++
    "The Times 03/Jan/2009 Chancellor on brink of second bailout for banks".toUTF8.data.toList,
    0xFFFFFFFF, []⟩]
  output := [⟨5000000000, [0x41, 0x04] ++
    (beBytes32 0x678afdb0fe5548271967f1a67130b7105cd6a828e03909a67962e0ea1f61deb6).toList ++
    (beBytes32 0x49f6bc3f4cef38c4f35504e51ec112de5c384df7ba0b8d578a4c702b6bf11d5f).toList ++
      [0xac]⟩]

theorem build_spv_accepted_genesis :
    ∃ s spv, (ChainState.new mainnetConfig).applyBatches mainnetConfig
        [[mainnetGenesis], [mainnetBlockOne]] = some s ∧
      buildSpv Sha256.digest genesisCoinbase 0 [genesisCoinbase] [mainnetGenesis, mainnetBlockOne] =
        some spv ∧
      spv.verify Sha256.digest s.blockHashesMmr = some 0 := by
  have haccept : ((ChainState.new mainnetConfig).applyBatches mainnetConfig
      [[mainnetGenesis], [mainnetBlockOne]]).isSome = true := by decide +kernel
  have hheader : [[mainnetGenesis], [mainnetBlockOne]].flatten[(0 : UInt32).toNat]? =
    some mainnetGenesis := rfl
  have hroot : bitcoinMerkleRoot (merklePair Sha256.digest)
      ([genesisCoinbase].map (Transaction.computeTxid Sha256.digest)) =
        some mainnetGenesis.merkleRoot := by
    rw [List.map_singleton, bitcoinMerkleRoot]
    decide +kernel
  obtain ⟨s, hs⟩ := Option.isSome_iff_exists.mp haccept
  obtain ⟨spv, hspv, -, -, hverify⟩ :=
    build_spv_accepted mainnetConfig hs (by decide) hheader (by decide) hroot
    (List.mem_singleton_self genesisCoinbase)
  exact ⟨s, spv, hs, hspv, hverify⟩

end BitvmNode.HeaderChain
