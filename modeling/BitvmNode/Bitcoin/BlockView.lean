import BitvmNode.Bitcoin.ChainView
import Mathlib.Order.Monotone.Basic

/-!
# The chain as blocks

Where a confirmed transaction stands: the height and the hash of its block.  A `Timeline` is the
chain as it is read at successive moments; without a reorganisation the blocks of one moment are the
first blocks of every later one.
-/

namespace BitvmNode.Bitcoin

open Reasoning

structure Block where
  hash : Bytes32
  txs : List Transaction

structure TxStatus where
  confirmed : Bool
  blockHeight : Option Nat
  blockHash : Option Bytes32

structure BlockView (sha256 : Bytes → Bytes32) where
  blocks : List Block
  view : ChainView sha256 []
  confirmed_eq : view.confirmed = blocks.flatMap Block.txs

namespace BlockView

variable {sha256 : Bytes → Bytes32} (btc : BlockView sha256)

def getHeight : Nat := btc.blocks.length - 1

def blockOf (txid : Bytes32) : Option (Block × Nat) :=
  btc.blocks.zipIdx.find? fun block => block.1.txs.any (·.computeTxid sha256 = txid)

def getTxStatus (txid : Bytes32) : TxStatus :=
  match btc.blockOf txid with
  | some (block, height) => ⟨true, some height, some block.hash⟩
  | none => ⟨false, none, none⟩

theorem blockOf_isSome_iff (txid : Bytes32) :
    (btc.blockOf txid).isSome ↔ btc.view.isConfirmed txid = true := by
  rw [blockOf, List.find?_isSome, Ledger.isConfirmed_iff, btc.confirmed_eq]
  constructor
  · rintro ⟨⟨block, height⟩, hblock, hany⟩
    obtain ⟨tx, htx, hid⟩ := List.any_eq_true.mp hany
    exact ⟨tx, List.mem_flatMap.mpr ⟨block, List.fst_mem_of_mem_zipIdx hblock, htx⟩,
      of_decide_eq_true hid⟩
  · rintro ⟨tx, htx, hid⟩
    obtain ⟨block, hblock, htx⟩ := List.mem_flatMap.mp htx
    obtain ⟨height, hheight, rfl⟩ := List.mem_iff_getElem.mp hblock
    exact ⟨(btc.blocks[height], height), List.mk_mem_zipIdx_iff_getElem?.mpr
      (List.getElem?_eq_getElem hheight), List.any_eq_true.mpr ⟨tx, htx, decide_eq_true hid⟩⟩

theorem getTxStatus_confirmed (txid : Bytes32) :
    (btc.getTxStatus txid).confirmed = btc.view.isConfirmed txid := by
  have hiff := btc.blockOf_isSome_iff txid
  unfold getTxStatus
  cases hblock : btc.blockOf txid with
  | none | some found =>
    rw [hblock] at hiff
    simpa using hiff

theorem getTxStatus_eq_of_confirmed {txid : Bytes32} (h : (btc.getTxStatus txid).confirmed = true) :
    ∃ block height, btc.blocks[height]? = some block ∧
      btc.getTxStatus txid = ⟨true, some height, some block.hash⟩ := by
  unfold getTxStatus at h ⊢
  cases hblock : btc.blockOf txid with
  | none =>
    rw [hblock] at h
    cases h
  | some found =>
    obtain ⟨block, height⟩ := found
    have hmem : (block, height) ∈ btc.blocks.zipIdx := List.mem_of_find?_eq_some hblock
    exact ⟨block, height, List.mk_mem_zipIdx_iff_getElem?.mp hmem, rfl⟩

end BlockView

/-- The chain at successive moments.  No txid names two transactions at any of them. -/
structure Timeline (sha256 : Bytes → Bytes32) where
  moment : Nat → BlockView sha256
  noReorg : ∀ i j, i ≤ j → (moment i).blocks <+: (moment j).blocks
  collisionFree : ∀ i j, ∀ t ∈ (moment i).view.known, ∀ u ∈ (moment j).view.known,
    t.computeTxid sha256 = u.computeTxid sha256 → t.stripWitness = u.stripWitness

namespace Timeline

variable {sha256 : Bytes → Bytes32} (timeline : Timeline sha256) {i j : Nat}

theorem extends_of_le (h : i ≤ j) : (timeline.moment i).view.Extends (timeline.moment j).view := by
  refine ⟨fun tx htx => ?_⟩
  rw [(timeline.moment i).confirmed_eq] at htx
  rw [(timeline.moment j).confirmed_eq]
  obtain ⟨block, hblock, htx⟩ := List.mem_flatMap.mp htx
  exact List.mem_flatMap.mpr ⟨block, (timeline.noReorg i j h).subset hblock, htx⟩

theorem getTxStatus_eq (h : i ≤ j) {txid : Bytes32}
    (hconf : (timeline.moment i).view.isConfirmed txid = true) :
    (timeline.moment j).getTxStatus txid = (timeline.moment i).getTxStatus txid := by
  obtain ⟨later, hlater⟩ := timeline.noReorg i j h
  have hsome := ((timeline.moment i).blockOf_isSome_iff txid).mpr hconf
  obtain ⟨found, hfound⟩ := Option.isSome_iff_exists.mp hsome
  have hsame : (timeline.moment j).blockOf txid = some found := by
    rw [BlockView.blockOf] at hfound ⊢
    rw [← hlater, List.zipIdx_append, List.find?_append, hfound, Option.some_or]
  unfold BlockView.getTxStatus
  rw [hsame, hfound]

/-- A spender that is found confirmed at a later moment is the confirmed spender from then on,
although another copy of it may have been reported first. -/
theorem confirmedSpender_of_spentBy {o : OutPoint} {txid : Bytes32}
    (hspent : (timeline.moment i).view.spentBy o = some txid)
    (hconf : (timeline.moment j).view.isConfirmed txid = true) :
    (timeline.moment j).view.confirmedSpender o = some txid := by
  obtain ⟨reported, hreported, hid⟩ := Option.map_eq_some_iff.mp hspent
  obtain ⟨hknown, hspends⟩ := Ledger.of_spender hreported
  obtain ⟨tx, htx, htxid⟩ := Ledger.isConfirmed_iff.mp hconf
  have hsame : reported.stripWitness = tx.stripWitness :=
    timeline.collisionFree i j reported hknown tx (Ledger.mem_known_of_confirmed htx)
      (hid.trans htxid.symm)
  have hspends' : (txModel sha256).spends reported = (txModel sha256).spends tx :=
    (txModel sha256).spends_congr reported tx hsame
  exact Ledger.confirmedSpender_eq_some_iff.mpr ⟨tx, htx, htxid, hspends' ▸ hspends⟩

end Timeline

end BitvmNode.Bitcoin
