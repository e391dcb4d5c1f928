import BitvmNode.Wallet.CoinSelection

/-!
# Paying for transactions

The node completes a transaction with inputs of its own, or leaves it as it is and attaches a child
that pays for both.
-/

namespace BitvmNode.Wallet

open Reasoning Bitcoin

inductive BtcNetwork where
  | bitcoin
  | testnet
  | testnet4
  | signet
  | regtest
  deriving DecidableEq

inductive BuildError where
  | panic (panic : Panic)
  | insufficientBalance (message : String)
  deriving DecidableEq

/-- The node's address with its outputs, and what the libraries give it: the fee rate, the scripts,
the witness of an input and the text of an amount.  `balance` are the outputs when they are read
again. -/
structure NodeWallet where
  utxos : UtxoSet
  balance : List Utxo
  fees : FeeSchedule
  dustAmount : Nat
  scriptPubkey : Bytes
  opreturnScript : Bytes
  witness : Transaction → Nat → UInt64 → List Bytes
  display : Nat → String

structure Funded where
  tx : Transaction
  inputs : List Input
  deriving DecidableEq

def liftPanic {α : Type} (x : Except Panic α) : Except BuildError α :=
  match x with
  | .ok a => .ok a
  | .error panic => .error (.panic panic)

def outputTotal (outputs : List TxOut) : Nat :=
  worth (fun output : TxOut => output.value.toNat) outputs

def vbytes (tx : Transaction) : Nat := Transaction.toVbytesCeil tx.weight

def Input.toTxIn (input : Input) : TxIn := ⟨input.outpoint, [], 0xFFFFFFFF, []⟩

section Builders

variable (wallet : NodeWallet)

def nodeSign (tx : Transaction) (inputIndex : Nat) (inputValue : UInt64) : Transaction :=
  { tx with
    input := tx.input.modify inputIndex fun txin =>
      { txin with witness := wallet.witness tx inputIndex inputValue } }

def signInputs (offset : Nat) (tx : Transaction) (inputs : List Input) : Transaction :=
  inputs.zipIdx.foldl (fun tx (input, i) => nodeSign wallet tx (i + offset) input.amount) tx

/-- A transaction has at least one output. -/
def atLeastOneOutput (txouts : List TxOut) : List TxOut :=
  if txouts.isEmpty then [⟨0, wallet.opreturnScript⟩] else txouts

def buildSignAndBroadcastTx (txins : List TxIn) (totalInputAmount : Nat) (txouts : List TxOut) :
    Except BuildError Funded := do
  let tx : Transaction := ⟨2, 0, txins, atLeastOneOutput wallet txouts⟩
  let totalOutputAmount := sumAmounts (tx.output.map TxOut.value)
  let shortfall := totalOutputAmount.toNat - totalInputAmount
  let found ← liftPanic (getProperUtxoSet wallet.fees (vbytes tx) shortfall wallet.utxos)
  match found with
  | some (inputs, _, changeAmount) =>
      let tx := { tx with input := tx.input ++ inputs.map Input.toTxIn }
      let tx :=
        if wallet.dustAmount < changeAmount then
          { tx with output := tx.output ++ [⟨UInt64.ofNat changeAmount, wallet.scriptPubkey⟩] }
        else tx
      .ok ⟨signInputs wallet txins.length tx inputs, inputs⟩
  | none =>
      let currentBalance := sumAmounts (wallet.balance.map Utxo.value)
      let balanceText := wallet.display currentBalance.toNat
      let shortfallText := wallet.display shortfall
      .error (.insufficientBalance ("Not enough balance to complete the transaction, " ++
        s!"current_balance: {balanceText} < shortfall: {shortfallText}"))

/-- The child that pays for its parent too, if the parent does not pay enough itself. -/
def buildCpfpTxns (sha256 : Bytes → Bytes32) (network : BtcNetwork) (parentTx : Transaction)
    (anchorVout : UInt32) (parentTxTotalInputAmount : Nat) : Except BuildError (Option Funded) := do
  if network = .regtest ∨ network = .testnet ∨ network = .testnet4 then .ok none
  else do
    let totalOutputAmount := sumAmounts (parentTx.output.map TxOut.value)
    let feeAmount := wallet.fees.fee (vbytes parentTx)
    let needed ← liftPanic (checkedAdd totalOutputAmount.toNat feeAmount)
    if needed ≤ parentTxTotalInputAmount then .ok none
    else do
      let shortfall ← liftPanic (checkedSub needed parentTxTotalInputAmount)
      let found ← liftPanic
        (getProperUtxoSet wallet.fees anchorChildBaseVbytes shortfall wallet.utxos)
      match found with
      | some (inputs, _, changeAmount) =>
          let output : TxOut :=
            if wallet.dustAmount < changeAmount then
              ⟨UInt64.ofNat changeAmount, wallet.scriptPubkey⟩
            else ⟨0, wallet.opreturnScript⟩
          let anchor : TxIn := ⟨⟨parentTx.computeTxid sha256, anchorVout⟩, [], 0xFFFFFFFF, []⟩
          let childTx : Transaction := ⟨2, 0, inputs.map Input.toTxIn ++ [anchor], [output]⟩
          .ok (some ⟨signInputs wallet 0 childTx inputs, inputs⟩)
      | none =>
          let currentBalance := sumAmounts (wallet.balance.map Utxo.value)
          let balanceText := wallet.display currentBalance.toNat
          .error (.insufficientBalance ("Not enough balance to complete the transaction, " ++
            s!"current_balance: {balanceText}"))

end Builders

theorem liftPanic_eq_ok_iff {α : Type} {x : Except Panic α} {a : α} :
    liftPanic x = .ok a ↔ x = .ok a := by
  cases x <;> simp [liftPanic]

section Signing

variable {wallet : NodeWallet}

theorem nodeSign_output (tx : Transaction) (i : Nat) (value : UInt64) :
    (nodeSign wallet tx i value).output = tx.output := rfl

theorem nodeSign_outpoints (tx : Transaction) (i : Nat) (value : UInt64) :
    (nodeSign wallet tx i value).input.map TxIn.previousOutput =
      tx.input.map TxIn.previousOutput := by
  apply List.ext_getElem?
  intro j
  rw [nodeSign, List.getElem?_map, List.getElem?_map, List.getElem?_modify]
  cases tx.input[j]? with
  | none => rfl
  | some txin =>
    by_cases hj : i = j
    · simp [hj]
    · simp [hj]

theorem signInputs_spec (offset : Nat) (tx : Transaction) (inputs : List Input) :
    (signInputs wallet offset tx inputs).output = tx.output ∧
      (signInputs wallet offset tx inputs).input.map TxIn.previousOutput =
        tx.input.map TxIn.previousOutput := by
  unfold signInputs
  generalize inputs.zipIdx = indexed
  induction indexed generalizing tx with
  | nil => exact ⟨rfl, rfl⟩
  | cons entry indexed ih =>
    obtain ⟨houtput, hinput⟩ := ih (nodeSign wallet tx (entry.2 + offset) entry.1.amount)
    exact ⟨houtput.trans (nodeSign_output _ _ _), hinput.trans (nodeSign_outpoints _ _ _)⟩

end Signing

section Paid

variable {wallet : NodeWallet} {baseVbytes targetAmount fee change : Nat} {inputs : List Input}

def FromWallet (wallet : UtxoSet) (inputs : List Input) : Prop :=
  ∃ selected, inputs = toInput selected ∧ (selected : Multiset Utxo) ≤ wallet.utxos

theorem worth_le_of_le {selected utxos : List Utxo} (h : (selected : Multiset Utxo) ≤ utxos) :
    worth Utxo.satoshi selected ≤ worth Utxo.satoshi utxos := by
  obtain ⟨others, hothers⟩ := Multiset.le_iff_exists_add.mp h
  have hsum := congrArg (fun s => (s.map Utxo.satoshi).sum) hothers
  simp only [Multiset.map_add, Multiset.sum_add, Multiset.map_coe, Multiset.sum_coe] at hsum
  unfold worth
  omega

section

variable (h : getProperUtxoSet wallet.fees baseVbytes targetAmount wallet.utxos =
    .ok (some (inputs, fee, change)))

include h

theorem toNat_change : (UInt64.ofNat change).toNat = change := by
  obtain ⟨selected, rfl, hle, -, -, -, hsum⟩ := getProperUtxoSet_spec h
  have hworth := worth_le_of_le hle
  have hsupply := wallet.utxos.supply
  rw [worth_toInput] at hsum
  exact UInt64.toNat_ofNat_of_lt (by change change < 2 ^ 64; omega)

theorem outputTotal_change (script : Bytes) :
    outputTotal [⟨UInt64.ofNat change, script⟩] = change := by
  rw [outputTotal, worth_cons, worth_nil, toNat_change h, Nat.add_zero]

end

theorem sumAmounts_outputs {outputs : List TxOut} (h : outputTotal outputs < 2 ^ 64) :
    (sumAmounts (outputs.map TxOut.value)).toNat = outputTotal outputs := by
  have hmap : (outputs.map TxOut.value).map UInt64.toNat =
      outputs.map fun output => output.value.toNat := List.map_map
  rw [toNat_sumAmounts (by rwa [hmap]), hmap]
  rfl

theorem outputTotal_atLeastOneOutput (wallet : NodeWallet) (txouts : List TxOut) :
    outputTotal (atLeastOneOutput wallet txouts) = outputTotal txouts := by
  cases txouts <;> rfl

/-- The outputs stand first, the wallet's inputs follow the given ones, and all inputs together
cover the outputs and the fee of the estimated size. -/
structure Completes (wallet : NodeWallet) (txins : List TxIn) (totalInputAmount : Nat)
    (txouts : List TxOut) (funded : Funded) : Prop where
  outputs : atLeastOneOutput wallet txouts <+: funded.tx.output
  outpoints : funded.tx.input.map TxIn.previousOutput =
    txins.map TxIn.previousOutput ++ funded.inputs.map Input.outpoint
  fromWallet : FromWallet wallet.utxos funded.inputs
  covers : outputTotal funded.tx.output +
      feeFor wallet.fees (vbytes ⟨2, 0, txins, atLeastOneOutput wallet txouts⟩)
        funded.inputs.length ≤
    totalInputAmount + worth Input.satoshi funded.inputs

theorem buildSignAndBroadcastTx_pays {txins : List TxIn} {totalInputAmount : Nat}
    {txouts : List TxOut} {funded : Funded} (hamounts : outputTotal txouts < 2 ^ 64)
    (h : buildSignAndBroadcastTx wallet txins totalInputAmount txouts = .ok funded) :
    Completes wallet txins totalInputAmount txouts funded := by
  have hout := outputTotal_atLeastOneOutput wallet txouts
  dsimp only [buildSignAndBroadcastTx] at h
  rw [sumAmounts_outputs (by omega), hout] at h
  set outputs := atLeastOneOutput wallet txouts
  obtain ⟨found, hfound, h⟩ := except_bind_eq_ok.mp h
  rw [liftPanic_eq_ok_iff] at hfound
  cases found with
  | none => cases h
  | some found =>
    obtain ⟨inputs, fee, change⟩ := found
    obtain ⟨selected, hselected, hle, -, -, hfee, hsum⟩ := getProperUtxoSet_spec hfound
    cases h
    refine ⟨?_, ?_, ⟨selected, hselected, hle⟩, ?_⟩
    · dsimp only
      rw [(signInputs_spec _ _ _).1]
      split
      · exact List.prefix_append _ _
      · exact List.prefix_rfl
    · dsimp only
      rw [(signInputs_spec _ _ _).2]
      split <;> simp [Input.toTxIn, Function.comp_def]
    · dsimp only
      rw [(signInputs_spec _ _ _).1, ← hfee]
      split
      · have hchange := outputTotal_change hfound wallet.scriptPubkey
        have happend : outputTotal (outputs ++ [⟨UInt64.ofNat change, wallet.scriptPubkey⟩]) =
            outputTotal outputs + outputTotal [⟨UInt64.ofNat change, wallet.scriptPubkey⟩] :=
          worth_append _ _
        dsimp only
        omega
      · dsimp only
        omega

/-- The child spends the wallet's inputs and the anchor, and with them covers what its parent and it
pay out and the fees of both. -/
structure PaysForBoth (wallet : NodeWallet) (sha256 : Bytes → Bytes32) (parentTx : Transaction)
    (anchorVout : UInt32) (parentTxTotalInputAmount : Nat) (funded : Funded) : Prop where
  outpoints : funded.tx.input.map TxIn.previousOutput =
    funded.inputs.map Input.outpoint ++ [⟨parentTx.computeTxid sha256, anchorVout⟩]
  fromWallet : FromWallet wallet.utxos funded.inputs
  covers : outputTotal parentTx.output + outputTotal funded.tx.output +
      (wallet.fees.fee (vbytes parentTx) +
        feeFor wallet.fees anchorChildBaseVbytes funded.inputs.length) ≤
    parentTxTotalInputAmount + worth Input.satoshi funded.inputs

theorem buildCpfpTxns_pays {sha256 : Bytes → Bytes32} {network : BtcNetwork}
    {parentTx : Transaction} {anchorVout : UInt32} {parentTxTotalInputAmount : Nat}
    {funded : Funded} (hamounts : outputTotal parentTx.output < 2 ^ 64)
    (h : buildCpfpTxns wallet sha256 network parentTx anchorVout parentTxTotalInputAmount =
      .ok (some funded)) :
    PaysForBoth wallet sha256 parentTx anchorVout parentTxTotalInputAmount funded := by
  unfold buildCpfpTxns at h
  split at h
  · cases h
  dsimp only at h
  rw [sumAmounts_outputs hamounts] at h
  obtain ⟨needed, hneeded, h⟩ := except_bind_eq_ok.mp h
  rw [liftPanic_eq_ok_iff] at hneeded
  obtain ⟨-, hneeded⟩ := checkedAdd_eq_ok_iff.mp hneeded
  split at h
  · cases h
  rename_i hshort
  obtain ⟨shortfall, hshortfall, h⟩ := except_bind_eq_ok.mp h
  obtain ⟨found, hfound, h⟩ := except_bind_eq_ok.mp h
  rw [liftPanic_eq_ok_iff] at hshortfall hfound
  rw [checkedSub, if_pos (by omega)] at hshortfall
  cases hshortfall
  cases found with
  | none => cases h
  | some found =>
    obtain ⟨inputs, fee, change⟩ := found
    obtain ⟨selected, hselected, hle, -, -, hfee, hsum⟩ := getProperUtxoSet_spec hfound
    cases h
    refine ⟨?_, ⟨selected, hselected, hle⟩, ?_⟩
    · dsimp only
      rw [(signInputs_spec _ _ _).2]
      simp [Input.toTxIn, Function.comp_def]
    · dsimp only
      rw [(signInputs_spec _ _ _).1, ← hfee]
      split
      · rw [outputTotal_change hfound]
        omega
      · have hzero : outputTotal [⟨0, wallet.opreturnScript⟩] = 0 := rfl
        rw [hzero]
        omega

theorem liftPanic_ne {α : Type} {x : Except Panic α} {panic : Panic} (h : x ≠ .error panic) :
    liftPanic x ≠ .error (.panic panic) := by
  intro hlift
  cases x with
  | ok a => cases hlift
  | error other =>
    cases hlift
    exact h rfl

theorem bind_ne_error {ε α β : Type} {x : Except ε α} {f : α → Except ε β} {err : ε}
    (hx : x ≠ .error err) (hf : ∀ a, x = .ok a → f a ≠ .error err) : (x >>= f) ≠ .error err := by
  cases x with
  | ok a => exact hf a rfl
  | error other =>
    intro h
    cases h
    exact hx rfl

theorem buildSignAndBroadcastTx_ne_subtraction (txins : List TxIn) (totalInputAmount : Nat)
    (txouts : List TxOut) :
    buildSignAndBroadcastTx wallet txins totalInputAmount txouts ≠
      .error (.panic .subtraction) := by
  apply bind_ne_error (liftPanic_ne getProperUtxoSet_ne_subtraction)
  intro found _
  cases found <;> rintro ⟨⟩

theorem buildCpfpTxns_ne_subtraction (sha256 : Bytes → Bytes32) (network : BtcNetwork)
    (parentTx : Transaction) (anchorVout : UInt32) (parentTxTotalInputAmount : Nat) :
    buildCpfpTxns wallet sha256 network parentTx anchorVout parentTxTotalInputAmount ≠
      .error (.panic .subtraction) := by
  unfold buildCpfpTxns
  split
  · rintro ⟨⟩
  apply bind_ne_error
  · apply liftPanic_ne
    unfold checkedAdd
    split <;> rintro ⟨⟩
  intro needed _
  split
  · rintro ⟨⟩
  rename_i hshort
  -- the shortfall is only computed when the parent does not pay enough
  rw [checkedSub, if_pos (by omega)]
  apply bind_ne_error (fun h => by cases h)
  intro shortfall _
  apply bind_ne_error (liftPanic_ne getProperUtxoSet_ne_subtraction)
  intro found _
  cases found <;> rintro ⟨⟩

end Paid

/-- Inputs are found exactly if some outputs of the wallet, not more than allowed, cover the target
and the fee for their number; they are used up by target, fee and change, and a completed
transaction or a child pays at least the fees of the estimated sizes, unless the sum of the amounts
to be paid wraps. -/
theorem coin_selection_complete_and_pays :
    (∀ (fees : FeeSchedule) (baseVbytes targetAmount : Nat) (wallet : UtxoSet),
      ((∃ found, getProperUtxoSet fees baseVbytes targetAmount wallet = .ok (some found)) ↔
        ∃ s : Multiset Utxo, s ≤ wallet.utxos ∧ s ≠ 0 ∧ s.card ≤ maxCustomInputs ∧
          targetAmount + feeFor fees baseVbytes s.card ≤ (s.map Utxo.satoshi).sum) ∧
      (∀ inputs fee change,
        getProperUtxoSet fees baseVbytes targetAmount wallet = .ok (some (inputs, fee, change)) →
        fee = feeFor fees baseVbytes inputs.length ∧
          worth Input.satoshi inputs = targetAmount + fee + change) ∧
      getProperUtxoSet fees baseVbytes targetAmount wallet ≠ .error .subtraction) ∧
    (∀ (wallet : NodeWallet) (txins : List TxIn) (totalInputAmount : Nat) (txouts : List TxOut),
      (outputTotal txouts < 2 ^ 64 →
        ∀ funded, buildSignAndBroadcastTx wallet txins totalInputAmount txouts = .ok funded →
        Completes wallet txins totalInputAmount txouts funded) ∧
      buildSignAndBroadcastTx wallet txins totalInputAmount txouts ≠
        .error (.panic .subtraction)) ∧
    ∀ (wallet : NodeWallet) (sha256 : Bytes → Bytes32) (network : BtcNetwork)
      (parentTx : Transaction) (anchorVout : UInt32) (parentTxTotalInputAmount : Nat),
      (outputTotal parentTx.output < 2 ^ 64 → ∀ funded,
        buildCpfpTxns wallet sha256 network parentTx anchorVout parentTxTotalInputAmount =
          .ok (some funded) →
        PaysForBoth wallet sha256 parentTx anchorVout parentTxTotalInputAmount funded) ∧
      buildCpfpTxns wallet sha256 network parentTx anchorVout parentTxTotalInputAmount ≠
        .error (.panic .subtraction) := by
  refine ⟨?_, ?_, ?_⟩
  · intro fees baseVbytes targetAmount wallet
    refine ⟨exists_getProperUtxoSet_iff, ?_, getProperUtxoSet_ne_subtraction⟩
    intro inputs fee change h
    obtain ⟨-, -, -, -, -, hfee, hsum⟩ := getProperUtxoSet_spec h
    exact ⟨hfee, hsum⟩
  · intro wallet txins totalInputAmount txouts
    exact ⟨fun hamounts funded => buildSignAndBroadcastTx_pays hamounts,
      buildSignAndBroadcastTx_ne_subtraction txins totalInputAmount txouts⟩
  · intro wallet sha256 network parentTx anchorVout parentTxTotalInputAmount
    exact ⟨fun hamounts funded => buildCpfpTxns_pays hamounts,
      buildCpfpTxns_ne_subtraction sha256 network parentTx anchorVout parentTxTotalInputAmount⟩

namespace TwoOutputs

def coin : Utxo := ⟨⟨⟨Array.replicate 32 2, rfl⟩, 1⟩, 90000⟩

def smallCoin : Utxo := ⟨⟨⟨Array.replicate 32 1, rfl⟩, 0⟩, 3000⟩

def utxos : List Utxo := [smallCoin, coin]

def wallet : NodeWallet where
  utxos := ⟨utxos, by decide⟩
  balance := utxos
  fees := .ofRate (5 / 2) (by norm_num)
  dustAmount := 546
  scriptPubkey := [0, 32]
  opreturnScript := [0x6a]
  witness _ _ _ := [[]]
  display := toString

def spending (outputs : List TxOut) : Funded :=
  ⟨⟨2, 0, [⟨coin.outpoint, [], 0xFFFFFFFF, [[]]⟩], outputs⟩, [⟨coin.outpoint, coin.value⟩]⟩

def payment : List TxOut := [⟨50000, [0, 32]⟩]

theorem sortUtxos_wallet : sortUtxos wallet.utxos.utxos = [coin, smallCoin] := by
  simp [sortUtxos, wallet, utxos, coin, smallCoin, List.mergeSort,
    List.MergeSort.Internal.splitInTwo]

theorem build_payment : buildSignAndBroadcastTx wallet [] 0 payment =
    .ok (spending [⟨50000, [0, 32]⟩, ⟨39570, [0, 32]⟩]) := by
  unfold buildSignAndBroadcastTx getProperUtxoSet
  rw [sortUtxos_wallet]
  decide +kernel

theorem build_empty : buildSignAndBroadcastTx wallet [] 0 [] =
    .ok (spending [⟨0, [0x6a]⟩, ⟨89572, [0, 32]⟩]) := by
  unfold buildSignAndBroadcastTx getProperUtxoSet
  rw [sortUtxos_wallet]
  decide +kernel

/-- A payment with change, and an empty list of outputs. -/
theorem payments_cover_fees :
    (buildSignAndBroadcastTx wallet [] 0 payment =
        .ok (spending [⟨50000, [0, 32]⟩, ⟨39570, [0, 32]⟩]) ∧
      50000 + 39570 + feeFor wallet.fees (vbytes ⟨2, 0, [], payment⟩) 1 ≤ 90000) ∧
    buildSignAndBroadcastTx wallet [] 0 [] =
        .ok (spending [⟨0, [0x6a]⟩, ⟨89572, [0, 32]⟩]) ∧
      89572 + feeFor wallet.fees (vbytes ⟨2, 0, [], [⟨0, [0x6a]⟩]⟩) 1 ≤ 90000 := by
  obtain ⟨-, hbuild, -⟩ := coin_selection_complete_and_pays
  have hpayment := (hbuild wallet [] 0 payment).1 (by decide) _ build_payment
  have hempty := (hbuild wallet [] 0 []).1 (by decide) _ build_empty
  exact ⟨⟨build_payment, hpayment.covers⟩, build_empty, hempty.covers⟩

def halfRange : UInt64 := 0x8000000000000000

/-- Two amounts whose sum wraps to zero are paid from a single small output. -/
theorem wrapped_payment_exceeds_inputs :
    buildSignAndBroadcastTx wallet [] 0 [⟨halfRange, []⟩, ⟨halfRange, []⟩] =
        .ok (spending [⟨halfRange, []⟩, ⟨halfRange, []⟩, ⟨89552, [0, 32]⟩]) ∧
      worth Input.satoshi (spending []).inputs <
        outputTotal [⟨halfRange, []⟩, ⟨halfRange, []⟩, ⟨89552, [0, 32]⟩] := by
  constructor
  · unfold buildSignAndBroadcastTx getProperUtxoSet
    rw [sortUtxos_wallet]
    decide +kernel
  · decide +kernel

end TwoOutputs

end BitvmNode.Wallet
