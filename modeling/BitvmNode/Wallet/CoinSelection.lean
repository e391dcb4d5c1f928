import BitvmNode.Bitcoin.ChainView
import BitvmNode.Reasoning.Floats
import BitvmNode.Reasoning.GreedySums
import BitvmNode.Reasoning.Runs

/-!
# Coin selection

The node pays for its transactions with the outputs of its own address: the largest ones first,
until they cover what is missing and the fee of a transaction with so many inputs and a change
output.
-/

namespace BitvmNode.Wallet

open Reasoning Bitcoin

def maxCustomInputs : Nat := 100

def checksigP2wshInputVbytesEstimate : Nat := 100

def p2wshOutputVbytes : Nat := 50

def anchorChildBaseVbytes : Nat := 200

inductive Panic where
  | addition
  | subtraction
  deriving DecidableEq

/-- An amount is a 64-bit number of satoshi; adding two that do not fit is a panic. -/
def checkedAdd (a b : Nat) : Except Panic Nat :=
  if a + b < 2 ^ 64 then .ok (a + b) else .error .addition

def checkedSub (a b : Nat) : Except Panic Nat := if b ≤ a then .ok (a - b) else .error .subtraction

theorem checkedAdd_eq_ok_iff {a b c : Nat} :
    checkedAdd a b = .ok c ↔ a + b < 2 ^ 64 ∧ c = a + b := by
  unfold checkedAdd
  by_cases h : a + b < 2 ^ 64
  · rw [if_pos h]
    exact ⟨fun hc => ⟨h, (Except.ok.inj hc).symm⟩, fun hc => congrArg Except.ok hc.2.symm⟩
  · rw [if_neg h]
    exact ⟨fun hc => (by cases hc), fun hc => absurd hc.1 h⟩

structure FeeSchedule where
  fee : Nat → Nat
  mono : Monotone fee

/-- The fee in the source: the product in floating point, rounded up and cast to satoshi. -/
def FeeSchedule.ofRate (feeRate : ℚ) (hrate : 0 ≤ feeRate) : FeeSchedule where
  fee vbytes := min ⌈f64 (f64 vbytes * feeRate)⌉.toNat (2 ^ 64 - 1)
  mono := by
    intro vbytes vbytes' hle
    have hsize : f64 vbytes ≤ f64 vbytes' := f64_monotone (by exact_mod_cast hle)
    have hproduct := f64_monotone (mul_le_mul_of_nonneg_right hsize hrate)
    exact min_le_min_right _ (Int.toNat_le_toNat (Int.ceil_le_ceil hproduct))

structure Utxo where
  outpoint : OutPoint
  value : UInt64

structure Input where
  outpoint : OutPoint
  amount : UInt64
  deriving DecidableEq

def Utxo.satoshi (utxo : Utxo) : Nat := utxo.value.toNat

/-- The unspent outputs of an address.  Together they hold less than `2 ^ 64` satoshi, as there are
not that many. -/
structure UtxoSet where
  utxos : List Utxo
  supply : worth Utxo.satoshi utxos < 2 ^ 64

def toInput (utxos : List Utxo) : List Input := utxos.map fun utxo => ⟨utxo.outpoint, utxo.value⟩

def sortUtxos (utxos : List Utxo) : List Utxo := utxos.mergeSort fun a b => b.value ≤ a.value

def estimateTxVbytes (baseVbytes extraInputs extraOutputs : Nat) : Nat :=
  baseVbytes + extraInputs * checksigP2wshInputVbytesEstimate + extraOutputs * p2wshOutputVbytes

section Selection

variable (fees : FeeSchedule) (baseVbytes targetAmount : Nat)

def feeFor (numInputs : Nat) : Nat := fees.fee (estimateTxVbytes baseVbytes numInputs 1)

def selectUtxos : List Utxo → Nat → List Utxo → Except Panic (Option (List Utxo × Nat × Nat))
  | _, _, [] => .ok none
  | selected, totalValue, utxo :: rest => do
      let selected := selected ++ [utxo]
      let totalValue ← checkedAdd totalValue utxo.satoshi
      let fee := feeFor fees baseVbytes selected.length
      let needed ← checkedAdd targetAmount fee
      if needed ≤ totalValue then
        let change ← checkedSub totalValue targetAmount
        let change ← checkedSub change fee
        .ok (some (selected, fee, change))
      else selectUtxos selected totalValue rest

/-- The inputs, the fee and the change, or `none` if the outputs do not suffice. -/
def getProperUtxoSet (wallet : UtxoSet) : Except Panic (Option (List Input × Nat × Nat)) := do
  let found ← selectUtxos fees baseVbytes targetAmount [] 0
    ((sortUtxos wallet.utxos).take maxCustomInputs)
  .ok (found.map fun (selected, fee, change) => (toInput selected, fee, change))

end Selection

section Loop

variable {fees : FeeSchedule} {baseVbytes targetAmount : Nat} {selected rest : List Utxo}
  {totalValue : Nat}

theorem feeFor_mono : Monotone (feeFor fees baseVbytes) := by
  intro m n h
  apply fees.mono
  have hinputs : m * checksigP2wshInputVbytesEstimate ≤ n * checksigP2wshInputVbytesEstimate :=
    Nat.mul_le_mul_right _ h
  unfold estimateTxVbytes
  omega

theorem selectUtxos_cons (utxo : Utxo) :
    selectUtxos fees baseVbytes targetAmount selected totalValue (utxo :: rest) =
      if totalValue + utxo.satoshi < 2 ^ 64 ∧
      targetAmount + feeFor fees baseVbytes (selected.length + 1) < 2 ^ 64 then
        if targetAmount + feeFor fees baseVbytes (selected.length + 1) ≤
          totalValue + utxo.satoshi then
          .ok (some (selected ++ [utxo], feeFor fees baseVbytes (selected.length + 1),
            totalValue + utxo.satoshi - targetAmount - feeFor fees baseVbytes
              (selected.length + 1)))
        else selectUtxos fees baseVbytes targetAmount (selected ++ [utxo])
          (totalValue + utxo.satoshi) rest
      else .error .addition := by
  rw [selectUtxos]
  rw [List.length_append, List.length_singleton]
  set fee := feeFor fees baseVbytes (selected.length + 1)
  unfold checkedAdd
  by_cases htotal : totalValue + utxo.satoshi < 2 ^ 64
  · by_cases hneeded : targetAmount + fee < 2 ^ 64
    · simp only [htotal, hneeded, if_true, and_self, bind, Except.bind]
      by_cases hcovered : targetAmount + fee ≤ totalValue + utxo.satoshi
      · rw [if_pos hcovered, if_pos hcovered, checkedSub, if_pos (by omega)]
        dsimp only
        rw [checkedSub, if_pos (by omega)]
      · rw [if_neg hcovered, if_neg hcovered]
    · simp only [htotal, hneeded, if_true, if_false, and_false]
      rfl
  · simp only [htotal, if_false, false_and]
    rfl

theorem selectUtxos_spec {found : List Utxo} {fee change : Nat}
    (htotal : totalValue = worth Utxo.satoshi selected)
    (h : selectUtxos fees baseVbytes targetAmount selected totalValue rest =
      .ok (some (found, fee, change))) :
    ∃ k, 1 ≤ k ∧ k ≤ rest.length ∧ found = selected ++ rest.take k ∧
      fee = feeFor fees baseVbytes found.length ∧
      worth Utxo.satoshi found = targetAmount + fee + change := by
  induction rest generalizing selected totalValue with
  | nil => cases h
  | cons utxo rest ih =>
    have htotal' : totalValue + utxo.satoshi = worth Utxo.satoshi (selected ++ [utxo]) := by
      rw [worth_append, htotal, worth_cons, worth_nil, Nat.add_zero]
    rw [selectUtxos_cons] at h
    split at h
    · split at h
      · rename_i hcovered
        cases h
        refine ⟨1, le_refl 1, by simp, by simp, by simp, ?_⟩
        omega
      · obtain ⟨k, hpos, hk, hfound, hfee, hsum⟩ := ih htotal' h
        refine ⟨k + 1, by omega, by simpa using hk, ?_, hfee, hsum⟩
        rw [hfound, List.append_assoc, List.singleton_append, List.take_succ_cons]
    · cases h

/-- Whenever some number of the next outputs covers the target and the fee for that number, the loop
finds inputs: a sum it cannot form is larger than all there is. -/
theorem exists_selectUtxos {k : Nat} (hsupply : totalValue + worth Utxo.satoshi rest < 2 ^ 64)
    (hpos : 1 ≤ k) (hk : k ≤ rest.length)
    (hcovered : targetAmount + feeFor fees baseVbytes (selected.length + k) ≤
      totalValue + worth Utxo.satoshi (rest.take k)) :
    ∃ found, selectUtxos fees baseVbytes targetAmount selected totalValue rest =
      .ok (some found) := by
  induction rest generalizing selected totalValue k with
  | nil => simp at hk; omega
  | cons utxo rest ih =>
    rw [worth_cons] at hsupply
    have hmono : feeFor fees baseVbytes (selected.length + 1) ≤
        feeFor fees baseVbytes (selected.length + k) := feeFor_mono (by omega)
    have htake : worth Utxo.satoshi ((utxo :: rest).take k) ≤ worth Utxo.satoshi (utxo :: rest) :=
      worth_take_le _ k
    rw [worth_cons] at htake
    rw [selectUtxos_cons, if_pos ⟨by omega, by omega⟩]
    split
    · exact ⟨_, rfl⟩
    · rename_i hnot
      cases k with
      | zero => omega
      | succ k =>
        rw [List.take_succ_cons, worth_cons] at hcovered
        have hk' : 1 ≤ k := by
          by_contra hzero
          have hk0 : k = 0 := by omega
          subst hk0
          apply hnot
          simpa using hcovered
        apply ih (k := k)
        · omega
        · exact hk'
        · simpa using hk
        · rw [List.length_append, List.length_singleton]
          have hshift : selected.length + 1 + k = selected.length + (k + 1) := by omega
          rw [hshift]
          omega

theorem selectUtxos_ne_subtraction :
    selectUtxos fees baseVbytes targetAmount selected totalValue rest ≠ .error .subtraction := by
  induction rest generalizing selected totalValue with
  | nil => exact nofun
  | cons utxo rest ih =>
    rw [selectUtxos_cons]
    split
    · split
      · exact nofun
      · exact ih
    · exact nofun

end Loop

section Sorted

variable {utxos : List Utxo}

theorem sortUtxos_perm (utxos : List Utxo) : (sortUtxos utxos).Perm utxos := List.mergeSort_perm _ _

theorem sortUtxos_descending (utxos : List Utxo) : Descending Utxo.satoshi (sortUtxos utxos) := by
  have hsorted : (sortUtxos utxos).Pairwise fun a b => decide (b.value ≤ a.value) = true := by
    apply List.pairwise_mergeSort
    · intro a b c hab hbc
      simp only [decide_eq_true_eq, UInt64.le_iff_toNat_le] at hab hbc ⊢
      omega
    · intro a b
      simp only [Bool.or_eq_true, decide_eq_true_eq, UInt64.le_iff_toNat_le]
      omega
  exact hsorted.imp fun h => UInt64.le_iff_toNat_le.mp (of_decide_eq_true h)

theorem worth_perm {items items' : List Utxo} (h : items.Perm items') :
    worth Utxo.satoshi items = worth Utxo.satoshi items' := (h.map Utxo.satoshi).sum_eq

theorem coe_take_le (items : List Utxo) (k : Nat) : (items.take k : Multiset Utxo) ≤ items :=
  Multiset.coe_le.mpr (List.take_sublist k items).subperm

end Sorted

def Input.satoshi (input : Input) : Nat := input.amount.toNat

theorem worth_toInput (utxos : List Utxo) :
    worth Input.satoshi (toInput utxos) = worth Utxo.satoshi utxos := by
  rw [worth, toInput, List.map_map]
  rfl

section Found

variable {fees : FeeSchedule} {baseVbytes targetAmount : Nat} {wallet : UtxoSet}

/-- What is returned: inputs of the wallet, at most the allowed number, and how they are used up. -/
theorem getProperUtxoSet_spec {inputs : List Input} {fee change : Nat}
    (h : getProperUtxoSet fees baseVbytes targetAmount wallet = .ok (some (inputs, fee, change))) :
    ∃ selected, inputs = toInput selected ∧ (selected : Multiset Utxo) ≤ wallet.utxos ∧
      selected ≠ [] ∧ selected.length ≤ maxCustomInputs ∧
      fee = feeFor fees baseVbytes inputs.length ∧
      worth Input.satoshi inputs = targetAmount + fee + change := by
  obtain ⟨found, hfound, h⟩ := except_bind_eq_ok.mp h
  obtain ⟨⟨selected, fee', change'⟩, hsome, h⟩ := Option.map_eq_some_iff.mp (Except.ok.inj h)
  obtain ⟨rfl, rfl, rfl⟩ : toInput selected = inputs ∧ fee' = fee ∧ change' = change := by
    simpa using h
  rw [hsome] at hfound
  obtain ⟨k, hpos, hk, hselected, hfee, hsum⟩ := selectUtxos_spec rfl hfound
  rw [List.nil_append] at hselected
  have hlength : selected.length = k := by
    rw [hselected, List.length_take]
    omega
  have hmax : k ≤ maxCustomInputs := by
    have htake := List.length_take_le maxCustomInputs (sortUtxos wallet.utxos)
    omega
  refine ⟨selected, rfl, ?_, ?_, by omega, ?_, ?_⟩
  · rw [hselected, List.take_take]
    have hperm : (sortUtxos wallet.utxos : Multiset Utxo) = wallet.utxos :=
      Multiset.coe_eq_coe.mpr (sortUtxos_perm wallet.utxos)
    exact hperm ▸ coe_take_le _ _
  · intro hnil
    rw [hnil] at hlength
    simp at hlength
    omega
  · rw [hfee, toInput, List.length_map]
  · rw [worth_toInput, hsum]

/-- Inputs are found exactly if some outputs of the wallet, in an allowed number, cover the target
and the fee for their number. -/
theorem exists_getProperUtxoSet_iff :
    (∃ found, getProperUtxoSet fees baseVbytes targetAmount wallet = .ok (some found)) ↔
      ∃ s : Multiset Utxo, s ≤ wallet.utxos ∧ s ≠ 0 ∧ s.card ≤ maxCustomInputs ∧
        targetAmount + feeFor fees baseVbytes s.card ≤ (s.map Utxo.satoshi).sum := by
  constructor
  · rintro ⟨⟨inputs, fee, change⟩, h⟩
    obtain ⟨selected, rfl, hle, hne, hmax, hfee, hsum⟩ := getProperUtxoSet_spec h
    have hlength : (toInput selected).length = selected.length := by rw [toInput, List.length_map]
    refine ⟨selected, hle, ?_, by rwa [Multiset.coe_card], ?_⟩
    · rwa [Ne, Multiset.coe_eq_zero]
    · rw [worth_toInput] at hsum
      have hworth : (Multiset.map Utxo.satoshi (selected : Multiset Utxo)).sum =
          worth Utxo.satoshi selected := by
        rw [Multiset.map_coe, Multiset.sum_coe, worth]
      rw [hworth, Multiset.coe_card, hsum, hfee, hlength]
      omega
  · rintro ⟨s, hle, hne, hmax, hcovered⟩
    have hperm : (sortUtxos wallet.utxos : Multiset Utxo) = wallet.utxos :=
      Multiset.coe_eq_coe.mpr (sortUtxos_perm wallet.utxos)
    have hpos : 1 ≤ s.card := Multiset.card_pos.mpr hne
    have hcard : s.card ≤ (sortUtxos wallet.utxos).length := by
      have h := Multiset.card_le_card hle
      rwa [(sortUtxos_perm wallet.utxos).length_eq]
    have hbest := (sortUtxos_descending wallet.utxos).sum_le_worth_take (hperm ▸ hle)
    have hsupply : 0 + worth Utxo.satoshi ((sortUtxos wallet.utxos).take maxCustomInputs) <
      2 ^ 64 := by
      have htake : worth Utxo.satoshi ((sortUtxos wallet.utxos).take maxCustomInputs) ≤
          worth Utxo.satoshi (sortUtxos wallet.utxos) := worth_take_le _ _
      have hall := worth_perm (sortUtxos_perm wallet.utxos)
      have hlt := wallet.supply
      omega
    have hleading : ((sortUtxos wallet.utxos).take maxCustomInputs).take s.card =
        (sortUtxos wallet.utxos).take s.card := by
      rw [List.take_take, Nat.min_eq_left hmax]
    obtain ⟨⟨selected, fee, change⟩, hfound⟩ :
        ∃ found, selectUtxos fees baseVbytes targetAmount [] 0
          ((sortUtxos wallet.utxos).take maxCustomInputs) = .ok (some found) := by
      apply exists_selectUtxos hsupply hpos
      · rw [List.length_take]
        omega
      · rw [hleading, List.length_nil, Nat.zero_add, Nat.zero_add]
        exact hcovered.trans hbest
    refine ⟨(toInput selected, fee, change), ?_⟩
    rw [getProperUtxoSet, hfound]
    rfl

theorem getProperUtxoSet_ne_subtraction :
    getProperUtxoSet fees baseVbytes targetAmount wallet ≠ .error .subtraction := by
  intro h
  rw [getProperUtxoSet] at h
  cases hfound : selectUtxos fees baseVbytes targetAmount [] 0
      ((sortUtxos wallet.utxos).take maxCustomInputs) with
  | error panic =>
    rw [hfound] at h
    cases h
    exact selectUtxos_ne_subtraction hfound
  | ok found =>
    rw [hfound] at h
    cases h

end Found

end BitvmNode.Wallet
