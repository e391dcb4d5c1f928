import BitvmNode.Pegout.VerifierAssert

/-!
# Forms of a witness

A script accepts more forms of one witness than the party that publishes it would use: a digit may
be padded, and a script-path witness may have an annex.
-/

namespace BitvmNode.Pegout

open Reasoning Bitcoin Bitcoin.Script Setup

/-- Whatever follows once the published labels are known: the garbled circuit, the signature, the
broadcast. -/
structure OperatorHost where
  answer : BabeChallengeAssertWitness → TxAssertWitness → Except String Transaction

def validateExpectedChallengeAssertTxid (sha256 : Bytes → Bytes32) (g : BitvmGcGraph)
    (gcData : List BitvmGcCircuitData) (verifierIndex : Nat) (challengeAssertTxid : Bytes32) :
    Except String Unit :=
  match validateVerifierSlot g gcData verifierIndex, g.verifierAsserts[verifierIndex]? with
  | .error error, _ => .error error
  | _, none => .error s!"verifier index {verifierIndex} out of range"
  | .ok (), some verifierAssert =>
      let expectedTxid := verifierAssert.tx.computeTxid sha256
      if challengeAssertTxid ≠ expectedTxid then
        .error ("challenge assert txid " ++ displayTxid challengeAssertTxid ++
          " does not match graph verifier assert txid " ++ displayTxid expectedTxid)
      else .ok ()

def wronglyChallengedStep (sha256 : Bytes → Bytes32) (host : OperatorHost)
    (challengeWitness : BabeChallengeAssertWitness) (operatorAssertWitness : TxAssertWitness) :
    StepRun :=
  match host.answer challengeWitness operatorAssertWitness with
  | .error error => .fail error
  | .ok tx => .broadcastPending [tx] ("Wrongly-Challenged " ++ displayTxid (tx.computeTxid sha256))

section Job

variable {sha256 : Bytes → Bytes32} {watched : List Transaction} (library : ConnectorLibrary)
  (btc : ChainView sha256 watched) (g : BitvmGcGraph) (gcData : List BitvmGcCircuitData)
  (host : OperatorHost)

def checkPublished (challengeAssertTx : Transaction) (verifierIndex : Nat) : StepRun :=
  match recoverChallengeAssertWitness library challengeAssertTx verifierIndex with
  | .error error => .fail error
  | .ok challengeWitness =>
      let actual := challengeWitness.verifierIndex
      let count := challengeWitness.inputLabels.length
      if actual ≠ verifierIndex then
        .fail s!"challenge witness verifier index {actual} does not match {verifierIndex}"
      else if count ≠ library.scripts.inputWireNum then
        .fail (s!"BABE challenge witness exposes {count} labels; expected " ++
          toString library.scripts.inputWireNum)
      else
        match challengeAssertTx.input.head? with
        | none => .fail "published verifier assert transaction has no input"
        | some txin =>
            match btc.lookup txin.previousOutput.txid with
            | none => .fail ("published operator assert transaction " ++
                displayTxid txin.previousOutput.txid ++ " is unavailable")
            | some operatorAssertTx =>
                match operatorAssertTx.input.head? with
                | none => .fail "published operator assert transaction has no input"
                | some operatorAssertTxin =>
                    match extractOperatorAssertWitness library g operatorAssertTxin,
                        buildVerifierAssertTx library g operatorAssertTxin verifierIndex
                          challengeWitness.inputLabels with
                    | .error error, _ =>
                        .fail s!"failed to extract operator assert witness: {error}"
                    | _, .error error => .fail error
                    | .ok operatorAssertWitness, .ok expected =>
                        if expected.input.head?.map TxIn.witness ≠ some txin.witness then
                          .fail
                            "published verifier assert witness does not match BABE challenge labels"
                        else wronglyChallengedStep sha256 host challengeWitness
                          operatorAssertWitness

def wronglyChallenged (challengeAssertTxid : Bytes32) (verifierIndex : Nat) : StepRun :=
  match validateExpectedChallengeAssertTxid sha256 g gcData verifierIndex challengeAssertTxid with
  | .error error => .fail error
  | .ok () =>
      match settledBy (spendOf btc ⟨challengeAssertTxid, 0⟩) "verifier assertion output" with
      | some step => step
      | none =>
          match btc.lookup challengeAssertTxid with
          | none => .afterBlocks "ChallengeAssert is not available from the Bitcoin backend" 1
          | some challengeAssertTx =>
              checkPublished library btc g host challengeAssertTx verifierIndex

end Job

structure WotsDigit where
  (signature value : Bytes)

namespace WotsDigit

/-- What a leaf lets pass: a hash, and a number in range of at most four bytes, in any form. -/
def Accepted (base : Nat) (digit : WotsDigit) : Prop :=
  digit.signature.length = 20 ∧ digit.value.length ≤ 4 ∧ 0 ≤ scriptNum digit.value ∧
    scriptNum digit.value < base

instance (base : Nat) (digit : WotsDigit) : Decidable (digit.Accepted base) := by
  unfold Accepted
  infer_instance

def item (digit : WotsDigit) : Bytes :=
  digit.signature ++ [UInt8.ofNat (scriptNum digit.value).toNat]

end WotsDigit

def wotsStack (digits : List WotsDigit) : RawWitness := digits.flatMap fun digit =>
    [digit.signature, digit.value]

theorem wotsStack_length (digits : List WotsDigit) :
    (wotsStack digits).length = 2 * digits.length := by
  induction digits with
  | nil => rfl
  | cons digit digits ih =>
    change (wotsStack digits).length + 1 + 1 = 2 * (digits.length + 1)
    omega

theorem wotsDigits_wotsStack (scripts : AssertScripts) {digits : List WotsDigit}
    (haccepted : ∀ digit ∈ digits, digit.Accepted scripts.wotsBase) :
    (∀ items, wotsDigits scripts (wotsStack digits) = .ok items →
        items = digits.map WotsDigit.item) ∧
      ((∃ items, wotsDigits scripts (wotsStack digits) = .ok items) ↔
        ∀ digit ∈ digits, isMinimal digit.value = true) := by
  induction digits with
  | nil =>
    refine ⟨?_, ?_⟩
    · intro items h
      cases h
      rfl
    · exact iff_of_true ⟨[], rfl⟩ (nofun)
  | cons digit digits ih =>
    obtain ⟨hsignature, hlength, hnonneg, hlt⟩ := haccepted digit List.mem_cons_self
    have hbase := scripts.wotsBase_le
    obtain ⟨hitems, hread⟩ := ih fun other hother => haccepted other (List.mem_cons_of_mem _ hother)
    have hstack : wotsStack (digit :: digits) = digit.signature :: digit.value ::
      wotsStack digits := rfl
    rw [hstack]
    unfold wotsDigits
    rw [if_neg (not_not.mpr hsignature)]
    by_cases hminimal : isMinimal digit.value = true
    · -- a short digit is within the two bytes, and is read as consensus reads it
      have hshort : digit.value.length ≤ 2 := length_le_two_of_isMinimal hminimal hnonneg (by omega)
      have hvalue : readScriptint digit.value = .ok (scriptNum digit.value) :=
        readScriptint_eq_ok_iff.mpr ⟨hlength, hminimal, rfl⟩
      have hrange : ¬ (scriptNum digit.value < 0 ∨
        (scripts.wotsBase : Int) ≤ scriptNum digit.value) := by
        omega
      rw [if_neg (by omega), hvalue]
      dsimp only
      rw [if_neg hrange, List.forall_mem_cons, ← hread]
      cases hrest : wotsDigits scripts (wotsStack digits) with
      | error error => simp [hminimal]
      | ok items =>
        have hsame := hitems items hrest
        simp [hminimal, hsame, WotsDigit.item]
    · -- a long form is refused, by its length or by the number reader
      have hrefused : ∀ n, readScriptint digit.value ≠ .ok n := by
        intro n hn
        exact hminimal (readScriptint_eq_ok_iff.mp hn).2.1
      have hnot : ¬ ∀ other ∈ digit :: digits, isMinimal other.value = true :=
        fun hall => hminimal (hall digit List.mem_cons_self)
      cases hvalue : readScriptint digit.value with
      | ok n => exact absurd hvalue (hrefused n)
      | error error =>
        refine ⟨?_, iff_of_false ?_ hnot⟩
        · intro items hitems
          split_ifs at hitems
        · rintro ⟨items, hitems⟩
          split_ifs at hitems

section Assertions

variable {library : ConnectorLibrary} {g : BitvmGcGraph} {txin : TxIn} {digits : List WotsDigit}
  {pi2 pi3 : Bytes}

theorem split_wotsStack (scripts : AssertScripts)
    (hlength : digits.length = scripts.totalDigitLen) :
    splitOperatorAssertWotsAndExtraData scripts (wotsStack digits ++ [pi2, pi3]) =
      .ok (wotsStack digits, pi2, pi3) := by
  have hcount : (wotsStack digits ++ [pi2, pi3]).length = scripts.proverSigLen + 2 := by
    rw [List.length_append, wotsStack_length, hlength]
    rfl
  unfold splitOperatorAssertWotsAndExtraData
  rw [if_neg (not_not.mpr hcount), List.reverse_append]
  change Except.ok ((wotsStack digits).reverse.reverse, pi2, pi3) = _
  rw [List.reverse_reverse]

theorem extractForChallenge_iff
    (hextract : library.extractAssertion g txin = .ok (wotsStack digits ++ [pi2, pi3]))
    (hlength : digits.length = library.scripts.totalDigitLen)
    (haccepted : ∀ digit ∈ digits, digit.Accepted library.scripts.wotsBase) :
    (∃ witness, extractOperatorAssertWitnessForChallenge library g txin = .ok witness ∧
        witness.wotsSig = digits.map WotsDigit.item) ↔
      ∀ digit ∈ digits, isMinimal digit.value = true := by
  obtain ⟨hitems, hread⟩ := wotsDigits_wotsStack library.scripts haccepted
  have hassertion : operatorAssertion library g txin = .ok (wotsStack digits, pi2, pi3) := by
    unfold operatorAssertion
    rw [hextract]
    exact split_wotsStack library.scripts hlength
  rw [← hread]
  unfold extractOperatorAssertWitnessForChallenge
  rw [hassertion]
  dsimp only [operatorAssertWotsSignature]
  rw [if_neg (by rw [wotsStack_length, hlength]; exact not_not.mpr rfl)]
  cases hsig : wotsDigits library.scripts (wotsStack digits) with
  | error error => simp
  | ok items =>
    have hsame := hitems items hsig
    -- the two points may make no sense
    cases validateOperatorAssertExtraData pi2 pi3 <;> simp [hsame]

end Assertions

section Challenges

variable {sha256 : Bytes → Bytes32} {watched : List Transaction} (library : ConnectorLibrary)
  (btc : ChainView sha256 watched) (g : BitvmGcGraph) (gcData : List BitvmGcCircuitData)

/-- A confirmed assertion of a verifier that nobody has answered: the transaction of the graph, with
a signature, labels, leaf and perhaps an annex in its witness; and the operator's own assertion. -/
structure PublishedChallenge (verifierIndex : Nat) (published : Transaction)
    (stack labels : List Bytes) (annex : Option Bytes) (assertion : RawWitness)
    (operatorAssertWitness : TxAssertWitness) : Prop where
  slot : validateVerifierSlot g gcData verifierIndex = .ok ()
  transaction : ∃ verifierAssert, g.verifierAsserts[verifierIndex]? = some verifierAssert ∧
    btc.lookup (verifierAssert.tx.computeTxid sha256) = some published ∧
      verifierAssert.tx.input ≠ []
  confirmed : btc.isConfirmed (published.computeTxid sha256) = true
  unanswered : btc.outpointSpentTxid ⟨published.computeTxid sha256, 0⟩ = none
  witness : ∃ txin leaf operatorAssertTx operatorAssertTxin pi2 pi3,
    published.input.head? = some txin ∧ library.verifierLeaf g verifierIndex = .ok leaf ∧
    txin.witness = stack ++ labels ++ [leaf.1, leaf.2] ++ annex.toList ∧
    btc.lookup txin.previousOutput.txid = some operatorAssertTx ∧
    operatorAssertTx.input.head? = some operatorAssertTxin ∧
    operatorAssertion library g operatorAssertTxin = .ok (assertion, pi2, pi3) ∧
    extractOperatorAssertWitness library g operatorAssertTxin = .ok operatorAssertWitness
  stackLength : stack.length = library.scripts.proverSigLen
  labelCount : labels.length = library.scripts.inputWireNum
  labelSize : ∀ label ∈ labels, label.length = 16

variable {library btc g gcData} {verifierIndex : Nat} {published : Transaction}
  {stack labels : List Bytes} {annex : Option Bytes} {assertion : RawWitness}
  {operatorAssertWitness : TxAssertWitness}

theorem recoverChallengeAssertWitness_eq (verifierIndex : Nat) {txin : TxIn} {leaf : Bytes × Bytes}
    (hinput : published.input.head? = some txin)
    (hwitness : txin.witness = stack ++ labels ++ [leaf.1, leaf.2] ++ annex.toList)
    (hstack : stack.length = library.scripts.proverSigLen)
    (hlabels : labels.length = library.scripts.inputWireNum)
    (hsize : ∀ label ∈ labels, label.length = 16) :
    (annex = none → recoverChallengeAssertWitness library published verifierIndex =
      .ok ⟨verifierIndex, labels, library.rawWitnessToSignature stack⟩) ∧
    (annex ≠ none → ∃ error, recoverChallengeAssertWitness library published verifierIndex =
      .error error) := by
  have hcount : txin.witness.length =
      2 * library.scripts.totalDigitLen + library.scripts.inputWireNum + 2 +
      annex.toList.length := by
    rw [hwitness, List.length_append, List.length_append, List.length_append, hstack, hlabels]
    rfl
  unfold recoverChallengeAssertWitness
  rw [hinput]
  dsimp only
  refine ⟨?_, ?_⟩
  · rintro rfl
    have hitems : txin.witness = stack ++ (labels ++ [leaf.1, leaf.2]) := by
      rw [hwitness]
      simp
    have hleft : stack.length = 2 * library.scripts.totalDigitLen := hstack
    have htake : txin.witness.take (2 * library.scripts.totalDigitLen) = stack := by
      rw [hitems, ← hleft, List.take_left]
    have hdrop : (txin.witness.drop (2 * library.scripts.totalDigitLen)).take
        library.scripts.inputWireNum =
        labels := by
      rw [hitems, ← hleft, List.drop_left, ← hlabels, List.take_left]
    have hexact : txin.witness.length =
      2 * library.scripts.totalDigitLen + library.scripts.inputWireNum + 2 :=
      hcount
    have hall : labels.all (fun label => label.length = 16) = true := by
      rw [List.all_eq_true]
      intro label hlabel
      exact decide_eq_true (hsize label hlabel)
    rw [if_neg (not_not.mpr hexact), hdrop, htake, if_neg (by rw [hall]; decide)]
  · intro hannex
    obtain ⟨item, rfl⟩ := Option.ne_none_iff_exists'.mp hannex
    have hlong : txin.witness.length ≠
      2 * library.scripts.totalDigitLen + library.scripts.inputWireNum + 2 := by
      rw [hcount]
      simp
    rw [if_pos hlong]
    exact ⟨_, rfl⟩

theorem buildVerifierAssertTx_witness (labels : List Bytes) {operatorAssertTxin : TxIn}
    {verifierAssert : PreSigned} {leaf : Bytes × Bytes} {pi2 pi3 : Bytes}
    (hassert : g.verifierAsserts[verifierIndex]? = some verifierAssert)
    (hinputs : verifierAssert.tx.input ≠ [])
    (hassertion : operatorAssertion library g operatorAssertTxin = .ok (assertion, pi2, pi3))
    (hleaf : library.verifierLeaf g verifierIndex = .ok leaf) :
    ∃ expected, buildVerifierAssertTx library g operatorAssertTxin verifierIndex labels =
      .ok expected ∧
      expected.input.head?.map TxIn.witness = some (assertion ++ labels ++ [leaf.1, leaf.2]) := by
  unfold buildVerifierAssertTx
  rw [hassert]
  rw [hassertion, hleaf]
  refine ⟨_, rfl, ?_⟩
  unfold verifierPublishLabels
  cases hinput : verifierAssert.tx.input with
  | nil => exact absurd hinput hinputs
  | cons first rest => rfl

variable (h : PublishedChallenge library btc g gcData verifierIndex published stack labels
    annex assertion
  operatorAssertWitness)

include h

/-- The operator answers exactly the challenge whose signature has the bytes of its own assertion,
without an annex. -/
theorem PublishedChallenge.checkPublished_iff (host : OperatorHost) :
    (stack = assertion ∧ annex = none → checkPublished library btc g host published verifierIndex =
      wronglyChallengedStep sha256 host ⟨verifierIndex, labels, library.rawWitnessToSignature stack⟩
        operatorAssertWitness) ∧
    (¬ (stack = assertion ∧ annex = none) →
      ∃ error, checkPublished library btc g host published verifierIndex = .fail error) := by
  obtain ⟨txin, leaf, operatorAssertTx, operatorAssertTxin, pi2, pi3, hinput, hleaf, hwitness,
    hlookup, hassertInput, hassertion, hown⟩ := h.witness
  obtain ⟨verifierAssert, hslot, -, hinputs⟩ := h.transaction
  obtain ⟨hrecovered, hannexed⟩ :=
    recoverChallengeAssertWitness_eq verifierIndex hinput hwitness h.stackLength
    h.labelCount h.labelSize
  obtain ⟨expected, hbuild, hexpected⟩ :=
    buildVerifierAssertTx_witness labels hslot hinputs hassertion hleaf
  unfold checkPublished
  by_cases hannex : annex = none
  · subst hannex
    have hcompare : expected.input.head?.map TxIn.witness ≠ some txin.witness ↔
      stack ≠ assertion := by
      rw [hexpected, hwitness, not_iff_not, Option.some.injEq, Option.toList_none, List.append_nil,
        List.append_left_inj, List.append_left_inj]
      exact eq_comm
    rw [hrecovered rfl]
    dsimp only
    rw [if_neg (not_not.mpr rfl), if_neg (not_not.mpr h.labelCount), hinput]
    dsimp only
    rw [hlookup]
    dsimp only
    rw [hassertInput]
    dsimp only
    rw [hown, hbuild]
    dsimp only
    by_cases hsame : stack = assertion
    · rw [if_neg (fun hne => hcompare.mp hne hsame)]
      exact ⟨fun _ => rfl, fun hnot => absurd ⟨hsame, rfl⟩ hnot⟩
    · rw [if_pos (hcompare.mpr hsame)]
      exact ⟨fun hboth => absurd hboth.1 hsame, fun _ => ⟨_, rfl⟩⟩
  · obtain ⟨error, herror⟩ := hannexed hannex
    rw [herror]
    exact ⟨fun hboth => absurd hboth.2 hannex, fun _ => ⟨error, rfl⟩⟩

theorem PublishedChallenge.wronglyChallenged_eq (host : OperatorHost) :
    wronglyChallenged library btc g gcData host (published.computeTxid sha256) verifierIndex =
      checkPublished library btc g host published verifierIndex := by
  obtain ⟨verifierAssert, hslot, hlookup, -⟩ := h.transaction
  have hid : published.computeTxid sha256 = verifierAssert.tx.computeTxid sha256 :=
    (Ledger.of_lookup hlookup).2
  have hvalid : validateExpectedChallengeAssertTxid sha256 g gcData verifierIndex
      (published.computeTxid sha256) = .ok () := by
    unfold validateExpectedChallengeAssertTxid
    rw [h.slot, hslot]
    dsimp only
    rw [if_neg (not_not.mpr hid)]
  have hopen : settledBy (spendOf btc ⟨published.computeTxid sha256, 0⟩)
    "verifier assertion output" = none :=
    (settledBy_eq_none_iff _ _).mpr ((spendOf_eq_unspent_iff btc _).mpr h.unanswered)
  unfold wronglyChallenged
  rw [hvalid]
  rw [hopen]
  rw [hid, hlookup]

end Challenges

/-- For every graph: an assertion that the leaf of connector C accepts is read exactly if its digits
have their shortest form; and the operator answers a published challenge, whatever its answer then
is, exactly if the signature in it has the bytes of the operator's own assertion and there is no
annex. -/
theorem witness_forms_iff {sha256 : Bytes → Bytes32} {watched : List Transaction}
    (library : ConnectorLibrary) (btc : ChainView sha256 watched) (g : BitvmGcGraph)
    (gcData : List BitvmGcCircuitData) :
    (∀ txin digits pi2 pi3, library.extractAssertion g txin = .ok (wotsStack digits ++ [pi2, pi3]) →
      digits.length = library.scripts.totalDigitLen →
      (∀ digit ∈ digits, digit.Accepted library.scripts.wotsBase) →
      ((∃ witness, extractOperatorAssertWitnessForChallenge library g txin = .ok witness ∧
          witness.wotsSig = digits.map WotsDigit.item) ↔
        ∀ digit ∈ digits, isMinimal digit.value = true)) ∧
    ∀ verifierIndex published stack labels annex assertion operatorAssertWitness,
      PublishedChallenge library btc g gcData verifierIndex published stack labels annex assertion
        operatorAssertWitness →
      ((∀ host, wronglyChallenged library btc g gcData host (published.computeTxid sha256)
          verifierIndex =
          wronglyChallengedStep sha256 host ⟨verifierIndex, labels,
            library.rawWitnessToSignature stack⟩ operatorAssertWitness) ↔
        stack = assertion ∧ annex = none) := by
  refine ⟨fun txin digits pi2 pi3 hextract hlength haccepted =>
    extractForChallenge_iff hextract hlength haccepted, ?_⟩
  intro verifierIndex published stack labels annex assertion operatorAssertWitness h
  constructor
  · intro hanswers
    by_contra hform
    -- an operator whose answer is a transaction
    let host : OperatorHost := ⟨fun _ _ => .ok published⟩
    obtain ⟨error, hfail⟩ := (h.checkPublished_iff host).2 hform
    have hrun := hanswers host
    rw [h.wronglyChallenged_eq host, hfail] at hrun
    cases hrun
  · intro hform host
    rw [h.wronglyChallenged_eq host]
    exact (h.checkPublished_iff host).1 hform

namespace LongForms

open Smallest

def view (named confirmed : List Transaction)
    (hnamed : (named.map (Transaction.computeTxid hash)).Nodup)
    (hsub : (confirmed ++ graph.transactions).map Transaction.stripWitness ⊆ named)
    (spentOnce : ∀ t ∈ confirmed, ∀ u ∈ confirmed, ∀ o ∈ t.spends, o ∈ u.spends →
      t.computeTxid hash = u.computeTxid hash) : ChainView hash graph.transactions where
  confirmed := confirmed
  mempool := []
  collisionFree t ht u hu h := by
    rw [List.append_nil] at ht hu
    have hstripped : t.stripWitness.computeTxid hash = u.stripWitness.computeTxid hash := by
      rw [Transaction.computeTxid_stripWitness, Transaction.computeTxid_stripWitness]
      exact h
    exact List.inj_on_of_nodup_map hnamed (hsub (List.mem_map_of_mem ht))
      (hsub (List.mem_map_of_mem hu)) hstripped
  spentOnce := spentOnce

def setWitness (tx : Transaction) (witness : List Bytes) : Transaction :=
  { tx with input := tx.input.map fun txin => { txin with witness } }

def digit : WotsDigit := ⟨List.replicate 20 1, [5]⟩

def padded : WotsDigit := ⟨List.replicate 20 1, [5, 0]⟩

def pi2 : Bytes := List.replicate 64 2

def pi3 : Bytes := List.replicate 32 3

def label : Bytes := List.replicate 16 4

def library : ConnectorLibrary where
  scripts := ⟨256, 1, 1, Nat.le.refl⟩
  extractAssertion _ txin := .ok txin.witness
  extractCommitPubin _ txin := .ok txin.witness
  extractOperatorPreimage _ := .ok []
  recoverPi2Pi3 _ _ := true
  rawWitnessToSignature items := items
  verifierLeaf _ _ := .ok ([0xde, 0xad], [0xbe, 0xef])
  validatePubin _ _ _ _ := none
  pubinDisproveLeaf _ := []
  pubinDisprove _ _ := .error "no disproof"
  p2aOutput := ⟨0, []⟩
  generateOpreturnScript data := data

def gcData : List BitvmGcCircuitData := [⟨"verifier", [], []⟩]

def asserted : Transaction := setWitness graph.operatorAssert.tx (wotsStack [digit] ++ [pi2, pi3])

def challenge (signed : WotsDigit) (annex : Option Bytes) : Transaction :=
  setWitness (spending [⟨txid graph.operatorAssert, 0⟩] [⟨5000, []⟩]).tx
    (wotsStack [signed] ++ [label] ++ [[0xde, 0xad], [0xbe, 0xef]] ++ annex.toList)

def paddedView : ChainView hash graph.transactions :=
  view graph.transactions [asserted, challenge padded none] graph.distinct (by decide +kernel)
    (by decide +kernel)

def annexView : ChainView hash graph.transactions :=
  view graph.transactions [asserted, challenge digit (some [0x50])] graph.distinct
    (by decide +kernel) (by decide +kernel)

theorem published_of {btc : ChainView hash graph.transactions} {signed : WotsDigit}
    {annex : Option Bytes} (hchallenge : btc.lookup
      ((spending [⟨txid graph.operatorAssert, 0⟩] [⟨5000, []⟩]).tx.computeTxid hash) =
        some (challenge signed annex) ∧
      btc.isConfirmed ((challenge signed annex).computeTxid hash) = true ∧
      btc.outpointSpentTxid ⟨(challenge signed annex).computeTxid hash, 0⟩ = none)
    (hasserted : btc.lookup (txid graph.operatorAssert) = some asserted) :
    PublishedChallenge library btc graph.toBitvmGcGraph gcData 0 (challenge signed annex)
      (wotsStack [signed]) [label]
      annex (wotsStack [digit]) ⟨[digit.item], pi2, pi3⟩ where
  slot := by decide +kernel
  transaction := ⟨spending [⟨txid graph.operatorAssert, 0⟩]
    [⟨5000, []⟩], by decide +kernel, hchallenge.1, List.cons_ne_nil _ _⟩
  confirmed := hchallenge.2.1
  unanswered := hchallenge.2.2
  witness := ⟨⟨⟨txid graph.operatorAssert, 0⟩, [], 0xFFFFFFFF, _⟩,
      ([0xde, 0xad], [0xbe, 0xef]), asserted,
    ⟨⟨txid kickoff, 2⟩, [], 0xFFFFFFFF, wotsStack [digit] ++ [pi2, pi3]⟩, pi2, pi3, rfl, rfl,
      rfl, hasserted,
    by decide +kernel, by decide +kernel, by decide +kernel⟩
  stackLength := rfl
  labelCount := rfl
  labelSize := by decide

def host : OperatorHost := ⟨fun _ _ => .ok asserted⟩

end LongForms

open LongForms in
/-- A padded digit that the leaf accepts keeps a verifier from its challenge; a padded digit or an
annex in a challenge keeps the operator from its answer. -/
theorem long_forms_silence :
    (padded.Accepted library.scripts.wotsBase ∧ scriptNum padded.value = scriptNum digit.value ∧
      library.extractAssertion Smallest.graph.toBitvmGcGraph ⟨⟨zero32, 0⟩, [], 0,
        wotsStack [padded] ++ [pi2, pi3]⟩ = .ok (wotsStack [padded] ++ [pi2, pi3]) ∧
      ∀ witness, extractOperatorAssertWitnessForChallenge library Smallest.graph.toBitvmGcGraph
        ⟨⟨zero32, 0⟩, [], 0, wotsStack [padded] ++ [pi2, pi3]⟩ ≠ .ok witness) ∧
    (PublishedChallenge library paddedView Smallest.graph.toBitvmGcGraph gcData 0
        (challenge padded none)
        (wotsStack [padded]) [label] none (wotsStack [digit]) ⟨[digit.item], pi2, pi3⟩ ∧
      (wronglyChallenged library paddedView Smallest.graph.toBitvmGcGraph gcData host
        ((challenge padded none).computeTxid Smallest.hash) 0).broadcast = []) ∧
    PublishedChallenge library annexView Smallest.graph.toBitvmGcGraph gcData 0
        (challenge digit (some [0x50]))
        (wotsStack [digit]) [label] (some [0x50]) (wotsStack [digit]) ⟨[digit.item], pi2, pi3⟩ ∧
      (wronglyChallenged library annexView Smallest.graph.toBitvmGcGraph gcData host
        ((challenge digit (some [0x50])).computeTxid Smallest.hash) 0).broadcast = [] := by
  have hrefused : (extractOperatorAssertWitnessForChallenge library Smallest.graph.toBitvmGcGraph
      ⟨⟨zero32, 0⟩, [], 0, wotsStack [padded] ++ [pi2, pi3]⟩).isOk = false := by decide +kernel
  refine ⟨⟨by decide, by decide, rfl, ?_⟩,
      ⟨published_of (by decide +kernel) (by decide +kernel), by decide +kernel⟩,
    published_of (by decide +kernel) (by decide +kernel), by decide +kernel⟩
  intro witness hwitness
  rw [hwitness] at hrefused
  cases hrefused

end BitvmNode.Pegout
