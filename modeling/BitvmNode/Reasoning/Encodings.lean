import BitvmNode.Reasoning.Texts

/-!
# Encodings that can be read back

An encoding is self-delimiting when what is written at the front of a list can be told from what
follows. Hexadecimal texts and decimal numbers are injective.
-/

namespace BitvmNode.Reasoning

def SelfDelimiting {α β : Type} (enc : α → List β) : Prop :=
  ∀ ⦃a b : α⦄ ⦃r r' : List β⦄, enc a ++ r = enc b ++ r' → a = b ∧ r = r'

namespace SelfDelimiting

variable {α β : Type} {enc : α → List β}

theorem of_length {n : Nat} (hlen : ∀ a, (enc a).length = n) (hinj : Function.Injective enc) :
    SelfDelimiting enc := by
  intro a b r r' h
  have hpair := List.append_inj h ((hlen a).trans (hlen b).symm)
  exact ⟨hinj hpair.1, hpair.2⟩

theorem of_read {read : List β → Option (α × List β)} (h : ∀ a r, read (enc a ++ r) = some (a, r)) :
    SelfDelimiting enc := by
  intro a b r r' heq
  have hread := h a r
  rw [heq, h b r'] at hread
  cases hread
  exact ⟨rfl, rfl⟩

/-- A list of items is read up to something that no item starts with. -/
theorem flatMap_append_cons (h : SelfDelimiting enc) {stop : β} (hne : ∀ a, enc a ≠ [])
    (hstop : ∀ a, (enc a).head? ≠ some stop) {as bs : List α} {r r' : List β}
    (heq : as.flatMap enc ++ stop :: r = bs.flatMap enc ++ stop :: r') : as = bs ∧ r = r' := by
  -- one list cannot end before the other, since its next item would start with `stop`
  have hend : ∀ a (rest : List β) r, stop :: r ≠ enc a ++ rest := by
    intro a rest r hbad
    have hhead := congrArg List.head? hbad
    rw [List.head?_append_of_ne_nil _ (hne a)] at hhead
    exact hstop a hhead.symm
  induction as generalizing bs with
  | nil =>
    cases bs with
    | nil => exact ⟨rfl, (List.cons.inj heq).2⟩
    | cons b bs =>
      rw [List.flatMap_nil, List.nil_append, List.flatMap_cons, List.append_assoc] at heq
      exact absurd heq (hend b _ r)
  | cons a as ih =>
    cases bs with
    | nil =>
      rw [List.flatMap_nil, List.nil_append, List.flatMap_cons, List.append_assoc] at heq
      exact absurd heq.symm (hend a _ r')
    | cons b bs =>
      rw [List.flatMap_cons, List.flatMap_cons, List.append_assoc, List.append_assoc] at heq
      obtain ⟨rfl, hrest⟩ := h heq
      obtain ⟨rfl, hr⟩ := ih hrest
      exact ⟨rfl, hr⟩

theorem flatMap_injective (h : SelfDelimiting enc) (hne : ∀ a, enc a ≠ []) :
    Function.Injective fun as : List α => as.flatMap enc := by
  intro as
  induction as with
  | nil =>
    intro bs heq
    cases bs with
    | nil => rfl
    | cons b bs => exact absurd (List.append_eq_nil_iff.mp heq.symm).1 (hne b)
  | cons a as ih =>
    intro bs heq
    cases bs with
    | nil => exact absurd (List.append_eq_nil_iff.mp heq).1 (hne a)
    | cons b bs =>
      obtain ⟨rfl, hrest⟩ := h heq
      rw [ih hrest]

end SelfDelimiting

def hexPair (b : UInt8) : List Char := [Nat.digitChar (b.toNat / 16), Nat.digitChar (b.toNat % 16)]

def hexEncode (bytes : Bytes) : String := String.ofList (bytes.flatMap hexPair)

theorem hexDigit_inj : ∀ m < 16, ∀ n < 16, Nat.digitChar m = Nat.digitChar n → m = n := by
  decide

theorem hexPair_selfDelimiting : SelfDelimiting hexPair := by
  apply SelfDelimiting.of_length (n := 2)
  · intro b
    rfl
  · intro a b h
    have ha := a.toNat_lt
    have hb := b.toNat_lt
    simp only [hexPair, List.cons.injEq, and_true] at h
    have hhigh := hexDigit_inj _ (by omega) _ (by omega) h.1
    have hlow := hexDigit_inj _ (by omega) _ (by omega) h.2
    apply UInt8.toNat_inj.mp
    omega

theorem hexEncode_injective : Function.Injective hexEncode := by
  intro xs ys h
  have hlist := congrArg String.toList h
  simp only [hexEncode, String.toList_ofList] at hlist
  exact hexPair_selfDelimiting.flatMap_injective (fun b => List.cons_ne_nil _ _) hlist

def hashField (field : Bytes) : Bytes := beBytes 8 field.length ++ field

theorem hashField_append_inj {a b r r' : Bytes} (ha : a.length < 2 ^ 64) (hb : b.length < 2 ^ 64)
    (h : hashField a ++ r = hashField b ++ r') : a = b ∧ r = r' := by
  simp only [hashField, List.append_assoc] at h
  obtain ⟨hheads, hrest⟩ := List.append_inj h (by simp only [beBytes_length])
  have hlengths := congrArg beNat hheads
  rw [beNat_beBytes, beNat_beBytes, Nat.mod_eq_of_lt (by omega),
    Nat.mod_eq_of_lt (by omega)] at hlengths
  exact List.append_inj hrest hlengths

/-- The fields can be read back as long as each of them fits in its length. -/
theorem flatMap_hashField_inj {fields others : List Bytes}
    (hfields : ∀ field ∈ fields, field.length < 2 ^ 64)
    (hothers : ∀ field ∈ others, field.length < 2 ^ 64)
    (h : fields.flatMap hashField = others.flatMap hashField) : fields = others := by
  have hlong : ∀ field : Bytes, ∀ r, hashField field ++ r ≠ [] := by
    intro field r hnil
    have hlen := congrArg List.length hnil
    simp only [hashField, List.length_append, beBytes_length, List.length_nil] at hlen
    omega
  induction fields generalizing others with
  | nil =>
    cases others with
    | nil => rfl
    | cons other others => exact absurd h.symm (hlong other _)
  | cons field fields ih =>
    cases others with
    | nil => exact absurd h (hlong field _)
    | cons other others =>
      have hpair := hashField_append_inj (hfields field List.mem_cons_self)
        (hothers other List.mem_cons_self) h
      have htail := ih (fun f hf => hfields f (List.mem_cons_of_mem _ hf))
        (fun f hf => hothers f (List.mem_cons_of_mem _ hf)) hpair.2
      rw [hpair.1, htail]

theorem toDigits_injective : Function.Injective (Nat.toDigits 10) := by
  intro m n h
  have hvalue := congrArg (Nat.ofDigitChars 10 · 0) h
  simpa only [Nat.ofDigitChars_ten_toDigits] using hvalue

end BitvmNode.Reasoning
