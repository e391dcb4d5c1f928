import BitvmNode.Reasoning.Encodings

/-!
# JSON values

The compact texts of values, written byte by byte: all bytes of a string that are not escaped are
copied, whatever characters they belong to.
-/

namespace BitvmNode.Reasoning

inductive JsonValue where
  | null
  | bool (b : Bool)
  | int (n : Int)
  | str (s : String)
  | arr (items : List JsonValue)
  | obj (fields : List (String × JsonValue))

namespace JsonValue

def hexByte (n : Nat) : UInt8 := UInt8.ofNat (Nat.digitChar n).toNat

def escapeByte (b : UInt8) : Bytes :=
  if b = 0x22 then [0x5c, 0x22]
  else if b = 0x5c then [0x5c, 0x5c]
  else if b = 0x08 then [0x5c, 0x62]
  else if b = 0x09 then [0x5c, 0x74]
  else if b = 0x0a then [0x5c, 0x6e]
  else if b = 0x0c then [0x5c, 0x66]
  else if b = 0x0d then [0x5c, 0x72]
  else if b < 0x20 then [0x5c, 0x75, 0x30, 0x30, hexByte (b.toNat / 16), hexByte (b.toNat % 16)]
  else [b]

def stringText (s : String) : Bytes := 0x22 :: (utf8 s).flatMap escapeByte ++ [0x22]

def digits (n : Nat) : Bytes := (Nat.toDigits 10 n).map fun c => UInt8.ofNat c.toNat

def intText : Int → Bytes
  | .ofNat n => digits n
  | .negSucc n => 0x2d :: digits (n + 1)

def comma (first : Bool) : Bytes := if first then [] else [0x2c]

mutual

def text : JsonValue → Bytes
  | .null => [0x6e, 0x75, 0x6c, 0x6c]
  | .bool true => [0x74, 0x72, 0x75, 0x65]
  | .bool false => [0x66, 0x61, 0x6c, 0x73, 0x65]
  | .int n => intText n
  | .str s => stringText s
  | .arr items => 0x5b :: itemsText true items
  | .obj fields => 0x7b :: fieldsText true fields

def itemsText (first : Bool) : List JsonValue → Bytes
  | [] => [0x5d]
  | item :: items => comma first ++ text item ++ itemsText false items

def fieldsText (first : Bool) : List (String × JsonValue) → Bytes
  | [] => [0x7d]
  | (name, value) :: fields =>
      comma first ++ stringText name ++ 0x3a :: text value ++ fieldsText false fields

end

def unescapeShort (c : UInt8) : UInt8 :=
  if c = 0x62 then 0x08
  else if c = 0x74 then 0x09
  else if c = 0x6e then 0x0a
  else if c = 0x66 then 0x0c
  else if c = 0x72 then 0x0d
  else c

def hexByteValue (b : UInt8) : UInt8 := if b < 0x3a then b - 0x30 else b - 0x57

def unescape : Bytes → Option (UInt8 × Bytes)
  | [] => none
  | b :: rest =>
      if b = 0x22 then none
      else if b = 0x5c then
        match rest with
        | 0x75 :: _ :: _ :: high :: low :: rest =>
            some (hexByteValue high * 16 + hexByteValue low, rest)
        | c :: rest => some (unescapeShort c, rest)
        | [] => none
      else some (b, rest)

theorem hexByteValue_hexByte : ∀ n < 32, hexByteValue (hexByte (n / 16)) * 16 +
    hexByteValue (hexByte (n % 16)) = UInt8.ofNat n := by
  decide

theorem unescape_escapeByte (b : UInt8) (r : Bytes) :
    unescape (escapeByte b ++ r) = some (b, r) := by
  unfold escapeByte
  split_ifs with h22 h5c h08 h09 h0a h0c h0d hctrl
  · rw [h22]; rfl
  · rw [h5c]; rfl
  · rw [h08]; rfl
  · rw [h09]; rfl
  · rw [h0a]; rfl
  · rw [h0c]; rfl
  · rw [h0d]; rfl
  · show some (hexByteValue _ * 16 + hexByteValue _, r) = some (b, r)
    rw [hexByteValue_hexByte b.toNat (UInt8.lt_iff_toNat_lt.mp hctrl), UInt8.ofNat_toNat]
  · show (if b = 0x22 then none else if b = 0x5c then _ else some (b, r)) = some (b, r)
    rw [if_neg h22, if_neg h5c]

theorem escapeByte_ne_nil (b : UInt8) : escapeByte b ≠ [] := by
  unfold escapeByte
  split_ifs <;> exact List.cons_ne_nil _ _

theorem escapeByte_head (b : UInt8) : (escapeByte b).head? ≠ some 0x22 := by
  intro hhead
  obtain ⟨tail, htail⟩ := List.head?_eq_some_iff.mp hhead
  have hread := unescape_escapeByte b []
  rw [htail] at hread
  exact absurd hread (by simp [unescape])

theorem stringText_selfDelimiting : SelfDelimiting stringText := by
  intro s t r r' h
  have hbody : (utf8 s).flatMap escapeByte ++ 0x22 :: r = (utf8 t).flatMap escapeByte ++
    0x22 :: r' := by
    simpa [stringText] using h
  have hread := (SelfDelimiting.of_read unescape_escapeByte).flatMap_append_cons escapeByte_ne_nil
    escapeByte_head hbody
  exact ⟨utf8_inj hread.1, hread.2⟩

/-! ### Numbers

A number has no end of its own: it is read up to the first byte that is not a digit. -/

def IsDigit (b : UInt8) : Prop := 0x30 ≤ b ∧ b ≤ 0x39

instance (b : UInt8) : Decidable (IsDigit b) := inferInstanceAs (Decidable (_ ∧ _))

def EndsNumber (r : Bytes) : Prop := ∀ b ∈ r.head?, ¬ IsDigit b

theorem toNat_digitByte {c : Char} (h : c.isDigit = true) :
    (UInt8.ofNat c.toNat).toNat = c.toNat ∧ 48 ≤ c.toNat ∧ c.toNat ≤ 57 := by
  rw [Char.isDigit, Bool.and_eq_true, decide_eq_true_iff, decide_eq_true_iff] at h
  have hrange : 48 ≤ c.toNat ∧ c.toNat ≤ 57 :=
    ⟨UInt32.le_iff_toNat_le.mp h.1, UInt32.le_iff_toNat_le.mp h.2⟩
  refine ⟨?_, hrange⟩
  rw [UInt8.toNat_ofNat']
  omega

theorem isDigit_of_mem_digits {n : Nat} {b : UInt8} (h : b ∈ digits n) : IsDigit b := by
  obtain ⟨c, hc, rfl⟩ := List.mem_map.mp h
  obtain ⟨hbyte, hlow, hhigh⟩ :=
    toNat_digitByte (Nat.isDigit_of_mem_toDigits (by omega) (by omega) hc)
  constructor
  · rw [UInt8.le_iff_toNat_le, hbyte]
    exact hlow
  · rw [UInt8.le_iff_toNat_le, hbyte]
    exact hhigh

theorem digits_injective : Function.Injective digits := by
  intro m n h
  apply toDigits_injective
  -- the bytes give the characters back, because all of them are digits
  have hback : ∀ k, (digits k).map (fun b => Char.ofNat b.toNat) = Nat.toDigits 10 k := by
    intro k
    rw [digits, List.map_map]
    refine (List.map_congr_left ?_).trans (List.map_id _)
    intro c hc
    have hbyte := (toNat_digitByte (Nat.isDigit_of_mem_toDigits (by omega) (by omega) hc)).1
    show Char.ofNat (UInt8.ofNat c.toNat).toNat = c
    rw [hbyte, Char.ofNat_toNat]
  rw [← hback m, ← hback n, h]

variable {r : Bytes}

theorem span_digits (n : Nat) (hr : EndsNumber r) :
    (digits n ++ r).takeWhile (fun b => IsDigit b) = digits n := by
  have hall : ∀ b ∈ digits n, decide (IsDigit b) = true := by
    intro b hb
    exact decide_eq_true (isDigit_of_mem_digits hb)
  have hstop : r.takeWhile (fun b => IsDigit b) = [] := by
    cases r with
    | nil => rfl
    | cons b r => exact List.takeWhile_cons_of_neg (by simpa using hr b rfl)
  rw [List.takeWhile_append_of_pos hall, hstop, List.append_nil]

variable {r' : Bytes}

theorem digits_append_inj {m n : Nat} (hr : EndsNumber r) (hr' : EndsNumber r')
    (h : digits m ++ r = digits n ++ r') : m = n ∧ r = r' := by
  have hdigits : digits m = digits n := by
    rw [← span_digits m hr, h, span_digits n hr']
  rw [hdigits] at h
  exact ⟨digits_injective hdigits, List.append_cancel_left h⟩

theorem digits_head (n : Nat) : ∃ b tail, digits n = b :: tail ∧ IsDigit b := by
  cases hdigits : digits n with
  | nil => exact absurd (List.map_eq_nil_iff.mp hdigits) Nat.toDigits_ne_nil
  | cons b tail => exact ⟨b, tail, rfl, isDigit_of_mem_digits (hdigits ▸ List.mem_cons_self)⟩

theorem intText_append_inj {m n : Int} (hr : EndsNumber r) (hr' : EndsNumber r')
    (h : intText m ++ r = intText n ++ r') : m = n ∧ r = r' := by
  -- the minus sign is not a digit
  have hsign : ∀ k l, ∀ s s' : Bytes, digits k ++ s ≠ 0x2d :: digits l ++ s' := by
    intro k l s s' hbad
    obtain ⟨b, tail, hb, hdigit⟩ := digits_head k
    rw [hb, List.cons_append, List.cons_append, List.cons.injEq] at hbad
    rw [hbad.1] at hdigit
    exact absurd hdigit (by decide)
  cases m with
  | ofNat m =>
    cases n with
    | ofNat n =>
      have hpair := digits_append_inj hr hr' h
      exact ⟨congrArg Int.ofNat hpair.1, hpair.2⟩
    | negSucc n => exact absurd h (hsign m (n + 1) r r')
  | negSucc m =>
    cases n with
    | ofNat n => exact absurd h.symm (hsign n (m + 1) r' r)
    | negSucc n =>
      have hpair := digits_append_inj hr hr' (List.cons.inj h).2
      exact ⟨congrArg Int.negSucc (Nat.succ.inj hpair.1), hpair.2⟩

/-- The kind of the values that start with a byte; no value starts with a byte of kind 6. -/
def kindOfByte (b : UInt8) : Nat :=
  if b = 0x6e then 0
  else if b = 0x74 ∨ b = 0x66 then 1
  else if b = 0x22 then 3
  else if b = 0x5b then 4
  else if b = 0x7b then 5
  else if IsDigit b ∨ b = 0x2d then 2
  else 6

theorem kindOfByte_digit {b : UInt8} (h : IsDigit b) : kindOfByte b = 2 := by
  have hne : ∀ c : UInt8, ¬ IsDigit c → b ≠ c := by
    intro c hc hbc
    exact hc (hbc ▸ h)
  unfold kindOfByte
  rw [if_neg (hne 0x6e (by decide)), if_neg, if_neg (hne 0x22 (by decide)),
    if_neg (hne 0x5b (by decide)), if_neg (hne 0x7b (by decide)), if_pos (Or.inl h)]
  intro hbool
  exact hbool.elim (hne 0x74 (by decide)) (hne 0x66 (by decide))

theorem text_head (v : JsonValue) : ∃ b tail, text v = b :: tail ∧ kindOfByte b = v.ctorIdx := by
  cases v with
  | null | arr items | obj fields => exact ⟨_, _, by rw [text], rfl⟩
  | bool b => cases b <;> exact ⟨_, _, by rw [text], rfl⟩
  | int n =>
    cases n with
    | ofNat n =>
      obtain ⟨b, tail, hb, hdigit⟩ := digits_head n
      exact ⟨b, tail, by rw [text]; exact hb, kindOfByte_digit hdigit⟩
    | negSucc n => exact ⟨_, _, by rw [text, intText], rfl⟩
  | str s => exact ⟨_, _, by rw [text, stringText, List.cons_append], rfl⟩

theorem ctorIdx_eq_of_text {v w : JsonValue} (h : text v ++ r = text w ++ r') :
    v.ctorIdx = w.ctorIdx := by
  obtain ⟨b, tail, hb, hv⟩ := text_head v
  obtain ⟨c, tail', hc, hw⟩ := text_head w
  rw [hb, hc, List.cons_append, List.cons_append, List.cons.injEq] at h
  rw [← hv, ← hw, h.1]

def EndsValue (v : JsonValue) (r : Bytes) : Prop :=
  match v with
  | .int _ => EndsNumber r
  | _ => True

theorem EndsNumber.endsValue (h : EndsNumber r) (v : JsonValue) : EndsValue v r := by
  cases v with
  | int n => exact h
  | _ => trivial

theorem endsNumber_itemsText (items : List JsonValue) (r : Bytes) :
    EndsNumber (itemsText false items ++ r) := by
  intro b hb
  cases items with
  | nil | cons item items =>
    cases hb
    decide

theorem endsNumber_fieldsText (fields : List (String × JsonValue)) (r : Bytes) :
    EndsNumber (fieldsText false fields ++ r) := by
  intro b hb
  cases fields with
  | nil | cons field fields =>
    cases hb
    decide

theorem text_append_ne_bracket (v : JsonValue) (r r' : Bytes) : text v ++ r ≠ 0x5d :: r' := by
  intro h
  obtain ⟨b, tail, hb, hkind⟩ := text_head v
  rw [hb, List.cons_append, List.cons.injEq] at h
  rw [h.1] at hkind
  cases v <;> cases hkind

mutual

theorem text_append_inj : ∀ (v w : JsonValue) (r r' : Bytes), EndsValue v r → EndsValue w r' →
    text v ++ r = text w ++ r' → v = w ∧ r = r' := by
  intro v w r r' hv hw h
  have hkind := ctorIdx_eq_of_text h
  cases v with
  | null =>
    cases w with
    | null => exact ⟨rfl, List.append_cancel_left h⟩
    | _ => cases hkind
  | bool b =>
    cases w with
    | bool c =>
      cases b <;> cases c <;> simp only [text] at h
      · exact ⟨rfl, List.append_cancel_left h⟩
      · exact absurd (List.cons.inj h).1 (by decide)
      · exact absurd (List.cons.inj h).1 (by decide)
      · exact ⟨rfl, List.append_cancel_left h⟩
    | _ => cases hkind
  | int n =>
    cases w with
    | int m =>
      have hpair := intText_append_inj hv hw h
      exact ⟨congrArg JsonValue.int hpair.1, hpair.2⟩
    | _ => cases hkind
  | str s =>
    cases w with
    | str t =>
      have hpair := stringText_selfDelimiting h
      exact ⟨congrArg JsonValue.str hpair.1, hpair.2⟩
    | _ => cases hkind
  | arr items =>
    cases w with
    | arr others =>
      have hpair := itemsText_append_inj items others true r r' (List.cons.inj h).2
      exact ⟨congrArg JsonValue.arr hpair.1, hpair.2⟩
    | _ => cases hkind
  | obj fields =>
    cases w with
    | obj others =>
      have hpair := fieldsText_append_inj fields others true r r' (List.cons.inj h).2
      exact ⟨congrArg JsonValue.obj hpair.1, hpair.2⟩
    | _ => cases hkind

theorem itemsText_append_inj : ∀ (items others : List JsonValue) (first : Bool) (r r' : Bytes),
    itemsText first items ++ r = itemsText first others ++ r' → items = others ∧ r = r' := by
  intro items others first r r' h
  -- a list that goes on starts with a comma or with a value, never with the closing bracket
  have hend : ∀ item rest (s s' : Bytes), itemsText first (item :: rest) ++ s ≠ 0x5d :: s' := by
    intro item rest s s' hbad
    rw [itemsText, List.append_assoc, List.append_assoc] at hbad
    cases first with
    | true => exact text_append_ne_bracket _ _ _ hbad
    | false => exact absurd (List.cons.inj hbad).1 (by decide)
  cases items with
  | nil =>
    cases others with
    | nil => exact ⟨rfl, List.append_cancel_left h⟩
    | cons item rest => exact absurd h.symm (hend item rest r' r)
  | cons item rest =>
    cases others with
    | nil => exact absurd h (hend item rest r r')
    | cons item' rest' =>
      rw [itemsText, itemsText, List.append_assoc, List.append_assoc, List.append_assoc,
        List.append_assoc] at h
      have hitem := text_append_inj item item' _ _ ((endsNumber_itemsText rest r).endsValue item)
        ((endsNumber_itemsText rest' r').endsValue item') (List.append_cancel_left h)
      have hrest := itemsText_append_inj rest rest' false r r' hitem.2
      exact ⟨by rw [hitem.1, hrest.1], hrest.2⟩

theorem fieldsText_append_inj :
    ∀ (fields others : List (String × JsonValue)) (first : Bool) (r r' : Bytes),
    fieldsText first fields ++ r = fieldsText first others ++ r' → fields = others ∧ r = r' := by
  intro fields others first r r' h
  have hend : ∀ field rest (s s' : Bytes), fieldsText first (field :: rest) ++ s ≠ 0x7d :: s' := by
    intro field rest s s' hbad
    cases first with
    | true | false => exact absurd (List.cons.inj hbad).1 (by decide)
  match fields, others with
  | [], [] => exact ⟨rfl, List.append_cancel_left h⟩
  | [], field :: rest => exact absurd h.symm (hend field rest r' r)
  | field :: rest, [] => exact absurd h (hend field rest r r')
  | (name, value) :: rest, (name', value') :: rest' =>
    simp only [fieldsText, List.append_assoc, List.cons_append] at h
    have hname := stringText_selfDelimiting (List.append_cancel_left h)
    have hvalue := text_append_inj value value' _ _ ((endsNumber_fieldsText rest r).endsValue value)
      ((endsNumber_fieldsText rest' r').endsValue value') (List.cons.inj hname.2).2
    have hrest := fieldsText_append_inj rest rest' false r r' hvalue.2
    exact ⟨by rw [hname.1, hvalue.1, hrest.1], hrest.2⟩

end

theorem text_injective : Function.Injective text := by
  intro v w h
  have hends : EndsNumber [] := by
    intro b hb
    cases hb
  have happend : text v ++ [] = text w ++ [] := by rw [h]
  exact (text_append_inj v w [] [] (hends.endsValue v) (hends.endsValue w) happend).1

def toVec (v : JsonValue) : Option Bytes := if (text v).length < 2 ^ 63 then some (text v) else none

theorem toVec_eq_some {v : JsonValue} {bytes : Bytes} :
    toVec v = some bytes ↔ bytes = text v ∧ bytes.length < 2 ^ 63 := by
  rw [toVec, Option.ite_none_right_eq_some, Option.some_inj]
  constructor
  · rintro ⟨hlt, rfl⟩
    exact ⟨rfl, hlt⟩
  · rintro ⟨rfl, hlt⟩
    exact ⟨hlt, rfl⟩

end JsonValue

end BitvmNode.Reasoning
