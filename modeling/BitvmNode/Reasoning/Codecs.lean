import BitvmNode.Reasoning.Bytes

/-!
# Writers and readers of byte streams

A writer turns an item into bytes or fails.  A reader takes an item off the front of a stream.
-/

namespace BitvmNode.Reasoning

abbrev Reader (α : Type) := StateT Bytes Option α

variable {α β : Type}

def Reads (read : Reader α) (bytes : Bytes) (a : α) : Prop :=
  ∀ rest, read.run (bytes ++ rest) = some (a, rest)

def ReadsBack (read : Reader α) (write : α → Option Bytes) : Prop :=
  ∀ a bytes, write a = some bytes → Reads read bytes a

namespace Reads

theorem pure (a : α) : Reads (Pure.pure a) [] a := fun _ => rfl

theorem bind {read : Reader α} {next : α → Reader β} {bytes bytes' : Bytes} {a : α} {b : β}
    (h : Reads read bytes a) (h' : Reads (next a) bytes' b) :
    Reads (read >>= next) (bytes ++ bytes') b := by
  intro rest
  rw [StateT.run_bind, List.append_assoc, h]
  exact h' rest

theorem bind_pure {read : Reader α} {make : α → β} {bytes : Bytes} {a : α}
    (h : Reads read bytes a) : Reads (read >>= fun a => Pure.pure (make a)) bytes (make a) := by
  have hmake : Reads (read >>= fun a => Pure.pure (make a)) (bytes ++ []) (make a) :=
    h.bind (Reads.pure (make a))
  rwa [List.append_nil] at hmake

end Reads

variable {read : Reader α} {write : α → Option Bytes} {bytes : Bytes}

theorem ReadsBack.injective (h : ReadsBack read write) {a b : α} (ha : write a = some bytes)
    (hb : write b = some bytes) : a = b := by
  have hread := h a bytes ha []
  rw [h b bytes hb []] at hread
  cases hread
  rfl

def readBytes (n : Nat) : Reader Bytes := fun stream =>
  if n ≤ stream.length then some (stream.take n, stream.drop n) else none

theorem reads_readBytes {n : Nat} (h : bytes.length = n) : Reads (readBytes n) bytes bytes := by
  intro rest
  change (if n ≤ (bytes ++ rest).length then
    some ((bytes ++ rest).take n, (bytes ++ rest).drop n) else none) = some (bytes, rest)
  rw [if_pos (by rw [List.length_append]; omega), List.take_left' h, List.drop_left' h]

def readNat (w : Nat) : Reader Nat := do
  let bytes ← readBytes w
  pure (leNat bytes)

theorem reads_readNat {w x : Nat} (h : x < 256 ^ w) : Reads (readNat w) (leBytes w x) x := by
  have hread : Reads (readNat w) (leBytes w x) (leNat (leBytes w x)) :=
    (reads_readBytes (leBytes_length w x)).bind_pure
  rwa [leNat_leBytes, Nat.mod_eq_of_lt h] at hread

def readU32 : Reader UInt32 := do
  let x ← readNat 4
  pure (UInt32.ofNat x)

theorem reads_readU32 (x : UInt32) : Reads readU32 (leBytes 4 x.toNat) x := by
  have hread : Reads readU32 (leBytes 4 x.toNat) (UInt32.ofNat x.toNat) :=
    (reads_readNat x.toNat_lt).bind_pure
  rwa [UInt32.ofNat_toNat] at hread

def readU64 : Reader UInt64 := do
  let x ← readNat 8
  pure (UInt64.ofNat x)

theorem reads_readU64 (x : UInt64) : Reads readU64 (leBytes 8 x.toNat) x := by
  have hread : Reads readU64 (leBytes 8 x.toNat) (UInt64.ofNat x.toNat) :=
    (reads_readNat x.toNat_lt).bind_pure
  rwa [UInt64.ofNat_toNat] at hread

def readArray32 : Reader Bytes32 := do
  let bytes ← readBytes 32
  if h : bytes.length = 32 then pure ⟨bytes.toArray, h⟩ else failure

theorem reads_readArray32 (x : Bytes32) : Reads readArray32 x.toList x := by
  have hlength : x.toList.length = 32 := Vector.length_toList
  have hmake : Reads (if h : x.toList.length = 32 then Pure.pure ⟨x.toList.toArray, h⟩
      else failure : Reader Bytes32) [] x := by
    rw [dif_pos hlength]
    exact Reads.pure x
  have hread : Reads readArray32 (x.toList ++ []) x := (reads_readBytes hlength).bind hmake
  rwa [List.append_nil] at hread

def writeVec (bytes : Bytes) : Option Bytes :=
  if bytes.length < 2 ^ 32 then some (leBytes 4 bytes.length ++ bytes) else none

def readVec : Reader Bytes := do
  let n ← readNat 4
  readBytes n

theorem readVec_readsBack : ReadsBack readVec writeVec := by
  intro bytes written h
  unfold writeVec at h
  split at h
  · rename_i hlt
    cases h
    exact (reads_readNat hlt).bind (reads_readBytes rfl)
  · cases h

theorem writeVec_isSome_iff : (writeVec bytes).isSome ↔ bytes.length < 2 ^ 32 := by
  unfold writeVec
  by_cases hlt : bytes.length < 2 ^ 32
  · rw [if_pos hlt]
    exact iff_of_true rfl hlt
  · rw [if_neg hlt]
    exact iff_of_false Bool.false_ne_true hlt

def writeItems (write : α → Option Bytes) : List α → Option Bytes
  | [] => some []
  | a :: items => do
      let first ← write a
      let rest ← writeItems write items
      some (first ++ rest)

def readItems (read : Reader α) : Nat → Reader (List α)
  | 0 => pure []
  | n + 1 => do
      let a ← read
      let items ← readItems read n
      pure (a :: items)

theorem ReadsBack.items (h : ReadsBack read write) {items : List α}
    (hwrite : writeItems write items = some bytes) :
    Reads (readItems read items.length) bytes items := by
  induction items generalizing bytes with
  | nil =>
    cases hwrite
    exact Reads.pure []
  | cons a items ih =>
    obtain ⟨first, hfirst, hwrite⟩ := Option.bind_eq_some_iff.mp hwrite
    obtain ⟨rest, hrest, hwrite⟩ := Option.bind_eq_some_iff.mp hwrite
    cases hwrite
    exact (h a first hfirst).bind (ih hrest).bind_pure

theorem writeItems_isSome_iff {items : List α} :
    (writeItems write items).isSome ↔ ∀ a ∈ items, (write a).isSome := by
  induction items with
  | nil => simp [writeItems]
  | cons a items ih =>
    rw [List.forall_mem_cons, ← ih, writeItems]
    cases write a with
    | none => simp
    | some first => cases writeItems write items <;> simp

def writeVecOf (write : α → Option Bytes) (items : List α) : Option Bytes :=
  if items.length < 2 ^ 32 then do
    let bytes ← writeItems write items
    some (leBytes 4 items.length ++ bytes)
  else none

def readVecOf (read : Reader α) : Reader (List α) := do
  let n ← readNat 4
  readItems read n

theorem ReadsBack.vecOf (h : ReadsBack read write) :
    ReadsBack (readVecOf read) (writeVecOf write) := by
  intro items written hwrite
  unfold writeVecOf at hwrite
  split at hwrite
  · rename_i hlt
    obtain ⟨bytes, hbytes, hwrite⟩ := Option.bind_eq_some_iff.mp hwrite
    cases hwrite
    exact (reads_readNat hlt).bind (h.items hbytes)
  · cases hwrite

theorem writeVecOf_isSome_iff {items : List α} : (writeVecOf write items).isSome ↔
      items.length < 2 ^ 32 ∧ ∀ a ∈ items, (write a).isSome := by
  rw [← writeItems_isSome_iff, writeVecOf]
  by_cases hlt : items.length < 2 ^ 32
  · rw [if_pos hlt, and_iff_right hlt]
    cases writeItems write items <;> rfl
  · rw [if_neg hlt]
    exact iff_of_false Bool.false_ne_true fun h => hlt h.1

end BitvmNode.Reasoning
