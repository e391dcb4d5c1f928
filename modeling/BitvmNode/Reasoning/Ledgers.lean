import Mathlib.Data.List.Nodup

/-!
# Ledgers of spends

What a node can ask a backend about transactions that spend outpoints: whether a transaction is
confirmed or only pending, and which transaction spent an outpoint.  A transaction is named by an
identifier that commits to a part of it, its body; the ledger carries the two facts that make the
answers mean something, namely that no identifier names two bodies and that no outpoint has two
confirmed spenders.
-/

namespace BitvmNode.Reasoning

/-- How transactions are named, and what they spend. -/
structure TxModel (Tx Id Body Outpoint : Type) where
  txid : Tx → Id
  body : Tx → Body
  spends : Tx → List Outpoint
  owner : Outpoint → Id
  spends_congr : ∀ t u, body t = body u → spends t = spends u

/-- The transactions a backend knows.  `watched` are the ones the asking node built itself: an
identifier of one of them names nothing else either. -/
structure Ledger {Tx Id Body Outpoint : Type} (model : TxModel Tx Id Body Outpoint)
    (watched : List Tx) where
  (confirmed mempool : List Tx)
  collisionFree : ∀ t ∈ confirmed ++ mempool ++ watched, ∀ u ∈ confirmed ++ mempool ++ watched,
    model.txid t = model.txid u → model.body t = model.body u
  spentOnce : ∀ t ∈ confirmed, ∀ u ∈ confirmed, ∀ o ∈ model.spends t, o ∈ model.spends u →
    model.txid t = model.txid u

namespace Ledger

variable {Tx Id Body Outpoint : Type} {model : TxModel Tx Id Body Outpoint} {watched : List Tx}

def ofDistinct (named confirmed mempool : List Tx) (hnamed : (named.map model.txid).Nodup)
    (hsub : confirmed ++ mempool ++ watched ⊆ named)
    (spentOnce : ∀ t ∈ confirmed, ∀ u ∈ confirmed, ∀ o ∈ model.spends t, o ∈ model.spends u →
      model.txid t = model.txid u) : Ledger model watched where
  confirmed := confirmed
  mempool := mempool
  collisionFree _ ht _ hu h :=
    congrArg model.body (List.inj_on_of_nodup_map hnamed (hsub ht) (hsub hu) h)
  spentOnce := spentOnce

section Queries

variable [DecidableEq Id] [DecidableEq Outpoint] (ledger : Ledger model watched)

/-- Confirmed transactions come first: a pending one that conflicts with them is not reported. -/
def known : List Tx := ledger.confirmed ++ ledger.mempool

def lookup (id : Id) : Option Tx := ledger.known.find? (model.txid · = id)

def isConfirmed (id : Id) : Bool := ledger.confirmed.any (model.txid · = id)

def isVisible (id : Id) : Bool := (ledger.lookup id).isSome

def spender (o : Outpoint) : Option Tx := ledger.known.find? (o ∈ model.spends ·)

def spentBy (o : Outpoint) : Option Id := (ledger.spender o).map model.txid

def confirmedSpender (o : Outpoint) : Option Id := (ledger.spentBy o).filter ledger.isConfirmed

end Queries

variable {ledger : Ledger model watched} {t : Tx}

theorem mem_known_of_confirmed (h : t ∈ ledger.confirmed) : t ∈ ledger.known :=
  List.mem_append_left _ h

theorem spends_eq_of_txid {u : Tx} (ht : t ∈ ledger.known ∨ t ∈ watched)
    (hu : u ∈ ledger.known ∨ u ∈ watched) (h : model.txid t = model.txid u) :
    model.spends t = model.spends u :=
  model.spends_congr t u
    (ledger.collisionFree t (List.mem_append.mpr ht) u (List.mem_append.mpr hu) h)

variable [DecidableEq Id] {id : Id}

theorem isConfirmed_iff :
    ledger.isConfirmed id = true ↔ ∃ t ∈ ledger.confirmed, model.txid t = id := by
  simp [isConfirmed]

theorem isVisible_iff : ledger.isVisible id = true ↔ ∃ t ∈ ledger.known, model.txid t = id := by
  simp [isVisible, lookup]

theorem of_lookup (h : ledger.lookup id = some t) : t ∈ ledger.known ∧ model.txid t = id :=
  ⟨List.mem_of_find?_eq_some h, by simpa using List.find?_some h⟩

theorem exists_lookup (ht : t ∈ ledger.known) :
    ∃ u, ledger.lookup (model.txid t) = some u ∧ model.spends u = model.spends t := by
  have hvisible : ledger.isVisible (model.txid t) = true := isVisible_iff.mpr ⟨t, ht, rfl⟩
  obtain ⟨u, hu⟩ := Option.isSome_iff_exists.mp hvisible
  obtain ⟨humem, hid⟩ := of_lookup hu
  exact ⟨u, hu, spends_eq_of_txid (.inl humem) (.inl ht) hid⟩

theorem isVisible_of_isConfirmed (h : ledger.isConfirmed id = true) :
    ledger.isVisible id = true := by
  obtain ⟨t, ht, hid⟩ := isConfirmed_iff.mp h
  exact isVisible_iff.mpr ⟨t, mem_known_of_confirmed ht, hid⟩

variable [DecidableEq Outpoint] {o : Outpoint}

omit [DecidableEq Id] in
theorem of_spender (h : ledger.spender o = some t) : t ∈ ledger.known ∧ o ∈ model.spends t :=
  ⟨List.mem_of_find?_eq_some h, by simpa using List.find?_some h⟩

omit [DecidableEq Id] in
/-- A confirmed spender is the one the backend reports, whatever is pending. -/
theorem spentBy_of_confirmed (ht : t ∈ ledger.confirmed)
    (ho : o ∈ model.spends t) : ledger.spentBy o = some (model.txid t) := by
  have hfirst : (ledger.confirmed.find? (o ∈ model.spends ·)).isSome := by
    rw [List.find?_isSome]
    exact ⟨t, ht, by simpa using ho⟩
  obtain ⟨u, hu⟩ := Option.isSome_iff_exists.mp hfirst
  have humem : u ∈ ledger.confirmed := List.mem_of_find?_eq_some hu
  have huspends : o ∈ model.spends u := by simpa using List.find?_some hu
  have hspender : ledger.spender o = some u := by
    rw [spender, known, List.find?_append, hu, Option.some_or]
  rw [spentBy, hspender, Option.map_some, ledger.spentOnce u humem t ht o huspends ho]

theorem confirmedSpender_eq_some_iff : ledger.confirmedSpender o = some id ↔
      ∃ t ∈ ledger.confirmed, model.txid t = id ∧ o ∈ model.spends t := by
  constructor
  · intro h
    obtain ⟨hspent, hconf⟩ := Option.filter_eq_some_iff.mp h
    obtain ⟨u, hu, hid⟩ := Option.map_eq_some_iff.mp hspent
    obtain ⟨humem, huspends⟩ := of_spender hu
    obtain ⟨t, ht, htid⟩ := isConfirmed_iff.mp hconf
    -- the reported spender may be a pending copy of the confirmed transaction
    have hsame : model.spends t = model.spends u :=
      spends_eq_of_txid (.inl (mem_known_of_confirmed ht)) (.inl humem) (htid.trans hid.symm)
    exact ⟨t, ht, htid, hsame ▸ huspends⟩
  · rintro ⟨t, ht, hid, ho⟩
    rw [confirmedSpender, spentBy_of_confirmed ht ho, Option.filter_eq_some_iff]
    exact ⟨congrArg some hid, isConfirmed_iff.mpr ⟨t, ht, hid⟩⟩

theorem isConfirmed_of_confirmedSpender (h : ledger.confirmedSpender o = some id) :
    ledger.isConfirmed id = true :=
  (Option.filter_eq_some_iff.mp h).2

theorem spentBy_of_confirmedSpender (h : ledger.confirmedSpender o = some id) :
    ledger.spentBy o = some id :=
  (Option.filter_eq_some_iff.mp h).1

variable {g : Tx}

/-- A watched transaction that is confirmed is the confirmed spender of what it spends. -/
theorem confirmedSpender_of_watched (hg : g ∈ watched)
    (hconf : ledger.isConfirmed (model.txid g) = true) (ho : o ∈ model.spends g) :
    ledger.confirmedSpender o = some (model.txid g) := by
  obtain ⟨t, ht, hid⟩ := isConfirmed_iff.mp hconf
  have hsame := spends_eq_of_txid (.inl (mem_known_of_confirmed ht)) (.inr hg) hid
  exact confirmedSpender_eq_some_iff.mpr ⟨t, ht, hid, hsame ▸ ho⟩

theorem mem_spends_of_watched (hg : g ∈ watched)
    (h : ledger.confirmedSpender o = some (model.txid g)) : o ∈ model.spends g := by
  obtain ⟨t, ht, hid, ho⟩ := confirmedSpender_eq_some_iff.mp h
  exact spends_eq_of_txid (.inl (mem_known_of_confirmed ht)) (.inr hg) hid ▸ ho

/-- Two confirmed watched transactions that share an outpoint are one. -/
theorem txid_eq_of_shared {g' : Tx} (hg : g ∈ watched) (hg' : g' ∈ watched)
    (hconf : ledger.isConfirmed (model.txid g) = true)
    (hconf' : ledger.isConfirmed (model.txid g') = true)
    (ho : o ∈ model.spends g) (ho' : o ∈ model.spends g') : model.txid g = model.txid g' := by
  have h := confirmedSpender_of_watched hg hconf ho
  rw [confirmedSpender_of_watched hg' hconf' ho'] at h
  exact (Option.some.inj h).symm

/-- Confirmed transactions stay confirmed; nothing is said about pending ones. -/
structure Extends (ledger later : Ledger model watched) : Prop where
  confirmed : ledger.confirmed ⊆ later.confirmed

variable {later : Ledger model watched}

omit [DecidableEq Id] [DecidableEq Outpoint] in
theorem Extends.trans {last : Ledger model watched} (h : ledger.Extends later)
    (h' : later.Extends last) : ledger.Extends last := ⟨fun _ ht => h'.confirmed (h.confirmed ht)⟩

omit [DecidableEq Outpoint] in
theorem Extends.isConfirmed (h : ledger.Extends later)
    (hconf : ledger.isConfirmed id = true) : later.isConfirmed id = true := by
  obtain ⟨t, ht, hid⟩ := isConfirmed_iff.mp hconf
  exact isConfirmed_iff.mpr ⟨t, h.confirmed ht, hid⟩

theorem Extends.confirmedSpender (h : ledger.Extends later)
    (hspent : ledger.confirmedSpender o = some id) : later.confirmedSpender o = some id := by
  obtain ⟨t, ht, hid, ho⟩ := confirmedSpender_eq_some_iff.mp hspent
  exact confirmedSpender_eq_some_iff.mpr ⟨t, h.confirmed ht, hid, ho⟩

/-- A confirmed transaction has its parents confirmed, as far as they are watched. -/
def ParentsConfirmed (ledger : Ledger model watched) : Prop :=
  ∀ t ∈ ledger.confirmed, ∀ o ∈ model.spends t, ∀ g ∈ watched, model.owner o = model.txid g →
    ledger.isConfirmed (model.txid g) = true

theorem ParentsConfirmed.of_spent (h : ledger.ParentsConfirmed)
    (hspent : ledger.confirmedSpender o = some id)
    (hg : g ∈ watched) (howner : model.owner o = model.txid g) :
    ledger.isConfirmed (model.txid g) = true := by
  obtain ⟨t, ht, -, ho⟩ := confirmedSpender_eq_some_iff.mp hspent
  exact h t ht o ho g hg howner

end Ledger

end BitvmNode.Reasoning
