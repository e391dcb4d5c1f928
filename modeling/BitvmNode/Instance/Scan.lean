import BitvmNode.Instance.Store

/-!
# Paging over the instances

The maintenance walks the instance table page by page, one page a tick.
-/

namespace BitvmNode.Instance

open Reasoning Signing

structure InstancePageState where
  watermark : Int
  cursor : Option (Int × Uuid)
  deriving DecidableEq

def watermarkCondition (watermark : Int) (row : InstanceRow) : Bool := row.createdAt ≤ watermark

def cursorCondition (cursor : Int × Uuid) (row : InstanceRow) : Bool :=
  row.createdAt > cursor.1 ||
    (row.createdAt = cursor.1 && SqlValue.lt (.text cursor.2.hyphenated) row.idValue)

def pageQuery (query : InstanceQuery) (batchSize : Nat) (pageState : InstancePageState) :
    InstanceQuery :=
  let query := { query with ordered := true, limit := some batchSize }
  let query := query.withRawCondition (watermarkCondition pageState.watermark)
  match pageState.cursor with
  | some cursor => query.withRawCondition (cursorCondition cursor)
  | none => query

variable (instances : InstanceTable)

def findOneInstancePage (query : InstanceQuery) (batchSize : Nat)
    (pageState : InstancePageState) : List InstanceRow × Option InstancePageState :=
  let rows := findInstances instances (pageQuery query batchSize pageState)
  if rows.isEmpty then (rows, none)
  else if rows.length < batchSize then (rows, none)
  else
    match rows.getLast? with
    | some last => (rows, some { pageState with cursor := some (last.createdAt, last.instanceId) })
    | none => (rows, none)

/-- All pages until the state is reset; none if that takes more than `fuel` pages. -/
def sweep (instances : InstanceTable) (query : InstanceQuery) (batchSize : Nat) :
    Nat → InstancePageState → Option (List InstanceRow)
  | 0, _ => none
  | fuel + 1, pageState =>
      match findOneInstancePage instances query batchSize pageState with
      | (rows, none) => some rows
      | (rows, some next) => (sweep instances query batchSize fuel next).map (rows ++ ·)

def InstanceRow.orderLt (a b : InstanceRow) : Prop :=
  a.createdAt < b.createdAt ∨ (a.createdAt = b.createdAt ∧ SqlValue.lt a.idValue b.idValue = true)

instance : DecidableRel InstanceRow.orderLt := fun _ _ => inferInstanceAs (Decidable (_ ∨ _))

namespace InstanceRow

theorem orderLe_total (a b : InstanceRow) : a.orderLe b ∨ b.orderLe a := by
  rcases Int.lt_trichotomy a.createdAt b.createdAt with hlt | heq | hgt
  · exact .inl (.inl hlt)
  · by_cases hab : bytesLt a.instanceId.asBytes b.instanceId.asBytes = true
    · left
      right
      refine ⟨heq, ?_⟩
      rw [Bool.eq_false_iff]
      intro hba
      have hself := bytesLt_trans hab hba
      rw [bytesLt_irrefl] at hself
      cases hself
    · exact .inr (.inr ⟨heq.symm, Bool.eq_false_iff.mpr hab⟩)
  · exact .inr (.inl hgt)

variable {a b : InstanceRow}

theorem orderLe_iff_not_orderLt : a.orderLe b ↔ ¬ b.orderLt a := by
  unfold orderLe orderLt
  rw [not_or, not_and, Bool.not_eq_true]
  constructor
  · rintro (hlt | ⟨heq, hid⟩)
    · exact ⟨by omega, fun heq => by omega⟩
    · exact ⟨by omega, fun _ => hid⟩
  · rintro ⟨hle, hid⟩
    rcases Int.lt_trichotomy a.createdAt b.createdAt with hlt | heq | hgt
    · exact .inl hlt
    · exact .inr ⟨heq, hid heq.symm⟩
    · exact absurd hgt hle

theorem orderLt_trans {c : InstanceRow} (hab : a.orderLt b) (hbc : b.orderLt c) : a.orderLt c := by
  rcases hab with hab | ⟨hab, hab'⟩
  · rcases hbc with hbc | ⟨hbc, -⟩
    · exact .inl (by omega)
    · exact .inl (by omega)
  · rcases hbc with hbc | ⟨hbc, hbc'⟩
    · exact .inl (by omega)
    · exact .inr ⟨by omega, bytesLt_trans hab' hbc'⟩

theorem orderLt_trichotomy (a b : InstanceRow) :
    a.orderLt b ∨ (a.createdAt = b.createdAt ∧ a.instanceId = b.instanceId) ∨ b.orderLt a := by
  rcases Int.lt_trichotomy a.createdAt b.createdAt with hlt | heq | hgt
  · exact .inl (.inl hlt)
  · rcases bytesLt_trichotomy a.instanceId.asBytes b.instanceId.asBytes with hlt | hid | hgt
    · exact .inl (.inr ⟨heq, hlt⟩)
    · exact .inr (.inl ⟨heq, Uuid.asBytes_injective hid⟩)
    · exact .inr (.inr (.inr ⟨heq.symm, hgt⟩))
  · exact .inr (.inr (.inl hgt))

theorem orderLe_trans {c : InstanceRow} (hab : a.orderLe b) (hbc : b.orderLe c) : a.orderLe c := by
  rw [orderLe_iff_not_orderLt] at *
  intro hca
  -- `b` lies before `a`, or they have the same key
  rcases orderLt_trichotomy a b with hlt | ⟨hcreated, hid⟩ | hgt
  · exact hbc (orderLt_trans hca hlt)
  · apply hbc
    unfold orderLt idValue at *
    rw [← hcreated, ← hid]
    exact hca
  · exact hab hgt

end InstanceRow

variable (query : InstanceQuery)

theorem admits_withRawCondition (condition : InstanceRow → Bool) (row : InstanceRow) :
    (query.withRawCondition condition).admits row = (query.admits row && condition row) := by
  simp only [InstanceQuery.admits, InstanceQuery.withRawCondition, List.all_append, List.all_cons,
    List.all_nil, Bool.and_true, Bool.and_assoc]

def matchingRows (query : InstanceQuery) (watermark : Int) : List InstanceRow :=
  instances.rows.filter fun row => query.admits row && watermarkCondition watermark row

theorem cursorCondition_eq (cursor : Int × Uuid) (row : InstanceRow) :
    cursorCondition cursor row = decide (cursor.1 ≤ row.createdAt) := by
  have hid : SqlValue.lt (.text cursor.2.hyphenated) row.idValue = true := rfl
  unfold cursorCondition
  rw [hid, Bool.and_true, Bool.eq_iff_iff]
  simp only [Bool.or_eq_true, decide_eq_true_eq]
  omega

def pageRows (query : InstanceQuery) (pageState : InstancePageState) : List InstanceRow :=
  ((matchingRows instances query pageState.watermark).filter fun row =>
    pageState.cursor.all fun cursor => cursor.1 ≤ row.createdAt).insertionSort InstanceRow.orderLe

theorem admits_pageQuery (batchSize : Nat) (pageState : InstancePageState) (row : InstanceRow) :
    (pageQuery query batchSize pageState).admits row =
        ((pageState.cursor.all fun cursor => cursor.1 ≤ row.createdAt) &&
        (query.admits row && watermarkCondition pageState.watermark row)) := by
  have hbase : InstanceQuery.admits { query with ordered := true, limit := some batchSize } row =
      query.admits row := rfl
  unfold pageQuery
  cases pageState.cursor with
  | none => simp only [admits_withRawCondition, hbase, Option.all_none, Bool.true_and]
  | some cursor =>
    simp only [admits_withRawCondition, hbase, cursorCondition_eq, Option.all_some]
    exact Bool.and_comm _ _

theorem findInstances_pageQuery (batchSize : Nat) (pageState : InstancePageState) :
    findInstances instances (pageQuery query batchSize pageState) =
      (pageRows instances query pageState).take batchSize := by
  have hordered : (pageQuery query batchSize pageState).ordered = true := by
    unfold pageQuery
    cases pageState.cursor <;> rfl
  have hlimit : (pageQuery query batchSize pageState).limit = some batchSize := by
    unfold pageQuery
    cases pageState.cursor <;> rfl
  unfold findInstances pageRows matchingRows
  simp only [hordered, hlimit, if_true, List.filter_filter]
  congr 3
  funext row
  exact admits_pageQuery query batchSize pageState row

theorem pairwise_pageRows (pageState : InstancePageState) :
    (pageRows instances query pageState).Pairwise InstanceRow.orderLe := by
  have htotal : Std.Total InstanceRow.orderLe := ⟨InstanceRow.orderLe_total⟩
  have htrans : IsTrans InstanceRow InstanceRow.orderLe := ⟨fun _ _ _ => InstanceRow.orderLe_trans⟩
  exact List.pairwise_insertionSort _ _

variable {instances : InstanceTable} {query : InstanceQuery} {pageState : InstancePageState}

theorem mem_pageRows {row : InstanceRow} : row ∈ pageRows instances query pageState ↔
      row ∈ matchingRows instances query pageState.watermark ∧
        ∀ cursor, pageState.cursor = some cursor → cursor.1 ≤ row.createdAt := by
  unfold pageRows
  cases pageState.cursor <;> simp

/-- Every matching row is returned once, in order, after finitely many pages. -/
def SweepExact (instances : InstanceTable) (query : InstanceQuery) (batchSize : Nat)
    (watermark : Int) : Prop :=
  ∃ fuel rows, sweep instances query batchSize fuel ⟨watermark, none⟩ = some rows ∧
    rows.Pairwise InstanceRow.orderLt ∧
    ∀ row, row ∈ rows ↔ row ∈ matchingRows instances query watermark

theorem fst_findOneInstancePage (instances : InstanceTable) (query : InstanceQuery)
    (batchSize : Nat) (pageState : InstancePageState) :
    (findOneInstancePage instances query batchSize pageState).1 =
      (pageRows instances query pageState).take batchSize := by
  rw [← findInstances_pageQuery]
  dsimp only [findOneInstancePage]
  split_ifs
  · rfl
  · rfl
  · cases (findInstances instances (pageQuery query batchSize pageState)).getLast? <;> rfl

variable {batchSize : Nat}

theorem findOneInstancePage_of_lt (h : (pageRows instances query pageState).length < batchSize) :
    findOneInstancePage instances query batchSize pageState =
      (pageRows instances query pageState, none) := by
  unfold findOneInstancePage
  rw [findInstances_pageQuery, List.take_of_length_le (by omega)]
  dsimp only
  rw [if_pos h, ite_self]

theorem findOneInstancePage_of_le (hbatch : 1 ≤ batchSize)
    (h : batchSize ≤ (pageRows instances query pageState).length) :
    ∃ last, ((pageRows instances query pageState).take batchSize).getLast? = some last ∧
      findOneInstancePage instances query batchSize pageState =
          ((pageRows instances query pageState).take batchSize,
          some { pageState with cursor := some (last.createdAt, last.instanceId) }) := by
  have hlength : ((pageRows instances query pageState).take batchSize).length = batchSize := by
    rw [List.length_take, Nat.min_eq_left h]
  have hne : (pageRows instances query pageState).take batchSize ≠ [] := by
    intro hnil
    rw [hnil, List.length_nil] at hlength
    omega
  refine ⟨_, List.getLast?_eq_some_getLast hne, ?_⟩
  unfold findOneInstancePage
  rw [findInstances_pageQuery]
  rw [if_neg (by simpa using hne), if_neg (by omega), List.getLast?_eq_some_getLast hne]

theorem sweep_eq_some {fuel : Nat} {rows : List InstanceRow}
    (h : sweep instances query batchSize fuel pageState = some rows) :
    ∃ later, rows = (pageRows instances query pageState).take batchSize ++ later := by
  cases fuel with
  | zero => cases h
  | succ fuel =>
    have hfirst := fst_findOneInstancePage instances query batchSize pageState
    unfold sweep at h
    split at h
    next page heq =>
      rw [heq] at hfirst
      cases h
      exact ⟨[], by rw [List.append_nil]; exact hfirst⟩
    next page next heq =>
      rw [heq] at hfirst
      obtain ⟨later, -, hrows⟩ := Option.map_eq_some_iff.mp h
      exact ⟨later, by rw [← hrows, ← hfirst]⟩

theorem pairwise_orderLt_of_orderLe {rows : List InstanceRow}
    (hrows : rows.Pairwise InstanceRow.orderLe) (hnodup : (rows.map InstanceRow.instanceId).Nodup) :
    rows.Pairwise InstanceRow.orderLt := by
  have hne : rows.Pairwise fun a b => a.instanceId ≠ b.instanceId := List.pairwise_map.mp hnodup
  apply (hrows.and hne).imp
  rintro a b ⟨hle, hid⟩
  rcases InstanceRow.orderLt_trichotomy a b with hlt | ⟨-, hsame⟩ | hgt
  · exact hlt
  · exact absurd hsame hid
  · exact absurd hgt (InstanceRow.orderLe_iff_not_orderLt.mp hle)

theorem nodup_pageRows (instances : InstanceTable) (query : InstanceQuery)
    (pageState : InstancePageState) :
    ((pageRows instances query pageState).map InstanceRow.instanceId).Nodup := by
  have hsublist : ((matchingRows instances query pageState.watermark).filter fun row =>
      pageState.cursor.all fun cursor => cursor.1 ≤ row.createdAt).Sublist instances.rows :=
    List.filter_sublist.trans List.filter_sublist
  have hperm := (List.perm_insertionSort InstanceRow.orderLe
    ((matchingRows instances query pageState.watermark).filter fun row =>
      pageState.cursor.all fun cursor => cursor.1 ≤ row.createdAt)).map InstanceRow.instanceId
  exact hperm.nodup_iff.mpr (instances.nodup.sublist (hsublist.map InstanceRow.instanceId))

theorem length_pageRows_first (instances : InstanceTable) (query : InstanceQuery)
    (watermark : Int) :
    (pageRows instances query ⟨watermark, none⟩).length =
      (matchingRows instances query watermark).length := by
  unfold pageRows
  simp

/-- The page after a full one opens with a row that the sweep has already reached: its cursor lets
the last row, and all of that time, in again. -/
theorem head_le_last {watermark : Int} {last : InstanceRow}
    (hlast : ((pageRows instances query ⟨watermark, none⟩).take batchSize).getLast? = some last) :
    ∃ head, (pageRows instances query ⟨watermark, some (last.createdAt, last.instanceId)⟩).head? =
      some head ∧
      head.orderLe last := by
  have hmem : last ∈ pageRows instances query ⟨watermark, none⟩ :=
    List.mem_of_mem_take (List.mem_of_getLast? hlast)
  have hagain : last ∈ pageRows instances query ⟨watermark,
    some (last.createdAt, last.instanceId)⟩ := by
    refine mem_pageRows.mpr ⟨(mem_pageRows.mp hmem).1, ?_⟩
    rintro cursor ⟨⟩
    exact le_rfl
  have hsorted := pairwise_pageRows instances query ⟨watermark,
    some (last.createdAt, last.instanceId)⟩
  cases hpage : pageRows instances query ⟨watermark, some (last.createdAt, last.instanceId)⟩ with
  | nil =>
    rw [hpage] at hagain
    cases hagain
  | cons head tail =>
    refine ⟨head, rfl, ?_⟩
    rw [hpage] at hagain hsorted
    rcases List.mem_cons.mp hagain with rfl | htail
    · exact (InstanceRow.orderLe_total last last).elim id id
    · exact List.rel_of_pairwise_cons hsorted htail

/-- The sweep is exact for the tables whose matching rows do not fill one page, and for no
others. -/
theorem sweep_exact_iff (instances : InstanceTable) (query : InstanceQuery) (batchSize : Nat)
    (hbatch : 1 ≤ batchSize) (watermark : Int) : SweepExact instances query batchSize watermark ↔
      (matchingRows instances query watermark).length < batchSize := by
  rw [← length_pageRows_first]
  constructor
  · rintro ⟨fuel, rows, hsweep, hsorted, -⟩
    by_contra hfull
    obtain ⟨last, hlast, hpage⟩ := findOneInstancePage_of_le hbatch (Nat.le_of_not_lt hfull)
    obtain ⟨head, hhead, hle⟩ := head_le_last hlast
    cases fuel with
    | zero => cases hsweep
    | succ fuel =>
      unfold sweep at hsweep
      rw [hpage] at hsweep
      obtain ⟨second, hsecond, hrows⟩ := Option.map_eq_some_iff.mp hsweep
      obtain ⟨later, rfl⟩ := sweep_eq_some hsecond
      -- the last row of the first page stands before the first row of the second
      have hlast' := List.mem_of_getLast? hlast
      have hhead' : head ∈ (pageRows instances query
          ⟨watermark, some (last.createdAt, last.instanceId)⟩).take batchSize := by
        apply List.mem_of_head?
        rw [List.head?_take, if_neg (by omega)]
        exact hhead
      rw [← hrows] at hsorted
      have hlt := (List.pairwise_append.mp hsorted).2.2 last hlast' head
        (List.mem_append_left _ hhead')
      exact InstanceRow.orderLe_iff_not_orderLt.mp hle hlt
  · intro hlt
    refine ⟨1, pageRows instances query ⟨watermark, none⟩, ?_, ?_, ?_⟩
    · unfold sweep
      rw [findOneInstancePage_of_lt hlt]
    · exact pairwise_orderLt_of_orderLe (pairwise_pageRows _ _ _) (nodup_pageRows _ _ _)
    · intro row
      rw [mem_pageRows]
      exact and_iff_left (fun _ hcursor => nomatch hcursor)

namespace FullPage

def requested (instanceId : Uuid) (createdAt : Int) : InstanceRow where
  instanceId := instanceId
  network := "regtest"
  fromAddr := "0x01"
  toAddr := "bcrt1q"
  amount := 100000
  fees := []
  inputUtxos := "[]"
  status := .userInited
  goatTxHash := "0x02"
  goatTxHeight := 7
  userXonlyPubkey := []
  userChangeAddr := "bcrt1q"
  userRefundAddr := "bcrt1q"
  btcTxid := none
  btcHeight := 0
  peginConfirmTxid := none
  peginCancelTxid := none
  committeesAnswers := []
  peginDataTxHash := "0x03"
  parameters := none
  postPeginTxhash := none
  keyDeleted := false
  statusUpdatedAt := createdAt
  createdAt := createdAt
  updatedAt := createdAt

def twoRequests : InstanceTable := ⟨[requested 1 10, requested 2 20], by decide⟩

/-- With pages of two the second row is returned by the first page and again by the second. -/
theorem second_row_returned_twice :
    sweep twoRequests {} 2 2 ⟨30, none⟩ = some [requested 1 10, requested 2 20, requested 2 20] ∧
      ¬ SweepExact twoRequests {} 2 30 := by
  have hpage : findOneInstancePage twoRequests {} 2 ⟨30, none⟩ =
      ([requested 1 10, requested 2 20], some ⟨30, some (20, 2)⟩) := by decide +kernel
  have hnext : findOneInstancePage twoRequests {} 2 ⟨30, some (20, 2)⟩ =
      ([requested 2 20], none) := by decide +kernel
  have hsweep (fuel : Nat) : sweep twoRequests {} 2 (fuel + 2) ⟨30, none⟩ =
      some [requested 1 10, requested 2 20, requested 2 20] := by
    simp only [sweep, hpage, hnext, Option.map_some, List.cons_append, List.nil_append]
  refine ⟨hsweep 0, ?_⟩
  rintro ⟨fuel, rows, hrows, hsorted, -⟩
  match fuel with
  | 0 => cases hrows
  | 1 =>
    cases hrows
  | fuel + 2 =>
    cases hrows
    revert hsorted
    decide +kernel

theorem two_requests_swept : SweepExact twoRequests {} 3 30 :=
  (sweep_exact_iff twoRequests {} 3 (by decide) 30).mpr (by decide +kernel)

end FullPage

end BitvmNode.Instance
