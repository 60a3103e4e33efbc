import PlugAgente.Execution.SaveExecution

/-!
# Pages of the execution history

`listExecutionPage` of the action repository over the rows of the execution table.  A time is
stored as whole seconds, and a cursor is made of an execution that was loaded again, so that it
has lost what the table has lost.

The text column `id` is compared by SQLite byte for byte, which is the order of `String`.
`HistoryKey` is what the query orders by; `next_page` says that the rows after the cursor of a
row are those behind it in the order, and `followPages_eq` follows the cursors to the end.
-/

namespace PlugAgente.History

open Execution (AgentActionExecutionStatus)

variable {ρ : Type}

/-- `AgentActionExecution`, with what the queries do not read in `rest`.  A time is its
microseconds since the epoch. -/
structure AgentActionExecution (ρ : Type) where
  id : String
  actionId : String
  status : AgentActionExecutionStatus
  requestedAt : Int
  idempotencyKey : Option String
  rest : ρ

/-- A row of the execution table. -/
structure AgentActionExecutionData (ρ : Type) where
  id : String
  actionId : String
  status : String
  requestedAt : Int
  idempotencyKey : Option String
  rest : ρ

structure AgentActionHistoryCursor where
  requestedAt : Int
  executionId : String

/-- The filters of `listExecutions`. -/
structure HistoryFilter where
  actionId : Option String := none
  idempotencyKey : Option String := none
  statuses : Option (List AgentActionExecutionStatus) := none
  requestedAfter : Option Int := none

inductive HistoryFailure where
  /-- `ActionValidationFailure`. -/
  | validation (message : String)
  /-- No status has the name. -/
  | argument (name : String)
  deriving DecidableEq, Repr

/-- `status.name`. -/
def statusName : AgentActionExecutionStatus → String
  | .queued => "queued"
  | .running => "running"
  | .succeeded => "succeeded"
  | .failed => "failed"
  | .skipped => "skipped"
  | .cancelled => "cancelled"
  | .killed => "killed"
  | .timedOut => "timedOut"
  | .interrupted => "interrupted"
  | .unknown => "unknown"

/-- `AgentActionExecutionStatus.values`. -/
def statusValues : List AgentActionExecutionStatus :=
  [.queued, .running, .succeeded, .failed, .skipped, .cancelled, .killed, .timedOut, .interrupted,
    .unknown]

/-- `AgentActionExecutionStatus.values.byName(name)`. -/
def statusByName (name : String) : Except HistoryFailure AgentActionExecutionStatus :=
  match statusValues.find? fun status => statusName status = name with
  | some status => .ok status
  | none => .error (.argument name)

theorem statusByName_statusName (status : AgentActionExecutionStatus) :
    statusByName (statusName status) = .ok status := by
  cases status <;> rfl

theorem statusName_inj {a b : AgentActionExecutionStatus} :
    statusName a = statusName b ↔ a = b := by
  constructor
  · intro h
    have hname := statusByName_statusName a
    rw [h, statusByName_statusName] at hname
    exact (Except.ok.inj hname).symm
  · exact congrArg statusName

/-! ## Times -/

/-- What a time is in SQL: whole seconds. -/
def sqlSeconds (time : Int) : Int := (time.tdiv 1000).tdiv 1000

/-- The time that is read back. -/
def timeOfSeconds (seconds : Int) : Int := seconds * 1000 * 1000

@[simp] theorem sqlSeconds_timeOfSeconds (seconds : Int) :
    sqlSeconds (timeOfSeconds seconds) = seconds := by
  unfold sqlSeconds timeOfSeconds
  rw [Int.mul_tdiv_cancel _ (by omega), Int.mul_tdiv_cancel _ (by omega)]

theorem sqlSeconds_mono {a b : Int} (h : a ≤ b) : sqlSeconds a ≤ sqlSeconds b :=
  Int.tdiv_le_tdiv (by omega) (Int.tdiv_le_tdiv (by omega) h)

/-! ## The query -/

/-- `executionToData`, as the row is stored. -/
def executionToData (execution : AgentActionExecution ρ) : AgentActionExecutionData ρ where
  id := execution.id
  actionId := execution.actionId
  status := statusName execution.status
  requestedAt := sqlSeconds execution.requestedAt
  idempotencyKey := execution.idempotencyKey
  rest := execution.rest

def executionFromData (data : AgentActionExecutionData ρ) :
    Except HistoryFailure (AgentActionExecution ρ) :=
  match statusByName data.status with
  | .error failure => .error failure
  | .ok status =>
    .ok
      { id := data.id
        actionId := data.actionId
        status := status
        requestedAt := timeOfSeconds data.requestedAt
        idempotencyKey := data.idempotencyKey
        rest := data.rest }

/-- The order of the query: `requestedAt` descending, then `id` ascending. -/
def ordered (a b : AgentActionExecutionData ρ) : Bool :=
  b.requestedAt < a.requestedAt || (a.requestedAt = b.requestedAt && a.id ≤ b.id)

/-- The condition of the cursor. -/
def isAfter (after : AgentActionHistoryCursor) (row : AgentActionExecutionData ρ) : Bool :=
  row.requestedAt < sqlSeconds after.requestedAt ||
    (row.requestedAt = sqlSeconds after.requestedAt && after.executionId < row.id)

/-- The conditions of the filters; a row without a key equals no key. -/
def HistoryFilter.selects (filter : HistoryFilter) (row : AgentActionExecutionData ρ) : Bool :=
  (match filter.actionId with
    | none => true
    | some actionId => row.actionId = actionId) &&
  (match filter.idempotencyKey with
    | none => true
    | some key => row.idempotencyKey = some key) &&
  (match filter.statuses with
    | none => true
    | some [] => true
    | some statuses => row.status ∈ statuses.map statusName) &&
  (match filter.requestedAfter with
    | none => true
    | some time => sqlSeconds time ≤ row.requestedAt)

def resolveListExecutionsLimit : Option Int → Option Nat
  | none => some 500
  | some limit => if limit ≤ 0 then none else some limit.toNat

/-- The rows of an answer are read one after the other. -/
def executionsFromData : List (AgentActionExecutionData ρ) →
    Except HistoryFailure (List (AgentActionExecution ρ))
  | [] => .ok []
  | row :: rows =>
    match executionFromData row with
    | .error failure => .error failure
    | .ok execution =>
      match executionsFromData rows with
      | .error failure => .error failure
      | .ok executions => .ok (execution :: executions)

def listExecutions (rows : List (AgentActionExecutionData ρ)) (filter : HistoryFilter)
    (limit : Option Int) (after : Option AgentActionHistoryCursor) :
    Except HistoryFailure (List (AgentActionExecution ρ)) :=
  let found := (rows.filter fun row =>
    (match after with
      | none => true
      | some cursor => isAfter cursor row) && filter.selects row).mergeSort ordered
  executionsFromData
    (match resolveListExecutionsLimit limit with
      | none => found
      | some limit => found.take limit)

def listExecutionPage (rows : List (AgentActionExecutionData ρ)) (filter : HistoryFilter)
    (limit : Int) (after : Option AgentActionHistoryCursor) :
    Except HistoryFailure (List (AgentActionExecution ρ)) :=
  if limit < 1 || 1000 < limit then
    .error (.validation "History page size must be between 1 and 1000.")
  else listExecutions rows filter (some limit) after

/-- The pages one after the other, each with the cursor of the last execution of the one before,
until one is shorter than the limit.  `none` is a reader that has not come to the end. -/
def followPages (rows : List (AgentActionExecutionData ρ)) (filter : HistoryFilter) (limit : Int) :
    Nat → Option AgentActionHistoryCursor →
      Except HistoryFailure (Option (List (AgentActionExecution ρ)))
  | 0, _ => .ok none
  | pages + 1, after =>
    match listExecutionPage rows filter limit after with
    | .error failure => .error failure
    | .ok page =>
      if (page.length : Int) < limit then .ok (some page)
      else
        match followPages rows filter limit pages
            (page.getLast?.map fun last => ⟨last.requestedAt, last.id⟩) with
        | .error failure => .error failure
        | .ok later => .ok (later.map (page ++ ·))

/-! ## The order -/

/-- What the query orders by. -/
abbrev HistoryKey : Type := Int ᵒᵈ ×ₗ String

def AgentActionExecutionData.key (row : AgentActionExecutionData ρ) : HistoryKey :=
  toLex (OrderDual.toDual row.requestedAt, row.id)

def AgentActionHistoryCursor.key (cursor : AgentActionHistoryCursor) : HistoryKey :=
  toLex (OrderDual.toDual (sqlSeconds cursor.requestedAt), cursor.executionId)

theorem ordered_iff {a b : AgentActionExecutionData ρ} : ordered a b = true ↔ a.key ≤ b.key := by
  simp [ordered, AgentActionExecutionData.key, Prod.Lex.toLex_le_toLex]

theorem isAfter_iff {cursor : AgentActionHistoryCursor} {row : AgentActionExecutionData ρ} :
    isAfter cursor row = true ↔ cursor.key < row.key := by
  unfold isAfter AgentActionHistoryCursor.key AgentActionExecutionData.key
  rw [Prod.Lex.toLex_lt_toLex, OrderDual.toDual_lt_toDual, OrderDual.toDual_inj,
    eq_comm (a := sqlSeconds cursor.requestedAt)]
  simp only [Bool.or_eq_true, Bool.and_eq_true, decide_eq_true_eq]

theorem id_of_key {a b : AgentActionExecutionData ρ} (h : a.key = b.key) : a.id = b.id :=
  congrArg (fun key : HistoryKey => (ofLex key).2) h

/-- The rows of an answer before the limit. -/
def orderedRows (rows : List (AgentActionExecutionData ρ)) : List (AgentActionExecutionData ρ) :=
  rows.mergeSort ordered

theorem pairwise_orderedRows (rows : List (AgentActionExecutionData ρ)) :
    (orderedRows rows).Pairwise fun a b => ordered a b = true := by
  apply List.pairwise_mergeSort
  · intro a b c hab hbc
    rw [ordered_iff] at hab hbc ⊢
    exact hab.trans hbc
  · intro a b
    rw [Bool.or_eq_true, ordered_iff, ordered_iff]
    exact le_total a.key b.key

theorem perm_orderedRows (rows : List (AgentActionExecutionData ρ)) :
    (orderedRows rows).Perm rows :=
  List.mergeSort_perm rows ordered

section Rows

variable {rows : List (AgentActionExecutionData ρ)}

theorem strict_orderedRows (hids : (rows.map (·.id)).Nodup) :
    (orderedRows rows).Pairwise fun a b => a.key < b.key := by
  have hdistinct : (orderedRows rows).Pairwise fun a b => a.id ≠ b.id := by
    rw [← List.pairwise_map]
    exact ((perm_orderedRows rows).map _).nodup_iff.mpr hids
  refine (pairwise_orderedRows rows).imp₂ ?_ hdistinct
  intro a b hab hne
  exact lt_of_le_of_ne (ordered_iff.mp hab) fun hkey => hne (id_of_key hkey)

theorem orderedRows_filter (hids : (rows.map (·.id)).Nodup)
    (p : AgentActionExecutionData ρ → Bool) :
    orderedRows (rows.filter p) = (orderedRows rows).filter p := by
  have hperm : (orderedRows (rows.filter p)).Perm ((orderedRows rows).filter p) :=
    (perm_orderedRows _).trans ((perm_orderedRows rows).filter p).symm
  refine hperm.eq_of_pairwise ?_ (pairwise_orderedRows _) ((pairwise_orderedRows rows).filter p)
  intro a b ha hb hab hba
  have hkey : a.key = b.key := le_antisymm (ordered_iff.mp hab) (ordered_iff.mp hba)
  have ha := (perm_orderedRows rows).mem_iff.mp (List.mem_filter.mp (hperm.mem_iff.mp ha)).1
  have hb := (perm_orderedRows rows).mem_iff.mp (List.mem_filter.mp hb).1
  exact List.inj_on_of_nodup_map hids ha hb (id_of_key hkey)

theorem next_page (hids : (rows.map (·.id)).Nodup) {filter : HistoryFilter}
    {before later : List (AgentActionExecutionData ρ)} {row : AgentActionExecutionData ρ}
    (hrows : orderedRows (rows.filter filter.selects) = before ++ row :: later)
    {cursor : AgentActionHistoryCursor} (hcursor : cursor.key = row.key) :
    orderedRows (rows.filter fun r => isAfter cursor r && filter.selects r) = later := by
  have hsub : ((rows.filter filter.selects).map (·.id)).Nodup :=
    hids.sublist (List.filter_sublist.map _)
  have hstrict := strict_orderedRows hsub
  rw [hrows, List.pairwise_append, List.pairwise_cons] at hstrict
  obtain ⟨-, ⟨hlater, -⟩, hbefore⟩ := hstrict
  have hskip : ∀ r ∈ before, isAfter cursor r = false := by
    intro r hr
    rw [Bool.eq_false_iff, Ne, isAfter_iff, hcursor]
    exact (hbefore r hr row List.mem_cons_self).asymm
  have hself : isAfter cursor row = false := by
    rw [Bool.eq_false_iff, Ne, isAfter_iff, hcursor]
    exact lt_irrefl _
  have hkeep : ∀ r ∈ later, isAfter cursor r = true := by
    intro r hr
    rw [isAfter_iff, hcursor]
    exact hlater r hr
  rw [← List.filter_filter, orderedRows_filter hsub, hrows, List.filter_append,
    List.filter_eq_nil_iff.mpr (by simpa using hskip), List.nil_append,
    List.filter_cons_of_neg (by simp [hself]), List.filter_eq_self.mpr hkeep]

end Rows

/-! ## Following the cursors -/

/-- An execution as it is loaded again. -/
def AgentActionExecution.loaded (execution : AgentActionExecution ρ) : AgentActionExecution ρ :=
  { execution with requestedAt := timeOfSeconds (sqlSeconds execution.requestedAt) }

def AgentActionExecution.cursor (execution : AgentActionExecution ρ) : AgentActionHistoryCursor :=
  ⟨execution.requestedAt, execution.id⟩

theorem executionFromData_executionToData (execution : AgentActionExecution ρ) :
    executionFromData (executionToData execution) = .ok execution.loaded := by
  unfold executionFromData
  rw [show (executionToData execution).status = statusName execution.status from rfl,
    statusByName_statusName]
  rfl

theorem executionsFromData_map (executions : List (AgentActionExecution ρ)) :
    executionsFromData (executions.map executionToData) =
      .ok (executions.map AgentActionExecution.loaded) := by
  induction executions with
  | nil => rfl
  | cons execution rest ih =>
    simp only [List.map_cons, executionsFromData, executionFromData_executionToData, ih]

theorem key_cursor_loaded (execution : AgentActionExecution ρ) :
    execution.loaded.cursor.key = (executionToData execution).key := by
  unfold AgentActionHistoryCursor.key AgentActionExecutionData.key
  rw [show execution.loaded.cursor.requestedAt =
    timeOfSeconds (sqlSeconds execution.requestedAt) from rfl, sqlSeconds_timeOfSeconds]
  rfl

/-- The rows that the query finds before it is cut off. -/
def foundRows (rows : List (AgentActionExecutionData ρ)) (filter : HistoryFilter)
    (after : Option AgentActionHistoryCursor) : List (AgentActionExecutionData ρ) :=
  orderedRows (rows.filter fun row =>
    (match after with
      | none => true
      | some cursor => isAfter cursor row) && filter.selects row)

theorem listExecutionPage_eq {rows : List (AgentActionExecutionData ρ)} {filter : HistoryFilter}
    {limit : Int} (hlimit : 1 ≤ limit ∧ limit ≤ 1000) {after : Option AgentActionHistoryCursor}
    {left : List (AgentActionExecution ρ)}
    (hleft : foundRows rows filter after = left.map executionToData) :
    listExecutionPage rows filter limit after =
      .ok ((left.take limit.toNat).map AgentActionExecution.loaded) := by
  have hguard : (decide (limit < 1) || decide (1000 < limit)) = false := by
    simp only [Bool.or_eq_false_iff, decide_eq_false_iff_not]
    omega
  have hresolve : resolveListExecutionsLimit (some limit) = some limit.toNat :=
    if_neg (by omega)
  unfold listExecutionPage listExecutions
  rw [hguard, hresolve]
  change executionsFromData ((foundRows rows filter after).take limit.toNat) = _
  rw [hleft, ← List.map_take, executionsFromData_map]

theorem followPages_left {rows : List (AgentActionExecutionData ρ)}
    (hids : (rows.map (·.id)).Nodup) {filter : HistoryFilter} {limit : Int}
    (hlimit : 1 ≤ limit ∧ limit ≤ 1000) (pages : Nat) {before left : List (AgentActionExecution ρ)}
    (hrows : orderedRows (rows.filter filter.selects) = (before ++ left).map executionToData)
    {after : Option AgentActionHistoryCursor}
    (hleft : foundRows rows filter after = left.map executionToData)
    (hpages : left.length < pages) :
    followPages rows filter limit pages after =
      .ok (some (left.map AgentActionExecution.loaded)) := by
  induction pages generalizing before left after with
  | zero => omega
  | succ pages ih =>
    rw [followPages, listExecutionPage_eq hlimit hleft]
    simp only [List.length_map, List.length_take]
    split
    · rw [List.take_of_length_le (by omega)]
    · rename_i hfull
      -- The page is full: its last execution is the row before what is left.
      have hlong : limit.toNat ≤ left.length := by omega
      obtain ⟨first, last, hpage⟩ : ∃ first last, left.take limit.toNat = first ++ [last] := by
        have hne : left.take limit.toNat ≠ [] := by
          intro hnil
          have hlength := congrArg List.length hnil
          rw [List.length_take, List.length_nil] at hlength
          omega
        exact ⟨_, _, (List.dropLast_append_getLast hne).symm⟩
      have hsplit : left = first ++ last :: left.drop limit.toNat := by
        conv_lhs => rw [← List.take_append_drop limit.toNat left, hpage]
        rw [List.append_assoc, List.singleton_append]
      have hcursor : ((left.take limit.toNat).map AgentActionExecution.loaded).getLast?.map
          (fun last => (⟨last.requestedAt, last.id⟩ : AgentActionHistoryCursor)) =
            some last.loaded.cursor := by
        rw [hpage, List.map_append, List.map_singleton, List.getLast?_concat]
        rfl
      have hlater : orderedRows (rows.filter filter.selects) =
          ((before ++ first ++ [last]) ++ left.drop limit.toNat).map executionToData := by
        rw [hrows]
        conv_lhs => rw [hsplit]
        simp
      have hmiddle : orderedRows (rows.filter filter.selects) =
          (before ++ first).map executionToData ++
            executionToData last :: (left.drop limit.toNat).map executionToData := by
        rw [hlater]
        simp
      have hnext : foundRows rows filter (some last.loaded.cursor) =
          (left.drop limit.toNat).map executionToData :=
        next_page hids hmiddle (key_cursor_loaded last)
      rw [hcursor, ih hlater hnext (by rw [List.length_drop]; omega)]
      simp only [Option.map_some, ← List.map_append, List.take_append_drop]

/-! ## The whole history -/

/-- The executions of the table, as they were saved: one for each id. -/
structure ExecutionHistory (ρ : Type) where
  executions : List (AgentActionExecution ρ)
  ids : (executions.map (·.id)).Nodup

/-- The rows of the table. -/
def ExecutionHistory.rows (history : ExecutionHistory ρ) : List (AgentActionExecutionData ρ) :=
  history.executions.map executionToData

/-- An execution matches a filter, with times read by `clock`. -/
structure HistoryFilter.Matches (filter : HistoryFilter) (clock : Int → Int)
    (execution : AgentActionExecution ρ) : Prop where
  action : ∀ actionId, filter.actionId = some actionId → execution.actionId = actionId
  key : ∀ key, filter.idempotencyKey = some key → execution.idempotencyKey = some key
  status : ∀ statuses, filter.statuses = some statuses → statuses ≠ [] →
    execution.status ∈ statuses
  time : ∀ time, filter.requestedAfter = some time → clock time ≤ clock execution.requestedAt

theorem selects_iff {filter : HistoryFilter} {execution : AgentActionExecution ρ} :
    filter.selects (executionToData execution) = true ↔ filter.Matches sqlSeconds execution := by
  obtain ⟨actionId, key, statuses, time⟩ := filter
  have hstatus : ∀ statuses : List AgentActionExecutionStatus,
      (executionToData execution).status ∈ statuses.map statusName ↔
        execution.status ∈ statuses := by
    intro statuses
    rw [List.mem_map]
    constructor
    · rintro ⟨status, hmem, hname⟩
      rwa [← statusName_inj.mp hname]
    · exact fun hmem => ⟨_, hmem, rfl⟩
  unfold HistoryFilter.selects
  simp only [Bool.and_eq_true]
  constructor
  · rintro ⟨⟨⟨haction, hkey⟩, hstatuses⟩, htime⟩
    refine ⟨?_, ?_, ?_, ?_⟩
    · rintro _ rfl
      exact of_decide_eq_true haction
    · rintro _ rfl
      exact of_decide_eq_true hkey
    · rintro (_ | ⟨first, rest⟩) rfl hne
      · exact absurd rfl hne
      · exact (hstatus _).mp (of_decide_eq_true hstatuses)
    · rintro _ rfl
      exact of_decide_eq_true htime
  · rintro ⟨haction, hkey, hstatuses, htime⟩
    refine ⟨⟨⟨?_, ?_⟩, ?_⟩, ?_⟩
    · cases actionId with
      | none => rfl
      | some actionId => exact decide_eq_true (haction actionId rfl)
    · cases key with
      | none => rfl
      | some key => exact decide_eq_true (hkey key rfl)
    · rcases statuses with _ | _ | ⟨first, rest⟩
      · rfl
      · rfl
      · exact decide_eq_true ((hstatus _).mpr (hstatuses _ rfl (by simp)))
    · cases time with
      | none => rfl
      | some time => exact decide_eq_true (htime time rfl)

theorem exists_ordered (history : ExecutionHistory ρ) (filter : HistoryFilter) :
    ∃ found : List (AgentActionExecution ρ),
      orderedRows (history.rows.filter filter.selects) = found.map executionToData ∧
        found.Perm (history.executions.filter fun e => filter.selects (executionToData e)) := by
  refine ⟨(history.executions.filter fun e => filter.selects (executionToData e)).mergeSort
    fun a b => ordered (executionToData a) (executionToData b), ?_, List.mergeSort_perm _ _⟩
  rw [ExecutionHistory.rows, List.filter_map, orderedRows]
  exact (List.map_mergeSort (s := ordered) (f := executionToData) fun _ _ _ _ => rfl).symm

theorem ExecutionHistory.rows_ids (history : ExecutionHistory ρ) :
    (history.rows.map (·.id)).Nodup := by
  have hmap : history.rows.map (·.id) = history.executions.map (·.id) := by
    rw [ExecutionHistory.rows, List.map_map]
    rfl
  rw [hmap]
  exact history.ids

theorem timeOfSeconds_lt {a b : Int} : timeOfSeconds a < timeOfSeconds b ↔ a < b := by
  unfold timeOfSeconds
  omega

/-- Following the cursors returns the executions that match, each of them once, in the order of
the query.  An execution that matches with all of its time is one of them. -/
theorem followPages_complete (history : ExecutionHistory ρ) (filter : HistoryFilter) {limit : Int}
    (hlimit : 1 ≤ limit ∧ limit ≤ 1000) {pages : Nat}
    (hpages : history.executions.length < pages) :
    ∃ found, followPages history.rows filter limit pages none = .ok (some found) ∧
      found.Pairwise (fun a b =>
        b.requestedAt < a.requestedAt ∨ a.requestedAt = b.requestedAt ∧ a.id < b.id) ∧
      (∀ e, e ∈ found ↔
        ∃ saved ∈ history.executions, filter.Matches sqlSeconds saved ∧ e = saved.loaded) ∧
      ∀ saved ∈ history.executions, filter.Matches id saved → saved.loaded ∈ found := by
  obtain ⟨found, hrows, hperm⟩ := exists_ordered history filter
  have hmem : ∀ e, e ∈ found.map AgentActionExecution.loaded ↔
      ∃ saved ∈ history.executions, filter.Matches sqlSeconds saved ∧ e = saved.loaded := by
    intro e
    rw [List.mem_map]
    constructor
    · rintro ⟨saved, hsaved, rfl⟩
      obtain ⟨hin, hselects⟩ := List.mem_filter.mp (hperm.mem_iff.mp hsaved)
      exact ⟨saved, hin, selects_iff.mp hselects, rfl⟩
    · rintro ⟨saved, hin, hmatches, rfl⟩
      have hsaved : saved ∈ history.executions.filter
          fun e => filter.selects (executionToData e) :=
        List.mem_filter.mpr ⟨hin, selects_iff.mpr hmatches⟩
      exact ⟨saved, hperm.mem_iff.mpr hsaved, rfl⟩
  refine ⟨found.map AgentActionExecution.loaded, ?_, ?_, hmem, ?_⟩
  · have hstart : orderedRows (history.rows.filter filter.selects) =
        ([] ++ found).map executionToData := hrows
    refine followPages_left history.rows_ids hlimit pages hstart ?_ ?_
    · rw [← hrows, foundRows]
      simp only [Bool.true_and]
    · have hlength := hperm.length_eq
      have hle := List.length_filter_le (fun e => filter.selects (executionToData e))
        history.executions
      omega
  · have hstrict := strict_orderedRows
      (history.rows_ids.sublist ((List.filter_sublist (p := filter.selects)).map _))
    rw [hrows, List.pairwise_map] at hstrict
    rw [List.pairwise_map]
    refine hstrict.imp ?_
    intro a b hab
    unfold AgentActionExecutionData.key at hab
    rw [Prod.Lex.toLex_lt_toLex, OrderDual.toDual_lt_toDual, OrderDual.toDual_inj] at hab
    rcases hab with hlater | ⟨hsame, hid⟩
    · exact .inl (timeOfSeconds_lt.mpr hlater)
    · exact .inr ⟨congrArg timeOfSeconds hsame, hid⟩
  · intro saved hin hmatches
    refine (hmem _).mpr ⟨saved, hin, ?_, rfl⟩
    exact ⟨hmatches.action, hmatches.key, hmatches.status,
      fun time htime => sqlSeconds_mono (hmatches.time time htime)⟩

/-- Three executions, requested within one second. -/
def sameSecond : ExecutionHistory Unit where
  executions := [⟨"c", "a", .failed, 1500000, none, ()⟩, ⟨"a", "a", .queued, 1200000, none, ()⟩,
    ⟨"b", "a", .failed, 1900000, none, ()⟩]
  ids := by decide

/-- Pages of one execution each return both that have failed. -/
theorem followPages_complete_sameSecond :
    ∃ found, followPages sameSecond.rows { statuses := some [.failed] } 1 4 none =
        .ok (some found) ∧
      ∀ saved ∈ sameSecond.executions, saved.status = .failed → saved.loaded ∈ found := by
  obtain ⟨found, hfound, -, -, hexact⟩ :=
    @followPages_complete Unit sameSecond { statuses := some [.failed] } 1 (by decide) 4 (by decide)
  refine ⟨found, hfound, fun saved hin hfailed => hexact saved hin ?_⟩
  constructor
  case action => simp
  case key => simp
  case status =>
    intro statuses hstatuses _
    rw [← Option.some.inj hstatuses, hfailed]
    exact List.mem_singleton_self _
  case time => simp

end PlugAgente.History
