import Mathlib.Tactic

/-!
# The journal of SQL operations

`DriftSqlOperationJournal`: one row for each operation id.  A row is inserted by the
first claim of its id and is never deleted.  `claim`, `finish` and
`requestCancellation` are database transactions, so each of them is one step here.

The row keeps its state and failure code by name in the database; the model keeps the
values themselves.  The time of the last update is left out, since nothing reads it.
-/

namespace PlugAgente.Operation

/-! ## Entries -/

/-- `SqlOperationJournalState`. -/
inductive SqlOperationJournalState where
  | executing
  | completed
  | rolledBack
  | outcomeUnknown
  | cancellationRequested
  | cancelled
  deriving DecidableEq, Repr

namespace SqlOperationJournalState

/-- The states from which `finish` and `recoverInterrupted` start. -/
def isOpen : SqlOperationJournalState → Bool
  | executing | cancellationRequested => true
  | _ => false

/-- The states in which an operation ends. -/
def isTerminal : SqlOperationJournalState → Bool
  | completed | rolledBack | outcomeUnknown | cancelled => true
  | _ => false

theorem isTerminal_eq_not_isOpen (state : SqlOperationJournalState) :
    state.isTerminal = !state.isOpen := by
  cases state <;> rfl

end SqlOperationJournalState

/-- `SqlOperationFailureCode`. -/
inductive SqlOperationFailureCode where
  | sourceIdentityMismatch
  | sourceStructureMismatch
  | conditionFailed
  | rowLimit
  | rowCountUnknown
  | outputInvalid
  | authorizationChanged
  | authorizationDenied
  | cancelled
  | nativeFailed
  | timeout
  | interrupted
  | failed
  deriving DecidableEq, Repr

namespace SqlOperationFailureCode

/-- The code of a failure on the wire. -/
def code : SqlOperationFailureCode → String
  | sourceIdentityMismatch => "SOURCE_IDENTITY_MISMATCH"
  | sourceStructureMismatch => "SOURCE_STRUCTURE_MISMATCH"
  | conditionFailed => "SQL_OPERATION_CONDITION_FAILED"
  | rowLimit => "SQL_OPERATION_ROW_LIMIT"
  | rowCountUnknown => "SQL_OPERATION_ROW_COUNT_UNKNOWN"
  | outputInvalid => "SQL_OPERATION_OUTPUT_INVALID"
  | authorizationChanged => "SQL_OPERATION_AUTHORIZATION_CHANGED"
  | authorizationDenied => "SQL_OPERATION_AUTHORIZATION_DENIED"
  | cancelled => "SQL_OPERATION_CANCELLED"
  | nativeFailed => "SQL_OPERATION_NATIVE_FAILED"
  | timeout => "SQL_OPERATION_TIMEOUT"
  | interrupted => "SQL_OPERATION_INTERRUPTED"
  | failed => "SQL_OPERATION_FAILED"

/-- `SqlOperationFailureCode.values`. -/
def values : List SqlOperationFailureCode :=
  [sourceIdentityMismatch, sourceStructureMismatch, conditionFailed, rowLimit, rowCountUnknown,
    outputInvalid, authorizationChanged, authorizationDenied, cancelled, nativeFailed, timeout,
    interrupted, failed]

/-- `SqlOperationFailureCode.tryParse`. -/
def tryParse (text : String) : Option SqlOperationFailureCode :=
  values.find? fun value => value.code == text

end SqlOperationFailureCode

/-- `SqlOperationJournalEntry`. -/
structure SqlOperationJournalEntry where
  operationId : String
  scopeHash : String
  fingerprint : String
  executionId : String
  state : SqlOperationJournalState
  directlyAffectedRows : Option Int := none
  contentHash : Option String := none
  failureCode : Option SqlOperationFailureCode := none
  deriving DecidableEq, Repr

/-! ## Errors -/

/-- What the code throws or passes on as a failure: a timeout, a failure with its code
and its `outcome_unknown` mark, or any other object. -/
inductive Thrown where
  | timeout
  | failure (code message : String) (outcomeUnknown : Bool := false)
  | other
  deriving DecidableEq, Repr

/-! ## The table -/

/-- The table: its rows by operation id. -/
abbrev Journal := String → Option SqlOperationJournalEntry

/-- `RegExp(r'^[a-f0-9]{64}$').hasMatch`. -/
def isHash (text : String) : Bool :=
  text.toList.length == 64 && text.toList.all fun c => c.isDigit || ('a' ≤ c && c ≤ 'f')

/-- The checks of `claim` on the intent. -/
def SqlOperationJournalEntry.isIntent (intent : SqlOperationJournalEntry) : Bool :=
  (match intent.contentHash with
    | none => false
    | some contentHash => isHash contentHash) &&
  intent.state == .executing && intent.failureCode.isNone && isHash intent.scopeHash &&
  isHash intent.fingerprint && intent.operationId != "" && intent.executionId != ""

namespace Journal

/-- Write the row of an id. -/
def put (journal : Journal) (operationId : String) (entry : SqlOperationJournalEntry) : Journal :=
  fun id => if id = operationId then some entry else journal id

/-- `_entry`. -/
def entry (journal : Journal) (operationId scopeHash fingerprint : String) :
    Except Thrown SqlOperationJournalEntry :=
  match journal operationId with
  | none =>
    .error (.failure "SQL_OPERATION_CONFLICT"
      "Operation identity unavailable or content mismatch.")
  | some row =>
    if row.scopeHash ≠ scopeHash ∨ row.fingerprint ≠ fingerprint then
      .error (.failure "SQL_OPERATION_CONFLICT"
        "Operation identity unavailable or content mismatch.")
    else .ok row

/-- `claim`: the table afterwards, and the entry with whether this claim inserted it.
`changes()` counts the row of the insert, which is ignored when the id is taken. -/
def claim (journal : Journal) (intent : SqlOperationJournalEntry) :
    Except Thrown (Journal × SqlOperationJournalEntry × Bool) :=
  if !intent.isIntent then
    .error (.failure "SQL_OPERATION_INVALID" "Invalid operation intent.")
  else
    let inserted := (journal intent.operationId).isNone
    let journal' := if inserted then journal.put intent.operationId intent else journal
    match journal'.entry intent.operationId intent.scopeHash intent.fingerprint with
    | .error e => .error e
    | .ok stored =>
      if stored.contentHash ≠ intent.contentHash then
        .error (.failure "SQL_OPERATION_CONFLICT" "Operation content changed.")
      else .ok (journal', stored, inserted)

/-- The checks of `finish` on a transition. -/
def allowsFinish (current state : SqlOperationJournalState) (directlyAffectedRows : Option Int)
    (failureCode : Option SqlOperationFailureCode) : Bool :=
  current.isOpen && state.isTerminal &&
  (if state = .completed then
    match directlyAffectedRows with
    | none => false
    | some rows => 0 ≤ rows && failureCode.isNone
  else directlyAffectedRows.isNone)

/-- `finish`. -/
def finish (journal : Journal) (operationId scopeHash fingerprint : String)
    (state : SqlOperationJournalState) (directlyAffectedRows : Option Int)
    (failureCode : Option SqlOperationFailureCode) : Except Thrown Journal :=
  match journal.entry operationId scopeHash fingerprint with
  | .error e => .error e
  | .ok current =>
    if allowsFinish current.state state directlyAffectedRows failureCode then
      .ok (journal.put operationId
        { current with
          state := state
          directlyAffectedRows := directlyAffectedRows
          failureCode := failureCode })
    else .error (.failure "SQL_OPERATION_CONFLICT" "Invalid operation transition.")

/-- `requestCancellation`. -/
def requestCancellation (journal : Journal) (operationId scopeHash fingerprint : String) :
    Except Thrown Journal :=
  match journal.entry operationId scopeHash fingerprint with
  | .error e => .error e
  | .ok current =>
    if current.state = .executing then
      .ok (journal.put operationId { current with state := .cancellationRequested })
    else .ok journal

/-- `recoverInterrupted`. -/
def recoverInterrupted (journal : Journal) : Journal :=
  fun id =>
    match journal id with
    | none => none
    | some row =>
      if row.state.isOpen then
        some { row with state := .outcomeUnknown, failureCode := some .interrupted }
      else some row

/-! ## What each operation does to the rows -/

@[simp] theorem put_self (journal : Journal) (operationId : String)
    (entry : SqlOperationJournalEntry) : journal.put operationId entry operationId = some entry := by
  simp [put]

theorem put_of_ne {journal : Journal} {operationId id : String} {entry : SqlOperationJournalEntry}
    (h : id ≠ operationId) : journal.put operationId entry id = journal id := by
  simp [put, h]

theorem entry_ok {journal : Journal} {operationId scopeHash fingerprint : String}
    {row : SqlOperationJournalEntry}
    (h : journal.entry operationId scopeHash fingerprint = .ok row) :
    journal operationId = some row := by
  rw [entry] at h
  split at h
  · cases h
  · rename_i row' hrow
    split at h
    · cases h
    · cases h
      exact hrow

/-- A claim either finds the row of its id and changes nothing, or inserts it. -/
theorem claim_cases {journal journal' : Journal} {intent stored : SqlOperationJournalEntry}
    {inserted : Bool} (h : journal.claim intent = .ok (journal', stored, inserted)) :
    (inserted = false ∧ journal' = journal) ∨
    (inserted = true ∧ journal intent.operationId = none ∧ intent.state = .executing ∧
      journal' = journal.put intent.operationId intent) := by
  rw [claim] at h
  split at h
  · cases h
  · rename_i hintent
    have hstate : intent.state = .executing := by
      simp [SqlOperationJournalEntry.isIntent] at hintent
      tauto
    dsimp only at h
    split at h
    · cases h
    · split at h
      · cases h
      · simp only [Except.ok.injEq, Prod.mk.injEq] at h
        obtain ⟨hjournal, -, hinserted⟩ := h
        cases hid : journal intent.operationId with
        | none => exact .inr ⟨by simpa [hid] using hinserted.symm, rfl, hstate,
            by simpa [hid] using hjournal.symm⟩
        | some row => exact .inl ⟨by simpa [hid] using hinserted.symm,
            by simpa [hid] using hjournal.symm⟩

/-- `finish` writes the row of an operation that is open. -/
theorem finish_ok {journal journal' : Journal} {operationId scopeHash fingerprint : String}
    {state : SqlOperationJournalState} {rows : Option Int}
    {failureCode : Option SqlOperationFailureCode}
    (h : journal.finish operationId scopeHash fingerprint state rows failureCode = .ok journal') :
    ∃ current, journal operationId = some current ∧ current.state.isOpen = true ∧
      journal' = journal.put operationId
        { current with
          state := state
          directlyAffectedRows := rows
          failureCode := failureCode } := by
  rw [finish] at h
  split at h
  · cases h
  · rename_i current hcurrent
    split at h
    · rename_i hallows
      cases h
      refine ⟨current, entry_ok hcurrent, ?_, rfl⟩
      simp only [allowsFinish, Bool.and_eq_true] at hallows
      exact hallows.1.1
    · cases h

/-- A cancellation changes nothing, or marks an operation that executes. -/
theorem requestCancellation_ok {journal journal' : Journal}
    {operationId scopeHash fingerprint : String}
    (h : journal.requestCancellation operationId scopeHash fingerprint = .ok journal') :
    journal' = journal ∨
    ∃ current, journal operationId = some current ∧ current.state = .executing ∧
      journal' = journal.put operationId { current with state := .cancellationRequested } := by
  rw [requestCancellation] at h
  split at h
  · cases h
  · rename_i current hcurrent
    split at h
    · rename_i hstate
      cases h
      exact .inr ⟨current, entry_ok hcurrent, hstate, rfl⟩
    · cases h
      exact .inl rfl

end Journal

end PlugAgente.Operation
