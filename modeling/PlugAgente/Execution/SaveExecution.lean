import PlugAgente.Dart.Text
import PlugAgente.Machine.Rows
import PlugAgente.Machine.Transition

/-!
# Saving an action execution

`SaveAgentActionExecution` reads the stored row before it saves a terminal execution, and tells
its listener when the save has ended a row that was open.  The read and the save are awaited one
after the other: other calls come in between.

A call is a state of its own (`SaveCall`), and each step of the machine is one thing that happens
to one call: it is made, its read is answered, its transaction ends, its save returns.  The table
changes with the transaction only.
-/

namespace PlugAgente.Execution

open Dart

/-! ## Executions -/

inductive AgentActionExecutionStatus
  | queued
  | running
  | succeeded
  | failed
  | skipped
  | cancelled
  | killed
  | timedOut
  | interrupted
  | unknown
  deriving DecidableEq, Repr

namespace AgentActionExecutionStatus

def isTerminal : AgentActionExecutionStatus → Bool
  | queued | running => false
  | succeeded | failed | skipped | cancelled | killed | timedOut | interrupted | unknown => true

end AgentActionExecutionStatus

/-- `AgentActionExecution`, as far as a save reads it. -/
structure AgentActionExecution where
  id : Text
  actionId : Text
  status : AgentActionExecutionStatus
  idempotencyKey : Option Text := none
  deriving DecidableEq, Repr

def AgentActionExecution.isTerminal (execution : AgentActionExecution) : Bool :=
  execution.status.isTerminal

def isOpen (row : Option AgentActionExecution) : Bool :=
  row.any fun r => !r.isTerminal

/-! ## The table -/

/-- `agentActionExecutionTable`: one row for each id. -/
structure ExecutionTable where
  rows : List AgentActionExecution := []
  ids : (rows.map AgentActionExecution.id).Nodup := by decide

namespace ExecutionTable

variable (table : ExecutionTable)

def find (id : Text) : Option AgentActionExecution :=
  table.rows.find? fun r => r.id = id

/-- The rows after `insertOnConflictUpdate`. -/
def upsertRows (rows : List AgentActionExecution) (execution : AgentActionExecution) :
    List AgentActionExecution :=
  if execution.id ∈ rows.map AgentActionExecution.id then
    Rows.write (fun r => r.id = execution.id) (fun _ => execution) rows
  else
    rows ++ [execution]

theorem upsertRows_ids {rows : List AgentActionExecution}
    (h : (rows.map AgentActionExecution.id).Nodup) (execution : AgentActionExecution) :
    ((upsertRows rows execution).map AgentActionExecution.id).Nodup := by
  unfold upsertRows
  split
  · have hids : (Rows.write (fun r => r.id = execution.id) (fun _ => execution) rows).map
        AgentActionExecution.id = rows.map AgentActionExecution.id := by
      rw [Rows.write, List.map_map]
      apply List.map_congr_left
      intro r _
      rw [Function.comp_apply]
      split
      · rename_i hr
        exact (of_decide_eq_true hr).symm
      · rfl
    rw [hids]
    exact h
  · rename_i hnew
    rw [List.map_append, List.map_singleton]
    exact List.nodup_append.mpr ⟨h, List.nodup_singleton _, by
      intro a ha b hb hab
      rw [List.mem_singleton] at hb
      exact hnew (hb ▸ hab ▸ ha)⟩

/-- `insertOnConflictUpdate`. -/
def upsert (execution : AgentActionExecution) : ExecutionTable :=
  ⟨upsertRows table.rows execution, upsertRows_ids table.ids execution⟩

@[simp] theorem find_upsert_self (execution : AgentActionExecution) :
    (table.upsert execution).find execution.id = some execution := by
  show (upsertRows table.rows execution).find? _ = _
  unfold upsertRows
  split
  · rename_i hmem
    obtain ⟨r, hr, hid⟩ := List.mem_map.mp hmem
    rw [Rows.write, List.find?_map]
    cases hfound : table.rows.find?
        ((fun r => decide (r.id = execution.id)) ∘
          fun r => if decide (r.id = execution.id) = true then execution else r) with
    | none =>
      have := List.find?_eq_none.mp hfound r hr
      simp [hid] at this
    | some found =>
      have hp := List.find?_some hfound
      rw [Function.comp_apply] at hp
      rw [Option.map_some]
      split_ifs at hp ⊢ with hif
      · rfl
      · exact absurd hp hif
  · rename_i hnew
    have hnone : table.rows.find? (fun r => decide (r.id = execution.id)) = none := by
      apply List.find?_eq_none.mpr
      intro r hr hid
      exact hnew (List.mem_map.mpr ⟨r, hr, of_decide_eq_true hid⟩)
    rw [List.find?_append, hnone]
    simp

theorem find_upsert_of_ne {execution : AgentActionExecution} {id : Text}
    (h : id ≠ execution.id) : (table.upsert execution).find id = table.find id := by
  show (upsertRows table.rows execution).find? _ = table.rows.find? _
  unfold upsertRows
  split
  · induction table.rows with
    | nil => rfl
    | cons r rows ih =>
      rw [Rows.write_cons, List.find?_cons, List.find?_cons, ih]
      by_cases hr : r.id = execution.id
      · have hne : execution.id ≠ id := Ne.symm h
        simp [hr, hne]
      · simp [hr]
  · rw [List.find?_append]
    have hne : execution.id ≠ id := Ne.symm h
    simp [hne]

end ExecutionTable

/-! ## The use case -/

/-- `ActionValidationFailure`: its message, and the field, the reason and the user message of its
context. -/
structure ActionValidationFailure where
  message : String
  field : String
  reason : String
  userMessage : String
  deriving DecidableEq, Repr

def fieldRequiredReason : String := "required"

def blankValueReason : String := "blank_value"

/-- How the repository answers: as its code says, with a failure of its own, or by an error. -/
inductive RepositoryAnswer
  | answers
  | fails
  | throws
  deriving DecidableEq, Repr

/-- What `call` returns. -/
inductive SaveResult
  | success (execution : AgentActionExecution)
  | invalid (failure : ActionValidationFailure)
  | repositoryFailure
  | threw
  deriving DecidableEq, Repr

/-- What becomes of a call whose repository does not answer as its code says. -/
def RepositoryAnswer.refusal : RepositoryAnswer → SaveResult
  | .throws => .threw
  | _ => .repositoryFailure

/-- The checks that `call` makes before it asks the repository. -/
def validate (execution : AgentActionExecution) : Option ActionValidationFailure :=
  if trim execution.id = [] then
    some {
      message := "Execution id is required to save an action execution."
      field := "id"
      reason := fieldRequiredReason
      userMessage := "Informe o identificador da execucao antes de salvar." }
  else if trim execution.actionId = [] then
    some {
      message := "Action id is required to save an action execution."
      field := "actionId"
      reason := fieldRequiredReason
      userMessage := "Provide the action linked to this execution before saving." }
  else if execution.idempotencyKey.any fun key => trim key = [] then
    some {
      message := "Idempotency key cannot be blank when set on an action execution."
      field := "idempotencyKey"
      reason := blankValueReason
      userMessage := "Remova a chave de idempotencia ou informe um valor valido." }
  else
    none

/-- Where a call stands. -/
inductive SavePhase
  /-- It waits for `getExecution`. -/
  | reading
  /-- It waits for the transaction of `saveExecution`. -/
  | saving (shouldNotify : Bool)
  /-- Its transaction is committed, and it waits for `saveExecution` to return. -/
  | committed (shouldNotify : Bool)
  | returned (result : SaveResult)
  deriving DecidableEq, Repr

/-- A call of the use case.  `previous` is the row that its read has found. -/
structure SaveCall where
  execution : AgentActionExecution
  phase : SavePhase
  previous : Option AgentActionExecution := none
  deriving DecidableEq, Repr

/-- `SaveAgentActionExecution`: whether it has a listener. -/
structure SaveAgentActionExecution where
  onTerminalExecution : Bool

/-- `call`, up to its first await. -/
def SaveAgentActionExecution.call (useCase : SaveAgentActionExecution)
    (execution : AgentActionExecution) : SaveCall :=
  match validate execution with
  | some failure => { execution, phase := .returned (.invalid failure) }
  | none =>
    if useCase.onTerminalExecution && execution.isTerminal then
      { execution, phase := .reading }
    else
      { execution, phase := .saving false }

/-- What follows the read.  A row that is not there is the one failure that `call` goes on
after. -/
def SaveCall.readAnswered (c : SaveCall) (table : ExecutionTable) (answer : RepositoryAnswer) :
    SaveCall :=
  match answer with
  | .answers =>
    match table.find c.execution.id with
    | none => { c with phase := .saving false }
    | some previous =>
      { c with phase := .saving (!previous.isTerminal), previous := some previous }
  | refused => { c with phase := .returned refused.refusal }

/-! ## The machine -/

structure SavesState where
  table : ExecutionTable := {}
  calls : List SaveCall := []
  /-- The saves whose transactions have been committed, in their order, with their calls. -/
  commits : List (Nat × AgentActionExecution) := []
  /-- The executions that the listener was called with. -/
  notified : List AgentActionExecution := []

inductive SaveAction
  | call (execution : AgentActionExecution)
  | read (i : Nat) (answer : RepositoryAnswer)
  | transaction (i : Nat) (answer : RepositoryAnswer)
  /-- `saveExecution` has loaded the captured output that the save left out, and returns. -/
  | hydrate (i : Nat) (answer : RepositoryAnswer)
  deriving DecidableEq, Repr

namespace SavesState

variable (s : SavesState)

def setCall (i : Nat) (c : SaveCall) : SavesState :=
  { s with calls := s.calls.set i c }

/-- The end of the transaction of a save. -/
def transactionEnded (i : Nat) (c : SaveCall) (shouldNotify : Bool) (answer : RepositoryAnswer) :
    SavesState :=
  match answer with
  | .answers =>
    { s.setCall i { c with phase := .committed shouldNotify } with
      table := s.table.upsert c.execution
      commits := s.commits ++ [(i, c.execution)] }
  | refused => s.setCall i { c with phase := .returned refused.refusal }

/-- The end of `saveExecution`.  Its `catch` also stands around the hydration: what goes wrong
there makes a failure of a save that is committed. -/
def saveReturned (i : Nat) (c : SaveCall) (shouldNotify : Bool) (answer : RepositoryAnswer) :
    SavesState :=
  match answer with
  | .answers =>
    { s.setCall i { c with phase := .returned (.success c.execution) } with
      notified := if shouldNotify then s.notified ++ [c.execution] else s.notified }
  | refused => s.setCall i { c with phase := .returned refused.refusal }

end SavesState

/-- What the calls of a use case do to the table and to the listener. -/
def SaveAgentActionExecution.saves (useCase : SaveAgentActionExecution) :
    Machine SavesState SaveAction where
  start s := s.calls = [] ∧ s.commits = [] ∧ s.notified = []
  step s
    | .call execution => some { s with calls := s.calls ++ [useCase.call execution] }
    | .read i answer =>
      match s.calls[i]? with
      | some c =>
        if c.phase = .reading then some (s.setCall i (c.readAnswered s.table answer)) else none
      | none => none
    | .transaction i answer =>
      match s.calls[i]? with
      | some c =>
        match c.phase with
        | .saving shouldNotify => some (s.transactionEnded i c shouldNotify answer)
        | _ => none
      | none => none
    | .hydrate i answer =>
      match s.calls[i]? with
      | some c =>
        match c.phase with
        | .committed shouldNotify => some (s.saveReturned i c shouldNotify answer)
        | _ => none
      | none => none

end PlugAgente.Execution
