import PlugAgente.Machine.Ledger
import PlugAgente.Machine.Transition
import PlugAgente.Operation.Journal

/-!
# The executor of SQL operations

`SqlOperationExecutor._execute` as a machine.  Any number of executions run at once
over one journal.  Each of them waits for the authorizer, the journal, the transaction
factory or the transaction; an event is the answer to one such wait, together with what
the code does up to the next one.  A call of the journal is carried out with its answer:
what the code does then is up to the execution alone, so nothing that happens in between
would make a difference.  The answers are arbitrary.  Where the code asks for its
remaining `budget()` after the answer, the event says whether there is any left.

An execution that gets no further answer is one whose process has ended, so a run of the
machine covers restarts, after which `recoverInterrupted` is called.

The fields of a `Run` after `phase` record what was dispatched and what came back.  The
code sees nothing of them.
-/

namespace PlugAgente.Operation

/-! ## Plans -/

/-- `SqlOperationEffect`. -/
inductive SqlOperationEffect where
  | select
  | insert
  | update
  | delete
  deriving DecidableEq, Repr

/-- `SqlScalarType`. -/
inductive SqlScalarType where
  | string
  | decimal
  | date
  | uuid
  | integer
  | boolean
  | nullValue
  deriving DecidableEq, Repr

/-- A value of a native row.  A date comes with its UTC text. -/
inductive NativeValue where
  | int (value : Int)
  | text (value : String)
  | date (utcIso8601 : String)
  | bool (value : Bool)
  | null
  | bytes
  deriving DecidableEq, Repr

/-- The value of a `SqlScalar`. -/
inductive ScalarValue where
  | text (value : String)
  | bool (value : Bool)
  | null
  deriving DecidableEq, Repr

/-- `SqlScalar`. -/
structure SqlScalar where
  type : SqlScalarType
  value : ScalarValue
  deriving DecidableEq, Repr

/-- `SqlOperationBinding`. -/
inductive SqlOperationBinding where
  | value (scalar : SqlScalar)
  | output (stepId output : String)
  deriving DecidableEq, Repr

/-- `SqlRowBounds`. -/
structure SqlRowBounds where
  min : Int
  max : Int
  deriving DecidableEq, Repr

/-- `SqlRowBounds.contains`. -/
def SqlRowBounds.contains (bounds : SqlRowBounds) (n : Int) : Bool :=
  bounds.min ≤ n && n ≤ bounds.max

/-- `SqlOperationStep`. -/
structure SqlOperationStep where
  id : String
  effect : SqlOperationEffect
  sql : String
  params : List (String × SqlOperationBinding) := []
  outputs : List (String × SqlScalarType) := []
  affectedRows : Option SqlRowBounds := none
  expectedRows : Option SqlRowBounds := none
  deriving DecidableEq, Repr

/-- `SqlOperationPlan`, with the bounds on the row limit that
`SqlOperationParamsReader.plan` has checked. -/
structure SqlOperationPlan where
  operationId : String
  fingerprint : String
  contentHash : String
  steps : List SqlOperationStep
  maxAffectedRows : Int
  one_le_max : 1 ≤ maxAffectedRows
  max_le : maxAffectedRows ≤ 100000
  affected_le : ∀ step ∈ steps, step.effect ≠ .select →
    ∀ bounds ∈ step.affectedRows, bounds.max ≤ maxAffectedRows
  deriving DecidableEq

/-- What the executor reads of a `SqlOperationTarget`. -/
structure SqlOperationTarget where
  scopeHash : String
  authorizationHash : String
  deriving DecidableEq, Repr

/-- `SqlOperationStepResult`. -/
structure SqlOperationStepResult where
  rows : List (List (String × NativeValue))
  directlyAffectedRows : Option Int
  deriving DecidableEq, Repr

/-! ## Outputs and parameters -/

/-- `Uuid.isValidUUID` and whether `DateTime.tryParse` succeeds. -/
structure Formats where
  isValidUUID : String → Bool
  parsesAsDate : String → Bool

/-- `RegExp(r'^-?\d+$').hasMatch` on the characters of a text. -/
def isInteger : List Char → Bool
  | '-' :: digits => digits != [] && digits.all Char.isDigit
  | digits => digits != [] && digits.all Char.isDigit

/-- `RegExp(r'^-?\d+(\.\d+)?$').hasMatch`. -/
def isDecimal (text : List Char) : Bool :=
  let whole := text.takeWhile (· != '.')
  match text.dropWhile (· != '.') with
  | [] => isInteger whole
  | _ :: fraction => isInteger whole && fraction != [] && fraction.all Char.isDigit

def outputInvalid (message : String) : Thrown :=
  .failure "SQL_OPERATION_OUTPUT_INVALID" message

/-- `_scalar`, on a column that may be missing. -/
def scalar (formats : Formats) (type : SqlScalarType) (value : Option NativeValue) :
    Except Thrown SqlScalar :=
  match value with
  | none => .error (outputInvalid "Declared scalar output is missing.")
  | some value =>
    let preserved : Option ScalarValue :=
      match type, value with
      | .integer, .int n => some (.text (toString n))
      | .integer, .text t => if isInteger t.toList then some (.text t) else none
      | .decimal, .text t => if isDecimal t.toList then some (.text t) else none
      | .decimal, .int n => some (.text (toString n))
      | .string, .text t => some (.text t)
      | .uuid, .text t => if formats.isValidUUID t then some (.text t) else none
      | .date, .date utc => some (.text utc)
      | .date, .text t => if formats.parsesAsDate t then some (.text t) else none
      | .boolean, .bool b => some (.bool b)
      | .nullValue, .null => some .null
      | _, _ => none
    match preserved with
    | some converted => .ok ⟨type, converted⟩
    | none => .error (outputInvalid "Scalar output type cannot be preserved exactly.")

/-- The outputs of the steps so far, the latest first. -/
abbrev Values := List (String × List (String × SqlScalar))

/-- One parameter: `values[stepId]![output]!` throws on a missing output. -/
def bindParameter (values : Values) : SqlOperationBinding → Except Thrown SqlScalar
  | .value scalar => .ok scalar
  | .output stepId output =>
    match (values.lookup stepId).bind (·.lookup output) with
    | some scalar => .ok scalar
    | none => .error .other

/-- The parameters of a step. -/
def bindParameters (values : Values) (step : SqlOperationStep) :
    Except Thrown (List (String × SqlScalar)) :=
  step.params.mapM fun (name, binding) => (bindParameter values binding).map (name, ·)

/-! ## Checks on the result of a step -/

/-- Addition of Dart integers. -/
def add64 (a b : Int) : Int :=
  (a + b).bmod (2 ^ 64)

/-- The row condition of a step. -/
def checkExpectedRows (step : SqlOperationStep) (result : SqlOperationStepResult) :
    Except Thrown Unit :=
  match step.expectedRows with
  | none => .ok ()
  | some expected =>
    if expected.contains result.rows.length then .ok ()
    else .error (.failure "SQL_OPERATION_CONDITION_FAILED" "A trained row condition failed.")

/-- The bound of a step and the limit of the operation: the new total. -/
def checkAffectedRows (plan : SqlOperationPlan) (total : Int) (step : SqlOperationStep)
    (result : SqlOperationStepResult) : Except Thrown Int :=
  if step.effect = .select then .ok total
  else
    match result.directlyAffectedRows, step.affectedRows with
    | some count, some bounds =>
      if count < 0 || !bounds.contains count then
        .error (.failure "SQL_OPERATION_ROW_LIMIT"
          "Direct affected-row count is unknown or outside its bounds.")
      else if plan.maxAffectedRows < add64 total count then
        .error (.failure "SQL_OPERATION_ROW_LIMIT" "Operation row limit exceeded.")
      else .ok (add64 total count)
    | _, _ =>
      .error (.failure "SQL_OPERATION_ROW_LIMIT"
        "Direct affected-row count is unknown or outside its bounds.")

/-- The outputs of a step. -/
def readOutputs (formats : Formats) (values : Values) (step : SqlOperationStep)
    (result : SqlOperationStepResult) : Except Thrown Values :=
  if step.outputs = [] then .ok values
  else
    match result.rows with
    | [row] =>
      (step.outputs.mapM fun (name, type) =>
        (scalar formats type (row.lookup name)).map (name, ·)).map fun outputs =>
          (step.id, outputs) :: values
    | _ => .error (outputInvalid "Scalar outputs require exactly one row.")

/-- What the loop does with the result of a step. -/
def acceptStep (formats : Formats) (plan : SqlOperationPlan) (total : Int) (values : Values)
    (step : SqlOperationStep) (result : SqlOperationStepResult) :
    Except Thrown (Int × Values) := do
  checkExpectedRows step result
  let total' ← checkAffectedRows plan total step result
  let values' ← readOutputs formats values step result
  return (total', values')

/-! ## Executions -/

/-- `_isUnknown`. -/
def Thrown.isUnknown : Thrown → Bool
  | .timeout => true
  | .failure _ _ outcomeUnknown => outcomeUnknown
  | .other => false

/-- The failure code that is recorded for an error. -/
def Thrown.failureCode : Thrown → SqlOperationFailureCode
  | .timeout => .timeout
  | .failure code _ _ => (SqlOperationFailureCode.tryParse code).getD .failed
  | .other => .failed

/-- What an execution waits for. -/
inductive Phase where
  | authorizing
  | claiming (target : SqlOperationTarget)
  | opening (target : SqlOperationTarget)
  /-- The authorizer in `_assertCurrent`, before the steps that are left. -/
  | asserting (target : SqlOperationTarget) (rest : List SqlOperationStep)
  /-- The journal in `_assertCurrent`. -/
  | reading (target : SqlOperationTarget) (rest : List SqlOperationStep)
  | executing (target : SqlOperationTarget) (step : SqlOperationStep)
    (rest : List SqlOperationStep)
  | committing (target : SqlOperationTarget)
  | completing (target : SqlOperationTarget)
  | rollingBack (target : SqlOperationTarget) (failureCode : SqlOperationFailureCode)
  | failing (target : SqlOperationTarget) (state : SqlOperationJournalState)
    (failureCode : SqlOperationFailureCode)
  | returned
  deriving DecidableEq, Repr

/-- One call of `_execute`. -/
structure Run where
  plan : SqlOperationPlan
  claimed : Bool := false
  hasTransaction : Bool := false
  commitAttempted : Bool := false
  total : Int := 0
  values : Values := []
  phase : Phase := .authorizing
  dispatched : List (SqlOperationStep × List (String × SqlScalar)) := []
  accepted : List (SqlOperationStep × SqlOperationStepResult) := []
  commitDispatched : Bool := false
  commitConfirmed : Bool := false
  deriving DecidableEq

namespace Run

/-- The `catch` of `_execute`, up to the next wait. -/
def handle (r : Run) (target : Option SqlOperationTarget) (error : Thrown) : Run :=
  match target with
  | none => { r with phase := .returned }
  | some target =>
    if !r.claimed then { r with phase := .returned }
    else if !r.commitAttempted && !error.isUnknown then
      if r.hasTransaction then { r with phase := .rollingBack target error.failureCode }
      else { r with phase := .failing target .cancelled error.failureCode }
    else { r with phase := .failing target .outcomeUnknown error.failureCode }

/-- The next call of `_assertCurrent`, with the budget it asks for. -/
def assertCurrent (r : Run) (target : SqlOperationTarget) (rest : List SqlOperationStep)
    (budget : Bool) : Run :=
  if budget then { r with phase := .asserting target rest }
  else r.handle target .timeout

/-- What follows a successful `_assertCurrent`: the next step, or the commit. -/
def dispatch (r : Run) (target : SqlOperationTarget) (budget : Bool) :
    List SqlOperationStep → Run
  | step :: rest =>
    match bindParameters r.values step with
    | .error e => r.handle target e
    | .ok parameters =>
      if budget then
        { r with
          phase := .executing target step rest
          dispatched := r.dispatched ++ [(step, parameters)] }
      else r.handle target .timeout
  | [] =>
    if budget then
      { r with commitAttempted := true, phase := .committing target, commitDispatched := true }
    else Run.handle { r with commitAttempted := true } target .timeout

/-- The transaction is open: `validatePlan`, and the loop begins. -/
def opened (r : Run) (target : SqlOperationTarget) (valid : Except Thrown Unit)
    (budget : Bool) : Run :=
  match valid with
  | .error e => Run.handle { r with hasTransaction := true } target e
  | .ok () => Run.assertCurrent { r with hasTransaction := true } target r.plan.steps budget

/-- The authorizer has answered in `_assertCurrent`. -/
def reauthorized (r : Run) (target : SqlOperationTarget) (rest : List SqlOperationStep)
    (current : SqlOperationTarget) : Run :=
  if current.authorizationHash ≠ target.authorizationHash ∨
      current.scopeHash ≠ target.scopeHash then
    r.handle target (.failure "SQL_OPERATION_AUTHORIZATION_CHANGED"
      "Authorization or physical source changed.")
  else { r with phase := .reading target rest }

/-- A step has come back. -/
def executed (r : Run) (formats : Formats) (target : SqlOperationTarget)
    (step : SqlOperationStep) (rest : List SqlOperationStep)
    (answer : Except Thrown SqlOperationStepResult) (budget : Bool) : Run :=
  match answer with
  | .error e => r.handle target e
  | .ok result =>
    match acceptStep formats r.plan r.total r.values step result with
    | .error e => r.handle target e
    | .ok (total, values) =>
      Run.assertCurrent
        { r with total := total, values := values, accepted := r.accepted ++ [(step, result)] }
        target rest budget

/-- The entry that the execution claims. -/
def intent (r : Run) (target : SqlOperationTarget) (executionId : String) :
    SqlOperationJournalEntry where
  operationId := r.plan.operationId
  scopeHash := target.scopeHash
  fingerprint := r.plan.fingerprint
  contentHash := some r.plan.contentHash
  executionId := executionId
  state := .executing

end Run

/-- A call of the journal that does not succeed: whether it was carried out all the
same, and whether it throws or returns a failure. -/
structure Fault where
  applied : Bool
  throws : Bool
  error : Thrown
  deriving DecidableEq, Repr

/-- The answer to `claim`, which says whether the row is this execution's. -/
def Run.claimReturned (r : Run) (target : SqlOperationTarget) (fault : Option Fault)
    (answer : Except Thrown Bool) (budget : Bool) : Run :=
  match fault, answer with
  | some fault, _ => r.handle target fault.error
  | none, .error e => r.handle target e
  | none, .ok false => { r with phase := .returned }
  | none, .ok true =>
    if budget then { r with claimed := true, phase := .opening target }
    else Run.handle { r with claimed := true } target .timeout

/-- The answer to `finish` in the `try`: what it throws comes to the `catch`, and a
failure is returned like a success. -/
def Run.completeReturned (r : Run) (target : SqlOperationTarget) : Option Fault → Run
  | some ⟨_, true, e⟩ => r.handle target e
  | _ => { r with phase := .returned }

/-- The state: the journal and the executions. -/
structure State where
  journal : Journal := fun _ => none
  runs : List Run := []

/-- What an execution waits for comes back. -/
inductive Answer where
  | authorized (answer : Except Thrown SqlOperationTarget)
  | claimed (executionId : String) (fault : Option Fault) (budget : Bool)
  /-- The answer of the factory, and that of `validatePlan`. -/
  | opened (answer : Except Thrown Unit) (valid : Except Thrown Unit) (budget : Bool)
  | reauthorized (answer : Except Thrown SqlOperationTarget)
  | read (fault : Option Thrown) (budget : Bool)
  | executed (answer : Except Thrown SqlOperationStepResult) (budget : Bool)
  | committed (answer : Except Thrown Unit)
  | rolledBack (answer : Except Thrown Unit)
  | finished (fault : Option Fault)

/-- The events: a call of `execute`, an answer to an execution, a call of `cancel` that
was authorized, and the recovery after a restart. -/
inductive Event where
  | execute (plan : SqlOperationPlan)
  | answer (run : Nat) (answer : Answer)
  | cancel (operationId scopeHash fingerprint : String) (fault : Option Fault)
  | recover (fault : Option Fault)

namespace State

/-- Move an execution on. -/
def setRun (s : State) (i : Nat) (r : Run) : State :=
  { s with runs := s.runs.set i r }

/-- The table after a call that came to `outcome`, if nothing went wrong outside the
code. -/
def afterCall (journal : Journal) (outcome : Except Thrown Journal) : Option Fault → Journal
  | some ⟨false, _, _⟩ => journal
  | _ =>
    match outcome with
    | .ok journal' => journal'
    | .error _ => journal

/-- The answer to `claim`. -/
def claimed (s : State) (i : Nat) (r : Run) (target : SqlOperationTarget) (executionId : String)
    (fault : Option Fault) (budget : Bool) : State :=
  let answer := s.journal.claim (r.intent target executionId)
  let journal' := afterCall s.journal (answer.map (·.1)) fault
  State.setRun { s with journal := journal' } i
    (r.claimReturned target fault (answer.map (·.2.2)) budget)

/-- The answer to `get` in `_assertCurrent`. -/
def read (s : State) (r : Run) (target : SqlOperationTarget) (rest : List SqlOperationStep)
    (fault : Option Thrown) (budget : Bool) : Run :=
  match fault, s.journal.entry r.plan.operationId target.scopeHash r.plan.fingerprint with
  | some e, _ => r.handle target e
  | none, .error e => r.handle target e
  | none, .ok entry =>
    if entry.state ≠ .executing then
      r.handle target (.failure "SQL_OPERATION_CANCELLED"
        "Cancellation requested or operation no longer active.")
    else r.dispatch target budget rest

/-- The answer to `finish` in the `try`. -/
def completed (s : State) (i : Nat) (r : Run) (target : SqlOperationTarget)
    (fault : Option Fault) : State :=
  let answer := s.journal.finish r.plan.operationId target.scopeHash r.plan.fingerprint
    .completed (some r.total) none
  { s.setRun i (r.completeReturned target fault) with
    journal := afterCall s.journal answer fault }

/-- The answer to `finish` in the `catch`. -/
def failed (s : State) (i : Nat) (r : Run) (target : SqlOperationTarget)
    (state : SqlOperationJournalState) (failureCode : SqlOperationFailureCode)
    (fault : Option Fault) : State :=
  let answer := s.journal.finish r.plan.operationId target.scopeHash r.plan.fingerprint
    state none (some failureCode)
  { s.setRun i { r with phase := .returned } with
    journal := afterCall s.journal answer fault }

variable (formats : Formats)

/-- An answer to an execution. -/
def answer (s : State) (i : Nat) (r : Run) : Answer → Option State
  | .authorized answer =>
    match r.phase, answer with
    | .authorizing, .error e => some (s.setRun i (r.handle none e))
    | .authorizing, .ok target => some (s.setRun i { r with phase := .claiming target })
    | _, _ => none
  | .claimed executionId fault budget =>
    match r.phase with
    | .claiming target => some (s.claimed i r target executionId fault budget)
    | _ => none
  | .opened answer valid budget =>
    match r.phase, answer with
    | .opening target, .error e => some (s.setRun i (r.handle target e))
    | .opening target, .ok () => some (s.setRun i (r.opened target valid budget))
    | _, _ => none
  | .reauthorized answer =>
    match r.phase, answer with
    | .asserting target _, .error e => some (s.setRun i (r.handle target e))
    | .asserting target rest, .ok current =>
      some (s.setRun i (r.reauthorized target rest current))
    | _, _ => none
  | .read fault budget =>
    match r.phase with
    | .reading target rest => some (s.setRun i (s.read r target rest fault budget))
    | _ => none
  | .executed answer budget =>
    match r.phase with
    | .executing target step rest =>
      some (s.setRun i (r.executed formats target step rest answer budget))
    | _ => none
  | .committed answer =>
    match r.phase, answer with
    | .committing target, .error e => some (s.setRun i (r.handle target e))
    | .committing target, .ok () =>
      some (s.setRun i { r with phase := .completing target, commitConfirmed := true })
    | _, _ => none
  | .rolledBack answer =>
    match r.phase, answer with
    | .rollingBack target failureCode, .error _ =>
      some (s.setRun i { r with phase := .failing target .outcomeUnknown failureCode })
    | .rollingBack target failureCode, .ok () =>
      some (s.setRun i { r with phase := .failing target .rolledBack failureCode })
    | _, _ => none
  | .finished fault =>
    match r.phase with
    | .completing target => some (s.completed i r target fault)
    | .failing target state failureCode => some (s.failed i r target state failureCode fault)
    | _ => none

/-- One event. -/
def step (s : State) : Event → Option State
  | .execute plan => some { s with runs := s.runs ++ [{ plan := plan }] }
  | .answer i a =>
    match s.runs[i]? with
    | some r => s.answer formats i r a
    | none => none
  | .cancel operationId scopeHash fingerprint fault =>
    let outcome := s.journal.requestCancellation operationId scopeHash fingerprint
    some { s with journal := afterCall s.journal outcome fault }
  | .recover fault =>
    some { s with journal := afterCall s.journal (.ok s.journal.recoverInterrupted) fault }

end State

/-- The executor as a machine that starts with an empty journal. -/
def machine (formats : Formats) : Machine State Event where
  start s := s = {}
  step s := s.step formats

end PlugAgente.Operation
