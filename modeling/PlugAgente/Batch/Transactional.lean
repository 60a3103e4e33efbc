import PlugAgente.Batch.Attempts

/-!
# The transaction of a batch over a whole call

What a transactional batch does with its transaction: at most one commit or
rollback is dispatched in an attempt, the guard tells which, and at most one
commit in the whole call.  An attempt that loses its begin is tried again although
its transaction may stand.

The command phase keeps one invariant, `PhaseInv`: the state of the guard, the mark
of the connection and the transaction events that happened so far agree.
-/

namespace PlugAgente.Batch

/-! ## The events that end a transaction -/

namespace Event

/-- A commit, confirmed or not. -/
def isCommit : Event → Bool
  | .commitTransaction _ _ => true
  | _ => false

/-- A rollback, confirmed or not. -/
def isRollback : Event → Bool
  | .rollbackTransaction _ _ => true
  | _ => false

/-- The release of a connection. -/
def isRelease : Event → Bool
  | .release _ _ _ => true
  | _ => false

/-- A begin behind which a transaction may stand: it succeeded, or its outcome is
unknown. -/
def mayHaveBegun : Event → Bool
  | .beginTransaction _ none => true
  | .beginTransaction _ (some e) => e.outcomeUnknown || e.isTimeoutException
  | _ => false

/-- A release at which the transaction is over: committed, rolled back, never
begun, or unconfirmed on a connection that is marked.  Other events are no
releases. -/
def isCleanRelease : Event → Bool
  | .release _ none _ => true
  | .release _ (some g) mark =>
    match g.state with
    | .committed | .rolledBack => true
    | .unconfirmed => mark.isSome
    | .active | .completing | .rollingBack => false
  | _ => true

end Event

/-- The events that end a transaction or its hold on a connection: the commits, the
rollbacks and the releases. -/
def ends (events : List Event) : List Event :=
  events.filter fun e => e.isCommit || e.isRollback || e.isRelease

@[simp] theorem ends_nil : ends [] = [] := rfl

@[simp] theorem ends_append (xs ys : List Event) : ends (xs ++ ys) = ends xs ++ ends ys :=
  List.filter_append ..

@[simp] theorem ends_dispatches (n connection i attempt : Nat) :
    ends (List.replicate n (.dispatch connection i attempt)) = [] := by
  simp [ends, Event.isCommit, Event.isRollback, Event.isRelease]

@[simp] theorem ends_commit (connection : Nat) (confirmed : Bool) :
    ends [.commitTransaction connection confirmed] =
      [.commitTransaction connection confirmed] := rfl

@[simp] theorem ends_rollback (connection : Nat) (confirmed : Bool) :
    ends [.rollbackTransaction connection confirmed] =
      [.rollbackTransaction connection confirmed] := rfl

@[simp] theorem ends_release (connection : Nat) (g : Option BatchTransactionGuard)
    (mark : Option PoolDiscardReason) :
    ends [.release connection g mark] = [.release connection g mark] := rfl

theorem mem_of_mem_ends {events : List Event} {e : Event} (h : e ∈ ends events) : e ∈ events :=
  List.mem_of_mem_filter h

theorem forall_mem_iff_ends {p : Event → Prop} {events : List Event}
    (hp : ∀ e : Event, (e.isCommit || e.isRollback || e.isRelease) = false → p e) :
    (∀ e ∈ events, p e) ↔ ∀ e ∈ ends events, p e := by
  constructor
  · intro h e he
    exact h e (mem_of_mem_ends he)
  · intro h e he
    by_cases hend : (e.isCommit || e.isRollback || e.isRelease) = true
    · exact h e (List.mem_filter.mpr ⟨he, hend⟩)
    · exact hp e (Bool.eq_false_iff.mpr hend)

theorem countP_ends {p : Event → Bool} (events : List Event)
    (hp : ∀ e : Event, p e = true → (e.isCommit || e.isRollback || e.isRelease) = true) :
    (ends events).countP p = events.countP p := by
  unfold ends
  rw [List.countP_filter]
  congr 1
  funext e
  cases he : p e with
  | false => rfl
  | true => simp [hp e he]

/-! ## The command phase of a transaction -/

/-- A transaction that was not committed: the state of its guard, the mark of its
connection and the events agree. -/
def Uncommitted (connection : Nat) (g : BatchTransactionGuard) (marks : Marks)
    (events : List Event) : Prop :=
  match g.state with
  | .active => ends events = []
  | .rolledBack => ends events = [.rollbackTransaction connection true]
  | .unconfirmed =>
    (marks connection).isSome = true ∧
      (ends events = [] ∨ ∃ confirmed, ends events = [.rollbackTransaction connection confirmed])
  | .completing | .committed | .rollingBack => False

/-- The invariant of the command phase of a transaction. -/
structure PhaseInv {ρ : Type} (connection : Nat) (s : CommandState ρ) : Prop where
  connection_eq : s.connection = some connection
  begun : s.transaction.transactionId.isSome = true
  agrees : Uncommitted connection s.transaction s.marks s.events

section Phase

variable {ρ : Type} {call : BatchCall} {answers : CommandAnswers ρ} {connection : Nat}
variable {s : CommandState ρ} (rollbackAnswer : Answer Unit)

theorem PhaseInv.rollback (h : PhaseInv connection s) :
    PhaseInv connection (s.rollback rollbackAnswer connection) ∧
      (s.rollback rollbackAnswer connection).transaction.state ≠ .active := by
  obtain ⟨hconnection, hbegun, hagrees⟩ := h
  by_cases hactive : s.transaction.state = .active
  · have hends : ends s.events = [] := by simpa [Uncommitted, hactive] using hagrees
    have hopen : s.transaction.isActive = true := by
      simp [BatchTransactionGuard.isActive, hbegun, hactive]
    cases rollbackAnswer <;>
      refine ⟨⟨?_, ?_, ?_⟩, ?_⟩ <;>
      simp [CommandState.rollback, Batch.rollback, hopen, hconnection, hbegun, hends, Uncommitted]
  · have hclosed : s.transaction.isActive = false := by
      simp [BatchTransactionGuard.isActive, hactive]
    refine ⟨⟨?_, ?_, ?_⟩, ?_⟩
    · simpa [CommandState.rollback, Batch.rollback, hclosed] using hconnection
    · simpa [CommandState.rollback, Batch.rollback, hclosed] using hbegun
    · simpa [CommandState.rollback, Batch.rollback, hclosed] using hagrees
    · simpa [CommandState.rollback, Batch.rollback, hclosed] using hactive

theorem PhaseInv.rollbackActive (h : PhaseInv connection s) :
    PhaseInv connection (s.rollbackActive rollbackAnswer) ∧
      (s.rollbackActive rollbackAnswer).transaction.state ≠ .active := by
  have heq : s.rollbackActive rollbackAnswer = s.rollback rollbackAnswer connection := by
    simp [CommandState.rollbackActive, h.connection_eq]
  rw [heq]
  exact h.rollback rollbackAnswer

theorem Uncommitted.unconfirmed {g : BatchTransactionGuard} {marks marks' : Marks}
    {events : List Event} (h : Uncommitted connection g marks events)
    (hmark : (marks' connection).isSome = true) :
    Uncommitted connection g.markUnconfirmed marks' events := by
  show _ ∧ _
  refine ⟨hmark, ?_⟩
  unfold Uncommitted at h
  split at h
  · exact .inl h
  · exact .inr ⟨true, h⟩
  · exact h.2
  all_goals exact h.elim

theorem PhaseInv.markUnconfirmed (h : PhaseInv connection s) :
    PhaseInv connection s.markUnconfirmed ∧
      s.markUnconfirmed.transaction.state = .unconfirmed := by
  obtain ⟨hconnection, hbegun, hagrees⟩ := h
  refine ⟨⟨hconnection, hbegun, ?_⟩, rfl⟩
  apply hagrees.unconfirmed
  simp [CommandState.markUnconfirmed, hconnection]

theorem PhaseInv.of_quiet {s' : CommandState ρ} (h : PhaseInv connection s)
    (hconnection : s'.connection = s.connection) (htransaction : s'.transaction = s.transaction)
    (hmarks : s'.marks = s.marks) (hends : ends s'.events = ends s.events) :
    PhaseInv connection s' := by
  refine ⟨hconnection.trans h.connection_eq, htransaction ▸ h.begun, ?_⟩
  have hagrees := h.agrees
  unfold Uncommitted at hagrees ⊢
  rw [htransaction, hmarks, hends]
  exact hagrees

theorem executeCurrentCommand_quiet (hconnection : s.connection = some connection)
    (i attempt : Nat) (c : SqlCommand) :
    let r := executeCurrentCommand call answers i attempt c s
    r.1.connection = s.connection ∧ r.1.transaction = s.transaction ∧ r.1.marks = s.marks ∧
      ends r.1.events = ends s.events ∧ r.2 = (answers.run i attempt).answer ∧
      r.1.statements =
        if usePrepared call.commands c then (answers.run i attempt).statements
        else s.statements := by
  simp [executeCurrentCommand, hconnection]

/-! ### Rounds -/

/-- The answer is a value. -/
def Answer.isOk {α : Type} : Answer α → Bool
  | .ok _ => true
  | .fail _ | .throw _ => false

/-- A command is run and succeeds: it is not cancelled, it is valid, there is time
left, and the runner comes to a response. -/
def passes (call : BatchCall) (answers : CommandAnswers ρ) (i : Nat) (c : SqlCommand) : Bool :=
  !answers.cancelled i && (call.validateSqlForExecution c.sql).isNone && !answers.expired i &&
    (answers.run i 0).answer.isOk

/-- All commands from index `i` on are run and succeed. -/
def passesFrom (call : BatchCall) (answers : CommandAnswers ρ) : List SqlCommand → Nat → Bool
  | [], _ => true
  | c :: rest, i => passes call answers i c && passesFrom call answers rest (i + 1)

/-- The prepared statements that are held after the commands from index `i` on. -/
def preparedFrom (call : BatchCall) (answers : CommandAnswers ρ) :
    List SqlCommand → Nat → List Nat → List Nat
  | [], _, held => held
  | c :: rest, i, held =>
    preparedFrom call answers rest (i + 1)
      (if usePrepared call.commands c then (answers.run i 0).statements else held)

/-- How the phase goes on after a command that did not pass: the transaction is
over, or the error is thrown. -/
def Stops (r : CommandState ρ × Exit) : Prop :=
  (∃ e, r.2 = .returned e ∧ r.1.transaction.state ≠ .active) ∨ ∃ e, r.2 = .thrown e

theorem commandRound_of_passes (h : PhaseInv connection s) {i : Nat} {c : SqlCommand}
    (hpass : passes call answers i c = true) :
    let r := commandRound call answers rollbackAnswer connection i c s
    r.2 = .next ∧ PhaseInv connection r.1 ∧ r.1.transaction = s.transaction ∧
      r.1.statements =
        if usePrepared call.commands c then (answers.run i 0).statements else s.statements := by
  simp only [passes, Bool.and_eq_true, Bool.not_eq_true', Option.isNone_iff_eq_none] at hpass
  obtain ⟨⟨⟨hcancelled, hvalid⟩, htime⟩, hok⟩ := hpass
  obtain ⟨hconnection, htransaction, hmarks, hends, hanswer, hstatements⟩ :=
    executeCurrentCommand_quiet h.connection_eq i 0 c
  generalize hrun : executeCurrentCommand call answers i 0 c s = run at *
  obtain ⟨s', answer⟩ := run
  obtain ⟨response, rfl⟩ : ∃ response, answer = .ok response := by
    rw [← hanswer] at hok
    cases answer with
    | ok response => exact ⟨response, rfl⟩
    | fail e => simp [Answer.isOk] at hok
    | throw e => simp [Answer.isOk] at hok
  have hround : commandRound call answers rollbackAnswer connection i c s =
      (s'.addItem (.ofResponse i call.maxRows response), .next) := by
    simp [commandRound, hcancelled, hvalid, htime, hrun, finishCommand]
  rw [hround]
  exact ⟨rfl, h.of_quiet hconnection htransaction hmarks hends, htransaction, hstatements⟩

theorem onTimeout_stops (htx : call.transaction = true) (h : PhaseInv connection s) (i : Nat)
    (e : BatchError) :
    let r := onTimeout call rollbackAnswer i e s
    PhaseInv connection r.1 ∧ Stops r := by
  have hclosed := h.markUnconfirmed.1.rollbackActive rollbackAnswer
  unfold onTimeout
  rw [if_pos htx]
  exact ⟨hclosed.1, .inl ⟨_, rfl, hclosed.2⟩⟩

theorem abortTransaction_stops (h : PhaseInv connection s) (i : Nat) (e : BatchError) :
    let r := abortTransaction rollbackAnswer i e s
    PhaseInv connection r.1 ∧ Stops r := by
  have hmarked : PhaseInv connection
      (if (e.mapQueryError (some "execute_batch_item")).outcomeUnknown then s.markUnconfirmed
        else s) := by
    split
    · exact h.markUnconfirmed.1
    · exact h
  have hclosed := hmarked.rollbackActive rollbackAnswer
  exact ⟨hclosed.1, .inl ⟨_, rfl, hclosed.2⟩⟩

theorem commandRound_of_not_passes (htx : call.transaction = true) (h : PhaseInv connection s)
    {i : Nat} {c : SqlCommand} (hpass : passes call answers i c = false) :
    let r := commandRound call answers rollbackAnswer connection i c s
    PhaseInv connection r.1 ∧ Stops r := by
  have hclosed := h.rollback rollbackAnswer
  simp only [commandRound, htx, if_true]
  by_cases hcancelled : answers.cancelled i = true
  · rw [if_pos hcancelled]
    exact ⟨hclosed.1, .inl ⟨_, rfl, hclosed.2⟩⟩
  rw [if_neg hcancelled]
  cases hvalid : call.validateSqlForExecution c.sql with
  | some message => exact ⟨hclosed.1, .inl ⟨_, rfl, hclosed.2⟩⟩
  | none =>
    dsimp only
    by_cases htime : answers.expired i = true
    · rw [if_pos htime]
      exact onTimeout_stops rollbackAnswer htx h i _
    rw [if_neg htime]
    obtain ⟨hconnection, htransaction, hmarks, hends, hanswer, -⟩ :=
      executeCurrentCommand_quiet h.connection_eq i 0 c
    generalize hrun : executeCurrentCommand call answers i 0 c s = run at *
    obtain ⟨s', answer⟩ := run
    have h' : PhaseInv connection s' := h.of_quiet hconnection htransaction hmarks hends
    cases answer with
    | ok response =>
      -- A response means that the command passed.
      simp only [Bool.not_eq_true] at hcancelled htime
      simp [passes, hcancelled, hvalid, htime, ← hanswer, Answer.isOk] at hpass
    | fail e => exact abortTransaction_stops rollbackAnswer h' i e
    | throw e =>
      dsimp only [finishCommand]
      split_ifs with hte
      · exact onTimeout_stops rollbackAnswer htx h' i e
      · exact ⟨h', .inr ⟨e, rfl⟩⟩

/-! ### The loop -/

theorem commandLoop_of_passes (commands : List SqlCommand) (i : Nat) (s : CommandState ρ)
    (h : PhaseInv connection s) (hpass : passesFrom call answers commands i = true) :
    let r := commandLoop call answers rollbackAnswer connection commands i s
    r.2 = .stop ∧ PhaseInv connection r.1 ∧ r.1.transaction = s.transaction ∧
      r.1.statements = preparedFrom call answers commands i s.statements := by
  induction commands generalizing i s with
  | nil => exact ⟨rfl, h, rfl, rfl⟩
  | cons c rest ih =>
    simp only [passesFrom, Bool.and_eq_true] at hpass
    obtain ⟨hnext, hinv, htransaction, hstatements⟩ :=
      commandRound_of_passes rollbackAnswer h hpass.1
    generalize hround : commandRound call answers rollbackAnswer connection i c s = round at *
    obtain ⟨s', exit⟩ := round
    obtain rfl : exit = .next := hnext
    have hrest := ih (i + 1) s' hinv hpass.2
    simp only [commandLoop, hround, preparedFrom]
    rw [← hstatements, ← htransaction]
    exact hrest

theorem commandLoop_of_not_passes (htx : call.transaction = true) (commands : List SqlCommand)
    (i : Nat) (s : CommandState ρ) (h : PhaseInv connection s)
    (hpass : passesFrom call answers commands i = false) :
    let r := commandLoop call answers rollbackAnswer connection commands i s
    PhaseInv connection r.1 ∧ Stops r := by
  induction commands generalizing i s with
  | nil => simp [passesFrom] at hpass
  | cons c rest ih =>
    by_cases hc : passes call answers i c = true
    · obtain ⟨hnext, hinv, -, -⟩ := commandRound_of_passes rollbackAnswer h hc
      generalize hround : commandRound call answers rollbackAnswer connection i c s = round at *
      obtain ⟨s', exit⟩ := round
      obtain rfl : exit = .next := hnext
      have hrest : passesFrom call answers rest (i + 1) = false := by
        simpa [passesFrom, hc] using hpass
      simp only [commandLoop, hround]
      exact ih (i + 1) s' hinv hrest
    · have hstop := commandRound_of_not_passes rollbackAnswer htx h
        (Bool.eq_false_iff.mpr hc)
      generalize hround : commandRound call answers rollbackAnswer connection i c s = round at *
      obtain ⟨s', exit⟩ := round
      obtain ⟨hinv, ⟨e, rfl, hclosed⟩ | ⟨e, rfl⟩⟩ := hstop
      · simp only [commandLoop, hround]
        exact ⟨hinv, .inl ⟨e, rfl, hclosed⟩⟩
      · simp only [commandLoop, hround]
        exact ⟨hinv, .inr ⟨e, rfl⟩⟩

/-! ### The phase -/

theorem Uncommitted.mono {g : BatchTransactionGuard} {marks marks' : Marks} {events : List Event}
    (h : Uncommitted connection g marks events)
    (hmarks : (marks connection).isSome = true → (marks' connection).isSome = true) :
    Uncommitted connection g marks' events := by
  unfold Uncommitted at h ⊢
  split at h
  · exact h
  · exact h
  · exact ⟨hmarks h.1, h.2⟩
  all_goals exact h.elim

theorem isSome_closePreparedStatements {marks : Marks} (close : Nat → Option (Answer Unit))
    (statements : List Nat) (h : (marks connection).isSome = true) :
    ((closePreparedStatements connection close statements marks).2 connection).isSome = true := by
  unfold closePreparedStatements
  split
  · exact h
  · exact isSome_markConnectionOutcomeUnknown connection h

theorem cleanup_spec (answers : CommandAnswers ρ) (h : PhaseInv connection s) :
    let r := cleanup answers s
    PhaseInv connection r.1 ∧ r.1.transaction = s.transaction ∧ r.1.results = s.results ∧
      r.2 = (closeErrors answers.close s.statements).head?.map (·.wrap
        "Prepared statement cleanup failed" { operation := some "closeStatement" }) ∧
      (r.2.isSome = true → (r.1.marks connection).isSome = true) := by
  have hcleanup : cleanup answers s =
      ({ s with
        marks := (closePreparedStatements connection answers.close s.statements s.marks).2 },
        (closePreparedStatements connection answers.close s.statements s.marks).1) := by
    simp [cleanup, h.connection_eq]
  rw [hcleanup]
  refine ⟨⟨h.connection_eq, h.begun, ?_⟩, rfl, rfl, ?_, ?_⟩
  · exact h.agrees.mono (isSome_closePreparedStatements answers.close s.statements)
  · unfold closePreparedStatements
    cases closeErrors answers.close s.statements <;> rfl
  · unfold closePreparedStatements
    cases closeErrors answers.close s.statements <;> simp

theorem isSome_rollback {marks : Marks} (answer : Answer Unit) (g : BatchTransactionGuard)
    (h : (marks connection).isSome = true) :
    ((Batch.rollback connection answer g marks).marks connection).isSome = true := by
  unfold Batch.rollback
  split_ifs
  · exact h
  · cases answer <;> simp [h]

theorem onThrow_spec (h : PhaseInv connection s) (e : BatchError) :
    let r := onThrow rollbackAnswer connection e s
    PhaseInv connection r.1 ∧ r.1.transaction.state ≠ .active ∧
      ((s.marks connection).isSome = true → (r.1.marks connection).isSome = true) := by
  unfold onThrow
  dsimp only
  split_ifs
  · have hmarked := h.markUnconfirmed
    refine ⟨hmarked.1, ?_, ?_⟩
    · rw [hmarked.2]
      simp
    · intro hmark
      simp [CommandState.markUnconfirmed, h.connection_eq]
  · have hclosed := h.rollback rollbackAnswer
    exact ⟨hclosed.1, hclosed.2, isSome_rollback rollbackAnswer s.transaction⟩

theorem phaseInv_start (id : Nat) (marks : Marks) :
    PhaseInv connection
      ({ connection := some connection, transaction := { transactionId := some id },
         marks := marks } : CommandState ρ) :=
  ⟨rfl, rfl, rfl⟩

theorem withCleanupError_spec (cleanupError : BatchError)
    {primary : CommandState ρ × Except BatchError (List (SqlCommandResult ρ))}
    (h : PhaseInv connection primary.1)
    (hmark : (primary.1.marks connection).isSome = true) :
    let r := withCleanupError cleanupError primary
    PhaseInv connection r.1 ∧ (∃ e, r.2 = .error e) ∧
      r.1.transaction.state =
        if cleanupError.outcomeUnknown then .unconfirmed else primary.1.transaction.state := by
  have hstate : (withCleanupError cleanupError primary).1 =
      if cleanupError.outcomeUnknown then
        { primary.1 with transaction := primary.1.transaction.markUnconfirmed }
      else primary.1 := by
    unfold withCleanupError
    cases primary.2 <;> rfl
  have herror : ∃ e, (withCleanupError cleanupError primary).2 = .error e := by
    unfold withCleanupError
    cases primary.2 with
    | ok results => exact ⟨_, rfl⟩
    | error e => exact ⟨_, rfl⟩
  refine ⟨?_, herror, ?_⟩
  · rw [hstate]
    split
    · exact ⟨h.connection_eq, h.begun, h.agrees.unconfirmed hmark⟩
    · exact h
  · rw [hstate]
    split <;> rfl

/-- The errors of the cleanup after all commands passed. -/
def cleanupErrors (call : BatchCall) (answers : CommandAnswers ρ) : List BatchError :=
  closeErrors answers.close (preparedFrom call answers call.commands 0 [])

theorem executeBatchCommands_of_passes (id : Nat) (marks : Marks)
    (hpass : passesFrom call answers call.commands 0 = true) :
    let r := executeBatchCommands call answers rollbackAnswer connection
      { transactionId := some id } marks
    PhaseInv connection r.1 ∧
      match cleanupErrors call answers with
      | [] => (∃ results, r.2 = .ok results) ∧ r.1.transaction.state = .active
      | e :: _ =>
        (∃ e, r.2 = .error e) ∧
          r.1.transaction.state = if e.outcomeUnknown then .unconfirmed else .active := by
  obtain ⟨hstop, hinv, htransaction, hstatements⟩ := commandLoop_of_passes rollbackAnswer
    call.commands 0 _ (phaseInv_start (ρ := ρ) id marks) hpass
  unfold executeBatchCommands
  generalize commandLoop call answers rollbackAnswer connection call.commands 0
    { connection := some connection, transaction := { transactionId := some id },
      marks := marks } = looped at *
  obtain ⟨s, exit⟩ := looped
  obtain rfl : exit = .stop := hstop
  dsimp only at *
  obtain ⟨hclean, hclean_tx, -, herror, hmark⟩ := cleanup_spec answers hinv
  generalize cleanup answers s = cleaned at *
  obtain ⟨s', cleanupError⟩ := cleaned
  dsimp only at *
  have hactive : s'.transaction.state = .active := by rw [hclean_tx, htransaction]
  rw [hstatements] at herror
  unfold cleanupErrors
  generalize closeErrors answers.close (preparedFrom call answers call.commands 0 []) = errors at *
  cases errors with
  | nil =>
    subst herror
    exact ⟨hclean, ⟨_, rfl⟩, hactive⟩
  | cons e rest =>
    subst herror
    obtain ⟨hwith, hfailed, hstate⟩ := withCleanupError_spec
      (e.wrap "Prepared statement cleanup failed" { operation := some "closeStatement" })
      (show PhaseInv connection (primaryResult rollbackAnswer connection s' .stop).1 from hclean)
      (hmark rfl)
    refine ⟨hwith, hfailed, hstate.trans ?_⟩
    simp [BatchError.outcomeUnknown, BatchError.wrap, primaryResult, hactive]

theorem executeBatchCommands_of_not_passes (htx : call.transaction = true) (id : Nat)
    (marks : Marks) (hpass : passesFrom call answers call.commands 0 = false) :
    let r := executeBatchCommands call answers rollbackAnswer connection
      { transactionId := some id } marks
    PhaseInv connection r.1 ∧ (∃ e, r.2 = .error e) ∧ r.1.transaction.state ≠ .active := by
  obtain ⟨hinv, hstops⟩ := commandLoop_of_not_passes rollbackAnswer htx
    call.commands 0 _ (phaseInv_start (ρ := ρ) id marks) hpass
  unfold executeBatchCommands
  generalize commandLoop call answers rollbackAnswer connection call.commands 0
    { connection := some connection, transaction := { transactionId := some id },
      marks := marks } = looped at *
  obtain ⟨s, exit⟩ := looped
  dsimp only at *
  obtain ⟨hclean, hclean_tx, -, -, hmark⟩ := cleanup_spec answers hinv
  generalize cleanup answers s = cleaned at *
  obtain ⟨s', cleanupError⟩ := cleaned
  have hprimary : PhaseInv connection (primaryResult rollbackAnswer connection s' exit).1 ∧
      (∃ e, (primaryResult rollbackAnswer connection s' exit).2 = .error e) ∧
      (primaryResult rollbackAnswer connection s' exit).1.transaction.state ≠ .active ∧
      (cleanupError.isSome = true →
        ((primaryResult rollbackAnswer connection s' exit).1.marks connection).isSome = true) := by
    rcases hstops with ⟨e, rfl, hclosed⟩ | ⟨e, rfl⟩
    · refine ⟨hclean, ⟨e, rfl⟩, ?_, hmark⟩
      show s'.transaction.state ≠ .active
      rw [hclean_tx]
      exact hclosed
    · obtain ⟨hthrow, hclosed, hkeep⟩ := onThrow_spec rollbackAnswer hclean e
      exact ⟨hthrow, ⟨_, rfl⟩, hclosed, fun h => hkeep (hmark h)⟩
  obtain ⟨hinv', herror, hclosed, hmarked⟩ := hprimary
  cases cleanupError with
  | none => exact ⟨hinv', herror, hclosed⟩
  | some cleanupError =>
    obtain ⟨hwith, hfailed, hstate⟩ :=
      withCleanupError_spec cleanupError hinv' (hmarked rfl)
    refine ⟨hwith, hfailed, ?_⟩
    rw [hstate]
    split
    · simp
    · exact hclosed

end Phase

/-! ## The begin -/

/-- The transaction of an attempt begins: the begin succeeds, or its options are
not supported and the begin without them succeeds. -/
def TransactionAnswers.begins (t : TransactionAnswers) (skipOptions : Bool) : Bool :=
  !t.beginExpired &&
    match t.begin with
    | .ok _ => true
    | .fail e =>
      !e.outcomeUnknown && e.isUnsupportedFeature && !skipOptions && !t.plainBeginExpired &&
        t.plainBegin.isOk
    | .throw _ => false

/-- The error of a begin whose outcome is unknown and that says that its connection id
is invalid. -/
def BatchError.isLostBegin (e : BatchError) : Bool :=
  (e.outcomeUnknown || e.isTimeoutException) && e.isInvalidConnectionId

/-- The begin of an attempt ends with such an error. -/
def TransactionAnswers.losesBegin (t : TransactionAnswers) (skipOptions : Bool) : Bool :=
  !t.beginExpired &&
    match t.begin with
    | .ok _ => false
    | .throw e => e.isLostBegin
    | .fail e =>
      if !e.outcomeUnknown && e.isUnsupportedFeature && !skipOptions then
        !t.plainBeginExpired && t.plainBegin.error?.any (·.isLostBegin)
      else e.isLostBegin

section Begin

variable {connection : Nat} {answer : Answer Nat} {marks : Marks}

@[simp] theorem ends_begin (failure : Option BatchError) :
    ends [.beginTransaction connection failure] = [] := rfl

theorem beginTransaction_ends (expired : Bool) :
    ends (beginTransaction connection expired answer marks).2.1 = [] := by
  unfold beginTransaction
  split
  · rfl
  · cases answer with
    | ok id => rfl
    | fail e => rfl
    | throw e =>
      dsimp only
      split <;> rfl

theorem mayHaveBegun_singleton {e : BatchError} :
    (∀ ev ∈ [Event.beginTransaction connection (some e)], ev.mayHaveBegun = false) ↔
      (e.outcomeUnknown || e.isTimeoutException) = false := by
  simp [Event.mayHaveBegun]

theorem isTimeoutException_mapQueryError (e : BatchError) (operation : Option String) :
    (e.mapQueryError operation).isTimeoutException = false := by
  obtain ⟨message, context, heq, -⟩ := e.exists_mapQueryError operation false
  rw [heq]
  rfl

/-- One begin that fails: the error tells whether a transaction may stand. -/
theorem beginTransaction_error {expired : Bool} {e : BatchError}
    (h : (beginTransaction connection expired answer marks).1 = .error e) :
    ((∀ ev ∈ (beginTransaction connection expired answer marks).2.1, ev.mayHaveBegun = false) ↔
        (e.outcomeUnknown || e.isTimeoutException) = false) ∧
      (!expired && answer.error?.any (·.isLostBegin)) = e.isLostBegin := by
  unfold beginTransaction at h ⊢
  cases expired with
  | true =>
    obtain rfl : budgetExhausted "transaction_begin" = e := Except.error.inj h
    exact ⟨by simp [budgetExhausted, BatchError.outcomeUnknown, BatchError.isTimeoutException], rfl⟩
  | false =>
    cases answer with
    | ok id => cases h
    | fail e' =>
      obtain rfl : e' = e := Except.error.inj h
      exact ⟨mayHaveBegun_singleton, rfl⟩
    | throw e' =>
      simp only [Bool.false_eq_true, if_false] at h ⊢
      split at h
      case isTrue htimeout =>
        obtain rfl : e' = e := Except.error.inj h
        rw [if_pos htimeout]
        exact ⟨mayHaveBegun_singleton, rfl⟩
      case isFalse htimeout =>
        obtain rfl : e'.mapQueryError (some "transaction_begin") = e := Except.error.inj h
        rw [Bool.not_eq_true] at htimeout
        simp [htimeout, Event.mayHaveBegun, isTimeoutException_mapQueryError,
          BatchError.isLostBegin, Answer.error?]

theorem outcomeUnknown_beginFailure (e : BatchError) :
    (beginFailure e).outcomeUnknown = (e.outcomeUnknown || e.isTimeoutException) := by
  unfold beginFailure
  split_ifs with hstarted hunknown
  · have hclass : e.isTimeoutException = false := by
      simp only [BatchError.isFailure, Bool.and_eq_true, Bool.or_eq_true, beq_iff_eq] at hstarted
      rcases hstarted.1 with hc | hc <;> simp [BatchError.isTimeoutException, hc]
    rw [hclass, Bool.or_false]
  · rw [hunknown]
    rfl
  all_goals
    simp only [Bool.or_eq_true, not_or, Bool.not_eq_true] at hunknown
    simp [BatchError.outcomeUnknown, BatchError.wrap, hunknown]

theorem isInvalidConnectionId_beginFailure (e : BatchError) :
    (beginFailure e).isInvalidConnectionId = e.isInvalidConnectionId := by
  unfold beginFailure
  split_ifs <;> rfl

theorem isUnsupportedFeature_mapQueryError (e : BatchError) (operation : Option String) :
    (e.mapQueryError operation).isUnsupportedFeature = false := by
  obtain ⟨message, context, heq, -⟩ := e.exists_mapQueryError operation false
  rw [heq]
  rfl

theorem answer_of_unsupported {expired : Bool} {e : BatchError}
    (h : (beginTransaction connection expired answer marks).1 = .error e)
    (hunsupported : e.isUnsupportedFeature = true) : expired = false ∧ answer = .fail e := by
  unfold beginTransaction at h
  split at h
  case isTrue =>
    obtain rfl : budgetExhausted "transaction_begin" = e := Except.error.inj h
    simp [budgetExhausted, BatchError.isUnsupportedFeature] at hunsupported
  case isFalse hexpired =>
    refine ⟨Bool.eq_false_iff.mpr hexpired, ?_⟩
    cases answer with
    | ok id => cases h
    | fail e' => rw [Except.error.inj h]
    | throw e' =>
      dsimp only at h
      split at h
      case isTrue htimeout =>
        obtain rfl : e' = e := Except.error.inj h
        simp only [BatchError.isTimeoutException, beq_iff_eq] at htimeout
        simp [BatchError.isUnsupportedFeature, htimeout] at hunsupported
      case isFalse =>
        rw [← Except.error.inj h, isUnsupportedFeature_mapQueryError] at hunsupported
        cases hunsupported

theorem beginTransaction_ok {expired : Bool} {id : Nat}
    (h : (beginTransaction connection expired answer marks).1 = .ok id) :
    expired = false ∧ answer = .ok id := by
  unfold beginTransaction at h
  split at h
  case isTrue => cases h
  case isFalse hexpired =>
    refine ⟨Bool.eq_false_iff.mpr hexpired, ?_⟩
    cases answer with
    | ok id' => rw [Except.ok.inj h]
    | fail e => cases h
    | throw e =>
      dsimp only at h
      split at h <;> cases h

theorem not_isOk_of_error {expired : Bool} {e : BatchError}
    (h : (beginTransaction connection expired answer marks).1 = .error e) :
    (!expired && answer.isOk) = false := by
  cases expired with
  | true => rfl
  | false =>
    cases answer with
    | ok id => simp [beginTransaction] at h
    | fail _ => rfl
    | throw _ => rfl

section Refusal

variable {t : TransactionAnswers} {skipOptions : Bool}

/-- A begin that is not tried again decides alone. -/
theorem begins_of_final
    (h : ∀ e, t.beginExpired = false → t.begin = .fail e →
      (!e.outcomeUnknown && e.isUnsupportedFeature && !skipOptions) = false) :
    t.begins skipOptions = (!t.beginExpired && t.begin.isOk) ∧
      t.losesBegin skipOptions = (!t.beginExpired && t.begin.error?.any (·.isLostBegin)) := by
  unfold TransactionAnswers.begins TransactionAnswers.losesBegin
  cases hexpired : t.beginExpired with
  | true => exact ⟨rfl, rfl⟩
  | false =>
    cases hbegin : t.begin with
    | ok id => exact ⟨rfl, rfl⟩
    | throw e => exact ⟨rfl, rfl⟩
    | fail e => simp [h e hexpired hbegin, Answer.error?, Answer.isOk]

/-- A begin that is refused for its options leaves it to the one without them. -/
theorem begins_of_refused {e : BatchError} (hexpired : t.beginExpired = false)
    (hbegin : t.begin = .fail e)
    (hrefused : (!e.outcomeUnknown && e.isUnsupportedFeature && !skipOptions) = true) :
    t.begins skipOptions = (!t.plainBeginExpired && t.plainBegin.isOk) ∧
      t.losesBegin skipOptions =
        (!t.plainBeginExpired && t.plainBegin.error?.any (·.isLostBegin)) := by
  simp only [TransactionAnswers.begins, TransactionAnswers.losesBegin, hexpired, hbegin, hrefused,
    Bool.not_false, Bool.true_and, if_true, and_self]

end Refusal

theorem beginIfNeeded_spec (skipOptions : Bool) (t : TransactionAnswers) :
    let r := beginIfNeeded connection skipOptions t marks
    ends r.2.1 = [] ∧
      ((∃ id, r.1 = .ok id) ∧ t.begins skipOptions = true ∧ t.losesBegin skipOptions = false ∨
        (∃ e, r.1 = .error e ∧ t.begins skipOptions = false ∧
          t.losesBegin skipOptions = (e.outcomeUnknown && e.isInvalidConnectionId) ∧
          ((∀ ev ∈ r.2.1, ev.mayHaveBegun = false) ↔ e.outcomeUnknown = false))) := by
  have hends := @beginTransaction_ends connection t.begin marks t.beginExpired
  have hfailed := @beginTransaction_error connection t.begin marks t.beginExpired
  have hnone := @not_isOk_of_error connection t.begin marks t.beginExpired
  have hok := @beginTransaction_ok connection t.begin marks t.beginExpired
  have hunsupported := @answer_of_unsupported connection t.begin marks t.beginExpired
  unfold beginIfNeeded
  generalize hfirst : beginTransaction connection t.beginExpired t.begin marks = first at *
  obtain ⟨result, events, marks'⟩ := first
  dsimp only at *
  cases result with
  | ok id =>
    obtain ⟨hexpired, hbegin⟩ := hok rfl
    exact ⟨hends, .inl ⟨⟨id, rfl⟩, by simp [TransactionAnswers.begins, hexpired, hbegin],
      by simp [TransactionAnswers.losesBegin, hexpired, hbegin]⟩⟩
  | error e =>
    obtain ⟨hshown, hlost⟩ := hfailed rfl
    dsimp only
    split
    case isFalse hplain =>
      have hfinal : ∀ e', t.beginExpired = false → t.begin = .fail e' →
          (!e'.outcomeUnknown && e'.isUnsupportedFeature && !skipOptions) = false := by
        intro e' hexpired hbegin
        obtain rfl : e' = e := by
          simp only [beginTransaction, hexpired, hbegin, Bool.false_eq_true, if_false,
            Prod.mk.injEq, Except.error.injEq] at hfirst
          exact hfirst.1
        exact Bool.eq_false_of_not_eq_true hplain
      obtain ⟨hbegins, hloses⟩ := begins_of_final hfinal
      refine ⟨hends, .inr ⟨_, rfl, hbegins.trans (hnone rfl), ?_, ?_⟩⟩
      · rw [hloses, hlost, outcomeUnknown_beginFailure, isInvalidConnectionId_beginFailure]
        rfl
      · rw [outcomeUnknown_beginFailure]
        exact hshown
    case isTrue hplain =>
      have hrefused := hplain
      simp only [Bool.and_eq_true, Bool.not_eq_true'] at hplain
      obtain ⟨hexpired, hbegin⟩ := hunsupported rfl hplain.1.2
      obtain ⟨hbegins, hloses⟩ := begins_of_refused hexpired hbegin hrefused
      -- The refused begin left no transaction behind.
      have hnoneBegun : ∀ ev ∈ events, ev.mayHaveBegun = false := by
        have hclass := hplain.1.2
        simp only [BatchError.isUnsupportedFeature, beq_iff_eq] at hclass
        rw [hshown]
        simp [hplain, BatchError.isTimeoutException, hclass]
      have hends' := @beginTransaction_ends connection t.plainBegin marks' t.plainBeginExpired
      have hfailed' := @beginTransaction_error connection t.plainBegin marks' t.plainBeginExpired
      have hnone' := @not_isOk_of_error connection t.plainBegin marks' t.plainBeginExpired
      have hok' := @beginTransaction_ok connection t.plainBegin marks' t.plainBeginExpired
      generalize beginTransaction connection t.plainBeginExpired t.plainBegin marks' = second at *
      obtain ⟨result, plain, marks''⟩ := second
      dsimp only at *
      cases result with
      | ok id =>
        obtain ⟨hexpired', hplainBegin⟩ := hok' rfl
        rw [hexpired', hplainBegin] at hbegins hloses
        exact ⟨by simp [hends, hends'], .inl ⟨⟨id, rfl⟩, hbegins, hloses⟩⟩
      | error e' =>
        obtain ⟨hshown', hlost'⟩ := hfailed' rfl
        refine ⟨by simp [hends, hends'], .inr ⟨_, rfl, hbegins.trans (hnone' rfl), ?_, ?_⟩⟩
        · rw [hloses, hlost', outcomeUnknown_beginFailure, isInvalidConnectionId_beginFailure]
          rfl
        · rw [outcomeUnknown_beginFailure, ← hshown', List.forall_mem_append,
            and_iff_right hnoneBegun]

end Begin

/-! ## The attempts -/

/-- The begin of an attempt fails with an unknown outcome and an invalid connection id. -/
def losesBegin {ρ : Type} (answers : AttemptAnswers ρ) : Bool :=
  answers.context.isOk && answers.transactions.losesBegin answers.skipOptions

/-- An attempt begins its transaction, runs all its commands and then returns
without ending it: a prepared statement could not be closed and the error is not
about an unknown outcome, or no time is left for the commit. -/
def leavesOpen {ρ : Type} (call : BatchCall) (answers : AttemptAnswers ρ) : Bool :=
  answers.context.isOk && answers.transactions.begins answers.skipOptions &&
    passesFrom call answers.commands call.commands 0 &&
    match cleanupErrors call answers.commands with
    | [] => answers.transactions.commitExpired
    | e :: _ => !e.outcomeUnknown

/-- The end of an attempt of a transactional batch: how it exits, what its events
show, and whether it leaves the transaction open; `lost` says that it has lost its begin. -/
inductive AttemptEnd {ρ : Type} (lost : Bool) : AttemptExit ρ → List Event → Bool → Prop where
  | notAcquired {events} (e : BatchError) (h : ends events = []) :
      AttemptEnd lost (.returned (.error e)) events false
  | notBegun {events} (e : BatchError) (connection mark)
      (h : ends events = [.release connection none mark]) :
      AttemptEnd lost (.returned (.error e)) events false
  | notBegunAgain {events} (forceDirect connection mark)
      (h : ends events = [.release connection none mark])
      (hnever : (∀ ev ∈ events, ev.mayHaveBegun = false) ↔ lost = false) :
      AttemptEnd lost (.again forceDirect) events false
  | rolledBack {events exit} (connection g mark) (hexit : ∀ results, exit ≠ .returned (.ok results))
      (hstate : g.state = .rolledBack) (hbegun : lost = false)
      (h : ends events =
        [.rollbackTransaction connection true, .release connection (some g) mark]) :
      AttemptEnd lost exit events false
  | unconfirmed {events} (e : BatchError) (connection g mark) (rollbacks : List Event)
      (hstate : g.state = .unconfirmed) (hmark : mark.isSome = true)
      (hrollbacks : rollbacks = [] ∨
        ∃ confirmed, rollbacks = [.rollbackTransaction connection confirmed])
      (h : ends events = rollbacks ++ [.release connection (some g) mark]) :
      AttemptEnd lost (.returned (.error e)) events false
  | leftOpen {events} (e : BatchError) (connection g mark) (hstate : g.state = .active)
      (h : ends events = [.release connection (some g) mark]) :
      AttemptEnd lost (.returned (.error e)) events true
  | committed {events} (results) (connection g mark) (hstate : g.state = .committed)
      (h : ends events =
        [.commitTransaction connection true, .release connection (some g) mark]) :
      AttemptEnd lost (.returned (.ok results)) events false
  | commitUnconfirmed {events} (e : BatchError) (connection g mark)
      (hstate : g.state = .unconfirmed) (hmark : mark.isSome = true)
      (hunknown : e.context.outcomeUnknown = true) (hretry : e.context.retryable = some false)
      (h : ends events =
        [.commitTransaction connection false, .release connection (some g) mark]) :
      AttemptEnd lost (.returned (.error e)) events false

section Attempts

variable {ρ : Type} {call : BatchCall}

theorem fallback_known {context : BatchExecutionContext} {e : BatchError} {attempt : Nat}
    {confirmed notStarted : Bool}
    (h : shouldFallbackTransactionalNativePoolToDirect context e attempt confirmed notStarted =
      true) : e.outcomeUnknown = false := by
  unfold shouldFallbackTransactionalNativePoolToDirect at h
  by_contra hunknown
  simp [Bool.eq_true_of_not_eq_false hunknown] at h

theorem afterBeginFailure_end (context : BatchExecutionContext) (attempt : Nat)
    (forceDirect : Bool) {e : BatchError} {events : List Event} (marks : Marks)
    (hends : ends events = []) {lost : Bool}
    (hlost : lost = (e.outcomeUnknown && e.isInvalidConnectionId))
    (hshown : (∀ ev ∈ events, ev.mayHaveBegun = false) ↔ e.outcomeUnknown = false) :
    let a : Attempt ρ := afterBeginFailure call context attempt forceDirect e events marks
    AttemptEnd lost a.exit a.events false := by
  have hrelease : ∀ mark, ends (events ++ [Event.release context.connectionId none mark]) =
      [.release context.connectionId none mark] := by
    intro mark
    simp [hends]
  have hmay : ∀ mark,
      (∀ ev ∈ events ++ [Event.release context.connectionId none mark],
        ev.mayHaveBegun = false) ↔ e.outcomeUnknown = false := by
    intro mark
    rw [← hshown, List.forall_mem_append, and_iff_left]
    intro ev hev
    rw [List.mem_singleton.mp hev]
    rfl
  unfold afterBeginFailure
  split_ifs with hfallback hinvalid
  · -- The fallback is refused when the outcome is unknown.
    have hknown : e.outcomeUnknown = false := fallback_known hfallback
    refine .notBegunAgain _ _ _ (hrelease _) ((hmay _).trans ?_)
    simp [hlost, hknown]
  · simp only [Bool.and_eq_true] at hinvalid
    refine .notBegunAgain _ _ _ (hrelease _) ((hmay _).trans ?_)
    simp [hlost, hinvalid.2]
  · exact .notBegun _ _ _ (hrelease _)

/-- Such a begin is tried again in the second attempt. -/
theorem afterBeginFailure_again (htx : call.transaction = true) (context : BatchExecutionContext)
    (forceDirect : Bool) {e : BatchError} (events : List Event) (marks : Marks)
    (hlost : (e.outcomeUnknown && e.isInvalidConnectionId) = true) :
    (afterBeginFailure call context 0 forceDirect e events marks : Attempt ρ).exit =
      .again forceDirect := by
  rw [Bool.and_eq_true] at hlost
  unfold afterBeginFailure
  rw [if_neg, if_pos]
  · rfl
  · simp [htx, hlost.2]
  · intro hfallback
    have hknown := fallback_known hfallback
    rw [hlost.1] at hknown
    cases hknown

theorem not_fallback_of_not_rollbackConfirmed (context : BatchExecutionContext) (e : BatchError)
    (attempt : Nat) :
    shouldFallbackTransactionalNativePoolToDirect context e attempt false false = false := by
  simp [shouldFallbackTransactionalNativePoolToDirect]

theorem afterCommandFailure_end (context : BatchExecutionContext) (attempt : Nat) (e : BatchError)
    {connection : Nat} {s : CommandState ρ} (h : PhaseInv connection s) {events : List Event}
    (hends : ends events = ends s.events) :
    let a := afterCommandFailure context attempt e s events
    AttemptEnd false a.exit a.events (s.transaction.state == .active) := by
  obtain ⟨hconnection, -, hagrees⟩ := h
  unfold Uncommitted at hagrees
  cases hstate : s.transaction.state with
  | active =>
    have hconfirmed : s.transaction.rollbackConfirmed = false := by
      simp [BatchTransactionGuard.rollbackConfirmed, hstate]
    simp only [hstate] at hagrees
    simp only [afterCommandFailure, hconfirmed, not_fallback_of_not_rollbackConfirmed,
      hconnection, Attempt.release, Bool.false_eq_true, if_false]
    refine .leftOpen e connection s.transaction (s.marks connection) hstate ?_
    rw [ends_append, hends, hagrees]
    rfl
  | rolledBack =>
    simp only [hstate] at hagrees
    unfold afterCommandFailure
    split_ifs
    · simp only [hconnection, Attempt.release]
      refine .rolledBack connection s.transaction
        (markConnectionForDiscard s.marks connection connection) (by simp) hstate rfl ?_
      rw [ends_append, hends, hagrees]
      rfl
    · simp only [hconnection, Attempt.release]
      refine .rolledBack connection s.transaction (s.marks connection) (by simp) hstate rfl ?_
      rw [ends_append, hends, hagrees]
      rfl
  | unconfirmed =>
    have hconfirmed : s.transaction.rollbackConfirmed = false := by
      simp [BatchTransactionGuard.rollbackConfirmed, hstate]
    simp only [hstate] at hagrees
    simp only [afterCommandFailure, hconfirmed, not_fallback_of_not_rollbackConfirmed,
      hconnection, Attempt.release, Bool.false_eq_true, if_false]
    refine .unconfirmed e connection s.transaction (s.marks connection) (ends s.events) hstate
      hagrees.1 hagrees.2 ?_
    rw [ends_append, hends]
    rfl
  | completing => simp [hstate] at hagrees
  | committed => simp [hstate] at hagrees
  | rollingBack => simp [hstate] at hagrees

theorem finishAttempt_end (htx : call.transaction = true) (t : TransactionAnswers)
    (results : List (SqlCommandResult ρ)) {connection : Nat} {s : CommandState ρ}
    (h : PhaseInv connection s) (hactive : s.transaction.state = .active) {events : List Event}
    (hends : ends events = ends s.events) :
    let a := finishAttempt call t results s events
    AttemptEnd false a.exit a.events t.commitExpired := by
  obtain ⟨hconnection, hbegun, hagrees⟩ := h
  have hopen : s.transaction.isActive = true := by
    simp [BatchTransactionGuard.isActive, hbegun, hactive]
  have hnone : s.transaction.transactionId.isNone = false := by
    simpa using hbegun
  have hempty : ends events = [] := by
    rw [hends]
    simpa [Uncommitted, hactive] using hagrees
  simp only [finishAttempt, htx, hopen, hconnection, Bool.and_self, Attempt.release]
  cases hexpired : t.commitExpired with
  | true =>
    simp only [commit, hnone, hexpired, Bool.false_eq_true, if_false, if_true, Except.map,
      List.append_nil]
    refine .leftOpen _ connection s.transaction (s.marks connection) hactive ?_
    rw [ends_append, hempty]
    rfl
  | false =>
    simp only [commit, hnone, hexpired, hopen, Bool.false_eq_true, if_false, Bool.not_true]
    cases t.commit with
    | ok _ =>
      refine .committed results connection { s.transaction with state := .committed }
        (s.marks connection) rfl ?_
      rw [ends_append, ends_append, hempty]
      rfl
    | fail e | throw e =>
      dsimp only
      refine .commitUnconfirmed _ connection s.transaction.markUnconfirmed (some .outcomeUnknown)
        rfl rfl rfl rfl ?_
      rw [ends_append, ends_append, hempty, markConnectionOutcomeUnknown_self]
      rfl

theorem runAttempt_end (htx : call.transaction = true) (answers : AttemptAnswers ρ)
    (attempt : Nat) (forceDirect : Bool) (marks : Marks) :
    let a := runAttempt call answers attempt forceDirect marks
    AttemptEnd (losesBegin answers) a.exit a.events (leavesOpen call answers) := by
  unfold runAttempt prepareBatchExecutionContext
  cases hcontext : answers.context with
  | error e =>
    have hopen : leavesOpen call answers = false := by simp [leavesOpen, hcontext, Except.isOk,
      Except.toBool]
    rw [hopen]
    exact .notAcquired e rfl
  | ok connection =>
    simp only [Except.map, beginBatch, htx, if_true]
    have hacquired : answers.context.isOk = true := by rw [hcontext]; rfl
    obtain ⟨hends, hbegin⟩ :=
      @beginIfNeeded_spec connection marks answers.skipOptions answers.transactions
    generalize beginIfNeeded connection answers.skipOptions answers.transactions marks =
      begun at *
    obtain ⟨result, events, marks'⟩ := begun
    dsimp only at *
    rcases hbegin with ⟨⟨id, rfl⟩, hbegins, hloses⟩ | ⟨e, rfl, hbegins, hloses, hshown⟩
    · dsimp only [Except.map]
      have hkept : losesBegin answers = false := by rw [losesBegin, hacquired, hloses]; rfl
      rw [hkept]
      have hphase : ∀ s : CommandState ρ, ends (events ++ s.events) = ends s.events := by
        intro s
        rw [ends_append, hends, List.nil_append]
      cases hpass : passesFrom call answers.commands call.commands 0 with
      | false =>
        have hopen : leavesOpen call answers = false := by simp [leavesOpen, hpass]
        obtain ⟨hinv, ⟨e, he⟩, hclosed⟩ := @executeBatchCommands_of_not_passes ρ call
          answers.commands connection answers.transactions.rollback htx id marks' hpass
        have hafter := fun context => afterCommandFailure_end context attempt e hinv (hphase _)
        simp only [beq_eq_false_iff_ne.mpr hclosed] at hafter
        rw [he, hopen]
        exact hafter _
      | true =>
        have hopen : leavesOpen call answers =
            match cleanupErrors call answers.commands with
            | [] => answers.transactions.commitExpired
            | e :: _ => !e.outcomeUnknown := by
          simp [leavesOpen, hacquired, hbegins, hpass]
        obtain ⟨hinv, hcleanup⟩ := @executeBatchCommands_of_passes ρ call
          answers.commands connection answers.transactions.rollback id marks' hpass
        rw [hopen]
        cases herrors : cleanupErrors call answers.commands with
        | nil =>
          simp only [herrors] at hcleanup
          obtain ⟨⟨results, hresults⟩, hactive⟩ := hcleanup
          rw [hresults]
          exact finishAttempt_end htx answers.transactions results hinv hactive (hphase _)
        | cons e rest =>
          simp only [herrors] at hcleanup
          obtain ⟨⟨e', he'⟩, hstate⟩ := hcleanup
          have hleft : (!e.outcomeUnknown) =
              ((executeBatchCommands call answers.commands answers.transactions.rollback
                connection { transactionId := some id } marks').1.transaction.state == .active) := by
            rw [hstate]
            cases e.outcomeUnknown <;> rfl
          rw [he']
          dsimp only
          rw [hleft]
          exact afterCommandFailure_end _ attempt e' hinv (hphase _)
    · dsimp only [Except.map]
      have hopen : leavesOpen call answers = false := by simp [leavesOpen, hbegins]
      rw [hopen]
      refine afterBeginFailure_end _ attempt forceDirect marks' hends ?_ hshown
      rw [losesBegin, hacquired, hloses, Bool.true_and]

end Attempts

/-! ### What an attempt shows -/

namespace AttemptEnd

variable {ρ : Type} {exit : AttemptExit ρ} {events : List Event} {lost left : Bool}

theorem countP_le (h : AttemptEnd lost exit events left) :
    events.countP Event.isCommit + events.countP Event.isRollback ≤ 1 := by
  rw [← countP_ends events (p := Event.isCommit) (by intro e he; simp [he]),
    ← countP_ends events (p := Event.isRollback) (by intro e he; simp [he])]
  cases h with
  | unconfirmed e connection g mark rollbacks hstate hmark hrollbacks h =>
    rw [h]
    rcases hrollbacks with rfl | ⟨confirmed, rfl⟩
    · simp [Event.isCommit, Event.isRollback]
    · simp [List.countP_cons, Event.isCommit, Event.isRollback]
  | _ => simp_all [List.countP_cons, Event.isCommit, Event.isRollback]

theorem of_again {forceDirect : Bool}
    (h : AttemptEnd (ρ := ρ) lost (.again forceDirect) events left) :
    events.countP Event.isCommit = 0 ∧ left = false ∧
      (((∀ ev ∈ events, ev.mayHaveBegun = false) ∨
        ∃ connection, .rollbackTransaction connection true ∈ events) ↔ lost = false) := by
  rw [← countP_ends events (p := Event.isCommit) (by intro e he; simp [he])]
  cases h with
  | notBegunAgain _ connection mark h hshown =>
    refine ⟨?_, rfl, ?_⟩
    · rw [h]
      rfl
    · rw [hshown, or_iff_left]
      rintro ⟨connection', hmem⟩
      have hends : .rollbackTransaction connection' true ∈ ends events :=
        List.mem_filter.mpr ⟨hmem, rfl⟩
      rw [h, List.mem_singleton] at hends
      cases hends
  | rolledBack connection g mark hexit hstate hbegun h =>
    refine ⟨?_, rfl, iff_of_true (.inr ⟨connection, mem_of_mem_ends ?_⟩) hbegun⟩
    · rw [h]
      rfl
    · rw [h]
      exact List.mem_cons_self

theorem commit_mem_iff {connection : Nat} {confirmed : Bool} :
    .commitTransaction connection confirmed ∈ events ↔
      .commitTransaction connection confirmed ∈ ends events := by
  simp [ends, Event.isCommit]

theorem ok_iff {result : Except BatchError (List (SqlCommandResult ρ))}
    (h : AttemptEnd lost (.returned result) events left) :
    (∃ results, result = .ok results) ↔
      ∃ connection, .commitTransaction connection true ∈ events := by
  rw [exists_congr fun _ => commit_mem_iff]
  cases h with
  | unconfirmed e connection g mark rollbacks hstate hmark hrollbacks h =>
    rw [h]
    rcases hrollbacks with rfl | ⟨confirmed, rfl⟩ <;> simp
  | rolledBack connection g mark hexit hstate hbegun h =>
    rw [h]
    have hnot : ¬∃ results, result = .ok results := by
      rintro ⟨results, rfl⟩
      exact hexit results rfl
    simp [hnot]
  | _ => simp_all

theorem of_commit_unconfirmed {result : Except BatchError (List (SqlCommandResult ρ))}
    (h : AttemptEnd lost (.returned result) events left) {connection : Nat}
    (hcommit : .commitTransaction connection false ∈ events) :
    ∃ e, result = .error e ∧ e.context.outcomeUnknown = true ∧
      e.context.retryable = some false := by
  rw [commit_mem_iff] at hcommit
  cases h with
  | commitUnconfirmed e connection g mark hstate hmark hunknown hretry h =>
    exact ⟨e, rfl, hunknown, hretry⟩
  | unconfirmed e connection g mark rollbacks hstate hmark hrollbacks h =>
    rw [h] at hcommit
    rcases hrollbacks with rfl | ⟨confirmed, rfl⟩ <;> simp at hcommit
  | _ => simp_all

theorem forall_isCleanRelease_iff (h : AttemptEnd lost exit events left) :
    (∀ ev ∈ events, ev.isCleanRelease = true) ↔ left = false := by
  rw [forall_mem_iff_ends]
  · cases h with
    | unconfirmed e connection g mark rollbacks hstate hmark hrollbacks h =>
      rw [h]
      rcases hrollbacks with rfl | ⟨confirmed, rfl⟩ <;>
        simp [Event.isCleanRelease, hstate, hmark]
    | _ => simp_all [Event.isCleanRelease]
  · intro e he
    cases e <;> first | rfl | simp [Event.isRelease] at he

end AttemptEnd

/-! ## The call -/

/-- What a transactional call guarantees about its attempts, at most `n` of them:
a single commit, no commit that is reported otherwise, no rollback behind it. -/
structure CommitsAtMostOnce {ρ : Type} (n : Nat) (r : BatchRun ρ) : Prop where
  attempts_le : r.attempts.length ≤ n
  commit_le : r.events.countP Event.isCommit ≤ 1
  ok_iff : (∃ results, r.result = .ok results) ↔
    ∃ connection, .commitTransaction connection true ∈ r.events
  unconfirmed : ∀ connection, .commitTransaction connection false ∈ r.events →
    ∃ e, r.result = .error e ∧ e.context.outcomeUnknown = true ∧
      e.context.retryable = some false
  rollback_le : ∀ events ∈ r.attempts, events.countP Event.isRollback ≤ 1
  no_rollback_after_commit : r.events.Pairwise fun earlier later =>
    earlier.isCommit = true → later.isRollback = false

/-- The same, and a second attempt is made only when the transaction of the first never began
or its rollback is confirmed. -/
structure CommitsOnce {ρ : Type} (n : Nat) (r : BatchRun ρ) : Prop
    extends CommitsAtMostOnce n r where
  retried : ∀ first second rest, r.attempts = first :: second :: rest →
    (∀ ev ∈ first, ev.mayHaveBegun = false) ∨
      ∃ connection, .rollbackTransaction connection true ∈ first

section Call

variable {ρ : Type} {call : BatchCall} (answers : Nat → AttemptAnswers ρ)

theorem not_mem_of_countP_eq_zero {events : List Event} (h : events.countP Event.isCommit = 0) :
    ∀ ev ∈ events, ev.isCommit = false := by
  intro ev hev
  exact Bool.eq_false_iff.mpr (List.countP_eq_zero.mp h ev hev)

theorem pairwise_of_countP_le {events : List Event}
    (h : events.countP Event.isCommit + events.countP Event.isRollback ≤ 1) :
    events.Pairwise fun earlier later => earlier.isCommit = true → later.isRollback = false := by
  apply List.pairwise_of_forall_mem_list
  intro earlier hearlier later hlater hcommit
  have hpos : 0 < events.countP Event.isCommit :=
    List.countP_pos_iff.mpr ⟨earlier, hearlier, hcommit⟩
  have hnone : events.countP Event.isRollback = 0 := by omega
  exact Bool.eq_false_iff.mpr (List.countP_eq_zero.mp hnone later hlater)

theorem CommitsAtMostOnce.cons {n : Nat} {r : BatchRun ρ} {events : List Event}
    {forceDirect lost left : Bool}
    (hend : AttemptEnd (ρ := ρ) lost (.again forceDirect) events left)
    (h : CommitsAtMostOnce n r) :
    CommitsAtMostOnce (n + 1) { r with attempts := events :: r.attempts } := by
  obtain ⟨hzero, -, -⟩ := hend.of_again
  have hnone := not_mem_of_countP_eq_zero hzero
  have hevents : BatchRun.events { r with attempts := events :: r.attempts } =
      events ++ r.events := rfl
  -- A commit of the whole call is one of the later attempts.
  have hcommit : ∀ connection confirmed,
      .commitTransaction connection confirmed ∈ events ++ r.events ↔
        .commitTransaction connection confirmed ∈ r.events := by
    intro connection confirmed
    rw [List.mem_append, or_iff_right_iff_imp]
    intro hmem
    cases hnone _ hmem
  constructor
  · exact Nat.succ_le_succ h.attempts_le
  · rw [hevents, List.countP_append, hzero, Nat.zero_add]
    exact h.commit_le
  · rw [hevents, exists_congr fun connection => hcommit connection true]
    exact h.ok_iff
  · intro connection hmem
    rw [hevents, hcommit] at hmem
    exact h.unconfirmed connection hmem
  · intro attempt hattempt
    rcases List.mem_cons.mp hattempt with rfl | hattempt
    · have hle := hend.countP_le
      omega
    · exact h.rollback_le attempt hattempt
  · rw [hevents, List.pairwise_append]
    refine ⟨pairwise_of_countP_le hend.countP_le, h.no_rollback_after_commit, ?_⟩
    intro earlier hearlier later hlater hcommitted
    rw [hnone earlier hearlier] at hcommitted
    cases hcommitted

theorem CommitsAtMostOnce.of_returned {events : List Event} {lost left : Bool}
    {result : Except BatchError (List (SqlCommandResult ρ))}
    (hend : AttemptEnd lost (.returned result) events left) (n : Nat) :
    CommitsAtMostOnce (n + 1) { result := result, attempts := [events] } := by
  have hevents : BatchRun.events { result := result, attempts := [events] } = events :=
    List.append_nil events
  have hle := hend.countP_le
  constructor
  · exact Nat.succ_le_succ (Nat.zero_le n)
  · rw [hevents]
    omega
  · rw [hevents]
    exact hend.ok_iff
  · intro connection hmem
    rw [hevents] at hmem
    exact hend.of_commit_unconfirmed hmem
  · intro attempt hattempt
    rw [List.mem_singleton.mp hattempt]
    omega
  · rw [hevents]
    exact pairwise_of_countP_le hle

theorem attemptLoop_commitsAtMostOnce (htx : call.transaction = true) (left attempt : Nat)
    (forceDirect : Bool) (marks : Marks) :
    CommitsAtMostOnce left (attemptLoop call answers left attempt forceDirect marks) := by
  induction left generalizing attempt forceDirect marks with
  | zero => constructor <;> simp [attemptLoop, BatchRun.events]
  | succ left ih =>
    have hend := runAttempt_end htx (answers attempt) attempt forceDirect marks
    unfold attemptLoop
    generalize runAttempt call (answers attempt) attempt forceDirect marks = a at *
    obtain ⟨exit, events, marks'⟩ := a
    cases exit with
    | returned result => exact .of_returned hend left
    | again forceDirect' => exact (ih (attempt + 1) forceDirect' marks').cons hend

theorem runAttempt_again (htx : call.transaction = true) {attemptAnswers : AttemptAnswers ρ}
    (hlost : losesBegin attemptAnswers = true) (forceDirect : Bool) (marks : Marks) :
    (runAttempt call attemptAnswers 0 forceDirect marks).exit = .again forceDirect := by
  unfold losesBegin at hlost
  rw [Bool.and_eq_true] at hlost
  obtain ⟨hacquired, hlost⟩ := hlost
  unfold runAttempt prepareBatchExecutionContext
  cases hcontext : attemptAnswers.context with
  | error e =>
    rw [hcontext] at hacquired
    cases hacquired
  | ok connection =>
    simp only [Except.map, beginBatch, htx, if_true]
    obtain ⟨-, hbegin⟩ := @beginIfNeeded_spec connection marks attemptAnswers.skipOptions
      attemptAnswers.transactions
    generalize beginIfNeeded connection attemptAnswers.skipOptions attemptAnswers.transactions
      marks = begun at *
    obtain ⟨result, events, marks'⟩ := begun
    dsimp only at *
    rcases hbegin with ⟨-, -, hkept⟩ | ⟨e, rfl, -, hloses, -⟩
    · rw [hkept] at hlost
      cases hlost
    · rw [hloses] at hlost
      exact afterBeginFailure_again htx _ forceDirect events marks' hlost

theorem attemptLoop_attempts (left attempt : Nat) (forceDirect : Bool) (marks : Marks) :
    ∃ events rest, (attemptLoop call answers (left + 1) attempt forceDirect marks).attempts =
      events :: rest := by
  unfold attemptLoop
  generalize runAttempt call (answers attempt) attempt forceDirect marks = a
  obtain ⟨exit, events, marks'⟩ := a
  cases exit <;> exact ⟨_, _, rfl⟩

/-- A transactional batch commits at most once over the whole call, whatever the
database answers: it succeeds exactly when a commit is confirmed, it reports a commit
that is not confirmed as one of unknown outcome, and it rolls back at most once in an
attempt and never after a commit.  It makes a second attempt only when the transaction
of the first never began or was rolled back, unless the begin of the first is lost. -/
theorem executeBatch_commitsOnce_iff (htx : call.transaction = true) :
    CommitsOnce 2 (executeBatch call answers) ↔ losesBegin (answers 0) = false := by
  have honce : CommitsAtMostOnce 2 (executeBatch call answers) :=
    attemptLoop_commitsAtMostOnce answers htx 2 0 false fun _ => none
  have hend := runAttempt_end htx (answers 0) 0 false fun _ => none
  have hagain := @runAttempt_again ρ call htx (answers 0)
  constructor
  · intro h
    by_contra hlost
    rw [Bool.not_eq_false] at hlost
    have hexit := hagain hlost false fun _ => none
    have hretried := h.retried
    unfold executeBatch attemptLoop at hretried
    generalize runAttempt call (answers 0) 0 false (fun _ => none) = a at *
    obtain ⟨exit, events, marks⟩ := a
    obtain rfl : exit = .again false := hexit
    obtain ⟨second, rest, hattempts⟩ := @attemptLoop_attempts ρ call answers 0 1 false marks
    have hbegun := hend.of_again.2.2.mp (hretried events second rest (by rw [← hattempts]))
    rw [hlost] at hbegun
    cases hbegun
  · intro hkept
    refine ⟨honce, ?_⟩
    intro first second rest hattempts
    unfold executeBatch attemptLoop at hattempts
    generalize runAttempt call (answers 0) 0 false (fun _ => none) = a at *
    obtain ⟨exit, events, marks⟩ := a
    cases exit with
    | returned result => cases hattempts
    | again forceDirect =>
      obtain ⟨rfl, -⟩ := List.cons.inj hattempts
      exact hend.of_again.2.2.mpr hkept

theorem attemptLoop_isCleanRelease_iff (htx : call.transaction = true) (left attempt : Nat)
    (forceDirect : Bool) (marks : Marks) :
    let r := attemptLoop call answers left attempt forceDirect marks
    (∀ ev ∈ r.events, ev.isCleanRelease = true) ↔
      ∀ n < r.attempts.length, leavesOpen call (answers (attempt + n)) = false := by
  induction left generalizing attempt forceDirect marks with
  | zero => simp [attemptLoop, BatchRun.events]
  | succ left ih =>
    have hend := runAttempt_end htx (answers attempt) attempt forceDirect marks
    unfold attemptLoop
    generalize runAttempt call (answers attempt) attempt forceDirect marks = a at *
    obtain ⟨exit, events, marks'⟩ := a
    cases exit with
    | returned result =>
      have hevents : BatchRun.events { result := result, attempts := [events] } = events :=
        List.append_nil events
      dsimp only
      rw [hevents, hend.forall_isCleanRelease_iff]
      constructor
      · intro hleft n hn
        obtain rfl : n = 0 := by simpa using hn
        exact hleft
      · intro hall
        exact hall 0 (by simp)
    | again forceDirect' =>
      dsimp only
      have hrest := ih (attempt + 1) forceDirect' marks'
      dsimp only at hrest
      generalize attemptLoop call answers left (attempt + 1) forceDirect' marks' = rest at *
      show (∀ ev ∈ events ++ rest.events, _) ↔ _
      rw [List.forall_mem_append, hend.forall_isCleanRelease_iff, hrest]
      constructor
      · rintro ⟨hfirst, hlater⟩ n hn
        cases n with
        | zero => exact hfirst
        | succ n =>
          have hn' : n < rest.attempts.length := by simpa using hn
          have heq : attempt + (n + 1) = attempt + 1 + n := by omega
          rw [heq]
          exact hlater n hn'
      · intro hall
        refine ⟨hall 0 (by simp), ?_⟩
        intro n hn
        have heq : attempt + 1 + n = attempt + (n + 1) := by omega
        rw [heq]
        exact hall (n + 1) (by simpa using hn)

/-- The connections of a transactional batch are released with the transaction
committed, rolled back, never begun, or unconfirmed on a marked connection exactly
when no attempt of the call leaves its transaction open. -/
theorem executeBatch_isCleanRelease_iff (htx : call.transaction = true) :
    (∀ ev ∈ (executeBatch call answers).events, ev.isCleanRelease = true) ↔
      ∀ n < (executeBatch call answers).attempts.length, leavesOpen call (answers n) = false := by
  have h := attemptLoop_isCleanRelease_iff answers htx 2 0 false fun _ => none
  simp only [Nat.zero_add] at h
  exact h

end Call

/-! ## A batch of one write -/

/-- A transactional batch of one write. -/
def oneWriteBatch : BatchCall where
  commands := [{ sql := "delete from t".toList }]
  transaction := true
  validateSqlForExecution := fun _ => none
  isReadOnlyQuery := fun _ => false

/-- An attempt over connection 7 in which everything succeeds. -/
def calmAttempt : AttemptAnswers Unit where
  context := .ok 7
  commands := { run := fun _ _ => { outcome := .ok { data := [] } } }

/-- The same, with no time left when the commit is due. -/
def lateAttempt : AttemptAnswers Unit :=
  { calmAttempt with transactions := { commitExpired := true } }

theorem executeBatch_commitsOnce_calmAttempt :
    CommitsOnce 2 (executeBatch oneWriteBatch fun _ => calmAttempt) ∧
      .commitTransaction 7 true ∈ (executeBatch oneWriteBatch fun _ => calmAttempt).events :=
  ⟨(executeBatch_commitsOnce_iff _ rfl).mpr rfl, by decide +kernel⟩

/-- An ODBC error whose details say that the outcome is unknown, and whose native code says that
the connection id is invalid. -/
def lostBegin : BatchError := { causeUnknown := true, isInvalidConnectionId := true }

/-- The call whose first attempt loses its begin. -/
def lostCall : BatchRun Unit :=
  executeBatch oneWriteBatch fun attempt =>
    if attempt = 0 then { calmAttempt with transactions := { begin := .fail lostBegin } }
    else calmAttempt

/-- After a begin of unknown outcome a second attempt begins and commits. -/
theorem lostCall_commits_again :
    .commitTransaction 7 true ∈ lostCall.events ∧ ¬CommitsOnce 2 lostCall := by
  refine ⟨by decide +kernel, fun h => ?_⟩
  have hattempts : lostCall.attempts =
      [[.beginTransaction 7 (some lostBegin), .release 7 none (some .outcomeUnknown)],
        [.beginTransaction 7 none, .dispatch 7 0 0, .commitTransaction 7 true,
          .release 7 (some { transactionId := some 1, state := .committed }) none]] := by
    decide +kernel
  rcases h.retried _ _ _ hattempts with hnever | ⟨connection, hrolledBack⟩
  · exact absurd (hnever _ List.mem_cons_self) (by decide)
  · simp at hrolledBack

theorem executeBatch_isCleanRelease_calmAttempt :
    oneWriteBatch.transaction = true ∧
      ∀ ev ∈ (executeBatch oneWriteBatch fun _ => calmAttempt).events, ev.isCleanRelease = true :=
  ⟨rfl, (executeBatch_isCleanRelease_iff _ rfl).mpr (by decide +kernel)⟩

/-- A batch whose budget is used up when its commands are done releases its
connection with the transaction still active. -/
theorem executeBatch_releases_active :
    .release 7 (some { transactionId := some 1 }) none ∈
        (executeBatch oneWriteBatch fun _ => lateAttempt).events ∧
      ¬∀ ev ∈ (executeBatch oneWriteBatch fun _ => lateAttempt).events,
        ev.isCleanRelease = true := by
  decide +kernel

end PlugAgente.Batch
