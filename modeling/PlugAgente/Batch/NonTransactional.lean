import PlugAgente.Batch.Attempts

/-!
# A batch without a transaction

Which commands of a batch without a transaction are dispatched a second time, and
what its items tell.

Each round of the loop adds the dispatches of its own command and, when it goes on,
one item; `RoundSpec` says how the two belong together.
-/

namespace PlugAgente.Batch

/-! ## Dispatches -/

/-- The calls of the runner that dispatched the command at index `i`, in order. -/
def dispatchesOf (events : List Event) (i : Nat) : List Nat :=
  events.filterMap fun
    | .dispatch _ index call => if index = i then some call else none
    | _ => none

@[simp] theorem dispatchesOf_nil (i : Nat) : dispatchesOf [] i = [] := rfl

@[simp] theorem dispatchesOf_append (xs ys : List Event) (i : Nat) :
    dispatchesOf (xs ++ ys) i = dispatchesOf xs i ++ dispatchesOf ys i :=
  List.filterMap_append ..

@[simp] theorem dispatchesOf_release (connection : Nat) (g : Option BatchTransactionGuard)
    (mark : Option PoolDiscardReason) (i : Nat) :
    dispatchesOf [.release connection g mark] i = [] := rfl

@[simp] theorem dispatchesOf_rollback (connection : Nat) (confirmed : Bool) (i : Nat) :
    dispatchesOf [.rollbackTransaction connection confirmed] i = [] := rfl

theorem dispatchesOf_replicate_self (n connection i call : Nat) :
    dispatchesOf (List.replicate n (.dispatch connection i call)) i = List.replicate n call := by
  induction n with
  | zero => rfl
  | succ n ih =>
    rw [List.replicate_succ, List.replicate_succ, ← ih]
    simp [dispatchesOf]

theorem dispatchesOf_replicate_ne {i j : Nat} (h : i ≠ j) (n connection call : Nat) :
    dispatchesOf (List.replicate n (.dispatch connection i call)) j = [] := by
  induction n with
  | zero => rfl
  | succ n ih =>
    rw [List.replicate_succ]
    simp [dispatchesOf, h]

/-! ## Items -/

section Items

variable {ρ : Type} (call : BatchCall) (answers : CommandAnswers ρ)

/-- The item describes the answer to a call of the runner.  For a write whose
connection was lost it says that the write may have been applied. -/
def describes (i : Nat) (c : SqlCommand) (answer : Answer (QueryResponse ρ))
    (item : SqlCommandResult ρ) : Prop :=
  match answer with
  | .ok response => item = .ofResponse i call.maxRows response
  | .fail e =>
    item = .failure i (itemError e) ∨
      call.isReadOnlyQuery c.sql = false ∧ item = .failure i (itemError (writeInterrupted i
        (e.mapQueryError (some "execute_batch_item"))))
  | .throw _ => False

/-- The connection of a command was lost, and the error says why the command was
not dispatched again: no connection could be acquired, or the batch was cancelled
by then. -/
def NotRepeated (i : Nat) (e : BatchError) : Prop :=
  (∃ lost, (answers.run i 0).answer = .fail lost ∧
    shouldRecover (lost.mapQueryError (some "execute_batch_item")) = true) ∧
  (answers.reacquire i = .fail e ∨
    (answers.run i 1).cancelled = true ∧ e = cancellationError)

/-- The reasons for which a command is not dispatched at all, with the text of the
item. -/
inductive NotDispatched (i : Nat) (c : SqlCommand) : String → Prop where
  | cancelled {j : Nat} (hj : j ≤ i) (h : answers.cancelled j = true) :
      NotDispatched i c "Batch SQL execution was cancelled"
  | invalid {message : String} (h : call.validateSqlForExecution c.sql = some message) :
      NotDispatched i c message
  | noConnection : NotDispatched i c (itemError connectionUnavailable)
  | cancelledInRunner (h : (answers.run i 0).cancelled = true) :
      NotDispatched i c (itemError cancellationError)

/-- What the item of a command tells, given the calls that dispatched it. -/
inductive Tells (i : Nat) (c : SqlCommand) : List Nat → SqlCommandResult ρ → Prop where
  | last {calls : List Nat} {number : Nat} {item : SqlCommandResult ρ}
      (hlast : calls.getLast? = some number)
      (h : describes call i c (answers.run i number).answer item) : Tells i c calls item
  | notRepeated {calls : List Nat} {e : BatchError} (hlast : calls.getLast? = some 0)
      (h : NotRepeated answers i e) : Tells i c calls (.failure i (itemError e))
  | notDispatched {message : String} (h : NotDispatched call answers i c message) :
      Tells i c [] (.failure i message)

/-- How often a command is dispatched, given the calls of the runner that did it: a
write is given to the runner a second time only when its first failure says that the
connection id was not valid, and a call of the runner dispatches it twice only when the
native asynchronous attempt was answered as not supported. -/
structure Dispatched (i : Nat) (c : SqlCommand) (calls : List Nat) : Prop where
  calls_le : ∀ number ∈ calls, number ≤ 1
  again : call.isReadOnlyQuery c.sql = false → 1 ∈ calls →
    ∃ e, (answers.run i 0).answer = .fail e ∧ e.isInvalidConnectionId = true
  count_le : ∀ number, calls.count number ≤ 2
  unsupported : ∀ number, 2 ≤ calls.count number → (answers.run i number).asyncUnsupported = true

/-- What a batch without a transaction guarantees about its dispatches and its
items. -/
structure WritesOnce (events : List Event)
    (result : Except BatchError (List (SqlCommandResult ρ))) : Prop where
  dispatched : ∀ i c, call.commands[i]? = some c →
    Dispatched call answers i c (dispatchesOf events i)
  indices : ∀ results, result = .ok results →
    results.map (·.index) = List.range call.commands.length
  items : ∀ results, result = .ok results → ∀ i c item, call.commands[i]? = some c →
    results[i]? = some item → Tells call answers i c (dispatchesOf events i) item

end Items

/-! ## Rounds -/

section Rounds

variable {ρ : Type} {call : BatchCall} {answers : CommandAnswers ρ} {i : Nat} {c : SqlCommand}

theorem cancelled_of_dispatches_eq_zero {r : RunnerCall ρ} (h : r.dispatches call c = 0) :
    r.cancelled = true ∧ r.answer = .fail cancellationError := by
  unfold RunnerCall.dispatches at h
  split_ifs at h with hcancelled
  exact ⟨hcancelled, by simp [RunnerCall.answer, hcancelled]⟩

theorem asyncUnsupported_of_dispatches {r : RunnerCall ρ} (h : 2 ≤ r.dispatches call c) :
    r.asyncUnsupported = true := by
  unfold RunnerCall.dispatches at h
  split_ifs at h with hcancelled hasync
  · omega
  · simp only [Bool.and_eq_true] at hasync
    exact hasync.2
  · omega

theorem dispatches_le (r : RunnerCall ρ) : r.dispatches call c ≤ 2 := by
  unfold RunnerCall.dispatches
  split_ifs <;> omega

theorem dispatched_nil : Dispatched call answers i c [] := by
  constructor <;> simp

theorem dispatched_first :
    Dispatched call answers i c (List.replicate ((answers.run i 0).dispatches call c) 0) := by
  have hcount : ∀ number, (List.replicate ((answers.run i 0).dispatches call c) 0).count number =
      if number = 0 then (answers.run i 0).dispatches call c else 0 := by
    intro number
    rw [List.count_replicate]
    cases number <;> rfl
  constructor
  · intro number hmem
    rw [List.eq_of_mem_replicate hmem]
    exact Nat.zero_le 1
  · intro _ hmem
    exact absurd (List.eq_of_mem_replicate hmem) (by decide)
  · intro number
    rw [hcount]
    split
    · exact dispatches_le _
    · omega
  · intro number htwice
    rw [hcount] at htwice
    split_ifs at htwice with hzero
    · rw [hzero]
      exact asyncUnsupported_of_dispatches htwice
    · omega

theorem dispatched_second {lost : BatchError} (hlost : (answers.run i 0).answer = .fail lost)
    (hinvalid : call.isReadOnlyQuery c.sql = false → lost.isInvalidConnectionId = true) :
    Dispatched call answers i c (List.replicate ((answers.run i 0).dispatches call c) 0 ++
      List.replicate ((answers.run i 1).dispatches call c) 1) := by
  have hcount : ∀ number, (List.replicate ((answers.run i 0).dispatches call c) 0 ++
      List.replicate ((answers.run i 1).dispatches call c) 1).count number =
        if number ≤ 1 then (answers.run i number).dispatches call c else 0 := by
    intro number
    rw [List.count_append, List.count_replicate, List.count_replicate]
    rcases number with - | - | number <;> simp
  constructor
  · intro number hmem
    rcases List.mem_append.mp hmem with hmem | hmem <;> rw [List.eq_of_mem_replicate hmem]
    exact Nat.zero_le 1
  · exact fun hwrite _ => ⟨lost, hlost, hinvalid hwrite⟩
  · intro number
    rw [hcount]
    split
    · exact dispatches_le _
    · omega
  · intro number htwice
    rw [hcount] at htwice
    split_ifs at htwice
    · exact asyncUnsupported_of_dispatches htwice
    · omega

theorem getLast?_calls {k : Nat} (hk : k ≠ 0) (xs : List Nat) (number : Nat) :
    (xs ++ List.replicate k number).getLast? = some number := by
  rw [List.getLast?_append, List.getLast?_replicate, if_neg hk]
  rfl

theorem tells_first {item : SqlCommandResult ρ}
    (h : describes call i c (answers.run i 0).answer item)
    (hfail : ∀ e, (answers.run i 0).answer = .fail e → item = .failure i (itemError e)) :
    Tells call answers i c (List.replicate ((answers.run i 0).dispatches call c) 0) item := by
  by_cases hk : (answers.run i 0).dispatches call c = 0
  · obtain ⟨hcancelled, hanswer⟩ := cancelled_of_dispatches_eq_zero hk
    rw [hk, hfail _ hanswer]
    exact .notDispatched (.cancelledInRunner hcancelled)
  · exact .last (getLast?_calls hk [] 0) h

/-- What a round adds: events that dispatch no other command, and one item when the
loop goes on. -/
structure RoundSpec (call : BatchCall) (answers : CommandAnswers ρ) (i : Nat) (c : SqlCommand)
    (s : CommandState ρ) (r : CommandState ρ × Exit) : Prop where
  added : ∃ new, r.1.events = s.events ++ new ∧ (∀ j ≠ i, dispatchesOf new j = []) ∧
    Dispatched call answers i c (dispatchesOf new i) ∧
    match r.2 with
    | .next => ∃ item, r.1.results = s.results ++ [item] ∧ item.index = i ∧
        Tells call answers i c (dispatchesOf new i) item
    | .stop => answers.cancelled i = true ∧ new = [] ∧
        r.1.results = s.results ++ (List.range' i (call.commands.length - i)).map fun j =>
          SqlCommandResult.failure j "Batch SQL execution was cancelled"
    | .returned _ | .thrown _ => True

variable {s : CommandState ρ} (rollbackAnswer : Answer Unit)

theorem finishCommand_spec (htx : call.transaction = false) {s' : CommandState ρ}
    {answer : Answer (QueryResponse ρ)} {new : List Event}
    (hevents : s'.events = s.events ++ new) (hresults : s'.results = s.results)
    (hothers : ∀ j ≠ i, dispatchesOf new j = [])
    (hdispatched : Dispatched call answers i c (dispatchesOf new i))
    (hok : ∀ response, answer = .ok response →
      Tells call answers i c (dispatchesOf new i) (.ofResponse i call.maxRows response))
    (hfail : ∀ e, answer = .fail e →
      Tells call answers i c (dispatchesOf new i) (.failure i (itemError e))) :
    RoundSpec call answers i c s (finishCommand call rollbackAnswer i s' answer) := by
  cases answer with
  | ok response =>
    refine ⟨new, hevents, hothers, hdispatched, .ofResponse i call.maxRows response, ?_, rfl,
      hok response rfl⟩
    show s'.results ++ _ = _
    rw [hresults]
  | fail e =>
    refine ⟨new, hevents, hothers, hdispatched, .failure i (itemError e), ?_, rfl, hfail e rfl⟩
    show s'.results ++ _ = _
    rw [hresults]
  | throw e =>
    unfold finishCommand onTimeout
    simp only [htx, Bool.false_eq_true, if_false]
    split
    · exact ⟨new, hevents, hothers, hdispatched, trivial⟩
    · exact ⟨new, hevents, hothers, hdispatched, trivial⟩

theorem executeCurrentCommand_events {connection : Nat} (h : s.connection = some connection)
    (attempt : Nat) :
    let r := executeCurrentCommand call answers i attempt c s
    r.1.events = s.events ++ List.replicate ((answers.run i attempt).dispatches call c)
      (.dispatch connection i attempt) ∧
      r.1.results = s.results ∧ r.1.connection = some connection ∧
      r.2 = (answers.run i attempt).answer := by
  simp [executeCurrentCommand, h]

/-- The retry of a command whose connection was lost: the connection is released;
a write that may have run is not dispatched again, another command is when a
connection can be acquired. -/
theorem retryAfterConnectionFailure_events {connection : Nat} (h : s.connection = some connection)
    (failure : BatchError) :
    let r := retryAfterConnectionFailure call answers i c failure s
    ∃ g mark, r.1.results = s.results ∧
      (r.1.events = s.events ++ [.release connection g mark] ∧
          ((call.isReadOnlyQuery c.sql = false ∧ r.2 = .fail (writeInterrupted i failure)) ∨
            (∃ e, answers.reacquire i = .fail e ∧ r.2 = .fail e) ∨
            ∃ e, r.2 = .throw e) ∨
        (call.isReadOnlyQuery c.sql = false → failure.isInvalidConnectionId = true) ∧
          (∃ next, r.1.events = s.events ++ ([.release connection g mark] ++
            List.replicate ((answers.run i 1).dispatches call c) (.dispatch next i 1))) ∧
          r.2 = (answers.run i 1).answer) := by
  unfold retryAfterConnectionFailure
  simp only [h]
  generalize markConnectionForDiscard _ connection = marks
  by_cases hwrite : (!failure.isInvalidConnectionId && !call.isReadOnlyQuery c.sql) = true
  · rw [if_pos hwrite]
    simp only [Bool.and_eq_true, Bool.not_eq_true'] at hwrite
    exact ⟨_, _, rfl, .inl ⟨rfl, .inl ⟨hwrite.2, rfl⟩⟩⟩
  · rw [if_neg hwrite]
    cases hreacquire : answers.reacquire i with
    | fail e => exact ⟨_, _, rfl, .inl ⟨rfl, .inr (.inl ⟨e, rfl, rfl⟩)⟩⟩
    | throw e => exact ⟨_, _, rfl, .inl ⟨rfl, .inr (.inr ⟨e, rfl⟩)⟩⟩
    | ok next =>
      refine ⟨some s.transaction, marks connection, rfl, .inr ⟨?_, ⟨next, ?_⟩, rfl⟩⟩
      · intro hreadOnly
        simpa [hreadOnly] using hwrite
      · exact List.append_assoc ..

def firstDispatches (call : BatchCall) (answers : CommandAnswers ρ) (connection i : Nat)
    (c : SqlCommand) : List Event :=
  List.replicate ((answers.run i 0).dispatches call c) (.dispatch connection i 0)

theorem finishCommand_first_spec (htx : call.transaction = false) {connection : Nat}
    {released : List Event} (hreleased : ∀ j, dispatchesOf released j = []) {s' : CommandState ρ}
    {answer : Answer (QueryResponse ρ)}
    (hevents : s'.events = s.events ++ (firstDispatches call answers connection i c ++ released))
    (hresults : s'.results = s.results)
    (hok : ∀ response, answer = .ok response → Tells call answers i c
      (List.replicate ((answers.run i 0).dispatches call c) 0)
      (.ofResponse i call.maxRows response))
    (hfail : ∀ e, answer = .fail e → Tells call answers i c
      (List.replicate ((answers.run i 0).dispatches call c) 0) (.failure i (itemError e))) :
    RoundSpec call answers i c s (finishCommand call rollbackAnswer i s' answer) := by
  have hcalls : dispatchesOf (firstDispatches call answers connection i c ++ released) i =
      List.replicate ((answers.run i 0).dispatches call c) 0 := by
    rw [dispatchesOf_append, hreleased, List.append_nil]
    exact dispatchesOf_replicate_self ..
  refine finishCommand_spec rollbackAnswer htx hevents hresults ?_ ?_ (hcalls ▸ hok)
    (hcalls ▸ hfail)
  · intro j hj
    rw [dispatchesOf_append, hreleased, List.append_nil]
    exact dispatchesOf_replicate_ne hj.symm ..
  · rw [hcalls]
    exact dispatched_first

theorem finishCommand_second_spec (htx : call.transaction = false) {connection next : Nat}
    {released : List Event} (hreleased : ∀ j, dispatchesOf released j = []) {s' : CommandState ρ}
    (hevents : s'.events = s.events ++ (firstDispatches call answers connection i c ++ (released ++
      List.replicate ((answers.run i 1).dispatches call c) (.dispatch next i 1))))
    (hresults : s'.results = s.results) {lost : BatchError}
    (hlost : (answers.run i 0).answer = .fail lost)
    (hrecover : shouldRecover (lost.mapQueryError (some "execute_batch_item")) = true)
    (hk : (answers.run i 0).dispatches call c ≠ 0)
    (hinvalid : call.isReadOnlyQuery c.sql = false → lost.isInvalidConnectionId = true) :
    RoundSpec call answers i c s
      (finishCommand call rollbackAnswer i s' (answers.run i 1).answer) := by
  have hcalls : dispatchesOf (firstDispatches call answers connection i c ++ (released ++
      List.replicate ((answers.run i 1).dispatches call c) (.dispatch next i 1))) i =
      List.replicate ((answers.run i 0).dispatches call c) 0 ++
        List.replicate ((answers.run i 1).dispatches call c) 1 := by
    simp only [firstDispatches, dispatchesOf_append, dispatchesOf_replicate_self, hreleased,
      List.nil_append]
  have htells : ∀ item, describes call i c (answers.run i 1).answer item →
      (∀ e, (answers.run i 1).answer = .fail e → item = .failure i (itemError e)) →
      Tells call answers i c (List.replicate ((answers.run i 0).dispatches call c) 0 ++
        List.replicate ((answers.run i 1).dispatches call c) 1) item := by
    intro item hdescribes hfail
    by_cases hk' : (answers.run i 1).dispatches call c = 0
    · obtain ⟨hcancelled, hcancellation⟩ := cancelled_of_dispatches_eq_zero hk'
      rw [hk', hfail _ hcancellation, List.replicate_zero, List.append_nil]
      exact .notRepeated (getLast?_calls hk [] 0)
        ⟨⟨lost, hlost, hrecover⟩, .inr ⟨hcancelled, rfl⟩⟩
    · exact .last (getLast?_calls hk' _ 1) hdescribes
  refine finishCommand_spec rollbackAnswer htx hevents hresults ?_ ?_ ?_ ?_
  · intro j hj
    simp only [firstDispatches, dispatchesOf_append, dispatchesOf_replicate_ne hj.symm, hreleased,
      List.append_nil]
  · rw [hcalls]
    exact dispatched_second hlost hinvalid
  · intro response hok
    rw [hcalls]
    apply htells
    · rw [hok]
      exact rfl
    · intro e he
      rw [hok] at he
      cases he
  · intro e hfail
    rw [hcalls]
    apply htells
    · rw [hfail]
      exact .inl rfl
    · intro e' he'
      rw [hfail] at he'
      cases he'
      rfl

theorem failedCommand_spec (htx : call.transaction = false) {connection : Nat}
    {s' : CommandState ρ} (hconnection : s'.connection = some connection)
    (hevents : s'.events = s.events ++ firstDispatches call answers connection i c)
    (hresults : s'.results = s.results) {e : BatchError}
    (hanswer : (answers.run i 0).answer = .fail e) :
    let failure := e.mapQueryError (some "execute_batch_item")
    RoundSpec call answers i c s
      (if shouldRecover failure then
        let r := retryAfterConnectionFailure call answers i c failure s'
        finishCommand call rollbackAnswer i r.1 r.2
      else finishCommand call rollbackAnswer i s' (.fail e)) := by
  dsimp only
  split_ifs with hrecover
  · -- A call that found the token cancelled is not recovered, so this one dispatched.
    have hk : (answers.run i 0).dispatches call c ≠ 0 := by
      intro hzero
      rw [(cancelled_of_dispatches_eq_zero hzero).2] at hanswer
      obtain rfl : cancellationError = e := by simpa using hanswer
      exact absurd hrecover (by decide)
    obtain ⟨g, mark, hresults', hretry⟩ := @retryAfterConnectionFailure_events ρ call answers i c
      s' connection hconnection (e.mapQueryError (some "execute_batch_item"))
    generalize retryAfterConnectionFailure call answers i c
      (e.mapQueryError (some "execute_batch_item")) s' = r at *
    obtain ⟨s'', answer⟩ := r
    dsimp only at hresults' hretry ⊢
    rw [hevents] at hretry
    rcases hretry with ⟨hevents', hstopped⟩ | ⟨hinvalid, ⟨next, hevents'⟩, rfl⟩
    · rw [List.append_assoc] at hevents'
      refine finishCommand_first_spec rollbackAnswer htx (fun j => rfl) hevents'
        (hresults'.trans hresults) ?_ ?_
      · rintro response rfl
        simp at hstopped
      · rintro e' rfl
        rcases hstopped with ⟨hwrite, heq⟩ | ⟨e'', hreacquire, heq⟩ | ⟨e'', heq⟩
        · cases heq
          refine .last (getLast?_calls hk [] 0) ?_
          rw [hanswer]
          exact .inr ⟨hwrite, rfl⟩
        · cases heq
          exact .notRepeated (getLast?_calls hk [] 0) ⟨⟨e, hanswer, hrecover⟩, .inl hreacquire⟩
        · cases heq
    · rw [List.append_assoc] at hevents'
      rw [BatchError.isInvalidConnectionId_mapQueryError] at hinvalid
      exact finishCommand_second_spec rollbackAnswer htx (fun j => rfl) hevents'
        (hresults'.trans hresults) hanswer hrecover hk hinvalid
  · rw [← List.append_nil (firstDispatches call answers connection i c)] at hevents
    refine finishCommand_first_spec rollbackAnswer htx dispatchesOf_nil hevents hresults ?_ ?_
    · rintro response ⟨⟩
    · rintro e' ⟨⟩
      apply tells_first
      · rw [hanswer]
        exact .inl rfl
      · intro e' he'
        rw [hanswer] at he'
        cases he'
        rfl

theorem commandRound_spec (htx : call.transaction = false) (contextConnection i : Nat)
    (c : SqlCommand) (s : CommandState ρ) :
    RoundSpec call answers i c s
      (commandRound call answers rollbackAnswer contextConnection i c s) := by
  -- A round that adds no event.
  have hquiet : ∀ {message : String}, NotDispatched call answers i c message →
      RoundSpec call answers i c s (s.addItem (.failure i message), .next) := by
    intro message hmessage
    exact ⟨[], (List.append_nil _).symm, fun j _ => rfl, dispatched_nil, .failure i message, rfl,
      rfl, .notDispatched hmessage⟩
  unfold commandRound
  simp only [htx, Bool.false_eq_true, if_false]
  split
  case isTrue hcancelled =>
    exact ⟨[], (List.append_nil _).symm, fun j _ => rfl, dispatched_nil, hcancelled, rfl, rfl⟩
  case isFalse hcancelled =>
    cases hvalid : call.validateSqlForExecution c.sql with
    | some message => exact hquiet (.invalid hvalid)
    | none =>
      dsimp only
      split
      case isTrue =>
        refine ⟨[], ?_, fun j _ => rfl, dispatched_nil, ?_⟩
        · simp [onTimeout, htx]
        · simp [onTimeout, htx]
      case isFalse =>
        cases hconnection : s.connection with
        | none =>
          have hrun : executeCurrentCommand call answers i 0 c s =
              (s, .fail connectionUnavailable) := by
            simp [executeCurrentCommand, hconnection]
          rw [hrun]
          exact hquiet .noConnection
        | some connection =>
          obtain ⟨hevents, hresults, hconnection', hanswer⟩ :=
            @executeCurrentCommand_events ρ call answers i c s connection hconnection 0
          generalize executeCurrentCommand call answers i 0 c s = run at *
          obtain ⟨s', answer⟩ := run
          dsimp only at *
          cases answer with
          | fail e =>
            exact failedCommand_spec rollbackAnswer htx hconnection' hevents hresults hanswer.symm
          | ok response =>
            rw [← List.append_nil (List.replicate _ _)] at hevents
            refine finishCommand_first_spec rollbackAnswer htx dispatchesOf_nil hevents hresults
              ?_ ?_
            · rintro _ ⟨⟩
              apply tells_first
              · rw [← hanswer]
                exact rfl
              · intro e he
                rw [← hanswer] at he
                cases he
            · rintro _ ⟨⟩
          | throw e =>
            rw [← List.append_nil (List.replicate _ _)] at hevents
            refine finishCommand_first_spec rollbackAnswer htx dispatchesOf_nil hevents hresults
              ?_ ?_
            · rintro _ ⟨⟩
            · rintro _ ⟨⟩

end Rounds

/-! ## The loop -/

/-- What the loop knows before the command at index `i`. -/
structure ItemsInv {ρ : Type} (call : BatchCall) (answers : CommandAnswers ρ) (i : Nat)
    (s : CommandState ρ) : Prop where
  indices : s.results.map (·.index) = List.range i
  later : ∀ j, i ≤ j → dispatchesOf s.events j = []
  dispatched : ∀ j c, call.commands[j]? = some c →
    Dispatched call answers j c (dispatchesOf s.events j)
  items : ∀ j c item, call.commands[j]? = some c → s.results[j]? = some item →
    Tells call answers j c (dispatchesOf s.events j) item

section Loop

variable {ρ : Type} {call : BatchCall} {answers : CommandAnswers ρ} {i : Nat} {c : SqlCommand}
variable {s : CommandState ρ} (rollbackAnswer : Answer Unit)

theorem ItemsInv.length_results (h : ItemsInv call answers i s) : s.results.length = i := by
  have hlength := congrArg List.length h.indices
  simpa using hlength

theorem dispatchesOf_round {events new : List Event} (hothers : ∀ j ≠ i, dispatchesOf new j = [])
    (hlater : dispatchesOf events i = []) (j : Nat) :
    dispatchesOf (events ++ new) j =
      if j = i then dispatchesOf new i else dispatchesOf events j := by
  rw [dispatchesOf_append]
  split
  case isTrue hj => rw [hj, hlater, List.nil_append]
  case isFalse hj => rw [hothers j hj, List.append_nil]

theorem RoundSpec.dispatched {s' : CommandState ρ} {exit : Exit}
    (hround : RoundSpec call answers i c s (s', exit)) (h : ItemsInv call answers i s)
    (hc : call.commands[i]? = some c) :
    ∀ j c, call.commands[j]? = some c →
      Dispatched call answers j c (dispatchesOf s'.events j) := by
  obtain ⟨new, hevents, hothers, hdispatched, -⟩ := hround.added
  dsimp only at hevents
  intro j c' hj
  rw [hevents, dispatchesOf_round hothers (h.later i le_rfl)]
  split
  case isTrue hij =>
    subst hij
    obtain rfl : c' = c := Option.some.inj (hj.symm.trans hc)
    exact hdispatched
  case isFalse => exact h.dispatched j c' hj

theorem ItemsInv.next {s' : CommandState ρ} (h : ItemsInv call answers i s)
    (hc : call.commands[i]? = some c) (hround : RoundSpec call answers i c s (s', .next)) :
    ItemsInv call answers (i + 1) s' := by
  have hall := hround.dispatched h hc
  obtain ⟨new, hevents, hothers, -, item, hresults, hindex, htells⟩ := hround.added
  dsimp only at hevents hresults
  have hdispatches := dispatchesOf_round hothers (h.later i le_rfl)
  constructor
  · rw [hresults, List.map_append, h.indices, List.map_singleton, hindex, List.range_succ]
  · intro j hj
    have hne : j ≠ i := by omega
    rw [hevents, hdispatches, if_neg hne]
    exact h.later j (by omega)
  · exact hall
  · intro j c' item' hj hitem
    rw [hevents, hdispatches]
    rw [hresults] at hitem
    split
    case isTrue hij =>
      subst hij
      obtain rfl : c' = c := Option.some.inj (hj.symm.trans hc)
      rw [← h.length_results, List.getElem?_concat_length] at hitem
      rw [← Option.some.inj hitem]
      exact htells
    case isFalse hij =>
      have hlt : j < s.results.length := by
        have hbound := List.getElem?_eq_some_iff.mp hitem
        rw [h.length_results]
        obtain ⟨hj', -⟩ := hbound
        rw [List.length_append, h.length_results, List.length_singleton] at hj'
        omega
      rw [List.getElem?_append_left hlt] at hitem
      exact h.items j c' item' hj hitem

/-- A round that finds the batch cancelled adds the items of all commands that are
left. -/
theorem ItemsInv.stop {s' : CommandState ρ} (h : ItemsInv call answers i s)
    (hi : i ≤ call.commands.length) (hround : RoundSpec call answers i c s (s', .stop)) :
    ItemsInv call answers call.commands.length s' := by
  obtain ⟨new, hevents, -, -, hcancelled, rfl, hresults⟩ := hround.added
  dsimp only at hevents hresults
  rw [List.append_nil] at hevents
  constructor
  · have hindex : ((List.range' i (call.commands.length - i)).map fun j =>
        (SqlCommandResult.failure j "Batch SQL execution was cancelled" :
          SqlCommandResult ρ)).map (·.index) = List.range' i (call.commands.length - i) := by
      rw [List.map_map]
      exact List.map_id' _
    rw [hresults, List.map_append, h.indices, hindex, List.range_eq_range', List.range_eq_range']
    have hsplit : List.range' 0 i ++ List.range' (0 + i) (call.commands.length - i) =
        List.range' 0 (i + (call.commands.length - i)) := List.range'_append_1
    rw [Nat.zero_add, Nat.add_sub_cancel' hi] at hsplit
    exact hsplit
  · intro j hj
    rw [hevents]
    exact h.later j (by omega)
  · rw [hevents]
    exact h.dispatched
  · intro j c' item hj hitem
    rw [hevents]
    rw [hresults] at hitem
    by_cases hlt : j < s.results.length
    · rw [List.getElem?_append_left hlt] at hitem
      exact h.items j c' item hj hitem
    · have hij : i ≤ j := by
        rw [h.length_results] at hlt
        omega
      rw [List.getElem?_append_right (by omega), List.getElem?_map] at hitem
      obtain ⟨k, hk, rfl⟩ := Option.map_eq_some_iff.mp hitem
      obtain rfl : k = j := by
        obtain ⟨hbound, heq⟩ := List.getElem?_eq_some_iff.mp hk
        rw [List.getElem_range', h.length_results] at heq
        omega
      rw [h.later k hij]
      exact .notDispatched (.cancelled hij hcancelled)

theorem commandLoop_spec (htx : call.transaction = false) (connection : Nat)
    (rest : List SqlCommand) (i : Nat) (s : CommandState ρ) (hrest : call.commands.drop i = rest)
    (hi : i ≤ call.commands.length) (h : ItemsInv call answers i s) :
    let r := commandLoop call answers rollbackAnswer connection rest i s
    (∀ j c, call.commands[j]? = some c →
        Dispatched call answers j c (dispatchesOf r.1.events j)) ∧
      (r.2 = .next ∨ r.2 = .stop → ItemsInv call answers call.commands.length r.1) := by
  induction rest generalizing i s with
  | nil =>
    obtain rfl : i = call.commands.length := by
      have hlength := List.drop_eq_nil_iff.mp hrest
      omega
    exact ⟨h.dispatched, fun _ => h⟩
  | cons c rest ih =>
    have hlt : i < call.commands.length := by
      by_contra hge
      rw [List.drop_eq_nil_of_le (by omega)] at hrest
      cases hrest
    have hc : call.commands[i]? = some c := by
      have hhead := congrArg List.head? hrest
      rwa [List.head?_drop] at hhead
    have hdrop : call.commands.drop (i + 1) = rest := by
      rw [← List.tail_drop, hrest, List.tail_cons]
    have hround := @commandRound_spec ρ call answers rollbackAnswer htx connection i c s
    unfold commandLoop
    generalize commandRound call answers rollbackAnswer connection i c s = round at *
    obtain ⟨s', exit⟩ := round
    have hall := hround.dispatched h hc
    cases exit with
    | next => exact ih (i + 1) s' hdrop hlt (h.next hc hround)
    | stop => exact ⟨hall, fun _ => h.stop hi hround⟩
    | returned e => exact ⟨hall, by simp⟩
    | thrown e => exact ⟨hall, by simp⟩

/-! ## The call -/

theorem itemsInv_start (connection : Nat) (g : BatchTransactionGuard) (marks : Marks) :
    ItemsInv call answers 0
      { connection := some connection, transaction := g, marks := marks } := by
  constructor <;> simp [dispatched_nil]

theorem dispatchesOf_events_rollback (connection : Nat) (g : BatchTransactionGuard)
    (marks : Marks) (j : Nat) :
    dispatchesOf (rollback connection rollbackAnswer g marks).events j = [] := by
  unfold rollback
  split_ifs
  · rfl
  · cases rollbackAnswer <;> rfl

theorem dispatchesOf_primaryResult (connection : Nat) (s : CommandState ρ) (exit : Exit)
    (j : Nat) :
    dispatchesOf (primaryResult rollbackAnswer connection s exit).1.events j =
      dispatchesOf s.events j := by
  cases exit with
  | next | stop | returned e => rfl
  | thrown e =>
    unfold primaryResult onThrow
    dsimp only
    split
    · rfl
    · simp [CommandState.rollback, dispatchesOf_events_rollback]

theorem ok_of_primaryResult {connection : Nat} {s : CommandState ρ} {exit : Exit}
    {results : List (SqlCommandResult ρ)}
    (h : (primaryResult rollbackAnswer connection s exit).2 = .ok results) :
    (exit = .next ∨ exit = .stop) ∧ s.results = results := by
  cases exit with
  | next => exact ⟨.inl rfl, Except.ok.inj h⟩
  | stop => exact ⟨.inr rfl, Except.ok.inj h⟩
  | returned e => cases h
  | thrown e => cases h

theorem withCleanupError_writesOnce {cleanupError : BatchError}
    {primary : CommandState ρ × Except BatchError (List (SqlCommandResult ρ))}
    (h : WritesOnce call answers primary.1.events primary.2) :
    let r := withCleanupError cleanupError primary
    WritesOnce call answers r.1.events r.2 := by
  have hevents : (withCleanupError cleanupError primary).1.events = primary.1.events := by
    unfold withCleanupError
    cases primary.2 <;> (dsimp only; split <;> rfl)
  have herror : ∀ results, (withCleanupError cleanupError primary).2 ≠ .ok results := by
    unfold withCleanupError
    cases primary.2 <;> simp
  constructor
  · rw [hevents]
    exact h.dispatched
  · intro results hok
    exact absurd hok (herror results)
  · intro results hok
    exact absurd hok (herror results)

theorem executeBatchCommands_writesOnce (htx : call.transaction = false) (connection : Nat)
    (g : BatchTransactionGuard) (marks : Marks) :
    let r := executeBatchCommands call answers rollbackAnswer connection g marks
    WritesOnce call answers r.1.events r.2 := by
  obtain ⟨hall, hdone⟩ := commandLoop_spec rollbackAnswer htx connection call.commands 0 _ rfl
    (Nat.zero_le _) (@itemsInv_start ρ call answers connection g marks)
  unfold executeBatchCommands
  generalize commandLoop call answers rollbackAnswer connection call.commands 0
    { connection := some connection, transaction := g, marks := marks } = looped at *
  obtain ⟨s, exit⟩ := looped
  dsimp only at *
  have hcleanup : (cleanup answers s).1.events = s.events ∧
      (cleanup answers s).1.results = s.results := by
    unfold cleanup
    cases s.connection <;> exact ⟨rfl, rfl⟩
  generalize cleanup answers s = cleaned at *
  obtain ⟨s', cleanupError⟩ := cleaned
  obtain ⟨hevents, hresults⟩ := hcleanup
  dsimp only at *
  have hdispatches : ∀ j,
      dispatchesOf (primaryResult rollbackAnswer connection s' exit).1.events j =
        dispatchesOf s.events j := by
    intro j
    rw [dispatchesOf_primaryResult, hevents]
  have hprimary : WritesOnce call answers
      (primaryResult rollbackAnswer connection s' exit).1.events
      (primaryResult rollbackAnswer connection s' exit).2 := by
    constructor
    · intro i c hc
      rw [hdispatches]
      exact hall i c hc
    · intro results hok
      obtain ⟨hexit, hresults'⟩ := ok_of_primaryResult rollbackAnswer hok
      rw [← hresults', hresults]
      exact (hdone hexit).indices
    · intro results hok i c item hc hitem
      obtain ⟨hexit, hresults'⟩ := ok_of_primaryResult rollbackAnswer hok
      rw [← hresults', hresults] at hitem
      rw [hdispatches]
      exact (hdone hexit).items i c item hc hitem
  cases cleanupError with
  | none => exact hprimary
  | some cleanupError => exact withCleanupError_writesOnce hprimary

theorem WritesOnce.congr {events events' : List Event}
    {result : Except BatchError (List (SqlCommandResult ρ))}
    (h : WritesOnce call answers events result)
    (hevents : ∀ j, dispatchesOf events' j = dispatchesOf events j) :
    WritesOnce call answers events' result := by
  constructor
  · intro i c hc
    rw [hevents]
    exact h.dispatched i c hc
  · exact h.indices
  · intro results hok i c item hc hitem
    rw [hevents]
    exact h.items results hok i c item hc hitem

theorem WritesOnce.release {events : List Event}
    {result : Except BatchError (List (SqlCommandResult ρ))}
    (h : WritesOnce call answers events result)
    (connection : Option Nat) (g : Option BatchTransactionGuard) (marks : Marks) :
    let a := Attempt.release (.returned result) connection g events marks
    ∃ result, a.exit = .returned result ∧ WritesOnce call answers a.events result := by
  cases connection with
  | none => exact ⟨result, rfl, h⟩
  | some connection => exact ⟨result, rfl, h.congr (by simp [Attempt.release])⟩

theorem runAttempt_writesOnce (htx : call.transaction = false) (answers : AttemptAnswers ρ)
    (attempt : Nat) (forceDirect : Bool) (marks : Marks) :
    let a := runAttempt call answers attempt forceDirect marks
    ∃ result, a.exit = .returned result ∧ WritesOnce call answers.commands a.events result := by
  unfold runAttempt prepareBatchExecutionContext
  cases answers.context with
  | error e =>
    refine ⟨.error e, rfl, ?_⟩
    constructor <;> simp [Except.map, dispatched_nil]
  | ok connection =>
    simp only [Except.map, beginBatch, htx, Bool.false_eq_true, if_false, Bool.false_and,
      Bool.false_or, Bool.and_false, List.nil_append]
    have hphase := @executeBatchCommands_writesOnce ρ call answers.commands
      answers.transactions.rollback htx connection { transactionId := none } marks
    generalize executeBatchCommands call answers.commands answers.transactions.rollback
      connection { transactionId := none } marks = phase at *
    obtain ⟨s, result⟩ := phase
    dsimp only at *
    cases result with
    | error e =>
      -- The connection is no native one, so nothing is tried again.
      simp only [afterCommandFailure, shouldFallbackTransactionalNativePoolToDirect,
        Bool.not_false, Bool.true_or, if_true, ite_self, Bool.false_eq_true, if_false]
      exact hphase.release s.connection (some s.transaction) s.marks
    | ok results =>
      simp only [finishAttempt, htx, Bool.false_and]
      exact hphase.release s.connection (some s.transaction) s.marks

end Loop

/-- A write and a read, without a transaction. -/
def writeThenRead : BatchCall where
  commands := [{ sql := "delete from t".toList }, { sql := "select a from t".toList }]
  transaction := false
  validateSqlForExecution := fun _ => none
  isReadOnlyQuery := fun sql => sql == "select a from t".toList

/-- The error of a connection that is lost while a command runs. -/
def lostConnection : BatchError := { branch := .connectionLost, detail := "link failure" }

/-- The error of a pool that has no connection. -/
def poolExhausted : BatchError := { branch := .resourceLimit, detail := "pool exhausted" }

/-- An attempt in which the native asynchronous API does not support the write, the
read loses its connection, and no other connection is there. -/
def roughAttempt : AttemptAnswers Unit where
  context := .ok 7
  commands :=
    { run := fun
        | 0, _ => { asyncUnsupported := true, outcome := .ok { data := [] } }
        | _, _ => { outcome := .fail lostConnection }
      reacquire := fun _ => .fail poolExhausted }

/-- A write is dispatched a second time only when its first failure says that the
connection id was not valid. -/
def RepeatsOnlyInvalidId {ρ : Type} (call : BatchCall) (answers : CommandAnswers ρ)
    (events : List Event) : Prop :=
  ∀ i c, call.commands[i]? = some c → call.isReadOnlyQuery c.sql = false →
    2 ≤ (dispatchesOf events i).length →
      ∃ e, (answers.run i 0).answer = .fail e ∧ e.isInvalidConnectionId = true

/-- Every item of a command that was dispatched describes the last dispatch. -/
def DescribesLast {ρ : Type} (call : BatchCall) (answers : CommandAnswers ρ)
    (events : List Event) (result : Except BatchError (List (SqlCommandResult ρ))) : Prop :=
  ∀ results, result = .ok results → ∀ i c item number, call.commands[i]? = some c →
    results[i]? = some item → (dispatchesOf events i).getLast? = some number →
      describes call i c (answers.run i number).answer item

end PlugAgente.Batch
