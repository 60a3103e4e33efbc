import PlugAgente.Execution.PersistedRun

/-!
# The recorded outcome

What is stored of an execution, compared with what its runner has done.  No attempt follows a
terminal status, and a success is stored of a success only.  But when the save of a success
fails, or a hook after it throws, the observer of the queue sees a failure and stores another
status: it does not know what the process did.

`StoresSuccess` is what the saves and hooks have to do for the outcome of an attempt that
succeeds to be the one that is stored.
-/

namespace PlugAgente.Execution

/-! ## Traces -/

/-- The status that is stored at the end. -/
def lastPersisted (events : List ExecutionEvent) : Option AgentActionExecutionStatus :=
  (events.filterMap fun
    | .persisted status => some status
    | .attempted _ => none).getLast?

/-- The process result of the last attempt, if there was an attempt. -/
def lastAttempt (events : List ExecutionEvent) : Option (Option AgentActionExecutionStatus) :=
  (events.filterMap fun
    | .persisted _ => none
    | .attempted result => some result).getLast?

def Succeeded (events : List ExecutionEvent) : Prop :=
  lastAttempt events = some (some .succeeded)

/-- What is stored of an execution is what has happened. -/
structure OutcomeRecorded (events : List ExecutionEvent) : Prop where
  /-- A status that is stored when an attempt is made is not terminal. -/
  final : ∀ before result after, events = before ++ .attempted result :: after →
    ∀ status, lastPersisted before = some status → status.isTerminal = false
  succeeded : lastPersisted events = some .succeeded ↔ Succeeded events
  kept : Succeeded events → ∀ status, .persisted status ∈ events →
    status ≠ .failed ∧ status ≠ .cancelled ∧ status ≠ .skipped

/-- Nothing terminal is stored. -/
def Calm (events : List ExecutionEvent) : Prop :=
  ∀ status, .persisted status ∈ events → status.isTerminal = false

/-- No attempt is made. -/
def Silent (events : List ExecutionEvent) : Prop :=
  ∀ result, .attempted result ∉ events

variable {l m : List ExecutionEvent}

theorem lastPersisted_append (l m : List ExecutionEvent) :
    lastPersisted (l ++ m) = (lastPersisted m).or (lastPersisted l) := by
  unfold lastPersisted
  rw [List.filterMap_append, List.getLast?_append]

theorem lastAttempt_append (l m : List ExecutionEvent) :
    lastAttempt (l ++ m) = (lastAttempt m).or (lastAttempt l) := by
  unfold lastAttempt
  rw [List.filterMap_append, List.getLast?_append]

theorem mem_of_lastPersisted {status : AgentActionExecutionStatus}
    (h : lastPersisted l = some status) : .persisted status ∈ l := by
  obtain ⟨event, hevent, heq⟩ := List.mem_filterMap.mp (List.mem_of_getLast? h)
  cases event with
  | persisted stored =>
    rw [← Option.some.inj heq]
    exact hevent
  | attempted result => cases heq

theorem Silent.lastAttempt (h : Silent l) : lastAttempt l = none := by
  unfold PlugAgente.Execution.lastAttempt
  rw [List.getLast?_eq_none_iff, List.filterMap_eq_nil_iff]
  intro event hevent
  cases event with
  | persisted status => rfl
  | attempted result => exact absurd hevent (h result)

theorem Silent.succeeded_append (h : Silent m) (l : List ExecutionEvent) :
    Succeeded (l ++ m) ↔ Succeeded l := by
  unfold Succeeded
  rw [lastAttempt_append, h.lastAttempt, Option.none_or]

theorem Calm.append (hl : Calm l) (hm : Calm m) : Calm (l ++ m) := by
  intro status hstatus
  rcases List.mem_append.mp hstatus with hmem | hmem
  · exact hl status hmem
  · exact hm status hmem

theorem Silent.append (hl : Silent l) (hm : Silent m) : Silent (l ++ m) := by
  intro result hresult
  rcases List.mem_append.mp hresult with hmem | hmem
  · exact hl result hmem
  · exact hm result hmem

theorem Calm.lastPersisted_ne (h : Calm l) : lastPersisted l ≠ some .succeeded := by
  intro hlast
  have := h _ (mem_of_lastPersisted hlast)
  cases this

theorem silent_save (outcome : SaveOutcome) (status : AgentActionExecutionStatus) :
    Silent (Recorded.save outcome status).events := by
  intro result hresult
  unfold Recorded.save at hresult
  dsimp only at hresult
  split_ifs at hresult
  · simp at hresult
  · cases hresult

theorem mem_save {outcome : SaveOutcome} {status stored : AgentActionExecutionStatus}
    (h : .persisted stored ∈ (Recorded.save outcome status).events) :
    stored = status ∧ outcome.persists = true := by
  unfold Recorded.save at h
  dsimp only at h
  split_ifs at h with hpersists
  · simp only [List.mem_singleton, ExecutionEvent.persisted.injEq] at h
    exact ⟨h, hpersists⟩
  · cases h

theorem lastPersisted_save (outcome : SaveOutcome) (status : AgentActionExecutionStatus) :
    lastPersisted (Recorded.save outcome status).events =
      if outcome.persists then some status else none := by
  unfold Recorded.save
  dsimp only
  split_ifs <;> rfl

theorem calm_save (outcome : SaveOutcome) {status : AgentActionExecutionStatus}
    (h : status.isTerminal = false) : Calm (Recorded.save outcome status).events := by
  intro stored hstored
  rw [(mem_save hstored).1]
  exact h

theorem final_of_split {before after : List ExecutionEvent}
    {result : Option AgentActionExecutionStatus} (hl : Calm l) (hm : Silent m)
    (h : l ++ m = before ++ .attempted result :: after)
    {status : AgentActionExecutionStatus} (hlast : lastPersisted before = some status) :
    status.isTerminal = false := by
  have hmem := mem_of_lastPersisted hlast
  rcases List.append_eq_append_iff.mp h with ⟨extra, hbefore, hextra⟩ | ⟨extra, hbefore, -⟩
  · -- the attempt would be among the events without one
    have : ExecutionEvent.attempted result ∈ m := by
      rw [hextra]
      exact List.mem_append_right _ (List.mem_cons_self ..)
    exact absurd this (hm result)
  · apply hl status
    rw [hbefore]
    exact List.mem_append_left _ hmem

/-! ## The parts of a run -/

namespace Recorded

variable {α β : Type}

@[simp] theorem bind_events_ok {r : Recorded α} {a : α} (h : r.result = .ok a)
    (f : α → Recorded β) : (r.bind f).events = r.events ++ (f a).events := by
  unfold bind
  rw [h]

@[simp] theorem bind_result_ok {r : Recorded α} {a : α} (h : r.result = .ok a)
    (f : α → Recorded β) : (r.bind f).result = (f a).result := by
  unfold bind
  rw [h]

theorem bind_error {r : Recorded α} {code : String} (h : r.result = .error code)
    (f : α → Recorded β) : r.bind f = ⟨r.events, .error code⟩ := by
  unfold bind
  rw [h]

@[simp] theorem check_none_bind (f : Unit → Recorded β) : (check none).bind f = f () := by
  show Recorded.mk ([] ++ (f ()).events) (f ()).result = f ()
  rw [List.nil_append]

@[simp] theorem check_some_bind (code : String) (f : Unit → Recorded β) :
    (check (some code)).bind f = fail code := rfl

theorem save_result_ok {outcome : SaveOutcome} (h : outcome.failure = none)
    (status : AgentActionExecutionStatus) : (save outcome status).result = .ok () := by
  unfold save
  rw [h]

theorem save_result_error {outcome : SaveOutcome} {code : String}
    (h : outcome.failure = some code) (status : AgentActionExecutionStatus) :
    (save outcome status).result = .error code := by
  unfold save
  rw [h]

theorem persists_of_failure_none {outcome : SaveOutcome} (h : outcome.failure = none) :
    outcome.persists = true := by
  cases outcome with
  | saved => rfl
  | refused | savedButFailed => cases h

end Recorded

namespace ExecutionRun

open Recorded

variable (run : ExecutionRun)

/-- The runner is called at the attempt, if the loop comes to it. -/
structure Begins (attempt : Nat) : Prop where
  retry : 1 < attempt →
    (run.attempt attempt).guard = none ∧ (run.attempt attempt).runningSave.failure = none
  secrets : (run.attempt attempt).secrets = none
  notStopped : run.stopReached (run.attempt attempt).startsAt = false
  safety : (run.attempt attempt).safety = none

/-- The loop goes on after the attempt, if there are more. -/
def Repeats (attempt : Nat) : Prop :=
  (∀ code, (run.attempt attempt).outcome ≠ .threw code) ∧ run.endsLoop attempt = false

/-- An attempt from `first` on, one of the next `left`, succeeds, and the loop comes to it. -/
def SucceedsFrom (left first : Nat) : Prop :=
  ∃ k, first ≤ k ∧ k < first + left ∧ (∀ j, first ≤ j → j ≤ k → run.Begins j) ∧
    (∀ j, first ≤ j → j < k → run.Repeats j) ∧ (run.attempt k).outcome = .output .succeeded

theorem prepareRetry_quiet (attempt : Nat) :
    Calm (run.prepareRetry attempt).events ∧ Silent (run.prepareRetry attempt).events := by
  unfold prepareRetry
  split_ifs
  · cases (run.attempt attempt).guard with
    | some code => exact ⟨by simp [Calm, fail], by simp [Silent, fail]⟩
    | none =>
      rw [check_none_bind]
      exact ⟨calm_save _ rfl, silent_save _ _⟩
  · exact ⟨by simp [Calm, Recorded.ret], by simp [Silent, Recorded.ret]⟩

theorem prepareRetry_ok (attempt : Nat) :
    (run.prepareRetry attempt).result = .ok () ↔ (1 < attempt →
      (run.attempt attempt).guard = none ∧ (run.attempt attempt).runningSave.failure = none) := by
  unfold prepareRetry
  split_ifs with hretry
  · cases (run.attempt attempt).guard with
    | some code => simp [fail, hretry]
    | none =>
      rw [check_none_bind]
      cases hsave : (run.attempt attempt).runningSave.failure with
      | some code =>
        rw [save_result_error hsave]
        simp [hretry]
      | none =>
        rw [save_result_ok hsave]
        simp
  · simp [Recorded.ret, hretry]

theorem preflight_events (attempt : Nat) : (run.preflight attempt).events = [] := by
  unfold preflight
  cases (run.attempt attempt).secrets with
  | some code => rfl
  | none =>
    rw [check_none_bind]
    split_ifs
    · rfl
    · cases (run.attempt attempt).safety <;> rfl

theorem preflight_true (attempt : Nat) :
    (run.preflight attempt).result = .ok true ↔
      (run.attempt attempt).secrets = none ∧
        run.stopReached (run.attempt attempt).startsAt = false ∧
        (run.attempt attempt).safety = none := by
  unfold preflight
  cases (run.attempt attempt).secrets with
  | some code => simp [fail]
  | none =>
    rw [check_none_bind]
    split_ifs with hstop
    · simp [hstop, Recorded.ret]
    · cases (run.attempt attempt).safety with
      | some code => simp [fail]
      | none => simp [hstop, Recorded.ret]

theorem beforeRunner_quiet (attempt : Nat) :
    Calm (run.beforeRunner attempt).events ∧ Silent (run.beforeRunner attempt).events := by
  have hquiet := run.prepareRetry_quiet attempt
  unfold beforeRunner
  cases hprepared : (run.prepareRetry attempt).result with
  | error code =>
    rw [bind_error hprepared]
    exact hquiet
  | ok =>
    rw [bind_events_ok hprepared, preflight_events, List.append_nil]
    exact hquiet

theorem beforeRunner_true (attempt : Nat) :
    (run.beforeRunner attempt).result = .ok true ↔ run.Begins attempt := by
  unfold beforeRunner
  cases hprepared : (run.prepareRetry attempt).result with
  | error code =>
    rw [bind_error hprepared]
    refine ⟨fun h => absurd h (by simp), fun h => ?_⟩
    rw [(run.prepareRetry_ok attempt).mpr h.retry] at hprepared
    cases hprepared
  | ok =>
    have hretry := (run.prepareRetry_ok attempt).mp hprepared
    rw [bind_result_ok hprepared, preflight_true]
    exact ⟨fun h => ⟨hretry, h.1, h.2.1, h.2.2⟩, fun h => ⟨h.secrets, h.notStopped, h.safety⟩⟩

/-! ## The loop -/

theorem not_success_of_not_endsLoop {attempt : Nat} (h : run.endsLoop attempt = false) :
    statusOf (run.attempt attempt).outcome ≠ .succeeded := by
  intro hstatus
  simp [endsLoop, hstatus] at h

theorem statusOf_succeeded {outcome : RunnerOutcome} :
    statusOf outcome = .succeeded ↔ outcome = .output .succeeded := by
  cases outcome with
  | output status => simp [statusOf]
  | failure code => simp [statusOf, statusForFailure_ne_succeeded]
  | threw code => simp [statusOf, statusForFailure_ne_succeeded]

theorem result_succeeded {outcome : RunnerOutcome} :
    outcome.result = some .succeeded ↔ outcome = .output .succeeded := by
  cases outcome with
  | output status => simp [RunnerOutcome.result]
  | failure code => simp [RunnerOutcome.result]
  | threw code => simp [RunnerOutcome.result]

theorem calm_callRunner (attempt : Nat) : Calm (run.callRunner attempt).events := by
  intro status hstatus
  simp [callRunner] at hstatus

theorem succeeded_callRunner (attempt : Nat) :
    Succeeded (run.callRunner attempt).events ↔
      (run.attempt attempt).outcome = .output .succeeded := by
  unfold Succeeded
  rw [← result_succeeded]
  simp [callRunner, lastAttempt]

theorem callRunner_result {attempt : Nat}
    (h : ∀ code, (run.attempt attempt).outcome ≠ .threw code) :
    (run.callRunner attempt).result = .ok (statusOf (run.attempt attempt).outcome) := by
  unfold callRunner
  dsimp only
  cases houtcome : (run.attempt attempt).outcome with
  | output status => rfl
  | failure code => rfl
  | threw code => exact absurd houtcome (h code)

theorem callRunner_threw {attempt : Nat} {code : String}
    (h : (run.attempt attempt).outcome = .threw code) :
    (run.callRunner attempt).result = .error code := by
  unfold callRunner
  dsimp only
  rw [h]

theorem attemptLoop_succ (left attempt : Nat) :
    (¬ run.Begins attempt ∧
        (run.attemptLoop (left + 1) attempt).events = (run.beforeRunner attempt).events ∧
        (run.attemptLoop (left + 1) attempt).result ≠ .ok .succeeded) ∨
      (run.Begins attempt ∧ (left = 0 ∨ ¬ run.Repeats attempt) ∧
        (run.attemptLoop (left + 1) attempt).events =
          (run.beforeRunner attempt).events ++ (run.callRunner attempt).events ∧
        ((run.attemptLoop (left + 1) attempt).result = .ok .succeeded ↔
          (run.attempt attempt).outcome = .output .succeeded)) ∨
      (run.Begins attempt ∧ left ≠ 0 ∧ run.Repeats attempt ∧
        (run.attemptLoop (left + 1) attempt).events =
          (run.beforeRunner attempt).events ++ (run.callRunner attempt).events ++
            (run.attemptLoop left (attempt + 1)).events ∧
        (run.attemptLoop (left + 1) attempt).result =
          (run.attemptLoop left (attempt + 1)).result) := by
  rw [attemptLoop]
  cases hbefore : (run.beforeRunner attempt).result with
  | error code =>
    left
    rw [bind_error hbefore]
    refine ⟨fun h => ?_, rfl, by simp⟩
    rw [(run.beforeRunner_true attempt).mpr h] at hbefore
    cases hbefore
  | ok runs =>
    rw [bind_events_ok hbefore, bind_result_ok hbefore]
    cases runs with
    | false =>
      left
      refine ⟨fun h => ?_, List.append_nil _, by simp [Recorded.ret]⟩
      rw [(run.beforeRunner_true attempt).mpr h] at hbefore
      cases hbefore
    | true =>
      right
      have hbegins := (run.beforeRunner_true attempt).mp hbefore
      simp only [if_true]
      by_cases hthrew : ∃ code, (run.attempt attempt).outcome = .threw code
      · obtain ⟨code, hcode⟩ := hthrew
        left
        refine ⟨hbegins, .inr fun h => h.1 code hcode, ?_, ?_⟩
        · rw [bind_error (run.callRunner_threw hcode)]
        · rw [bind_error (run.callRunner_threw hcode), hcode]
          simp
      · have hanswered : ∀ code, (run.attempt attempt).outcome ≠ .threw code :=
          fun code hcode => hthrew ⟨code, hcode⟩
        have hresult := run.callRunner_result hanswered
        rw [bind_events_ok hresult, bind_result_ok hresult]
        by_cases hends : run.endsLoop attempt = true ∨ left = 0
        · left
          have hif : (run.endsLoop attempt || decide (left = 0)) = true := by
            simpa using hends
          rw [if_pos hif]
          refine ⟨hbegins, ?_, by simp [Recorded.ret], ?_⟩
          · rcases hends with hends | hleft
            · exact .inr fun h => by simp [h.2] at hends
            · exact .inl hleft
          · show Except.ok _ = Except.ok _ ↔ _
            rw [← statusOf_succeeded, Except.ok.injEq]
        · right
          have hif : ¬ (run.endsLoop attempt || decide (left = 0)) = true := by
            simpa using hends
          rw [if_neg hif]
          obtain ⟨hgoes, hleft⟩ := not_or.mp hends
          refine ⟨hbegins, hleft, ⟨hanswered, eq_false_of_ne_true hgoes⟩, ?_, rfl⟩
          rw [List.append_assoc]

/-- The loop stores nothing terminal, and ends with a success exactly if its last attempt has
succeeded. -/
theorem attemptLoop_recorded (left attempt : Nat) :
    Calm (run.attemptLoop left attempt).events ∧
      ((run.attemptLoop left attempt).result = .ok .succeeded ↔
        Succeeded (run.attemptLoop left attempt).events) := by
  induction left generalizing attempt with
  | zero =>
    refine ⟨by simp [Calm, attemptLoop, Recorded.ret], ?_⟩
    simp [attemptLoop, Recorded.ret, Succeeded, lastAttempt]
  | succ left ih =>
    obtain ⟨hcalm, hsilent⟩ := run.beforeRunner_quiet attempt
    rcases run.attemptLoop_succ left attempt with
      ⟨-, hevents, hresult⟩ | ⟨-, -, hevents, hresult⟩ | ⟨-, -, hrepeats, hevents, hresult⟩
    · rw [hevents]
      refine ⟨hcalm, fun h => absurd h hresult, fun h => ?_⟩
      rw [Succeeded, hsilent.lastAttempt] at h
      cases h
    · rw [hevents, hresult, ← succeeded_callRunner]
      refine ⟨hcalm.append (run.calm_callRunner attempt), ?_⟩
      unfold Succeeded
      rw [lastAttempt_append, hsilent.lastAttempt, Option.or_none]
    · obtain ⟨hcalm', hrest⟩ := ih (attempt + 1)
      rw [hevents, hresult, hrest]
      refine ⟨(hcalm.append (run.calm_callRunner attempt)).append hcalm', ?_⟩
      -- the attempt that the loop goes on after has not succeeded
      have hfailed : ¬ Succeeded (run.callRunner attempt).events := by
        rw [succeeded_callRunner, ← statusOf_succeeded]
        exact run.not_success_of_not_endsLoop hrepeats.2
      unfold Succeeded at hfailed ⊢
      rw [lastAttempt_append, lastAttempt_append, hsilent.lastAttempt, Option.or_none]
      cases hmore : lastAttempt (run.attemptLoop left (attempt + 1)).events with
      | some result => simp
      | none => simpa using hfailed

theorem attemptLoop_succeeds (left attempt : Nat) :
    (run.attemptLoop left attempt).result = .ok .succeeded ↔ run.SucceedsFrom left attempt := by
  induction left generalizing attempt with
  | zero =>
    refine ⟨fun h => by simp [attemptLoop, Recorded.ret] at h, ?_⟩
    rintro ⟨k, hfirst, hlast, -⟩
    omega
  | succ left ih =>
    rcases run.attemptLoop_succ left attempt with
      ⟨hbegins, -, hresult⟩ | ⟨hbegins, hends, -, hresult⟩ | ⟨hbegins, hleft, hrepeats, -, hresult⟩
    · refine ⟨fun h => absurd h hresult, ?_⟩
      rintro ⟨k, hfirst, -, hreached, -⟩
      exact absurd (hreached attempt (Nat.le_refl _) hfirst) hbegins
    · rw [hresult]
      constructor
      · intro hsuccess
        refine ⟨attempt, Nat.le_refl _, by omega, ?_, fun j _ _ => by omega, hsuccess⟩
        intro j hj hj'
        obtain rfl : j = attempt := by omega
        exact hbegins
      · rintro ⟨k, hfirst, hlast, -, hgoes, hsuccess⟩
        by_cases hk : k = attempt
        · rw [← hk]
          exact hsuccess
        · rcases hends with hzero | hstops
          · omega
          · exact absurd (hgoes attempt (Nat.le_refl _) (by omega)) hstops
    · rw [hresult, ih]
      constructor
      · rintro ⟨k, hfirst, hlast, hreached, hgoes, hsuccess⟩
        refine ⟨k, by omega, by omega, ?_, ?_, hsuccess⟩
        · intro j hj hj'
          by_cases hja : j = attempt
          · rw [hja]
            exact hbegins
          · exact hreached j (by omega) hj'
        · intro j hj hj'
          by_cases hja : j = attempt
          · rw [hja]
            exact hrepeats
          · exact hgoes j (by omega) hj'
      · rintro ⟨k, hfirst, hlast, hreached, hgoes, hsuccess⟩
        have hk : k ≠ attempt := by
          rintro rfl
          exact run.not_success_of_not_endsLoop hrepeats.2 (statusOf_succeeded.mpr hsuccess)
        exact ⟨k, by omega, by omega, fun j hj hj' => hreached j (by omega) hj',
          fun j hj hj' => hgoes j (by omega) hj', hsuccess⟩

/-! ## The whole run -/

/-- The task of the execution comes to an attempt that succeeds. -/
structure TaskSucceeds : Prop where
  admitted : run.queueRejection = none
  guard : run.initialGuard = none
  runningSave : run.runningSave.failure = none
  startedHook : run.startedHook = none
  attempt : run.SucceedsFrom run.maxAttempts 1

/-- The execution comes to an attempt that succeeds: nothing before it fails, and the attempts
before it are repeated. -/
structure Succeeds : Prop where
  queuedSave : run.queuedSave.failure = none
  enqueuedHook : run.enqueuedHook = none
  task : run.TaskSucceeds

/-- The terminal save is stored, and either nothing fails after it or the save of the observer is
not stored. -/
def StoresSuccess : Prop :=
  run.terminalSave.persists = true ∧
    (run.terminalSave.failure = none ∧ run.finishedHook = none ∧ run.notifyHook = none ∨
      run.rejectedSave.persists = false)

theorem finalize_events (status : AgentActionExecutionStatus) :
    (run.finalizeTerminalExecution status).events =
      (Recorded.save run.terminalSave status).events := by
  unfold finalizeTerminalExecution
  cases hsave : run.terminalSave.failure with
  | some code => rw [bind_error (save_result_error hsave _)]
  | none =>
    rw [bind_events_ok (save_result_ok hsave _)]
    cases run.finishedHook with
    | some code => exact List.append_nil _
    | none =>
      cases run.notifyHook with
      | some code => exact List.append_nil _
      | none => exact List.append_nil _

theorem finalize_ok (status : AgentActionExecutionStatus) :
    (∃ ended, (run.finalizeTerminalExecution status).result = .ok ended) ↔
      run.terminalSave.failure = none ∧ run.finishedHook = none ∧ run.notifyHook = none := by
  unfold finalizeTerminalExecution
  cases hsave : run.terminalSave.failure with
  | some code =>
    rw [bind_error (save_result_error hsave _)]
    simp
  | none =>
    rw [bind_result_ok (save_result_ok hsave _)]
    cases run.finishedHook with
    | some code => simp [fail]
    | none =>
      cases run.notifyHook with
      | some code => simp [fail]
      | none => simp [Recorded.ret]

/-- The events are of a task that has come to no success. -/
def Unsuccessful (events : List ExecutionEvent) : Prop :=
  ∃ calm quiet, events = calm ++ quiet ∧ Calm calm ∧ Silent quiet ∧ ¬ Succeeded calm ∧
    ∀ status, .persisted status ∈ quiet → status ≠ .succeeded

/-- The events are of a task whose last attempt has succeeded, and the result what its end has
left. -/
def Successful (r : Recorded AgentActionExecutionStatus) : Prop :=
  ∃ calm, r.events = calm ++ (Recorded.save run.terminalSave .succeeded).events ∧ Calm calm ∧
    Succeeded calm ∧
    ((∃ ended, r.result = .ok ended) ↔
      run.terminalSave.failure = none ∧ run.finishedHook = none ∧ run.notifyHook = none)

theorem succeeded_prepend (hl : Silent l) : Succeeded (l ++ m) ↔ Succeeded m := by
  unfold Succeeded
  rw [lastAttempt_append, hl.lastAttempt, Option.or_none]

theorem unsuccessful_of_silent (hcalm : Calm l) (hsilent : Silent l) : Unsuccessful l := by
  refine ⟨l, [], (List.append_nil _).symm, hcalm, by simp [Silent], ?_, by simp⟩
  rw [Succeeded, hsilent.lastAttempt]
  simp

theorem Unsuccessful.prepend (h : Unsuccessful m) (hcalm : Calm l) (hsilent : Silent l) :
    Unsuccessful (l ++ m) := by
  obtain ⟨calm, quiet, rfl, hcalm', hquiet, hfailed, hstored⟩ := h
  refine ⟨l ++ calm, quiet, (List.append_assoc ..).symm, hcalm.append hcalm', hquiet, ?_, hstored⟩
  rw [succeeded_prepend hsilent]
  exact hfailed

theorem Successful.prepend {r r' : Recorded AgentActionExecutionStatus} (h : run.Successful r)
    (hcalm : Calm l) (hsilent : Silent l) (hevents : r'.events = l ++ r.events)
    (hresult : r'.result = r.result) : run.Successful r' := by
  obtain ⟨calm, hr, hcalm', hsucceeded, hended⟩ := h
  refine ⟨l ++ calm, ?_, hcalm.append hcalm', (succeeded_prepend hsilent).mpr hsucceeded, ?_⟩
  · rw [hevents, hr, List.append_assoc]
  · rw [hresult]
    exact hended

theorem finished_cases :
    (¬ run.SucceedsFrom run.maxAttempts 1 ∧
        Unsuccessful
          ((run.attemptLoop run.maxAttempts 1).bind run.finalizeTerminalExecution).events) ∨
      (run.SucceedsFrom run.maxAttempts 1 ∧
        run.Successful
          ((run.attemptLoop run.maxAttempts 1).bind run.finalizeTerminalExecution)) := by
  obtain ⟨hcalm, hsucceeded⟩ := run.attemptLoop_recorded run.maxAttempts 1
  have hsucceeds := run.attemptLoop_succeeds run.maxAttempts 1
  cases hloop : (run.attemptLoop run.maxAttempts 1).result with
  | error code =>
    rw [hloop] at hsucceeded hsucceeds
    refine .inl ⟨fun h => absurd (hsucceeds.mpr h) (by simp), ?_⟩
    rw [bind_error hloop]
    exact ⟨_, [], (List.append_nil _).symm, hcalm, by simp [Silent],
      fun h => absurd (hsucceeded.mpr h) (by simp), by simp⟩
  | ok status =>
    rw [hloop] at hsucceeded hsucceeds
    rw [bind_events_ok hloop, run.finalize_events status]
    by_cases hstatus : status = .succeeded
    · subst hstatus
      refine .inr ⟨hsucceeds.mp rfl, _, ?_, hcalm, hsucceeded.mp rfl, ?_⟩
      · rw [bind_events_ok hloop, run.finalize_events]
      · rw [bind_result_ok hloop]
        exact run.finalize_ok _
    · have hne : Except.ok status ≠ (Except.ok .succeeded : Except String _) := by
        simpa using hstatus
      refine .inl ⟨fun h => hne (hsucceeds.mpr h), _, _, rfl, hcalm, silent_save _ _,
        fun h => hne (hsucceeded.mpr h), ?_⟩
      intro stored hstored
      rw [(mem_save hstored).1]
      exact hstatus

/-- What the task does.  Without a success it stores none; with one, its terminal save comes
last. -/
theorem enqueue_cases :
    (¬ run.TaskSucceeds ∧ Unsuccessful run.enqueue.events) ∨
      (run.TaskSucceeds ∧ run.Successful run.enqueue) := by
  have hempty : Unsuccessful [] := unsuccessful_of_silent (by simp [Calm]) (by simp [Silent])
  have hcalm : Calm (Recorded.save run.runningSave .running).events := calm_save _ rfl
  have hsilent := silent_save run.runningSave .running
  unfold enqueue
  cases hadmitted : run.queueRejection with
  | some code => exact .inl ⟨fun h => absurd (hadmitted ▸ h.admitted) (by simp), hempty⟩
  | none =>
    dsimp only
    unfold runPersistedExecution
    cases hguard : run.initialGuard with
    | some code => exact .inl ⟨fun h => absurd (hguard ▸ h.guard) (by simp), hempty⟩
    | none =>
      rw [check_none_bind]
      cases hsave : run.runningSave.failure with
      | some code =>
        rw [bind_error (save_result_error hsave _)]
        exact .inl ⟨fun h => absurd (hsave ▸ h.runningSave) (by simp),
          unsuccessful_of_silent hcalm hsilent⟩
      | none =>
        cases hhook : run.startedHook with
        | some code =>
          rw [bind_events_ok (save_result_ok hsave _), check_some_bind]
          exact .inl ⟨fun h => absurd (hhook ▸ h.startedHook) (by simp),
            hempty.prepend hcalm hsilent⟩
        | none =>
          rcases run.finished_cases with ⟨hfails, hevents⟩ | ⟨hsucceeds, hsuccess⟩
          · rw [bind_events_ok (save_result_ok hsave _), check_none_bind]
            exact .inl ⟨fun h => hfails h.attempt, hevents.prepend hcalm hsilent⟩
          · refine .inr ⟨⟨hadmitted, hguard, hsave, hhook, hsucceeds⟩,
              hsuccess.prepend run hcalm hsilent ?_ ?_⟩
            · rw [bind_events_ok (save_result_ok hsave _), check_none_bind]
            · rw [bind_result_ok (save_result_ok hsave _), check_none_bind]

theorem observe_ok {queued : Recorded AgentActionExecutionStatus}
    (h : ∃ ended, queued.result = .ok ended) :
    (run.observeQueueCompletion queued).events = queued.events := by
  obtain ⟨ended, hended⟩ := h
  unfold observeQueueCompletion
  rw [hended]

theorem observe_error {queued : Recorded AgentActionExecutionStatus}
    (h : ¬ ∃ ended, queued.result = .ok ended) :
    ∃ status, (status = .failed ∨ status = .cancelled ∨ status = .skipped) ∧
      (run.observeQueueCompletion queued).events =
        queued.events ++ (Recorded.save run.rejectedSave status).events := by
  cases hresult : queued.result with
  | ok ended => exact absurd ⟨ended, hresult⟩ h
  | error code =>
    refine ⟨queuedFailureStatus code, queuedFailureStatus_cases code, ?_⟩
    unfold observeQueueCompletion
    rw [hresult]
    dsimp only
    cases hsave : run.rejectedSave.failure with
    | some other => rw [bind_error (save_result_error hsave _)]
    | none =>
      rw [bind_events_ok (save_result_ok hsave _)]
      exact congrArg _ (List.append_nil _)

/-- Nothing but a success is stored of a run that has come to no success. -/
theorem Unsuccessful.recorded (h : Unsuccessful l) : OutcomeRecorded l := by
  obtain ⟨calm, quiet, rfl, hcalm, hquiet, hfailed, hstored⟩ := h
  have hnot : ¬ Succeeded (calm ++ quiet) := by
    rw [hquiet.succeeded_append]
    exact hfailed
  refine ⟨?_, ?_, fun h => absurd h hnot⟩
  · intro before result after hsplit status hlast
    exact final_of_split hcalm hquiet hsplit hlast
  · refine ⟨fun h => ?_, fun h => absurd h hnot⟩
    exfalso
    rcases List.mem_append.mp (mem_of_lastPersisted h) with hmem | hmem
    · have := hcalm _ hmem
      cases this
    · exact hstored _ hmem rfl

theorem Unsuccessful.append_save (h : Unsuccessful l) (outcome : SaveOutcome)
    {status : AgentActionExecutionStatus} (hstatus : status ≠ .succeeded) :
    Unsuccessful (l ++ (Recorded.save outcome status).events) := by
  obtain ⟨calm, quiet, rfl, hcalm, hquiet, hfailed, hstored⟩ := h
  refine ⟨calm, quiet ++ (Recorded.save outcome status).events, List.append_assoc .., hcalm,
    hquiet.append (silent_save _ _), hfailed, ?_⟩
  intro stored hmem
  rcases List.mem_append.mp hmem with hmem | hmem
  · exact hstored stored hmem
  · rw [(mem_save hmem).1]
    exact hstatus

theorem observe_cases :
    (¬ run.TaskSucceeds ∧ Unsuccessful (run.observeQueueCompletion run.enqueue).events) ∨
      (run.TaskSucceeds ∧ ∃ calm status, Calm calm ∧ Succeeded calm ∧
        (status = .failed ∨ status = .cancelled ∨ status = .skipped) ∧
        (run.observeQueueCompletion run.enqueue).events =
          calm ++ ((Recorded.save run.terminalSave .succeeded).events ++
            if run.terminalSave.failure = none ∧ run.finishedHook = none ∧ run.notifyHook = none
            then [] else (Recorded.save run.rejectedSave status).events)) := by
  rcases run.enqueue_cases with ⟨hfails, hevents⟩ | ⟨hsucceeds, calm, hevents, hcalm, hlast, hok⟩
  · left
    refine ⟨hfails, ?_⟩
    by_cases hended : ∃ ended, run.enqueue.result = .ok ended
    · rw [run.observe_ok hended]
      exact hevents
    · obtain ⟨status, hstatus, hobserved⟩ := run.observe_error hended
      rw [hobserved]
      apply hevents.append_save
      rcases hstatus with rfl | rfl | rfl <;> simp
  · right
    refine ⟨hsucceeds, calm, ?_⟩
    by_cases hended : ∃ ended, run.enqueue.result = .ok ended
    · refine ⟨.failed, hcalm, hlast, .inl rfl, ?_⟩
      rw [run.observe_ok hended, hevents, if_pos (hok.mp hended), List.append_nil]
    · obtain ⟨status, hstatus, hobserved⟩ := run.observe_error hended
      refine ⟨status, hcalm, hlast, hstatus, ?_⟩
      rw [hobserved, hevents, if_neg (fun h => hended (hok.mpr h)), List.append_assoc]

theorem recorded_append (hcalm : Calm l) (hlast : Succeeded l) :
    OutcomeRecorded (l ++ [.persisted .succeeded]) := by
  have hquiet : Silent [.persisted .succeeded] := by simp [Silent]
  refine ⟨fun before result after hsplit status h => final_of_split hcalm hquiet hsplit h, ?_, ?_⟩
  · rw [lastPersisted_append, hquiet.succeeded_append]
    exact ⟨fun _ => hlast, fun _ => rfl⟩
  · intro _ status hstatus
    rcases List.mem_append.mp hstatus with hmem | hmem
    · have hopen := hcalm status hmem
      cases status <;> simp_all [AgentActionExecutionStatus.isTerminal]
    · rw [List.mem_singleton, ExecutionEvent.persisted.injEq] at hmem
      simp [hmem]

theorem recorded_of_success {calm : List ExecutionEvent} {status : AgentActionExecutionStatus}
    (hcalm : Calm calm) (hlast : Succeeded calm)
    (hstatus : status = .failed ∨ status = .cancelled ∨ status = .skipped) :
    OutcomeRecorded (calm ++ ((Recorded.save run.terminalSave .succeeded).events ++
        if run.terminalSave.failure = none ∧ run.finishedHook = none ∧ run.notifyHook = none
        then [] else (Recorded.save run.rejectedSave status).events)) ↔
      run.StoresSuccess := by
  have hne : status ≠ .succeeded := by rcases hstatus with rfl | rfl | rfl <;> simp
  -- a status that is stored last and is no success is not what has happened
  have hwrong : ∀ quiet, Silent quiet → lastPersisted (calm ++ quiet) ≠ some .succeeded →
      ¬ OutcomeRecorded (calm ++ quiet) := by
    intro quiet hquiet hstored hrecorded
    exact hstored (hrecorded.succeeded.mpr ((hquiet.succeeded_append calm).mpr hlast))
  have hsaved : ∀ outcome : SaveOutcome, outcome.persists = true →
      (Recorded.save outcome .succeeded).events = [.persisted .succeeded] := by
    intro outcome houtcome
    simp [Recorded.save, houtcome]
  by_cases hended :
      run.terminalSave.failure = none ∧ run.finishedHook = none ∧ run.notifyHook = none
  · have hpersists := persists_of_failure_none hended.1
    rw [if_pos hended, List.append_nil, hsaved _ hpersists]
    exact ⟨fun _ => ⟨hpersists, .inl hended⟩, fun _ => recorded_append hcalm hlast⟩
  · rw [if_neg hended]
    by_cases hrejected : run.rejectedSave.persists = true
    · refine iff_of_false (hwrong _ ((silent_save _ _).append (silent_save _ _)) ?_) ?_
      · rw [lastPersisted_append, lastPersisted_append, lastPersisted_save _ status,
          if_pos hrejected]
        simpa using hne
      · rintro ⟨-, hnone | hnone⟩
        · exact hended hnone
        · rw [hrejected] at hnone
          cases hnone
    · have hnothing : (Recorded.save run.rejectedSave status).events = [] := by
        simp [Recorded.save, hrejected]
      rw [hnothing, List.append_nil]
      by_cases hpersists : run.terminalSave.persists = true
      · rw [hsaved _ hpersists]
        exact ⟨fun _ => ⟨hpersists, .inr (eq_false_of_ne_true hrejected)⟩,
          fun _ => recorded_append hcalm hlast⟩
      · refine iff_of_false (hwrong _ (silent_save _ _) ?_) (fun h => hpersists h.1)
        rw [lastPersisted_append, lastPersisted_save, if_neg hpersists, Option.none_or]
        exact hcalm.lastPersisted_ne

/-- What is stored of an execution is what has happened exactly if its success, should it come to
one, is stored: the terminal save is, and either nothing fails after it or the save that the
observer makes of the failure is not stored. -/
theorem outcome_recorded :
    OutcomeRecorded run.execute.events ↔ (run.Succeeds → run.StoresSuccess) := by
  have hcalm : Calm (Recorded.save run.queuedSave .queued).events := calm_save _ rfl
  have hsilent := silent_save run.queuedSave .queued
  have hquiet := (unsuccessful_of_silent hcalm hsilent).recorded
  unfold execute
  cases hsave : run.queuedSave.failure with
  | some code =>
    rw [bind_error (save_result_error hsave _)]
    exact iff_of_true hquiet fun h => absurd (hsave ▸ h.queuedSave) (by simp)
  | none =>
    rw [bind_events_ok (save_result_ok hsave _)]
    cases hhook : run.enqueuedHook with
    | some code =>
      refine iff_of_true ?_ fun h => absurd (hhook ▸ h.enqueuedHook) (by simp)
      rw [check_some_bind]
      exact (List.append_nil (Recorded.save run.queuedSave .queued).events).symm ▸ hquiet
    | none =>
      rw [check_none_bind]
      rcases run.observe_cases with
        ⟨hfails, hevents⟩ | ⟨hsucceeds, calm, status, hcalm', hlast, hstatus, hevents⟩
      · exact iff_of_true (hevents.prepend hcalm hsilent).recorded fun h => absurd h.task hfails
      · have hrun : run.Succeeds := ⟨hsave, hhook, hsucceeds⟩
        rw [hevents, ← List.append_assoc,
          run.recorded_of_success (hcalm.append hcalm') ((succeeded_prepend hsilent).mpr hlast)
            hstatus]
        exact ⟨fun h _ => h, fun h => h hrun⟩

/-! ## Runs -/

/-- An action that succeeds at once, with a terminal save that is refused. -/
def unsaved : ExecutionRun where
  attempt _ := { outcome := .output .succeeded }
  terminalSave := .refused "database_failure"

/-- The one attempt has succeeded, and `failed` is stored. -/
theorem success_recorded_as_failed :
    unsaved.execute.events = [.persisted .queued, .persisted .running,
        .attempted (some .succeeded), .persisted .failed] ∧
      ¬ OutcomeRecorded unsaved.execute.events := by
  have hevents : unsaved.execute.events = [.persisted .queued, .persisted .running,
      .attempted (some .succeeded), .persisted .failed] := by decide
  refine ⟨hevents, fun h => ?_⟩
  have := h.kept (by rw [hevents]; rfl) .failed (by rw [hevents]; simp)
  simp at this

end ExecutionRun

end PlugAgente.Execution
