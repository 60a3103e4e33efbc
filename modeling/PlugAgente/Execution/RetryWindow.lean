import PlugAgente.Execution.RecordedOutcome
import PlugAgente.Schedule.Calculator

/-!
# Retries and the stop time

`_runPersistedExecution` once more, with what the runner is handed: each call of the runner with
the clock in front of it and the timeout policy of its definition, which carries the stop time of
the first attempt over to the later ones.

`runTimed_status` says that this is the run of `PersistedRun`, and `retries_within_stop` what the
stop time and the retry policy leave of its attempts.
-/

namespace PlugAgente.Execution

open PlugAgente.Schedule (Zone DateTime)

/-! ## The timeout policy -/

/-- `AgentActionTimeoutPolicy`; durations and instants are in microseconds. -/
structure AgentActionTimeoutPolicy where
  maxRuntime : Int := 1800000000
  killMainProcessOnTimeout : Bool := true
  stopTimeOfDayMinutes : Option Int := none
  executionDeadline : Option Int := none
  deriving DecidableEq, Repr

namespace AgentActionTimeoutPolicy

variable (policy : AgentActionTimeoutPolicy) (zone : Zone) (startedAt : Int)

/-- `nextStopAt`, with the zone of the system. -/
def nextStopAt : Option Int :=
  match policy.stopTimeOfDayMinutes with
  | none => none
  | some minutes =>
    let here : DateTime := ⟨startedAt, zone⟩
    let stop := zone.dateTime here.dayNumber (minutes.tdiv 60) (minutes % 60)
    if stop.isBefore here then
      some (zone.dateTime (here.dayNumber + 1) (minutes.tdiv 60) (minutes % 60)).micros
    else some stop.micros

def deadlineFrom : Int :=
  let runtimeDeadline := startedAt + policy.maxRuntime
  match policy.executionDeadline <|> policy.nextStopAt zone startedAt with
  | some stop => if stop < runtimeDeadline then stop else runtimeDeadline
  | none => runtimeDeadline

theorem deadlineFrom_le_runtime :
    policy.deadlineFrom zone startedAt ≤ startedAt + policy.maxRuntime := by
  unfold deadlineFrom
  dsimp only
  split
  · split <;> omega
  · exact le_refl _

theorem deadlineFrom_le_executionDeadline {stop : Int} (h : policy.executionDeadline = some stop) :
    policy.deadlineFrom zone startedAt ≤ stop := by
  unfold deadlineFrom
  rw [h]
  show (if stop < startedAt + policy.maxRuntime then stop else _) ≤ stop
  split <;> omega

end AgentActionTimeoutPolicy

/-! ## The run with its clock -/

/-- A run with its timeout policy; the stop time is that of the first attempt. -/
structure TimedRun extends ExecutionRun where
  zone : Zone
  timeout : AgentActionTimeoutPolicy := {}
  processStartedAt : Int
  stopAt_eq : stopAt = timeout.nextStopAt zone processStartedAt

structure RunnerCall where
  attempt : Nat
  startsAt : Int
  timeout : AgentActionTimeoutPolicy
  outcome : RunnerOutcome
  deriving DecidableEq, Repr

/-- What `terminalExecution` is made of. -/
inductive Terminal
  | running
  | called (outcome : RunnerOutcome)
  | scheduledStop
  deriving DecidableEq, Repr

def Terminal.status : Terminal → AgentActionExecutionStatus
  | running => .running
  | called outcome => ExecutionRun.statusOf outcome
  | scheduledStop => .timedOut

namespace TimedRun

variable (run : TimedRun)

/-- The timeout policy of the definition that the runner is handed. -/
def resolvedTimeout (attempt : Nat) : AgentActionTimeoutPolicy :=
  match run.stopAt with
  | none => run.timeout
  | some stop =>
    let remaining := stop - (run.attempt attempt).startsAt
    { run.timeout with
      maxRuntime := if remaining < run.timeout.maxRuntime then remaining else run.timeout.maxRuntime
      killMainProcessOnTimeout := true
      stopTimeOfDayMinutes := none
      executionDeadline := some stop }

def call (attempt : Nat) : RunnerCall where
  attempt := attempt
  startsAt := (run.attempt attempt).startsAt
  timeout := run.resolvedTimeout attempt
  outcome := (run.attempt attempt).outcome

def timedLoop : Nat → Nat → List RunnerCall × Except String Terminal
  | 0, _ => ([], .ok .running)
  | left + 1, attempt =>
    match (run.beforeRunner attempt).result with
    | .error code => ([], .error code)
    | .ok false => ([], .ok .scheduledStop)
    | .ok true =>
      match (run.attempt attempt).outcome with
      | .threw code => ([run.call attempt], .error code)
      | outcome =>
        if run.endsLoop attempt || left = 0 then ([run.call attempt], .ok (.called outcome))
        else (run.call attempt :: (timedLoop left (attempt + 1)).1,
          (timedLoop left (attempt + 1)).2)

/-- What is done before the loop. -/
def prologue : Recorded Unit :=
  (Recorded.check run.initialGuard).bind fun _ =>
    (Recorded.save run.runningSave .running).bind fun _ => Recorded.check run.startedHook

/-- `_runPersistedExecution`: the calls of the runner, and what is reported. -/
def runTimed : List RunnerCall × Except String Terminal :=
  match run.prologue.result with
  | .error code => ([], .error code)
  | .ok _ =>
    let looped := run.timedLoop run.maxAttempts 1
    match looped.2 with
    | .error code => (looped.1, .error code)
    | .ok terminal =>
      match (run.finalizeTerminalExecution terminal.status).result with
      | .error code => (looped.1, .error code)
      | .ok _ => (looped.1, .ok terminal)

/-! ## What the run is to keep -/

/-- A further attempt may follow the outcome of one. -/
def Retriable (outcome : RunnerOutcome) : Prop :=
  let status := ExecutionRun.statusOf outcome
  (∀ code, outcome ≠ .threw code) ∧ status ≠ .succeeded ∧
    (status = .timedOut → run.type.supportsProcessTermination = true) ∧
    AgentActionRetryPolicy.isRetriableStatus status = true

/-- Something besides the runner refuses with a code: before the first attempt, in front of the
attempt that follows `attempts` others, or behind the last one. -/
def Refuses (attempts : Nat) (code : String) : Prop :=
  run.initialGuard = some code ∨ run.runningSave.failure = some code ∨
    run.startedHook = some code ∨ (run.attempt (attempts + 1)).guard = some code ∨
    (run.attempt (attempts + 1)).runningSave.failure = some code ∨
    (run.attempt (attempts + 1)).secrets = some code ∨
    (run.attempt (attempts + 1)).safety = some code ∨
    (run.attempt attempts).outcome = .threw code ∨ run.terminalSave.failure = some code ∨
    run.finishedHook = some code ∨ run.notifyHook = some code

/-- What a run keeps, by its calls of the runner and what it reports. -/
structure WithinStop (calls : List RunnerCall) (reported : Except String Terminal) : Prop where
  attempts : calls.length ≤ run.maxAttempts
  beforeStop : ∀ call ∈ calls, ∀ stop,
    run.timeout.nextStopAt run.zone run.processStartedAt = some stop → call.startsAt < stop
  /-- The deadline of an attempt, whenever its process is started. -/
  deadline : ∀ call ∈ calls, ∀ startedAt,
    call.timeout.deadlineFrom run.zone startedAt ≤ startedAt + run.timeout.maxRuntime ∧
      ∀ stop, run.timeout.nextStopAt run.zone run.processStartedAt = some stop →
        call.timeout.deadlineFrom run.zone startedAt ≤ stop
  retried : ∀ before call after, calls = before ++ call :: after → after ≠ [] →
    run.Retriable call.outcome
  reports : ∀ terminal, reported = .ok terminal →
    (∃ before call, calls = before ++ [call] ∧ terminal = .called call.outcome) ∨
      (terminal = .scheduledStop ∧ ∃ stop,
        run.timeout.nextStopAt run.zone run.processStartedAt = some stop ∧
          stop ≤ (run.attempt (calls.length + 1)).startsAt)
  refuses : ∀ code, reported = .error code → run.Refuses calls.length code

/-! ## The checks in front of the runner -/

section Checks

open Recorded

theorem prepareRetry_error {attempt : Nat} {code : String}
    (h : (run.prepareRetry attempt).result = .error code) :
    (run.attempt attempt).guard = some code ∨
      (run.attempt attempt).runningSave.failure = some code := by
  unfold ExecutionRun.prepareRetry at h
  split at h
  · cases hguard : (run.attempt attempt).guard with
    | some refusal =>
      rw [hguard] at h
      exact .inl (congrArg some (Except.error.inj h))
    | none =>
      rw [hguard, check_none_bind] at h
      cases hsave : (run.attempt attempt).runningSave.failure with
      | some refusal =>
        rw [save_result_error hsave] at h
        exact .inr (congrArg some (Except.error.inj h))
      | none =>
        rw [save_result_ok hsave] at h
        cases h
  · cases h

theorem preflight_cases (attempt : Nat) :
    ((run.preflight attempt).result = .ok false ∧
      run.stopReached (run.attempt attempt).startsAt = true) ∨
    ((run.preflight attempt).result = .ok true) ∨
    ∃ code, (run.preflight attempt).result = .error code ∧
      ((run.attempt attempt).secrets = some code ∨ (run.attempt attempt).safety = some code) := by
  unfold ExecutionRun.preflight
  cases hsecrets : (run.attempt attempt).secrets with
  | some code => exact .inr (.inr ⟨code, rfl, .inl rfl⟩)
  | none =>
    rw [check_none_bind]
    split
    · rename_i hstop
      exact .inl ⟨rfl, hstop⟩
    · cases hsafety : (run.attempt attempt).safety with
      | some code => exact .inr (.inr ⟨code, rfl, .inr rfl⟩)
      | none => exact .inr (.inl rfl)

theorem beforeRunner_false {attempt : Nat} (h : (run.beforeRunner attempt).result = .ok false) :
    run.stopReached (run.attempt attempt).startsAt = true := by
  unfold ExecutionRun.beforeRunner at h
  cases hprepared : (run.prepareRetry attempt).result with
  | error code =>
    rw [bind_error hprepared] at h
    cases h
  | ok =>
    rw [bind_result_ok hprepared] at h
    rcases run.preflight_cases attempt with ⟨-, hstop⟩ | htrue | ⟨code, herror, -⟩
    · exact hstop
    · rw [htrue] at h
      cases h
    · rw [herror] at h
      cases h

theorem beforeRunner_error {attempt : Nat} {code : String}
    (h : (run.beforeRunner (attempt + 1)).result = .error code) : run.Refuses attempt code := by
  unfold ExecutionRun.beforeRunner at h
  unfold Refuses
  cases hprepared : (run.prepareRetry (attempt + 1)).result with
  | error refusal =>
    rw [bind_error hprepared] at h
    obtain rfl : refusal = code := Except.error.inj h
    have := run.prepareRetry_error hprepared
    tauto
  | ok =>
    rw [bind_result_ok hprepared] at h
    rcases run.preflight_cases (attempt + 1) with ⟨hfalse, -⟩ | htrue | ⟨refusal, herror, hcause⟩
    · rw [hfalse] at h
      cases h
    · rw [htrue] at h
      cases h
    · rw [herror] at h
      obtain rfl : refusal = code := Except.error.inj h
      tauto

end Checks

/-! ## The loop -/

/-- What the loop comes to from an attempt on, with as many attempts left. -/
inductive Loops (run : TimedRun) : Nat → Nat → List RunnerCall → Except String Terminal → Prop where
  | exhausted (attempt : Nat) : Loops run 0 attempt [] (.ok .running)
  | refused {left attempt : Nat} {code : String}
      (h : (run.beforeRunner attempt).result = .error code) :
      Loops run (left + 1) attempt [] (.error code)
  | stopped {left attempt : Nat} (h : (run.beforeRunner attempt).result = .ok false) :
      Loops run (left + 1) attempt [] (.ok .scheduledStop)
  | threw {left attempt : Nat} {code : String} (hbegins : run.Begins attempt)
      (h : (run.attempt attempt).outcome = .threw code) :
      Loops run (left + 1) attempt [run.call attempt] (.error code)
  | ended {left attempt : Nat} (hbegins : run.Begins attempt) :
      Loops run (left + 1) attempt [run.call attempt]
        (.ok (.called (run.attempt attempt).outcome))
  | again {left attempt : Nat} {calls : List RunnerCall} {reported : Except String Terminal}
      (hbegins : run.Begins attempt) (hrepeats : run.Repeats attempt) (hleft : left ≠ 0)
      (hrest : Loops run left (attempt + 1) calls reported) :
      Loops run (left + 1) attempt (run.call attempt :: calls) reported

theorem loops (left attempt : Nat) :
    Loops run left attempt (run.timedLoop left attempt).1 (run.timedLoop left attempt).2 := by
  induction left generalizing attempt with
  | zero => exact .exhausted attempt
  | succ left ih =>
    unfold timedLoop
    split
    · rename_i code h
      exact .refused h
    · rename_i h
      exact .stopped h
    · rename_i h
      have hbegins := (run.beforeRunner_true attempt).mp h
      split
      · rename_i code hthrew
        exact .threw hbegins hthrew
      · rename_i hreturned
        by_cases hends : (run.endsLoop attempt || decide (left = 0)) = true
        · rw [if_pos hends]
          exact .ended hbegins
        · rw [if_neg hends]
          simp only [Bool.or_eq_true, decide_eq_true_eq, not_or, Bool.not_eq_true] at hends
          exact .again hbegins ⟨fun code => hreturned code, hends.1⟩ hends.2 (ih (attempt + 1))

section Loops

variable {run} {left attempt : Nat} {calls : List RunnerCall} {reported : Except String Terminal}

theorem Loops.length_le (h : Loops run left attempt calls reported) : calls.length ≤ left := by
  induction h with
  | exhausted => exact le_refl _
  | refused => exact Nat.zero_le _
  | stopped => exact Nat.zero_le _
  | threw => exact Nat.succ_le_succ (Nat.zero_le _)
  | ended => exact Nat.succ_le_succ (Nat.zero_le _)
  | again _ _ _ _ ih => exact Nat.succ_le_succ ih

theorem Loops.begins (h : Loops run left attempt calls reported) :
    ∀ call ∈ calls, ∃ k, run.Begins k ∧ call = run.call k := by
  induction h with
  | exhausted => simp
  | refused => simp
  | stopped => simp
  | threw hbegins => simpa using ⟨_, hbegins, rfl⟩
  | ended hbegins => simpa using ⟨_, hbegins, rfl⟩
  | again hbegins _ _ _ ih =>
    intro call hcall
    rcases List.mem_cons.mp hcall with rfl | hcall
    · exact ⟨_, hbegins, rfl⟩
    · exact ih call hcall

theorem retriable_of_repeats (h : run.Repeats attempt) :
    run.Retriable (run.attempt attempt).outcome := by
  obtain ⟨hreturned, hends⟩ := h
  simp only [ExecutionRun.endsLoop, Bool.or_eq_false_iff, Bool.not_eq_false', Bool.and_eq_false_iff,
    decide_eq_false_iff_not] at hends
  obtain ⟨⟨⟨hsuccess, -⟩, htimeout⟩, hretriable⟩ := hends
  refine ⟨hreturned, hsuccess, ?_, hretriable⟩
  intro htimedOut
  exact htimeout.resolve_left (fun hne => hne htimedOut)

theorem Loops.retried (h : Loops run left attempt calls reported) :
    ∀ before call after, calls = before ++ call :: after → after ≠ [] →
      run.Retriable call.outcome := by
  induction h with
  | exhausted => simp
  | refused => simp
  | stopped => simp
  | threw =>
    intro before call after hsplit hafter
    cases before <;> simp_all
  | ended =>
    intro before call after hsplit hafter
    cases before <;> simp_all
  | again _ hrepeats _ _ ih =>
    intro before call after hsplit hafter
    cases before with
    | nil =>
      obtain ⟨rfl, -⟩ := List.cons.inj hsplit
      exact retriable_of_repeats hrepeats
    | cons first before => exact ih before call after (List.cons.inj hsplit).2 hafter

theorem Loops.reports (h : Loops run left attempt calls reported) (hleft : left ≠ 0) :
    ∀ terminal, reported = .ok terminal →
      (∃ before call, calls = before ++ [call] ∧ terminal = .called call.outcome) ∨
        (terminal = .scheduledStop ∧
          run.stopReached (run.attempt (attempt + calls.length)).startsAt = true) := by
  induction h with
  | exhausted => exact absurd rfl hleft
  | refused => simp
  | stopped h =>
    intro terminal hterminal
    obtain rfl := Except.ok.inj hterminal
    exact .inr ⟨rfl, run.beforeRunner_false h⟩
  | threw => simp
  | ended =>
    intro terminal hterminal
    obtain rfl := Except.ok.inj hterminal
    exact .inl ⟨[], _, rfl, rfl⟩
  | @again left attempt calls reported _ _ hrest _ ih =>
    intro terminal hterminal
    rcases ih hrest terminal hterminal with ⟨before, call, rfl, rfl⟩ | ⟨rfl, hstop⟩
    · exact .inl ⟨run.call attempt :: before, call, rfl, rfl⟩
    · refine .inr ⟨rfl, ?_⟩
      rwa [List.length_cons, ← Nat.add_assoc, Nat.add_right_comm]

theorem Loops.refuses (h : Loops run left (attempt + 1) calls reported) :
    ∀ code, reported = .error code → run.Refuses (attempt + calls.length) code := by
  generalize hfirst : attempt + 1 = first at h
  induction h generalizing attempt with
  | exhausted => simp
  | refused h =>
    subst hfirst
    intro code hcode
    obtain rfl := Except.error.inj hcode
    exact run.beforeRunner_error h
  | stopped => simp
  | threw _ h =>
    subst hfirst
    intro code hcode
    obtain rfl := Except.error.inj hcode
    exact .inr (.inr (.inr (.inr (.inr (.inr (.inr (.inl h)))))))
  | ended => simp
  | again _ _ _ _ ih =>
    subst hfirst
    intro code hcode
    have hrest := ih rfl code hcode
    rwa [List.length_cons, ← Nat.add_assoc, Nat.add_right_comm]

end Loops

/-! ## The run -/

section Run

open Recorded

theorem prologue_error {code : String} (h : run.prologue.result = .error code) :
    run.Refuses 0 code := by
  unfold prologue at h
  unfold Refuses
  cases hguard : run.initialGuard with
  | some refusal =>
    rw [hguard] at h
    exact .inl (congrArg some (Except.error.inj h))
  | none =>
    rw [hguard, check_none_bind] at h
    cases hsave : run.runningSave.failure with
    | some refusal =>
      rw [bind_error (save_result_error hsave _)] at h
      exact .inr (.inl (congrArg some (Except.error.inj h)))
    | none =>
      rw [bind_result_ok (save_result_ok hsave _)] at h
      cases hhook : run.startedHook with
      | some refusal =>
        rw [hhook] at h
        exact .inr (.inr (.inl (congrArg some (Except.error.inj h))))
      | none =>
        rw [hhook] at h
        cases h

theorem finalize_error {status : AgentActionExecutionStatus} {code : String}
    (h : (run.finalizeTerminalExecution status).result = .error code) (attempts : Nat) :
    run.Refuses attempts code := by
  unfold ExecutionRun.finalizeTerminalExecution at h
  unfold Refuses
  cases hsave : run.terminalSave.failure with
  | some refusal =>
    rw [bind_error (save_result_error hsave _)] at h
    obtain rfl : refusal = code := Except.error.inj h
    tauto
  | none =>
    rw [bind_result_ok (save_result_ok hsave _)] at h
    cases hfinished : run.finishedHook with
    | some refusal =>
      rw [hfinished] at h
      obtain rfl : refusal = code := Except.error.inj h
      tauto
    | none =>
      rw [hfinished, check_none_bind] at h
      cases hnotify : run.notifyHook with
      | some refusal =>
        rw [hnotify] at h
        obtain rfl : refusal = code := Except.error.inj h
        tauto
      | none =>
        rw [hnotify] at h
        cases h

theorem finalize_ok {status status' : AgentActionExecutionStatus}
    (h : (run.finalizeTerminalExecution status).result = .ok status') : status' = status := by
  unfold ExecutionRun.finalizeTerminalExecution at h
  cases hsave : run.terminalSave.failure with
  | some refusal =>
    rw [bind_error (save_result_error hsave _)] at h
    cases h
  | none =>
    rw [bind_result_ok (save_result_ok hsave _)] at h
    cases hfinished : run.finishedHook <;> rw [hfinished] at h
    · cases hnotify : run.notifyHook <;> rw [hnotify] at h
      · exact (Except.ok.inj h).symm
      · cases h
    · cases h

theorem stopReached_iff (time : Int) :
    run.stopReached time = true ↔
      ∃ stop, run.timeout.nextStopAt run.zone run.processStartedAt = some stop ∧ stop ≤ time := by
  unfold ExecutionRun.stopReached
  rw [run.stopAt_eq, Option.any_eq_true]
  simp

theorem call_deadline (attempt : Nat) (startedAt : Int) :
    (run.call attempt).timeout.deadlineFrom run.zone startedAt ≤
        startedAt + run.timeout.maxRuntime ∧
      ∀ stop, run.timeout.nextStopAt run.zone run.processStartedAt = some stop →
        (run.call attempt).timeout.deadlineFrom run.zone startedAt ≤ stop := by
  unfold call resolvedTimeout
  rw [run.stopAt_eq]
  cases hstop : run.timeout.nextStopAt run.zone run.processStartedAt with
  | none => exact ⟨run.timeout.deadlineFrom_le_runtime run.zone startedAt, by simp⟩
  | some stop =>
    dsimp only
    refine ⟨?_, ?_⟩
    · refine le_trans (AgentActionTimeoutPolicy.deadlineFrom_le_runtime _ run.zone startedAt) ?_
      dsimp only
      split <;> omega
    · intro stop' hstop'
      obtain rfl := Option.some.inj hstop'
      exact AgentActionTimeoutPolicy.deadlineFrom_le_executionDeadline _ run.zone startedAt rfl

theorem withinStop_refused {code : String} (h : run.Refuses 0 code) :
    run.WithinStop [] (.error code) where
  attempts := Nat.zero_le _
  beforeStop := by simp
  deadline := by simp
  retried := by simp
  reports := by simp
  refuses := by
    intro code' hcode
    rwa [← Except.error.inj hcode]

theorem withinStop_looped {reported : Except String Terminal}
    (hok : ∀ terminal, reported = .ok terminal →
      (run.timedLoop run.maxAttempts 1).2 = .ok terminal)
    (herror : ∀ code, reported = .error code →
      (run.timedLoop run.maxAttempts 1).2 = .error code ∨
        ∀ attempts, run.Refuses attempts code) :
    run.WithinStop (run.timedLoop run.maxAttempts 1).1 reported := by
  have hloops := run.loops run.maxAttempts 1
  have hpos : run.maxAttempts ≠ 0 := by
    have := AgentActionRetryPolicy.effectiveMaxAttempts_pos run.retry run.hasIoSession run.source
      run.runElevated
    unfold ExecutionRun.maxAttempts
    omega
  refine ⟨hloops.length_le, ?_, ?_, hloops.retried, ?_, ?_⟩
  · intro call hcall stop hstop
    obtain ⟨k, hbegins, rfl⟩ := hloops.begins call hcall
    have hopen := hbegins.notStopped
    by_contra hlate
    have hreached : run.stopReached (run.attempt k).startsAt = true :=
      (run.stopReached_iff _).mpr ⟨stop, hstop, not_lt.mp hlate⟩
    rw [hopen] at hreached
    cases hreached
  · intro call hcall startedAt
    obtain ⟨k, -, rfl⟩ := hloops.begins call hcall
    exact run.call_deadline k startedAt
  · intro terminal hterminal
    rcases hloops.reports hpos terminal (hok terminal hterminal) with hlast | ⟨hstop, hreached⟩
    · exact .inl hlast
    · rw [Nat.add_comm] at hreached
      exact .inr ⟨hstop, (run.stopReached_iff _).mp hreached⟩
  · intro code hcode
    rcases herror code hcode with hloop | hrefuses
    · have hrefused := @Loops.refuses run run.maxAttempts 0 _ _ hloops code hloop
      rwa [Nat.zero_add] at hrefused
    · exact hrefuses _

/-- The attempts of a run keep to its retry policy and to the stop time of its first attempt, and
what it reports is the outcome of its last call, the stop time or a refusal. -/
theorem retries_within_stop (run : TimedRun) : run.WithinStop run.runTimed.1 run.runTimed.2 := by
  unfold runTimed
  cases hprologue : run.prologue.result with
  | error code => exact run.withinStop_refused (run.prologue_error hprologue)
  | ok =>
    dsimp only
    cases hlooped : (run.timedLoop run.maxAttempts 1).2 with
    | error code =>
      exact run.withinStop_looped (by simp) fun code' hcode =>
        .inl (hlooped.trans (congrArg Except.error (Except.error.inj hcode)))
    | ok terminal =>
      dsimp only
      cases hfinal : (run.finalizeTerminalExecution terminal.status).result with
      | error code =>
        refine run.withinStop_looped (by simp) fun code' hcode => .inr ?_
        rw [← Except.error.inj hcode]
        exact run.finalize_error hfinal
      | ok status =>
        refine run.withinStop_looped (fun terminal' hterminal => ?_) (by simp)
        rw [hlooped, Except.ok.inj hterminal]

/-! ## The run of statuses -/

theorem attemptLoop_result (left attempt : Nat) :
    (run.attemptLoop left attempt).result =
      (run.timedLoop left attempt).2.map Terminal.status := by
  induction left generalizing attempt with
  | zero => rfl
  | succ left ih =>
    unfold ExecutionRun.attemptLoop timedLoop
    cases hbefore : (run.beforeRunner attempt).result with
    | error code =>
      rw [bind_error hbefore]
      rfl
    | ok runs =>
      rw [bind_result_ok hbefore]
      cases runs with
      | false => rfl
      | true =>
        rw [if_pos rfl]
        cases houtcome : (run.attempt attempt).outcome with
        | threw code =>
          have hcalled : (run.callRunner attempt).result = .error code := by
            unfold ExecutionRun.callRunner
            rw [houtcome]
          rw [bind_error hcalled]
          rfl
        | output status =>
          have hcalled : (run.callRunner attempt).result = .ok status := by
            unfold ExecutionRun.callRunner
            rw [houtcome]
            rfl
          rw [bind_result_ok hcalled]
          dsimp only
          split
          · rfl
          · exact ih (attempt + 1)
        | failure code =>
          have hcalled : (run.callRunner attempt).result = .ok (statusForFailure code) := by
            unfold ExecutionRun.callRunner
            rw [houtcome]
            rfl
          rw [bind_result_ok hcalled]
          dsimp only
          split
          · rfl
          · exact ih (attempt + 1)

theorem runTimed_status (run : TimedRun) :
    run.runPersistedExecution.result = run.runTimed.2.map Terminal.status := by
  have hsplit : run.runPersistedExecution.result =
      (run.prologue.bind fun _ =>
        (run.attemptLoop run.maxAttempts 1).bind run.finalizeTerminalExecution).result := by
    unfold ExecutionRun.runPersistedExecution prologue
    cases run.initialGuard with
    | some code => rfl
    | none =>
      rw [check_none_bind, check_none_bind]
      cases hsave : run.runningSave.failure with
      | some code =>
        rw [bind_error (save_result_error hsave _), bind_error (save_result_error hsave _)]
        rfl
      | none =>
        rw [bind_result_ok (save_result_ok hsave _)]
        cases hhook : run.startedHook with
        | some code =>
          have hfailed : ((save run.runningSave .running).bind fun _ =>
              check (some code)).result = .error code := by
            rw [bind_result_ok (save_result_ok hsave _)]
            rfl
          rw [bind_error hfailed]
          rfl
        | none =>
          have hpassed : ((save run.runningSave .running).bind fun _ =>
              check none).result = .ok () := by
            rw [bind_result_ok (save_result_ok hsave _)]
            rfl
          rw [bind_result_ok hpassed, check_none_bind]
  have hloop := run.attemptLoop_result run.maxAttempts 1
  rw [hsplit]
  unfold runTimed
  cases hprologue : run.prologue.result with
  | error code =>
    rw [bind_error hprologue]
    rfl
  | ok =>
    rw [bind_result_ok hprologue]
    dsimp only
    cases hlooped : (run.timedLoop run.maxAttempts 1).2 with
    | error code =>
      rw [hlooped] at hloop
      rw [bind_error hloop]
      rfl
    | ok terminal =>
      rw [hlooped] at hloop
      rw [bind_result_ok hloop]
      dsimp only
      cases hfinal : (run.finalizeTerminalExecution terminal.status).result with
      | error code => rfl
      | ok status =>
        rw [run.finalize_ok hfinal]
        rfl

end Run

/-- Two attempts, of which the first fails; the agent is in maintenance before the second. -/
def pausedRetry : TimedRun where
  retry := { maxAttempts := 2 }
  attempt
    | 2 => { guard := some "ACTION_MAINTENANCE_MODE", outcome := .output .succeeded }
    | _ => { outcome := .failure "ACTION_EXIT_CODE_REJECTED" }
  zone := ⟨fun _ => 0, fun wall => wall⟩
  processStartedAt := 0
  stopAt_eq := rfl

/-- The refusal is reported, though the last call of the runner came to something else and no stop
time is set. -/
theorem pausedRetry_reports_refusal : ¬ ∀ run : TimedRun, ∀ before call,
    run.runTimed.1 = before ++ [call] →
      run.runTimed.2 = .ok (.called call.outcome) ∨ run.runTimed.2 = .ok .scheduledStop := by
  intro h
  have hrun := h pausedRetry [] (pausedRetry.call 1) rfl
  have hreported : pausedRetry.runTimed.2 = .error "ACTION_MAINTENANCE_MODE" := rfl
  rw [hreported] at hrun
  simp at hrun

end TimedRun

end PlugAgente.Execution
