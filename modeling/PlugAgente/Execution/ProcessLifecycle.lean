import PlugAgente.Execution.SaveExecution
import PlugAgente.Machine.Ledger

/-!
# The life of a local process

One call of `AgentActionProcessLifecycle.execute` with the calls of `cancel` for its execution.  The
maps of the lifecycle are keyed by the execution, so the model holds the entries of one execution:
`registered` for `_activeProcessesByExecutionId` and `killedEntry` for `_killedExecutionIds`.

`execute` is a coroutine.  Its `finally` takes both entries out before its first await, so the code
behind the last await of the body computes the status and takes them out in one turn (`leave`).
`cancel` awaits the termination of the process before it records that the execution was killed, and
the turns of the two calls may come in any order.
-/

namespace PlugAgente.Execution

/-- What `execute` reads from the definition and from its own collaborators. -/
structure ProcessPolicy where
  killMainProcessOnTimeout : Bool
  /-- `exitCode.isAccepted`. -/
  isAccepted : Int → Bool
  /-- There is an observer of live processes. -/
  observed : Bool

/-- What `execute` returns. -/
inductive ExecuteResult where
  | success (status : AgentActionExecutionStatus)
  | failure
  /-- It throws something that is no exception. -/
  | thrown
  deriving DecidableEq, Repr

/-- The await at which `execute` stands. -/
inductive ExecutePhase where
  | notCalled
  | starting
  | attaching
  /-- The observer records the process. -/
  | recording
  | configuringStdin
  /-- `_abortStartedProcess`. -/
  | aborting
  | awaitingExit
  /-- The deadline has passed, and the process tree is being terminated. -/
  | terminatingOnTimeout
  /-- The deadline has passed, and the process goes on. -/
  | awaitingLateExit
  | drainingStdout (exitCode : Option Int)
  | drainingStderr (exitCode : Option Int)
  /-- The captures are being cancelled. -/
  | closingOutputs (result : ExecuteResult)
  | releasing (result : ExecuteResult)
  | returned (result : ExecuteResult)
  deriving DecidableEq, Repr

/-- A call of `cancel`. -/
inductive CancelCall where
  /-- It awaits the termination of the process tree. -/
  | terminating
  /-- `Success`, with `killed: true`. -/
  | succeeded
  | failed
  | thrown
  deriving DecidableEq, Repr

structure ProcessRun where
  phase : ExecutePhase := .notCalled
  registered : Bool := false
  killedEntry : Bool := false
  timedOut : Bool := false
  killed : Bool := false
  /-- `processTreeLease` is set. -/
  leased : Bool := false
  /-- The calls of `release` for the lease. -/
  releases : Nat := 0
  cancels : List CancelCall := []
  deriving DecidableEq, Repr

/-- How the cancellation of the captures ends. -/
inductive CleanupOutcome where
  | done
  | exception
  | error
  deriving DecidableEq, Repr

/-- The result after the cancellation of the captures: `cleanupResult` comes before a result, and
what is thrown before both. -/
def ExecuteResult.afterCleanup (result : ExecuteResult) : CleanupOutcome → ExecuteResult
  | .done => result
  | .exception => if result = .thrown then .thrown else .failure
  | .error => .thrown

inductive ProcessEvent where
  | execute
  | started
  /-- The start fails or times out. -/
  | startFailed
  | attached (ok : Bool)
  | recorded (ok : Bool)
  /-- The stdin is set up; `expired` says that no time remains. -/
  | stdinConfigured (ok expired : Bool)
  | aborted
  | exited (exitCode : Int)
  | deadline
  | terminatedOnTimeout (killed : Bool)
  | stdoutDrained
  | stderrDrained
  /-- The code of the body throws behind one of its awaits. -/
  | threw (isException : Bool)
  | outputsClosed (outcome : CleanupOutcome)
  | released (ok : Bool)
  | releaseThrew
  /-- A call of `cancel`, and whether the kill guard lets it through. -/
  | cancel (guarded : Bool)
  /-- The termination that a call of `cancel` awaits ends; without it the main process is killed. -/
  | terminated (call : Nat) (terminated mainKilled : Bool)
  | terminationThrew (call : Nat)
  deriving DecidableEq, Repr

/-- The process is attached and the body of `execute` has not ended. -/
def ExecutePhase.isActive : ExecutePhase → Bool
  | .recording | .configuringStdin | .aborting | .awaitingExit | .terminatingOnTimeout => true
  | .awaitingLateExit | .drainingStdout _ | .drainingStderr _ => true
  | _ => false

/-- The body of `execute` has ended. -/
def ExecutePhase.hasLeft : ExecutePhase → Bool
  | .closingOutputs _ | .releasing _ | .returned _ => true
  | _ => false

/-- What `execute` is about to return. -/
def ExecutePhase.result? : ExecutePhase → Option ExecuteResult
  | .closingOutputs result | .releasing result | .returned result => some result
  | _ => none

/-- It ends the body of `execute`. -/
def ProcessEvent.endsBody : ProcessEvent → Bool
  | .startFailed | .attached false | .recorded false | .aborted | .stderrDrained => true
  | .threw _ => true
  | _ => false

namespace ProcessRun

def statusFor (policy : ProcessPolicy) (s : ProcessRun) (exitCode : Option Int) :
    AgentActionExecutionStatus :=
  if s.timedOut && policy.killMainProcessOnTimeout then .timedOut
  else if s.killed || s.killedEntry then .killed
  else if s.timedOut then .failed
  else
    match exitCode with
    | none => .unknown
    | some code => if policy.isAccepted code then .succeeded else .failed

/-- The `finally` of the body, up to its first await. -/
def leave (s : ProcessRun) (result : ExecuteResult) : ProcessRun :=
  { s with
    registered := false
    killedEntry := false
    phase := .closingOutputs result }

/-- The events of `execute`. -/
def executeStep (policy : ProcessPolicy) (s : ProcessRun) (e : ProcessEvent) :
    Option ProcessRun :=
  match s.phase, e with
  | .notCalled, .execute => some { s with phase := .starting }
  | .starting, .started => some { s with phase := .attaching }
  | .starting, .startFailed => some (s.leave .failure)
  | .attaching, .attached true =>
    some { s with
      leased := true
      registered := true
      phase := if policy.observed then .recording else .configuringStdin }
  | .attaching, .attached false => some (s.leave .failure)
  | .recording, .recorded true => some { s with phase := .configuringStdin }
  | .recording, .recorded false => some (s.leave .failure)
  | .configuringStdin, .stdinConfigured true expired =>
    some { s with timedOut := expired, phase := .awaitingExit }
  | .configuringStdin, .stdinConfigured false _ => some { s with phase := .aborting }
  | .aborting, .aborted => some (s.leave .failure)
  | .awaitingExit, .exited exitCode => some { s with phase := .drainingStdout (some exitCode) }
  | .awaitingExit, .deadline =>
    some { s with
      timedOut := true
      phase := if policy.killMainProcessOnTimeout then .terminatingOnTimeout
        else .awaitingLateExit }
  | .terminatingOnTimeout, .terminatedOnTimeout killed =>
    some { s with
      killed := killed
      killedEntry := killed || s.killedEntry
      phase := .drainingStdout none }
  | .awaitingLateExit, .exited exitCode =>
    some { s with phase := .drainingStdout (some exitCode) }
  | .drainingStdout exitCode, .stdoutDrained => some { s with phase := .drainingStderr exitCode }
  | .drainingStderr exitCode, .stderrDrained =>
    some (s.leave (.success (s.statusFor policy exitCode)))
  | .closingOutputs result, .outputsClosed outcome =>
    if s.leased then
      some { s with releases := s.releases + 1, phase := .releasing (result.afterCleanup outcome) }
    else some { s with phase := .returned (result.afterCleanup outcome) }
  | .releasing result, .released ok =>
    some { s with phase := .returned (if ok || result = .thrown then result else .failure) }
  | .releasing _, .releaseThrew => some { s with phase := .returned .thrown }
  | phase, .threw isException =>
    if phase.isActive || phase = .starting || phase = .attaching then
      some (s.leave (if isException then .failure else .thrown))
    else none
  | _, _ => none

/-- `cancel`, up to its await. -/
def cancel (s : ProcessRun) (guarded : Bool) : ProcessRun :=
  { s with cancels := s.cancels ++
      [if s.registered && guarded then CancelCall.terminating else CancelCall.failed] }

/-- `cancel` behind its await. -/
def terminated (s : ProcessRun) (k : Nat) (terminated mainKilled : Bool) : Option ProcessRun :=
  if s.cancels[k]? = some .terminating then
    if terminated || mainKilled then
      some { s with killedEntry := true, cancels := s.cancels.set k .succeeded }
    else some { s with cancels := s.cancels.set k .failed }
  else none

end ProcessRun

open ProcessRun

/-- One execution with its cancellations. -/
def processRun (policy : ProcessPolicy) : Machine ProcessRun ProcessEvent where
  start s := s = {}
  step s
    | .cancel guarded => some (s.cancel guarded)
    | .terminated k terminated mainKilled => s.terminated k terminated mainKilled
    | .terminationThrew k =>
      if s.cancels[k]? = some .terminating then
        some { s with cancels := s.cancels.set k .thrown }
      else none
    | e => s.executeStep policy e

namespace ProcessRun

variable {policy : ProcessPolicy} {s s' : ProcessRun} {e : ProcessEvent}

/-! ## What an event does -/

/-- The steps of `execute`, by what they change. -/
inductive Moves (policy : ProcessPolicy) (s : ProcessRun) (e : ProcessEvent) :
    ProcessRun → Prop where
  /-- Nothing is attached yet. -/
  | approach (phase : ExecutePhase) (hold : s.phase.isActive = false ∧ s.phase.hasLeft = false)
      (hnew : phase.isActive = false ∧ phase.hasLeft = false) :
      Moves policy s e { s with phase := phase }
  | attach (phase : ExecutePhase) (hold : s.phase = .attaching) (hnew : phase.isActive = true) :
      Moves policy s e { s with leased := true, registered := true, phase := phase }
  /-- The body goes on. -/
  | advance (phase : ExecutePhase) (timedOut killed : Bool) (entry : Bool)
      (hold : s.phase.isActive = true) (hnew : phase.isActive = true)
      (hentry : s.killedEntry = true → entry = true) :
      Moves policy s e
        { s with phase := phase, timedOut := timedOut, killed := killed, killedEntry := entry }
  | leave (result : ExecuteResult) (hends : e.endsBody = true) (hold : s.phase.hasLeft = false)
      (hresult : ∀ status, result = .success status → s.phase.isActive = true ∧
        ∃ exitCode, status = s.statusFor policy exitCode) :
      Moves policy s e (s.leave result)
  | release (before after : ExecuteResult) (hold : s.phase = .closingOutputs before)
      (hleased : s.leased = true) (hkept : ∀ status, after = .success status → before = after) :
      Moves policy s e { s with releases := s.releases + 1, phase := .releasing after }
  | returnUnleased (before after : ExecuteResult) (hold : s.phase = .closingOutputs before)
      (hleased : s.leased = false) (hkept : ∀ status, after = .success status → before = after) :
      Moves policy s e { s with phase := .returned after }
  | returnLeased (before after : ExecuteResult) (hold : s.phase = .releasing before)
      (hkept : ∀ status, after = .success status → before = after) :
      Moves policy s e { s with phase := .returned after }

theorem executeStep_moves (h : s.executeStep policy e = some s') : Moves policy s e s' := by
  unfold executeStep at h
  split at h
  case h_1 hphase =>
    rw [← Option.some.inj h]
    exact .approach .starting (by rw [hphase]; decide) (by decide)
  case h_2 hphase =>
    rw [← Option.some.inj h]
    exact .approach .attaching (by rw [hphase]; decide) (by decide)
  case h_3 hphase =>
    rw [← Option.some.inj h]
    exact .leave .failure rfl (by rw [hphase]; rfl) (by simp)
  case h_4 hphase =>
    rw [← Option.some.inj h]
    exact .attach _ hphase (by split <;> rfl)
  case h_5 hphase =>
    rw [← Option.some.inj h]
    exact .leave .failure rfl (by rw [hphase]; rfl) (by simp)
  case h_6 hphase =>
    rw [← Option.some.inj h]
    exact .advance _ s.timedOut s.killed s.killedEntry (by rw [hphase]; rfl) rfl id
  case h_7 hphase =>
    rw [← Option.some.inj h]
    exact .leave .failure rfl (by rw [hphase]; rfl) (by simp)
  case h_8 expired hphase =>
    rw [← Option.some.inj h]
    exact .advance _ expired s.killed s.killedEntry (by rw [hphase]; rfl) rfl id
  case h_9 expired hphase =>
    rw [← Option.some.inj h]
    exact .advance _ s.timedOut s.killed s.killedEntry (by rw [hphase]; rfl) rfl id
  case h_10 hphase =>
    rw [← Option.some.inj h]
    exact .leave .failure rfl (by rw [hphase]; rfl) (by simp)
  case h_11 exitCode hphase =>
    rw [← Option.some.inj h]
    exact .advance _ s.timedOut s.killed s.killedEntry (by rw [hphase]; rfl) rfl id
  case h_12 hphase =>
    rw [← Option.some.inj h]
    exact .advance _ true s.killed s.killedEntry (by rw [hphase]; rfl) (by split <;> rfl) id
  case h_13 killed hphase =>
    rw [← Option.some.inj h]
    exact .advance _ s.timedOut killed (killed || s.killedEntry) (by rw [hphase]; rfl) rfl
      fun hentry => by rw [hentry, Bool.or_true]
  case h_14 exitCode hphase =>
    rw [← Option.some.inj h]
    exact .advance _ s.timedOut s.killed s.killedEntry (by rw [hphase]; rfl) rfl id
  case h_15 exitCode hphase =>
    rw [← Option.some.inj h]
    exact .advance _ s.timedOut s.killed s.killedEntry (by rw [hphase]; rfl) rfl id
  case h_16 exitCode hphase =>
    rw [← Option.some.inj h]
    refine .leave _ rfl (by rw [hphase]; rfl) ?_
    rintro status ⟨⟩
    exact ⟨by rw [hphase]; rfl, exitCode, rfl⟩
  case h_17 result outcome hphase =>
    have hkept : ∀ status, result.afterCleanup outcome = .success status →
        result = result.afterCleanup outcome := by
      intro status hstatus
      cases outcome with
      | done => rfl
      | exception =>
        change (if result = .thrown then ExecuteResult.thrown else .failure) =
          ExecuteResult.success status at hstatus
        split at hstatus <;> cases hstatus
      | error => cases hstatus
    split at h <;> rw [← Option.some.inj h]
    · exact .release result _ hphase ‹_› hkept
    · exact .returnUnleased result _ hphase (Bool.not_eq_true _ ▸ ‹_›) hkept
  case h_18 result ok hphase =>
    rw [← Option.some.inj h]
    refine .returnLeased result _ hphase fun status hstatus => ?_
    split at hstatus
    · rw [if_pos ‹_›]
    · cases hstatus
  case h_19 result hphase =>
    rw [← Option.some.inj h]
    exact .returnLeased result _ hphase (by simp)
  case h_20 isException =>
    by_cases hbody : (s.phase.isActive || decide (s.phase = .starting) ||
        decide (s.phase = .attaching)) = true
    case neg =>
      rw [if_neg hbody] at h
      cases h
    rw [if_pos hbody] at h
    rw [← Option.some.inj h]
    refine .leave _ rfl ?_ (by split <;> simp)
    simp only [Bool.or_eq_true, decide_eq_true_eq] at hbody
    rcases hbody with (hactive | hphase) | hphase
    · cases hphase : s.phase <;> rw [hphase] at hactive <;> first | rfl | cases hactive
    · rw [hphase]
      rfl
    · rw [hphase]
      rfl
  case h_21 => cases h

/-- A step is one of `execute` or of a call of `cancel`. -/
inductive Steps (policy : ProcessPolicy) (s : ProcessRun) (e : ProcessEvent) :
    ProcessRun → Prop where
  | execute {s' : ProcessRun} (hmoves : Moves policy s e s') : Steps policy s e s'
  | cancel (guarded : Bool) : Steps policy s e (s.cancel guarded)
  | succeed (k : Nat) (hcall : s.cancels[k]? = some .terminating) :
      Steps policy s e { s with killedEntry := true, cancels := s.cancels.set k .succeeded }
  | fail (k : Nat) (call : CancelCall) (hcall : s.cancels[k]? = some .terminating)
      (hnew : call = .failed ∨ call = .thrown) :
      Steps policy s e { s with cancels := s.cancels.set k call }

theorem step_cases (h : (processRun policy).step s e = some s') : Steps policy s e s' := by
  unfold processRun at h
  dsimp only at h
  split at h
  · rw [← Option.some.inj h]
    exact .cancel _
  · rename_i k terminated mainKilled
    unfold ProcessRun.terminated at h
    split_ifs at h with hcall hkilled
    · rw [← Option.some.inj h]
      exact .succeed k hcall
    · rw [← Option.some.inj h]
      exact .fail k _ hcall (.inl rfl)
  · split_ifs at h with hcall
    rw [← Option.some.inj h]
    exact .fail _ _ hcall (.inr rfl)
  · exact .execute (executeStep_moves h)

/-! ## The lease -/

/-- The lease is released once, in the last part of `execute`. -/
structure Leased (s : ProcessRun) : Prop where
  body : s.phase.hasLeft = false → s.releases = 0
  closing : ∀ result, s.phase = .closingOutputs result → s.releases = 0
  releasing : ∀ result, s.phase = .releasing result → s.leased = true ∧ s.releases = 1
  returned : ∀ result, s.phase = .returned result → s.releases = if s.leased then 1 else 0

theorem hasLeft_of_isActive {phase : ExecutePhase} (h : phase.isActive = true) :
    phase.hasLeft = false := by
  cases phase <;> first | rfl | cases h

theorem Leased.moves (h : s.Leased) (hmoves : Moves policy s e s') : s'.Leased := by
  cases hmoves with
  | approach phase hold hnew =>
    refine ⟨fun _ => h.body hold.2, ?_, ?_, ?_⟩ <;>
    · intro result hphase
      rw [show phase = _ from hphase] at hnew
      cases hnew.2
  | attach phase hold hnew =>
    have hleft := hasLeft_of_isActive hnew
    refine ⟨fun _ => h.body (by rw [hold]; rfl), ?_, ?_, ?_⟩ <;>
    · intro result hphase
      rw [show phase = _ from hphase] at hleft
      cases hleft
  | advance phase timedOut killed entry hold hnew hentry =>
    have hleft := hasLeft_of_isActive hnew
    refine ⟨fun _ => h.body (hasLeft_of_isActive hold), ?_, ?_, ?_⟩ <;>
    · intro result hphase
      rw [show phase = _ from hphase] at hleft
      cases hleft
  | leave result hends hold hresult =>
    exact ⟨fun hleft => (nomatch hleft), fun _ _ => h.body hold, fun _ hphase => (nomatch hphase),
      fun _ hphase => (nomatch hphase)⟩
  | release before after hold hleased hkept =>
    refine ⟨fun hleft => (nomatch hleft), fun _ hphase => (nomatch hphase), fun _ _ => ?_,
      fun _ hphase => (nomatch hphase)⟩
    show s.leased = true ∧ s.releases + 1 = 1
    rw [h.closing before hold]
    exact ⟨hleased, rfl⟩
  | returnUnleased before after hold hleased hkept =>
    refine ⟨fun hleft => (nomatch hleft), fun _ hphase => (nomatch hphase),
      fun _ hphase => (nomatch hphase), fun _ _ => ?_⟩
    show s.releases = if s.leased then 1 else 0
    rw [h.closing before hold, hleased]
    rfl
  | returnLeased before after hold hkept =>
    refine ⟨fun hleft => (nomatch hleft), fun _ hphase => (nomatch hphase),
      fun _ hphase => (nomatch hphase), fun _ _ => ?_⟩
    obtain ⟨hleased, hone⟩ := h.releasing before hold
    show s.releases = if s.leased then 1 else 0
    rw [hone, hleased]
    rfl

theorem leased_of_reachable (h : (processRun policy).Reachable s) : s.Leased := by
  refine Machine.Reach.invariant (I := Leased) ?_ ?_ h
  · rintro s rfl
    exact ⟨fun _ => rfl, fun _ hphase => (nomatch hphase), fun _ hphase => (nomatch hphase),
      fun _ hphase => (nomatch hphase)⟩
  · intro s e s' hs _ hstep
    cases step_cases hstep with
    | execute hmoves => exact hs.moves hmoves
    | cancel guarded => exact ⟨hs.body, hs.closing, hs.releasing, hs.returned⟩
    | succeed k hcall => exact ⟨hs.body, hs.closing, hs.releasing, hs.returned⟩
    | fail k call hcall hnew => exact ⟨hs.body, hs.closing, hs.releasing, hs.returned⟩

/-! ## Cancellations -/

/-- The body of `execute` does not end while a call of `cancel` awaits the termination. -/
def Settled (s : ProcessRun) (e : ProcessEvent) : Prop :=
  e.endsBody = true → CancelCall.terminating ∉ s.cancels

/-- A successful cancellation is recorded until the status is computed. -/
structure Recorded (s : ProcessRun) : Prop where
  before : s.phase.isActive = false → s.registered = false ∧ s.killedEntry = false ∧
    CancelCall.terminating ∉ s.cancels
  early : s.phase.isActive = false → s.phase.hasLeft = false → CancelCall.succeeded ∉ s.cancels
  killed : s.phase.isActive = true → CancelCall.succeeded ∈ s.cancels → s.killedEntry = true
  status : ∀ status, s.phase.result? = some (.success status) →
    CancelCall.succeeded ∈ s.cancels → status = .killed ∨ status = .timedOut

theorem statusFor_of_killedEntry (h : s.killedEntry = true) (exitCode : Option Int) :
    s.statusFor policy exitCode = .killed ∨ s.statusFor policy exitCode = .timedOut := by
  unfold statusFor
  rw [h, Bool.or_true, if_pos rfl]
  split
  · exact .inr rfl
  · exact .inl rfl

theorem result?_of_not_hasLeft {phase : ExecutePhase} (h : phase.hasLeft = false) :
    phase.result? = none := by
  cases phase <;> first | rfl | cases h

theorem Recorded.after (h : s.Recorded) (hleft : s.phase.hasLeft = true) (releases : Nat)
    {phase : ExecutePhase} (hphase : phase.hasLeft = true)
    (hresult : ∀ status, phase.result? = some (.success status) →
      s.phase.result? = some (.success status)) :
    Recorded { s with releases := releases, phase := phase } := by
  have hidle : ∀ {phase : ExecutePhase}, phase.hasLeft = true → phase.isActive = false := by
    intro phase hphase
    cases phase <;> first | rfl | cases hphase
  refine ⟨fun _ => h.before (hidle hleft), fun _ hno => ?_, fun hactive => ?_,
    fun status hstatus => h.status status (hresult status hstatus)⟩
  · rw [show phase.hasLeft = false from hno] at hphase
    cases hphase
  · have hno := hidle hphase
    rw [show phase.isActive = true from hactive] at hno
    cases hno

theorem Recorded.moves (h : s.Recorded) (hsettled : s.Settled e) (hmoves : Moves policy s e s') :
    s'.Recorded := by
  -- A phase that is not left has no result, and an active one is not idle.
  have hunfinished : ∀ {phase : ExecutePhase}, phase.hasLeft = false → ∀ {result},
      phase.result? = some result → False := by
    intro phase hin result hresult
    rw [result?_of_not_hasLeft hin] at hresult
    cases hresult
  have hbusy : ∀ {phase : ExecutePhase}, phase.isActive = true → phase.isActive = false → False := by
    intro phase hactive hno
    rw [hno] at hactive
    cases hactive
  cases hmoves with
  | approach phase hold hnew =>
    exact ⟨fun _ => h.before hold.1, fun _ _ => h.early hold.1 hold.2,
      fun hactive => (hbusy hactive hnew.1).elim,
      fun _ hresult => (hunfinished hnew.2 hresult).elim⟩
  | attach phase hold hnew =>
    have hidle : s.phase.isActive = false := by rw [hold]; rfl
    have hin : s.phase.hasLeft = false := by rw [hold]; rfl
    exact ⟨fun hno => (hbusy hnew hno).elim, fun hno => (hbusy hnew hno).elim,
      fun _ hmem => absurd hmem (h.early hidle hin),
      fun _ hresult => (hunfinished (hasLeft_of_isActive hnew) hresult).elim⟩
  | advance phase timedOut killed entry hold hnew hentry =>
    exact ⟨fun hno => (hbusy hnew hno).elim, fun hno => (hbusy hnew hno).elim,
      fun _ hmem => hentry (h.killed hold hmem),
      fun _ hresult => (hunfinished (hasLeft_of_isActive hnew) hresult).elim⟩
  | leave result hends hold hresult =>
    refine ⟨fun _ => ⟨rfl, rfl, hsettled hends⟩, fun _ hleft => (nomatch hleft),
      fun hactive => (nomatch hactive), ?_⟩
    intro status hstatus hmem
    obtain ⟨hactive, exitCode, hcomputed⟩ := hresult status (Option.some.inj hstatus)
    rw [hcomputed]
    exact statusFor_of_killedEntry (h.killed hactive hmem) exitCode
  | release before after hold hleased hkept =>
    refine h.after (by rw [hold]; rfl) _ rfl fun status hstatus => ?_
    rw [hold, hkept status (Option.some.inj hstatus)]
    exact hstatus
  | returnUnleased before after hold hleased hkept =>
    refine h.after (by rw [hold]; rfl) s.releases rfl fun status hstatus => ?_
    rw [hold, hkept status (Option.some.inj hstatus)]
    exact hstatus
  | returnLeased before after hold hkept =>
    refine h.after (by rw [hold]; rfl) s.releases rfl fun status hstatus => ?_
    rw [hold, hkept status (Option.some.inj hstatus)]
    exact hstatus

theorem Recorded.fail {k : Nat} {call : CancelCall} (h : s.Recorded)
    (hnew : call = .failed ∨ call = .thrown) :
    Recorded { s with cancels := s.cancels.set k call } := by
  have hback : ∀ c ∈ s.cancels.set k call, c = .terminating ∨ c = .succeeded → c ∈ s.cancels := by
    intro c hc hkind
    rcases List.mem_or_eq_of_mem_set hc with hold | rfl
    · exact hold
    · rcases hnew with rfl | rfl <;> simp at hkind
  refine ⟨fun hidle => ?_, fun hidle hleft hmem => ?_, fun hactive hmem => ?_,
    fun status hstatus hmem => ?_⟩
  · obtain ⟨hregistered, hentry, hnone⟩ := h.before hidle
    exact ⟨hregistered, hentry, fun hmem => hnone (hback _ hmem (.inl rfl))⟩
  · exact h.early hidle hleft (hback _ hmem (.inr rfl))
  · exact h.killed hactive (hback _ hmem (.inr rfl))
  · exact h.status status hstatus (hback _ hmem (.inr rfl))

theorem Recorded.isActive {k : Nat} (h : s.Recorded) (hcall : s.cancels[k]? = some .terminating) :
    s.phase.isActive = true := by
  by_contra hidle
  rw [Bool.not_eq_true] at hidle
  exact (h.before hidle).2.2 (List.mem_of_getElem? hcall)

theorem Recorded.succeed {k : Nat} (h : s.Recorded) (hcall : s.cancels[k]? = some .terminating) :
    Recorded { s with killedEntry := true, cancels := s.cancels.set k .succeeded } := by
  have hactive := h.isActive hcall
  refine ⟨fun hidle => ?_, fun hidle => ?_, fun _ _ => rfl, fun status hstatus => ?_⟩
  · rw [show s.phase.isActive = false from hidle] at hactive
    cases hactive
  · rw [show s.phase.isActive = false from hidle] at hactive
    cases hactive
  · have hnone := result?_of_not_hasLeft (hasLeft_of_isActive hactive)
    rw [show s.phase.result? = _ from hstatus] at hnone
    cases hnone

theorem Recorded.cancel (h : s.Recorded) (guarded : Bool) : (s.cancel guarded).Recorded := by
  have hsucceeded : CancelCall.succeeded ∈ (s.cancel guarded).cancels →
      CancelCall.succeeded ∈ s.cancels := by
    intro hmem
    rcases List.mem_append.mp hmem with hold | hnew
    · exact hold
    · rw [List.mem_singleton] at hnew
      split at hnew <;> cases hnew
  refine ⟨fun hidle => ?_, fun hidle hleft hmem => h.early hidle hleft (hsucceeded hmem),
    fun hactive hmem => h.killed hactive (hsucceeded hmem),
    fun status hstatus hmem => h.status status hstatus (hsucceeded hmem)⟩
  obtain ⟨hregistered, hentry, hnone⟩ := h.before hidle
  refine ⟨hregistered, hentry, fun hmem => ?_⟩
  rcases List.mem_append.mp hmem with hold | hnew
  · exact hnone hold
  · rw [hregistered, List.mem_singleton] at hnew
    cases hnew

theorem recorded_of_reach (h : (processRun policy).Reach Settled s) : s.Recorded := by
  refine Machine.Reach.invariant (I := Recorded) ?_ ?_ h
  · rintro s rfl
    exact ⟨fun _ => ⟨rfl, rfl, List.not_mem_nil⟩, fun _ _ => List.not_mem_nil,
      fun hactive => (nomatch hactive), fun _ hstatus => (nomatch hstatus)⟩
  · intro s e s' hs hsettled hstep
    cases step_cases hstep with
    | execute hmoves => exact hs.moves hsettled hmoves
    | cancel guarded => exact hs.cancel guarded
    | succeed k hcall => exact hs.succeed hcall
    | fail k call hcall hnew => exact hs.fail hnew

/-! ## Every run -/

/-- A cancellation that succeeded is reported, and no entry remains. -/
structure Reported (s : ProcessRun) : Prop where
  status : ∀ status, s.phase = .returned (.success status) → CancelCall.succeeded ∈ s.cancels →
    status = .killed ∨ status = .timedOut
  entries : ∀ result, s.phase = .returned result → s.registered = false ∧ s.killedEntry = false

/-- In every run in which the body of `execute` does not end while a call of `cancel` awaits the
termination, a cancellation that succeeded is reported and no entry remains.  The lease is released
once in every run.  A call that comes back behind the body leaves its entry. -/
theorem cancellation_reported (policy : ProcessPolicy) (s : ProcessRun) :
    ((processRun policy).Reach Settled s → s.Reported) ∧
      ((processRun policy).Reachable s →
        s.releases ≤ 1 ∧ ∀ result, s.phase = .returned result →
          s.releases = if s.leased then 1 else 0) ∧
      ∀ k, s.phase.hasLeft = true → s.cancels[k]? = some .terminating →
        ∃ s', (processRun policy).step s (.terminated k true false) = some s' ∧
          s'.phase = s.phase ∧ s'.killedEntry = true ∧ CancelCall.succeeded ∈ s'.cancels := by
  refine ⟨fun h => ?_, fun h => ?_, fun k hleft hcall => ?_⟩
  · have hrecorded := recorded_of_reach h
    refine ⟨fun status hphase hmem => hrecorded.status status (by rw [hphase]; rfl) hmem, ?_⟩
    intro result hphase
    obtain ⟨hregistered, hentry, -⟩ := hrecorded.before (by rw [hphase]; rfl)
    exact ⟨hregistered, hentry⟩
  · have hleased := leased_of_reachable h
    refine ⟨?_, hleased.returned⟩
    by_cases hleft : s.phase.hasLeft = false
    · rw [hleased.body hleft]
      omega
    · cases hphase : s.phase with
      | closingOutputs result => rw [hleased.closing result hphase]; omega
      | releasing result => rw [(hleased.releasing result hphase).2]
      | returned result =>
        rw [hleased.returned result hphase]
        split <;> omega
      | _ => rw [hphase] at hleft; exact absurd rfl hleft
  · refine ⟨{ s with killedEntry := true, cancels := s.cancels.set k .succeeded }, ?_, rfl, rfl, ?_⟩
    · show s.terminated k true false = _
      unfold terminated
      rw [if_pos hcall]
      rfl
    · exact List.mem_set (List.getElem?_eq_some_iff.mp hcall).1 _

/-- Accepts the exit code 0, and kills at the deadline. -/
def zeroAccepted : ProcessPolicy where
  killMainProcessOnTimeout := true
  isAccepted code := code = 0
  observed := false

/-- The process is cancelled while it runs. -/
def cancelledInTime : List ProcessEvent :=
  [.execute, .started, .attached true, .stdinConfigured true false, .cancel true,
    .terminated 0 true false, .exited 1, .stdoutDrained, .stderrDrained, .outputsClosed .done,
    .released true]

/-- The process exits with 1 and the outputs are drained before the termination comes back. -/
def cancelledLate (exitCode : Int) : List ProcessEvent :=
  [.execute, .started, .attached true, .stdinConfigured true false, .cancel true,
    .exited exitCode, .stdoutDrained, .stderrDrained, .terminated 0 true false,
    .outputsClosed .done, .released true]

/-- A cancellation in time is reported. -/
theorem cancellation_reported_in_time :
    ∃ s, (processRun zeroAccepted).run {} cancelledInTime = some s ∧
      s.phase = .returned (.success .killed) ∧ s.Reported ∧ s.releases = 1 := by
  refine ⟨_, rfl, rfl, ?_, rfl⟩
  have hstart : (processRun zeroAccepted).Reach Settled {} := .start rfl
  refine (cancellation_reported zeroAccepted _).1 (hstart.of_run cancelledInTime ?_ rfl)
  refine ⟨?_, ?_, ?_, ?_, ?_, ?_, ?_, ?_, ?_, ?_, ?_, trivial⟩
  all_goals intro hends; first | decide | cases hends

/-- The call of `cancel` succeeds, `execute` reports success or a failure of the process, and the
entry of the killed execution stays. -/
theorem cancellation_lost :
    (∃ s, (processRun zeroAccepted).run {} (cancelledLate 0) = some s ∧
      s.cancels = [.succeeded] ∧ s.phase = .returned (.success .succeeded) ∧
      s.killedEntry = true) ∧
    ∃ s, (processRun zeroAccepted).run {} (cancelledLate 1) = some s ∧
      s.cancels = [.succeeded] ∧ s.phase = .returned (.success .failed) ∧ ¬ s.Reported := by
  refine ⟨⟨_, rfl, rfl, rfl, rfl⟩, _, rfl, rfl, rfl, fun h => ?_⟩
  exact absurd (h.entries _ rfl).2 (by decide)

end ProcessRun

end PlugAgente.Execution
