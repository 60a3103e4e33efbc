import PlugAgente.Dart.Text
import PlugAgente.Machine.Rows
import PlugAgente.Machine.Transition

/-!
# Aborting what runs natively

`OdbcInFlightExecutionRegistry` with `OdbcInFlightExecutionAbortService` around it: the executions
that are registered for the requests, the requests whose abort is armed, the microtasks that the
registry has scheduled, and the abort calls that wait for a native cancel.

A row is one execution with its handle; `registration` tells two executions with the same ids
apart.  `credential` and `causes` are not in the code: they say who started an execution, and who
asked for the aborts that reached it.
-/

namespace PlugAgente.Cancellation

open Dart Rows

/-- `OdbcInFlightExecutionHandle`. -/
structure InFlightHandle where
  connectionId : Text
  statementId : Option Int := none
  asyncRequestId : Option Int := none
deriving DecidableEq

def InFlightHandle.hasNativeCancelTarget (handle : InFlightHandle) : Bool :=
  handle.statementId.isSome || handle.asyncRequestId.isSome

/-- What an execution is bound to. -/
inductive NativeTarget where
  | statement (id : Int)
  | asyncRequest (id : Int)

/-- `copyWith` with the target of a bind. -/
def InFlightHandle.copyWith (handle : InFlightHandle) : NativeTarget → InFlightHandle
  | .statement id => { handle with statementId := some id }
  | .asyncRequest id => { handle with asyncRequestId := some id }

/-- A registered execution of a request. -/
structure InFlightRow (κ : Type) where
  registration : Nat
  requestId : Text
  executionId : Text
  credential : κ
  handle : InFlightHandle

/-- `_abortHandles` while it waits for a native cancel: the handles that are left, and whether one
of those it saw had no target. -/
structure AbortCall (κ : Type) where
  requestId : Text
  rest : List (InFlightRow κ)
  hasPendingTarget : Bool
  causes : List κ

/-- The registry and its abort service, with the executions that were passed to the native cancel
and the connections that were marked for discard. -/
structure InFlightAborts (κ : Type) where
  active : List (InFlightRow κ) := []
  pendingAborts : Finset Text := ∅
  ownerAborts : Finset Text := ∅
  expiryTimers : Finset Text := ∅
  microtasks : List Text := []
  calls : List (AbortCall κ) := []
  cancelled : List (InFlightRow κ × List κ) := []
  discarded : List Text := []
  registrations : Nat := 0
  causes : Text → List κ := fun _ => []

/-- The id of an execution that is registered, bound or unregistered: that of its request when none
is given. -/
def effectiveExecutionId (requestId : Text) (executionId : Option Text) : Text :=
  match executionId with
  | none => requestId
  | some id => if id.isEmpty then requestId else id

namespace InFlightAborts

variable {κ : Type}

/-! ## The registry -/

def hasUnconfirmedWork (s : InFlightAborts κ) : Bool :=
  !s.active.isEmpty || decide (s.pendingAborts ≠ ∅) || decide (s.ownerAborts ≠ ∅)

def peekAll (s : InFlightAborts κ) (requestId : Text) : List (InFlightRow κ) :=
  s.active.filter fun row => row.requestId = requestId

def Armed (s : InFlightAborts κ) (requestId : Text) : Prop :=
  requestId ∈ s.pendingAborts ∨ requestId ∈ s.ownerAborts

instance (s : InFlightAborts κ) (requestId : Text) : Decidable (s.Armed requestId) :=
  inferInstanceAs (Decidable (_ ∨ _))

/-- `_notifyPendingAbort`: the listener runs in a microtask. -/
def notifyPendingAbort (s : InFlightAborts κ) (requestId : Text) : InFlightAborts κ :=
  if s.Armed requestId then { s with microtasks := s.microtasks ++ [requestId] } else s

/-- Who asked for the abort that is armed. -/
def blame (s : InFlightAborts κ) (requestId : Text) (causes : List κ) : InFlightAborts κ :=
  { s with causes := Function.update s.causes requestId (s.causes requestId ++ causes) }

/-- An abort that is not armed any more has no causes. -/
def forget (s : InFlightAborts κ) (requestId : Text) : InFlightAborts κ :=
  if s.Armed requestId then s else { s with causes := Function.update s.causes requestId [] }

/-- `markPendingAbort`, with `_armPendingAbortExpiry`.  It notifies on the first arm only. -/
def markPendingAbort (pendingAbortTtl : Nat) (s : InFlightAborts κ) (requestId : Text)
    (causes : List κ) : InFlightAborts κ :=
  if requestId.isEmpty then s
  else
    let wasPending := decide (requestId ∈ s.pendingAborts)
    let marked := { s.blame requestId causes with
      pendingAborts := insert requestId s.pendingAborts
      expiryTimers :=
        if pendingAbortTtl = 0 then s.expiryTimers.erase requestId
        else insert requestId s.expiryTimers }
    if !wasPending && !(s.peekAll requestId).isEmpty then marked.notifyPendingAbort requestId
    else marked

def clearPendingAbort (s : InFlightAborts κ) (requestId : Text) : InFlightAborts κ :=
  if requestId.isEmpty then s
  else
    { s with
      pendingAborts := s.pendingAborts.erase requestId
      expiryTimers := s.expiryTimers.erase requestId }.forget requestId

def markOwnerAbort (s : InFlightAborts κ) (requestId : Text) (causes : List κ) :
    InFlightAborts κ :=
  if requestId.isEmpty then s
  else
    let wasArmed := decide (requestId ∈ s.ownerAborts)
    let marked := { s.blame requestId causes with
      ownerAborts := insert requestId s.ownerAborts }
    if wasArmed then marked else marked.notifyPendingAbort requestId

/-- The row that a call of the registry is about. -/
def isRow (requestId : Text) (executionId : Option Text) (row : InFlightRow κ) : Bool :=
  row.requestId = requestId && row.executionId = effectiveExecutionId requestId executionId

/-- `register`: an execution with the same ids is replaced in its place. -/
def register (s : InFlightAborts κ) (requestId : Text) (handle : InFlightHandle)
    (executionId : Option Text) (credential : κ) : InFlightAborts κ :=
  if requestId.isEmpty then s
  else
    let row : InFlightRow κ :=
      ⟨s.registrations, requestId, effectiveExecutionId requestId executionId, credential, handle⟩
    { s with
      active :=
        if s.active.any (isRow requestId executionId) then
          write (isRow requestId executionId) (fun _ => row) s.active
        else s.active ++ [row]
      registrations := s.registrations + 1 }.notifyPendingAbort requestId

/-- `bindStatement` and `bindAsyncRequest`: an execution that is not registered is not bound. -/
def bindTarget (s : InFlightAborts κ) (requestId : Text) (target : NativeTarget)
    (executionId : Option Text) : InFlightAborts κ :=
  if requestId.isEmpty || !s.active.any (isRow requestId executionId) then s
  else
    { s with
      active := write (isRow requestId executionId)
        (fun row => { row with handle := row.handle.copyWith target }) s.active
      }.notifyPendingAbort requestId

/-- The last execution of a request is gone: nothing of the request is armed any more. -/
def clearOwner (s : InFlightAborts κ) (requestId : Text) : InFlightAborts κ :=
  { s with
    active := s.active.filter fun row => row.requestId ≠ requestId
    pendingAborts := s.pendingAborts.erase requestId
    expiryTimers := s.expiryTimers.erase requestId
    ownerAborts := s.ownerAborts.erase requestId
    causes := Function.update s.causes requestId [] }

/-- `unregister`.  Without an execution id, all executions of the request are. -/
def unregister (s : InFlightAborts κ) (requestId : Text) (executionId : Option Text) :
    InFlightAborts κ :=
  if requestId.isEmpty then s
  else
    match executionId with
    | none | some [] => s.clearOwner requestId
    | some id =>
      let left := s.active.filter fun row => !isRow requestId (some id) row
      -- A request without executions is not in the map, and nothing is cleared.
      if !(s.peekAll requestId).isEmpty && left.all (fun row => row.requestId ≠ requestId) then
        s.clearOwner requestId
      else { s with active := left }

/-- The timer of a pending abort fires. -/
def expire (s : InFlightAborts κ) (requestId : Text) : InFlightAborts κ :=
  { s with
    pendingAborts := s.pendingAborts.erase requestId
    expiryTimers := s.expiryTimers.erase requestId }.forget requestId

/-! ## The abort service -/

/-- The end of `_abortHandles`: the owner stays armed until its last execution is unregistered. -/
def finishAbort (pendingAbortTtl : Nat) (s : InFlightAborts κ) (requestId : Text)
    (hasPendingTarget : Bool) (causes : List κ) : InFlightAborts κ :=
  let armed := s.markOwnerAbort requestId causes
  if hasPendingTarget then armed.markPendingAbort pendingAbortTtl requestId causes
  else armed.clearPendingAbort requestId

/-- `_abortHandles` up to its next native cancel, or to its end. -/
def abortHandles (pendingAbortTtl : Nat) (requestId : Text) (causes : List κ) :
    List (InFlightRow κ) → Bool → InFlightAborts κ → InFlightAborts κ
  | [], hasPendingTarget, s => s.finishAbort pendingAbortTtl requestId hasPendingTarget causes
  | row :: rest, hasPendingTarget, s =>
    if row.handle.hasNativeCancelTarget then
      { s with
        cancelled := s.cancelled ++ [(row, causes)]
        calls := s.calls ++ [⟨requestId, rest, hasPendingTarget, causes⟩] }
    else
      abortHandles pendingAbortTtl requestId causes rest true
        { s with discarded := s.discarded ++ [row.handle.connectionId] }

/-- `abortInFlightExecution`, up to its first native cancel. -/
def abortInFlightExecution (pendingAbortTtl : Nat) (s : InFlightAborts κ) (requestId : Text)
    (armIfMissing : Bool) (cause : κ) : InFlightAborts κ :=
  if requestId.isEmpty then s
  else if (s.peekAll requestId).isEmpty then
    if armIfMissing then s.markPendingAbort pendingAbortTtl requestId [cause] else s
  else abortHandles pendingAbortTtl requestId [cause] (s.peekAll requestId) false s

/-- `_fulfillPendingAbort`, up to its first native cancel. -/
def fulfillPendingAbort (pendingAbortTtl : Nat) (s : InFlightAborts κ) (requestId : Text) :
    InFlightAborts κ :=
  if ¬ s.Armed requestId then s
  else if (s.peekAll requestId).isEmpty then s
  else
    abortHandles pendingAbortTtl requestId (s.causes requestId) (s.peekAll requestId) false s

end InFlightAborts

/-- What the executions and the aborts do, and what the event loop and the native side answer. -/
inductive AbortAction (κ : Type) where
  | register (requestId : Text) (handle : InFlightHandle) (executionId : Option Text)
    (credential : κ)
  | bindTarget (requestId : Text) (target : NativeTarget) (executionId : Option Text)
  | unregister (requestId : Text) (executionId : Option Text)
  | abort (requestId : Text) (armIfMissing : Bool) (cause : κ)
  | nativeReturned (i : Nat)
  | microtask
  | expire (requestId : Text)

namespace InFlightAborts

variable {κ : Type}

def step (pendingAbortTtl : Nat) (s : InFlightAborts κ) : AbortAction κ → Option (InFlightAborts κ)
  | .register requestId handle executionId credential =>
    some (s.register requestId handle executionId credential)
  | .bindTarget requestId target executionId => some (s.bindTarget requestId target executionId)
  | .unregister requestId executionId => some (s.unregister requestId executionId)
  | .abort requestId armIfMissing cause =>
    some (s.abortInFlightExecution pendingAbortTtl requestId armIfMissing cause)
  | .nativeReturned i =>
    s.calls[i]?.map fun call =>
      abortHandles pendingAbortTtl call.requestId call.causes call.rest call.hasPendingTarget
        { s with calls := s.calls.eraseIdx i }
  | .microtask =>
    match s.microtasks with
    | [] => none
    | requestId :: rest =>
      some ({ s with microtasks := rest }.fulfillPendingAbort pendingAbortTtl requestId)
  | .expire requestId => if requestId ∈ s.expiryTimers then some (s.expire requestId) else none

section Cases

variable {ttl : Nat} {s s' : InFlightAborts κ} {r : Text}

theorem step_abort {armIfMissing : Bool} {cause : κ}
    (h : s.step ttl (.abort r armIfMissing cause) = some s') :
    s' = s ∨ r ≠ [] ∧ ((s.peekAll r).isEmpty = true ∧ s' = s.markPendingAbort ttl r [cause] ∨
      ¬ (s.peekAll r).isEmpty = true ∧
        s' = abortHandles ttl r [cause] (s.peekAll r) false s) := by
  rw [← Option.some.inj h, abortInFlightExecution]
  split
  · exact .inl rfl
  · rename_i hr
    replace hr : r ≠ [] := by simpa using hr
    split
    · rename_i hnone
      split
      · exact .inr ⟨hr, .inl ⟨hnone, rfl⟩⟩
      · exact .inl rfl
    · rename_i hsome
      exact .inr ⟨hr, .inr ⟨hsome, rfl⟩⟩

theorem step_nativeReturned {i : Nat} (h : s.step ttl (.nativeReturned i) = some s') :
    ∃ call, s.calls[i]? = some call ∧ s' = abortHandles ttl call.requestId call.causes call.rest
      call.hasPendingTarget { s with calls := s.calls.eraseIdx i } := by
  simp only [step, Option.map_eq_some_iff] at h
  obtain ⟨call, hcall, hs⟩ := h
  exact ⟨call, hcall, hs.symm⟩

theorem step_microtask (h : s.step ttl .microtask = some s') :
    ∃ r queue, s.microtasks = r :: queue ∧
      ((s.Armed r → (s.peekAll r).isEmpty = true) ∧ s' = { s with microtasks := queue } ∨
      s.Armed r ∧ ¬ (s.peekAll r).isEmpty = true ∧
        s' = abortHandles ttl r (s.causes r) (s.peekAll r) false
          { s with microtasks := queue }) := by
  simp only [step] at h
  split at h
  · cases h
  · rename_i r queue hqueue
    refine ⟨r, queue, hqueue, ?_⟩
    rw [← Option.some.inj h, fulfillPendingAbort]
    split
    · rename_i hdisarmed
      exact .inl ⟨fun harmed => absurd harmed hdisarmed, rfl⟩
    · rename_i harmed
      split
      · rename_i hnone
        exact .inl ⟨fun _ => hnone, rfl⟩
      · rename_i hsome
        exact .inr ⟨not_not.mp harmed, hsome, rfl⟩

theorem step_expire (h : s.step ttl (.expire r) = some s') : s' = s.expire r := by
  simp only [step] at h
  split at h
  · exact (Option.some.inj h).symm
  · cases h

end Cases

end InFlightAborts

/-- The registry and its abort service, from the start of the agent on. -/
def abortMachine (κ : Type) (pendingAbortTtl : Nat) :
    Machine (InFlightAborts κ) (AbortAction κ) where
  start s := s = {}
  step := InFlightAborts.step pendingAbortTtl

end PlugAgente.Cancellation
