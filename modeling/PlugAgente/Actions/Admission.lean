import PlugAgente.Actions.QueueInvariant

/-!
# The dry run of an admission

`validateRemoteAdmission` repeats the decision of `enqueue` without making a call.
`validateRemoteAdmission_agrees` says that it comes to the same: it succeeds exactly when the call
that `enqueue` would make is started or waits, and otherwise fails as that call would.
-/

namespace PlugAgente.Actions

open Ledger

namespace ActionExecutionQueue

/-! ## The dry run -/

def validateEnqueueHeadroom (s : ActionExecutionQueue) (actionId : String) (maxQueued : Nat) :
    Except FailureCode Unit :=
  if maxQueued ≤ (s.pendingByActionId actionId).length then .error .queueFull else .ok ()

/-- `validateRemoteAdmission`, with the queue that it leaves. -/
def validateRemoteAdmission (s : ActionExecutionQueue) (actionId : String)
    (policy : AgentActionQueuePolicy) (allowsInternalWork : Bool) :
    ActionExecutionQueue × Except FailureCode Unit :=
  match s.disposedFailure actionId allowsInternalWork with
  | some code => (s, .error code)
  | none =>
    if policy.concurrencyBehavior = .allowParallel || s.canRunNow actionId policy then (s, .ok ())
    else
      match policy.concurrencyBehavior with
      | .reject => (s, .error .queueConcurrencyRejected)
      | .ignore => (s, .error .queueIgnored)
      | .enqueue => (s, s.validateEnqueueHeadroom actionId policy.maxQueued)
      | .allowParallel => (s, .ok ())

/-! ## What comes of a call -/

/-- The task of the call was started, or the call is in the queue of its action. -/
def Admitted (s : ActionExecutionQueue) (k : Nat) (request : AgentActionQueueRequest) : Prop :=
  ∃ c : Call, s.calls[k]? = some c ∧ c.request = request ∧ c.completions = [] ∧
    ((c.isRunning = true ∧ c.starts = 1 ∧ c.holdsSlot = true) ∨
      (c.status = .waiting ∧ c.starts = 0 ∧ k ∈ s.pendingByActionId request.actionId))

/-- The future of the call is complete with a failure, and its task was never started. -/
def Refused (s : ActionExecutionQueue) (k : Nat) (request : AgentActionQueueRequest)
    (code : FailureCode) : Prop :=
  ∃ c : Call, s.calls[k]? = some c ∧ c.request = request ∧ c.completions = [.queue code] ∧
    c.starts = 0

variable {s t : ActionExecutionQueue} {k : Nat} {request : AgentActionQueueRequest}
  {code code' : FailureCode}

theorem Admitted.not_refused (h : t.Admitted k request) : ¬ t.Refused k request code := by
  rintro ⟨d, hd, -, hfailed, -⟩
  obtain ⟨c, hc, -, hopen, -⟩ := h
  obtain rfl := Option.some.inj (hc.symm.trans hd)
  rw [hopen] at hfailed
  cases hfailed

theorem Refused.code_eq (h : t.Refused k request code) (h' : t.Refused k request code') :
    code = code' := by
  obtain ⟨c, hc, -, hcode, -⟩ := h
  obtain ⟨d, hd, -, hcode', -⟩ := h'
  obtain rfl := Option.some.inj (hc.symm.trans hd)
  rw [hcode] at hcode'
  simpa using hcode'

theorem refused_refuse (s : ActionExecutionQueue) (request : AgentActionQueueRequest)
    (code : FailureCode) : (s.refuse request code).Refused s.calls.length request code :=
  ⟨_, getElem?_addCall s _, rfl, rfl, rfl⟩

theorem Inv.admitted (h : t.Inv none) {c : Call} (hk : t.calls[k]? = some c)
    (hstatus : c.status = .waiting ∨ c.isRunning = true) : t.Admitted k c.request := by
  have hsound := h.sound k c hk
  unfold Call.Sound at hsound
  rcases hstatus with hwaits | hruns
  · simp only [hwaits] at hsound
    have hqueued : k ∈ t.pendingByActionId c.request.actionId :=
      (h.pending _ k).mpr ⟨by simp, c, hk, hwaits, rfl⟩
    exact ⟨c, hk, rfl, hsound.1, .inr ⟨hwaits, hsound.2.1, hqueued⟩⟩
  · have hcases : c.status = .runningNow ∨ c.status = .runningQueued := by
      simpa [Call.isRunning] using hruns
    rcases hcases with hstatus | hstatus
    all_goals
      simp only [hstatus] at hsound
      exact ⟨c, hk, rfl, hsound.1, .inl ⟨hruns, hsound.2.1, hsound.2.2⟩⟩

theorem Inv.admitted_runNow (h : s.Inv none) (hopen : s.disposed = false)
    (request : AgentActionQueueRequest) :
    (s.runNow request).Admitted s.calls.length request := by
  have hinv := h.runNow request
  have hrun : s.runNow request =
      (s.addCall { request := request, status := .waiting }).start s.calls.length request
        .runningNow := if_neg (by simp [hopen])
  rw [hrun] at hinv ⊢
  have hnew := (getElem?_changed (getElem?_addCall s { request := request, status := .waiting })
    (fun c => c.begun .runningNow) s.calls.length).trans (if_pos rfl)
  exact hinv.admitted hnew (.inr rfl)

theorem Inv.admitted_push (h : s.Inv none) (hopen : s.disposed = false)
    (request : AgentActionQueueRequest) :
    ((s.push request).drain request.actionId).Admitted s.calls.length request := by
  have hpushed := h.push request hopen
  have hdrained := hpushed.drain (a := request.actionId)
    (P := fun u => ∃ c : Call, u.calls[s.calls.length]? = some c ∧ c.request = request ∧
      (c.status = .waiting ∨ c.isRunning = true))
    ⟨_, getElem?_addCall s _, rfl, .inl rfl⟩ ?_
  · obtain ⟨hinv, ⟨c, hc, rfl, hstatus⟩, -⟩ := hdrained
    exact hinv.admitted hc hstatus
  · rintro u k rest c - ⟨d, hd, hrequest, hstatus⟩ - hk - - -
    have hchanged := getElem?_changed hk (fun c => c.begun .runningQueued) s.calls.length
    by_cases hsame : s.calls.length = k
    · rw [if_pos hsame] at hchanged
      obtain rfl := Option.some.inj ((hsame ▸ hk).symm.trans hd)
      exact ⟨_, hchanged, hrequest, .inr rfl⟩
    · rw [if_neg hsame, hd] at hchanged
      exact ⟨d, hchanged, hrequest, hstatus⟩

/-! ## The dry run agrees -/

/-- What the dry run says of a call that is made. -/
def Foretells (t : ActionExecutionQueue) (k : Nat) (request : AgentActionQueueRequest) :
    Except FailureCode Unit → Prop
  | .ok () => t.Admitted k request
  | .error code => t.Refused k request code

theorem Inv.schedule_foretold (h : s.Inv none) (hopen : s.disposed = false)
    {gate : Bool} (hclear : s.disposedFailure request.actionId gate = none) :
    (s.schedule request).Foretells s.calls.length request
      (s.validateRemoteAdmission request.actionId request.policy gate).2 := by
  unfold validateRemoteAdmission schedule
  rw [hclear]
  dsimp only
  by_cases hnow : (decide (request.policy.concurrencyBehavior = .allowParallel) ||
      s.canRunNow request.actionId request.policy) = true
  · rw [if_pos hnow, if_pos hnow]
    exact h.admitted_runNow hopen request
  · rw [if_neg hnow, if_neg hnow]
    cases hbehavior : request.policy.concurrencyBehavior with
    | allowParallel => simp [hbehavior] at hnow
    | reject => exact refused_refuse s request _
    | ignore => exact refused_refuse s request _
    | enqueue =>
      dsimp only
      unfold validateEnqueueHeadroom enqueuePending
      rw [hopen]
      dsimp only
      by_cases hfull : request.policy.maxQueued ≤
          (s.pendingByActionId request.actionId).length
      · rw [if_pos hfull, if_neg (by simp), if_pos hfull]
        exact refused_refuse s request _
      · rw [if_neg hfull, if_neg (by simp), if_neg hfull]
        exact h.admitted_push hopen request

/-- The dry run leaves the queue, and it says what would come of a call without idempotency
key. -/
theorem validateRemoteAdmission_agrees (hs : actionExecutionQueue.Reachable s)
    (hkey : idempotencyKeyFor request = none) (allowsInternalWork : Bool) :
    (s.validateRemoteAdmission request.actionId request.policy allowsInternalWork).1 = s ∧
    ((s.validateRemoteAdmission request.actionId request.policy allowsInternalWork).2 = .ok () ↔
      (s.enqueue request allowsInternalWork).Admitted s.calls.length request) ∧
    ∀ code,
      (s.validateRemoteAdmission request.actionId request.policy allowsInternalWork).2 =
          .error code ↔
        (s.enqueue request allowsInternalWork).Refused s.calls.length request code := by
  have hinv := inv_of_reach hs
  have hforetold : (s.enqueue request allowsInternalWork).Foretells s.calls.length request
      (s.validateRemoteAdmission request.actionId request.policy allowsInternalWork).2 := by
    unfold enqueue
    cases hdisposed : s.disposedFailure request.actionId allowsInternalWork with
    | some code =>
      unfold validateRemoteAdmission
      rw [hdisposed]
      exact refused_refuse s request code
    | none =>
      rw [hkey]
      exact hinv.schedule_foretold (disposedFailure_none hdisposed).2 hdisposed
  refine ⟨?_, ?_⟩
  · unfold validateRemoteAdmission
    split
    · rfl
    · split
      · rfl
      · split <;> rfl
  · generalize (s.validateRemoteAdmission request.actionId request.policy
      allowsInternalWork).2 = answer at hforetold ⊢
    cases answer with
    | ok =>
      refine ⟨iff_of_true rfl hforetold, fun code => iff_of_false (by simp) ?_⟩
      exact Admitted.not_refused hforetold
    | error code =>
      refine ⟨iff_of_false (by simp) fun h => h.not_refused hforetold, fun code' => ?_⟩
      constructor
      · intro heq
        obtain rfl := Except.error.inj heq
        exact hforetold
      · intro h
        rw [Refused.code_eq hforetold h]

/-- A request of the action "backup", one of which may run and one wait. -/
def nightlyRequest (executionId : String) : AgentActionQueueRequest where
  actionId := "backup"
  executionId := executionId
  policy := { maxConcurrent := 1, maxQueued := 1 }

/-- One runs, and one waits. -/
def nightlyFull : ActionExecutionQueue :=
  (enqueue {} (nightlyRequest "e1") false).enqueue (nightlyRequest "e2") false

/-- A third one is refused, as the dry run says. -/
theorem validateRemoteAdmission_agrees_full :
    (nightlyFull.enqueue (nightlyRequest "e3") false).Refused 2 (nightlyRequest "e3")
      .queueFull := by
  have hreach : actionExecutionQueue.Reachable nightlyFull :=
    @Machine.reachable_of_run _ _ actionExecutionQueue {} _ rfl
      [.enqueue (nightlyRequest "e1") false, .enqueue (nightlyRequest "e2") false] rfl
  have hagrees := @validateRemoteAdmission_agrees nightlyFull (nightlyRequest "e3") hreach rfl false
  exact (hagrees.2.2 .queueFull).mp rfl

end ActionExecutionQueue

end PlugAgente.Actions
