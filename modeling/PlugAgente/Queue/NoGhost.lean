import PlugAgente.Queue.Accounting

/-!
# No ghost executions

A caller that is told that its execution did not start is told the truth, for the
past and for good: its task was not invoked and never will be.  The caller of a
request is answered once, and a request that has left its lane and whose task is
not under way leaves its caller nothing to wait for.

The record of a request only grows over a run (`Grows`), so that an answer that
was given stays on record, and the invariant speaks about it in every later state.
-/

namespace PlugAgente.Queue

open ExecutionQueue

variable {R : Type} {cfg : QueueConfig} {s s' s'' : ExecutionQueue R} {i : Nat}
  {r : QueuedRequest R}

/-! ## Answers stay on record -/

/-- Every request keeps the answers its caller was given. -/
def Grows (s s' : ExecutionQueue R) : Prop :=
  ∀ (n : Nat) (a : QueuedRequest R), s.requests[n]? = some a →
    ∃ b, s'.requests[n]? = some b ∧ a.delivered <+: b.delivered

theorem Grows.trans (h : Grows s s') (h' : Grows s' s'') : Grows s s'' := by
  intro n a ha
  obtain ⟨b, hb, hab⟩ := h n a ha
  obtain ⟨c, hc, hbc⟩ := h' n b hb
  exact ⟨c, hc, hab.trans hbc⟩

theorem grows_of_requests_eq (h : s'.requests = s.requests) : Grows s s' := by
  intro n a ha
  exact ⟨a, by rw [h]; exact ha, List.prefix_refl _⟩

theorem grows_refl (s : ExecutionQueue R) : Grows s s :=
  grows_of_requests_eq rfl

theorem grows_set {r' : QueuedRequest R} (hr : s.requests[i]? = some r)
    (hdelivered : r.delivered <+: r'.delivered) (h : s'.requests = s.requests.set i r') :
    Grows s s' := by
  intro n a ha
  rw [h]
  by_cases hn : n = i
  · subst hn
    have hlt := (List.getElem?_eq_some_iff.mp hr).1
    rw [hr] at ha
    refine ⟨r', List.getElem?_set_self hlt, ?_⟩
    rwa [← Option.some.inj ha]
  · exact ⟨a, by rw [List.getElem?_set_ne (fun he => hn he.symm)]; exact ha, List.prefix_refl _⟩

theorem grows_append {r' : QueuedRequest R} (h : s'.requests = s.requests ++ [r']) :
    Grows s s' := by
  intro n a ha
  refine ⟨a, ?_, List.prefix_refl _⟩
  rw [h, List.getElem?_append_left (List.getElem?_eq_some_iff.mp ha).1]
  exact ha

theorem QueuedRequest.delivered_completeFailure (r : QueuedRequest R) (f : QueueFailure) :
    (r.completeFailure f).delivered = r.delivered := by
  rw [completeFailure]
  split <;> rfl

theorem grows_releaseWorkerSlot {r' : QueuedRequest R} (hr : s.requests[i]? = some r)
    (hdelivered : r'.delivered = r.delivered) : Grows s (s.releaseWorkerSlot cfg i r') := by
  unfold releaseWorkerSlot
  split
  · exact grows_set hr (by rw [hdelivered]) rfl
  · refine grows_set hr ?_ rfl
    rw [hdelivered]

theorem grows_startTaken (hr : s.requests[i]? = some r) : Grows s (s.startTaken cfg i r) := by
  unfold startTaken
  split
  · exact grows_refl s
  · rw [executeTask]
    split
    · refine Grows.trans ?_ (grows_releaseWorkerSlot hr ?_)
      · exact grows_of_requests_eq rfl
      · rw [QueuedRequest.delivered_completeFailure]
    · refine grows_set (s := s) hr ?_ rfl
      exact List.prefix_refl _

theorem requests_takeNext {isEligible : Nat → Bool} (h : s.takeNext isEligible = some (i, s')) :
    s'.requests = s.requests := by
  rw [takeNext] at h
  split at h
  · cases h
  · cases h
    rfl

theorem grows_round (h : s.round cfg = some s') : Grows s s' := by
  unfold ExecutionQueue.round at h
  split at h
  · cases h
  · split at h
    · split at h
      · cases h
        exact grows_of_requests_eq rfl
      · rename_i htake
        split at h
        · rename_i r hr
          cases h
          exact (grows_of_requests_eq (requests_takeNext htake)).trans (grows_startTaken hr)
        · cases h
    · cases h
      exact grows_of_requests_eq rfl

theorem grows_submit (sub : Submission) : Grows s (s.submit cfg sub) := by
  unfold submit
  split
  · exact grows_append rfl
  · split
    · exact grows_append rfl
    · split
      · exact grows_append rfl
      · exact grows_append rfl

theorem requests_remove {k : SqlExecutionKind} (h : s.remove k i = some s') :
    s'.requests = s.requests := by
  rw [remove] at h
  split at h
  · cases h
    rfl
  · cases h

theorem grows_completeQueueWaitTimeout (hr : s.requests[i]? = some r) (timeoutSeconds : Int) :
    Grows s (s.completeQueueWaitTimeout cfg i r timeoutSeconds) := by
  have htoken := (cancelOptionalToken_frame s r.cooperativeCancellationToken).1
  unfold completeQueueWaitTimeout
  dsimp only
  generalize hs₁ : s.cancelOptionalToken r.cooperativeCancellationToken = s₁
  rw [hs₁] at htoken
  have hleft : (if r.hasStarted then s₁ else (s₁.remove r.kind i).getD s₁).requests =
      s.requests := by
    split
    · exact htoken
    · cases hremove : s₁.remove r.kind i with
      | none => exact htoken
      | some s₂ => rw [Option.getD_some, requests_remove hremove, htoken]
  refine grows_set hr ?_ (congrArg (List.set · i _) hleft)
  exact List.prefix_append _ _

theorem grows_cancelWaitingRequest (hr : s.requests[i]? = some r) :
    Grows s (s.cancelWaitingRequest i r) := by
  unfold cancelWaitingRequest
  split
  · exact grows_refl s
  · split
    · exact grows_refl s
    · rename_i s₁ hremove
      refine grows_set hr ?_ (by rw [processQueue, put, requests_remove hremove])
      rw [QueuedRequest.delivered_completeFailure]

theorem grows_completeWithDisposalFailure (s : ExecutionQueue R) (i : Nat) :
    Grows s (s.completeWithDisposalFailure i) := by
  unfold completeWithDisposalFailure
  split
  · exact grows_refl s
  · rename_i r hr
    split
    · exact grows_refl s
    · refine grows_set hr ?_ rfl
      rw [QueuedRequest.delivered_completeFailure]

theorem grows_disposeLoop (fuel : Nat) : ∀ s : ExecutionQueue R, Grows s (disposeLoop fuel s) := by
  induction fuel with
  | zero => exact grows_refl
  | succ fuel ih =>
    intro s
    rw [disposeLoop]
    split
    · split
      · exact grows_refl s
      · rename_i htake
        exact ((grows_of_requests_eq (requests_takeNext htake)).trans
          (grows_completeWithDisposalFailure _ _)).trans (ih _)
    · exact grows_refl s

theorem grows_step {event : Event R} (hstep : s.step cfg event = some s') : Grows s s' := by
  cases event with
  | submit sub =>
    cases hstep
    exact grows_submit sub
  | round => exact grows_round hstep
  | queueWaitTimeout i timeoutSeconds =>
    obtain ⟨r, hr, _, rfl⟩ := onRequest_eq_some hstep
    exact grows_completeQueueWaitTimeout hr timeoutSeconds
  | cancelToken token =>
    cases hstep
    exact grows_of_requests_eq (cancelOptionalToken_frame s (some token)).1
  | resetToken token =>
    cases hstep
    exact grows_of_requests_eq rfl
  | deliverCancellation i =>
    obtain ⟨r, hr, _, rfl⟩ := onRequest_eq_some hstep
    refine Grows.trans ?_ (grows_cancelWaitingRequest hr)
    exact grows_of_requests_eq rfl
  | releaseWorker i =>
    obtain ⟨r, hr, _, rfl⟩ := onRequest_eq_some hstep
    exact grows_releaseWorkerSlot hr rfl
  | finishTask i result =>
    obtain ⟨r, hr, _, rfl⟩ := onRequest_eq_some hstep
    exact grows_releaseWorkerSlot hr rfl
  | failTask i =>
    obtain ⟨r, hr, _, rfl⟩ := onRequest_eq_some hstep
    exact grows_releaseWorkerSlot hr (QueuedRequest.delivered_completeFailure _ _)
  | observeStart i =>
    obtain ⟨r, hr, _, rfl⟩ := onRequest_eq_some hstep
    refine grows_set hr ?_ rfl
    exact List.prefix_refl _
  | returnResult i =>
    obtain ⟨r, outcome, hr, _, _, rfl⟩ := returnResult_eq_some hstep
    refine grows_set hr ?_ rfl
    exact List.prefix_append _ _
  | pauseAdmission operationId =>
    cases hstep
    rw [pauseAdmissionForMaintenance]
    split <;> exact grows_of_requests_eq rfl
  | resumeAdmission operationId =>
    cases hstep
    rw [resumeAdmissionAfterMaintenance]
    split <;> exact grows_of_requests_eq rfl
  | dispose =>
    cases hstep
    refine Grows.trans ?_ (grows_disposeLoop _ _)
    exact grows_of_requests_eq rfl

theorem grows_of_leads (h : (machine R cfg).Leads s s') : Grows s s' := by
  refine h.keeps ?_ (grows_refl s)
  intro t event t' ht hstep
  exact ht.trans (grows_step hstep)

/-! ## The result -/

theorem invocations_eq_zero (h : (machine R cfg).Reachable s) (hr : s.requests[i]? = some r)
    {f : QueueFailure} (hf : Outcome.queue f ∈ r.delivered) (hdenied : f.saysNotStarted = true) :
    r.invocations = 0 := by
  have hreq := (inv_of_reachable h).request i r hr
  rw [hreq.invocations_eq, (hreq.denied f (Or.inl hf) hdenied).1]
  rfl

theorem answered_of_no_step (h : (machine R cfg).Reachable s) (hr : s.requests[i]? = some r)
    (hqueued : i ∉ s.lanes r.kind) (hrunning : r.running = false)
    (hobserve : s.step cfg (.observeStart i) = none)
    (hreturn : s.step cfg (.returnResult i) = none) : r.delivered.length = 1 := by
  have hreq := (inv_of_reachable h).request i r hr
  rw [hreq.delivered_length]
  by_contra hne
  have hcaller : r.caller ≠ .done := by
    intro hdone
    simp [hdone] at hne
  obtain ⟨hcompleter, hsignal⟩ := hreq.settled hqueued hrunning hcaller
  obtain ⟨outcome, hcompleter⟩ := Option.isSome_iff_exists.mp hcompleter
  cases hc : r.caller with
  | waiting => simp [ExecutionQueue.step, onRequest, hr, hc, hsignal] at hobserve
  | awaitingResult => simp [ExecutionQueue.step, hr, hc, hcompleter] at hreturn
  | done => exact hcaller hc

/-- In every run: whoever was told that its execution did not start had its task
not invoked, and it is not invoked in any later state; and the caller of every
request is answered at most once, and exactly once when its request is neither in
its lane nor under way and the caller has no step left. -/
theorem no_ghost_execution (h : (machine R cfg).Reachable s) :
    (∀ (i : Nat) (r : QueuedRequest R) (f : QueueFailure), s.requests[i]? = some r →
        Outcome.queue f ∈ r.delivered → f.saysNotStarted = true →
        r.invocations = 0 ∧
          ∀ (s' : ExecutionQueue R) (r' : QueuedRequest R), (machine R cfg).Leads s s' →
            s'.requests[i]? = some r' → r'.invocations = 0) ∧
      ∀ (i : Nat) (r : QueuedRequest R), s.requests[i]? = some r →
        r.delivered.length ≤ 1 ∧
          (i ∉ s.lanes r.kind → r.running = false → s.step cfg (.observeStart i) = none →
            s.step cfg (.returnResult i) = none → r.delivered.length = 1) := by
  constructor
  · intro i r f hr hf hdenied
    refine ⟨invocations_eq_zero h hr hf hdenied, ?_⟩
    intro s' r' hleads hr'
    obtain ⟨b, hb, hkept⟩ := grows_of_leads hleads i r hr
    rw [hr'] at hb
    rw [← Option.some.inj hb] at hkept
    exact invocations_eq_zero (hleads.reachable h) hr' (hkept.subset hf) hdenied
  · intro i r hr
    refine ⟨?_, answered_of_no_step h hr⟩
    rw [((inv_of_reachable h).request i r hr).delivered_length]
    split <;> omega

def oneWorker : QueueConfig :=
  { twoWorkers with maxConcurrentWorkers := 1, maxConcurrentWorkers_pos := by decide }

/-- On one worker, the second request times out in its lane and the first one
ends. -/
theorem no_ghost_execution_timeout :
    let s := after oneWorker
      [.submit {}, .submit {}, .round, .round, .queueWaitTimeout 1 5, .finishTask 0 7, .round]
    ∃ r f, s.requests[1]? = some r ∧ Outcome.queue f ∈ r.delivered ∧
      f.saysNotStarted = true ∧ r.invocations = 0 := by
  intro s
  have h : (machine Nat oneWorker).Reachable s := reachable_after (by decide)
  obtain ⟨r, hr⟩ : ∃ r, s.requests[1]? = some r := Option.isSome_iff_exists.mp (by decide)
  have hdelivered : (s.requests[1]?).map (·.delivered) =
      some [.queue (.queueWaitTimeout none 0 4 1 1 5 false)] := by decide
  rw [hr, Option.map_some, Option.some.injEq] at hdelivered
  have hmem : Outcome.queue (.queueWaitTimeout none 0 4 1 1 5 false) ∈ r.delivered := by
    simp [hdelivered]
  exact ⟨r, _, hr, hmem, by decide,
    ((no_ghost_execution h).1 1 r _ hr hmem (by decide)).1⟩

end PlugAgente.Queue
