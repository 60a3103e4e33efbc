import PlugAgente.Queue.Invariant

/-!
# Every event keeps the invariant

One lemma for each operation of the queue, in the order of the model, and
`inv_of_reachable` for whole runs.
-/

namespace PlugAgente.Queue

open Ledger ExecutionQueue

variable {R : Type} {cfg : QueueConfig} {s s' : ExecutionQueue R} {i : Nat}
  {r : QueuedRequest R}

/-! ## Operations -/

theorem not_eligible_of_takeNext {isEligible : Nat → Bool} (htake : s.takeNext isEligible = none)
    (kind : SqlExecutionKind) {rest : List Nat} (hlane : s.lanes kind = i :: rest) :
    isEligible i = false := by
  have hspec := SqlQueueLaneScheduler.takeNext_spec isEligible ⟨s.lanes, s.lastServedLaneIndex⟩
  rw [takeNext] at htake
  split at htake
  · rename_i hnone
    rw [hnone] at hspec
    by_contra heligible
    rw [Bool.not_eq_false] at heligible
    exact hspec.1 kind ⟨i, rest, hlane, heligible⟩
  · cases htake

theorem takeNext_spec {isEligible : Nat → Bool} (h : Inv cfg s)
    (htake : s.takeNext isEligible = some (i, s')) :
    isEligible i = true ∧ ∃ r, s.requests[i]? = some r ∧ i ∈ s.lanes r.kind ∧
      s'.requests = s.requests ∧ s'.lanes = s.lanesWithout r.kind i ∧
      s'.queuedCount = s.queuedCount - 1 ∧ s'.capacity = s.capacity ∧ s'.loops = s.loops ∧
      s'.cancelledTokens = s.cancelledTokens := by
  have hspec := SqlQueueLaneScheduler.takeNext_spec isEligible ⟨s.lanes, s.lastServedLaneIndex⟩
  rw [takeNext] at htake
  split at htake
  · cases htake
  · rename_i j taken hfind
    rw [hfind] at hspec
    obtain ⟨heligible, rest, hlane, hqueues⟩ := hspec
    cases htake
    dsimp only at hlane hqueues
    have hmem : i ∈ s.lanes (SqlQueueLaneScheduler.laneAt taken.lastServedLaneIndex) := by
      simp [hlane]
    obtain ⟨r, hr, hkind⟩ := h.placed _ _ hmem
    refine ⟨heligible, r, hr, by rwa [hkind], rfl, ?_, rfl, rfl, rfl, rfl⟩
    funext k
    simp only [hqueues, lanesWithout, hkind]
    split
    · rename_i hk
      rw [hk, Function.update_self, hlane, List.erase_cons_head]
    · rename_i hk
      rw [Function.update_of_ne hk]

theorem Inv.releaseWorkerSlot (h : Inv cfg s) (hr : s.requests[i]? = some r)
    {r' : QueuedRequest R} (hkind : r'.kind = r.kind) (hweight : r'.slotWeight = r.slotWeight)
    (htaken : r.startedAt = true) (hslot : r'.startedAt = r.startedAt)
    (hreleased : r'.workerSlotReleased = r.workerSlotReleased)
    (hreleases : r'.releases = r.releases)
    (hreq : RequestInv cfg (i ∈ s.lanes r.kind)
      { r' with workerSlotReleased := true, releases := 1 }) :
    Inv cfg (s.releaseWorkerSlot cfg i r') := by
  have hcount := (h.request i r hr).releases_eq
  unfold ExecutionQueue.releaseWorkerSlot
  by_cases hrel : r.workerSlotReleased = true
  · -- The slot was given back before: nothing but the other fields changes.
    rw [if_pos (by rw [hreleased, hrel])]
    have hsame : { r' with workerSlotReleased := true, releases := 1 } = r' := by
      have h₁ : r'.workerSlotReleased = true := by rw [hreleased, hrel]
      have h₂ : r'.releases = 1 := by rw [hreleases, hcount, if_pos hrel]
      cases r'
      simp_all
    rw [hsame] at hreq
    refine h.put hr hkind hreq (h.totals.set_same hr ?_) h.capped rfl rfl rfl rfl
    intro w
    simp [share, QueuedRequest.holdsSlot, hslot, hreleased, hkind, hweight]
  · have hfalse : r.workerSlotReleased = false := by simpa using hrel
    rw [if_neg (by rw [hreleased, hfalse]; simp)]
    have hone : r'.releases + 1 = 1 := by rw [hreleases, hcount, hfalse]; rfl
    rw [hone]
    refine h.put (c := s.capacity.onWorkerReleased cfg r'.kind r'.slotWeight) hr ?_ hreq ?_
      (h.capped.released _ _) rfl rfl rfl rfl
    · exact hkind
    · rw [hkind, hweight]
      apply h.totals.released h.capped hr
      · simp [QueuedRequest.holdsSlot, htaken, hfalse]
      · simp [QueuedRequest.holdsSlot]
      · exact h.weight_pos

theorem Inv.startTaken (h : Inv cfg s) (hr : s.requests[i]? = some r)
    (hi : i ∈ s.lanes r.kind) (hslot : s.capacity.hasAvailableWorkerSlot cfg = true)
    (hstart : s.capacity.canStart cfg r.kind r.slotWeight = true)
    (hrequests : s'.requests = s.requests) (hlanes : s'.lanes = s.lanesWithout r.kind i)
    (hcount : s'.queuedCount = s.queuedCount - 1) (hcapacity : s'.capacity = s.capacity) :
    Inv cfg (s'.startTaken cfg i r) := by
  have hreq := h.request i r hr
  have hw := hreq.waits hi
  have hreleased := hreq.not_workerSlotReleased hi
  have hfree := h.not_holdsSlot hr hi
  have hcapped : Capped cfg (s.capacity.onWorkerStarted r.kind r.slotWeight) :=
    h.capped.started hslot hstart
  unfold ExecutionQueue.startTaken
  rw [if_neg (by simp [hw.2.1, hw.2.2.1]), executeTask]
  dsimp only
  split
  · -- The token was cancelled: the slot is taken and given back at once.
    rw [ExecutionQueue.releaseWorkerSlot, QueuedRequest.completeFailure]
    simp only [hw.2.2.1, Option.isNone_none, if_true, hreleased, Bool.false_eq_true, if_false]
    refine h.dequeue hr hi (c := (s.capacity.onWorkerStarted r.kind r.slotWeight).onWorkerReleased
      cfg r.kind r.slotWeight) ?_ (hreq.cancelAtStart hi) ?_ (hcapped.released _ _) ?_ ?_ ?_ ?_
    · rfl
    · have hlt := (List.getElem?_eq_some_iff.mp hr).1
      have hstarted : Totals (s.requests.set i { r with startedAt := true })
          (s.capacity.onWorkerStarted r.kind r.slotWeight) := by
        apply h.totals.started hr hfree
        · simp [QueuedRequest.holdsSlot, hreleased]
        · rfl
        · rfl
      have hweight : ∀ a ∈ s.requests.set i { r with startedAt := true },
          a.holdsSlot = true → 1 ≤ a.slotWeight := by
        intro a ha hholds
        rcases List.mem_or_eq_of_mem_set ha with ha | rfl
        · exact h.weight_pos a ha hholds
        · exact hreq.weight (Or.inl hi)
      rw [← List.set_set { r with startedAt := true }]
      refine Totals.released (r := { r with startedAt := true }) hstarted hcapped ?_ ?_ ?_ hweight
      · exact List.getElem?_set_self hlt
      · simp [QueuedRequest.holdsSlot, hreleased]
      · simp [QueuedRequest.holdsSlot]
    · simp [processQueue, ExecutionQueue.put, hrequests]
    · simp [processQueue, ExecutionQueue.put, hlanes]
    · simp [processQueue, ExecutionQueue.put, hcount]
    · simp [processQueue, hcapacity]
  · refine h.dequeue hr hi (c := s.capacity.onWorkerStarted r.kind r.slotWeight) ?_
      (hreq.start hi) ?_ hcapped ?_ ?_ ?_ ?_
    · rfl
    · apply h.totals.started hr hfree
      · simp [QueuedRequest.holdsSlot, hreleased]
      · rfl
      · rfl
    · simp [ExecutionQueue.put, hrequests]
    · simp [ExecutionQueue.put, hlanes]
    · simp [ExecutionQueue.put, hcount]
    · simp [ExecutionQueue.put, hcapacity]

theorem Inv.round (h : Inv cfg s) (hround : s.round cfg = some s') : Inv cfg s' := by
  unfold ExecutionQueue.round at hround
  split at hround
  · cases hround
  · split at hround
    · rename_i hfree
      simp only [Bool.and_eq_true] at hfree
      split at hround
      · cases hround
        exact h.frame rfl rfl rfl rfl
      · rename_i j t htake
        obtain ⟨heligible, r, hr, hi, hrequests, hlanes, hcount, hcapacity, -, -⟩ :=
          takeNext_spec h htake
        rw [hrequests, hr] at hround
        cases hround
        have hstart : s.capacity.canStart cfg r.kind r.slotWeight = true := by
          simpa [ExecutionQueue.canStart, hr] using heligible
        exact h.startTaken hr hi hfree.1 hstart hrequests hlanes hcount hcapacity
    · cases hround
      exact h.frame rfl rfl rfl rfl

theorem share_congr {r' : QueuedRequest R} (hkind : r'.kind = r.kind)
    (hweight : r'.slotWeight = r.slotWeight) (htaken : r'.startedAt = r.startedAt)
    (hreleased : r'.workerSlotReleased = r.workerSlotReleased)
    (w : SqlExecutionKind → Int → Int) : share w r' = share w r := by
  simp [share, QueuedRequest.holdsSlot, hkind, hweight, htaken, hreleased]

theorem Inv.endTask (h : Inv cfg s) (hr : s.requests[i]? = some r) (hrunning : r.running = true)
    (outcome : Option (Outcome R)) (hsettled : r.caller ≠ .done → outcome.isSome = true)
    (hdenied : ∀ f, outcome = some (.queue f) → f.saysNotStarted = false) :
    Inv cfg (s.releaseWorkerSlot cfg i { r with running := false, completer := outcome }) := by
  have hreq := h.request i r hr
  have htaken := hreq.taken (Or.inl (hreq.running_hasStarted hrunning))
  have hi : i ∉ s.lanes r.kind := by
    intro hi
    simp [(hreq.waits hi).1] at htaken
  refine h.releaseWorkerSlot hr ?_ ?_ htaken ?_ ?_ ?_ ?_
  any_goals rfl
  exact (hreq.endTask hrunning outcome hsettled hdenied).congr (by simp [hi])

theorem Inv.finishTask (h : Inv cfg s) (hr : s.requests[i]? = some r)
    (hrunning : r.running = true) (result : R) : Inv cfg (s.finishTask cfg i r result) := by
  have hreq := h.request i r hr
  have hopen := (hreq.running_open hrunning).1
  have hcancelled := hreq.cancelled_done (hreq.running_hasStarted hrunning)
  apply h.endTask hr hrunning
  · intro hdone
    have : r.isCancelled = false := by
      by_contra hc
      exact hdone (hcancelled (by simpa using hc))
    simp [hopen, this]
  · intro f
    rw [hopen]
    split <;> simp

theorem Inv.failTask (h : Inv cfg s) (hr : s.requests[i]? = some r)
    (hrunning : r.running = true) : Inv cfg (s.failTask cfg i r) := by
  have hopen := ((h.request i r hr).running_open hrunning).1
  have hfail : ExecutionQueue.failTask cfg s i r = s.releaseWorkerSlot cfg i
      { r with
        running := false
        completer := some (.queue (.unexpectedTaskError r.requestId)) } := by
    simp [ExecutionQueue.failTask, QueuedRequest.completeFailure, hopen]
  rw [hfail]
  apply h.endTask hr hrunning
  · simp
  · intro f hf
    cases hf
    exact QueueFailure.saysNotStarted_unexpectedTaskError _

/-! ## Events -/

theorem Inv.reject (h : Inv cfg s) (sub : Submission) (failure : QueueFailure) :
    Inv cfg (s.reject sub failure) := by
  have hgone : ∀ k, s.requests.length ∉ s.lanes k := by
    intro k hk
    obtain ⟨r, hr, _⟩ := h.placed k _ hk
    simp at hr
  constructor
  · intro k n hn
    obtain ⟨r, hr, hk⟩ := h.placed k n hn
    refine ⟨r, ?_, hk⟩
    rw [ExecutionQueue.reject, List.getElem?_append_left (List.getElem?_eq_some_iff.mp hr).1]
    exact hr
  · exact h.nodup
  · apply forall_concat
    · exact h.request
    · exact (RequestInv.rejected sub failure).congr (by simp [ExecutionQueue.reject, hgone])
  · exact h.queuedCount_eq
  · exact h.queuedCount_le
  · exact h.totals.concat rfl
  · exact h.capped

theorem Inv.enqueue (h : Inv cfg s) (sub : Submission) (hweight : 1 ≤ sub.slotWeight)
    (hfull : s.queuedCount < cfg.maxQueueSize) :
    Inv cfg (s.enqueue (QueuedRequest.ofSubmission sub)) := by
  have hnew : ∀ k, s.requests.length ∉ s.lanes k := by
    intro k hk
    obtain ⟨r, hr, _⟩ := h.placed k _ hk
    simp at hr
  constructor
  · intro k n hn
    have hmem : n ∈ s.lanes k ∨ (k = sub.kind ∧ n = s.requests.length) := by
      simp only [ExecutionQueue.enqueue] at hn
      by_cases hk : k = sub.kind
      · rw [if_pos (show k = (QueuedRequest.ofSubmission sub : QueuedRequest R).kind from hk)] at hn
        rcases List.mem_append.mp hn with hn | hn
        · exact Or.inl hn
        · exact Or.inr ⟨hk, by simpa using hn⟩
      · rw [if_neg (show ¬k = (QueuedRequest.ofSubmission sub : QueuedRequest R).kind from hk)]
          at hn
        exact Or.inl hn
    rcases hmem with hn | ⟨rfl, rfl⟩
    · obtain ⟨r, hr, hk⟩ := h.placed k n hn
      refine ⟨r, ?_, hk⟩
      rw [ExecutionQueue.enqueue, List.getElem?_append_left (List.getElem?_eq_some_iff.mp hr).1]
      exact hr
    · exact ⟨QueuedRequest.ofSubmission sub, by simp [ExecutionQueue.enqueue], rfl⟩
  · intro k
    simp only [ExecutionQueue.enqueue]
    split
    · rw [List.nodup_append]
      refine ⟨h.nodup k, by simp, ?_⟩
      intro a ha b hb
      rw [List.mem_singleton] at hb
      rintro rfl
      exact hnew k (hb ▸ ha)
    · exact h.nodup k
  · apply forall_concat
    · intro n r hr
      apply (h.request n r hr).congr
      have hlt := (List.getElem?_eq_some_iff.mp hr).1
      simp only [ExecutionQueue.enqueue]
      split
      · simp only [List.mem_append, List.mem_singleton]
        constructor
        · exact Or.inl
        · rintro (hn | rfl)
          · exact hn
          · omega
      · exact Iff.rfl
    · apply (RequestInv.enqueued hweight).congr
      simp [ExecutionQueue.enqueue, QueuedRequest.ofSubmission]
  · have hlen : laneTotal (s.enqueue (QueuedRequest.ofSubmission sub : QueuedRequest R)).lanes =
        laneTotal s.lanes + 1 := by
      cases hk : sub.kind <;>
        simp [laneTotal, laneOrder, ExecutionQueue.enqueue, QueuedRequest.ofSubmission, hk] <;>
        omega
    rw [hlen, ← h.queuedCount_eq]
    rfl
  · show s.queuedCount + 1 ≤ cfg.maxQueueSize
    omega
  · exact h.totals.concat rfl
  · exact h.capped

theorem Inv.submit (h : Inv cfg s) (sub : Submission) : Inv cfg (s.submit cfg sub) := by
  unfold ExecutionQueue.submit
  split
  · exact h.reject sub _
  · rename_i hadmission
    split
    · exact h.reject sub _
    · rename_i hweight
      split
      · exact h.reject sub _
      · have hfull : s.queuedCount < cfg.maxQueueSize := by
          by_contra hfull
          rw [admitSubmission] at hadmission
          split at hadmission
          · cases hadmission
          · split at hadmission
            · cases hadmission
            · rw [if_pos (by omega)] at hadmission
              cases hadmission
        have hw : 1 ≤ sub.slotWeight := by
          by_contra hw
          apply hweight
          have hlt : sub.slotWeight < 1 := by omega
          simp [hlt]
        exact (h.enqueue sub hw hfull).frame rfl rfl rfl rfl

theorem cancelOptionalToken_frame (s : ExecutionQueue R) (token : Option Nat) :
    (s.cancelOptionalToken token).requests = s.requests ∧
      (s.cancelOptionalToken token).lanes = s.lanes ∧
      (s.cancelOptionalToken token).queuedCount = s.queuedCount ∧
      (s.cancelOptionalToken token).capacity = s.capacity ∧
      (s.cancelOptionalToken token).loops = s.loops := by
  cases token with
  | none => exact ⟨rfl, rfl, rfl, rfl, rfl⟩
  | some token =>
    simp only [cancelOptionalToken, cancelToken]
    split <;> exact ⟨rfl, rfl, rfl, rfl, rfl⟩

theorem Inv.completeQueueWaitTimeout (h : Inv cfg s) (hr : s.requests[i]? = some r)
    (hcaller : r.caller = .waiting) (timeoutSeconds : Int) :
    Inv cfg (s.completeQueueWaitTimeout cfg i r timeoutSeconds) := by
  have hreq := h.request i r hr
  obtain ⟨hrequests, hlanes, hcount, hcapacity, -⟩ :=
    cancelOptionalToken_frame s r.cooperativeCancellationToken
  have h₁ : Inv cfg (s.cancelOptionalToken r.cooperativeCancellationToken) :=
    h.frame hrequests hlanes hcount hcapacity
  have hr₁ := hr
  rw [← hrequests] at hr₁
  unfold ExecutionQueue.completeQueueWaitTimeout
  dsimp only
  by_cases hi : i ∈ s.lanes r.kind
  · -- The request still waits: it leaves its lane.
    have hi₁ := hi
    rw [← hlanes] at hi₁
    rw [if_neg (by simp [hreq.not_hasStarted hi]), ExecutionQueue.remove, if_pos hi₁]
    refine h₁.dequeue (c := s.capacity) hr₁ hi₁ ?_ ?_ ?_ h.capped rfl rfl rfl hcapacity
    · rfl
    · exact hreq.timeout hcaller (QueueFailure.saysNotStarted_queueWaitTimeout _ _ _ _ _ _ _)
    · refine Totals.set_same ?_ hr₁ ?_
      · rw [hrequests]
        exact h.totals
      · exact share_congr rfl rfl rfl rfl
  · have hnone : (s.cancelOptionalToken r.cooperativeCancellationToken).remove r.kind i = none := by
      rw [ExecutionQueue.remove, hlanes, if_neg hi]
    rw [hnone, Option.getD_none, ite_self]
    refine h₁.put (c := s.capacity) hr₁ ?_ ?_ ?_ h.capped rfl rfl rfl hcapacity
    · rfl
    · apply (hreq.timeout hcaller
        (QueueFailure.saysNotStarted_queueWaitTimeout _ _ _ _ _ _ _)).congr
      simp [hlanes, hi]
    · refine Totals.set_same ?_ hr₁ ?_
      · rw [hrequests]
        exact h.totals
      · exact share_congr rfl rfl rfl rfl

theorem Inv.cancelWaitingRequest (h : Inv cfg s) (hr : s.requests[i]? = some r) :
    Inv cfg (s.cancelWaitingRequest i r) := by
  have hreq := h.request i r hr
  unfold ExecutionQueue.cancelWaitingRequest
  split
  · exact h
  · rw [ExecutionQueue.remove]
    by_cases hi : i ∈ s.lanes r.kind
    · rw [if_pos hi]
      have hopen := (hreq.waits hi).2.2.1
      refine h.dequeue hr hi (c := s.capacity) ?_
        (hreq.settleQueued hi true .cancelledBeforeStart) ?_ h.capped ?_ ?_ ?_ ?_
      · rfl
      · exact h.totals.set_same hr (share_congr rfl rfl rfl rfl)
      · simp [processQueue, ExecutionQueue.put, QueuedRequest.completeFailure, hopen]
      · rfl
      · rfl
      · rfl
    · rw [if_neg hi]
      exact h

theorem Inv.completeWithDisposalFailure (h : Inv cfg s) (hr : s.requests[i]? = some r)
    (hi : i ∈ s.lanes r.kind) (hrequests : s'.requests = s.requests)
    (hlanes : s'.lanes = s.lanesWithout r.kind i) (hcount : s'.queuedCount = s.queuedCount - 1)
    (hcapacity : s'.capacity = s.capacity) : Inv cfg (s'.completeWithDisposalFailure i) := by
  have hreq := h.request i r hr
  have hw := hreq.waits hi
  have hstarted := hreq.not_hasStarted hi
  unfold ExecutionQueue.completeWithDisposalFailure
  rw [hrequests, hr]
  simp only [hw.2.2.1, Option.isSome_none, Bool.false_eq_true, if_false]
  have hsettled := hreq.settleQueued hi false
    (.queueDisposed "SQL execution queue disposed before request could be processed" r.requestId)
  refine h.dequeue hr hi (c := s.capacity) ?_ hsettled ?_ h.capped ?_ ?_ ?_ ?_
  · rfl
  · exact h.totals.set_same hr (share_congr rfl rfl rfl rfl)
  · simp [ExecutionQueue.put, QueuedRequest.completeFailure, hrequests, hstarted, hw.2.1]
  · simp [ExecutionQueue.put, hlanes]
  · simp [ExecutionQueue.put, hcount]
  · simp [ExecutionQueue.put, hcapacity]

theorem Inv.disposeLoop (fuel : Nat) : ∀ {s : ExecutionQueue R}, Inv cfg s →
    Inv cfg (disposeLoop fuel s) := by
  induction fuel with
  | zero => exact fun h => h
  | succ fuel ih =>
    intro s h
    rw [ExecutionQueue.disposeLoop]
    split
    · split
      · exact h
      · rename_i j t htake
        obtain ⟨-, r, hr, hi, hrequests, hlanes, hcount, hcapacity, -, -⟩ :=
          takeNext_spec h htake
        exact ih (h.completeWithDisposalFailure hr hi hrequests hlanes hcount hcapacity)
    · exact h

theorem onRequest_eq_some {p : QueuedRequest R → Bool}
    {act : QueuedRequest R → ExecutionQueue R} (h : s.onRequest i p act = some s') :
    ∃ r, s.requests[i]? = some r ∧ p r = true ∧ act r = s' := by
  rw [onRequest] at h
  split at h
  · rename_i r hr
    split at h
    · rename_i hp
      exact ⟨r, hr, hp, Option.some.inj h⟩
    · cases h
  · cases h

theorem returnResult_eq_some (h : s.step cfg (.returnResult i) = some s') :
    ∃ r outcome, s.requests[i]? = some r ∧ r.completer = some outcome ∧
      r.caller = .awaitingResult ∧ s.put i (r.deliver outcome) = s' := by
  simp only [ExecutionQueue.step] at h
  split at h
  · rename_i r hr
    split at h
    · rename_i outcome hcompleter
      split at h
      · rename_i hcaller
        exact ⟨r, outcome, hr, hcompleter, hcaller, Option.some.inj h⟩
      · cases h
    · cases h
  · cases h

theorem Inv.step (h : Inv cfg s) {event : Event R} (hstep : s.step cfg event = some s') :
    Inv cfg s' := by
  cases event with
  | submit sub =>
    cases hstep
    exact h.submit sub
  | round => exact h.round hstep
  | queueWaitTimeout i timeoutSeconds =>
    obtain ⟨r, hr, hp, rfl⟩ := onRequest_eq_some hstep
    exact h.completeQueueWaitTimeout hr (by simpa using hp) timeoutSeconds
  | cancelToken token =>
    cases hstep
    obtain ⟨hrequests, hlanes, hcount, hcapacity, -⟩ := cancelOptionalToken_frame s (some token)
    exact h.frame hrequests hlanes hcount hcapacity
  | resetToken token =>
    cases hstep
    exact h.frame rfl rfl rfl rfl
  | deliverCancellation i =>
    obtain ⟨r, hr, _, rfl⟩ := onRequest_eq_some hstep
    have h₁ : Inv cfg { s with signals := s.signals.erase i } := h.frame rfl rfl rfl rfl
    exact h₁.cancelWaitingRequest hr
  | releaseWorker i =>
    obtain ⟨r, hr, hp, rfl⟩ := onRequest_eq_some hstep
    have hreq := h.request i r hr
    have hstarted : r.hasStarted = true := by
      simp only [Bool.and_eq_true] at hp
      exact hp.2
    exact h.releaseWorkerSlot hr rfl rfl (hreq.taken (Or.inl hstarted)) rfl rfl rfl
      (hreq.release hstarted)
  | finishTask i result =>
    obtain ⟨r, hr, hp, rfl⟩ := onRequest_eq_some hstep
    exact h.finishTask hr hp result
  | failTask i =>
    obtain ⟨r, hr, hp, rfl⟩ := onRequest_eq_some hstep
    exact h.failTask hr hp
  | observeStart i =>
    obtain ⟨r, hr, hp, rfl⟩ := onRequest_eq_some hstep
    simp only [Bool.and_eq_true, decide_eq_true_eq] at hp
    refine h.put hr ?_ ?_ ?_ h.capped rfl rfl rfl rfl
    · rfl
    · apply (h.request i r hr).observeStart hp.1
      intro hi
      simp [((h.request i r hr).waits hi).2.2.2.2] at hp
    · exact h.totals.set_same hr (share_congr rfl rfl rfl rfl)
  | returnResult i =>
    obtain ⟨r, outcome, hr, hcompleter, hcaller, rfl⟩ := returnResult_eq_some hstep
    refine h.put hr ?_ ?_ ?_ h.capped rfl rfl rfl rfl
    · rfl
    · exact (h.request i r hr).returnResult hcaller hcompleter
    · exact h.totals.set_same hr (share_congr rfl rfl rfl rfl)
  | pauseAdmission operationId =>
    cases hstep
    rw [pauseAdmissionForMaintenance]
    split
    · exact h
    · exact h.frame rfl rfl rfl rfl
  | resumeAdmission operationId =>
    cases hstep
    rw [resumeAdmissionAfterMaintenance]
    split
    · exact h.frame rfl rfl rfl rfl
    · exact h
  | dispose =>
    cases hstep
    apply Inv.disposeLoop
    exact h.frame rfl rfl rfl rfl

/-- The invariant holds in every state of every run. -/
theorem inv_of_reachable (h : (machine R cfg).Reachable s) : Inv cfg s := by
  refine h.invariant ?_ ?_
  · rintro s rfl
    exact Inv.empty
  · intro s event s' hs _ hstep
    exact hs.step hstep

end PlugAgente.Queue
