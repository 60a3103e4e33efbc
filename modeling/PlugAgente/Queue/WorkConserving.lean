import PlugAgente.Queue.Accounting

/-!
# Work conservation

A state with no loop of `_processQueue` under way has processed its events.  The
queue conserves work when in such a state no head of a lane may start.

Every event that frees a slot or takes a request off a lane enters the loop, with
one exception: a queue-wait timeout takes its request off the lane and leaves it
there.  In the lanes that count requests the next head has the same chances as the
one that went.  In the batch lane it may be lighter and fit where the old head did
not.  `conserves_work` says that this is the only way to lose the property, and
`timeout_idles_worker` is a run that loses it.
-/

namespace PlugAgente.Queue

open Ledger ExecutionQueue

variable {R : Type} {cfg : QueueConfig} {s s' : ExecutionQueue R} {i : Nat}
  {r : QueuedRequest R}

/-- No worker is free, or no head of a lane may start. -/
def NoEligibleHead (cfg : QueueConfig) (s : ExecutionQueue R) : Prop :=
  s.capacity.hasAvailableWorkerSlot cfg = true →
    ∀ k i rest, s.lanes k = i :: rest → s.canStart cfg i = false

/-- The events are processed only when no head of a lane may start. -/
def Driven (cfg : QueueConfig) (s : ExecutionQueue R) : Prop :=
  s.loops = 0 → NoEligibleHead cfg s

/-- The timeout of request `i` uncovers a batch that may start: `i` is the head of
the batch lane, a worker is free, and the next batch fits. -/
def Uncovers (cfg : QueueConfig) (s : ExecutionQueue R) (i : Nat) : Prop :=
  s.capacity.hasAvailableWorkerSlot cfg = true ∧
    ∃ j rest, s.lanes .batch = i :: j :: rest ∧ s.canStart cfg j = true

/-- The events other than a timeout that uncovers a batch that may start. -/
def NotUncovering (cfg : QueueConfig) (s : ExecutionQueue R) : Event R → Prop
  | .queueWaitTimeout i _ => ¬Uncovers cfg s i
  | _ => True

/-! ## Frames -/

/-- Two states in which every request has the same kind and weight. -/
def SameWeights (s s' : ExecutionQueue R) : Prop :=
  ∀ n : Nat, (s'.requests[n]?).map (fun r => (r.kind, r.slotWeight)) =
    (s.requests[n]?).map fun r => (r.kind, r.slotWeight)

theorem canStart_congr (h : SameWeights s s') (hcapacity : s'.capacity = s.capacity) (n : Nat) :
    s'.canStart cfg n = s.canStart cfg n := by
  have hn := h n
  rw [canStart, canStart, hcapacity]
  cases hs : s.requests[n]? with
  | none =>
    rw [hs] at hn
    rw [Option.map_eq_none_iff.mp hn]
  | some a =>
    rw [hs] at hn
    obtain ⟨b, hb, hab⟩ := Option.map_eq_some_iff.mp hn
    simp only [Prod.mk.injEq] at hab
    rw [hb]
    simp only [hab.1, hab.2]

theorem sameWeights_of_eq (h : s'.requests = s.requests) : SameWeights s s' := by
  intro n
  rw [h]

theorem sameWeights_set {r' : QueuedRequest R} (hr : s.requests[i]? = some r)
    (hkind : r'.kind = r.kind) (hweight : r'.slotWeight = r.slotWeight)
    (h : s'.requests = s.requests.set i r') : SameWeights s s' := by
  intro n
  rw [h]
  by_cases hn : n = i
  · subst hn
    rw [List.getElem?_set_self (List.getElem?_eq_some_iff.mp hr).1, hr]
    simp [hkind, hweight]
  · rw [List.getElem?_set_ne (fun he => hn he.symm)]

theorem Driven.frame (h : Driven cfg s) (hweights : SameWeights s s')
    (hlanes : s'.lanes = s.lanes) (hcapacity : s'.capacity = s.capacity)
    (hloops : s'.loops = s.loops) : Driven cfg s' := by
  intro hzero hfree k n rest hlane
  rw [hloops] at hzero
  rw [hcapacity] at hfree
  rw [hlanes] at hlane
  rw [canStart_congr hweights hcapacity]
  exact h hzero hfree k n rest hlane

theorem driven_of_loops (h : 0 < s.loops) : Driven cfg s := by
  intro hzero
  omega

/-! ## Events -/

theorem Driven.releaseWorkerSlot (h : Driven cfg s) (hr : s.requests[i]? = some r)
    {r' : QueuedRequest R} (hkind : r'.kind = r.kind) (hweight : r'.slotWeight = r.slotWeight) :
    Driven cfg (s.releaseWorkerSlot cfg i r') := by
  unfold ExecutionQueue.releaseWorkerSlot
  split
  · exact h.frame (sameWeights_set hr hkind hweight rfl) rfl rfl rfl
  · apply driven_of_loops
    exact Nat.succ_pos _

theorem QueuedRequest.kind_completeFailure (r : QueuedRequest R) (f : QueueFailure) :
    (r.completeFailure f).kind = r.kind ∧ (r.completeFailure f).slotWeight = r.slotWeight := by
  rw [completeFailure]
  split <;> exact ⟨rfl, rfl⟩

theorem Driven.submit (h : Driven cfg s) (hinv : Inv cfg s) (sub : Submission) :
    Driven cfg (s.submit cfg sub) := by
  -- A submission that is answered at once changes no lane and no counter.
  have hreject : ∀ failure, Driven cfg (s.reject sub failure) := by
    intro failure hzero hfree k n rest hlane
    have hold := h hzero hfree k n rest hlane
    obtain ⟨r, hr, _⟩ := hinv.placed k n (by rw [show s.lanes k = n :: rest from hlane]; simp)
    have hr' : (s.reject sub failure).requests[n]? = some r := by
      rw [reject, List.getElem?_append_left (List.getElem?_eq_some_iff.mp hr).1]
      exact hr
    rw [canStart, hr] at hold
    rw [canStart, hr']
    exact hold
  unfold ExecutionQueue.submit
  split
  · exact hreject _
  · split
    · exact hreject _
    · split
      · exact hreject _
      · apply driven_of_loops
        exact Nat.succ_pos _

theorem loops_startTaken (s : ExecutionQueue R) (i : Nat) (r : QueuedRequest R) :
    s.loops ≤ (s.startTaken cfg i r).loops := by
  unfold startTaken
  split
  · exact le_refl _
  · rw [executeTask]
    split
    · rw [ExecutionQueue.releaseWorkerSlot]
      split
      · exact le_refl _
      · exact Nat.le_succ _
    · exact le_refl _

theorem Inv.lanes_eq_nil (h : Inv cfg s) (hcount : s.queuedCount ≤ 0) (k : SqlExecutionKind) :
    s.lanes k = [] := by
  have htotal := h.queuedCount_eq
  simp only [laneTotal, laneOrder, total_cons, total_nil] at htotal
  cases k <;> exact List.length_eq_zero_iff.mp (by omega)

theorem Driven.round (hinv : Inv cfg s) (hround : s.round cfg = some s') : Driven cfg s' := by
  unfold ExecutionQueue.round at hround
  split at hround
  · cases hround
  · rename_i loops hloops
    split at hround
    · split at hround
      · -- The loop leaves because no head may start.
        rename_i htake
        cases hround
        intro _ _ k n rest hlane
        exact not_eligible_of_takeNext htake k hlane
      · rename_i j t htake
        obtain ⟨-, r, hr, -, hrequests, -, -, -, hkept, -⟩ := takeNext_spec hinv htake
        rw [hrequests, hr] at hround
        cases hround
        apply driven_of_loops
        have : t.loops ≤ (t.startTaken cfg j r).loops := loops_startTaken t j r
        omega
    · rename_i hstop
      cases hround
      intro _ hfree k n rest hlane
      have hcount : s.queuedCount ≤ 0 := by
        by_contra hpos
        apply hstop
        rw [show s.capacity.hasAvailableWorkerSlot cfg = true from hfree, Bool.true_and]
        simp only [decide_eq_true_eq]
        omega
      have hnil := hinv.lanes_eq_nil hcount k
      rw [show s.lanes k = n :: rest from hlane] at hnil
      cases hnil

theorem canStart_eq_of_kind (hinv : Inv cfg s) {k : SqlExecutionKind} (hk : k ≠ .batch)
    {m n : Nat} (hm : m ∈ s.lanes k) (hn : n ∈ s.lanes k) :
    s.canStart cfg m = s.canStart cfg n := by
  obtain ⟨a, ha, hak⟩ := hinv.placed k m hm
  obtain ⟨b, hb, hbk⟩ := hinv.placed k n hn
  rw [canStart, canStart, ha, hb]
  simp only [hak, hbk]
  cases k <;> first | rfl | exact absurd rfl hk

/-- A timeout that takes its request off a lane uncovers no head that may start,
unless it uncovers such a batch. -/
theorem NoEligibleHead.lanesWithout (h : NoEligibleHead cfg s) (hinv : Inv cfg s)
    {kind : SqlExecutionKind} (hi : i ∈ s.lanes kind) (hcovers : ¬Uncovers cfg s i)
    (hfree : s.capacity.hasAvailableWorkerSlot cfg = true) {k : SqlExecutionKind} {n : Nat}
    {rest : List Nat} (hlane : s.lanesWithout kind i k = n :: rest) : s.canStart cfg n = false := by
  rw [ExecutionQueue.lanesWithout] at hlane
  split at hlane
  · rename_i hk
    subst hk
    cases hold : s.lanes k with
    | nil => simp [hold] at hlane
    | cons m tail =>
      have hm : s.canStart cfg m = false := h hfree k m tail hold
      rw [hold] at hlane
      by_cases hmi : m = i
      · subst hmi
        rw [List.erase_cons_head] at hlane
        by_cases hbatch : k = .batch
        · subst hbatch
          rw [hlane] at hold
          by_contra hn
          exact hcovers ⟨hfree, n, rest, hold, by simpa using hn⟩
        · rw [canStart_eq_of_kind hinv hbatch (n := m) (m := n) (by simp [hold, hlane])
            (by simp [hold])]
          exact hm
      · rw [List.erase_cons_tail (by simpa using hmi)] at hlane
        cases hlane
        exact hm
  · exact h hfree k n rest hlane

theorem Driven.completeQueueWaitTimeout (h : Driven cfg s) (hinv : Inv cfg s)
    (hr : s.requests[i]? = some r) (hcovers : ¬Uncovers cfg s i) (timeoutSeconds : Int) :
    Driven cfg (s.completeQueueWaitTimeout cfg i r timeoutSeconds) := by
  have hreq := hinv.request i r hr
  obtain ⟨hrequests, hlanes, -, hcapacity, hloops⟩ :=
    cancelOptionalToken_frame s r.cooperativeCancellationToken
  unfold ExecutionQueue.completeQueueWaitTimeout
  dsimp only
  by_cases hi : i ∈ s.lanes r.kind
  · have hi₁ := hi
    rw [← hlanes] at hi₁
    rw [if_neg (by simp [hreq.not_hasStarted hi]), ExecutionQueue.remove, if_pos hi₁,
      Option.getD_some]
    intro hzero hfree k n rest hlane
    have hlane' : s.lanesWithout r.kind i k = n :: rest := by
      rw [ExecutionQueue.lanesWithout, ← hlanes]
      exact hlane
    have hfree' : s.capacity.hasAvailableWorkerSlot cfg = true := by
      rw [← hcapacity]
      exact hfree
    have hzero' : s.loops = 0 := by
      rw [← hloops]
      exact hzero
    rw [← (h hzero').lanesWithout hinv hi hcovers hfree' hlane']
    apply canStart_congr (s := s)
    · refine sameWeights_set hr ?_ ?_ (congrArg (List.set · i _) hrequests)
      · rfl
      · rfl
    · exact hcapacity
  · have hnone : (s.cancelOptionalToken r.cooperativeCancellationToken).remove r.kind i = none := by
      rw [ExecutionQueue.remove, hlanes, if_neg hi]
    rw [hnone, Option.getD_none, ite_self]
    refine h.frame (sameWeights_set hr ?_ ?_ (congrArg (List.set · i _) hrequests)) hlanes hcapacity
      hloops
    · rfl
    · rfl

theorem Driven.cancelWaitingRequest (h : Driven cfg s) :
    Driven cfg (s.cancelWaitingRequest i r) := by
  unfold ExecutionQueue.cancelWaitingRequest
  split
  · exact h
  · split
    · exact h
    · apply driven_of_loops
      exact Nat.succ_pos _

theorem lanes_disposeLoop (fuel : Nat) : ∀ {s : ExecutionQueue R}, Inv cfg s →
    s.queuedCount ≤ fuel → ∀ k, (disposeLoop fuel s).lanes k = [] := by
  induction fuel with
  | zero =>
    intro s hinv hcount k
    exact hinv.lanes_eq_nil (by exact_mod_cast hcount) k
  | succ fuel ih =>
    intro s hinv hcount k
    rw [ExecutionQueue.disposeLoop]
    split
    · split
      · rename_i htake
        cases hlane : s.lanes k with
        | nil => rfl
        | cons n rest => exact absurd (not_eligible_of_takeNext htake k hlane) (by simp)
      · rename_i j t htake
        obtain ⟨-, r, hr, hi, hrequests, hlanes, hkept, hcapacity, -, -⟩ :=
          takeNext_spec hinv htake
        have hnext := hinv.completeWithDisposalFailure hr hi hrequests hlanes hkept hcapacity
        apply ih hnext
        have hsame : (t.completeWithDisposalFailure j).queuedCount = t.queuedCount := by
          unfold ExecutionQueue.completeWithDisposalFailure
          split
          · rfl
          · split <;> rfl
        rw [hsame, hkept]
        push_cast at hcount
        omega
    · rename_i hpos
      exact hinv.lanes_eq_nil (by omega) k

/-- Every event keeps the queue driven, a timeout that uncovers a batch that may
start apart. -/
theorem Driven.step (h : Driven cfg s) (hinv : Inv cfg s) {event : Event R}
    (hcovers : NotUncovering cfg s event) (hstep : s.step cfg event = some s') :
    Driven cfg s' := by
  cases event with
  | submit sub =>
    cases hstep
    exact h.submit hinv sub
  | round => exact Driven.round hinv hstep
  | queueWaitTimeout i timeoutSeconds =>
    obtain ⟨r, hr, _, rfl⟩ := onRequest_eq_some hstep
    exact h.completeQueueWaitTimeout hinv hr hcovers timeoutSeconds
  | cancelToken token =>
    cases hstep
    obtain ⟨hrequests, hlanes, -, hcapacity, hloops⟩ := cancelOptionalToken_frame s (some token)
    exact h.frame (sameWeights_of_eq hrequests) hlanes hcapacity hloops
  | resetToken token =>
    cases hstep
    exact h.frame (sameWeights_of_eq rfl) rfl rfl rfl
  | deliverCancellation i =>
    obtain ⟨r, hr, _, rfl⟩ := onRequest_eq_some hstep
    have h₁ : Driven cfg { s with signals := s.signals.erase i } :=
      h.frame (sameWeights_of_eq rfl) rfl rfl rfl
    exact h₁.cancelWaitingRequest
  | releaseWorker i =>
    obtain ⟨r, hr, _, rfl⟩ := onRequest_eq_some hstep
    exact h.releaseWorkerSlot hr rfl rfl
  | finishTask i result =>
    obtain ⟨r, hr, _, rfl⟩ := onRequest_eq_some hstep
    exact h.releaseWorkerSlot hr rfl rfl
  | failTask i =>
    obtain ⟨r, hr, _, rfl⟩ := onRequest_eq_some hstep
    exact h.releaseWorkerSlot hr (QueuedRequest.kind_completeFailure _ _).1
      (QueuedRequest.kind_completeFailure _ _).2
  | observeStart i =>
    obtain ⟨r, hr, _, rfl⟩ := onRequest_eq_some hstep
    refine h.frame (sameWeights_set hr ?_ ?_ rfl) rfl rfl rfl
    · rfl
    · rfl
  | returnResult i =>
    obtain ⟨r, outcome, hr, _, _, rfl⟩ := returnResult_eq_some hstep
    refine h.frame (sameWeights_set hr ?_ ?_ rfl) rfl rfl rfl
    · rfl
    · rfl
  | pauseAdmission operationId =>
    cases hstep
    rw [pauseAdmissionForMaintenance]
    split <;> exact h.frame (sameWeights_of_eq rfl) rfl rfl rfl
  | resumeAdmission operationId =>
    cases hstep
    rw [resumeAdmissionAfterMaintenance]
    split <;> exact h.frame (sameWeights_of_eq rfl) rfl rfl rfl
  | dispose =>
    cases hstep
    intro _ _ k n rest hlane
    have hinv' : Inv cfg { s with disposed := true } := hinv.frame rfl rfl rfl rfl
    rw [ExecutionQueue.dispose, lanes_disposeLoop _ hinv' (Int.self_le_toNat _)] at hlane
    cases hlane

/-- In every run in which no queue-wait timeout takes the head off the batch lane
while a worker is free and the next batch fits, no state that has processed its
events has a free worker and a head that may start. -/
theorem conserves_work (h : (machine R cfg).Reach (NotUncovering cfg) s) (hloops : s.loops = 0)
    (hfree : s.capacity.hasAvailableWorkerSlot cfg = true) :
    ∀ k i rest, s.lanes k = i :: rest → s.canStart cfg i = false := by
  have hdriven : Inv cfg s ∧ Driven cfg s := by
    refine h.invariant (I := fun s => Inv cfg s ∧ Driven cfg s) ?_ ?_
    · rintro s rfl
      refine ⟨Inv.empty, ?_⟩
      intro _ _ k n rest hlane
      cases hlane
    · intro s event s' hs hcovers hstep
      exact ⟨hs.1.step hstep, hs.2.step hs.1 hcovers hstep⟩
  exact hdriven.2 hloops hfree

/-- On two workers a batch runs and one that needs its whole lane waits: the free
worker finds nothing to start. -/
theorem conserves_work_batch :
    let s := after twoWorkers
      [.submit { kind := .batch }, .submit { kind := .batch, slotWeight := 2 }, .round, .round,
        .round]
    s.loops = 0 ∧ s.capacity.hasAvailableWorkerSlot twoWorkers = true ∧
      s.lanes .batch = [1] ∧ s.canStart twoWorkers 1 = false := by
  intro s
  have h : (machine Nat twoWorkers).Reach (NotUncovering twoWorkers) s := by
    refine reach_after ?_ (by decide)
    intro s event hevent
    simp only [List.mem_cons, List.not_mem_nil, or_false] at hevent
    rcases hevent with rfl | rfl | rfl | rfl | rfl <;> exact trivial
  refine ⟨by decide, by decide, by decide, ?_⟩
  exact conserves_work h (by decide) (by decide) .batch 1 [] (by decide)

/-- A batch of weight 1 runs, one of weight 2 waits at the head of the lane and
one of weight 1 behind it.  The head times out: the last batch fits, a worker is
free, no loop is under way, and nothing starts it. -/
theorem timeout_idles_worker :
    ∃ s : ExecutionQueue Nat, (machine Nat twoWorkers).Reachable s ∧ s.loops = 0 ∧
      s.capacity.hasAvailableWorkerSlot twoWorkers = true ∧
      s.lanes .batch = [2] ∧ s.canStart twoWorkers 2 = true :=
  ⟨after twoWorkers
      [.submit { kind := .batch }, .round, .round,
        .submit { kind := .batch, slotWeight := 2 }, .round,
        .submit { kind := .batch }, .round, .queueWaitTimeout 1 5],
    reachable_after (by decide), by decide, by decide, by decide, by decide⟩

end PlugAgente.Queue
