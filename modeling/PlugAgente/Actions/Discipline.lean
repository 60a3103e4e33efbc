import PlugAgente.Actions.QueueInvariant

/-!
# The discipline of the action execution queue

For an action whose requests all have one policy, and a policy that does not allow parallel
executions: the running tasks and the queue stay within the limits of the policy, nothing
waits while a slot is free, and tasks are started in the order of the calls of `enqueue`.
Every future is completed once, and one that is not complete belongs to a call that waits, to
one whose task is under way, or to one that follows such a call.
-/

namespace PlugAgente.Actions

open Ledger

namespace ActionExecutionQueue

variable {s t : ActionExecutionQueue} {a : String} {policy : AgentActionQueuePolicy}

def HasPolicy (a : String) (policy : AgentActionQueuePolicy) (request : AgentActionQueueRequest) :
    Prop :=
  request.actionId = a → request.policy = policy

/-- The limits of the policy and the order of the starts. -/
structure Line (s : ActionExecutionQueue) (a : String) (policy : AgentActionQueuePolicy) :
    Prop where
  requests : ∀ (k : Nat) (c : Call), s.calls[k]? = some c → HasPolicy a policy c.request
  running : s.runningByActionId a ≤ policy.maxConcurrent
  queued : (s.pendingByActionId a).length ≤ policy.maxQueued
  order : (s.started a ++ s.pendingByActionId a).Pairwise (· < ·)
  made : ∀ k ∈ s.started a, k < s.calls.length

/-- Nothing waits while a slot is free. -/
structure Disciplined (s : ActionExecutionQueue) (a : String) (policy : AgentActionQueuePolicy) :
    Prop extends s.Line a policy where
  full : s.pendingByActionId a ≠ [] → s.canRunNow a policy = false

theorem Disciplined.start_state : Disciplined {} a policy := by
  refine ⟨⟨?_, ?_, ?_, ?_, ?_⟩, ?_⟩ <;> simp

/-! ## Changes that start nothing -/

theorem requests_changed
    (h : ∀ (k : Nat) (c : Call), s.calls[k]? = some c → HasPolicy a policy c.request) {k : Nat}
    {c : Call} (hk : s.calls[k]? = some c) {f : Call → Call}
    (hrequest : (f c).request = c.request) :
    ∀ (n : Nat) (d : Call), (s.calls.modify k f)[n]? = some d → HasPolicy a policy d.request := by
  intro n d hn
  rw [getElem?_changed hk] at hn
  split at hn
  · rw [← Option.some.inj hn, hrequest]
    exact h k c hk
  · exact h n d hn

theorem requests_added
    (h : ∀ (k : Nat) (c : Call), s.calls[k]? = some c → HasPolicy a policy c.request) {c : Call}
    (hrequest : HasPolicy a policy c.request) :
    ∀ (n : Nat) (d : Call), (s.calls ++ [c])[n]? = some d → HasPolicy a policy d.request := by
  intro n d hn
  rcases getElem?_added hn with hn | ⟨-, rfl⟩
  · exact h n d hn
  · exact hrequest

/-- Changes after which no more runs and no more waits. -/
theorem Line.frame (h : s.Line a policy)
    (hrequests : ∀ (k : Nat) (c : Call), t.calls[k]? = some c → HasPolicy a policy c.request)
    (hcalls : s.calls.length ≤ t.calls.length)
    (hrunning : t.runningByActionId a ≤ s.runningByActionId a)
    (hstarted : t.started a = s.started a)
    (hpending : (t.pendingByActionId a).Sublist (s.pendingByActionId a)) : t.Line a policy where
  requests := hrequests
  running := hrunning.trans h.running
  queued := hpending.length_le.trans h.queued
  order := by
    rw [hstarted]
    exact h.order.sublist ((List.Sublist.refl _).append hpending)
  made := by
    intro k hk
    rw [hstarted] at hk
    exact (h.made k hk).trans_le hcalls

theorem canRunNow_frame (hrunning : t.runningByActionId a = s.runningByActionId a)
    (hids : t.runningExecutionIdsByActionId a = s.runningExecutionIdsByActionId a)
    (hunconfirmed : ∀ x ∈ s.unconfirmedCleanup, x ∈ t.unconfirmedCleanup)
    (h : s.canRunNow a policy = false) : t.canRunNow a policy = false := by
  rw [canRunNow, Bool.and_eq_false_iff] at h ⊢
  rcases h with hblocked | hbusy
  · left
    rw [Bool.not_eq_false', hasUnconfirmedCleanup, List.any_eq_true] at hblocked ⊢
    obtain ⟨x, hx, hretained⟩ := hblocked
    rw [hids]
    exact ⟨x, hx, by simpa using hunconfirmed x (by simpa using hretained)⟩
  · right
    rw [hrunning]
    exact hbusy

theorem Disciplined.frame (h : s.Disciplined a policy)
    (hrequests : ∀ (k : Nat) (c : Call), t.calls[k]? = some c → HasPolicy a policy c.request)
    (hcalls : s.calls.length ≤ t.calls.length)
    (hrunning : t.runningByActionId a = s.runningByActionId a)
    (hids : t.runningExecutionIdsByActionId a = s.runningExecutionIdsByActionId a)
    (hunconfirmed : ∀ x ∈ s.unconfirmedCleanup, x ∈ t.unconfirmedCleanup)
    (hstarted : t.started a = s.started a)
    (hpending : (t.pendingByActionId a).Sublist (s.pendingByActionId a)) :
    t.Disciplined a policy where
  toLine := h.toLine.frame hrequests hcalls hrunning.le hstarted hpending
  full := by
    intro hne
    refine canRunNow_frame hrunning hids hunconfirmed (h.full ?_)
    intro hempty
    rw [hempty, List.sublist_nil] at hpending
    exact hne hpending

theorem Disciplined.addCall (h : s.Disciplined a policy) {c : Call}
    (hrequest : HasPolicy a policy c.request) : (s.addCall c).Disciplined a policy := by
  refine h.frame (requests_added h.requests hrequest) ?_ rfl rfl (fun _ hx => hx) rfl
    (List.Sublist.refl _)
  show s.calls.length ≤ (s.calls ++ [c]).length
  simp

theorem Disciplined.modifyCall (h : s.Disciplined a policy) {k : Nat} {c : Call}
    (hk : s.calls[k]? = some c) {f : Call → Call} (hrequest : (f c).request = c.request) :
    (s.modifyCall k f).Disciplined a policy := by
  refine h.frame (requests_changed h.requests hk hrequest) ?_ rfl rfl (fun _ hx => hx) rfl
    (List.Sublist.refl _)
  show s.calls.length ≤ (s.calls.modify k f).length
  simp

theorem Disciplined.withdraw (h : s.Disciplined a policy) {b : String} {k : Nat} {c : Call}
    (hk : s.calls[k]? = some c) (code : FailureCode) :
    (s.withdraw b k code).Disciplined a policy := by
  refine h.frame (requests_changed h.requests hk rfl) ?_ rfl rfl (fun _ hx => hx) rfl ?_
  · show s.calls.length ≤ (s.calls.modify k _).length
    simp
  · show (Function.update s.pendingByActionId b _ a).Sublist _
    by_cases ha : a = b
    · subst ha
      rw [Function.update_self]
      exact List.erase_sublist
    · rw [Function.update_of_ne ha]

theorem Disciplined.dispose (h : s.Disciplined a policy) : s.dispose.Disciplined a policy := by
  rw [ActionExecutionQueue.dispose]
  split
  · exact h
  · refine h.frame ?_ ?_ rfl rfl (fun _ hx => hx) rfl (List.nil_sublist _)
    · intro k d hk
      change (s.calls.mapIdx s.failDisposed)[k]? = some d at hk
      rw [List.getElem?_mapIdx, Option.map_eq_some_iff] at hk
      obtain ⟨c, hc, rfl⟩ := hk
      rw [(s.failDisposed_keeps k c).1]
      exact h.requests k c hc
    · show s.calls.length ≤ (s.calls.mapIdx s.failDisposed).length
      simp

theorem Line.endRunning (h : s.Line a policy) {k : Nat} {c : Call} (hk : s.calls[k]? = some c)
    (request : AgentActionQueueRequest) : (s.endRunning k request).Line a policy := by
  rw [ActionExecutionQueue.endRunning]
  split
  · exact h
  · refine h.frame (requests_changed h.requests hk rfl) ?_ ?_ rfl (List.Sublist.refl _)
    · show s.calls.length ≤ (s.calls.modify k _).length
      simp
    · show Function.update s.runningByActionId request.actionId _ a ≤ _
      by_cases ha : a = request.actionId
      · subst ha
        rw [Function.update_self]
        omega
      · rw [Function.update_of_ne ha]

theorem Disciplined.endRunning (h : s.Disciplined a policy) {k : Nat} {c : Call}
    (hk : s.calls[k]? = some c) {request : AgentActionQueueRequest}
    (hother : a ≠ request.actionId) : (s.endRunning k request).Disciplined a policy := by
  rw [ActionExecutionQueue.endRunning]
  split
  · exact h
  · refine h.frame (requests_changed h.requests hk rfl) ?_ (Function.update_of_ne hother _ _)
      (Function.update_of_ne hother _ _) (fun _ hx => hx) rfl (List.Sublist.refl _)
    show s.calls.length ≤ (s.calls.modify k _).length
    simp

/-! ## Starts -/

theorem Disciplined.start (h : s.Disciplined a policy) {k : Nat} {c : Call}
    (hk : s.calls[k]? = some c) {request : AgentActionQueueRequest}
    (hother : a ≠ request.actionId) (status : Status) :
    (s.start k request status).Disciplined a policy := by
  refine h.frame (requests_changed h.requests hk rfl) ?_ (Function.update_of_ne hother _ _)
    (Function.update_of_ne hother _ _) (fun _ hx => hx) (Function.update_of_ne hother _ _)
    (List.Sublist.refl _)
  show s.calls.length ≤ (s.calls.modify k _).length
  simp

theorem canRunNow_iff : s.canRunNow a policy = true ↔
    s.hasUnconfirmedCleanup a = false ∧ s.runningByActionId a < policy.maxConcurrent := by
  simp [canRunNow]

theorem Line.startHead (h : s.Line a policy) {k : Nat} {rest : List Nat} {c : Call}
    (hqueue : s.pendingByActionId a = k :: rest) (hk : s.calls[k]? = some c)
    (haction : c.request.actionId = a) (hcan : s.canRunNow a c.request.policy = true) :
    (s.startHead a k rest c.request).Line a policy := by
  rw [h.requests k c hk haction] at hcan
  have hfree := (canRunNow_iff.mp hcan).2
  have hpending : (s.startHead a k rest c.request).pendingByActionId a = rest :=
    Function.update_self _ _ _
  have hstarted : (s.startHead a k rest c.request).started a = s.started a ++ [k] := by
    show Function.update s.started c.request.actionId _ a = _
    rw [haction, Function.update_self]
  refine ⟨requests_changed h.requests hk rfl, ?_, ?_, ?_, ?_⟩
  · show Function.update s.runningByActionId c.request.actionId _ a ≤ _
    rw [haction, Function.update_self]
    exact hfree
  · have hqueued := h.queued
    rw [hqueue, List.length_cons] at hqueued
    rw [hpending]
    omega
  · have horder := h.order
    rw [hqueue] at horder
    rw [hstarted, hpending, List.append_assoc]
    exact horder
  · intro n hn
    rw [hstarted, List.mem_append, List.mem_singleton] at hn
    show n < (s.calls.modify k _).length
    rw [List.length_modify]
    rcases hn with hn | rfl
    · exact h.made n hn
    · exact (List.getElem?_eq_some_iff.mp hk).1

theorem Disciplined.runNow (h : s.Disciplined a policy) {request : AgentActionQueueRequest}
    (haction : request.actionId = a) (hpolicy : request.policy = policy)
    (hcan : s.canRunNow a policy = true) :
    ((s.addCall { request := request, status := .waiting }).start s.calls.length request
      .runningNow).Disciplined a policy := by
  have hempty : s.pendingByActionId a = [] := by
    by_contra hne
    rw [h.full hne] at hcan
    exact absurd hcan (by simp)
  have hadded := (h.addCall (c := { request := request, status := .waiting })
    (fun _ => hpolicy)).requests
  have horder := h.order
  rw [hempty, List.append_nil] at horder
  refine ⟨⟨requests_changed hadded (getElem?_addCall s _) rfl, ?_, ?_, ?_, ?_⟩, ?_⟩
  · show Function.update s.runningByActionId request.actionId _ a ≤ _
    rw [haction, Function.update_self]
    exact (canRunNow_iff.mp hcan).2
  · exact h.queued
  · show (Function.update s.started request.actionId _ a ++ s.pendingByActionId a).Pairwise _
    rw [haction, Function.update_self, hempty, List.append_nil, List.pairwise_append]
    refine ⟨horder, List.pairwise_singleton _ _, ?_⟩
    intro n hn m hm
    obtain rfl := List.mem_singleton.mp hm
    exact h.made n hn
  · intro n hn
    change n ∈ Function.update s.started request.actionId _ a at hn
    rw [haction, Function.update_self, List.mem_append, List.mem_singleton] at hn
    show n < ((s.calls ++ [_]).modify s.calls.length _).length
    rw [List.length_modify, List.length_append, List.length_singleton]
    rcases hn with hn | rfl
    · exact (h.made n hn).trans_le (Nat.le_add_right _ _)
    · exact Nat.lt_succ_self _
  · intro hne
    exact absurd hempty hne

theorem Line.push (h : s.Line a policy) {request : AgentActionQueueRequest}
    (hinv : s.Inv none) (haction : request.actionId = a) (hpolicy : request.policy = policy)
    (hroom : (s.pendingByActionId a).length < policy.maxQueued) :
    (s.push request).Line a policy := by
  have hpending : (s.push request).pendingByActionId a =
      s.pendingByActionId a ++ [s.calls.length] := by
    show Function.update s.pendingByActionId request.actionId _ a = _
    rw [haction, Function.update_self]
  have hbound : ∀ n ∈ s.started a ++ s.pendingByActionId a, n < s.calls.length := by
    intro n hn
    rcases List.mem_append.mp hn with hn | hn
    · exact h.made n hn
    · obtain ⟨-, c, hc, -⟩ := (hinv.pending a n).mp hn
      exact (List.getElem?_eq_some_iff.mp hc).1
  refine ⟨requests_added h.requests (fun _ => hpolicy), h.running, ?_, ?_, ?_⟩
  · rw [hpending, List.length_append, List.length_singleton]
    exact hroom
  · rw [hpending, ← List.append_assoc, List.pairwise_append]
    refine ⟨h.order, List.pairwise_singleton _ _, ?_⟩
    intro n hn m hm
    obtain rfl := List.mem_singleton.mp hm
    exact hbound n hn
  · intro n hn
    show n < (s.calls ++ [_]).length
    rw [List.length_append]
    exact (h.made n hn).trans_le (Nat.le_add_right _ _)

theorem Line.drain (h : s.Line a policy) (hinv : s.Inv none) :
    (s.drain a).Disciplined a policy := by
  obtain ⟨hdrained, hline, hleft⟩ := hinv.drain (P := fun u => u.Line a policy) h
    (fun _ _ _ _ _ hP hqueue hk _ haction hcan => hP.startHead hqueue hk haction hcan)
  refine ⟨hline, ?_⟩
  intro hne
  obtain ⟨k, rest, hqueue⟩ := List.exists_cons_of_ne_nil hne
  obtain ⟨c, hk, -, haction⟩ := hdrained.head hqueue
  have hcannot := hleft k rest c hqueue hk
  rwa [hline.requests k c hk haction] at hcannot

theorem Disciplined.drain (h : s.Disciplined a policy) (hinv : s.Inv none) {b : String}
    (hother : a ≠ b) : (s.drain b).Disciplined a policy := by
  refine (hinv.drain (P := fun u => u.Disciplined a policy) h ?_).2.1
  intro u k rest c _ hP _ hk _ haction _
  have hdequeued : Disciplined
      { u with pendingByActionId := Function.update u.pendingByActionId b rest } a policy := by
    refine hP.frame hP.requests le_rfl rfl rfl (fun _ hx => hx) rfl ?_
    show (Function.update u.pendingByActionId b rest a).Sublist _
    rw [Function.update_of_ne hother]
  exact hdequeued.start hk (haction ▸ hother) _

/-! ## Runs -/

theorem Disciplined.move (h : s.Disciplined a policy) (hinv : s.Inv none)
    (hbehavior : policy.concurrencyBehavior ≠ .allowParallel) {m : ActionExecutionQueue}
    (hm : Move (HasPolicy a policy) s m) : m.Disciplined a policy := by
  cases hm with
  | quiet => exact h
  | add _ _ _ hrequest _ => exact h.addCall hrequest
  | @run request _ hcan hrequest =>
    by_cases ha : a = request.actionId
    · subst ha
      have hpolicy := hrequest rfl
      rw [hpolicy] at hcan
      exact h.runNow rfl hpolicy (hcan.resolve_left hbehavior)
    · exact (h.addCall hrequest).start (getElem?_addCall s _) ha _
  | @push request hdisposed _ hroom hrequest =>
    by_cases ha : a = request.actionId
    · subst ha
      have hpolicy := hrequest rfl
      rw [hpolicy] at hroom
      exact (h.toLine.push hinv rfl hpolicy hroom).drain (hinv.push request hdisposed)
    · have hpushed : (s.push request).Disciplined a policy := by
        refine (h.addCall hrequest).frame (requests_added h.requests hrequest) le_rfl rfl rfl
          (fun _ hx => hx) rfl ?_
        show (Function.update s.pendingByActionId request.actionId _ a).Sublist _
        rw [Function.update_of_ne ha]
        exact List.Sublist.refl _
      exact hpushed.drain (hinv.push request hdisposed) ha
  | @withdraw b k hk code =>
    obtain ⟨-, c, hc, -⟩ := (hinv.pending b k).mp hk
    exact h.withdraw hc code
  | change hk _ _ _ _ _ hrequest => exact h.modifyCall hk hrequest
  | @release k c f he =>
    have hended := h.modifyCall he.found he.request
    have hfound := (hinv.ending he).2
    by_cases ha : a = c.request.actionId
    · subst ha
      exact (hended.toLine.endRunning hfound _).drain (hinv.released he)
    · exact (hended.endRunning hfound ha).drain (hinv.released he) ha
  | retain executionId =>
    exact h.frame h.requests le_rfl rfl rfl (fun _ hx => List.mem_append_left _ hx) rfl
      (List.Sublist.refl _)
  | dispose _ => exact h.dispose

/-- Every request of the action has the policy. -/
def ConstantPolicy (a : String) (policy : AgentActionQueuePolicy) (_ : ActionExecutionQueue)
    (event : Event) : Prop :=
  ∀ request gate, event = .enqueue request gate → request.actionId = a → request.policy = policy

theorem disciplined_of_reach (hbehavior : policy.concurrencyBehavior ≠ .allowParallel)
    (h : actionExecutionQueue.Reach (ConstantPolicy a policy) s) : s.Disciplined a policy := by
  refine (h.invariant (I := fun s => s.Inv none ∧ s.Disciplined a policy) ?_ ?_).2
  · rintro s rfl
    exact ⟨Inv.start_state, Disciplined.start_state⟩
  · rintro s event s' ⟨hinv, hs⟩ hguard hstep
    refine ⟨hinv.step hstep, ?_⟩
    obtain ⟨m, results, operation, hm, rfl, -⟩ :=
      @Inv.step_moves s hinv event s' hstep (HasPolicy a policy) hguard
    have hmoved := hs.move hinv hbehavior hm
    exact hmoved.frame hmoved.requests le_rfl rfl rfl (fun _ hx => hx) rfl (List.Sublist.refl _)

/-! ## Futures -/

/-- The call does not follow another one. -/
def Original (s : ActionExecutionQueue) (k : Nat) : Prop :=
  ∃ c : Call, s.calls[k]? = some c ∧ ∀ source, c.status ≠ .replaying source

/-- What `t` has of the calls of `s` that follow others, and of the stored results. -/
structure Carries (s t : ActionExecutionQueue) : Prop where
  results : t.idempotentResults = s.idempotentResults
  original : ∀ k, s.Original k → t.Original k
  followed : ∀ (k : Nat) (c : Call) (source : Nat), t.calls[k]? = some c →
    c.status = .replaying source →
    (∃ d : Call, s.calls[k]? = some d ∧ d.status = .replaying source) ∨
      source ∈ s.idempotentResults.map Prod.snd

theorem Carries.refl (s : ActionExecutionQueue) : s.Carries s :=
  ⟨rfl, fun _ hk => hk, fun _ c _ hk hstatus => .inl ⟨c, hk, hstatus⟩⟩

theorem Carries.changed (h : s.Carries t) {u : ActionExecutionQueue}
    (hresults : u.idempotentResults = t.idempotentResults) {k : Nat} {c : Call}
    (hk : t.calls[k]? = some c) {f : Call → Call}
    (hplain : ∀ source, (f c).status ≠ .replaying source)
    (hcalls : u.calls = t.calls.modify k f) : s.Carries u := by
  refine ⟨hresults.trans h.results, ?_, ?_⟩
  · intro n hn
    obtain ⟨d, hd, hstatus⟩ := h.original n hn
    rw [Original, hcalls, getElem?_changed hk]
    by_cases hnk : n = k
    · exact ⟨f c, if_pos hnk, hplain⟩
    · exact ⟨d, by rw [if_neg hnk, hd], hstatus⟩
  · intro n d source hn hstatus
    rw [hcalls, getElem?_changed hk] at hn
    split at hn
    · obtain rfl := Option.some.inj hn
      exact absurd hstatus (hplain source)
    · exact h.followed n d source hn hstatus

theorem Carries.added (h : s.Carries t) {u : ActionExecutionQueue}
    (hresults : u.idempotentResults = t.idempotentResults) {c : Call}
    (hcalls : u.calls = t.calls ++ [c])
    (hsource : ∀ source, c.status = .replaying source →
      source ∈ s.idempotentResults.map Prod.snd) : s.Carries u := by
  refine ⟨hresults.trans h.results, ?_, ?_⟩
  · intro n hn
    obtain ⟨d, hd, hstatus⟩ := h.original n hn
    exact ⟨d, by rw [hcalls, getElem?_kept hd], hstatus⟩
  · intro n d source hn hstatus
    rw [hcalls] at hn
    rcases getElem?_added hn with hn | ⟨-, rfl⟩
    · exact h.followed n d source hn hstatus
    · exact .inr (hsource source hstatus)

theorem Carries.drain (h : s.Carries t) (hinv : t.Inv none) (b : String) :
    s.Carries (t.drain b) := by
  refine (hinv.drain (P := fun u => s.Carries u) h ?_).2.1
  intro u k rest c _ hP _ hk _ _ _
  exact hP.changed rfl hk (f := fun c => c.begun .runningQueued) (by simp [Call.begun]) rfl

theorem Carries.endRunning (h : s.Carries t) {k : Nat} {c : Call} (hk : t.calls[k]? = some c)
    (hplain : ∀ source, c.status ≠ .replaying source) (request : AgentActionQueueRequest) :
    s.Carries (t.endRunning k request) := by
  rw [ActionExecutionQueue.endRunning]
  split
  · exact h
  · exact h.changed rfl hk (f := Call.released) hplain rfl

theorem carries_dispose (hinv : s.Inv none) (hdisposed : s.disposed = false) :
    s.Carries s.dispose := by
  rw [dispose, if_neg (by simp [hdisposed])]
  refine ⟨rfl, ?_, ?_⟩
  · rintro k ⟨c, hk, hplain⟩
    refine ⟨s.failDisposed k c, ?_, ?_⟩
    · show (s.calls.mapIdx s.failDisposed)[k]? = _
      rw [List.getElem?_mapIdx, hk]
      rfl
    · intro source
      rcases hinv.failDisposed_eq hk with ⟨-, hdone, -⟩ | ⟨-, heq⟩
      · rw [hdone]
        simp
      · rw [heq]
        exact hplain source
  · intro k d source hk hstatus
    change (s.calls.mapIdx s.failDisposed)[k]? = some d at hk
    rw [List.getElem?_mapIdx, Option.map_eq_some_iff] at hk
    obtain ⟨c, hc, rfl⟩ := hk
    rcases hinv.failDisposed_eq hc with ⟨-, hdone, -⟩ | ⟨-, heq⟩
    · rw [hdone] at hstatus
      exact absurd hstatus (by simp)
    · rw [heq] at hstatus
      exact .inl ⟨c, hc, hstatus⟩

theorem carries_move {allowed : AgentActionQueueRequest → Prop} (hinv : s.Inv none)
    {m : ActionExecutionQueue} (hm : Move allowed s m) : s.Carries m := by
  have hself := Carries.refl s
  cases hm with
  | quiet => exact hself
  | add _ _ _ _ hsource => exact hself.added rfl rfl hsource
  | @run request _ _ _ =>
    have hadded := hself.added (u := s.addCall { request := request, status := .waiting })
      rfl rfl (by simp)
    exact hadded.changed rfl (getElem?_addCall s _) (f := fun c => c.begun .runningNow)
      (by simp [Call.begun]) rfl
  | @push request hdisposed _ _ _ =>
    have hpushed := hself.added (u := s.push request) rfl rfl (by simp)
    exact hpushed.drain (hinv.push request hdisposed) _
  | @withdraw b k hk code =>
    obtain ⟨-, c, hc, -⟩ := (hinv.pending b k).mp hk
    exact hself.changed rfl hc (by simp) rfl
  | change hk _ _ _ hplain _ _ => exact hself.changed rfl hk hplain rfl
  | @release k c f he =>
    have hplain : ∀ source, (f c).status ≠ .replaying source := by
      intro source
      rw [he.done]
      simp
    have hended := hself.changed (u := s.modifyCall k f) rfl he.found hplain rfl
    exact (hended.endRunning (hinv.ending he).2 hplain _).drain (hinv.released he) _
  | retain _ => exact ⟨rfl, hself.original, hself.followed⟩
  | dispose hdisposed => exact carries_dispose hinv hdisposed

theorem original_schedule (hinv : s.Inv none) (request : AgentActionQueueRequest) :
    (s.schedule request).Original s.calls.length := by
  have hrefuse : ∀ code, (s.refuse request code).Original s.calls.length := fun code =>
    ⟨_, getElem?_addCall s _, by simp⟩
  have hrun : (s.runNow request).Original s.calls.length := by
    rw [runNow]
    split
    · exact hrefuse _
    · refine ⟨_, (getElem?_changed (getElem?_addCall s _) _ _).trans (if_pos rfl), ?_⟩
      simp [Call.begun]
  rw [schedule]
  split
  · exact hrun
  · split
    · exact hrefuse _
    · exact hrefuse _
    · rw [enqueuePending]
      split
      · exact hrefuse _
      · rename_i hopen
        dsimp only
        split
        · exact hrefuse _
        · have hpushed : (s.push request).Original s.calls.length :=
            ⟨_, getElem?_addCall s _, by simp⟩
          exact ((Carries.refl (s.push request)).drain
            (hinv.push request (by simpa using hopen)) request.actionId).original _ hpushed
    · exact hrun

/-- Stored results and followed calls are of calls that follow none. -/
structure Sourced (s : ActionExecutionQueue) : Prop where
  stored : ∀ entry ∈ s.idempotentResults, s.Original entry.2
  followed : ∀ (k : Nat) (c : Call) (source : Nat), s.calls[k]? = some c →
    c.status = .replaying source → s.Original source

theorem Sourced.step (h : s.Sourced) (hinv : s.Inv none) {event : Event}
    {s' : ActionExecutionQueue} (hstep : actionExecutionQueue.step s event = some s') :
    s'.Sourced := by
  obtain ⟨m, results, operation, hm, rfl, hentries⟩ :=
    @Inv.step_moves s hinv event s' hstep (fun _ => True) (fun _ _ _ => trivial)
  have hcarries := carries_move hinv hm
  refine ⟨?_, ?_⟩
  · intro entry hentry
    show m.Original entry.2
    rcases hentries entry hentry with hold | hkept | ⟨hnew, request, rfl⟩
    · exact hcarries.original _ (h.stored entry hold)
    · rw [hcarries.results] at hkept
      exact hcarries.original _ (h.stored entry hkept)
    · rw [hnew]
      exact original_schedule hinv request
  · intro k c source hk hstatus
    show m.Original source
    rcases hcarries.followed k c source hk hstatus with ⟨d, hd, hfollows⟩ | hstored
    · exact hcarries.original _ (h.followed k d source hd hfollows)
    · obtain ⟨entry, hentry, rfl⟩ := List.mem_map.mp hstored
      exact hcarries.original _ (h.stored entry hentry)

theorem sourced_of_reach {guard : ActionExecutionQueue → Event → Prop}
    (h : actionExecutionQueue.Reach guard s) : s.Sourced := by
  refine (h.invariant (I := fun s => s.Inv none ∧ s.Sourced) ?_ ?_).2
  · rintro s rfl
    exact ⟨Inv.start_state, by simp, by simp⟩
  · rintro s event s' ⟨hinv, hs⟩ _ hstep
    exact ⟨hinv.step hstep, hs.step hinv hstep⟩

/-- No callback of a future is due. -/
def Quiescent (s : ActionExecutionQueue) : Prop :=
  ∀ k, s.settle k = none ∧ s.deliver k = none

/-- The call waits in the queue of its action, or its task is under way. -/
def UnderWay (s : ActionExecutionQueue) (k : Nat) : Prop :=
  ∃ c : Call, s.calls[k]? = some c ∧ c.completions = [] ∧
    (k ∈ s.pendingByActionId c.request.actionId ∨ c.isRunning = true)

theorem Inv.complete_or_underWay (h : s.Inv none) {k : Nat} {c : Call}
    (hk : s.calls[k]? = some c) (hplain : ∀ source, c.status ≠ .replaying source) :
    c.completions.length = 1 ∨ s.UnderWay k := by
  have hc := h.sound k c hk
  cases hstatus : c.status with
  | waiting =>
    simp only [Call.Sound, hstatus] at hc
    have hmem := (h.pending _ k).mpr ⟨by simp, c, hk, hstatus, rfl⟩
    exact .inr ⟨c, hk, hc.1, .inl hmem⟩
  | runningNow =>
    simp only [Call.Sound, hstatus] at hc
    exact .inr ⟨c, hk, hc.1, .inr (by simp [Call.isRunning, hstatus])⟩
  | runningQueued =>
    simp only [Call.Sound, hstatus] at hc
    exact .inr ⟨c, hk, hc.1, .inr (by simp [Call.isRunning, hstatus])⟩
  | settling =>
    simp only [Call.Sound, hstatus] at hc
    exact .inl hc.1
  | replaying source => exact absurd hstatus (hplain source)
  | done =>
    simp only [Call.Sound, hstatus] at hc
    exact .inl hc.1

theorem Quiescent.source_underWay (hquiet : s.Quiescent) (hinv : s.Inv none) (hs : s.Sourced)
    {k : Nat} {c : Call} {source : Nat} (hk : s.calls[k]? = some c)
    (hstatus : c.status = .replaying source) : s.UnderWay source := by
  obtain ⟨d, hd, hplain⟩ := hs.followed k c source hk hstatus
  refine (hinv.complete_or_underWay hd hplain).resolve_left ?_
  intro hone
  obtain ⟨outcome, hcompletions⟩ := List.length_eq_one_iff.mp hone
  have hdue := (hquiet k).2
  obtain ⟨request, status, completions, starts, holdsSlot⟩ := c
  obtain rfl : status = .replaying source := hstatus
  rw [deliver, hk] at hdue
  simp [hd, hcompletions] at hdue

theorem counts_of_sound {c : Call} (h : c.Sound) :
    c.starts ≤ 1 ∧ c.completions.length ≤ 1 := by
  rw [Call.Sound] at h
  split at h
  · exact ⟨by omega, by simp [h.1]⟩
  · exact ⟨by omega, by simp [h.1]⟩
  · exact ⟨by omega, by simp [h.1]⟩
  · exact ⟨by omega, by omega⟩
  · exact ⟨by omega, by simp [h.1]⟩
  · exact ⟨by omega, by omega⟩

theorem Inv.running_le (h : s.Inv none) (a : String) :
    (s.calls.countP fun c => c.isRunning && c.request.actionId == a) ≤
      s.runningByActionId a := by
  rw [h.slots]
  apply List.countP_mono_left
  intro c hc hrunning
  obtain ⟨k, hk⟩ := List.mem_iff_getElem?.mp hc
  have hsound := h.sound k c hk
  rw [Bool.and_eq_true, Call.isRunning, Bool.or_eq_true, beq_iff_eq, beq_iff_eq] at hrunning
  rw [Call.holds, Bool.and_eq_true]
  refine ⟨?_, hrunning.2⟩
  rcases hrunning.1 with hstatus | hstatus
  · simp only [Call.Sound, hstatus] at hsound
    exact hsound.2.2
  · simp only [Call.Sound, hstatus] at hsound
    exact hsound.2.2

/-- A request of the action "report", with one slot and one place in the queue. -/
def reportRequest (executionId : String) : AgentActionQueueRequest where
  actionId := "report"
  executionId := executionId
  policy := { maxQueued := 1 }

/-- Three requests were made, of which the third found the queue full, and the first task has
ended. -/
def reportRun : List Event :=
  [.enqueue (reportRequest "e1") false, .enqueue (reportRequest "e2") false,
    .enqueue (reportRequest "e3") false, .finish 0 false]

/-- The state after `reportRun`. -/
def reportLater : ActionExecutionQueue :=
  (actionExecutionQueue.run {} reportRun).getD {}

end ActionExecutionQueue

end PlugAgente.Actions
