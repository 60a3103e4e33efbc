import PlugAgente.Actions.QueueInvariant

/-!
# Executions with an unconfirmed cleanup

Once an execution is retained, its identifier stays among those of its action, because
`_endRunning` returns before it takes it out.  Every way to start a task of the action asks
for such an identifier first: `enqueue` before it looks at the policy or at the idempotency
map, and a drain before each of its starts.
-/

namespace PlugAgente.Actions

open Ledger

namespace ActionExecutionQueue

/-- What a state keeps of an earlier one in which the execution `x` of the action `a` was
retained. -/
structure Retains (s : ActionExecutionQueue) (x a : String) (t : ActionExecutionQueue) : Prop where
  unconfirmed : x ∈ t.unconfirmedCleanup
  running : x ∈ t.runningExecutionIdsByActionId a
  /-- No task of the action was started. -/
  started : t.started a = s.started a
  /-- No slot of the execution was released. -/
  slots : ∀ (k : Nat) (c : Call), s.calls[k]? = some c → c.holdsSlot = true →
    c.request.executionId = x → ∃ d : Call, t.calls[k]? = some d ∧ d.holdsSlot = true ∧
      d.request = c.request

variable {s t : ActionExecutionQueue} {x a : String}

theorem Retains.blocks (h : s.Retains x a t) : t.hasUnconfirmedCleanup a = true := by
  rw [hasUnconfirmedCleanup, List.any_eq_true]
  exact ⟨x, h.running, by simpa using h.unconfirmed⟩

theorem Retains.not_canRunNow (h : s.Retains x a t) (policy : AgentActionQueuePolicy) :
    t.canRunNow a policy = false := by
  rw [canRunNow, h.blocks]
  rfl

theorem Retains.changed (h : s.Retains x a t) {t' : ActionExecutionQueue}
    (hunconfirmed : t'.unconfirmedCleanup = t.unconfirmedCleanup)
    (hids : t'.runningExecutionIdsByActionId a = t.runningExecutionIdsByActionId a)
    (hstarted : t'.started a = t.started a)
    (hcalls : ∀ (k : Nat) (c : Call), t.calls[k]? = some c → c.holdsSlot = true →
      ∃ d : Call, t'.calls[k]? = some d ∧ d.holdsSlot = true ∧ d.request = c.request) :
    s.Retains x a t' where
  unconfirmed := hunconfirmed ▸ h.unconfirmed
  running := hids ▸ h.running
  started := hstarted.trans h.started
  slots := by
    intro k c hk hslot hexec
    obtain ⟨d, hd, hdslot, hdrequest⟩ := h.slots k c hk hslot hexec
    obtain ⟨e, he, heslot, herequest⟩ := hcalls k d hd hdslot
    exact ⟨e, he, heslot, herequest.trans hdrequest⟩

theorem Retains.addCall (h : s.Retains x a t) (c : Call) : s.Retains x a (t.addCall c) :=
  h.changed rfl rfl rfl fun _ d hd hslot => ⟨d, getElem?_kept hd, hslot, rfl⟩

theorem Retains.modifyCall (h : s.Retains x a t) {k : Nat} {c : Call} (hk : t.calls[k]? = some c)
    {f : Call → Call} (hslot : (f c).holdsSlot = c.holdsSlot)
    (hrequest : (f c).request = c.request) : s.Retains x a (t.modifyCall k f) := by
  refine h.changed rfl rfl rfl ?_
  intro n d hd hdslot
  show ∃ e : Call, (t.calls.modify k f)[n]? = some e ∧ _
  rw [getElem?_changed hk]
  by_cases hn : n = k
  · subst hn
    obtain rfl := Option.some.inj (hk.symm.trans hd)
    exact ⟨f c, if_pos rfl, hslot.trans hdslot, hrequest⟩
  · exact ⟨d, by rw [if_neg hn, hd], hdslot, rfl⟩

theorem Retains.start (h : s.Retains x a t) {k : Nat} {c : Call} (hk : t.calls[k]? = some c)
    {request : AgentActionQueueRequest} (haction : request.actionId ≠ a) (status : Status) :
    s.Retains x a (t.start k request status) := by
  refine h.changed rfl (Function.update_of_ne haction.symm _ _)
    (Function.update_of_ne haction.symm _ _) ?_
  intro n d hd hdslot
  show ∃ e : Call, (t.calls.modify k _)[n]? = some e ∧ _
  rw [getElem?_changed hk]
  by_cases hn : n = k
  · subst hn
    obtain rfl := Option.some.inj (hk.symm.trans hd)
    exact ⟨c.begun status, if_pos rfl, rfl, rfl⟩
  · exact ⟨d, by rw [if_neg hn, hd], hdslot, rfl⟩

theorem Retains.endRunning (h : s.Retains x a t) {k : Nat} {c : Call}
    (hk : t.calls[k]? = some c) : s.Retains x a (t.endRunning k c.request) := by
  rw [ActionExecutionQueue.endRunning]
  split
  · exact h
  · rename_i hconfirmed
    have hne : c.request.executionId ≠ x := by
      intro he
      rw [he] at hconfirmed
      exact hconfirmed (by simpa using h.unconfirmed)
    refine ⟨h.unconfirmed, ?_, h.started, ?_⟩
    · show x ∈ Function.update t.runningExecutionIdsByActionId c.request.actionId _ a
      by_cases ha : a = c.request.actionId
      · subst ha
        rw [Function.update_self, List.mem_filter]
        exact ⟨h.running, by simpa using hne.symm⟩
      · rw [Function.update_of_ne ha]
        exact h.running
    · intro n d hn hslot hexec
      obtain ⟨e, he, heslot, herequest⟩ := h.slots n d hn hslot hexec
      have hnk : n ≠ k := by
        rintro rfl
        obtain rfl := Option.some.inj (hk.symm.trans he)
        rw [herequest] at hne
        exact hne hexec
      refine ⟨e, ?_, heslot, herequest⟩
      show (t.calls.modify k _)[n]? = some e
      rw [getElem?_changed hk, if_neg hnk, he]

theorem Retains.drain (h : s.Retains x a t) (hinv : t.Inv none) (b : String) :
    s.Retains x a (t.drain b) := by
  refine (hinv.drain (P := fun u => s.Retains x a u) h ?_).2.1
  intro u k rest c hu hP hqueue hk hstatus haction hcan
  have hne : c.request.actionId ≠ a := by
    rintro rfl
    rw [← haction, hP.not_canRunNow] at hcan
    exact absurd hcan (by simp)
  have hdequeued : s.Retains x a
      { u with pendingByActionId := Function.update u.pendingByActionId b rest } :=
    ⟨hP.unconfirmed, hP.running, hP.started, hP.slots⟩
  exact hdequeued.start hk hne _

theorem Retains.move (h : s.Retains x a t) (hinv : t.Inv none)
    {allowed : AgentActionQueueRequest → Prop} {m : ActionExecutionQueue}
    (hm : Move allowed t m) : s.Retains x a m := by
  cases hm with
  | quiet => exact h
  | add _ _ _ _ _ => exact h.addCall _
  | @run request hclear _ _ =>
    have hne : request.actionId ≠ a := by
      rintro rfl
      exact absurd (hclear.symm.trans h.blocks) (by simp)
    exact (h.addCall _).start (getElem?_addCall t _) hne _
  | @push request hdisposed _ _ _ =>
    have hpushed : s.Retains x a (t.push request) :=
      (h.addCall { request := request, status := .waiting }).changed rfl rfl rfl
        fun _ d hd hslot => ⟨d, hd, hslot, rfl⟩
    exact hpushed.drain (hinv.push request hdisposed) _
  | @withdraw b k hk code =>
    obtain ⟨-, c, hc, -⟩ := (hinv.pending b k).mp hk
    have hdequeued : s.Retains x a { t with
        pendingByActionId := Function.update t.pendingByActionId b
          ((t.pendingByActionId b).erase k) } :=
      ⟨h.unconfirmed, h.running, h.started, h.slots⟩
    exact hdequeued.modifyCall hc rfl rfl
  | change hk _ _ _ _ hslot hrequest => exact h.modifyCall hk hslot hrequest
  | @release k c f he =>
    have hended := h.modifyCall he.found he.kept he.request
    have hreleased := hended.endRunning (hinv.ending he).2
    rw [he.request] at hreleased
    exact hreleased.drain (hinv.released he) _
  | retain executionId =>
    exact ⟨List.mem_append_left _ h.unconfirmed, h.running, h.started, h.slots⟩
  | dispose hdisposed =>
    refine h.changed ?_ ?_ ?_ ?_
    · rw [dispose, if_neg (by simp [hdisposed])]
    · rw [dispose, if_neg (by simp [hdisposed])]
    · rw [dispose, if_neg (by simp [hdisposed])]
    · intro k c hk hslot
      obtain ⟨hrequest, hkept, -⟩ := t.failDisposed_keeps k c
      refine ⟨t.failDisposed k c, ?_, hkept.trans hslot, hrequest⟩
      rw [dispose, if_neg (by simp [hdisposed])]
      show (t.calls.mapIdx t.failDisposed)[k]? = _
      rw [List.getElem?_mapIdx, hk]
      rfl

theorem Retains.step (h : s.Retains x a t) (hinv : t.Inv none) {event : Event}
    {t' : ActionExecutionQueue} (hstep : actionExecutionQueue.step t event = some t') :
    s.Retains x a t' := by
  obtain ⟨m, results, operation, hm, rfl, -⟩ :=
    @Inv.step_moves t hinv event t' hstep (fun _ => True) (fun _ _ _ => trivial)
  have hkept := h.move hinv hm
  exact ⟨hkept.unconfirmed, hkept.running, hkept.started, hkept.slots⟩

theorem Retains.leads (h : s.Retains x a s) (hinv : s.Inv none)
    (hleads : actionExecutionQueue.Leads s t) : s.Retains x a t := by
  refine (hleads.keeps (I := fun u => u.Inv none ∧ s.Retains x a u) ?_ ⟨hinv, h⟩).2
  intro u event u' hu hstep
  exact ⟨hu.1.step hstep, hu.2.step hu.1 hstep⟩

/-- Once an execution of an action was retained, no task of that action is started in any
continuation, and the slots of the execution are never released. -/
theorem retained_blocks (hs : actionExecutionQueue.Reachable s)
    {s' : ActionExecutionQueue}
    (hretain : actionExecutionQueue.step s (.retainUnconfirmedExecution x) = some s')
    (hrunning : x ∈ s.runningExecutionIdsByActionId a)
    (hleads : actionExecutionQueue.Leads s' t) :
    t.started a = s.started a ∧ x ∈ t.runningExecutionIdsByActionId a ∧
      1 ≤ t.runningByActionId a ∧
      ∀ (k : Nat) (c : Call), s.calls[k]? = some c → c.holdsSlot = true →
        c.request.executionId = x → ∃ d : Call, t.calls[k]? = some d ∧ d.holdsSlot = true ∧
          d.request = c.request := by
  have hinv : s.Inv none := inv_of_reach hs
  have hinv' : s'.Inv none := hinv.step hretain
  have heq : s' = { s with unconfirmedCleanup := s.unconfirmedCleanup ++ [x] } := by
    change s.retainUnconfirmedExecution x = some s' at hretain
    rw [retainUnconfirmedExecution] at hretain
    split at hretain
    · exact (Option.some.inj hretain).symm
    · simp at hretain
  have hstart : s'.Retains x a s' := by
    subst heq
    exact ⟨by simp, hrunning, rfl, fun k c hk hslot _ => ⟨c, hk, hslot, rfl⟩⟩
  have hkept := hstart.leads hinv' hleads
  have htinv : t.Inv none :=
    (hleads.keeps (I := fun u => u.Inv none) (fun u event u' hu hstep => hu.step hstep) hinv')
  subst heq
  refine ⟨hkept.started, hkept.running, ?_, hkept.slots⟩
  obtain ⟨k, c, hk, hholds, -⟩ := htinv.ids a x hkept.running
  rw [htinv.slots]
  exact List.countP_pos_iff.mpr ⟨c, List.mem_of_getElem? hk, hholds⟩

def backupRequest (executionId : String) (behavior : AgentActionConcurrencyBehavior) :
    AgentActionQueueRequest where
  actionId := "backup"
  executionId := executionId
  policy := { concurrencyBehavior := behavior }

/-- One execution runs and another one waits. -/
def backupWaiting : ActionExecutionQueue :=
  (enqueue {} (backupRequest "e1" .enqueue) false).enqueue (backupRequest "e2" .enqueue) false

/-- The first execution was retained, a parallel one was asked for, and the task of the first
has ended. -/
def backupLater : ActionExecutionQueue :=
  let s := { backupWaiting with unconfirmedCleanup := ["e1"] }
  ((s.enqueue (backupRequest "e3" .allowParallel) false).finish 0 false).getD {}

/-- Neither the execution that waits nor the parallel one is started. -/
theorem retained_blocks_backup :
    backupLater.pendingByActionId "backup" = [1] ∧
      backupLater.started "backup" = backupWaiting.started "backup" ∧
      1 ≤ backupLater.runningByActionId "backup" := by
  have hreach : actionExecutionQueue.Reachable backupWaiting :=
    @Machine.reachable_of_run _ _ actionExecutionQueue {} _ rfl
      [.enqueue (backupRequest "e1" .enqueue) false,
        .enqueue (backupRequest "e2" .enqueue) false] rfl
  have hretain : actionExecutionQueue.step backupWaiting (.retainUnconfirmedExecution "e1") =
      some { backupWaiting with unconfirmedCleanup := ["e1"] } := rfl
  have hleads : actionExecutionQueue.Leads { backupWaiting with unconfirmedCleanup := ["e1"] }
      backupLater :=
    .step (.step .refl (show actionExecutionQueue.step _
      (.enqueue (backupRequest "e3" .allowParallel) false) = some _ from rfl))
      (show actionExecutionQueue.step _ (.finish 0 false) = some _ from rfl)
  obtain ⟨hstarted, -, hslot, -⟩ :=
    @retained_blocks _ _ "e1" "backup" hreach _ hretain List.mem_cons_self hleads
  exact ⟨rfl, hstarted, hslot⟩

end ActionExecutionQueue

end PlugAgente.Actions
