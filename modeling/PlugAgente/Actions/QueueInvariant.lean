import PlugAgente.Actions.ExecutionQueue
import PlugAgente.Machine.Ledger

/-!
# The invariant of the action execution queue

`Inv` relates the counters and queues to the calls: a call waits exactly if it is in the queue
of its action, and an action has as many running tasks as calls that hold a slot.  Between two
assignments of the source one call may wait without being in a queue; it is `busy`.
-/

namespace PlugAgente.Actions

open Ledger

/-- What holds of a call by itself. -/
def Call.Sound (c : Call) : Prop :=
  match c.status with
  | .waiting => c.completions = [] ∧ c.starts = 0 ∧ c.holdsSlot = false
  | .runningNow => c.completions = [] ∧ c.starts = 1 ∧ c.holdsSlot = true
  | .runningQueued => c.completions = [] ∧ c.starts = 1 ∧ c.holdsSlot = true
  | .settling => c.completions.length = 1 ∧ c.starts = 1 ∧ c.holdsSlot = true
  | .replaying _ => c.completions = [] ∧ c.starts = 0 ∧ c.holdsSlot = false
  | .done => c.completions.length = 1 ∧ c.starts ≤ 1

def Call.holds (c : Call) (a : String) : Bool :=
  c.holdsSlot && c.request.actionId == a

namespace ActionExecutionQueue

/-- The invariant; `busy` is a call that waits without being in a queue. -/
structure Inv (s : ActionExecutionQueue) (busy : Option Nat) : Prop where
  sound : ∀ (k : Nat) (c : Call), s.calls[k]? = some c → c.Sound
  pending : ∀ a k, k ∈ s.pendingByActionId a ↔ some k ≠ busy ∧
    ∃ c : Call, s.calls[k]? = some c ∧ c.status = .waiting ∧ c.request.actionId = a
  sorted : ∀ a, (s.pendingByActionId a).Pairwise (· < ·)
  slots : ∀ a, s.runningByActionId a = s.calls.countP fun c => c.holds a
  ids : ∀ a, ∀ x ∈ s.runningExecutionIdsByActionId a, ∃ (k : Nat) (c : Call),
    s.calls[k]? = some c ∧ c.holds a = true ∧ c.request.executionId = x
  disposed : s.disposed = true → ∀ a, s.pendingByActionId a = []

variable {s : ActionExecutionQueue}

theorem Inv.start_state : Inv ({} : ActionExecutionQueue) none := by
  constructor <;> simp

theorem Inv.sound_changed {busy : Option Nat} (h : s.Inv busy) {k : Nat} {c : Call}
    (hk : s.calls[k]? = some c) {f : Call → Call} (hsound : (f c).Sound) :
    ∀ (n : Nat) (d : Call), (s.calls.modify k f)[n]? = some d → d.Sound := by
  intro n d hn
  rw [getElem?_changed hk] at hn
  split at hn
  · rw [← Option.some.inj hn]
    exact hsound
  · exact h.sound n d hn

theorem Inv.slots_changed {busy : Option Nat} (h : s.Inv busy) {k : Nat} {c : Call}
    (hk : s.calls[k]? = some c) (f : Call → Call) (a : String) :
    (s.calls.modify k f).countP (fun c => c.holds a) + (if c.holds a then 1 else 0) =
      s.runningByActionId a + (if (f c).holds a then 1 else 0) := by
  rw [h.slots, modify_eq_set hk]
  exact Ledger.countP_set (fun c => c.holds a) hk

theorem Inv.ids_changed {busy : Option Nat} (h : s.Inv busy) {k : Nat} {c : Call}
    (hk : s.calls[k]? = some c) {f : Call → Call} (hrequest : (f c).request = c.request)
    (hslot : c.holdsSlot = true → (f c).holdsSlot = true) {a x : String}
    (hx : x ∈ s.runningExecutionIdsByActionId a) :
    ∃ (n : Nat) (d : Call), (s.calls.modify k f)[n]? = some d ∧ d.holds a = true ∧
      d.request.executionId = x := by
  obtain ⟨n, d, hn, hd, hexec⟩ := h.ids a x hx
  by_cases hnk : n = k
  · subst hnk
    obtain rfl := Option.some.inj (hk.symm.trans hn)
    refine ⟨n, f c, ?_, ?_, ?_⟩
    · rw [getElem?_changed hk, if_pos rfl]
    · rw [Call.holds, Bool.and_eq_true] at hd ⊢
      exact ⟨hslot hd.1, hrequest ▸ hd.2⟩
    · rw [hrequest, hexec]
  · refine ⟨n, d, ?_, hd, hexec⟩
    rw [getElem?_changed hk, if_neg hnk, hn]

theorem Inv.pending_kept {busy : Option Nat} (h : s.Inv busy) {k : Nat} {c : Call}
    (hk : s.calls[k]? = some c) {f : Call → Call}
    (hwaiting : (f c).status = .waiting ↔ c.status = .waiting)
    (hrequest : (f c).request = c.request) (a : String) (n : Nat) :
    n ∈ s.pendingByActionId a ↔ some n ≠ busy ∧ ∃ c : Call,
      (s.calls.modify k f)[n]? = some c ∧ c.status = .waiting ∧ c.request.actionId = a := by
  rw [h.pending, getElem?_changed hk]
  by_cases hn : n = k
  · subst hn
    simp [hk, hwaiting, hrequest]
  · rw [if_neg hn]

theorem Inv.pending_busy {k : Nat} (h : s.Inv (some k)) {c : Call} (hk : s.calls[k]? = some c)
    {f : Call → Call} (hwaiting : (f c).status ≠ .waiting) (a : String) (n : Nat) :
    n ∈ s.pendingByActionId a ↔ some n ≠ none ∧ ∃ c : Call,
      (s.calls.modify k f)[n]? = some c ∧ c.status = .waiting ∧ c.request.actionId = a := by
  rw [h.pending, getElem?_changed hk]
  by_cases hn : n = k
  · subst hn
    simp [hwaiting]
  · rw [if_neg hn]
    simp [hn]

theorem Inv.slots_kept {busy : Option Nat} (h : s.Inv busy) {k : Nat} {c : Call}
    (hk : s.calls[k]? = some c) {f : Call → Call} (hslot : (f c).holdsSlot = c.holdsSlot)
    (hrequest : (f c).request = c.request) (a : String) :
    s.runningByActionId a = (s.calls.modify k f).countP fun c => c.holds a := by
  have hcount := h.slots_changed hk f a
  have hholds : (f c).holds a = c.holds a := by
    rw [Call.holds, Call.holds, hslot, hrequest]
  rw [hholds] at hcount
  omega

theorem Inv.change {busy : Option Nat} (h : s.Inv busy) {k : Nat} {c : Call}
    (hk : s.calls[k]? = some c) (f : Call → Call) (hsound : (f c).Sound)
    (hwaiting : (f c).status = .waiting ↔ c.status = .waiting)
    (hslot : (f c).holdsSlot = c.holdsSlot) (hrequest : (f c).request = c.request) :
    (s.modifyCall k f).Inv busy := by
  exact ⟨h.sound_changed hk hsound, h.pending_kept hk hwaiting hrequest, h.sorted,
    h.slots_kept hk hslot hrequest,
    fun _ _ hx => h.ids_changed hk hrequest (fun hc => hslot.trans hc) hx, h.disposed⟩

theorem Inv.changeBusy {k : Nat} (h : s.Inv (some k)) {c : Call} (hk : s.calls[k]? = some c)
    (f : Call → Call) (hsound : (f c).Sound) (hwaiting : (f c).status ≠ .waiting)
    (hslot : (f c).holdsSlot = c.holdsSlot) (hrequest : (f c).request = c.request) :
    (s.modifyCall k f).Inv none := by
  exact ⟨h.sound_changed hk hsound, h.pending_busy hk hwaiting, h.sorted,
    h.slots_kept hk hslot hrequest,
    fun _ _ hx => h.ids_changed hk hrequest (fun hc => hslot.trans hc) hx, h.disposed⟩

theorem Inv.dequeue (h : s.Inv none) {a : String} {k : Nat}
    (hk : k ∈ s.pendingByActionId a) {queue : List Nat}
    (hsublist : queue.Sublist (s.pendingByActionId a))
    (hqueue : ∀ n, n ∈ queue ↔ n ∈ s.pendingByActionId a ∧ n ≠ k) :
    Inv { s with pendingByActionId := Function.update s.pendingByActionId a queue } (some k) := by
  refine ⟨h.sound, ?_, ?_, h.slots, h.ids, ?_⟩
  · intro b n
    obtain ⟨-, c, hc, hwaits, haction⟩ := (h.pending a k).mp hk
    show n ∈ Function.update s.pendingByActionId a queue b ↔ _
    by_cases hb : b = a
    · subst hb
      rw [Function.update_self, hqueue, h.pending]
      constructor
      · rintro ⟨⟨-, hn⟩, hne⟩
        exact ⟨fun he => hne (Option.some.inj he), hn⟩
      · rintro ⟨hne, hn⟩
        exact ⟨⟨by simp, hn⟩, fun he => hne (congrArg some he)⟩
    · rw [Function.update_of_ne hb, h.pending]
      constructor
      · rintro ⟨-, d, hd, hstatus, hact⟩
        refine ⟨?_, d, hd, hstatus, hact⟩
        intro he
        obtain rfl := Option.some.inj he
        obtain rfl := Option.some.inj (hd.symm.trans hc)
        exact hb (hact.symm.trans haction)
      · rintro ⟨-, hn⟩
        exact ⟨by simp, hn⟩
  · intro b
    show (Function.update s.pendingByActionId a queue b).Pairwise _
    by_cases hb : b = a
    · subst hb
      rw [Function.update_self]
      exact (h.sorted b).sublist hsublist
    · rw [Function.update_of_ne hb]
      exact h.sorted b
  · intro hdisposed
    have hempty := h.disposed hdisposed a
    rw [hempty] at hk
    exact absurd hk (by simp)

theorem Inv.completeBusy {k : Nat} (h : s.Inv (some k)) {c : Call} (hk : s.calls[k]? = some c)
    (hstatus : c.status = .waiting) (outcome : Outcome) :
    (s.complete k outcome .done).Inv none := by
  have hc := h.sound k c hk
  simp only [Call.Sound, hstatus] at hc
  refine h.changeBusy hk _ ?_ (by simp) rfl rfl
  simp [Call.Sound, hc.1, hc.2.1]

theorem Inv.start {k : Nat} (h : s.Inv (some k)) {c : Call} (hk : s.calls[k]? = some c)
    (hstatus : c.status = .waiting) {status : Status}
    (hrunning : status = .runningNow ∨ status = .runningQueued) :
    (s.start k c.request status).Inv none := by
  have hc := h.sound k c hk
  simp only [Call.Sound, hstatus] at hc
  have hsound : (c.begun status).Sound := by
    rcases hrunning with rfl | rfl <;> simp [Call.Sound, Call.begun, hc.1, hc.2.1]
  have hnot : status ≠ .waiting := by
    rcases hrunning with rfl | rfl <;> simp
  refine ⟨h.sound_changed hk hsound, h.pending_busy hk hnot, h.sorted, ?_, ?_, h.disposed⟩
  · intro a
    have hcount := h.slots_changed hk (fun c => c.begun status) a
    show Function.update s.runningByActionId c.request.actionId _ a =
      (s.calls.modify k _).countP _
    have hfree : c.holds a = false := by
      rw [Call.holds, hc.2.2, Bool.false_and]
    rw [hfree] at hcount
    by_cases ha : a = c.request.actionId
    · subst ha
      have hheld : (c.begun status).holds c.request.actionId = true := by
        simp [Call.holds, Call.begun]
      rw [hheld] at hcount
      rw [Function.update_self]
      simpa using hcount.symm
    · have hother : (c.begun status).holds a = false := by
        simp [Call.holds, Call.begun, Ne.symm ha]
      rw [hother] at hcount
      rw [Function.update_of_ne ha]
      simpa using hcount.symm
  · intro a x hx
    have hx : x ∈ Function.update s.runningExecutionIdsByActionId c.request.actionId
        (if (s.runningExecutionIdsByActionId c.request.actionId).contains c.request.executionId
          then s.runningExecutionIdsByActionId c.request.actionId
          else s.runningExecutionIdsByActionId c.request.actionId ++ [c.request.executionId]) a :=
      hx
    have hnew : ∃ (n : Nat) (d : Call), (s.calls.modify k fun c => c.begun status)[n]? = some d ∧
        d.holds c.request.actionId = true ∧ d.request.executionId = c.request.executionId := by
      refine ⟨k, c.begun status, ?_, ?_, rfl⟩
      · rw [getElem?_changed hk, if_pos rfl]
      · simp [Call.holds, Call.begun]
    by_cases ha : a = c.request.actionId
    · subst ha
      rw [Function.update_self] at hx
      by_cases hin : x ∈ s.runningExecutionIdsByActionId c.request.actionId
      · exact h.ids_changed hk rfl (fun _ => rfl) hin
      · have hxe : x = c.request.executionId := by
          split at hx
          · exact absurd hx hin
          · simpa [hin] using hx
        rw [hxe]
        exact hnew
    · rw [Function.update_of_ne ha] at hx
      exact h.ids_changed hk rfl (fun _ => rfl) hx

theorem Inv.endRunning (h : s.Inv none) {k : Nat} {c : Call} (hk : s.calls[k]? = some c)
    (hstatus : c.status = .done) (hslot : c.holdsSlot = true) :
    (s.endRunning k c.request).Inv none := by
  rw [ActionExecutionQueue.endRunning]
  split
  · exact h
  · have hc := h.sound k c hk
    simp only [Call.Sound, hstatus] at hc
    have hsound : c.released.Sound := by
      simpa [Call.Sound, Call.released, hstatus] using hc
    refine ⟨h.sound_changed hk hsound, h.pending_kept hk Iff.rfl rfl, h.sorted, ?_, ?_,
      h.disposed⟩
    · intro a
      have hcount := h.slots_changed hk Call.released a
      have hfree : c.released.holds a = false := by
        simp [Call.holds, Call.released]
      rw [hfree] at hcount
      show Function.update s.runningByActionId c.request.actionId _ a =
        (s.calls.modify k _).countP _
      by_cases ha : a = c.request.actionId
      · subst ha
        have hheld : c.holds c.request.actionId = true := by
          simp [Call.holds, hslot]
        rw [hheld] at hcount
        rw [Function.update_self]
        simp only [if_true, Bool.false_eq_true, if_false] at hcount
        omega
      · have hother : c.holds a = false := by
          simp [Call.holds, Ne.symm ha]
        rw [hother] at hcount
        rw [Function.update_of_ne ha]
        simpa using hcount.symm
    · intro a x hx
      have hx : x ∈ Function.update s.runningExecutionIdsByActionId c.request.actionId
          ((s.runningExecutionIdsByActionId c.request.actionId).filter
            fun id => id != c.request.executionId) a := hx
      by_cases ha : a = c.request.actionId
      · subst ha
        rw [Function.update_self, List.mem_filter] at hx
        obtain ⟨n, d, hn, hd, hexec⟩ := h.ids _ x hx.1
        have hnk : n ≠ k := by
          rintro rfl
          obtain rfl := Option.some.inj (hk.symm.trans hn)
          simp [hexec] at hx
        refine ⟨n, d, ?_, hd, hexec⟩
        show (s.calls.modify k _)[n]? = some d
        rw [getElem?_changed hk, if_neg hnk, hn]
      · rw [Function.update_of_ne ha] at hx
        obtain ⟨n, d, hn, hd, hexec⟩ := h.ids a x hx
        have hnk : n ≠ k := by
          rintro rfl
          obtain rfl := Option.some.inj (hk.symm.trans hn)
          rw [Call.holds, Bool.and_eq_true, beq_iff_eq] at hd
          exact ha hd.2.symm
        refine ⟨n, d, ?_, hd, hexec⟩
        show (s.calls.modify k _)[n]? = some d
        rw [getElem?_changed hk, if_neg hnk, hn]

/-! ## Draining -/

/-- The first of a queue is started. -/
def startHead (s : ActionExecutionQueue) (a : String) (k : Nat) (rest : List Nat)
    (request : AgentActionQueueRequest) : ActionExecutionQueue :=
  { s with pendingByActionId := Function.update s.pendingByActionId a rest }.start k request
    .runningQueued

theorem Inv.head (h : s.Inv none) {a : String} {k : Nat} {rest : List Nat}
    (hqueue : s.pendingByActionId a = k :: rest) :
    ∃ c, s.calls[k]? = some c ∧ c.status = .waiting ∧ c.request.actionId = a := by
  have hmem : k ∈ s.pendingByActionId a := by
    rw [hqueue]
    exact List.mem_cons_self
  exact ((h.pending a k).mp hmem).2

theorem Inv.startHead (h : s.Inv none) {a : String} {k : Nat} {rest : List Nat}
    (hqueue : s.pendingByActionId a = k :: rest) {c : Call} (hk : s.calls[k]? = some c)
    (hstatus : c.status = .waiting) : (s.startHead a k rest c.request).Inv none := by
  have hsorted := h.sorted a
  rw [hqueue, List.pairwise_cons] at hsorted
  have hmem : k ∈ s.pendingByActionId a := by
    rw [hqueue]
    exact List.mem_cons_self
  have hsublist : rest.Sublist (s.pendingByActionId a) := by
    rw [hqueue]
    exact List.sublist_cons_self _ _
  have hrest : ∀ n, n ∈ rest ↔ n ∈ s.pendingByActionId a ∧ n ≠ k := by
    intro n
    rw [hqueue, List.mem_cons]
    constructor
    · intro hn
      have hlt := hsorted.1 n hn
      exact ⟨.inr hn, by omega⟩
    · rintro ⟨hn | hn, hne⟩
      · exact absurd hn hne
      · exact hn
  exact (h.dequeue hmem hsublist hrest).start hk hstatus (.inr rfl)

theorem Inv.drainLoop {P : ActionExecutionQueue → Prop} {a : String}
    (hstep : ∀ (s : ActionExecutionQueue) (k : Nat) (rest : List Nat) (c : Call), s.Inv none →
      P s → s.pendingByActionId a = k :: rest → s.calls[k]? = some c → c.status = .waiting →
      c.request.actionId = a → s.canRunNow a c.request.policy = true →
      P (s.startHead a k rest c.request)) (queue : List Nat) :
    ∀ {s : ActionExecutionQueue}, s.Inv none → P s → s.pendingByActionId a = queue →
      (drainLoop a queue s).Inv none ∧ P (drainLoop a queue s) ∧
        ∀ k rest c, (drainLoop a queue s).pendingByActionId a = k :: rest →
          (drainLoop a queue s).calls[k]? = some c →
          (drainLoop a queue s).canRunNow a c.request.policy = false := by
  induction queue with
  | nil =>
    intro s h hP hqueue
    refine ⟨h, hP, ?_⟩
    intro k rest c hleft _
    rw [ActionExecutionQueue.drainLoop, hqueue] at hleft
    exact absurd hleft (by simp)
  | cons k rest ih =>
    intro s h hP hqueue
    obtain ⟨c, hk, hstatus, haction⟩ := h.head hqueue
    have hc := h.sound k c hk
    simp only [Call.Sound, hstatus] at hc
    have hopen : c.isCompleted = false := by
      simp [Call.isCompleted, hc.1]
    rw [ActionExecutionQueue.drainLoop, hk]
    dsimp only
    rw [hopen]
    by_cases hcan : s.canRunNow a c.request.policy = true
    · rw [if_pos hcan]
      have hqueue' : (s.startHead a k rest c.request).pendingByActionId a = rest := by
        simp [ActionExecutionQueue.startHead, ActionExecutionQueue.start]
      exact ih (h.startHead hqueue hk hstatus)
        (hstep s k rest c h hP hqueue hk hstatus haction hcan) hqueue'
    · rw [if_neg hcan]
      refine ⟨h, hP, ?_⟩
      intro n more d hleft hd
      rw [hqueue] at hleft
      obtain ⟨rfl, rfl⟩ := List.cons.inj hleft
      obtain rfl := Option.some.inj (hk.symm.trans hd)
      exact Bool.not_eq_true _ ▸ hcan

theorem Inv.drain {P : ActionExecutionQueue → Prop} {a : String} (h : s.Inv none) (hP : P s)
    (hstep : ∀ (s : ActionExecutionQueue) (k : Nat) (rest : List Nat) (c : Call), s.Inv none →
      P s → s.pendingByActionId a = k :: rest → s.calls[k]? = some c → c.status = .waiting →
      c.request.actionId = a → s.canRunNow a c.request.policy = true →
      P (s.startHead a k rest c.request)) :
    (s.drain a).Inv none ∧ P (s.drain a) ∧
      ∀ k rest c, (s.drain a).pendingByActionId a = k :: rest →
        (s.drain a).calls[k]? = some c → (s.drain a).canRunNow a c.request.policy = false := by
  rw [ActionExecutionQueue.drain]
  split
  · rename_i hdisposed
    refine ⟨h, hP, ?_⟩
    intro k rest c hleft _
    rw [h.disposed hdisposed a] at hleft
    exact absurd hleft (by simp)
  · exact Inv.drainLoop hstep _ h hP rfl

/-! ## New calls -/

theorem Inv.addCall (h : s.Inv none) {c : Call} (hsound : c.Sound) (hslot : c.holdsSlot = false)
    {busy : Option Nat} (hbusy : c.status = .waiting → busy = some s.calls.length)
    (hfree : ∀ n, busy = some n → n = s.calls.length) : (s.addCall c).Inv busy := by
  refine ⟨?_, ?_, h.sorted, ?_, ?_, h.disposed⟩
  · intro n d hn
    rcases getElem?_added hn with hn | ⟨-, rfl⟩
    · exact h.sound n d hn
    · exact hsound
  · intro a n
    show n ∈ s.pendingByActionId a ↔ _ ∧ ∃ d : Call, (s.calls ++ [c])[n]? = some d ∧ _
    rw [h.pending]
    constructor
    · rintro ⟨-, d, hd, hwaits, haction⟩
      refine ⟨?_, d, getElem?_kept hd, hwaits, haction⟩
      intro he
      have hlt := (List.getElem?_eq_some_iff.mp hd).1
      have hn := hfree n he.symm
      omega
    · rintro ⟨hne, d, hd, hwaits, haction⟩
      rcases getElem?_added hd with hd | ⟨rfl, rfl⟩
      · exact ⟨by simp, d, hd, hwaits, haction⟩
      · exact absurd (hbusy hwaits).symm hne
  · intro a
    show s.runningByActionId a = (s.calls ++ [c]).countP _
    have hfree : c.holds a = false := by
      rw [Call.holds, hslot, Bool.false_and]
    rw [List.countP_append, List.countP_singleton, hfree, h.slots]
    rfl
  · intro a x hx
    obtain ⟨n, d, hn, hd, hexec⟩ := h.ids a x hx
    exact ⟨n, d, getElem?_kept hn, hd, hexec⟩

theorem Inv.refuse (h : s.Inv none) (request : AgentActionQueueRequest) (code : FailureCode) :
    (s.refuse request code).Inv none :=
  h.addCall (by simp [Call.Sound]) rfl (by simp) (by simp)

theorem Inv.addWaiting (h : s.Inv none) (request : AgentActionQueueRequest) :
    (s.addCall { request := request, status := .waiting }).Inv (some s.calls.length) :=
  h.addCall (by simp [Call.Sound]) rfl (fun _ => rfl) (fun n hn => (Option.some.inj hn).symm)

theorem getElem?_addCall (s : ActionExecutionQueue) (c : Call) :
    (s.addCall c).calls[s.calls.length]? = some c :=
  List.getElem?_concat_length

theorem Inv.runNow (h : s.Inv none) (request : AgentActionQueueRequest) :
    (s.runNow request).Inv none := by
  rw [ActionExecutionQueue.runNow]
  split
  · exact h.refuse request _
  · exact (h.addWaiting request).start (getElem?_addCall s _) rfl (.inl rfl)

/-- The new call is put in the queue of its action. -/
def push (s : ActionExecutionQueue) (request : AgentActionQueueRequest) : ActionExecutionQueue :=
  { s.addCall { request := request, status := .waiting } with
    pendingByActionId := Function.update s.pendingByActionId request.actionId
      (s.pendingByActionId request.actionId ++ [s.calls.length]) }

theorem Inv.push (h : s.Inv none) (request : AgentActionQueueRequest)
    (hdisposed : s.disposed = false) : (s.push request).Inv none := by
  have hbusy := h.addWaiting request
  have hnew := getElem?_addCall s { request := request, status := .waiting }
  have hbound : ∀ a, ∀ n ∈ s.pendingByActionId a, n < s.calls.length := by
    intro a n hn
    obtain ⟨-, c, hc, -⟩ := (h.pending a n).mp hn
    exact (List.getElem?_eq_some_iff.mp hc).1
  refine ⟨hbusy.sound, ?_, ?_, hbusy.slots, hbusy.ids, ?_⟩
  · intro a n
    have hiff := hbusy.pending a n
    show n ∈ Function.update s.pendingByActionId request.actionId _ a ↔ _
    by_cases ha : a = request.actionId
    · subst ha
      rw [Function.update_self, List.mem_append, List.mem_singleton]
      constructor
      · rintro (hn | rfl)
        · exact ⟨by simp, (hiff.mp hn).2⟩
        · exact ⟨by simp, _, hnew, rfl, rfl⟩
      · rintro ⟨-, hn⟩
        by_cases he : n = s.calls.length
        · exact .inr he
        · exact .inl (hiff.mpr ⟨fun hs => he (Option.some.inj hs), hn⟩)
    · rw [Function.update_of_ne ha]
      refine hiff.trans ?_
      constructor
      · rintro ⟨-, hn⟩
        exact ⟨by simp, hn⟩
      · rintro ⟨-, c, hc, hwaits, haction⟩
        refine ⟨?_, c, hc, hwaits, haction⟩
        intro hs
        obtain rfl := Option.some.inj hs
        obtain rfl := Option.some.inj (hnew.symm.trans hc)
        exact ha haction.symm
  · intro a
    show (Function.update s.pendingByActionId request.actionId _ a).Pairwise _
    by_cases ha : a = request.actionId
    · subst ha
      rw [Function.update_self, List.pairwise_append]
      refine ⟨h.sorted _, List.pairwise_singleton _ _, ?_⟩
      intro n hn m hm
      obtain rfl := List.mem_singleton.mp hm
      exact hbound _ n hn
    · rw [Function.update_of_ne ha]
      exact h.sorted a
  · intro hd
    exact absurd (hdisposed.symm.trans hd) (by simp)

/-! ## The steps -/

/-- The state of a call in a queue, with the queue without it. -/
def withdraw (s : ActionExecutionQueue) (a : String) (k : Nat) (code : FailureCode) :
    ActionExecutionQueue :=
  { s with
    pendingByActionId := Function.update s.pendingByActionId a
      ((s.pendingByActionId a).erase k) }.complete k (.queue code) .done

theorem Inv.withdraw (h : s.Inv none) {a : String} {k : Nat} (hk : k ∈ s.pendingByActionId a)
    (code : FailureCode) : (s.withdraw a k code).Inv none := by
  obtain ⟨-, c, hc, hstatus, -⟩ := (h.pending a k).mp hk
  have hnodup : (s.pendingByActionId a).Nodup := by
    apply (h.sorted a).imp
    intro n m hlt heq
    omega
  refine (h.dequeue hk List.erase_sublist ?_).completeBusy hc hstatus (.queue code)
  intro n
  rw [hnodup.mem_erase_iff]
  exact And.comm

theorem cancelQueued_cases (s : ActionExecutionQueue) (executionId a : String) :
    s.cancelQueued executionId a = s ∨ ∃ k ∈ s.pendingByActionId a,
      s.cancelQueued executionId a = s.withdraw a k .queueCancelled := by
  rw [cancelQueued]
  split
  · exact .inl rfl
  · dsimp only
    split
    · exact .inl rfl
    · rename_i k hfind
      exact .inr ⟨k, List.mem_of_find?_eq_some hfind, rfl⟩

theorem Inv.timeout_cases {s' : ActionExecutionQueue} (h : s.Inv none) {k : Nat}
    (hstep : s.timeout k = some s') :
    ∃ a, k ∈ s.pendingByActionId a ∧ s' = s.withdraw a k .queueTimeout := by
  rw [timeout] at hstep
  split at hstep
  · rename_i request completions starts holdsSlot hk
    have hmem : k ∈ s.pendingByActionId request.actionId :=
      (h.pending _ k).mpr ⟨by simp, _, hk, rfl, rfl⟩
    refine ⟨request.actionId, hmem, ?_⟩
    have hsorted := h.sorted request.actionId
    have hfilter : ((s.pendingByActionId request.actionId).filter fun n =>
        !((((s.complete k (.queue .queueTimeout) .done).calls[n]?).map Call.isCompleted).getD
          false)) = (s.pendingByActionId request.actionId).erase k := by
      have hnodup : (s.pendingByActionId request.actionId).Nodup := by
        apply hsorted.imp
        intro n m hlt heq
        omega
      rw [hnodup.erase_eq_filter]
      apply List.filter_congr
      intro n hn
      show (!((((s.calls.modify k _)[n]?).map Call.isCompleted).getD false)) = (n != k)
      rw [getElem?_changed hk]
      by_cases hnk : n = k
      · subst hnk
        simp [Call.isCompleted]
      · obtain ⟨-, d, hd, hstatus, -⟩ := (h.pending _ n).mp hn
        have hsound := h.sound n d hd
        simp only [Call.Sound, hstatus] at hsound
        rw [if_neg hnk, hd]
        simp [Call.isCompleted, hsound.1, hnk]
    rw [← Option.some.inj hstep]
    rw [show (s.complete k (.queue .queueTimeout) .done).pendingByActionId =
      s.pendingByActionId from rfl, hfilter]
    rfl
  · simp at hstep

theorem release_eq (s : ActionExecutionQueue) (k : Nat) (request : AgentActionQueueRequest) :
    s.release k request = (s.endRunning k request).drain request.actionId := by
  rw [release, drain]
  split <;> rfl

/-- The calls whose task or callback ends, with the state before the release. -/
structure Ending (s : ActionExecutionQueue) (k : Nat) (c : Call) (f : Call → Call) : Prop where
  found : s.calls[k]? = some c
  slot : c.holdsSlot = true
  sound : (f c).Sound
  status : c.status ≠ .waiting
  done : (f c).status = .done
  kept : (f c).holdsSlot = c.holdsSlot
  request : (f c).request = c.request

theorem Inv.ending (h : s.Inv none) {k : Nat} {c : Call} {f : Call → Call} (he : s.Ending k c f) :
    (s.modifyCall k f).Inv none ∧ (s.modifyCall k f).calls[k]? = some (f c) := by
  refine ⟨h.change he.found f he.sound ?_ he.kept he.request, ?_⟩
  · rw [he.done]
    simp [he.status]
  · show (s.calls.modify k f)[k]? = _
    rw [getElem?_changed he.found, if_pos rfl]

theorem Inv.released (h : s.Inv none) {k : Nat} {c : Call} {f : Call → Call}
    (he : s.Ending k c f) : ((s.modifyCall k f).endRunning k c.request).Inv none := by
  obtain ⟨hinv, hk⟩ := h.ending he
  rw [← he.request]
  exact hinv.endRunning hk he.done (he.kept.trans he.slot)

theorem Inv.finish_cases {s' : ActionExecutionQueue} (h : s.Inv none) {k : Nat} {threw : Bool}
    (hstep : s.finish k threw = some s') :
    (∃ c f, s.Ending k c f ∧ s' = (s.modifyCall k f).release k c.request) ∨
    (∃ c, s.calls[k]? = some c ∧ c.status = .runningQueued ∧
      s' = s.complete k (taskOutcome threw) .settling) := by
  rw [finish] at hstep
  split at hstep
  · rename_i request completions starts holdsSlot hk
    have hc := h.sound k _ hk
    simp only [Call.Sound] at hc
    left
    refine ⟨_, _, ⟨hk, hc.2.2, ?_, by simp, rfl, rfl, rfl⟩, (Option.some.inj hstep).symm⟩
    simp [Call.Sound, hc.1, hc.2.1]
  · rename_i request completions starts holdsSlot hk
    have hc := h.sound k _ hk
    simp only [Call.Sound] at hc
    rw [if_pos (by simp [hc.1])] at hstep
    exact .inr ⟨_, hk, rfl, (Option.some.inj hstep).symm⟩
  · simp at hstep

theorem Inv.settle_cases {s' : ActionExecutionQueue} (h : s.Inv none) {k : Nat}
    (hstep : s.settle k = some s') :
    ∃ c f, s.Ending k c f ∧ s' = (s.modifyCall k f).release k c.request := by
  rw [settle] at hstep
  split at hstep
  · rename_i request completions starts holdsSlot hk
    have hc := h.sound k _ hk
    simp only [Call.Sound] at hc
    refine ⟨_, _, ⟨hk, hc.2.2, ?_, by simp, rfl, rfl, rfl⟩, (Option.some.inj hstep).symm⟩
    simp [Call.Sound, hc.1, hc.2.1]
  · simp at hstep

/-- A call that follows another one is given a result. -/
theorem deliver_cases {s' : ActionExecutionQueue} {k : Nat} (hstep : s.deliver k = some s') :
    ∃ c source outcome, s.calls[k]? = some c ∧ c.status = .replaying source ∧
      s' = s.complete k outcome .done := by
  rw [deliver] at hstep
  split at hstep
  · rename_i request source completions starts holdsSlot hk
    split at hstep
    · rename_i outcome _
      exact ⟨_, source, outcome, hk, rfl, (Option.some.inj hstep).symm⟩
    · simp at hstep
  · simp at hstep

/-- What a step can do to the calls, the counters and the queues, for requests that `allowed`
lets through. -/
inductive Move (allowed : AgentActionQueueRequest → Prop) (s : ActionExecutionQueue) :
    ActionExecutionQueue → Prop where
  | quiet : Move allowed s s
  | add {c : Call} (hsound : c.Sound) (hstatus : c.status ≠ .waiting)
      (hslot : c.holdsSlot = false) (hrequest : allowed c.request)
      (hsource : ∀ source, c.status = .replaying source →
        source ∈ s.idempotentResults.map Prod.snd) : Move allowed s (s.addCall c)
  | run {request : AgentActionQueueRequest}
      (hclear : s.hasUnconfirmedCleanup request.actionId = false)
      (hcan : request.policy.concurrencyBehavior = .allowParallel ∨
        s.canRunNow request.actionId request.policy = true) (hrequest : allowed request) :
      Move allowed s ((s.addCall { request := request, status := .waiting }).start s.calls.length
        request .runningNow)
  | push {request : AgentActionQueueRequest} (hdisposed : s.disposed = false)
      (hclear : s.hasUnconfirmedCleanup request.actionId = false)
      (hroom : (s.pendingByActionId request.actionId).length < request.policy.maxQueued)
      (hrequest : allowed request) : Move allowed s ((s.push request).drain request.actionId)
  | withdraw {a : String} {k : Nat} (hk : k ∈ s.pendingByActionId a) (code : FailureCode) :
      Move allowed s (s.withdraw a k code)
  | change {k : Nat} {c : Call} (hk : s.calls[k]? = some c) {f : Call → Call}
      (hsound : (f c).Sound) (hbefore : c.status ≠ .waiting) (hafter : (f c).status ≠ .waiting)
      (hplain : ∀ source, (f c).status ≠ .replaying source)
      (hslot : (f c).holdsSlot = c.holdsSlot) (hrequest : (f c).request = c.request) :
      Move allowed s (s.modifyCall k f)
  | release {k : Nat} {c : Call} {f : Call → Call} (he : s.Ending k c f) :
      Move allowed s (((s.modifyCall k f).endRunning k c.request).drain c.request.actionId)
  | retain (executionId : String) :
      Move allowed s { s with unconfirmedCleanup := s.unconfirmedCleanup ++ [executionId] }
  | dispose (hdisposed : s.disposed = false) : Move allowed s s.dispose

theorem move_refuse {allowed : AgentActionQueueRequest → Prop}
    {request : AgentActionQueueRequest} (hrequest : allowed request) (code : FailureCode) :
    Move allowed s (s.refuse request code) :=
  .add (by simp [Call.Sound]) (by simp) rfl hrequest (by simp)

theorem disposedFailure_none {a : String} {gate : Bool} (h : s.disposedFailure a gate = none) :
    s.hasUnconfirmedCleanup a = false ∧ s.disposed = false := by
  rw [disposedFailure] at h
  split at h
  · simp at h
  · rename_i hclear
    split at h
    · simp at h
    · split at h
      · rename_i hopen
        exact ⟨by simpa using hclear, by simpa using hopen⟩
      · simp at h

theorem move_schedule {allowed : AgentActionQueueRequest → Prop}
    {request : AgentActionQueueRequest} (hrequest : allowed request)
    (hclear : s.hasUnconfirmedCleanup request.actionId = false) (hopen : s.disposed = false) :
    Move allowed s (s.schedule request) := by
  have hrun : (request.policy.concurrencyBehavior = .allowParallel ∨
      s.canRunNow request.actionId request.policy = true) →
      Move allowed s (s.runNow request) := by
    intro hcan
    rw [runNow, if_neg (by simp [hopen])]
    exact .run hclear hcan hrequest
  rw [schedule]
  split
  · rename_i hcan
    rw [Bool.or_eq_true, decide_eq_true_eq] at hcan
    exact hrun hcan
  · split
    · exact move_refuse hrequest _
    · exact move_refuse hrequest _
    · rw [enqueuePending, if_neg (by simp [hopen])]
      split
      · exact move_refuse hrequest _
      · rename_i hroom
        exact .push hopen hclear (by omega) hrequest
    · rename_i hparallel
      exact hrun (.inl hparallel)

theorem Inv.step_moves (h : s.Inv none) {event : Event} {s' : ActionExecutionQueue}
    (hstep : actionExecutionQueue.step s event = some s')
    {allowed : AgentActionQueueRequest → Prop}
    (hallowed : ∀ request gate, event = .enqueue request gate → allowed request) :
    ∃ m results operation, Move allowed s m ∧
      s' = { m with idempotentResults := results, maintenanceOperation := operation } ∧
      ∀ entry ∈ results, entry ∈ s.idempotentResults ∨ entry ∈ m.idempotentResults ∨
        (entry.2 = s.calls.length ∧ ∃ request, m = s.schedule request) := by
  have hself : ∀ {m : ActionExecutionQueue}, Move allowed s m → ∃ m' results operation,
      Move allowed s m' ∧
        m = { m' with idempotentResults := results, maintenanceOperation := operation } ∧
        ∀ entry ∈ results, entry ∈ s.idempotentResults ∨ entry ∈ m'.idempotentResults ∨
          (entry.2 = s.calls.length ∧ ∃ request, m' = s.schedule request) :=
    fun {m} hm => ⟨m, m.idempotentResults, m.maintenanceOperation, hm, rfl,
      fun _ hentry => .inr (.inl hentry)⟩
  cases event with
  | enqueue request gate =>
    have hrequest := hallowed request gate rfl
    obtain rfl := Option.some.inj hstep
    rw [enqueue]
    cases hfailure : s.disposedFailure request.actionId gate with
    | some code => exact hself (move_refuse hrequest code)
    | none =>
      obtain ⟨hclear, hopen⟩ := disposedFailure_none hfailure
      have hmove := move_schedule hrequest hclear hopen
      dsimp only
      cases idempotencyKeyFor request with
      | none => exact hself hmove
      | some key =>
        dsimp only
        cases hlookup : s.idempotentResults.lookup key with
        | some source =>
          refine hself (.add (by simp [Call.Sound]) (by simp) rfl hrequest ?_)
          intro n hn
          obtain rfl := Status.replaying.inj hn
          obtain ⟨before, after, heq, -⟩ := List.lookup_eq_some_iff.mp hlookup
          rw [heq]
          simp
        | none =>
          refine ⟨_, _, (s.schedule request).maintenanceOperation, hmove, rfl, ?_⟩
          intro entry hentry
          rcases List.mem_append.mp hentry with hold | hnew
          · exact .inl hold
          · obtain rfl := List.mem_singleton.mp hnew
            exact .inr (.inr ⟨rfl, request, rfl⟩)
  | cancelQueued executionId a =>
    obtain rfl := Option.some.inj hstep
    rcases cancelQueued_cases s executionId a with heq | ⟨k, hk, heq⟩
    · rw [heq]
      exact hself .quiet
    · rw [heq]
      exact hself (.withdraw hk _)
  | timeout k =>
    obtain ⟨a, hk, rfl⟩ := h.timeout_cases hstep
    exact hself (.withdraw hk _)
  | finish k threw =>
    rcases h.finish_cases hstep with ⟨c, f, he, rfl⟩ | ⟨c, hk, hstatus, rfl⟩
    · rw [release_eq]
      exact hself (.release he)
    · have hc := h.sound k c hk
      simp only [Call.Sound, hstatus] at hc
      refine hself (.change hk ?_ (by simp [hstatus]) (by simp) (by simp) rfl rfl)
      simp [Call.Sound, hc.1, hc.2.1, hc.2.2]
  | settle k =>
    obtain ⟨c, f, he, rfl⟩ := h.settle_cases hstep
    rw [release_eq]
    exact hself (.release he)
  | deliver k =>
    obtain ⟨c, source, outcome, hk, hstatus, rfl⟩ := deliver_cases hstep
    have hc := h.sound k c hk
    simp only [Call.Sound, hstatus] at hc
    refine hself (.change hk ?_ (by simp [hstatus]) (by simp) (by simp) rfl rfl)
    simp [Call.Sound, hc.1, hc.2.1]
  | evict key =>
    change s.evict key = some s' at hstep
    rw [evict] at hstep
    split at hstep
    · split at hstep
      · rw [← Option.some.inj hstep]
        exact ⟨s, _, s.maintenanceOperation, .quiet, rfl,
          fun _ hentry => .inl (List.mem_of_mem_filter hentry)⟩
      · simp at hstep
    · simp at hstep
  | retainUnconfirmedExecution executionId =>
    change s.retainUnconfirmedExecution executionId = some s' at hstep
    rw [retainUnconfirmedExecution] at hstep
    split at hstep
    · rw [← Option.some.inj hstep]
      exact hself (.retain executionId)
    · simp at hstep
  | pauseAdmissionForMaintenance operationId =>
    change s.pauseAdmissionForMaintenance operationId = some s' at hstep
    rw [pauseAdmissionForMaintenance] at hstep
    split at hstep
    · rw [← Option.some.inj hstep]
      exact ⟨s, s.idempotentResults, _, .quiet, rfl, fun _ hentry => .inl hentry⟩
    · split at hstep
      · rw [← Option.some.inj hstep]
        exact hself .quiet
      · simp at hstep
  | resumeAdmissionAfterMaintenance operationId =>
    obtain rfl := Option.some.inj hstep
    rw [resumeAdmissionAfterMaintenance]
    split
    · exact ⟨s, s.idempotentResults, _, .quiet, rfl, fun _ hentry => .inl hentry⟩
    · exact hself .quiet
  | dispose =>
    obtain rfl := Option.some.inj hstep
    by_cases hdisposed : s.disposed = true
    · rw [dispose, if_pos hdisposed]
      exact hself .quiet
    · exact hself (.dispose (by simpa using hdisposed))

/-! ## The invariant over runs -/

theorem failDisposed_keeps (s : ActionExecutionQueue) (k : Nat) (c : Call) :
    (s.failDisposed k c).request = c.request ∧ (s.failDisposed k c).holdsSlot = c.holdsSlot ∧
      (s.failDisposed k c).starts = c.starts := by
  rw [failDisposed]
  split <;> exact ⟨rfl, rfl, rfl⟩

theorem Inv.failDisposed_eq (h : s.Inv none) {k : Nat} {c : Call} (hk : s.calls[k]? = some c) :
    (c.status = .waiting ∧ (s.failDisposed k c).status = .done ∧
        (s.failDisposed k c).completions = [.queue .queueDisposed]) ∨
      (c.status ≠ .waiting ∧ s.failDisposed k c = c) := by
  by_cases hstatus : c.status = .waiting
  · left
    have hmem : k ∈ s.pendingByActionId c.request.actionId :=
      (h.pending _ k).mpr ⟨by simp, c, hk, hstatus, rfl⟩
    have hc := h.sound k c hk
    simp only [Call.Sound, hstatus] at hc
    rw [failDisposed, if_pos (by simp [hmem, Call.isCompleted, hc.1])]
    exact ⟨hstatus, rfl, by simp [hc.1]⟩
  · right
    have hmem : k ∉ s.pendingByActionId c.request.actionId := by
      intro hin
      obtain ⟨-, d, hd, hwaits, -⟩ := (h.pending _ k).mp hin
      obtain rfl := Option.some.inj (hk.symm.trans hd)
      exact hstatus hwaits
    exact ⟨hstatus, by rw [failDisposed, if_neg (by simp [hmem])]⟩

theorem Inv.dispose (h : s.Inv none) : s.dispose.Inv none := by
  rw [ActionExecutionQueue.dispose]
  split
  · exact h
  · have hget : ∀ {n : Nat} {d : Call}, (s.calls.mapIdx s.failDisposed)[n]? = some d →
        ∃ c, s.calls[n]? = some c ∧ d = s.failDisposed n c := by
      intro n d hn
      rw [List.getElem?_mapIdx, Option.map_eq_some_iff] at hn
      obtain ⟨c, hc, rfl⟩ := hn
      exact ⟨c, hc, rfl⟩
    refine ⟨?_, ?_, ?_, ?_, ?_, ?_⟩
    · intro n d hn
      obtain ⟨c, hc, rfl⟩ := hget hn
      have hsound := h.sound n c hc
      rcases h.failDisposed_eq hc with ⟨hwaits, hdone, hcompletions⟩ | ⟨-, heq⟩
      · simp only [Call.Sound, hwaits] at hsound
        simp [Call.Sound, hdone, hcompletions, (s.failDisposed_keeps n c).2.2, hsound.2.1]
      · rw [heq]
        exact hsound
    · intro a n
      show n ∈ [] ↔ _
      constructor
      · intro hn
        exact absurd hn (by simp)
      · rintro ⟨-, d, hd, hwaits, -⟩
        obtain ⟨c, hc, rfl⟩ := hget hd
        rcases h.failDisposed_eq hc with ⟨-, hdone, -⟩ | ⟨hne, heq⟩
        · rw [hdone] at hwaits
          exact absurd hwaits (by simp)
        · rw [heq] at hwaits
          exact absurd hwaits hne
    · exact fun _ => List.Pairwise.nil
    · intro a
      have hmap : (s.calls.mapIdx s.failDisposed).map (fun c => c.holds a) =
          s.calls.map (fun c => c.holds a) := by
        apply List.ext_getElem?
        intro n
        rw [List.getElem?_map, List.getElem?_map, List.getElem?_mapIdx, Option.map_map]
        congr 1
        funext c
        obtain ⟨hrequest, hslot, -⟩ := s.failDisposed_keeps n c
        simp only [Function.comp_apply, Call.holds, hrequest, hslot]
      have hcount : ∀ l : List Call, l.countP (fun c => c.holds a) =
          (l.map fun c => c.holds a).countP id := by
        intro l
        rw [List.countP_map]
        rfl
      show s.runningByActionId a = (s.calls.mapIdx s.failDisposed).countP _
      rw [h.slots, hcount, hcount, hmap]
    · intro a x hx
      obtain ⟨n, c, hc, hholds, hexec⟩ := h.ids a x hx
      obtain ⟨hrequest, hslot, -⟩ := s.failDisposed_keeps n c
      refine ⟨n, s.failDisposed n c, ?_, ?_, ?_⟩
      · show (s.calls.mapIdx s.failDisposed)[n]? = _
        rw [List.getElem?_mapIdx, hc]
        rfl
      · rw [Call.holds, hrequest, hslot]
        exact hholds
      · rw [hrequest, hexec]
    · exact fun _ _ => rfl

theorem Inv.move (h : s.Inv none) {allowed : AgentActionQueueRequest → Prop}
    {m : ActionExecutionQueue} (hm : Move allowed s m) : m.Inv none := by
  have hdrain : ∀ {t : ActionExecutionQueue} {a : String}, t.Inv none → (t.drain a).Inv none :=
    fun ht => (ht.drain (P := fun _ => True) trivial (fun _ _ _ _ _ _ _ _ _ _ _ => trivial)).1
  cases hm with
  | quiet => exact h
  | add hsound hstatus hslot _ _ =>
    exact h.addCall hsound hslot (fun hwaits => absurd hwaits hstatus) (by simp)
  | run _ _ _ => exact (h.addWaiting _).start (getElem?_addCall s _) rfl (.inl rfl)
  | push hdisposed _ _ _ => exact hdrain (h.push _ hdisposed)
  | withdraw hk code => exact h.withdraw hk code
  | change hk hsound hbefore hafter _ hslot hrequest =>
    exact h.change hk _ hsound (by simp [hbefore, hafter]) hslot hrequest
  | release he => exact hdrain (h.released he)
  | retain executionId => exact ⟨h.sound, h.pending, h.sorted, h.slots, h.ids, h.disposed⟩
  | dispose _ => exact h.dispose

theorem Inv.step (h : s.Inv none) {event : Event} {s' : ActionExecutionQueue}
    (hstep : actionExecutionQueue.step s event = some s') : s'.Inv none := by
  obtain ⟨m, results, operation, hm, rfl, -⟩ :=
    @Inv.step_moves s h event s' hstep (fun _ => True) (fun _ _ _ => trivial)
  have hinv := h.move hm
  exact ⟨hinv.sound, hinv.pending, hinv.sorted, hinv.slots, hinv.ids, hinv.disposed⟩

theorem inv_of_reach {guard : ActionExecutionQueue → Event → Prop}
    (h : actionExecutionQueue.Reach guard s) : s.Inv none := by
  refine h.invariant (I := fun s => s.Inv none) ?_ ?_
  · rintro s rfl
    exact Inv.start_state
  · intro s event s' hs _ hstep
    exact hs.step hstep

end ActionExecutionQueue

end PlugAgente.Actions
