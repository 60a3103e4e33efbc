import PlugAgente.Machine.Ledger
import PlugAgente.Machine.Transition

/-!
# The semaphore of the connection pools

`PoolSemaphore` as a machine.  A call of `acquire` either has its permit at once or waits
on a completer.  Code that awaits goes on in a later turn of the event loop, so a waiter
that was handed a permit, or whose timer has fired, has a continuation that is still due
when other code runs.  A timer may fire before the permit is handed or after.

Calls are named by their positions in `calls`.  `grants` is the history of the permits,
with the count and the maximum right after each of them, and `released` counts the calls of
`release` that gave a permit back.
-/

namespace PlugAgente.Pool

/-- Where a call of `acquire` stands. -/
inductive Status where
  /-- It waits; `expired` says that its timer has fired and the `catch` is due. -/
  | waiting (expired : Bool)
  /-- Its completer is complete, and its continuation is due. -/
  | handed (expired : Bool)
  | acquired
  | timedOut
  deriving DecidableEq, Repr

/-- The call is in the queue. -/
def Status.isWaiting : Status → Bool
  | .waiting _ => true
  | _ => false

/-- The call has been given a permit. -/
def Status.isGranted : Status → Bool
  | .handed _ => true
  | .acquired => true
  | _ => false

/-- A call of `acquire`, with whether it has a timeout. -/
structure Acquire where
  timed : Bool
  status : Status
  deriving DecidableEq, Repr

/-- A permit: the call it went to, and `_activeCount` and `_maxConcurrent` right after. -/
structure Grant where
  call : Nat
  active : Nat
  maximum : Nat
  deriving DecidableEq, Repr

structure Semaphore where
  maxConcurrent : Nat
  activeCount : Nat := 0
  waitQueue : List Nat := []
  calls : List Acquire := []
  grants : List Grant := []
  released : Nat := 0
  deriving DecidableEq, Repr

inductive Event where
  | acquire (timed : Bool)
  /-- The timer of a call fires. -/
  | expire (call : Nat)
  /-- The code that awaits in a call goes on. -/
  | resume (call : Nat)
  | release
  | resize (maxConcurrent : Int)
  deriving DecidableEq, Repr

namespace Semaphore

def setStatus (s : Semaphore) (k : Nat) (status : Status) : Semaphore :=
  match s.calls[k]? with
  | some c => { s with calls := s.calls.set k { c with status := status } }
  | none => s

/-- A permit goes to a call: `_activeCount++`. -/
def grant (s : Semaphore) (k : Nat) : Semaphore :=
  { s with
    activeCount := s.activeCount + 1
    grants := s.grants ++ [⟨k, s.activeCount + 1, s.maxConcurrent⟩] }

/-- The body of the loop of `_drainWaiters`; a completer that is complete is skipped. -/
def handTo (s : Semaphore) (k : Nat) : Semaphore :=
  match s.calls[k]? with
  | some ⟨_, .waiting expired⟩ => (s.grant k).setStatus k (.handed expired)
  | _ => s

/-- `_drainWaiters`, over the queue. -/
def drainWaiters : List Nat → Semaphore → Semaphore
  | [], s => { s with waitQueue := [] }
  | k :: rest, s =>
    if s.activeCount < s.maxConcurrent then drainWaiters rest (s.handTo k)
    else { s with waitQueue := k :: rest }

/-- `acquire`, up to its first `await`. -/
def acquire (s : Semaphore) (timed : Bool) : Semaphore :=
  if s.activeCount < s.maxConcurrent then
    { s.grant s.calls.length with calls := s.calls ++ [⟨timed, .acquired⟩] }
  else
    { s with
      calls := s.calls ++ [⟨timed, .waiting false⟩]
      waitQueue := s.waitQueue ++ [s.calls.length] }

/-- The timer of `completer.future.timeout`. -/
def expire (s : Semaphore) (k : Nat) : Option Semaphore :=
  match s.calls[k]? with
  | some ⟨true, .waiting false⟩ => some (s.setStatus k (.waiting true))
  | some ⟨true, .handed false⟩ => some (s.setStatus k (.handed true))
  | _ => none

/-- The continuation of `acquire`.  The `catch` takes the call out of the queue and throws,
unless `release` has handed it a permit. -/
def resume (s : Semaphore) (k : Nat) : Option Semaphore :=
  match s.calls[k]? with
  | some ⟨_, .handed _⟩ => some (s.setStatus k .acquired)
  | some ⟨_, .waiting true⟩ =>
    some { s.setStatus k .timedOut with waitQueue := s.waitQueue.erase k }
  | _ => none

def release (s : Semaphore) : Semaphore :=
  let s := if 0 < s.activeCount then
      { s with activeCount := s.activeCount - 1, released := s.released + 1 } else s
  drainWaiters s.waitQueue s

/-- `resize`; it throws below one, and nothing changes. -/
def resize (s : Semaphore) (maxConcurrent : Int) : Semaphore :=
  if maxConcurrent < 1 then s
  else
    let s := { s with maxConcurrent := maxConcurrent.toNat }
    drainWaiters s.waitQueue s

end Semaphore

def semaphore : Machine Semaphore Event where
  start s := ∃ n, 0 < n ∧ s = { maxConcurrent := n }
  step s
    | .acquire timed => some (s.acquire timed)
    | .expire k => s.expire k
    | .resume k => s.resume k
    | .release => some s.release
    | .resize n => some (s.resize n)

/-! ## The invariant -/

namespace Semaphore

/-- What holds of the calls, the permits and the queue, whether the queue is drained or
not. -/
structure Kept (s : Semaphore) (queue : List Nat) : Prop where
  count : s.activeCount + s.released = s.grants.length
  bound : ∀ g ∈ s.grants, g.active ≤ g.maximum
  /-- Permits go to calls in the order of the calls, and those in the queue came later. -/
  order : (s.grants.map Grant.call ++ queue).Pairwise (· < ·)
  range : ∀ k ∈ s.grants.map Grant.call ++ queue, k < s.calls.length
  waits : ∀ k c, s.calls[k]? = some c → (k ∈ queue ↔ c.status.isWaiting = true)
  granted : ∀ k c, s.calls[k]? = some c →
    (k ∈ s.grants.map Grant.call ↔ c.status.isGranted = true)

/-- The invariant: besides, nobody waits while there is room. -/
structure Sound (s : Semaphore) : Prop where
  kept : s.Kept s.waitQueue
  full : s.waitQueue ≠ [] → s.maxConcurrent ≤ s.activeCount

@[simp] theorem setStatus_activeCount (s : Semaphore) (k : Nat) (status : Status) :
    (s.setStatus k status).activeCount = s.activeCount := by
  rw [setStatus]
  split <;> rfl

@[simp] theorem setStatus_maxConcurrent (s : Semaphore) (k : Nat) (status : Status) :
    (s.setStatus k status).maxConcurrent = s.maxConcurrent := by
  rw [setStatus]
  split <;> rfl

@[simp] theorem setStatus_grants (s : Semaphore) (k : Nat) (status : Status) :
    (s.setStatus k status).grants = s.grants := by
  rw [setStatus]
  split <;> rfl

@[simp] theorem setStatus_released (s : Semaphore) (k : Nat) (status : Status) :
    (s.setStatus k status).released = s.released := by
  rw [setStatus]
  split <;> rfl

@[simp] theorem setStatus_waitQueue (s : Semaphore) (k : Nat) (status : Status) :
    (s.setStatus k status).waitQueue = s.waitQueue := by
  rw [setStatus]
  split <;> rfl

@[simp] theorem setStatus_length (s : Semaphore) (k : Nat) (status : Status) :
    (s.setStatus k status).calls.length = s.calls.length := by
  rw [setStatus]
  split
  · simp
  · rfl

theorem getElem?_setStatus {s : Semaphore} {k : Nat} {status : Status} {c : Acquire}
    (hk : s.calls[k]? = some c) (n : Nat) :
    (s.setStatus k status).calls[n]? =
      if n = k then some { c with status := status } else s.calls[n]? := by
  have hlt : k < s.calls.length := (List.getElem?_eq_some_iff.mp hk).1
  rw [setStatus, hk]
  dsimp only
  split
  · rename_i h
    subst h
    exact List.getElem?_set_self hlt
  · rename_i h
    exact List.getElem?_set_ne (fun he => h he.symm)

theorem Kept.setStatus {s : Semaphore} {queue : List Nat} (h : s.Kept queue) {k : Nat}
    {status : Status} {c : Acquire} (hk : s.calls[k]? = some c)
    (hwaits : status.isWaiting = c.status.isWaiting)
    (hgranted : status.isGranted = c.status.isGranted) : (s.setStatus k status).Kept queue where
  count := by simpa using h.count
  bound := by simpa using h.bound
  order := by simpa using h.order
  range := by simpa using h.range
  waits := by
    intro n d hn
    rw [getElem?_setStatus hk] at hn
    split at hn
    · rename_i heq
      subst heq
      obtain rfl := Option.some.inj hn
      rw [h.waits n c hk, hwaits]
    · exact h.waits n d hn
  granted := by
    intro n d hn
    rw [setStatus_grants]
    rw [getElem?_setStatus hk] at hn
    split at hn
    · rename_i heq
      subst heq
      obtain rfl := Option.some.inj hn
      rw [h.granted n c hk, hgranted]
    · exact h.granted n d hn

theorem Kept.handTo {s : Semaphore} {k : Nat} {rest : List Nat} (h : s.Kept (k :: rest))
    (hroom : s.activeCount < s.maxConcurrent) : (s.handTo k).Kept rest := by
  have hmem : k ∈ s.grants.map Grant.call ++ k :: rest := by simp
  have hlt : k < s.calls.length := h.range k hmem
  obtain ⟨c, hk⟩ : ∃ c, s.calls[k]? = some c := ⟨_, List.getElem?_eq_getElem hlt⟩
  have hwaiting : c.status.isWaiting = true := (h.waits k c hk).mp List.mem_cons_self
  obtain ⟨expired, hstatus⟩ : ∃ expired, c.status = .waiting expired := by
    cases hc : c.status with
    | waiting expired => exact ⟨expired, rfl⟩
    | handed expired => simp [hc, Status.isWaiting] at hwaiting
    | acquired => simp [hc, Status.isWaiting] at hwaiting
    | timedOut => simp [hc, Status.isWaiting] at hwaiting
  have hhand : s.handTo k = (s.grant k).setStatus k (.handed expired) := by
    obtain ⟨timed, status⟩ := c
    obtain rfl : status = .waiting expired := hstatus
    simp only [Semaphore.handTo, hk]
  have hrest : k ∉ rest := by
    have hpairwise := (List.pairwise_append.mp h.order).2.1
    intro hin
    have hlt := (List.pairwise_cons.mp hpairwise).1 k hin
    omega
  have hcall : (s.grant k).calls[k]? = some c := hk
  rw [hhand]
  refine ⟨?_, ?_, ?_, ?_, ?_, ?_⟩
  · have hcount := h.count
    simp only [setStatus_activeCount, setStatus_released, setStatus_grants, grant,
      List.length_append, List.length_singleton]
    omega
  · intro g hg
    rw [setStatus_grants] at hg
    rcases List.mem_append.mp hg with hg | hg
    · exact h.bound g hg
    · obtain rfl := List.mem_singleton.mp hg
      show s.activeCount + 1 ≤ s.maxConcurrent
      omega
  · simpa [grant] using h.order
  · intro n hn
    rw [setStatus_length]
    apply h.range n
    simpa [grant, or_assoc] using hn
  · intro n d hn
    rw [getElem?_setStatus hcall] at hn
    split at hn
    · rename_i heq
      subst heq
      obtain rfl := Option.some.inj hn
      simp [hrest, Status.isWaiting]
    · rename_i hne
      rw [← h.waits n d hn, List.mem_cons]
      simp [hne]
  · intro n d hn
    have hgrants : n ∈ ((s.grant k).setStatus k (.handed expired)).grants.map Grant.call ↔
        n ∈ s.grants.map Grant.call ∨ n = k := by
      simp [grant]
    rw [hgrants]
    rw [getElem?_setStatus hcall] at hn
    split at hn
    · rename_i heq
      subst heq
      obtain rfl := Option.some.inj hn
      simp [Status.isGranted]
    · rename_i hne
      rw [← h.granted n d hn]
      simp [hne]

theorem Kept.drainWaiters {s : Semaphore} {queue : List Nat} (h : s.Kept queue) :
    (drainWaiters queue s).Sound := by
  induction queue generalizing s with
  | nil =>
    rw [Semaphore.drainWaiters]
    exact ⟨⟨h.count, h.bound, h.order, h.range, h.waits, h.granted⟩, fun hne => absurd rfl hne⟩
  | cons k rest ih =>
    rw [Semaphore.drainWaiters]
    split
    · rename_i hroom
      exact ih (h.handTo hroom)
    · rename_i hfull
      refine ⟨⟨h.count, h.bound, h.order, h.range, h.waits, h.granted⟩, ?_⟩
      intro _
      show s.maxConcurrent ≤ s.activeCount
      omega

/-! ## The steps -/

theorem Sound.acquire {s : Semaphore} (h : s.Sound) (timed : Bool) : (s.acquire timed).Sound := by
  obtain ⟨hkept, hfull⟩ := h
  have hfresh : s.calls.length ∉ s.grants.map Grant.call ∧ s.calls.length ∉ s.waitQueue := by
    constructor
    · intro hin
      have := hkept.range _ (List.mem_append_left _ hin)
      omega
    · intro hin
      have := hkept.range _ (List.mem_append_right _ hin)
      omega
  rw [Semaphore.acquire]
  split
  · rename_i hroom
    have hempty : s.waitQueue = [] := by
      by_contra hne
      have := hfull hne
      omega
    have horder := hkept.order
    have hrange := hkept.range
    rw [hempty, List.append_nil] at horder hrange
    refine ⟨⟨?_, ?_, ?_, ?_, ?_, ?_⟩, ?_⟩
    · have hcount := hkept.count
      simp only [grant, List.length_append, List.length_singleton]
      omega
    · intro g hg
      rcases List.mem_append.mp hg with hg | hg
      · exact hkept.bound g hg
      · obtain rfl := List.mem_singleton.mp hg
        show s.activeCount + 1 ≤ s.maxConcurrent
        omega
    · show ((s.grants ++ [_]).map Grant.call ++ s.waitQueue).Pairwise (· < ·)
      rw [hempty, List.append_nil, List.map_append, List.pairwise_append]
      refine ⟨horder, List.pairwise_singleton _ _, ?_⟩
      intro a ha b hb
      obtain rfl := List.mem_singleton.mp hb
      exact hrange a ha
    · intro k hk
      show k < (s.calls ++ [_]).length
      rw [List.length_append, List.length_singleton]
      have hk : k ∈ (s.grants ++ [_]).map Grant.call ++ s.waitQueue := hk
      rw [hempty, List.append_nil, List.map_append, List.mem_append] at hk
      rcases hk with hk | hk
      · have := hrange k hk
        omega
      · obtain rfl := List.mem_singleton.mp hk
        exact Nat.lt_succ_self _
    · intro k d hk
      rcases Ledger.getElem?_added hk with hk | ⟨rfl, rfl⟩
      · exact hkept.waits k d hk
      · show s.calls.length ∈ s.waitQueue ↔ _
        simpa [Status.isWaiting] using hfresh.2
    · intro k d hk
      show k ∈ (s.grants ++ [_]).map Grant.call ↔ _
      rw [List.map_append, List.mem_append]
      rcases Ledger.getElem?_added hk with hk | ⟨rfl, rfl⟩
      · have hne : k ≠ s.calls.length := by
          have := (List.getElem?_eq_some_iff.mp hk).1
          omega
        rw [← hkept.granted k d hk]
        simp [hne]
      · simp [Status.isGranted]
    · intro hne
      exact absurd hempty hne
  · rename_i hroom
    refine ⟨⟨hkept.count, hkept.bound, ?_, ?_, ?_, ?_⟩, ?_⟩
    · show (s.grants.map Grant.call ++ (s.waitQueue ++ [s.calls.length])).Pairwise (· < ·)
      rw [← List.append_assoc, List.pairwise_append]
      refine ⟨hkept.order, List.pairwise_singleton _ _, ?_⟩
      intro a ha b hb
      obtain rfl := List.mem_singleton.mp hb
      exact hkept.range a ha
    · intro k hk
      show k < (s.calls ++ [_]).length
      rw [List.length_append, List.length_singleton]
      have hk : k ∈ s.grants.map Grant.call ++ (s.waitQueue ++ [s.calls.length]) := hk
      rw [← List.append_assoc, List.mem_append] at hk
      rcases hk with hk | hk
      · have := hkept.range k hk
        omega
      · obtain rfl := List.mem_singleton.mp hk
        exact Nat.lt_succ_self _
    · intro k d hk
      show k ∈ s.waitQueue ++ [s.calls.length] ↔ _
      rcases Ledger.getElem?_added hk with hk | ⟨rfl, rfl⟩
      · have hne : k ≠ s.calls.length := by
          have := (List.getElem?_eq_some_iff.mp hk).1
          omega
        rw [← hkept.waits k d hk]
        simp [hne]
      · simp [Status.isWaiting]
    · intro k d hk
      rcases Ledger.getElem?_added hk with hk | ⟨rfl, rfl⟩
      · exact hkept.granted k d hk
      · simpa [Status.isGranted] using hfresh.1
    · intro _
      show s.maxConcurrent ≤ s.activeCount
      omega

theorem Sound.setStatus {s : Semaphore} (h : s.Sound) {k : Nat} {status : Status} {c : Acquire}
    (hk : s.calls[k]? = some c) (hwaits : status.isWaiting = c.status.isWaiting)
    (hgranted : status.isGranted = c.status.isGranted) : (s.setStatus k status).Sound := by
  refine ⟨?_, ?_⟩
  · rw [setStatus_waitQueue]
    exact h.kept.setStatus hk hwaits hgranted
  · simpa using h.full

theorem Sound.expire {s s' : Semaphore} (h : s.Sound) {k : Nat} (hstep : s.expire k = some s') :
    s'.Sound := by
  rw [Semaphore.expire] at hstep
  split at hstep
  · rename_i hk
    obtain rfl := Option.some.inj hstep
    exact h.setStatus hk rfl rfl
  · rename_i hk
    obtain rfl := Option.some.inj hstep
    exact h.setStatus hk rfl rfl
  · cases hstep

theorem Sound.giveUp {s : Semaphore} (h : s.Sound) {k : Nat} {timed expired : Bool}
    (hk : s.calls[k]? = some ⟨timed, .waiting expired⟩) :
    ({ s.setStatus k .timedOut with waitQueue := s.waitQueue.erase k } : Semaphore).Sound := by
  obtain ⟨hkept, hfull⟩ := h
  have hsub : (s.grants.map Grant.call ++ s.waitQueue.erase k).Sublist
      (s.grants.map Grant.call ++ s.waitQueue) :=
    (List.Sublist.refl _).append List.erase_sublist
  have hnodup : s.waitQueue.Nodup :=
    (List.pairwise_append.mp hkept.order).2.1.imp fun hlt heq => by omega
  refine ⟨⟨?_, ?_, ?_, ?_, ?_, ?_⟩, ?_⟩
  · simpa using hkept.count
  · simpa using hkept.bound
  · simpa using hkept.order.sublist hsub
  · intro n hn
    have hlt := hkept.range n (hsub.subset (by simpa using hn))
    simpa using hlt
  · intro n d hn
    show n ∈ s.waitQueue.erase k ↔ _
    change (s.setStatus k .timedOut).calls[n]? = some d at hn
    rw [getElem?_setStatus hk] at hn
    rw [hnodup.mem_erase_iff]
    split at hn
    · rename_i heq
      subst heq
      obtain rfl := Option.some.inj hn
      simp [Status.isWaiting]
    · rename_i hne
      rw [← hkept.waits n d hn]
      simp [hne]
  · intro n d hn
    change (s.setStatus k .timedOut).calls[n]? = some d at hn
    show n ∈ (s.setStatus k .timedOut).grants.map Grant.call ↔ _
    rw [setStatus_grants]
    rw [getElem?_setStatus hk] at hn
    split at hn
    · rename_i heq
      subst heq
      obtain rfl := Option.some.inj hn
      simpa [Status.isGranted] using hkept.granted n _ hk
    · exact hkept.granted n d hn
  · intro hne
    show (s.setStatus k .timedOut).maxConcurrent ≤ (s.setStatus k .timedOut).activeCount
    rw [setStatus_maxConcurrent, setStatus_activeCount]
    apply hfull
    rintro hnil
    apply hne
    show s.waitQueue.erase k = []
    rw [hnil]
    rfl

theorem Sound.resume {s s' : Semaphore} (h : s.Sound) {k : Nat} (hstep : s.resume k = some s') :
    s'.Sound := by
  rw [Semaphore.resume] at hstep
  split at hstep
  · rename_i hk
    obtain rfl := Option.some.inj hstep
    exact h.setStatus hk rfl rfl
  · rename_i hk
    obtain rfl := Option.some.inj hstep
    exact h.giveUp hk
  · cases hstep

theorem Sound.release {s : Semaphore} (h : s.Sound) : s.release.Sound := by
  rw [Semaphore.release]
  apply Kept.drainWaiters
  split
  · have hcount := h.kept.count
    refine ⟨?_, h.kept.bound, h.kept.order, h.kept.range, h.kept.waits, h.kept.granted⟩
    show s.activeCount - 1 + (s.released + 1) = s.grants.length
    omega
  · exact h.kept

theorem Sound.resize {s : Semaphore} (h : s.Sound) (n : Int) : (s.resize n).Sound := by
  rw [Semaphore.resize]
  split
  · exact h
  · apply Kept.drainWaiters
    exact ⟨h.kept.count, h.kept.bound, h.kept.order, h.kept.range, h.kept.waits, h.kept.granted⟩

theorem Sound.step {s s' : Semaphore} {e : Event} (h : s.Sound)
    (hstep : semaphore.step s e = some s') : s'.Sound := by
  cases e with
  | acquire timed =>
    obtain rfl := Option.some.inj hstep
    exact h.acquire timed
  | expire k => exact h.expire hstep
  | resume k => exact h.resume hstep
  | release =>
    obtain rfl := Option.some.inj hstep
    exact h.release
  | resize n =>
    obtain rfl := Option.some.inj hstep
    exact h.resize n

theorem sound_of_reachable {s : Semaphore} (h : semaphore.Reachable s) : s.Sound := by
  refine h.invariant ?_ fun s e s' hs _ hstep => hs.step hstep
  rintro s ⟨n, -, rfl⟩
  refine ⟨⟨rfl, ?_, List.Pairwise.nil, ?_, ?_, ?_⟩, fun hne => absurd rfl hne⟩
  · intro g hg
    cases hg
  · intro k hk
    cases hk
  · intro k c hk
    cases hk
  · intro k c hk
    cases hk

/-- A waiter that was handed a permit keeps it: whatever happens before its continuation, and
if its timer has fired too, the continuation returns from `acquire`. -/
theorem resume_handed {s : Semaphore} {k : Nat} {timed expired : Bool}
    (hk : s.calls[k]? = some ⟨timed, .handed expired⟩) :
    s.resume k = some (s.setStatus k .acquired) := by
  simp only [Semaphore.resume, hk]

end Semaphore

/-- In every reachable state of the semaphore: the active count is the number of permits that
were granted less those that were released; every grant was within the maximum of its time;
a call waits only while the count is at the maximum or above; the permits went to the calls
in their order, with those that wait behind them, so none went to a call twice; a call has a
permit exactly if it has returned from `acquire` or is about to, and a call that has timed
out has none; and a call that was handed a permit returns from `acquire`. -/
theorem permits_kept {s : Semaphore} (h : semaphore.Reachable s) :
    (s.activeCount : Int) = s.grants.length - s.released ∧
      (∀ g ∈ s.grants, g.active ≤ g.maximum) ∧
      (s.waitQueue ≠ [] → s.maxConcurrent ≤ s.activeCount) ∧
      (s.grants.map Grant.call ++ s.waitQueue).Pairwise (· < ·) ∧
      (∀ k c, s.calls[k]? = some c →
        (k ∈ s.grants.map Grant.call ↔ c.status.isGranted = true) ∧
        (k ∈ s.waitQueue ↔ c.status.isWaiting = true)) ∧
      ∀ k timed expired, s.calls[k]? = some ⟨timed, .handed expired⟩ →
        ∃ s', semaphore.step s (.resume k) = some s' ∧
          s'.calls[k]? = some ⟨timed, .acquired⟩ := by
  have hsound := Semaphore.sound_of_reachable h
  have hkept := hsound.kept
  refine ⟨?_, hkept.bound, hsound.full, hkept.order, ?_, ?_⟩
  · have hcount := hkept.count
    omega
  · intro k c hk
    exact ⟨hkept.granted k c hk, hkept.waits k c hk⟩
  · intro k timed expired hk
    refine ⟨_, Semaphore.resume_handed hk, ?_⟩
    rw [Semaphore.getElem?_setStatus hk, if_pos rfl]

/-- A run in which the timer of a waiter has fired when the permit is handed to it. -/
def handedLate : List Event :=
  [.acquire false, .acquire true, .expire 1, .release, .resume 1]

/-- The waiter has the permit, and it is the only one that is out. -/
theorem permits_kept_handedLate :
    ∃ s, semaphore.run { maxConcurrent := 1 } handedLate = some s ∧ s.activeCount = 1 ∧
      s.calls[1]? = some ⟨true, .acquired⟩ ∧
      (s.activeCount : Int) = s.grants.length - s.released := by
  refine ⟨_, rfl, rfl, rfl, ?_⟩
  refine (permits_kept ?_).1
  exact @Machine.reachable_of_run _ _ semaphore _ _ ⟨1, by decide, rfl⟩ handedLate rfl

end PlugAgente.Pool
