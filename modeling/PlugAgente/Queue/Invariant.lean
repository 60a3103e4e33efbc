import PlugAgente.Machine.Ledger
import PlugAgente.Queue.ExecutionQueue

/-!
# The invariant of the queue

`RequestInv` says what the flags of one request have to do with each other and
with its place in a lane.  `Accounts` says that the worker counters are the totals
over the requests that hold a slot, and that they are within their caps.  `Inv`
puts both together with the lanes.

Each operation of the queue replaces one request and takes it off its lane or
leaves the lanes alone, so `Inv.put` and `Inv.dequeue` are the two step lemmas the
events go through.
-/

namespace PlugAgente.Queue

open Ledger

variable {R : Type} {cfg : QueueConfig}

/-! ## One request -/

/-- What holds of a request that stands in a lane (`queued`) or does not. -/
structure RequestInv (cfg : QueueConfig) (queued : Prop) (r : QueuedRequest R) : Prop where
  weight : queued ∨ r.startedAt = true → 1 ≤ r.slotWeight
  waits : queued → r.startedAt = false ∧ r.isCancelled = false ∧ r.completer = none ∧
    r.caller = .waiting ∧ r.startedCompleter = false
  taken : r.hasStarted = true ∨ r.workerSlotReleased = true → r.startedAt = true
  running_hasStarted : r.running = true → r.hasStarted = true
  running_of_holdsSlot : r.holdsSlot = true → r.running = true
  running_open : r.running = true → r.completer = none ∧ r.startedCompleter = true
  invocations_eq : r.invocations = if r.hasStarted then 1 else 0
  releases_eq : r.releases = if r.workerSlotReleased then 1 else 0
  delivered_length : r.delivered.length = if r.caller = .done then 1 else 0
  settled : ¬queued → r.running = false → r.caller ≠ .done →
    r.completer.isSome = true ∧ r.startedCompleter = true
  cancelled_done : r.hasStarted = true → r.isCancelled = true → r.caller = .done
  denied : ∀ f, Outcome.queue f ∈ r.delivered ∨ r.completer = some (.queue f) →
    f.saysNotStarted = true → r.hasStarted = false ∧ ¬queued

namespace RequestInv

theorem enqueued {sub : Submission} (hweight : 1 ≤ sub.slotWeight) :
    RequestInv cfg True (QueuedRequest.ofSubmission sub : QueuedRequest R) := by
  constructor <;> simp [QueuedRequest.ofSubmission, QueuedRequest.holdsSlot, hweight]

theorem rejected (sub : Submission) (failure : QueueFailure) :
    RequestInv cfg False
      ((QueuedRequest.ofSubmission sub : QueuedRequest R).deliver (.queue failure)) := by
  constructor <;> simp [QueuedRequest.ofSubmission, QueuedRequest.deliver, QueuedRequest.holdsSlot]

variable {queued : Prop} {r : QueuedRequest R}

theorem not_hasStarted (h : RequestInv cfg queued r) (hq : queued) : r.hasStarted = false := by
  by_contra hs
  have := h.taken (Or.inl (by simpa using hs))
  simp [(h.waits hq).1] at this

theorem not_workerSlotReleased (h : RequestInv cfg queued r) (hq : queued) :
    r.workerSlotReleased = false := by
  by_contra hs
  have := h.taken (Or.inr (by simpa using hs))
  simp [(h.waits hq).1] at this

theorem start (h : RequestInv cfg queued r) (hq : queued) :
    RequestInv cfg False
      { r with
        startedAt := true
        hasStarted := true
        startedCompleter := true
        running := true
        invocations := r.invocations + 1 } := by
  have hstarted : r.hasStarted = false := h.not_hasStarted hq
  have hw := h.waits hq
  have hdelivered := h.delivered_length
  constructor <;> grind [RequestInv]

theorem cancelAtStart (h : RequestInv cfg queued r) (hq : queued) :
    RequestInv cfg False
      { r with
        startedAt := true
        startedCompleter := true
        completer := some (.queue .cancelledBeforeStart)
        workerSlotReleased := true
        releases := r.releases + 1 } := by
  have hstarted : r.hasStarted = false := h.not_hasStarted hq
  have hreleased : r.workerSlotReleased = false := h.not_workerSlotReleased hq
  have hw := h.waits hq
  have hdelivered := h.delivered_length
  constructor <;> grind [RequestInv, QueuedRequest.holdsSlot]

theorem settleQueued (h : RequestInv cfg queued r) (hq : queued) (cancelled : Bool)
    (failure : QueueFailure) :
    RequestInv cfg False
      { r with
        isCancelled := cancelled
        startedCompleter := true
        completer := some (.queue failure) } := by
  have hstarted : r.hasStarted = false := h.not_hasStarted hq
  have hw := h.waits hq
  have hdelivered := h.delivered_length
  constructor <;> grind [RequestInv, QueuedRequest.holdsSlot]

theorem timeout (h : RequestInv cfg queued r) (hcaller : r.caller = .waiting)
    {failure : QueueFailure} (hfailure : failure.saysNotStarted = !r.hasStarted) :
    RequestInv cfg False ({ r with isCancelled := true }.deliver (.queue failure)) := by
  have hdelivered := h.delivered_length
  have hnil : r.delivered = [] := by
    rw [hcaller] at hdelivered
    exact List.length_eq_zero_iff.mp hdelivered
  have hq : queued → r.startedAt = false ∧ r.completer = none := by
    intro hq
    exact ⟨(h.waits hq).1, (h.waits hq).2.2.1⟩
  constructor <;> simp only [QueuedRequest.deliver, QueuedRequest.holdsSlot]
  all_goals grind [RequestInv, QueuedRequest.holdsSlot]

theorem endTask (h : RequestInv cfg queued r) (hrunning : r.running = true)
    (outcome : Option (Outcome R)) (hsettled : r.caller ≠ .done → outcome.isSome = true)
    (hdenied : ∀ f, outcome = some (.queue f) → f.saysNotStarted = false) :
    RequestInv cfg False
      { r with
        running := false
        completer := outcome
        workerSlotReleased := true
        releases := 1 } := by
  have hstarted := h.running_hasStarted hrunning
  have htaken := h.taken (Or.inl hstarted)
  have hopen := h.running_open hrunning
  have hdelivered := h.delivered_length
  have hq : ¬queued := by
    intro hq
    simp [(h.waits hq).1] at htaken
  constructor <;> grind [RequestInv, QueuedRequest.holdsSlot]

theorem release (h : RequestInv cfg queued r) (hstarted : r.hasStarted = true) :
    RequestInv cfg queued { r with workerSlotReleased := true, releases := 1 } := by
  have htaken := h.taken (Or.inl hstarted)
  have hdelivered := h.delivered_length
  constructor <;> grind [RequestInv, QueuedRequest.holdsSlot]

theorem observeStart (h : RequestInv cfg queued r) (hcaller : r.caller = .waiting)
    (hq : ¬queued) : RequestInv cfg queued { r with caller := .awaitingResult } := by
  have hdelivered := h.delivered_length
  constructor <;> grind [RequestInv, QueuedRequest.holdsSlot]

theorem returnResult (h : RequestInv cfg queued r) (hcaller : r.caller = .awaitingResult)
    {outcome : Outcome R} (hcompleter : r.completer = some outcome) :
    RequestInv cfg queued (r.deliver outcome) := by
  have hdelivered := h.delivered_length
  have hnil : r.delivered = [] := by
    rw [hcaller] at hdelivered
    exact List.length_eq_zero_iff.mp hdelivered
  have hq : ¬queued := by
    intro hq
    simp [(h.waits hq).2.2.1] at hcompleter
  constructor <;> simp only [QueuedRequest.deliver, QueuedRequest.holdsSlot]
  all_goals grind [RequestInv, QueuedRequest.holdsSlot]

end RequestInv

/-! ## The counters -/

/-- The share of a request in a counter to which a request of a kind and a weight
adds `w` while it holds a slot. -/
def share (w : SqlExecutionKind → Int → Int) (r : QueuedRequest R) : Int :=
  if r.holdsSlot then w r.kind r.slotWeight else 0

/-- What a request adds to `activeWorkers`. -/
def oneEach : SqlExecutionKind → Int → Int :=
  fun _ _ => 1

/-- What a request adds to the counter of a lane that counts requests. -/
def oneIn (lane : SqlExecutionKind) : SqlExecutionKind → Int → Int :=
  fun kind _ => if kind = lane then 1 else 0

/-- What a request adds to `activeBatchWorkers`. -/
def weightInBatch : SqlExecutionKind → Int → Int :=
  fun kind slotWeight => if kind = .batch then slotWeight else 0

/-- The counters are the totals over the requests that hold a slot. -/
structure Totals (requests : List (QueuedRequest R)) (c : LaneCapacity) : Prop where
  workers : c.activeWorkers = total (share oneEach) requests
  batch : c.activeBatchWorkers = total (share weightInBatch) requests
  longQuery : c.activeLongQueryWorkers = total (share (oneIn .longQuery)) requests
  streaming : c.activeStreamingWorkers = total (share (oneIn .streaming)) requests
  nonQuery : c.activeNonQueryWorkers = total (share (oneIn .nonQuery)) requests

/-- The counters are within their caps. -/
structure Capped (cfg : QueueConfig) (c : LaneCapacity) : Prop where
  workers : c.activeWorkers ≤ cfg.maxConcurrentWorkers
  batch : c.activeBatchWorkers ≤ cfg.maxConcurrentBatchWorkers
  longQuery : c.activeLongQueryWorkers ≤ cfg.maxConcurrentLongQueryWorkers
  streaming : c.activeStreamingWorkers ≤ cfg.maxConcurrentStreamingWorkers
  nonQuery : c.activeNonQueryWorkers ≤ cfg.maxConcurrentNonQueryWorkers

variable {requests : List (QueuedRequest R)} {c : LaneCapacity} {i : Nat}
  {r r' : QueuedRequest R}

theorem Totals.set_same (h : Totals requests c) (hr : requests[i]? = some r)
    (hshare : ∀ w, share w r' = share w r) : Totals (requests.set i r') c := by
  constructor
  · rw [total_set_same _ hr (hshare _)]; exact h.workers
  · rw [total_set_same _ hr (hshare _)]; exact h.batch
  · rw [total_set_same _ hr (hshare _)]; exact h.longQuery
  · rw [total_set_same _ hr (hshare _)]; exact h.streaming
  · rw [total_set_same _ hr (hshare _)]; exact h.nonQuery

theorem Totals.concat (h : Totals requests c) (hr : r.holdsSlot = false) :
    Totals (requests ++ [r]) c := by
  have hshare : ∀ w, share w r = 0 := by
    intro w
    simp [share, hr]
  constructor
  · rw [total_concat, hshare]; simpa using h.workers
  · rw [total_concat, hshare]; simpa using h.batch
  · rw [total_concat, hshare]; simpa using h.longQuery
  · rw [total_concat, hshare]; simpa using h.streaming
  · rw [total_concat, hshare]; simpa using h.nonQuery

theorem Totals.started (h : Totals requests c) (hr : requests[i]? = some r)
    (hfree : r.holdsSlot = false) (hholds : r'.holdsSlot = true) (hkind : r'.kind = r.kind)
    (hweight : r'.slotWeight = r.slotWeight) :
    Totals (requests.set i r') (c.onWorkerStarted r.kind r.slotWeight) := by
  have hnone : ∀ w, share w r = 0 := by
    intro w
    simp [share, hfree]
  have hsome : ∀ w, share w r' = w r.kind r.slotWeight := by
    intro w
    simp [share, hholds, hkind, hweight]
  constructor
  · rw [total_set _ hr, hnone, hsome, ← h.workers]
    simp [LaneCapacity.onWorkerStarted, oneEach]
  · rw [total_set _ hr, hnone, hsome, ← h.batch]
    simp only [LaneCapacity.onWorkerStarted, weightInBatch]
    split <;> omega
  · rw [total_set _ hr, hnone, hsome, ← h.longQuery]
    simp only [LaneCapacity.onWorkerStarted, oneIn]
    split <;> omega
  · rw [total_set _ hr, hnone, hsome, ← h.streaming]
    simp only [LaneCapacity.onWorkerStarted, oneIn]
    split <;> omega
  · rw [total_set _ hr, hnone, hsome, ← h.nonQuery]
    simp only [LaneCapacity.onWorkerStarted, oneIn]
    split <;> omega

theorem weight_le_total {w : SqlExecutionKind → Int → Int} (hr : requests[i]? = some r)
    (hholds : r.holdsSlot = true) (hw : ∀ a ∈ requests, 0 ≤ share w a) :
    w r.kind r.slotWeight ≤ total (share w) requests := by
  have hle : share w r ≤ total (share w) requests := le_total hw hr
  simpa [share, hholds] using hle

theorem share_oneIn_nonneg (lane : SqlExecutionKind) (a : QueuedRequest R) :
    0 ≤ share (oneIn lane) a := by
  simp only [share, oneIn]
  split
  · split <;> omega
  · omega

theorem guardedDecrement_eq (p : Prop) [Decidable p] {n : Int} (h : (if p then 1 else 0) ≤ n) :
    (if p ∧ 0 < n then n - 1 else n) = n - (if p then 1 else 0) + 0 := by
  by_cases hp : p
  · simp only [hp, if_true, true_and] at h ⊢
    rw [if_pos (by omega)]
    omega
  · simp [hp]

/-- `onWorkerReleased` follows a request that gives its slot back: no counter of a
lane is zero then, so no decrement is left out and nothing is cut off. -/
theorem Totals.released (h : Totals requests c) (hcap : Capped cfg c)
    (hr : requests[i]? = some r) (hholds : r.holdsSlot = true) (hfree : r'.holdsSlot = false)
    (hweight : ∀ a ∈ requests, a.holdsSlot = true → 1 ≤ a.slotWeight) :
    Totals (requests.set i r') (c.onWorkerReleased cfg r.kind r.slotWeight) := by
  have hnone : ∀ w, share w r' = 0 := by
    intro w
    simp [share, hfree]
  have hsome : ∀ w, share w r = w r.kind r.slotWeight := by
    intro w
    simp [share, hholds]
  have hbatch : ∀ a ∈ requests, 0 ≤ share weightInBatch a := by
    intro a ha
    simp only [share, weightInBatch]
    split
    · rename_i hslot
      have := hweight a ha hslot
      split <;> omega
    · omega
  have hrw : 1 ≤ r.slotWeight := hweight r (List.mem_of_getElem? hr) hholds
  constructor
  · rw [total_set _ hr, hnone, hsome, ← h.workers]
    simp [LaneCapacity.onWorkerReleased, oneEach]
  · have hle := weight_le_total hr hholds hbatch
    have hcapped := hcap.batch
    rw [total_set _ hr, hnone, hsome, ← h.batch]
    rw [← h.batch] at hle
    simp only [LaneCapacity.onWorkerReleased, LaneCapacity.clamp, weightInBatch] at hle ⊢
    by_cases hk : r.kind = .batch
    · simp only [hk, if_true, true_and] at hle ⊢
      rw [if_pos (by omega), if_neg (by omega), if_neg (by omega)]
      omega
    · simp [hk]
  · have hle := weight_le_total hr hholds fun a _ => share_oneIn_nonneg .longQuery a
    rw [total_set _ hr, hnone, hsome, ← h.longQuery]
    rw [← h.longQuery] at hle
    exact guardedDecrement_eq _ hle
  · have hle := weight_le_total hr hholds fun a _ => share_oneIn_nonneg .streaming a
    rw [total_set _ hr, hnone, hsome, ← h.streaming]
    rw [← h.streaming] at hle
    exact guardedDecrement_eq _ hle
  · have hle := weight_le_total hr hholds fun a _ => share_oneIn_nonneg .nonQuery a
    rw [total_set _ hr, hnone, hsome, ← h.nonQuery]
    rw [← h.nonQuery] at hle
    exact guardedDecrement_eq _ hle

theorem Capped.started (h : Capped cfg c) (hslot : c.hasAvailableWorkerSlot cfg = true)
    {kind : SqlExecutionKind} {slotWeight : Int} (hstart : c.canStart cfg kind slotWeight = true) :
    Capped cfg (c.onWorkerStarted kind slotWeight) := by
  have hslot : c.activeWorkers < cfg.maxConcurrentWorkers := by
    simpa [LaneCapacity.hasAvailableWorkerSlot] using hslot
  have hbatch := h.batch
  have hlong := h.longQuery
  have hstreaming := h.streaming
  have hnonQuery := h.nonQuery
  cases kind <;> simp [LaneCapacity.canStart] at hstart <;>
    constructor <;> simp [LaneCapacity.onWorkerStarted] <;> omega

theorem Capped.released (h : Capped cfg c) (kind : SqlExecutionKind) (slotWeight : Int) :
    Capped cfg (c.onWorkerReleased cfg kind slotWeight) := by
  have hworkers := h.workers
  have hbatch := h.batch
  have hlong := h.longQuery
  have hstreaming := h.streaming
  have hnonQuery := h.nonQuery
  have hpos := cfg.maxConcurrentBatchWorkers_pos
  constructor <;> simp only [LaneCapacity.onWorkerReleased, LaneCapacity.clamp]
  · omega
  all_goals split_ifs <;> omega

/-! ## The whole state -/

/-- The number of requests in the lanes. -/
def laneTotal (lanes : Lanes Nat) : Int :=
  total (fun k => ((lanes k).length : Int)) laneOrder

/-- The invariant of the queue. -/
structure Inv (cfg : QueueConfig) (s : ExecutionQueue R) : Prop where
  placed : ∀ k i, i ∈ s.lanes k → ∃ r, s.requests[i]? = some r ∧ r.kind = k
  nodup : ∀ k, (s.lanes k).Nodup
  request : ∀ i r, s.requests[i]? = some r → RequestInv cfg (i ∈ s.lanes r.kind) r
  queuedCount_eq : s.queuedCount = laneTotal s.lanes
  queuedCount_le : s.queuedCount ≤ cfg.maxQueueSize
  totals : Totals s.requests s.capacity
  capped : Capped cfg s.capacity

variable {s s' : ExecutionQueue R}

theorem RequestInv.congr {p q : Prop} (h : RequestInv cfg p r) (hpq : p ↔ q) :
    RequestInv cfg q r := by
  rwa [← propext hpq]

theorem Inv.frame (h : Inv cfg s) (hrequests : s'.requests = s.requests)
    (hlanes : s'.lanes = s.lanes) (hcount : s'.queuedCount = s.queuedCount)
    (hcapacity : s'.capacity = s.capacity) : Inv cfg s' := by
  constructor
  · rw [hlanes, hrequests]; exact h.placed
  · rw [hlanes]; exact h.nodup
  · rw [hlanes, hrequests]; exact h.request
  · rw [hlanes, hcount]; exact h.queuedCount_eq
  · rw [hcount]; exact h.queuedCount_le
  · rw [hrequests, hcapacity]; exact h.totals
  · rw [hcapacity]; exact h.capped

theorem Inv.empty : Inv cfg ({} : ExecutionQueue R) where
  placed := by simp
  nodup := by simp
  request := by simp
  queuedCount_eq := by simp [laneTotal, laneOrder]
  queuedCount_le := le_of_lt cfg.maxQueueSize_pos
  totals := by constructor <;> simp
  capped := by
    constructor
    exacts [le_of_lt cfg.maxConcurrentWorkers_pos, le_of_lt cfg.maxConcurrentBatchWorkers_pos,
      le_of_lt cfg.maxConcurrentLongQueryWorkers_pos,
      le_of_lt cfg.maxConcurrentStreamingWorkers_pos, le_of_lt cfg.maxConcurrentNonQueryWorkers_pos]

theorem Inv.placed_set (h : Inv cfg s) (hr : s.requests[i]? = some r) (hkind : r'.kind = r.kind)
    {k : SqlExecutionKind} {n : Nat} (hn : n ∈ s.lanes k) :
    ∃ a, (s.requests.set i r')[n]? = some a ∧ a.kind = k := by
  obtain ⟨a, ha, hk⟩ := h.placed k n hn
  by_cases hni : n = i
  · subst hni
    have hlt := (List.getElem?_eq_some_iff.mp hr).1
    refine ⟨r', List.getElem?_set_self hlt, ?_⟩
    rw [hr] at ha
    rw [hkind, Option.some.inj ha, hk]
  · exact ⟨a, by rw [List.getElem?_set_ne (fun he => hni he.symm)]; exact ha, hk⟩

theorem Inv.put (h : Inv cfg s) (hr : s.requests[i]? = some r) (hkind : r'.kind = r.kind)
    (hreq : RequestInv cfg (i ∈ s.lanes r.kind) r') (htotals : Totals (s.requests.set i r') c)
    (hcap : Capped cfg c) (hrequests : s'.requests = s.requests.set i r')
    (hlanes : s'.lanes = s.lanes) (hcount : s'.queuedCount = s.queuedCount)
    (hcapacity : s'.capacity = c) : Inv cfg s' := by
  constructor
  · intro k n hn
    rw [hlanes] at hn
    rw [hrequests]
    exact h.placed_set hr hkind hn
  · rw [hlanes]; exact h.nodup
  · rw [hrequests, hlanes]
    apply forall_set
    · intro n a _ ha
      exact h.request n a ha
    · intro _
      rwa [hkind]
  · rw [hlanes, hcount]; exact h.queuedCount_eq
  · rw [hcount]; exact h.queuedCount_le
  · rw [hrequests, hcapacity]; exact htotals
  · rw [hcapacity]; exact hcap

theorem laneTotal_lanesWithout {k : SqlExecutionKind} (hi : i ∈ s.lanes k) :
    laneTotal (s.lanesWithout k i) = laneTotal s.lanes - 1 := by
  have hlength : ((s.lanes k).erase i).length = (s.lanes k).length - 1 :=
    List.length_erase_of_mem hi
  have hpos : 0 < (s.lanes k).length := List.length_pos_of_mem hi
  cases k <;> simp [laneTotal, laneOrder, ExecutionQueue.lanesWithout, hlength] <;> omega

theorem mem_lanesWithout {k k' : SqlExecutionKind} {n : Nat} (hn : n ≠ i) :
    n ∈ s.lanesWithout k i k' ↔ n ∈ s.lanes k' := by
  unfold ExecutionQueue.lanesWithout
  split
  · rw [List.mem_erase_of_ne hn]
  · exact Iff.rfl

theorem Inv.dequeue (h : Inv cfg s) (hr : s.requests[i]? = some r) (hi : i ∈ s.lanes r.kind)
    (hkind : r'.kind = r.kind) (hreq : RequestInv cfg False r')
    (htotals : Totals (s.requests.set i r') c) (hcap : Capped cfg c)
    (hrequests : s'.requests = s.requests.set i r')
    (hlanes : s'.lanes = s.lanesWithout r.kind i) (hcount : s'.queuedCount = s.queuedCount - 1)
    (hcapacity : s'.capacity = c) : Inv cfg s' := by
  have hgone : i ∉ s.lanesWithout r.kind i r.kind := by
    simp [ExecutionQueue.lanesWithout, (h.nodup r.kind).mem_erase_iff]
  constructor
  · intro k n hn
    rw [hlanes, ExecutionQueue.lanesWithout] at hn
    rw [hrequests]
    apply h.placed_set hr hkind
    split at hn
    · exact List.mem_of_mem_erase hn
    · exact hn
  · intro k
    rw [hlanes, ExecutionQueue.lanesWithout]
    split
    · exact (h.nodup k).erase i
    · exact h.nodup k
  · rw [hrequests, hlanes]
    apply forall_set
    · intro n a hn ha
      exact (h.request n a ha).congr (mem_lanesWithout hn).symm
    · intro _
      exact hreq.congr (by simp [hkind, hgone])
  · rw [hlanes, hcount, laneTotal_lanesWithout hi, h.queuedCount_eq]
  · have := h.queuedCount_le
    rw [hcount]
    omega
  · rw [hrequests, hcapacity]; exact htotals
  · rw [hcapacity]; exact hcap

theorem Inv.not_holdsSlot (h : Inv cfg s) (hr : s.requests[i]? = some r)
    (hi : i ∈ s.lanes r.kind) : r.holdsSlot = false := by
  simp [QueuedRequest.holdsSlot, ((h.request i r hr).waits hi).1]

theorem Inv.weight_pos (h : Inv cfg s) :
    ∀ a ∈ s.requests, a.holdsSlot = true → 1 ≤ a.slotWeight := by
  intro a ha hholds
  obtain ⟨n, hn⟩ := List.mem_iff_getElem?.mp ha
  have htaken : a.startedAt = true := by
    simp only [QueuedRequest.holdsSlot, Bool.and_eq_true] at hholds
    exact hholds.1
  exact (h.request n a hn).weight (Or.inr htaken)

end PlugAgente.Queue
