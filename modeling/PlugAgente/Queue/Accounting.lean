import PlugAgente.Queue.Preservation

/-!
# Worker and lane accounting

What the counters of the queue are in every state of every run.  The batch lane
counts slot weights.  The long query, streaming and non-query lanes count
requests: `onWorkerStarted` and `onWorkerReleased` use the weight of a request for
the batch counter only.
-/

namespace PlugAgente.Queue

open Ledger ExecutionQueue

variable {R : Type} {cfg : QueueConfig} {s : ExecutionQueue R}

namespace ExecutionQueue

/-- The requests that have started and have not given their slot back. -/
def slotHolders (s : ExecutionQueue R) : List (QueuedRequest R) :=
  s.requests.filter (·.holdsSlot)

def laneHolders (s : ExecutionQueue R) (kind : SqlExecutionKind) : List (QueuedRequest R) :=
  s.slotHolders.filter (·.kind = kind)

/-- The number of requests that wait. -/
def waitingCount (s : ExecutionQueue R) : Nat :=
  (laneOrder.map fun k => (s.lanes k).length).sum

end ExecutionQueue

theorem total_share (w : SqlExecutionKind → Int → Int) (requests : List (QueuedRequest R)) :
    total (share w) requests =
      total (fun r => w r.kind r.slotWeight) (requests.filter (·.holdsSlot)) := by
  induction requests with
  | nil => rfl
  | cons r rest ih =>
    rw [total_cons, ih, share]
    cases hr : r.holdsSlot with
    | true => rw [List.filter_cons_of_pos hr, total_cons, if_pos rfl]
    | false =>
      rw [List.filter_cons_of_neg (by simp [hr]), if_neg (by simp)]
      omega

theorem total_one (requests : List (QueuedRequest R)) :
    total (fun _ => 1) requests = requests.length := by
  induction requests with
  | nil => rfl
  | cons r rest ih =>
    rw [total_cons, ih, List.length_cons]
    push_cast
    omega

theorem total_ite_kind (kind : SqlExecutionKind) (f : QueuedRequest R → Int)
    (requests : List (QueuedRequest R)) :
    total (fun r => if r.kind = kind then f r else 0) requests =
      total f (requests.filter (·.kind = kind)) := by
  induction requests with
  | nil => rfl
  | cons r rest ih =>
    rw [total_cons, ih]
    by_cases hr : r.kind = kind
    · rw [if_pos hr, List.filter_cons_of_pos (by simp [hr]), total_cons]
    · rw [if_neg hr, List.filter_cons_of_neg (by simp [hr])]
      omega

theorem total_share_oneEach (s : ExecutionQueue R) :
    total (share oneEach) s.requests = s.slotHolders.length := by
  rw [total_share]
  exact total_one _

theorem total_share_oneIn (s : ExecutionQueue R) (kind : SqlExecutionKind) :
    total (share (oneIn kind)) s.requests = (s.laneHolders kind).length := by
  rw [total_share, laneHolders, ← total_one]
  exact total_ite_kind kind (fun _ => 1) _

theorem total_share_weightInBatch (s : ExecutionQueue R) :
    total (share weightInBatch) s.requests = total (·.slotWeight) (s.laneHolders .batch) := by
  rw [total_share, laneHolders]
  exact total_ite_kind .batch (fun r => r.slotWeight) _

theorem laneTotal_eq_waitingCount (s : ExecutionQueue R) :
    laneTotal s.lanes = s.waitingCount := by
  simp only [laneTotal, waitingCount, total, laneOrder, List.map_cons, List.map_nil, List.sum_cons,
    List.sum_nil]
  push_cast
  rfl

/-- A started request gives its slot back exactly once: it has not while its task
holds the slot, and it has once from then on. -/
theorem Inv.releases_of_startedAt (h : Inv cfg s) {r : QueuedRequest R} (hr : r ∈ s.requests)
    (hstarted : r.startedAt = true) :
    (r.holdsSlot = true → r.running = true ∧ r.releases = 0) ∧
      (r.holdsSlot = false → r.releases = 1) := by
  obtain ⟨i, hi⟩ := List.mem_iff_getElem?.mp hr
  have hreq := h.request i r hi
  have hreleases := hreq.releases_eq
  constructor
  · intro hholds
    refine ⟨hreq.running_of_holdsSlot hholds, ?_⟩
    have hfalse : r.workerSlotReleased = false := by
      simp only [QueuedRequest.holdsSlot, Bool.and_eq_true, Bool.not_eq_true'] at hholds
      exact hholds.2
    rw [hreleases, hfalse]
    rfl
  · intro hfree
    have htrue : r.workerSlotReleased = true := by
      simpa [QueuedRequest.holdsSlot, hstarted] using hfree
    rw [hreleases, htrue]
    rfl

/-- In every reachable state the counters of the workers, of the four capped lanes
and of the queue are what they stand for and are within their caps, and a started
request gives its slot back exactly once. -/
theorem queue_accounting (h : (machine R cfg).Reachable s) :
    (s.capacity.activeWorkers = s.slotHolders.length ∧
        s.capacity.activeWorkers ≤ cfg.maxConcurrentWorkers) ∧
      (s.capacity.activeBatchWorkers = ((s.laneHolders .batch).map (·.slotWeight)).sum ∧
        s.capacity.activeBatchWorkers ≤ cfg.maxConcurrentBatchWorkers) ∧
      (s.capacity.activeLongQueryWorkers = (s.laneHolders .longQuery).length ∧
        s.capacity.activeLongQueryWorkers ≤ cfg.maxConcurrentLongQueryWorkers) ∧
      (s.capacity.activeStreamingWorkers = (s.laneHolders .streaming).length ∧
        s.capacity.activeStreamingWorkers ≤ cfg.maxConcurrentStreamingWorkers) ∧
      (s.capacity.activeNonQueryWorkers = (s.laneHolders .nonQuery).length ∧
        s.capacity.activeNonQueryWorkers ≤ cfg.maxConcurrentNonQueryWorkers) ∧
      (s.queuedCount = s.waitingCount ∧ s.queuedCount ≤ cfg.maxQueueSize) ∧
      ∀ r ∈ s.requests, r.startedAt = true →
        (r.holdsSlot = true → r.running = true ∧ r.releases = 0) ∧
          (r.holdsSlot = false → r.releases = 1) := by
  have hinv := inv_of_reachable h
  have htotals := hinv.totals
  have hcap := hinv.capped
  refine ⟨⟨?_, hcap.workers⟩, ⟨?_, hcap.batch⟩, ⟨?_, hcap.longQuery⟩, ⟨?_, hcap.streaming⟩,
    ⟨?_, hcap.nonQuery⟩, ⟨?_, hinv.queuedCount_le⟩, ?_⟩
  · rw [htotals.workers, total_share_oneEach]
  · rw [htotals.batch, total_share_weightInBatch]
    rfl
  · rw [htotals.longQuery, total_share_oneIn]
  · rw [htotals.streaming, total_share_oneIn]
  · rw [htotals.nonQuery, total_share_oneIn]
  · rw [hinv.queuedCount_eq, laneTotal_eq_waitingCount]
  · intro r hr hstarted
    exact hinv.releases_of_startedAt hr hstarted

/-- A queue for two workers at a time, with room for two in each capped lane. -/
def twoWorkers : QueueConfig where
  maxQueueSize := 4
  maxConcurrentWorkers := 2
  maxConcurrentBatchWorkers := 2
  maxConcurrentLongQueryWorkers := 2
  maxConcurrentStreamingWorkers := 2
  maxConcurrentNonQueryWorkers := 2
  maxQueueSize_pos := by decide
  maxConcurrentWorkers_pos := by decide
  maxConcurrentBatchWorkers_pos := by decide
  maxConcurrentLongQueryWorkers_pos := by decide
  maxConcurrentStreamingWorkers_pos := by decide
  maxConcurrentNonQueryWorkers_pos := by decide

/-- The state after some events on an empty queue, the empty queue if one of them
was not enabled. -/
def after (cfg : QueueConfig) (events : List (Event Nat)) : ExecutionQueue Nat :=
  ((machine Nat cfg).run {} events).getD {}

theorem reach_after {guard : ExecutionQueue Nat → Event Nat → Prop} {events : List (Event Nat)}
    (hguard : ∀ s, ∀ event ∈ events, guard s event)
    (h : ((machine Nat cfg).run {} events).isSome = true) :
    (machine Nat cfg).Reach guard (after cfg events) := by
  obtain ⟨t, ht⟩ := Option.isSome_iff_exists.mp h
  rw [after, ht]
  exact Machine.reach_of_run rfl hguard ht

theorem reachable_after {events : List (Event Nat)}
    (h : ((machine Nat cfg).run {} events).isSome = true) :
    (machine Nat cfg).Reachable (after cfg events) :=
  reach_after (fun _ _ _ => trivial) h

/-- A batch of weight 2 has started and a second one waits for it. -/
theorem queue_accounting_batch :
    let s := after twoWorkers
      [.submit { kind := .batch, slotWeight := 2 }, .round, .submit { kind := .batch }, .round]
    s.capacity.activeBatchWorkers = 2 ∧ s.queuedCount = 1 ∧
      (s.capacity.activeBatchWorkers = ((s.laneHolders .batch).map (·.slotWeight)).sum ∧
        s.capacity.activeBatchWorkers ≤ twoWorkers.maxConcurrentBatchWorkers) := by
  intro s
  have h : (machine Nat twoWorkers).Reachable s := reachable_after (by decide)
  exact ⟨by decide, by decide, (queue_accounting h).2.1⟩

/-- A long query of weight 3 takes one place of its lane, not three. -/
theorem longQuery_counts_one :
    ∃ s : ExecutionQueue Nat, (machine Nat twoWorkers).Reachable s ∧
      s.capacity.activeLongQueryWorkers = 1 ∧
      ((s.laneHolders .longQuery).map (·.slotWeight)).sum = 3 :=
  ⟨after twoWorkers [.submit { kind := .longQuery, slotWeight := 3 }, .round],
    reachable_after (by decide), by decide, by decide⟩

end PlugAgente.Queue
