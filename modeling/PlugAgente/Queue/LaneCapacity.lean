import PlugAgente.Queue.LaneScheduler

/-!
# The worker counters of the SQL execution queue

`SqlExecutionLaneCapacity` counts the workers that run, those of four kinds of lanes once more.  The
counters are integers, as in the source, so that a release too many would show as a negative number.
-/

namespace PlugAgente.Queue

/-- The caps of a queue.  The constructor asserts that each is positive. -/
structure QueueConfig where
  maxQueueSize : Int
  maxConcurrentWorkers : Int
  maxConcurrentBatchWorkers : Int
  maxConcurrentLongQueryWorkers : Int
  maxConcurrentStreamingWorkers : Int
  maxConcurrentNonQueryWorkers : Int
  maxQueueSize_pos : 0 < maxQueueSize
  maxConcurrentWorkers_pos : 0 < maxConcurrentWorkers
  maxConcurrentBatchWorkers_pos : 0 < maxConcurrentBatchWorkers
  maxConcurrentLongQueryWorkers_pos : 0 < maxConcurrentLongQueryWorkers
  maxConcurrentStreamingWorkers_pos : 0 < maxConcurrentStreamingWorkers
  maxConcurrentNonQueryWorkers_pos : 0 < maxConcurrentNonQueryWorkers

/-- The counters of `SqlExecutionLaneCapacity`. -/
structure LaneCapacity where
  activeWorkers : Int := 0
  activeBatchWorkers : Int := 0
  activeLongQueryWorkers : Int := 0
  activeStreamingWorkers : Int := 0
  activeNonQueryWorkers : Int := 0
  deriving DecidableEq, Repr

namespace LaneCapacity

variable (cfg : QueueConfig)

def hasAvailableWorkerSlot (c : LaneCapacity) : Bool :=
  decide (c.activeWorkers < cfg.maxConcurrentWorkers)

def canStart (c : LaneCapacity) (kind : SqlExecutionKind) (slotWeight : Int) : Bool :=
  match kind with
  | .batch => decide (c.activeBatchWorkers + slotWeight ≤ cfg.maxConcurrentBatchWorkers)
  | .longQuery => decide (c.activeLongQueryWorkers < cfg.maxConcurrentLongQueryWorkers)
  | .streaming => decide (c.activeStreamingWorkers < cfg.maxConcurrentStreamingWorkers)
  | .nonQuery => decide (c.activeNonQueryWorkers < cfg.maxConcurrentNonQueryWorkers)
  | .shortQuery | .query => true

def onWorkerStarted (c : LaneCapacity) (kind : SqlExecutionKind) (slotWeight : Int) :
    LaneCapacity where
  activeWorkers := c.activeWorkers + 1
  activeBatchWorkers :=
    if kind = .batch then c.activeBatchWorkers + slotWeight else c.activeBatchWorkers
  activeLongQueryWorkers :=
    if kind = .longQuery then c.activeLongQueryWorkers + 1 else c.activeLongQueryWorkers
  activeStreamingWorkers :=
    if kind = .streaming then c.activeStreamingWorkers + 1 else c.activeStreamingWorkers
  activeNonQueryWorkers :=
    if kind = .nonQuery then c.activeNonQueryWorkers + 1 else c.activeNonQueryWorkers

def clamp (n lower upper : Int) : Int :=
  if n < lower then lower else if upper < n then upper else n

def onWorkerReleased (c : LaneCapacity) (kind : SqlExecutionKind) (slotWeight : Int) :
    LaneCapacity where
  activeWorkers := c.activeWorkers - 1
  activeBatchWorkers :=
    if kind = .batch ∧ 0 < c.activeBatchWorkers then
      clamp (c.activeBatchWorkers - slotWeight) 0 cfg.maxConcurrentBatchWorkers
    else c.activeBatchWorkers
  activeLongQueryWorkers :=
    if kind = .longQuery ∧ 0 < c.activeLongQueryWorkers then c.activeLongQueryWorkers - 1
    else c.activeLongQueryWorkers
  activeStreamingWorkers :=
    if kind = .streaming ∧ 0 < c.activeStreamingWorkers then c.activeStreamingWorkers - 1
    else c.activeStreamingWorkers
  activeNonQueryWorkers :=
    if kind = .nonQuery ∧ 0 < c.activeNonQueryWorkers then c.activeNonQueryWorkers - 1
    else c.activeNonQueryWorkers

end LaneCapacity

end PlugAgente.Queue
