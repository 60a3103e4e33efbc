import PlugAgente.Machine.Transition

/-!
# The stream emitter with backpressure

`BackpressureStreamEmitter` as a machine.  Its methods run in one turn of the event loop up
to their first `await`.  A drain is the closure that `_scheduleFlush` puts on the microtask
queue; `drains` are those that have not ended, with the `await` at which each of them stands,
so that nothing in the machine itself keeps two of them apart.

What the transport does is an input: an `emit` settles in some later turn, with `true`, with
`false` or with an exception.  `frames` are the frames that were handed to it, `accepted` the
chunks that were put in the queue, and `granted` is all the credit there ever was.  The credit is a
Dart `int`, whose sum wraps around at 64 bits; `overflowed` says that this has happened.
-/

namespace PlugAgente.Stream

variable {ρ κ : Type}

/-- What the emitter reads of an `RpcStreamChunk`, with the rest of it. -/
structure RpcStreamChunk (ρ : Type) where
  streamId : String
  body : ρ
  deriving DecidableEq, Repr

/-- What is handed to the transport: `rpc:chunk` or `rpc:complete`. -/
inductive Frame (ρ κ : Type) where
  | chunk (chunk : RpcStreamChunk ρ)
  | complete (complete : κ)
  deriving DecidableEq, Repr

/-- Where a drain stands. -/
inductive Stage where
  /-- The microtask is due. -/
  | scheduled
  | emittingChunk
  | emittingComplete
  /-- `_flushBody` has thrown, and `_handleFlushError` is due. -/
  | failing
  /-- The `finally` is due. -/
  | closing
  deriving DecidableEq, Repr

/-- The drain awaits the transport. -/
def Stage.emits : Stage → Bool
  | .emittingChunk | .emittingComplete => true
  | _ => false

structure Emitter (ρ κ : Type) where
  maxQueueSize : Nat
  sendCredit : Int64
  chunkQueue : List (RpcStreamChunk ρ) := []
  pendingComplete : Option κ := none
  streamId : Option String := none
  registered : Bool := false
  isFaulted : Bool := false
  completed : Bool := false
  completionRequested : Bool := false
  flushInFlight : Bool := false
  queuedPeak : Nat := 0
  drains : List Stage := []
  frames : List (Frame ρ κ) := []
  accepted : List (RpcStreamChunk ρ) := []
  granted : Nat
  overflowed : Bool := false
  registrations : Nat := 0
  unregistrations : Nat := 0
  emitFailed : Bool := false
  lost : Bool := false

/-- The events; `accepts` is the answer of `_onRegister`, and `turn` is a turn of a drain,
with what the `emit` it awaits comes to. -/
inductive Event (ρ κ : Type) where
  | emitChunk (chunk : RpcStreamChunk ρ) (accepts : Bool)
  | emitComplete (complete : κ)
  | releaseChunks (windowSize : Int64)
  | onTransportLoss
  | turn (drain : Nat) (emitted : Bool)

namespace Emitter

def onTransportLoss (s : Emitter ρ κ) : Emitter ρ κ :=
  { s with
    isFaulted := true
    chunkQueue := []
    pendingComplete := none
    registered := false
    lost := true }

def scheduleFlush (s : Emitter ρ κ) : Emitter ρ κ :=
  if s.flushInFlight then s
  else { s with flushInFlight := true, drains := s.drains ++ [.scheduled] }

def releaseChunks (s : Emitter ρ κ) (windowSize : Int64) : Emitter ρ κ :=
  if windowSize ≤ 0 || s.isFaulted || s.completed then s
  else
    { s with
      sendCredit := s.sendCredit + windowSize
      granted := s.granted + windowSize.toInt.toNat
      overflowed :=
        s.overflowed || 2 ^ 63 ≤ s.sendCredit.toInt + windowSize.toInt }.scheduleFlush

/-- The end of `emitChunk`, once the stream is registered. -/
def enqueue (s : Emitter ρ κ) (chunk : RpcStreamChunk ρ) : Emitter ρ κ :=
  if s.maxQueueSize ≤ s.chunkQueue.length then s
  else
    { s with
      chunkQueue := s.chunkQueue ++ [chunk]
      accepted := s.accepted ++ [chunk]
      queuedPeak := max s.queuedPeak (s.chunkQueue.length + 1) }.scheduleFlush

/-- `emitChunk`, up to its `await`. -/
def emitChunk (s : Emitter ρ κ) (chunk : RpcStreamChunk ρ) (accepts : Bool) : Emitter ρ κ :=
  if s.isFaulted || s.completionRequested || s.completed then s
  else if s.registered then s.enqueue chunk
  else if accepts then
    { s with
      streamId := some chunk.streamId
      registered := true
      registrations := s.registrations + 1 }.enqueue chunk
  else { s with streamId := some chunk.streamId }

/-- `emitComplete`, up to its `await`. -/
def emitComplete (s : Emitter ρ κ) (complete : κ) : Emitter ρ κ :=
  if s.isFaulted || s.completionRequested || s.completed then s
  else { s with completionRequested := true, pendingComplete := some complete }.scheduleFlush

/-- `if (_streamId != null && _registered)` the stream is unregistered. -/
def unregister (s : Emitter ρ κ) : Emitter ρ κ :=
  if s.streamId.isSome && s.registered then
    { s with registered := false, unregistrations := s.unregistrations + 1 }
  else s

def handleFlushError (s : Emitter ρ κ) : Emitter ρ κ :=
  { s with isFaulted := true, chunkQueue := [], pendingComplete := none }.unregister

/-- `_maybeEmitComplete`, up to its `await`, with where the drain stands then. -/
def maybeEmitComplete (s : Emitter ρ κ) : Emitter ρ κ × Stage :=
  match s.pendingComplete with
  | none => (s, .closing)
  | some complete =>
    if !s.chunkQueue.isEmpty || s.isFaulted then (s, .closing)
    else
      ({ s with
        pendingComplete := none
        completed := true
        frames := s.frames ++ [.complete complete] }, .emittingComplete)

/-- The loop of `_flushBody`, up to the next `await`. -/
def flushLoop (s : Emitter ρ κ) : Emitter ρ κ × Stage :=
  match s.chunkQueue with
  | [] => s.maybeEmitComplete
  | chunk :: rest =>
    if !s.isFaulted && !s.completed && 0 < s.sendCredit then
      ({ s with
        chunkQueue := rest
        sendCredit := s.sendCredit - 1
        frames := s.frames ++ [.chunk chunk] }, .emittingChunk)
    else s.maybeEmitComplete

/-- A turn of a drain before its `finally`. -/
def runStage (s : Emitter ρ κ) (emitted : Bool) : Stage → Emitter ρ κ × Stage
  | .scheduled => if s.isFaulted then (s, .closing) else s.flushLoop
  | .emittingChunk =>
    if !emitted then ({ s with emitFailed := true }, .failing)
    else if s.isFaulted then (s, .closing)
    else s.flushLoop
  | .emittingComplete =>
    if !emitted then ({ s.unregister with emitFailed := true }, .failing)
    else (s.unregister, .closing)
  | .failing => (s.handleFlushError, .closing)
  | .closing => (s, .closing)

/-- There is something to flush. -/
def needsFlush (s : Emitter ρ κ) : Bool :=
  !s.isFaulted && !s.completed &&
    ((0 < s.sendCredit && !s.chunkQueue.isEmpty) ||
      (s.pendingComplete.isSome && s.chunkQueue.isEmpty))

/-- The `finally` of a drain. -/
def finishDrain (s : Emitter ρ κ) (i : Nat) : Emitter ρ κ :=
  let s := { s with flushInFlight := false, drains := s.drains.eraseIdx i }
  if s.needsFlush then s.scheduleFlush else s

def turn (s : Emitter ρ κ) (i : Nat) (emitted : Bool) : Option (Emitter ρ κ) :=
  match s.drains[i]? with
  | none => none
  | some .closing => some (s.finishDrain i)
  | some stage =>
    let (s', next) := s.runStage emitted stage
    some { s' with drains := s.drains.set i next }

end Emitter

def emitter (ρ κ : Type) : Machine (Emitter ρ κ) (Event ρ κ) where
  start s := ∃ maxQueueSize credit, credit < 2 ^ 63 ∧
    s = { maxQueueSize := maxQueueSize, sendCredit := .ofNat credit, granted := credit }
  step s
    | .emitChunk chunk accepts => some (s.emitChunk chunk accepts)
    | .emitComplete complete => some (s.emitComplete complete)
    | .releaseChunks windowSize => some (s.releaseChunks windowSize)
    | .onTransportLoss => some s.onTransportLoss
    | .turn i emitted => s.turn i emitted

end PlugAgente.Stream
