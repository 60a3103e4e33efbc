import PlugAgente.ActionIo.InputJournal

/-!
# The journal of output

`ActionIoOutputJournal`: the capture of the standard streams, the reading of pages, and the
end of an execution; and `ActionIoJournalRetention`, which erases what has expired.  Each
function but `append` is the body of one transaction of the database.  `append` reports a
failure when only a prefix of the block was stored.
-/

namespace PlugAgente.ActionIo

open PlugAgente.Dart

/-- `ActionIoEvent`, as a reader gets it. -/
inductive ActionIoEvent where
  | output (sequence : Int) (stream : ActionIoStream) (offset : Int) (bytes : List UInt8)
  | processExited (sequence : Int) (exitCode : Option Int)
  | completed (sequence : Int) (outputComplete : Bool) (failureCode : Option String)
  deriving DecidableEq, Repr

structure ActionIoReadPage where
  events : List ActionIoEvent
  nextSequence : Int
  terminal : Bool
  outputComplete : Bool
  deriving DecidableEq, Repr

/-- The arguments of `finish`. -/
structure Outcome where
  exitCode : Option Int
  complete : Bool
  processTerminated : Bool := true
  failureCode : Option String := none
  deriving DecidableEq, Repr

namespace ActionIoOutputJournal

variable (services : JournalServices)

def session (executionId : String) : Transaction ActionIoSession := do
  let db ← get
  match db.session? executionId with
  | some session => pure session
  | none => throw (outputFailure "ACTION_IO_UNAUTHORIZED")

/-- The capture of the streams goes on. -/
def isCapturing (session : ActionIoSession) : Bool :=
  session.captureState = .capturing || session.captureState = .draining

/-! ## Appending -/

def outputRow (executionId : String) (sequence : Int) (stream : ActionIoStream) (offset : Int)
    (payloadId : String) : ActionIoEventRow where
  executionId := executionId
  sequence := sequence
  eventType := .output
  stream := some stream
  byteOffset := some offset
  payloadId := some payloadId

/-- The bytes of a stream so far. -/
def streamBytes (session : ActionIoSession) : ActionIoStream → Int
  | .stdout => session.stdoutBytes
  | .stderr => session.stderrBytes

/-- The session after a block of a stream is stored. -/
def appended (session : ActionIoSession) (stream : ActionIoStream) (length : Int)
    (row : ActionIoSession) : ActionIoSession :=
  { row with
    nextEventSequence := session.nextEventSequence + 1
    stdoutBytes := session.stdoutBytes + if stream = .stdout then length else 0
    stderrBytes := session.stderrBytes + if stream = .stderr then length else 0 }

/-- What the byte limit of the execution leaves. -/
def remaining (session : ActionIoSession) : Int :=
  ActionIoLimits.executionBytes - session.admittedInputBytes - session.stdoutBytes -
    session.stderrBytes

/-- The part of a block that fits. -/
def fitting (session : ActionIoSession) (owned : List UInt8) : List UInt8 :=
  if remaining session < owned.length then owned.take (remaining session).toNat else owned

/-- The transaction of `append`, with a bound on the sequence of the event. -/
def appendPrefix (draw : Draw) (executionId : String) (stream : ActionIoStream)
    (owned : List UInt8) : Transaction ActionIoEvent := do
  let session ← session executionId
  Atomic.require (isCapturing session = true ∧ session.outputExpired = false)
    (outputFailure "ACTION_IO_CAPTURE_CLOSED")
  Atomic.require (¬ (remaining session ≤ 0 ∨ session.nextEventSequence >
    ActionIoLimits.executionEvents - ActionIoLimits.terminalEventReserve))
    (outputFailure "ACTION_OUTPUT_LIMIT_EXCEEDED")
  let bytes := fitting session owned
  Atomic.ofExcept draw.capacity
  ActionIoJournalDatabase.requireActionIoPayloadCapacity bytes.length
  let offset := streamBytes session stream
  let sequence := session.nextEventSequence
  let aad := ActionIoPayloadCipher.context executionId stream.name "" sequence offset
  let payload ← Atomic.ofExcept (services.cipher.encrypt draw.random bytes aad)
  ActionIoJournalDatabase.insertPayload
    (DriftActionIoJournal.payloadRow draw.payloadId executionId payload bytes.length)
    outputStorageFailed
  ActionIoJournalDatabase.insertEvent
    (outputRow executionId sequence stream offset draw.payloadId) outputStorageFailed
  modify fun db => db.updateSession executionId (appended session stream bytes.length)
  pure (.output sequence stream offset bytes)

/-- The check of a block. -/
def isInvalidBlock (bytes : List Int) : Bool :=
  bytes.isEmpty || (bytes.length : Int) > ActionIoLimits.blockBytes ||
    bytes.any fun byte => byte < 0 || byte > 255

/-- The number of bytes of an event. -/
def eventBytes : ActionIoEvent → Nat
  | .output _ _ _ bytes => bytes.length
  | _ => 0

def append (draw : Draw) (executionId : String) (stream : ActionIoStream) (bytes : List Int)
    (db : ActionIoJournalDatabase) : Except ActionFailure ActionIoEvent × ActionIoJournalDatabase :=
  if isInvalidBlock bytes then (.error (outputFailure "ACTION_IO_INVALID_INPUT"), db)
  else
    let owned := uint8List bytes
    match Atomic.commit (appendPrefix services draw executionId stream owned) db with
    | (.ok event, db') =>
      if eventBytes event < owned.length then
        (.error (outputFailure "ACTION_OUTPUT_LIMIT_EXCEEDED"), db')
      else (.ok event, db')
    | (.error failure, db') => (.error failure, db')

/-! ## Reading -/

/-- The size that an event of output has in the JSON of a page. -/
def eventSize (sequence : Int) (stream : ActionIoStream) (offset plaintextBytes : Int) : Int :=
  (jsonObject [("sequence", toString sequence), ("type", jsonString "output"),
    ("stream", jsonString stream.name), ("offset", toString offset),
    ("data_base64", jsonString "")]).length + 4 * ((plaintextBytes + 2) / 3) + 1

/-- The loop of `read` over the rows, with what it has collected. -/
def readRows (db : ActionIoJournalDatabase) (executionId : String) (maxBytes : Int) :
    List ActionIoEventRow → List ActionIoEvent → Int → Int → Int →
      Except ActionFailure (List ActionIoEvent × Int)
  | [], events, _, _, cursor => .ok (events, cursor)
  | row :: rows, events, size, jsonSize, cursor =>
    let integrityFailed := outputFailure "ACTION_IO_INTEGRITY_FAILED"
    if row.sequence ≠ cursor + 1 then .error integrityFailed
    else
      match row.eventType with
      | .processExited =>
        readRows db executionId maxBytes rows
          (events ++ [.processExited row.sequence row.exitCode]) size (jsonSize + 1024) row.sequence
      | .completed =>
        match row.outputComplete with
        | none => .error integrityFailed
        | some outputComplete =>
          readRows db executionId maxBytes rows
            (events ++ [.completed row.sequence outputComplete row.failureCode]) size
            (jsonSize + 1024) row.sequence
      | .output =>
        match row.stream, row.byteOffset with
        | some stream, some offset =>
          match db.payload? row.payloadId with
          | none => .error integrityFailed
          | some payload =>
            if payload.plaintextBytes > ActionIoLimits.blockBytes ∨ payload.plaintextBytes < 1 then
              .error integrityFailed
            else if size + payload.plaintextBytes > maxBytes then .ok (events, cursor)
            else if jsonSize + eventSize row.sequence stream offset payload.plaintextBytes >
                ActionIoLimits.jsonBytes then
              .ok (events, cursor)
            else
              let aad := ActionIoPayloadCipher.context executionId stream.name "" row.sequence offset
              match services.cipher.decrypt payload.encrypted aad with
              | .error failure => .error failure
              | .ok bytes =>
                if (bytes.length : Int) ≠ payload.plaintextBytes then .error integrityFailed
                else
                  readRows db executionId maxBytes rows
                    (events ++ [.output row.sequence stream offset bytes]) (size + bytes.length)
                    (jsonSize + eventSize row.sequence stream offset payload.plaintextBytes)
                    row.sequence
        | _, _ => .error integrityFailed

/-- The rows after a cursor, at most as many as a page holds. -/
def rowsAfter (db : ActionIoJournalDatabase) (executionId : String) (afterSequence : Int) :
    List ActionIoEventRow :=
  ((db.events.filter fun e => e.executionId = executionId && e.sequence > afterSequence).mergeSort
    fun a b => a.sequence ≤ b.sequence).take ActionIoLimits.pageEvents

/-- The output may not be read any more. -/
def isExpired (session : ActionIoSession) (now : Int) : Bool :=
  session.outputExpired ||
    (session.processState = .finished && session.terminalAt.isSome &&
      session.outputExpiresAt.any fun deadline => !(now < deadline))

def read (executionId clientId : String) (afterSequence maxBytes now : Int) :
    Transaction ActionIoReadPage := do
  Atomic.require (¬ (afterSequence < 0 ∨ maxBytes < ActionIoLimits.blockBytes ∨
    maxBytes > ActionIoLimits.pageBytes)) (outputFailure "ACTION_IO_CURSOR_INVALID")
  let session ← session executionId
  Atomic.require (session.key.clientId = clientId) (outputFailure "ACTION_IO_UNAUTHORIZED")
  Atomic.require (isExpired session now = false) (outputFailure "OUTPUT_EXPIRED")
  Atomic.require (¬ afterSequence ≥ session.nextEventSequence)
    (outputFailure "ACTION_IO_CURSOR_INVALID")
  let db ← get
  let rows := rowsAfter db executionId afterSequence
  -- Room is kept for the envelope and the terminal metadata.
  let page ← Atomic.ofExcept (readRows services db executionId maxBytes rows [] 0 4096 afterSequence)
  Atomic.require (¬ (rows ≠ [] ∧ page.1 = [])) (outputFailure "ACTION_IO_PAGE_UNTRANSPORTABLE")
  pure
    { events := page.1
      nextSequence := page.2
      terminal := session.terminalAt.isSome
      outputComplete := session.captureState = .complete }

/-! ## The end of an execution -/

/-- The session after its end. -/
def finished (session : ActionIoSession) (outcome : Outcome) (sequence now : Int)
    (row : ActionIoSession) : ActionIoSession :=
  { row with
    nextEventSequence := sequence
    processState := if outcome.processTerminated then .finished else .unknown
    captureState := if outcome.complete then .complete else .incomplete
    stdinState := if session.stdinState = .closed then .closed else .failed
    queuedInputBytes := 0
    queuedInputMessages := 0
    exitCode := outcome.exitCode
    failureCode := outcome.failureCode
    terminalAt := if outcome.processTerminated then some (inWholeSeconds now) else none
    outputExpiresAt :=
      if outcome.processTerminated then
        some (inWholeSeconds (now + ActionIoLimits.outputRetention))
      else none
    dedupeExpiresAt :=
      if outcome.processTerminated then
        some (inWholeSeconds (now + ActionIoLimits.deduplicationRetention))
      else none }

/-- The row of the exit of the process. -/
def exitedRow (executionId : String) (sequence : Int) (exitCode : Option Int) :
    ActionIoEventRow where
  executionId := executionId
  sequence := sequence
  eventType := .processExited
  exitCode := exitCode

def completedRow (executionId : String) (sequence : Int) (outcome : Outcome) :
    ActionIoEventRow where
  executionId := executionId
  sequence := sequence
  eventType := .completed
  outputComplete := some outcome.complete
  failureCode := outcome.failureCode

/-- The event of the exit, if the process is known to have ended, and the next sequence. -/
def insertExited (executionId : String) (sequence : Int) (outcome : Outcome) :
    Transaction Int :=
  if outcome.processTerminated then do
    ActionIoJournalDatabase.insertEvent (exitedRow executionId sequence outcome.exitCode)
      outputStorageFailed
    pure (sequence + 1)
  else pure sequence

def finish (executionId : String) (outcome : Outcome) (now : Int) : Transaction Unit := do
  let session ← session executionId
  Atomic.require (isCapturing session = true) (outputFailure "ACTION_IO_CAPTURE_CLOSED")
  Atomic.require (¬ ((outcome.complete = false ∧ outcome.failureCode.getD "" = "") ∨
    (outcome.complete = true ∧ outcome.processTerminated = false)))
    (outputFailure "ACTION_IO_INVALID_INPUT")
  modify fun db => DriftActionIoJournal.abandonMessages db executionId "ACTION_STDIN_CLOSED"
  let sequence ← insertExited executionId session.nextEventSequence outcome
  ActionIoJournalDatabase.insertEvent (completedRow executionId sequence outcome)
    outputStorageFailed
  modify fun db => db.updateSession executionId (finished session outcome (sequence + 1) now)

def cancelQueued (executionId clientId : String) (now : Int) : Transaction Bool := do
  let session ← session executionId
  Atomic.require (session.key.clientId = clientId) (outputFailure "ACTION_IO_UNAUTHORIZED")
  if session.processState ≠ .queued then pure false
  else do
    finish executionId
      { exitCode := none, complete := true, failureCode := some "ACTION_CANCELLED" } now
    pure true

end ActionIoOutputJournal

namespace ActionIoJournalRetention

/-- The row of a payload whose content is removed: its key and nonce stay reserved. -/
def erased (row : ActionIoPayload) : ActionIoPayload :=
  { row with
    ciphertext := []
    authenticationTag := []
    plaintextBytes := 0 }

/-- `_erase`, of all payloads that the rows refer to. -/
def erase (db : ActionIoJournalDatabase) (payloadIds : List (Option String)) :
    ActionIoJournalDatabase :=
  { db with
    payloads := Rows.write (fun p => payloadIds.contains (some p.payloadId)) erased db.payloads }

/-- The output of a session is erased once its deadline has passed. -/
def expireOutput (now : Int) (db : ActionIoJournalDatabase) (session : ActionIoSession) :
    ActionIoJournalDatabase :=
  if session.outputExpired = false ∧ session.outputExpiresAt.any (fun d => !(now < d)) = true then
    (erase db (((db.eventsOf session.executionId).filter (·.eventType = .output)).map
      (·.payloadId))).updateSession session.executionId fun row => { row with outputExpired := true }
  else db

def expireInput (now : Int) (db : ActionIoJournalDatabase) (session : ActionIoSession) :
    ActionIoJournalDatabase :=
  if session.dedupeExpiresAt.any (fun d => !(now < d)) = true then
    erase db ((db.messagesOf session.executionId).map (·.payloadId))
  else db

def expireSession (now : Int) (db : ActionIoJournalDatabase) (session : ActionIoSession) :
    ActionIoJournalDatabase :=
  expireInput now (expireOutput now db session) session

def expire (now : Int) (db : ActionIoJournalDatabase) : ActionIoJournalDatabase :=
  (db.sessions.filter fun s => s.processState = .finished && s.terminalAt.isSome).foldl
    (expireSession now) db

end ActionIoJournalRetention

end PlugAgente.ActionIo
