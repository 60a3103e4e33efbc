import PlugAgente.ActionIo.Database

/-!
# The journal of sessions and their input

`DriftActionIoJournal`: claims of sessions, the admission of input messages, their delivery
to the writer, and the reconciliation after a crash.  Each function is the body of one
transaction of the database.

What a call gets from outside is its `Draw`: the answer of the disk, the id of a payload and
the randomness of the cipher.  `JournalServices` are the digest and the cipher.
-/

namespace PlugAgente.ActionIo

open PlugAgente.Dart

/-- What a call draws from outside. -/
structure Draw where
  /-- `_physicalCapacity`. -/
  capacity : Except ActionFailure Unit := .ok ()
  /-- `Uuid().v4()`. -/
  payloadId : String
  random : List UInt8 := []

/-- What a claim draws: for itself and for its two messages. -/
structure ClaimDraws where
  session : Draw
  initial : Draw
  close : Draw

structure JournalServices where
  /-- `sha256.convert(…).toString()`. -/
  sha256 : List UInt8 → String
  cipher : ActionIoPayloadCipher

/-- Services for runs: the digest of a text is the text. -/
def plainServices : JournalServices where
  sha256 bytes := String.ofList (bytes.map fun byte => Char.ofNat byte.toNat)
  cipher := ⟨"key", AesGcm.plain⟩

structure ActionIoConfiguration where
  closeInput : Bool
  initialInput : Option (List UInt8) := none
  deriving DecidableEq, Repr

structure ActionIoSessionIntent where
  executionId : String
  key : SessionKey
  fingerprint : String
  deriving DecidableEq, Repr

structure ActionIoSessionClaim where
  executionId : String
  created : Bool
  initialMessageId : Option String
  closeMessageId : Option String
  deriving DecidableEq, Repr

structure ActionIoMessageReceipt where
  executionId : String
  messageId : String
  sequence : Int
  state : ActionIoDeliveryState
  confirmedBytes : Option Int
  nextInputSequence : Int
  stdinState : ActionIoStdinState
  deriving DecidableEq, Repr

structure ActionIoPendingInput where
  receipt : ActionIoMessageReceipt
  close : Bool
  bytes : List UInt8
  deriving DecidableEq, Repr

/-- The arguments of `admitInput`. -/
structure InputRequest where
  executionId : String
  clientId : String
  messageId : String
  sequence : Int
  bytes : List Int
  close : Bool := false
  internalMessage : Bool := false
  deriving DecidableEq, Repr

namespace InputRequest

def ownedBytes (r : InputRequest) : List UInt8 :=
  uint8List r.bytes

/-- The check of the arguments. -/
def isInvalid (r : InputRequest) : Bool :=
  r.messageId = "" || r.sequence < 0 || r.sequence > 9007199254740991 ||
    (r.ownedBytes.length : Int) > ActionIoLimits.blockBytes ||
    (r.close && !r.ownedBytes.isEmpty) ||
    (!r.internalMessage && ActionIoLimits.reservedMessagePrefix.toList.isPrefixOf r.messageId.toList)

end InputRequest

namespace DriftActionIoJournal

variable (services : JournalServices)

def session (executionId : String) : Transaction ActionIoSession := do
  let db ← get
  match db.session? executionId with
  | some session => pure session
  | none => throw (refusal "ACTION_IO_UNAUTHORIZED")

def receipt (message : ActionIoMessage) (session : ActionIoSession) : ActionIoMessageReceipt where
  executionId := message.executionId
  messageId := message.messageId
  sequence := message.sequence
  state := message.deliveryState
  confirmedBytes := message.confirmedBytes
  nextInputSequence := session.nextInputSequence
  stdinState := session.stdinState

/-! ## Admission -/

def messageFingerprint (sequence : Int) (close : Bool) (ownedBytes : List UInt8) : String :=
  services.sha256 (utf8Encode (jsonArray [toString sequence, jsonBool close,
    jsonString (base64Encode ownedBytes)]))

/-- The session of an execution, if it is the client's. -/
def ownSession (executionId clientId : String) : Transaction ActionIoSession := do
  let db ← get
  match db.ownSession? executionId clientId with
  | some session => pure session
  | none => throw (refusal "ACTION_IO_UNAUTHORIZED")

/-- The checks on a message that is not known yet. -/
def admissible (session : ActionIoSession) (sequence : Int) (length : Int) : Transaction Unit := do
  Atomic.require ((session.stdinState = .pending ∨ session.stdinState = .open) ∧
    session.terminalAt = none) (refusal "ACTION_STDIN_CLOSED")
  Atomic.require (sequence = session.nextInputSequence) (refusal "ACTION_INPUT_SEQUENCE_INVALID")
  Atomic.require (¬ (session.queuedInputMessages ≥ ActionIoLimits.queuedMessages ∨
    session.queuedInputBytes + length > ActionIoLimits.queuedBytes))
    (refusal "ACTION_INPUT_QUEUE_FULL")
  Atomic.require (¬ (session.nextInputSequence ≥ ActionIoLimits.executionMessages ∨
    session.admittedInputBytes + session.stdoutBytes + session.stderrBytes + length >
      ActionIoLimits.executionBytes)) (refusal "ACTION_IO_INVALID_INPUT")

/-- The row of a message that is admitted. -/
def admittedMessage (r : InputRequest) (fingerprint payloadId : String) : ActionIoMessage where
  executionId := r.executionId
  messageId := r.messageId
  sequence := r.sequence
  fingerprint := fingerprint
  closesInput := r.close
  deliveryState := .accepted
  confirmedBytes := some 0
  inputBytes := r.ownedBytes.length
  payloadId := some payloadId

def payloadRow (payloadId executionId : String) (payload : ActionIoEncryptedPayload)
    (plaintextBytes : Int) : ActionIoPayload where
  payloadId := payloadId
  executionId := executionId
  keyId := payload.keyId
  nonce := payload.nonce
  ciphertext := payload.ciphertext
  authenticationTag := payload.tag
  authenticatedContext := payload.context
  plaintextBytes := plaintextBytes

/-- The session after a message is admitted. -/
def admitted (session : ActionIoSession) (sequence length : Int) (close : Bool)
    (row : ActionIoSession) : ActionIoSession :=
  { row with
    nextInputSequence := sequence + 1
    stdinState := if close then .closing else session.stdinState
    admittedInputBytes := session.admittedInputBytes + length
    queuedInputBytes := session.queuedInputBytes + length
    queuedInputMessages := session.queuedInputMessages + 1 }

/-- `_admitInput`, for a message that is not known yet. -/
def admitNew (draw : Draw) (r : InputRequest) (session : ActionIoSession)
    (fingerprint : String) : Transaction ActionIoMessageReceipt := do
  let length : Int := r.ownedBytes.length
  admissible session r.sequence length
  Atomic.ofExcept draw.capacity
  ActionIoJournalDatabase.requireActionIoPayloadCapacity length
  let context := ActionIoPayloadCipher.context r.executionId "stdin" r.messageId r.sequence 0
  let payload ← Atomic.ofExcept (services.cipher.encrypt draw.random r.ownedBytes context)
  ActionIoJournalDatabase.insertPayload
    (payloadRow draw.payloadId r.executionId payload length) inputStorageFailed
  ActionIoJournalDatabase.insertMessage
    (admittedMessage r fingerprint draw.payloadId) inputStorageFailed
  modify fun db => db.updateSession r.executionId (admitted session r.sequence length r.close)
  pure
    { executionId := r.executionId
      messageId := r.messageId
      sequence := r.sequence
      state := .accepted
      confirmedBytes := some 0
      nextInputSequence := r.sequence + 1
      stdinState := if r.close then .closing else session.stdinState }

def admitInput (draw : Draw) (r : InputRequest) : Transaction ActionIoMessageReceipt := do
  Atomic.require (r.isInvalid = false) (refusal "ACTION_IO_INVALID_INPUT")
  let session ← ownSession r.executionId r.clientId
  let fingerprint := messageFingerprint services r.sequence r.close r.ownedBytes
  let db ← get
  match db.message? r.executionId r.messageId with
  | some previous => do
    Atomic.require (previous.fingerprint = fingerprint) (refusal "ACTION_INPUT_CONFLICT")
    pure (receipt previous session)
  | none => admitNew services draw r session fingerprint

def inputStatus (executionId clientId messageId : String) :
    Transaction ActionIoMessageReceipt := do
  let session ← session executionId
  Atomic.require (session.key.clientId = clientId) (refusal "ACTION_IO_UNAUTHORIZED")
  let db ← get
  match db.message? executionId messageId with
  | some message => pure (receipt message session)
  | none => throw (refusal "ACTION_IO_MESSAGE_NOT_FOUND")

/-! ## Claims -/

def intentFingerprint (intent : ActionIoSessionIntent) :
    Option ActionIoConfiguration → Except ActionFailure String
  | none => .ok intent.fingerprint
  | some io =>
    if ((io.initialInput.getD []).length : Int) > ActionIoLimits.blockBytes then
      .error (refusal "ACTION_IO_INVALID_INPUT")
    else
      .ok (services.sha256 (utf8Encode (jsonArray [jsonString "action-io-intent-v1",
        jsonString intent.fingerprint, jsonBool io.closeInput,
        match io.initialInput with
        | none => "null"
        | some initial => jsonString (base64Encode initial)])))

/-- The answer to a claim. -/
def claimResult (io : Option ActionIoConfiguration) (executionId : String) (created : Bool) :
    ActionIoSessionClaim where
  executionId := executionId
  created := created
  initialMessageId := (io.bind (·.initialInput)).map fun _ => ActionIoLimits.initialMessageId
  closeMessageId :=
    if (io.map (·.closeInput)).getD false then some ActionIoLimits.closeMessageId else none

/-- The row of a session that is claimed. -/
def claimedSession (intent : ActionIoSessionIntent) (fingerprint : String) : ActionIoSession where
  executionId := intent.executionId
  key := intent.key
  fingerprint := fingerprint
  processState := .queued
  stdinState := .pending
  captureState := .capturing

/-- The initial bytes are the first message. -/
def admitInitial (draw : Draw) (intent : ActionIoSessionIntent) :
    Option (List UInt8) → Transaction Unit
  | none => pure ()
  | some initial => do
    let _ ← admitInput services draw
      { executionId := intent.executionId
        clientId := intent.key.clientId
        messageId := ActionIoLimits.initialMessageId
        sequence := 0
        bytes := initial.map fun byte => (byte.toNat : Int)
        internalMessage := true }
    pure ()

/-- The automatic close is the next message. -/
def admitClose (draw : Draw) (intent : ActionIoSessionIntent) (sequence : Int) :
    Bool → Transaction Unit
  | false => pure ()
  | true => do
    let _ ← admitInput services draw
      { executionId := intent.executionId
        clientId := intent.key.clientId
        messageId := ActionIoLimits.closeMessageId
        sequence := sequence
        bytes := []
        close := true
        internalMessage := true }
    pure ()

def claim (draws : ClaimDraws) (intent : ActionIoSessionIntent)
    (io : Option ActionIoConfiguration) : Transaction ActionIoSessionClaim := do
  let initial := io.bind (·.initialInput)
  Atomic.require (((initial.getD []).length : Int) ≤ ActionIoLimits.blockBytes)
    (refusal "ACTION_IO_INVALID_INPUT")
  let fingerprint ← Atomic.ofExcept (intentFingerprint services intent io)
  let db ← get
  match db.claimed? intent.key with
  | some existing => do
    Atomic.require (existing.fingerprint = fingerprint) (refusal "ACTION_INPUT_CONFLICT")
    pure (claimResult io existing.executionId false)
  | none => do
    Atomic.ofExcept draws.session.capacity
    ActionIoJournalDatabase.insertSession (claimedSession intent fingerprint) inputStorageFailed
    admitInitial services draws.initial intent initial
    admitClose services draws.close intent (if initial.isSome then 1 else 0)
      ((io.map (·.closeInput)).getD false)
    pure (claimResult io intent.executionId true)

/-! ## The process -/

/-- The states that count against the limit of executions. -/
def isReserved (session : ActionIoSession) : Bool :=
  session.processState = .starting || session.processState = .running ||
    session.processState = .stopping || session.processState = .unknown

/-- A slot is free under the configured limit. -/
def reserveSlot (configured : Int) : Transaction Unit := do
  Atomic.require (¬ configured < 1) (refusal "ACTION_IO_CONCURRENCY_LIMIT")
  let limit := if configured < ActionIoLimits.concurrentExecutions then configured
    else ActionIoLimits.concurrentExecutions
  let db ← get
  let reserved := (db.sessions.filter isReserved).take limit.toNat
  Atomic.require (¬ (reserved.length : Int) ≥ limit) (refusal "ACTION_IO_CONCURRENCY_LIMIT")

/-- A session that is to start needs a slot. -/
def reserveFor (configured : Int) (after : ProcessState) : Transaction Unit :=
  if after = .starting then reserveSlot configured else pure ()

def transitionProcess (configured : Int) (executionId : String) (before after : ProcessState) :
    Transaction Unit := do
  let session ← session executionId
  Atomic.require (session.processState = before) (refusal "ACTION_OUTCOME_UNKNOWN")
  reserveFor configured after
  modify fun db => db.updateSession executionId fun row =>
    { row with
      processState := after
      stdinState :=
        if after = .running ∧ session.stdinState = .pending then .open else session.stdinState }

def markStarting (configured : Int) (executionId : String) : Transaction Unit :=
  transitionProcess configured executionId .queued .starting

def markRunning (configured : Int) (executionId : String) : Transaction Unit :=
  transitionProcess configured executionId .starting .running

/-! ## Delivery -/

/-- The messages that are not delivered, in the order of their sequences. -/
def pending (db : ActionIoJournalDatabase) (executionId : String) : List ActionIoMessage :=
  (db.messages.filter fun m => m.executionId = executionId &&
    (m.deliveryState = .accepted || m.deliveryState = .writing)).mergeSort
      fun a b => a.sequence ≤ b.sequence

def asWriting (row : ActionIoMessage) : ActionIoMessage :=
  { row with deliveryState := .writing }

/-- `beginNextInput`, for the message that is next. -/
def beginInput (executionId : String) (session : ActionIoSession) (next : ActionIoMessage) :
    Transaction (Option ActionIoPendingInput) := do
  let db ← get
  match db.payload? next.payloadId with
  | none => throw (refusal "ACTION_IO_INTEGRITY_FAILED")
  | some payload => do
    let expected := ActionIoPayloadCipher.context executionId "stdin" next.messageId next.sequence 0
    let decoded ← Atomic.ofExcept (services.cipher.decrypt payload.encrypted expected)
    Atomic.require ((decoded.length : Int) = next.inputBytes) (refusal "ACTION_IO_INTEGRITY_FAILED")
    modify fun db => db.updateMessage executionId next.messageId asWriting
    pure (some
      { receipt := receipt (asWriting next) session
        close := next.closesInput
        bytes := decoded })

def beginNextInput (executionId : String) : Transaction (Option ActionIoPendingInput) := do
  let session ← session executionId
  let db ← get
  if session.processState ≠ .running ∨
      ¬ (session.stdinState = .open ∨ session.stdinState = .closing) then
    pure none
  else
    match (pending db executionId).head? with
    | none => pure none
    | some next =>
      if next.deliveryState = .writing then pure none
      else beginInput services executionId session next

/-- The state of the input after a delivery. -/
def deliveredStdin (session : ActionIoSession) (message : ActionIoMessage)
    (state : ActionIoDeliveryState) : ActionIoStdinState :=
  if state ≠ .written then .failed
  else if message.closesInput then .closed
  else session.stdinState

/-- A message whose delivery has ended. -/
def withOutcome (state : ActionIoDeliveryState) (confirmedBytes : Option Int)
    (failureCode : Option String) (row : ActionIoMessage) : ActionIoMessage :=
  { row with
    deliveryState := state
    confirmedBytes := confirmedBytes
    failureCode := failureCode }

/-- `finishInput`, for a message that is being written. -/
def finishWriting (executionId messageId : String) (session : ActionIoSession)
    (message : ActionIoMessage) (state : ActionIoDeliveryState) (confirmedBytes : Option Int)
    (failureCode : Option String) : Transaction ActionIoMessageReceipt := do
  let stdinState := deliveredStdin session message state
  modify fun db => db.updateMessage executionId messageId
    (withOutcome state confirmedBytes failureCode)
  modify fun db => db.updateSession executionId fun row =>
    { row with
      stdinState := stdinState
      queuedInputBytes := session.queuedInputBytes - message.inputBytes
      queuedInputMessages := session.queuedInputMessages - 1 }
  pure (receipt { message with deliveryState := state, confirmedBytes := confirmedBytes }
    { session with stdinState := stdinState })

/-- The check of the arguments of `finishInput`. -/
def isInvalidOutcome (message : ActionIoMessage) (state : ActionIoDeliveryState)
    (confirmedBytes : Option Int) : Bool :=
  !(state = .written || state = .failed || state = .unknown) ||
    (confirmedBytes.any fun bytes => bytes < 0 || bytes > message.inputBytes) ||
    (state = .written && confirmedBytes ≠ some message.inputBytes)

def finishInput (executionId messageId : String) (state : ActionIoDeliveryState)
    (confirmedBytes : Option Int) (failureCode : Option String) :
    Transaction ActionIoMessageReceipt := do
  let session ← session executionId
  let db ← get
  match db.message? executionId messageId with
  | none => throw (refusal "ACTION_IO_MESSAGE_NOT_FOUND")
  | some message => do
    Atomic.require (isInvalidOutcome message state confirmedBytes = false)
      (refusal "ACTION_IO_INVALID_INPUT")
    if message.deliveryState ≠ .writing then do
      -- The same outcome may be reported again.
      Atomic.require (message.deliveryState = state ∧ message.confirmedBytes = confirmedBytes ∧
        message.failureCode = failureCode) (refusal "ACTION_INPUT_CONFLICT")
      pure (receipt message session)
    else finishWriting executionId messageId session message state confirmedBytes failureCode

/-! ## After a crash -/

/-- The states in which a session has not ended. -/
def isActive (session : ActionIoSession) : Bool :=
  session.processState = .queued || session.processState = .starting ||
    session.processState = .running || session.processState = .stopping

/-- The messages that are left: what became of one that is being written is unknown, and one
that is accepted has failed. -/
def abandonMessages (db : ActionIoJournalDatabase) (executionId failureCode : String) :
    ActionIoJournalDatabase :=
  (db.updateMessagesIn executionId .writing
    (withOutcome .unknown none (some "ACTION_OUTCOME_UNKNOWN"))).updateMessagesIn
      executionId .accepted (withOutcome .failed (some 0) (some failureCode))

def interruptedSession (row : ActionIoSession) : ActionIoSession :=
  { row with
    processState := .unknown
    stdinState := .failed
    captureState := .incomplete
    queuedInputMessages := 0
    queuedInputBytes := 0
    failureCode := some "ACTION_OUTCOME_UNKNOWN" }

/-- The rows of an interrupted session. -/
def interrupt (db : ActionIoJournalDatabase) (session : ActionIoSession) :
    ActionIoJournalDatabase :=
  (abandonMessages db session.executionId "ACTION_IO_INTERRUPTED").updateSession
    session.executionId interruptedSession

def reconcileInterrupted : Transaction Nat := do
  let db ← get
  let active := db.sessions.filter isActive
  modify fun db => active.foldl interrupt db
  pure active.length

end DriftActionIoJournal

end PlugAgente.ActionIo
