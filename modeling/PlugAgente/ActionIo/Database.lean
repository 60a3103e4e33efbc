import PlugAgente.Dart.JsonText
import PlugAgente.Machine.Atomic

/-!
# The database of the I/O journal

`ActionIoJournalDatabase`: the tables of sessions, messages, events and payloads, each as
the list of its rows, and the inserts with their primary and unique keys.  A row that
breaks a key makes SQLite throw, which `_guard` turns into a failure, so that an insert is
given that failure.

The columns that only the listings of executions read (the trigger, the hash of the
definition, the times of creation) are left out.  The texts of the columns of states are
enumerations: no other text is ever written to them.  Times are microseconds, and those in the
tables are whole seconds, as drift stores them.
-/

namespace PlugAgente.ActionIo

open PlugAgente.Dart

/-! ## Limits -/

namespace ActionIoLimits

def blockBytes : Int := 64 * 1024
def pageBytes : Int := 256 * 1024
def pageEvents : Nat := 256
def jsonBytes : Int := 512 * 1024
def executionBytes : Int := 64 * 1024 * 1024
def queuedMessages : Int := 16
def queuedBytes : Int := 1024 * 1024
def executionMessages : Int := 8192
def executionEvents : Int := 65536
def terminalEventReserve : Int := 2
def payloadBytes : Int := 1024 * 1024 * 1024
def concurrentExecutions : Int := 4
def outputRetention : Int := 24 * 3600 * 1000000
def deduplicationRetention : Int := 3 * 24 * 3600 * 1000000
def initialMessageId : String := "system:initial"
def closeMessageId : String := "system:close"
def reservedMessagePrefix : String := "system:"

end ActionIoLimits

/-- A time as its column holds it. -/
def inWholeSeconds (time : Int) : Int :=
  (time.tdiv 1000).tdiv 1000 * 1000000

theorem inWholeSeconds_mono {a b : Int} (h : a ≤ b) : inWholeSeconds a ≤ inWholeSeconds b :=
  Int.mul_le_mul_of_nonneg_right
    (Int.tdiv_le_tdiv (by omega) (Int.tdiv_le_tdiv (by omega) h)) (by omega)

/-! ## Failures -/

/-- `ActionFailure`, with what the journal puts in its context. -/
structure ActionFailure where
  message : String
  code : String
  phase : Option String := none
  effectsPossible : Option Bool := none
  retryable : Bool := false
  deriving DecidableEq, Repr

/-- `DriftActionIoJournal._refusal`. -/
def refusal (code : String) : ActionFailure where
  message := "The I/O request cannot be admitted."
  code := code
  phase := some "admission"
  effectsPossible := some false

/-- `ActionIoOutputJournal._failure`. -/
def outputFailure (code : String) : ActionFailure where
  message := "The I/O output cannot be stored or delivered."
  code := code

/-- `ActionIoPayloadCipher._failure`. -/
def cipherFailure (code : String) : ActionFailure where
  message := "The encrypted I/O payload is unavailable or invalid."
  code := code

/-- What `DriftActionIoJournal._guard` makes of an exception of the database. -/
def inputStorageFailed : ActionFailure where
  message := "The I/O journal could not persist the operation."
  code := "ACTION_IO_STORAGE_FAILED"

/-- What `ActionIoOutputJournal._guard` makes of an exception of the database. -/
def outputStorageFailed : ActionFailure where
  message := "The I/O journal is unavailable."
  code := "ACTION_IO_STORAGE_FAILED"

/-! ## Rows -/

inductive ProcessState where
  | queued
  | starting
  | running
  | stopping
  | unknown
  | finished
  deriving DecidableEq, Repr

inductive ActionIoStdinState where
  | pending
  | «open»
  | closing
  | closed
  | failed
  deriving DecidableEq, Repr

inductive ActionIoCaptureState where
  | capturing
  | draining
  | complete
  | incomplete
  | expired
  deriving DecidableEq, Repr

inductive ActionIoDeliveryState where
  | accepted
  | writing
  | written
  | failed
  | unknown
  deriving DecidableEq, Repr

inductive ActionIoStream where
  | stdout
  | stderr
  deriving DecidableEq, Repr

def ActionIoStream.name : ActionIoStream → String
  | .stdout => "stdout"
  | .stderr => "stderr"

inductive EventType where
  | output
  | processExited
  | completed
  deriving DecidableEq, Repr

/-- The columns of the unique key of a session. -/
structure SessionKey where
  installationId : String
  agentId : String
  clientId : String
  actionId : String
  idempotencyKey : String
  deriving DecidableEq, Repr

/-- `ActionIoSessions`. -/
structure ActionIoSession where
  executionId : String
  key : SessionKey
  fingerprint : String
  processState : ProcessState
  stdinState : ActionIoStdinState
  captureState : ActionIoCaptureState
  nextInputSequence : Int := 0
  nextEventSequence : Int := 1
  admittedInputBytes : Int := 0
  stdoutBytes : Int := 0
  stderrBytes : Int := 0
  queuedInputBytes : Int := 0
  queuedInputMessages : Int := 0
  exitCode : Option Int := none
  failureCode : Option String := none
  terminalAt : Option Int := none
  outputExpiresAt : Option Int := none
  dedupeExpiresAt : Option Int := none
  outputExpired : Bool := false
  deriving DecidableEq, Repr

/-- `ActionIoPayloads`. -/
structure ActionIoPayload where
  payloadId : String
  executionId : String
  keyId : String
  nonce : List UInt8
  ciphertext : List UInt8
  authenticationTag : List UInt8
  authenticatedContext : List UInt8
  plaintextBytes : Int
  deriving DecidableEq, Repr

/-- `ActionIoMessages`. -/
structure ActionIoMessage where
  executionId : String
  messageId : String
  sequence : Int
  fingerprint : String
  closesInput : Bool
  deliveryState : ActionIoDeliveryState
  confirmedBytes : Option Int
  inputBytes : Int
  payloadId : Option String
  failureCode : Option String := none
  deriving DecidableEq, Repr

/-- `ActionIoEvents`. -/
structure ActionIoEventRow where
  executionId : String
  sequence : Int
  eventType : EventType
  stream : Option ActionIoStream := none
  byteOffset : Option Int := none
  payloadId : Option String := none
  exitCode : Option Int := none
  outputComplete : Option Bool := none
  failureCode : Option String := none
  deriving DecidableEq, Repr

structure ActionIoJournalDatabase where
  sessions : List ActionIoSession := []
  payloads : List ActionIoPayload := []
  messages : List ActionIoMessage := []
  events : List ActionIoEventRow := []
  deriving DecidableEq

abbrev Transaction (α : Type) := Atomic ActionIoJournalDatabase ActionFailure α

namespace ActionIoJournalDatabase

/-! ## Queries -/

def session? (db : ActionIoJournalDatabase) (executionId : String) : Option ActionIoSession :=
  db.sessions.find? fun s => s.executionId = executionId

/-- The session of an execution that belongs to a client. -/
def ownSession? (db : ActionIoJournalDatabase) (executionId clientId : String) :
    Option ActionIoSession :=
  db.sessions.find? fun s => s.executionId = executionId && s.key.clientId = clientId

def claimed? (db : ActionIoJournalDatabase) (key : SessionKey) : Option ActionIoSession :=
  db.sessions.find? fun s => s.key = key

def message? (db : ActionIoJournalDatabase) (executionId messageId : String) :
    Option ActionIoMessage :=
  db.messages.find? fun m => m.executionId = executionId && m.messageId = messageId

/-- The payload with an id.  A column without one is compared as the empty text. -/
def payload? (db : ActionIoJournalDatabase) (payloadId : Option String) :
    Option ActionIoPayload :=
  db.payloads.find? fun p => p.payloadId = payloadId.getD ""

/-- The messages of an execution, in the order in which they were inserted. -/
def messagesOf (db : ActionIoJournalDatabase) (executionId : String) : List ActionIoMessage :=
  db.messages.filter fun m => m.executionId = executionId

/-- The events of an execution, in the order in which they were inserted. -/
def eventsOf (db : ActionIoJournalDatabase) (executionId : String) : List ActionIoEventRow :=
  db.events.filter fun e => e.executionId = executionId

/-! ## Inserts and updates -/

def insertSession (row : ActionIoSession) (violated : ActionFailure) : Transaction Unit := do
  let db ← get
  Atomic.require (∀ s ∈ db.sessions, s.executionId ≠ row.executionId ∧ s.key ≠ row.key) violated
  modify fun db => { db with sessions := db.sessions ++ [row] }

def insertPayload (row : ActionIoPayload) (violated : ActionFailure) : Transaction Unit := do
  let db ← get
  Atomic.require (∀ p ∈ db.payloads, p.payloadId ≠ row.payloadId ∧
    ¬ (p.keyId = row.keyId ∧ p.nonce = row.nonce)) violated
  modify fun db => { db with payloads := db.payloads ++ [row] }

def insertMessage (row : ActionIoMessage) (violated : ActionFailure) : Transaction Unit := do
  let db ← get
  Atomic.require (∀ m ∈ db.messages, m.executionId = row.executionId →
    m.messageId ≠ row.messageId ∧ m.sequence ≠ row.sequence) violated
  modify fun db => { db with messages := db.messages ++ [row] }

def insertEvent (row : ActionIoEventRow) (violated : ActionFailure) : Transaction Unit := do
  let db ← get
  Atomic.require (∀ e ∈ db.events, e.executionId = row.executionId → e.sequence ≠ row.sequence)
    violated
  modify fun db => { db with events := db.events ++ [row] }

def updateSession (db : ActionIoJournalDatabase) (executionId : String)
    (f : ActionIoSession → ActionIoSession) : ActionIoJournalDatabase :=
  { db with sessions := Rows.write (fun s => s.executionId = executionId) f db.sessions }

def updateMessagesIn (db : ActionIoJournalDatabase) (executionId : String)
    (state : ActionIoDeliveryState) (f : ActionIoMessage → ActionIoMessage) :
    ActionIoJournalDatabase :=
  { db with
    messages :=
      Rows.write (fun m => m.executionId = executionId && m.deliveryState = state) f db.messages }

def updateMessage (db : ActionIoJournalDatabase) (executionId messageId : String)
    (f : ActionIoMessage → ActionIoMessage) : ActionIoJournalDatabase :=
  { db with
    messages :=
      Rows.write (fun m => m.executionId = executionId && m.messageId = messageId) f db.messages }

/-! ## The budget of the payloads -/

def readActionIoPayloadBytes (db : ActionIoJournalDatabase) : Except ActionFailure Int :=
  if ((db.payloads.map (·.plaintextBytes)).min?.getD 0) < 0 then
    .error
      { message := "The I/O content storage accounting is invalid."
        code := "ACTION_IO_STORAGE_BUDGET_INVALID" }
  else .ok (db.payloads.map (·.plaintextBytes)).sum

def requireActionIoPayloadCapacity (additionalBytes : Int) : Transaction Unit := do
  let db ← get
  let used ← Atomic.ofExcept db.readActionIoPayloadBytes
  Atomic.require (¬ (used < 0 ∨ additionalBytes < 0 ∨
      used + additionalBytes > ActionIoLimits.payloadBytes))
    { message := "The I/O content storage limit has been reached."
      code := "ACTION_IO_STORAGE_QUOTA_EXCEEDED" }

end ActionIoJournalDatabase

/-! ## The cipher -/

/-- The result of `AesGcm.encrypt`. -/
structure SecretBox where
  nonce : List UInt8
  cipherText : List UInt8
  mac : List UInt8
  deriving DecidableEq, Repr

/-- The algorithm of the package `cryptography`, with the key of the installation.  It may
throw; the first argument of `encrypt` is the randomness from which it takes the nonce. -/
structure AesGcm where
  encrypt : List UInt8 → List UInt8 → List UInt8 → Option SecretBox
  decrypt : SecretBox → List UInt8 → Option (List UInt8)

/-- What the algorithm decrypts is what it has encrypted, under nonces of twelve bytes and
tags of sixteen. -/
structure AesGcm.Lawful (algorithm : AesGcm) : Prop where
  nonce : ∀ random bytes aad box, algorithm.encrypt random bytes aad = some box →
    box.nonce.length = 12
  mac : ∀ random bytes aad box, algorithm.encrypt random bytes aad = some box →
    box.mac.length = 16
  decrypt : ∀ random bytes aad box, algorithm.encrypt random bytes aad = some box →
    algorithm.decrypt box aad = some bytes

/-- An algorithm that leaves the bytes as they are, for runs that do not depend on secrecy. -/
def AesGcm.plain : AesGcm where
  encrypt random bytes _ :=
    if random.length = 12 then some ⟨random, bytes, List.replicate 16 0⟩ else none
  decrypt box _ := some box.cipherText

theorem AesGcm.plain_lawful : AesGcm.plain.Lawful where
  nonce random bytes aad box h := by
    obtain ⟨hlength, heq⟩ := Option.ite_none_right_eq_some.mp h
    rw [← Option.some.inj heq]
    exact hlength
  mac random bytes aad box h := by
    obtain ⟨-, heq⟩ := Option.ite_none_right_eq_some.mp h
    rw [← Option.some.inj heq]
    rfl
  decrypt random bytes aad box h := by
    obtain ⟨-, heq⟩ := Option.ite_none_right_eq_some.mp h
    rw [← Option.some.inj heq]
    rfl

structure ActionIoPayloadCipher where
  keyId : String
  algorithm : AesGcm

structure ActionIoEncryptedPayload where
  keyId : String
  nonce : List UInt8
  ciphertext : List UInt8
  tag : List UInt8
  context : List UInt8
  deriving DecidableEq, Repr

namespace ActionIoPayloadCipher

def context (executionId channel messageId : String) (sequence offset : Int) : List UInt8 :=
  utf8Encode (jsonArray ["1", jsonString executionId, jsonString channel, jsonString messageId,
    toString sequence, toString offset])

def encrypt (cipher : ActionIoPayloadCipher) (random bytes context : List UInt8) :
    Except ActionFailure ActionIoEncryptedPayload :=
  match cipher.algorithm.encrypt random bytes context with
  | some box =>
    .ok
      { keyId := cipher.keyId
        nonce := box.nonce
        ciphertext := box.cipherText
        tag := box.mac
        context := context }
  | none => .error (cipherFailure "ACTION_IO_KEY_UNAVAILABLE")

def decrypt (cipher : ActionIoPayloadCipher) (payload : ActionIoEncryptedPayload)
    (expectedContext : List UInt8) : Except ActionFailure (List UInt8) :=
  if payload.keyId ≠ cipher.keyId then .error (cipherFailure "ACTION_IO_KEY_UNAVAILABLE")
  else if payload.nonce.length ≠ 12 ∨ payload.tag.length ≠ 16 ∨
      payload.context ≠ expectedContext then
    .error (cipherFailure "ACTION_IO_INTEGRITY_FAILED")
  else
    match cipher.algorithm.decrypt ⟨payload.nonce, payload.ciphertext, payload.tag⟩
        expectedContext with
    | some bytes => .ok bytes
    | none => .error (cipherFailure "ACTION_IO_INTEGRITY_FAILED")

theorem decrypt_encrypt {cipher : ActionIoPayloadCipher} (hlawful : cipher.algorithm.Lawful)
    {random bytes context : List UInt8} {payload : ActionIoEncryptedPayload}
    (h : cipher.encrypt random bytes context = .ok payload) :
    cipher.decrypt payload context = .ok bytes := by
  rw [encrypt] at h
  cases hbox : cipher.algorithm.encrypt random bytes context with
  | none =>
    rw [hbox] at h
    cases h
  | some box =>
    rw [hbox] at h
    have heq := (Except.ok.inj h).symm
    have hnonce := hlawful.nonce _ _ _ _ hbox
    have hmac := hlawful.mac _ _ _ _ hbox
    have hdecrypt := hlawful.decrypt _ _ _ _ hbox
    rw [heq, decrypt, if_neg (by simp), if_neg (by simp [hnonce, hmac])]
    dsimp only
    rw [hdecrypt]

end ActionIoPayloadCipher

/-- A payload as a row. -/
def ActionIoPayload.encrypted (p : ActionIoPayload) : ActionIoEncryptedPayload where
  keyId := p.keyId
  nonce := p.nonce
  ciphertext := p.ciphertext
  tag := p.authenticationTag
  context := p.authenticatedContext

end PlugAgente.ActionIo
