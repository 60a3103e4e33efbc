import PlugAgente.ActionIo.Linked
import PlugAgente.Machine.Transition

/-!
# The journal as a machine

A step is one transaction of the journal, with all that it draws from outside; a crash of
the process loses nothing but the memory of the agent, so that it is followed by
`reconcileInterrupted` and needs no step of its own.  A call that is refused is a step too:
it leaves the database as it is.

`started`, `handed`, `calls` and `appended` are history: the executions that reached `starting`,
the sequences that were handed to the writers, the blocks of output that callers handed over and
the journal took, and the events that were recorded.

`Execution` is what the tables hold of one execution, and `Move` is what can happen to it.
`evolves_of_step` ties the two: a step does to every execution a series of moves, so that an
invariant of executions is proved once for each move and holds of the tables in every state.
-/

namespace PlugAgente.ActionIo

open ActionIoJournalDatabase

/-- The database, with its history. -/
structure Journal where
  db : ActionIoJournalDatabase := {}
  started : List String := []
  handed : List (String × Int) := []
  calls : List (String × ActionIoStream × List Int) := []
  appended : List (String × ActionIoEvent) := []
  deriving DecidableEq

/-- The transactions. -/
inductive JournalEvent where
  | claim (draws : ClaimDraws) (intent : ActionIoSessionIntent)
    (io : Option ActionIoConfiguration)
  | admitInput (draw : Draw) (request : InputRequest)
  | markStarting (configured : Int) (executionId : String)
  | markRunning (configured : Int) (executionId : String)
  | beginNextInput (executionId : String)
  | finishInput (executionId messageId : String) (state : ActionIoDeliveryState)
    (confirmedBytes : Option Int) (failureCode : Option String)
  | reconcileInterrupted
  | append (draw : Draw) (executionId : String) (stream : ActionIoStream) (bytes : List Int)
  | finish (executionId : String) (outcome : Outcome) (now : Int)
  | cancelQueued (executionId clientId : String) (now : Int)
  | expire (now : Int)

/-- The events of the end of an execution. -/
def terminalEvents (sequence : Int) (outcome : Outcome) : List ActionIoEvent :=
  if outcome.processTerminated then
    [.processExited sequence outcome.exitCode,
      .completed (sequence + 1) outcome.complete outcome.failureCode]
  else [.completed sequence outcome.complete outcome.failureCode]

/-- The outcome of an execution that is cancelled before it starts. -/
def cancelledOutcome : Outcome where
  exitCode := none
  complete := true
  failureCode := some "ACTION_CANCELLED"

namespace Journal

def nextEventSequence (s : Journal) (executionId : String) : Int :=
  ((s.db.session? executionId).map (·.nextEventSequence)).getD 0

def record (s : Journal) (executionId : String) (events : List ActionIoEvent) : Journal :=
  { s with appended := s.appended ++ events.map fun event => (executionId, event) }

/-- `markStarting`, with its history. -/
def markStarting (s : Journal) (configured : Int) (executionId : String) : Journal :=
  match Atomic.commit (DriftActionIoJournal.markStarting configured executionId) s.db with
  | (.ok _, db) => { s with db := db, started := s.started ++ [executionId] }
  | (.error _, db) => { s with db := db }

/-- `beginNextInput`, with its history. -/
def beginNextInput (services : JournalServices) (s : Journal) (executionId : String) : Journal :=
  match Atomic.commit (DriftActionIoJournal.beginNextInput services executionId) s.db with
  | (.ok (some input), db) =>
    { s with db := db, handed := s.handed ++ [(executionId, input.receipt.sequence)] }
  | (.ok none, db) => { s with db := db }
  | (.error _, db) => { s with db := db }

/-- `append`, with its history: a block of which only a prefix was stored counts too. -/
def append (services : JournalServices) (s : Journal) (draw : Draw) (executionId : String)
    (stream : ActionIoStream) (bytes : List Int) : Journal :=
  let db := (ActionIoOutputJournal.append services draw executionId stream bytes s.db).2
  if ActionIoOutputJournal.isInvalidBlock bytes then { s with db := db }
  else
    match Atomic.commit (ActionIoOutputJournal.appendPrefix services draw executionId stream
        (Dart.uint8List bytes)) s.db with
    | (.ok event, _) =>
      { s with db := db, calls := s.calls ++ [(executionId, stream, bytes)] }.record
        executionId [event]
    | (.error _, _) => { s with db := db }

/-- `finish`, with its history. -/
def finish (s : Journal) (executionId : String) (outcome : Outcome) (now : Int) : Journal :=
  match Atomic.commit (ActionIoOutputJournal.finish executionId outcome now) s.db with
  | (.ok _, db) =>
    { s with db := db }.record executionId
      (terminalEvents (s.nextEventSequence executionId) outcome)
  | (.error _, db) => { s with db := db }

/-- `cancelQueued`, with its history. -/
def cancelQueued (s : Journal) (executionId clientId : String) (now : Int) : Journal :=
  match Atomic.commit (ActionIoOutputJournal.cancelQueued executionId clientId now) s.db with
  | (.ok true, db) =>
    { s with db := db }.record executionId
      (terminalEvents (s.nextEventSequence executionId) cancelledOutcome)
  | (.ok false, db) => { s with db := db }
  | (.error _, db) => { s with db := db }

end Journal

/-- The journal and its transactions. -/
def journal (services : JournalServices) : Machine Journal JournalEvent where
  start s := s = {}
  step s
    | .claim draws intent io =>
      some { s with db :=
        (Atomic.commit (DriftActionIoJournal.claim services draws intent io) s.db).2 }
    | .admitInput draw request =>
      some { s with db :=
        (Atomic.commit (DriftActionIoJournal.admitInput services draw request) s.db).2 }
    | .markStarting configured executionId => some (s.markStarting configured executionId)
    | .markRunning configured executionId =>
      some { s with db :=
        (Atomic.commit (DriftActionIoJournal.markRunning configured executionId) s.db).2 }
    | .beginNextInput executionId => some (s.beginNextInput services executionId)
    | .finishInput executionId messageId state confirmedBytes failureCode =>
      some { s with db := (Atomic.commit (DriftActionIoJournal.finishInput executionId messageId
        state confirmedBytes failureCode) s.db).2 }
    | .reconcileInterrupted =>
      some { s with db := (Atomic.commit DriftActionIoJournal.reconcileInterrupted s.db).2 }
    | .append draw executionId stream bytes =>
      some (s.append services draw executionId stream bytes)
    | .finish executionId outcome now => some (s.finish executionId outcome now)
    | .cancelQueued executionId clientId now => some (s.cancelQueued executionId clientId now)
    | .expire now => some { s with db := ActionIoJournalRetention.expire now s.db }

/-! ## A session for runs -/

def sampleDraws : ClaimDraws where
  session := { payloadId := "" }
  initial := { payloadId := "initial", random := List.replicate 12 0 }
  close := { payloadId := "close", random := List.replicate 12 1 }

def sampleIntent : ActionIoSessionIntent where
  executionId := "execution"
  key := ⟨"installation", "agent", "client", "action", "key"⟩
  fingerprint := "fingerprint"

/-- Initial bytes and an automatic close. -/
def sampleConfiguration : ActionIoConfiguration where
  closeInput := true
  initialInput := some [104, 105]

/-! ## Executions -/

/-- What the tables and the history hold of one execution. -/
structure Execution where
  session : ActionIoSession
  messages : List ActionIoMessage
  events : List ActionIoEventRow
  /-- The payloads of the events. -/
  contents : List (Option ActionIoPayload)
  started : Bool
  handed : List Int
  appended : List ActionIoEvent

def Journal.of {α : Type} (executionId : String) (history : List (String × α)) : List α :=
  (history.filter fun entry => entry.1 = executionId).map (·.2)

def Journal.execution (s : Journal) (executionId : String) : Option Execution :=
  (s.db.session? executionId).map fun session =>
    { session := session
      messages := s.db.messagesOf executionId
      events := s.db.eventsOf executionId
      contents := s.db.contentsOf executionId
      started := s.started.contains executionId
      handed := Journal.of executionId s.handed
      appended := Journal.of executionId s.appended }

namespace Execution

/-- An execution that was just claimed. -/
def Born (v : Execution) : Prop :=
  ∃ intent fingerprint, v =
    { session := DriftActionIoJournal.claimedSession intent fingerprint
      messages := []
      events := []
      contents := []
      started := false
      handed := []
      appended := [] }

/-- The messages that are not delivered, in the order of their sequences. -/
def pending (messages : List ActionIoMessage) : List ActionIoMessage :=
  (messages.filter fun m => m.deliveryState = .accepted || m.deliveryState = .writing).mergeSort
    fun a b => a.sequence ≤ b.sequence

open DriftActionIoJournal ActionIoOutputJournal

/-- The messages after their execution was interrupted or has ended. -/
def abandoned (failureCode : String) (m : ActionIoMessage) : ActionIoMessage :=
  match m.deliveryState with
  | .writing => withOutcome .unknown none (some "ACTION_OUTCOME_UNKNOWN") m
  | .accepted => withOutcome .failed (some 0) (some failureCode) m
  | _ => m

/-- What can happen to an execution. -/
inductive Move (services : JournalServices) (v : Execution) : Execution → Prop where
  | admitted (m : ActionIoMessage) (hadmissible : Admissible v.session m.sequence m.inputBytes)
    (hbytes : 0 ≤ m.inputBytes)
    (hnew : ∀ n ∈ v.messages, n.messageId ≠ m.messageId ∧ n.sequence ≠ m.sequence)
    (hstate : m.deliveryState = .accepted) :
    Move services v { v with
      session := admitted v.session m.sequence m.inputBytes m.closesInput v.session
      messages := v.messages ++ [m] }
  | starting (h : v.session.processState = .queued) :
    Move services v { v with
      session := transitioned v.session .starting v.session
      started := true }
  | running (h : v.session.processState = .starting) :
    Move services v { v with session := transitioned v.session .running v.session }
  | handed (m : ActionIoMessage) (hrunning : v.session.processState = .running)
    (hstdin : v.session.stdinState = .open ∨ v.session.stdinState = .closing)
    (hnext : (pending v.messages).head? = some m) (haccepted : m.deliveryState ≠ .writing) :
    Move services v { v with
      messages := Rows.write (fun n => n.messageId = m.messageId) asWriting v.messages
      handed := v.handed ++ [m.sequence] }
  | delivered (m : ActionIoMessage) (state : ActionIoDeliveryState) (confirmedBytes : Option Int)
    (failureCode : Option String)
    (hfound : v.messages.find? (fun n => n.messageId = m.messageId) = some m)
    (hwriting : m.deliveryState = .writing)
    (hstate : state = .written ∨ state = .failed ∨ state = .unknown) :
    Move services v { v with
      session := delivered v.session m state v.session
      messages := Rows.write (fun n => n.messageId = m.messageId)
        (withOutcome state confirmedBytes failureCode) v.messages }
  | interrupted (h : isActive v.session = true) :
    Move services v { v with
      session := interruptedSession v.session
      messages := v.messages.map (abandoned "ACTION_IO_INTERRUPTED") }
  | appended (stream : ActionIoStream) (owned random : List UInt8) (payloadId : String)
    (payload : ActionIoEncryptedPayload) (hcapturing : isCapturing v.session = true)
    (hexpired : v.session.outputExpired = false) (hremaining : 0 < remaining v.session)
    (howned : owned ≠ []) (hblock : (owned.length : Int) ≤ ActionIoLimits.blockBytes)
    (hevents : v.session.nextEventSequence + ActionIoLimits.terminalEventReserve ≤
      ActionIoLimits.executionEvents)
    (hencrypt : services.cipher.encrypt random (fitting v.session owned)
      (ActionIoPayloadCipher.context v.session.executionId stream.name ""
        v.session.nextEventSequence (streamBytes v.session stream)) = .ok payload) :
    Move services v { v with
      session := ActionIoOutputJournal.appended v.session stream (fitting v.session owned).length v.session
      events := v.events ++ [outputRow v.session.executionId v.session.nextEventSequence stream
        (streamBytes v.session stream) payloadId]
      contents := v.contents ++ [some (payloadRow payloadId v.session.executionId payload
        (fitting v.session owned).length)]
      appended := v.appended ++ [.output v.session.nextEventSequence stream
        (streamBytes v.session stream) (fitting v.session owned)] }
  | finished (outcome : Outcome) (now : Int) (hcapturing : isCapturing v.session = true)
    (hcomplete : outcome.complete = true → outcome.processTerminated = true) :
    Move services v { v with
      session := finished v.session outcome (v.session.nextEventSequence +
        (terminalRows v.session.executionId v.session.nextEventSequence outcome).length) now
          v.session
      messages := v.messages.map (abandoned "ACTION_STDIN_CLOSED")
      events := v.events ++
        terminalRows v.session.executionId v.session.nextEventSequence outcome
      contents := v.contents ++
        (terminalRows v.session.executionId v.session.nextEventSequence outcome).map fun _ => none
      appended := v.appended ++ terminalEvents v.session.nextEventSequence outcome }
  | expired (contents : List (Option ActionIoPayload))
    (hfinished : v.session.processState = .finished) :
    Move services v { v with
      session := { v.session with outputExpired := true }
      contents := contents }

/-- A series of moves. -/
abbrev Moves (services : JournalServices) : Execution → Execution → Prop :=
  Relation.ReflTransGen (Move services)

/-- What a step does to an execution. -/
def Evolves (services : JournalServices) (before after : Option Execution) : Prop :=
  match before, after with
  | none, none => True
  | none, some v => ∃ u, Born u ∧ Moves services u v
  | some v, some w => Moves services v w
  | some _, none => False

theorem Evolves.refl (services : JournalServices) (o : Option Execution) :
    Evolves services o o := by
  cases o with
  | none => trivial
  | some v => exact Relation.ReflTransGen.refl

theorem Evolves.trans {services : JournalServices} {o p q : Option Execution}
    (h : Evolves services o p) (h' : Evolves services p q) : Evolves services o q := by
  cases o with
  | none =>
    cases p with
    | none => exact h'
    | some v =>
      cases q with
      | none => exact h'.elim
      | some w =>
        obtain ⟨u, hborn, hmoves⟩ := h
        exact ⟨u, hborn, hmoves.trans h'⟩
  | some u =>
    cases p with
    | none => exact h.elim
    | some v =>
      cases q with
      | none => exact h'.elim
      | some w => exact Relation.ReflTransGen.trans h h'

theorem Evolves.move {services : JournalServices} {v w : Execution} (h : Move services v w) :
    Evolves services (some v) (some w) :=
  Relation.ReflTransGen.single h

end Execution

end PlugAgente.ActionIo
