import PlugAgente.ActionIo.OutputJournal

/-!
# What the transactions do

One lemma for each transaction of the I/O journal: when it ends with a value, what it has
checked, what it returns and what the database is afterwards.  Nothing else about the
journal takes the transactions apart.
-/

namespace PlugAgente.ActionIo

open PlugAgente.Dart

namespace ActionIoJournalDatabase

variable {db db' : ActionIoJournalDatabase} {e : ActionFailure}

/-! ## Inserts -/

/-- The ids and keys of a session are new. -/
def FreshSession (db : ActionIoJournalDatabase) (row : ActionIoSession) : Prop :=
  ∀ s ∈ db.sessions, s.executionId ≠ row.executionId ∧ s.key ≠ row.key

/-- The id of a payload is new. -/
def FreshPayload (db : ActionIoJournalDatabase) (payloadId : String) : Prop :=
  ∀ p ∈ db.payloads, p.payloadId ≠ payloadId

/-- The id and the sequence of a message are new in its execution. -/
def FreshMessage (db : ActionIoJournalDatabase) (row : ActionIoMessage) : Prop :=
  ∀ m ∈ db.messages, m.executionId = row.executionId →
    m.messageId ≠ row.messageId ∧ m.sequence ≠ row.sequence

theorem insertSession_eq_ok {row : ActionIoSession} {u : Unit} :
    insertSession row e db = .ok (u, db') ↔
      db.FreshSession row ∧ db' = { db with sessions := db.sessions ++ [row] } := by
  simp only [insertSession, Atomic.get_bind, Atomic.require_bind, Atomic.modify_eq_ok,
    FreshSession]

theorem insertPayload_ok {row : ActionIoPayload} {u : Unit}
    (h : insertPayload row e db = .ok (u, db')) :
    db.FreshPayload row.payloadId ∧ db' = { db with payloads := db.payloads ++ [row] } := by
  simp only [insertPayload, Atomic.get_bind, Atomic.require_bind, Atomic.modify_eq_ok] at h
  exact ⟨fun p hp => (h.1 p hp).1, h.2⟩

theorem insertMessage_eq_ok {row : ActionIoMessage} {u : Unit} :
    insertMessage row e db = .ok (u, db') ↔
      db.FreshMessage row ∧ db' = { db with messages := db.messages ++ [row] } := by
  simp only [insertMessage, Atomic.get_bind, Atomic.require_bind, Atomic.modify_eq_ok,
    FreshMessage]

theorem insertEvent_ok {row : ActionIoEventRow} {u : Unit}
    (h : insertEvent row e db = .ok (u, db')) :
    db' = { db with events := db.events ++ [row] } := by
  simp only [insertEvent, Atomic.get_bind, Atomic.require_bind, Atomic.modify_eq_ok] at h
  exact h.2

theorem insertPayload_of {row : ActionIoPayload} (h : ∀ p ∈ db.payloads,
      p.payloadId ≠ row.payloadId ∧ ¬ (p.keyId = row.keyId ∧ p.nonce = row.nonce)) :
    insertPayload row e db = .ok ((), { db with payloads := db.payloads ++ [row] }) := by
  simp only [insertPayload, Atomic.get_bind, Atomic.require_bind, Atomic.modify_eq_ok]
  exact ⟨h, trivial⟩

theorem insertEvent_of {row : ActionIoEventRow}
    (h : ∀ r ∈ db.events, r.executionId = row.executionId → r.sequence ≠ row.sequence) :
    insertEvent row e db = .ok ((), { db with events := db.events ++ [row] }) := by
  simp only [insertEvent, Atomic.get_bind, Atomic.require_bind, Atomic.modify_eq_ok]
  exact ⟨h, trivial⟩

theorem requireCapacity_ok {n : Int} {u : Unit}
    (h : requireActionIoPayloadCapacity n db = .ok (u, db')) : db' = db := by
  simp only [requireActionIoPayloadCapacity, Atomic.get_bind, Atomic.ofExcept_bind,
    Atomic.require_eq_ok] at h
  obtain ⟨_, _, _, hdb⟩ := h
  exact hdb

end ActionIoJournalDatabase

namespace DriftActionIoJournal

open ActionIoJournalDatabase

variable {services : JournalServices} {db db' : ActionIoJournalDatabase}

theorem session_eq_ok {executionId : String} {s : ActionIoSession} :
    session executionId db = .ok (s, db') ↔ db.session? executionId = some s ∧ db' = db := by
  simp only [session, Atomic.get_bind]
  cases db.session? executionId with
  | none => simp
  | some row =>
    rw [Atomic.pure_eq_ok, Option.some.injEq, @eq_comm _ row]

theorem ownSession_eq_ok {executionId clientId : String} {s : ActionIoSession} :
    ownSession executionId clientId db = .ok (s, db') ↔
      db.ownSession? executionId clientId = some s ∧ db' = db := by
  simp only [ownSession, Atomic.get_bind]
  cases db.ownSession? executionId clientId with
  | none => simp
  | some row =>
    rw [Atomic.pure_eq_ok, Option.some.injEq, @eq_comm _ row]

/-! ## Admission -/

/-- What `admissible` checks. -/
structure Admissible (session : ActionIoSession) (sequence length : Int) : Prop where
  stdin : session.stdinState = .pending ∨ session.stdinState = .open
  terminal : session.terminalAt = none
  sequence : sequence = session.nextInputSequence
  messages : session.queuedInputMessages < ActionIoLimits.queuedMessages
  bytes : session.queuedInputBytes + length ≤ ActionIoLimits.queuedBytes
  executionMessages : session.nextInputSequence < ActionIoLimits.executionMessages
  executionBytes : session.admittedInputBytes + session.stdoutBytes + session.stderrBytes +
    length ≤ ActionIoLimits.executionBytes

theorem admissible_ok {s : ActionIoSession} {sequence length : Int} {u : Unit}
    (h : admissible s sequence length db = .ok (u, db')) :
    Admissible s sequence length ∧ db' = db := by
  simp only [admissible, Atomic.require_bind, Atomic.require_eq_ok, not_or, not_le, not_lt,
    ge_iff_le, gt_iff_lt] at h
  obtain ⟨hopen, hsequence, hqueue, hlimits, hdb⟩ := h
  exact ⟨⟨hopen.1, hopen.2, hsequence, hqueue.1, hqueue.2, hlimits.1, hlimits.2⟩, hdb⟩

/-- The database after a message is admitted. -/
def admittedDatabase (draw : Draw) (r : InputRequest) (session : ActionIoSession)
    (fingerprint : String) (payload : ActionIoEncryptedPayload) (db : ActionIoJournalDatabase) :
    ActionIoJournalDatabase :=
  { db with
    payloads := db.payloads ++
      [payloadRow draw.payloadId r.executionId payload r.ownedBytes.length]
    messages := db.messages ++ [admittedMessage r fingerprint draw.payloadId] }.updateSession
      r.executionId (admitted session r.sequence r.ownedBytes.length r.close)

theorem admitNew_ok {draw : Draw} {r : InputRequest} {s : ActionIoSession} {fingerprint : String}
    {a : ActionIoMessageReceipt} (h : admitNew services draw r s fingerprint db = .ok (a, db')) :
    Admissible s r.sequence r.ownedBytes.length ∧ db.FreshPayload draw.payloadId ∧
      db.FreshMessage (admittedMessage r fingerprint draw.payloadId) ∧
      a =
        { executionId := r.executionId
          messageId := r.messageId
          sequence := r.sequence
          state := .accepted
          confirmedBytes := some 0
          nextInputSequence := r.sequence + 1
          stdinState := if r.close then .closing else s.stdinState } ∧
      ∃ payload, db' = admittedDatabase draw r s fingerprint payload db := by
  rw [admitNew] at h
  obtain ⟨_, db₁, hchecked, h₁⟩ := Atomic.bind_eq_ok.mp h
  obtain ⟨hadmissible, rfl⟩ := admissible_ok hchecked
  obtain ⟨_, -, h₂⟩ := Atomic.ofExcept_bind.mp h₁
  obtain ⟨_, db₂, hbudget, h₃⟩ := Atomic.bind_eq_ok.mp h₂
  obtain rfl := requireCapacity_ok hbudget
  obtain ⟨payload, -, h₄⟩ := Atomic.ofExcept_bind.mp h₃
  obtain ⟨_, db₃, hpayload, h₅⟩ := Atomic.bind_eq_ok.mp h₄
  obtain ⟨hfresh, rfl⟩ := insertPayload_ok hpayload
  obtain ⟨_, db₄, hinserted, h₆⟩ := Atomic.bind_eq_ok.mp h₅
  obtain ⟨hmessage, rfl⟩ := insertMessage_eq_ok.mp hinserted
  have h₇ := Atomic.modify_bind.mp h₆
  obtain ⟨hresult, hdb⟩ := Atomic.pure_eq_ok.mp h₇
  exact ⟨hadmissible, hfresh, hmessage, hresult, payload, hdb⟩

/-- What an admission does: it repeats the receipt of a message that is known, or admits a
new one. -/
inductive Admission (services : JournalServices) (draw : Draw) (r : InputRequest)
    (db db' : ActionIoJournalDatabase) (a : ActionIoMessageReceipt) : Prop where
  | known (session : ActionIoSession) (previous : ActionIoMessage)
    (hsession : db.ownSession? r.executionId r.clientId = some session)
    (hprevious : db.message? r.executionId r.messageId = some previous)
    (hfingerprint : previous.fingerprint =
      messageFingerprint services r.sequence r.close r.ownedBytes)
    (hdb : db' = db) (hresult : a = receipt previous session)
  | fresh (session : ActionIoSession) (payload : ActionIoEncryptedPayload)
    (hsession : db.ownSession? r.executionId r.clientId = some session)
    (hunknown : db.message? r.executionId r.messageId = none)
    (hadmissible : Admissible session r.sequence r.ownedBytes.length)
    (hpayload : db.FreshPayload draw.payloadId)
    (hmessage : db.FreshMessage (admittedMessage r
      (messageFingerprint services r.sequence r.close r.ownedBytes) draw.payloadId))
    (hdb : db' = admittedDatabase draw r session
      (messageFingerprint services r.sequence r.close r.ownedBytes) payload db)
    (hresult : a =
      { executionId := r.executionId
        messageId := r.messageId
        sequence := r.sequence
        state := .accepted
        confirmedBytes := some 0
        nextInputSequence := r.sequence + 1
        stdinState := if r.close then .closing else session.stdinState })

theorem admitInput_ok {draw : Draw} {r : InputRequest} {a : ActionIoMessageReceipt}
    (h : admitInput services draw r db = .ok (a, db')) :
    r.isInvalid = false ∧ Admission services draw r db db' a := by
  rw [admitInput] at h
  obtain ⟨hvalid, h₁⟩ := Atomic.require_bind.mp h
  obtain ⟨session, db₁, hown, h₂⟩ := Atomic.bind_eq_ok.mp h₁
  obtain ⟨hsession, rfl⟩ := ownSession_eq_ok.mp hown
  have h₃ := Atomic.get_bind.mp h₂
  refine ⟨hvalid, ?_⟩
  cases hprevious : db₁.message? r.executionId r.messageId with
  | some previous =>
    rw [hprevious] at h₃
    obtain ⟨hfingerprint, h₄⟩ := Atomic.require_bind.mp h₃
    obtain ⟨hresult, hdb⟩ := Atomic.pure_eq_ok.mp h₄
    exact .known session previous hsession hprevious hfingerprint hdb hresult
  | none =>
    rw [hprevious] at h₃
    obtain ⟨hadmissible, hpayload, hmessage, hresult, payload, hdb⟩ := admitNew_ok h₃
    exact .fresh session payload hsession hprevious hadmissible hpayload hmessage hdb hresult

/-! ## Claims -/

/-- What a claim does: it repeats the answer for a session that is known, or it inserts a
session and admits its messages. -/
inductive Claim (services : JournalServices) (draws : ClaimDraws)
    (intent : ActionIoSessionIntent) (io : Option ActionIoConfiguration)
    (db db' : ActionIoJournalDatabase) (c : ActionIoSessionClaim) : Prop where
  | known (existing : ActionIoSession) (fingerprint : String)
    (hintent : intentFingerprint services intent io = .ok fingerprint)
    (hexisting : db.claimed? intent.key = some existing)
    (hfingerprint : existing.fingerprint = fingerprint) (hdb : db' = db)
    (hresult : c = claimResult io existing.executionId false)
  | fresh (fingerprint : String) (db₁ : ActionIoJournalDatabase)
    (hintent : intentFingerprint services intent io = .ok fingerprint)
    (hunknown : db.claimed? intent.key = none)
    (hfresh : db.FreshSession (claimedSession intent fingerprint))
    (hinitial : admitInitial services draws.initial intent (io.bind (·.initialInput))
      { db with sessions := db.sessions ++ [claimedSession intent fingerprint] } = .ok ((), db₁))
    (hclose : admitClose services draws.close intent
      (if (io.bind (·.initialInput)).isSome then 1 else 0)
      ((io.map (·.closeInput)).getD false) db₁ = .ok ((), db'))
    (hresult : c = claimResult io intent.executionId true)

theorem claim_ok {draws : ClaimDraws} {intent : ActionIoSessionIntent}
    {io : Option ActionIoConfiguration} {c : ActionIoSessionClaim}
    (h : claim services draws intent io db = .ok (c, db')) :
    Claim services draws intent io db db' c := by
  rw [claim] at h
  obtain ⟨-, h₁⟩ := Atomic.require_bind.mp h
  obtain ⟨fingerprint, hintent, h₂⟩ := Atomic.ofExcept_bind.mp h₁
  have h₃ := Atomic.get_bind.mp h₂
  cases hexisting : db.claimed? intent.key with
  | some existing =>
    rw [hexisting] at h₃
    obtain ⟨hfingerprint, h₄⟩ := Atomic.require_bind.mp h₃
    obtain ⟨hresult, hdb⟩ := Atomic.pure_eq_ok.mp h₄
    exact .known existing fingerprint hintent hexisting hfingerprint hdb hresult
  | none =>
    rw [hexisting] at h₃
    obtain ⟨_, -, h₄⟩ := Atomic.ofExcept_bind.mp h₃
    obtain ⟨_, db₁, hinserted, h₅⟩ := Atomic.bind_eq_ok.mp h₄
    obtain ⟨hfresh, rfl⟩ := insertSession_eq_ok.mp hinserted
    obtain ⟨_, db₂, hinitial, h₆⟩ := Atomic.bind_eq_ok.mp h₅
    obtain ⟨_, db₃, hclose, h₇⟩ := Atomic.bind_eq_ok.mp h₆
    obtain ⟨hresult, rfl⟩ := Atomic.pure_eq_ok.mp h₇
    exact .fresh fingerprint db₂ hintent hexisting hfresh hinitial hclose hresult

theorem admitInitial_ok {draw : Draw} {intent : ActionIoSessionIntent}
    {initial : Option (List UInt8)} {u : Unit}
    (h : admitInitial services draw intent initial db = .ok (u, db')) :
    db' = db ∨ ∃ r a, r.executionId = intent.executionId ∧
      admitInput services draw r db = .ok (a, db') := by
  cases initial with
  | none =>
    rw [admitInitial] at h
    exact .inl (Atomic.pure_eq_ok.mp h).2
  | some bytes =>
    rw [admitInitial] at h
    obtain ⟨a, db₁, hadmission, h₁⟩ := Atomic.bind_eq_ok.mp h
    obtain ⟨-, rfl⟩ := Atomic.pure_eq_ok.mp h₁
    exact .inr ⟨_, a, rfl, hadmission⟩

theorem admitClose_ok {draw : Draw} {intent : ActionIoSessionIntent} {sequence : Int}
    {close : Bool} {u : Unit} (h : admitClose services draw intent sequence close db = .ok (u, db')) :
    db' = db ∨ ∃ r a, r.executionId = intent.executionId ∧
      admitInput services draw r db = .ok (a, db') := by
  cases close with
  | false =>
    rw [admitClose] at h
    exact .inl (Atomic.pure_eq_ok.mp h).2
  | true =>
    rw [admitClose] at h
    obtain ⟨a, db₁, hadmission, h₁⟩ := Atomic.bind_eq_ok.mp h
    obtain ⟨-, rfl⟩ := Atomic.pure_eq_ok.mp h₁
    exact .inr ⟨_, a, rfl, hadmission⟩

/-! ## The process -/

/-- The number of sessions that count against the limit. -/
def reserved (db : ActionIoJournalDatabase) : Nat :=
  db.sessions.countP isReserved

theorem reserveSlot_eq_ok {configured : Int} {u : Unit} :
    reserveSlot configured db = .ok (u, db') ↔
      (1 ≤ configured ∧ (reserved db : Int) < configured ∧
        (reserved db : Int) < ActionIoLimits.concurrentExecutions) ∧ db' = db := by
  have hcount : reserved db = (db.sessions.filter isReserved).length := by
    rw [reserved, List.countP_eq_length_filter]
  simp only [reserveSlot, Atomic.require_bind, Atomic.get_bind, Atomic.require_eq_ok,
    List.length_take, ← hcount, ActionIoLimits.concurrentExecutions]
  rw [← and_assoc]
  refine and_congr_left fun _ => ?_
  split_ifs with h
  · omega
  · omega

/-- The session after a change of the state of its process. -/
def transitioned (session : ActionIoSession) (after : ProcessState) (row : ActionIoSession) :
    ActionIoSession :=
  { row with
    processState := after
    stdinState :=
      if after = .running ∧ session.stdinState = .pending then .open else session.stdinState }

theorem transitionProcess_ok {configured : Int} {executionId : String}
    {before after : ProcessState} {u : Unit}
    (h : transitionProcess configured executionId before after db = .ok (u, db')) :
    ∃ s, db.session? executionId = some s ∧ s.processState = before ∧
      db' = db.updateSession executionId (transitioned s after) := by
  rw [transitionProcess] at h
  obtain ⟨s, db₁, hfound, h₁⟩ := Atomic.bind_eq_ok.mp h
  obtain ⟨hsession, rfl⟩ := session_eq_ok.mp hfound
  obtain ⟨hbefore, h₂⟩ := Atomic.require_bind.mp h₁
  obtain ⟨_, db₂, hslot, h₃⟩ := Atomic.bind_eq_ok.mp h₂
  have hsame : db₂ = db₁ := by
    rw [reserveFor] at hslot
    split_ifs at hslot
    · exact (reserveSlot_eq_ok.mp hslot).2
    · exact (Atomic.pure_eq_ok.mp hslot).2
  subst hsame
  exact ⟨s, hsession, hbefore, Atomic.modify_eq_ok.mp h₃⟩

/-! ## Delivery -/

/-- What a poll for input does: nothing, or it hands the next message to the writer. -/
inductive Poll (services : JournalServices) (executionId : String)
    (db db' : ActionIoJournalDatabase) (input : Option ActionIoPendingInput) : Prop where
  | nothing (hdb : db' = db) (hinput : input = none)
  | handed (session : ActionIoSession) (next : ActionIoMessage) (bytes : List UInt8)
    (hsession : db.session? executionId = some session)
    (hrunning : session.processState = .running)
    (hstdin : session.stdinState = .open ∨ session.stdinState = .closing)
    (hnext : (pending db executionId).head? = some next)
    (haccepted : next.deliveryState ≠ .writing)
    (hdb : db' = db.updateMessage executionId next.messageId asWriting)
    (hinput : input = some
      { receipt := receipt (asWriting next) session
        close := next.closesInput
        bytes := bytes })

theorem beginNextInput_ok {executionId : String} {input : Option ActionIoPendingInput}
    (h : beginNextInput services executionId db = .ok (input, db')) :
    Poll services executionId db db' input := by
  rw [beginNextInput] at h
  obtain ⟨s, db₁, hfound, h₁⟩ := Atomic.bind_eq_ok.mp h
  obtain ⟨hsession, rfl⟩ := session_eq_ok.mp hfound
  have h₂ := Atomic.get_bind.mp h₁
  split_ifs at h₂ with hidle
  · obtain ⟨hinput, hdb⟩ := Atomic.pure_eq_ok.mp h₂
    exact .nothing hdb hinput
  · obtain ⟨hrunning, hstdin⟩ := not_or.mp hidle
    cases hnext : (pending db₁ executionId).head? with
    | none =>
      rw [hnext] at h₂
      obtain ⟨hinput, hdb⟩ := Atomic.pure_eq_ok.mp h₂
      exact .nothing hdb hinput
    | some next =>
      rw [hnext] at h₂
      dsimp only at h₂
      split_ifs at h₂ with hwriting
      · obtain ⟨hinput, hdb⟩ := Atomic.pure_eq_ok.mp h₂
        exact .nothing hdb hinput
      · rw [beginInput] at h₂
        have h₃ := Atomic.get_bind.mp h₂
        cases hpayload : db₁.payload? next.payloadId with
        | none =>
          rw [hpayload] at h₃
          cases h₃
        | some payload =>
          rw [hpayload] at h₃
          obtain ⟨bytes, -, h₄⟩ := Atomic.ofExcept_bind.mp h₃
          obtain ⟨-, h₅⟩ := Atomic.require_bind.mp h₄
          have h₆ := Atomic.modify_bind.mp h₅
          obtain ⟨hinput, hdb⟩ := Atomic.pure_eq_ok.mp h₆
          exact .handed s next bytes hsession (not_not.mp hrunning) (not_not.mp hstdin) hnext
            hwriting hdb hinput

/-- The session after a message is delivered. -/
def delivered (session : ActionIoSession) (message : ActionIoMessage)
    (state : ActionIoDeliveryState) (row : ActionIoSession) : ActionIoSession :=
  { row with
    stdinState := deliveredStdin session message state
    queuedInputBytes := session.queuedInputBytes - message.inputBytes
    queuedInputMessages := session.queuedInputMessages - 1 }

theorem finishInput_ok {executionId messageId : String} {state : ActionIoDeliveryState}
    {confirmedBytes : Option Int} {failureCode : Option String} {a : ActionIoMessageReceipt}
    (h : finishInput executionId messageId state confirmedBytes failureCode db = .ok (a, db')) :
    db' = db ∨ ∃ session message, db.session? executionId = some session ∧
      db.message? executionId messageId = some message ∧ message.deliveryState = .writing ∧
      (state = .written ∨ state = .failed ∨ state = .unknown) ∧
      db' = (db.updateMessage executionId messageId
        (withOutcome state confirmedBytes failureCode)).updateSession executionId
          (delivered session message state) := by
  rw [finishInput] at h
  obtain ⟨s, db₁, hfound, h₁⟩ := Atomic.bind_eq_ok.mp h
  obtain ⟨hsession, rfl⟩ := session_eq_ok.mp hfound
  have h₂ := Atomic.get_bind.mp h₁
  cases hmessage : db₁.message? executionId messageId with
  | none =>
    rw [hmessage] at h₂
    cases h₂
  | some message =>
    rw [hmessage] at h₂
    obtain ⟨hvalid, h₃⟩ := Atomic.require_bind.mp h₂
    split_ifs at h₃ with hwriting
    · obtain ⟨-, h₄⟩ := Atomic.require_bind.mp h₃
      exact .inl (Atomic.pure_eq_ok.mp h₄).2
    · rw [finishWriting] at h₃
      have h₄ := Atomic.modify_bind.mp (Atomic.modify_bind.mp h₃)
      obtain ⟨-, hdb⟩ := Atomic.pure_eq_ok.mp h₄
      refine .inr ⟨s, message, hsession, rfl, not_not.mp hwriting, ?_, hdb⟩
      cases state <;> simp_all [isInvalidOutcome]

theorem reconcileInterrupted_ok {n : Nat} (h : reconcileInterrupted db = .ok (n, db')) :
    db' = (db.sessions.filter isActive).foldl interrupt db := by
  rw [reconcileInterrupted] at h
  have h₁ := Atomic.modify_bind.mp (Atomic.get_bind.mp h)
  exact (Atomic.pure_eq_ok.mp h₁).2

end DriftActionIoJournal

namespace ActionIoOutputJournal

open ActionIoJournalDatabase

variable {services : JournalServices} {db db' : ActionIoJournalDatabase}

theorem session_eq_ok {executionId : String} {s : ActionIoSession} :
    session executionId db = .ok (s, db') ↔ db.session? executionId = some s ∧ db' = db := by
  simp only [session, Atomic.get_bind]
  cases db.session? executionId with
  | none => simp
  | some row =>
    rw [Atomic.pure_eq_ok, Option.some.injEq, @eq_comm _ row]

/-! ## Output -/

/-- The database after a block is stored. -/
def appendedDatabase (draw : Draw) (executionId : String) (stream : ActionIoStream)
    (session : ActionIoSession) (bytes : List UInt8) (payload : ActionIoEncryptedPayload)
    (db : ActionIoJournalDatabase) : ActionIoJournalDatabase :=
  { db with
    payloads := db.payloads ++
      [DriftActionIoJournal.payloadRow draw.payloadId executionId payload bytes.length]
    events := db.events ++ [outputRow executionId session.nextEventSequence stream
      (streamBytes session stream) draw.payloadId] }.updateSession
        executionId (appended session stream bytes.length)

theorem appendPrefix_ok {draw : Draw} {executionId : String} {stream : ActionIoStream}
    {owned : List UInt8} {event : ActionIoEvent}
    (h : appendPrefix services draw executionId stream owned db = .ok (event, db')) :
    ∃ s payload, db.session? executionId = some s ∧ isCapturing s = true ∧
      s.outputExpired = false ∧ 0 < remaining s ∧
      s.nextEventSequence + ActionIoLimits.terminalEventReserve ≤ ActionIoLimits.executionEvents ∧
      db.FreshPayload draw.payloadId ∧
      services.cipher.encrypt draw.random (fitting s owned)
        (ActionIoPayloadCipher.context executionId stream.name "" s.nextEventSequence
          (streamBytes s stream)) = .ok payload ∧
      event = .output s.nextEventSequence stream (streamBytes s stream) (fitting s owned) ∧
      db' = appendedDatabase draw executionId stream s (fitting s owned) payload db := by
  rw [appendPrefix] at h
  obtain ⟨s, db₁, hfound, h₁⟩ := Atomic.bind_eq_ok.mp h
  obtain ⟨hsession, rfl⟩ := session_eq_ok.mp hfound
  obtain ⟨hcapturing, h₂⟩ := Atomic.require_bind.mp h₁
  obtain ⟨hlimits, h₃⟩ := Atomic.require_bind.mp h₂
  obtain ⟨_, -, h₄⟩ := Atomic.ofExcept_bind.mp h₃
  obtain ⟨_, db₂, hbudget, h₅⟩ := Atomic.bind_eq_ok.mp h₄
  obtain rfl := requireCapacity_ok hbudget
  obtain ⟨payload, hencrypt, h₆⟩ := Atomic.ofExcept_bind.mp h₅
  obtain ⟨_, db₃, hpayload, h₇⟩ := Atomic.bind_eq_ok.mp h₆
  obtain ⟨hfresh, rfl⟩ := insertPayload_ok hpayload
  obtain ⟨_, db₄, hevent, h₈⟩ := Atomic.bind_eq_ok.mp h₇
  obtain rfl := insertEvent_ok hevent
  have h₉ := Atomic.modify_bind.mp h₈
  obtain ⟨hresult, hdb⟩ := Atomic.pure_eq_ok.mp h₉
  simp only [not_or, not_le, gt_iff_lt, not_lt] at hlimits
  refine ⟨s, payload, hsession, hcapturing.1, hcapturing.2, hlimits.1, ?_, hfresh, hencrypt,
    hresult, hdb⟩
  have := hlimits.2
  omega

/-! ## The end of an execution -/

/-- The rows of the end of an execution. -/
def terminalRows (executionId : String) (sequence : Int) (outcome : Outcome) :
    List ActionIoEventRow :=
  if outcome.processTerminated then
    [exitedRow executionId sequence outcome.exitCode,
      completedRow executionId (sequence + 1) outcome]
  else [completedRow executionId sequence outcome]

/-- The database after the end of an execution. -/
def finishedDatabase (executionId : String) (session : ActionIoSession) (outcome : Outcome)
    (now : Int) (db : ActionIoJournalDatabase) : ActionIoJournalDatabase :=
  { DriftActionIoJournal.abandonMessages db executionId "ACTION_STDIN_CLOSED" with
    events := db.events ++ terminalRows executionId session.nextEventSequence outcome
      }.updateSession executionId
        (finished session outcome (session.nextEventSequence +
          (terminalRows executionId session.nextEventSequence outcome).length) now)

theorem finish_ok {executionId : String} {outcome : Outcome} {now : Int} {u : Unit}
    (h : finish executionId outcome now db = .ok (u, db')) :
    ∃ s, db.session? executionId = some s ∧ isCapturing s = true ∧
      (outcome.complete = true → outcome.processTerminated = true) ∧
      db' = finishedDatabase executionId s outcome now db := by
  rw [finish] at h
  obtain ⟨s, db₁, hfound, h₁⟩ := Atomic.bind_eq_ok.mp h
  obtain ⟨hsession, rfl⟩ := session_eq_ok.mp hfound
  obtain ⟨hcapturing, h₂⟩ := Atomic.require_bind.mp h₁
  obtain ⟨hvalid, h₃⟩ := Atomic.require_bind.mp h₂
  have h₄ := Atomic.modify_bind.mp h₃
  obtain ⟨sequence, db₂, hexited, h₅⟩ := Atomic.bind_eq_ok.mp h₄
  obtain ⟨_, db₃, hcompleted, h₆⟩ := Atomic.bind_eq_ok.mp h₅
  obtain rfl := insertEvent_ok hcompleted
  have hdb := Atomic.modify_eq_ok.mp h₆
  refine ⟨s, hsession, hcapturing, ?_, ?_⟩
  · intro hcomplete
    by_contra hterminated
    exact hvalid (.inr ⟨hcomplete, by simpa using hterminated⟩)
  · rw [insertExited] at hexited
    split_ifs at hexited with hterminated
    · obtain ⟨_, db₄, hevent, h₇⟩ := Atomic.bind_eq_ok.mp hexited
      obtain rfl := insertEvent_ok hevent
      obtain ⟨rfl, rfl⟩ := Atomic.pure_eq_ok.mp h₇
      rw [hdb, finishedDatabase, terminalRows, if_pos hterminated]
      simp only [List.append_assoc, List.cons_append, List.nil_append, List.length_cons,
        List.length_nil, Int.add_assoc, DriftActionIoJournal.abandonMessages, updateMessagesIn]
      rfl
    · obtain ⟨rfl, rfl⟩ := Atomic.pure_eq_ok.mp hexited
      rw [hdb, finishedDatabase, terminalRows, if_neg hterminated]
      rfl

theorem finish_failureCode {executionId : String} {outcome : Outcome} {now : Int} {u : Unit}
    (h : finish executionId outcome now db = .ok (u, db')) (hcomplete : outcome.complete = false) :
    outcome.failureCode.getD "" ≠ "" := by
  rw [finish] at h
  obtain ⟨s, db₁, hfound, h₁⟩ := Atomic.bind_eq_ok.mp h
  obtain ⟨-, h₂⟩ := Atomic.require_bind.mp h₁
  obtain ⟨hvalid, -⟩ := Atomic.require_bind.mp h₂
  intro hempty
  exact hvalid (.inl ⟨hcomplete, hempty⟩)

theorem cancelQueued_ok {executionId clientId : String} {now : Int} {cancelled : Bool}
    (h : cancelQueued executionId clientId now db = .ok (cancelled, db')) :
    db' = db ∧ cancelled = false ∨ cancelled = true ∧
      ∃ s, db.session? executionId = some s ∧ s.processState = .queued ∧
        finish executionId
          { exitCode := none, complete := true, failureCode := some "ACTION_CANCELLED" } now db =
            .ok ((), db') := by
  rw [cancelQueued] at h
  obtain ⟨s, db₁, hfound, h₁⟩ := Atomic.bind_eq_ok.mp h
  obtain ⟨hsession, rfl⟩ := session_eq_ok.mp hfound
  obtain ⟨-, h₂⟩ := Atomic.require_bind.mp h₁
  split_ifs at h₂ with hqueued
  · obtain ⟨hresult, hdb⟩ := Atomic.pure_eq_ok.mp h₂
    exact .inl ⟨hdb, hresult⟩
  · obtain ⟨_, db₂, hfinish, h₃⟩ := Atomic.bind_eq_ok.mp h₂
    obtain ⟨hresult, rfl⟩ := Atomic.pure_eq_ok.mp h₃
    exact .inr ⟨hresult, s, hsession, not_not.mp hqueued, hfinish⟩

end ActionIoOutputJournal

end PlugAgente.ActionIo
