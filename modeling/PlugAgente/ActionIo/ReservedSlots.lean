import PlugAgente.ActionIo.Simulation

/-!
# The slots of the executions

A session counts against the limit by the state of its process, and `unknown` counts because a
restart cannot prove that the process tree has stopped.  The reconciliation makes every session
`unknown` that has not ended, also one that is only queued, for which there never was a process:
its slot is never given back.

`SparesQueued` are the steps that do not do so.  In a run of such steps only sessions that were
started count.
-/

namespace PlugAgente.ActionIo

open ActionIoJournalDatabase DriftActionIoJournal ActionIoOutputJournal ActionIoJournalRetention

/-- A step that does not give up on a session that is queued: a reconciliation when none is, or
an end of it that is confirmed (or refused for its arguments). -/
def SparesQueued (s : Journal) : JournalEvent → Prop
  | .reconcileInterrupted => ∀ session ∈ s.db.sessions, session.processState ≠ .queued
  | .finish executionId outcome _ =>
    outcome.processTerminated = true ∨ outcome.complete = true ∨
      outcome.failureCode.getD "" = "" ∨
      ∀ session ∈ s.db.sessions, session.executionId = executionId →
        session.processState ≠ .queued
  | _ => True

/-- Why a session may count: it was started.  One that is captured has not ended. -/
structure SlotOf (started : List String) (session : ActionIoSession) : Prop where
  reserved : isReserved session = true → session.executionId ∈ started
  capturing : isCapturing session = true → session.processState ≠ .finished

def Slots (db : ActionIoJournalDatabase) (started : List String) : Prop :=
  ∀ session ∈ db.sessions, SlotOf started session

variable {services : JournalServices} {s s' : Journal} {db db' : ActionIoJournalDatabase}
  {started : List String}

/-! ## Updates -/

theorem Slots.updateSession (h : Slots db started) {executionId : String}
    {f : ActionIoSession → ActionIoSession}
    (hf : ∀ row ∈ db.sessions, row.executionId = executionId → SlotOf started (f row)) :
    Slots (db.updateSession executionId f) started := by
  intro session hsession
  obtain ⟨old, hold, heq⟩ := Rows.mem_write.mp hsession
  rw [← heq]
  split_ifs with hid
  · exact hf old hold (by simpa using hid)
  · exact h old hold

theorem Slots.update_same (h : Slots db started) {executionId : String}
    {f : ActionIoSession → ActionIoSession} (hid : ∀ row, (f row).executionId = row.executionId)
    (hprocess : ∀ row, (f row).processState = row.processState)
    (hcapture : ∀ row, (f row).captureState = row.captureState) :
    Slots (db.updateSession executionId f) started := by
  apply h.updateSession
  intro row hrow _
  have hslot := h row hrow
  constructor
  · rw [isReserved, hprocess, hid]
    exact hslot.reserved
  · rw [isCapturing, hcapture, hprocess]
    exact hslot.capturing

theorem Slots.mono (h : Slots db started) {executionId : String} :
    Slots db (started ++ [executionId]) := by
  intro session hsession
  have hslot := h session hsession
  exact ⟨fun hreserved => List.mem_append_left _ (hslot.reserved hreserved), hslot.capturing⟩

/-! ## Transactions -/

theorem Slots.admitInput (h : Slots db started) {draw : Draw} {r : InputRequest}
    {a : ActionIoMessageReceipt} (hadmission : admitInput services draw r db = .ok (a, db')) :
    Slots db' started := by
  cases (admitInput_ok hadmission).2 with
  | known session previous hsession hprevious hfingerprint hdb hresult =>
    rw [hdb]
    exact h
  | fresh session payload hsession hunknown hadmissible hpayload hmessage hdb hresult =>
    rw [hdb]
    have hinserted : Slots { db with
        payloads := db.payloads ++
          [payloadRow draw.payloadId r.executionId payload r.ownedBytes.length]
        messages := db.messages ++ [admittedMessage r
          (messageFingerprint services r.sequence r.close r.ownedBytes) draw.payloadId] }
        started := h
    exact hinserted.update_same (fun _ => rfl) (fun _ => rfl) (fun _ => rfl)

theorem Slots.claim (h : Slots db started) {draws : ClaimDraws} {intent : ActionIoSessionIntent}
    {io : Option ActionIoConfiguration} {c : ActionIoSessionClaim}
    (hclaim : claim services draws intent io db = .ok (c, db')) : Slots db' started := by
  cases claim_ok hclaim with
  | known existing fingerprint hintent hexisting hfingerprint hdb hresult =>
    rw [hdb]
    exact h
  | fresh fingerprint db₁ hintent hunknown hfresh hinitial hclose hresult =>
    have hinserted : Slots { db with
        sessions := db.sessions ++ [claimedSession intent fingerprint] } started := by
      intro session hsession
      rcases List.mem_append.mp hsession with hold | hnew
      · exact h session hold
      · rw [List.mem_singleton.mp hnew]
        exact ⟨fun hreserved => by simp [isReserved, claimedSession] at hreserved,
          fun _ => by simp [claimedSession]⟩
    have hfirst : Slots db₁ started := by
      rcases admitInitial_ok hinitial with heq | ⟨r, a, -, hadmission⟩
      · rw [heq]
        exact hinserted
      · exact hinserted.admitInput hadmission
    rcases admitClose_ok hclose with heq | ⟨r, a, -, hadmission⟩
    · rw [heq]
      exact hfirst
    · exact hfirst.admitInput hadmission

theorem Slots.transitionProcess (h : Slots db started) {configured : Int} {executionId : String}
    {before after : ProcessState} {u : Unit}
    (htransition : transitionProcess configured executionId before after db = .ok (u, db'))
    (hafter : after ≠ .finished) (hstarted : executionId ∈ started) : Slots db' started := by
  obtain ⟨session, -, -, hdb⟩ := transitionProcess_ok htransition
  rw [hdb]
  apply h.updateSession
  intro row hrow hid
  constructor
  · intro _
    show row.executionId ∈ started
    rw [hid]
    exact hstarted
  · intro _
    exact hafter

theorem Slots.interrupts (rest : List ActionIoSession)
    (hrest : ∀ t ∈ rest, t.executionId ∈ started) (h : Slots db started) :
    Slots (rest.foldl interrupt db) started := by
  induction rest generalizing db with
  | nil => exact h
  | cons t rest ih =>
    apply ih fun u hu => hrest u (List.mem_cons_of_mem _ hu)
    have habandoned : Slots (abandonMessages db t.executionId "ACTION_IO_INTERRUPTED") started := h
    apply habandoned.updateSession
    intro row _ hid
    constructor
    · intro _
      show row.executionId ∈ started
      rw [hid]
      exact hrest t List.mem_cons_self
    · intro _
      simp [interruptedSession]

theorem Slots.finish (h : Slots db started) {executionId : String}
    {outcome : Outcome} {now : Int} {u : Unit}
    (hfinish : finish executionId outcome now db = .ok (u, db'))
    (hspares : outcome.processTerminated = true ∨
      ∀ session ∈ db.sessions, session.executionId = executionId →
        session.processState ≠ .queued) : Slots db' started := by
  obtain ⟨session, hfound, hcapturing, -, hdb⟩ := finish_ok hfinish
  obtain ⟨hmem, hid⟩ := session?_some hfound
  rw [hdb, finishedDatabase]
  have habandoned : Slots { abandonMessages db executionId "ACTION_STDIN_CLOSED" with
      events := db.events ++ terminalRows executionId session.nextEventSequence outcome } started := h
  apply habandoned.updateSession
  intro row hrow hrowId
  have hended : isCapturing (finished session outcome (session.nextEventSequence +
      (terminalRows executionId session.nextEventSequence outcome).length) now row) = false := by
    simp only [isCapturing, finished]
    split_ifs <;> rfl
  refine ⟨?_, fun hcaptured => by rw [hended] at hcaptured; cases hcaptured⟩
  intro hreserved
  show row.executionId ∈ started
  rw [hrowId, ← hid]
  -- Without a confirmed end the session was started, since it is neither queued nor finished.
  rcases hspares with hterminated | hnot
  · simp [isReserved, finished, hterminated] at hreserved
  · have hfinished := (h session hmem).capturing hcapturing
    have hqueued := hnot session hmem hid
    apply (h session hmem).reserved
    rw [isReserved]
    revert hfinished hqueued
    cases session.processState <;> simp

theorem Slots.expires (now : Int) (rest : List ActionIoSession) (h : Slots db started) :
    Slots (rest.foldl (expireSession now) db) started := by
  induction rest generalizing db with
  | nil => exact h
  | cons t rest ih =>
    apply ih
    have houtput : Slots (expireOutput now db t) started := by
      rw [expireOutput]
      split_ifs
      · have herased : Slots (erase db (((db.eventsOf t.executionId).filter
            (·.eventType = .output)).map (·.payloadId))) started := h
        exact herased.update_same (fun _ => rfl) (fun _ => rfl) (fun _ => rfl)
      · exact h
    rw [expireSession, expireInput]
    split_ifs
    · exact houtput
    · exact houtput

/-! ## Runs -/

namespace Journal

theorem slots_commit {α : Type} {t : Transaction α} (h : Slots s.db started)
    (hok : ∀ a db', t s.db = .ok (a, db') → Slots db' started) :
    Slots (Atomic.commit t s.db).2 started := by
  rcases Atomic.commit_cases t s.db with ⟨a, db', hended, hcommit⟩ | ⟨e, -, hcommit⟩
  · rw [hcommit]
    exact hok a db' hended
  · rw [hcommit]
    exact h

theorem slots_markStarting (h : Slots s.db s.started) (configured : Int) (executionId : String) :
    Slots (s.markStarting configured executionId).db
      (s.markStarting configured executionId).started := by
  rw [Journal.markStarting]
  rcases Atomic.commit_cases (DriftActionIoJournal.markStarting configured executionId) s.db with
    ⟨u, db', hok, hcommit⟩ | ⟨e, -, hcommit⟩
  · rw [hcommit]
    exact h.mono.transitionProcess hok (by simp) (by simp)
  · rw [hcommit]
    exact h

theorem slots_markRunning (h : Slots s.db s.started) {configured : Int} {executionId : String}
    {u : Unit} {db' : ActionIoJournalDatabase}
    (hrunning : DriftActionIoJournal.markRunning configured executionId s.db = .ok (u, db')) :
    Slots db' s.started := by
  obtain ⟨session, hfound, hstarting, -⟩ := transitionProcess_ok hrunning
  obtain ⟨hmem, hid⟩ := session?_some hfound
  apply h.transitionProcess hrunning (by simp)
  rw [← hid]
  exact (h session hmem).reserved (by simp [isReserved, hstarting])

variable (services) in
theorem slots_append (h : Slots s.db s.started) (draw : Draw) (executionId : String)
    (stream : ActionIoStream) (bytes : List Int) :
    Slots (ActionIoOutputJournal.append services draw executionId stream bytes s.db).2
      s.started := by
  cases hvalid : isInvalidBlock bytes with
  | true =>
    rw [ActionIoOutputJournal.append, hvalid]
    exact h
  | false =>
    rw [append_snd hvalid]
    apply slots_commit h
    intro event db' hok
    obtain ⟨session, payload, -, -, -, -, -, -, -, -, hdb⟩ := appendPrefix_ok hok
    rw [hdb]
    have hinserted : Slots { s.db with
        payloads := s.db.payloads ++ [payloadRow draw.payloadId executionId payload
          (fitting session (Dart.uint8List bytes)).length]
        events := s.db.events ++ [outputRow executionId session.nextEventSequence stream
          (streamBytes session stream) draw.payloadId] } s.started := h
    exact hinserted.update_same (fun _ => rfl) (fun _ => rfl) (fun _ => rfl)

theorem slots_finish (h : Slots s.db s.started) {executionId : String} {outcome : Outcome}
    {now : Int} (hspares : SparesQueued s (.finish executionId outcome now)) :
    Slots (s.finish executionId outcome now).db s.started := by
  rw [Journal.finish]
  rcases Atomic.commit_cases (ActionIoOutputJournal.finish executionId outcome now) s.db with
    ⟨u, db', hok, hcommit⟩ | ⟨e, -, hcommit⟩
  · rw [hcommit]
    apply h.finish hok
    obtain ⟨session, -, -, hcomplete, -⟩ := finish_ok hok
    rcases hspares with hterminated | hdone | hempty | hnot
    · exact .inl hterminated
    · exact .inl (hcomplete hdone)
    · cases hcase : outcome.complete with
      | true => exact .inl (hcomplete hcase)
      | false => exact absurd hempty (finish_failureCode hok hcase)
    · exact .inr hnot
  · rw [hcommit]
    exact h

theorem slots_cancelQueued (h : Slots s.db s.started) (executionId clientId : String) (now : Int) :
    Slots (s.cancelQueued executionId clientId now).db s.started := by
  rw [Journal.cancelQueued]
  rcases Atomic.commit_cases (ActionIoOutputJournal.cancelQueued executionId clientId now) s.db with
    ⟨cancelled, db', hok, hcommit⟩ | ⟨e, -, hcommit⟩
  · rw [hcommit]
    rcases cancelQueued_ok hok with ⟨hdb, hfalse⟩ | ⟨htrue, session, -, -, hfinish⟩
    · rw [hdb, hfalse]
      exact h
    · rw [htrue]
      exact h.finish hfinish (.inl rfl)
  · rw [hcommit]
    exact h

theorem slots_step {e : JournalEvent} (h : Slots s.db s.started) (hspares : SparesQueued s e)
    (hstep : (journal services).step s e = some s') : Slots s'.db s'.started := by
  cases e with
  | claim draws intent io =>
    rw [← Option.some.inj hstep]
    exact slots_commit h fun _ _ hok => h.claim hok
  | admitInput draw request =>
    rw [← Option.some.inj hstep]
    exact slots_commit h fun _ _ hok => h.admitInput hok
  | markStarting configured executionId =>
    rw [← Option.some.inj hstep]
    exact slots_markStarting h configured executionId
  | markRunning configured executionId =>
    rw [← Option.some.inj hstep]
    exact slots_commit h fun _ _ hok => slots_markRunning h hok
  | beginNextInput executionId =>
    rw [← Option.some.inj hstep]
    show Slots (s.beginNextInput services executionId).db (s.beginNextInput services executionId).started
    rw [Journal.beginNextInput]
    rcases Atomic.commit_cases (DriftActionIoJournal.beginNextInput services executionId) s.db with
      ⟨input, db', hok, hcommit⟩ | ⟨e, -, hcommit⟩
    · rw [hcommit]
      cases beginNextInput_ok hok with
      | nothing hdb hinput =>
        rw [hdb, hinput]
        exact h
      | handed session next bytes _ _ _ _ _ hdb hinput =>
        rw [hdb, hinput]
        exact h
    · rw [hcommit]
      exact h
  | finishInput executionId messageId state confirmedBytes failureCode =>
    rw [← Option.some.inj hstep]
    apply slots_commit h
    intro a db' hok
    rcases finishInput_ok hok with hdb | ⟨session, message, -, -, -, -, hdb⟩
    · rw [hdb]
      exact h
    · have hwritten : Slots (s.db.updateMessage executionId messageId
          (withOutcome state confirmedBytes failureCode)) s.started := h
      rw [hdb]
      exact hwritten.update_same (fun _ => rfl) (fun _ => rfl) (fun _ => rfl)
  | reconcileInterrupted =>
    rw [← Option.some.inj hstep]
    apply slots_commit h
    intro n db' hok
    rw [reconcileInterrupted_ok hok]
    apply h.interrupts
    intro t ht
    obtain ⟨hmem, hactive⟩ := List.mem_filter.mp ht
    -- It is active and not queued, so it counts already.
    apply (h t hmem).reserved
    have hnot := hspares t hmem
    revert hactive hnot
    rw [isActive, isReserved]
    cases t.processState <;> simp
  | append draw executionId stream bytes =>
    rw [← Option.some.inj hstep]
    have hkept := slots_append services h draw executionId stream bytes
    show Slots (s.append services draw executionId stream bytes).db
      (s.append services draw executionId stream bytes).started
    rw [Journal.append]
    split
    · exact hkept
    · split
      · exact hkept
      · exact hkept
  | finish executionId outcome now =>
    rw [← Option.some.inj hstep]
    have hkept := slots_finish h hspares
    show Slots (s.finish executionId outcome now).db (s.finish executionId outcome now).started
    have hsame : (s.finish executionId outcome now).started = s.started := by
      rw [Journal.finish]
      split <;> rfl
    rw [hsame]
    exact hkept
  | cancelQueued executionId clientId now =>
    rw [← Option.some.inj hstep]
    have hkept := slots_cancelQueued h executionId clientId now
    show Slots (s.cancelQueued executionId clientId now).db
      (s.cancelQueued executionId clientId now).started
    have hsame : (s.cancelQueued executionId clientId now).started = s.started := by
      rw [Journal.cancelQueued]
      split <;> rfl
    rw [hsame]
    exact hkept
  | expire now =>
    rw [← Option.some.inj hstep]
    exact Slots.expires now _ h

theorem slots_of_reach (h : (journal services).Reach SparesQueued s) : Slots s.db s.started := by
  refine h.invariant ?_ fun s e s' hs hspares hstep => slots_step hs hspares hstep
  intro s hstart
  rw [show s = {} from hstart]
  intro session hsession
  cases hsession

/-! ## What counts -/

/-- Sessions that never started do not count, and when all that did have ended, no slot is
taken and a session that is queued is let through. -/
def SlotsReleased (s : Journal) : Prop :=
  (∀ session ∈ s.db.sessions, session.executionId ∉ s.started → isReserved session = false) ∧
    ((∀ session ∈ s.db.sessions, session.executionId ∈ s.started →
        session.processState = .finished) →
      reserved s.db = 0 ∧ ∀ configured : Int, 1 ≤ configured → ∀ session ∈ s.db.sessions,
        session.processState = .queued →
          (Atomic.commit (DriftActionIoJournal.markStarting configured session.executionId)
            s.db).1 = .ok ())

theorem markStarting_queued {session : ActionIoSession} {configured : Int}
    (hfound : s.db.session? session.executionId = some session)
    (hqueued : session.processState = .queued) (hreserved : reserved s.db = 0)
    (hconfigured : 1 ≤ configured) :
    (Atomic.commit (DriftActionIoJournal.markStarting configured session.executionId) s.db).1 =
      .ok () := by
  have hslot : reserveFor configured .starting s.db = .ok ((), s.db) := by
    apply reserveSlot_eq_ok.mpr
    rw [hreserved, ActionIoLimits.concurrentExecutions]
    refine ⟨?_, rfl⟩
    omega
  have hok : DriftActionIoJournal.markStarting configured session.executionId s.db =
      .ok ((), s.db.updateSession session.executionId (transitioned session .starting)) := by
    rw [DriftActionIoJournal.markStarting, DriftActionIoJournal.transitionProcess,
      Atomic.bind_of_ok (DriftActionIoJournal.session_eq_ok.mpr ⟨hfound, rfl⟩),
      Atomic.bind_of_ok (Atomic.require_of hqueued _ _), Atomic.bind_of_ok hslot]
    rfl
  rw [Atomic.commit_of_ok hok]

/-- In a run that gives up on no session that is queued, the slots of what never started and of
what has ended are free. -/
theorem slots_released (h : (journal services).Reach SparesQueued s) : SlotsReleased s := by
  have hslots := slots_of_reach h
  have hsound := sound_of_reachable h.reachable
  have hnever : ∀ session ∈ s.db.sessions, session.executionId ∉ s.started →
      isReserved session = false := by
    intro session hsession hnot
    by_contra hreserved
    exact hnot ((hslots session hsession).reserved (by simpa using hreserved))
  refine ⟨hnever, ?_⟩
  intro hended
  have hreserved : reserved s.db = 0 := by
    apply List.countP_eq_zero.mpr
    intro session hsession hcounts
    have hstarted := (hslots session hsession).reserved hcounts
    have hfinished := hended session hsession hstarted
    simp [isReserved, hfinished] at hcounts
  refine ⟨hreserved, ?_⟩
  intro configured hconfigured session hsession hqueued
  exact markStarting_queued (hsound.linked.session?_mem hsession) hqueued hreserved hconfigured

def secondIntent : ActionIoSessionIntent where
  executionId := "second"
  key := ⟨"installation", "agent", "client", "action", "second"⟩
  fingerprint := "fingerprint"

/-- A session runs and ends before another is claimed. -/
def endedFirstRun : List JournalEvent :=
  [.claim sampleDraws sampleIntent none, .markStarting 1 "execution",
    .finish "execution" { exitCode := some 0, complete := true, failureCode := none } 5,
    .claim sampleDraws secondIntent none]

def endedFirst : Journal :=
  ((journal plainServices).run {} endedFirstRun).getD {}

theorem slots_released_endedFirst :
    reserved endedFirst.db = 0 ∧
      (Atomic.commit (DriftActionIoJournal.markStarting 1 "second") endedFirst.db).1 = .ok () := by
  have hrun : (journal plainServices).run {} endedFirstRun = some endedFirst := rfl
  have hreach : (journal plainServices).Reach SparesQueued endedFirst := by
    refine Machine.reach_of_run rfl ?_ hrun
    intro s e he
    simp only [endedFirstRun, List.mem_cons, List.not_mem_nil, or_false] at he
    rcases he with rfl | rfl | rfl | rfl
    · trivial
    · trivial
    · exact .inl rfl
    · trivial
  have hended : ∀ session ∈ endedFirst.db.sessions, session.executionId ∈ endedFirst.started →
      session.processState = .finished := by
    decide +kernel
  obtain ⟨hreserved, hstart⟩ := (slots_released hreach).2 hended
  refine ⟨hreserved, ?_⟩
  have hqueued : ∃ session ∈ endedFirst.db.sessions, session.processState = .queued ∧
      session.executionId = "second" := by
    decide +kernel
  obtain ⟨session, hsession, hstate, hid⟩ := hqueued
  rw [← hid]
  exact hstart 1 (le_refl _) session hsession hstate

/-- The agent stops while a session is queued, and another is claimed after the restart. -/
def interruptedRun : List JournalEvent :=
  [.claim sampleDraws sampleIntent none, .reconcileInterrupted,
    .claim sampleDraws secondIntent none]

def interruptedJournal : Journal :=
  ((journal plainServices).run {} interruptedRun).getD {}

/-- Nothing was ever started, and yet the slot is taken: the second session is refused. -/
theorem slots_not_released :
    ¬ ∀ s, (journal plainServices).Reachable s → SlotsReleased s := by
  intro hall
  have hrun : (journal plainServices).run {} interruptedRun = some interruptedJournal := rfl
  have hreleased := hall _ (Machine.reachable_of_run rfl hrun)
  have hnone : ∀ session ∈ interruptedJournal.db.sessions,
      session.executionId ∉ interruptedJournal.started := by
    decide +kernel
  have htaken : ∃ session ∈ interruptedJournal.db.sessions, isReserved session = true := by
    decide +kernel
  obtain ⟨session, hsession, hcounts⟩ := htaken
  rw [hreleased.1 session hsession (hnone session hsession)] at hcounts
  cases hcounts

example : (Atomic.commit (DriftActionIoJournal.markStarting 1 "second") interruptedJournal.db).1 =
    .error (refusal "ACTION_IO_CONCURRENCY_LIMIT") := by
  decide +kernel

end Journal

end PlugAgente.ActionIo
