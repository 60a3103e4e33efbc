import PlugAgente.ActionIo.InputQueue

/-!
# The lifecycle of an execution

What the moves of an execution say of whole runs of the journal.

* `launched_once`: a key of deduplication is launched at most once, whatever crashes and
  reconciliations come between.
* `ended_stays`: of an execution that has ended nothing changes any more, but that its output
  expires.
* `tables_refine`: the tables stay linked, and every step is a series of moves of each execution.
-/

namespace PlugAgente.ActionIo

open ActionIoJournalDatabase DriftActionIoJournal ActionIoOutputJournal

namespace Execution

variable {services : JournalServices} {v w : Execution}

/-- An execution that was started is queued no more. -/
def Launched (v : Execution) : Prop :=
  v.started = true → v.session.processState ≠ .queued

theorem Launched.born (h : Born v) : Launched v := by
  obtain ⟨intent, fingerprint, rfl⟩ := h
  intro hstarted
  cases hstarted

theorem Launched.move (h : Launched v) (hmove : Move services v w) : Launched w := by
  cases hmove with
  | starting => exact fun _ => by simp [transitioned]
  | running => exact fun _ => by simp [transitioned]
  | interrupted => exact fun _ => by simp [interruptedSession]
  | finished outcome =>
    intro _
    show (if outcome.processTerminated then ProcessState.finished else .unknown) ≠ _
    split_ifs <;> simp
  | admitted | handed | delivered | appended | expired => exact h

/-- An execution that has ended: its input is closed, its streams are, and no message waits. -/
structure Ended (v : Execution) : Prop where
  state : v.session.processState = .finished
  terminal : v.session.terminalAt ≠ none
  captured : isCapturing v.session = false
  idle : ∀ m ∈ v.messages, isPending m = false

/-- An execution whose process is known to have ended has ended. -/
def EndKept (v : Execution) : Prop :=
  v.session.processState = .finished → Ended v

theorem EndKept.born (h : Born v) : EndKept v := by
  obtain ⟨intent, fingerprint, rfl⟩ := h
  intro hstate
  cases hstate

theorem Ended.move_cases (h : Ended v) (hmove : Move services v w) :
    ∃ contents, w = { v with
      session := { v.session with outputExpired := true }, contents := contents } := by
  cases hmove with
  | admitted m hadmissible => exact absurd hadmissible.terminal h.terminal
  | starting hqueued => exact absurd (h.state.symm.trans hqueued) (by simp)
  | running hstarting => exact absurd (h.state.symm.trans hstarting) (by simp)
  | handed m hrunning => exact absurd (h.state.symm.trans hrunning) (by simp)
  | delivered m state confirmedBytes failureCode hfound hwriting =>
    have hidle := h.idle m (List.mem_of_find?_eq_some hfound)
    simp [isPending, hwriting] at hidle
  | interrupted hactive => simp [isActive, h.state] at hactive
  | appended stream owned random payloadId payload hcapturing =>
    exact absurd (h.captured.symm.trans hcapturing) (by simp)
  | finished outcome now hcapturing => exact absurd (h.captured.symm.trans hcapturing) (by simp)
  | expired contents => exact ⟨contents, rfl⟩

theorem EndKept.move (h : EndKept v) (hmove : Move services v w) : EndKept w := by
  intro hstate
  by_cases hbefore : v.session.processState = .finished
  · obtain ⟨hend, hterminal, hcaptured, hidle⟩ := h hbefore
    obtain ⟨contents, rfl⟩ := (h hbefore).move_cases hmove
    exact ⟨hend, hterminal, hcaptured, hidle⟩
  · -- Only the end of the process leads there.
    cases hmove with
    | admitted | handed | delivered | appended | expired => exact absurd hstate hbefore
    | starting => cases hstate
    | running => cases hstate
    | interrupted => cases hstate
    | finished outcome now hcapturing hcomplete =>
      have hterminated : outcome.processTerminated = true := by
        by_contra hnot
        have hunknown : (if outcome.processTerminated then ProcessState.finished else .unknown) =
          .finished := hstate
        rw [if_neg hnot] at hunknown
        cases hunknown
      refine ⟨hstate, ?_, ?_, ?_⟩
      · simp [ActionIoOutputJournal.finished, hterminated]
      · simp only [isCapturing, ActionIoOutputJournal.finished]
        split_ifs <;> rfl
      · intro m hm
        obtain ⟨n, -, rfl⟩ := List.mem_map.mp hm
        exact (abandoned_keeps _ n).2.2

theorem Ended.moves (h : Ended v) (hmoves : Moves services v w) :
    w = v ∨ ∃ contents, w = { v with
      session := { v.session with outputExpired := true }, contents := contents } := by
  induction hmoves with
  | refl => exact .inl rfl
  | tail _ hlast ih =>
    rcases ih with rfl | ⟨contents, rfl⟩
    · exact .inr (h.move_cases hlast)
    · have hagain : Ended { v with
          session := { v.session with outputExpired := true }, contents := contents } :=
        ⟨h.state, h.terminal, h.captured, h.idle⟩
      obtain ⟨contents', rfl⟩ := hagain.move_cases hlast
      exact .inr ⟨contents', rfl⟩

end Execution

namespace Journal

open Execution

variable {services : JournalServices} {s s' : Journal}

/-- Only a session that is queued is started. -/
theorem started_step {e : JournalEvent} (hstep : (journal services).step s e = some s') :
    s'.started = s.started ∨ ∃ session id, s.db.session? id = some session ∧
      session.processState = .queued ∧ s'.started = s.started ++ [id] := by
  cases e with
  | markStarting configured executionId =>
    rw [← Option.some.inj hstep]
    show (s.markStarting configured executionId).started = _ ∨ _
    rw [Journal.markStarting]
    rcases Atomic.commit_cases (DriftActionIoJournal.markStarting configured executionId) s.db with
      ⟨u, db', hok, hcommit⟩ | ⟨e, -, hcommit⟩
    · rw [hcommit]
      obtain ⟨session, hsession, hqueued, -⟩ := transitionProcess_ok hok
      exact .inr ⟨session, executionId, hsession, hqueued, rfl⟩
    · rw [hcommit]
      exact .inl rfl
  | beginNextInput executionId =>
    rw [← Option.some.inj hstep]
    show (s.beginNextInput services executionId).started = _ ∨ _
    rw [Journal.beginNextInput]
    split <;> exact .inl rfl
  | append draw executionId stream bytes =>
    rw [← Option.some.inj hstep]
    show (s.append services draw executionId stream bytes).started = _ ∨ _
    rw [Journal.append]
    split
    · exact .inl rfl
    · split <;> exact .inl rfl
  | finish executionId outcome now =>
    rw [← Option.some.inj hstep]
    show (s.finish executionId outcome now).started = _ ∨ _
    rw [Journal.finish]
    split <;> exact .inl rfl
  | cancelQueued executionId clientId now =>
    rw [← Option.some.inj hstep]
    show (s.cancelQueued executionId clientId now).started = _ ∨ _
    rw [Journal.cancelQueued]
    split <;> exact .inl rfl
  | claim | admitInput | markRunning | finishInput | reconcileInterrupted | expire =>
    rw [← Option.some.inj hstep]
    exact .inl rfl

/-! ## Launches -/

theorem started_nodup (h : (journal services).Reachable s) : s.started.Nodup := by
  suffices hall : (journal services).Reachable s ∧ s.started.Nodup from hall.2
  refine h.invariant (I := fun s => (journal services).Reachable s ∧ s.started.Nodup) ?_ ?_
  · intro s hstart
    refine ⟨.start hstart, ?_⟩
    rw [show s = {} from hstart]
    exact List.nodup_nil
  · rintro s e s' ⟨hreach, hnodup⟩ - hstep
    refine ⟨hreach.step trivial hstep, ?_⟩
    rcases started_step hstep with hsame | ⟨session, id, hsession, hqueued, happend⟩
    · rw [hsame]
      exact hnodup
    · have hlaunched : Launched (s.withSession id session) :=
        execution_invariant (fun _ => Launched.born) (fun _ _ => Launched.move) hreach
          (execution_some hsession)
      have hnew : id ∉ s.started := by
        intro hold
        exact hlaunched (List.contains_iff_mem.mpr hold) hqueued
      rw [happend]
      refine List.nodup_append.mpr ⟨hnodup, List.nodup_singleton _, ?_⟩
      rintro a ha b hb rfl
      rw [List.mem_singleton.mp hb] at ha
      exact hnew ha

/-- The key of an execution. -/
def keyOf (s : Journal) (id : String) : Option SessionKey :=
  (s.db.session? id).map (·.key)

/-- Whatever is claimed again, interrupted and reconciled: what was started has a session that is
queued no more, and no two launches are for the same key. -/
theorem launched_once (h : (journal services).Reachable s) :
    (s.started.map s.keyOf).Nodup ∧ ∀ id ∈ s.started, ∃ session,
      s.db.session? id = some session ∧ session.processState ≠ .queued := by
  have hsound := sound_of_reachable h
  have hsession : ∀ id ∈ s.started, ∃ session, s.db.session? id = some session :=
    fun id hid => Option.ne_none_iff_exists'.mp (hsound.started id hid)
  constructor
  · refine (started_nodup h).map_on ?_
    intro a ha b hb hkeys
    obtain ⟨first, hfirst⟩ := hsession a ha
    obtain ⟨second, hsecond⟩ := hsession b hb
    rw [keyOf, keyOf, hfirst, hsecond] at hkeys
    obtain ⟨hmem, hid⟩ := session?_some hfirst
    obtain ⟨hmem', hid'⟩ := session?_some hsecond
    have hsame := List.inj_on_of_nodup_map hsound.linked.keys hmem hmem' (Option.some.inj hkeys)
    rw [← hid, ← hid', hsame]
  · intro id hid
    obtain ⟨session, hfound⟩ := hsession id hid
    have hlaunched : Launched (s.withSession id session) :=
      execution_invariant (fun _ => Launched.born) (fun _ _ => Launched.move) h
        (execution_some hfound)
    exact ⟨session, hfound, hlaunched (List.contains_iff_mem.mpr hid)⟩

/-- The agent stops while the process runs; after the restart the request comes once more. -/
def relaunchRun : List JournalEvent :=
  [.claim sampleDraws sampleIntent none, .markStarting 1 "execution", .reconcileInterrupted,
    .claim sampleDraws sampleIntent none, .markStarting 1 "execution"]

def relaunched : Journal :=
  ((journal plainServices).run {} relaunchRun).getD {}

theorem launched_once_relaunched :
    relaunched.started = ["execution"] ∧ (relaunched.started.map relaunched.keyOf).Nodup := by
  have hrun : (journal plainServices).run {} relaunchRun = some relaunched := rfl
  exact ⟨by decide +kernel, (launched_once (Machine.reachable_of_run rfl hrun)).1⟩

/-! ## Ends -/

/-- An execution whose process has ended takes nothing more, and whatever steps follow it is
found as it is, until its output expires: then that and the payloads of its events are all that
changes. -/
theorem ended_stays (h : (journal services).Reachable s) {id : String} {v : Execution}
    (hv : s.execution id = some v) (hstate : v.session.processState = .finished) {t : Journal}
    (hleads : (journal services).Leads s t) :
    Ended v ∧ (t.execution id = some v ∨ ∃ contents, t.execution id = some { v with
      session := { v.session with outputExpired := true }, contents := contents }) := by
  have hkept : EndKept v :=
    execution_invariant (fun _ => EndKept.born) (fun _ _ => EndKept.move) h hv
  have hended := hkept hstate
  obtain ⟨w, hw, hmoves⟩ := execution_later hleads (sound_of_reachable h) hv
  refine ⟨hended, ?_⟩
  rcases hended.moves hmoves with rfl | ⟨contents, rfl⟩
  · exact .inl hw
  · exact .inr ⟨contents, hw⟩

/-- The retention passes long after the end. -/
def expiredJournal : Journal :=
  { endedJournal with db := ActionIoJournalRetention.expire 1000000000000 endedJournal.db }

theorem ended_stays_expired :
    ∃ v, endedJournal.execution "execution" = some v ∧ v.messages.length = 2 ∧ Ended v ∧
      (expiredJournal.execution "execution" = some v ∨
        ∃ contents, expiredJournal.execution "execution" = some { v with
          session := { v.session with outputExpired := true }, contents := contents }) := by
  have hfound : ∃ session, endedJournal.db.session? "execution" = some session ∧
      session.processState = .finished := by
    have hsome : ((endedJournal.db.session? "execution").map (·.processState)) =
      some .finished := by decide +kernel
    exact Option.map_eq_some_iff.mp hsome
  obtain ⟨session, hsession, hstate⟩ := hfound
  have hlength : (endedJournal.db.messagesOf "execution").length = 2 := by decide +kernel
  have hleads : (journal plainServices).Leads endedJournal expiredJournal :=
    .step .refl (a := .expire 1000000000000) rfl
  exact ⟨_, execution_some hsession, hlength,
    ended_stays reachable_ended (execution_some hsession) hstate hleads⟩

/-! ## Refinement -/

/-- The tables refine the executions: in every state that is reached they are linked, and a
transaction, accepted or refused, does to each execution a series of its moves. -/
theorem tables_refine (h : (journal services).Reachable s) (e : JournalEvent)
    (hstep : (journal services).step s e = some s') :
    s.db.Linked ∧ s'.db.Linked ∧ ∀ id, Evolves services (s.execution id) (s'.execution id) := by
  have hsound := sound_of_reachable h
  obtain ⟨hsound', hevolves⟩ := simulates_step hstep hsound
  exact ⟨hsound.linked, hsound'.linked, hevolves⟩

theorem tables_refine_expired :
    expiredJournal.db.Linked ∧
      Evolves plainServices (endedJournal.execution "execution")
        (expiredJournal.execution "execution") := by
  obtain ⟨-, hlinked, hevolves⟩ := tables_refine reachable_ended (.expire 1000000000000) rfl
  exact ⟨hlinked, hevolves "execution"⟩

end Journal

end PlugAgente.ActionIo
