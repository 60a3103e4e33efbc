import PlugAgente.ActionIo.Journal

/-!
# The tables as executions

Every step of the journal does to each execution a series of moves (`evolves_of_step`).
`Simulates` says so of one change of the journal, together with what the tables keep between
them, and it is composed: a claim is an insert and up to two admissions, and the
reconciliation and the retention go from session to session.
-/

namespace PlugAgente.ActionIo

open ActionIoJournalDatabase DriftActionIoJournal ActionIoOutputJournal
open Execution (Move Moves Evolves Born)

/-! ## Queries after updates -/

namespace ActionIoJournalDatabase

variable {db : ActionIoJournalDatabase} {executionId id : String}

theorem messagesOf_append_self (m : ActionIoMessage) :
    ({ db with messages := db.messages ++ [m] } : ActionIoJournalDatabase).messagesOf
      m.executionId = db.messagesOf m.executionId ++ [m] := by
  simp [messagesOf, List.filter_append]

theorem messagesOf_append_ne {m : ActionIoMessage} (h : id ≠ m.executionId) :
    ({ db with messages := db.messages ++ [m] } : ActionIoJournalDatabase).messagesOf id =
      db.messagesOf id := by
  simp [messagesOf, List.filter_append, Ne.symm h]

theorem eventsOf_append_self {rows : List ActionIoEventRow}
    (h : ∀ row ∈ rows, row.executionId = executionId) :
    ({ db with events := db.events ++ rows } : ActionIoJournalDatabase).eventsOf executionId =
      db.eventsOf executionId ++ rows := by
  rw [eventsOf, eventsOf]
  dsimp only
  rw [List.filter_append]
  congr 1
  apply List.filter_eq_self.mpr
  intro row hrow
  simp [h row hrow]

theorem eventsOf_append_ne {rows : List ActionIoEventRow}
    (h : ∀ row ∈ rows, row.executionId = executionId) (hne : id ≠ executionId) :
    ({ db with events := db.events ++ rows } : ActionIoJournalDatabase).eventsOf id =
      db.eventsOf id := by
  rw [eventsOf, eventsOf]
  dsimp only
  rw [List.filter_append]
  have hnone : rows.filter (fun e => e.executionId = id) = [] := by
    apply List.filter_eq_nil_iff.mpr
    intro row hrow
    simp [h row hrow, Ne.symm hne]
  rw [hnone, List.append_nil]

theorem filter_write_self {q : ActionIoMessage → Bool} {f : ActionIoMessage → ActionIoMessage}
    (hf : KeepsMessage f) (messages : List ActionIoMessage) :
    (Rows.write (fun m => m.executionId = executionId && q m) f messages).filter
        (fun m => m.executionId = executionId) =
      Rows.write q f (messages.filter fun m => m.executionId = executionId) := by
  rw [Rows.filter_write (fun m => by rw [hf.executionId m])]
  apply Rows.write_congr
  intro m hm
  have hid : m.executionId = executionId := by simpa using (List.mem_filter.mp hm).2
  simp [hid]

theorem filter_write_other {q : ActionIoMessage → Bool} {f : ActionIoMessage → ActionIoMessage}
    (hf : KeepsMessage f) (hne : id ≠ executionId) (messages : List ActionIoMessage) :
    (Rows.write (fun m => m.executionId = executionId && q m) f messages).filter
        (fun m => m.executionId = id) =
      messages.filter fun m => m.executionId = id := by
  apply Rows.filter_write_ne (fun m => by rw [hf.executionId m])
  intro m hm
  have hid : m.executionId = id := by simpa using hm
  simp [hid, hne]

theorem messagesOf_abandoned (failureCode : String) (db : ActionIoJournalDatabase) :
    (abandonMessages db executionId failureCode).messagesOf executionId =
      (db.messagesOf executionId).map (Execution.abandoned failureCode) := by
  rw [messagesOf, abandonMessages, updateMessagesIn, updateMessagesIn]
  dsimp only
  rw [filter_write_self (keeps_withOutcome _ _ _), filter_write_self (keeps_withOutcome _ _ _),
    Rows.write, Rows.write, List.map_map]
  apply List.map_congr_left
  intro m _
  rw [Function.comp_apply, Execution.abandoned]
  cases hstate : m.deliveryState <;> simp [hstate, withOutcome]

theorem messagesOf_abandoned_ne (hne : id ≠ executionId) (failureCode : String)
    (db : ActionIoJournalDatabase) :
    (abandonMessages db executionId failureCode).messagesOf id = db.messagesOf id := by
  rw [messagesOf, abandonMessages, updateMessagesIn, updateMessagesIn]
  dsimp only
  rw [filter_write_other (keeps_withOutcome _ _ _) hne,
    filter_write_other (keeps_withOutcome _ _ _) hne]
  rfl

theorem Linked.abandonMessages (h : Linked db) (executionId failureCode : String) :
    Linked (DriftActionIoJournal.abandonMessages db executionId failureCode) :=
  (h.writeMessages (keeps_withOutcome _ _ _)).writeMessages (keeps_withOutcome _ _ _)

end ActionIoJournalDatabase

/-! ## Simulation -/

namespace Journal

/-- The tables are linked, and the history is about sessions that exist. -/
structure Sound (s : Journal) : Prop where
  linked : s.db.Linked
  started : ∀ id ∈ s.started, s.db.session? id ≠ none
  handed : ∀ entry ∈ s.handed, s.db.session? entry.1 ≠ none
  appended : ∀ entry ∈ s.appended, s.db.session? entry.1 ≠ none

/-- A change keeps the tables sound and does a series of moves to every execution. -/
def Simulates (services : JournalServices) (s s' : Journal) : Prop :=
  s.Sound → s'.Sound ∧ ∀ id, Evolves services (s.execution id) (s'.execution id)

variable {services : JournalServices} {s s' s'' : Journal}

theorem Simulates.refl (s : Journal) : Simulates services s s :=
  fun h => ⟨h, fun _ => Evolves.refl services _⟩

theorem Simulates.trans (h : Simulates services s s') (h' : Simulates services s' s'') :
    Simulates services s s'' := by
  intro hsound
  obtain ⟨hsound', hevolves⟩ := h hsound
  obtain ⟨hsound'', hevolves'⟩ := h' hsound'
  exact ⟨hsound'', fun id => (hevolves id).trans (hevolves' id)⟩

theorem Sound.database (h : s.Sound) {db : ActionIoJournalDatabase} (hlinked : db.Linked)
    (hkept : ∀ id, s.db.session? id ≠ none → db.session? id ≠ none) :
    ({ s with db := db } : Journal).Sound where
  linked := hlinked
  started id hid := hkept id (h.started id hid)
  handed entry hentry := hkept _ (h.handed entry hentry)
  appended entry hentry := hkept _ (h.appended entry hentry)

theorem execution_congr {id : String} (hsession : s'.db.session? id = s.db.session? id)
    (hmessages : s'.db.messagesOf id = s.db.messagesOf id)
    (hevents : s'.db.eventsOf id = s.db.eventsOf id)
    (hcontents : s'.db.contentsOf id = s.db.contentsOf id)
    (hstarted : s'.started.contains id = s.started.contains id)
    (hhanded : Journal.of id s'.handed = Journal.of id s.handed)
    (happended : Journal.of id s'.appended = Journal.of id s.appended) :
    s'.execution id = s.execution id := by
  rw [Journal.execution, Journal.execution, hsession, hmessages, hcontents, hevents, hstarted,
    hhanded, happended]

theorem execution_eq {id : String} {v : Execution} (hsession : s.db.session? id = some v.session)
    (hmessages : s.db.messagesOf id = v.messages) (hevents : s.db.eventsOf id = v.events)
    (hcontents : s.db.contentsOf id = v.contents) (hstarted : s.started.contains id = v.started)
    (hhanded : Journal.of id s.handed = v.handed)
    (happended : Journal.of id s.appended = v.appended) : s.execution id = some v := by
  rw [Journal.execution, hsession, hmessages, hcontents, hevents, hstarted, hhanded, happended]
  rfl

def withSession (s : Journal) (id : String) (session : ActionIoSession) : Execution where
  session := session
  messages := s.db.messagesOf id
  events := s.db.eventsOf id
  contents := s.db.contentsOf id
  started := s.started.contains id
  handed := Journal.of id s.handed
  appended := Journal.of id s.appended

theorem execution_some {id : String} {session : ActionIoSession}
    (h : s.db.session? id = some session) : s.execution id = some (s.withSession id session) :=
  execution_eq h rfl rfl rfl rfl rfl rfl

theorem session_of_execution {id : String} {v : Execution} (hv : s.execution id = some v) :
    s.db.session? id = some v.session := by
  obtain ⟨session, hsession, heq⟩ := Option.map_eq_some_iff.mp hv
  rw [hsession, ← heq]

theorem execution_eq_none {id : String} (h : s.db.session? id = none) :
    s.execution id = none := by
  rw [Journal.execution, h]
  rfl

theorem of_eq_nil {α : Type} {executionId : String} {history : List (String × α)}
    (h : ∀ entry ∈ history, entry.1 ≠ executionId) : Journal.of executionId history = [] := by
  rw [Journal.of, List.filter_eq_nil_iff.mpr, List.map_nil]
  intro entry hentry
  simpa using h entry hentry

theorem of_append_self {α : Type} {executionId : String} {history entries : List (String × α)}
    (h : ∀ entry ∈ entries, entry.1 = executionId) :
    Journal.of executionId (history ++ entries) =
      Journal.of executionId history ++ entries.map (·.2) := by
  rw [Journal.of, Journal.of, List.filter_append, List.map_append]
  congr 2
  apply List.filter_eq_self.mpr
  intro entry hentry
  simp [h entry hentry]

theorem of_append_ne {α : Type} {executionId id : String} {history entries : List (String × α)}
    (h : ∀ entry ∈ entries, entry.1 = executionId) (hne : id ≠ executionId) :
    Journal.of id (history ++ entries) = Journal.of id history := by
  have hnone : entries.filter (fun entry => entry.1 = id) = [] := by
    apply List.filter_eq_nil_iff.mpr
    intro entry hentry
    simp [h entry hentry, Ne.symm hne]
  rw [Journal.of, Journal.of, List.filter_append, hnone, List.append_nil]

/-- The journal with another database and more history of one execution. -/
def extend (s : Journal) (executionId : String) (db : ActionIoJournalDatabase) (started : Bool)
    (handed : List Int) (appended : List ActionIoEvent) : Journal :=
  { s with
    db := db
    started := if started then s.started ++ [executionId] else s.started
    handed := s.handed ++ handed.map fun sequence => (executionId, sequence)
    appended := s.appended ++ appended.map fun event => (executionId, event) }

@[simp] theorem extend_db (executionId : String) (db : ActionIoJournalDatabase) (started : Bool)
    (handed : List Int) (appended : List ActionIoEvent) :
    (s.extend executionId db started handed appended).db = db := rfl

theorem extend_history (executionId : String) (db : ActionIoJournalDatabase) (started : Bool)
    (handed : List Int) (appended : List ActionIoEvent) :
    (s.extend executionId db started handed appended).started.contains executionId =
        (s.started.contains executionId || started) ∧
      Journal.of executionId (s.extend executionId db started handed appended).handed =
        Journal.of executionId s.handed ++ handed ∧
      Journal.of executionId (s.extend executionId db started handed appended).appended =
        Journal.of executionId s.appended ++ appended := by
  refine ⟨?_, ?_, ?_⟩
  · rw [extend]
    cases started <;> simp
  · rw [extend, of_append_self (by simp), List.map_map]
    simp [Function.comp_def]
  · rw [extend, of_append_self (by simp), List.map_map]
    simp [Function.comp_def]

theorem extend_history_ne {executionId id : String} (hne : id ≠ executionId)
    (db : ActionIoJournalDatabase) (started : Bool) (handed : List Int)
    (appended : List ActionIoEvent) :
    (s.extend executionId db started handed appended).started.contains id =
        s.started.contains id ∧
      Journal.of id (s.extend executionId db started handed appended).handed =
        Journal.of id s.handed ∧
      Journal.of id (s.extend executionId db started handed appended).appended =
        Journal.of id s.appended := by
  refine ⟨?_, ?_, ?_⟩
  · rw [extend]
    cases started <;> simp [hne]
  · exact of_append_ne (by simp) hne
  · exact of_append_ne (by simp) hne

theorem record_eq_extend (s : Journal) (executionId : String) (db : ActionIoJournalDatabase)
    (events : List ActionIoEvent) :
    ({ s with db := db } : Journal).record executionId events =
      s.extend executionId db false [] events := by
  rw [extend, record]
  simp

/-- The other executions have not changed. -/
structure Others (db db' : ActionIoJournalDatabase) (executionId : String) : Prop where
  session : ∀ id, id ≠ executionId → db'.session? id = db.session? id
  messages : ∀ id, id ≠ executionId → db'.messagesOf id = db.messagesOf id
  events : ∀ id, id ≠ executionId → db'.eventsOf id = db.eventsOf id
  contents : ∀ id, id ≠ executionId → db'.contentsOf id = db.contentsOf id

theorem simulates_extend {executionId : String} {session : ActionIoSession} {w : Execution}
    {db : ActionIoJournalDatabase} {started : Bool} {handed : List Int}
    {appended : List ActionIoEvent} (hfound : s.db.session? executionId = some session)
    (hmove : Move services (s.withSession executionId session) w)
    (hsession : db.session? executionId = some w.session)
    (hmessages : db.messagesOf executionId = w.messages)
    (hevents : db.eventsOf executionId = w.events)
    (hstarted : (s.started.contains executionId || started) = w.started)
    (hhanded : Journal.of executionId s.handed ++ handed = w.handed)
    (happended : Journal.of executionId s.appended ++ appended = w.appended)
    (hlinked : s.db.Linked → db.Linked ∧ db.contentsOf executionId = w.contents ∧
      Others s.db db executionId) :
    Simulates services s (s.extend executionId db started handed appended) := by
  intro hsound
  obtain ⟨hlinked', hcontents, hothers⟩ := hlinked hsound.linked
  have hkept : ∀ id, s.db.session? id ≠ none → db.session? id ≠ none := by
    intro id hid
    by_cases he : id = executionId
    · rw [he, hsession]
      simp
    · rwa [hothers.session id he]
  have hown : db.session? executionId ≠ none := hkept executionId (by rw [hfound]; simp)
  refine ⟨⟨hlinked', ?_, ?_, ?_⟩, ?_⟩
  · intro id hid
    rw [extend] at hid
    cases started with
    | false => exact hkept id (hsound.started id hid)
    | true =>
      rcases List.mem_append.mp hid with hold | hnew
      · exact hkept id (hsound.started id hold)
      · rw [List.mem_singleton.mp hnew]
        exact hown
  · intro entry hentry
    rcases List.mem_append.mp hentry with hold | hnew
    · exact hkept _ (hsound.handed entry hold)
    · obtain ⟨sequence, -, heq⟩ := List.mem_map.mp hnew
      rw [← heq]
      exact hown
  · intro entry hentry
    rcases List.mem_append.mp hentry with hold | hnew
    · exact hkept _ (hsound.appended entry hold)
    · obtain ⟨event, -, heq⟩ := List.mem_map.mp hnew
      rw [← heq]
      exact hown
  · intro id
    by_cases hid : id = executionId
    · subst hid
      obtain ⟨hs, hh, ha⟩ := s.extend_history id db started handed appended
      have hafter := execution_eq (s := s.extend id db started handed appended) hsession hmessages
        hevents hcontents (hs.trans hstarted) (hh.trans hhanded) (ha.trans happended)
      rw [execution_some hfound, hafter]
      exact Evolves.move hmove
    · obtain ⟨hs, hh, ha⟩ := s.extend_history_ne hid db started handed appended
      have hsame : (s.extend executionId db started handed appended).execution id =
          s.execution id :=
        execution_congr (hothers.session id hid) (hothers.messages id hid)
          (hothers.events id hid) (hothers.contents id hid) hs hh ha
      rw [hsame]
      exact Evolves.refl services _

theorem simulates_database {executionId : String} {session : ActionIoSession} {w : Execution}
    {db : ActionIoJournalDatabase} (hfound : s.db.session? executionId = some session)
    (hmove : Move services (s.withSession executionId session) w)
    (hsession : db.session? executionId = some w.session)
    (hmessages : db.messagesOf executionId = w.messages)
    (hevents : db.eventsOf executionId = w.events)
    (hstarted : s.started.contains executionId = w.started)
    (hhanded : Journal.of executionId s.handed = w.handed)
    (happended : Journal.of executionId s.appended = w.appended)
    (hlinked : s.db.Linked → db.Linked ∧ db.contentsOf executionId = w.contents ∧
      Others s.db db executionId) :
    Simulates services s { s with db := db } := by
  have hsame : s.extend executionId db false [] [] = { s with db := db } := by
    rw [extend]
    simp
  rw [← hsame]
  exact simulates_extend hfound hmove hsession hmessages hevents (by simpa using hstarted)
    (by simpa using hhanded) (by simpa using happended) hlinked

/-- The calls are no part of what the tables hold of an execution. -/
theorem Simulates.called (h : Simulates services s s')
    (calls : List (String × ActionIoStream × List Int)) :
    Simulates services s { s' with calls := calls } := by
  intro hsound
  obtain ⟨hsound', hevolves⟩ := h hsound
  exact ⟨⟨hsound'.linked, hsound'.started, hsound'.handed, hsound'.appended⟩, hevolves⟩

/-! ## The transactions of the input -/

theorem simulates_admitInput {draw : Draw} {r : InputRequest} {a : ActionIoMessageReceipt}
    {db' : ActionIoJournalDatabase} (h : admitInput services draw r s.db = .ok (a, db')) :
    Simulates services s { s with db := db' } := by
  obtain ⟨-, hadmission⟩ := admitInput_ok h
  cases hadmission with
  | known session previous hsession hprevious hfingerprint hdb hresult =>
    subst hdb
    exact Simulates.refl s
  | fresh session payload hsession hunknown hadmissible hpayload hmessage hdb hresult =>
    subst hdb
    intro hsound
    obtain ⟨hfound, -⟩ := hsound.linked.session?_of_ownSession? hsession
    let m := admittedMessage r
      (messageFingerprint services r.sequence r.close r.ownedBytes) draw.payloadId
    let row := payloadRow draw.payloadId r.executionId payload r.ownedBytes.length
    let f := admitted session r.sequence r.ownedBytes.length r.close
    have hf : Keeps f := ⟨fun _ => rfl, fun _ => rfl, fun _ hs => hs⟩
    let db₁ : ActionIoJournalDatabase := { s.db with payloads := s.db.payloads ++ [row] }
    let db₂ : ActionIoJournalDatabase := { db₁ with messages := db₁.messages ++ [m] }
    have hsession' : (db₂.updateSession r.executionId f).session? r.executionId =
        some (f session) := by
      rw [session?_updateSession_self f hf.executionId]
      show (s.db.session? r.executionId).map f = _
      rw [hfound]
      rfl
    refine simulates_database hfound (.admitted m hadmissible ?_ ?_ rfl) hsession'
      (messagesOf_append_self m) rfl rfl rfl rfl ?_ hsound
    · exact Int.natCast_nonneg _
    · intro n hn
      obtain ⟨hmem, hid⟩ := List.mem_filter.mp hn
      exact hmessage n hmem (of_decide_eq_true hid)
    · intro hlinked
      have hlinked₂ : db₂.Linked := by
        have hsession : s.db.session? r.executionId ≠ none := by
          rw [hfound]
          simp
        refine (hlinked.insertPayload hsession hpayload).insertMessage hsession ?_
        intro id hid
        exact ⟨row, List.mem_append_right _ (List.mem_singleton_self _), Option.some.inj hid, rfl⟩
      refine ⟨hlinked₂.updateSession hf, hlinked.contentsOf_append row, ?_, ?_, ?_, ?_⟩
      · exact fun id hid => session?_updateSession_ne hf.executionId hid
      · exact fun id hid => messagesOf_append_ne hid
      · exact fun id hid => rfl
      · exact fun id hid => hlinked.contentsOf_append row

theorem simulates_insertSession {intent : ActionIoSessionIntent} {fingerprint : String}
    (hfresh : s.db.FreshSession (claimedSession intent fingerprint)) :
    Simulates services s { s with db := { s.db with
      sessions := s.db.sessions ++ [claimedSession intent fingerprint] } } := by
  intro hsound
  have hlinked := hsound.linked
  let row := claimedSession intent fingerprint
  have hdeadlines : DeadlinesInOrder row := by
    intro dedupe hdedupe
    cases hdedupe
  have hnone : s.db.session? row.executionId = none := by
    rw [session?, List.find?_eq_none]
    intro t ht
    simpa using (hfresh t ht).1
  refine ⟨hsound.database (hlinked.insertSession hfresh hdeadlines) ?_, ?_⟩
  · intro id hid
    rwa [session?_append hid]
  · intro id
    by_cases hid : id = row.executionId
    · subst hid
      -- Nothing refers to a session that is not there.
      have hmessages : s.db.messagesOf row.executionId = [] := by
        apply List.filter_eq_nil_iff.mpr
        intro m hm hid
        exact hlinked.messages m hm (of_decide_eq_true hid ▸ hnone)
      have hevents : s.db.eventsOf row.executionId = [] := by
        apply List.filter_eq_nil_iff.mpr
        intro e he hid
        exact hlinked.events e he (of_decide_eq_true hid ▸ hnone)
      have hcontents : s.db.contentsOf row.executionId = [] := by
        rw [contentsOf, hevents]
        rfl
      have hstarted : s.started.contains row.executionId = false := by
        simpa using fun hmem => hsound.started _ hmem hnone
      have hhanded : Journal.of row.executionId s.handed = [] :=
        of_eq_nil fun entry hentry hid => hsound.handed entry hentry (hid ▸ hnone)
      have happended : Journal.of row.executionId s.appended = [] :=
        of_eq_nil fun entry hentry hid => hsound.appended entry hentry (hid ▸ hnone)
      have hexecution : Journal.execution { s with db := { s.db with
          sessions := s.db.sessions ++ [row] } } row.executionId = some
            { session := row
              messages := []
              events := []
              contents := []
              started := false
              handed := []
              appended := [] } :=
        execution_eq (session?_new hfresh) hmessages hevents hcontents hstarted hhanded happended
      rw [execution_eq_none hnone, hexecution]
      exact ⟨_, ⟨intent, fingerprint, rfl⟩, Relation.ReflTransGen.refl⟩
    · have hsame : ({ s.db with sessions := s.db.sessions ++ [row] } :
          ActionIoJournalDatabase).session? id = s.db.session? id := by
        rw [session?, session?]
        dsimp only
        rw [List.find?_append, List.find?_singleton, if_neg (by simpa using Ne.symm hid),
          Option.or_none]
      have hexecution : Journal.execution { s with db := { s.db with
          sessions := s.db.sessions ++ [row] } } id = s.execution id :=
        execution_congr hsame rfl rfl rfl rfl rfl rfl
      rw [hexecution]
      exact Evolves.refl services _

theorem simulates_admitted {db db' : ActionIoJournalDatabase}
    (h : db' = db ∨ ∃ draw r a, admitInput services draw r db = .ok (a, db')) :
    Simulates services { s with db := db } { s with db := db' } := by
  rcases h with heq | ⟨draw, r, a, hadmission⟩
  · subst heq
    exact Simulates.refl _
  · exact simulates_admitInput (s := { s with db := db }) hadmission

theorem simulates_claim {draws : ClaimDraws} {intent : ActionIoSessionIntent}
    {io : Option ActionIoConfiguration} {c : ActionIoSessionClaim} {db' : ActionIoJournalDatabase}
    (h : claim services draws intent io s.db = .ok (c, db')) :
    Simulates services s { s with db := db' } := by
  cases claim_ok h with
  | known existing fingerprint hintent hexisting hfingerprint hdb hresult =>
    subst hdb
    exact Simulates.refl s
  | fresh fingerprint db₁ hintent hunknown hfresh hinitial hclose hresult =>
    have hborn : Simulates services s _ := simulates_insertSession hfresh
    have hfirst : Simulates services _ { s with db := db₁ } := simulates_admitted
      ((admitInitial_ok hinitial).imp id fun ⟨r, a, _, hadmission⟩ => ⟨_, r, a, hadmission⟩)
    have hsecond : Simulates services { s with db := db₁ } { s with db := db' } :=
      simulates_admitted
        ((admitClose_ok hclose).imp id fun ⟨r, a, _, hadmission⟩ => ⟨_, r, a, hadmission⟩)
    exact (hborn.trans hfirst).trans hsecond

theorem others_update {executionId : String} {db : ActionIoJournalDatabase}
    {f : ActionIoSession → ActionIoSession} (hf : Keeps f)
    (hsessions : db.sessions = s.db.sessions) (hevents : db.events = s.db.events)
    (hpayloads : db.payloads = s.db.payloads)
    (hmessages : ∀ id, id ≠ executionId → db.messagesOf id = s.db.messagesOf id) :
    (db.updateSession executionId f).contentsOf executionId = s.db.contentsOf executionId ∧
      Others s.db (db.updateSession executionId f) executionId := by
  have hcontents : ∀ id, (db.updateSession executionId f).contentsOf id = s.db.contentsOf id := by
    intro id
    show (db.events.filter _).map _ = (s.db.events.filter _).map _
    rw [hevents]
    apply List.map_congr_left
    intro e _
    show e.payloadId.bind _ = e.payloadId.bind _
    rw [updateSession]
    dsimp only
    rw [hpayloads]
  refine ⟨hcontents executionId, ?_, hmessages, ?_, fun id _ => hcontents id⟩
  · intro id hid
    rw [session?_updateSession_ne hf.executionId hid, session?, session?, hsessions]
  · intro id _
    show db.events.filter _ = s.db.events.filter _
    rw [hevents]

theorem session?_updated {executionId : String} {session : ActionIoSession}
    (db : ActionIoJournalDatabase) {f : ActionIoSession → ActionIoSession} (hf : Keeps f)
    (hsessions : db.sessions = s.db.sessions) (hfound : s.db.session? executionId = some session) :
    (db.updateSession executionId f).session? executionId = some (f session) := by
  rw [session?_updateSession_self f hf.executionId, session?, hsessions, ← session?.eq_1, hfound]
  rfl

theorem keeps_transitioned (session : ActionIoSession) (after : ProcessState) :
    Keeps (transitioned session after) :=
  ⟨fun _ => rfl, fun _ => rfl, fun _ hs => hs⟩

theorem simulates_markStarting (configured : Int) (executionId : String) :
    Simulates services s (s.markStarting configured executionId) := by
  rw [Journal.markStarting]
  rcases Atomic.commit_cases (DriftActionIoJournal.markStarting configured executionId) s.db with
    ⟨u, db', hok, hcommit⟩ | ⟨e, -, hcommit⟩
  · obtain ⟨session, hfound, hqueued, hdb⟩ := transitionProcess_ok hok
    subst hdb
    rw [hcommit]
    have hf := keeps_transitioned session .starting
    have hafter := session?_updated s.db hf rfl hfound
    have hextend : s.extend executionId
        (s.db.updateSession executionId (transitioned session .starting)) true [] [] =
          { s with
            db := s.db.updateSession executionId (transitioned session .starting)
            started := s.started ++ [executionId] } := by
      rw [extend]
      simp
    dsimp only
    rw [← hextend]
    refine simulates_extend hfound (.starting hqueued) hafter rfl rfl (Bool.or_true _)
      (List.append_nil _) (List.append_nil _) fun hlinked => ⟨hlinked.updateSession hf, ?_⟩
    exact others_update hf rfl rfl rfl fun _ _ => rfl
  · rw [hcommit]
    exact Simulates.refl s

theorem simulates_markRunning {configured : Int} {executionId : String} {u : Unit}
    {db' : ActionIoJournalDatabase}
    (h : DriftActionIoJournal.markRunning configured executionId s.db = .ok (u, db')) :
    Simulates services s { s with db := db' } := by
  obtain ⟨session, hfound, hstarting, hdb⟩ := transitionProcess_ok h
  subst hdb
  have hf := keeps_transitioned session .running
  have hafter := session?_updated s.db hf rfl hfound
  refine simulates_database hfound (.running hstarting) hafter rfl rfl rfl rfl rfl
    fun hlinked => ⟨hlinked.updateSession hf, ?_⟩
  exact others_update hf rfl rfl rfl fun _ _ => rfl

/-! ## Delivery -/

theorem pending_eq (executionId : String) :
    DriftActionIoJournal.pending s.db executionId =
      Execution.pending (s.db.messagesOf executionId) := by
  rw [DriftActionIoJournal.pending, Execution.pending, messagesOf, List.filter_filter]
  congr 1
  apply List.filter_congr
  intro m _
  rw [Bool.and_comm]

theorem message?_eq (executionId messageId : String) :
    s.db.message? executionId messageId =
      (s.db.messagesOf executionId).find? fun m => m.messageId = messageId := by
  rw [message?, messagesOf, List.find?_filter]
  congr 1
  funext m
  rw [Bool.decide_and, Bool.decide_eq_true, Bool.decide_eq_true]

theorem simulates_beginNextInput (executionId : String) :
    Simulates services s (s.beginNextInput services executionId) := by
  rw [Journal.beginNextInput]
  rcases Atomic.commit_cases (DriftActionIoJournal.beginNextInput services executionId) s.db with
    ⟨input, db', hok, hcommit⟩ | ⟨e, -, hcommit⟩
  · rw [hcommit]
    cases beginNextInput_ok hok with
    | nothing hdb hinput =>
      subst hdb hinput
      exact Simulates.refl s
    | handed session next bytes hfound hrunning hstdin hnext haccepted hdb hinput =>
      subst hdb hinput
      dsimp only
      let db := s.db.updateMessage executionId next.messageId asWriting
      have hextend : s.extend executionId db false [next.sequence] [] =
          { s with db := db, handed := s.handed ++ [(executionId, next.sequence)] } := by
        rw [extend]
        simp
      show Simulates services s
        { s with db := db, handed := s.handed ++ [(executionId, next.sequence)] }
      rw [← hextend]
      rw [pending_eq] at hnext
      refine simulates_extend hfound (.handed next hrunning hstdin hnext haccepted) hfound
        (filter_write_self keeps_asWriting _) rfl (Bool.or_false _) rfl (List.append_nil _) ?_
      intro hlinked
      refine ⟨hlinked.writeMessages keeps_asWriting, rfl, fun _ _ => rfl, ?_, fun _ _ => rfl,
        fun _ _ => rfl⟩
      exact fun id hid => filter_write_other keeps_asWriting hid _
  · rw [hcommit]
    exact Simulates.refl s

theorem simulates_finishInput {executionId messageId : String} {state : ActionIoDeliveryState}
    {confirmedBytes : Option Int} {failureCode : Option String} {a : ActionIoMessageReceipt}
    {db' : ActionIoJournalDatabase}
    (h : finishInput executionId messageId state confirmedBytes failureCode s.db = .ok (a, db')) :
    Simulates services s { s with db := db' } := by
  rcases finishInput_ok h with heq | ⟨session, message, hfound, hmessage, hwriting, hstate, hdb⟩
  · subst heq
    exact Simulates.refl s
  · subst hdb
    rw [message?_eq] at hmessage
    have hid : message.messageId = messageId := by simpa using List.find?_some hmessage
    subst hid
    have hg := keeps_withOutcome state confirmedBytes failureCode
    have hf : Keeps (delivered session message state) :=
      ⟨fun _ => rfl, fun _ => rfl, fun _ hs => hs⟩
    let db := s.db.updateMessage executionId message.messageId
      (withOutcome state confirmedBytes failureCode)
    have hafter := session?_updated db hf rfl hfound
    refine simulates_database hfound
      (.delivered message state confirmedBytes failureCode hmessage hwriting hstate) hafter
      (filter_write_self hg _) rfl rfl rfl rfl fun hlinked => ⟨?_, ?_⟩
    · exact (hlinked.writeMessages hg).updateSession hf
    · exact others_update hf rfl rfl rfl fun id hid => filter_write_other hg hid _

/-! ## After a crash -/

theorem keeps_interruptedSession : Keeps interruptedSession :=
  ⟨fun _ => rfl, fun _ => rfl, fun _ hs => hs⟩

theorem simulates_interrupt {session : ActionIoSession}
    (hfound : s.db.session? session.executionId = some session)
    (hactive : isActive session = true) :
    Simulates services s { s with db := interrupt s.db session } := by
  have hf := keeps_interruptedSession
  have hafter := session?_updated
    (abandonMessages s.db session.executionId "ACTION_IO_INTERRUPTED") hf rfl hfound
  refine simulates_database hfound (.interrupted hactive) hafter (messagesOf_abandoned _ _) rfl rfl
    rfl rfl fun hlinked => ⟨(hlinked.abandonMessages _ _).updateSession hf, ?_⟩
  exact others_update hf rfl rfl rfl fun id hid => messagesOf_abandoned_ne hid _ _

/-- The sessions that are still to be treated are as they were when they were listed. -/
def Listed (db : ActionIoJournalDatabase) (rest : List ActionIoSession) : Prop :=
  (rest.map (·.executionId)).Nodup ∧ ∀ t ∈ rest, db.session? t.executionId = some t

theorem Listed.next {db db' : ActionIoJournalDatabase} {t : ActionIoSession}
    {rest : List ActionIoSession} (h : Listed db (t :: rest))
    (hothers : ∀ id, id ≠ t.executionId → db'.session? id = db.session? id) : Listed db' rest := by
  obtain ⟨hnodup, hfound⟩ := h
  rw [List.map_cons, List.nodup_cons] at hnodup
  refine ⟨hnodup.2, ?_⟩
  intro u hu
  have hne : u.executionId ≠ t.executionId := by
    intro he
    exact hnodup.1 (he ▸ List.mem_map_of_mem hu)
  rw [hothers _ hne]
  exact hfound u (List.mem_cons_of_mem _ hu)

theorem listed_filter (h : s.db.Linked) (p : ActionIoSession → Bool) :
    Listed s.db (s.db.sessions.filter p) := by
  refine ⟨?_, ?_⟩
  · exact h.sessionIds.sublist (List.filter_sublist.map _)
  · intro t ht
    exact h.session?_mem (List.mem_filter.mp ht).1

theorem simulates_interrupts (rest : List ActionIoSession) (hlisted : Listed s.db rest)
    (hactive : ∀ t ∈ rest, isActive t = true) :
    Simulates services s { s with db := rest.foldl interrupt s.db } := by
  induction rest generalizing s with
  | nil => exact Simulates.refl s
  | cons t rest ih =>
    have hfound := hlisted.2 t List.mem_cons_self
    have hfirst : Simulates services s { s with db := interrupt s.db t } :=
      simulates_interrupt hfound (hactive t List.mem_cons_self)
    refine hfirst.trans (ih (s := { s with db := interrupt s.db t }) (hlisted.next ?_) ?_)
    · intro id hid
      exact session?_updateSession_ne keeps_interruptedSession.executionId hid
    · exact fun u hu => hactive u (List.mem_cons_of_mem _ hu)

theorem simulates_reconcileInterrupted {n : Nat} {db' : ActionIoJournalDatabase}
    (h : reconcileInterrupted s.db = .ok (n, db')) : Simulates services s { s with db := db' } := by
  rw [reconcileInterrupted_ok h]
  intro hsound
  refine simulates_interrupts _ (listed_filter hsound.linked isActive) ?_ hsound
  intro t ht
  exact (List.mem_filter.mp ht).2

/-! ## The transactions of the output -/

theorem block_valid {bytes : List Int} (hvalid : isInvalidBlock bytes = false) :
    Dart.uint8List bytes ≠ [] ∧
      ((Dart.uint8List bytes).length : Int) ≤ ActionIoLimits.blockBytes := by
  simp only [isInvalidBlock, Bool.or_eq_false_iff, decide_eq_false_iff_not, not_lt,
    List.isEmpty_eq_false_iff, gt_iff_lt] at hvalid
  refine ⟨?_, ?_⟩
  · simpa [Dart.uint8List] using hvalid.1.1
  · simpa [Dart.uint8List] using hvalid.1.2

theorem append_snd {draw : Draw} {executionId : String} {stream : ActionIoStream}
    {bytes : List Int} (hvalid : isInvalidBlock bytes = false) (db : ActionIoJournalDatabase) :
    (ActionIoOutputJournal.append services draw executionId stream bytes db).2 =
      (Atomic.commit (appendPrefix services draw executionId stream
        (Dart.uint8List bytes)) db).2 := by
  rw [ActionIoOutputJournal.append, hvalid]
  dsimp only
  generalize Atomic.commit (appendPrefix services draw executionId stream
    (Dart.uint8List bytes)) db = result
  obtain ⟨answer, db'⟩ := result
  cases answer with
  | error failure => rfl
  | ok event =>
    simp only [Bool.false_eq_true, if_false]
    split_ifs <;> rfl

theorem simulates_append (draw : Draw) (executionId : String) (stream : ActionIoStream)
    (bytes : List Int) : Simulates services s (s.append services draw executionId stream bytes) := by
  rw [Journal.append]
  cases hvalid : isInvalidBlock bytes with
  | true =>
    rw [ActionIoOutputJournal.append, hvalid]
    exact Simulates.refl s
  | false =>
    rw [append_snd hvalid]
    rcases Atomic.commit_cases (appendPrefix services draw executionId stream
      (Dart.uint8List bytes)) s.db with ⟨event, db', hok, hcommit⟩ | ⟨e, -, hcommit⟩
    · rw [hcommit]
      obtain ⟨session, payload, hfound, hcapturing, hexpired, hremaining, hevents, hfresh,
        hencrypt, heq, hdb⟩ := appendPrefix_ok hok
      subst heq hdb
      have hid := (session?_some hfound).2
      subst hid
      let part := fitting session (Dart.uint8List bytes)
      let row := payloadRow draw.payloadId session.executionId payload part.length
      let event := outputRow session.executionId session.nextEventSequence stream
        (streamBytes session stream) draw.payloadId
      let db₁ : ActionIoJournalDatabase := { s.db with payloads := s.db.payloads ++ [row] }
      let db₂ : ActionIoJournalDatabase := { db₁ with events := db₁.events ++ [event] }
      have hf : Keeps (ActionIoOutputJournal.appended session stream part.length) :=
        ⟨fun _ => rfl, fun _ => rfl, fun _ hs => hs⟩
      have hafter := session?_updated db₂ hf rfl hfound
      have hown : ∀ e ∈ [event], e.executionId = session.executionId := by
        intro e he
        rw [List.mem_singleton.mp he]
        rfl
      have hblock := block_valid hvalid
      -- The history of the calls is not read by any transaction.
      refine (show Simulates services s
        (({ s with db := _ } : Journal).record session.executionId _) from ?_).called
          (s.calls ++ [(session.executionId, stream, bytes)])
      rw [record_eq_extend]
      refine simulates_extend hfound (.appended stream _ draw.random draw.payloadId payload hcapturing
        hexpired hremaining hblock.1 hblock.2 hevents hencrypt) hafter rfl
          (eventsOf_append_self hown) (Bool.or_false _) (List.append_nil _) rfl ?_
      intro hlinked
      have hknown : s.db.session? session.executionId ≠ none := by
        rw [hfound]
        simp
      have hlinked₁ : db₁.Linked := hlinked.insertPayload hknown hfresh
      have hcontents : ∀ id, db₁.contentsOf id = s.db.contentsOf id :=
        fun id => hlinked.contentsOf_append row
      refine ⟨(hlinked₁.insertEvents ?_ ?_).updateSession hf, ?_, ?_, fun _ _ => rfl, ?_, ?_⟩
      · intro e he
        rw [hown e he]
        exact hknown
      · intro e he id hid
        rw [List.mem_singleton.mp he] at hid ⊢
        exact ⟨row, List.mem_append_right _ (List.mem_singleton_self _), Option.some.inj hid, rfl⟩
      · show (db₂.eventsOf session.executionId).map (fun e => db₁.content e.payloadId) = _
        rw [show db₂.eventsOf session.executionId = _ from eventsOf_append_self hown,
          List.map_append]
        congr 1
        · exact hcontents session.executionId
        · rw [List.map_singleton]
          exact congrArg (fun o => [o]) (content_new hfresh)
      · exact fun id hid => session?_updateSession_ne hf.executionId hid
      · exact fun id hid => eventsOf_append_ne hown hid
      · intro id hid
        show (db₂.eventsOf id).map (fun e => db₁.content e.payloadId) = _
        rw [show db₂.eventsOf id = _ from eventsOf_append_ne hown hid]
        exact hcontents id
    · rw [hcommit]
      exact Simulates.refl s

/-! ## The end of an execution -/

theorem terminalRows_executionId (executionId : String) (sequence : Int) (outcome : Outcome) :
    ∀ row ∈ terminalRows executionId sequence outcome,
      row.executionId = executionId ∧ row.payloadId = none := by
  intro row hrow
  rw [terminalRows] at hrow
  split_ifs at hrow with hterminated
  · rcases List.mem_cons.mp hrow with heq | hrow
    · rw [heq]
      exact ⟨rfl, rfl⟩
    · rw [List.mem_singleton.mp hrow]
      exact ⟨rfl, rfl⟩
  · rw [List.mem_singleton.mp hrow]
    exact ⟨rfl, rfl⟩

theorem keeps_finished (session : ActionIoSession) (outcome : Outcome) (sequence now : Int) :
    Keeps (finished session outcome sequence now) := by
  refine ⟨fun _ => rfl, fun _ => rfl, ?_⟩
  intro row _ dedupe hdedupe
  rw [finished] at hdedupe
  dsimp only at hdedupe
  split_ifs at hdedupe with hterminated
  refine ⟨inWholeSeconds (now + ActionIoLimits.outputRetention), ?_, ?_⟩
  · rw [finished]
    exact if_pos hterminated
  · rw [← Option.some.inj hdedupe]
    apply inWholeSeconds_mono
    rw [ActionIoLimits.outputRetention, ActionIoLimits.deduplicationRetention]
    omega

theorem simulates_finish {executionId : String} {outcome : Outcome} {now : Int} {u : Unit}
    {db' : ActionIoJournalDatabase}
    (h : ActionIoOutputJournal.finish executionId outcome now s.db = .ok (u, db')) :
    Simulates services s (({ s with db := db' } : Journal).record executionId
      (terminalEvents (s.nextEventSequence executionId) outcome)) := by
  obtain ⟨session, hfound, hcapturing, hcomplete, hdb⟩ := finish_ok h
  subst hdb
  have hid := (session?_some hfound).2
  subst hid
  have hnext : s.nextEventSequence session.executionId = session.nextEventSequence := by
    rw [nextEventSequence, hfound]
    rfl
  rw [hnext]
  let rows := terminalRows session.executionId session.nextEventSequence outcome
  have hrows := terminalRows_executionId session.executionId session.nextEventSequence outcome
  have hown : ∀ row ∈ rows, row.executionId = session.executionId := fun row hrow =>
    (hrows row hrow).1
  let db₁ : ActionIoJournalDatabase :=
    { abandonMessages s.db session.executionId "ACTION_STDIN_CLOSED" with
      events := s.db.events ++ rows }
  have hf := keeps_finished session outcome (session.nextEventSequence + rows.length) now
  have hafter := session?_updated db₁ hf rfl hfound
  rw [record_eq_extend]
  refine simulates_extend hfound (.finished outcome now hcapturing hcomplete) hafter
    (messagesOf_abandoned _ _) (eventsOf_append_self hown) (Bool.or_false _) (List.append_nil _)
      rfl ?_
  intro hlinked
  have hlinked₁ := hlinked.abandonMessages session.executionId "ACTION_STDIN_CLOSED"
  refine ⟨(hlinked₁.insertEvents ?_ ?_).updateSession hf, ?_, ?_, ?_, ?_, ?_⟩
  · intro row hrow
    rw [hown row hrow]
    show s.db.session? session.executionId ≠ none
    rw [hfound]
    simp
  · intro row hrow id hid
    rw [(hrows row hrow).2] at hid
    cases hid
  · show (db₁.eventsOf session.executionId).map (fun e => s.db.content e.payloadId) = _
    rw [show db₁.eventsOf session.executionId = _ from eventsOf_append_self hown,
      List.map_append]
    congr 1
    apply List.map_congr_left
    intro row hrow
    rw [(hrows row hrow).2]
    rfl
  · exact fun id hid => session?_updateSession_ne hf.executionId hid
  · exact fun id hid => messagesOf_abandoned_ne hid _ _
  · exact fun id hid => eventsOf_append_ne hown hid
  · intro id hid
    show (db₁.eventsOf id).map (fun e => s.db.content e.payloadId) = _
    rw [show db₁.eventsOf id = _ from eventsOf_append_ne hown hid]
    rfl

theorem simulates_cancelQueued (executionId clientId : String) (now : Int) :
    Simulates services s (s.cancelQueued executionId clientId now) := by
  rw [Journal.cancelQueued]
  rcases Atomic.commit_cases (ActionIoOutputJournal.cancelQueued executionId clientId now) s.db with
    ⟨cancelled, db', hok, hcommit⟩ | ⟨e, -, hcommit⟩
  · rw [hcommit]
    rcases cancelQueued_ok hok with ⟨hdb, hcancelled⟩ | ⟨hcancelled, session, -, -, hfinish⟩
    · subst hdb hcancelled
      exact Simulates.refl s
    · subst hcancelled
      exact simulates_finish hfinish
  · rw [hcommit]
    exact Simulates.refl s

/-! ## Retention -/

def Belong (db : ActionIoJournalDatabase) (executionId : String)
    (payloadIds : List (Option String)) : Prop :=
  ∀ id, some id ∈ payloadIds → ∃ p ∈ db.payloads, p.payloadId = id ∧ p.executionId = executionId

theorem belong_events (h : s.db.Linked) (executionId : String) (q : ActionIoEventRow → Bool) :
    Belong s.db executionId (((s.db.eventsOf executionId).filter q).map (·.payloadId)) := by
  intro id hid
  obtain ⟨e, he, heq⟩ := List.mem_map.mp hid
  obtain ⟨hmem, hown⟩ := List.mem_filter.mp (List.mem_filter.mp he).1
  obtain ⟨p, hp, hsame, hp'⟩ := h.eventPayloads e hmem id heq
  exact ⟨p, hp, hsame, hp'.trans (of_decide_eq_true hown)⟩

theorem belong_messages (h : s.db.Linked) (executionId : String) :
    Belong s.db executionId ((s.db.messagesOf executionId).map (·.payloadId)) := by
  intro id hid
  obtain ⟨m, hm, heq⟩ := List.mem_map.mp hid
  obtain ⟨hmem, hown⟩ := List.mem_filter.mp hm
  obtain ⟨p, hp, hsame, hp'⟩ := h.messagePayloads m hmem id heq
  exact ⟨p, hp, hsame, hp'.trans (of_decide_eq_true hown)⟩

theorem contentsOf_erase (h : s.db.Linked) {executionId id : String}
    {payloadIds : List (Option String)} (hbelong : Belong s.db executionId payloadIds)
    (hne : id ≠ executionId) :
    (ActionIoJournalRetention.erase s.db payloadIds).contentsOf id = s.db.contentsOf id := by
  apply List.map_congr_left
  intro e he
  obtain ⟨hmem, hown⟩ := List.mem_filter.mp he
  cases hpayload : e.payloadId with
  | none => rfl
  | some payloadId =>
    apply content_erase
    intro hin
    obtain ⟨p, hp, hpid, hpown⟩ := hbelong payloadId hin
    obtain ⟨q, hq, hqid, hqown⟩ := h.eventPayloads e hmem payloadId hpayload
    have hsame := h.payload_unique hp hq (hpid.trans hqid.symm)
    apply hne
    rw [← hpown, hsame, hqown]
    exact (of_decide_eq_true hown).symm

theorem simulates_erase {t : ActionIoSession} {payloadIds : List (Option String)}
    {db : ActionIoJournalDatabase} (hfound : s.db.session? t.executionId = some t)
    (hfinished : t.processState = .finished)
    (hbelong : s.db.Linked → Belong s.db t.executionId payloadIds)
    (hown : db.session? t.executionId = some { t with outputExpired := true })
    (hothers : ∀ id, id ≠ t.executionId → db.session? id = s.db.session? id)
    (hmessages : db.messages = s.db.messages) (hevents : db.events = s.db.events)
    (hpayloads : db.payloads = (ActionIoJournalRetention.erase s.db payloadIds).payloads)
    (hlinked : s.db.Linked → db.Linked) : Simulates services s { s with db := db } := by
  have hmessagesOf : ∀ id, db.messagesOf id = s.db.messagesOf id := by
    intro id
    rw [messagesOf, messagesOf, hmessages]
  have heventsOf : ∀ id, db.eventsOf id = s.db.eventsOf id := by
    intro id
    rw [eventsOf, eventsOf, hevents]
  refine simulates_database hfound (.expired (db.contentsOf t.executionId) hfinished) hown
    (hmessagesOf _) (heventsOf _) rfl rfl rfl fun h => ⟨hlinked h, rfl, hothers, ?_, ?_, ?_⟩
  · exact fun id _ => hmessagesOf id
  · exact fun id _ => heventsOf id
  · intro id hid
    rw [← contentsOf_erase h (hbelong h) hid, contentsOf, contentsOf, heventsOf]
    apply List.map_congr_left
    intro e _
    rw [content, content, hpayloads]

open ActionIoJournalRetention

theorem simulates_expireOutput {t : ActionIoSession} (now : Int)
    (hfound : s.db.session? t.executionId = some t) (hfinished : t.processState = .finished) :
    Simulates services s { s with db := expireOutput now s.db t } := by
  have hf : Keeps fun row => { row with outputExpired := true } :=
    ⟨fun _ => rfl, fun _ => rfl, fun _ hs => hs⟩
  rw [expireOutput]
  split_ifs with hdue
  · refine simulates_erase hfound hfinished (fun h => belong_events h t.executionId _) ?_ ?_ rfl
      rfl rfl fun h => (h.erase _).updateSession hf
    · exact session?_updated (erase s.db _) hf rfl hfound
    · exact fun id hid => session?_updateSession_ne hf.executionId hid
  · exact Simulates.refl s

theorem session?_expireOutput {t : ActionIoSession} {now : Int} (hlinked : s.db.Linked)
    (hfound : s.db.session? t.executionId = some t)
    (hdedupe : t.dedupeExpiresAt.any (fun d => !(now < d)) = true) :
    (expireOutput now s.db t).session? t.executionId = some { t with outputExpired := true } := by
  have hf : Keeps fun row => { row with outputExpired := true } :=
    ⟨fun _ => rfl, fun _ => rfl, fun _ hs => hs⟩
  rw [expireOutput]
  split_ifs with hdue
  · exact session?_updated (erase s.db _) hf rfl hfound
  · have hexpired : t.outputExpired = true := by
      by_contra hnot
      apply hdue
      refine ⟨by simpa using hnot, ?_⟩
      cases hsome : t.dedupeExpiresAt with
      | none => simp [hsome] at hdedupe
      | some dedupe =>
        obtain ⟨output, houtput, hle⟩ :=
          hlinked.deadlines t (session?_some hfound).1 dedupe hsome
        simp only [hsome, Option.any_some, Bool.not_eq_true', decide_eq_false_iff_not,
          not_lt] at hdedupe
        simp only [houtput, Option.any_some, Bool.not_eq_true', decide_eq_false_iff_not, not_lt]
        omega
    rw [hfound, ← hexpired]

theorem simulates_expireSession {t : ActionIoSession} (now : Int)
    (hfound : s.db.session? t.executionId = some t) (hfinished : t.processState = .finished) :
    Simulates services s { s with db := expireSession now s.db t } := by
  intro hsound
  have houtput : Simulates services s _ := simulates_expireOutput now hfound hfinished
  by_cases hdedupe : t.dedupeExpiresAt.any (fun d => !(now < d)) = true
  · have hown := session?_expireOutput hsound.linked hfound hdedupe
    refine houtput.trans ?_ hsound
    rw [expireSession, expireInput, if_pos hdedupe]
    exact simulates_erase (s := { s with db := expireOutput now s.db t })
      (t := { t with outputExpired := true }) hown hfinished
      (fun h => belong_messages (s := { s with db := expireOutput now s.db t }) h t.executionId)
      hown (fun _ _ => rfl) rfl rfl rfl fun h => h.erase _
  · rw [expireSession, expireInput, if_neg hdedupe]
    exact houtput hsound

theorem session?_expireSession {t : ActionIoSession} (now : Int) (db : ActionIoJournalDatabase)
    {id : String} (hne : id ≠ t.executionId) :
    (expireSession now db t).session? id = db.session? id := by
  have houtput : (expireOutput now db t).session? id = db.session? id := by
    rw [expireOutput]
    split_ifs
    · exact session?_updateSession_ne (fun _ => rfl) hne
    · rfl
  rw [expireSession, expireInput]
  split_ifs
  · exact houtput
  · exact houtput

theorem simulates_expires (now : Int) (rest : List ActionIoSession) (hlisted : Listed s.db rest)
    (hfinished : ∀ t ∈ rest, t.processState = .finished) :
    Simulates services s { s with db := rest.foldl (expireSession now) s.db } := by
  induction rest generalizing s with
  | nil => exact Simulates.refl s
  | cons t rest ih =>
    have hfound := hlisted.2 t List.mem_cons_self
    have hfirst : Simulates services s { s with db := expireSession now s.db t } :=
      simulates_expireSession now hfound (hfinished t List.mem_cons_self)
    refine hfirst.trans (ih (s := { s with db := expireSession now s.db t }) (hlisted.next ?_) ?_)
    · exact fun id hid => session?_expireSession now s.db hid
    · exact fun u hu => hfinished u (List.mem_cons_of_mem _ hu)

theorem simulates_expire (now : Int) :
    Simulates services s { s with db := expire now s.db } := by
  intro hsound
  refine simulates_expires now _ (listed_filter hsound.linked _) ?_ hsound
  intro t ht
  have hkept := (List.mem_filter.mp ht).2
  simp only [Bool.and_eq_true, decide_eq_true_eq] at hkept
  exact hkept.1

/-! ## The steps -/

theorem simulates_commit {α : Type} {t : Transaction α}
    (h : ∀ a db', t s.db = .ok (a, db') → Simulates services s { s with db := db' }) :
    Simulates services s { s with db := (Atomic.commit t s.db).2 } := by
  rcases Atomic.commit_cases t s.db with ⟨a, db', hok, hcommit⟩ | ⟨e, -, hcommit⟩
  · rw [hcommit]
    exact h a db' hok
  · rw [hcommit]
    exact Simulates.refl s

theorem simulates_step {e : JournalEvent} (hstep : (journal services).step s e = some s') :
    Simulates services s s' := by
  cases e with
  | claim draws intent io =>
    rw [← Option.some.inj hstep]
    exact simulates_commit fun _ _ hok => simulates_claim hok
  | admitInput draw request =>
    rw [← Option.some.inj hstep]
    exact simulates_commit fun _ _ hok => simulates_admitInput hok
  | markStarting configured executionId =>
    rw [← Option.some.inj hstep]
    exact simulates_markStarting configured executionId
  | markRunning configured executionId =>
    rw [← Option.some.inj hstep]
    exact simulates_commit fun _ _ hok => simulates_markRunning hok
  | beginNextInput executionId =>
    rw [← Option.some.inj hstep]
    exact simulates_beginNextInput executionId
  | finishInput executionId messageId state confirmedBytes failureCode =>
    rw [← Option.some.inj hstep]
    exact simulates_commit fun _ _ hok => simulates_finishInput hok
  | reconcileInterrupted =>
    rw [← Option.some.inj hstep]
    exact simulates_commit fun _ _ hok => simulates_reconcileInterrupted hok
  | append draw executionId stream bytes =>
    rw [← Option.some.inj hstep]
    exact simulates_append draw executionId stream bytes
  | finish executionId outcome now =>
    rw [← Option.some.inj hstep]
    show Simulates services s (s.finish executionId outcome now)
    rw [Journal.finish]
    rcases Atomic.commit_cases (ActionIoOutputJournal.finish executionId outcome now) s.db with
      ⟨u, db', hok, hcommit⟩ | ⟨e, -, hcommit⟩
    · rw [hcommit]
      exact simulates_finish hok
    · rw [hcommit]
      exact Simulates.refl s
  | cancelQueued executionId clientId now =>
    rw [← Option.some.inj hstep]
    exact simulates_cancelQueued executionId clientId now
  | expire now =>
    rw [← Option.some.inj hstep]
    exact simulates_expire now

theorem sound_empty : ({} : Journal).Sound where
  linked := by
    constructor <;> simp
  started := by simp
  handed := by simp
  appended := by simp

theorem sound_of_reachable (h : (journal services).Reachable s) : s.Sound := by
  refine h.invariant ?_ fun s e s' hs _ hstep => (simulates_step hstep hs).1
  intro s hstart
  rw [show s = {} from hstart]
  exact sound_empty

/-- What holds of an execution when it is claimed, and is kept by every move, holds of all
executions in every reachable state. -/
theorem execution_invariant {I : Execution → Prop} (hborn : ∀ v, Born v → I v)
    (hmove : ∀ v w, I v → Move services v w → I w) (h : (journal services).Reachable s)
    {id : String} {v : Execution} (hv : s.execution id = some v) : I v := by
  have hmoves : ∀ v w, Moves services v w → I v → I w := by
    intro v w hmoves hstart
    induction hmoves with
    | refl => exact hstart
    | tail _ hlast ih => exact hmove _ _ ih hlast
  suffices hall : s.Sound ∧ ∀ id v, s.execution id = some v → I v from hall.2 id v hv
  refine Machine.Reach.invariant
    (I := fun s => s.Sound ∧ ∀ id v, s.execution id = some v → I v) ?_ ?_ h
  · intro s hstart
    rw [show s = {} from hstart]
    refine ⟨sound_empty, ?_⟩
    intro id v hv
    cases hv
  · intro s e s' hs _ hstep
    obtain ⟨hsound', hevolves⟩ := simulates_step hstep hs.1
    refine ⟨hsound', ?_⟩
    intro id w hw
    have hid := hevolves id
    rw [hw] at hid
    cases hbefore : s.execution id with
    | none =>
      rw [hbefore] at hid
      obtain ⟨u, hu, hmoved⟩ := hid
      exact hmoves u w hmoved (hborn u hu)
    | some v =>
      rw [hbefore] at hid
      exact hmoves v w hid (hs.2 id v hbefore)

theorem execution_later {t : Journal} (h : (journal services).Leads s t) (hsound : s.Sound)
    {id : String} {v : Execution} (hv : s.execution id = some v) :
    ∃ w, t.execution id = some w ∧ Moves services v w := by
  suffices hall : t.Sound ∧ ∃ w, t.execution id = some w ∧ Moves services v w from hall.2
  refine h.keeps (I := fun t => t.Sound ∧ ∃ w, t.execution id = some w ∧ Moves services v w) ?_
    ⟨hsound, v, hv, Relation.ReflTransGen.refl⟩
  intro u e u' hu hstep
  obtain ⟨hsound', hevolves⟩ := simulates_step hstep hu.1
  obtain ⟨w, hw, hmoves⟩ := hu.2
  refine ⟨hsound', ?_⟩
  have hid := hevolves id
  rw [hw] at hid
  cases hafter : u'.execution id with
  | none =>
    rw [hafter] at hid
    exact hid.elim
  | some x =>
    rw [hafter] at hid
    exact ⟨x, rfl, hmoves.trans hid⟩

end Journal

end PlugAgente.ActionIo
