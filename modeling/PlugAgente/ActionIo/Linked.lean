import PlugAgente.ActionIo.Effects

/-!
# The integrity of the database

`Linked` is what holds between the tables: ids and keys are unique, a message and an event
belong to a session, and their payload is there and belongs to the same execution.  Every
update that a transaction is made of keeps it.

The lemmas about the queries say what `session?`, `messagesOf`, `eventsOf` and `content`
find after such an update.  A payload that is added is found by no row that is there, for
its id is new.
-/

namespace PlugAgente.ActionIo

namespace ActionIoJournalDatabase

/-- The payload that a row refers to. -/
def content (db : ActionIoJournalDatabase) (payloadId : Option String) : Option ActionIoPayload :=
  payloadId.bind fun id => db.payloads.find? fun p => p.payloadId = id

/-- The payloads of the events of an execution. -/
def contentsOf (db : ActionIoJournalDatabase) (executionId : String) :
    List (Option ActionIoPayload) :=
  (db.eventsOf executionId).map fun e => db.content e.payloadId

/-- The output of a session expires before its input. -/
def DeadlinesInOrder (session : ActionIoSession) : Prop :=
  ∀ dedupe, session.dedupeExpiresAt = some dedupe →
    ∃ output, session.outputExpiresAt = some output ∧ output ≤ dedupe

structure Linked (db : ActionIoJournalDatabase) : Prop where
  sessionIds : (db.sessions.map (·.executionId)).Nodup
  keys : (db.sessions.map (·.key)).Nodup
  payloadIds : (db.payloads.map (·.payloadId)).Nodup
  messages : ∀ m ∈ db.messages, db.session? m.executionId ≠ none
  events : ∀ e ∈ db.events, db.session? e.executionId ≠ none
  payloads : ∀ p ∈ db.payloads, db.session? p.executionId ≠ none
  messagePayloads : ∀ m ∈ db.messages, ∀ id, m.payloadId = some id →
    ∃ p ∈ db.payloads, p.payloadId = id ∧ p.executionId = m.executionId
  eventPayloads : ∀ e ∈ db.events, ∀ id, e.payloadId = some id →
    ∃ p ∈ db.payloads, p.payloadId = id ∧ p.executionId = e.executionId
  deadlines : ∀ s ∈ db.sessions, DeadlinesInOrder s

variable {db : ActionIoJournalDatabase} {executionId id : String}

/-! ## Sessions -/

theorem session?_some {s : ActionIoSession} (h : db.session? executionId = some s) :
    s ∈ db.sessions ∧ s.executionId = executionId :=
  ⟨List.mem_of_find?_eq_some h, by simpa using List.find?_some h⟩

theorem Linked.session?_mem (h : Linked db) {s : ActionIoSession} (hs : s ∈ db.sessions) :
    db.session? s.executionId = some s :=
  Rows.find?_of_nodup h.sessionIds hs

@[simp] theorem session?_updateSession_self (f : ActionIoSession → ActionIoSession)
    (hf : ∀ s, (f s).executionId = s.executionId) :
    (db.updateSession executionId f).session? executionId = (db.session? executionId).map f := by
  rw [session?, session?, updateSession]
  dsimp only
  rw [Rows.find?_write (fun r => by rw [hf r])]
  cases hfound : db.sessions.find? fun s => s.executionId = executionId with
  | none => rfl
  | some s =>
    have hid : s.executionId = executionId := by simpa using List.find?_some hfound
    simp [hid]

theorem session?_updateSession_ne {f : ActionIoSession → ActionIoSession}
    (hf : ∀ s, (f s).executionId = s.executionId) (hne : id ≠ executionId) :
    (db.updateSession executionId f).session? id = db.session? id := by
  rw [session?, session?, updateSession]
  dsimp only
  rw [Rows.find?_write (fun r => by rw [hf r])]
  cases hfound : db.sessions.find? fun s => s.executionId = id with
  | none => rfl
  | some s =>
    have hid : s.executionId = id := by simpa using List.find?_some hfound
    simp [hid, hne]

theorem session?_updateSession_isSome {f : ActionIoSession → ActionIoSession}
    (hf : ∀ s, (f s).executionId = s.executionId) :
    (db.updateSession executionId f).session? id ≠ none ↔ db.session? id ≠ none := by
  by_cases hid : id = executionId
  · rw [hid, session?_updateSession_self f hf]
    simp
  · rw [session?_updateSession_ne hf hid]

theorem Linked.session?_of_ownSession? (h : Linked db) {clientId : String} {s : ActionIoSession}
    (hs : db.ownSession? executionId clientId = some s) :
    db.session? executionId = some s ∧ s.key.clientId = clientId := by
  have hfound := List.find?_some hs
  simp only [Bool.and_eq_true, decide_eq_true_eq] at hfound
  refine ⟨?_, hfound.2⟩
  rw [← hfound.1]
  exact h.session?_mem (List.mem_of_find?_eq_some hs)

theorem Linked.ownSession?_of_session? (h : Linked db) {s : ActionIoSession}
    (hs : db.session? executionId = some s) : db.ownSession? executionId s.key.clientId = some s := by
  obtain ⟨hmem, hid⟩ := session?_some hs
  have hsome : (db.ownSession? executionId s.key.clientId).isSome := by
    rw [ownSession?, List.find?_isSome]
    exact ⟨s, hmem, by simp [hid]⟩
  obtain ⟨t, ht⟩ := Option.isSome_iff_exists.mp hsome
  have hsame := (h.session?_of_ownSession? ht).1
  rw [hs] at hsame
  rw [ht, Option.some.inj hsame]

/-! ## Contents -/

theorem content_append {row : ActionIoPayload} {payloadId : Option String}
    (hlinked : ∀ id, payloadId = some id → ∃ p ∈ db.payloads, p.payloadId = id) :
    ({ db with payloads := db.payloads ++ [row] } : ActionIoJournalDatabase).content payloadId =
      db.content payloadId := by
  cases payloadId with
  | none => rfl
  | some id =>
    obtain ⟨p, hp, hid⟩ := hlinked id rfl
    have hsome : (db.payloads.find? fun p => p.payloadId = id).isSome := by
      rw [List.find?_isSome]
      exact ⟨p, hp, by simp [hid]⟩
    rw [content, content, Option.bind_some, Option.bind_some]
    dsimp only
    rw [List.find?_append]
    obtain ⟨q, hq⟩ := Option.isSome_iff_exists.mp hsome
    rw [hq]
    rfl

theorem Linked.contentsOf_append (h : Linked db) (row : ActionIoPayload) :
    ({ db with payloads := db.payloads ++ [row] } : ActionIoJournalDatabase).contentsOf
      executionId = db.contentsOf executionId := by
  apply List.map_congr_left
  intro e he
  apply content_append
  intro payloadId hid
  obtain ⟨p, hp, hsame, -⟩ := h.eventPayloads e (List.mem_filter.mp he).1 payloadId hid
  exact ⟨p, hp, hsame⟩

theorem content_new {row : ActionIoPayload} (hfresh : db.FreshPayload row.payloadId) :
    ({ db with payloads := db.payloads ++ [row] } : ActionIoJournalDatabase).content
      (some row.payloadId) = some row := by
  rw [content, Option.bind_some]
  dsimp only
  rw [List.find?_append, List.find?_eq_none.mpr]
  · simp
  · intro p hp
    simpa using hfresh p hp

theorem Linked.payload_unique (h : Linked db) {p q : ActionIoPayload} (hp : p ∈ db.payloads)
    (hq : q ∈ db.payloads) (heq : p.payloadId = q.payloadId) : p = q :=
  List.inj_on_of_nodup_map h.payloadIds hp hq heq

/-! ## The updates -/

/-- An update of a session that keeps its keys. -/
structure Keeps (f : ActionIoSession → ActionIoSession) : Prop where
  executionId : ∀ s, (f s).executionId = s.executionId
  key : ∀ s, (f s).key = s.key
  deadlines : ∀ s, DeadlinesInOrder s → DeadlinesInOrder (f s)

theorem Linked.updateSession (h : Linked db) {f : ActionIoSession → ActionIoSession}
    (hf : Keeps f) : Linked (db.updateSession executionId f) where
  sessionIds := by
    rw [ActionIoJournalDatabase.updateSession]
    dsimp only
    rw [Rows.map_write hf.executionId]
    exact h.sessionIds
  keys := by
    rw [ActionIoJournalDatabase.updateSession]
    dsimp only
    rw [Rows.map_write hf.key]
    exact h.keys
  payloadIds := h.payloadIds
  messages m hm := (session?_updateSession_isSome hf.executionId).mpr (h.messages m hm)
  events e he := (session?_updateSession_isSome hf.executionId).mpr (h.events e he)
  payloads p hp := (session?_updateSession_isSome hf.executionId).mpr (h.payloads p hp)
  messagePayloads := h.messagePayloads
  eventPayloads := h.eventPayloads
  deadlines s hs := by
    obtain ⟨old, hold, heq⟩ := Rows.mem_write.mp hs
    rw [← heq]
    split_ifs
    · exact hf.deadlines old (h.deadlines old hold)
    · exact h.deadlines old hold

/-- An update of a message that keeps its keys. -/
structure KeepsMessage (f : ActionIoMessage → ActionIoMessage) : Prop where
  executionId : ∀ m, (f m).executionId = m.executionId
  messageId : ∀ m, (f m).messageId = m.messageId
  payloadId : ∀ m, (f m).payloadId = m.payloadId

theorem keeps_asWriting : KeepsMessage DriftActionIoJournal.asWriting :=
  ⟨fun _ => rfl, fun _ => rfl, fun _ => rfl⟩

theorem keeps_withOutcome (state : ActionIoDeliveryState) (confirmedBytes : Option Int)
    (failureCode : Option String) :
    KeepsMessage (DriftActionIoJournal.withOutcome state confirmedBytes failureCode) :=
  ⟨fun _ => rfl, fun _ => rfl, fun _ => rfl⟩

theorem Linked.writeMessages (h : Linked db) {p : ActionIoMessage → Bool}
    {f : ActionIoMessage → ActionIoMessage} (hf : KeepsMessage f) :
    Linked { db with messages := Rows.write p f db.messages } where
  sessionIds := h.sessionIds
  keys := h.keys
  payloadIds := h.payloadIds
  messages m hm := by
    obtain ⟨old, hold, heq⟩ := Rows.mem_write.mp hm
    have hsame : m.executionId = old.executionId := by
      rw [← heq]
      split_ifs
      · exact hf.executionId old
      · rfl
    rw [hsame]
    exact h.messages old hold
  events := h.events
  payloads := h.payloads
  messagePayloads m hm id hm' := by
    obtain ⟨old, hold, heq⟩ := Rows.mem_write.mp hm
    have hsame : m.executionId = old.executionId ∧ m.payloadId = old.payloadId := by
      rw [← heq]
      split_ifs
      · exact ⟨hf.executionId old, hf.payloadId old⟩
      · exact ⟨rfl, rfl⟩
    rw [hsame.1]
    exact h.messagePayloads old hold id (hsame.2 ▸ hm')
  eventPayloads := h.eventPayloads
  deadlines := h.deadlines

theorem session?_append {row : ActionIoSession} (h : db.session? id ≠ none) :
    ({ db with sessions := db.sessions ++ [row] } : ActionIoJournalDatabase).session? id =
      db.session? id := by
  rw [session?] at h ⊢
  dsimp only
  rw [List.find?_append]
  obtain ⟨s, hs⟩ := Option.ne_none_iff_exists'.mp h
  rw [hs, session?, hs]
  rfl

theorem session?_new {row : ActionIoSession} (hfresh : db.FreshSession row) :
    ({ db with sessions := db.sessions ++ [row] } : ActionIoJournalDatabase).session?
      row.executionId = some row := by
  rw [session?]
  dsimp only
  rw [List.find?_append, List.find?_eq_none.mpr]
  · simp
  · intro s hs
    simpa using (hfresh s hs).1

theorem Linked.insertSession (h : Linked db) {row : ActionIoSession}
    (hfresh : db.FreshSession row) (hdeadlines : DeadlinesInOrder row) :
    Linked { db with sessions := db.sessions ++ [row] } where
  sessionIds := by
    rw [List.map_append, List.map_singleton]
    refine List.nodup_append.mpr ⟨h.sessionIds, List.nodup_singleton _, ?_⟩
    intro a ha b hb
    obtain ⟨s, hs, rfl⟩ := List.mem_map.mp ha
    rw [List.mem_singleton.mp hb]
    exact (hfresh s hs).1
  keys := by
    rw [List.map_append, List.map_singleton]
    refine List.nodup_append.mpr ⟨h.keys, List.nodup_singleton _, ?_⟩
    intro a ha b hb
    obtain ⟨s, hs, rfl⟩ := List.mem_map.mp ha
    rw [List.mem_singleton.mp hb]
    exact (hfresh s hs).2
  payloadIds := h.payloadIds
  messages m hm := by
    rw [session?_append (h.messages m hm)]
    exact h.messages m hm
  events e he := by
    rw [session?_append (h.events e he)]
    exact h.events e he
  payloads p hp := by
    rw [session?_append (h.payloads p hp)]
    exact h.payloads p hp
  messagePayloads := h.messagePayloads
  eventPayloads := h.eventPayloads
  deadlines s hs := by
    rcases List.mem_append.mp hs with hold | hnew
    · exact h.deadlines s hold
    · rw [List.mem_singleton.mp hnew]
      exact hdeadlines

theorem Linked.insertPayload (h : Linked db) {row : ActionIoPayload}
    (hsession : db.session? row.executionId ≠ none) (hfresh : db.FreshPayload row.payloadId) :
    Linked { db with payloads := db.payloads ++ [row] } where
  sessionIds := h.sessionIds
  keys := h.keys
  payloadIds := by
    rw [List.map_append, List.map_singleton]
    refine List.nodup_append.mpr ⟨h.payloadIds, List.nodup_singleton _, ?_⟩
    intro a ha b hb
    obtain ⟨p, hp, rfl⟩ := List.mem_map.mp ha
    rw [List.mem_singleton.mp hb]
    exact hfresh p hp
  messages := h.messages
  events := h.events
  payloads p hp := by
    rcases List.mem_append.mp hp with hold | hnew
    · exact h.payloads p hold
    · rw [List.mem_singleton.mp hnew]
      exact hsession
  messagePayloads m hm id hid := by
    obtain ⟨p, hp, hsame⟩ := h.messagePayloads m hm id hid
    exact ⟨p, List.mem_append_left _ hp, hsame⟩
  eventPayloads e he id hid := by
    obtain ⟨p, hp, hsame⟩ := h.eventPayloads e he id hid
    exact ⟨p, List.mem_append_left _ hp, hsame⟩
  deadlines := h.deadlines

theorem Linked.insertMessage (h : Linked db) {row : ActionIoMessage}
    (hsession : db.session? row.executionId ≠ none)
    (hpayload : ∀ id, row.payloadId = some id →
      ∃ p ∈ db.payloads, p.payloadId = id ∧ p.executionId = row.executionId) :
    Linked { db with messages := db.messages ++ [row] } where
  sessionIds := h.sessionIds
  keys := h.keys
  payloadIds := h.payloadIds
  messages m hm := by
    rcases List.mem_append.mp hm with hold | hnew
    · exact h.messages m hold
    · rw [List.mem_singleton.mp hnew]
      exact hsession
  events := h.events
  payloads := h.payloads
  messagePayloads m hm := by
    rcases List.mem_append.mp hm with hold | hnew
    · exact h.messagePayloads m hold
    · rw [List.mem_singleton.mp hnew]
      exact hpayload
  eventPayloads := h.eventPayloads
  deadlines := h.deadlines

theorem Linked.insertEvents (h : Linked db) {rows : List ActionIoEventRow}
    (hsession : ∀ row ∈ rows, db.session? row.executionId ≠ none)
    (hpayload : ∀ row ∈ rows, ∀ id, row.payloadId = some id →
      ∃ p ∈ db.payloads, p.payloadId = id ∧ p.executionId = row.executionId) :
    Linked { db with events := db.events ++ rows } where
  sessionIds := h.sessionIds
  keys := h.keys
  payloadIds := h.payloadIds
  messages := h.messages
  events e he := by
    rcases List.mem_append.mp he with hold | hnew
    · exact h.events e hold
    · exact hsession e hnew
  payloads := h.payloads
  messagePayloads := h.messagePayloads
  eventPayloads e he := by
    rcases List.mem_append.mp he with hold | hnew
    · exact h.eventPayloads e hold
    · exact hpayload e hnew
  deadlines := h.deadlines

theorem Linked.erase (h : Linked db) (payloadIds : List (Option String)) :
    Linked (ActionIoJournalRetention.erase db payloadIds) where
  sessionIds := h.sessionIds
  keys := h.keys
  payloadIds := by
    rw [ActionIoJournalRetention.erase]
    dsimp only
    have hsame : ∀ p, (ActionIoJournalRetention.erased p).payloadId = p.payloadId := fun _ => rfl
    rw [Rows.map_write hsame]
    exact h.payloadIds
  messages := h.messages
  events := h.events
  payloads p hp := by
    obtain ⟨old, hold, heq⟩ := Rows.mem_write.mp hp
    have hsame : p.executionId = old.executionId := by
      rw [← heq]
      split_ifs
      · rfl
      · rfl
    rw [hsame]
    exact h.payloads old hold
  messagePayloads m hm id hid := by
    obtain ⟨p, hp, hsame⟩ := h.messagePayloads m hm id hid
    refine ⟨_, Rows.mem_write.mpr ⟨p, hp, rfl⟩, ?_⟩
    split_ifs
    · exact hsame
    · exact hsame
  eventPayloads e he id hid := by
    obtain ⟨p, hp, hsame⟩ := h.eventPayloads e he id hid
    refine ⟨_, Rows.mem_write.mpr ⟨p, hp, rfl⟩, ?_⟩
    split_ifs
    · exact hsame
    · exact hsame
  deadlines := h.deadlines

theorem content_erase {payloadIds : List (Option String)} {payloadId : Option String}
    (hnot : payloadId ∉ payloadIds) :
    (ActionIoJournalRetention.erase db payloadIds).content payloadId = db.content payloadId := by
  cases payloadId with
  | none => rfl
  | some id =>
    rw [content, content, Option.bind_some, Option.bind_some, ActionIoJournalRetention.erase]
    dsimp only
    have hsame : ∀ p, decide ((ActionIoJournalRetention.erased p).payloadId = id) =
        decide (p.payloadId = id) := fun _ => rfl
    rw [Rows.find?_write hsame]
    cases hfound : db.payloads.find? fun p => p.payloadId = id with
    | none => rfl
    | some p =>
      have hid : p.payloadId = id := by simpa using List.find?_some hfound
      rw [Option.map_some, if_neg]
      rw [hid]
      simpa using hnot

end ActionIoJournalDatabase

end PlugAgente.ActionIo
