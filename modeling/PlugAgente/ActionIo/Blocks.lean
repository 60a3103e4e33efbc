import PlugAgente.ActionIo.OutputLog

/-!
# The blocks of the callers

The output of an execution against the blocks that callers handed to `append`: each block that the
journal took is one event of its stream, which holds the block or, where the byte limit of the
execution cuts it, the beginning that fills the limit.  A block within the limits is taken whole.
-/

namespace PlugAgente.ActionIo

open ActionIoJournalDatabase ActionIoOutputJournal Execution

/-- The stream and the bytes of an event of output. -/
def ActionIoEvent.output? : ActionIoEvent → Option (ActionIoStream × List UInt8)
  | .output _ stream _ bytes => some (stream, bytes)
  | _ => none

def outputsOf (events : List ActionIoEvent) : List (ActionIoStream × List UInt8) :=
  events.filterMap ActionIoEvent.output?

def valuesOf (bytes : List UInt8) : List Int :=
  bytes.map fun byte => (byte.toNat : Int)

/-- The bytes that count against the limit of an execution. -/
def usedBytes (session : ActionIoSession) : Int :=
  session.admittedInputBytes + session.stdoutBytes + session.stderrBytes

/-- The output is that of the blocks: all of each, or of the last one what fills the limit. -/
structure Taken (session : ActionIoSession) (calls : List (ActionIoStream × List Int))
    (outputs : List (ActionIoStream × List UInt8)) : Prop where
  count : outputs.length = calls.length
  begins : ∀ (i : Nat) stream bytes other part, calls[i]? = some (stream, bytes) →
    outputs[i]? = some (other, part) → other = stream ∧ part ≠ [] ∧ valuesOf part <+: bytes
  whole : ∀ (i : Nat) stream bytes other part, calls[i]? = some (stream, bytes) →
    outputs[i]? = some (other, part) → valuesOf part = bytes ∨
      (i + 1 = calls.length ∧ usedBytes session = ActionIoLimits.executionBytes)

variable {services : JournalServices}

/-! ## The bytes of a block -/

theorem valuesOf_uint8List {bytes : List Int} (h : isInvalidBlock bytes = false) :
    valuesOf (Dart.uint8List bytes) = bytes := by
  simp only [isInvalidBlock, Bool.or_eq_false_iff, List.any_eq_false, Bool.not_eq_true,
    decide_eq_false_iff_not, not_lt, gt_iff_lt] at h
  rw [valuesOf, Dart.uint8List, List.map_map]
  conv_rhs => rw [← List.map_id bytes]
  apply List.map_congr_left
  intro byte hbyte
  have hrange := h.2 byte hbyte
  show ((UInt8.ofNat (byte % 2 ^ 8).toNat).toNat : Int) = byte
  rw [UInt8.toNat_ofNat']
  omega

theorem fitting_isPrefix (session : ActionIoSession) (owned : List UInt8) :
    fitting session owned <+: owned := by
  rw [fitting]
  split_ifs
  · exact List.take_prefix _ _
  · exact List.prefix_rfl

theorem fitting_cases {session : ActionIoSession} (owned : List UInt8)
    (hremaining : 0 < remaining session) :
    fitting session owned = owned ∨
      ((fitting session owned).length : Int) = remaining session := by
  rw [fitting]
  split_ifs with hlarge
  · right
    rw [List.length_take]
    omega
  · exact .inl rfl

/-! ## Steps -/

theorem Taken.later {session session' : ActionIoSession} {calls : List (ActionIoStream × List Int)}
    {outputs : List (ActionIoStream × List UInt8)} (h : Taken session calls outputs)
    (hused : usedBytes session ≤ usedBytes session')
    (hlimit : usedBytes session' ≤ ActionIoLimits.executionBytes) :
    Taken session' calls outputs := by
  refine ⟨h.count, h.begins, ?_⟩
  intro i stream bytes other part hcall houtput
  rcases h.whole i stream bytes other part hcall houtput with hwhole | ⟨hlast, hfull⟩
  · exact .inl hwhole
  · exact .inr ⟨hlast, by omega⟩

/-- One more block: what was taken before was taken whole, for there was room. -/
theorem Taken.concat {session session' : ActionIoSession}
    {calls : List (ActionIoStream × List Int)} {outputs : List (ActionIoStream × List UInt8)}
    (h : Taken session calls outputs) {stream : ActionIoStream} {bytes : List Int}
    (hvalid : isInvalidBlock bytes = false) (hremaining : 0 < remaining session)
    (hused : usedBytes session' =
      usedBytes session + (fitting session (Dart.uint8List bytes)).length) :
    Taken session' (calls ++ [(stream, bytes)])
      (outputs ++ [(stream, fitting session (Dart.uint8List bytes))]) := by
  have hroom : remaining session = ActionIoLimits.executionBytes - usedBytes session := by
    rw [remaining, usedBytes]
    omega
  have hnew : ∀ (i : Nat) other bytes' other' part,
      (calls ++ [(stream, bytes)])[i]? = some (other, bytes') →
      (outputs ++ [(stream, fitting session (Dart.uint8List bytes))])[i]? = some (other', part) →
      (calls[i]? = some (other, bytes') ∧ outputs[i]? = some (other', part)) ∨
        (i = calls.length ∧ other = stream ∧ bytes' = bytes ∧ other' = stream ∧
          part = fitting session (Dart.uint8List bytes)) := by
    intro i other bytes' other' part hcall houtput
    rcases Ledger.getElem?_added (a := (other, bytes')) hcall with hold | ⟨hi, hpair⟩
    · left
      refine ⟨hold, ?_⟩
      rwa [List.getElem?_append_left] at houtput
      rw [h.count]
      exact (List.getElem?_eq_some_iff.mp hold).1
    · right
      rw [hi, ← h.count, List.getElem?_concat_length] at houtput
      obtain ⟨rfl, rfl⟩ := Prod.mk.inj hpair
      obtain ⟨rfl, rfl⟩ := Prod.mk.inj (Option.some.inj houtput)
      exact ⟨hi, rfl, rfl, rfl, rfl⟩
  refine ⟨by simp [h.count], ?_, ?_⟩
  · intro i other bytes' other' part hcall houtput
    rcases hnew i other bytes' other' part hcall houtput with hold | ⟨-, rfl, rfl, rfl, rfl⟩
    · exact h.begins i other bytes' other' part hold.1 hold.2
    · refine ⟨rfl, fitting_ne_nil hremaining (Journal.block_valid hvalid).1, ?_⟩
      conv_rhs => rw [← valuesOf_uint8List hvalid]
      exact (fitting_isPrefix session _).map _
  · intro i other bytes' other' part hcall houtput
    rcases hnew i other bytes' other' part hcall houtput with hold | ⟨rfl, rfl, rfl, rfl, rfl⟩
    · rcases h.whole i other bytes' other' part hold.1 hold.2 with hwhole | ⟨-, hfull⟩
      · exact .inl hwhole
      · omega
    · rcases fitting_cases (Dart.uint8List bytes') hremaining with hall | hcut
      · left
        rw [hall]
        exact valuesOf_uint8List hvalid
      · right
        exact ⟨by simp, by omega⟩

theorem usedBytes_move {v w : Execution} (h : Move services v w) :
    usedBytes v.session ≤ usedBytes w.session := by
  cases h with
  | admitted m hadmissible hbytes _ _ =>
    show _ ≤ v.session.admittedInputBytes + m.inputBytes + v.session.stdoutBytes +
      v.session.stderrBytes
    rw [usedBytes]
    omega
  | appended stream owned random payloadId payload =>
    show _ ≤ v.session.admittedInputBytes +
      (v.session.stdoutBytes + if stream = .stdout then _ else 0) +
      (v.session.stderrBytes + if stream = .stderr then _ else 0)
    rw [usedBytes]
    split_ifs <;> omega
  | starting | running | handed | delivered | interrupted | finished | expired => exact le_rfl

theorem usedBytes_moves {v w : Execution} (h : Moves services v w) :
    usedBytes v.session ≤ usedBytes w.session := by
  induction h with
  | refl => exact le_rfl
  | tail _ hlast ih => exact ih.trans (usedBytes_move hlast)

theorem outputsOf_terminal (events : List ActionIoEvent) (sequence : Int) (outcome : Outcome) :
    outputsOf (events ++ terminalEvents sequence outcome) = outputsOf events := by
  rw [outputsOf, List.filterMap_append, terminalEvents]
  split_ifs
  · exact List.append_nil _
  · exact List.append_nil _

/-! ## Blocks within the limits -/

/-- What a block draws from outside is there: space on the disk and in the budget of payloads, a
key, and an id and a nonce that are new. -/
structure Supplied (services : JournalServices) (draw : Draw) (db : ActionIoJournalDatabase)
    (plaintext context : List UInt8) : Prop where
  capacity : draw.capacity = .ok ()
  budget : requireActionIoPayloadCapacity plaintext.length db = .ok ((), db)
  encrypts : ∃ payload, services.cipher.encrypt draw.random plaintext context = .ok payload ∧
    ∀ p ∈ db.payloads, p.payloadId ≠ draw.payloadId ∧
      ¬ (p.keyId = payload.keyId ∧ p.nonce = payload.nonce)

theorem Execution.OutputKept.sequence_fresh {v : Execution} (h : OutputKept services v) :
    ∀ row ∈ v.events, row.sequence ≠ v.session.nextEventSequence := by
  obtain ⟨contents, ⟨log, hlog, hrows, -, hevents⟩, -⟩ := h.log
  intro row hrow heq
  rw [hrows] at hrow
  obtain ⟨r, hr, rfl⟩ := List.mem_map.mp hrow
  obtain ⟨i, hi⟩ := List.getElem?_of_mem hr
  have hlt := (List.getElem?_eq_some_iff.mp hi).1
  have hlength : v.appended.length = log.length := by rw [hevents, List.length_map]
  rw [hlog.sequence hi, h.next] at heq
  omega

namespace Journal

variable {s s' : Journal}

/-- A block is taken whole while the output is captured and both limits leave room for it. -/
theorem append_taken {executionId : String} {v : Execution} (h : OutputKept services v)
    (hv : s.execution executionId = some v) {draw : Draw} {stream : ActionIoStream}
    {bytes : List Int} (hvalid : isInvalidBlock bytes = false)
    (hcapturing : isCapturing v.session = true) (hexpired : v.session.outputExpired = false)
    (hbytes : usedBytes v.session + bytes.length ≤ ActionIoLimits.executionBytes)
    (hevents : (v.appended.length : Int) + 1 + ActionIoLimits.terminalEventReserve ≤
      ActionIoLimits.executionEvents)
    (hsupplied : Supplied services draw s.db (Dart.uint8List bytes)
      (ActionIoPayloadCipher.context executionId stream.name "" (v.appended.length + 1)
        (streamTotal stream v.appended))) :
    ∃ db, appendPrefix services draw executionId stream (Dart.uint8List bytes) s.db =
      .ok (.output (v.appended.length + 1) stream (streamTotal stream v.appended)
        (Dart.uint8List bytes), db) := by
  have hfound := session_of_execution hv
  have hlength : (Dart.uint8List bytes).length = bytes.length := List.length_map _
  have hpositive := List.length_pos_iff.mpr (Journal.block_valid hvalid).1
  have hremaining : (bytes.length : Int) ≤ remaining v.session := by
    rw [remaining]
    rw [usedBytes] at hbytes
    omega
  have hall : fitting v.session (Dart.uint8List bytes) = Dart.uint8List bytes := by
    rw [fitting, if_neg (by omega)]
  obtain ⟨hcapacity, hbudget, payload, hencrypt, hfresh⟩ := hsupplied
  have htable : v.events = s.db.eventsOf executionId := by
    obtain ⟨session, -, heq⟩ := Option.map_eq_some_iff.mp hv
    rw [← heq]
  have hunused : ∀ row ∈ s.db.events, row.executionId = executionId →
      row.sequence ≠ v.appended.length + 1 := by
    intro row hrow hid heq
    refine h.sequence_fresh row ?_ (heq.trans h.next.symm)
    rw [htable, eventsOf, List.mem_filter]
    exact ⟨hrow, by simpa using hid⟩
  rw [appendPrefix, Atomic.bind_of_ok (ActionIoOutputJournal.session_eq_ok.mpr ⟨hfound, rfl⟩),
    Atomic.bind_of_ok (Atomic.require_of ⟨hcapturing, hexpired⟩ _ _),
    Atomic.bind_of_ok (Atomic.require_of (by rw [h.next]; omega) _ _)]
  simp only [hall, h.next, h.streamBytes]
  rw [Atomic.bind_of_ok (Atomic.ofExcept_eq_ok.mpr ⟨hcapacity, rfl⟩), Atomic.bind_of_ok hbudget,
    Atomic.bind_of_ok (Atomic.ofExcept_eq_ok.mpr ⟨hencrypt, rfl⟩),
    Atomic.bind_of_ok (insertPayload_of hfresh), Atomic.bind_of_ok (insertEvent_of hunused)]
  exact ⟨_, rfl⟩

theorem append_recorded {draw : Draw} {executionId : String} {stream : ActionIoStream}
    {bytes : List Int} {event : ActionIoEvent} {db : ActionIoJournalDatabase}
    (hvalid : isInvalidBlock bytes = false)
    (hok : appendPrefix services draw executionId stream (Dart.uint8List bytes) s.db =
      .ok (event, db)) (hwhole : eventBytes event = (Dart.uint8List bytes).length) :
    ActionIoOutputJournal.append services draw executionId stream bytes s.db = (.ok event, db) ∧
      Journal.of executionId (s.append services draw executionId stream bytes).appended =
        Journal.of executionId s.appended ++ [event] := by
  refine ⟨?_, ?_⟩
  · rw [ActionIoOutputJournal.append, hvalid]
    simp only [Bool.false_eq_true, if_false, Atomic.commit_of_ok hok]
    rw [if_neg (by omega)]
  · rw [Journal.append, hvalid, Atomic.commit_of_ok hok]
    exact of_append_self (by simp)

theorem outputs_recorded_terminal (s : Journal) (executionId id : String) (sequence : Int)
    (outcome : Outcome) :
    outputsOf (Journal.of id (s.record executionId (terminalEvents sequence outcome)).appended) =
      outputsOf (Journal.of id s.appended) := by
  rw [record]
  by_cases hid : id = executionId
  · subst hid
    rw [of_append_self (by simp), List.map_map]
    simp only [Function.comp_def, List.map_id']
    exact outputsOf_terminal _ _ _
  · rw [of_append_ne (by simp) hid]

/-- Only a block that is taken adds to the calls and to the output. -/
theorem calls_step {e : JournalEvent} (hstep : (journal services).step s e = some s') :
    (s'.calls = s.calls ∧ ∀ id, outputsOf (Journal.of id s'.appended) =
      outputsOf (Journal.of id s.appended)) ∨
    ∃ draw executionId stream bytes event db, isInvalidBlock bytes = false ∧
      appendPrefix services draw executionId stream (Dart.uint8List bytes) s.db = .ok (event, db) ∧
      s'.db = db ∧ s'.calls = s.calls ++ [(executionId, stream, bytes)] ∧
      s'.appended = s.appended ++ [(executionId, event)] := by
  cases e with
  | markStarting configured executionId =>
    rw [← Option.some.inj hstep]
    left
    show (s.markStarting configured executionId).calls = _ ∧ _
    rw [Journal.markStarting]
    split <;> exact ⟨rfl, fun _ => rfl⟩
  | beginNextInput executionId =>
    rw [← Option.some.inj hstep]
    left
    show (s.beginNextInput services executionId).calls = _ ∧ _
    rw [Journal.beginNextInput]
    split <;> exact ⟨rfl, fun _ => rfl⟩
  | append draw executionId stream bytes =>
    rw [← Option.some.inj hstep]
    show (s.append services draw executionId stream bytes).calls = _ ∧ _ ∨ _
    rw [Journal.append]
    cases hvalid : isInvalidBlock bytes with
    | true => exact .inl ⟨rfl, fun _ => rfl⟩
    | false =>
      rw [append_snd hvalid]
      rcases Atomic.commit_cases (appendPrefix services draw executionId stream
        (Dart.uint8List bytes)) s.db with ⟨event, db, hok, hcommit⟩ | ⟨e, -, hcommit⟩
      · rw [hcommit]
        exact .inr ⟨draw, executionId, stream, bytes, event, db, hvalid, hok, rfl, rfl, rfl⟩
      · rw [hcommit]
        exact .inl ⟨rfl, fun _ => rfl⟩
  | finish executionId outcome now =>
    rw [← Option.some.inj hstep]
    left
    show (s.finish executionId outcome now).calls = _ ∧ _
    rw [Journal.finish]
    split
    · exact ⟨rfl, fun id => outputs_recorded_terminal _ executionId id _ _⟩
    · exact ⟨rfl, fun _ => rfl⟩
  | cancelQueued executionId clientId now =>
    rw [← Option.some.inj hstep]
    left
    show (s.cancelQueued executionId clientId now).calls = _ ∧ _
    rw [Journal.cancelQueued]
    split
    · exact ⟨rfl, fun id => outputs_recorded_terminal _ executionId id _ _⟩
    · exact ⟨rfl, fun _ => rfl⟩
    · exact ⟨rfl, fun _ => rfl⟩
  | claim | admitInput | markRunning | finishInput | reconcileInterrupted | expire =>
    rw [← Option.some.inj hstep]
    exact .inl ⟨rfl, fun _ => rfl⟩

/-- The calls are about sessions that exist, and the output of each session is that of its calls. -/
structure Called (s : Journal) : Prop where
  known : ∀ entry ∈ s.calls, s.db.session? entry.1 ≠ none
  taken : ∀ id session, s.db.session? id = some session →
    Taken session (Journal.of id s.calls) (outputsOf (Journal.of id s.appended))

/-- What was taken of an execution stays taken, or the execution is new. -/
theorem Called.kept (hlawful : services.cipher.algorithm.Lawful) (h : s.Called)
    (hreach : (journal services).Reachable s) {e : JournalEvent}
    (hstep : (journal services).step s e = some s') {id : String} {session' : ActionIoSession}
    (hsession' : s'.db.session? id = some session') :
    Taken session' (Journal.of id s.calls) (outputsOf (Journal.of id s.appended)) := by
  have hsound := sound_of_reachable hreach
  have hevolves := (simulates_step hstep hsound).2 id
  have hkept := Journal.outputKept hlawful (hreach.step trivial hstep) (execution_some hsession')
  have hlimit : usedBytes session' ≤ ActionIoLimits.executionBytes := hkept.bytes
  rw [execution_some hsession'] at hevolves
  cases hsession : s.db.session? id with
  | none =>
    have hcalls : Journal.of id s.calls = [] := of_eq_nil fun entry hentry hid =>
      h.known entry hentry (hid ▸ hsession)
    have happended : Journal.of id s.appended = [] := of_eq_nil fun entry hentry hid =>
      hsound.appended entry hentry (hid ▸ hsession)
    rw [hcalls, happended]
    exact ⟨rfl, by simp, by simp⟩
  | some session =>
    rw [execution_some hsession] at hevolves
    exact (h.taken id session hsession).later (usedBytes_moves hevolves) hlimit

theorem Called.step (hlawful : services.cipher.algorithm.Lawful) (h : s.Called)
    (hreach : (journal services).Reachable s) {e : JournalEvent}
    (hstep : (journal services).step s e = some s') : s'.Called := by
  have hsound := sound_of_reachable hreach
  have hstays : ∀ id, s.db.session? id ≠ none → s'.db.session? id ≠ none := by
    intro id hid hnone
    obtain ⟨session, hsession⟩ := Option.ne_none_iff_exists'.mp hid
    have hevolves := (simulates_step hstep hsound).2 id
    rw [execution_some hsession, execution_eq_none hnone] at hevolves
    exact hevolves
  rcases calls_step hstep with ⟨hcalls, houtputs⟩ |
    ⟨draw, executionId, stream, bytes, event, db, hvalid, hok, hdb, hcalls, happended⟩
  · refine ⟨fun entry hentry => hstays _ (h.known entry (hcalls ▸ hentry)), ?_⟩
    intro id session' hsession'
    rw [hcalls, houtputs id]
    exact h.kept hlawful hreach hstep hsession'
  · obtain ⟨session, payload, hsession, -, -, hremaining, -, -, -, rfl, rfl⟩ := appendPrefix_ok hok
    have hfound := hstays executionId (by simp [hsession])
    refine ⟨?_, ?_⟩
    · intro entry hentry
      rw [hcalls] at hentry
      rcases List.mem_append.mp hentry with hold | hnew
      · exact hstays _ (h.known entry hold)
      · rw [List.mem_singleton.mp hnew]
        exact hfound
    · intro id session' hsession'
      rw [hcalls, happended]
      by_cases hid : id = executionId
      · subst hid
        rw [of_append_self (by simp), of_append_self (by simp), outputsOf, List.filterMap_append]
        have hafter : s'.db.session? id = some (ActionIoOutputJournal.appended session stream
            (fitting session (Dart.uint8List bytes)).length session) := by
          rw [hdb]
          exact session?_updated _ ⟨fun _ => rfl, fun _ => rfl, fun _ hs => hs⟩ rfl hsession
        refine (h.taken id session hsession).concat hvalid hremaining ?_
        rw [Option.some.inj (hsession'.symm.trans hafter)]
        show session.admittedInputBytes + (session.stdoutBytes + if stream = .stdout then _ else 0) +
          (session.stderrBytes + if stream = .stderr then _ else 0) = _
        rw [usedBytes]
        cases stream with
        | stdout =>
          rw [if_pos rfl, if_neg (by simp)]
          omega
        | stderr =>
          rw [if_neg (by simp), if_pos rfl]
          omega
      · rw [of_append_ne (by simp) hid, of_append_ne (by simp) hid]
        exact h.kept hlawful hreach hstep hsession'

theorem called_of_reachable (hlawful : services.cipher.algorithm.Lawful)
    (h : (journal services).Reachable s) : s.Called := by
  suffices hall : (journal services).Reachable s ∧ s.Called from hall.2
  refine h.invariant (I := fun s => (journal services).Reachable s ∧ s.Called) ?_ ?_
  · intro s hstart
    refine ⟨.start hstart, ?_⟩
    rw [show s = {} from hstart]
    refine ⟨by simp, ?_⟩
    intro id session hsession
    cases hsession
  · rintro s e s' ⟨hreach, hcalled⟩ - hstep
    exact ⟨hreach.step trivial hstep, hcalled.step hlawful hreach hstep⟩

end Journal

end PlugAgente.ActionIo
