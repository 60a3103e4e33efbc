import PlugAgente.ActionIo.Simulation
import PlugAgente.Machine.Ledger

/-!
# The log of the output

The events of an execution are a log: the sequence of an event is its position, counted from
one, and the offset of a block is what the earlier events hold of its stream.  A `Record` is an
event with the row and the payload that hold it, and `Holds` says that a reader gets the event
back from them.

`OutputKept` is the log of an execution with the totals in its session, which stay within the
limits: while the output is captured there is room for the events of the end.
-/

namespace PlugAgente.ActionIo

open DriftActionIoJournal ActionIoOutputJournal Execution

/-- The bytes that an event holds of a stream. -/
def shareOf (stream : ActionIoStream) : ActionIoEvent → Int
  | .output _ other _ bytes => if other = stream then bytes.length else 0
  | _ => 0

/-- The bytes that events hold of a stream. -/
def streamTotal (stream : ActionIoStream) (events : List ActionIoEvent) : Int :=
  Ledger.total (shareOf stream) events

/-- An event, with the row and the payload that hold it. -/
structure Record where
  row : ActionIoEventRow
  content : Option ActionIoPayload
  event : ActionIoEvent

/-- The event is what a reader gets from the row and the payload, after the events `before`. -/
inductive Holds (services : JournalServices) (executionId : String)
    (before : List ActionIoEvent) : Record → Prop where
  | output (stream : ActionIoStream) (bytes : List UInt8) (payloadId : String)
    (payload : ActionIoPayload) (hnonempty : bytes ≠ [])
    (hblock : (bytes.length : Int) ≤ ActionIoLimits.blockBytes)
    (hbytes : payload.plaintextBytes = bytes.length)
    (hdecrypt : services.cipher.decrypt payload.encrypted
      (ActionIoPayloadCipher.context executionId stream.name "" (before.length + 1)
        (streamTotal stream before)) = .ok bytes) :
    Holds services executionId before
      { row := outputRow executionId (before.length + 1) stream (streamTotal stream before)
          payloadId
        content := some payload
        event := .output (before.length + 1) stream (streamTotal stream before) bytes }
  | exited (exitCode : Option Int) :
    Holds services executionId before
      { row := exitedRow executionId (before.length + 1) exitCode
        content := none
        event := .processExited (before.length + 1) exitCode }
  | completed (outcome : Outcome) :
    Holds services executionId before
      { row := completedRow executionId (before.length + 1) outcome
        content := none
        event := .completed (before.length + 1) outcome.complete outcome.failureCode }

/-- Each record holds its event after those before it. -/
def IsLog (services : JournalServices) (executionId : String) (log : List Record) : Prop :=
  ∀ before r rest, log = before ++ r :: rest →
    Holds services executionId (before.map (·.event)) r

variable {services : JournalServices} {executionId : String}

theorem IsLog.nil : IsLog services executionId [] := by
  intro before r rest h
  simp at h

theorem IsLog.concat {log : List Record} (h : IsLog services executionId log) {r : Record}
    (hr : Holds services executionId (log.map (·.event)) r) :
    IsLog services executionId (log ++ [r]) := by
  intro before x rest heq
  rcases List.eq_nil_or_concat rest with hnil | ⟨front, last, hconcat⟩
  · subst hnil
    obtain ⟨hbefore, hx⟩ := List.append_inj' heq rfl
    rw [← hbefore, ← List.singleton_inj.mp hx]
    exact hr
  · subst hconcat
    have hcut : log ++ [r] = (before ++ x :: front) ++ [last] := by simpa using heq
    exact h before x front (List.append_inj' hcut rfl).1

theorem IsLog.front {front back : List Record} (h : IsLog services executionId (front ++ back)) :
    IsLog services executionId front := by
  intro before r rest heq
  apply h before r (rest ++ back)
  rw [heq, List.append_assoc, List.cons_append]

theorem Holds.sequence {before : List ActionIoEvent} {r : Record}
    (hr : Holds services executionId before r) : r.row.sequence = before.length + 1 := by
  cases hr <;> rfl

theorem IsLog.sequence {log : List Record} (hlog : IsLog services executionId log) {i : Nat}
    {r : Record} (hi : log[i]? = some r) : r.row.sequence = i + 1 := by
  obtain ⟨hlt, heq⟩ := List.getElem?_eq_some_iff.mp hi
  have hsplit : log = log.take i ++ r :: log.drop (i + 1) := by
    rw [← heq, List.getElem_cons_drop, List.take_append_drop]
  have hsequence := (hlog _ _ _ hsplit).sequence
  rwa [List.length_map, List.length_take, Nat.min_eq_left (Nat.le_of_lt hlt)] at hsequence

/-- The rows and the payloads hold the events. -/
def Logged (services : JournalServices) (executionId : String) (rows : List ActionIoEventRow)
    (contents : List (Option ActionIoPayload)) (events : List ActionIoEvent) : Prop :=
  ∃ log, IsLog services executionId log ∧ rows = log.map (·.row) ∧
    contents = log.map (·.content) ∧ events = log.map (·.event)

theorem Logged.concat {rows : List ActionIoEventRow} {contents : List (Option ActionIoPayload)}
    {events : List ActionIoEvent} (h : Logged services executionId rows contents events)
    {r : Record} (hr : Holds services executionId events r) :
    Logged services executionId (rows ++ [r.row]) (contents ++ [r.content])
      (events ++ [r.event]) := by
  obtain ⟨log, hlog, hrows, hcontents, hevents⟩ := h
  rw [hevents] at hr
  refine ⟨log ++ [r], hlog.concat hr, ?_, ?_, ?_⟩
  · rw [hrows, List.map_append, List.map_singleton]
  · rw [hcontents, List.map_append, List.map_singleton]
  · rw [hevents, List.map_append, List.map_singleton]

theorem Logged.terminal {rows : List ActionIoEventRow} {contents : List (Option ActionIoPayload)}
    {events : List ActionIoEvent} (h : Logged services executionId rows contents events)
    (outcome : Outcome) :
    Logged services executionId
      (rows ++ terminalRows executionId (events.length + 1) outcome)
      (contents ++ (terminalRows executionId (events.length + 1) outcome).map fun _ => none)
      (events ++ terminalEvents (events.length + 1) outcome) := by
  rw [terminalRows, terminalEvents]
  split_ifs
  · have hexited := h.concat (Holds.exited outcome.exitCode)
    have hcompleted := hexited.concat (Holds.completed outcome)
    simp only [List.append_assoc, List.cons_append, List.nil_append, List.length_append,
      List.length_singleton, Nat.cast_add, Nat.cast_one] at hcompleted
    exact hcompleted
  · exact h.concat (Holds.completed outcome)

namespace Execution

structure OutputKept (services : JournalServices) (v : Execution) : Prop where
  /-- The payloads are there until the output has expired. -/
  log : ∃ contents, Logged services v.session.executionId v.events contents v.appended ∧
    (v.session.outputExpired = false → v.contents = contents)
  next : v.session.nextEventSequence = v.appended.length + 1
  admitted : 0 ≤ v.session.admittedInputBytes
  stdout : v.session.stdoutBytes = streamTotal .stdout v.appended
  stderr : v.session.stderrBytes = streamTotal .stderr v.appended
  bytes : v.session.admittedInputBytes + v.session.stdoutBytes + v.session.stderrBytes ≤
    ActionIoLimits.executionBytes
  events : v.session.nextEventSequence ≤ ActionIoLimits.executionEvents + 1
  /-- There is room for the events of the end. -/
  room : isCapturing v.session = true →
    v.session.nextEventSequence + ActionIoLimits.terminalEventReserve ≤
      ActionIoLimits.executionEvents + 1

variable {v w : Execution}

theorem OutputKept.born (h : Born v) : OutputKept services v := by
  obtain ⟨intent, fingerprint, rfl⟩ := h
  refine ⟨⟨[], ⟨[], IsLog.nil, rfl, rfl, rfl⟩, fun _ => rfl⟩, rfl, le_refl _, rfl, rfl, ?_, ?_, fun _ => ?_⟩
  · show (0 : Int) + 0 + 0 ≤ 64 * 1024 * 1024
    omega
  · show (1 : Int) ≤ 65536 + 1
    omega
  · show (1 : Int) + 2 ≤ 65536 + 1
    omega

theorem OutputKept.session (h : OutputKept services v)
    (hid : w.session.executionId = v.session.executionId) (hevents : w.events = v.events)
    (happended : w.appended = v.appended) (hcontents : w.contents = v.contents)
    (hexpired : w.session.outputExpired = v.session.outputExpired)
    (hnext : w.session.nextEventSequence = v.session.nextEventSequence)
    (hstdout : w.session.stdoutBytes = v.session.stdoutBytes)
    (hstderr : w.session.stderrBytes = v.session.stderrBytes)
    (hadmitted : 0 ≤ w.session.admittedInputBytes)
    (hbytes : w.session.admittedInputBytes + v.session.stdoutBytes + v.session.stderrBytes ≤
      ActionIoLimits.executionBytes)
    (hcapturing : isCapturing w.session = true → isCapturing v.session = true) :
    OutputKept services w := by
  obtain ⟨contents, hlogged, hheld⟩ := h.log
  refine ⟨⟨contents, ?_, ?_⟩, ?_, hadmitted, ?_, ?_, ?_, ?_, ?_⟩
  · rw [hid, hevents, happended]
    exact hlogged
  · intro hnot
    rw [hcontents]
    exact hheld (hexpired ▸ hnot)
  · rw [hnext, happended]
    exact h.next
  · rw [hstdout, happended]
    exact h.stdout
  · rw [hstderr, happended]
    exact h.stderr
  · rw [hstdout, hstderr]
    exact hbytes
  · rw [hnext]
    exact h.events
  · intro hafter
    rw [hnext]
    exact h.room (hcapturing hafter)

/-! ## Output -/

theorem streamTotal_concat (stream : ActionIoStream) (events : List ActionIoEvent)
    (event : ActionIoEvent) :
    streamTotal stream (events ++ [event]) = streamTotal stream events + shareOf stream event :=
  Ledger.total_concat _ _ _

theorem OutputKept.streamBytes (h : OutputKept services v) (stream : ActionIoStream) :
    streamBytes v.session stream = streamTotal stream v.appended := by
  cases stream with
  | stdout => exact h.stdout
  | stderr => exact h.stderr

theorem fitting_ne_nil {session : ActionIoSession} {owned : List UInt8}
    (hremaining : 0 < remaining session) (howned : owned ≠ []) : fitting session owned ≠ [] := by
  rw [fitting]
  split_ifs
  · cases owned with
    | nil => exact absurd rfl howned
    | cons byte rest =>
      obtain ⟨n, hn⟩ : ∃ n, (remaining session).toNat = n + 1 := ⟨(remaining session).toNat - 1, by
        omega⟩
      rw [hn, List.take_succ_cons]
      simp
  · exact howned

theorem length_fitting_le {session : ActionIoSession} (owned : List UInt8)
    (hremaining : 0 < remaining session) :
    ((fitting session owned).length : Int) ≤ remaining session ∧
      (fitting session owned).length ≤ owned.length := by
  rw [fitting]
  split_ifs with hlarge
  · rw [List.length_take]
    omega
  · omega

theorem OutputKept.appended (h : OutputKept services v) (hlawful : services.cipher.algorithm.Lawful)
    {stream : ActionIoStream} {owned random : List UInt8} {payloadId : String}
    {payload : ActionIoEncryptedPayload} (hexpired : v.session.outputExpired = false)
    (hremaining : 0 < remaining v.session) (howned : owned ≠ [])
    (hblock : (owned.length : Int) ≤ ActionIoLimits.blockBytes)
    (hroom : v.session.nextEventSequence + ActionIoLimits.terminalEventReserve ≤
      ActionIoLimits.executionEvents)
    (hencrypt : services.cipher.encrypt random (fitting v.session owned)
      (ActionIoPayloadCipher.context v.session.executionId stream.name ""
        v.session.nextEventSequence (ActionIoOutputJournal.streamBytes v.session stream)) =
          .ok payload) :
    OutputKept services { v with
      session := ActionIoOutputJournal.appended v.session stream (fitting v.session owned).length
        v.session
      events := v.events ++ [outputRow v.session.executionId v.session.nextEventSequence stream
        (ActionIoOutputJournal.streamBytes v.session stream) payloadId]
      contents := v.contents ++ [some (payloadRow payloadId v.session.executionId payload
        (fitting v.session owned).length)]
      appended := v.appended ++ [.output v.session.nextEventSequence stream
        (ActionIoOutputJournal.streamBytes v.session stream) (fitting v.session owned)] } := by
  obtain ⟨contents, hlogged, hheld⟩ := h.log
  obtain ⟨hfits, hshort⟩ := length_fitting_le owned hremaining
  have hdecrypt := ActionIoPayloadCipher.decrypt_encrypt hlawful hencrypt
  rw [h.next, h.streamBytes] at hdecrypt
  rw [h.next, h.streamBytes]
  refine ⟨⟨_, hlogged.concat (Holds.output stream _ payloadId
    (payloadRow payloadId v.session.executionId payload (fitting v.session owned).length)
    (fitting_ne_nil hremaining howned) ?_ rfl hdecrypt), ?_⟩, ?_, h.admitted, ?_, ?_, ?_, ?_, ?_⟩
  · omega
  · intro _
    rw [hheld hexpired]
  · show v.session.nextEventSequence + 1 = ((v.appended ++ [_]).length : Int) + 1
    rw [h.next, List.length_append, List.length_singleton]
    omega
  · show v.session.stdoutBytes + _ = streamTotal _ (_ ++ [_])
    rw [streamTotal_concat, h.stdout, shareOf]
  · show v.session.stderrBytes + _ = streamTotal _ (_ ++ [_])
    rw [streamTotal_concat, h.stderr, shareOf]
  · have hbytes := h.bytes
    show v.session.admittedInputBytes + (v.session.stdoutBytes + if stream = .stdout then _ else 0) +
      (v.session.stderrBytes + if stream = .stderr then _ else 0) ≤ _
    rw [remaining] at hfits
    cases stream with
    | stdout =>
      rw [if_pos rfl, if_neg (by simp)]
      omega
    | stderr =>
      rw [if_neg (by simp), if_pos rfl]
      omega
  · have hreserve : ActionIoLimits.terminalEventReserve = 2 := rfl
    show v.session.nextEventSequence + 1 ≤ _
    omega
  · intro _
    show v.session.nextEventSequence + 1 + _ ≤ _
    omega

/-! ## The end -/

theorem streamTotal_terminal (stream : ActionIoStream) (events : List ActionIoEvent) (sequence : Int)
    (outcome : Outcome) :
    streamTotal stream (events ++ terminalEvents sequence outcome) = streamTotal stream events := by
  rw [terminalEvents]
  split_ifs
  · rw [List.append_cons, streamTotal_concat, streamTotal_concat]
    show streamTotal stream events + 0 + 0 = _
    omega
  · rw [streamTotal_concat]
    show streamTotal stream events + 0 = _
    omega

theorem length_terminal (executionId : String) (sequence : Int) (outcome : Outcome) :
    (terminalEvents sequence outcome).length =
      (terminalRows executionId sequence outcome).length ∧
        ((terminalRows executionId sequence outcome).length : Int) ≤
          ActionIoLimits.terminalEventReserve := by
  rw [terminalEvents, terminalRows]
  split_ifs
  · exact ⟨rfl, le_refl _⟩
  · refine ⟨rfl, ?_⟩
    show (1 : Int) ≤ 2
    omega

theorem OutputKept.finished (h : OutputKept services v) (outcome : Outcome) (now : Int)
    (hcapturing : isCapturing v.session = true) (messages : List ActionIoMessage) :
    OutputKept services { v with
      session := ActionIoOutputJournal.finished v.session outcome (v.session.nextEventSequence +
        (terminalRows v.session.executionId v.session.nextEventSequence outcome).length) now
          v.session
      messages := messages
      events := v.events ++
        terminalRows v.session.executionId v.session.nextEventSequence outcome
      contents := v.contents ++
        (terminalRows v.session.executionId v.session.nextEventSequence outcome).map fun _ => none
      appended := v.appended ++ terminalEvents v.session.nextEventSequence outcome } := by
  obtain ⟨contents, hlogged, hheld⟩ := h.log
  obtain ⟨hlength, hreserve⟩ :=
    length_terminal v.session.executionId v.session.nextEventSequence outcome
  have hroom := h.room hcapturing
  refine ⟨⟨contents ++ (terminalRows v.session.executionId v.session.nextEventSequence
    outcome).map fun _ => none, ?_, ?_⟩, ?_, h.admitted, ?_, ?_, h.bytes, ?_, ?_⟩
  · rw [h.next]
    exact hlogged.terminal outcome
  · intro hexpired
    rw [← hheld hexpired]
  · show v.session.nextEventSequence + _ = ((v.appended ++ _).length : Int) + 1
    rw [List.length_append, hlength, h.next]
    push_cast
    omega
  · show v.session.stdoutBytes = _
    rw [streamTotal_terminal, h.stdout]
  · show v.session.stderrBytes = _
    rw [streamTotal_terminal, h.stderr]
  · show v.session.nextEventSequence + _ ≤ _
    omega
  · intro hcaptured
    have hended : isCapturing (ActionIoOutputJournal.finished v.session outcome
        (v.session.nextEventSequence + (terminalRows v.session.executionId
          v.session.nextEventSequence outcome).length) now v.session) = false := by
      simp only [isCapturing, ActionIoOutputJournal.finished]
      split_ifs <;> rfl
    rw [hended] at hcaptured
    cases hcaptured

theorem OutputKept.move (hlawful : services.cipher.algorithm.Lawful) (h : OutputKept services v)
    (hmove : Move services v w) : OutputKept services w := by
  cases hmove with
  | admitted m hadmissible hbytes _ _ =>
    refine h.session rfl rfl rfl rfl rfl rfl rfl rfl ?_ ?_ id
    · exact Int.add_nonneg h.admitted hbytes
    · have hlimit := hadmissible.executionBytes
      show v.session.admittedInputBytes + m.inputBytes + _ + _ ≤ _
      omega
  | starting _ => exact h.session rfl rfl rfl rfl rfl rfl rfl rfl h.admitted h.bytes id
  | running _ => exact h.session rfl rfl rfl rfl rfl rfl rfl rfl h.admitted h.bytes id
  | handed _ _ _ _ _ => exact h.session rfl rfl rfl rfl rfl rfl rfl rfl h.admitted h.bytes id
  | delivered _ _ _ _ _ _ _ => exact h.session rfl rfl rfl rfl rfl rfl rfl rfl h.admitted h.bytes id
  | interrupted _ =>
    refine h.session rfl rfl rfl rfl rfl rfl rfl rfl h.admitted h.bytes ?_
    intro hcaptured
    simp [isCapturing, interruptedSession] at hcaptured
  | appended stream owned random payloadId payload _ hexpired hremaining howned hblock hevents
      hencrypt =>
    exact h.appended hlawful hexpired hremaining howned hblock hevents hencrypt
  | finished outcome now hcapturing _ => exact h.finished outcome now hcapturing _
  | expired contents _ =>
    obtain ⟨held, hlogged, -⟩ := h.log
    exact ⟨⟨held, hlogged, fun hnot => by cases hnot⟩, h.next, h.admitted, h.stdout, h.stderr,
      h.bytes, h.events, h.room⟩

/-! ## The offsets -/

theorem shareOf_nonneg (stream : ActionIoStream) (event : ActionIoEvent) :
    0 ≤ shareOf stream event := by
  cases event with
  | output sequence other offset bytes =>
    rw [shareOf]
    split_ifs <;> omega
  | processExited sequence exitCode => exact le_refl _
  | completed sequence outputComplete failureCode => exact le_refl _

theorem OutputKept.offset_le (hkept : OutputKept services v) (stream : ActionIoStream) (cursor : Nat) :
    0 ≤ streamTotal stream (v.appended.take cursor) ∧
      streamTotal stream (v.appended.take cursor) ≤ ActionIoLimits.executionBytes := by
  have hnonneg : ∀ (other : ActionIoStream) (events : List ActionIoEvent),
      0 ≤ streamTotal other events :=
    fun other events => Ledger.total_nonneg fun event _ => shareOf_nonneg other event
  have hsplit : streamTotal stream v.appended =
      streamTotal stream (v.appended.take cursor) + streamTotal stream (v.appended.drop cursor) := by
    rw [streamTotal, streamTotal, streamTotal, ← Ledger.total_append, List.take_append_drop]
  have hrest := hnonneg stream (v.appended.drop cursor)
  have hstdout := hnonneg .stdout v.appended
  have hstderr := hnonneg .stderr v.appended
  have hadmitted := hkept.admitted
  have hbytes := hkept.bytes
  rw [hkept.stdout, hkept.stderr] at hbytes
  refine ⟨hnonneg stream _, ?_⟩
  cases stream with
  | stdout => omega
  | stderr => omega

end Execution

theorem Journal.outputKept (hlawful : services.cipher.algorithm.Lawful) {s : Journal}
    (h : (journal services).Reachable s) {id : String} {v : Execution}
    (hv : s.execution id = some v) : OutputKept services v :=
  Journal.execution_invariant (fun _ => OutputKept.born) (fun _ _ => OutputKept.move hlawful) h hv

end PlugAgente.ActionIo
