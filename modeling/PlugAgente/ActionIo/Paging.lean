import PlugAgente.ActionIo.Blocks

/-!
# Pages of the output

A page is the next part of the log, `read_page`: at least one event of it if any is left, for a
block and its metadata fit into every page.  `Following` is a reader that starts at the
beginning and goes on where the last page has ended, while the journal goes on as well.
-/

namespace PlugAgente.ActionIo

open PlugAgente.Dart ActionIoJournalDatabase ActionIoOutputJournal Execution

variable {services : JournalServices}

/-! ## The size of an event -/

theorem length_eventText (sequence stream offset : String) :
    (jsonObject [("sequence", sequence), ("type", jsonString "output"), ("stream", stream),
      ("offset", offset), ("data_base64", jsonString "")]).length =
        sequence.length + stream.length + offset.length + 66 := by
  simp only [jsonObject, List.map_cons, List.map_nil, String.intercalate_cons_cons,
    String.intercalate_singleton, String.length_append]
  have hsequence : (jsonString "sequence").length = 10 := by decide
  have htype : (jsonString "type").length = 6 := by decide
  have houtput : (jsonString "output").length = 8 := by decide
  have hstream : (jsonString "stream").length = 8 := by decide
  have hoffset : (jsonString "offset").length = 8 := by decide
  have hdata : (jsonString "data_base64").length = 13 := by decide
  have hempty : (jsonString "").length = 2 := by decide
  have hopen : ("\x7b" : String).length = 1 := by decide
  have hclose : ("\x7d" : String).length = 1 := by decide
  have hcolon : (":" : String).length = 1 := by decide
  have hcomma : ("," : String).length = 1 := by decide
  omega

theorem length_toString_le {n : Int} {k : Nat} (hnonneg : 0 ≤ n) (hk : 0 < k)
    (hlt : n < ((10 ^ k : Nat) : Int)) : (toString n).length ≤ k := by
  obtain ⟨m, rfl⟩ := Int.eq_ofNat_of_zero_le hnonneg
  have hlt : m < 10 ^ k := by exact_mod_cast hlt
  show (Nat.repr m).length ≤ k
  exact (Nat.length_repr_le_iff hk).mpr hlt

theorem eventSize_le {sequence offset plaintextBytes : Int} (stream : ActionIoStream)
    (hsequence : 0 ≤ sequence ∧ sequence ≤ ActionIoLimits.executionEvents)
    (hoffset : 0 ≤ offset ∧ offset ≤ ActionIoLimits.executionBytes)
    (hblock : plaintextBytes ≤ ActionIoLimits.blockBytes) :
    4096 + eventSize sequence stream offset plaintextBytes ≤ ActionIoLimits.jsonBytes := by
  have hfirst : (toString sequence).length ≤ 5 := by
    apply length_toString_le hsequence.1 (by omega)
    have := hsequence.2
    simp only [ActionIoLimits.executionEvents] at this
    omega
  have hsecond : (toString offset).length ≤ 8 := by
    apply length_toString_le hoffset.1 (by omega)
    have := hoffset.2
    simp only [ActionIoLimits.executionBytes] at this
    omega
  have hname : (jsonString stream.name).length = 8 := by
    cases stream <;> decide
  simp only [ActionIoLimits.blockBytes] at hblock
  rw [eventSize, length_eventText, hname, ActionIoLimits.jsonBytes]
  push_cast
  omega

/-! ## The loop -/

/-- The part of the JSON that an event takes. -/
def jsonWeight : ActionIoEvent → Int
  | .output sequence stream offset bytes => eventSize sequence stream offset bytes.length
  | _ => 1024

/-- An event still fits into a page. -/
def Fits (maxBytes size jsonSize : Int) : ActionIoEvent → Prop
  | .output sequence stream offset bytes =>
    size + bytes.length ≤ maxBytes ∧
      jsonSize + eventSize sequence stream offset bytes.length ≤ ActionIoLimits.jsonBytes
  | _ => True

variable {db : ActionIoJournalDatabase} {executionId : String} {maxBytes : Int}

variable (maxBytes) in
theorem readRows_cons {before : List ActionIoEvent} {r : Record}
    (hr : Holds services executionId before r) (hcontent : db.content r.row.payloadId = r.content)
    (rows : List ActionIoEventRow) (events : List ActionIoEvent) (size jsonSize : Int) :
    (Fits maxBytes size jsonSize r.event ∧
      readRows services db executionId maxBytes (r.row :: rows) events size jsonSize before.length =
        readRows services db executionId maxBytes rows (events ++ [r.event])
          (size + eventBytes r.event) (jsonSize + jsonWeight r.event) (before.length + 1)) ∨
    (¬ Fits maxBytes size jsonSize r.event ∧
      readRows services db executionId maxBytes (r.row :: rows) events size jsonSize before.length =
        .ok (events, before.length)) := by
  cases hr with
  | output stream bytes payloadId payload hnonempty hblock hbytes hdecrypt =>
    have hpayload : db.payload? (some payloadId) = some payload := hcontent
    have hpositive : 0 < bytes.length := List.length_pos_iff.mpr hnonempty
    rw [readRows]
    simp only [outputRow, ne_eq, not_true_eq_false, if_false, hpayload, hdecrypt, hbytes]
    rw [if_neg (by omega)]
    by_cases hsize : size + bytes.length > maxBytes
    · right
      rw [if_pos hsize]
      exact ⟨fun hfits => by have := hfits.1; omega, rfl⟩
    · rw [if_neg hsize]
      by_cases hjson : jsonSize + eventSize (before.length + 1) stream (streamTotal stream before)
          bytes.length > ActionIoLimits.jsonBytes
      · right
        rw [if_pos hjson]
        exact ⟨fun hfits => by have := hfits.2; omega, rfl⟩
      · left
        rw [if_neg hjson]
        exact ⟨⟨by omega, by omega⟩, rfl⟩
  | exited exitCode =>
    left
    rw [readRows]
    simp only [exitedRow, ne_eq, not_true_eq_false, if_false]
    refine ⟨trivial, ?_⟩
    rw [show eventBytes (.processExited (before.length + 1) exitCode) = 0 from rfl]
    simp [jsonWeight]
  | completed outcome =>
    left
    rw [readRows]
    simp only [completedRow, ne_eq, not_true_eq_false, if_false]
    refine ⟨trivial, ?_⟩
    rw [show eventBytes (.completed (before.length + 1) outcome.complete outcome.failureCode) = 0
      from rfl]
    simp [jsonWeight]

variable (db maxBytes) in
theorem readRows_log {before rest : List Record} (hlog : IsLog services executionId (before ++ rest))
    (hcontents : ∀ r ∈ rest, db.content r.row.payloadId = r.content) (events : List ActionIoEvent)
    (size jsonSize : Int) :
    ∃ n ≤ rest.length,
      readRows services db executionId maxBytes (rest.map (·.row)) events size jsonSize
        before.length = .ok (events ++ (rest.take n).map (·.event), ((before.length + n : Nat) : Int)) ∧
      ∀ r, rest.head? = some r → Fits maxBytes size jsonSize r.event → 0 < n := by
  induction rest generalizing before events size jsonSize with
  | nil =>
    refine ⟨0, le_refl _, ?_, ?_⟩
    · rw [List.map_nil, readRows]
      simp
    · intro r hr
      cases hr
  | cons r rest ih =>
    have hr : Holds services executionId (before.map (·.event)) r := hlog before r rest rfl
    have hcons := readRows_cons maxBytes hr (hcontents r List.mem_cons_self)
      (rest.map (·.row)) events size jsonSize
    rw [List.length_map] at hcons
    rcases hcons with ⟨hfits, hstep⟩ | ⟨hnot, hstep⟩
    · have hlog' : IsLog services executionId ((before ++ [r]) ++ rest) := by
        rw [List.append_assoc]
        exact hlog
      obtain ⟨n, hn, hread, -⟩ := ih hlog' (fun q hq => hcontents q (List.mem_cons_of_mem _ hq))
        (events ++ [r.event]) (size + eventBytes r.event) (jsonSize + jsonWeight r.event)
      refine ⟨n + 1, by simpa using hn, ?_, fun _ _ _ => Nat.succ_pos n⟩
      rw [List.length_append, List.length_singleton, Nat.cast_add, Nat.cast_one] at hread
      rw [List.map_cons, hstep, hread, List.take_succ_cons, List.map_cons, List.append_assoc,
        List.singleton_append]
      congr 3
      omega
    · refine ⟨0, Nat.zero_le _, ?_, ?_⟩
      · rw [List.map_cons, hstep]
        simp
      · intro q hq hfits
        rw [List.head?_cons] at hq
        rw [← Option.some.inj hq] at hfits
        exact absurd hfits hnot

/-! ## The rows after a cursor -/

theorem rowsAfter_log {log : List Record} (hlog : IsLog services executionId log)
    (hrows : db.eventsOf executionId = log.map (·.row)) (cursor : Nat) :
    rowsAfter db executionId cursor =
      ((log.drop cursor).take ActionIoLimits.pageEvents).map (·.row) := by
  have hafter : (db.events.filter fun e => e.executionId = executionId && e.sequence > (cursor : Int)) =
      (log.drop cursor).map (·.row) := by
    have hquery : (db.events.filter fun e => e.executionId = executionId && e.sequence > (cursor : Int)) =
        (db.eventsOf executionId).filter fun e => e.sequence > (cursor : Int) := by
      rw [eventsOf, List.filter_filter]
      apply List.filter_congr
      intro e _
      rw [Bool.and_comm]
    rw [hquery, hrows]
    conv_lhs => rw [← List.take_append_drop cursor log, List.map_append, List.filter_append]
    rw [List.filter_eq_nil_iff.mpr, List.filter_eq_self.mpr, List.nil_append]
    · intro row hrow
      obtain ⟨r, hr, rfl⟩ := List.mem_map.mp hrow
      obtain ⟨i, hi⟩ := List.getElem?_of_mem hr
      rw [List.getElem?_drop] at hi
      rw [hlog.sequence hi]
      simp
    · intro row hrow
      obtain ⟨r, hr, rfl⟩ := List.mem_map.mp hrow
      obtain ⟨i, hi⟩ := List.getElem?_of_mem hr
      rw [List.getElem?_take] at hi
      split_ifs at hi with hlt
      rw [hlog.sequence hi]
      simp
      omega
  have hsorted : ((log.drop cursor).map (·.row)).Pairwise
      fun a b => decide (a.sequence ≤ b.sequence) = true := by
    rw [List.pairwise_map, List.pairwise_iff_getElem]
    intro i j hi hj hij
    have hfirst := hlog.sequence (i := cursor + i) (r := (log.drop cursor)[i]) (by
      rw [← List.getElem?_drop, List.getElem?_eq_getElem hi])
    have hsecond := hlog.sequence (i := cursor + j) (r := (log.drop cursor)[j]) (by
      rw [← List.getElem?_drop, List.getElem?_eq_getElem hj])
    rw [hfirst, hsecond]
    simp
    omega
  rw [rowsAfter, hafter, List.mergeSort_of_pairwise hsorted, List.map_take]

/-! ## Pages -/

variable {s t : Journal} {v : Execution}

theorem log_of_execution (hkept : OutputKept services v) (hv : s.execution executionId = some v)
    (hexpired : v.session.outputExpired = false) :
    ∃ log, IsLog services executionId log ∧ s.db.eventsOf executionId = log.map (·.row) ∧
      v.appended = log.map (·.event) ∧ ∀ r ∈ log, s.db.content r.row.payloadId = r.content := by
  obtain ⟨contents, ⟨log, hlog, hrows, hcontents, hevents⟩, hheld⟩ := hkept.log
  obtain ⟨session, hsession, heq⟩ := Option.map_eq_some_iff.mp hv
  have hid : v.session.executionId = executionId := by
    rw [← heq]
    exact (session?_some hsession).2
  have htable : v.events = s.db.eventsOf executionId := by rw [← heq]
  have hpayloads : v.contents = s.db.contentsOf executionId := by rw [← heq]
  rw [hid] at hlog
  refine ⟨log, hlog, htable.symm.trans hrows, hevents, ?_⟩
  have hsame : log.map (fun r => s.db.content r.row.payloadId) = log.map (·.content) := by
    rw [← hcontents, ← hheld hexpired, hpayloads, contentsOf, ← htable, hrows, List.map_map]
    rfl
  exact List.map_inj_left.mp hsame

theorem fits_first (hkept : OutputKept services v) {log : List Record}
    (hlog : IsLog services executionId log) (hevents : v.appended = log.map (·.event))
    (hmax : ActionIoLimits.blockBytes ≤ maxBytes) {cursor : Nat} {r : Record}
    (hr : log[cursor]? = some r) : Fits maxBytes 0 4096 r.event := by
  obtain ⟨hlt, heq⟩ := List.getElem?_eq_some_iff.mp hr
  have hsplit : log = log.take cursor ++ r :: log.drop (cursor + 1) := by
    rw [← heq, List.getElem_cons_drop, List.take_append_drop]
  have hlength : v.appended.length = log.length := by rw [hevents, List.length_map]
  have hbound : ((log.length : Nat) : Int) ≤ ActionIoLimits.executionEvents := by
    have hnext := hkept.next
    have hlimit := hkept.events
    omega
  have hbefore : (log.take cursor).map (·.event) = v.appended.take cursor := by
    rw [hevents, List.map_take]
  have hholds := hlog _ _ _ hsplit
  rw [hbefore] at hholds
  have hcursor : (v.appended.take cursor).length = cursor := by
    rw [List.length_take]
    omega
  cases hholds with
  | output stream bytes payloadId payload hnonempty hblock hbytes hdecrypt =>
    refine ⟨by omega, ?_⟩
    apply eventSize_le stream _ (hkept.offset_le stream cursor) hblock
    omega
  | exited exitCode => trivial
  | completed outcome => trivial

theorem read_ok {clientId : String} {cursor now : Int} {page : ActionIoReadPage}
    {db' : ActionIoJournalDatabase}
    (h : read services executionId clientId cursor maxBytes now db = .ok (page, db')) :
    (0 ≤ cursor ∧ ActionIoLimits.blockBytes ≤ maxBytes ∧ maxBytes ≤ ActionIoLimits.pageBytes) ∧
      ∃ session, db.session? executionId = some session ∧ session.key.clientId = clientId ∧
        isExpired session now = false ∧ cursor < session.nextEventSequence := by
  rw [ActionIoOutputJournal.read] at h
  obtain ⟨harguments, h₁⟩ := Atomic.require_bind.mp h
  obtain ⟨session, db₁, hfound, h₂⟩ := Atomic.bind_eq_ok.mp h₁
  obtain ⟨hsession, rfl⟩ := ActionIoOutputJournal.session_eq_ok.mp hfound
  obtain ⟨hclient, h₃⟩ := Atomic.require_bind.mp h₂
  obtain ⟨hexpired, h₄⟩ := Atomic.require_bind.mp h₃
  obtain ⟨hcursor, -⟩ := Atomic.require_bind.mp h₄
  simp only [not_or, not_lt, gt_iff_lt] at harguments
  exact ⟨harguments, session, hsession, hclient, hexpired, not_le.mp hcursor⟩

theorem read_page (hkept : OutputKept services v) (hv : s.execution executionId = some v)
    {clientId : String} (hclient : v.session.key.clientId = clientId) {now : Int}
    (hexpired : isExpired v.session now = false)
    (hmax : ActionIoLimits.blockBytes ≤ maxBytes ∧ maxBytes ≤ ActionIoLimits.pageBytes)
    {cursor : Nat} (hcursor : cursor ≤ v.appended.length) :
    ∃ n, cursor + n ≤ v.appended.length ∧ (cursor < v.appended.length → 0 < n) ∧
      read services executionId clientId cursor maxBytes now s.db =
        .ok
          ({ events := (v.appended.drop cursor).take n
             nextSequence := ((cursor + n : Nat) : Int)
             terminal := v.session.terminalAt.isSome
             outputComplete := v.session.captureState = .complete }, s.db) := by
  have hnot : v.session.outputExpired = false := by
    rw [isExpired, Bool.or_eq_false_iff] at hexpired
    exact hexpired.1
  obtain ⟨log, hlog, hrows, hevents, hcontents⟩ := log_of_execution hkept hv hnot
  have hlength : v.appended.length = log.length := by rw [hevents, List.length_map]
  have hafter := rowsAfter_log hlog hrows cursor
  let rest := (log.drop cursor).take ActionIoLimits.pageEvents
  have hsplit : log = (log.take cursor ++ rest) ++ (log.drop cursor).drop ActionIoLimits.pageEvents := by
    rw [List.append_assoc, List.take_append_drop, List.take_append_drop]
  have hpart : IsLog services executionId (log.take cursor ++ rest) := by
    rw [hsplit] at hlog
    exact hlog.front
  have htake : (log.take cursor).length = cursor := by
    rw [List.length_take]
    omega
  obtain ⟨n, hn, hread, hfirst⟩ := readRows_log s.db maxBytes hpart
    (fun r hr => hcontents r (List.mem_of_mem_drop (List.mem_of_mem_take hr))) [] 0 4096
  rw [htake] at hread
  have hrest : rest.length ≤ log.length - cursor := by
    rw [List.length_take, List.length_drop]
    omega
  have hsome : cursor < v.appended.length → 0 < n := by
    intro hlt
    have hhead : rest.head? = log[cursor]? := by
      rw [List.head?_take, List.head?_drop]
      simp [ActionIoLimits.pageEvents]
    obtain ⟨r, hr⟩ : ∃ r, log[cursor]? = some r :=
      ⟨_, List.getElem?_eq_getElem (hlength ▸ hlt)⟩
    exact hfirst r (hhead.trans hr) (fits_first hkept hlog hevents hmax.1 hr)
  have hpage : (rest.take n).map (·.event) = (v.appended.drop cursor).take n := by
    rw [List.take_take, Nat.min_eq_left (hn.trans (List.length_take_le _ _)), hevents,
      ← List.map_drop, ← List.map_take]
  refine ⟨n, by omega, hsome, ?_⟩
  have hfound := Journal.session_of_execution hv
  have hbelow : ¬ (cursor : Int) ≥ v.session.nextEventSequence := by
    rw [hkept.next]
    omega
  have hshown : ¬ (rest.map (·.row) ≠ [] ∧ ([] ++ (rest.take n).map (·.event)) = []) := by
    intro hempty
    have hlt : cursor < v.appended.length := by
      by_contra hge
      apply hempty.1
      rw [List.map_eq_nil_iff, ← List.length_eq_zero_iff]
      omega
    have hpositive := hsome hlt
    rw [List.nil_append, List.map_eq_nil_iff, List.take_eq_nil_iff] at hempty
    rcases hempty.2 with hzero | hnil
    · omega
    · exact hempty.1 (by rw [hnil, List.map_nil])
  rw [ActionIoOutputJournal.read, Atomic.bind_of_ok (Atomic.require_of (by
      simp only [not_or, not_lt, gt_iff_lt]
      omega) _ _),
    Atomic.bind_of_ok (ActionIoOutputJournal.session_eq_ok.mpr ⟨hfound, rfl⟩),
    Atomic.bind_of_ok (Atomic.require_of hclient _ _),
    Atomic.bind_of_ok (Atomic.require_of hexpired _ _),
    Atomic.bind_of_ok (Atomic.require_of hbelow _ _),
    Atomic.bind_of_ok (Atomic.get_eq_ok.mpr ⟨rfl, rfl⟩)]
  rw [hafter, Atomic.bind_of_ok (Atomic.ofExcept_eq_ok.mpr ⟨hread, rfl⟩),
    Atomic.bind_of_ok (Atomic.require_of hshown _ _)]
  rw [List.nil_append, hpage]
  rfl

theorem read_expired {clientId : String} {session : ActionIoSession} {cursor now : Int}
    (hfound : db.session? executionId = some session) (hclient : session.key.clientId = clientId)
    (hexpired : isExpired session now = true)
    (hmax : ActionIoLimits.blockBytes ≤ maxBytes ∧ maxBytes ≤ ActionIoLimits.pageBytes)
    (hcursor : 0 ≤ cursor) :
    read services executionId clientId cursor maxBytes now db =
      .error (outputFailure "OUTPUT_EXPIRED") := by
  have hnot : ¬ isExpired session now = false := by simp [hexpired]
  rw [ActionIoOutputJournal.read, Atomic.bind_of_ok (Atomic.require_of (by
      simp only [not_or, not_lt, gt_iff_lt]
      omega) _ _),
    Atomic.bind_of_ok (ActionIoOutputJournal.session_eq_ok.mpr ⟨hfound, rfl⟩),
    Atomic.bind_of_ok (Atomic.require_of hclient _ _),
    Atomic.bind_of_error (Atomic.require_of_not hnot _ _)]

/-! ## Readers -/

/-- A reader of an execution: where it is and what it has got, while the journal goes on. -/
inductive Following (services : JournalServices) (executionId clientId : String) :
    Journal → Int → List ActionIoEvent → Prop where
  | start {s : Journal} (h : (journal services).Reachable s) :
    Following services executionId clientId s 0 []
  | wait {s t : Journal} {cursor : Int} {got : List ActionIoEvent}
    (hreader : Following services executionId clientId s cursor got)
    (h : (journal services).Leads s t) : Following services executionId clientId t cursor got
  | page {s : Journal} {cursor : Int} {got : List ActionIoEvent} {maxBytes now : Int}
    {page : ActionIoReadPage} {db' : ActionIoJournalDatabase}
    (hreader : Following services executionId clientId s cursor got)
    (h : Atomic.commit (read services executionId clientId cursor maxBytes now) s.db =
      (.ok page, db')) :
    Following services executionId clientId s page.nextSequence (got ++ page.events)

theorem Following.reachable {clientId : String} {cursor : Int} {got : List ActionIoEvent}
    (h : Following services executionId clientId s cursor got) : (journal services).Reachable s := by
  induction h with
  | start h => exact h
  | wait _ hleads ih => exact hleads.reachable ih
  | page _ _ ih => exact ih

theorem appended_move {v w : Execution} (h : Move services v w) : v.appended <+: w.appended := by
  cases h with
  | appended => exact List.prefix_append _ _
  | finished => exact List.prefix_append _ _
  | admitted => exact List.prefix_rfl
  | starting => exact List.prefix_rfl
  | running => exact List.prefix_rfl
  | handed => exact List.prefix_rfl
  | delivered => exact List.prefix_rfl
  | interrupted => exact List.prefix_rfl
  | expired => exact List.prefix_rfl

theorem appended_moves {v w : Execution} (h : Moves services v w) : v.appended <+: w.appended := by
  induction h with
  | refl => exact List.prefix_rfl
  | tail _ hlast ih => exact ih.trans (appended_move hlast)

theorem appended_of_execution (hv : s.execution executionId = some v) :
    v.appended = Journal.of executionId s.appended := by
  obtain ⟨session, -, heq⟩ := Option.map_eq_some_iff.mp hv
  rw [← heq]

variable (executionId) in
theorem appended_later (h : (journal services).Reachable s) (hleads : (journal services).Leads s t) :
    Journal.of executionId s.appended <+: Journal.of executionId t.appended := by
  have hsound := Journal.sound_of_reachable h
  cases hsession : s.db.session? executionId with
  | none =>
    have hnil : Journal.of executionId s.appended = [] := by
      apply Journal.of_eq_nil
      intro entry hentry hid
      apply hsound.appended entry hentry
      rw [hid, hsession]
    rw [hnil]
    exact List.nil_prefix
  | some session =>
    obtain ⟨w, hw, hmoves⟩ := Journal.execution_later hleads hsound
      (Journal.execution_some hsession)
    have hprefix := appended_moves hmoves
    rwa [appended_of_execution (Journal.execution_some hsession), appended_of_execution hw]
      at hprefix

theorem Following.got (hlawful : services.cipher.algorithm.Lawful) {clientId : String} {cursor : Int}
    {got : List ActionIoEvent} (h : Following services executionId clientId s cursor got) :
    ∃ n : Nat, cursor = n ∧ n ≤ (Journal.of executionId s.appended).length ∧
      got = (Journal.of executionId s.appended).take n := by
  induction h with
  | start _ => exact ⟨0, rfl, Nat.zero_le _, by simp⟩
  | wait hreader hleads ih =>
    obtain ⟨n, hcursor, hle, hgot⟩ := ih
    obtain ⟨more, hmore⟩ := appended_later executionId hreader.reachable hleads
    refine ⟨n, hcursor, ?_, ?_⟩
    · rw [← hmore, List.length_append]
      omega
    · rw [hgot, ← hmore, List.take_append_of_le_length hle]
  | page hreader hread ih =>
    obtain ⟨n, hcursor, hle, hgot⟩ := ih
    have hok := Atomic.commit_eq_ok.mp hread
    obtain ⟨hmax, session, hfound, hclient, hexpired, -⟩ := read_ok hok
    have hv := Journal.execution_some hfound
    have hkept := Journal.outputKept hlawful hreader.reachable hv
    rw [← appended_of_execution hv] at hle hgot
    obtain ⟨k, hk, -, hpage⟩ := read_page hkept hv hclient hexpired hmax.2 hle
    rw [← hcursor, hok] at hpage
    obtain ⟨hevents, -⟩ := Prod.mk.inj (Except.ok.inj hpage)
    rw [hevents, ← appended_of_execution hv]
    refine ⟨n + k, rfl, hk, ?_⟩
    rw [hgot, List.take_add]

def ActionIoEvent.sequence : ActionIoEvent → Int
  | .output sequence _ _ _ => sequence
  | .processExited sequence _ => sequence
  | .completed sequence _ _ => sequence

/-- The output of a session: its events hold the blocks of the callers, are numbered and within the
limits, and its readers get them all; a block within the limits is accepted. -/
structure Lossless (services : JournalServices) (s : Journal) (session : ActionIoSession)
    (calls : List (ActionIoStream × List Int)) (events : List ActionIoEvent) : Prop where
  taken : Taken session calls (outputsOf events)
  accepts : ∀ draw stream bytes, bytes ≠ [] → (bytes.length : Int) ≤ ActionIoLimits.blockBytes →
    (∀ byte ∈ bytes, 0 ≤ byte ∧ byte ≤ 255) → isCapturing session = true →
    session.outputExpired = false →
    usedBytes session + bytes.length ≤ ActionIoLimits.executionBytes →
    (events.length : Int) + 1 + ActionIoLimits.terminalEventReserve ≤
      ActionIoLimits.executionEvents →
    Supplied services draw s.db (Dart.uint8List bytes) (ActionIoPayloadCipher.context
      session.executionId stream.name "" (events.length + 1) (streamTotal stream events)) →
    ∃ event db, event.output? = some (stream, Dart.uint8List bytes) ∧
      append services draw session.executionId stream bytes s.db = (.ok event, db) ∧
      Journal.of session.executionId
        (s.append services draw session.executionId stream bytes).appended = events ++ [event]
  sequences : ∀ (i : Nat) (event : ActionIoEvent), events[i]? = some event →
    event.sequence = i + 1
  offsets : ∀ (i : Nat) (sequence : Int) (stream : ActionIoStream) (offset : Int)
    (bytes : List UInt8), events[i]? = some (.output sequence stream offset bytes) →
      offset = streamTotal stream (events.take i)
  stdout : session.stdoutBytes = streamTotal .stdout events
  stderr : session.stderrBytes = streamTotal .stderr events
  bytes : session.admittedInputBytes + session.stdoutBytes + session.stderrBytes ≤
    ActionIoLimits.executionBytes
  count : (events.length : Int) ≤ ActionIoLimits.executionEvents
  reserve : isCapturing session = true →
    (events.length : Int) + ActionIoLimits.terminalEventReserve ≤ ActionIoLimits.executionEvents
  received : ∀ clientId cursor got, Following services session.executionId clientId s cursor got →
    ∃ n : Nat, cursor = n ∧ n ≤ events.length ∧ got = events.take n
  progress : ∀ cursor got maxBytes now,
    Following services session.executionId session.key.clientId s cursor got →
    ActionIoLimits.blockBytes ≤ maxBytes → maxBytes ≤ ActionIoLimits.pageBytes →
    isExpired session now = false →
    ∃ page, Atomic.commit (read services session.executionId session.key.clientId cursor maxBytes
        now) s.db = (.ok page, s.db) ∧
      (cursor < events.length → page.events ≠ [] ∧ cursor < page.nextSequence)
  /-- Output that has expired is refused, and not returned in part. -/
  expired : ∀ cursor got maxBytes now,
    Following services session.executionId session.key.clientId s cursor got →
    ActionIoLimits.blockBytes ≤ maxBytes → maxBytes ≤ ActionIoLimits.pageBytes →
    isExpired session now = true →
    Atomic.commit (read services session.executionId session.key.clientId cursor maxBytes now)
      s.db = (.error (outputFailure "OUTPUT_EXPIRED"), s.db)

theorem Execution.OutputKept.numbered (hkept : OutputKept services v) {i : Nat} {event : ActionIoEvent}
    (hi : v.appended[i]? = some event) :
    event.sequence = i + 1 ∧ ∀ sequence stream offset bytes,
      event = .output sequence stream offset bytes →
        offset = streamTotal stream (v.appended.take i) := by
  obtain ⟨contents, ⟨log, hlog, hrows, hcontents, hevents⟩, -⟩ := hkept.log
  rw [hevents, List.getElem?_map] at hi
  obtain ⟨r, hr, heq⟩ := Option.map_eq_some_iff.mp hi
  obtain ⟨hlt, hget⟩ := List.getElem?_eq_some_iff.mp hr
  have hsplit : log = log.take i ++ r :: log.drop (i + 1) := by
    rw [← hget, List.getElem_cons_drop, List.take_append_drop]
  have hholds := hlog _ _ _ hsplit
  have hbefore : (log.take i).map (·.event) = v.appended.take i := by rw [hevents, List.map_take]
  have hlength : (v.appended.take i).length = i := by
    rw [← hbefore, List.length_map, List.length_take]
    omega
  rw [hbefore] at hholds
  rw [← heq]
  cases hholds with
  | output stream bytes payloadId payload _ _ _ _ =>
    refine ⟨?_, ?_⟩
    · show ((v.appended.take i).length : Int) + 1 = _
      rw [hlength]
    · intro sequence other offset bytes' hsame
      injection hsame with _ hstream hoffset _
      rw [← hoffset, hstream]
  | exited exitCode =>
    refine ⟨?_, fun _ _ _ _ hsame => by cases hsame⟩
    show ((v.appended.take i).length : Int) + 1 = _
    rw [hlength]
  | completed outcome =>
    refine ⟨?_, fun _ _ _ _ hsame => by cases hsame⟩
    show ((v.appended.take i).length : Int) + 1 = _
    rw [hlength]

namespace Journal

/-- In every state that is reached, the output of every session is paged without loss. -/
theorem output_lossless (hlawful : services.cipher.algorithm.Lawful)
    (h : (journal services).Reachable s) {session : ActionIoSession}
    (hsession : session ∈ s.db.sessions) :
    Lossless services s session (Journal.of session.executionId s.calls)
      (Journal.of session.executionId s.appended) := by
  have hfound := (sound_of_reachable h).linked.session?_mem hsession
  have hv := execution_some hfound
  have hkept := outputKept hlawful h hv
  have hevents := appended_of_execution hv
  have hnext := hkept.next
  refine ⟨(called_of_reachable hlawful h).taken _ _ hfound, ?_, ?_, ?_, hkept.stdout, hkept.stderr,
    hkept.bytes, ?_, ?_, ?_, ?_, ?_⟩
  · intro draw stream bytes hnonempty hblock hrange hcapturing hexpired hbytes hroom hsupplied
    have hvalid : isInvalidBlock bytes = false := by
      simp only [isInvalidBlock, Bool.or_eq_false_iff, List.any_eq_false, decide_eq_false_iff_not,
        List.isEmpty_eq_false_iff, Bool.or_eq_true, decide_eq_true_eq, not_or]
      refine ⟨⟨hnonempty, by omega⟩, ?_⟩
      intro byte hbyte
      have := hrange byte hbyte
      omega
    obtain ⟨db, hok⟩ := append_taken hkept hv hvalid hcapturing hexpired hbytes hroom hsupplied
    exact ⟨_, db, rfl, append_recorded hvalid hok rfl⟩
  · intro i event hi
    exact (hkept.numbered hi).1
  · intro i sequence stream offset bytes hi
    exact (hkept.numbered hi).2 _ _ _ _ rfl
  · have hlimit := hkept.events
    rw [← hevents]
    omega
  · intro hcapturing
    have hroom := hkept.room hcapturing
    rw [← hevents]
    omega
  · intro clientId cursor got hreader
    exact hreader.got hlawful
  · intro cursor got maxBytes now hreader hmin hmax hexpired
    obtain ⟨n, hcursor, hle, -⟩ := hreader.got hlawful
    rw [← hevents] at hle
    obtain ⟨k, -, hsome, hread⟩ := read_page hkept hv rfl hexpired ⟨hmin, hmax⟩ hle
    rw [hcursor]
    refine ⟨_, Atomic.commit_of_ok hread, ?_⟩
    intro hlt
    rw [← hevents] at hlt
    have hlt : n < (s.withSession session.executionId session).appended.length := by
      exact_mod_cast hlt
    have hpositive := hsome hlt
    refine ⟨?_, ?_⟩
    · intro hempty
      rcases List.take_eq_nil_iff.mp hempty with hzero | hnil
      · omega
      · have := List.drop_eq_nil_iff.mp hnil
        omega
    · show (n : Int) < ((n + k : Nat) : Int)
      omega
  · intro cursor got maxBytes now hreader hmin hmax hexpired
    obtain ⟨n, hcursor, -, -⟩ := hreader.got hlawful
    apply Atomic.commit_of_error
    apply read_expired hfound rfl hexpired ⟨hmin, hmax⟩
    omega

/-- Two blocks of output and the end of the process. -/
def outputRun : List JournalEvent :=
  [.claim sampleDraws sampleIntent none,
    .append { payloadId := "first", random := List.replicate 12 1 } "execution" .stdout [104, 105],
    .append { payloadId := "second", random := List.replicate 12 2 } "execution" .stderr [33],
    .finish "execution" { exitCode := some 0, complete := true, failureCode := none } 5]

def outputJournal : Journal :=
  ((journal plainServices).run {} outputRun).getD {}

theorem output_lossless_ended :
    ∃ session ∈ outputJournal.db.sessions,
      Lossless plainServices outputJournal session
        (Journal.of session.executionId outputJournal.calls)
        (Journal.of session.executionId outputJournal.appended) ∧
      ∃ page, page.events ≠ [] ∧
        Atomic.commit (read plainServices session.executionId session.key.clientId 0 65536 7)
          outputJournal.db = (.ok page, outputJournal.db) := by
  have hrun : (journal plainServices).run {} outputRun = some outputJournal := rfl
  have hreach : (journal plainServices).Reachable outputJournal :=
    Machine.reachable_of_run rfl hrun
  obtain ⟨session, hsession⟩ := List.exists_mem_of_ne_nil outputJournal.db.sessions
    (by decide +kernel)
  have hopen : ∀ s ∈ outputJournal.db.sessions, isExpired s 7 = false ∧
      (Journal.of s.executionId outputJournal.appended).length = 4 := by
    decide +kernel
  obtain ⟨hexpired, hlength⟩ := hopen session hsession
  have hlossless := output_lossless AesGcm.plain_lawful hreach hsession
  obtain ⟨page, hread, hprogress⟩ := hlossless.progress 0 [] 65536 7 (.start hreach)
    (by decide) (by decide) hexpired
  refine ⟨session, hsession, hlossless, page, (hprogress ?_).1, hread⟩
  rw [hlength]
  decide

end Journal

end PlugAgente.ActionIo
