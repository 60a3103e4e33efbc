import PlugAgente.ActionIo.Simulation
import PlugAgente.Machine.Ledger

/-!
# The input of a session

The counters of a session are copies of what its messages say.  `InputKept` says so of an
execution, and how far its messages are: the ones that were handed to the writer come first,
the last of them alone may still be written, and the others wait until the session ends.

`InputKept.move` is what one move does to it.
-/

namespace PlugAgente.ActionIo

open DriftActionIoJournal ActionIoOutputJournal

/-! ## What is kept -/

/-- A message that is in the queue. -/
def isPending (m : ActionIoMessage) : Bool :=
  m.deliveryState = .accepted || m.deliveryState = .writing

def queuedBytes (m : ActionIoMessage) : Int :=
  if isPending m then m.inputBytes else 0

/-- The sequences `0 … n - 1`. -/
def sequencesBelow (n : Nat) : List Int :=
  (List.range n).map Int.ofNat

@[simp] theorem length_sequencesBelow (n : Nat) : (sequencesBelow n).length = n := by
  simp [sequencesBelow]

theorem sequencesBelow_succ (n : Nat) : sequencesBelow (n + 1) = sequencesBelow n ++ [(n : Int)] := by
  simp [sequencesBelow, List.range_succ]

/-- How far the message at position `i` is, when `handed` messages were handed to the writer. -/
structure InTurn (session : ActionIoSession) (handed i : Nat) (m : ActionIoMessage) : Prop where
  sequence : m.sequence = i
  before : i + 1 < handed → isPending m = false
  last : i + 1 = handed → m.deliveryState ≠ .accepted
  later : handed ≤ i → m.deliveryState ≠ .writing
  waits : handed ≤ i → session.processState ≠ .unknown → session.processState ≠ .finished →
    m.deliveryState = .accepted

namespace Execution

/-- The counters agree with the messages, and the messages are handed over in turn. -/
structure InputKept (v : Execution) : Prop where
  next : v.session.nextInputSequence = v.messages.length
  ids : (v.messages.map (·.messageId)).Nodup
  queuedMessages : v.session.queuedInputMessages = v.messages.countP isPending
  queuedBytes : v.session.queuedInputBytes = Ledger.total queuedBytes v.messages
  handed : v.handed = sequencesBelow v.handed.length
  handedLe : v.handed.length ≤ v.messages.length
  inTurn : ∀ i m, v.messages[i]? = some m → InTurn v.session v.handed.length i m

theorem InputKept.born {v : Execution} (h : Born v) : InputKept v := by
  obtain ⟨intent, fingerprint, rfl⟩ := h
  refine ⟨rfl, List.nodup_nil, rfl, rfl, rfl, le_refl _, ?_⟩
  intro i m hi
  simp at hi

variable {v w : Execution}

theorem InputKept.session (h : InputKept v) (hmessages : w.messages = v.messages)
    (hhanded : w.handed = v.handed)
    (hnext : w.session.nextInputSequence = v.session.nextInputSequence)
    (hcount : w.session.queuedInputMessages = v.session.queuedInputMessages)
    (hbytes : w.session.queuedInputBytes = v.session.queuedInputBytes)
    (hlive : w.session.processState ≠ .unknown → w.session.processState ≠ .finished →
      v.session.processState ≠ .unknown ∧ v.session.processState ≠ .finished) : InputKept w := by
  refine ⟨?_, ?_, ?_, ?_, ?_, ?_, ?_⟩
  · rw [hnext, hmessages, h.next]
  · rw [hmessages]
    exact h.ids
  · rw [hcount, hmessages, h.queuedMessages]
  · rw [hbytes, hmessages, h.queuedBytes]
  · rw [hhanded]
    exact h.handed
  · rw [hhanded, hmessages]
    exact h.handedLe
  · rw [hhanded, hmessages]
    intro i m hi
    have hturn := h.inTurn i m hi
    refine ⟨hturn.sequence, hturn.before, hturn.last, hturn.later, ?_⟩
    intro hle hunknown hfinished
    obtain ⟨hu, hf⟩ := hlive hunknown hfinished
    exact hturn.waits hle hu hf

/-! ## Admission -/

theorem InputKept.admitted (h : InputKept v) {m : ActionIoMessage}
    (hadmissible : Admissible v.session m.sequence m.inputBytes)
    (hnew : ∀ n ∈ v.messages, n.messageId ≠ m.messageId ∧ n.sequence ≠ m.sequence)
    (hstate : m.deliveryState = .accepted) :
    InputKept { v with
      session := DriftActionIoJournal.admitted v.session m.sequence m.inputBytes m.closesInput
        v.session
      messages := v.messages ++ [m] } := by
  have hsequence : m.sequence = v.messages.length := by rw [hadmissible.sequence, h.next]
  have hpending : isPending m = true := by simp [isPending, hstate]
  refine ⟨?_, ?_, ?_, ?_, h.handed, ?_, ?_⟩
  · show m.sequence + 1 = _
    rw [hsequence]
    simp
  · rw [List.map_append, List.map_singleton]
    refine List.nodup_append.mpr ⟨h.ids, List.nodup_singleton _, ?_⟩
    intro a ha b hb
    obtain ⟨n, hn, heq⟩ := List.mem_map.mp ha
    rw [← heq, List.mem_singleton.mp hb]
    exact (hnew n hn).1
  · show v.session.queuedInputMessages + 1 = _
    rw [List.countP_append, List.countP_singleton, if_pos hpending, h.queuedMessages]
    omega
  · show v.session.queuedInputBytes + m.inputBytes = _
    rw [Ledger.total_concat, h.queuedBytes, ActionIo.queuedBytes, if_pos hpending]
  · show v.handed.length ≤ _
    rw [List.length_append, List.length_singleton]
    have := h.handedLe
    omega
  · have hle : v.handed.length ≤ v.messages.length := h.handedLe
    show ∀ i n, (v.messages ++ [m])[i]? = some n → InTurn _ v.handed.length i n
    apply Ledger.forall_concat
    · intro i n hi
      have hturn := h.inTurn i n hi
      exact ⟨hturn.sequence, hturn.before, hturn.last, hturn.later, hturn.waits⟩
    · refine ⟨hsequence, ?_, ?_, ?_, ?_⟩
      · intro hlt
        exact absurd hlt (by omega)
      · intro heq
        exact absurd heq (by omega)
      · intro _
        simp [hstate]
      · intro _ _ _
        exact hstate

/-! ## Delivery -/

theorem InputKept.pending_eq (h : InputKept v) : pending v.messages = v.messages.filter isPending := by
  apply List.mergeSort_of_pairwise
  apply List.Pairwise.filter
  rw [List.pairwise_iff_getElem]
  intro i j hi hj hij
  have hfirst := (h.inTurn i _ (List.getElem?_eq_getElem hi)).sequence
  have hsecond := (h.inTurn j _ (List.getElem?_eq_getElem hj)).sequence
  rw [hfirst, hsecond]
  simp
  omega

theorem InputKept.next_position (h : InputKept v) {m : ActionIoMessage}
    (hrunning : v.session.processState = .running)
    (hnext : (pending v.messages).head? = some m) (haccepted : m.deliveryState ≠ .writing) :
    v.messages[v.handed.length]? = some m ∧ m.deliveryState = .accepted ∧
      ∀ i n, i < v.handed.length → v.messages[i]? = some n → isPending n = false := by
  rw [h.pending_eq, List.head?_filter, List.find?_eq_some_iff_getElem] at hnext
  obtain ⟨hpending, i, hlt, heq, hbefore⟩ := hnext
  have hi : v.messages[i]? = some m := by rw [List.getElem?_eq_getElem hlt, heq]
  have hstate : m.deliveryState = .accepted := by
    simpa [isPending, haccepted] using hpending
  have hturn := h.inTurn i m hi
  have hnot : ∀ j n, j < i → v.messages[j]? = some n → isPending n = false := by
    intro j n hj hn
    obtain ⟨hltj, heqj⟩ := List.getElem?_eq_some_iff.mp hn
    have := hbefore j hj
    simpa [heqj] using this
  -- An earlier message that was handed over is not accepted, and one that waits is pending.
  have hge : v.handed.length ≤ i := by
    by_contra hlow
    rcases Nat.lt_or_ge (i + 1) v.handed.length with hbelow | hat
    · rw [hturn.before hbelow] at hpending
      exact absurd hpending (by simp)
    · exact hturn.last (by omega) hstate
  have hle : i ≤ v.handed.length := by
    by_contra hhigh
    have hlt' : v.handed.length < v.messages.length := by omega
    have hwaits := (h.inTurn _ _ (List.getElem?_eq_getElem hlt')).waits (le_refl _)
      (by simp [hrunning]) (by simp [hrunning])
    have hidle := hnot _ _ (by omega) (List.getElem?_eq_getElem hlt')
    simp [isPending, hwaits] at hidle
  obtain rfl : i = v.handed.length := by omega
  exact ⟨hi, hstate, hnot⟩

theorem InputKept.replace (h : InputKept v) {i : Nat} {m n : ActionIoMessage}
    (hi : v.messages[i]? = some m) (hmessages : w.messages = v.messages.set i n)
    (hid : n.messageId = m.messageId)
    (hnext : w.session.nextInputSequence = v.session.nextInputSequence)
    (hcount : w.session.queuedInputMessages + (if isPending m then 1 else 0) =
      v.session.queuedInputMessages + if isPending n then 1 else 0)
    (hbytes : w.session.queuedInputBytes =
      v.session.queuedInputBytes - ActionIo.queuedBytes m + ActionIo.queuedBytes n)
    (hhanded : w.handed = sequencesBelow w.handed.length)
    (hle : w.handed.length ≤ v.messages.length)
    (hothers : ∀ j o, j ≠ i → v.messages[j]? = some o → InTurn w.session w.handed.length j o)
    (hturn : InTurn w.session w.handed.length i n) : InputKept w := by
  refine ⟨?_, ?_, ?_, ?_, hhanded, ?_, ?_⟩
  · rw [hnext, hmessages, List.length_set, h.next]
  · obtain ⟨hlt, heq⟩ := List.getElem?_eq_some_iff.mp hi
    have hsame : (v.messages.set i n).map (·.messageId) = v.messages.map (·.messageId) := by
      have hlt' : i < (v.messages.map (·.messageId)).length := by simpa using hlt
      have hcolumn : m.messageId = (v.messages.map (·.messageId))[i] := by
        rw [List.getElem_map, heq]
      rw [List.map_set, hid, hcolumn, List.set_getElem_self]
    rw [hmessages, hsame]
    exact h.ids
  · have hafter := Ledger.countP_set isPending (b := n) hi
    have hbefore := h.queuedMessages
    rw [hmessages]
    split_ifs at hcount hafter <;> omega
  · rw [hmessages, Ledger.total_set _ hi, hbytes, h.queuedBytes]
  · rw [hmessages, List.length_set]
    exact hle
  · rw [hmessages]
    exact Ledger.forall_set hothers fun _ => hturn

theorem InputKept.handedOver (h : InputKept v) {m : ActionIoMessage}
    (hrunning : v.session.processState = .running)
    (hnext : (pending v.messages).head? = some m) (haccepted : m.deliveryState ≠ .writing) :
    InputKept { v with
      messages := Rows.write (fun n => n.messageId = m.messageId) asWriting v.messages
      handed := v.handed ++ [m.sequence] } := by
  obtain ⟨hposition, hstate, hidle⟩ := h.next_position hrunning hnext haccepted
  have hlt : v.handed.length < v.messages.length := (List.getElem?_eq_some_iff.mp hposition).1
  have hwrite : Rows.write (fun n => n.messageId = m.messageId) asWriting v.messages =
      v.messages.set v.handed.length (asWriting m) :=
    Rows.write_eq_set h.ids hposition asWriting
  have hsequence : m.sequence = v.handed.length := (h.inTurn _ m hposition).sequence
  have hbefore : isPending m = true := by simp [isPending, hstate]
  have hafter : isPending (asWriting m) = true := by simp [isPending, asWriting]
  have hlength : (v.handed ++ [m.sequence]).length = v.handed.length + 1 := by simp
  refine h.replace hposition hwrite rfl rfl ?_ ?_ ?_ ?_ ?_ ?_
  · rw [hbefore, hafter]
  · show v.session.queuedInputBytes = v.session.queuedInputBytes - _ + _
    rw [ActionIo.queuedBytes, ActionIo.queuedBytes, if_pos hbefore, if_pos hafter]
    show _ = _ - m.inputBytes + m.inputBytes
    omega
  · show v.handed ++ [m.sequence] = sequencesBelow (v.handed ++ [m.sequence]).length
    rw [hlength, sequencesBelow_succ, hsequence, ← h.handed]
  · show (v.handed ++ [m.sequence]).length ≤ _
    omega
  · show ∀ j o, j ≠ v.handed.length → v.messages[j]? = some o →
      InTurn v.session (v.handed ++ [m.sequence]).length j o
    intro j o hne hj
    have hturn := h.inTurn j o hj
    rw [hlength]
    refine ⟨hturn.sequence, ?_, ?_, ?_, ?_⟩
    · intro hbelow
      exact hidle j o (by omega) hj
    · intro heq
      exact absurd heq (by omega)
    · intro hle
      exact hturn.later (by omega)
    · intro hle
      exact hturn.waits (by omega)
  · show InTurn v.session (v.handed ++ [m.sequence]).length v.handed.length (asWriting m)
    rw [hlength]
    refine ⟨hsequence, ?_, ?_, ?_, ?_⟩
    · intro hbelow
      exact absurd hbelow (by omega)
    · intro _
      simp [asWriting]
    · intro hle
      exact absurd hle (by omega)
    · intro hle
      exact absurd hle (by omega)

theorem InputKept.writing_position (h : InputKept v) {i : Nat} {m : ActionIoMessage}
    (hi : v.messages[i]? = some m) (hwriting : m.deliveryState = .writing) :
    i + 1 = v.handed.length := by
  have hturn := h.inTurn i m hi
  rcases Nat.lt_trichotomy (i + 1) v.handed.length with hbelow | heq | habove
  · have hidle := hturn.before hbelow
    simp [isPending, hwriting] at hidle
  · exact heq
  · exact absurd hwriting (hturn.later (by omega))

theorem InputKept.delivered (h : InputKept v) {m : ActionIoMessage}
    {state : ActionIoDeliveryState} (confirmedBytes : Option Int) (failureCode : Option String)
    (hfound : v.messages.find? (fun n => n.messageId = m.messageId) = some m)
    (hwriting : m.deliveryState = .writing)
    (hstate : state = .written ∨ state = .failed ∨ state = .unknown) :
    InputKept { v with
      session := DriftActionIoJournal.delivered v.session m state v.session
      messages := Rows.write (fun n => n.messageId = m.messageId)
        (withOutcome state confirmedBytes failureCode) v.messages } := by
  obtain ⟨i, hlt, heq⟩ := List.mem_iff_getElem.mp (List.mem_of_find?_eq_some hfound)
  have hi : v.messages[i]? = some m := by rw [List.getElem?_eq_getElem hlt, heq]
  have hposition := h.writing_position hi hwriting
  have hbefore : isPending m = true := by simp [isPending, hwriting]
  have hafter : isPending (withOutcome state confirmedBytes failureCode m) = false := by
    rcases hstate with rfl | rfl | rfl <;> simp [isPending, withOutcome]
  refine h.replace hi (Rows.write_eq_set h.ids hi _) rfl rfl ?_ ?_ ?_ ?_ ?_ ?_
  · rw [hbefore, hafter]
    show v.session.queuedInputMessages - 1 + _ = v.session.queuedInputMessages + _
    simp
  · show v.session.queuedInputBytes - m.inputBytes = v.session.queuedInputBytes - _ + _
    rw [ActionIo.queuedBytes, ActionIo.queuedBytes, if_pos hbefore, hafter]
    simp
  · exact h.handed
  · exact h.handedLe
  · intro j o _ hj
    have hturn := h.inTurn j o hj
    exact ⟨hturn.sequence, hturn.before, hturn.last, hturn.later, hturn.waits⟩
  · show InTurn _ v.handed.length i _
    refine ⟨(h.inTurn i m hi).sequence, ?_, ?_, ?_, ?_⟩
    · intro _
      exact hafter
    · intro _ haccepted
      simp [isPending, haccepted] at hafter
    · intro hle
      exact absurd hle (by omega)
    · intro hle
      exact absurd hle (by omega)

/-! ## The end -/

theorem abandoned_keeps (failureCode : String) (m : ActionIoMessage) :
    (abandoned failureCode m).messageId = m.messageId ∧
      (abandoned failureCode m).sequence = m.sequence ∧
      isPending (abandoned failureCode m) = false := by
  rw [abandoned]
  split
  · simp [isPending, withOutcome]
  · simp [isPending, withOutcome]
  · rename_i hwriting haccepted
    refine ⟨rfl, rfl, ?_⟩
    simp only [isPending, Bool.or_eq_false_iff, decide_eq_false_iff_not]
    exact ⟨haccepted, hwriting⟩

theorem InputKept.ended (h : InputKept v) (failureCode : String)
    (hmessages : w.messages = v.messages.map (abandoned failureCode))
    (hhanded : w.handed = v.handed)
    (hnext : w.session.nextInputSequence = v.session.nextInputSequence)
    (hcount : w.session.queuedInputMessages = 0) (hbytes : w.session.queuedInputBytes = 0)
    (hended : w.session.processState = .unknown ∨ w.session.processState = .finished) :
    InputKept w := by
  have hidle : ∀ m ∈ w.messages, isPending m = false := by
    intro m hm
    rw [hmessages] at hm
    obtain ⟨n, -, heq⟩ := List.mem_map.mp hm
    rw [← heq]
    exact (abandoned_keeps failureCode n).2.2
  refine ⟨?_, ?_, ?_, ?_, ?_, ?_, ?_⟩
  · rw [hnext, hmessages, List.length_map, h.next]
  · have hsame : w.messages.map (·.messageId) = v.messages.map (·.messageId) := by
      rw [hmessages, List.map_map]
      apply List.map_congr_left
      intro m _
      exact (abandoned_keeps failureCode m).1
    rw [hsame]
    exact h.ids
  · rw [hcount, List.countP_eq_zero.mpr fun m hm => by simp [hidle m hm]]
    rfl
  · rw [hbytes, Ledger.total]
    symm
    apply List.sum_eq_zero
    intro b hb
    obtain ⟨m, hm, heq⟩ := List.mem_map.mp hb
    rw [← heq, ActionIo.queuedBytes, hidle m hm]
    rfl
  · rw [hhanded]
    exact h.handed
  · rw [hhanded, hmessages, List.length_map]
    exact h.handedLe
  · intro i m hi
    have hnot := hidle m (List.mem_of_getElem? hi)
    rw [hmessages, List.getElem?_map] at hi
    obtain ⟨n, hn, heq⟩ := Option.map_eq_some_iff.mp hi
    rw [hhanded]
    refine ⟨?_, ?_, ?_, ?_, ?_⟩
    · rw [← heq, (abandoned_keeps failureCode n).2.1]
      exact (h.inTurn i n hn).sequence
    · intro _
      exact hnot
    · intro _ haccepted
      simp [isPending, haccepted] at hnot
    · intro _ hwriting
      simp [isPending, hwriting] at hnot
    · intro _ hunknown hfinished
      rcases hended with hend | hend
      · exact absurd hend hunknown
      · exact absurd hend hfinished

theorem InputKept.move {services : JournalServices} (h : InputKept v) (hmove : Move services v w) :
    InputKept w := by
  cases hmove with
  | admitted m hadmissible _ hnew hstate => exact h.admitted hadmissible hnew hstate
  | starting hqueued =>
    exact h.session rfl rfl rfl rfl rfl fun _ _ => by simp [hqueued]
  | running hstarting =>
    exact h.session rfl rfl rfl rfl rfl fun _ _ => by simp [hstarting]
  | handed m hrunning _ hnext haccepted => exact h.handedOver hrunning hnext haccepted
  | delivered m state confirmedBytes failureCode hfound hwriting hstate =>
    exact h.delivered confirmedBytes failureCode hfound hwriting hstate
  | interrupted _ => exact h.ended "ACTION_IO_INTERRUPTED" rfl rfl rfl rfl rfl (.inl rfl)
  | appended =>
    exact h.session rfl rfl rfl rfl rfl fun hunknown hfinished => ⟨hunknown, hfinished⟩
  | finished outcome now _ _ =>
    refine h.ended "ACTION_STDIN_CLOSED" rfl rfl rfl rfl rfl ?_
    show (if outcome.processTerminated then ProcessState.finished else .unknown) = .unknown ∨
      (if outcome.processTerminated then ProcessState.finished else .unknown) = .finished
    split_ifs
    · exact .inr rfl
    · exact .inl rfl
  | expired =>
    exact h.session rfl rfl rfl rfl rfl fun hunknown hfinished => ⟨hunknown, hfinished⟩

theorem InputKept.moves {services : JournalServices} (h : InputKept v)
    (hmoves : Moves services v w) : InputKept w := by
  induction hmoves with
  | refl => exact h
  | tail _ hlast ih => exact ih.move hlast

/-! ## What never changes -/

/-- The input takes no more messages. -/
def InputClosed (session : ActionIoSession) : Prop :=
  ¬ (session.stdinState = .pending ∨ session.stdinState = .open) ∨ session.terminalAt ≠ none

/-- The delivery of a message has ended. -/
def Delivered (m : ActionIoMessage) : Prop :=
  m.deliveryState = .written ∨ m.deliveryState = .failed ∨ m.deliveryState = .unknown

theorem delivered_iff (m : ActionIoMessage) : Delivered m ↔ isPending m = false := by
  rw [Delivered, isPending]
  cases m.deliveryState <;> simp

theorem closed_move {services : JournalServices} (hmove : Move services v w)
    (hclosed : InputClosed v.session) :
    InputClosed w.session ∧ w.messages.map (·.messageId) = v.messages.map (·.messageId) := by
  cases hmove with
  | admitted m hadmissible _ _ _ =>
    rcases hclosed with hstdin | hterminal
    · exact absurd hadmissible.stdin hstdin
    · exact absurd hadmissible.terminal hterminal
  | starting hqueued => exact ⟨hclosed, rfl⟩
  | running hstarting =>
    refine ⟨?_, rfl⟩
    rcases hclosed with hstdin | hterminal
    · have hsame : (transitioned v.session .running v.session).stdinState = v.session.stdinState :=
        if_neg fun h => hstdin (.inl h.2)
      left
      rw [hsame]
      exact hstdin
    · exact .inr hterminal
  | handed m _ _ _ _ =>
    have hid : ∀ n, (asWriting n).messageId = n.messageId := fun _ => rfl
    exact ⟨hclosed, Rows.map_write hid _⟩
  | delivered m state confirmedBytes failureCode _ _ _ =>
    have hid : ∀ n, (withOutcome state confirmedBytes failureCode n).messageId = n.messageId :=
      fun _ => rfl
    refine ⟨?_, Rows.map_write hid _⟩
    rcases hclosed with hstdin | hterminal
    · left
      show ¬ (deliveredStdin v.session m state = _ ∨ deliveredStdin v.session m state = _)
      rw [deliveredStdin]
      split_ifs
      · simp
      · simp
      · exact hstdin
    · exact .inr hterminal
  | interrupted _ =>
    refine ⟨.inl (by simp [interruptedSession]), ?_⟩
    rw [List.map_map]
    apply List.map_congr_left
    intro m _
    exact (abandoned_keeps _ m).1
  | appended => exact ⟨hclosed, rfl⟩
  | finished outcome now _ _ =>
    constructor
    · left
      show ¬ ((if v.session.stdinState = .closed then ActionIoStdinState.closed else .failed) =
        _ ∨ _)
      split_ifs <;> simp [finished, *]
    · rw [List.map_map]
      apply List.map_congr_left
      intro m _
      exact (abandoned_keeps _ m).1
  | expired => exact ⟨hclosed, rfl⟩

theorem closed_moves {services : JournalServices} (hmoves : Moves services v w)
    (hclosed : InputClosed v.session) :
    InputClosed w.session ∧ w.messages.map (·.messageId) = v.messages.map (·.messageId) := by
  induction hmoves with
  | refl => exact ⟨hclosed, rfl⟩
  | tail _ hlast ih =>
    obtain ⟨hafter, hsame⟩ := closed_move hlast ih.1
    exact ⟨hafter, hsame.trans ih.2⟩

theorem InputKept.delivered_move {services : JournalServices} (h : InputKept v)
    (hmove : Move services v w) {m : ActionIoMessage} (hm : m ∈ v.messages)
    (hdelivered : Delivered m) : m ∈ w.messages := by
  have hidle := (delivered_iff m).mp hdelivered
  -- A write by id does not reach it unless it is the message that is written.
  have hwrite : ∀ n ∈ v.messages, isPending n = true → ∀ f,
      m ∈ Rows.write (fun o => o.messageId = n.messageId) f v.messages := by
    intro n hn hpending f
    refine Rows.mem_write.mpr ⟨m, hm, if_neg ?_⟩
    intro heq
    have hsame := List.inj_on_of_nodup_map h.ids hm hn (by simpa using heq)
    rw [hsame, hpending] at hidle
    exact absurd hidle (by simp)
  have hmap : ∀ failureCode, m ∈ v.messages.map (abandoned failureCode) := by
    intro failureCode
    refine List.mem_map.mpr ⟨m, hm, ?_⟩
    rcases hdelivered with hstate | hstate | hstate <;> simp [abandoned, hstate]
  cases hmove with
  | admitted n _ _ _ _ => exact List.mem_append_left _ hm
  | starting _ => exact hm
  | running _ => exact hm
  | handed n hrunning _ hnext haccepted =>
    obtain ⟨hposition, hstate, -⟩ := h.next_position hrunning hnext haccepted
    exact hwrite n (List.mem_of_getElem? hposition) (by simp [isPending, hstate]) _
  | delivered n state confirmedBytes failureCode hfound hwriting _ =>
    exact hwrite n (List.mem_of_find?_eq_some hfound) (by simp [isPending, hwriting]) _
  | interrupted _ => exact hmap _
  | appended => exact hm
  | finished _ _ _ _ => exact hmap _
  | expired => exact hm

theorem InputKept.delivered_moves {services : JournalServices} (h : InputKept v)
    (hmoves : Moves services v w) {m : ActionIoMessage} (hm : m ∈ v.messages)
    (hdelivered : Delivered m) : m ∈ w.messages := by
  induction hmoves with
  | refl => exact hm
  | tail hbefore hlast ih => exact (h.moves hbefore).delivered_move hlast ih hdelivered

theorem InputKept.writing_le_one (h : InputKept v) :
    (v.messages.countP fun m => m.deliveryState = .writing) ≤ 1 := by
  apply Ledger.countP_le_one
  intro i j m n hi hj hm hn
  have hfirst := h.writing_position hi (by simpa using hm)
  have hsecond := h.writing_position hj (by simpa using hn)
  omega

theorem InputKept.sequences (h : InputKept v) :
    v.messages.map (·.sequence) = sequencesBelow v.messages.length := by
  apply List.ext_getElem
  · simp
  · intro i hi _
    rw [List.length_map] at hi
    rw [List.getElem_map, (h.inTurn i _ (List.getElem?_eq_getElem hi)).sequence]
    simp [sequencesBelow]

end Execution

/-! ## The input of the sessions -/

/-- The row of a session agrees with its messages. -/
structure InputAgrees (s : Journal) (session : ActionIoSession) : Prop where
  sequences : ∃ n : Nat, session.nextInputSequence = n ∧
    (s.db.messagesOf session.executionId).map (·.sequence) = sequencesBelow n
  queuedMessages : session.queuedInputMessages =
    (s.db.messagesOf session.executionId).countP isPending
  queuedBytes : session.queuedInputBytes =
    (((s.db.messagesOf session.executionId).filter isPending).map (·.inputBytes)).sum
  oneWriting : ((s.db.messagesOf session.executionId).countP fun m =>
    m.deliveryState = .writing) ≤ 1
  handed : ∃ k : Nat, (k : Int) ≤ session.nextInputSequence ∧
    Journal.of session.executionId s.handed = sequencesBelow k

namespace Journal

open Execution

variable {services : JournalServices} {s : Journal}

theorem execution_of_mem (h : s.Sound) {session : ActionIoSession} (hsession : session ∈ s.db.sessions) :
    ∃ v, s.execution session.executionId = some v ∧ v.session = session ∧
      v.messages = s.db.messagesOf session.executionId ∧
      v.handed = Journal.of session.executionId s.handed :=
  ⟨_, execution_some (h.linked.session?_mem hsession), rfl, rfl, rfl⟩

theorem messages_of_execution {id : String} {v : Execution} (hv : s.execution id = some v) :
    v.messages = s.db.messagesOf id := by
  obtain ⟨session, -, heq⟩ := Option.map_eq_some_iff.mp hv
  rw [← heq]

theorem inputKept (h : (journal services).Reachable s) {id : String} {v : Execution}
    (hv : s.execution id = some v) : InputKept v :=
  execution_invariant (fun _ => InputKept.born) (fun _ _ => InputKept.move) h hv

/-- In every state that is reached, the row of a session agrees with its messages; once the
input is closed no message is added to them, and a message whose delivery has ended is found as
it is in all that follows. -/
theorem input_agrees (h : (journal services).Reachable s) {session : ActionIoSession}
    (hsession : session ∈ s.db.sessions) :
    InputAgrees s session ∧
      (∀ t, (journal services).Leads s t → InputClosed session →
        (t.db.messagesOf session.executionId).map (·.messageId) =
          (s.db.messagesOf session.executionId).map (·.messageId)) ∧
      ∀ t, (journal services).Leads s t → ∀ m ∈ s.db.messagesOf session.executionId,
        Delivered m → t.db.message? session.executionId m.messageId = some m := by
  have hsound := sound_of_reachable h
  obtain ⟨v, hv, hrow, hmessages, hhanded⟩ := execution_of_mem hsound hsession
  have hkept := inputKept h hv
  refine ⟨⟨?_, ?_, ?_, ?_, ?_⟩, ?_, ?_⟩
  · refine ⟨v.messages.length, ?_, ?_⟩
    · rw [← hrow, hkept.next]
    · rw [← hmessages, hkept.sequences]
  · rw [← hrow, hkept.queuedMessages, hmessages, hrow]
  · rw [← hmessages, ← Ledger.total_filter, ← hrow]
    exact hkept.queuedBytes
  · rw [← hmessages]
    exact hkept.writing_le_one
  · refine ⟨v.handed.length, ?_, ?_⟩
    · rw [← hrow, hkept.next]
      exact_mod_cast hkept.handedLe
    · rw [← hhanded]
      exact hkept.handed
  · intro t hleads hclosed
    obtain ⟨w, hw, hmoves⟩ := execution_later hleads hsound hv
    have hsame := (closed_moves hmoves (hrow ▸ hclosed)).2
    rw [← messages_of_execution hw, hsame, hmessages]
  · intro t hleads m hm hdelivered
    obtain ⟨w, hw, hmoves⟩ := execution_later hleads hsound hv
    rw [← hmessages] at hm
    have hmem := hkept.delivered_moves hmoves hm hdelivered
    rw [message?_eq, ← messages_of_execution hw]
    exact Rows.find?_of_nodup (hkept.moves hmoves).ids hmem

/-- A session with two messages and its end. -/
def endedRun : List JournalEvent :=
  [.claim sampleDraws sampleIntent (some sampleConfiguration),
    .finish "execution" { exitCode := some 0, complete := true, failureCode := none } 5]

def endedJournal : Journal :=
  ((journal plainServices).run {} endedRun).getD {}

theorem reachable_ended : (journal plainServices).Reachable endedJournal := by
  have hrun : (journal plainServices).run {} endedRun = some endedJournal := rfl
  exact Machine.reachable_of_run rfl hrun

theorem input_agrees_ended :
    ∃ session ∈ endedJournal.db.sessions, InputAgrees endedJournal session ∧
      (endedJournal.db.messagesOf session.executionId).length = 2 ∧
      ∀ m ∈ endedJournal.db.messagesOf session.executionId,
        endedJournal.db.message? session.executionId m.messageId = some m := by
  obtain ⟨session, hsession⟩ := List.exists_mem_of_ne_nil endedJournal.db.sessions
    (by decide +kernel)
  have hid : ∀ s ∈ endedJournal.db.sessions, s.executionId = "execution" := by decide +kernel
  have hlength : (endedJournal.db.messagesOf "execution").length = 2 := by decide +kernel
  have hidle : ∀ m ∈ endedJournal.db.messages, isPending m = false := by decide +kernel
  obtain ⟨hagrees, -, hkept⟩ := input_agrees reachable_ended hsession
  refine ⟨session, hsession, hagrees, by rw [hid session hsession, hlength], ?_⟩
  intro m hm
  apply hkept _ .refl m hm
  exact (delivered_iff m).mpr (hidle m (List.mem_filter.mp hm).1)

end Journal

end PlugAgente.ActionIo
