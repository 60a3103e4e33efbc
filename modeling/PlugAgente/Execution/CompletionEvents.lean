import PlugAgente.Execution.SaveExecution
import PlugAgente.Machine.Ledger

/-!
# Completion events

The listener of `SaveAgentActionExecution` starts the actions that follow an execution.  Whether a
save notifies it is decided by what the call has read, and the row may have become another by the
time its transaction commits.

`Undisturbed` is what keeps the two together.  Under it each terminal execution is announced once:
by the call that has ended it, or it is still to be announced by a call that has committed.
-/

namespace PlugAgente.Execution

open Dart

/-- The call will tell the listener when its save returns. -/
def SaveCall.announces (c : SaveCall) (id : Text) : Bool :=
  c.phase = .committed true && c.execution.id = id

def isEnded (row : Option AgentActionExecution) : Bool :=
  row.any AgentActionExecution.isTerminal

theorem isEnded_of_not_isOpen {row : Option AgentActionExecution} (hrow : row.isSome = true)
    (h : isOpen row = false) : isEnded row = true := by
  cases row with
  | none => simp at hrow
  | some r => simpa [isOpen, isEnded] using h

theorem not_isOpen_of_isEnded {row : Option AgentActionExecution} (h : isEnded row = true) :
    isOpen row = false := by
  cases row with
  | none => rfl
  | some r => simpa [isOpen, isEnded] using h

namespace SavesState

variable (s : SavesState)

/-- How often the listener was called for an execution. -/
def events (id : Text) : Nat :=
  (s.notified.map AgentActionExecution.id).count id

/-- The calls that have committed and will tell the listener. -/
def announcing (id : Text) : Nat :=
  s.calls.countP fun c => c.announces id

/-- A terminal save of the execution has succeeded, and was committed after one that was not
terminal. -/
def EndedAfterRunning (id : Text) : Prop :=
  ∃ i j running ended, [(j, running), (i, ended)].Sublist s.commits ∧
    running.id = id ∧ running.isTerminal = false ∧ ended.id = id ∧ ended.isTerminal = true ∧
    ∃ c, s.calls[i]? = some c ∧ c.phase = .returned (.success ended)

/-- A terminal save commits while its row is as open as it was when the call read it, a save that
is not terminal does not commit over a terminal row, and a save that has ended an open row
returns as its code says. -/
def Undisturbed : SaveAction → Prop
  | .transaction i .answers => ∀ c, s.calls[i]? = some c →
    if c.execution.isTerminal then isOpen (s.table.find c.execution.id) = isOpen c.previous
    else isEnded (s.table.find c.execution.id) = false
  | .hydrate i answer => ∀ c, s.calls[i]? = some c → isOpen c.previous = true → answer = .answers
  | _ => True

/-! ## The invariant -/

/-- What a call knows.  It will notify if its execution is terminal and its read found an open
row. -/
structure Informed (c : SaveCall) : Prop where
  reading : c.phase = .reading → c.execution.isTerminal = true ∧ c.previous = none
  verdict : ∀ v, c.phase = .saving v ∨ c.phase = .committed v →
    v = (c.execution.isTerminal && isOpen c.previous)

/-- Each terminal row that was open before is announced once. -/
structure Announced : Prop where
  informed : ∀ c ∈ s.calls, Informed c
  sent : ∀ id, s.events id + s.announcing id ≤ 1
  ended : ∀ id, 0 < s.events id + s.announcing id → isEnded (s.table.find id) = true
  stored : ∀ p ∈ s.commits, (s.table.find p.2.id).isSome = true
  terminal : ∀ p ∈ s.commits, p.2.isTerminal = true → isEnded (s.table.find p.2.id) = true
  due : ∀ p ∈ s.commits, p.2.isTerminal = false → isEnded (s.table.find p.2.id) = true →
    s.events p.2.id + s.announcing p.2.id = 1

variable {s} {useCase : SaveAgentActionExecution} {i : Nat} {c c' : SaveCall}

theorem announcing_setCall (hc : s.calls[i]? = some c) (c' : SaveCall) (id : Text) :
    (s.setCall i c').announcing id + (if c.announces id then 1 else 0) =
      s.announcing id + if c'.announces id then 1 else 0 :=
  Ledger.countP_set (fun c : SaveCall => c.announces id) hc

theorem not_announces (h : c.phase ≠ .committed true) (id : Text) : c.announces id = false := by
  simp [SaveCall.announces, h]

theorem informed_setCall (h : ∀ c ∈ s.calls, Informed c) (hc : Informed c') :
    ∀ c ∈ (s.setCall i c').calls, Informed c := by
  intro d hd
  rcases List.mem_or_eq_of_mem_set hd with hd | rfl
  · exact h d hd
  · exact hc

theorem Announced.setCall (h : s.Announced) (hc : s.calls[i]? = some c)
    (hbefore : c.phase ≠ .committed true) (hafter : c'.phase ≠ .committed true)
    (hinformed : Informed c') : (s.setCall i c').Announced := by
  have hsame : ∀ id, (s.setCall i c').announcing id = s.announcing id := by
    intro id
    have hcount := announcing_setCall hc c' id
    rw [not_announces hbefore, not_announces hafter] at hcount
    simpa using hcount
  refine ⟨informed_setCall h.informed hinformed, ?_, ?_, h.stored, h.terminal, ?_⟩
  · intro id
    rw [hsame]
    exact h.sent id
  · intro id
    rw [hsame]
    exact h.ended id
  · intro p hp
    rw [hsame]
    exact h.due p hp

theorem informed_returned (execution : AgentActionExecution) (result : SaveResult)
    (previous : Option AgentActionExecution) :
    Informed { execution, phase := .returned result, previous } := by
  refine ⟨?_, ?_⟩
  · intro hphase
    cases hphase
  · rintro v (hphase | hphase)
    · cases hphase
    · cases hphase

theorem informed_call (execution : AgentActionExecution) : Informed (useCase.call execution) := by
  unfold SaveAgentActionExecution.call
  split
  · exact informed_returned _ _ _
  · split
    · rename_i hlistener
      refine ⟨?_, ?_⟩
      · intro _
        rw [Bool.and_eq_true] at hlistener
        exact ⟨hlistener.2, rfl⟩
      · rintro v (hphase | hphase)
        · cases hphase
        · cases hphase
    · refine ⟨?_, ?_⟩
      · intro hphase
        cases hphase
      · rintro v (hphase | hphase)
        · cases hphase
          simp [isOpen]
        · cases hphase

theorem call_phase_ne (execution : AgentActionExecution) :
    (useCase.call execution).phase ≠ .committed true := by
  unfold SaveAgentActionExecution.call
  split
  · simp
  · split <;> simp

theorem readAnswered_phase_ne (table : ExecutionTable) (answer : RepositoryAnswer) :
    (c.readAnswered table answer).phase ≠ .committed true := by
  unfold SaveCall.readAnswered
  split
  · split <;> simp
  · simp

theorem informed_readAnswered (h : Informed c) (hreading : c.phase = .reading)
    (table : ExecutionTable) (answer : RepositoryAnswer) :
    Informed (c.readAnswered table answer) := by
  obtain ⟨hterminal, hprevious⟩ := h.reading hreading
  unfold SaveCall.readAnswered
  split
  · split
    · refine ⟨?_, ?_⟩
      · intro hphase
        cases hphase
      · rintro v (hphase | hphase)
        · cases hphase
          simp [hprevious, isOpen]
        · cases hphase
    · refine ⟨?_, ?_⟩
      · intro hphase
        cases hphase
      · rintro v (hphase | hphase)
        · cases hphase
          simp [hterminal, isOpen]
        · cases hphase
  · exact informed_returned _ _ _

/-! ## The steps -/

theorem Announced.call (h : s.Announced) (execution : AgentActionExecution) :
    Announced { s with calls := s.calls ++ [useCase.call execution] } := by
  have hsame : ∀ id,
      announcing { s with calls := s.calls ++ [useCase.call execution] } id = s.announcing id := by
    intro id
    unfold announcing
    rw [List.countP_append, List.countP_singleton, not_announces (call_phase_ne execution)]
    simp
  refine ⟨?_, ?_, ?_, h.stored, h.terminal, ?_⟩
  · intro c hc
    rcases List.mem_append.mp hc with hc | hc
    · exact h.informed c hc
    · rw [List.mem_singleton.mp hc]
      exact informed_call execution
  · intro id
    rw [hsame]
    exact h.sent id
  · intro id
    rw [hsame]
    exact h.ended id
  · intro p hp
    rw [hsame]
    exact h.due p hp

section Commit

variable {v : Bool}

theorem committed_events (id : Text) :
    (s.transactionEnded i c v .answers).events id = s.events id := rfl

theorem committed_find_self :
    (s.transactionEnded i c v .answers).table.find c.execution.id = some c.execution :=
  ExecutionTable.find_upsert_self _ _

theorem committed_find_of_ne {id : Text} (h : id ≠ c.execution.id) :
    (s.transactionEnded i c v .answers).table.find id = s.table.find id :=
  ExecutionTable.find_upsert_of_ne _ h

theorem committed_announcing (hc : s.calls[i]? = some c) (hphase : c.phase = .saving v)
    (id : Text) :
    (s.transactionEnded i c v .answers).announcing id =
      s.announcing id + if v = true ∧ c.execution.id = id then 1 else 0 := by
  have hset := announcing_setCall hc { c with phase := .committed v } id
  have hbefore : c.announces id = false := not_announces (by simp [hphase]) id
  have hafter : SaveCall.announces { c with phase := .committed v } id =
      decide (v = true ∧ c.execution.id = id) := by
    simp [SaveCall.announces]
  rw [hbefore, hafter] at hset
  simpa [SavesState.transactionEnded, announcing] using hset

theorem Announced.nobody (h : s.Announced) (hc : s.calls[i]? = some c)
    (hphase : c.phase = .saving true) (hguard : s.Undisturbed (.transaction i .answers)) :
    c.execution.isTerminal = true ∧ s.events c.execution.id + s.announcing c.execution.id = 0 := by
  have hv := (h.informed c (List.mem_of_getElem? hc)).verdict true (.inl hphase)
  rw [eq_comm, Bool.and_eq_true] at hv
  obtain ⟨hterminal, hopen⟩ := hv
  have hsame := hguard c hc
  rw [if_pos hterminal, hopen] at hsame
  refine ⟨hterminal, ?_⟩
  by_contra hpos
  have hended := h.ended c.execution.id (by omega)
  rw [not_isOpen_of_isEnded hended] at hsame
  cases hsame

theorem Announced.over_ended (h : s.Announced) (hc : s.calls[i]? = some c)
    (hphase : c.phase = .saving v) (hguard : s.Undisturbed (.transaction i .answers))
    (hended : isEnded (s.table.find c.execution.id) = true) :
    c.execution.isTerminal = true ∧ v = false := by
  have hv := (h.informed c (List.mem_of_getElem? hc)).verdict v (.inl hphase)
  have hsame := hguard c hc
  split_ifs at hsame with hterminal
  · refine ⟨hterminal, ?_⟩
    rw [hv, ← hsame, not_isOpen_of_isEnded hended, Bool.and_false]
  · rw [hended] at hsame
    cases hsame

theorem Announced.over_open (h : s.Announced) (hc : s.calls[i]? = some c)
    (hphase : c.phase = .saving v) (hguard : s.Undisturbed (.transaction i .answers))
    (hterminal : c.execution.isTerminal = true)
    (hopen : isOpen (s.table.find c.execution.id) = true) : v = true := by
  have hv := (h.informed c (List.mem_of_getElem? hc)).verdict v (.inl hphase)
  have hsame := hguard c hc
  rw [if_pos hterminal, hopen] at hsame
  rw [hv, hterminal, ← hsame, Bool.true_and]

theorem mem_committed {p : Nat × AgentActionExecution} :
    p ∈ (s.transactionEnded i c v .answers).commits ↔ p ∈ s.commits ∨ p = (i, c.execution) := by
  show p ∈ s.commits ++ [(i, c.execution)] ↔ _
  rw [List.mem_append, List.mem_singleton]

theorem Announced.committed_ended (h : s.Announced) (hc : s.calls[i]? = some c)
    (hphase : c.phase = .saving v) (hguard : s.Undisturbed (.transaction i .answers)) (id : Text)
    (hpos : 0 < s.events id + (s.announcing id + if v = true ∧ c.execution.id = id then 1 else 0)) :
    isEnded ((s.transactionEnded i c v .answers).table.find id) = true := by
  by_cases hid : id = c.execution.id
  · subst hid
    rw [committed_find_self]
    show c.execution.isTerminal = true
    by_cases hnotify : v = true
    · rw [hnotify] at hphase
      exact (h.nobody hc hphase hguard).1
    · rw [if_neg (fun hif => hnotify hif.1)] at hpos
      exact (h.over_ended hc hphase hguard (h.ended _ (by omega))).1
  · rw [committed_find_of_ne hid]
    rw [if_neg (fun hif => hid hif.2.symm)] at hpos
    exact h.ended id (by omega)

theorem Announced.committed_terminal (h : s.Announced) (hc : s.calls[i]? = some c)
    (hphase : c.phase = .saving v) (hguard : s.Undisturbed (.transaction i .answers))
    {p : Nat × AgentActionExecution} (hp : p ∈ s.commits ∨ p = (i, c.execution))
    (hterminal : p.2.isTerminal = true) :
    isEnded ((s.transactionEnded i c v .answers).table.find p.2.id) = true := by
  rcases hp with hp | rfl
  · have hended := h.terminal p hp hterminal
    by_cases hid : p.2.id = c.execution.id
    · rw [hid] at hended ⊢
      rw [committed_find_self]
      exact (h.over_ended hc hphase hguard hended).1
    · rw [committed_find_of_ne hid]
      exact hended
  · rw [committed_find_self]
    exact hterminal

/-- What a commit leaves is announced once if it is terminal and was not before: by this call if
the row was open, and as before if the row was terminal already. -/
theorem Announced.committed_due (h : s.Announced) (hc : s.calls[i]? = some c)
    (hphase : c.phase = .saving v) (hguard : s.Undisturbed (.transaction i .answers))
    {p : Nat × AgentActionExecution} (hp : p ∈ s.commits ∨ p = (i, c.execution))
    (hrunning : p.2.isTerminal = false)
    (hended : isEnded ((s.transactionEnded i c v .answers).table.find p.2.id) = true) :
    s.events p.2.id +
      (s.announcing p.2.id + if v = true ∧ c.execution.id = p.2.id then 1 else 0) = 1 := by
  by_cases hid : p.2.id = c.execution.id
  · rw [hid, committed_find_self] at hended
    have hterminal : c.execution.isTerminal = true := hended
    have hp : p ∈ s.commits := by
      rcases hp with hp | rfl
      · exact hp
      · rw [hterminal] at hrunning
        cases hrunning
    have hstored := h.stored p hp
    have hdue := h.due p hp hrunning
    rw [hid] at hstored hdue ⊢
    by_cases hopen : isOpen (s.table.find c.execution.id) = true
    · have hnotify := h.over_open hc hphase hguard hterminal hopen
      rw [hnotify] at hphase
      have hnobody := (h.nobody hc hphase hguard).2
      rw [if_pos ⟨hnotify, rfl⟩]
      omega
    · have hover := isEnded_of_not_isOpen hstored (eq_false_of_ne_true hopen)
      have hquiet := (h.over_ended hc hphase hguard hover).2
      have hone := hdue hover
      rw [if_neg (fun hif => by simp [hquiet] at hif)]
      omega
  · rw [committed_find_of_ne hid] at hended
    rw [if_neg (fun hif => hid hif.2.symm)]
    rcases hp with hp | rfl
    · exact h.due p hp hrunning hended
    · exact absurd rfl hid

theorem Announced.committed (h : s.Announced) (hc : s.calls[i]? = some c)
    (hphase : c.phase = .saving v) (hguard : s.Undisturbed (.transaction i .answers)) :
    (s.transactionEnded i c v .answers).Announced := by
  have hinformed := h.informed c (List.mem_of_getElem? hc)
  refine ⟨?_, ?_, ?_, ?_, ?_, ?_⟩
  · refine informed_setCall h.informed ⟨?_, ?_⟩
    · intro hreading
      cases hreading
    · rintro v' (hsaving | hcommitted)
      · cases hsaving
      · cases hcommitted
        exact hinformed.verdict v (.inl hphase)
  · intro id
    rw [committed_events, committed_announcing hc hphase]
    have hle := h.sent id
    split_ifs with hif
    · obtain ⟨hnotify, rfl⟩ := hif
      rw [hnotify] at hphase
      have hnobody := (h.nobody hc hphase hguard).2
      omega
    · omega
  · intro id hpos
    rw [committed_events, committed_announcing hc hphase] at hpos
    exact h.committed_ended hc hphase hguard id hpos
  · intro p hp
    by_cases hid : p.2.id = c.execution.id
    · rw [hid, committed_find_self]
      rfl
    · rw [committed_find_of_ne hid]
      rcases mem_committed.mp hp with hp | rfl
      · exact h.stored p hp
      · exact absurd rfl hid
  · intro p hp hterminal
    exact h.committed_terminal hc hphase hguard (mem_committed.mp hp) hterminal
  · intro p hp hrunning hended
    rw [committed_events, committed_announcing hc hphase]
    exact h.committed_due hc hphase hguard (mem_committed.mp hp) hrunning hended

end Commit

theorem Announced.saveReturned (h : s.Announced) (hc : s.calls[i]? = some c) {v : Bool}
    (hphase : c.phase = .committed v) {answer : RepositoryAnswer}
    (hguard : s.Undisturbed (.hydrate i answer)) :
    (s.saveReturned i c v answer).Announced := by
  have hinformed := h.informed c (List.mem_of_getElem? hc)
  have hv : v = (c.execution.isTerminal && isOpen c.previous) := hinformed.verdict v (.inr hphase)
  cases v with
  | false =>
    have hquiet : c.phase ≠ .committed true := by simp [hphase]
    cases answer with
    | answers => exact h.setCall hc hquiet (by simp) (informed_returned _ _ _)
    | fails => exact h.setCall hc hquiet (by simp) (informed_returned _ _ _)
    | throws => exact h.setCall hc hquiet (by simp) (informed_returned _ _ _)
  | true =>
    have hopen : isOpen c.previous = true := by
      rw [eq_comm, Bool.and_eq_true] at hv
      exact hv.2
    obtain rfl := hguard c hc hopen
    have hmoved : ∀ id, (s.saveReturned i c true .answers).events id +
        (s.saveReturned i c true .answers).announcing id = s.events id + s.announcing id := by
      intro id
      have hset := announcing_setCall hc { c with phase := .returned (.success c.execution) } id
      have hafter :
          SaveCall.announces { c with phase := .returned (.success c.execution) } id = false :=
        not_announces (by simp) id
      rw [hafter] at hset
      have hevents : (s.saveReturned i c true .answers).events id =
          s.events id + if c.announces id then 1 else 0 := by
        show ((s.notified ++ [c.execution]).map AgentActionExecution.id).count id = _
        rw [List.map_append, List.count_append, List.map_singleton, List.count_singleton]
        simp [SaveCall.announces, hphase, events]
      have hsame : (s.saveReturned i c true .answers).announcing id =
          (s.setCall i { c with phase := .returned (.success c.execution) }).announcing id := rfl
      simp only [Bool.false_eq_true, if_false] at hset
      omega
    refine ⟨informed_setCall h.informed (informed_returned _ _ _), ?_, ?_, h.stored, h.terminal, ?_⟩
    · intro id
      rw [hmoved]
      exact h.sent id
    · intro id
      rw [hmoved]
      exact h.ended id
    · intro p hp
      rw [hmoved]
      exact h.due p hp

theorem Announced.step (h : s.Announced) {a : SaveAction} {s' : SavesState}
    (hguard : s.Undisturbed a) (hstep : useCase.saves.step s a = some s') : s'.Announced := by
  cases a with
  | call execution =>
    rw [← Option.some.inj hstep]
    exact h.call execution
  | read i answer =>
    simp only [SaveAgentActionExecution.saves] at hstep
    split at hstep
    · rename_i c hc
      split at hstep
      · rename_i hreading
        rw [← Option.some.inj hstep]
        exact h.setCall hc (by simp [hreading]) (readAnswered_phase_ne _ _)
          (informed_readAnswered (h.informed c (List.mem_of_getElem? hc)) hreading _ _)
      · cases hstep
    · cases hstep
  | transaction i answer =>
    simp only [SaveAgentActionExecution.saves] at hstep
    split at hstep
    · rename_i c hc
      split at hstep
      · rename_i v hphase
        rw [← Option.some.inj hstep]
        cases answer with
        | answers => exact h.committed hc hphase hguard
        | fails => exact h.setCall hc (by simp [hphase]) (by simp) (informed_returned _ _ _)
        | throws => exact h.setCall hc (by simp [hphase]) (by simp) (informed_returned _ _ _)
      · cases hstep
    · cases hstep
  | hydrate i answer =>
    simp only [SaveAgentActionExecution.saves] at hstep
    split at hstep
    · rename_i c hc
      split at hstep
      · rename_i v hphase
        rw [← Option.some.inj hstep]
        exact h.saveReturned hc hphase hguard
      · cases hstep
    · cases hstep

theorem Announced.of_start {s : SavesState} (h : useCase.saves.start s) : s.Announced := by
  obtain ⟨hcalls, hcommits, hnotified⟩ := h
  have hnone : ∀ id, s.events id + s.announcing id = 0 := by
    intro id
    simp [events, announcing, hcalls, hnotified]
  refine ⟨?_, ?_, ?_, ?_, ?_, ?_⟩
  · simp [hcalls]
  · intro id
    rw [hnone]
    omega
  · intro id hpos
    rw [hnone] at hpos
    omega
  · simp [hcommits]
  · simp [hcommits]
  · simp [hcommits]

theorem announced {s : SavesState} (h : useCase.saves.Reach Undisturbed s) : s.Announced :=
  h.invariant (fun _ => Announced.of_start) fun _ _ _ ih hguard hstep => ih.step hguard hstep

/-! ## Once -/

/-- In every run whose steps are undisturbed the listener is called at most once for an execution,
and an execution that a terminal save has ended after another save was announced, or a call that
has committed is about to announce it. -/
theorem notified_once {s : SavesState} (h : useCase.saves.Reach Undisturbed s) (id : Text) :
    s.events id ≤ 1 ∧
      (s.EndedAfterRunning id →
        s.events id = 1 ∨ ∃ c ∈ s.calls, c.execution.id = id ∧ c.phase = .committed true) := by
  have hinv := announced h
  have hle := hinv.sent id
  refine ⟨by omega, ?_⟩
  rintro ⟨i, j, running, ended, hcommits, hrunning, hopen, hended, hterminal, -⟩
  have hrow := hinv.terminal (i, ended) (hcommits.subset (by simp)) hterminal
  have hdue := hinv.due (j, running) (hcommits.subset (by simp)) hopen
    (by rw [hrunning, ← hended]; exact hrow)
  rw [hrunning] at hdue
  by_cases hannouncing : s.announcing id = 0
  · exact .inl (by omega)
  · right
    obtain ⟨c, hc, hannounces⟩ := List.countP_pos_iff.mp (Nat.pos_of_ne_zero hannouncing)
    simp only [SaveCall.announces, Bool.and_eq_true, decide_eq_true_eq] at hannounces
    exact ⟨c, hc, hannounces.2, hannounces.1⟩

/-! ## Runs -/

/-- The use case that the agent registers. -/
def withListener : SaveAgentActionExecution where
  onTerminalExecution := true

def backup (status : AgentActionExecutionStatus) : AgentActionExecution where
  id := ['e']
  actionId := ['a']
  status

/-- A call that nothing comes in between of. -/
def alone (i : Nat) (status : AgentActionExecutionStatus) : List SaveAction :=
  if status.isTerminal then
    [.call (backup status), .read i .answers, .transaction i .answers, .hydrate i .answers]
  else
    [.call (backup status), .transaction i .answers, .hydrate i .answers]

theorem starts_empty : withListener.saves.start {} := ⟨rfl, rfl, rfl⟩

def afterSaves (actions : List SaveAction) : SavesState :=
  (withListener.saves.run {} actions).getD {}

/-- A run, its success, and the success again. -/
def ranAndSucceeded : List SaveAction :=
  alone 0 .running ++ alone 1 .succeeded ++ alone 2 .succeeded

theorem notified_once_ran :
    (afterSaves ranAndSucceeded).EndedAfterRunning ['e'] ∧
      (afterSaves ranAndSucceeded).events ['e'] = 1 := by
  have hreach : withListener.saves.Reach Undisturbed (afterSaves ranAndSucceeded) := by
    refine Machine.Reach.of_run (.start starts_empty) ranAndSucceeded ?_ rfl
    refine ⟨trivial, ?_, ?_, trivial, trivial, ?_, ?_, trivial, trivial, ?_, ?_, trivial⟩
    all_goals
      intro c hc
      cases hc
      decide
  have hended : (afterSaves ranAndSucceeded).EndedAfterRunning ['e'] := by
    refine ⟨1, 0, backup .running, backup .succeeded, by decide, rfl, rfl, rfl, rfl, _, rfl, rfl⟩
  have honce := notified_once hreach ['e']
  refine ⟨hended, (honce.2 hended).resolve_right ?_⟩
  decide

/-- A success and a cancellation of one run, which both have read that it is running. -/
def twoEnds : List SaveAction :=
  alone 0 .running ++
    [.call (backup .succeeded), .call (backup .cancelled), .read 1 .answers, .read 2 .answers,
      .transaction 1 .answers, .hydrate 1 .answers, .transaction 2 .answers, .hydrate 2 .answers]

/-- A success that is committed but reported as failed, and the save of it again. -/
def reportedFailed : List SaveAction :=
  alone 0 .running ++
    [.call (backup .succeeded), .read 1 .answers, .transaction 1 .answers, .hydrate 1 .fails] ++
    alone 2 .succeeded

/-- The listener is called twice for one execution, and it is never called for another one that a
terminal save has ended. -/
theorem notified_twice_or_never :
    (∃ s id, withListener.saves.Reachable s ∧ s.events id = 2) ∧
      ∃ s id, withListener.saves.Reachable s ∧ s.EndedAfterRunning id ∧ s.events id = 0 ∧
        ∀ c ∈ s.calls, c.phase ≠ .committed true := by
  refine ⟨⟨afterSaves twoEnds, ['e'], ?_, by decide⟩,
    ⟨afterSaves reportedFailed, ['e'], ?_, ?_, by decide, by decide⟩⟩
  · exact Machine.reachable_of_run starts_empty
      (show withListener.saves.run _ twoEnds = some (afterSaves twoEnds) from rfl)
  · exact Machine.reachable_of_run starts_empty
      (show withListener.saves.run _ reportedFailed = some (afterSaves reportedFailed) from rfl)
  · exact ⟨2, 0, backup .running, backup .succeeded, by decide, rfl, rfl, rfl, rfl, _, rfl, rfl⟩

end SavesState

end PlugAgente.Execution
