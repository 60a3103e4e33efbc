import PlugAgente.Operation.Executor

/-!
# The journal and the executor agree

For any number of executions, in any interleaving and with any answers, of all the
executions of an operation at most one dispatches steps (`Agrees.single`); an operation
is recorded as completed only after its commit was confirmed and with every row count
within its bound (`Agrees.completed`); and it is recorded as rolled back or cancelled
only if no commit was dispatched (`Agrees.aborted`, `Agrees.dispatched`).  An end that is
recorded stays (`journal_agrees`).

`Run.Ok` is what holds of a single execution whatever the others do, and `Inv` adds what
ties the executions to the rows of the journal.
-/

namespace PlugAgente.Operation

/-! ## Row counts -/

/-- The rows that a step counts towards the limit of the operation. -/
def countedRows (p : SqlOperationStep × SqlOperationStepResult) : Int :=
  if p.1.effect = .select then 0 else p.2.directlyAffectedRows.getD 0

/-- A step that writes has a known row count within its bound. -/
def WithinBound (p : SqlOperationStep × SqlOperationStepResult) : Prop :=
  p.1.effect ≠ .select →
    ∃ count bounds, p.2.directlyAffectedRows = some count ∧ p.1.affectedRows = some bounds ∧
      0 ≤ count ∧ bounds.contains count = true

/-- What the executor knows of the rows so far. -/
structure Counted (plan : SqlOperationPlan) (total : Int)
    (accepted : List (SqlOperationStep × SqlOperationStepResult)) : Prop where
  within : ∀ p ∈ accepted, WithinBound p
  total_eq : total = Ledger.total countedRows accepted
  nonneg : 0 ≤ total
  le_max : total ≤ plan.maxAffectedRows

/-- Sums of small numbers do not wrap. -/
theorem add64_eq {a b : Int} (ha : 0 ≤ a) (ha' : a ≤ 100000) (hb : 0 ≤ b) (hb' : b ≤ 100000) :
    add64 a b = a + b := by
  rw [add64]
  apply Int.bmod_eq_of_le <;> omega

/-- The bound of a step that writes lies within the limit of its plan, so the new total
is the sum, and within the limit. -/
theorem checkAffectedRows_ok {plan : SqlOperationPlan} {total total' : Int}
    {step : SqlOperationStep} {result : SqlOperationStepResult} (hstep : step ∈ plan.steps)
    (hnonneg : 0 ≤ total) (hmax : total ≤ plan.maxAffectedRows)
    (h : checkAffectedRows plan total step result = .ok total') :
    WithinBound (step, result) ∧ total' = total + countedRows (step, result) ∧ 0 ≤ total' ∧
      total' ≤ plan.maxAffectedRows := by
  rw [checkAffectedRows] at h
  split at h
  · rename_i heffect
    cases h
    exact ⟨fun hne => absurd heffect hne, by simp [countedRows, heffect], hnonneg, hmax⟩
  · rename_i heffect
    split at h
    · rename_i count bounds hcount hbounds
      split at h
      · cases h
      · rename_i hin
        simp only [Bool.or_eq_true, decide_eq_true_eq, Bool.not_eq_true', not_or, Int.not_lt,
          Bool.not_eq_false] at hin
        obtain ⟨hpos, hcontains⟩ := hin
        split at h
        · cases h
        · rename_i hlimit
          cases h
          have hle : count ≤ bounds.max := by
            simp only [SqlRowBounds.contains, Bool.and_eq_true, decide_eq_true_eq] at hcontains
            exact hcontains.2
          have hbound := plan.affected_le step hstep heffect bounds hbounds
          have hsmall := plan.max_le
          have hsum : add64 total count = total + count :=
            add64_eq hnonneg (by omega) hpos (by omega)
          rw [hsum] at hlimit ⊢
          refine ⟨fun _ => ⟨count, bounds, hcount, hbounds, hpos, hcontains⟩, ?_, ?_, ?_⟩
          · simp [countedRows, heffect, hcount]
          · omega
          · omega
    · cases h

/-- A step that is accepted has passed its checks on the rows. -/
theorem acceptStep_ok {formats : Formats} {plan : SqlOperationPlan} {total total' : Int}
    {values values' : Values} {step : SqlOperationStep} {result : SqlOperationStepResult}
    (h : acceptStep formats plan total values step result = .ok (total', values')) :
    checkAffectedRows plan total step result = .ok total' := by
  rw [acceptStep] at h
  cases hexpected : checkExpectedRows step result with
  | error e => simp [hexpected, bind, Except.bind] at h
  | ok _ =>
    cases htotal : checkAffectedRows plan total step result with
    | error e => simp [hexpected, htotal, bind, Except.bind] at h
    | ok t =>
      cases hvalues : readOutputs formats values step result with
      | error e => simp [hexpected, htotal, hvalues, bind, Except.bind] at h
      | ok v =>
        simp only [hexpected, htotal, hvalues, bind, Except.bind, pure, Except.pure,
          Except.ok.injEq, Prod.mk.injEq] at h
        rw [h.1]

/-! ## One execution -/

/-- What holds of an execution in every phase. -/
structure Run.Core (r : Run) : Prop where
  counted : Counted r.plan r.total r.accepted
  unclaimed : r.claimed = false → r.dispatched = [] ∧ r.commitAttempted = false
  attempted : r.commitDispatched = true → r.commitAttempted = true
  confirmed : r.commitConfirmed = true →
    r.commitDispatched = true ∧ r.accepted.map Prod.fst = r.plan.steps

/-- What holds of an execution in a phase. -/
def Phase.Fits (r : Run) : Phase → Prop
  | .authorizing | .claiming _ =>
    r.claimed = false ∧ r.commitAttempted = false ∧ r.accepted = []
  | .opening _ => r.claimed = true ∧ r.commitAttempted = false ∧ r.accepted = []
  | .asserting _ rest | .reading _ rest =>
    r.claimed = true ∧ r.commitAttempted = false ∧ r.accepted.map Prod.fst ++ rest = r.plan.steps
  | .executing _ step rest =>
    r.claimed = true ∧ r.commitAttempted = false ∧
      r.accepted.map Prod.fst ++ step :: rest = r.plan.steps
  | .committing _ =>
    r.claimed = true ∧ r.commitDispatched = true ∧ r.accepted.map Prod.fst = r.plan.steps
  | .completing _ => r.claimed = true ∧ r.commitConfirmed = true
  | .rollingBack _ _ => r.claimed = true ∧ r.commitAttempted = false
  | .failing _ state _ =>
    r.claimed = true ∧ (state = .outcomeUnknown ∨
      (state = .rolledBack ∨ state = .cancelled) ∧ r.commitAttempted = false)
  | .returned => True

/-- What holds of an execution, whatever the others do. -/
structure Run.Ok (r : Run) : Prop where
  core : r.Core
  fits : r.phase.Fits r

theorem Run.Core.withPhase {r : Run} (h : r.Core) (phase : Phase) :
    Run.Core { r with phase := phase } :=
  ⟨h.counted, h.unclaimed, h.attempted, h.confirmed⟩

theorem Run.Core.toPhase {r : Run} (h : r.Core) {phase : Phase} (hfits : phase.Fits r) :
    Run.Ok { r with phase := phase } :=
  ⟨h.withPhase phase, by cases phase <;> exact hfits⟩

/-- The `catch` changes the phase only, and to one that fits. -/
theorem Run.handle_cases (r : Run) (target : Option SqlOperationTarget) (error : Thrown) :
    ∃ phase, phase.Fits r ∧ r.handle target error = { r with phase := phase } := by
  cases target with
  | none => exact ⟨.returned, trivial, rfl⟩
  | some target =>
    rw [Run.handle]
    split
    · exact ⟨.returned, trivial, rfl⟩
    · rename_i hclaimed
      have hclaimed : r.claimed = true := by simpa using hclaimed
      split
      · rename_i hopen
        simp only [Bool.and_eq_true, Bool.not_eq_true'] at hopen
        split
        · exact ⟨.rollingBack target error.failureCode, ⟨hclaimed, hopen.1⟩, rfl⟩
        · exact ⟨.failing target .cancelled error.failureCode,
            ⟨hclaimed, .inr ⟨.inr rfl, hopen.1⟩⟩, rfl⟩
      · exact ⟨.failing target .outcomeUnknown error.failureCode, ⟨hclaimed, .inl rfl⟩, rfl⟩

theorem Run.Core.handle {r : Run} (h : r.Core) (target : Option SqlOperationTarget)
    (error : Thrown) : (r.handle target error).Ok := by
  obtain ⟨phase, hfits, heq⟩ := r.handle_cases target error
  rw [heq]
  exact h.toPhase hfits

theorem Run.Core.assertCurrent {r : Run} (h : r.Core) {target : SqlOperationTarget}
    {rest : List SqlOperationStep} (budget : Bool)
    (hfits : (Phase.asserting target rest).Fits r) :
    (r.assertCurrent target rest budget).Ok := by
  rw [Run.assertCurrent]
  split
  · exact h.toPhase hfits
  · exact h.handle _ _

/-- An event at an execution keeps its plan, and what was confirmed stays. -/
structure Run.Follows (r r' : Run) : Prop where
  plan : r'.plan = r.plan
  confirmed : r.commitConfirmed = true → r'.commitConfirmed = true ∧ r'.total = r.total

theorem Run.Follows.handle {r r' : Run} (h : r.Follows r') (target : Option SqlOperationTarget)
    (error : Thrown) : r.Follows (r'.handle target error) := by
  obtain ⟨phase, -, heq⟩ := r'.handle_cases target error
  rw [heq]
  exact ⟨h.plan, h.confirmed⟩

theorem Run.Follows.assertCurrent {r r' : Run} (h : r.Follows r') (target : SqlOperationTarget)
    (rest : List SqlOperationStep) (budget : Bool) :
    r.Follows (r'.assertCurrent target rest budget) := by
  rw [Run.assertCurrent]
  split
  · exact ⟨h.plan, h.confirmed⟩
  · exact h.handle _ _

theorem Run.Follows.refl (r : Run) : r.Follows r :=
  ⟨rfl, fun h => ⟨h, rfl⟩⟩

theorem Run.handle_claimed (r : Run) (target : Option SqlOperationTarget) (error : Thrown) :
    (r.handle target error).claimed = r.claimed := by
  obtain ⟨phase, -, heq⟩ := r.handle_cases target error
  rw [heq]

theorem Run.assertCurrent_claimed (r : Run) (target : SqlOperationTarget)
    (rest : List SqlOperationStep) (budget : Bool) :
    (r.assertCurrent target rest budget).claimed = r.claimed := by
  rw [Run.assertCurrent]
  split
  · rfl
  · exact r.handle_claimed _ _

/-- What an event at an execution comes to: the execution is as it should be, and
follows the one before. -/
structure Run.Moves (r r' : Run) : Prop where
  ok : r'.Ok
  follows : r.Follows r'
  claimed : r'.claimed = r.claimed

theorem Run.Core.moves_handle {r : Run} (h : r.Core) (target : Option SqlOperationTarget)
    (error : Thrown) : r.Moves (r.handle target error) :=
  ⟨h.handle target error, (Run.Follows.refl r).handle target error, r.handle_claimed target error⟩

theorem Run.Core.moves_phase {r : Run} (h : r.Core) {phase : Phase} (hfits : phase.Fits r) :
    r.Moves { r with phase := phase } :=
  ⟨h.toPhase hfits, ⟨rfl, fun hconfirmed => ⟨hconfirmed, rfl⟩⟩, rfl⟩

/-- The transaction is open. -/
theorem Run.Core.moves_opened {r : Run} (h : r.Core) {target : SqlOperationTarget}
    (hfits : (Phase.opening target).Fits r) (valid : Except Thrown Unit) (budget : Bool) :
    r.Moves (r.opened target valid budget) := by
  have hcore : Run.Core { r with hasTransaction := true } :=
    ⟨h.counted, h.unclaimed, h.attempted, h.confirmed⟩
  have hfollows : r.Follows { r with hasTransaction := true } := ⟨rfl, fun h => ⟨h, rfl⟩⟩
  rw [Run.opened.eq_def]
  split
  · exact ⟨hcore.handle _ _, hfollows.handle _ _, Run.handle_claimed _ _ _⟩
  · obtain ⟨hclaimed, hattempted, haccepted⟩ := hfits
    refine ⟨hcore.assertCurrent _ ⟨hclaimed, hattempted, ?_⟩, hfollows.assertCurrent _ _ _,
      Run.assertCurrent_claimed _ _ _ _⟩
    show r.accepted.map Prod.fst ++ r.plan.steps = r.plan.steps
    simp [haccepted]

/-- The authorizer has answered in `_assertCurrent`. -/
theorem Run.Core.moves_reauthorized {r : Run} (h : r.Core) {target : SqlOperationTarget}
    {rest : List SqlOperationStep} (hfits : (Phase.asserting target rest).Fits r)
    (current : SqlOperationTarget) : r.Moves (r.reauthorized target rest current) := by
  rw [Run.reauthorized]
  split
  · exact h.moves_handle _ _
  · exact h.moves_phase hfits

/-- The next step, or the commit, is dispatched. -/
theorem Run.Core.moves_dispatch {r : Run} (h : r.Core) {target : SqlOperationTarget}
    {rest : List SqlOperationStep} (hfits : (Phase.reading target rest).Fits r)
    (budget : Bool) : r.Moves (r.dispatch target budget rest) := by
  obtain ⟨hclaimed, hattempted, hsteps⟩ := hfits
  have hunclaimed : r.claimed = false → False := by simp [hclaimed]
  cases rest with
  | cons step rest =>
    rw [Run.dispatch]
    split
    · exact h.moves_handle _ _
    · split
      · refine ⟨⟨⟨h.counted, fun hc => (hunclaimed hc).elim, h.attempted, h.confirmed⟩, ?_⟩,
          ⟨rfl, fun h => ⟨h, rfl⟩⟩, rfl⟩
        exact ⟨hclaimed, hattempted, hsteps⟩
      · exact h.moves_handle _ _
  | nil =>
    have hconfirmed : r.commitConfirmed = true → False := by
      intro hc
      have := h.attempted (h.confirmed hc).1
      simp [hattempted] at this
    have hall : r.accepted.map Prod.fst = r.plan.steps := by simpa using hsteps
    rw [Run.dispatch]
    split
    · refine ⟨⟨⟨h.counted, fun hc => (hunclaimed hc).elim, fun _ => rfl, ?_⟩, ?_⟩,
        ⟨rfl, fun h => ⟨h, rfl⟩⟩, rfl⟩
      · exact fun hc => (hconfirmed hc).elim
      · exact ⟨hclaimed, rfl, hall⟩
    · have hcore : Run.Core { r with commitAttempted := true } :=
        ⟨h.counted, fun hc => (hunclaimed hc).elim, fun _ => rfl, h.confirmed⟩
      have hfollows : r.Follows { r with commitAttempted := true } := ⟨rfl, fun h => ⟨h, rfl⟩⟩
      exact ⟨hcore.handle _ _, hfollows.handle _ _, Run.handle_claimed _ _ _⟩

/-- A step has come back. -/
theorem Run.Core.moves_executed {r : Run} (h : r.Core) {formats : Formats}
    {target : SqlOperationTarget} {step : SqlOperationStep} {rest : List SqlOperationStep}
    (hfits : (Phase.executing target step rest).Fits r)
    (answer : Except Thrown SqlOperationStepResult) (budget : Bool) :
    r.Moves (r.executed formats target step rest answer budget) := by
  obtain ⟨hclaimed, hattempted, hsteps⟩ := hfits
  rw [Run.executed.eq_def]
  split
  · exact h.moves_handle _ _
  · rename_i result
    split
    · exact h.moves_handle _ _
    · rename_i total values haccept
      have hmem : step ∈ r.plan.steps := by
        rw [← hsteps]
        simp
      obtain ⟨hwithin, htotal, hnonneg, hle⟩ := checkAffectedRows_ok hmem h.counted.nonneg
        h.counted.le_max (acceptStep_ok haccept)
      have hconfirmed : r.commitConfirmed = true → False := by
        intro hc
        have := h.attempted (h.confirmed hc).1
        simp [hattempted] at this
      have hcore : Run.Core
          { r with
            total := total
            values := values
            accepted := r.accepted ++ [(step, result)] } := by
        refine ⟨⟨?_, ?_, hnonneg, hle⟩, h.unclaimed, h.attempted, fun hc => (hconfirmed hc).elim⟩
        · intro p hp
          rcases List.mem_append.mp hp with hp | hp
          · exact h.counted.within p hp
          · rw [List.mem_singleton.mp hp]
            exact hwithin
        · show total = Ledger.total countedRows (r.accepted ++ [(step, result)])
          rw [Ledger.total_concat, ← h.counted.total_eq, htotal]
      have hfollows : r.Follows
          { r with total := total, values := values, accepted := r.accepted ++ [(step, result)] } :=
        ⟨rfl, fun hc => (hconfirmed hc).elim⟩
      refine ⟨hcore.assertCurrent _ ⟨hclaimed, hattempted, ?_⟩, hfollows.assertCurrent _ _ _,
        Run.assertCurrent_claimed _ _ _ _⟩
      show (r.accepted ++ [(step, result)]).map Prod.fst ++ rest = r.plan.steps
      simp [← hsteps]

/-! ## The journal and the executions -/

/-- What ties the executions to the rows of the journal. -/
structure State.Inv (s : State) : Prop where
  ok : ∀ (i : Nat) (r : Run), s.runs[i]? = some r → r.Ok
  listed : ∀ (i : Nat) (r : Run), s.runs[i]? = some r → r.claimed = true →
    (s.journal r.plan.operationId).isSome
  single : ∀ (i j : Nat) (r r' : Run), s.runs[i]? = some r → s.runs[j]? = some r' →
    r.claimed = true → r'.claimed = true → r.plan.operationId = r'.plan.operationId → i = j
  completed : ∀ id (entry : SqlOperationJournalEntry), s.journal id = some entry →
    entry.state = .completed →
    ∃ (i : Nat) (r : Run), s.runs[i]? = some r ∧ r.plan.operationId = id ∧
      r.commitConfirmed = true ∧ entry.directlyAffectedRows = some r.total
  aborted : ∀ id (entry : SqlOperationJournalEntry), s.journal id = some entry →
    entry.state = .rolledBack ∨ entry.state = .cancelled →
    ∀ (i : Nat) (r : Run), s.runs[i]? = some r → r.plan.operationId = id → r.claimed = true →
      r.phase = .returned ∧ r.commitAttempted = false

/-- A change of the journal that keeps its rows and the ends that are recorded, and
records no end of its own but `outcomeUnknown`. -/
structure Journal.Quiet (journal journal' : Journal) : Prop where
  isSome : ∀ id, (journal id).isSome → (journal' id).isSome
  old : ∀ id (entry : SqlOperationJournalEntry), journal' id = some entry →
    entry.state = .completed ∨ entry.state = .rolledBack ∨ entry.state = .cancelled →
    journal id = some entry

/-- A change of the journal that keeps every end that is recorded. -/
def Journal.Keeps (journal journal' : Journal) : Prop :=
  ∀ id (entry : SqlOperationJournalEntry), journal id = some entry →
    entry.state.isTerminal = true → journal' id = some entry

theorem Journal.Quiet.refl (journal : Journal) : journal.Quiet journal :=
  ⟨fun _ h => h, fun _ _ h _ => h⟩

theorem Journal.Keeps.refl (journal : Journal) : journal.Keeps journal :=
  fun _ _ h _ => h

/-- Writing a row that is missing or open keeps the ends of the others. -/
theorem Journal.keeps_put {journal : Journal} {operationId : String}
    {entry : SqlOperationJournalEntry}
    (h : ∀ current, journal operationId = some current → current.state.isOpen = true) :
    journal.Keeps (journal.put operationId entry) := by
  intro id current hcurrent hterminal
  by_cases hid : id = operationId
  · rw [hid] at hcurrent
    rw [SqlOperationJournalState.isTerminal_eq_not_isOpen, h current hcurrent] at hterminal
    cases hterminal
  · rwa [Journal.put_of_ne hid]

/-- Writing a row in a state that is no end but `outcomeUnknown`. -/
theorem Journal.quiet_put {journal : Journal} {operationId : String}
    {entry : SqlOperationJournalEntry}
    (h : entry.state = .executing ∨ entry.state = .cancellationRequested ∨
      entry.state = .outcomeUnknown) :
    journal.Quiet (journal.put operationId entry) := by
  constructor
  · intro id hid
    by_cases heq : id = operationId
    · simp [Journal.put, heq]
    · rwa [Journal.put_of_ne heq]
  · intro id entry' hentry' hend
    by_cases heq : id = operationId
    · rw [heq, Journal.put_self] at hentry'
      rw [← Option.some.inj hentry'] at hend
      rcases h with h | h | h <;> simp [h] at hend
    · rwa [Journal.put_of_ne heq] at hentry'

theorem Journal.recoverInterrupted_some {journal : Journal} {id : String}
    {entry : SqlOperationJournalEntry} (h : journal.recoverInterrupted id = some entry) :
    journal id = some entry ∨ entry.state = .outcomeUnknown := by
  rw [Journal.recoverInterrupted] at h
  split at h
  · cases h
  · rename_i row hrow
    split at h
    · cases h
      exact .inr rfl
    · cases h
      exact .inl hrow

theorem Journal.quiet_recoverInterrupted (journal : Journal) :
    journal.Quiet journal.recoverInterrupted := by
  constructor
  · intro id hid
    cases hrow : journal id with
    | none => simp [hrow] at hid
    | some row =>
      rw [Journal.recoverInterrupted, hrow]
      dsimp only
      split <;> rfl
  · intro id entry hentry hend
    rcases Journal.recoverInterrupted_some hentry with hold | hunknown
    · exact hold
    · simp [hunknown] at hend

theorem Journal.keeps_recoverInterrupted (journal : Journal) :
    journal.Keeps journal.recoverInterrupted := by
  intro id entry hentry hterminal
  rw [SqlOperationJournalState.isTerminal_eq_not_isOpen, Bool.not_eq_true'] at hterminal
  simp [Journal.recoverInterrupted, hentry, hterminal]

/-- A call of the journal is carried out or it is not. -/
theorem State.afterCall_cases (journal : Journal) (outcome : Except Thrown Journal)
    (fault : Option Fault) :
    State.afterCall journal outcome fault = journal ∨
    outcome = .ok (State.afterCall journal outcome fault) := by
  rw [State.afterCall.eq_def]
  split
  · exact .inl rfl
  · cases outcome with
    | error e => exact .inl rfl
    | ok journal' => exact .inr rfl

theorem Journal.keeps_claim {journal : Journal} {intent : SqlOperationJournalEntry}
    {fault : Option Fault} :
    journal.Keeps (State.afterCall journal ((journal.claim intent).map (·.1)) fault) := by
  rcases State.afterCall_cases journal ((journal.claim intent).map (·.1)) fault with h | h
  · rw [h]
    exact Journal.Keeps.refl journal
  · generalize State.afterCall journal _ fault = journal' at h
    cases hclaim : journal.claim intent with
    | error e => simp [hclaim, Except.map] at h
    | ok answer =>
      obtain ⟨journal'', stored, inserted⟩ := answer
      simp only [hclaim, Except.map, Except.ok.injEq] at h
      rcases Journal.claim_cases hclaim with ⟨-, heq⟩ | ⟨-, hnone, -, heq⟩
      · rw [← h, heq]
        exact Journal.Keeps.refl journal
      · rw [← h, heq]
        exact Journal.keeps_put fun current hcurrent => by simp [hnone] at hcurrent

theorem Journal.keeps_finish {journal : Journal} {operationId scopeHash fingerprint : String}
    {state : SqlOperationJournalState} {rows : Option Int}
    {failureCode : Option SqlOperationFailureCode} {fault : Option Fault} :
    journal.Keeps (State.afterCall journal
      (journal.finish operationId scopeHash fingerprint state rows failureCode) fault) := by
  rcases State.afterCall_cases journal
    (journal.finish operationId scopeHash fingerprint state rows failureCode) fault with h | h
  · rw [h]
    exact Journal.Keeps.refl journal
  · obtain ⟨current, hcurrent, hopen, heq⟩ := Journal.finish_ok h
    rw [heq]
    refine Journal.keeps_put fun row hrow => ?_
    rw [hcurrent] at hrow
    rwa [← Option.some.inj hrow]

theorem Journal.cancel_quiet {journal journal' : Journal}
    {operationId scopeHash fingerprint : String}
    (h : journal.requestCancellation operationId scopeHash fingerprint = .ok journal') :
    journal.Quiet journal' ∧ journal.Keeps journal' := by
  rcases Journal.requestCancellation_ok h with heq | ⟨current, hcurrent, hstate, heq⟩
  · rw [heq]
    exact ⟨Journal.Quiet.refl journal, Journal.Keeps.refl journal⟩
  · rw [heq]
    refine ⟨Journal.quiet_put (.inr (.inl rfl)), Journal.keeps_put fun row hrow => ?_⟩
    rw [hcurrent] at hrow
    rw [← Option.some.inj hrow, hstate]
    rfl

/-! ## Steps -/

/-- A quiet change of the journal. -/
theorem State.Inv.withJournal {s : State} (h : s.Inv) {journal' : Journal}
    (hquiet : s.journal.Quiet journal') : State.Inv { s with journal := journal' } where
  ok := h.ok
  listed i r hr hclaimed := hquiet.isSome _ (h.listed i r hr hclaimed)
  single := h.single
  completed id entry hentry hstate :=
    h.completed id entry (hquiet.old id entry hentry (.inl hstate)) hstate
  aborted id entry hentry hstate :=
    h.aborted id entry (hquiet.old id entry hentry (.inr hstate)) hstate

/-- An execution moves on.  It may become the claimant of its operation if the row is
there and no other execution claims it. -/
theorem State.Inv.setRun {s : State} (h : s.Inv) {i : Nat} {r r' : Run}
    (hr : s.runs[i]? = some r) (hactive : r.phase ≠ .returned) (hok : r'.Ok)
    (hfollows : r.Follows r')
    (hclaimed : r'.claimed = true → r.claimed = true ∨
      (∃ entry, s.journal r.plan.operationId = some entry ∧ entry.state = .executing) ∧
      ∀ (j : Nat) (q : Run), s.runs[j]? = some q → q.claimed = true →
        q.plan.operationId ≠ r.plan.operationId) :
    (s.setRun i r').Inv := by
  have hlt : i < s.runs.length := (List.getElem?_eq_some_iff.mp hr).1
  have hself : (s.setRun i r').runs[i]? = some r' := by
    simp [State.setRun, hlt]
  have hother : ∀ {j : Nat} {q : Run}, (s.setRun i r').runs[j]? = some q →
      (j = i ∧ q = r') ∨ (j ≠ i ∧ s.runs[j]? = some q) := by
    intro j q hq
    by_cases hji : j = i
    · subst hji
      rw [hself] at hq
      exact .inl ⟨rfl, (Option.some.inj hq).symm⟩
    · refine .inr ⟨hji, ?_⟩
      rwa [State.setRun, List.getElem?_set_ne (Ne.symm hji)] at hq
  -- Another claimant of the same operation leaves no way for `r'` to claim it.
  have hunique : ∀ {j : Nat} {q : Run}, s.runs[j]? = some q → q.claimed = true →
      r'.claimed = true → q.plan.operationId = r'.plan.operationId → j = i := by
    intro j q hq hqc hrc hid
    rw [hfollows.plan] at hid
    rcases hclaimed hrc with hold | ⟨-, hfresh⟩
    · exact h.single j i q r hq hr hqc hold hid
    · exact absurd hid (hfresh j q hq hqc)
  refine ⟨?_, ?_, ?_, ?_, ?_⟩
  · intro j q hq
    rcases hother hq with ⟨-, rfl⟩ | ⟨-, hq⟩
    · exact hok
    · exact h.ok j q hq
  · intro j q hq hqc
    rcases hother hq with ⟨-, rfl⟩ | ⟨-, hq⟩
    · rw [hfollows.plan]
      rcases hclaimed hqc with hold | ⟨⟨entry, hentry, -⟩, -⟩
      · exact h.listed i r hr hold
      · show (s.journal r.plan.operationId).isSome
        rw [hentry]
        rfl
    · exact h.listed j q hq hqc
  · intro j k q q' hq hq' hqc hqc' hid
    rcases hother hq with ⟨hji, hqr⟩ | ⟨-, hold⟩
    · rcases hother hq' with ⟨hki, -⟩ | ⟨-, hold'⟩
      · omega
      · rw [hqr] at hqc hid
        exact hji.trans (hunique hold' hqc' hqc hid.symm).symm
    · rcases hother hq' with ⟨hki, hqr'⟩ | ⟨-, hold'⟩
      · rw [hqr'] at hqc' hid
        exact (hunique hold hqc hqc' hid).trans hki.symm
      · exact h.single j k q q' hold hold' hqc hqc' hid
  · intro id entry hentry hstate
    obtain ⟨j, q, hq, hid, hconfirmed, hrows⟩ := h.completed id entry hentry hstate
    by_cases hji : j = i
    · subst hji
      rw [hr] at hq
      cases hq
      obtain ⟨hconfirmed', htotal⟩ := hfollows.confirmed hconfirmed
      refine ⟨j, r', hself, ?_, hconfirmed', ?_⟩
      · rw [hfollows.plan, hid]
      · rw [htotal, hrows]
    · refine ⟨j, q, ?_, hid, hconfirmed, hrows⟩
      rwa [State.setRun, List.getElem?_set_ne (Ne.symm hji)]
  · intro id entry hentry hstate j q hq hid hqc
    rcases hother hq with ⟨-, rfl⟩ | ⟨-, hq⟩
    · rw [hfollows.plan] at hid
      rcases hclaimed hqc with hold | ⟨⟨row, hrow, hexecuting⟩, -⟩
      · exact absurd (h.aborted id entry hentry hstate i r hr hid hold).1 hactive
      · rw [hid] at hrow
        have hsame : some entry = some row := hentry.symm.trans hrow
        rw [Option.some.inj hsame, hexecuting] at hstate
        simp at hstate
    · exact h.aborted id entry hentry hstate j q hq hid hqc

/-- The end of an operation is recorded by its claimant. -/
theorem State.Inv.finish {s : State} (h : s.Inv) {i : Nat} {r : Run}
    (hr : s.runs[i]? = some r) (hclaimed : r.claimed = true) {scopeHash fingerprint : String}
    {state : SqlOperationJournalState} {rows : Option Int}
    {failureCode : Option SqlOperationFailureCode} {fault : Option Fault}
    (hend : state = .outcomeUnknown ∨
      (state = .completed ∧ r.commitConfirmed = true ∧ rows = some r.total) ∨
      ((state = .rolledBack ∨ state = .cancelled) ∧ r.phase = .returned ∧
        r.commitAttempted = false)) :
    State.Inv { s with
      journal := State.afterCall s.journal
        (s.journal.finish r.plan.operationId scopeHash fingerprint state rows failureCode)
        fault } := by
  rcases State.afterCall_cases s.journal
    (s.journal.finish r.plan.operationId scopeHash fingerprint state rows failureCode) fault
    with heq | hok
  · rw [heq]
    exact h
  · obtain ⟨current, hcurrent, hopen, hput⟩ := Journal.finish_ok hok
    rw [hput]
    rcases hend with hunknown | hend
    · exact h.withJournal (Journal.quiet_put (.inr (.inr hunknown)))
    · -- The row of the operation is the one that changes.
      have hrow : ∀ {id : String} {entry : SqlOperationJournalEntry},
          (s.journal.put r.plan.operationId
            { current with
              state := state
              directlyAffectedRows := rows
              failureCode := failureCode }) id = some entry →
          (id = r.plan.operationId ∧ entry.state = state ∧ entry.directlyAffectedRows = rows) ∨
          s.journal id = some entry := by
        intro id entry hentry
        by_cases hid : id = r.plan.operationId
        · rw [hid, Journal.put_self] at hentry
          cases hentry
          exact .inl ⟨hid, rfl, rfl⟩
        · rw [Journal.put_of_ne hid] at hentry
          exact .inr hentry
      refine ⟨h.ok, ?_, h.single, ?_, ?_⟩
      · intro j q hq hqc
        by_cases hid : q.plan.operationId = r.plan.operationId
        · simp [Journal.put, hid]
        · show ((s.journal.put _ _) q.plan.operationId).isSome
          rw [Journal.put_of_ne hid]
          exact h.listed j q hq hqc
      · intro id entry hentry hstate
        rcases hrow hentry with ⟨hid, hnew, hrows⟩ | hold
        · rcases hend with ⟨-, hconfirmed, htotal⟩ | ⟨habort, -⟩
          · exact ⟨i, r, hr, hid.symm, hconfirmed, hrows.trans htotal⟩
          · rw [← hnew, hstate] at habort
            simp at habort
        · exact h.completed id entry hold hstate
      · intro id entry hentry hstate j q hq hid hqc
        rcases hrow hentry with ⟨hid', hnew, -⟩ | hold
        · rcases hend with ⟨hcompleted, -⟩ | ⟨-, hreturned, hattempted⟩
          · rw [hnew, hcompleted] at hstate
            simp at hstate
          · have hji : j = i := h.single j i q r hq hr hqc hclaimed (hid.trans hid')
            subst hji
            rw [hr] at hq
            cases hq
            exact ⟨hreturned, hattempted⟩
        · exact h.aborted id entry hold hstate j q hq hid hqc

theorem State.Inv.moves {s : State} (h : s.Inv) {i : Nat} {r r' : Run}
    (hr : s.runs[i]? = some r) (hactive : r.phase ≠ .returned) (hmoves : r.Moves r') :
    (s.setRun i r').Inv :=
  h.setRun hr hactive hmoves.ok hmoves.follows fun hc => .inl (hmoves.claimed ▸ hc)

theorem State.getElem?_setRun {s : State} {i : Nat} {r : Run} (hr : s.runs[i]? = some r)
    (r' : Run) : (s.setRun i r').runs[i]? = some r' := by
  have hlt : i < s.runs.length := (List.getElem?_eq_some_iff.mp hr).1
  simp [State.setRun, hlt]

/-- The row is new, so the execution is the only one that claims the operation. -/
theorem State.Inv.claims {s : State} (h : s.Inv) {i : Nat} {r : Run}
    (hr : s.runs[i]? = some r) {target : SqlOperationTarget}
    (hfits : (Phase.claiming target).Fits r) (hactive : r.phase ≠ .returned)
    (hrow : ∃ entry, s.journal r.plan.operationId = some entry ∧ entry.state = .executing)
    (hfresh : ∀ (j : Nat) (q : Run), s.runs[j]? = some q → q.claimed = true →
      q.plan.operationId ≠ r.plan.operationId) (budget : Bool) :
    (s.setRun i (r.claimReturned target none (.ok true) budget)).Inv := by
  have hok := h.ok i r hr
  have hcore : Run.Core { r with claimed := true } :=
    ⟨hok.core.counted, (fun hc => by cases hc), hok.core.attempted, hok.core.confirmed⟩
  have hfollows : r.Follows { r with claimed := true } := ⟨rfl, fun h => ⟨h, rfl⟩⟩
  rw [Run.claimReturned]
  split
  · exact h.setRun hr hactive ⟨hcore.withPhase _, ⟨rfl, hfits.2.1, hfits.2.2⟩⟩
      ⟨rfl, fun h => ⟨h, rfl⟩⟩ fun _ => .inr ⟨hrow, hfresh⟩
  · exact h.setRun hr hactive (hcore.handle _ _) (hfollows.handle _ _)
      fun _ => .inr ⟨hrow, hfresh⟩

/-- The answer to `claim`. -/
theorem State.Inv.claimed {s : State} (h : s.Inv) {i : Nat} {r : Run}
    (hr : s.runs[i]? = some r) {target : SqlOperationTarget}
    (hphase : r.phase = .claiming target) (executionId : String) (fault : Option Fault)
    (budget : Bool) : (s.claimed i r target executionId fault budget).Inv := by
  have hok := h.ok i r hr
  have hfits : (Phase.claiming target).Fits r := hphase ▸ hok.fits
  have hactive : r.phase ≠ .returned := by simp [hphase]
  have hunclaimed : r.claimed = false := hfits.1
  -- Whatever the table comes to, a claim only adds a row that executes.
  have hquiet : s.journal.Quiet (State.afterCall s.journal
      ((s.journal.claim (r.intent target executionId)).map (·.1)) fault) := by
    rcases State.afterCall_cases s.journal
      ((s.journal.claim (r.intent target executionId)).map (·.1)) fault with heq | hcall
    · rw [heq]
      exact Journal.Quiet.refl _
    · generalize State.afterCall s.journal _ fault = journal' at hcall
      cases hclaim : s.journal.claim (r.intent target executionId) with
      | error e => simp [hclaim, Except.map] at hcall
      | ok answer =>
        obtain ⟨journal'', stored, inserted⟩ := answer
        simp only [hclaim, Except.map, Except.ok.injEq] at hcall
        rcases Journal.claim_cases hclaim with ⟨-, heq⟩ | ⟨-, -, hstate, heq⟩
        · rw [← hcall, heq]
          exact Journal.Quiet.refl _
        · rw [← hcall, heq]
          exact Journal.quiet_put (.inl hstate)
  have hinv := h.withJournal hquiet
  rw [State.claimed]
  cases fault with
  | some fault => exact hinv.moves hr hactive (hok.core.moves_handle (some target) fault.error)
  | none =>
    cases hclaim : s.journal.claim (r.intent target executionId) with
    | error e =>
      rw [hclaim] at hinv
      exact hinv.moves hr hactive (hok.core.moves_handle (some target) e)
    | ok answer =>
      obtain ⟨journal', stored, inserted⟩ := answer
      rw [hclaim] at hinv
      cases inserted with
      | false => exact hinv.moves hr hactive (hok.core.moves_phase trivial)
      | true =>
        rcases Journal.claim_cases hclaim with ⟨hfalse, -⟩ | ⟨-, hnone, hstate, heq⟩
        · cases hfalse
        · refine hinv.claims hr hfits hactive ⟨r.intent target executionId, ?_, rfl⟩ ?_ budget
          · show journal' r.plan.operationId = _
            rw [heq]
            exact Journal.put_self _ _ _
          · intro j q hq hqc hid
            have hlisted := h.listed j q hq hqc
            rw [hid, show s.journal r.plan.operationId = none from hnone] at hlisted
            cases hlisted

/-- The answer to `finish` in the `try`. -/
theorem State.Inv.completes {s : State} (h : s.Inv) {i : Nat} {r : Run}
    (hr : s.runs[i]? = some r) {target : SqlOperationTarget}
    (hphase : r.phase = .completing target) (fault : Option Fault) :
    (s.completed i r target fault).Inv := by
  have hok := h.ok i r hr
  have hfits : (Phase.completing target).Fits r := hphase ▸ hok.fits
  have hactive : r.phase ≠ .returned := by simp [hphase]
  obtain ⟨hclaimed, hconfirmed⟩ := hfits
  -- The execution goes on to some phase, with what it knows of the commit.
  have hgo : ∀ {phase : Phase}, phase.Fits r →
      State.Inv { s.setRun i { r with phase := phase } with
        journal := State.afterCall s.journal
          (s.journal.finish r.plan.operationId target.scopeHash r.plan.fingerprint .completed
            (some r.total) none) fault } := by
    intro phase hphase'
    have hput := h.moves hr hactive (hok.core.moves_phase hphase')
    exact hput.finish (r := { r with phase := phase }) (State.getElem?_setRun hr _) hclaimed
      (.inr (.inl ⟨rfl, hconfirmed, rfl⟩))
  obtain ⟨phase, hphase', heq⟩ : ∃ phase : Phase, phase.Fits r ∧
      r.completeReturned target fault = { r with phase := phase } := by
    rw [Run.completeReturned.eq_def]
    split
    · exact r.handle_cases _ _
    · exact ⟨.returned, trivial, rfl⟩
  rw [State.completed, heq]
  exact hgo hphase'

/-- The answer to `finish` in the `catch`. -/
theorem State.Inv.fails {s : State} (h : s.Inv) {i : Nat} {r : Run}
    (hr : s.runs[i]? = some r) {target : SqlOperationTarget} {state : SqlOperationJournalState}
    {failureCode : SqlOperationFailureCode}
    (hphase : r.phase = .failing target state failureCode) (fault : Option Fault) :
    (s.failed i r target state failureCode fault).Inv := by
  have hok := h.ok i r hr
  have hfits : (Phase.failing target state failureCode).Fits r := hphase ▸ hok.fits
  have hactive : r.phase ≠ .returned := by simp [hphase]
  obtain ⟨hclaimed, hstate⟩ := hfits
  have hmoves : r.Moves { r with phase := .returned } := hok.core.moves_phase trivial
  have hput := h.moves hr hactive hmoves
  refine hput.finish (r := { r with phase := .returned }) (State.getElem?_setRun hr _) hclaimed ?_
  rcases hstate with hunknown | ⟨habort, hattempted⟩
  · exact .inl hunknown
  · exact .inr (.inr ⟨habort, rfl, hattempted⟩)

theorem State.Inv.reads {s : State} (h : s.Inv) {i : Nat} {r : Run}
    (hr : s.runs[i]? = some r) {target : SqlOperationTarget} {rest : List SqlOperationStep}
    (hfits : (Phase.reading target rest).Fits r) (fault : Option Thrown) (budget : Bool) :
    r.Moves (s.read r target rest fault budget) := by
  have hcore := (h.ok i r hr).core
  rw [State.read.eq_def]
  split
  · exact hcore.moves_handle _ _
  · exact hcore.moves_handle _ _
  · split
    · exact hcore.moves_handle _ _
    · exact hcore.moves_dispatch hfits budget

/-! ## Answers -/

section Answers

variable {s s' : State} {formats : Formats} (h : s.Inv) {i : Nat} {r : Run}
  (hr : s.runs[i]? = some r)

include h hr

theorem State.Inv.authorized {answer : Except Thrown SqlOperationTarget}
    (ha : s.answer formats i r (.authorized answer) = some s') : s'.Inv := by
  have hok := h.ok i r hr
  rw [State.answer.eq_def] at ha
  dsimp only at ha
  split at ha
  · rename_i e hphase
    cases ha
    exact h.moves hr (by simp [hphase]) (hok.core.moves_handle _ _)
  · rename_i target hphase
    cases ha
    have hfits : Phase.authorizing.Fits r := hphase ▸ hok.fits
    exact h.moves hr (by simp [hphase]) (hok.core.moves_phase hfits)
  · cases ha

theorem State.Inv.opened {answer valid : Except Thrown Unit} {budget : Bool}
    (ha : s.answer formats i r (.opened answer valid budget) = some s') : s'.Inv := by
  have hok := h.ok i r hr
  rw [State.answer.eq_def] at ha
  dsimp only at ha
  split at ha
  · rename_i target e hphase
    cases ha
    exact h.moves hr (by simp [hphase]) (hok.core.moves_handle _ _)
  · rename_i target hphase
    cases ha
    have hfits : (Phase.opening target).Fits r := hphase ▸ hok.fits
    exact h.moves hr (by simp [hphase]) (hok.core.moves_opened hfits valid budget)
  · cases ha

theorem State.Inv.reauthorized {answer : Except Thrown SqlOperationTarget}
    (ha : s.answer formats i r (.reauthorized answer) = some s') : s'.Inv := by
  have hok := h.ok i r hr
  rw [State.answer.eq_def] at ha
  dsimp only at ha
  split at ha
  · rename_i target rest e hphase
    cases ha
    exact h.moves hr (by simp [hphase]) (hok.core.moves_handle _ _)
  · rename_i target rest current hphase
    cases ha
    have hfits : (Phase.asserting target rest).Fits r := hphase ▸ hok.fits
    exact h.moves hr (by simp [hphase]) (hok.core.moves_reauthorized hfits current)
  · cases ha

theorem State.Inv.executed {answer : Except Thrown SqlOperationStepResult} {budget : Bool}
    (ha : s.answer formats i r (.executed answer budget) = some s') : s'.Inv := by
  have hok := h.ok i r hr
  rw [State.answer.eq_def] at ha
  dsimp only at ha
  split at ha
  · rename_i target step rest hphase
    cases ha
    have hfits : (Phase.executing target step rest).Fits r := hphase ▸ hok.fits
    exact h.moves hr (by simp [hphase]) (hok.core.moves_executed hfits answer budget)
  · cases ha

theorem State.Inv.committed {answer : Except Thrown Unit}
    (ha : s.answer formats i r (.committed answer) = some s') : s'.Inv := by
  have hok := h.ok i r hr
  rw [State.answer.eq_def] at ha
  dsimp only at ha
  split at ha
  · rename_i target e hphase
    cases ha
    exact h.moves hr (by simp [hphase]) (hok.core.moves_handle _ _)
  · rename_i target hphase
    cases ha
    obtain ⟨hclaimed, hdispatched, hall⟩ : (Phase.committing target).Fits r := hphase ▸ hok.fits
    have hcore : Run.Core { r with phase := .completing target, commitConfirmed := true } :=
      ⟨hok.core.counted, hok.core.unclaimed, hok.core.attempted, fun _ => ⟨hdispatched, hall⟩⟩
    exact h.moves hr (by simp [hphase])
      ⟨⟨hcore, hclaimed, rfl⟩, ⟨rfl, fun _ => ⟨rfl, rfl⟩⟩, rfl⟩
  · cases ha

theorem State.Inv.rolledBack {answer : Except Thrown Unit}
    (ha : s.answer formats i r (.rolledBack answer) = some s') : s'.Inv := by
  have hok := h.ok i r hr
  rw [State.answer.eq_def] at ha
  dsimp only at ha
  split at ha
  · rename_i target failureCode e hphase
    cases ha
    obtain ⟨hclaimed, -⟩ : (Phase.rollingBack target failureCode).Fits r := hphase ▸ hok.fits
    exact h.moves hr (by simp [hphase]) (hok.core.moves_phase ⟨hclaimed, .inl rfl⟩)
  · rename_i target failureCode hphase
    cases ha
    obtain ⟨hclaimed, hattempted⟩ : (Phase.rollingBack target failureCode).Fits r :=
      hphase ▸ hok.fits
    exact h.moves hr (by simp [hphase])
      (hok.core.moves_phase ⟨hclaimed, .inr ⟨.inl rfl, hattempted⟩⟩)
  · cases ha

/-- An answer to an execution keeps the invariant. -/
theorem State.Inv.answer {a : Answer} (ha : s.answer formats i r a = some s') : s'.Inv := by
  cases a with
  | authorized answer => exact h.authorized hr ha
  | claimed executionId fault budget =>
    rw [State.answer.eq_def] at ha
    dsimp only at ha
    split at ha
    · rename_i target hphase
      cases ha
      exact h.claimed hr hphase executionId fault budget
    · cases ha
  | opened answer valid budget => exact h.opened hr ha
  | reauthorized answer => exact h.reauthorized hr ha
  | read fault budget =>
    rw [State.answer.eq_def] at ha
    dsimp only at ha
    split at ha
    · rename_i target rest hphase
      cases ha
      have hfits : (Phase.reading target rest).Fits r := hphase ▸ (h.ok i r hr).fits
      exact h.moves hr (by simp [hphase]) (h.reads hr hfits fault budget)
    · cases ha
  | executed answer budget => exact h.executed hr ha
  | committed answer => exact h.committed hr ha
  | rolledBack answer => exact h.rolledBack hr ha
  | finished fault =>
    rw [State.answer.eq_def] at ha
    dsimp only at ha
    split at ha
    · rename_i target hphase
      cases ha
      exact h.completes hr hphase fault
    · rename_i target state failureCode hphase
      cases ha
      exact h.fails hr hphase fault
    · cases ha

end Answers

/-! ## Runs -/

theorem Run.ok_start (plan : SqlOperationPlan) : Run.Ok { plan := plan } := by
  refine ⟨⟨⟨?_, rfl, le_refl 0, ?_⟩, fun _ => ⟨rfl, rfl⟩, ?_, ?_⟩, rfl, rfl, rfl⟩
  · intro p hp
    cases hp
  · have hone := plan.one_le_max
    show (0 : Int) ≤ plan.maxAffectedRows
    omega
  · intro hc
    cases hc
  · intro hc
    cases hc

/-- A call of `execute` adds an execution that has claimed nothing. -/
theorem State.Inv.execute {s : State} (h : s.Inv) (plan : SqlOperationPlan) :
    State.Inv { s with runs := s.runs ++ [{ plan := plan }] } := by
  have hother : ∀ {j : Nat} {q : Run}, (s.runs ++ [{ plan := plan }])[j]? = some q →
      s.runs[j]? = some q ∨ q = { plan := plan } := by
    intro j q hq
    rw [List.getElem?_append] at hq
    split at hq
    · exact .inl hq
    · have hmem := List.mem_of_getElem? hq
      exact .inr (List.mem_singleton.mp hmem)
  have hclaimed : ∀ {j : Nat} {q : Run}, (s.runs ++ [{ plan := plan }])[j]? = some q →
      q.claimed = true → s.runs[j]? = some q := by
    intro j q hq hqc
    rcases hother hq with hold | hnew
    · exact hold
    · rw [hnew] at hqc
      cases hqc
  refine ⟨?_, ?_, ?_, ?_, ?_⟩
  · intro j q hq
    rcases hother hq with hold | hnew
    · exact h.ok j q hold
    · rw [hnew]
      exact Run.ok_start plan
  · intro j q hq hqc
    exact h.listed j q (hclaimed hq hqc) hqc
  · intro j k q q' hq hq' hqc hqc'
    exact h.single j k q q' (hclaimed hq hqc) (hclaimed hq' hqc') hqc hqc'
  · intro id entry hentry hstate
    obtain ⟨j, q, hq, hrest⟩ := h.completed id entry hentry hstate
    refine ⟨j, q, ?_, hrest⟩
    show (s.runs ++ [{ plan := plan }])[j]? = some q
    rw [List.getElem?_append_left (List.getElem?_eq_some_iff.mp hq).1, hq]
  · intro id entry hentry hstate j q hq hid hqc
    exact h.aborted id entry hentry hstate j q (hclaimed hq hqc) hid hqc

/-- Every event keeps the invariant. -/
theorem State.Inv.step {s s' : State} {formats : Formats} (h : s.Inv) {e : Event}
    (he : s.step formats e = some s') : s'.Inv := by
  cases e with
  | execute plan =>
    cases he
    exact h.execute plan
  | answer i a =>
    rw [State.step] at he
    split at he
    · rename_i r hr
      exact h.answer hr he
    · cases he
  | cancel operationId scopeHash fingerprint fault =>
    cases he
    refine h.withJournal ?_
    rcases State.afterCall_cases s.journal
      (s.journal.requestCancellation operationId scopeHash fingerprint) fault with heq | hok
    · rw [heq]
      exact Journal.Quiet.refl _
    · exact (Journal.cancel_quiet hok).1
  | recover fault =>
    cases he
    refine h.withJournal ?_
    rcases State.afterCall_cases s.journal (.ok s.journal.recoverInterrupted) fault with heq | hok
    · rw [heq]
      exact Journal.Quiet.refl _
    · rw [← Except.ok.inj hok]
      exact Journal.quiet_recoverInterrupted s.journal

theorem State.Inv.start : State.Inv {} where
  ok i r hr := by simp at hr
  listed i r hr := by simp at hr
  single i j r r' hr := by simp at hr
  completed id entry hentry := by cases hentry
  aborted id entry hentry := by cases hentry

/-! ## The ends that are recorded stay -/

theorem State.answer_keeps {s s' : State} {formats : Formats} {i : Nat} {r : Run} {a : Answer}
    (ha : s.answer formats i r a = some s') : s.journal.Keeps s'.journal := by
  cases a with
  | claimed executionId fault budget =>
    rw [State.answer.eq_def] at ha
    dsimp only at ha
    split at ha
    · cases ha
      exact Journal.keeps_claim
    · cases ha
  | finished fault =>
    rw [State.answer.eq_def] at ha
    dsimp only at ha
    split at ha
    · cases ha
      exact Journal.keeps_finish
    · cases ha
      exact Journal.keeps_finish
    · cases ha
  | authorized | opened | reauthorized | read | executed | committed | rolledBack =>
    -- Nothing else writes into the journal.
    rw [State.answer.eq_def] at ha
    dsimp only at ha
    split at ha <;> cases ha
    all_goals exact Journal.Keeps.refl _

theorem State.step_keeps {s s' : State} {formats : Formats} {e : Event}
    (he : s.step formats e = some s') : s.journal.Keeps s'.journal := by
  cases e with
  | execute plan =>
    cases he
    exact Journal.Keeps.refl _
  | answer i a =>
    rw [State.step] at he
    split at he
    · exact State.answer_keeps he
    · cases he
  | cancel operationId scopeHash fingerprint fault =>
    cases he
    dsimp only
    rcases State.afterCall_cases s.journal
      (s.journal.requestCancellation operationId scopeHash fingerprint) fault with heq | hok
    · rw [heq]
      exact Journal.Keeps.refl _
    · exact (Journal.cancel_quiet hok).2
  | recover fault =>
    cases he
    dsimp only
    rcases State.afterCall_cases s.journal (.ok s.journal.recoverInterrupted) fault with heq | hok
    · rw [heq]
      exact Journal.Keeps.refl _
    · rw [← Except.ok.inj hok]
      exact Journal.keeps_recoverInterrupted s.journal

/-! ## Agreement -/

/-- An execution has sent something to its transaction. -/
def Run.Acts (r : Run) : Prop :=
  r.dispatched ≠ [] ∨ r.commitDispatched = true

/-- The journal and the executions agree. -/
structure State.Agrees (s : State) : Prop where
  /-- At most one execution of an operation sends steps or a commit. -/
  single : ∀ (i j : Nat) (r r' : Run), s.runs[i]? = some r → s.runs[j]? = some r' →
    r.plan.operationId = r'.plan.operationId → r.Acts → r'.Acts → i = j
  /-- A completed operation was committed, with every row count within its bound. -/
  completed : ∀ (id : String) (entry : SqlOperationJournalEntry), s.journal id = some entry →
    entry.state = .completed →
    ∃ (i : Nat) (r : Run), s.runs[i]? = some r ∧ r.plan.operationId = id ∧
      r.commitConfirmed = true ∧ r.accepted.map Prod.fst = r.plan.steps ∧
      (∀ p ∈ r.accepted, WithinBound p) ∧
      entry.directlyAffectedRows = some (Ledger.total countedRows r.accepted) ∧
      Ledger.total countedRows r.accepted ≤ r.plan.maxAffectedRows
  /-- No commit was sent for an operation that was rolled back or cancelled. -/
  aborted : ∀ (id : String) (entry : SqlOperationJournalEntry), s.journal id = some entry →
    entry.state = .rolledBack ∨ entry.state = .cancelled →
    ∀ (i : Nat) (r : Run), s.runs[i]? = some r → r.plan.operationId = id →
      r.commitDispatched = false
  /-- An operation whose commit was sent ends as completed or unknown. -/
  dispatched : ∀ (i : Nat) (r : Run), s.runs[i]? = some r → r.commitDispatched = true →
    ∀ entry, s.journal r.plan.operationId = some entry → entry.state.isTerminal = true →
      entry.state = .completed ∨ entry.state = .outcomeUnknown

theorem Run.Core.claimed_of_dispatched {r : Run} (h : r.Core) (hd : r.commitDispatched = true) :
    r.claimed = true := by
  by_contra hc
  have hattempted := (h.unclaimed (by simpa using hc)).2
  rw [h.attempted hd] at hattempted
  cases hattempted

theorem Run.Core.claimed_of_acts {r : Run} (h : r.Core) (hacts : r.Acts) : r.claimed = true := by
  rcases hacts with hsteps | hcommit
  · by_contra hc
    exact hsteps (h.unclaimed (by simpa using hc)).1
  · exact h.claimed_of_dispatched hcommit

theorem State.Inv.not_dispatched {s : State} (h : s.Inv) {id : String}
    {entry : SqlOperationJournalEntry} (hentry : s.journal id = some entry)
    (hstate : entry.state = .rolledBack ∨ entry.state = .cancelled) {i : Nat} {r : Run}
    (hr : s.runs[i]? = some r) (hid : r.plan.operationId = id) : r.commitDispatched = false := by
  have hcore := (h.ok i r hr).core
  by_contra hd
  have hd : r.commitDispatched = true := by simpa using hd
  have hattempted := (h.aborted id entry hentry hstate i r hr hid
    (hcore.claimed_of_dispatched hd)).2
  rw [hcore.attempted hd] at hattempted
  cases hattempted

theorem State.Inv.agrees {s : State} (h : s.Inv) : s.Agrees where
  single i j r r' hr hr' hid hacts hacts' :=
    h.single i j r r' hr hr' ((h.ok i r hr).core.claimed_of_acts hacts)
      ((h.ok j r' hr').core.claimed_of_acts hacts') hid
  completed id entry hentry hstate := by
    obtain ⟨i, r, hr, hid, hconfirmed, hrows⟩ := h.completed id entry hentry hstate
    have hcore := (h.ok i r hr).core
    have htotal := hcore.counted.total_eq
    refine ⟨i, r, hr, hid, hconfirmed, (hcore.confirmed hconfirmed).2, hcore.counted.within,
      ?_, ?_⟩
    · rw [hrows, htotal]
    · rw [← htotal]
      exact hcore.counted.le_max
  aborted id entry hentry hstate i r hr hid := h.not_dispatched hentry hstate hr hid
  dispatched i r hr hd entry hentry hterminal := by
    by_contra hne
    have habort : entry.state = .rolledBack ∨ entry.state = .cancelled := by
      cases hstate : entry.state <;> simp_all [SqlOperationJournalState.isTerminal]
    rw [h.not_dispatched hentry habort hr rfl] at hd
    cases hd

/-- In every state that any executions, cancellations and restarts come to, the journal
and the executions agree, and an end that is recorded stays as it is from then on. -/
theorem journal_agrees {formats : Formats} {s : State}
    (h : (machine formats).Reachable s) :
    s.Agrees ∧ ∀ t, (machine formats).Leads s t → s.journal.Keeps t.journal := by
  constructor
  · apply State.Inv.agrees
    refine h.invariant (I := State.Inv) ?_ ?_
    · rintro s rfl
      exact State.Inv.start
    · intro s a s' hs _ hstep
      exact hs.step hstep
  · intro t ht id entry hentry hterminal
    refine ht.keeps (I := fun u => u.journal id = some entry) ?_ hentry
    intro u a u' hu hstep
    exact State.step_keeps hstep id entry hu hterminal

/-- A plan that inserts one row. -/
def insertPlan : SqlOperationPlan where
  operationId := "op"
  fingerprint := String.ofList (List.replicate 64 'f')
  contentHash := String.ofList (List.replicate 64 'c')
  steps := [⟨"s", .insert, "INSERT INTO t VALUES (1)", [], [], some ⟨1, 1⟩, none⟩]
  maxAffectedRows := 1
  one_le_max := by decide
  max_le := by decide
  affected_le := by decide

def insertTarget : SqlOperationTarget :=
  ⟨String.ofList (List.replicate 64 'a'), "auth"⟩

/-- Two executions of one operation: the first one commits its row, and the second one
finds the operation taken. -/
def insertEvents : List Event :=
  [.execute insertPlan, .execute insertPlan, .answer 0 (.authorized (.ok insertTarget)),
    .answer 1 (.authorized (.ok insertTarget)), .answer 0 (.claimed "x" none true),
    .answer 1 (.claimed "y" none true), .answer 0 (.opened (.ok ()) (.ok ()) true),
    .answer 0 (.reauthorized (.ok insertTarget)), .answer 0 (.read none true),
    .answer 0 (.executed (.ok ⟨[], some 1⟩) true), .answer 0 (.reauthorized (.ok insertTarget)),
    .answer 0 (.read none true), .answer 0 (.committed (.ok ())), .answer 0 (.finished none)]

def noFormats : Formats := ⟨fun _ => false, fun _ => false⟩

theorem journal_agrees_insert :
    ∃ s, (machine noFormats).run {} insertEvents = some s ∧
      (s.journal "op").map (·.state) = some .completed ∧ s.Agrees := by
  refine ⟨_, rfl, by decide, ?_⟩
  have hrun : (machine noFormats).run {} insertEvents = some _ := rfl
  exact (journal_agrees (Machine.reachable_of_run rfl hrun)).1

end PlugAgente.Operation
