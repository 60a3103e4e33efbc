import PlugAgente.Machine.Ledger
import PlugAgente.Machine.Transition

/-!
# The circuit breaker of a connection

`ConnectionCircuitBreaker` as a machine.  `execute` admits or refuses a call in one turn of
the event loop; an operation that was admitted ends in a later one, with a success, with a
failure that counts or does not, or with an exception.  Any number of operations are in
flight at a time, and the clock may show anything.

`operations` is the history of the operations that were admitted, with whether they were
admitted as the probe of a half-open circuit.
-/

namespace PlugAgente.Pool

inductive CircuitState where
  | closed
  | opened
  | halfOpen
  deriving DecidableEq, Repr

/-- An operation that was admitted. -/
structure Operation where
  probe : Bool
  running : Bool
  deriving DecidableEq, Repr

/-- The operation is a probe in flight. -/
def Operation.isLiveProbe (o : Operation) : Bool := o.probe && o.running

structure ConnectionCircuitBreaker where
  failureThreshold : Int
  resetTimeout : Int
  state : CircuitState := .closed
  consecutiveFailures : Nat := 0
  openedAt : Option Int := none
  halfOpenProbeInProgress : Bool := false
  openStateRejectionCount : Nat := 0
  operations : List Operation := []
  deriving DecidableEq, Repr

/-- How an operation ends; a failure is recorded if `_shouldRecordFailure` says so. -/
inductive Ending where
  | success
  | failure (recorded : Bool)
  | throws
  deriving DecidableEq, Repr

/-- The events, with the time on the clock. -/
inductive BreakerEvent where
  | execute (now : Int)
  | finish (operation : Nat) (ending : Ending) (now : Int)
  | reset
  deriving DecidableEq, Repr

namespace ConnectionCircuitBreaker

/-- `execute` goes on to the operation. -/
def admission (b : ConnectionCircuitBreaker) (probe : Bool) : ConnectionCircuitBreaker :=
  { b with operations := b.operations ++ [⟨probe, true⟩] }

/-- The second half of `execute`, up to its `await`. -/
def executeHalfOpen (b : ConnectionCircuitBreaker) : ConnectionCircuitBreaker :=
  if b.state = .halfOpen then
    if b.halfOpenProbeInProgress then b
    else { b with halfOpenProbeInProgress := true }.admission true
  else b.admission false

/-- `execute`, up to its `await`.  An open circuit has a time at which it was opened. -/
def execute (b : ConnectionCircuitBreaker) (now : Int) : ConnectionCircuitBreaker :=
  if b.state = .opened then
    match b.openedAt with
    | none => b
    | some openedAt =>
      if now - openedAt < b.resetTimeout then
        { b with openStateRejectionCount := b.openStateRejectionCount + 1 }
      else { b with state := .halfOpen, openStateRejectionCount := 0 }.executeHalfOpen
  else b.executeHalfOpen

def onSuccess (b : ConnectionCircuitBreaker) : ConnectionCircuitBreaker :=
  { b with
    consecutiveFailures := 0
    openStateRejectionCount := 0
    state := if b.state = .halfOpen then .closed else b.state }

def onFailure (b : ConnectionCircuitBreaker) (now : Int) : ConnectionCircuitBreaker :=
  let b := { b with consecutiveFailures := b.consecutiveFailures + 1 }
  if b.failureThreshold ≤ b.consecutiveFailures && b.state ≠ .opened then
    { b with state := .opened, openedAt := some now }
  else b

/-- `execute` behind its `await`; an exception passes it by. -/
def settle (b : ConnectionCircuitBreaker) (ending : Ending) (now : Int) :
    ConnectionCircuitBreaker :=
  match ending with
  | .success => { b with halfOpenProbeInProgress := false }.onSuccess
  | .failure recorded =>
    let b := { b with halfOpenProbeInProgress := false }
    if recorded then b.onFailure now else b
  | .throws => b

/-- An operation in flight ends. -/
def finish (b : ConnectionCircuitBreaker) (k : Nat) (ending : Ending) (now : Int) :
    Option ConnectionCircuitBreaker :=
  match b.operations[k]? with
  | some ⟨probe, true⟩ =>
    some ({ b with operations := b.operations.set k ⟨probe, false⟩ }.settle ending now)
  | _ => none

def reset (b : ConnectionCircuitBreaker) : ConnectionCircuitBreaker :=
  { b with
    state := .closed
    consecutiveFailures := 0
    openedAt := none
    halfOpenProbeInProgress := false
    openStateRejectionCount := 0 }

/-- The number of probes in flight. -/
def liveProbes (b : ConnectionCircuitBreaker) : Nat :=
  b.operations.countP Operation.isLiveProbe

end ConnectionCircuitBreaker

def breaker : Machine ConnectionCircuitBreaker BreakerEvent where
  start b := ∃ threshold timeout,
    b = { failureThreshold := threshold, resetTimeout := timeout }
  step b
    | .execute now => some (b.execute now)
    | .finish k ending now => b.finish k ending now
    | .reset => some b.reset

namespace ConnectionCircuitBreaker

/-! ## The steps -/

variable {b b' : ConnectionCircuitBreaker}

@[simp] theorem liveProbes_admission (b : ConnectionCircuitBreaker) (probe : Bool) :
    (b.admission probe).liveProbes = b.liveProbes + if probe then 1 else 0 := by
  cases probe <;> simp [admission, liveProbes, Operation.isLiveProbe]

@[simp] theorem liveProbes_onSuccess (b : ConnectionCircuitBreaker) :
    b.onSuccess.liveProbes = b.liveProbes := rfl

@[simp] theorem liveProbes_onFailure (b : ConnectionCircuitBreaker) (now : Int) :
    (b.onFailure now).liveProbes = b.liveProbes := by
  rw [onFailure]
  split <;> rfl

@[simp] theorem flag_onFailure (b : ConnectionCircuitBreaker) (now : Int) :
    (b.onFailure now).halfOpenProbeInProgress = b.halfOpenProbeInProgress := by
  rw [onFailure]
  split <;> rfl

@[simp] theorem liveProbes_settle (b : ConnectionCircuitBreaker) (ending : Ending) (now : Int) :
    (b.settle ending now).liveProbes = b.liveProbes := by
  cases ending with
  | success => rfl
  | failure recorded =>
    rw [settle]
    split
    · rw [liveProbes_onFailure]
      rfl
    · rfl
  | throws => rfl

theorem flag_settle (b : ConnectionCircuitBreaker) (ending : Ending) (now : Int) :
    (b.settle ending now).halfOpenProbeInProgress =
      (b.halfOpenProbeInProgress && ending == .throws) := by
  cases ending with
  | success => exact (Bool.and_false _).symm
  | failure recorded =>
    rw [settle]
    split
    · rw [flag_onFailure]
      exact (Bool.and_false _).symm
    · exact (Bool.and_false _).symm
  | throws => exact (Bool.and_true _).symm

theorem execute_cases (b : ConnectionCircuitBreaker) (now : Int) :
    (∃ n, b.execute now = { b with openStateRejectionCount := n }) ∨
    (∃ n, b.state ≠ .closed ∧ b.halfOpenProbeInProgress = true ∧
      b.execute now = { b with state := .halfOpen, openStateRejectionCount := n }) ∨
    (∃ n, b.state ≠ .closed ∧ b.halfOpenProbeInProgress = false ∧
      b.execute now = { b with
        state := .halfOpen, openStateRejectionCount := n,
        halfOpenProbeInProgress := true }.admission true) ∨
    (b.state = .closed ∧ b.execute now = b.admission false) := by
  rw [execute]
  split
  · rename_i hopened
    split
    · exact .inl ⟨b.openStateRejectionCount, rfl⟩
    · split
      · exact .inl ⟨_, rfl⟩
      · rw [executeHalfOpen]
        simp only [if_true]
        split
        · rename_i hflag
          exact .inr (.inl ⟨0, by simp [hopened], hflag, rfl⟩)
        · rename_i hflag
          exact .inr (.inr (.inl ⟨0, by simp [hopened], by simpa using hflag, rfl⟩))
  · rename_i hopened
    rw [executeHalfOpen]
    split
    · rename_i hhalf
      split
      · exact .inl ⟨b.openStateRejectionCount, rfl⟩
      · rename_i hflag
        refine .inr (.inr (.inl ⟨b.openStateRejectionCount, by simp [hhalf], by simpa using hflag, ?_⟩))
        rw [← hhalf]
    · rename_i hhalf
      refine .inr (.inr (.inr ⟨?_, rfl⟩))
      cases hstate : b.state with
      | closed => rfl
      | opened => exact absurd hstate hopened
      | halfOpen => exact absurd hstate hhalf

theorem finish_cases {k : Nat} {ending : Ending} {now : Int}
    (h : b.finish k ending now = some b') :
    ∃ probe, b.operations[k]? = some ⟨probe, true⟩ ∧
      b' = { b with operations := b.operations.set k ⟨probe, false⟩ }.settle ending now := by
  rw [finish] at h
  split at h
  · rename_i probe hk
    exact ⟨probe, hk, (Option.some.inj h).symm⟩
  · cases h

theorem liveProbes_set {k : Nat} {probe : Bool} (hk : b.operations[k]? = some ⟨probe, true⟩) :
    ({ b with operations := b.operations.set k ⟨probe, false⟩ } :
        ConnectionCircuitBreaker).liveProbes + (if probe then 1 else 0) = b.liveProbes := by
  have hcount := Ledger.countP_set Operation.isLiveProbe (b := ⟨probe, false⟩) hk
  simpa [Operation.isLiveProbe, liveProbes] using hcount

/-! ## One probe at a time -/

/-- The flag is set exactly while one probe is in flight, and there is never a second one. -/
structure Exclusive (b : ConnectionCircuitBreaker) : Prop where
  flag_iff : b.halfOpenProbeInProgress = true ↔ b.liveProbes = 1
  le_one : b.liveProbes ≤ 1

theorem exclusive_iff :
    b.Exclusive ↔ b.liveProbes = if b.halfOpenProbeInProgress then 1 else 0 := by
  constructor
  · rintro ⟨hiff, hle⟩
    split
    · rename_i hflag
      exact hiff.mp hflag
    · rename_i hflag
      have hne : b.liveProbes ≠ 1 := fun heq => hflag (hiff.mpr heq)
      omega
  · intro h
    split at h
    · rename_i hflag
      exact ⟨⟨fun _ => h, fun _ => hflag⟩, by omega⟩
    · rename_i hflag
      exact ⟨⟨fun hset => absurd hset hflag, fun hone => by omega⟩, by omega⟩

/-- The operation was admitted as a probe. -/
def isProbe (b : ConnectionCircuitBreaker) (k : Nat) : Bool :=
  (b.operations[k]?.map Operation.probe).getD false

/-- The steps that keep the flag in line with the probes: no probe ends with an exception, and
while one is in flight no other operation ends without one and nobody resets the breaker. -/
def keepsFlag (b : ConnectionCircuitBreaker) : BreakerEvent → Prop
  | .execute _ => True
  | .finish k .throws _ => b.isProbe k = false
  | .finish k _ _ => b.isProbe k = true ∨ b.liveProbes = 0
  | .reset => b.liveProbes = 0

theorem Exclusive.execute (h : b.Exclusive) (now : Int) : (b.execute now).Exclusive := by
  rw [exclusive_iff] at h ⊢
  rcases b.execute_cases now with ⟨n, heq⟩ | ⟨n, -, -, heq⟩ | ⟨n, -, hflag, heq⟩ | ⟨-, heq⟩
  · rw [heq]
    exact h
  · rw [heq]
    exact h
  · rw [heq, liveProbes_admission]
    rw [hflag] at h
    show b.liveProbes + 1 = 1
    simpa using h
  · rw [heq, liveProbes_admission]
    exact h

theorem keepsFlag_finish {k : Nat} {ending : Ending} {now : Int} :
    b.keepsFlag (.finish k ending now) ↔
      if ending = .throws then b.isProbe k = false else b.isProbe k = true ∨ b.liveProbes = 0 := by
  cases ending <;> simp [keepsFlag]

theorem isProbe_eq {k : Nat} {o : Operation} (hk : b.operations[k]? = some o) :
    b.isProbe k = o.probe := by
  rw [isProbe, hk]
  rfl

theorem Exclusive.finish_iff (h : b.Exclusive) {k : Nat} {ending : Ending} {now : Int}
    (hstep : b.finish k ending now = some b') :
    b'.Exclusive ↔ b.keepsFlag (.finish k ending now) := by
  obtain ⟨probe, hk, rfl⟩ := finish_cases hstep
  have hset := liveProbes_set hk
  rw [exclusive_iff] at h
  rw [exclusive_iff, liveProbes_settle, flag_settle, keepsFlag_finish, isProbe_eq hk]
  generalize hc : ({ b with operations := b.operations.set k ⟨probe, false⟩ } :
    ConnectionCircuitBreaker) = c at hset ⊢
  have hflag : c.halfOpenProbeInProgress = b.halfOpenProbeInProgress := by rw [← hc]
  rw [hflag]
  by_cases hthrows : ending = .throws
  · cases hb : b.halfOpenProbeInProgress with
    | true =>
      cases probe with
      | true =>
        simp [hb, hthrows] at h hset ⊢
        omega
      | false =>
        simp [hb, hthrows] at h hset ⊢
        omega
    | false =>
      cases probe with
      | true =>
        simp [hb] at h hset
        omega
      | false =>
        simp [hb, hthrows] at h hset ⊢
        omega
  · have hbeq : (ending == Ending.throws) = false := beq_false_of_ne hthrows
    cases probe with
    | true =>
      cases hb : b.halfOpenProbeInProgress with
      | true =>
        simp [hb, hthrows] at h hset ⊢
        omega
      | false =>
        simp [hb] at h hset
        omega
    | false =>
      simp [hthrows, hbeq] at hset ⊢
      omega

theorem exclusive_reset_iff : b.reset.Exclusive ↔ b.keepsFlag .reset := by
  rw [exclusive_iff, keepsFlag]
  exact Iff.rfl

theorem Exclusive.step_iff (h : b.Exclusive) {e : BreakerEvent} (hstep : breaker.step b e = some b') :
    b'.Exclusive ↔ b.keepsFlag e := by
  cases e with
  | execute now =>
    obtain rfl := Option.some.inj hstep
    exact ⟨fun _ => trivial, fun _ => h.execute now⟩
  | finish k ending now => exact h.finish_iff hstep
  | reset =>
    obtain rfl := Option.some.inj hstep
    exact exclusive_reset_iff

theorem exclusive_of_reach (h : breaker.Reach keepsFlag b) : b.Exclusive := by
  refine h.invariant ?_ fun b e b' hb hguard hstep => (hb.step_iff hstep).mpr hguard
  rintro b ⟨threshold, timeout, rfl⟩
  rw [exclusive_iff]
  rfl

end ConnectionCircuitBreaker

open ConnectionCircuitBreaker

/-- In every run whose steps all meet the condition, the flag is set exactly while one probe is
in flight and there is never a second one; and the first step that does not meet it ends
that. -/
theorem probe_exclusive {b : ConnectionCircuitBreaker} (h : breaker.Reach keepsFlag b) :
    b.Exclusive ∧
      ∀ e b', breaker.step b e = some b' → ¬b.keepsFlag e → ¬b'.Exclusive := by
  have hexclusive := exclusive_of_reach h
  refine ⟨hexclusive, ?_⟩
  intro e b' hstep hguard hafter
  exact hguard ((hexclusive.step_iff hstep).mp hafter)

/-- An operation fails and opens the circuit, and a later one is admitted as the probe. -/
theorem probe_exclusive_probing : ∃ b, breaker.Reach keepsFlag b ∧
    b.halfOpenProbeInProgress = true ∧ b.liveProbes = 1 ∧ b.Exclusive := by
  have hstart : breaker.Reach keepsFlag { failureThreshold := 1, resetTimeout := 5 } :=
    .start ⟨1, 5, rfl⟩
  have hadmitted := hstart.step (a := BreakerEvent.execute 0) trivial rfl
  have hopened := hadmitted.step (a := BreakerEvent.finish 0 (.failure true) 0) (Or.inr rfl) rfl
  have hprobing := hopened.step (a := BreakerEvent.execute 9) trivial rfl
  exact ⟨_, hprobing, rfl, rfl, (probe_exclusive hprobing).1⟩

/-- A run in which an operation that was admitted before the circuit opened ends while the
probe is in flight. -/
def staleFailure : List BreakerEvent :=
  [.execute 0, .execute 0, .finish 0 (.failure true) 0, .execute 9, .finish 1 (.failure false) 9,
    .execute 9]

/-- A run in which the probe ends with an exception. -/
def thrownProbe : List BreakerEvent :=
  [.execute 0, .finish 0 (.failure true) 0, .execute 9, .finish 1 .throws 9]

/-- The first run ends with two probes in flight, and the second one with none and the flag
set, so that every later call is refused. -/
theorem probe_not_exclusive :
    (∃ b, breaker.Reachable b ∧ b.liveProbes = 2 ∧ ¬b.Exclusive) ∧
      ∃ b, breaker.Reachable b ∧ b.liveProbes = 0 ∧ b.halfOpenProbeInProgress = true ∧
        ¬b.Exclusive := by
  have hstale : ∃ b, breaker.run { failureThreshold := 1, resetTimeout := 5 } staleFailure = some b ∧
      b.liveProbes = 2 := ⟨_, rfl, rfl⟩
  have hthrown : ∃ b, breaker.run { failureThreshold := 1, resetTimeout := 5 } thrownProbe = some b ∧
      b.liveProbes = 0 ∧ b.halfOpenProbeInProgress = true := ⟨_, rfl, rfl, rfl⟩
  obtain ⟨b, hrun, hprobes⟩ := hstale
  obtain ⟨b', hrun', hprobes', hflag⟩ := hthrown
  refine ⟨⟨b, Machine.reachable_of_run ⟨1, 5, rfl⟩ hrun, hprobes, ?_⟩,
    b', Machine.reachable_of_run ⟨1, 5, rfl⟩ hrun', hprobes', hflag, ?_⟩
  · intro hexclusive
    have hle := hexclusive.le_one
    omega
  · intro hexclusive
    have hone := hexclusive.flag_iff.mp hflag
    omega

/-! ## A probe that fails -/

namespace ConnectionCircuitBreaker

variable {b b' : ConnectionCircuitBreaker}

/-- The steps that keep the count of failures while it is needed: no operation succeeds while
the circuit is open or another operation is in flight as a probe, and nobody resets the
breaker under a probe.  A threshold of one needs no count. -/
def keepsFailures (b : ConnectionCircuitBreaker) : BreakerEvent → Prop
  | .execute _ => True
  | .finish k .success _ => b.failureThreshold ≤ 1 ∨
      (b.state ≠ .opened ∧ b.liveProbes = if b.isProbe k then 1 else 0)
  | .finish _ _ _ => True
  | .reset => b.failureThreshold ≤ 1 ∨ b.liveProbes = 0

/-- While the circuit is not closed the count is at the threshold, and no probe is in flight
while it is. -/
structure Charged (b : ConnectionCircuitBreaker) : Prop where
  count : b.state ≠ .closed → b.failureThreshold ≤ b.consecutiveFailures
  probes : b.liveProbes ≠ 0 → b.state ≠ .closed

theorem failureThreshold_settle (b : ConnectionCircuitBreaker) (ending : Ending) (now : Int) :
    (b.settle ending now).failureThreshold = b.failureThreshold := by
  cases ending with
  | success => rfl
  | failure recorded =>
    cases recorded with
    | true =>
      rw [settle, if_pos rfl, onFailure]
      split <;> rfl
    | false => rfl
  | throws => rfl

theorem failureThreshold_step {e : BreakerEvent} (hstep : breaker.step b e = some b') :
    b'.failureThreshold = b.failureThreshold := by
  cases e with
  | execute now =>
    obtain rfl := Option.some.inj hstep
    rcases b.execute_cases now with ⟨n, heq⟩ | ⟨n, -, -, heq⟩ | ⟨n, -, -, heq⟩ | ⟨-, heq⟩ <;>
      simp [heq, admission]
  | finish k ending now =>
    obtain ⟨probe, -, rfl⟩ := finish_cases hstep
    exact failureThreshold_settle _ ending now
  | reset =>
    obtain rfl := Option.some.inj hstep
    rfl

theorem state_onFailure (now : Int) (h : b.failureThreshold ≤ b.consecutiveFailures + 1) :
    (b.onFailure now).state = .opened := by
  rw [onFailure]
  split
  · rfl
  · rename_i hcond
    by_contra hstate
    apply hcond
    have hle : b.failureThreshold ≤ ((b.consecutiveFailures + 1 : Nat) : Int) := by
      push_cast
      exact h
    simp only [Bool.and_eq_true, decide_eq_true_eq]
    exact ⟨hle, hstate⟩

theorem Charged.onFailure (h : b.Charged) (now : Int) : (b.onFailure now).Charged := by
  rw [ConnectionCircuitBreaker.onFailure]
  split
  · rename_i hcond
    simp only [Bool.and_eq_true, decide_eq_true_eq] at hcond
    exact ⟨fun _ => hcond.1, fun _ => by simp⟩
  · refine ⟨?_, h.probes⟩
    intro hstate
    have hle := h.count hstate
    show b.failureThreshold ≤ ((b.consecutiveFailures + 1 : Nat) : Int)
    push_cast
    omega

theorem Charged.execute (h : b.Charged) (now : Int) : (b.execute now).Charged := by
  rcases b.execute_cases now with ⟨n, heq⟩ | ⟨n, hstate, -, heq⟩ | ⟨n, hstate, -, heq⟩ |
      ⟨hstate, heq⟩
  · rw [heq]
    exact ⟨h.count, h.probes⟩
  · rw [heq]
    exact ⟨fun _ => h.count hstate, fun _ => by simp⟩
  · rw [heq]
    exact ⟨fun _ => h.count hstate, fun _ => by simp [admission]⟩
  · rw [heq]
    refine ⟨h.count, ?_⟩
    rw [liveProbes_admission]
    exact h.probes

theorem Charged.set (h : b.Charged) {k : Nat} {probe : Bool}
    (hk : b.operations[k]? = some ⟨probe, true⟩) (flag : Bool) :
    ({ b with
      operations := b.operations.set k ⟨probe, false⟩
      halfOpenProbeInProgress := flag } : ConnectionCircuitBreaker).Charged := by
  refine ⟨h.count, ?_⟩
  intro hprobes
  apply h.probes
  have hset := liveProbes_set hk
  have hprobes : ({ b with operations := b.operations.set k ⟨probe, false⟩ } :
    ConnectionCircuitBreaker).liveProbes ≠ 0 := hprobes
  omega

theorem Charged.finish (h : b.Charged) {k : Nat} {ending : Ending} {now : Int}
    (hstep : b.finish k ending now = some b') (hone : ¬b.failureThreshold ≤ 1)
    (hguard : b.keepsFailures (.finish k ending now)) : b'.Charged := by
  obtain ⟨probe, hk, rfl⟩ := finish_cases hstep
  cases ending with
  | throws => exact h.set hk _
  | failure recorded =>
    rw [settle]
    split
    · exact (h.set hk false).onFailure now
    · exact h.set hk false
  | success =>
    rw [keepsFailures, isProbe_eq hk] at hguard
    obtain ⟨hstate, hprobes⟩ := hguard.resolve_left hone
    have hset := liveProbes_set hk
    have hclosed : (if b.state = .halfOpen then CircuitState.closed else b.state) = .closed := by
      split
      · rfl
      · rename_i hhalf
        cases hb : b.state with
        | closed => rfl
        | opened => exact absurd hb hstate
        | halfOpen => exact absurd hb hhalf
    refine ⟨fun hne => absurd hclosed hne, ?_⟩
    intro hne
    rw [liveProbes_settle] at hne
    dsimp only at hprobes
    omega

theorem charged_of_reach (h : breaker.Reach keepsFailures b) :
    b.failureThreshold ≤ 1 ∨ b.Charged := by
  refine h.invariant (I := fun b => b.failureThreshold ≤ 1 ∨ b.Charged) ?_ ?_
  · rintro b ⟨threshold, timeout, rfl⟩
    exact .inr ⟨fun hne => absurd rfl hne, fun hne => absurd rfl hne⟩
  · intro b e b' hb hguard hstep
    rw [failureThreshold_step hstep]
    by_cases hone : b.failureThreshold ≤ 1
    · exact .inl hone
    · right
      have hb := hb.resolve_left hone
      cases e with
      | execute now =>
        obtain rfl := Option.some.inj hstep
        exact hb.execute now
      | finish k ending now => exact hb.finish hstep hone hguard
      | reset =>
        obtain rfl := Option.some.inj hstep
        have hprobes : b.liveProbes = 0 := hguard.resolve_left hone
        exact ⟨fun hne => absurd rfl hne, fun hne => absurd hprobes hne⟩

theorem liveProbes_ne_zero {k : Nat} (hk : b.operations[k]? = some ⟨true, true⟩) :
    b.liveProbes ≠ 0 := by
  have hset := liveProbes_set hk
  simp only [if_true] at hset
  omega

end ConnectionCircuitBreaker

/-- In every run whose steps all meet the condition, a probe that ends with a failure that
counts leaves the circuit open. -/
theorem failed_probe_reopens {b b' : ConnectionCircuitBreaker} {k : Nat} {now : Int}
    (h : breaker.Reach keepsFailures b) (hk : b.operations[k]? = some ⟨true, true⟩)
    (hstep : breaker.step b (.finish k (.failure true) now) = some b') : b'.state = .opened := by
  obtain ⟨probe, -, rfl⟩ := finish_cases hstep
  rw [settle, if_pos rfl]
  apply state_onFailure
  show b.failureThreshold ≤ b.consecutiveFailures + 1
  rcases charged_of_reach h with hone | hcharged
  · omega
  · have hcount := hcharged.count (hcharged.probes (liveProbes_ne_zero hk))
    omega

/-- The circuit opens, and the probe is in flight. -/
def openedThenProbed : List BreakerEvent :=
  [.execute 0, .execute 0, .finish 0 (.failure true) 0, .finish 1 (.failure true) 0, .execute 9]

theorem failed_probe_reopens_openedThenProbed :
    ∃ b b', breaker.run { failureThreshold := 2, resetTimeout := 5 } openedThenProbed = some b ∧
      b.operations[2]? = some ⟨true, true⟩ ∧
      breaker.step b (.finish 2 (.failure true) 9) = some b' ∧ b'.state = .opened := by
  have hrun : ∃ b, breaker.run { failureThreshold := 2, resetTimeout := 5 } openedThenProbed = some b ∧
      b.operations[2]? = some ⟨true, true⟩ ∧
      ∃ b', breaker.step b (.finish 2 (.failure true) 9) = some b' := ⟨_, rfl, rfl, _, rfl⟩
  obtain ⟨b, hrun, hk, b', hstep⟩ := hrun
  refine ⟨b, b', hrun, hk, hstep, failed_probe_reopens ?_ hk hstep⟩
  refine Machine.reach_of_run ⟨2, 5, rfl⟩ ?_ hrun
  intro b e he
  simp only [openedThenProbed, List.mem_cons, List.not_mem_nil, or_false] at he
  rcases he with rfl | rfl | rfl | rfl | rfl <;> exact trivial

/-- An operation that was admitted before the circuit opened succeeds after it. -/
def lateSuccess : List BreakerEvent :=
  [.execute 0, .execute 0, .execute 0, .finish 0 (.failure true) 0, .finish 1 (.failure true) 0,
    .finish 2 .success 1, .execute 9]

/-- The probe fails, and the circuit is not open. -/
theorem failed_probe_stays_halfOpen :
    ∃ b b', breaker.run { failureThreshold := 2, resetTimeout := 5 } lateSuccess = some b ∧
      breaker.Reachable b ∧ b.operations[3]? = some ⟨true, true⟩ ∧
      breaker.step b (.finish 3 (.failure true) 9) = some b' ∧ b'.state = .halfOpen :=
  ⟨_, _, rfl, @Machine.reachable_of_run _ _ breaker _ _ ⟨2, 5, rfl⟩ lateSuccess rfl, rfl, rfl, rfl⟩

end PlugAgente.Pool
