import PlugAgente.Machine.Ledger
import PlugAgente.Machine.Transition

/-!
# The operation gate

`AsyncOperationGate` as a machine.  Each call of `runSerialized` awaits the completer of the call
before it and completes its own in its `finally`, so the calls form a chain.  A call goes on in a
later turn of the event loop than the one that completes what it awaits, and other calls and
`invalidateEpoch` may come between.

Calls are named by their positions in `calls`, and `log` is the history.  What a callback does
before it answers, also to the gate itself, are events before the one of its answer.
-/

namespace PlugAgente.Sessions

/-- What `shouldAbort` answers. -/
inductive AbortAnswer where
  | proceed
  | abort
  | throws
  deriving DecidableEq, Repr

/-- How a call of `runSerialized` ends. -/
inductive GateOutcome where
  /-- The value of the action. -/
  | value
  | staleResult
  /-- The `StateError` of a stale epoch. -/
  | staleError
  /-- What the action or `shouldAbort` has thrown. -/
  | thrown
  deriving DecidableEq, Repr

inductive GateStage where
  /-- It awaits `previous`. -/
  | waiting
  /-- It awaits its action. -/
  | running
  | finished (outcome : GateOutcome)
  deriving DecidableEq, Repr

/-- A call of `runSerialized`. -/
structure GateCall where
  capturedEpoch : Nat
  /-- The call whose completer it awaits; without one the future is complete. -/
  previous : Option Nat
  hasStaleResult : Bool
  stage : GateStage := .waiting
  /-- Its own completer is complete. -/
  released : Bool := false
  deriving DecidableEq, Repr

def GateCall.isFinished (c : GateCall) : Prop := ∃ outcome, c.stage = .finished outcome

/-- The history of the gate. -/
inductive GateEntry where
  | called (call : Nat)
  | invalidated
  | started (call : Nat)
  | ended (call : Nat)
  deriving DecidableEq, Repr

/-- It raises the epoch. -/
def GateEntry.raises : GateEntry → Bool
  | .called _ => true
  | .invalidated => true
  | _ => false

/-- The call whose action starts. -/
def GateEntry.start? : GateEntry → Option Nat
  | .started call => some call
  | _ => none

structure AsyncOperationGate where
  epoch : Nat := 0
  lastRunEpoch : Nat := 0
  /-- The call whose completer is the mutex; without one the mutex is complete. -/
  mutex : Option Nat := none
  calls : List GateCall := []
  log : List GateEntry := []
  deriving DecidableEq, Repr

inductive GateEvent where
  | invalidateEpoch
  | runSerialized (hasStaleResult : Bool)
  /-- A call goes on behind `await previous`, and `shouldAbort` answers. -/
  | resume (call : Nat) (answer : AbortAnswer)
  /-- The action of a call returns, and `shouldAbort` answers. -/
  | actionReturned (call : Nat) (answer : AbortAnswer)
  | actionThrew (call : Nat)
  deriving DecidableEq, Repr

namespace AsyncOperationGate

def invalidateEpoch (s : AsyncOperationGate) : AsyncOperationGate :=
  { s with epoch := s.epoch + 1, log := s.log ++ [GateEntry.invalidated] }

/-- `runSerialized`, up to `await previous`. -/
def enter (s : AsyncOperationGate) (hasStaleResult : Bool) : AsyncOperationGate :=
  { s with
    epoch := s.epoch + 1
    mutex := some s.calls.length
    calls := s.calls ++
      [{ capturedEpoch := s.epoch + 1, previous := s.mutex, hasStaleResult := hasStaleResult }]
    log := s.log ++ [GateEntry.called s.calls.length] }

/-- What a call awaits is complete. -/
def previousComplete (s : AsyncOperationGate) (c : GateCall) : Bool :=
  match c.previous with
  | none => true
  | some j => (s.calls[j]?.map (·.released)).getD false

/-- A call ends, and its `finally` completes its completer. -/
def finish (s : AsyncOperationGate) (k : Nat) (c : GateCall) (outcome : GateOutcome) :
    AsyncOperationGate :=
  { s with
    calls := s.calls.set k { c with stage := .finished outcome, released := true }
    log := s.log ++ [GateEntry.ended k] }

/-- A call calls its action. -/
def begin (s : AsyncOperationGate) (k : Nat) (c : GateCall) : AsyncOperationGate :=
  { s with
    lastRunEpoch := c.capturedEpoch
    calls := s.calls.set k { c with stage := .running }
    log := s.log ++ [GateEntry.started k] }

/-- The end of a stale call. -/
def staleOutcome (c : GateCall) : GateOutcome :=
  if c.hasStaleResult then .staleResult else .staleError

/-- `runSerialized` behind `await previous`. -/
def resume (s : AsyncOperationGate) (k : Nat) (answer : AbortAnswer) : Option AsyncOperationGate :=
  match s.calls[k]? with
  | none => none
  | some c =>
    if c.stage = .waiting ∧ s.previousComplete c = true then
      match answer with
      | .throws => some (s.finish k c .thrown)
      | .abort => some (s.finish k c (staleOutcome c))
      | .proceed =>
        if c.capturedEpoch ≠ s.epoch then some (s.finish k c (staleOutcome c))
        else some (s.begin k c)
    else none

/-- `runSerialized` behind `await action()`. -/
def actionReturned (s : AsyncOperationGate) (k : Nat) (answer : AbortAnswer) :
    Option AsyncOperationGate :=
  match s.calls[k]? with
  | none => none
  | some c =>
    if c.stage = .running then
      match answer with
      | .throws => some (s.finish k c .thrown)
      | .abort => some (s.finish k c (staleOutcome c))
      | .proceed => some (s.finish k c .value)
    else none

/-- The action throws, at once or later. -/
def actionThrew (s : AsyncOperationGate) (k : Nat) : Option AsyncOperationGate :=
  match s.calls[k]? with
  | none => none
  | some c => if c.stage = .running then some (s.finish k c .thrown) else none

end AsyncOperationGate

open AsyncOperationGate

def operationGate : Machine AsyncOperationGate GateEvent where
  start s := s = {}
  step s
    | .invalidateEpoch => some s.invalidateEpoch
    | .runSerialized hasStaleResult => some (s.enter hasStaleResult)
    | .resume k answer => s.resume k answer
    | .actionReturned k answer => s.actionReturned k answer
    | .actionThrew k => s.actionThrew k

namespace AsyncOperationGate

variable {s s' : AsyncOperationGate} {k : Nat} {c : GateCall}

/-! ## What an event does -/

/-- A call begins its action or ends; a stale one does not begin. -/
inductive Moves (s : AsyncOperationGate) (k : Nat) (c : GateCall) : AsyncOperationGate → Prop where
  | begin (hstage : c.stage = .waiting) (hprevious : s.previousComplete c = true)
      (hepoch : c.capturedEpoch = s.epoch) : Moves s k c (s.begin k c)
  | refuse (hstage : c.stage = .waiting) (hprevious : s.previousComplete c = true)
      (outcome : GateOutcome) : Moves s k c (s.finish k c outcome)
  | finish (hstage : c.stage = .running) (outcome : GateOutcome) :
      Moves s k c (s.finish k c outcome)

theorem step_cases {e : GateEvent} (h : operationGate.step s e = some s') :
    s' = s.invalidateEpoch ∨ (∃ hasStaleResult, s' = s.enter hasStaleResult) ∨
      ∃ k c, s.calls[k]? = some c ∧ Moves s k c s' := by
  cases e with
  | invalidateEpoch => exact .inl (Option.some.inj h).symm
  | runSerialized hasStaleResult => exact .inr (.inl ⟨hasStaleResult, (Option.some.inj h).symm⟩)
  | resume k answer =>
    change s.resume k answer = some s' at h
    unfold resume at h
    split at h
    · cases h
    · rename_i c hc
      by_cases hready : c.stage = .waiting ∧ s.previousComplete c = true
      · rw [if_pos hready] at h
        refine .inr (.inr ⟨k, c, hc, ?_⟩)
        cases answer with
        | throws =>
          rw [← Option.some.inj h]
          exact .refuse hready.1 hready.2 _
        | abort =>
          rw [← Option.some.inj h]
          exact .refuse hready.1 hready.2 _
        | proceed =>
          dsimp only at h
          split_ifs at h with hepoch
          · rw [← Option.some.inj h]
            exact .refuse hready.1 hready.2 _
          · rw [← Option.some.inj h]
            exact .begin hready.1 hready.2 (not_not.mp hepoch)
      · rw [if_neg hready] at h
        cases h
  | actionReturned k answer =>
    change s.actionReturned k answer = some s' at h
    unfold actionReturned at h
    split at h
    · cases h
    · rename_i c hc
      split_ifs at h with hstage
      refine .inr (.inr ⟨k, c, hc, ?_⟩)
      cases answer <;> rw [← Option.some.inj h] <;> exact .finish hstage _
  | actionThrew k =>
    change s.actionThrew k = some s' at h
    unfold actionThrew at h
    split at h
    · cases h
    · rename_i c hc
      split_ifs at h with hstage
      refine .inr (.inr ⟨k, c, hc, ?_⟩)
      rw [← Option.some.inj h]
      exact .finish hstage _

/-! ## The chain of completers -/

/-- The call before the one with a number. -/
def callBefore : Nat → Option Nat
  | 0 => none
  | n + 1 => some n

/-- The calls form a chain, and a call that is past its wait has only finished calls before it. -/
structure Chained (s : AsyncOperationGate) : Prop where
  mutex : s.mutex = callBefore s.calls.length
  previous : ∀ (i : Nat) (c : GateCall), s.calls[i]? = some c → c.previous = callBefore i
  released : ∀ (i : Nat) (c : GateCall), s.calls[i]? = some c → (c.released = true ↔ c.isFinished)
  before : ∀ (i : Nat) (c : GateCall), s.calls[i]? = some c → c.stage ≠ .waiting →
    ∀ (j : Nat) (d : GateCall), j < i → s.calls[j]? = some d → d.isFinished

theorem GateCall.not_isFinished_of_waiting (h : c.stage = .waiting) : ¬ c.isFinished := by
  rintro ⟨outcome, hfinished⟩
  rw [h] at hfinished
  cases hfinished

theorem GateCall.not_isFinished_of_running (h : c.stage = .running) : ¬ c.isFinished := by
  rintro ⟨outcome, hfinished⟩
  rw [h] at hfinished
  cases hfinished

theorem GateCall.stage_ne_waiting (h : c.isFinished) : c.stage ≠ .waiting :=
  fun hstage => GateCall.not_isFinished_of_waiting hstage h

theorem Chained.ready (h : s.Chained) (hc : s.calls[k]? = some c)
    (hprevious : s.previousComplete c = true) :
    ∀ (j : Nat) (d : GateCall), j < k → s.calls[j]? = some d → d.isFinished := by
  intro j d hj hd
  have hchain := h.previous k c hc
  cases k with
  | zero => exact absurd hj (Nat.not_lt_zero j)
  | succ m =>
    unfold previousComplete at hprevious
    rw [hchain] at hprevious
    cases hm : s.calls[m]? with
    | none => simp [callBefore, hm] at hprevious
    | some before =>
      have hreleased : before.released = true := by simpa [callBefore, hm] using hprevious
      have hfinished := (h.released m before hm).mp hreleased
      rcases Nat.lt_succ_iff_lt_or_eq.mp hj with hlt | rfl
      · exact h.before m before hm (GateCall.stage_ne_waiting hfinished) j d hlt hd
      · rw [hm] at hd
        rwa [← Option.some.inj hd]

theorem Chained.previousComplete (h : s.Chained) (hc : s.calls[k]? = some c)
    (hbefore : ∀ (j : Nat) (d : GateCall), j + 1 = k → s.calls[j]? = some d → d.isFinished) :
    s.previousComplete c = true := by
  unfold AsyncOperationGate.previousComplete
  rw [h.previous k c hc]
  cases k with
  | zero => rfl
  | succ m =>
    have hlt : m < s.calls.length := by
      have := (List.getElem?_eq_some_iff.mp hc).1
      omega
    have hm : s.calls[m]? = some s.calls[m] := List.getElem?_eq_getElem hlt
    have hreleased := (h.released m _ hm).mpr (hbefore m _ rfl hm)
    show (s.calls[m]?.map (·.released)).getD false = true
    rw [hm]
    exact hreleased

theorem Chained.replace (h : s.Chained) {c' : GateCall} (hc : s.calls[k]? = some c)
    (hopen : ¬ c.isFinished) (hcalls : s'.calls = s.calls.set k c')
    (hmutex : s'.mutex = s.mutex) (hprevious : c'.previous = c.previous)
    (hreleased : c'.released = true ↔ c'.isFinished)
    (hbefore : ∀ (j : Nat) (d : GateCall), j < k → s.calls[j]? = some d → d.isFinished) :
    s'.Chained where
  mutex := by rw [hmutex, hcalls, List.length_set, h.mutex]
  previous := by
    rw [hcalls]
    refine Ledger.forall_set (fun i d _ hd => h.previous i d hd) fun _ => ?_
    rw [hprevious, h.previous k c hc]
  released := by
    rw [hcalls]
    exact Ledger.forall_set (fun i d _ hd => h.released i d hd) fun _ => hreleased
  before := by
    rw [hcalls]
    have hlater : ∀ (i : Nat) (d : GateCall), s.calls[i]? = some d → d.stage ≠ .waiting →
        ¬ k < i :=
      fun i d hd hstage hlt => hopen (h.before i d hd hstage k c hlt hc)
    have hkept : ∀ (i j : Nat) (d : GateCall), j < i → ¬ k < i → (s.calls.set k c')[j]? = some d →
        s.calls[j]? = some d := by
      intro i j d hj hk hd
      rwa [List.getElem?_set_ne (by omega)] at hd
    refine Ledger.forall_set ?_ ?_
    · intro i d _ hd hstage j e hj he
      exact h.before i d hd hstage j e hj (hkept i j e hj (hlater i d hd hstage) he)
    · intro _ _ j e hj he
      exact hbefore j e hj (hkept k j e hj (Nat.lt_irrefl k) he)

theorem Chained.enter (h : s.Chained) (hasStaleResult : Bool) :
    (s.enter hasStaleResult).Chained where
  mutex := by simp [AsyncOperationGate.enter, callBefore]
  previous := Ledger.forall_concat h.previous h.mutex
  released := Ledger.forall_concat h.released
    ⟨fun h => Bool.noConfusion h, fun h => absurd h (GateCall.not_isFinished_of_waiting rfl)⟩
  before := by
    refine Ledger.forall_concat ?_ fun hstage => absurd rfl hstage
    intro i d hd hstage j e hj he
    rcases Ledger.getElem?_added he with hold | ⟨rfl, -⟩
    · exact h.before i d hd hstage j e hj hold
    · have := (List.getElem?_eq_some_iff.mp hd).1
      omega

theorem Chained.step (h : s.Chained) {e : GateEvent} (hstep : operationGate.step s e = some s') :
    s'.Chained := by
  rcases step_cases hstep with rfl | ⟨hasStaleResult, rfl⟩ | ⟨k, c, hc, hmoves⟩
  · exact ⟨h.mutex, h.previous, h.released, h.before⟩
  · exact h.enter hasStaleResult
  · cases hmoves with
    | begin hstage hprevious hepoch =>
      have hopen := GateCall.not_isFinished_of_waiting hstage
      refine h.replace hc hopen rfl rfl rfl ?_ (h.ready hc hprevious)
      constructor
      · exact fun hreleased => absurd ((h.released k c hc).mp hreleased) hopen
      · exact fun hrunning => absurd hrunning (GateCall.not_isFinished_of_running rfl)
    | refuse hstage hprevious outcome =>
      exact h.replace hc (GateCall.not_isFinished_of_waiting hstage) rfl rfl rfl
        ⟨fun _ => ⟨outcome, rfl⟩, fun _ => rfl⟩ (h.ready hc hprevious)
    | finish hstage outcome =>
      refine h.replace hc (GateCall.not_isFinished_of_running hstage) rfl rfl rfl
        ⟨fun _ => ⟨outcome, rfl⟩, fun _ => rfl⟩ (h.before k c hc ?_)
      rw [hstage]
      exact fun h => nomatch h

/-! ## The history -/

/-- No call and no `invalidateEpoch` comes between the call of `runSerialized` and the start of its
action. -/
def Fresh (log : List GateEntry) : Prop :=
  ∀ i before between after, log = before ++ GateEntry.called i :: (between ++
    GateEntry.started i :: after) → ∀ e ∈ between, e.raises = false

/-- The history agrees with the epochs and the calls. -/
structure Logged (s : AsyncOperationGate) : Prop where
  epoch : s.epoch = s.log.countP (·.raises)
  known : ∀ i, GateEntry.called i ∈ s.log → i < s.calls.length
  captured : ∀ (i : Nat) (c : GateCall), s.calls[i]? = some c → ∀ before after,
    s.log = before ++ GateEntry.called i :: after →
      c.capturedEpoch = before.countP (·.raises) + 1
  begun : ∀ i, GateEntry.started i ∈ s.log → ∃ c, s.calls[i]? = some c ∧ c.stage ≠ .waiting
  starts : (s.log.filterMap (·.start?)).Pairwise (· < ·)
  fresh : Fresh s.log

theorem Fresh.concat {log : List GateEntry} {e : GateEntry} (h : Fresh log)
    (he : ∀ i before between, e = .started i → log = before ++ GateEntry.called i :: between →
      ∀ x ∈ between, x.raises = false) : Fresh (log ++ [e]) := by
  intro i before between after hlog
  rw [← List.cons_append, ← List.append_assoc] at hlog
  rcases Ledger.concat_split hlog with ⟨hlast, rfl⟩ | ⟨rest, rfl, hrest⟩
  · exact he i before between rfl hlast.symm
  · refine h i before between rest ?_
    rw [hrest, List.append_assoc, List.cons_append]

theorem captured_concat {log : List GateEntry} {e : GateEntry} {i n : Nat}
    (h : ∀ before after, log = before ++ GateEntry.called i :: after →
      n = before.countP (·.raises) + 1) (he : e ≠ .called i) :
    ∀ before after, log ++ [e] = before ++ GateEntry.called i :: after →
      n = before.countP (·.raises) + 1 := by
  intro before after hlog
  rcases Ledger.concat_split hlog with ⟨-, hlast⟩ | ⟨rest, -, hrest⟩
  · exact absurd hlast.symm he
  · exact h before rest hrest

theorem Logged.invalidateEpoch (h : s.Logged) : s.invalidateEpoch.Logged where
  epoch := by simp [AsyncOperationGate.invalidateEpoch, h.epoch, GateEntry.raises]
  known i hi := h.known i (by simpa [AsyncOperationGate.invalidateEpoch] using hi)
  captured i c hc := captured_concat (h.captured i c hc) (by simp)
  begun i hi := h.begun i (by simpa [AsyncOperationGate.invalidateEpoch] using hi)
  starts := by simpa [AsyncOperationGate.invalidateEpoch, GateEntry.start?] using h.starts
  fresh := h.fresh.concat (by simp)

theorem Logged.enter (h : s.Logged) (hasStaleResult : Bool) : (s.enter hasStaleResult).Logged where
  epoch := by simp [AsyncOperationGate.enter, h.epoch, GateEntry.raises]
  known i hi := by
    simp only [AsyncOperationGate.enter, List.mem_append, List.mem_singleton,
      GateEntry.called.injEq, List.length_append, List.length_singleton] at hi ⊢
    rcases hi with hold | rfl
    · have := h.known i hold
      omega
    · omega
  captured i c hc before after hlog := by
    rcases Ledger.getElem?_added hc with hold | ⟨rfl, rfl⟩
    · have hlt := (List.getElem?_eq_some_iff.mp hold).1
      refine captured_concat (h.captured i c hold) ?_ before after hlog
      rintro ⟨⟩
      exact Nat.lt_irrefl _ hlt
    · rcases Ledger.concat_split hlog with ⟨rfl, -⟩ | ⟨rest, -, hrest⟩
      · show s.epoch + 1 = _
        rw [h.epoch]
      · have hmem : GateEntry.called s.calls.length ∈ s.log := by simp [hrest]
        exact absurd (h.known _ hmem) (Nat.lt_irrefl _)
  begun i hi := by
    obtain ⟨c, hc, hstage⟩ := h.begun i (by simpa [AsyncOperationGate.enter] using hi)
    exact ⟨c, Ledger.getElem?_kept hc, hstage⟩
  starts := by simpa [AsyncOperationGate.enter, GateEntry.start?] using h.starts
  fresh := h.fresh.concat (by simp)

theorem begun_set {log : List GateEntry} {c' : GateCall}
    (h : ∀ i, GateEntry.started i ∈ log → ∃ c, s.calls[i]? = some c ∧ c.stage ≠ .waiting)
    (hc : s.calls[k]? = some c) (hstage : c'.stage ≠ .waiting) :
    ∀ i, GateEntry.started i ∈ log →
      ∃ d, (s.calls.set k c')[i]? = some d ∧ d.stage ≠ .waiting := by
  intro i hi
  obtain ⟨d, hd, hpast⟩ := h i hi
  by_cases hik : i = k
  · rw [hik, List.getElem?_set_self (List.getElem?_eq_some_iff.mp hc).1]
    exact ⟨c', rfl, hstage⟩
  · rw [List.getElem?_set_ne (Ne.symm hik)]
    exact ⟨d, hd, hpast⟩

theorem Logged.finish (h : s.Logged) (hc : s.calls[k]? = some c) (outcome : GateOutcome) :
    (s.finish k c outcome).Logged where
  epoch := by simp [AsyncOperationGate.finish, h.epoch, GateEntry.raises]
  known i hi := by
    have hold : GateEntry.called i ∈ s.log := by simpa [AsyncOperationGate.finish] using hi
    simpa [AsyncOperationGate.finish] using h.known i hold
  captured := by
    refine Ledger.forall_set (fun i d _ hd => captured_concat (h.captured i d hd) (by simp)) ?_
    exact fun _ => captured_concat (h.captured k c hc) (by simp)
  begun i hi := begun_set h.begun hc (by simp) i (by simpa [AsyncOperationGate.finish] using hi)
  starts := by simpa [AsyncOperationGate.finish, GateEntry.start?] using h.starts
  fresh := h.fresh.concat (by simp)

theorem Logged.begin (h : s.Logged) (hchained : s.Chained) (hc : s.calls[k]? = some c)
    (hstage : c.stage = .waiting) (hepoch : c.capturedEpoch = s.epoch) :
    (s.begin k c).Logged where
  epoch := by simp [AsyncOperationGate.begin, h.epoch, GateEntry.raises]
  known i hi := by
    have hold : GateEntry.called i ∈ s.log := by simpa [AsyncOperationGate.begin] using hi
    simpa [AsyncOperationGate.begin] using h.known i hold
  captured := by
    refine Ledger.forall_set (fun i d _ hd => captured_concat (h.captured i d hd) (by simp)) ?_
    exact fun _ => captured_concat (h.captured k c hc) (by simp)
  begun i hi := by
    rcases List.mem_append.mp hi with hold | hnew
    · exact begun_set h.begun hc (by simp) i hold
    · have hik : i = k := by simpa using hnew
      rw [hik]
      refine ⟨_, List.getElem?_set_self (List.getElem?_eq_some_iff.mp hc).1, ?_⟩
      simp
  starts := by
    show ((s.log ++ [GateEntry.started k]).filterMap (·.start?)).Pairwise (· < ·)
    rw [List.filterMap_append, List.pairwise_append]
    refine ⟨h.starts, List.pairwise_singleton _ _, ?_⟩
    intro i hi j hj
    have hjk : j = k := by simpa [GateEntry.start?] using hj
    obtain ⟨e, he, hstart⟩ := List.mem_filterMap.mp hi
    have hstarted : GateEntry.started i ∈ s.log := by
      cases e with
      | started n =>
        rw [← Option.some.inj hstart]
        exact he
      | _ => cases hstart
    obtain ⟨d, hd, hpast⟩ := h.begun i hstarted
    -- a call that is past its wait has only finished calls before it
    rw [hjk]
    by_contra hlt
    rcases Nat.lt_or_eq_of_le (Nat.not_lt.mp hlt) with hki | rfl
    · exact GateCall.not_isFinished_of_waiting hstage (hchained.before i d hd hpast k c hki hc)
    · rw [hc] at hd
      rw [← Option.some.inj hd] at hpast
      exact hpast hstage
  fresh := by
    refine h.fresh.concat ?_
    intro i before between hentry hlog e he
    have hik : k = i := GateEntry.started.inj hentry
    rw [← hik] at hlog
    have hcaptured := h.captured k c hc before between hlog
    have hcount := h.epoch
    rw [hlog, List.countP_append, List.countP_cons_of_pos (by rfl)] at hcount
    have hnone : between.countP (·.raises) = 0 := by omega
    rw [List.countP_eq_zero] at hnone
    simpa using hnone e he

theorem Logged.step (h : s.Logged) (hchained : s.Chained) {e : GateEvent}
    (hstep : operationGate.step s e = some s') : s'.Logged := by
  rcases step_cases hstep with rfl | ⟨hasStaleResult, rfl⟩ | ⟨k, c, hc, hmoves⟩
  · exact h.invalidateEpoch
  · exact h.enter hasStaleResult
  · cases hmoves with
    | begin hstage hprevious hepoch => exact h.begin hchained hc hstage hepoch
    | refuse hstage hprevious outcome => exact h.finish hc outcome
    | finish hstage outcome => exact h.finish hc outcome

/-! ## Every run -/

theorem Chained.empty : Chained {} where
  mutex := rfl
  previous i c hc := by simp at hc
  released i c hc := by simp at hc
  before i c hc := by simp at hc

theorem Logged.empty : Logged {} where
  epoch := rfl
  known i hi := absurd hi List.not_mem_nil
  captured i c hc := by simp at hc
  begun i hi := absurd hi List.not_mem_nil
  starts := .nil
  fresh i before between after hlog := by simp at hlog

theorem inv_of_reachable (h : operationGate.Reachable s) : s.Chained ∧ s.Logged := by
  refine Machine.Reach.invariant (I := fun s => s.Chained ∧ s.Logged) ?_ ?_ h
  · rintro s rfl
    exact ⟨.empty, .empty⟩
  · rintro s e s' ⟨hchained, hlogged⟩ - hstep
    exact ⟨hchained.step hstep, hlogged.step hchained hstep⟩

/-- The gate runs the actions one by one, in the order of the calls, and no call waits for ever
behind a finished one. -/
structure Serializes (s : AsyncOperationGate) : Prop where
  /-- No two actions overlap. -/
  alone : ∀ (i j : Nat) (c d : GateCall), s.calls[i]? = some c → s.calls[j]? = some d →
    c.stage = .running → d.stage = .running → i = j
  /-- The actions start in the order of the calls. -/
  order : (s.log.filterMap (·.start?)).Pairwise (· < ·)
  fresh : Fresh s.log
  released : ∀ c ∈ s.calls, c.isFinished → c.released = true
  /-- A waiting call goes on as soon as the call before it has finished. -/
  free : ∀ (i : Nat) (c : GateCall), s.calls[i]? = some c → c.stage = .waiting →
    (∀ (j : Nat) (d : GateCall), j + 1 = i → s.calls[j]? = some d → d.isFinished) →
    ∀ answer, (operationGate.step s (.resume i answer)).isSome = true
  /-- While some call has not finished, an action runs or a call can go on. -/
  progress : ∀ c ∈ s.calls, ¬ c.isFinished →
    (∃ d ∈ s.calls, d.stage = .running) ∨
      ∃ i, ∀ answer, (operationGate.step s (.resume i answer)).isSome = true

theorem resume_isSome (hc : s.calls[k]? = some c) (hstage : c.stage = .waiting)
    (hprevious : s.previousComplete c = true) (answer : AbortAnswer) :
    (operationGate.step s (.resume k answer)).isSome = true := by
  show (s.resume k answer).isSome = true
  unfold resume
  rw [hc]
  dsimp only
  rw [if_pos ⟨hstage, hprevious⟩]
  cases answer with
  | throws => rfl
  | abort => rfl
  | proceed =>
    dsimp only
    split <;> rfl

theorem Chained.progress (h : s.Chained) (hc : s.calls[k]? = some c) (hopen : ¬ c.isFinished) :
    (∃ d ∈ s.calls, d.stage = .running) ∨
      ∃ i, ∀ answer, (operationGate.step s (.resume i answer)).isSome = true := by
  induction k using Nat.strong_induction_on generalizing c with
  | _ k ih =>
    by_cases hbefore : ∀ (j : Nat) (d : GateCall), j + 1 = k → s.calls[j]? = some d → d.isFinished
    · cases hstage : c.stage with
      | waiting =>
        exact .inr ⟨k, resume_isSome hc hstage (h.previousComplete hc hbefore)⟩
      | running => exact .inl ⟨c, List.mem_of_getElem? hc, hstage⟩
      | finished outcome => exact absurd ⟨outcome, hstage⟩ hopen
    · push Not at hbefore
      obtain ⟨j, d, hj, hd, hdopen⟩ := hbefore
      exact ih j (by omega) hd hdopen

/-- In every reachable state the gate has serialized its actions. -/
theorem serializes (h : operationGate.Reachable s) : s.Serializes := by
  obtain ⟨hchained, hlogged⟩ := inv_of_reachable h
  refine ⟨?_, hlogged.starts, hlogged.fresh, ?_, ?_, ?_⟩
  · intro i j c d hc hd hrunning hrunning'
    by_contra hne
    have hpast : c.stage ≠ .waiting := by rw [hrunning]; exact fun h => nomatch h
    have hpast' : d.stage ≠ .waiting := by rw [hrunning']; exact fun h => nomatch h
    rcases Nat.lt_or_gt_of_ne hne with hlt | hlt
    · exact GateCall.not_isFinished_of_running hrunning
        (hchained.before j d hd hpast' i c hlt hc)
    · exact GateCall.not_isFinished_of_running hrunning'
        (hchained.before i c hc hpast j d hlt hd)
  · intro c hc hfinished
    obtain ⟨i, hi⟩ := List.mem_iff_getElem?.mp hc
    exact (hchained.released i c hi).mpr hfinished
  · intro i c hc hstage hbefore answer
    exact resume_isSome hc hstage (hchained.previousComplete hc hbefore) answer
  · intro c hc hopen
    obtain ⟨i, hi⟩ := List.mem_iff_getElem?.mp hc
    exact hchained.progress hi hopen

/-- Three calls; the second one is overtaken while it waits, and its turn comes all the same. -/
theorem serializes_overtaken :
    ∃ s : AsyncOperationGate, s.Serializes ∧ s.calls.map (·.stage) =
      [.finished .value, .finished .staleResult, .running] := by
  have hrun : operationGate.run {} [.runSerialized false, .resume 0 .proceed, .runSerialized true,
      .runSerialized false, .actionReturned 0 .proceed, .resume 1 .proceed,
      .resume 2 .proceed] = some _ := rfl
  exact ⟨_, serializes (Machine.reachable_of_run rfl hrun), rfl⟩

end AsyncOperationGate

end PlugAgente.Sessions
