import PlugAgente.Idempotency.DriftStore

/-!
# One effect for a key

The requests of one key and one fingerprint, handled by the orchestrator while time passes.  A
record ends with its lifetime: the store does not return it any more.

`KeyStep` says once what an event does to a request of the key.  `KeyInv` is the invariant: the
request that is checking, leading or storing is the one in flight, and none leads or stores while
the store has a record.  From a state with a record on, until the record ends, every answer is
that of the record or one that was there before; nothing is executed.
-/

namespace PlugAgente.Idempotency

open PlugAgente.Ledger

variable {V : Type}

/-! ## Time -/

/-- The state of the orchestrator, the time, and when the records of the store end. -/
structure TimedState (V : Type) where
  state : State V := {}
  now : Nat := 0
  expiresAt : String → Nat := fun _ => 0

/-- An event, or time that passes. -/
inductive TimedEvent (V : Type) where
  | event (e : Event V)
  | pass (duration : Nat)

namespace TimedState

/-- The state as the store shows it: without the records that have ended. -/
def fresh (s : TimedState V) : State V :=
  { s.state with store := fun k => if s.expiresAt k < s.now then none else s.state.store k }

/-- `rpcIdempotencyEntryTtl` of the request of a call. -/
def lifetime (ttl : String → Nat) (s : TimedState V) (i : Nat) : Nat :=
  match s.state.calls[i]? with
  | some call => ttl call.request.method
  | none => 0

/-- When the records end after an event: one that is stored gets its lifetime. -/
def expiresAfter (ttl : String → Nat) (key : String) (s : TimedState V) :
    Event V → String → Nat
  | .store i => fun k => if k = key then s.now + s.lifetime ttl i else s.expiresAt k
  | _ => s.expiresAt

/-- One event, or time that passes.  The requests are of the key and the fingerprint, and a record
stays for its lifetime. -/
def step (cfg : Config) (ttl : String → Nat) (key fingerprint : String) (s : TimedState V) :
    TimedEvent V → Option (TimedState V)
  | .pass duration => some { s with now := s.now + duration }
  | .event (.evict _) => none
  | .event (.arrive r) =>
    if idempotentKey cfg r = some key ∧ r.fingerprint = fingerprint then
      (s.fresh.step cfg (.arrive r)).map fun state => { s with state := state }
    else none
  | .event e =>
    (s.fresh.step cfg e).map fun state =>
      { s with state := state, expiresAt := s.expiresAfter ttl key e }

end TimedState

/-- The orchestrator with the requests of one key and one fingerprint. -/
def keyMachine (V : Type) (cfg : Config) (ttl : String → Nat) (key fingerprint : String) :
    Machine (TimedState V) (TimedEvent V) where
  start s := s = {}
  step s := s.step cfg ttl key fingerprint

/-! ## What an event does -/

/-- The answer as the caller with the id gets it. -/
def Answer.remap (a : Answer V) (id : Option String) : Answer V :=
  { a with response := remapResponseId a.response id }

@[simp] theorem Answer.remap_remap (a : Answer V) (id id' : Option String) :
    (a.remap id).remap id' = a.remap id' := rfl

/-- A request that is in flight for its key. -/
def Phase.holds : Phase V → Bool
  | .checking | .leading | .storing _ => true
  | _ => false

/-- A request that executes, or has executed and not stored yet. -/
def Phase.executes : Phase V → Bool
  | .leading | .storing _ => true
  | _ => false

/-- A request that is done. -/
def Phase.isDone : Phase V → Bool
  | .answered _ | .failed => true
  | _ => false

/-- How a request of the key goes on. -/
inductive Moves (key : String) (s : State V) (i : Nat) (r : RpcRequest) :
    Phase V → Phase V → Prop where
  | found {record : Record V} (h : s.store key = some record) :
    Moves key s i r .arrived (.answered (record.answer.remap r.id))
  | led (h : s.inFlightByKey key = none) : Moves key s i r .arrived .checking
  | followed {leader : Nat} (h : s.inFlightByKey key = some leader) :
    Moves key s i r .arrived (.following leader)
  | reread {record : Record V} (h : s.store key = some record) :
    Moves key s i r .checking (.answered (record.answer.remap r.id))
  | began (h : s.store key = none) : Moves key s i r .checking .leading
  | succeeded {a : Answer V} (horigin : a.origin = .execution i)
    (hsuccess : a.response.isSuccess = true) : Moves key s i r .leading (.storing a)
  | ended (a : Answer V) : Moves key s i r .leading (.answered (a.remap r.id))
  | stored (a : Answer V) : Moves key s i r (.storing a) (.answered (a.remap r.id))
  | shared {leader : Nat} {r' : RpcRequest} {a : Answer V}
    (h : s.calls[leader]? = some ⟨r', .answered a⟩) :
    Moves key s i r (.following leader) (.answered (a.remap r.id))
  | sharedFailure {leader : Nat} {r' : RpcRequest}
    (h : s.calls[leader]? = some ⟨r', .failed⟩) : Moves key s i r (.following leader) .failed
  | threw {p : Phase V} (h : p.holds = true) : Moves key s i r p .failed

/-- One request of the key goes on.  It is in flight while it holds the key, and a success is
stored when it is answered. -/
structure KeyStep (key : String) (s s' : State V) (i : Nat) (r : RpcRequest) (p q : Phase V) :
    Prop where
  call : s.calls[i]? = some ⟨r, p⟩
  moves : Moves key s i r p q
  calls : s'.calls = s.calls.set i ⟨r, q⟩
  taken : p.holds = false → q.holds = true → s'.inFlightByKey key = some i
  kept : p.holds = q.holds → s'.inFlightByKey key = s.inFlightByKey key
  freed : p.holds = true → q.holds = false →
    s'.inFlightByKey key = if s.inFlightByKey key = some i then none else s.inFlightByKey key
  store : s'.store key = s.store key ∨
    ∃ a, p = .storing a ∧ q = .answered (a.remap r.id) ∧
      s'.store key = some ⟨a, some r.fingerprint⟩

/-- The requests and the records are of the key and the fingerprint. -/
structure OfKey (cfg : Config) (key fingerprint : String) (s : State V) : Prop where
  calls : ∀ (i : Nat) (call : Call V), s.calls[i]? = some call →
    idempotentKey cfg call.request = some key ∧ call.request.fingerprint = fingerprint ∧
      call.phase ≠ .executing
  stored : ∀ record, s.store key = some record → record.requestFingerprint = some fingerprint

section Steps

variable {cfg : Config} {key fingerprint : String} {s s' : State V} {i : Nat} {r : RpcRequest}
  {p q : Phase V}

theorem KeyStep.of_setPhase (hcall : s.calls[i]? = some ⟨r, p⟩) (hmoves : Moves key s i r p q)
    (hsame : p.holds = q.holds) : KeyStep key s (s.setPhase i ⟨r, p⟩ q) i r p q := by
  refine ⟨hcall, hmoves, rfl, ?_, fun _ => rfl, ?_, Or.inl rfl⟩
  · intro hp hq
    rw [hp, hq] at hsame
    cases hsame
  · intro hp hq
    rw [hp, hq] at hsame
    cases hsame

theorem KeyStep.of_release (hcall : s.calls[i]? = some ⟨r, p⟩) (hmoves : Moves key s i r p q)
    (hp : p.holds = true) (hq : q.holds = false) :
    KeyStep key s ((s.setPhase i ⟨r, p⟩ q).release i key) i r p q := by
  refine ⟨hcall, hmoves, rfl, ?_, ?_, ?_, Or.inl rfl⟩
  · intro hfree
    rw [hp] at hfree
    cases hfree
  · intro hsame
    rw [hp, hq] at hsame
    cases hsame
  · intro _ _
    simp [State.release, State.setPhase]

theorem OfKey.keyOf (h : OfKey cfg key fingerprint s) (hcall : s.calls[i]? = some ⟨r, p⟩) :
    idempotentKey cfg r = some key :=
  (h.calls i _ hcall).1

theorem OfKey.finish_eq (h : OfKey cfg key fingerprint s) (hcall : s.calls[i]? = some ⟨r, p⟩)
    (a : Answer V) :
    s.finish cfg i ⟨r, p⟩ a = (s.setPhase i ⟨r, p⟩ (.answered (a.remap r.id))).release i key := by
  rw [State.finish, h.keyOf hcall]
  rfl

theorem OfKey.consume (h : OfKey cfg key fingerprint s) (hcall : s.calls[i]? = some ⟨r, p⟩) :
    s.consumeIdempotentCacheIfAny cfg i r = (s.store key).map (·.answer) := by
  rw [State.consumeIdempotentCacheIfAny, h.keyOf hcall]
  dsimp only
  cases hrecord : s.store key with
  | none => rfl
  | some record =>
    have hfingerprint : fingerprint = r.fingerprint := (h.calls i _ hcall).2.1.symm
    rw [State.consumeRecord, h.stored record hrecord]
    dsimp only
    rw [if_neg (not_not.mpr hfingerprint)]
    rfl

theorem OfKey.step_cases (h : OfKey cfg key fingerprint s) {e : Event V}
    (harrive : ∀ r, e ≠ .arrive r) (hevict : ∀ k, e ≠ .evict k)
    (hstep : s.step cfg e = some s') :
    s' = s ∨ ∃ i r p q, KeyStep key s s' i r p q := by
  cases e with
  | arrive r => exact absurd rfl (harrive r)
  | evict k => exact absurd rfl (hevict k)
  | prefetch i =>
    simp only [State.step] at hstep
    split at hstep
    · rename_i r hcall
      rw [h.consume hcall] at hstep
      cases hrecord : s.store key with
      | none =>
        rw [hrecord] at hstep
        exact Or.inl (Option.some.inj hstep).symm
      | some record =>
        rw [hrecord] at hstep
        rw [← Option.some.inj hstep]
        exact Or.inr ⟨i, r, _, _, .of_setPhase hcall (.found hrecord) rfl⟩
    · cases hstep
  | enter i =>
    simp only [State.step] at hstep
    split at hstep
    · rename_i r hcall
      rw [← Option.some.inj hstep, State.enter, h.keyOf hcall]
      right
      dsimp only
      cases hflight : s.inFlightByKey key with
      | some leader => exact ⟨i, r, _, _, .of_setPhase hcall (.followed hflight) rfl⟩
      | none =>
        refine ⟨i, r, _, _, hcall, .led hflight, rfl, ?_, ?_, ?_, Or.inl rfl⟩
        · intro _ _
          exact if_pos rfl
        · intro hsame
          cases hsame
        · intro hholds
          cases hholds
    · cases hstep
  | lookup i =>
    simp only [State.step] at hstep
    split at hstep
    · rename_i r hcall
      right
      rw [h.consume hcall] at hstep
      cases hrecord : s.store key with
      | none =>
        rw [hrecord] at hstep
        rw [← Option.some.inj hstep]
        exact ⟨i, r, _, _, .of_setPhase hcall (.began hrecord) rfl⟩
      | some record =>
        rw [hrecord] at hstep
        rw [← Option.some.inj hstep]
        dsimp only
        rw [h.finish_eq hcall]
        exact ⟨i, r, _, _, .of_release hcall (.reread hrecord) rfl rfl⟩
    · cases hstep
  | execute i response =>
    simp only [State.step] at hstep
    split at hstep
    · rename_i r hcall
      exact absurd rfl (h.calls i _ hcall).2.2
    · rename_i r hcall
      right
      split at hstep
      · rename_i hsuccess
        rw [← Option.some.inj hstep]
        exact ⟨i, r, _, _, .of_setPhase hcall (.succeeded rfl hsuccess) rfl⟩
      · rw [← Option.some.inj hstep, h.finish_eq hcall]
        exact ⟨i, r, _, _, .of_release hcall (.ended _) rfl rfl⟩
    · cases hstep
  | store i =>
    simp only [State.step] at hstep
    split at hstep
    · rename_i r a hcall
      right
      rw [← Option.some.inj hstep]
      have hdone : KeyStep key s _ i r _ _ := .of_release hcall (.stored a) rfl rfl
      rw [State.finish, State.storeAnswer, h.keyOf hcall]
      exact ⟨i, r, _, _, hdone.call, hdone.moves, hdone.calls, hdone.taken, hdone.kept, hdone.freed,
        Or.inr ⟨a, rfl, rfl, if_pos rfl⟩⟩
    · cases hstep
  | follow i =>
    simp only [State.step] at hstep
    split at hstep
    · rename_i r leader hcall
      right
      split at hstep
      · rename_i r' a hleader
        rw [← Option.some.inj hstep]
        exact ⟨i, r, _, _, .of_setPhase hcall (.shared hleader) rfl⟩
      · rename_i r' hleader
        rw [← Option.some.inj hstep]
        exact ⟨i, r, _, _, .of_setPhase hcall (.sharedFailure hleader) rfl⟩
      · cases hstep
    · cases hstep
  | throw i =>
    simp only [State.step] at hstep
    split at hstep
    · rename_i r hcall
      exact absurd rfl (h.calls i _ hcall).2.2
    · rename_i r hcall
      rw [← Option.some.inj hstep, h.keyOf hcall]
      exact Or.inr ⟨i, r, _, _, .of_release hcall (.threw rfl) rfl rfl⟩
    · rename_i r hcall
      rw [← Option.some.inj hstep, h.keyOf hcall]
      exact Or.inr ⟨i, r, _, _, .of_release hcall (.threw rfl) rfl rfl⟩
    · rename_i r a hcall
      rw [← Option.some.inj hstep, h.keyOf hcall]
      exact Or.inr ⟨i, r, _, _, .of_release hcall (.threw rfl) rfl rfl⟩
    · cases hstep

/-! ## The invariant -/

/-- The request that holds the key is the one in flight; a leader that executes finds no record,
and what it stores is its own success; a request follows one that holds the key or is done. -/
structure KeyInv (cfg : Config) (key fingerprint : String) (s : State V) : Prop extends
    OfKey cfg key fingerprint s where
  holder : ∀ (i : Nat) (call : Call V), s.calls[i]? = some call → call.phase.holds = true →
    s.inFlightByKey key = some i
  inFlight : ∀ i, s.inFlightByKey key = some i →
    ∃ call, s.calls[i]? = some call ∧ call.phase.holds = true
  executing : ∀ (i : Nat) (call : Call V), s.calls[i]? = some call → call.phase.executes = true →
    s.store key = none
  storing : ∀ (i : Nat) (call : Call V) (a : Answer V), s.calls[i]? = some call →
    call.phase = .storing a → a.origin = .execution i ∧ a.response.isSuccess = true
  following : ∀ (i leader : Nat) (call : Call V), s.calls[i]? = some call →
    call.phase = .following leader → ∃ other, s.calls[leader]? = some other ∧
      (other.phase.holds = true ∨ other.phase.isDone = true)
  record : ∀ record, s.store key = some record → record.answer.response.isSuccess = true ∧
    ∃ i call, s.calls[i]? = some call ∧ record.answer.origin = .execution i ∧
      call.phase = .answered (record.answer.remap call.request.id)

theorem Moves.ne_executing (h : Moves key s i r p q) : q ≠ .executing := by
  intro hq
  cases h <;> cases hq

theorem Moves.not_done (h : Moves key s i r p q) : p.isDone = false := by
  cases h with
  | threw hholds =>
    cases p with
    | checking | leading | storing _ => rfl
    | arrived | executing | following _ | answered _ | failed => cases hholds
  | _ => rfl

theorem Moves.holds_or_done (h : Moves key s i r p q) (hp : p.holds = true) :
    q.holds = true ∨ q.isDone = true := by
  cases h with
  | found | led | followed | shared | sharedFailure => cases hp
  | began | succeeded => exact Or.inl rfl
  | reread | ended | stored | threw => exact Or.inr rfl

theorem Moves.executes (h : Moves key s i r p q) (hq : q.executes = true) :
    s.store key = none ∨ p.executes = true := by
  cases h with
  | began h => exact Or.inl h
  | succeeded => exact Or.inr rfl
  | found | led | followed | reread | ended | stored | shared | sharedFailure | threw => cases hq

namespace KeyStep

variable (h : KeyStep key s s' i r p q)

include h

theorem self : s'.calls[i]? = some ⟨r, q⟩ := by
  rw [h.calls]
  exact List.getElem?_set_self (List.getElem?_eq_some_iff.mp h.call).1

theorem of_ne {n : Nat} (hn : n ≠ i) : s'.calls[n]? = s.calls[n]? := by
  rw [h.calls]
  exact List.getElem?_set_ne hn.symm

theorem done {n : Nat} {call : Call V} (hcall : s.calls[n]? = some call)
    (hdone : call.phase.isDone = true) : s'.calls[n]? = some call := by
  have hn : n ≠ i := by
    intro hn
    rw [hn, h.call] at hcall
    rw [← Option.some.inj hcall, show Call.phase ⟨r, p⟩ = p from rfl, h.moves.not_done] at hdone
    cases hdone
  rw [h.of_ne hn]
  exact hcall

/-- What holds of the requests that stay and of the one that goes on holds of all. -/
theorem forall_calls {P : Nat → Call V → Prop}
    (hold : ∀ n call, n ≠ i → s.calls[n]? = some call → P n call) (hnew : P i ⟨r, q⟩) :
    ∀ n call, s'.calls[n]? = some call → P n call := by
  rw [h.calls]
  exact forall_set hold fun _ => hnew

end KeyStep

theorem KeyInv.holds_iff (h : KeyInv cfg key fingerprint s) {call : Call V} {n : Nat}
    (hcall : s.calls[n]? = some call) :
    call.phase.holds = true ↔ s.inFlightByKey key = some n := by
  constructor
  · exact h.holder n call hcall
  · intro hflight
    obtain ⟨other, hother, hholds⟩ := h.inFlight n hflight
    rw [hcall] at hother
    rw [Option.some.inj hother]
    exact hholds

theorem KeyInv.inFlight_step (h : KeyInv cfg key fingerprint s)
    (hstep : KeyStep key s s' i r p q) :
    s'.inFlightByKey key = if q.holds then some i else
      if p.holds then none else s.inFlightByKey key := by
  have hp : p.holds = true ↔ s.inFlightByKey key = some i := h.holds_iff hstep.call
  cases hq : q.holds with
  | true =>
    cases hph : p.holds with
    | true =>
      rw [hstep.kept (hph.trans hq.symm)]
      exact hp.mp hph
    | false => exact hstep.taken hph hq
  | false =>
    cases hph : p.holds with
    | true =>
      rw [hstep.freed hph hq, if_pos (hp.mp hph)]
      rfl
    | false => exact hstep.kept (hph.trans hq.symm)

theorem KeyInv.holder_step (h : KeyInv cfg key fingerprint s) (hstep : KeyStep key s s' i r p q) :
    ∀ (n : Nat) (call : Call V), s'.calls[n]? = some call → call.phase.holds = true →
      s'.inFlightByKey key = some n := by
  have hflight := h.inFlight_step hstep
  refine hstep.forall_calls ?_ ?_
  · intro n call hn hcall hholds
    have hother : s.inFlightByKey key = some n := h.holder n call hcall hholds
    have hp : p.holds = false := by
      by_contra hp
      have hi := h.holder i _ hstep.call (Bool.not_eq_false _ ▸ hp)
      rw [hother] at hi
      exact hn (Option.some.inj hi)
    have hq : q.holds = false := by
      cases hstep.moves with
      | led hnone =>
        rw [hother] at hnone
        cases hnone
      | began => cases hp
      | succeeded => cases hp
      | found | followed | reread | ended | stored | shared | sharedFailure | threw => rfl
    rw [hflight, hp, hq]
    exact hother
  · intro hq
    rw [hflight, show q.holds = true from hq]
    rfl

theorem KeyInv.held_step (h : KeyInv cfg key fingerprint s) (hstep : KeyStep key s s' i r p q) :
    ∀ n, s'.inFlightByKey key = some n →
      ∃ call, s'.calls[n]? = some call ∧ call.phase.holds = true := by
  intro n hn
  rw [h.inFlight_step hstep] at hn
  split at hn
  · rename_i hq
    rw [← Option.some.inj hn]
    exact ⟨_, hstep.self, hq⟩
  · split at hn
    · cases hn
    · rename_i hp
      obtain ⟨call, hcall, hholds⟩ := h.inFlight n hn
      have hne : n ≠ i := by
        intro he
        rw [he, hstep.call] at hcall
        rw [← Option.some.inj hcall] at hholds
        exact hp hholds
      exact ⟨call, by rw [hstep.of_ne hne]; exact hcall, hholds⟩

theorem Phase.holds_of_executes (h : p.executes = true) : p.holds = true := by
  cases p with
  | leading | storing _ => rfl
  | arrived | executing | checking | following _ | answered _ | failed => cases h

theorem KeyInv.executing_step (h : KeyInv cfg key fingerprint s)
    (hstep : KeyStep key s s' i r p q) :
    ∀ (n : Nat) (call : Call V), s'.calls[n]? = some call → call.phase.executes = true →
      s'.store key = none := by
  rcases hstep.store with hsame | ⟨a, hp, hq, -⟩
  · rw [hsame]
    refine hstep.forall_calls ?_ ?_
    · intro n call _ hcall
      exact h.executing n call hcall
    · intro hexecutes
      rcases hstep.moves.executes hexecutes with hnone | hp
      · exact hnone
      · exact h.executing i _ hstep.call hp
  · refine hstep.forall_calls ?_ ?_
    · intro n call hn hcall hexecutes
      have hother := h.holder n call hcall (Phase.holds_of_executes hexecutes)
      have hself := h.holder i _ hstep.call (by rw [hp]; rfl)
      rw [hother] at hself
      exact absurd (Option.some.inj hself) hn
    · intro hexecutes
      rw [hq] at hexecutes
      cases hexecutes

theorem KeyInv.storing_step (h : KeyInv cfg key fingerprint s)
    (hstep : KeyStep key s s' i r p q) :
    ∀ (n : Nat) (call : Call V) (a : Answer V), s'.calls[n]? = some call →
      call.phase = .storing a → a.origin = .execution n ∧ a.response.isSuccess = true := by
  suffices hall : ∀ (n : Nat) (call : Call V), s'.calls[n]? = some call → ∀ a,
      call.phase = .storing a → a.origin = .execution n ∧ a.response.isSuccess = true from
    fun n call a hcall => hall n call hcall a
  refine hstep.forall_calls ?_ ?_
  · intro n call _ hcall a
    exact h.storing n call a hcall
  · intro a hq
    replace hq : q = .storing a := hq
    cases hstep.moves with
    | succeeded horigin hsuccess =>
      rw [← Phase.storing.inj hq]
      exact ⟨horigin, hsuccess⟩
    | found | led | followed | reread | began | ended | stored | shared | sharedFailure | threw =>
      cases hq

theorem KeyInv.following_step (h : KeyInv cfg key fingerprint s)
    (hstep : KeyStep key s s' i r p q) :
    ∀ (n leader : Nat) (call : Call V), s'.calls[n]? = some call →
      call.phase = .following leader → ∃ other, s'.calls[leader]? = some other ∧
        (other.phase.holds = true ∨ other.phase.isDone = true) := by
  have hled : ∀ (leader : Nat) (other : Call V), s.calls[leader]? = some other →
      other.phase.holds = true ∨ other.phase.isDone = true →
      ∃ other, s'.calls[leader]? = some other ∧
        (other.phase.holds = true ∨ other.phase.isDone = true) := by
    intro leader other hother hphase
    by_cases hne : leader = i
    · rw [hne] at hother ⊢
      rw [hstep.call] at hother
      rw [← Option.some.inj hother] at hphase
      refine ⟨_, hstep.self, ?_⟩
      rcases hphase with hholds | hdone
      · exact hstep.moves.holds_or_done hholds
      · rw [show Call.phase ⟨r, p⟩ = p from rfl, hstep.moves.not_done] at hdone
        cases hdone
    · exact ⟨other, by rw [hstep.of_ne hne]; exact hother, hphase⟩
  suffices hall : ∀ (n : Nat) (call : Call V), s'.calls[n]? = some call → ∀ leader,
      call.phase = .following leader → ∃ other, s'.calls[leader]? = some other ∧
        (other.phase.holds = true ∨ other.phase.isDone = true) from
    fun n leader call hcall => hall n call hcall leader
  refine hstep.forall_calls ?_ ?_
  · intro n call _ hcall leader hphase
    obtain ⟨other, hother, hled'⟩ := h.following n leader call hcall hphase
    exact hled leader other hother hled'
  · intro leader hq
    replace hq : q = .following leader := hq
    cases hstep.moves with
    | followed hflight =>
      rw [← Phase.following.inj hq]
      obtain ⟨other, hother, hholds⟩ := h.inFlight _ hflight
      exact hled _ other hother (Or.inl hholds)
    | found | led | reread | began | succeeded | ended | stored | shared | sharedFailure | threw =>
      cases hq

theorem KeyInv.record_step (h : KeyInv cfg key fingerprint s)
    (hstep : KeyStep key s s' i r p q) :
    ∀ record, s'.store key = some record → record.answer.response.isSuccess = true ∧
      ∃ n call, s'.calls[n]? = some call ∧ record.answer.origin = .execution n ∧
        call.phase = .answered (record.answer.remap call.request.id) := by
  intro record hrecord
  rcases hstep.store with hsame | ⟨a, hp, hq, hwritten⟩
  · rw [hsame] at hrecord
    obtain ⟨hsuccess, n, call, hcall, horigin, hphase⟩ := h.record record hrecord
    exact ⟨hsuccess, n, call, hstep.done hcall (by rw [hphase]; rfl), horigin, hphase⟩
  · rw [hwritten] at hrecord
    obtain ⟨horigin, hsuccess⟩ := h.storing i _ a hstep.call hp
    rw [← Option.some.inj hrecord]
    exact ⟨hsuccess, i, _, hstep.self, horigin, hq⟩

theorem KeyInv.step (h : KeyInv cfg key fingerprint s) (hstep : KeyStep key s s' i r p q) :
    KeyInv cfg key fingerprint s' := by
  have hself := h.calls i _ hstep.call
  refine ⟨⟨?_, ?_⟩, h.holder_step hstep, h.held_step hstep, h.executing_step hstep,
    h.storing_step hstep, h.following_step hstep, h.record_step hstep⟩
  · refine hstep.forall_calls ?_ ?_
    · intro n call _ hcall
      exact h.calls n call hcall
    · exact ⟨hself.1, hself.2.1, hstep.moves.ne_executing⟩
  · intro record hrecord
    rcases hstep.store with hsame | ⟨a, -, -, hwritten⟩
    · rw [hsame] at hrecord
      exact h.stored record hrecord
    · rw [hwritten] at hrecord
      rw [← Option.some.inj hrecord]
      exact congrArg some hself.2.1

theorem KeyInv.arrive (h : KeyInv cfg key fingerprint s) (hkey : idempotentKey cfg r = some key)
    (hfingerprint : r.fingerprint = fingerprint) :
    KeyInv cfg key fingerprint { s with calls := s.calls ++ [{ request := r }] } := by
  have hnew : ∀ {P : Nat → Call V → Prop}, (∀ n call, s.calls[n]? = some call → P n call) →
      P s.calls.length { request := r } →
      ∀ n call, (s.calls ++ [{ request := r }])[n]? = some call → P n call :=
    fun hold hb => forall_concat hold hb
  refine ⟨⟨?_, h.stored⟩, ?_, ?_, ?_, ?_, ?_, ?_⟩
  · refine hnew (fun n call hcall => h.calls n call hcall) ⟨hkey, hfingerprint, ?_⟩
    intro hphase
    cases hphase
  · refine hnew (fun n call hcall => h.holder n call hcall) ?_
    intro hholds
    cases hholds
  · intro n hn
    obtain ⟨call, hcall, hholds⟩ := h.inFlight n hn
    exact ⟨call, getElem?_kept hcall, hholds⟩
  · refine hnew (fun n call hcall => h.executing n call hcall) ?_
    intro hexecutes
    cases hexecutes
  · intro n call a hcall hphase
    rcases getElem?_added hcall with hold | ⟨-, hcall⟩
    · exact h.storing n call a hold hphase
    · rw [hcall] at hphase
      cases hphase
  · intro n leader call hcall hphase
    rcases getElem?_added hcall with hold | ⟨-, hcall⟩
    · obtain ⟨other, hother, hled⟩ := h.following n leader call hold hphase
      exact ⟨other, getElem?_kept hother, hled⟩
    · rw [hcall] at hphase
      cases hphase
  · intro record hrecord
    obtain ⟨hsuccess, n, call, hcall, horigin, hphase⟩ := h.record record hrecord
    exact ⟨hsuccess, n, call, getElem?_kept hcall, horigin, hphase⟩

theorem KeyInv.forget (h : KeyInv cfg key fingerprint s) {store : String → Option (Record V)}
    (hstore : store key = s.store key ∨ store key = none) :
    KeyInv cfg key fingerprint { s with store := store } := by
  have hmem : ∀ record, store key = some record → s.store key = some record := by
    intro record hrecord
    rcases hstore with hsame | hnone
    · rw [← hsame]
      exact hrecord
    · rw [hnone] at hrecord
      cases hrecord
  refine ⟨⟨h.calls, ?_⟩, h.holder, h.inFlight, ?_, h.storing, h.following, ?_⟩
  · exact fun record hrecord => h.stored record (hmem record hrecord)
  · intro n call hcall hexecutes
    have hnone := h.executing n call hcall hexecutes
    rcases hstore with hsame | hnone'
    · exact hsame.trans hnone
    · exact hnone'
  · exact fun record hrecord => h.record record (hmem record hrecord)

/-! ## While a record lasts -/

/-- An answer that was there before, is that of the record, or is shared with a request that was
answered before. -/
def Shares (before : State V) (record : Record V) (n : Nat) (r : RpcRequest) (a : Answer V) :
    Prop :=
  before.calls[n]? = some ⟨r, .answered a⟩ ∨ a = record.answer.remap r.id ∨
    ∃ leader r' b, before.calls[n]? = some ⟨r, .following leader⟩ ∧
      before.calls[leader]? = some ⟨r', .answered b⟩ ∧ a = b.remap r.id

/-- What holds while the store has the record: nothing but the record and the answers that were
there before is given to a request. -/
structure Window (key : String) (before : State V) (record : Record V) (s : State V) : Prop where
  store : s.store key = some record
  done : ∀ (n : Nat) (call : Call V), before.calls[n]? = some call → call.phase.isDone = true →
    s.calls[n]? = some call
  answered : ∀ (n : Nat) (call : Call V), s.calls[n]? = some call → ∀ a,
    call.phase = .answered a → Shares before record n call.request a
  following : ∀ (n : Nat) (call : Call V), s.calls[n]? = some call → ∀ leader,
    call.phase = .following leader →
      (before.calls[n]? = some ⟨call.request, .following leader⟩ ∧
        ∃ r b, before.calls[leader]? = some ⟨r, .answered b⟩) ∨
      ∃ other, s.calls[leader]? = some other ∧ (other.phase = .checking ∨ other.phase = .failed ∨
        other.phase = .answered (record.answer.remap other.request.id))

theorem KeyInv.not_executes (h : KeyInv cfg key fingerprint s) {record : Record V}
    (hrecord : s.store key = some record) {n : Nat} {call : Call V}
    (hcall : s.calls[n]? = some call) : call.phase.executes = false := by
  by_contra hexecutes
  have hnone := h.executing n call hcall (Bool.not_eq_false _ ▸ hexecutes)
  rw [hrecord] at hnone
  cases hnone

theorem Phase.checking_of_holds (hholds : p.holds = true) (hexecutes : p.executes = false) :
    p = .checking := by
  cases p with
  | checking => rfl
  | leading | storing _ => cases hexecutes
  | arrived | executing | following _ | answered _ | failed => cases hholds

theorem Window.start (h : KeyInv cfg key fingerprint s) {record : Record V}
    (hrecord : s.store key = some record) : Window key s record s := by
  refine ⟨hrecord, fun n call hcall _ => hcall, ?_, ?_⟩
  · intro n call hcall a hphase
    left
    rw [hcall, ← hphase]
  · intro n call hcall leader hphase
    obtain ⟨other, hother, hled⟩ := h.following n leader call hcall hphase
    rcases hled with hholds | hdone
    · right
      exact ⟨other, hother,
        Or.inl (Phase.checking_of_holds hholds (h.not_executes hrecord hother))⟩
    · cases hphase' : other.phase with
      | answered b =>
        left
        refine ⟨?_, other.request, b, ?_⟩
        · rw [hcall, ← hphase]
        · rw [hother, ← hphase']
      | failed => exact Or.inr ⟨other, hother, Or.inr (Or.inl hphase')⟩
      | arrived | executing | checking | leading | storing _ | following _ =>
        rw [hphase'] at hdone
        cases hdone

variable {before : State V} {record : Record V}

theorem Window.not_executes (hw : Window key before record s) (h : KeyInv cfg key fingerprint s)
    (hstep : KeyStep key s s' i r p q) : p.executes = false :=
  h.not_executes hw.store hstep.call

theorem Window.checking_step (hw : Window key before record s)
    (hmoves : Moves key s i r .checking q) :
    q = .failed ∨ q = .answered (record.answer.remap r.id) := by
  cases hmoves with
  | reread hrecord =>
    rw [hw.store] at hrecord
    rw [← Option.some.inj hrecord]
    exact Or.inr rfl
  | began hnone =>
    rw [hw.store] at hnone
    cases hnone
  | threw => exact Or.inl rfl

theorem Window.answered_step (hw : Window key before record s) (h : KeyInv cfg key fingerprint s)
    (hstep : KeyStep key s s' i r p q) {a : Answer V} (hq : q = .answered a) :
    Shares before record i r a := by
  have hexecutes := hw.not_executes h hstep
  have hcall := hstep.call
  cases hstep.moves with
  | found hrecord | reread hrecord =>
    rw [hw.store] at hrecord
    rw [← Option.some.inj hrecord] at hq
    exact Or.inr (Or.inl (Phase.answered.inj hq).symm)
  | ended | stored => cases hexecutes
  | shared hleader =>
    rename_i leader r' b
    have ha : a = b.remap r.id := (Phase.answered.inj hq).symm
    rcases hw.following i _ hcall leader rfl with ⟨hbefore, r₀, b₀, hanswered⟩ | ⟨other, hother, hphase⟩
    · have hkept := hw.done leader _ hanswered rfl
      rw [hleader] at hkept
      have hb : b = b₀ := Phase.answered.inj (Call.mk.inj (Option.some.inj hkept)).2
      rw [hb] at ha
      exact Or.inr (Or.inr ⟨leader, r₀, b₀, hbefore, hanswered, ha⟩)
    · rw [hleader] at hother
      rw [← Option.some.inj hother] at hphase
      rcases hphase with hchecking | hfailed | hsame
      · cases hchecking
      · cases hfailed
      · rw [Phase.answered.inj hsame] at ha
        exact Or.inr (Or.inl ha)
  | led | followed | began | succeeded | sharedFailure | threw => cases hq

theorem Window.following_step (hw : Window key before record s) (h : KeyInv cfg key fingerprint s)
    (hstep : KeyStep key s s' i r p q) :
    ∀ (n : Nat) (call : Call V), s'.calls[n]? = some call → ∀ leader,
      call.phase = .following leader →
        (before.calls[n]? = some ⟨call.request, .following leader⟩ ∧
          ∃ r b, before.calls[leader]? = some ⟨r, .answered b⟩) ∨
        ∃ other, s'.calls[leader]? = some other ∧ (other.phase = .checking ∨
          other.phase = .failed ∨
          other.phase = .answered (record.answer.remap other.request.id)) := by
  refine hstep.forall_calls ?_ ?_
  · intro n call _ hcall leader hphase
    rcases hw.following n call hcall leader hphase with hbefore | ⟨other, hother, hled⟩
    · exact Or.inl hbefore
    · right
      by_cases hne : leader = i
      · rw [hne] at hother ⊢
        rw [hstep.call] at hother
        rw [← Option.some.inj hother] at hled
        have hmoves := hstep.moves
        refine ⟨_, hstep.self, Or.inr ?_⟩
        rcases hled with hchecking | hfailed | hsame
        · rw [show p = .checking from hchecking] at hmoves
          exact hw.checking_step hmoves
        · have hdone := hmoves.not_done
          rw [show p = .failed from hfailed] at hdone
          cases hdone
        · have hdone := hmoves.not_done
          rw [show p = .answered _ from hsame] at hdone
          cases hdone
      · exact ⟨other, by rw [hstep.of_ne hne]; exact hother, hled⟩
  · intro leader hq
    replace hq : q = .following leader := hq
    right
    have hcall := hstep.call
    cases hstep.moves with
    | followed hflight =>
      rw [← Phase.following.inj hq]
      obtain ⟨other, hother, hholds⟩ := h.inFlight _ hflight
      have hne : ∀ leader, s.calls[leader]? = some other → leader ≠ i := by
        intro leader hleader he
        rw [he, hcall] at hleader
        rw [← Option.some.inj hleader] at hholds
        cases hholds
      refine ⟨other, by rw [hstep.of_ne (hne _ hother)]; exact hother, Or.inl ?_⟩
      exact Phase.checking_of_holds hholds (h.not_executes hw.store hother)
    | found | led | reread | began | succeeded | ended | stored | shared | sharedFailure | threw =>
      cases hq

theorem Window.step (hw : Window key before record s) (h : KeyInv cfg key fingerprint s)
    (hstep : KeyStep key s s' i r p q) : Window key before record s' := by
  refine ⟨?_, ?_, ?_, hw.following_step h hstep⟩
  · rcases hstep.store with hsame | ⟨a, hp, -, -⟩
    · exact hsame.trans hw.store
    · have hexecutes := hw.not_executes h hstep
      rw [hp] at hexecutes
      cases hexecutes
  · intro n call hcall hdone
    exact hstep.done (hw.done n call hcall hdone) hdone
  · refine hstep.forall_calls ?_ ?_
    · intro n call _ hcall
      exact hw.answered n call hcall
    · intro a hq
      exact hw.answered_step h hstep hq

theorem Window.arrive (hw : Window key before record s) :
    Window key before record { s with calls := s.calls ++ [{ request := r }] } := by
  refine ⟨hw.store, ?_, ?_, ?_⟩
  · intro n call hcall hdone
    exact getElem?_kept (hw.done n call hcall hdone)
  · refine forall_concat (fun n call hcall => hw.answered n call hcall) ?_
    intro a hphase
    cases hphase
  · refine forall_concat ?_ ?_
    · intro n call hcall leader hphase
      rcases hw.following n call hcall leader hphase with hbefore | ⟨other, hother, hled⟩
      · exact Or.inl hbefore
      · exact Or.inr ⟨other, getElem?_kept hother, hled⟩
    · intro leader hphase
      cases hphase

end Steps

/-! ## Runs -/

section Runs

variable {cfg : Config} {ttl : String → Nat} {key fingerprint : String} {s s' : TimedState V}

theorem TimedState.fresh_store (h : s.now ≤ s.expiresAt key) : s.fresh.store key = s.state.store key :=
  if_neg (Nat.not_lt.mpr h)

theorem TimedState.of_fresh_store {record : Record V} (h : s.fresh.store key = some record) :
    s.now ≤ s.expiresAt key ∧ s.state.store key = some record := by
  rw [fresh] at h
  dsimp only at h
  split at h
  · cases h
  · rename_i hnow
    exact ⟨Nat.not_lt.mp hnow, h⟩

theorem KeyInv.fresh (h : KeyInv cfg key fingerprint s.state) : KeyInv cfg key fingerprint s.fresh := by
  apply h.forget
  by_cases hnow : s.expiresAt key < s.now
  · exact Or.inr (if_pos hnow)
  · exact Or.inl (if_neg hnow)

theorem TimedState.step_event {e : Event V} (harrive : ∀ r, e ≠ .arrive r)
    (hevict : ∀ k, e ≠ .evict k) :
    s.step cfg ttl key fingerprint (.event e) = (s.fresh.step cfg e).map fun state =>
      { s with state := state, expiresAt := s.expiresAfter ttl key e } := by
  cases e with
  | arrive r => exact absurd rfl (harrive r)
  | evict k => exact absurd rfl (hevict k)
  | prefetch | enter | lookup | execute | store | follow | throw => rfl

theorem KeyInv.expiresAfter_eq (h : KeyInv cfg key fingerprint s.state) {e : Event V}
    {state : State V} (hstep : s.fresh.step cfg e = some state)
    (hrecord : s.fresh.store key ≠ none) : s.expiresAfter ttl key e = s.expiresAt := by
  cases e with
  | store i =>
    simp only [State.step] at hstep
    split at hstep
    · rename_i r a hcall
      exact absurd (h.fresh.executing i _ hcall rfl) hrecord
    · cases hstep
  | arrive | prefetch | enter | lookup | execute | follow | throw | evict => rfl

/-- What an action does: time passes, a request arrives, nothing happens, or a request goes on. -/
theorem KeyInv.timed_cases (h : KeyInv cfg key fingerprint s.state) {e : TimedEvent V}
    (hstep : (keyMachine V cfg ttl key fingerprint).step s e = some s') :
    (∃ duration, s' = { s with now := s.now + duration }) ∨
      s'.now = s.now ∧ (s.fresh.store key ≠ none → s'.expiresAt = s.expiresAt) ∧
        ((∃ r, idempotentKey cfg r = some key ∧ r.fingerprint = fingerprint ∧
          s'.state = { s.fresh with calls := s.fresh.calls ++ [{ request := r }] }) ∨
        s'.state = s.fresh ∨ ∃ i r p q, KeyStep key s.fresh s'.state i r p q) := by
  replace hstep : s.step cfg ttl key fingerprint e = some s' := hstep
  cases e with
  | pass duration => exact Or.inl ⟨duration, (Option.some.inj hstep).symm⟩
  | event e =>
    right
    by_cases harrive : ∃ r, e = .arrive r
    · obtain ⟨r, hr⟩ := harrive
      rw [hr, TimedState.step] at hstep
      split at hstep
      · rename_i hof
        rw [← Option.some.inj hstep]
        exact ⟨rfl, fun _ => rfl, Or.inl ⟨r, hof.1, hof.2, rfl⟩⟩
      · cases hstep
    · by_cases hevict : ∃ k, e = .evict k
      · obtain ⟨k, hk⟩ := hevict
        rw [hk] at hstep
        cases hstep
      · have harrive : ∀ r, e ≠ .arrive r := fun r hr => harrive ⟨r, hr⟩
        have hevict : ∀ k, e ≠ .evict k := fun k hk => hevict ⟨k, hk⟩
        rw [TimedState.step_event harrive hevict, Option.map_eq_some_iff] at hstep
        obtain ⟨state, hstate, hresult⟩ := hstep
        rw [← hresult]
        refine ⟨rfl, fun hrecord => h.expiresAfter_eq hstate hrecord, Or.inr ?_⟩
        exact h.fresh.toOfKey.step_cases harrive hevict hstate

theorem KeyInv.timed_step (h : KeyInv cfg key fingerprint s.state) {e : TimedEvent V}
    (hstep : (keyMachine V cfg ttl key fingerprint).step s e = some s') :
    KeyInv cfg key fingerprint s'.state := by
  rcases h.timed_cases hstep with ⟨duration, hs⟩ | ⟨-, -, hcases⟩
  · rw [hs]
    exact h
  · rcases hcases with ⟨r, hkey, hfingerprint, hs⟩ | hs | ⟨i, r, p, q, hs⟩
    · rw [hs]
      exact h.fresh.arrive hkey hfingerprint
    · rw [hs]
      exact h.fresh
    · exact h.fresh.step hs

theorem keyInv_of_reachable (h : (keyMachine V cfg ttl key fingerprint).Reachable s) :
    KeyInv cfg key fingerprint s.state := by
  refine Machine.Reach.invariant (I := fun s => KeyInv cfg key fingerprint s.state) ?_ ?_ h
  · intro s hstart
    rw [hstart]
    have hnone : ∀ (n : Nat) (call : Call V), ([] : List (Call V))[n]? ≠ some call := by simp
    exact ⟨⟨fun n call hcall => absurd hcall (hnone n call), fun record hrecord => by cases hrecord⟩,
      fun n call hcall => absurd hcall (hnone n call), fun n hn => (by cases hn),
      fun n call hcall => absurd hcall (hnone n call),
      fun n call a hcall => absurd hcall (hnone n call),
      fun n leader call hcall => absurd hcall (hnone n call), fun record hrecord => by cases hrecord⟩
  · intro s e s' hs _ hstep
    exact hs.timed_step hstep

theorem Window.of_leads (h : KeyInv cfg key fingerprint s.state) {record : Record V}
    (hrecord : s.fresh.store key = some record)
    (hleads : (keyMachine V cfg ttl key fingerprint).Leads s s') :
    KeyInv cfg key fingerprint s'.state ∧
      (s'.now ≤ s.expiresAt key →
        s'.expiresAt key = s.expiresAt key ∧ Window key s.state record s'.state) := by
  induction hleads with
  | refl => exact ⟨h, fun _ => ⟨rfl, .start h (TimedState.of_fresh_store hrecord).2⟩⟩
  | step hleads hstep ih =>
    rename_i t u e
    obtain ⟨hinv, hwindow⟩ := ih
    refine ⟨hinv.timed_step hstep, ?_⟩
    intro hnow
    rcases hinv.timed_cases hstep with ⟨duration, hs⟩ | ⟨hsame, hexpires, hcases⟩
    · have hbefore : t.now ≤ s.expiresAt key := by
        rw [hs] at hnow
        exact (Nat.le_add_right _ _).trans hnow
      rw [hs]
      exact hwindow hbefore
    · rw [hsame] at hnow
      obtain ⟨hends, hw⟩ := hwindow hnow
      have hstore : t.fresh.store key = some record := by
        rw [TimedState.fresh_store (hends.symm ▸ hnow)]
        exact hw.store
      have hfresh : Window key s.state record t.fresh := ⟨hstore, hw.done, hw.answered, hw.following⟩
      refine ⟨?_, ?_⟩
      · rw [hexpires (by simp [hstore]), hends]
      · rcases hcases with ⟨r, -, -, hs⟩ | hs | ⟨i, r, p, q, hs⟩
        · rw [hs]
          exact hfresh.arrive
        · rw [hs]
          exact hfresh
        · exact hfresh.step hinv.fresh hs

/-- In every state that is reached by requests of one key and one fingerprint: at most one of them
is in flight; a record is a success, that of a request that was answered with it; and from there
on, until the record ends, it stays, nothing executes, and every answer is that of the record, or
was there before, or is shared with a request that was answered before. -/
theorem one_effect (h : (keyMachine V cfg ttl key fingerprint).Reachable s) :
    (∀ (i j : Nat) (a b : Call V), s.state.calls[i]? = some a → s.state.calls[j]? = some b →
      a.phase.holds = true → b.phase.holds = true → i = j) ∧
    ∀ record, s.fresh.store key = some record →
      record.answer.response.isSuccess = true ∧
      (∃ (i : Nat) (call : Call V), s.state.calls[i]? = some call ∧
        record.answer.origin = .execution i ∧
        call.phase = .answered (record.answer.remap call.request.id)) ∧
      ∀ s', (keyMachine V cfg ttl key fingerprint).Leads s s' → s'.now ≤ s.expiresAt key →
        s'.fresh.store key = some record ∧
        (∀ (i : Nat) (call : Call V), s'.state.calls[i]? = some call →
          call.phase.executes = false) ∧
        ∀ (i : Nat) (call : Call V) (a : Answer V), s'.state.calls[i]? = some call →
          call.phase = .answered a → Shares s.state record i call.request a := by
  have hinv := keyInv_of_reachable h
  constructor
  · intro i j a b ha hb hholdsA hholdsB
    have hi := hinv.holder i a ha hholdsA
    rw [hinv.holder j b hb hholdsB] at hi
    exact (Option.some.inj hi).symm
  · intro record hrecord
    have hstored := (TimedState.of_fresh_store hrecord).2
    obtain ⟨hsuccess, hsource⟩ := hinv.record record hstored
    refine ⟨hsuccess, hsource, ?_⟩
    intro s' hleads hnow
    obtain ⟨hinv', hwindow⟩ := Window.of_leads hinv hrecord hleads
    obtain ⟨hends, hw⟩ := hwindow hnow
    refine ⟨?_, ?_, ?_⟩
    · rw [TimedState.fresh_store (hends.symm ▸ hnow)]
      exact hw.store
    · exact fun i call hcall => hinv'.not_executes hw.store hcall
    · exact fun i call a hcall hphase => hw.answered i call hcall a hphase

end Runs

/-- A request with the key, under an id of its own. -/
def retried (id : String) : RpcRequest := ⟨some id, "sql.execute", some "k", "A"⟩

/-- The response of an execution. -/
def effected : RpcResponse Empty where
  id := some "1"
  result := some (.int 1)

/-- The requests of the key, with a lifetime of a second. -/
def retries : Machine (TimedState Empty) (TimedEvent Empty) :=
  keyMachine Empty ⟨true, true⟩ (fun _ => 1000000) "sql.execute:k" "A"

/-- The state after some events, the start if one of them was not enabled. -/
def afterRetries (events : List (Event Empty)) : TimedState Empty :=
  (retries.run {} (events.map .event)).getD {}

/-- The second request follows the first one, and a third one comes while the record lasts. -/
theorem one_effect_retried :
    let s := afterRetries [.arrive (retried "1"), .enter 0, .arrive (retried "2"), .enter 1,
      .lookup 0, .execute 0 effected, .store 0]
    ∃ s' record, s.fresh.store "sql.execute:k" = some record ∧ retries.Leads s s' ∧
      s'.state.calls.length = 3 ∧ s'.now ≤ s.expiresAt "sql.execute:k" ∧
      ∀ (i : Nat) (call : Call Empty) (a : Answer Empty), s'.state.calls[i]? = some call →
        call.phase = .answered a → Shares s.state record i call.request a := by
  intro s
  have hrun : retries.run {} (List.map TimedEvent.event [.arrive (retried "1"), .enter 0,
      .arrive (retried "2"), .enter 1, .lookup 0, .execute 0 effected, .store 0]) = some s := rfl
  have hreachable : retries.Reachable s := Machine.reachable_of_run rfl hrun
  have hrecord : s.fresh.store "sql.execute:k" =
      some ⟨⟨effected, .execution 0⟩, some "A"⟩ := rfl
  obtain ⟨t, ht⟩ : ∃ t, retries.step s (.event (.arrive (retried "3"))) = some t := ⟨_, rfl⟩
  obtain ⟨u, hu⟩ : ∃ u, retries.step t (.event (.prefetch 2)) = some u := by
    rw [← Option.some.inj ht]
    exact ⟨_, rfl⟩
  have hleads : retries.Leads s u := .step (.step .refl ht) hu
  have hlength : u.state.calls.length = 3 := by
    rw [← Option.some.inj ht] at hu
    rw [← Option.some.inj hu]
    rfl
  have hnow : u.now ≤ s.expiresAt "sql.execute:k" := by
    rw [← Option.some.inj ht] at hu
    rw [← Option.some.inj hu]
    decide
  exact ⟨u, _, hrecord, hleads, hlength, hnow,
    (((one_effect hreachable).2 _ hrecord).2.2 u hleads hnow).2.2⟩

end PlugAgente.Idempotency
