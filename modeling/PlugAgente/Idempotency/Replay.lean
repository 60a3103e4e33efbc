import PlugAgente.Idempotency.Orchestrator

/-!
# Replay and fingerprints

An answer that a request gets from the store was checked against its fingerprint,
and so was the answer of a leader that found it there.  The answer of a leader in
flight is handed to whoever asks for the same key, with no check:
`follower_gets_foreign_response` is such a run.  `replay_keeps_fingerprint` says
that this is the only way for an answer to cross.
-/

namespace PlugAgente.Idempotency

open PlugAgente.Ledger

variable {V : Type} {cfg : Config} {s s' : State V} {i : Nat}

namespace State

/-- The fingerprint of a request by its number. -/
def fingerprintAt (s : State V) (j : Nat) : Option String :=
  (s.calls[j]?).map (·.request.fingerprint)

end State

open State

/-- No request follows a leader with another fingerprint. -/
def FollowsOwn (cfg : Config) (s : State V) : Event V → Prop
  | .enter i =>
    ∀ call key leader, s.calls[i]? = some call → idempotentKey cfg call.request = some key →
      s.inFlightByKey key = some leader →
      s.fingerprintAt leader = some call.request.fingerprint
  | _ => True

/-! ## The invariant -/

/-- The request an answer comes from has the given fingerprint. -/
def Fits (fingerprints : Nat → Option String) (fingerprint : String) (a : Answer V) : Prop :=
  match a.origin with
  | .execution j | .conflict j => fingerprints j = some fingerprint

/-- What holds of a request in a phase. -/
def PhaseInv (fingerprints : Nat → Option String) (i : Nat) (r : RpcRequest) : Phase V → Prop
  | .storing a => a.origin = .execution i
  | .following leader => fingerprints leader = some r.fingerprint
  | .answered a => Fits fingerprints r.fingerprint a
  | _ => True

/-- Every record and every request agree with the fingerprints. -/
structure Inv (s : State V) : Prop where
  stored : ∀ key record, s.store key = some record →
    ∃ fingerprint j, record.requestFingerprint = some fingerprint ∧
      record.answer.origin = .execution j ∧ s.fingerprintAt j = some fingerprint
  calls : ∀ (i : Nat) (call : Call V), s.calls[i]? = some call →
    PhaseInv s.fingerprintAt i call.request call.phase

theorem fingerprintAt_set {call : Call V} (hcall : s.calls[i]? = some call) (phase : Phase V)
    (h : s'.calls = s.calls.set i { call with phase := phase }) :
    s'.fingerprintAt = s.fingerprintAt := by
  funext j
  rw [fingerprintAt, fingerprintAt, h]
  by_cases hj : j = i
  · subst hj
    rw [List.getElem?_set_self (List.getElem?_eq_some_iff.mp hcall).1, hcall]
    rfl
  · rw [List.getElem?_set_ne (fun he => hj he.symm)]

theorem Inv.moveAndStore (h : Inv s) {call : Call V} (hcall : s.calls[i]? = some call)
    {phase : Phase V} (hphase : PhaseInv s.fingerprintAt i call.request phase)
    (hcalls : s'.calls = s.calls.set i { call with phase := phase })
    (hstore : ∀ key record, s'.store key = some record → s.store key = some record ∨
      ∃ fingerprint j, record.requestFingerprint = some fingerprint ∧
        record.answer.origin = .execution j ∧ s.fingerprintAt j = some fingerprint) : Inv s' := by
  have hfingerprints := fingerprintAt_set hcall phase hcalls
  constructor
  · intro key record hrecord
    rw [hfingerprints]
    rcases hstore key record hrecord with hold | hnew
    · exact h.stored key record hold
    · exact hnew
  · rw [hcalls, hfingerprints]
    apply forall_set
    · intro n a _ ha
      exact h.calls n a ha
    · intro _
      exact hphase

theorem Inv.move (h : Inv s) {call : Call V} (hcall : s.calls[i]? = some call) (phase : Phase V)
    (hphase : PhaseInv s.fingerprintAt i call.request phase)
    (hcalls : s'.calls = s.calls.set i { call with phase := phase })
    (hstore : s'.store = s.store) : Inv s' := by
  refine h.moveAndStore hcall hphase hcalls ?_
  intro key record hrecord
  rw [hstore] at hrecord
  exact Or.inl hrecord

theorem Inv.fits_consumeIdempotentCacheIfAny (h : Inv s) {r : RpcRequest} {phase : Phase V}
    (hcall : s.calls[i]? = some ⟨r, phase⟩) {a : Answer V}
    (hfound : s.consumeIdempotentCacheIfAny cfg i r = some a) :
    Fits s.fingerprintAt r.fingerprint a := by
  have hself : s.fingerprintAt i = some r.fingerprint := by
    rw [fingerprintAt, hcall]
    rfl
  unfold consumeIdempotentCacheIfAny at hfound
  split at hfound
  · cases hfound
  · rename_i key _
    cases hrecord : s.store key with
    | none => simp [hrecord, consumeRecord] at hfound
    | some record =>
      obtain ⟨fingerprint, j, hfingerprint, horigin, hj⟩ := h.stored key record hrecord
      rw [hrecord, consumeRecord, hfingerprint] at hfound
      dsimp only at hfound
      split at hfound
      · cases hfound
        exact hself
      · rename_i heq
        cases hfound
        rw [Fits, horigin]
        dsimp only
        rw [hj, not_not.mp heq]

theorem phaseInv_answered {r : RpcRequest} {a : Answer V} {fingerprints : Nat → Option String}
    (h : Fits fingerprints r.fingerprint a) (id : Option String) :
    PhaseInv fingerprints i r
      (.answered { a with response := remapResponseId a.response id }) :=
  h

theorem Inv.finish (h : Inv s) {call : Call V} (hcall : s.calls[i]? = some call) {a : Answer V}
    (hfits : Fits s.fingerprintAt call.request.fingerprint a) : Inv (s.finish cfg i call a) := by
  unfold State.finish
  split
  · exact h.move hcall _ (phaseInv_answered hfits _) rfl rfl
  · exact h.move hcall _ (phaseInv_answered hfits _) rfl rfl

/-! ## One event -/

theorem Inv.arrive (h : Inv s) {request : RpcRequest}
    (hstep : s.step cfg (.arrive request) = some s') : Inv s' := by
  cases hstep
  have hkept : ∀ j fingerprint, s.fingerprintAt j = some fingerprint →
      State.fingerprintAt { s with calls := s.calls ++ [{ request := request }] } j =
        some fingerprint := by
    intro j fingerprint hj
    rw [fingerprintAt, Option.map_eq_some_iff] at hj
    obtain ⟨c, hc, hf⟩ := hj
    rw [fingerprintAt, List.getElem?_append_left (List.getElem?_eq_some_iff.mp hc).1, hc]
    simp [hf]
  constructor
  · intro key record hrecord
    obtain ⟨fingerprint, j, hfingerprint, horigin, hj⟩ := h.stored key record hrecord
    exact ⟨fingerprint, j, hfingerprint, horigin, hkept j fingerprint hj⟩
  · apply forall_concat
    · intro n call hcall
      have hphase := h.calls n call hcall
      cases hp : call.phase with
      | storing a => rw [hp] at hphase; exact hphase
      | following leader => rw [hp] at hphase; exact hkept _ _ hphase
      | answered a =>
        rw [hp] at hphase
        simp only [PhaseInv, Fits] at hphase ⊢
        cases ho : a.origin with
        | execution j => rw [ho] at hphase; exact hkept j _ hphase
        | conflict j => rw [ho] at hphase; exact hkept j _ hphase
      | arrived | executing | checking | leading | failed => exact trivial
    · exact trivial

theorem Inv.prefetch (h : Inv s) (hstep : s.step cfg (.prefetch i) = some s') : Inv s' := by
  simp only [State.step] at hstep
  split at hstep
  · rename_i r hcall
    split at hstep
    · rename_i a hfound
      cases hstep
      have hfits := h.fits_consumeIdempotentCacheIfAny hcall hfound
      exact h.move hcall _ (phaseInv_answered hfits _) rfl rfl
    · cases hstep
      exact h
  · cases hstep

theorem Inv.enter (h : Inv s) (hguard : FollowsOwn cfg s (.enter i))
    (hstep : s.step cfg (.enter i) = some s') : Inv s' := by
  simp only [State.step] at hstep
  split at hstep
  · rename_i r hcall
    cases hstep
    unfold State.enter
    split
    · exact h.move hcall .executing trivial rfl rfl
    · rename_i key hkey
      split
      · rename_i leader hleader
        refine h.move hcall _ ?_ rfl rfl
        exact hguard _ key leader hcall hkey hleader
      · exact h.move hcall .checking trivial rfl rfl
  · cases hstep

theorem Inv.lookup (h : Inv s) (hstep : s.step cfg (.lookup i) = some s') : Inv s' := by
  simp only [State.step] at hstep
  split at hstep
  · rename_i r hcall
    split at hstep
    · rename_i a hfound
      cases hstep
      exact h.finish hcall (h.fits_consumeIdempotentCacheIfAny hcall hfound)
    · cases hstep
      exact h.move hcall .leading trivial rfl rfl
  · cases hstep

theorem Inv.execute (h : Inv s) {response : RpcResponse V}
    (hstep : s.step cfg (.execute i response) = some s') : Inv s' := by
  simp only [State.step] at hstep
  split at hstep
  · rename_i r hcall
    cases hstep
    refine h.move hcall _ ?_ rfl rfl
    show s.fingerprintAt i = some r.fingerprint
    rw [fingerprintAt, hcall]
    rfl
  · rename_i r hcall
    split at hstep
    · cases hstep
      refine h.move hcall _ ?_ rfl rfl
      exact rfl
    · cases hstep
      apply h.finish hcall
      show s.fingerprintAt i = some r.fingerprint
      rw [fingerprintAt, hcall]
      rfl
  · cases hstep

theorem Inv.store (h : Inv s) (hstep : s.step cfg (.store i) = some s') : Inv s' := by
  simp only [State.step] at hstep
  split at hstep
  · rename_i r a hcall
    cases hstep
    have horigin : a.origin = .execution i := h.calls i _ hcall
    have hself : s.fingerprintAt i = some r.fingerprint := by
      rw [fingerprintAt, hcall]
      rfl
    have hfits : Fits s.fingerprintAt r.fingerprint a := by
      rw [Fits, horigin]
      exact hself
    -- Both the store and the request change; the record is the request's own.
    have hmoved : Inv ((s.storeAnswer cfg ⟨r, .storing a⟩ a).answer i ⟨r, .storing a⟩ a) := by
      refine h.moveAndStore hcall (phaseInv_answered hfits r.id) ?_ ?_
      · rw [State.storeAnswer]
        split <;> rfl
      · intro key record hrecord
        rw [State.storeAnswer] at hrecord
        split at hrecord
        · exact Or.inl hrecord
        · simp only [State.answer, State.setPhase] at hrecord
          split at hrecord
          · cases hrecord
            exact Or.inr ⟨r.fingerprint, i, rfl, horigin, hself⟩
          · exact Or.inl hrecord
    unfold State.finish
    split
    · exact hmoved
    · exact ⟨hmoved.stored, hmoved.calls⟩
  · cases hstep

theorem Inv.follow (h : Inv s) (hstep : s.step cfg (.follow i) = some s') : Inv s' := by
  simp only [State.step] at hstep
  split at hstep
  · rename_i r leader hcall
    have hleader : s.fingerprintAt leader = some r.fingerprint := h.calls i _ hcall
    split at hstep
    · rename_i r' a hanswered
      cases hstep
      have hr' : r'.fingerprint = r.fingerprint := by
        rw [fingerprintAt, hanswered] at hleader
        simpa using hleader
      have hfits : Fits s.fingerprintAt r.fingerprint a := by
        rw [← hr']
        exact h.calls leader _ hanswered
      exact h.move hcall _ (phaseInv_answered hfits _) rfl rfl
    · cases hstep
      exact h.move hcall .failed trivial rfl rfl
    · cases hstep
  · cases hstep

theorem Inv.throw (h : Inv s) (hstep : s.step cfg (.throw i) = some s') : Inv s' := by
  simp only [State.step] at hstep
  split at hstep
  · rename_i hcall
    cases hstep
    exact h.move hcall .failed trivial rfl rfl
  · rename_i hcall
    cases hstep
    exact h.move hcall .failed trivial rfl rfl
  · rename_i hcall
    cases hstep
    exact h.move hcall .failed trivial rfl rfl
  · rename_i hcall
    cases hstep
    exact h.move hcall .failed trivial rfl rfl
  · cases hstep

theorem Inv.evict (h : Inv s) {key : String} (hstep : s.step cfg (.evict key) = some s') :
    Inv s' := by
  cases hstep
  constructor
  · intro k record hrecord
    dsimp only at hrecord
    split at hrecord
    · cases hrecord
    · exact h.stored k record hrecord
  · exact h.calls

theorem Inv.step (h : Inv s) {event : Event V} (hguard : FollowsOwn cfg s event)
    (hstep : s.step cfg event = some s') : Inv s' := by
  cases event with
  | arrive _ => exact h.arrive hstep
  | prefetch _ => exact h.prefetch hstep
  | enter _ => exact h.enter hguard hstep
  | lookup _ => exact h.lookup hstep
  | execute _ _ => exact h.execute hstep
  | store _ => exact h.store hstep
  | follow _ => exact h.follow hstep
  | throw _ => exact h.throw hstep
  | evict _ => exact h.evict hstep

theorem inv_of_reach (h : (machine V cfg).Reach (FollowsOwn cfg) s) : Inv s := by
  refine h.invariant ?_ ?_
  · rintro s rfl
    constructor
    · intro key record hrecord
      cases hrecord
    · intro i call hcall
      simp at hcall
  · intro s event s' hs hguard hstep
    exact hs.step hguard hstep

/-! ## The result -/

theorem Inv.conflict (h : Inv s) {r : RpcRequest} {key : String}
    (hkey : idempotentKey cfg r = some key) {record : Record V} (hrecord : s.store key = some record)
    (hother : record.requestFingerprint ≠ some r.fingerprint) :
    s.consumeIdempotentCacheIfAny cfg i r =
      some ⟨conflictResponse r (r.idempotencyKey.getD ""), .conflict i⟩ := by
  obtain ⟨fingerprint, j, hfingerprint, -, -⟩ := h.stored key record hrecord
  unfold consumeIdempotentCacheIfAny
  rw [hkey]
  dsimp only
  rw [hrecord, consumeRecord, hfingerprint]
  dsimp only
  rw [if_pos]
  intro heq
  exact hother (by rw [hfingerprint, heq])

/-- In every run in which no request enters while a leader with another fingerprint
is in flight under its key: an answer that comes from an execution comes from a
request with the same fingerprint, and a request that finds a record with another
fingerprint under its key is answered with a conflict, before it enters and under
the lock. -/
theorem replay_keeps_fingerprint (h : (machine V cfg).Reach (FollowsOwn cfg) s) :
    (∀ (i : Nat) (call : Call V) (a : Answer V) (j : Nat), s.calls[i]? = some call →
        call.phase = .answered a → a.origin = .execution j →
        s.fingerprintAt j = some call.request.fingerprint) ∧
      ∀ (i : Nat) (r : RpcRequest) (key : String) (record : Record V),
        idempotentKey cfg r = some key → s.store key = some record →
        record.requestFingerprint ≠ some r.fingerprint →
        (s.calls[i]? = some ⟨r, .arrived⟩ →
          ∃ s', s.step cfg (.prefetch i) = some s' ∧
            s'.calls[i]? = some ⟨r, .answered ⟨remapResponseId
              (conflictResponse r (r.idempotencyKey.getD "")) r.id, .conflict i⟩⟩) ∧
        (s.calls[i]? = some ⟨r, .checking⟩ →
          ∃ s', s.step cfg (.lookup i) = some s' ∧
            s'.calls[i]? = some ⟨r, .answered ⟨remapResponseId
              (conflictResponse r (r.idempotencyKey.getD "")) r.id, .conflict i⟩⟩) := by
  have hinv := inv_of_reach h
  constructor
  · intro i call a j hcall hphase horigin
    have hcallInv := hinv.calls i call hcall
    rw [hphase] at hcallInv
    simp only [PhaseInv, Fits, horigin] at hcallInv
    exact hcallInv
  · intro i r key record hkey hrecord hother
    have hconflict := hinv.conflict (i := i) hkey hrecord hother
    constructor
    · intro hcall
      have hlt := (List.getElem?_eq_some_iff.mp hcall).1
      refine ⟨s.answer i ⟨r, .arrived⟩ _, by simp only [State.step, hcall, hconflict]; rfl, ?_⟩
      exact List.getElem?_set_self hlt
    · intro hcall
      have hlt := (List.getElem?_eq_some_iff.mp hcall).1
      refine ⟨s.finish cfg i ⟨r, .checking⟩ _,
        by simp only [State.step, hcall, hconflict]; rfl, ?_⟩
      rw [State.finish]
      dsimp only
      rw [hkey]
      exact List.getElem?_set_self hlt

/-- Two requests with one key. -/
def first : RpcRequest := ⟨some "1", "sql.execute", some "k", "A"⟩

def second : RpcRequest := ⟨some "2", "sql.execute", some "k", "B"⟩

def enabled : Config := ⟨true, true⟩

/-- The response of an execution. -/
def done : RpcResponse Empty where
  id := some "1"
  result := some (.map [("rows_affected", .int 1)])

/-- The state after some events, the start if one of them was not enabled. -/
def after (events : List (Event Empty)) : State Empty :=
  ((machine Empty enabled).run {} events).getD {}

/-- The second request comes after the first one has stored its response, and is
told of the conflict. -/
theorem replay_keeps_fingerprint_conflict :
    let s := after [.arrive first, .enter 0, .lookup 0, .execute 0 done, .store 0, .arrive second]
    ∃ s', s.step enabled (.prefetch 1) = some s' ∧
      s'.calls[1]? = some ⟨second, .answered ⟨remapResponseId
        (conflictResponse second "k") (some "2"), .conflict 1⟩⟩ := by
  intro s
  have hreach : (machine Empty enabled).Reach (FollowsOwn enabled) s := by
    refine .step (a := .arrive second) (.step (a := .store 0) (.step (a := .execute 0 done)
      (.step (a := .lookup 0) (.step (a := .enter 0) (.step (a := .arrive first) (.start rfl)
      trivial rfl) ?_ rfl) trivial rfl) trivial rfl) trivial rfl) trivial rfl
    intro call key leader _ _ hleader
    cases hleader
  exact ((replay_keeps_fingerprint hreach).2 1 second "sql.execute:k"
    ⟨⟨sanitizeRpcResponse done, .execution 0⟩, some "A"⟩ (by decide) rfl (by decide)).1 rfl

/-- The second request comes while the first one executes, and gets its
response. -/
theorem follower_gets_foreign_response :
    let s := after [.arrive first, .enter 0, .arrive second, .enter 1, .lookup 0,
      .execute 0 done, .store 0, .follow 1]
    (machine Empty enabled).Reachable s ∧
      (∃ a, s.calls[1]? = some ⟨second, .answered a⟩ ∧ a.origin = .execution 0) ∧
      s.fingerprintAt 0 = some "A" ∧ second.fingerprint = "B" := by
  intro s
  refine ⟨?_, ⟨_, rfl, rfl⟩, rfl, rfl⟩
  have hrun : (machine Empty enabled).run {} [.arrive first, .enter 0, .arrive second, .enter 1,
      .lookup 0, .execute 0 done, .store 0, .follow 1] = some s := rfl
  exact Machine.reachable_of_run rfl hrun

end PlugAgente.Idempotency
