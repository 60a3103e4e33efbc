import PlugAgente.Machine.Ledger
import PlugAgente.Pool.ConnectionPool

/-!
# Whether the quarantine is respected

`acquireWithin` looks at the quarantine before it waits for a permit, and not again.  A
connection string that goes into quarantine while it waits, or while `connect` does, is
leased all the same.

`Settled` is what keeps that away: a step that puts a connection string in quarantine finds
no call for it that has passed the check.  Under it the calls that are under way are free of
the quarantine in every state that is reached.
-/

namespace PlugAgente.Pool

namespace OdbcConnectionPool

/-- The connection that a step puts in quarantine. -/
def marked (s : OdbcConnectionPool) : PoolEvent → Option String
  | .disconnect id =>
    if id ∈ s.leasedIds ∧ s.cleanup.lookup id = none ∧ id ∈ s.unconfirmedIds then some id
    else none
  | .discardUnknown id => some id
  | .cleanupTimeout id => some id
  | .workReturned w =>
    match s.works[w]? with
    | some ⟨id, .inHandshake handshake⟩ =>
      if s.nativeHandshakeSemaphore.hasReturned handshake then none else some id
    | _ => none
  | .disconnected w result =>
    match s.works[w]? with
    | some ⟨id, .disconnecting _⟩ => if result.isConfirmed then none else some id
    | _ => none
  | _ => none

/-- A connection that is put in quarantine has a connection string for which no call has
passed the check and is under way. -/
def Settled (s : OdbcConnectionPool) (e : PoolEvent) : Prop :=
  ∀ id, s.marked e = some id → ∀ entry ∈ s.leasedIdsByConnectionString, entry.2 = id →
    ∀ a ∈ s.attempts, a.isUnderWay = true → a.connectionString ≠ entry.1

/-- No call can get a connection of a connection string that is in quarantine. -/
def RespectsQuarantine (s : OdbcConnectionPool) : Prop :=
  ∀ (i : Nat) (a : Attempt) (id : String) (s' : OdbcConnectionPool), s.attempts[i]? = some a →
    connectionPool.step s (.connected i (.success id)) = some s' →
    a.connectionString ∉ s.quarantinedConnectionStrings

/-- The calls that are under way are free of the quarantine. -/
def UnderWayFree (s : OdbcConnectionPool) : Prop :=
  ∀ a ∈ s.attempts, a.isUnderWay = true → a.connectionString ∉ s.quarantinedConnectionStrings

/-! ## What is in quarantine -/

theorem mem_foldl_insert (entries : List (String × String)) (keys : List String) (key : String) :
    key ∈ entries.foldl (fun l entry => l.insert entry.1) keys ↔
      key ∈ keys ∨ ∃ entry ∈ entries, entry.1 = key := by
  induction entries generalizing keys with
  | nil => simp
  | cons entry entries ih =>
    rw [List.foldl_cons, ih, List.mem_insert_iff, List.exists_mem_cons_iff]
    constructor
    · rintro ((heq | hmem) | hexists)
      · exact .inr (.inl heq.symm)
      · exact .inl hmem
      · exact .inr (.inr hexists)
    · rintro (hmem | heq | hexists)
      · exact .inl (.inr hmem)
      · exact .inl (.inl heq.symm)
      · exact .inr hexists

theorem mem_quarantine {s : OdbcConnectionPool} {id key : String} :
    key ∈ (s.quarantine id).quarantinedConnectionStrings ↔
      key ∈ s.quarantinedConnectionStrings ∨
        ∃ entry ∈ s.leasedIdsByConnectionString, entry.2 = id ∧ entry.1 = key := by
  rw [quarantine]
  dsimp only
  rw [mem_foldl_insert]
  simp only [List.mem_filter, decide_eq_true_eq, and_assoc]

theorem finalizeLeaseRelease_quarantined (s : OdbcConnectionPool) (id : String) :
    (s.finalizeLeaseRelease id).quarantinedConnectionStrings = s.quarantinedConnectionStrings := by
  rw [finalizeLeaseRelease]
  split
  · dsimp only
    split
    · split <;> rfl
    · rfl
  · rfl

theorem mem_confirm {s : OdbcConnectionPool} {id key : String}
    (h : key ∈ (s.confirm id).quarantinedConnectionStrings) :
    key ∈ s.quarantinedConnectionStrings := by
  rw [confirm] at h
  dsimp only at h
  have hmem := (List.mem_filter.mp h).1
  rwa [finalizeLeaseRelease_quarantined] at hmem

theorem mem_finalizeLeaseRelease {s : OdbcConnectionPool} {id : String} {a : Attempt}
    (h : a ∈ (s.finalizeLeaseRelease id).attempts) (hway : a.isUnderWay = true) :
    a ∈ s.attempts := by
  rw [finalizeLeaseRelease] at h
  split at h
  · dsimp only at h
    split at h
    · split at h
      · rcases List.mem_or_eq_of_mem_set h with hmem | heq
        · exact hmem
        · rw [heq] at hway
          cases hway
      · exact h
    · exact h
  · exact h

theorem mem_confirm_attempts {s : OdbcConnectionPool} {id : String} {a : Attempt}
    (h : a ∈ (s.confirm id).attempts) (hway : a.isUnderWay = true) : a ∈ s.attempts := by
  have hmem := mem_finalizeLeaseRelease h hway
  exact hmem

/-- What a step can do to the quarantine. -/
inductive QuarantineMove (s s' : OdbcConnectionPool) (e : PoolEvent) : Prop where
  | fewer (he : s.marked e = none)
    (h : ∀ key ∈ s'.quarantinedConnectionStrings, key ∈ s.quarantinedConnectionStrings)
  /-- A connection is put in quarantine. -/
  | marked (id : String) (he : s.marked e = some id) (hattempts : s'.attempts = s.attempts)
    (h : s'.quarantinedConnectionStrings = (s.quarantine id).quarantinedConnectionStrings)

theorem QuarantineMove.same {s s' : OdbcConnectionPool} {e : PoolEvent} (he : s.marked e = none)
    (h : s'.quarantinedConnectionStrings = s.quarantinedConnectionStrings) :
    QuarantineMove s s' e :=
  .fewer he fun _ hkey => h ▸ hkey

theorem quarantine_move {s s' : OdbcConnectionPool} {e : PoolEvent}
    (hstep : connectionPool.step s e = some s') : QuarantineMove s s' e := by
  cases e with
  | acquire connectionString =>
    rw [← Option.some.inj hstep]
    show QuarantineMove s (s.acquire connectionString) _
    rw [acquire]
    split_ifs
    · exact .same rfl rfl
    · exact .same rfl rfl
  | expire level call =>
    have hturn : s.turn level (·.expire call) = some s' := hstep
    exact .same rfl (turn_attempts hturn).2
  | resume level call =>
    have hturn : s.turn level (·.resume call) = some s' := hstep
    exact .same rfl (turn_attempts hturn).2
  | poolReturned i budgetLeft =>
    have hstep : s.poolReturned i budgetLeft = some s' := hstep
    rw [poolReturned] at hstep
    split at hstep
    · dsimp only at hstep
      split_ifs at hstep
      · exact .same rfl (by rw [← Option.some.inj hstep]; rfl)
      · exact .same rfl (by rw [← Option.some.inj hstep]; rfl)
      · exact .same rfl (by rw [← Option.some.inj hstep]; rfl)
    · cases hstep
  | handshakeReturned i =>
    have hstep : s.handshakeReturned i = some s' := hstep
    rw [handshakeReturned] at hstep
    split at hstep
    · dsimp only at hstep
      split_ifs at hstep
      · exact .same rfl (by rw [← Option.some.inj hstep]; rfl)
      · exact .same rfl (by rw [← Option.some.inj hstep]; rfl)
    · cases hstep
  | connected i result =>
    have hstep : s.connected i result = some s' := hstep
    rw [connected] at hstep
    split at hstep
    · dsimp only at hstep
      cases result with
      | success id => exact .same rfl (by rw [← Option.some.inj hstep]; rfl)
      | failure => exact .same rfl (by rw [← Option.some.inj hstep]; rfl)
      | throws => exact .same rfl (by rw [← Option.some.inj hstep]; rfl)
    · cases hstep
  | disconnect id =>
    rw [← Option.some.inj hstep]
    show QuarantineMove s (s.disconnect id) _
    rw [disconnect]
    split
    · rename_i hleased
      split
      · rename_i w hlookup
        refine .same ?_ rfl
        rw [OdbcConnectionPool.marked, if_neg (by simp [hlookup])]
      · rename_i hlookup
        split
        · rename_i hunconfirmed
          refine .marked id ?_ rfl rfl
          rw [OdbcConnectionPool.marked, if_pos ⟨hleased, hlookup, hunconfirmed⟩]
        · rename_i hconfirmed
          refine .same ?_ rfl
          rw [OdbcConnectionPool.marked, if_neg fun hall => hconfirmed hall.2.2]
    · rename_i hfree
      refine .same ?_ rfl
      rw [OdbcConnectionPool.marked, if_neg fun hall => hfree hall.1]
  | discardUnknown id =>
    rw [← Option.some.inj hstep]
    exact .marked id rfl rfl rfl
  | cleanupTimeout id =>
    rw [eq_of_cleanupTimeout hstep]
    exact .marked id rfl rfl rfl
  | workReturned w =>
    have hstep : s.workReturned w = some s' := hstep
    rw [workReturned] at hstep
    split at hstep
    · rename_i id handshake hw
      split_ifs at hstep with hreturned hthrown
      · refine .same ?_ (by rw [← Option.some.inj hstep])
        rw [OdbcConnectionPool.marked, hw]
        dsimp only
        rw [if_pos hreturned]
      · rw [← Option.some.inj hstep]
        refine .marked id ?_ (finishWork_attempts _ _ _ _) (finishWork_quarantined _ _ _ _)
        rw [OdbcConnectionPool.marked, hw]
        dsimp only
        rw [if_neg hreturned]
    · cases hstep
  | disconnected w result =>
    have hstep : s.disconnected w result = some s' := hstep
    rw [disconnected] at hstep
    split at hstep
    · rename_i id handshake hw
      split_ifs at hstep with hresult
      · refine .fewer ?_ fun key hkey => ?_
        · rw [OdbcConnectionPool.marked, hw]
          dsimp only
          rw [if_pos hresult]
        · rw [← Option.some.inj hstep, finishWork_quarantined] at hkey
          exact mem_confirm hkey
      · rw [← Option.some.inj hstep]
        refine .marked id ?_ (finishWork_attempts _ _ _ _) (finishWork_quarantined _ _ _ _)
        rw [OdbcConnectionPool.marked, hw]
        dsimp only
        rw [if_neg hresult]
    · cases hstep

/-! ## The invariant -/

theorem underWay_before {s s' : OdbcConnectionPool} {e : PoolEvent}
    (hstep : connectionPool.step s e = some s') {b : Attempt} (hb : b ∈ s'.attempts)
    (hway : b.isUnderWay = true) :
    (∃ a ∈ s.attempts, a.isUnderWay = true ∧ a.connectionString = b.connectionString) ∨
      b.connectionString ∉ s.quarantinedConnectionStrings := by
  cases attempts_move hstep with
  | kept hattempts =>
    rw [hattempts] at hb
    exact .inl ⟨b, hb, hway, rfl⟩
  | added c hattempts hfree =>
    rw [hattempts] at hb
    rcases List.mem_append.mp hb with hold | hnew
    · exact .inl ⟨b, hold, hway, rfl⟩
    · rw [List.mem_singleton.mp hnew] at hway ⊢
      exact .inr (hfree hway)
  | moved i a c hi ha hattempts hsame =>
    rw [hattempts] at hb
    rcases List.mem_or_eq_of_mem_set hb with hold | hnew
    · exact .inl ⟨b, hold, hway, rfl⟩
    · refine .inl ⟨a, List.mem_of_getElem? hi, ha, ?_⟩
      rw [hnew, hsame]
  | confirmed w id handshake result he hresult hw hattempts hback =>
    rw [hattempts] at hb
    exact .inl ⟨b, mem_confirm_attempts hb hway, hway, rfl⟩

theorem UnderWayFree.step {s s' : OdbcConnectionPool} (h : s.UnderWayFree) {e : PoolEvent}
    (hsettled : s.Settled e) (hstep : connectionPool.step s e = some s') : s'.UnderWayFree := by
  intro b hb hway hquarantined
  cases quarantine_move hstep with
  | fewer _ hfewer =>
    have hbefore := hfewer _ hquarantined
    rcases underWay_before hstep hb hway with ⟨a, ha, haway, hsame⟩ | hfree
    · exact h a ha haway (hsame ▸ hbefore)
    · exact hfree hbefore
  | marked id hmarked hattempts hmore =>
    rw [hattempts] at hb
    rw [hmore] at hquarantined
    rcases mem_quarantine.mp hquarantined with hbefore | ⟨entry, hentry, hid, hkey⟩
    · exact h b hb hway hbefore
    · exact hsettled id hmarked entry hentry hid b hb hway hkey.symm

theorem underWayFree_of_reach {s : OdbcConnectionPool} (h : connectionPool.Reach Settled s) :
    s.UnderWayFree := by
  refine h.invariant ?_ fun s e s' hs hsettled hstep => hs.step hsettled hstep
  intro s hstart
  obtain ⟨poolSize, handshakes, _, _, heq⟩ := hstart
  intro a ha
  rw [heq] at ha
  cases ha

theorem connecting_of_connected {s s' : OdbcConnectionPool} {i : Nat} {a : Attempt}
    {result : ConnectResult} (hi : s.attempts[i]? = some a)
    (hstep : connectionPool.step s (.connected i result) = some s') : a.isUnderWay = true := by
  have hstep : s.connected i result = some s' := hstep
  rw [connected, hi] at hstep
  split at hstep
  · rename_i hsome
    rw [Option.some.inj hsome]
    rfl
  · cases hstep

/-- A connection string that is put in quarantine while a call for it awaits `connect` may be
leased in quarantine. -/
theorem not_respectsQuarantine {s s' : OdbcConnectionPool} {e : PoolEvent} {id : String}
    (hstep : connectionPool.step s e = some s') (hmarked : s.marked e = some id)
    {i call handshake : Nat} {connectionString : String}
    (hi : s.attempts[i]? = some ⟨connectionString, .connecting call handshake⟩)
    (hentry : (connectionString, id) ∈ s.leasedIdsByConnectionString) :
    ¬ s'.RespectsQuarantine := by
  intro hrespects
  cases quarantine_move hstep with
  | fewer hnone _ =>
    rw [hmarked] at hnone
    cases hnone
  | marked gone hgone hattempts hmore =>
    rw [hmarked] at hgone
    have hsame := Option.some.inj hgone
    have hi' : s'.attempts[i]? = some ⟨connectionString, .connecting call handshake⟩ := by
      rw [hattempts, hi]
    have hquarantined : connectionString ∈ s'.quarantinedConnectionStrings := by
      rw [hmore]
      exact mem_quarantine.mpr (.inr ⟨_, hentry, hsame, rfl⟩)
    apply hrespects i _ "" _ hi' ?_ hquarantined
    show s'.connected i (.success "") = some _
    rw [connected, hi']

end OdbcConnectionPool

open OdbcConnectionPool in
/-- In every run in which a connection string goes into quarantine only while no call for it
that has passed the check is under way, no call gets a connection of a connection string that
is in quarantine.  In any run, one that goes into quarantine while a call for it awaits
`connect` may be leased by that call. -/
theorem quarantine_respected (s : OdbcConnectionPool) :
    (connectionPool.Reach Settled s → s.RespectsQuarantine) ∧
      ∀ (s' : OdbcConnectionPool) (e : PoolEvent) (id : String) (i call handshake : Nat)
        (connectionString : String), connectionPool.step s e = some s' → s.marked e = some id →
        s.attempts[i]? = some ⟨connectionString, .connecting call handshake⟩ →
        (connectionString, id) ∈ s.leasedIdsByConnectionString → ¬ s'.RespectsQuarantine := by
  constructor
  · intro h i a id s' hi hstep
    exact underWayFree_of_reach h a (List.mem_of_getElem? hi) (connecting_of_connected hi hstep)
  · intro s' e id i call handshake connectionString hstep hmarked hi hentry
    exact not_respectsQuarantine hstep hmarked hi hentry

/-- A lease is given back and the next call finds its connection string in quarantine. -/
def quarantinedAfterwards : List PoolEvent :=
  [.acquire "dsn", .poolReturned 0 true, .handshakeReturned 0, .connected 0 (.success "1"),
    .discardUnknown "1", .acquire "dsn"]

/-- A second call for the connection string of a lease awaits `connect`. -/
def secondConnecting : List PoolEvent :=
  [.acquire "dsn", .poolReturned 0 true, .handshakeReturned 0, .connected 0 (.success "1"),
    .acquire "dsn", .poolReturned 1 true, .handshakeReturned 1]

open OdbcConnectionPool in
/-- The first run keeps to the condition, and its second call is refused.  A discard after the
second run breaks it. -/
theorem quarantine_respected_afterwards :
    (∃ s, connectionPool.run (.make 2 2) quarantinedAfterwards = some s ∧
      s.quarantinedConnectionStrings = ["dsn"] ∧ s.attempts[1]? = some ⟨"dsn", .refused⟩ ∧
      s.RespectsQuarantine) ∧
    ∃ s, connectionPool.run (.make 2 2) secondConnecting = some s ∧
      ¬ (s.quarantine "1").RespectsQuarantine := by
  refine ⟨⟨_, rfl, rfl, rfl, ?_⟩, ?meanwhile⟩
  case meanwhile =>
    refine ⟨_, rfl, ?_⟩
    exact (quarantine_respected _).2 _ (.discardUnknown "1") "1" 1 1 1 "dsn" rfl rfl rfl (by decide)
  have hstart : connectionPool.Reach Settled (.make 2 2) :=
    Machine.Reach.start ⟨2, 2, by decide, by decide, rfl⟩
  refine (quarantine_respected _).1 (hstart.of_run quarantinedAfterwards ?_ rfl)
  refine ⟨?_, ?_, ?_, ?_, ?_, ?_, trivial⟩
  · intro id hid
    cases hid
  · intro id hid
    cases hid
  · intro id hid
    cases hid
  · intro id hid
    cases hid
  · intro id _ entry _ _ a ha hway
    rw [List.mem_singleton.mp ha] at hway
    cases hway
  · intro id hid
    cases hid

/-- The lease is discarded with an unknown outcome, and the second call leases a connection
although its connection string is in quarantine. -/
theorem leased_in_quarantine :
    ∃ s s', connectionPool.Reachable s ∧
      connectionPool.run (.make 2 2) (secondConnecting ++ [.discardUnknown "1"]) = some s ∧
      s.quarantinedConnectionStrings = ["dsn"] ∧
      connectionPool.step s (.connected 1 (.success "2")) = some s' ∧
      s'.attempts[1]? = some ⟨"dsn", .leased 1 "2"⟩ ∧
      s'.quarantinedConnectionStrings = ["dsn"] ∧ ¬ s.RespectsQuarantine := by
  have hstart : connectionPool.start (.make 2 2) := ⟨2, 2, by decide, by decide, rfl⟩
  have hreachable := @Machine.reachable_of_run _ _ connectionPool _ _ hstart
    (secondConnecting ++ [.discardUnknown "1"]) rfl
  refine ⟨_, _, hreachable, rfl, rfl, rfl, rfl, rfl, ?_⟩
  intro hrespects
  exact hrespects 1 ⟨"dsn", .connecting 1 1⟩ "2" _ rfl rfl (by decide)

end PlugAgente.Pool
