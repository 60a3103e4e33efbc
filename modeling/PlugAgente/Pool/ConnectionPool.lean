import PlugAgente.Pool.Permits

/-!
# The pool of leased connections

`OdbcConnectionPool` as a machine.  `acquireWithin` looks at the quarantine once, takes a
permit of the pool, then one of the native handshakes, and then awaits `connect`, which has
no timeout and may end at any time.  A disconnect is a `work` of its own: it takes a permit
of the handshakes too, it is shared by all callers that give the connection back, and each
of them stops waiting for it after a time and puts the connection in quarantine.

`recycle`, `closeAll` and `warmUp` are series of `acquire`, `release` and `discard`, so that
what they do is a part of a run.  Calls of `acquireWithin` and works are named by their
positions; `attempts` and `givenBack` are history, for the code keeps only the ids.
-/

namespace PlugAgente.Pool

/-- Where a call of `acquireWithin` stands, with its calls of the two semaphores. -/
inductive AttemptStage where
  /-- The connection string was in quarantine. -/
  | refused
  | inPool (call : Nat)
  | inHandshake (call handshake : Nat)
  | connecting (call handshake : Nat)
  /-- It has returned the connection, which has not been disconnected. -/
  | leased (call : Nat) (id : String)
  /-- The disconnect of its connection was confirmed. -/
  | returned (call : Nat) (id : String)
  | failed
  deriving DecidableEq, Repr

structure Attempt where
  connectionString : String
  stage : AttemptStage
  deriving DecidableEq, Repr

namespace Attempt

/-- The call of the semaphore of the pool in which it waits, or whose permit it holds. -/
def call? (a : Attempt) : Option Nat :=
  match a.stage with
  | .inPool call => some call
  | .inHandshake call _ => some call
  | .connecting call _ => some call
  | .leased call _ => some call
  | _ => none

/-- The connection that it has leased. -/
def leasedId? (a : Attempt) : Option String :=
  match a.stage with
  | .leased _ id => some id
  | _ => none

/-- It has passed the check of the quarantine and has not ended. -/
def isUnderWay (a : Attempt) : Bool :=
  match a.stage with
  | .inPool _ => true
  | .inHandshake _ _ => true
  | .connecting _ _ => true
  | _ => false

end Attempt

/-- Where a `_disconnectConfirmed` stands. -/
inductive WorkStage where
  | inHandshake (handshake : Nat)
  | disconnecting (handshake : Nat)
  | done
  deriving DecidableEq, Repr

structure Work where
  id : String
  stage : WorkStage
  deriving DecidableEq, Repr

/-- How `connect` ends. -/
inductive ConnectResult where
  | success (id : String)
  | failure
  | throws
  deriving DecidableEq, Repr

/-- How `disconnect` ends; of a failure the code asks `OdbcErrorInspector` whether the
outcome is unknown and whether the id is invalid. -/
inductive DisconnectResult where
  | success
  | failure (outcomeUnknown invalidId : Bool)
  | throws
  deriving DecidableEq, Repr

def DisconnectResult.isConfirmed : DisconnectResult → Bool
  | .success => true
  | .failure outcomeUnknown invalidId => !outcomeUnknown && invalidId
  | .throws => false

/-- The pool.  `leasedIdsByConnectionString` is the map of that name as its pairs. -/
structure OdbcConnectionPool where
  semaphore : Semaphore
  nativeHandshakeSemaphore : Semaphore
  leasedIdsByConnectionString : List (String × String) := []
  leasedIds : List String := []
  cleanup : List (String × Nat) := []
  unconfirmedIds : List String := []
  quarantinedConnectionStrings : List String := []
  attempts : List Attempt := []
  works : List Work := []
  /-- The calls whose permits `_semaphore.release` has given back. -/
  givenBack : List Nat := []
  deriving DecidableEq

/-- The two semaphores. -/
inductive PoolLevel where
  | pool
  | handshake
  deriving DecidableEq, Repr

inductive PoolEvent where
  | acquire (connectionString : String)
  /-- A timer, and a continuation, of a semaphore. -/
  | expire (level : PoolLevel) (call : Nat)
  | resume (level : PoolLevel) (call : Nat)
  /-- `acquireWithin` goes on behind the semaphore of the pool; is any budget left? -/
  | poolReturned (attempt : Nat) (budgetLeft : Bool)
  | handshakeReturned (attempt : Nat)
  | connected (attempt : Nat) (result : ConnectResult)
  /-- `release`, and `discard` of a suspect connection. -/
  | disconnect (id : String)
  /-- `discard` with an unknown outcome. -/
  | discardUnknown (id : String)
  /-- A caller stops waiting for the work of a connection. -/
  | cleanupTimeout (id : String)
  /-- `_disconnectConfirmed` goes on behind the semaphore of the handshakes. -/
  | workReturned (work : Nat)
  | disconnected (work : Nat) (result : DisconnectResult)
  deriving DecidableEq, Repr

namespace OdbcConnectionPool

/-- The constructor. -/
def make (poolSize handshakes : Nat) : OdbcConnectionPool where
  semaphore := { maxConcurrent := poolSize }
  nativeHandshakeSemaphore := { maxConcurrent := handshakes }

def setStage (s : OdbcConnectionPool) (i : Nat) (a : Attempt) (stage : AttemptStage) :
    OdbcConnectionPool :=
  { s with attempts := s.attempts.set i { a with stage := stage } }

/-- `_semaphore.release()`, with the permit of a call. -/
def giveBack (s : OdbcConnectionPool) (call : Nat) : OdbcConnectionPool :=
  { s with semaphore := s.semaphore.release, givenBack := s.givenBack ++ [call] }

/-- `acquireWithin`, up to its first `await`. -/
def acquire (s : OdbcConnectionPool) (connectionString : String) : OdbcConnectionPool :=
  if connectionString ∈ s.quarantinedConnectionStrings then
    { s with attempts := s.attempts ++ [⟨connectionString, .refused⟩] }
  else
    { s with
      semaphore := s.semaphore.acquire true
      attempts := s.attempts ++ [⟨connectionString, .inPool s.semaphore.calls.length⟩] }

def turn (s : OdbcConnectionPool) (level : PoolLevel) (f : Semaphore → Option Semaphore) :
    Option OdbcConnectionPool :=
  match level with
  | .pool => (f s.semaphore).map fun t => { s with semaphore := t }
  | .handshake =>
    (f s.nativeHandshakeSemaphore).map fun t => { s with nativeHandshakeSemaphore := t }

/-- Behind `await _semaphore.acquire`. -/
def poolReturned (s : OdbcConnectionPool) (i : Nat) (budgetLeft : Bool) :
    Option OdbcConnectionPool :=
  match s.attempts[i]? with
  | some ⟨connectionString, .inPool call⟩ =>
    let a : Attempt := ⟨connectionString, .inPool call⟩
    if s.semaphore.hasReturned call then
      if budgetLeft then
        some { s.setStage i a (.inHandshake call s.nativeHandshakeSemaphore.calls.length) with
          nativeHandshakeSemaphore := s.nativeHandshakeSemaphore.acquire true }
      else some ((s.setStage i a .failed).giveBack call)
    else if s.semaphore.hasThrown call then some (s.setStage i a .failed)
    else none
  | _ => none

/-- Behind `await _nativeHandshakeSemaphore.acquire`, up to `await _service.connect`. -/
def handshakeReturned (s : OdbcConnectionPool) (i : Nat) : Option OdbcConnectionPool :=
  match s.attempts[i]? with
  | some ⟨connectionString, .inHandshake call handshake⟩ =>
    let a : Attempt := ⟨connectionString, .inHandshake call handshake⟩
    if s.nativeHandshakeSemaphore.hasReturned handshake then
      some (s.setStage i a (.connecting call handshake))
    else if s.nativeHandshakeSemaphore.hasThrown handshake then
      some ((s.setStage i a .failed).giveBack call)
    else none
  | _ => none

/-- Behind `await _service.connect`: the connection is leased, or the permit goes back. -/
def connected (s : OdbcConnectionPool) (i : Nat) (result : ConnectResult) :
    Option OdbcConnectionPool :=
  match s.attempts[i]? with
  | some ⟨connectionString, .connecting call handshake⟩ =>
    let a : Attempt := ⟨connectionString, .connecting call handshake⟩
    let t := { s with nativeHandshakeSemaphore := s.nativeHandshakeSemaphore.release }
    match result with
    | .success id =>
      some { t.setStage i a (.leased call id) with
        leasedIdsByConnectionString := s.leasedIdsByConnectionString.insert (connectionString, id)
        leasedIds := s.leasedIds.insert id }
    | .failure => some ((t.setStage i a .failed).giveBack call)
    | .throws => some ((t.setStage i a .failed).giveBack call)
  | _ => none

def quarantine (s : OdbcConnectionPool) (id : String) : OdbcConnectionPool :=
  { s with
    unconfirmedIds := s.unconfirmedIds.insert id
    quarantinedConnectionStrings :=
      (s.leasedIdsByConnectionString.filter (·.2 = id)).foldl (fun l entry => l.insert entry.1)
        s.quarantinedConnectionStrings }

/-- `_disconnectLeasedConnection`, up to its first `await`. -/
def disconnect (s : OdbcConnectionPool) (id : String) : OdbcConnectionPool :=
  if id ∈ s.leasedIds then
    match s.cleanup.lookup id with
    | some _ => s
    | none =>
      if id ∈ s.unconfirmedIds then s.quarantine id
      else
        { s with
          nativeHandshakeSemaphore := s.nativeHandshakeSemaphore.acquire true
          works := s.works ++ [⟨id, .inHandshake s.nativeHandshakeSemaphore.calls.length⟩]
          cleanup := s.cleanup ++ [(id, s.works.length)] }
  else s

/-- The timer of a caller that awaits the work of a connection. -/
def cleanupTimeout (s : OdbcConnectionPool) (id : String) : Option OdbcConnectionPool :=
  match s.cleanup.lookup id with
  | some w =>
    match s.works[w]? with
    | some ⟨_, .inHandshake _⟩ => some (s.quarantine id)
    | some ⟨_, .disconnecting _⟩ => some (s.quarantine id)
    | _ => none
  | none => none

/-- `_removeLeaseTracking` and the release of the permit in `_finalizeLeaseRelease`.  The
permit is that of the attempt that has leased the connection. -/
def finalizeLeaseRelease (s : OdbcConnectionPool) (id : String) : OdbcConnectionPool :=
  if id ∈ s.leasedIds then
    let t := { s with
      leasedIds := s.leasedIds.erase id
      leasedIdsByConnectionString := s.leasedIdsByConnectionString.filter (·.2 ≠ id) }
    match s.attempts.findIdx? (·.leasedId? = some id) with
    | some i =>
      match s.attempts[i]? with
      | some ⟨connectionString, .leased call id⟩ =>
        (t.setStage i ⟨connectionString, .leased call id⟩ (.returned call id)).giveBack call
      | _ => { t with semaphore := t.semaphore.release }
    | none => { t with semaphore := t.semaphore.release }
  else s

/-- The `finally` of `_disconnectConfirmed`. -/
def finishWork (s : OdbcConnectionPool) (w : Nat) (id : String) (held : Bool) :
    OdbcConnectionPool :=
  let t := { s with
    works := s.works.set w ⟨id, .done⟩
    nativeHandshakeSemaphore :=
      if held then s.nativeHandshakeSemaphore.release else s.nativeHandshakeSemaphore }
  if id ∈ t.leasedIds then t else { t with cleanup := t.cleanup.filter (·.1 ≠ id) }

/-- Behind the `acquire` of `_disconnectConfirmed`. -/
def workReturned (s : OdbcConnectionPool) (w : Nat) : Option OdbcConnectionPool :=
  match s.works[w]? with
  | some ⟨id, .inHandshake handshake⟩ =>
    if s.nativeHandshakeSemaphore.hasReturned handshake then
      some { s with works := s.works.set w ⟨id, .disconnecting handshake⟩ }
    else if s.nativeHandshakeSemaphore.hasThrown handshake then
      some ((s.quarantine id).finishWork w id false)
    else none
  | _ => none

/-- The connection is confirmed to be gone, and what was in quarantine for it alone is let
out. -/
def confirm (s : OdbcConnectionPool) (id : String) : OdbcConnectionPool :=
  let t := { s with unconfirmedIds := s.unconfirmedIds.erase id }.finalizeLeaseRelease id
  { t with
    quarantinedConnectionStrings := t.quarantinedConnectionStrings.filter fun key =>
      t.leasedIdsByConnectionString.any fun entry =>
        entry.1 = key && t.unconfirmedIds.contains entry.2 }

/-- Behind `await _service.disconnect`. -/
def disconnected (s : OdbcConnectionPool) (w : Nat) (result : DisconnectResult) :
    Option OdbcConnectionPool :=
  match s.works[w]? with
  | some ⟨id, .disconnecting _⟩ =>
    if result.isConfirmed then some ((s.confirm id).finishWork w id true)
    else some ((s.quarantine id).finishWork w id true)
  | _ => none

end OdbcConnectionPool

def connectionPool : Machine OdbcConnectionPool PoolEvent where
  start s := ∃ poolSize handshakes, 0 < poolSize ∧ 0 < handshakes ∧ s = .make poolSize handshakes
  step s
    | .acquire connectionString => some (s.acquire connectionString)
    | .expire level call => s.turn level (·.expire call)
    | .resume level call => s.turn level (·.resume call)
    | .poolReturned i budgetLeft => s.poolReturned i budgetLeft
    | .handshakeReturned i => s.handshakeReturned i
    | .connected i result => s.connected i result
    | .disconnect id => some (s.disconnect id)
    | .discardUnknown id => some (s.quarantine id)
    | .cleanupTimeout id => s.cleanupTimeout id
    | .workReturned w => s.workReturned w
    | .disconnected w result => s.disconnected w result

/-- What the pool relies on: the driver does not give a connection the id of another one
whose disconnect it has not confirmed. -/
def DriverNamesApart (s : OdbcConnectionPool) (e : PoolEvent) : Prop :=
  match e with
  | .connected _ (.success id) => id ∉ s.leasedIds
  | _ => True

/-! ## What a step can do -/

namespace OdbcConnectionPool

/-- What a step can do to the attempts. -/
inductive AttemptsMove (s s' : OdbcConnectionPool) (e : PoolEvent) : Prop where
  | kept (h : s'.attempts = s.attempts)
  /-- A new call, which is refused if its connection string is in quarantine. -/
  | added (b : Attempt) (h : s'.attempts = s.attempts ++ [b])
    (hfree : b.isUnderWay = true → b.connectionString ∉ s.quarantinedConnectionStrings)
  /-- A call that is under way goes on. -/
  | moved (i : Nat) (a b : Attempt) (hi : s.attempts[i]? = some a) (ha : a.isUnderWay = true)
    (h : s'.attempts = s.attempts.set i b) (hsame : b.connectionString = a.connectionString)
  | confirmed (w : Nat) (id : String) (handshake : Nat) (result : DisconnectResult)
    (he : e = .disconnected w result) (hresult : result.isConfirmed = true)
    (hw : s.works[w]? = some ⟨id, .disconnecting handshake⟩)
    (h : s'.attempts = (s.confirm id).attempts) (hback : s'.givenBack = (s.confirm id).givenBack)

theorem eq_of_cleanupTimeout {s s' : OdbcConnectionPool} {id : String}
    (h : s.cleanupTimeout id = some s') : s' = s.quarantine id := by
  rw [cleanupTimeout] at h
  split at h
  · split at h
    · exact (Option.some.inj h).symm
    · exact (Option.some.inj h).symm
    · cases h
  · cases h

theorem turn_attempts {s s' : OdbcConnectionPool} {level : PoolLevel}
    {f : Semaphore → Option Semaphore} (h : s.turn level f = some s') :
    s'.attempts = s.attempts ∧
      s'.quarantinedConnectionStrings = s.quarantinedConnectionStrings := by
  cases level with
  | pool =>
    rw [turn, Option.map_eq_some_iff] at h
    obtain ⟨u, _, heq⟩ := h
    rw [← heq]
    exact ⟨rfl, rfl⟩
  | handshake =>
    rw [turn, Option.map_eq_some_iff] at h
    obtain ⟨u, _, heq⟩ := h
    rw [← heq]
    exact ⟨rfl, rfl⟩

@[simp] theorem finishWork_attempts (s : OdbcConnectionPool) (w : Nat) (id : String)
    (held : Bool) : (s.finishWork w id held).attempts = s.attempts := by
  rw [finishWork]
  dsimp only
  split_ifs <;> rfl

@[simp] theorem finishWork_givenBack (s : OdbcConnectionPool) (w : Nat) (id : String)
    (held : Bool) : (s.finishWork w id held).givenBack = s.givenBack := by
  rw [finishWork]
  dsimp only
  split_ifs <;> rfl

@[simp] theorem finishWork_quarantined (s : OdbcConnectionPool) (w : Nat) (id : String)
    (held : Bool) : (s.finishWork w id held).quarantinedConnectionStrings =
      s.quarantinedConnectionStrings := by
  rw [finishWork]
  dsimp only
  split_ifs <;> rfl

theorem attempts_move {s s' : OdbcConnectionPool} {e : PoolEvent}
    (hstep : connectionPool.step s e = some s') : AttemptsMove s s' e := by
  cases e with
  | acquire connectionString =>
    rw [← Option.some.inj hstep]
    show AttemptsMove s (s.acquire connectionString) _
    rw [acquire]
    split_ifs with hquarantined
    · exact .added _ rfl (fun hway => by cases hway)
    · exact .added _ rfl (fun _ => hquarantined)
  | expire level call =>
    have hturn : s.turn level (·.expire call) = some s' := hstep
    exact .kept (turn_attempts hturn).1
  | resume level call =>
    have hturn : s.turn level (·.resume call) = some s' := hstep
    exact .kept (turn_attempts hturn).1
  | poolReturned i budgetLeft =>
    have hstep : s.poolReturned i budgetLeft = some s' := hstep
    rw [poolReturned] at hstep
    split at hstep
    · rename_i connectionString call hi
      dsimp only at hstep
      split_ifs at hstep
      · rw [← Option.some.inj hstep]
        exact .moved i _ _ hi rfl rfl rfl
      · rw [← Option.some.inj hstep]
        exact .moved i _ _ hi rfl rfl rfl
      · rw [← Option.some.inj hstep]
        exact .moved i _ _ hi rfl rfl rfl
    · cases hstep
  | handshakeReturned i =>
    have hstep : s.handshakeReturned i = some s' := hstep
    rw [handshakeReturned] at hstep
    split at hstep
    · rename_i connectionString call handshake hi
      dsimp only at hstep
      split_ifs at hstep
      · rw [← Option.some.inj hstep]
        exact .moved i _ _ hi rfl rfl rfl
      · rw [← Option.some.inj hstep]
        exact .moved i _ _ hi rfl rfl rfl
    · cases hstep
  | connected i result =>
    have hstep : s.connected i result = some s' := hstep
    rw [connected] at hstep
    split at hstep
    · rename_i connectionString call handshake hi
      dsimp only at hstep
      cases result with
      | success id =>
        rw [← Option.some.inj hstep]
        exact .moved i _ _ hi rfl rfl rfl
      | failure =>
        rw [← Option.some.inj hstep]
        exact .moved i _ _ hi rfl rfl rfl
      | throws =>
        rw [← Option.some.inj hstep]
        exact .moved i _ _ hi rfl rfl rfl
    · cases hstep
  | disconnect id =>
    rw [← Option.some.inj hstep]
    show AttemptsMove s (s.disconnect id) _
    rw [disconnect]
    split
    · split
      · exact .kept rfl
      · split
        · exact .kept rfl
        · exact .kept rfl
    · exact .kept rfl
  | discardUnknown id =>
    rw [← Option.some.inj hstep]
    exact .kept rfl
  | cleanupTimeout id =>
    rw [eq_of_cleanupTimeout hstep]
    exact .kept rfl
  | workReturned w =>
    have hstep : s.workReturned w = some s' := hstep
    rw [workReturned] at hstep
    split at hstep
    · split_ifs at hstep
      · exact .kept (by rw [← Option.some.inj hstep])
      · exact .kept (by rw [← Option.some.inj hstep, finishWork_attempts]; rfl)
    · cases hstep
  | disconnected w result =>
    have hstep : s.disconnected w result = some s' := hstep
    rw [disconnected] at hstep
    split at hstep
    · rename_i id handshake hw
      split_ifs at hstep with hresult
      · exact .confirmed w id handshake result rfl hresult hw
          (by rw [← Option.some.inj hstep, finishWork_attempts])
          (by rw [← Option.some.inj hstep, finishWork_givenBack])
      · exact .kept (by rw [← Option.some.inj hstep, finishWork_attempts]; rfl)
    · cases hstep

end OdbcConnectionPool

end PlugAgente.Pool
