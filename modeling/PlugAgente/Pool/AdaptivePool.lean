import PlugAgente.Dart.Text
import PlugAgente.Machine.Transition

/-!
# The adaptive pool of connections

`AdaptiveOdbcConnectionPool` as a machine.  It sends each acquire to the native pool or to the
lease pool, records who has granted a connection, and sends its release there.  The owner is
forgotten when the awaited release comes back with success.

The two pools are not modelled: their answers are events.  A pool grants an id that is not granted,
and has taken a connection back from the moment on at which it answers its release with success.
`out`, `routed` and `recycledWhileOut` are not in the code: the connections that were handed out
and that their pool has not taken back, the pool that each of their releases was sent to, and the
connection strings that were recycled while a connection of them was out.  The maps of owners and of
connection strings are written together, and are one list here; diagnostics are left out.
-/

namespace PlugAgente.Pool

open Dart

inductive DatabaseType where
  | sqlServer
  | postgresql
  | sybaseAnywhere
deriving DecidableEq

def driverTypeName : DatabaseType → String
  | .sqlServer => "sqlServer"
  | .postgresql => "postgresql"
  | .sybaseAnywhere => "sybaseAnywhere"

def isNativeEligible : DatabaseType → Bool
  | .sqlServer | .postgresql => true
  | .sybaseAnywhere => false

structure AdaptiveDriverInfo where
  databaseType : DatabaseType
  cacheKey : Text
deriving DecidableEq

structure NativeCircuitState where
  failures : Nat := 0
  disabledUntil : Option Int := none
deriving DecidableEq

/-- The settings of the pool.  Times are milliseconds, and `fingerprint` is
`OdbcConnectionFingerprint.hash`. -/
structure AdaptivePoolConfig where
  enableOdbcExperimentalDriverAdaptivePooling : Bool := true
  nativeCircuitBreakDuration : Int := 60000
  nativeCircuitBreakThreshold : Nat := 3
  driverInfoCacheTtl : Int := 10000
  fingerprint : Text → Text := id

inductive AdaptivePoolOwner where
  | lease
  | native
deriving DecidableEq

/-- A connection, with the pool that has granted it: an entry of `_connectionOwners` and of
`_connectionAcquireStrings`. -/
structure AdaptiveConnection where
  connectionId : Text
  connectionString : Text
  owner : AdaptivePoolOwner
deriving DecidableEq

/-- Where a call of `_acquireWithStrategy` stands. -/
inductive AdaptiveAcquireStage where
  | resolving
  | resolved (driverInfo : Option AdaptiveDriverInfo)
  | asking (owner : AdaptivePoolOwner) (circuitKey : Text)
  /-- The pool has granted a connection, and the call has not gone on. -/
  | granted (owner : AdaptivePoolOwner) (circuitKey : Text) (connectionId : Text)
  | ended
deriving DecidableEq

structure AdaptiveAcquire where
  connectionString : Text
  stage : AdaptiveAcquireStage
deriving DecidableEq

/-- Where a release or a discard stands. -/
inductive AdaptiveReturnStage where
  /-- The owner is unknown, and the release awaits the count of the lease pool. -/
  | counting
  | waiting (target : AdaptivePoolOwner)
  | answered (success : Bool)
  | ended
deriving DecidableEq

/-- A release or a discard.  `connection` is the connection that was out when it was called. -/
structure AdaptiveReturn where
  connectionId : Text
  isDiscard : Bool
  connection : Option AdaptiveConnection
  stage : AdaptiveReturnStage
deriving DecidableEq

inductive CloseStage where
  | closingNative
  | closingLease (nativeClosed : Bool)
  | closed (nativeClosed leaseClosed : Bool)
  | ended
deriving DecidableEq

structure AdaptiveOdbcConnectionPool where
  connectionOwners : List AdaptiveConnection := []
  leaseActiveCount : Nat := 0
  nativeActiveCount : Nat := 0
  nativeCircuits : Text → Option NativeCircuitState := fun _ => none
  driverInfo : Option AdaptiveDriverInfo := none
  driverInfoLoadedAt : Option Int := none
  /-- `_driverInfoFuture` is there. -/
  loading : Bool := false
  recyclePoolsWhenOwnersDrain : Bool := false
  pendingRecycleConnectionStrings : List Text := []
  acquires : List AdaptiveAcquire := []
  returns : List AdaptiveReturn := []
  closes : List CloseStage := []
  /-- What the drains that have begun have still to recycle, with the pool of each step. -/
  drains : List (List (AdaptivePoolOwner × Text)) := []
  out : List AdaptiveConnection := []
  routed : List (AdaptiveConnection × AdaptivePoolOwner) := []
  recycledWhileOut : List Text := []

inductive AdaptivePoolEvent where
  | acquire (connectionString : Text) (now : Int)
  /-- `_resolveDriverInfo` of a warm-up. -/
  | resolve (now : Int)
  | loaded (resolved : Option AdaptiveDriverInfo) (now : Int)
  | loadThrew
  /-- An acquire goes on behind `_resolveDriverInfo`. -/
  | choose (acquire : Nat) (now : Int)
  | granted (acquire : Nat) (connectionId : Text)
  /-- An acquire goes on with the connection that its pool has granted. -/
  | handedOut (acquire : Nat)
  /-- The pool has refused; `fallback` is what `_shouldFallbackToLease` says of its error. -/
  | refused (acquire : Nat) (fallback : Bool) (now : Int)
  | release (connectionId : Text)
  | discard (connectionId : Text)
  | counted (call : Nat) (success : Bool)
  | answered (call : Nat) (success : Bool)
  /-- A release or a discard goes on behind the answer of the pool. -/
  | returned (call : Nat)
  | closeAll
  | poolClosed (close : Nat) (success : Bool)
  | closeReturned (close : Nat)
  /-- A drain calls `recycle` of a pool. -/
  | recycleNext (drain : Nat)

namespace AdaptiveOdbcConnectionPool

variable (cfg : AdaptivePoolConfig) (s : AdaptiveOdbcConnectionPool)

/-! ## Owners -/

def ownerOf (connectionId : Text) : Option AdaptiveConnection :=
  s.connectionOwners.find? fun c => c.connectionId = connectionId

/-- The maps without an id. -/
def withoutOwner (connectionId : Text) : List AdaptiveConnection :=
  s.connectionOwners.filter fun c => c.connectionId ≠ connectionId

/-- `_decrementOwnerActiveCount`; the counts are not below zero. -/
def decrementOwnerActiveCount (owner : AdaptivePoolOwner) : AdaptiveOdbcConnectionPool :=
  match owner with
  | .lease => { s with leaseActiveCount := s.leaseActiveCount - 1 }
  | .native => { s with nativeActiveCount := s.nativeActiveCount - 1 }

def forgetOwner (connectionId : Text) : AdaptiveOdbcConnectionPool :=
  match s.ownerOf connectionId with
  | some c =>
    { s with connectionOwners := s.withoutOwner connectionId }.decrementOwnerActiveCount c.owner
  | none => s

/-- The part of `_acquireWithStrategy` that records a connection. -/
def record (c : AdaptiveConnection) : AdaptiveOdbcConnectionPool :=
  let recorded :=
    { s with
      connectionOwners := s.withoutOwner c.connectionId ++ [c]
      out := s.out ++ [c] }
  match c.owner with
  | .lease => { recorded with leaseActiveCount := s.leaseActiveCount + 1 }
  | .native => { recorded with nativeActiveCount := s.nativeActiveCount + 1 }

/-- A pool has granted the id, and has not taken it back. -/
def isGranted (connectionId : Text) : Bool :=
  (s.out.any fun c => c.connectionId = connectionId) ||
    s.acquires.any fun a =>
      match a.stage with
      | .granted _ _ id => id = connectionId
      | _ => false

/-- `isTracked` of the lease pool. -/
def isTracked (connectionId : Text) : Bool :=
  (s.out.any fun c => c.connectionId = connectionId && c.owner = .lease) ||
    s.acquires.any fun a =>
      match a.stage with
      | .granted .lease _ id => id = connectionId
      | _ => false

/-! ## The drain -/

def markConfigDrainPending : AdaptiveOdbcConnectionPool :=
  { s with
    recyclePoolsWhenOwnersDrain := true
    pendingRecycleConnectionStrings :=
      s.connectionOwners.foldl (fun strings c => strings.insert c.connectionString)
        s.pendingRecycleConnectionStrings }

/-- `recycle` of each of the strings: of the native pool, then of the lease pool. -/
def recycleSteps (connectionStrings : List Text) : List (AdaptivePoolOwner × Text) :=
  connectionStrings.flatMap fun connectionString =>
    [(.native, connectionString), (.lease, connectionString)]

/-- `_maybeCompleteConfigDrain`, up to its first await. -/
def maybeCompleteConfigDrain : AdaptiveOdbcConnectionPool :=
  if s.recyclePoolsWhenOwnersDrain = false ∨ s.connectionOwners ≠ [] then s
  else
    { s with
      recyclePoolsWhenOwnersDrain := false
      pendingRecycleConnectionStrings := []
      drains := s.drains ++ [recycleSteps s.pendingRecycleConnectionStrings] }

def hasOut (connectionString : Text) : Bool :=
  s.out.any fun c => c.connectionString = connectionString

def recycleNext (d : Nat) : Option AdaptiveOdbcConnectionPool :=
  match s.drains[d]? with
  | some ((_, connectionString) :: rest) =>
    some
      { s with
        drains := s.drains.set d rest
        recycledWhileOut :=
          if s.hasOut connectionString then s.recycledWhileOut ++ [connectionString]
          else s.recycledWhileOut }
  | _ => none

/-! ## Driver information -/

/-- `_resolveDriverInfo`, up to its first await: the information it has at once. -/
def cachedDriverInfo (now : Int) : Option AdaptiveDriverInfo :=
  match s.driverInfo, s.driverInfoLoadedAt with
  | some info, some loadedAt =>
    if now - loadedAt < cfg.driverInfoCacheTtl then some info else none
  | _, _ => none

def resolve (now : Int) : AdaptiveOdbcConnectionPool :=
  match s.cachedDriverInfo cfg now with
  | some _ => s
  | none => { s with loading := true }

def acquire (connectionString : Text) (now : Int) : AdaptiveOdbcConnectionPool :=
  match s.cachedDriverInfo cfg now with
  | some info => { s with acquires := s.acquires ++ [⟨connectionString, .resolved (some info)⟩] }
  | none =>
    { s with
      acquires := s.acquires ++ [⟨connectionString, .resolving⟩]
      loading := true }

/-- What the acquires that wait for the driver information come to. -/
def resume (stage : AdaptiveAcquireStage) : List AdaptiveAcquire :=
  s.acquires.map fun a => if a.stage = .resolving then { a with stage } else a

/-- `_resolveDriverInfo` behind its await, and the acquires that wait for it. -/
def loaded (resolved : Option AdaptiveDriverInfo) (now : Int) : AdaptiveOdbcConnectionPool :=
  let resumed := { s with acquires := s.resume (.resolved resolved), loading := false }
  match resolved with
  | none => { resumed with driverInfo := none, driverInfoLoadedAt := none }
  | some info =>
    let known := { resumed with driverInfo := some info, driverInfoLoadedAt := some now }
    if s.driverInfo.any fun current => current.cacheKey ≠ info.cacheKey then
      let cleared := { known with nativeCircuits := fun _ => none }
      if s.connectionOwners ≠ [] then cleared.markConfigDrainPending else cleared
    else known

/-! ## Acquire -/

def nativeCircuitKey (connectionString : Text) (driverInfo : Option AdaptiveDriverInfo) : Text :=
  let driverType :=
    match driverInfo with
    | some info => driverTypeName info.databaseType
    | none => "unknown"
  driverType.toList ++ ':' :: cfg.fingerprint connectionString

def shouldUseNativePool (driverInfo : Option AdaptiveDriverInfo) : Bool :=
  cfg.enableOdbcExperimentalDriverAdaptivePooling &&
    driverInfo.any fun info => isNativeEligible info.databaseType

/-- The circuits after `_isNativeCircuitOpen`, and its answer: a circuit whose time is over is
removed. -/
def isNativeCircuitOpen (key : Text) (now : Int) : (Text → Option NativeCircuitState) × Bool :=
  match (s.nativeCircuits key).bind NativeCircuitState.disabledUntil with
  | some disabledUntil =>
    if now < disabledUntil then (s.nativeCircuits, true)
    else (Function.update s.nativeCircuits key none, false)
  | none => (s.nativeCircuits, false)

def recordNativeFallback (key : Text) (now : Int) : AdaptiveOdbcConnectionPool :=
  let failures := ((s.nativeCircuits key).getD {}).failures + 1
  let disabledUntil :=
    if cfg.nativeCircuitBreakThreshold ≤ failures then
      some (now + cfg.nativeCircuitBreakDuration)
    else none
  { s with
    nativeCircuits := Function.update s.nativeCircuits key (some ⟨failures, disabledUntil⟩) }

def setAcquire (i : Nat) (a : AdaptiveAcquire) (stage : AdaptiveAcquireStage) :
    AdaptiveOdbcConnectionPool :=
  { s with acquires := s.acquires.set i { a with stage } }

/-- Behind `_resolveDriverInfo`: the pool that is asked first. -/
def choose (i : Nat) (now : Int) : Option AdaptiveOdbcConnectionPool :=
  match s.acquires[i]? with
  | some a =>
    match a.stage with
    | .resolved info =>
      let key := nativeCircuitKey cfg a.connectionString info
      if shouldUseNativePool cfg info then
        let (circuits, isOpen) := s.isNativeCircuitOpen key now
        some
          { s.setAcquire i a (.asking (if isOpen then .lease else .native) key) with
            nativeCircuits := circuits }
      else some (s.setAcquire i a (.asking .lease key))
    | _ => none
  | none => none

def granted (i : Nat) (connectionId : Text) : Option AdaptiveOdbcConnectionPool :=
  match s.acquires[i]? with
  | some a =>
    match a.stage with
    | .asking owner key =>
      if s.isGranted connectionId then none
      else some (s.setAcquire i a (.granted owner key connectionId))
    | _ => none
  | none => none

/-- The call records its connection and returns it.  A native success closes the circuit. -/
def handedOut (i : Nat) : Option AdaptiveOdbcConnectionPool :=
  match s.acquires[i]? with
  | some a =>
    match a.stage with
    | .granted owner key connectionId =>
      let recorded := (s.setAcquire i a .ended).record ⟨connectionId, a.connectionString, owner⟩
      match owner with
      | .native =>
        some { recorded with nativeCircuits := Function.update s.nativeCircuits key none }
      | .lease => some recorded
    | _ => none
  | none => none

def refused (i : Nat) (fallback : Bool) (now : Int) : Option AdaptiveOdbcConnectionPool :=
  match s.acquires[i]? with
  | some a =>
    match a.stage with
    | .asking .native key =>
      if fallback then
        some ((s.setAcquire i a (.asking .lease key)).recordNativeFallback cfg key now)
      else some (s.setAcquire i a .ended)
    | .asking .lease _ => some (s.setAcquire i a .ended)
    | _ => none
  | none => none

/-! ## Release and discard -/

/-- A call is sent to a pool. -/
def send (connection : Option AdaptiveConnection) (target : AdaptivePoolOwner) :
    AdaptiveOdbcConnectionPool :=
  { s with routed := s.routed ++ (connection.map fun c => (c, target)).toList }

/-- `release` and `discard`, up to their first await.  The pool that an id without an owner is
sent to depends on what the lease pool tracks; a release asks it for its count first. -/
def returnConnection (connectionId : Text) (isDiscard : Bool) : AdaptiveOdbcConnectionPool :=
  let connection := s.out.find? fun c => c.connectionId = connectionId
  let call (stage : AdaptiveReturnStage) : AdaptiveOdbcConnectionPool :=
    { s with returns := s.returns ++ [⟨connectionId, isDiscard, connection, stage⟩] }
  match s.ownerOf connectionId with
  | some c => (call (.waiting c.owner)).send connection c.owner
  | none =>
    if isDiscard then
      let target := if s.isTracked connectionId then .lease else .native
      (call (.waiting target)).send connection target
    else call .counting

def setReturn (j : Nat) (r : AdaptiveReturn) (stage : AdaptiveReturnStage) :
    AdaptiveOdbcConnectionPool :=
  { s with returns := s.returns.set j { r with stage } }

def counted (j : Nat) (success : Bool) : Option AdaptiveOdbcConnectionPool :=
  match s.returns[j]? with
  | some r =>
    match r.stage with
    | .counting =>
      let target := if success && s.isTracked r.connectionId then .lease else .native
      some ((s.setReturn j r (.waiting target)).send r.connection target)
    | _ => none
  | none => none

/-- The pool answers.  With success it has taken the connection back, if it had granted it. -/
def answered (j : Nat) (success : Bool) : Option AdaptiveOdbcConnectionPool :=
  match s.returns[j]? with
  | some r =>
    match r.stage with
    | .waiting target =>
      some
        { s.setReturn j r (.answered success) with
          out :=
            if success then
              s.out.filter fun c => ¬ (c.connectionId = r.connectionId ∧ c.owner = target)
            else s.out }
    | _ => none
  | none => none

/-- `release` and `discard` behind the answer. -/
def returned (j : Nat) : Option AdaptiveOdbcConnectionPool :=
  match s.returns[j]? with
  | some r =>
    match r.stage with
    | .answered success =>
      let ended := s.setReturn j r .ended
      let forgotten := if success then ended.forgetOwner r.connectionId else ended
      some forgotten.maybeCompleteConfigDrain
    | _ => none
  | none => none

/-! ## Close -/

def closedOf (owner : AdaptivePoolOwner) (success : Bool) : List AdaptiveConnection :=
  if success then s.out.filter fun c => c.owner ≠ owner else s.out

def poolClosed (k : Nat) (success : Bool) : Option AdaptiveOdbcConnectionPool :=
  match s.closes[k]? with
  | some .closingNative =>
    some
      { s with
        closes := s.closes.set k (.closingLease success)
        out := s.closedOf .native success }
  | some (.closingLease nativeClosed) =>
    some
      { s with
        closes := s.closes.set k (.closed nativeClosed success)
        out := s.closedOf .lease success }
  | _ => none

/-- `closeAll` behind its awaits: if both pools are closed, everything is forgotten. -/
def closeReturned (k : Nat) : Option AdaptiveOdbcConnectionPool :=
  match s.closes[k]? with
  | some (.closed nativeClosed leaseClosed) =>
    let ended := { s with closes := s.closes.set k .ended }
    if nativeClosed && leaseClosed then
      some
        { ended with
          connectionOwners := []
          pendingRecycleConnectionStrings := []
          recyclePoolsWhenOwnersDrain := false
          leaseActiveCount := 0
          nativeActiveCount := 0 }
    else some ended
  | _ => none

end AdaptiveOdbcConnectionPool

def adaptivePool (cfg : AdaptivePoolConfig) :
    Machine AdaptiveOdbcConnectionPool AdaptivePoolEvent where
  start s := s = {}
  step s
    | .acquire connectionString now => some (s.acquire cfg connectionString now)
    | .resolve now => some (s.resolve cfg now)
    | .loaded resolved now => if s.loading then some (s.loaded resolved now) else none
    | .loadThrew =>
      if s.loading then some { s with acquires := s.resume .ended, loading := false } else none
    | .choose i now => s.choose cfg i now
    | .granted i connectionId => s.granted i connectionId
    | .handedOut i => s.handedOut i
    | .refused i fallback now => s.refused cfg i fallback now
    | .release connectionId => some (s.returnConnection connectionId false)
    | .discard connectionId => some (s.returnConnection connectionId true)
    | .counted j success => s.counted j success
    | .answered j success => s.answered j success
    | .returned j => s.returned j
    | .closeAll => some { s with closes := s.closes ++ [.closingNative] }
    | .poolClosed k success => s.poolClosed k success
    | .closeReturned k => s.closeReturned k
    | .recycleNext d => s.recycleNext d

end PlugAgente.Pool
