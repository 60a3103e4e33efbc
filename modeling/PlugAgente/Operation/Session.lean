import PlugAgente.Machine.Transition

/-!
# Native transaction sessions

`OdbcSqlOperationTransactionFactory.open` and `_OdbcSqlOperationTransaction` as a
machine, for one connection.  Native calls are started by the code and settle on their
own, at any time.  An `await` with a timeout goes on when the call has settled or when the
timer fires, whichever the event loop takes first, so the native call may still be running
behind it.

A `Call` is an action the code starts on the connection.  Most of them are one native
call; the checks of `open` are a chain of native calls, each of which is started when the
one before has settled, so that an action that has not settled is one native call that is
running.

The lease is counted by its calls of `release`, although a second one would do nothing.
-/

namespace PlugAgente.Operation.Native

/-- What is started on the connection. -/
inductive Kind where
  | connect
  /-- A check of `open`: the engine, the identity or the structure of the source. -/
  | inspect
  | begin
  | statement
  | commit
  | rollback
  | disconnect
  deriving DecidableEq, Repr

/-- `commit` and `rollback` complete the transaction. -/
def Kind.completes : Kind → Bool
  | commit | rollback => true
  | _ => false

/-- What goes through `_call` of the session. -/
def Kind.inSession : Kind → Bool
  | statement | commit | rollback => true
  | _ => false

/-- An action on the connection: whether it has settled, how many native calls it has
made, and whether the code that awaits it has gone on. -/
structure Call where
  kind : Kind
  settled : Bool := false
  nativeCalls : Nat := 1
  resumed : Bool := false
  deriving DecidableEq, Repr

/-- Where the code stands: in `open`, or in the session it has returned. -/
inductive Stage where
  | acquiring
  | connecting (call : Nat)
  /-- `open` has a connection, and may await a tracked action. -/
  | opening (awaited : Option Nat)
  | session
  /-- `open` has returned a failure. -/
  | refused
  deriving DecidableEq, Repr

/-- What releases the lease. -/
inductive Cleanup where
  | idle
  /-- The late connect of `open` owns the lease. -/
  | lateConnect (call : Nat)
  /-- The disconnect waits for the call that is pending. -/
  | waiting (call : Nat)
  | disconnecting (call : Nat)
  | done
  deriving DecidableEq, Repr

/-- The state.  `pending` is the variable of that name in `open`, then
`_pendingNative`. -/
structure State where
  stage : Stage := .acquiring
  leased : Bool := false
  pending : Option Nat := none
  closed : Bool := false
  completionStarted : Bool := false
  cleanup : Cleanup := .idle
  calls : List Call := []
  released : Nat := 0
  deriving DecidableEq

inductive Event where
  /-- The limiter answers; with a lease, `open` goes on to connect or throws before. -/
  | acquired (leased connects : Bool)
  /-- A native call settles. -/
  | settle (call : Nat)
  /-- A native call of a check settles, and the check makes its next one. -/
  | next (call : Nat)
  /-- `open` goes on after the connect: with its result, or on its deadline. -/
  | connected (ok : Bool)
  | connectExpired
  /-- `open` starts a check or begins the transaction. -/
  | track (kind : Kind)
  /-- `open` goes on after a tracked action: with its result, or with an error or on its
  deadline. -/
  | tracked (ok : Bool)
  /-- `open` throws between two actions. -/
  | openFails
  /-- `_call`: whether the timeout is positive, and whether the start throws. -/
  | call (kind : Kind) (inTime throws : Bool)
  /-- The code that awaits a call of the session goes on. -/
  | resume (call : Nat)
  | close
  /-- The callback of the late connect, with whether there is a connection. -/
  | lateConnected (ok : Bool)
  /-- The callback behind the pending call. -/
  | disconnect
  /-- The callback behind the disconnect. -/
  | release
  deriving DecidableEq, Repr

namespace State

/-- Start an action on the connection. -/
def start (s : State) (kind : Kind) : State :=
  { s with calls := s.calls ++ [{ kind := kind }] }

def isSettled (s : State) (k : Nat) : Bool :=
  match s.calls[k]? with
  | some c => c.settled
  | none => false

def disconnectNow (s : State) : State :=
  { s.start .disconnect with cleanup := .disconnecting s.calls.length }

/-- Disconnect once the call that is pending has settled. -/
def disconnectLater (s : State) : State :=
  match s.pending with
  | none => s.disconnectNow
  | some k => { s with cleanup := .waiting k }

/-- The `catch` of `open`, once there is a connection. -/
def refuse (s : State) : State :=
  disconnectLater { s with stage := .refused }

/-- `lease.release()`, and nothing is left to do. -/
def releaseLease (s : State) : State :=
  { s with cleanup := .done, released := s.released + 1 }

/-- `tracked` goes on: `if (settled) pending = null`. -/
def clearPending (s : State) (k : Nat) : State :=
  { s with pending := if s.isSettled k then none else s.pending }

/-- `_call`. -/
def callNative (s : State) (kind : Kind) (inTime throws : Bool) : State :=
  if s.closed || s.completionStarted || s.pending.isSome || !inTime then s
  else
    let s' := { s with completionStarted := kind.completes }
    if throws then
      { s' with calls := s.calls ++ [{ kind := kind, settled := true, resumed := true }] }
    else { s'.start kind with pending := some s.calls.length }

def close (s : State) : State :=
  if s.closed then s
  else disconnectLater { s with closed := true }

def step (s : State) : Event → Option State
  | .acquired leased connects =>
    if s.stage = .acquiring then
      if !leased then some { s with stage := .refused }
      else if connects then
        some { s.start .connect with stage := .connecting s.calls.length, leased := true }
      else some (releaseLease { s with stage := .refused, leased := true })
    else none
  | .settle k =>
    match s.calls[k]? with
    | some c =>
      if c.settled then none
      else some { s with calls := s.calls.set k { c with settled := true } }
    | none => none
  | .next k =>
    match s.calls[k]? with
    | some c =>
      if c.settled || c.kind != .inspect then none
      else some { s with calls := s.calls.set k { c with nativeCalls := c.nativeCalls + 1 } }
    | none => none
  | .connected ok =>
    match s.stage with
    | .connecting k =>
      if s.isSettled k then
        if ok then some { s with stage := .opening none }
        else some (releaseLease { s with stage := .refused })
      else none
    | _ => none
  | .connectExpired =>
    match s.stage with
    | .connecting k => some { s with stage := .refused, cleanup := .lateConnect k }
    | _ => none
  | .track kind =>
    if s.stage = .opening none ∧ (kind = .inspect ∨ kind = .begin) then
      some { s.start kind with
        stage := .opening (some s.calls.length)
        pending := some s.calls.length }
    else none
  | .tracked ok =>
    match s.stage with
    | .opening (some k) =>
      if ok then
        if s.isSettled k then
          if (s.calls[k]?).any (·.kind = .begin) then
            -- The session is a new object, with a `_pendingNative` of its own.
            some { s.clearPending k with stage := .session, pending := none }
          else some { s.clearPending k with stage := .opening none }
        else none
      else some (s.clearPending k).refuse
    | _ => none
  | .openFails => if s.stage = .opening none then some s.refuse else none
  | .call kind inTime throws =>
    if s.stage = .session ∧ kind.inSession then some (s.callNative kind inTime throws) else none
  | .resume k =>
    match s.stage, s.calls[k]? with
    | .session, some c =>
      if c.kind.inSession && !c.resumed then
        some (clearPending { s with calls := s.calls.set k { c with resumed := true } } k)
      else none
    | _, _ => none
  | .close => if s.stage = .session then some s.close else none
  | .lateConnected ok =>
    match s.cleanup with
    | .lateConnect k =>
      if s.isSettled k then some (if ok then s.disconnectNow else s.releaseLease) else none
    | _ => none
  | .disconnect =>
    match s.cleanup with
    | .waiting k => if s.isSettled k then some s.disconnectNow else none
    | _ => none
  | .release =>
    match s.cleanup with
    | .disconnecting k => if s.isSettled k then some s.releaseLease else none
    | _ => none

end State

/-- A connection as a machine. -/
def machine : Machine State Event where
  start s := s = {}
  step s := s.step

end PlugAgente.Operation.Native
