import Mathlib.Data.List.AList
import PlugAgente.Authorization.Authorize
import PlugAgente.Machine.Transition

/-!
# The streams that run, and who may cancel them

`SqlStreamingCoordinator` keeps every stream that runs under its stream id, its execution id and
the id of its request, and the owner of each request that is in flight.

An execution is an object: `object` says which one it is, so that two executions are equal only
when they are the same object, as Dart compares them.

`StreamRun` is the coordinator with what happened around it: the executions that were started,
those that were cancelled or finished, and the calls of the gateway that are awaited.
-/

namespace PlugAgente.Cancellation

open Dart Authorization

/-- A map with the keys of a Dart `Map<String, _>`. -/
abbrev TextMap (α : Type) := AList fun _ : Text => α

/-- `Map.putIfAbsent`. -/
def TextMap.putIfAbsent {α : Type} (m : TextMap α) (key : Text) (value : α) : TextMap α :=
  match m.lookup key with
  | some _ => m
  | none => m.insert key value

/-- `ActiveSqlStreamExecution`, without its cancellation token. -/
structure ActiveSqlStreamExecution where
  object : Nat
  streamId : Text
  executionId : Text
  requestId : Option Text
  ownerCredentialHash : Option Text
deriving DecidableEq

structure ActiveSqlRequestOwner where
  credentialHash : Option Text
deriving DecidableEq

/-- The hash of the credential that owns a request or a stream, `none` without a client token. -/
def ownerCredentialHash (env : AuthorizeEnv) (clientToken : Option Text) : Option Text :=
  match clientToken with
  | none => none
  | some token =>
    let owner := normalizeClientCredentialToken env.cm token
    if owner.isEmpty then none else some (env.hashToken owner)

structure SqlStreamingCoordinator where
  activeByStreamId : TextMap ActiveSqlStreamExecution := ∅
  activeByExecutionId : TextMap ActiveSqlStreamExecution := ∅
  activeByRequestId : TextMap ActiveSqlStreamExecution := ∅
  activeRequestOwners : TextMap ActiveSqlRequestOwner := ∅

namespace SqlStreamingCoordinator

def reserveRequestOwner (env : AuthorizeEnv) (c : SqlStreamingCoordinator) (requestId : Text)
    (clientToken : Option Text) : Bool × SqlStreamingCoordinator :=
  let normalizedRequestId := trim requestId
  if normalizedRequestId.isEmpty || (c.activeRequestOwners.lookup normalizedRequestId).isSome then
    (false, c)
  else
    (true, { c with
      activeRequestOwners :=
        c.activeRequestOwners.insert normalizedRequestId ⟨ownerCredentialHash env clientToken⟩ })

def releaseRequestOwner (c : SqlStreamingCoordinator) (requestId : Text) :
    SqlStreamingCoordinator :=
  { c with activeRequestOwners := c.activeRequestOwners.erase (trim requestId) }

def findRequestOwner (c : SqlStreamingCoordinator) (requestId : Text) :
    Option ActiveSqlRequestOwner :=
  c.activeRequestOwners.lookup (trim requestId)

/-- The id that is looked up, when there is one: trimmed, and not empty. -/
def normalized (id : Option Text) : Option Text :=
  match id with
  | none => none
  | some id => if (trim id).isEmpty then none else some (trim id)

/-- The requests with an execution that starts: the first one keeps its place. -/
def registerRequest (c : SqlStreamingCoordinator) (execution : ActiveSqlStreamExecution) :
    TextMap ActiveSqlStreamExecution :=
  match normalized execution.requestId with
  | some requestId => TextMap.putIfAbsent c.activeByRequestId requestId execution
  | none => c.activeByRequestId

/-- `markStarted`; the object is the one that is created. -/
def markStarted (env : AuthorizeEnv) (c : SqlStreamingCoordinator) (object : Nat)
    (streamId executionId : Text) (requestId clientToken : Option Text) :
    Except Text (ActiveSqlStreamExecution × SqlStreamingCoordinator) :=
  if (c.activeByStreamId.lookup streamId).isSome then
    .error ("Duplicate streamId in SqlStreamingCoordinator: ".toList ++ streamId ++
      " is already tracked".toList)
  else if (c.activeByExecutionId.lookup executionId).isSome then
    .error ("Duplicate executionId in SqlStreamingCoordinator: ".toList ++ executionId ++
      " is already tracked".toList)
  else
    let execution : ActiveSqlStreamExecution :=
      ⟨object, streamId, executionId, requestId, ownerCredentialHash env clientToken⟩
    .ok (execution, { c with
      activeByStreamId := c.activeByStreamId.insert streamId execution
      activeByExecutionId := c.activeByExecutionId.insert executionId execution
      activeByRequestId := c.registerRequest execution })

/-- `markFinished`.  The request id is removed as it was given. -/
def markFinished (c : SqlStreamingCoordinator) (execution : ActiveSqlStreamExecution) :
    SqlStreamingCoordinator :=
  if c.activeByStreamId.lookup execution.streamId = some execution then
    { c with
      activeByStreamId := c.activeByStreamId.erase execution.streamId
      activeByExecutionId := c.activeByExecutionId.erase execution.executionId
      activeByRequestId :=
        match execution.requestId with
        | some requestId => c.activeByRequestId.erase requestId
        | none => c.activeByRequestId }
  else c

def find (c : SqlStreamingCoordinator) (executionId requestId : Option Text) :
    Option ActiveSqlStreamExecution :=
  match (normalized executionId).bind fun id => c.activeByExecutionId.lookup id with
  | some execution => some execution
  | none => (normalized requestId).bind fun id => c.activeByRequestId.lookup id

/-- `_activeByStreamId.values`. -/
def activeExecutions (c : SqlStreamingCoordinator) : List ActiveSqlStreamExecution :=
  c.activeByStreamId.entries.map Sigma.snd

def clearActive (c : SqlStreamingCoordinator) : SqlStreamingCoordinator :=
  { c with activeByStreamId := ∅, activeByExecutionId := ∅, activeByRequestId := ∅ }

end SqlStreamingCoordinator

/-- The coordinator, the executions that were started, cancelled or finished, those to which their
request id resolved when they started, the cancels that wait for the gateway, and how many
disconnects do. -/
structure StreamRun where
  coordinator : SqlStreamingCoordinator := {}
  started : List ActiveSqlStreamExecution := []
  cancelled : List ActiveSqlStreamExecution := []
  finished : List ActiveSqlStreamExecution := []
  registrants : List ActiveSqlStreamExecution := []
  cancels : List ActiveSqlStreamExecution := []
  disconnects : Nat := 0

/-- What the coordinator is asked to do, and the returns of the gateway.  A call is awaited when
the gateway has an active stream. -/
inductive StreamAction where
  | markStarted (streamId executionId : Text) (requestId clientToken : Option Text)
  | markFinished (i : Nat)
  | cancel (i : Nat) (awaited : Bool)
  | cancelReturned (i : Nat) (success : Bool)
  | disconnect (awaited : Bool)
  | disconnectReturned (success : Bool)

namespace StreamRun

def finish (s : StreamRun) (execution : ActiveSqlStreamExecution) : StreamRun :=
  { s with
    coordinator := s.coordinator.markFinished execution
    finished := execution :: s.finished }

/-- An execution is started, with what `markStarted` returned. -/
def begin (s : StreamRun) (execution : ActiveSqlStreamExecution)
    (coordinator : SqlStreamingCoordinator) : StreamRun :=
  { s with
    coordinator := coordinator
    started := s.started ++ [execution]
    registrants :=
      if coordinator.find none execution.requestId = some execution then execution :: s.registrants
      else s.registrants }

/-- The executions are dropped. -/
def clear (s : StreamRun) : StreamRun :=
  { s with coordinator := s.coordinator.clearActive }

/-- `cancel`: the token is cancelled first, and the execution is finished unless the gateway has
to be asked. -/
def cancel (s : StreamRun) (execution : ActiveSqlStreamExecution) (awaited : Bool) : StreamRun :=
  let s := { s with cancelled := execution :: s.cancelled }
  if awaited then { s with cancels := s.cancels ++ [execution] } else s.finish execution

/-- `cancelActiveStreamOnDisconnect`. -/
def disconnect (s : StreamRun) (awaited : Bool) : StreamRun :=
  if s.coordinator.activeExecutions.isEmpty then s
  else
    let s := { s with cancelled := s.coordinator.activeExecutions ++ s.cancelled }
    if awaited then { s with disconnects := s.disconnects + 1 } else s.clear

/-- One step.  A second start under an id throws and changes nothing. -/
def step (env : AuthorizeEnv) (s : StreamRun) : StreamAction → Option StreamRun
  | .markStarted streamId executionId requestId clientToken =>
    match s.coordinator.markStarted env s.started.length streamId executionId requestId
      clientToken with
    | .error _ => some s
    | .ok (execution, coordinator) => some (s.begin execution coordinator)
  | .markFinished i => s.started[i]?.map s.finish
  | .cancel i awaited => s.started[i]?.map (s.cancel · awaited)
  | .cancelReturned i success =>
    s.cancels[i]?.map fun execution =>
      let s := { s with cancels := s.cancels.eraseIdx i }
      if success then s.finish execution else s
  | .disconnect awaited => some (s.disconnect awaited)
  | .disconnectReturned success =>
    if s.disconnects = 0 then none
    else
      let s := { s with disconnects := s.disconnects - 1 }
      some (if success then s.clear else s)

end StreamRun

/-- The coordinator, from the start of the agent on. -/
def streamMachine (env : AuthorizeEnv) : Machine StreamRun StreamAction where
  start s := s = {}
  step := StreamRun.step env

end PlugAgente.Cancellation
