import PlugAgente.Cancellation.NativeAbort
import PlugAgente.Cancellation.StreamingCoordinator
import PlugAgente.Wire.Json

/-!
# `sql.cancel`

`handleSqlCancel` looks for a stream by the ids of its params, then for the owner of the request
that its target id names, and checks the credential that the params carry against the owner it
found.  What it goes on to is a `CancelVerdict`.

`SqlRun` is the agent around it: the SQL requests that are dispatched, the streams, and the
executions that run natively.  A native execution has the credential of the request that started
it, and an abort its cause: a credential for `sql.cancel`, `none` for the agent's own aborts.
-/

namespace PlugAgente.Cancellation

open Dart Authorization Wire

variable {V : Type}

/-! ## The handler -/

/-- `FeatureFlags.enableSocketCancelMethod` and `enableClientTokenAuthorization`, and whether the
handler has a streaming gateway and an abort port. -/
structure SqlCancelConfig where
  enableSocketCancelMethod : Bool := true
  enableClientTokenAuthorization : Bool := true
  hasGateway : Bool := true
  hasAbortPort : Bool := true

/-- The failure of `_cancelAuthorizationDenied`. -/
structure CancelDenied where
  message : String := "sql.cancel is not authorized for the active SQL request."
  authorization : Bool := true
  reason : String := "cancel_token_mismatch"
  targetRequestId : Text

/-- The responses of `sql.cancel`; `threw` is a cast of a param that fails. -/
inductive CancelReply where
  | methodNotFound
  | invalidParams (detail : String)
  | executionNotFound
  | denied (failure : CancelDenied)
  | cancelled (viaInFlightAbort : Bool) (executionId requestId : Option Text)
  | threw

/-- What the handler goes on to: it replies, or it cancels first and replies with a success. -/
inductive CancelVerdict where
  | reply (response : CancelReply)
  | cancelStream (execution : ActiveSqlStreamExecution) (success : CancelReply)
  | abortInFlight (targetId : Text) (success : CancelReply)

/-- A value of a map, `null` when the key is not there. -/
def valueOf (params : Entries V) (key : String) : Json V :=
  (params.lookup key).getD .null

/-- `params[key] as String?`. -/
def stringOrNull (params : Entries V) (key : String) : Except Unit (Option Text) :=
  match valueOf params key with
  | .null => .ok none
  | .text value => .ok (some value.toList)
  | _ => .error ()

/-- `a ?? b`. -/
def orElseNull (a b : Json V) : Json V :=
  if a.isNull then b else a

def extractClientTokenFromRpcParams (params : Entries V) : Option Text :=
  match orElseNull (orElseNull (valueOf params "client_token") (valueOf params "auth"))
    (valueOf params "clientToken") with
  | .text raw => if (trim raw.toList).isEmpty then none else some (trim raw.toList)
  | _ => none

/-- The hash of the credential that the params carry. -/
def cancelCredential (env : AuthorizeEnv) (params : Entries V) : Option Text :=
  (extractClientTokenFromRpcParams params).map env.hashToken

def isCancellationAuthorized (env : AuthorizeEnv) (config : SqlCancelConfig) (params : Entries V)
    (ownerCredentialHash : Option Text) : Bool :=
  if !config.enableClientTokenAuthorization then true
  else
    match cancelCredential env params, ownerCredentialHash with
    | some credential, some owner => credential = owner
    | _, _ => false

def resolveInFlightAbortTargetId (executionId requestId : Option Text) : Option Text :=
  match SqlStreamingCoordinator.normalized requestId with
  | some requestId => some requestId
  | none => SqlStreamingCoordinator.normalized executionId

/-- An id that is not given. -/
def isMissing (id : Option Text) : Bool :=
  match id with
  | none => true
  | some id => id.isEmpty

/-- `handleSqlCancel` with its ids, after the params are read. -/
def cancelByIds (env : AuthorizeEnv) (config : SqlCancelConfig) (c : SqlStreamingCoordinator)
    (params : Entries V) (executionId requestId : Option Text) : CancelVerdict :=
  if isMissing executionId && isMissing requestId then
    .reply (.invalidParams "At least one of execution_id or request_id is required")
  else
    match c.find executionId requestId with
    | some execution =>
      if !config.hasGateway then .reply .executionNotFound
      else if !isCancellationAuthorized env config params execution.ownerCredentialHash then
        .reply (.denied { targetRequestId := execution.requestId.getD execution.executionId })
      else .cancelStream execution (.cancelled false executionId requestId)
    | none =>
      match resolveInFlightAbortTargetId executionId requestId with
      | none => .reply .executionNotFound
      | some targetId =>
        if !config.hasAbortPort then .reply .executionNotFound
        else
          match c.findRequestOwner targetId with
          | none => .reply .executionNotFound
          | some owner =>
            if !isCancellationAuthorized env config params owner.credentialHash then
              .reply (.denied { targetRequestId := targetId })
            else .abortInFlight targetId (.cancelled true executionId requestId)

/-- The params of a request, empty when there are none. -/
def paramsOf : Option (Json V) → Option (Entries V)
  | none => some []
  | some .null => some []
  | some (.map params) => some params
  | some _ => none

/-- `handleSqlCancel`, up to its first await. -/
def handleSqlCancel (env : AuthorizeEnv) (config : SqlCancelConfig) (c : SqlStreamingCoordinator)
    (requestParams : Option (Json V)) : CancelVerdict :=
  if !config.enableSocketCancelMethod then .reply .methodNotFound
  else
    match paramsOf requestParams with
    | none => .reply (.invalidParams "params must be an object")
    | some params =>
      match stringOrNull params "execution_id", stringOrNull params "request_id" with
      | .ok executionId, .ok requestId => cancelByIds env config c params executionId requestId
      | _, _ => .reply .threw

/-! ## The agent around it -/

/-- The streams, the native executions, the SQL requests that are dispatched, and the streams that
`sql.cancel` cancelled, with the credential it carried. -/
structure SqlRun where
  streams : StreamRun := {}
  aborts : InFlightAborts (Option Text) := {}
  requests : List Text := []
  streamsCancelled : List (ActiveSqlStreamExecution × Option Text) := []

/-- SQL requests arrive and end, streams and native executions run, and `sql.cancel` is called.  Its
gateway call is awaited when the gateway has an active stream. -/
inductive SqlAction (V : Type) where
  | dispatch (requestId : Text) (clientToken : Option Text)
  | dispatched (i : Nat)
  | stream (action : StreamAction)
  | native (action : AbortAction (Option Text))
  | sqlCancel (requestParams : Option (Json V)) (awaited : Bool)

/-- An action of the streams that is not a cancel: that is `sql.cancel`. -/
def isStreamAction : StreamAction → Bool
  | .cancel _ _ => false
  | _ => true

/-- An abort that the agent asks for itself has no credential. -/
def isOwnAction : AbortAction (Option Text) → Bool
  | .abort _ _ (some _) => false
  | _ => true

namespace SqlRun

/-- `RpcMethodDispatcher.dispatch` reserves the id of the request; a request whose id is reserved
is refused. -/
def dispatch (env : AuthorizeEnv) (s : SqlRun) (requestId : Text) (clientToken : Option Text) :
    SqlRun :=
  let (reserved, coordinator) :=
    s.streams.coordinator.reserveRequestOwner env requestId clientToken
  if reserved then
    { s with
      streams := { s.streams with coordinator := coordinator }
      requests := s.requests ++ [requestId] }
  else s

/-- What a verdict of the handler does. -/
def apply (pendingAbortTtl : Nat) (s : SqlRun) (credential : Option Text) (awaited : Bool) :
    CancelVerdict → SqlRun
  | .reply _ => s
  | .cancelStream execution _ =>
    { s with
      streams := s.streams.cancel execution awaited
      streamsCancelled := s.streamsCancelled ++ [(execution, credential)] }
  | .abortInFlight targetId _ =>
    { s with
      aborts := s.aborts.abortInFlightExecution pendingAbortTtl targetId false credential }

def step (env : AuthorizeEnv) (config : SqlCancelConfig) (pendingAbortTtl : Nat) (s : SqlRun) :
    SqlAction V → Option SqlRun
  | .dispatch requestId clientToken => some (s.dispatch env requestId clientToken)
  | .dispatched i =>
    s.requests[i]?.map fun requestId =>
      { s with
        streams := { s.streams with
          coordinator := s.streams.coordinator.releaseRequestOwner requestId }
        requests := s.requests.eraseIdx i }
  | .stream action =>
    if isStreamAction action then
      (s.streams.step env action).map fun streams => { s with streams := streams }
    else none
  | .native action =>
    if isOwnAction action then
      (s.aborts.step pendingAbortTtl action).map fun aborts => { s with aborts := aborts }
    else none
  | .sqlCancel requestParams awaited =>
    let credential := (paramsOf requestParams).bind (cancelCredential env)
    some (s.apply pendingAbortTtl credential awaited
      (handleSqlCancel env config s.streams.coordinator requestParams))

end SqlRun

/-- The agent with its SQL requests, from its start on. -/
def sqlMachine (V : Type) (env : AuthorizeEnv) (config : SqlCancelConfig) (pendingAbortTtl : Nat) :
    Machine SqlRun (SqlAction V) where
  start s := s = {}
  step := SqlRun.step env config pendingAbortTtl

end PlugAgente.Cancellation
