import PlugAgente.Machine.Ledger
import PlugAgente.Machine.Rows
import PlugAgente.Machine.Transition
import PlugAgente.Wire.RpcWireMap

/-!
# Idempotent execution

`RpcMethodHandlerIdempotencyOrchestrator` and `RpcIdempotencyCoordinator` as a
machine.  Any number of requests are handled at once.  A request may look into the
store before it enters (`prefetch`); when it enters, it becomes the leader of its
key or follows the leader that is there; the leader looks into the store under the
lock, executes, and stores a success.  Requests wait at the store and during the
execution, and anything may happen in between.

Every answer carries where it comes from: the request whose execution produced it,
or the request that was told of a conflict.  The code sees nothing of this.

An entry may leave the store at any time, which covers its lifetime and the bound
on the number of entries.  The fingerprint of a request comes from its handler.
-/

namespace PlugAgente.Idempotency

open PlugAgente.Wire

/-! ## Requests and responses -/

/-- What the orchestrator reads of a request, with the fingerprint its handler
passes. -/
structure RpcRequest where
  id : Option String
  method : String
  idempotencyKey : Option String
  fingerprint : String
  deriving DecidableEq, Repr

def RpcRequest.isNotification (r : RpcRequest) : Bool :=
  r.id.isNone

/-- `namespacedRpcIdempotencyStoreKey`. -/
def RpcRequest.namespacedKey (r : RpcRequest) (idempotencyKey : String) : String :=
  r.method ++ ":" ++ idempotencyKey

structure RpcResponse (V : Type) where
  jsonrpc : String := "2.0"
  id : Option String
  result : Option (Json V) := none
  error : Option (Json V) := none
  apiVersion : Option String := none
  responseMeta : Option (Entries V) := none

def RpcResponse.isSuccess {V : Type} (r : RpcResponse V) : Bool :=
  r.error.isNone

/-- `RpcWireMap.sanitizeRpcResponse`. -/
def sanitizeRpcResponse {V : Type} (response : RpcResponse V) : RpcResponse V :=
  match response.result with
  | some (.map result) => { response with result := some (.map (sanitizeResult result)) }
  | _ => response

def remapResponseId {V : Type} (response : RpcResponse V) (id : Option String) : RpcResponse V :=
  { response with id := id }

/-- The `invalidParams` answer to a key that was used with another payload, with
what the code puts into its data beyond the texts every such error has. -/
def conflictResponse {V : Type} (r : RpcRequest) (idempotencyKey : String) : RpcResponse V where
  id := r.id
  error := some (.map
    [("code", .int (-32602)), ("message", .text "Invalid params"),
      ("data", .map
        ([("reason", .text
            (if r.method.startsWith "agent.action." then "remote_idempotency_fingerprint_mismatch"
            else "invalid_params")),
          ("technical_message",
            .text "idempotency_key was already used with a different request payload"),
          ("detail", .text "idempotency_key was already used with a different request payload"),
          ("method", .text r.method)] ++
        if r.method.startsWith "agent.action." then
          [("category", .text "action"), ("idempotency_key", .text idempotencyKey)]
        else []))])

/-- Where an answer comes from. -/
inductive Origin where
  | execution (call : Nat)
  | conflict (call : Nat)
  deriving DecidableEq, Repr

/-- A response with its origin. -/
structure Answer (V : Type) where
  response : RpcResponse V
  origin : Origin

/-- `IdempotencyRecord`. -/
structure Record (V : Type) where
  answer : Answer V
  requestFingerprint : Option String

/-! ## The machine -/

/-- Where the handling of a request stands. -/
inductive Phase (V : Type) where
  | arrived
  | executing
  | checking
  | leading
  | storing (answer : Answer V)
  | following (leader : Nat)
  | answered (answer : Answer V)
  | failed

/-- A request that is handled. -/
structure Call (V : Type) where
  request : RpcRequest
  phase : Phase V := .arrived

/-- The state: the requests, the futures in flight by key, and the store. -/
structure State (V : Type) where
  calls : List (Call V) := []
  inFlightByKey : String → Option Nat := fun _ => none
  store : String → Option (Record V) := fun _ => none

/-- The configuration: the feature flag, and whether there is a store. -/
structure Config where
  enableSocketIdempotency : Bool
  hasStore : Bool
  deriving DecidableEq, Repr

/-- The key under which a request is idempotent, if it is. -/
def idempotentKey (cfg : Config) (r : RpcRequest) : Option String :=
  match r.idempotencyKey with
  | none => none
  | some key =>
    if r.isNotification || !cfg.enableSocketIdempotency || key.isEmpty || !cfg.hasStore then none
    else some (r.namespacedKey key)

inductive Event (V : Type) where
  | arrive (request : RpcRequest)
  | prefetch (call : Nat)
  | enter (call : Nat)
  | lookup (call : Nat)
  | execute (call : Nat) (response : RpcResponse V)
  | store (call : Nat)
  | follow (call : Nat)
  | throw (call : Nat)
  | evict (key : String)

namespace State

variable {V : Type} (cfg : Config)

/-- Move a call on. -/
def setPhase (s : State V) (i : Nat) (call : Call V) (phase : Phase V) : State V :=
  { s with calls := s.calls.set i { call with phase := phase } }

/-- The `finally` of a leader: its future leaves the map if it is still there. -/
def release (s : State V) (i : Nat) (key : String) : State V :=
  { s with
    inFlightByKey := fun k =>
      if k = key ∧ s.inFlightByKey k = some i then none else s.inFlightByKey k }

/-- The caller gets an answer under its own id. -/
def answer (s : State V) (i : Nat) (call : Call V) (a : Answer V) : State V :=
  s.setPhase i call (.answered { a with response := remapResponseId a.response call.request.id })

/-- What `consumeIdempotentCacheIfAny` answers for a record, if anything. -/
def consumeRecord (i : Nat) (r : RpcRequest) : Option (Record V) → Option (Answer V)
  | none => none
  | some record =>
    match record.requestFingerprint with
    | some fingerprint =>
      if fingerprint ≠ r.fingerprint then
        some ⟨conflictResponse r (r.idempotencyKey.getD ""), .conflict i⟩
      else some record.answer
    | none => some record.answer

def consumeIdempotentCacheIfAny (s : State V) (i : Nat) (r : RpcRequest) : Option (Answer V) :=
  match idempotentKey cfg r with
  | none => none
  | some key => consumeRecord i r (s.store key)

/-- `runIdempotentExecution` and `runExclusive`, up to the point where the request
waits. -/
def enter (s : State V) (i : Nat) (call : Call V) : State V :=
  match idempotentKey cfg call.request with
  | none => s.setPhase i call .executing
  | some key =>
    match s.inFlightByKey key with
    | some leader => s.setPhase i call (.following leader)
    | none =>
      { s.setPhase i call .checking with
        inFlightByKey := fun k => if k = key then some i else s.inFlightByKey k }

/-- A leader is done: its future completes and leaves the map. -/
def finish (s : State V) (i : Nat) (call : Call V) (a : Answer V) : State V :=
  match idempotentKey cfg call.request with
  | none => s.answer i call a
  | some key => (s.answer i call a).release i key

/-- `storeIdempotentSuccessIfApplicable`, once the store has written. -/
def storeAnswer (s : State V) (call : Call V) (a : Answer V) : State V :=
  match idempotentKey cfg call.request with
  | none => s
  | some key =>
    { s with
      store := fun k =>
        if k = key then some ⟨a, some call.request.fingerprint⟩ else s.store k }

def step (s : State V) : Event V → Option (State V)
  | .arrive request => some { s with calls := s.calls ++ [{ request := request }] }
  | .prefetch i =>
    match s.calls[i]? with
    | some ⟨r, .arrived⟩ =>
      match s.consumeIdempotentCacheIfAny cfg i r with
      | some a => some (s.answer i ⟨r, .arrived⟩ a)
      | none => some s
    | _ => none
  | .enter i =>
    match s.calls[i]? with
    | some ⟨r, .arrived⟩ => some (s.enter cfg i ⟨r, .arrived⟩)
    | _ => none
  | .lookup i =>
    match s.calls[i]? with
    | some ⟨r, .checking⟩ =>
      match s.consumeIdempotentCacheIfAny cfg i r with
      | some a => some (s.finish cfg i ⟨r, .checking⟩ a)
      | none => some (s.setPhase i ⟨r, .checking⟩ .leading)
    | _ => none
  | .execute i response =>
    match s.calls[i]? with
    | some ⟨r, .executing⟩ =>
      some (s.setPhase i ⟨r, .executing⟩ (.answered ⟨response, .execution i⟩))
    | some ⟨r, .leading⟩ =>
      let a : Answer V := ⟨sanitizeRpcResponse response, .execution i⟩
      if a.response.isSuccess then some (s.setPhase i ⟨r, .leading⟩ (.storing a))
      else some (s.finish cfg i ⟨r, .leading⟩ a)
    | _ => none
  | .store i =>
    match s.calls[i]? with
    | some ⟨r, .storing a⟩ =>
      some ((s.storeAnswer cfg ⟨r, .storing a⟩ a).finish cfg i ⟨r, .storing a⟩ a)
    | _ => none
  | .follow i =>
    match s.calls[i]? with
    | some ⟨r, .following leader⟩ =>
      match s.calls[leader]? with
      | some ⟨_, .answered a⟩ => some (s.answer i ⟨r, .following leader⟩ a)
      | some ⟨_, .failed⟩ => some (s.setPhase i ⟨r, .following leader⟩ .failed)
      | _ => none
    | _ => none
  | .throw i =>
    -- The execution throws, or the store does; a leader leaves the map.
    match s.calls[i]? with
    | some ⟨r, .executing⟩ => some (s.setPhase i ⟨r, .executing⟩ .failed)
    | some ⟨r, .checking⟩ =>
      some ((s.setPhase i ⟨r, .checking⟩ .failed).release i ((idempotentKey cfg r).getD ""))
    | some ⟨r, .leading⟩ =>
      some ((s.setPhase i ⟨r, .leading⟩ .failed).release i ((idempotentKey cfg r).getD ""))
    | some ⟨r, .storing a⟩ =>
      some ((s.setPhase i ⟨r, .storing a⟩ .failed).release i ((idempotentKey cfg r).getD ""))
    | _ => none
  | .evict key => some { s with store := fun k => if k = key then none else s.store k }

end State

/-- The orchestrator as a machine that starts with no request and an empty
store. -/
def machine (V : Type) (cfg : Config) : Machine (State V) (Event V) where
  start s := s = {}
  step s := s.step cfg

end PlugAgente.Idempotency
