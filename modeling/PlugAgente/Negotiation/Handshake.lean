import PlugAgente.Machine.Transition

/-!
# The capabilities handshake

`CapabilitiesNegotiator` registers the agent with the hub and waits for its capabilities.
Registering is awaited twice, for the profile and for the emission, and the timeout is armed in
the continuation.  A timeout registers again, `capabilitiesMaxReRegisterAttempts` times, and then
forces a reconnect.

The state holds the fields of the negotiator with the timers that the event loop has and the
calls of `_sendAgentRegister` that are suspended.  Beside them it keeps a record of who caused
what: a handshake begins with `sendRegisterAndStartTimeout` or `sendReRegisterAfterReconnect`,
and every register, timer and reconnect belongs to the handshake whose continuation or timer made
it.
-/

namespace PlugAgente.Negotiation

/-- `ConnectionConstants.capabilitiesMaxReRegisterAttempts`. -/
def capabilitiesMaxReRegisterAttempts : Nat := 2

/-- A handshake: its number, and the resets before it began. -/
structure Handshake where
  id : Nat
  resets : Nat
  deriving DecidableEq

/-- Who awaits a call of `_sendAgentRegister`. -/
inductive Caller where
  | sendRegisterAndStartTimeout
  | sendReRegisterAfterReconnect
  | timeoutTimer
  deriving DecidableEq

/-- What a suspended call of `_sendAgentRegister` waits for. -/
inductive Stage where
  | profile
  | emission
  deriving DecidableEq

/-- A call of `_sendAgentRegister` that is suspended. -/
structure Register where
  owner : Handshake
  caller : Caller
  stage : Stage
  deriving DecidableEq

/-- A timer of the event loop. -/
structure Timer where
  id : Nat
  owner : Handshake
  deriving DecidableEq

/-- What a handshake does. -/
inductive Effect where
  | registerEmitted
  | reRegistered
  | timerArmed
  | reconnectForced
  deriving DecidableEq

/-- What a handshake did, and the resets before that. -/
structure Event where
  effect : Effect
  owner : Handshake
  resets : Nat
  deriving DecidableEq

/-- `CapabilitiesNegotiator`, with the event loop and the record. -/
structure CapabilitiesNegotiator where
  capabilitiesTimeoutTimer : Option Nat
  reRegisterCount : Nat
  hasReceivedCapabilities : Bool
  awaitingPostReconnectCapabilities : Bool
  timers : List Timer
  nextTimer : Nat
  registers : List Register
  begun : Nat
  resets : Nat
  events : List Event
  deriving DecidableEq

namespace CapabilitiesNegotiator

/-- A negotiator that has done nothing. -/
def initial : CapabilitiesNegotiator :=
  { capabilitiesTimeoutTimer := none, reRegisterCount := 0, hasReceivedCapabilities := false
    awaitingPostReconnectCapabilities := false, timers := [], nextTimer := 0, registers := []
    begun := 0, resets := 0, events := [] }

/-- A handshake does something. -/
def record (s : CapabilitiesNegotiator) (effect : Effect) (owner : Handshake) :
    CapabilitiesNegotiator :=
  { s with events := s.events ++ [⟨effect, owner, s.resets⟩] }

/-- `_capabilitiesTimeoutTimer?.cancel()` and `_capabilitiesTimeoutTimer = null`. -/
def cancelTimer (s : CapabilitiesNegotiator) : CapabilitiesNegotiator :=
  match s.capabilitiesTimeoutTimer with
  | none => s
  | some id =>
    { s with capabilitiesTimeoutTimer := none, timers := s.timers.filter (·.id ≠ id) }

/-- `_startTimeoutTimer`, called for a handshake. -/
def startTimeoutTimer (s : CapabilitiesNegotiator) (owner : Handshake) : CapabilitiesNegotiator :=
  let s := s.cancelTimer.record .timerArmed owner
  { s with
    capabilitiesTimeoutTimer := some s.nextTimer
    timers := s.timers ++ [⟨s.nextTimer, owner⟩]
    nextTimer := s.nextTimer + 1 }

/-- A call of `_sendAgentRegister`, up to where it awaits the profile. -/
def sendAgentRegister (s : CapabilitiesNegotiator) (owner : Handshake) (caller : Caller) :
    CapabilitiesNegotiator :=
  { s with registers := s.registers ++ [⟨owner, caller, .profile⟩] }

/-- A handshake begins. -/
def begin (s : CapabilitiesNegotiator) (caller : Caller) : CapabilitiesNegotiator :=
  ({ s with reRegisterCount := 0, begun := s.begun + 1 } : CapabilitiesNegotiator).sendAgentRegister
    ⟨s.begun, s.resets⟩ caller

/-- `sendRegisterAndStartTimeout`, up to its first `await`. -/
def sendRegisterAndStartTimeout (s : CapabilitiesNegotiator) : CapabilitiesNegotiator :=
  s.begin .sendRegisterAndStartTimeout

/-- `sendReRegisterAfterReconnect`, up to its first `await`. -/
def sendReRegisterAfterReconnect (s : CapabilitiesNegotiator) : CapabilitiesNegotiator :=
  ({ s with awaitingPostReconnectCapabilities := true } : CapabilitiesNegotiator).begin
    .sendReRegisterAfterReconnect

/-- What the caller does with the answer of `_sendAgentRegister`. -/
def registered (s : CapabilitiesNegotiator) (r : Register) (sent : Bool) :
    CapabilitiesNegotiator :=
  if sent then s.startTimeoutTimer r.owner
  else
    let s := match r.caller with
      | .sendReRegisterAfterReconnect => { s with awaitingPostReconnectCapabilities := false }
      | _ => s
    s.record .reconnectForced r.owner

/-- `_sendAgentRegister` goes on with the profile; the schema validation may reject the data. -/
def profileLoaded (s : CapabilitiesNegotiator) (i : Nat) (r : Register) (valid : Bool) :
    CapabilitiesNegotiator :=
  if valid then
    ({ s with registers := s.registers.set i { r with stage := .emission } } :
      CapabilitiesNegotiator).record .registerEmitted r.owner
  else ({ s with registers := s.registers.eraseIdx i } : CapabilitiesNegotiator).registered r false

/-- The callback of the timer. -/
def timeout (s : CapabilitiesNegotiator) (t : Timer) : CapabilitiesNegotiator :=
  if s.hasReceivedCapabilities then s
  else if s.reRegisterCount < capabilitiesMaxReRegisterAttempts then
    (({ s with reRegisterCount := s.reRegisterCount + 1 } : CapabilitiesNegotiator).record
      .reRegistered t.owner).sendAgentRegister t.owner .timeoutTimer
  else
    ({ s with reRegisterCount := 0 } : CapabilitiesNegotiator).record .reconnectForced t.owner

/-- The outcomes of `handleEnvelope`; a payload without capabilities leaves the flag. -/
inductive Envelope where
  | success
  | missingCapabilities
  | failure
  deriving DecidableEq

def handleEnvelope (s : CapabilitiesNegotiator) : Envelope → CapabilitiesNegotiator
  | .success =>
    { s.cancelTimer with
      hasReceivedCapabilities := true, awaitingPostReconnectCapabilities := false }
  | .missingCapabilities => s
  | .failure => { s with awaitingPostReconnectCapabilities := false }

/-- `reset`, and `resetForReconnect`, which awaits the capabilities of the reconnect. -/
def resetWith (s : CapabilitiesNegotiator) (awaiting : Bool) : CapabilitiesNegotiator :=
  { s.cancelTimer with
    reRegisterCount := 0, hasReceivedCapabilities := false
    awaitingPostReconnectCapabilities := awaiting, resets := s.resets + 1 }

def reset (s : CapabilitiesNegotiator) : CapabilitiesNegotiator :=
  s.resetWith false

def resetForReconnect (s : CapabilitiesNegotiator) : CapabilitiesNegotiator :=
  s.resetWith true

def markAwaitingPostReconnectCapabilities (s : CapabilitiesNegotiator) : CapabilitiesNegotiator :=
  { s with awaitingPostReconnectCapabilities := true }

end CapabilitiesNegotiator

/-- What happens to a negotiator: calls, and suspended calls and timers that go on. -/
inductive Action where
  | sendRegisterAndStartTimeout
  | sendReRegisterAfterReconnect
  | profileLoaded (i : Nat) (valid : Bool)
  | emitted (i : Nat) (sent : Bool)
  | registerThrew (i : Nat)
  | timeout (i : Nat)
  | handleEnvelope (envelope : CapabilitiesNegotiator.Envelope)
  | reset
  | resetForReconnect
  | markAwaitingPostReconnectCapabilities
  deriving DecidableEq

open CapabilitiesNegotiator in
def step (s : CapabilitiesNegotiator) : Action → Option CapabilitiesNegotiator
  | .sendRegisterAndStartTimeout => some s.sendRegisterAndStartTimeout
  | .sendReRegisterAfterReconnect => some s.sendReRegisterAfterReconnect
  | .profileLoaded i valid =>
    match s.registers[i]? with
    | some r => if r.stage = .profile then some (s.profileLoaded i r valid) else none
    | none => none
  | .emitted i sent =>
    match s.registers[i]? with
    | some r =>
      if r.stage = .emission then
        some (({ s with registers := s.registers.eraseIdx i } : CapabilitiesNegotiator).registered
          r sent)
      else none
    | none => none
  | .registerThrew i =>
    if i < s.registers.length then some { s with registers := s.registers.eraseIdx i } else none
  | .timeout i =>
    match s.timers[i]? with
    | some t =>
      some (({ s with timers := s.timers.eraseIdx i } : CapabilitiesNegotiator).timeout t)
    | none => none
  | .handleEnvelope envelope => some (s.handleEnvelope envelope)
  | .reset => some s.reset
  | .resetForReconnect => some s.resetForReconnect
  | .markAwaitingPostReconnectCapabilities => some s.markAwaitingPostReconnectCapabilities

def negotiator : Machine CapabilitiesNegotiator Action where
  start s := s = CapabilitiesNegotiator.initial
  step := step

end PlugAgente.Negotiation
