import PlugAgente.Negotiation.Extensions

/-!
# The negotiation of the protocol

`ProtocolNegotiator.negotiate` and what `CapabilitiesNegotiator.handleEnvelope` makes of an
envelope: it reads the capabilities of the server, negotiates, and checks the outcome against
the mandatory contract of the transport.  Every exception is the failure `none`.

The flags of the handshake that the outcome sets are in `Handshake`.
-/

namespace PlugAgente.Negotiation

open Wire Dart

namespace ProtocolNegotiator

/-- The names of the agent that the server has too; the list of the agent is cast. -/
def commonNames (agent server : List Value) : Option (List String) :=
  (agent.mapM asString).map fun names => names.filter fun name => contains server name

/-- A preferred name, or the first one in common, or a default. -/
def select (preferred default : String) (common : List String) : String :=
  if common.contains preferred then preferred else common.head?.getD default

/-- The conditions of the transport for the I/O of actions. -/
def carriesActions (protocol encoding : String) (limits : TransportLimits)
    (negotiated : Extensions) : Bool :=
  protocol == "jsonrpc-v2" && encoding == "json" &&
    isValue (negotiated.lookup "binaryPayload") (.bool true) &&
    isValue (negotiated.lookup "transportFrame") (.text "payload-frame/1.0") &&
    decide (jsonBytes ≤ limits.maxDecodedPayloadBytes) &&
    decide (jsonBytes ≤ limits.maxCompressedPayloadBytes)

/-- The entry `agentActions`. -/
def agentActions (agent server : ProtocolCapabilities) (protocol encoding : String)
    (limits : TransportLimits) (negotiated : Extensions) : Option Value :=
  match enabledActions (agent.extensions.lookup "agentActions"),
    enabledActions (server.extensions.lookup "agentActions") with
  | some a, some s =>
    if carriesActions protocol encoding limits negotiated then negotiateActions a s else none
  | _, _ => none

def negotiate (agent server : ProtocolCapabilities) (preferJsonRpcV2 : Bool := true) :
    Option ProtocolConfig := do
  let commonProtocols ← commonNames agent.protocols server.protocols
  let firstProtocol ← commonProtocols.head?
  let protocol :=
    if preferJsonRpcV2 && commonProtocols.contains "jsonrpc-v2" && agent.supportsJsonRpcV2 then
      "jsonrpc-v2"
    else firstProtocol
  let commonEncodings ← commonNames agent.encodings server.encodings
  let encoding := select "json" "json" commonEncodings
  let commonCompressions ← commonNames agent.compressions server.compressions
  let compression := select "gzip" "none" commonCompressions
  let effectiveLimits := agent.limits.negotiateWith server.limits
  let negotiatedExtensions ← negotiateExtensions agent.extensions server.extensions
  let actions := agentActions agent server protocol encoding effectiveLimits negotiatedExtensions
  let signatureAlgorithms := intersectStringLists
    (agent.extensions.lookup "signatureAlgorithms")
    (server.extensions.lookup "signatureAlgorithms")
  let signatureRequired ←
    negotiateSignatureRequired agent.extensions server.extensions signatureAlgorithms
  return {
    protocol := protocol
    encoding := encoding
    compression := compression
    compressionThreshold := negotiateCompressionThreshold agent.extensions server.extensions
    maxInflationRatio := negotiateMaxInflationRatio agent.extensions server.extensions
    signatureRequired := signatureRequired
    signatureAlgorithms := signatureAlgorithms
    effectiveLimits := effectiveLimits
    negotiatedExtensions := negotiatedExtensions ++ optional "agentActions" actions }

end ProtocolNegotiator

/-- What `handleEnvelope` reads beside the envelope. -/
structure NegotiatorEnv where
  localCapabilities : ProtocolCapabilities
  hasPayloadSigner : Bool
  enableSocketSchemaValidation : Bool := true

/-- `PayloadSigner.supportedAlgorithm`. -/
def supportedAlgorithm : String := "hmac-sha256"

namespace NegotiatorEnv

def validateNegotiatedTransportContract (env : NegotiatorEnv) (config : ProtocolConfig)
    (agent server : ProtocolCapabilities) : Option Unit := do
  let agentBinary ← agent.supportsBinaryPayload
  guard agentBinary
  let serverBinary ← server.supportsBinaryPayload
  guard serverBinary
  let usesBinary ← config.usesBinaryPayload
  guard usesBinary
  guard config.usesTransportFrame
  guard (positiveInt? (agent.extensions.lookup "compressionThreshold")).isSome
  guard (1 ≤ config.compressionThreshold)
  guard (!config.maxInflationRatio.lt (.finite 1))
  let agentRequiresSignature ← asFlag (agent.extensions.lookup "signatureRequired")
  let serverRequiresSignature ← asFlag (server.extensions.lookup "signatureRequired")
  guard (!((agentRequiresSignature || serverRequiresSignature) && !env.hasPayloadSigner))
  guard (!((agentRequiresSignature || serverRequiresSignature) &&
    config.signatureAlgorithms.isEmpty))
  guard (!(config.signatureRequired && !env.hasPayloadSigner))
  guard (!(config.signatureRequired &&
    !config.signatureAlgorithms.contains supportedAlgorithm))

def validateAgentCapabilitiesEnvelope (data : Extensions) : Bool :=
  match data.lookup "capabilities" with
  | some (.map json) =>
    match ProtocolCapabilities.fromJson json with
    | some c => !(c.protocols.isEmpty || c.encodings.isEmpty || c.compressions.isEmpty)
    | none => false
  | _ => false

/-- `handleEnvelope` of what `_decodeIncoming` makes of the data. -/
def handleEnvelope (env : NegotiatorEnv) (decoded : Option Value) : Option ProtocolConfig := do
  let payload ← asMap decoded
  guard (!env.enableSocketSchemaValidation || validateAgentCapabilitiesEnvelope payload)
  let capabilities ← asMap (payload.lookup "capabilities")
  let server ← ProtocolCapabilities.fromJson capabilities
  let config ← ProtocolNegotiator.negotiate env.localCapabilities server
  env.validateNegotiatedTransportContract config env.localCapabilities server
  return config

end NegotiatorEnv

end PlugAgente.Negotiation
