import PlugAgente.Transport.ReceivePath

/-!
# Incoming frames

`decodeIncoming` and `decodeIncomingAsync` of `PayloadFrameCodec`: the shape and the bounds of
the frame, the capabilities of this side, the signature, and then the receive path.

The pipelines of `TransportPipelineCache` are fixed by their keys, so a pipeline is built from
the frame here.  What a signer says of a frame is a parameter, `none` when it throws, and it
is the same whether it is asked here or in a worker.
-/

namespace PlugAgente.Transport

open Wire Dart

variable {V : Type}

/-- A field of an incoming map. -/
inductive Field (V : Type) where
  | value (value : Json V)
  | binary (payload : Payload)

/-- An incoming value: its type, and its entries if it is a map. -/
structure Incoming (V : Type) where
  runtimeType : String
  entries : Option (List (String × Field V))

structure PayloadSignature where
  alg : String
  value : String
  keyId : String
  deriving DecidableEq, Repr

/-- What the codec reads of its providers. -/
structure PayloadFrameCodec (V : Type) where
  codecs : Codecs V
  constants : ConnectionConstants := {}
  gzipIsolateThresholdBytes : Int := 32 * 1024
  maxCompressedPayloadBytes : Int
  maxDecodedPayloadBytes : Int
  maxInflationRatio : Double := .finite 10
  compressionThreshold : Int := 4096
  signatureRequired : Bool := false
  hasReceivedCapabilities : Bool := true
  localRequiresIncomingSignature : Bool := false
  encodings : List String := ["json"]
  compressions : List String := ["gzip", "none"]
  /-- `verifyFrame` of the signer, if there is one. -/
  payloadSigner : Option (PayloadFrame V → PayloadSignature → Option Bool) := none

/-! ## The shape -/

def looksLikePayloadFrame (payload : Incoming V) : Bool :=
  match payload.entries with
  | none => false
  | some entries =>
    ["schemaVersion", "enc", "cmp", "payload", "originalSize", "compressedSize"].all fun key =>
      (entries.lookup key).isSome

/-- `as String`. -/
def asText : Option (Field V) → Option String
  | some (.value (.text t)) => some t
  | _ => none

/-- `as String?`. -/
def asOptionalText : Option (Field V) → Option (Option String)
  | none | some (.value .null) => some none
  | some (.value (.text t)) => some (some t)
  | _ => none

/-- `as int`. -/
def asInt : Option (Field V) → Option Int
  | some (.value (.int n)) => some n
  | _ => none

/-- `as Map<String, dynamic>?`. -/
def asOptionalMap : Option (Field V) → Option (Option (Entries V))
  | none | some (.value .null) => some none
  | some (.value (.map entries)) => some (some entries)
  | _ => none

/-- The payload, which may be anything. -/
def asPayload (codecs : Codecs V) : Option (Field V) → Payload
  | some (.binary payload) => payload
  | some (.value value) => .other (codecs.runtimeType value)
  | none => .other "Null"

/-- `PayloadFrame.fromJson`, which throws at a field of another type. -/
def PayloadFrame.fromJson (codecs : Codecs V) (json : List (String × Field V)) :
    Option (PayloadFrame V) := do
  let schemaVersion ← asText (json.lookup "schemaVersion")
  let enc ← asText (json.lookup "enc")
  let cmp ← asText (json.lookup "cmp")
  let contentType ← asText (json.lookup "contentType")
  let originalSize ← asInt (json.lookup "originalSize")
  let compressedSize ← asInt (json.lookup "compressedSize")
  let traceId ← asOptionalText (json.lookup "traceId")
  let requestId ← asOptionalText (json.lookup "requestId")
  let signature ← asOptionalMap (json.lookup "signature")
  return {
    schemaVersion := schemaVersion
    enc := enc
    cmp := cmp
    contentType := contentType
    originalSize := originalSize
    compressedSize := compressedSize
    payload := asPayload codecs (json.lookup "payload")
    traceId := traceId
    requestId := requestId
    signature := signature }

def PayloadSignature.fromJson (json : Entries V) : Option PayloadSignature :=
  match json.lookup "alg", json.lookup "value", json.lookup "key_id" with
  | some (.text alg), some (.text value), some (.text keyId) => some ⟨alg, value, keyId⟩
  | _, _, _ => none

/-! ## The failures -/

def validationFailed (message : String) (context : List (String × ContextValue)) : Failure :=
  ⟨.validation, message, context⟩

def notAFrame (payload : Incoming V) : Failure :=
  validationFailed "Application payload must be a PayloadFrame"
    [("payloadType", .text payload.runtimeType),
      ("rpc_error_code", .int RpcErrorCode.invalidPayload)]

def decodeFailed (payload : Incoming V) : Failure :=
  validationFailed "Failed to decode transport frame"
    [("payloadType", .text payload.runtimeType),
      ("rpc_error_code", .int RpcErrorCode.invalidPayload)]

def invalidSignature (frame : PayloadFrame V) : Failure :=
  validationFailed "Invalid transport frame signature"
    [("request_id", match frame.requestId with
      | some id => .text id
      | none => .null), ("transport_signature_invalid", .bool true)]

namespace PayloadFrameCodec

variable (c : PayloadFrameCodec V)

/-! ## The checks -/

def binaryPayloadLength : Payload → Option Nat
  | .byteBuffer bytes => some bytes.length
  | .uint8List bytes => some bytes.length
  | .typedData _ (some values) | .intList values =>
    if values.all fun byte => decide (0 ≤ byte) && decide (byte ≤ 255) then some values.length
    else none
  | .typedData _ none => none
  | .other _ => none

def validateFramePayloadBounds (frame : PayloadFrame V) : Except Failure Nat :=
  if frame.originalSize < 0 || frame.compressedSize < 0 then
    .error (validationFailed "PayloadFrame sizes must not be negative"
      [("rpc_error_code", .int RpcErrorCode.invalidPayload)])
  else
    match binaryPayloadLength frame.payload with
    | none =>
      .error (validationFailed "PayloadFrame payload must be a binary attachment"
        [("rpc_error_code", .int RpcErrorCode.invalidPayload)])
    | some payloadByteLength =>
      if (payloadByteLength : Int) ≠ frame.compressedSize ||
          c.maxCompressedPayloadBytes < payloadByteLength ||
          c.maxCompressedPayloadBytes < frame.compressedSize ||
          c.maxDecodedPayloadBytes < frame.originalSize then
        .error (validationFailed "PayloadFrame exceeds declared or negotiated byte limits"
          [("rpc_error_code", .int RpcErrorCode.invalidPayload),
            ("reason", .text "payload_frame_size_mismatch_or_limit")])
      else if frame.cmp == "gzip" && (frame.originalSize == 0 ||
          (Double.mul (.ofInt payloadByteLength) c.maxInflationRatio).lt
            (.finite frame.originalSize)) then
        .error ⟨.compression, "PayloadFrame exceeds the negotiated compression inflation ratio",
          [("operation", .text "decompress"),
            ("rpc_error_code", .int RpcErrorCode.compressionFailed)]⟩
      else .ok payloadByteLength

/-- The major version is 1, and there is a minor one. -/
def supportsSchemaVersion (schemaVersion : String) : Bool :=
  match schemaVersion.toList.splitOn '.' with
  | [major, minor] =>
    intTryParse (trim major) == some 1 && (intTryParse (trim minor)).isSome
  | _ => false

/-- `_verifyFrameSignature`; `none` is an exception. -/
def verifyFrameSignature (frame : PayloadFrame V) : Option Bool :=
  let signatureRequired :=
    if c.hasReceivedCapabilities then c.signatureRequired else c.localRequiresIncomingSignature
  match c.payloadSigner, frame.signature with
  | none, some _ => some false
  | none, none => some !signatureRequired
  | some _, none => some !signatureRequired
  | some verifyFrame, some json =>
    match PayloadSignature.fromJson json with
    | none => none
    | some signature => verifyFrame frame signature

def validateFrameAgainstLocalCapabilities (frame : PayloadFrame V) (verifySignature : Bool) :
    Except Stop Unit :=
  if !supportsSchemaVersion frame.schemaVersion then
    .error (.failure (validationFailed
      ("Unsupported PayloadFrame schema version: " ++ frame.schemaVersion)
      [("schemaVersion", .text frame.schemaVersion),
        ("rpc_error_code", .int RpcErrorCode.invalidPayload)]))
  else if frame.contentType != "application/json" then
    .error (.failure (validationFailed
      ("Unsupported PayloadFrame content type: " ++ frame.contentType)
      [("contentType", .text frame.contentType),
        ("rpc_error_code", .int RpcErrorCode.invalidPayload)]))
  else if !c.encodings.contains frame.enc then
    .error (.failure (validationFailed ("Unsupported payload encoding: " ++ frame.enc)
      [("encoding", .text frame.enc), ("rpc_error_code", .int RpcErrorCode.invalidPayload)]))
  else if !c.compressions.contains frame.cmp then
    .error (.failure (validationFailed ("Unsupported payload compression: " ++ frame.cmp)
      [("compression", .text frame.cmp), ("rpc_error_code", .int RpcErrorCode.invalidPayload)]))
  else if verifySignature then
    match c.verifyFrameSignature frame with
    | none => .error .thrown
    | some true => .ok ()
    | some false => .error (.failure (invalidSignature frame))
  else .ok ()

def signatureWorkSize (frame : PayloadFrame V) (payloadByteLength : Nat) : Int :=
  max (max frame.originalSize frame.compressedSize) payloadByteLength

def verifyFrameSignatureAsync (frame : PayloadFrame V) (payloadByteLength : Nat) : Option Bool :=
  match c.payloadSigner, frame.signature with
  | some verifyFrame, some json =>
    if signatureWorkSize frame payloadByteLength ≤ c.constants.signingIsolateThresholdBytes then
      c.verifyFrameSignature frame
    else
      match PayloadSignature.fromJson json with
      | none => none
      | some signature => verifyFrame frame signature
  | _, _ => c.verifyFrameSignature frame

/-! ## The two decoders -/

/-- The pipeline that the cache has for a frame. -/
def receivePipeline (frame : PayloadFrame V) : TransportPipeline where
  encoding := frame.enc
  compression := frame.cmp
  compressionThreshold := c.compressionThreshold
  maxInflationRatio := c.maxInflationRatio
  gzipIsolateThresholdBytes := c.gzipIsolateThresholdBytes
  schemaVersion := frame.schemaVersion

/-- The limits of both receives. -/
def receiveLimits : ReceiveLimits where
  maxCompressedBytes := some c.maxCompressedPayloadBytes
  maxOriginalBytes := some c.maxDecodedPayloadBytes
  maxInflationRatio := some c.maxInflationRatio

/-- A failure of a receive is passed on. -/
def processed {α : Type} : Except Failure α → Except Stop α
  | .ok a => .ok a
  | .error f => .error (.failure f)

/-- The body of `decodeIncoming`, behind the check of the shape. -/
def decodeIncomingBody (json : List (String × Field V)) : Except Stop (Json V) :=
  match PayloadFrame.fromJson c.codecs json with
  | none => .error .thrown
  | some frame =>
    match c.validateFramePayloadBounds frame with
    | .error f => .error (.failure f)
    | .ok _ =>
      match c.validateFrameAgainstLocalCapabilities frame true with
      | .error stop => .error stop
      | .ok _ =>
        processed (receiveProcess c.codecs (c.receivePipeline frame) frame c.receiveLimits)

def decodeIncoming (payload : Incoming V) : Except Failure (Json V) :=
  if !looksLikePayloadFrame payload then .error (notAFrame payload)
  else catching (decodeFailed payload) (c.decodeIncomingBody (payload.entries.getD []))

/-- The body of `decodeIncomingAsync`, behind the check of the shape. -/
def decodeIncomingAsyncBody (json : List (String × Field V)) : Except Stop (Json V) :=
  match PayloadFrame.fromJson c.codecs json with
  | none => .error .thrown
  | some frame =>
    match c.validateFramePayloadBounds frame with
    | .error f => .error (.failure f)
    | .ok payloadByteLength =>
      match c.validateFrameAgainstLocalCapabilities frame false with
      | .error stop => .error stop
      | .ok _ =>
        match c.verifyFrameSignatureAsync frame payloadByteLength with
        | none => .error .thrown
        | some false => .error (.failure (invalidSignature frame))
        | some true =>
          processed
            (receiveProcessAsync c.codecs (c.receivePipeline frame) frame c.receiveLimits)

def decodeIncomingAsync (payload : Incoming V) : Except Failure (Json V) :=
  if !looksLikePayloadFrame payload then .error (notAFrame payload)
  else catching (decodeFailed payload) (c.decodeIncomingAsyncBody (payload.entries.getD []))

end PayloadFrameCodec

end PlugAgente.Transport
