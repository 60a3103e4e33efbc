import PlugAgente.Dart.Numerals
import PlugAgente.Transport.Pipeline

/-!
# The receive path of the transport pipeline

`receiveProcess` and `receiveProcessAsync`.  Both check the envelope, decompress under a bound
on the output, check the sizes and the ratio again and decode.
-/

namespace PlugAgente.Transport

open Wire Dart

variable {V : Type}

/-- The optional arguments of a receive. -/
structure ReceiveLimits where
  maxCompressedBytes : Option Int := none
  maxOriginalBytes : Option Int := none
  maxInflationRatio : Option Double := none

/-! ## The failures -/

def encodingMismatch (expected actual : String) : Failure where
  kind := .validation
  message := "Frame encoding mismatch: expected " ++ expected ++ ", got " ++ actual
  context := [("expected", .text expected), ("actual", .text actual),
    ("rpc_error_code", .int RpcErrorCode.invalidPayload)]

def payloadNotBinary (payloadType : String) : Failure where
  kind := .validation
  message := "Frame payload is not binary data"
  context := [("payloadType", .text payloadType),
    ("rpc_error_code", .int RpcErrorCode.invalidPayload)]

def compressedSizeMismatch (expected actual : Int) : Failure where
  kind := .validation
  message := "Frame compressed size mismatch: expected " ++ toString expected ++ ", got " ++
    toString actual
  context := [("expectedCompressedSize", .int expected), ("actualCompressedSize", .int actual),
    ("rpc_error_code", .int RpcErrorCode.invalidPayload)]

def overLimit (message field : String) (size limit : Int) : Failure where
  kind := .validation
  message := message
  context := [(field, .int size), ("limit", .int limit),
    ("rpc_error_code", .int RpcErrorCode.invalidPayload)]

def compressedOverLimit : Int → Int → Failure :=
  overLimit "Compressed payload exceeds negotiated limit" "compressedSize"

def originalOverLimit : Int → Int → Failure :=
  overLimit "Original payload exceeds negotiated limit" "originalSize"

def decodedOverLimit : Int → Int → Failure :=
  overLimit "Decoded payload exceeds negotiated limit" "decodedSize"

def originalSizeMismatch (expected actual : Int) : Failure where
  kind := .validation
  message := "Frame original size mismatch: expected " ++ toString expected ++ ", got " ++
    toString actual
  context := [("expectedOriginalSize", .int expected), ("actualOriginalSize", .int actual),
    ("rpc_error_code", .int RpcErrorCode.invalidPayload)]

def inflationRatioExceeded (decodedSize compressedSize : Int) (maxInflationRatio : Double) :
    Failure where
  kind := .validation
  message := "Payload inflation ratio exceeds allowed maximum"
  context := [("decodedSize", .int decodedSize), ("compressedSize", .int compressedSize),
    ("maxInflationRatio", .double maxInflationRatio),
    ("rpc_error_code", .int RpcErrorCode.invalidPayload)]

/-- The failure of both receives for an exception. -/
def receiveFailed (frame : PayloadFrame V) (operation : String) : Failure where
  kind := .compression
  message := "Failed to process received payload"
  context := [("operation", .text operation), ("frameEncoding", .text frame.enc),
    ("frameCompression", .text frame.cmp),
    ("rpc_error_code", .int RpcErrorCode.compressionFailed)]

/-! ## Decompression and decoding -/

/-- A size is above an optional limit. -/
def exceeds (size : Int) : Option Int → Bool
  | none => false
  | some limit => limit < size

/-- `(compressedSize * maxInflationRatio).floor()`, which throws unless the product is
finite. -/
def ratioLimit (compressedSize : Nat) (maxInflationRatio : Double) : Option Int :=
  (Double.mul (.ofInt compressedSize) maxInflationRatio).floor?

def maximumDecodedBytes (frame : PayloadFrame V) (compressedSize : Nat)
    (maxOriginalBytes : Option Int) (maxInflationRatio : Double) : Option Int :=
  match ratioLimit compressedSize maxInflationRatio with
  | none => none
  | some ratioLimit =>
    match maxOriginalBytes with
    | none => some (min frame.originalSize ratioLimit)
    | some limit => some (min (min frame.originalSize limit) ratioLimit)

def decompressGzipBytesBounded (codecs : Codecs V) (data : Bytes) (maxOutputBytes : Int) :
    Option Bytes :=
  if maxOutputBytes < 0 then none
  else
    match codecs.gzipDecode data with
    | none => none
    | some output => if maxOutputBytes < output.length then none else some output

/-- `decompress` of the codec of `CompressionCodecFactory.getCodec`. -/
def decompress (codecs : Codecs V) (algorithm : String) (data : Bytes) (maxOutputBytes : Int) :
    Except Stop Bytes :=
  if algorithm == "gzip" then
    match decompressGzipBytesBounded codecs data maxOutputBytes with
    | some output => .ok output
    | none => .error (.failure ⟨.compression, "Failed to decompress with GZIP",
        [("operation", .text "decompress"), ("algorithm", .text "gzip"),
          ("max_output_bytes", .int maxOutputBytes)]⟩)
  else if algorithm == "none" then
    if maxOutputBytes < data.length then
      .error (.failure ⟨.compression, "Decompressed payload exceeds configured limit",
        [("operation", .text "decompress"), ("algorithm", .text "none"),
          ("decoded_size", .int data.length), ("max_output_bytes", .int maxOutputBytes)]⟩)
    else .ok data
  else .error .thrown

/-- `codec.decode`, with the codec of `PayloadCodecFactory.getCodec`. -/
def decode (codecs : Codecs V) (encoding : String) (bytes : Bytes) : Except Stop (Json V) :=
  if encoding == "json" then
    match codecs.jsonDecode bytes with
    | some .null => .error (.failure ⟨.compression, "Failed to decode JSON",
        [("operation", .text "decode"), ("encoding", .text "json"),
          ("reason", .text "top_level_null_payload")]⟩)
    | some decoded => .ok decoded
    | none => .error (.failure ⟨.compression, "Failed to decode JSON",
        [("operation", .text "decode"), ("encoding", .text "json")]⟩)
  else .error .thrown

/-- A failure of a codec gets its RPC error code. -/
def withCode {α : Type} (rpcErrorCode : Int) : Except Stop α → Except Stop α
  | .error (.failure f) => .error (.failure (withTransportRpcErrorCode f rpcErrorCode))
  | outcome => outcome

/-! ## The receive in one turn -/

/-- The decompression of `receiveProcess`. -/
def inflate (codecs : Codecs V) (frame : PayloadFrame V) (bytes : Bytes)
    (limits : ReceiveLimits) (ratio : Double) : Except Stop Bytes :=
  if frame.cmp == "none" then .ok bytes
  else if frame.cmp != "gzip" then .error .thrown
  else
    match maximumDecodedBytes frame bytes.length limits.maxOriginalBytes ratio with
    | none => .error .thrown
    | some maxOutputBytes =>
      withCode RpcErrorCode.compressionFailed (decompress codecs frame.cmp bytes maxOutputBytes)

/-- The body of `receiveProcess`. -/
def receiveProcessBody (codecs : Codecs V) (p : TransportPipeline) (frame : PayloadFrame V)
    (limits : ReceiveLimits) : Except Stop (Json V) :=
  let ratio := limits.maxInflationRatio.getD p.maxInflationRatio
  if frame.enc != p.encoding then .error (.failure (encodingMismatch p.encoding frame.enc))
  else
    match payloadBytesFromFramePayload frame.payload with
    | none => .error (.failure (payloadNotBinary frame.payload.runtimeType))
    | some bytes =>
      if (bytes.length : Int) ≠ frame.compressedSize then
        .error (.failure (compressedSizeMismatch frame.compressedSize bytes.length))
      else if exceeds frame.compressedSize limits.maxCompressedBytes then
        .error (.failure (compressedOverLimit frame.compressedSize
          (limits.maxCompressedBytes.getD 0)))
      else if exceeds frame.originalSize limits.maxOriginalBytes then
        .error (.failure (originalOverLimit frame.originalSize (limits.maxOriginalBytes.getD 0)))
      else
        match inflate codecs frame bytes limits ratio with
        | .error stop => .error stop
        | .ok decodableBytes =>
          if (decodableBytes.length : Int) ≠ frame.originalSize then
            .error (.failure (originalSizeMismatch frame.originalSize decodableBytes.length))
          else if exceeds decodableBytes.length limits.maxOriginalBytes then
            .error (.failure (decodedOverLimit decodableBytes.length
              (limits.maxOriginalBytes.getD 0)))
          else if exceedsInflationRatio decodableBytes.length bytes.length ratio then
            .error (.failure (inflationRatioExceeded decodableBytes.length bytes.length ratio))
          else withCode RpcErrorCode.decodingFailed (decode codecs frame.enc decodableBytes)

def receiveProcess (codecs : Codecs V) (p : TransportPipeline) (frame : PayloadFrame V)
    (limits : ReceiveLimits) : Except Failure (Json V) :=
  catching (receiveFailed frame "receiveProcess") (receiveProcessBody codecs p frame limits)

/-! ## The receive with the pool -/

/-- The decompression of `receiveProcessAsync`: an exception of the pool, or of the bound, has
its own failure. -/
def inflateAsync (codecs : Codecs V) (p : TransportPipeline) (frame : PayloadFrame V)
    (bytes : Bytes) (limits : ReceiveLimits) (ratio : Double) : Except Stop Bytes :=
  if frame.cmp == "none" then .ok bytes
  else if frame.cmp == "gzip" && decide (p.gzipIsolateThresholdBytes ≤ frame.originalSize) then
    match (maximumDecodedBytes frame bytes.length limits.maxOriginalBytes ratio).bind
        (decompressGzipBytesBounded codecs bytes) with
    | some output => .ok output
    | none => .error (.failure ⟨.compression, "Failed to decompress with GZIP",
        [("operation", .text "decompress"), ("algorithm", .text "gzip"),
          ("rpc_error_code", .int RpcErrorCode.compressionFailed)]⟩)
  else if frame.cmp != "gzip" then .error .thrown
  else
    match maximumDecodedBytes frame bytes.length limits.maxOriginalBytes ratio with
    | none => .error .thrown
    | some maxOutputBytes =>
      withCode RpcErrorCode.compressionFailed (decompress codecs frame.cmp bytes maxOutputBytes)

/-- The decoding of `receiveProcessAsync`; the isolate throws at a null. -/
def decodeAsync (codecs : Codecs V) (frame : PayloadFrame V) (bytes : Bytes) :
    Except Stop (Json V) :=
  if frame.enc == "json" &&
      decide (jsonPayloadIsolateEncodeThresholdBytes ≤ (bytes.length : Int)) then
    match codecs.jsonDecode bytes with
    | none | some .null => .error (.failure ⟨.compression, "Failed to decode JSON payload",
        [("operation", .text "jsonDecode"), ("encoding", .text "json"),
          ("rpc_error_code", .int RpcErrorCode.decodingFailed)]⟩)
    | some decoded => .ok decoded
  else withCode RpcErrorCode.decodingFailed (decode codecs frame.enc bytes)

/-- The body of `receiveProcessAsync`. -/
def receiveProcessAsyncBody (codecs : Codecs V) (p : TransportPipeline) (frame : PayloadFrame V)
    (limits : ReceiveLimits) : Except Stop (Json V) :=
  let ratio := limits.maxInflationRatio.getD p.maxInflationRatio
  if frame.enc != p.encoding then .error (.failure (encodingMismatch p.encoding frame.enc))
  else
    match payloadBytesFromFramePayload frame.payload with
    | none => .error (.failure (payloadNotBinary frame.payload.runtimeType))
    | some bytes =>
      if (bytes.length : Int) ≠ frame.compressedSize then
        .error (.failure (compressedSizeMismatch frame.compressedSize bytes.length))
      else if exceeds frame.compressedSize limits.maxCompressedBytes then
        .error (.failure (compressedOverLimit frame.compressedSize
          (limits.maxCompressedBytes.getD 0)))
      else if exceeds frame.originalSize limits.maxOriginalBytes then
        .error (.failure (originalOverLimit frame.originalSize (limits.maxOriginalBytes.getD 0)))
      else
        match inflateAsync codecs p frame bytes limits ratio with
        | .error stop => .error stop
        | .ok decodableBytes =>
          if (decodableBytes.length : Int) ≠ frame.originalSize then
            .error (.failure (originalSizeMismatch frame.originalSize decodableBytes.length))
          else if exceeds decodableBytes.length limits.maxOriginalBytes then
            .error (.failure (decodedOverLimit decodableBytes.length
              (limits.maxOriginalBytes.getD 0)))
          else if exceedsInflationRatio decodableBytes.length bytes.length ratio then
            .error (.failure (inflationRatioExceeded decodableBytes.length bytes.length ratio))
          else decodeAsync codecs frame decodableBytes

def receiveProcessAsync (codecs : Codecs V) (p : TransportPipeline) (frame : PayloadFrame V)
    (limits : ReceiveLimits) : Except Failure (Json V) :=
  catching (receiveFailed frame "receiveProcessAsync")
    (receiveProcessAsyncBody codecs p frame limits)

end PlugAgente.Transport
