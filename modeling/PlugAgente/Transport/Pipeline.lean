import PlugAgente.Dart.Double
import PlugAgente.Wire.Json

/-!
# The transport pipeline

`TransportPipeline`: a value is encoded, compressed and framed on one side, and the frame is
checked, decompressed and decoded on the other.  Each of the two directions is written twice
in the source, once for one turn of the event loop and once with the heavy work on another
isolate, and so it is here.

The JSON and GZIP codecs of the platform are parameters; `none` is an exception.  Work that
is submitted to the pool is the same function of the codec.  Durations, metrics, and the
cause and time of a failure are left out.
-/

namespace PlugAgente.Transport

open Wire Dart

variable {V : Type}

abbrev Bytes := List UInt8

/-- The codecs of the platform, and what the code asks of a value. -/
structure Codecs (V : Type) where
  /-- `JsonUtf8Encoder().convert`. -/
  jsonEncode : Json V → Option Bytes
  /-- `jsonDecode(utf8.decode(bytes))`. -/
  jsonDecode : Bytes → Option (Json V)
  /-- `GZipEncoder.encodeBytes`. -/
  gzipEncode : Bytes → Option Bytes
  /-- The output of the GZIP decoder. -/
  gzipDecode : Bytes → Option Bytes
  isNum : V → Bool
  runtimeType : Json V → String

/-! ## Failures -/

inductive ContextValue where
  | text (t : String)
  | int (n : Int)
  | double (d : Double)
  | bool (b : Bool)
  | null
  deriving DecidableEq, Repr

inductive FailureKind where
  | compression
  | validation
  deriving DecidableEq, Repr

/-- A `CompressionFailure` or a `ValidationFailure`, with its context. -/
structure Failure where
  kind : FailureKind
  message : String
  context : List (String × ContextValue)
  deriving DecidableEq, Repr

/-- How a body ends without a value: with a failure, or with an exception that the caller
catches. -/
inductive Stop where
  | failure (failure : Failure)
  | thrown

namespace RpcErrorCode

def invalidPayload : Int := -32009
def decodingFailed : Int := -32010
def compressionFailed : Int := -32011

end RpcErrorCode

/-- `context['rpc_error_code']`, when it is an integer. -/
def Failure.rpcErrorCode (f : Failure) : Option Int :=
  match f.context.lookup "rpc_error_code" with
  | some (.int code) => some code
  | _ => none

def withTransportRpcErrorCode (f : Failure) (rpcErrorCode : Int) : Failure :=
  if f.rpcErrorCode.isSome then f
  else { f with
    context := f.context.filter (fun entry => entry.1 != "rpc_error_code") ++
      [("rpc_error_code", .int rpcErrorCode)] }

/-- The `on Object catch` around a body. -/
def catching {α : Type} (f : Failure) : Except Stop α → Except Failure α
  | .ok a => .ok a
  | .error (.failure g) => .error g
  | .error .thrown => .error f

/-! ## Frames -/

/-- The payload of a frame; `elements` are those of typed data that is a list of integers. -/
inductive Payload where
  | uint8List (bytes : Bytes)
  | byteBuffer (bytes : Bytes)
  | typedData (bytes : Bytes) (elements : Option (List Int))
  | intList (values : List Int)
  | other (runtimeType : String)
  deriving DecidableEq, Repr

structure PayloadFrame (V : Type) where
  schemaVersion : String
  enc : String
  cmp : String
  contentType : String
  originalSize : Int
  compressedSize : Int
  payload : Payload
  traceId : Option String := none
  requestId : Option String := none
  signature : Option (Entries V) := none

/-- `payloadBytesFromFramePayload`; a list of integers is taken modulo 256. -/
def payloadBytesFromFramePayload : Payload → Option Bytes
  | .uint8List bytes => some bytes
  | .byteBuffer bytes => some bytes
  | .typedData bytes _ => some bytes
  | .intList values => some (values.map UInt8.ofInt)
  | .other _ => none

/-- `frame.payload.runtimeType`, where the payload is not binary. -/
def Payload.runtimeType : Payload → String
  | .other runtimeType => runtimeType
  | _ => ""

/-! ## The adaptive cache -/

/-- `AdaptiveCompressionCache`, with its entries from the oldest on. -/
structure AdaptiveCompressionCache where
  maxEntries : Int := 64
  ttl : Int := 30000000
  incompressibleUntil : List (String × Int) := []
  skippedAttempts : Nat := 0
  avoidedInputBytes : Nat := 0
  ineffectiveAttempts : Nat := 0
  effectiveAttempts : Nat := 0
  deriving DecidableEq, Repr

namespace AdaptiveCompressionCache

/-- `_key`: the event and the binary tier of the size. -/
def key (eventName : Option String) (originalSize : Nat) : String :=
  let event := match eventName with
    | some name => if name.isEmpty then "unknown" else name
    | none => "unknown"
  event ++ ":" ++ toString (Nat.log2 (max 1 originalSize))

/-- The map without a key. -/
def removed (c : AdaptiveCompressionCache) (k : String) : List (String × Int) :=
  c.incompressibleUntil.filter (fun entry => entry.1 != k)

def shouldSkip (c : AdaptiveCompressionCache) (now : Int) (eventName : Option String)
    (originalSize : Nat) : Bool × AdaptiveCompressionCache :=
  let k := key eventName originalSize
  match c.incompressibleUntil.lookup k with
  | none => (false, c)
  | some deadline =>
    if now < deadline then
      (true, { c with
        incompressibleUntil := c.removed k ++ [(k, deadline)]
        skippedAttempts := c.skippedAttempts + 1
        avoidedInputBytes := c.avoidedInputBytes + originalSize })
    else (false, { c with incompressibleUntil := c.removed k })

def recordAttempt (c : AdaptiveCompressionCache) (now : Int) (eventName : Option String)
    (originalSize : Nat) (reduced : Bool) : AdaptiveCompressionCache :=
  let k := key eventName originalSize
  if reduced then
    { c with
      effectiveAttempts := c.effectiveAttempts + 1
      incompressibleUntil := c.removed k }
  else
    let entries := c.removed k ++ [(k, now + c.ttl)]
    let room := (max 1 (min c.maxEntries 1024)).toNat
    { c with
      ineffectiveAttempts := c.ineffectiveAttempts + 1
      incompressibleUntil := entries.drop (entries.length - room) }

end AdaptiveCompressionCache

/-! ## The policy -/

/-- The thresholds that the environment may override, with their defaults. -/
structure ConnectionConstants where
  rpcChunkJsonIsolateThresholdBytes : Int := 16 * 1024
  rpcChunkGzipIsolateThresholdBytes : Int := 16 * 1024
  rpcChunkCompressionThresholdBytes : Int := 2048
  rpcChunkRowIsolateThreshold : Int := 32
  rpcChunkColumnarGzipEnabled : Bool := false
  signingIsolateThresholdBytes : Int := 64 * 1024

def jsonPayloadIsolateEncodeThresholdBytes : Int := 384 * 1024

def isRpcChunkEvent (metricEventName : Option String) : Bool :=
  metricEventName == some "rpc:chunk" || metricEventName == some "rpc:complete"

/-- `data[key]` of a map. -/
def field (data : Json V) (key : String) : Option (Json V) :=
  match data with
  | .map entries => entries.lookup key
  | _ => none

def outboundRpcChunkHasColumnar (data : Json V) : Bool :=
  match field data "columnar" with
  | some (.map entries) => !entries.isEmpty
  | _ => false

def outboundRpcChunkRowCount (data : Json V) : Nat :=
  match field data "rows" with
  | some (.list rows) => rows.length
  | _ => 0

/-- `String.length`: the number of UTF-16 units. -/
def utf16Length (t : String) : Nat :=
  (t.toList.map fun c => if c.toNat < 0x10000 then 1 else 2).sum

/-- The walk of `jsonTreeLikelyExceedsByteBudget` stops at a value before it looks at it. -/
def walkStops (budgetBytes : Int) (depth used : Nat) : Bool :=
  decide (64 < depth) || decide (budgetBytes < used)

mutual

/-- The walk at a value: whether it stops, and the bytes so far. -/
def walk (isNum : V → Bool) (budgetBytes : Int) (depth used : Nat) : Json V → Bool × Nat
  | .null => (false, used + 4)
  | .bool _ => (false, used + 5)
  | .int _ => (false, used + 24)
  | .other v =>
    if isNum v then (false, used + 24)
    else (budgetBytes < ((used + 16 : Nat) : Int), used + 16)
  | .text t =>
    let used := used + 2 + utf16Length t * 3
    (budgetBytes < (used : Int), used)
  | .map entries => walkEntries isNum budgetBytes depth (used + 2) entries
  | .list items => walkItems isNum budgetBytes depth (used + 2) items

def walkEntries (isNum : V → Bool) (budgetBytes : Int) (depth used : Nat) :
    List (String × Json V) → Bool × Nat
  | [] => (budgetBytes < (used : Int), used)
  | (key, value) :: rest =>
    let used := used + 4 + utf16Length key * 3
    if walkStops budgetBytes (depth + 1) used then (true, used)
    else
      let next := walk isNum budgetBytes (depth + 1) used value
      if next.1 then next else walkEntries isNum budgetBytes depth next.2 rest

def walkItems (isNum : V → Bool) (budgetBytes : Int) (depth used : Nat) :
    List (Json V) → Bool × Nat
  | [] => (budgetBytes < (used : Int), used)
  | item :: rest =>
    if walkStops budgetBytes (depth + 1) used then (true, used)
    else
      let next := walk isNum budgetBytes (depth + 1) used item
      if next.1 then next else walkItems isNum budgetBytes depth next.2 rest

end

def jsonTreeLikelyExceedsByteBudget (isNum : V → Bool) (data : Json V) (budgetBytes : Int) :
    Bool :=
  if budgetBytes ≤ 0 then false else (walk isNum budgetBytes 0 0 data).1

namespace RpcChunkTransportPolicy

variable (k : ConnectionConstants) (metricEventName : Option String)

def jsonEncodeIsolateThresholdBytes : Int :=
  if !isRpcChunkEvent metricEventName then jsonPayloadIsolateEncodeThresholdBytes
  else k.rpcChunkJsonIsolateThresholdBytes

def gzipIsolateThresholdBytes (defaultThreshold : Int) : Int :=
  if !isRpcChunkEvent metricEventName then defaultThreshold
  else k.rpcChunkGzipIsolateThresholdBytes

def compressionThresholdBytes (defaultThreshold : Int) : Int :=
  if !isRpcChunkEvent metricEventName then defaultThreshold
  else k.rpcChunkCompressionThresholdBytes

def rowIsolateThreshold : Int :=
  if !isRpcChunkEvent metricEventName then 50 else k.rpcChunkRowIsolateThreshold

end RpcChunkTransportPolicy

def shouldRunGzipCompression (compressionMode : String) (originalSize : Nat)
    (compressionThreshold : Int) : Bool :=
  if compressionMode == "none" || (originalSize : Int) < compressionThreshold then false
  else compressionMode == "gzip" || compressionMode == "auto"

def shouldCompressPayload (k : ConnectionConstants) (compressionMode : String)
    (originalSize : Nat) (compressionThreshold : Int) (metricEventName : Option String)
    (payload : Json V) : Bool :=
  if !shouldRunGzipCompression compressionMode originalSize compressionThreshold then false
  else if isRpcChunkEvent metricEventName && outboundRpcChunkHasColumnar payload &&
    !k.rpcChunkColumnarGzipEnabled then false
  else true

def shouldEncodeJsonInIsolate (isNum : V → Bool) (k : ConnectionConstants) (data : Json V)
    (metricEventName : Option String) (budgetBytes : Int) : Bool :=
  if isRpcChunkEvent metricEventName &&
    decide (RpcChunkTransportPolicy.rowIsolateThreshold k metricEventName ≤
      outboundRpcChunkRowCount data) then true
  else jsonTreeLikelyExceedsByteBudget isNum data budgetBytes

def exceedsInflationRatio (originalSize compressedSize : Nat) (maxInflationRatio : Double) :
    Bool :=
  decide (0 < compressedSize) &&
    maxInflationRatio.lt (Double.div (.ofInt originalSize) (.ofInt compressedSize))

/-! ## The send path -/

/-- What a `TransportPipeline` is built with. -/
structure TransportPipeline where
  encoding : String
  compression : String
  compressionThreshold : Int := 4096
  maxInflationRatio : Double := .finite 10
  gzipIsolateThresholdBytes : Int := 32 * 1024
  schemaVersion : String := "1.0"

/-- The arguments of a send; `freshId` is the identifier that would be drawn. -/
structure SendRequest where
  traceId : Option String := none
  requestId : Option String := none
  metricEventName : Option String := none
  freshId : String := ""
  now : Int := 0

/-- `JsonPayloadCodec.encode`. -/
def encodeJson (codecs : Codecs V) (data : Json V) : Except Stop Bytes :=
  match codecs.jsonEncode data with
  | some bytes => .ok bytes
  | none => .error (.failure ⟨.compression, "Failed to encode JSON",
      [("operation", .text "encode"), ("encoding", .text "json")]⟩)

/-- `codec.encode`, with the codec of `PayloadCodecFactory.getCodec`. -/
def encode (codecs : Codecs V) (encoding : String) (data : Json V) : Except Stop Bytes :=
  if encoding == "json" then encodeJson codecs data else .error .thrown

/-- `GzipCompressionCodec.compress`. -/
def gzipCompress (codecs : Codecs V) (data : Bytes) : Except Stop Bytes :=
  match codecs.gzipEncode data with
  | some bytes => .ok bytes
  | none => .error (.failure ⟨.compression, "Failed to compress with GZIP",
      [("operation", .text "compress"), ("algorithm", .text "gzip")]⟩)

/-- `adaptiveCompressionCache?.shouldSkip(...) ?? false`, with the cache after it. -/
def cacheSkips (cache : Option AdaptiveCompressionCache) (now : Int)
    (eventName : Option String) (originalSize : Nat) : Bool × Option AdaptiveCompressionCache :=
  match cache with
  | none => (false, none)
  | some c =>
    let (skip, c) := c.shouldSkip now eventName originalSize
    (skip, some c)

/-- `shouldCompress`, with the cache after it: it is consulted only if compression is
requested and the mode is `auto`. -/
def decideCompression (k : ConnectionConstants) (p : TransportPipeline) (request : SendRequest)
    (data : Json V) (originalSize : Nat) (cache : Option AdaptiveCompressionCache) :
    Bool × Option AdaptiveCompressionCache :=
  let requested := shouldCompressPayload k p.compression originalSize
    (RpcChunkTransportPolicy.compressionThresholdBytes k request.metricEventName
      p.compressionThreshold) request.metricEventName data
  if !requested then (false, cache)
  else if p.compression != "auto" then (true, cache)
  else
    let (skip, cache) := cacheSkips cache request.now request.metricEventName originalSize
    (!skip, cache)

/-- `adaptiveCompressionCache?.recordAttempt(...)`, in the mode `auto`. -/
def recordCompression (p : TransportPipeline) (request : SendRequest) (originalSize : Nat)
    (reduced : Bool) (cache : Option AdaptiveCompressionCache) :
    Option AdaptiveCompressionCache :=
  if p.compression == "auto" then
    cache.map fun c => c.recordAttempt request.now request.metricEventName originalSize reduced
  else cache

/-- The bytes, the compression and the size that go in the frame. -/
structure Chosen where
  finalBytes : Bytes
  finalCompression : String
  compressedSize : Nat

def frameOf (p : TransportPipeline) (request : SendRequest) (originalSize : Nat)
    (chosen : Chosen) : PayloadFrame V where
  schemaVersion := p.schemaVersion
  enc := p.encoding
  cmp := chosen.finalCompression
  contentType := "application/json"
  originalSize := originalSize
  compressedSize := chosen.compressedSize
  payload := .uint8List chosen.finalBytes
  traceId := some (request.traceId.getD request.freshId)
  requestId := request.requestId

/-- The choice between the compressed bytes and the encoded ones. -/
def chooseBytes (p : TransportPipeline) (encodedBytes compressedBytes : Bytes)
    (inflationExceeded : Bool) : Chosen :=
  if (p.compression == "auto" && decide (encodedBytes.length ≤ compressedBytes.length)) ||
    inflationExceeded then ⟨encodedBytes, "none", encodedBytes.length⟩
  else ⟨compressedBytes, "gzip", compressedBytes.length⟩

/-- The body of `prepareSend`, with the cache after it. -/
def prepareSendBody (codecs : Codecs V) (k : ConnectionConstants) (p : TransportPipeline)
    (request : SendRequest) (data : Json V) (cache : Option AdaptiveCompressionCache) :
    Except Stop (PayloadFrame V) × Option AdaptiveCompressionCache :=
  match encode codecs p.encoding data with
  | .error stop => (.error stop, cache)
  | .ok encodedBytes =>
    let originalSize := encodedBytes.length
    match decideCompression k p request data originalSize cache with
    | (false, cache) =>
      (.ok (frameOf p request originalSize ⟨encodedBytes, "none", originalSize⟩), cache)
    | (true, cache) =>
      match gzipCompress codecs encodedBytes with
      | .error stop => (.error stop, cache)
      | .ok compressedBytes =>
        let inflationExceeded :=
          exceedsInflationRatio originalSize compressedBytes.length p.maxInflationRatio
        let cache := recordCompression p request originalSize
          (decide (compressedBytes.length < originalSize) && !inflationExceeded) cache
        (.ok (frameOf p request originalSize
          (chooseBytes p encodedBytes compressedBytes inflationExceeded)), cache)

/-- The failure of `prepareSend` and `prepareSendAsync` for an exception. -/
def sendFailed (p : TransportPipeline) (operation : String) : Failure where
  kind := .compression
  message := "Failed to prepare payload for sending"
  context := [("operation", .text operation), ("encoding", .text p.encoding),
    ("compression", .text p.compression)]

def prepareSend (codecs : Codecs V) (k : ConnectionConstants) (p : TransportPipeline)
    (request : SendRequest) (data : Json V) (cache : Option AdaptiveCompressionCache) :
    Except Failure (PayloadFrame V) × Option AdaptiveCompressionCache :=
  let (outcome, cache) := prepareSendBody codecs k p request data cache
  (catching (sendFailed p "prepareSend") outcome, cache)

/-- The encoding of `prepareSendAsync`; the exception of the pool has its own failure. -/
def encodeAsync (codecs : Codecs V) (k : ConnectionConstants) (p : TransportPipeline)
    (request : SendRequest) (data : Json V) : Except Stop Bytes :=
  if p.encoding != "json" then .error .thrown
  else if shouldEncodeJsonInIsolate codecs.isNum k data request.metricEventName
      (RpcChunkTransportPolicy.jsonEncodeIsolateThresholdBytes k request.metricEventName) then
    match codecs.jsonEncode data with
    | some bytes => .ok bytes
    | none => .error (.failure ⟨.compression, "Failed to encode JSON in isolate",
        [("operation", .text "jsonEncode"), ("encoding", .text "json")]⟩)
  else encodeJson codecs data

/-- The compression of `prepareSendAsync`; the exception of the pool is not caught here. -/
def gzipCompressAsync (codecs : Codecs V) (k : ConnectionConstants) (p : TransportPipeline)
    (request : SendRequest) (data : Bytes) : Except Stop Bytes :=
  if RpcChunkTransportPolicy.gzipIsolateThresholdBytes k request.metricEventName
      p.gzipIsolateThresholdBytes ≤ data.length then
    match codecs.gzipEncode data with
    | some bytes => .ok bytes
    | none => .error .thrown
  else gzipCompress codecs data

/-- The body of `prepareSendAsync`, with the cache after it. -/
def prepareSendAsyncBody (codecs : Codecs V) (k : ConnectionConstants) (p : TransportPipeline)
    (request : SendRequest) (data : Json V) (cache : Option AdaptiveCompressionCache) :
    Except Stop (PayloadFrame V) × Option AdaptiveCompressionCache :=
  match encodeAsync codecs k p request data with
  | .error stop => (.error stop, cache)
  | .ok encodedBytes =>
    let originalSize := encodedBytes.length
    match decideCompression k p request data originalSize cache with
    | (false, cache) =>
      (.ok (frameOf p request originalSize ⟨encodedBytes, "none", originalSize⟩), cache)
    | (true, cache) =>
      match gzipCompressAsync codecs k p request encodedBytes with
      | .error stop => (.error stop, cache)
      | .ok compressedBytes =>
        let inflationExceeded :=
          exceedsInflationRatio originalSize compressedBytes.length p.maxInflationRatio
        let cache := recordCompression p request originalSize
          (decide (compressedBytes.length < originalSize) && !inflationExceeded) cache
        (.ok (frameOf p request originalSize
          (chooseBytes p encodedBytes compressedBytes inflationExceeded)), cache)

def prepareSendAsync (codecs : Codecs V) (k : ConnectionConstants) (p : TransportPipeline)
    (request : SendRequest) (data : Json V) (cache : Option AdaptiveCompressionCache) :
    Except Failure (PayloadFrame V) × Option AdaptiveCompressionCache :=
  let (outcome, cache) := prepareSendAsyncBody codecs k p request data cache
  (catching (sendFailed p "prepareSendAsync") outcome, cache)

end PlugAgente.Transport
