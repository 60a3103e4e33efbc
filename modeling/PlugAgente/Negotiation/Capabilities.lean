import PlugAgente.Dart.Double
import PlugAgente.Wire.Json

/-!
# Capability documents

What a side declares of itself: `ProtocolCapabilities` with its extensions and its
`TransportLimits`, as they are read from JSON, and the `ProtocolConfig` that two of them are
negotiated to.  A cast that throws is `none`.
-/

namespace PlugAgente.Negotiation

open Wire Dart

abbrev Value := Json Double

abbrev Extensions := Entries Double

/-! ## Values -/

/-- `as bool? ?? false`. -/
def asFlag : Option Value → Option Bool
  | none | some .null => some false
  | some (.bool b) => some b
  | _ => none

/-- `as int? ?? …`. -/
def intOr (json : Extensions) (key : String) (otherwise : Option Int) : Option Int :=
  match json.lookup key with
  | none | some .null => otherwise
  | some (.int n) => some n
  | _ => none

/-- `as List<dynamic>`. -/
def asList : Option Value → Option (List Value)
  | some (.list items) => some items
  | _ => none

/-- `as Map<String, dynamic>`. -/
def asMap : Option Value → Option Extensions
  | some (.map entries) => some entries
  | _ => none

/-- `as Map<String, dynamic>? ?? const {}`. -/
def asMapOrEmpty : Option Value → Option Extensions
  | none | some .null => some []
  | some (.map entries) => some entries
  | _ => none

/-- `as String`. -/
def asString : Value → Option String
  | .text t => some t
  | _ => none

/-- `==`.  Numbers compare by their values; lists and maps are the same only if they are one
object, which those of two documents are not. -/
def same : Value → Value → Bool
  | .null, .null => true
  | .bool a, .bool b => a == b
  | .int a, .int b => a == b
  | .int a, .other b => b == .finite a
  | .other a, .int b => a == .finite b
  | .other a, .other b => a != .nan && a == b
  | .text a, .text b => a == b
  | _, _ => false

/-- `== 1`, `== true` and the like, of an entry that may be missing. -/
def isValue (value : Option Value) (expected : Value) : Bool :=
  match value with
  | none => false
  | some v => same v expected

/-- `is int && … == 1`. -/
def isInt (value : Option Value) (expected : Int) : Bool :=
  match value with
  | some (.int n) => n == expected
  | _ => false

/-- `is int && … > 0`. -/
def positiveInt? : Option Value → Option Int
  | some (.int n) => if 0 < n then some n else none
  | _ => none

/-! ## Limits -/

structure TransportLimits where
  maxCompressedPayloadBytes : Int := 10 * 1024 * 1024
  maxDecodedPayloadBytes : Int := 10 * 1024 * 1024
  maxRows : Int := 50000
  maxBatchSize : Int := 32
  maxConcurrentStreams : Int := 16
  streamingChunkSize : Int := 500
  streamingRowThreshold : Int := 500
  deriving DecidableEq

namespace TransportLimits

/-- `TransportLimits.fromJson`. -/
def fromJson (json : Extensions) : Option TransportLimits := do
  let defaults : TransportLimits := {}
  let maxCompressedPayloadBytes ← intOr json "max_compressed_payload_bytes"
    (intOr json "max_payload_bytes" (some defaults.maxCompressedPayloadBytes))
  let maxDecodedPayloadBytes ← intOr json "max_decoded_payload_bytes"
    (intOr json "max_payload_bytes" (some defaults.maxDecodedPayloadBytes))
  let maxRows ← intOr json "max_rows" (some defaults.maxRows)
  let maxBatchSize ← intOr json "max_batch_size" (some defaults.maxBatchSize)
  let maxConcurrentStreams ←
    intOr json "max_concurrent_streams" (some defaults.maxConcurrentStreams)
  let streamingChunkSize ← intOr json "streaming_chunk_size" (some defaults.streamingChunkSize)
  let streamingRowThreshold ←
    intOr json "streaming_row_threshold" (some defaults.streamingRowThreshold)
  return {
    maxCompressedPayloadBytes := maxCompressedPayloadBytes
    maxDecodedPayloadBytes := maxDecodedPayloadBytes
    maxRows := maxRows
    maxBatchSize := maxBatchSize
    maxConcurrentStreams := maxConcurrentStreams
    streamingChunkSize := streamingChunkSize
    streamingRowThreshold := streamingRowThreshold }

def negotiateWith (limits other : TransportLimits) : TransportLimits where
  maxCompressedPayloadBytes :=
    if limits.maxCompressedPayloadBytes < other.maxCompressedPayloadBytes then
      limits.maxCompressedPayloadBytes
    else other.maxCompressedPayloadBytes
  maxDecodedPayloadBytes :=
    if limits.maxDecodedPayloadBytes < other.maxDecodedPayloadBytes then
      limits.maxDecodedPayloadBytes
    else other.maxDecodedPayloadBytes
  maxRows := if limits.maxRows < other.maxRows then limits.maxRows else other.maxRows
  maxBatchSize :=
    if limits.maxBatchSize < other.maxBatchSize then limits.maxBatchSize else other.maxBatchSize
  maxConcurrentStreams :=
    if limits.maxConcurrentStreams < other.maxConcurrentStreams then limits.maxConcurrentStreams
    else other.maxConcurrentStreams
  streamingChunkSize :=
    if limits.streamingChunkSize < other.streamingChunkSize then limits.streamingChunkSize
    else other.streamingChunkSize
  streamingRowThreshold :=
    if limits.streamingRowThreshold < other.streamingRowThreshold then
      limits.streamingRowThreshold
    else other.streamingRowThreshold

end TransportLimits

/-- The limits by their names. -/
inductive Limit where
  | maxCompressedPayloadBytes
  | maxDecodedPayloadBytes
  | maxRows
  | maxBatchSize
  | maxConcurrentStreams
  | streamingChunkSize
  | streamingRowThreshold
  deriving DecidableEq

namespace Limit

/-- The limit of that name. -/
def of (limits : TransportLimits) : Limit → Int
  | .maxCompressedPayloadBytes => limits.maxCompressedPayloadBytes
  | .maxDecodedPayloadBytes => limits.maxDecodedPayloadBytes
  | .maxRows => limits.maxRows
  | .maxBatchSize => limits.maxBatchSize
  | .maxConcurrentStreams => limits.maxConcurrentStreams
  | .streamingChunkSize => limits.streamingChunkSize
  | .streamingRowThreshold => limits.streamingRowThreshold

/-- The fields that declare a limit, the more specific one first. -/
def fields : Limit → List String
  | .maxCompressedPayloadBytes => ["max_compressed_payload_bytes", "max_payload_bytes"]
  | .maxDecodedPayloadBytes => ["max_decoded_payload_bytes", "max_payload_bytes"]
  | .maxRows => ["max_rows"]
  | .maxBatchSize => ["max_batch_size"]
  | .maxConcurrentStreams => ["max_concurrent_streams"]
  | .streamingChunkSize => ["streaming_chunk_size"]
  | .streamingRowThreshold => ["streaming_row_threshold"]

end Limit

/-- What a document declares in the first of some fields that it has. -/
def declared (json : Extensions) : List String → Option Value
  | [] => none
  | field :: rest =>
    match json.lookup field with
    | none | some .null => declared json rest
    | some value => some value

theorem Limit.of_negotiateWith_le (limits other : TransportLimits) (l : Limit) :
    l.of (limits.negotiateWith other) ≤ l.of limits ∧
      l.of (limits.negotiateWith other) ≤ l.of other := by
  have hmin (a b : Int) : (if a < b then a else b) ≤ a ∧ (if a < b then a else b) ≤ b := by
    split <;> omega
  cases l <;> exact hmin _ _

theorem intOr_declared {json : Extensions} {field : String} {rest : List String} {n r : Int}
    {otherwise : Option Int} (hdeclared : declared json (field :: rest) = some (.int n))
    (hread : intOr json field otherwise = some r)
    (hrest : declared json rest = some (.int n) → otherwise = some r → r = n) : r = n := by
  unfold declared at hdeclared
  unfold intOr at hread
  cases hfield : json.lookup field with
  | none =>
    rw [hfield] at hdeclared hread
    exact hrest hdeclared hread
  | some value =>
    rw [hfield] at hdeclared hread
    cases value with
    | null => exact hrest hdeclared hread
    | int m =>
      simp only [Option.some.injEq, Json.int.injEq] at hdeclared hread
      omega
    | bool b => simp at hread
    | text t => simp at hread
    | other v => simp at hread
    | list items => simp at hread
    | map entries => simp at hread

theorem TransportLimits.of_fromJson {json : Extensions} {limits : TransportLimits}
    (h : fromJson json = some limits) {l : Limit} {n : Int}
    (hdeclared : declared json l.fields = some (.int n)) : l.of limits = n := by
  have hnil (r : Int) {otherwise : Option Int} :
      declared json [] = some (.int n) → otherwise = some r → r = n := fun hnone =>
    nomatch hnone
  simp only [fromJson, Option.bind_eq_bind, Option.bind_eq_some_iff, Option.pure_def,
    Option.some.injEq] at h
  obtain ⟨compressed, hcompressed, decoded, hdecoded, rows, hrows, batch, hbatch, streams,
    hstreams, chunk, hchunk, threshold, hthreshold, rfl⟩ := h
  cases l with
  | maxCompressedPayloadBytes =>
    exact intOr_declared hdeclared hcompressed fun hgeneral hread =>
      intOr_declared hgeneral hread (hnil compressed)
  | maxDecodedPayloadBytes =>
    exact intOr_declared hdeclared hdecoded fun hgeneral hread =>
      intOr_declared hgeneral hread (hnil decoded)
  | maxRows => exact intOr_declared hdeclared hrows (hnil rows)
  | maxBatchSize => exact intOr_declared hdeclared hbatch (hnil batch)
  | maxConcurrentStreams => exact intOr_declared hdeclared hstreams (hnil streams)
  | streamingChunkSize => exact intOr_declared hdeclared hchunk (hnil chunk)
  | streamingRowThreshold => exact intOr_declared hdeclared hthreshold (hnil threshold)

/-! ## Capabilities -/

/-- `ProtocolCapabilities`; the lists are cast lazily, so they may hold other values. -/
structure ProtocolCapabilities where
  protocols : List Value
  encodings : List Value
  compressions : List Value
  extensions : Extensions := []
  limits : TransportLimits := {}

/-- `contains`, which casts nothing. -/
def contains (items : List Value) (name : String) : Bool :=
  items.any fun item => isValue item (.text name)

namespace ProtocolCapabilities

/-- `json['limits'] != null ? TransportLimits.fromJson(…) : const TransportLimits()`. -/
def limitsFromJson : Option Value → Option TransportLimits
  | none | some .null => some {}
  | some (.map limits) => TransportLimits.fromJson limits
  | _ => none

/-- `ProtocolCapabilities.fromJson`. -/
def fromJson (json : Extensions) : Option ProtocolCapabilities := do
  let protocols ← asList (json.lookup "protocols")
  let encodings ← asList (json.lookup "encodings")
  let compressions ← asList (json.lookup "compressions")
  let extensions ← asMapOrEmpty (json.lookup "extensions")
  let limits ← limitsFromJson (json.lookup "limits")
  return {
    protocols := protocols
    encodings := encodings
    compressions := compressions
    extensions := extensions
    limits := limits }

def supportsEncoding (c : ProtocolCapabilities) (encoding : String) : Bool :=
  contains c.encodings encoding

def supportsCompression (c : ProtocolCapabilities) (compression : String) : Bool :=
  contains c.compressions compression

def supportsJsonRpcV2 (c : ProtocolCapabilities) : Bool :=
  contains c.protocols "jsonrpc-v2"

def supportsBinaryPayload (c : ProtocolCapabilities) : Option Bool :=
  asFlag (c.extensions.lookup "binaryPayload")

end ProtocolCapabilities

structure ProtocolConfig where
  protocol : String
  encoding : String
  compression : String
  compressionThreshold : Int := 4096
  maxInflationRatio : Double := .finite 10
  signatureRequired : Bool := false
  signatureAlgorithms : List String := []
  effectiveLimits : TransportLimits := {}
  negotiatedExtensions : Extensions := []

namespace ProtocolConfig

def usesBinaryPayload (config : ProtocolConfig) : Option Bool :=
  asFlag (config.negotiatedExtensions.lookup "binaryPayload")

def usesTransportFrame (config : ProtocolConfig) : Bool :=
  isValue (config.negotiatedExtensions.lookup "transportFrame") (.text "payload-frame/1.0")

end ProtocolConfig

end PlugAgente.Negotiation
