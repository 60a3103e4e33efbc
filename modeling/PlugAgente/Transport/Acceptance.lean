import PlugAgente.Negotiation.NoWeakening
import PlugAgente.Transport.SignatureCheck
import PlugAgente.Transport.Stages

/-!
# Frames that are accepted

Both decoders take a frame in three stages: the checks of the codec, the decompression with the
checks of the receive, and the decoding.  A frame that comes through has the declared sizes,
within the negotiated limits and ratio, names that this side supports, and a signature that
verifies where one is required or given.  Any other frame fails at one of the checks, and what
the stages behind it would have done makes no difference.
-/

namespace PlugAgente.Transport

open Wire Dart Negotiation

variable {V : Type}

/-- What the providers of the codec are bound to. -/
structure FrameProviders (V : Type) where
  codecs : Codecs V
  constants : ConnectionConstants := {}
  gzipIsolateThresholdBytes : Int := 32 * 1024
  protocol : ProtocolConfig
  localCapabilities : ProtocolCapabilities
  payloadSigner : Option PayloadSigner := none
  hasReceivedCapabilities : Bool := true
  localRequiresIncomingSignature : Bool := false

/-- The two decoders. -/
inductive Decoder where
  | decodeIncoming
  | decodeIncomingAsync

namespace FrameProviders

def codec (p : FrameProviders V) : PayloadFrameCodec V where
  codecs := p.codecs
  constants := p.constants
  gzipIsolateThresholdBytes := p.gzipIsolateThresholdBytes
  maxCompressedPayloadBytes := p.protocol.effectiveLimits.maxCompressedPayloadBytes
  maxDecodedPayloadBytes := p.protocol.effectiveLimits.maxDecodedPayloadBytes
  maxInflationRatio := p.protocol.maxInflationRatio
  compressionThreshold := p.protocol.compressionThreshold
  signatureRequired := p.protocol.signatureRequired
  hasReceivedCapabilities := p.hasReceivedCapabilities
  localRequiresIncomingSignature := p.localRequiresIncomingSignature
  encodings := strings p.localCapabilities.encodings
  compressions := strings p.localCapabilities.compressions
  payloadSigner := p.payloadSigner.map PayloadSigner.verifyFrame

def decode (p : FrameProviders V) : Decoder → Incoming V → Except Failure (Json V)
  | .decodeIncoming => p.codec.decodeIncoming
  | .decodeIncomingAsync => p.codec.decodeIncomingAsync

/-- The same providers with another JSON decoder. -/
def withJsonDecode (p : FrameProviders V) (jsonDecode : Bytes → Option (Json V)) :
    FrameProviders V :=
  { p with codecs := { p.codecs with jsonDecode := jsonDecode } }

/-- The same providers with another GZIP decoder. -/
def withGzipDecode (p : FrameProviders V) (gzipDecode : Bytes → Option Bytes) :
    FrameProviders V :=
  { p with codecs := { p.codecs with gzipDecode := gzipDecode } }

/-- A signature is required of incoming frames. -/
def requiresSignature (p : FrameProviders V) : Bool :=
  if p.hasReceivedCapabilities then p.protocol.signatureRequired
  else p.localRequiresIncomingSignature

/-- The signature of a frame verifies over its canonical form. -/
def Signed (p : FrameProviders V) (frame : PayloadFrame V) : Prop :=
  ∃ signer json signature, p.payloadSigner = some signer ∧ frame.signature = some json ∧
    PayloadSignature.fromJson json = some signature ∧ signer.Verifies frame signature

/-- What holds of a frame before any of it is decompressed. -/
structure Admitted (p : FrameProviders V) (payload : Incoming V) (frame : PayloadFrame V)
    (bytes : Bytes) : Prop where
  shape : looksLikePayloadFrame payload = true
  parsed : PayloadFrame.fromJson p.codecs (payload.entries.getD []) = some frame
  binary : payloadBytesFromFramePayload frame.payload = some bytes
  compressedSize : (bytes.length : Int) = frame.compressedSize
  compressedLimit : frame.compressedSize ≤ p.protocol.effectiveLimits.maxCompressedPayloadBytes
  originalLimit : frame.originalSize ≤ p.protocol.effectiveLimits.maxDecodedPayloadBytes
  declaredRatio : frame.cmp = "gzip" →
    (Double.mul (.ofInt frame.compressedSize) p.protocol.maxInflationRatio).lt
      (.finite frame.originalSize) = false
  encoding : p.localCapabilities.supportsEncoding frame.enc = true
  compression : p.localCapabilities.supportsCompression frame.cmp = true
  signature : (p.requiresSignature || frame.signature.isSome) = true → p.Signed frame

/-- What holds of a frame before its bytes are decoded. -/
structure Accepted (p : FrameProviders V) (payload : Incoming V) (frame : PayloadFrame V)
    (bytes decoded : Bytes) : Prop extends p.Admitted payload frame bytes where
  inflated : (frame.cmp = "none" ∧ decoded = bytes) ∨
    (frame.cmp = "gzip" ∧ p.codecs.gzipDecode bytes = some decoded)
  originalSize : (decoded.length : Int) = frame.originalSize
  ratio : bytes ≠ [] → p.protocol.maxInflationRatio.lt
    (Double.div (.ofInt decoded.length) (.ofInt bytes.length)) = false

end FrameProviders

/-! ## The two decoders -/

theorem supported_of_contains {items : List Value} {name : String}
    (h : (strings items).contains name = true) : contains items name = true := by
  rw [List.contains_iff_mem, strings, List.mem_filterMap] at h
  obtain ⟨item, hitem, hname⟩ := h
  cases item with
  | text t =>
    obtain rfl : t = name := Option.some.inj hname
    exact List.any_eq_true.mpr ⟨.text t, hitem, by simp [isValue, same]⟩
  | _ => cases hname

namespace FrameProviders

variable (p : FrameProviders V)

theorem signed_of_verify {frame : PayloadFrame V}
    (h : p.codec.verifyFrameSignature frame = some true)
    (hsigned : (p.requiresSignature || frame.signature.isSome) = true) : p.Signed frame := by
  unfold PayloadFrameCodec.verifyFrameSignature at h
  cases hsigner : p.payloadSigner with
  | none =>
    have hcodec : p.codec.payloadSigner = none := by rw [codec, hsigner]; rfl
    rw [hcodec] at h
    cases hsignature : frame.signature with
    | some json =>
      rw [hsignature] at h
      cases h
    | none =>
      rw [hsignature] at h hsigned
      have hrequired : p.requiresSignature = true := by simpa using hsigned
      have hnot : (!p.requiresSignature) = true := Option.some.inj h
      rw [hrequired] at hnot
      cases hnot
  | some signer =>
    have hcodec : p.codec.payloadSigner = some signer.verifyFrame := by rw [codec, hsigner]; rfl
    rw [hcodec] at h
    cases hsignature : frame.signature with
    | none =>
      rw [hsignature] at h hsigned
      have hrequired : p.requiresSignature = true := by simpa using hsigned
      have hnot : (!p.requiresSignature) = true := Option.some.inj h
      rw [hrequired] at hnot
      cases hnot
    | some json =>
      rw [hsignature] at h
      dsimp only at h
      split at h
      · cases h
      · rename_i signature hjson
        exact ⟨signer, json, signature, hsigner, hsignature, hjson,
          PayloadSigner.verifyFrame_true h⟩

def inflate (d : Decoder) (frame : PayloadFrame V) (bytes : Bytes) : Except Stop Bytes :=
  match d with
  | .decodeIncoming =>
    Transport.inflate p.codecs frame bytes p.codec.receiveLimits p.protocol.maxInflationRatio
  | .decodeIncomingAsync =>
    inflateAsync p.codecs (p.codec.receivePipeline frame) frame bytes p.codec.receiveLimits
      p.protocol.maxInflationRatio

def decodeBytes (d : Decoder) (frame : PayloadFrame V) (bytes : Bytes) : Except Stop (Json V) :=
  match d with
  | .decodeIncoming =>
    withCode RpcErrorCode.decodingFailed (Transport.decode p.codecs frame.enc bytes)
  | .decodeIncomingAsync => decodeAsync p.codecs frame bytes

/-- The failure of a decoder for an exception of the receive. -/
def receiveFailure (d : Decoder) (frame : PayloadFrame V) : Failure :=
  match d with
  | .decodeIncoming => receiveFailed frame "receiveProcess"
  | .decodeIncomingAsync => receiveFailed frame "receiveProcessAsync"

theorem decode_eq (d : Decoder) (payload : Incoming V) :
    p.decode d payload = p.codec.decodeWith (fun frame => catching (receiveFailure d frame)
      (receiveWith (p.codec.receivePipeline frame) frame p.codec.receiveLimits
        p.protocol.maxInflationRatio (p.inflate d frame) (p.decodeBytes d frame))) payload := by
  cases d with
  | decodeIncoming =>
    show p.codec.decodeIncoming payload = _
    rw [PayloadFrameCodec.decodeIncoming_eq]
    congr 1
    funext frame
    rw [receiveProcess, receiveProcessBody_eq]
    rfl
  | decodeIncomingAsync =>
    show p.codec.decodeIncomingAsync payload = _
    rw [PayloadFrameCodec.decodeIncomingAsync_eq]
    congr 1
    funext frame
    rw [receiveProcessAsync, receiveProcessAsyncBody_eq]
    rfl

theorem inflate_ok {d : Decoder} {frame : PayloadFrame V} {bytes decodable : Bytes}
    (h : p.inflate d frame bytes = .ok decodable) :
    (frame.cmp = "none" ∧ decodable = bytes) ∨
      (frame.cmp = "gzip" ∧ p.codecs.gzipDecode bytes = some decodable) := by
  cases d with
  | decodeIncoming => exact Transport.inflate_ok h
  | decodeIncomingAsync => exact inflateAsync_ok h

theorem decodeBytes_ok {d : Decoder} {frame : PayloadFrame V} {bytes : Bytes} {value : Json V}
    (h : p.decodeBytes d frame bytes = .ok value) : p.codecs.jsonDecode bytes = some value := by
  cases d with
  | decodeIncoming => exact withCode_decode_ok h
  | decodeIncomingAsync => exact decodeAsync_ok h

/-- The same providers with other decoders. -/
def withDecoders (gzipDecode : Bytes → Option Bytes) (jsonDecode : Bytes → Option (Json V)) :
    FrameProviders V :=
  (p.withGzipDecode gzipDecode).withJsonDecode jsonDecode

theorem admitted {payload : Incoming V} {frame : PayloadFrame V} {bytes : Bytes}
    (hshape : looksLikePayloadFrame payload = true)
    (hframe : PayloadFrame.fromJson p.codecs (payload.entries.getD []) = some frame)
    (hchecks : p.codec.checks frame = .ok ())
    (henvelope : checkEnvelope (p.codec.receivePipeline frame) frame p.codec.receiveLimits =
      .ok bytes) : p.Admitted payload frame bytes := by
  obtain ⟨hbytes, hsize⟩ := checkEnvelope_ok henvelope
  unfold PayloadFrameCodec.checks at hchecks
  split at hchecks
  · cases hchecks
  · rename_i payloadByteLength hbounds
    obtain ⟨hcompressed, horiginal, hratio⟩ := validateFramePayloadBounds_ok hbounds
    obtain ⟨henc, hcmp, hverify⟩ := validateFrameAgainstLocalCapabilities_ok hchecks
    exact ⟨hshape, hframe, hbytes, hsize, hcompressed, horiginal, hratio,
      supported_of_contains henc, supported_of_contains hcmp, p.signed_of_verify hverify⟩

/-- Before anything is decompressed a decoder has failed, whatever the codecs would do, or the
frame is admitted and the rest is the receive. -/
theorem decode_stages (d : Decoder) (payload : Incoming V) :
    (∃ failure, ∀ gzipDecode jsonDecode,
      (p.withDecoders gzipDecode jsonDecode).decode d payload = .error failure) ∨
    (∃ frame bytes, p.Admitted payload frame bytes ∧ ∀ gzipDecode jsonDecode,
      (p.withDecoders gzipDecode jsonDecode).decode d payload =
        catching (receiveFailure d frame) (do
          let decodable ← (p.withDecoders gzipDecode jsonDecode).inflate d frame bytes
          checkInflated frame p.codec.receiveLimits p.protocol.maxInflationRatio bytes decodable
          (p.withDecoders gzipDecode jsonDecode).decodeBytes d frame decodable)) := by
  cases hshape : looksLikePayloadFrame payload with
  | false =>
    refine .inl ⟨notAFrame payload, fun gzipDecode jsonDecode => ?_⟩
    rw [decode_eq, PayloadFrameCodec.decodeWith, hshape]
    rfl
  | true =>
    cases hframe : PayloadFrame.fromJson p.codecs (payload.entries.getD []) with
    | none =>
      refine .inl ⟨decodeFailed payload, fun gzipDecode jsonDecode => ?_⟩
      have hsame : PayloadFrame.fromJson (p.withDecoders gzipDecode jsonDecode).codec.codecs
          (payload.entries.getD []) = none := hframe
      rw [decode_eq, PayloadFrameCodec.decodeWith, hshape, hsame]
      rfl
    | some frame =>
      have hsame gzipDecode jsonDecode : PayloadFrame.fromJson
          (p.withDecoders gzipDecode jsonDecode).codec.codecs (payload.entries.getD []) =
            some frame := hframe
      cases hchecks : p.codec.checks frame with
      | error stop =>
        refine .inl ⟨stop.failed (decodeFailed payload), fun gzipDecode jsonDecode => ?_⟩
        have hstop : (p.withDecoders gzipDecode jsonDecode).codec.checks frame = .error stop :=
          hchecks
        rw [decode_eq, PayloadFrameCodec.decodeWith, hshape, hsame]
        dsimp only
        rw [hstop]
        exact catching_error _ stop
      | ok _ =>
        have hok gzipDecode jsonDecode :
            (p.withDecoders gzipDecode jsonDecode).codec.checks frame = .ok () := hchecks
        have hprocessed {f : Failure} (outcome : Except Failure (Json V)) :
            catching f (PayloadFrameCodec.processed outcome) = outcome := by
          cases outcome <;> rfl
        cases henvelope : checkEnvelope (p.codec.receivePipeline frame) frame
            p.codec.receiveLimits with
        | error stop =>
          refine .inl ⟨stop.failed (receiveFailure d frame), fun gzipDecode jsonDecode => ?_⟩
          have hstop : checkEnvelope
              ((p.withDecoders gzipDecode jsonDecode).codec.receivePipeline frame) frame
              (p.withDecoders gzipDecode jsonDecode).codec.receiveLimits = .error stop :=
            henvelope
          rw [decode_eq, PayloadFrameCodec.decodeWith, hshape, hsame]
          dsimp only
          rw [hok]
          simp only [Bool.not_true, Bool.false_eq_true, if_false]
          rw [hprocessed, receiveWith, hstop]
          exact catching_error _ stop
        | ok bytes =>
          refine .inr ⟨frame, bytes, p.admitted hshape hframe hchecks henvelope,
            fun gzipDecode jsonDecode => ?_⟩
          have hbytes : checkEnvelope
              ((p.withDecoders gzipDecode jsonDecode).codec.receivePipeline frame) frame
              (p.withDecoders gzipDecode jsonDecode).codec.receiveLimits = .ok bytes :=
            henvelope
          rw [decode_eq, PayloadFrameCodec.decodeWith, hshape, hsame]
          dsimp only
          rw [hok]
          simp only [Bool.not_true, Bool.false_eq_true, if_false]
          rw [hprocessed, receiveWith, hbytes]
          rfl

end FrameProviders

theorem receive_ok {f : Failure} {inflated : Except Stop Bytes}
    {check : Bytes → Except Stop Unit} {decode : Bytes → Except Stop (Json V)} {value : Json V}
    (h : catching f (do
      let decodable ← inflated
      check decodable
      decode decodable) = .ok value) :
    ∃ decodable, inflated = .ok decodable ∧ check decodable = .ok () ∧
      decode decodable = .ok value := by
  cases inflated with
  | error stop => cases stop <;> cases h
  | ok decodable =>
    change catching f (check decodable >>= fun _ => decode decodable) = _ at h
    cases hcheck : check decodable with
    | error stop =>
      rw [hcheck] at h
      cases stop <;> cases h
    | ok _ =>
      rw [hcheck] at h
      change catching f (decode decodable) = _ at h
      cases hdecode : decode decodable with
      | error stop =>
        rw [hdecode] at h
        cases stop <;> cases h
      | ok decoded =>
        rw [hdecode] at h
        exact ⟨decodable, rfl, hcheck, by rw [hdecode, Except.ok.inj h]⟩

theorem accepted {p : FrameProviders V} {d : Decoder} {payload : Incoming V}
    {frame : PayloadFrame V} {bytes decodable : Bytes}
    (hadmitted : p.Admitted payload frame bytes)
    (hinflate : p.inflate d frame bytes = .ok decodable)
    (hchecked : checkInflated frame p.codec.receiveLimits p.protocol.maxInflationRatio bytes
      decodable = .ok ()) : p.Accepted payload frame bytes decodable := by
  obtain ⟨hsize, hratio⟩ := checkInflated_ok hchecked
  refine ⟨hadmitted, p.inflate_ok hinflate, hsize, fun hne => ?_⟩
  have hpos : 0 < bytes.length := List.length_pos_of_ne_nil hne
  simpa [exceedsInflationRatio, hpos] using hratio

/-- A frame is decoded only if it is accepted, to what the JSON decoder makes of its bytes.
Otherwise a decoder fails in a way that the JSON decoder has no part in, and if the frame is not
even admitted, neither has the decompression. -/
theorem decode_accepts_exactly (p : FrameProviders V) (d : Decoder) (payload : Incoming V) :
    (∀ value, p.decode d payload = .ok value → ∃ frame bytes decoded,
      p.Accepted payload frame bytes decoded ∧ p.codecs.jsonDecode decoded = some value) ∧
    ((∀ frame bytes decoded, ¬ p.Accepted payload frame bytes decoded) →
      ∃ failure, ∀ jsonDecode,
        (p.withJsonDecode jsonDecode).decode d payload = .error failure) ∧
    ((∀ frame bytes, ¬ p.Admitted payload frame bytes) → ∃ failure, ∀ gzipDecode jsonDecode,
      ((p.withGzipDecode gzipDecode).withJsonDecode jsonDecode).decode d payload =
        .error failure) := by
  rcases p.decode_stages d payload with ⟨failure, hfailed⟩ | ⟨frame, bytes, hadmitted, hrest⟩
  · have hjson jsonDecode : (p.withJsonDecode jsonDecode).decode d payload = .error failure :=
      hfailed p.codecs.gzipDecode jsonDecode
    refine ⟨fun value hvalue => ?_, fun _ => ⟨failure, hjson⟩, fun _ => ⟨failure, hfailed⟩⟩
    have hself : p.decode d payload = .error failure := hjson p.codecs.jsonDecode
    rw [hself] at hvalue
    cases hvalue
  · refine ⟨?_, ?_, fun hnone => absurd hadmitted (hnone frame bytes)⟩
    · intro value hvalue
      have hself : p.decode d payload = _ := hrest p.codecs.gzipDecode p.codecs.jsonDecode
      rw [hself] at hvalue
      obtain ⟨decodable, hinflate, hchecked, hdecode⟩ := receive_ok hvalue
      exact ⟨frame, bytes, decodable, accepted hadmitted hinflate hchecked,
        p.decodeBytes_ok hdecode⟩
    · intro hnone
      cases hinflate : p.inflate d frame bytes with
      | error stop =>
        refine ⟨stop.failed (FrameProviders.receiveFailure d frame), fun jsonDecode => ?_⟩
        have hsame : (p.withDecoders p.codecs.gzipDecode jsonDecode).inflate d frame bytes =
            .error stop := by
          cases d <;> exact hinflate
        have hself : (p.withJsonDecode jsonDecode).decode d payload = _ :=
          hrest p.codecs.gzipDecode jsonDecode
        rw [hself, hsame]
        exact catching_error _ stop
      | ok decodable =>
        have hsame jsonDecode :
            (p.withDecoders p.codecs.gzipDecode jsonDecode).inflate d frame bytes =
              .ok decodable := by
          cases d <;> exact hinflate
        cases hchecked : checkInflated frame p.codec.receiveLimits p.protocol.maxInflationRatio
            bytes decodable with
        | error stop =>
          refine ⟨stop.failed (FrameProviders.receiveFailure d frame), fun jsonDecode => ?_⟩
          have hself : (p.withJsonDecode jsonDecode).decode d payload = _ :=
            hrest p.codecs.gzipDecode jsonDecode
          rw [hself, hsame]
          show catching _ (do checkInflated _ _ _ _ _; _) = _
          rw [hchecked]
          exact catching_error _ stop
        | ok _ =>
          exact absurd (accepted hadmitted hinflate hchecked) (hnone frame bytes decodable)

/-! ## A compression that was not negotiated -/

/-- The empty list, compressed. -/
def emptyListGzip : Bytes :=
  [31, 139, 8, 0, 0, 0, 0, 0, 2, 3, 139, 142, 5, 0, 41, 187, 76, 13, 2, 0, 0, 0]

/-- The codecs of the platform at the empty list. -/
def emptyListCodecs : Codecs Unit where
  jsonEncode _ := some [91, 93]
  jsonDecode bytes := if bytes = [91, 93] then some (.list []) else none
  gzipEncode _ := some emptyListGzip
  gzipDecode bytes := if bytes = emptyListGzip then some [91, 93] else none
  isNum _ := false
  runtimeType _ := "Object"

/-- What an agent that supports GZIP negotiates with a server that does not. -/
def uncompressedProtocol : ProtocolConfig :=
  (ProtocolNegotiator.negotiate agentCapabilities
    { protocols := [.text "jsonrpc-v2"], encodings := [.text "json"]
      compressions := [.text "none"] }).getD { protocol := "", encoding := "", compression := "" }

def uncompressedProviders : FrameProviders Unit where
  codecs := emptyListCodecs
  protocol := uncompressedProtocol
  localCapabilities := agentCapabilities

/-- A frame with the empty list, compressed. -/
def gzipFrame : Incoming Unit where
  runtimeType := "_Map<String, dynamic>"
  entries := some [("schemaVersion", .value (.text "1.0")), ("enc", .value (.text "json")),
    ("cmp", .value (.text "gzip")), ("contentType", .value (.text "application/json")),
    ("originalSize", .value (.int 2)), ("compressedSize", .value (.int 22)),
    ("payload", .binary (.uint8List emptyListGzip))]

/-- A frame is accepted with a compression that this side supports, though another one was
negotiated. -/
theorem unnegotiated_compression_accepted :
    uncompressedProtocol.compression = "none" ∧
      gzipFrame.entries.bind (fun entries => asText (entries.lookup "cmp")) = some "gzip" ∧
      (uncompressedProviders.decode .decodeIncoming gzipFrame).toOption.isSome = true := by
  decide +kernel

end PlugAgente.Transport
