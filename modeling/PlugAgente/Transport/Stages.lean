import PlugAgente.Transport.Paths

/-!
# The stages of a decoder

A decoder checks the frame, checks its envelope, decompresses, checks the sizes and the ratio of
what came out, and decodes.  Both decoders are written over these stages here, and each stage has
a lemma for what it leaves when it passes.
-/

namespace PlugAgente.Transport

open Wire Dart

variable {V : Type}

/-! ## The stages -/

def PayloadFrameCodec.checks (c : PayloadFrameCodec V) (frame : PayloadFrame V) :
    Except Stop Unit :=
  match c.validateFramePayloadBounds frame with
  | .error f => .error (.failure f)
  | .ok _ => c.validateFrameAgainstLocalCapabilities frame true

def PayloadFrameCodec.decodeWith (c : PayloadFrameCodec V)
    (receive : PayloadFrame V → Except Failure (Json V)) (payload : Incoming V) :
    Except Failure (Json V) :=
  if !looksLikePayloadFrame payload then .error (notAFrame payload)
  else catching (decodeFailed payload)
    (match PayloadFrame.fromJson c.codecs (payload.entries.getD []) with
    | none => .error .thrown
    | some frame =>
      match c.checks frame with
      | .error stop => .error stop
      | .ok _ => PayloadFrameCodec.processed (receive frame))

theorem PayloadFrameCodec.decodeIncoming_eq (c : PayloadFrameCodec V) (payload : Incoming V) :
    c.decodeIncoming payload = c.decodeWith (fun frame =>
      receiveProcess c.codecs (c.receivePipeline frame) frame c.receiveLimits) payload := by
  rw [decodeIncoming, decodeWith]
  split
  · rfl
  · rw [decodeIncomingBody]
    cases PayloadFrame.fromJson c.codecs (payload.entries.getD []) with
    | none => rfl
    | some frame =>
      dsimp only [checks]
      cases c.validateFramePayloadBounds frame with
      | error f => rfl
      | ok payloadByteLength => rfl

theorem PayloadFrameCodec.decodeIncomingAsync_eq (c : PayloadFrameCodec V)
    (payload : Incoming V) :
    c.decodeIncomingAsync payload = c.decodeWith (fun frame =>
      receiveProcessAsync c.codecs (c.receivePipeline frame) frame c.receiveLimits) payload := by
  rw [decodeIncomingAsync, decodeWith]
  split
  · rfl
  · rw [decodeIncomingAsyncBody]
    cases PayloadFrame.fromJson c.codecs (payload.entries.getD []) with
    | none => rfl
    | some frame =>
      dsimp only [checks]
      cases c.validateFramePayloadBounds frame with
      | error f => rfl
      | ok payloadByteLength =>
        dsimp only
        rw [validateFrameAgainstLocalCapabilities_true, verifyFrameSignatureAsync_eq]
        cases c.validateFrameAgainstLocalCapabilities frame false with
        | error stop => rfl
        | ok _ =>
          cases c.verifyFrameSignature frame with
          | none => rfl
          | some valid => cases valid <;> rfl

/-- What is checked of the decompressed bytes before they are decoded. -/
def checkInflated (frame : PayloadFrame V) (limits : ReceiveLimits) (ratio : Double)
    (bytes decodable : Bytes) : Except Stop Unit :=
  if (decodable.length : Int) ≠ frame.originalSize then
    .error (.failure (originalSizeMismatch frame.originalSize decodable.length))
  else if exceeds decodable.length limits.maxOriginalBytes then
    .error (.failure (decodedOverLimit decodable.length (limits.maxOriginalBytes.getD 0)))
  else if exceedsInflationRatio decodable.length bytes.length ratio then
    .error (.failure (inflationRatioExceeded decodable.length bytes.length ratio))
  else .ok ()

/-- What is checked of the envelope before its bytes are decompressed. -/
def checkEnvelope (p : TransportPipeline) (frame : PayloadFrame V) (limits : ReceiveLimits) :
    Except Stop Bytes :=
  if frame.enc != p.encoding then .error (.failure (encodingMismatch p.encoding frame.enc))
  else
    match payloadBytesFromFramePayload frame.payload with
    | none => .error (.failure (payloadNotBinary frame.payload.runtimeType))
    | some bytes =>
      if (bytes.length : Int) ≠ frame.compressedSize then
        .error (.failure (compressedSizeMismatch frame.compressedSize bytes.length))
      else if exceeds frame.compressedSize limits.maxCompressedBytes then
        .error (.failure (compressedOverLimit frame.compressedSize
          (limits.maxCompressedBytes.getD 0)))
      else if exceeds frame.originalSize limits.maxOriginalBytes then
        .error (.failure (originalOverLimit frame.originalSize (limits.maxOriginalBytes.getD 0)))
      else .ok bytes

/-- A receive, with its decompression and its decoding. -/
def receiveWith (p : TransportPipeline) (frame : PayloadFrame V) (limits : ReceiveLimits)
    (ratio : Double) (inflate : Bytes → Except Stop Bytes)
    (decode : Bytes → Except Stop (Json V)) : Except Stop (Json V) := do
  let bytes ← checkEnvelope p frame limits
  let decodable ← inflate bytes
  checkInflated frame limits ratio bytes decodable
  decode decodable

theorem receiveProcessBody_eq (codecs : Codecs V) (p : TransportPipeline)
    (frame : PayloadFrame V) (limits : ReceiveLimits) :
    receiveProcessBody codecs p frame limits = receiveWith p frame limits
      (limits.maxInflationRatio.getD p.maxInflationRatio)
      (fun bytes => inflate codecs frame bytes limits
        (limits.maxInflationRatio.getD p.maxInflationRatio))
      (fun bytes => withCode RpcErrorCode.decodingFailed (decode codecs frame.enc bytes)) := by
  rw [receiveProcessBody, receiveWith, checkEnvelope]
  split
  · rfl
  · cases payloadBytesFromFramePayload frame.payload with
    | none => rfl
    | some bytes =>
      dsimp only
      split
      · rfl
      · split
        · rfl
        · split
          · rfl
          · simp only [bind, Except.bind]
            cases inflate codecs frame bytes limits
              (limits.maxInflationRatio.getD p.maxInflationRatio) with
            | error stop => rfl
            | ok decodable =>
              dsimp only [checkInflated]
              split
              · rfl
              · split
                · rfl
                · split
                  · rfl
                  · rfl

theorem receiveProcessAsyncBody_eq (codecs : Codecs V) (p : TransportPipeline)
    (frame : PayloadFrame V) (limits : ReceiveLimits) :
    receiveProcessAsyncBody codecs p frame limits = receiveWith p frame limits
      (limits.maxInflationRatio.getD p.maxInflationRatio)
      (fun bytes => inflateAsync codecs p frame bytes limits
        (limits.maxInflationRatio.getD p.maxInflationRatio))
      (fun bytes => decodeAsync codecs frame bytes) := by
  rw [receiveProcessAsyncBody, receiveWith, checkEnvelope]
  split
  · rfl
  · cases payloadBytesFromFramePayload frame.payload with
    | none => rfl
    | some bytes =>
      dsimp only
      split
      · rfl
      · split
        · rfl
        · split
          · rfl
          · simp only [bind, Except.bind]
            cases inflateAsync codecs p frame bytes limits
              (limits.maxInflationRatio.getD p.maxInflationRatio) with
            | error stop => rfl
            | ok decodable =>
              dsimp only [checkInflated]
              split
              · rfl
              · split
                · rfl
                · split
                  · rfl
                  · rfl

/-! ## What the checks leave -/

theorem checkEnvelope_ok {p : TransportPipeline} {frame : PayloadFrame V}
    {limits : ReceiveLimits} {bytes : Bytes} (h : checkEnvelope p frame limits = .ok bytes) :
    payloadBytesFromFramePayload frame.payload = some bytes ∧
      (bytes.length : Int) = frame.compressedSize := by
  unfold checkEnvelope at h
  split at h
  · cases h
  · split at h
    · cases h
    · rename_i bytes' hbytes
      split at h
      · cases h
      · rename_i hsize
        split at h
        · cases h
        · split at h
          · cases h
          · obtain rfl := Except.ok.inj h
            exact ⟨hbytes, not_not.mp hsize⟩

theorem checkInflated_ok {frame : PayloadFrame V} {limits : ReceiveLimits} {ratio : Double}
    {bytes decodable : Bytes} (h : checkInflated frame limits ratio bytes decodable = .ok ()) :
    (decodable.length : Int) = frame.originalSize ∧
      exceedsInflationRatio decodable.length bytes.length ratio = false := by
  unfold checkInflated at h
  split at h
  · cases h
  · rename_i hsize
    split at h
    · cases h
    · split at h
      · cases h
      · rename_i hratio
        exact ⟨not_not.mp hsize, by simpa using hratio⟩

theorem decompressGzipBytesBounded_some {codecs : Codecs V} {bytes output : Bytes}
    {maxOutputBytes : Int}
    (h : decompressGzipBytesBounded codecs bytes maxOutputBytes = some output) :
    codecs.gzipDecode bytes = some output := by
  unfold decompressGzipBytesBounded at h
  split at h
  · cases h
  · split at h
    · cases h
    · rename_i output' houtput
      split at h
      · cases h
      · rw [houtput, Option.some.inj h]

theorem inflate_ok {codecs : Codecs V} {frame : PayloadFrame V} {bytes decodable : Bytes}
    {limits : ReceiveLimits} {ratio : Double}
    (h : inflate codecs frame bytes limits ratio = .ok decodable) :
    (frame.cmp = "none" ∧ decodable = bytes) ∨
      (frame.cmp = "gzip" ∧ codecs.gzipDecode bytes = some decodable) := by
  unfold inflate at h
  split at h
  · rename_i hnone
    exact .inl ⟨by simpa using hnone, (Except.ok.inj h).symm⟩
  · split at h
    · cases h
    · rename_i hgzip
      have hcmp : frame.cmp = "gzip" := by simpa using hgzip
      refine .inr ⟨hcmp, ?_⟩
      split at h
      · cases h
      · rename_i maxOutputBytes hmax
        rw [hcmp] at h
        cases hbounded : decompressGzipBytesBounded codecs bytes maxOutputBytes with
        | none =>
          rw [decompress_gzip_stop hbounded] at h
          cases h
        | some output =>
          rw [decompress, if_pos (beq_self_eq_true _), hbounded] at h
          obtain rfl : output = decodable := Except.ok.inj h
          exact decompressGzipBytesBounded_some hbounded

theorem inflateAsync_ok {codecs : Codecs V} {p : TransportPipeline} {frame : PayloadFrame V}
    {bytes decodable : Bytes} {limits : ReceiveLimits} {ratio : Double}
    (h : inflateAsync codecs p frame bytes limits ratio = .ok decodable) :
    (frame.cmp = "none" ∧ decodable = bytes) ∨
      (frame.cmp = "gzip" ∧ codecs.gzipDecode bytes = some decodable) := by
  rcases inflateAsync_agrees codecs p frame bytes limits ratio with
    ⟨output, hok, hokAsync⟩ | ⟨stop, stopAsync, -, hstopAsync, -⟩
  · rw [hokAsync] at h
    rw [Except.ok.inj h] at hok
    exact inflate_ok hok
  · rw [hstopAsync] at h
    cases h

theorem withCode_decode_ok {codecs : Codecs V} {encoding : String} {bytes : Bytes}
    {code : Int} {value : Json V} (h : withCode code (decode codecs encoding bytes) = .ok value) :
    codecs.jsonDecode bytes = some value := by
  unfold decode at h
  split at h
  · split at h
    · cases h
    · rename_i decoded hnull hdecoded
      obtain rfl : decoded = value := Except.ok.inj h
      exact hdecoded
    · cases h
  · cases h

theorem decodeAsync_ok {codecs : Codecs V} {frame : PayloadFrame V} {bytes : Bytes}
    {value : Json V} (h : decodeAsync codecs frame bytes = .ok value) :
    codecs.jsonDecode bytes = some value := by
  rcases decodeAsync_agrees codecs frame bytes with
    ⟨decoded, hok, hokAsync⟩ | ⟨stop, stopAsync, -, hstopAsync, -⟩
  · rw [hokAsync] at h
    rw [Except.ok.inj h] at hok
    exact withCode_decode_ok hok
  · rw [hstopAsync] at h
    cases h

theorem validateFramePayloadBounds_ok {c : PayloadFrameCodec V} {frame : PayloadFrame V}
    {payloadByteLength : Nat} (h : c.validateFramePayloadBounds frame = .ok payloadByteLength) :
    frame.compressedSize ≤ c.maxCompressedPayloadBytes ∧
      frame.originalSize ≤ c.maxDecodedPayloadBytes ∧
      (frame.cmp = "gzip" → (Double.mul (.ofInt frame.compressedSize) c.maxInflationRatio).lt
        (.finite frame.originalSize) = false) := by
  unfold PayloadFrameCodec.validateFramePayloadBounds at h
  split at h
  · cases h
  · split at h
    · cases h
    · rename_i length hlength
      split at h
      · cases h
      · rename_i hsizes
        simp only [ne_eq, Bool.or_eq_true, decide_eq_true_eq, not_or, not_not, not_lt] at hsizes
        obtain ⟨⟨⟨hsize, -⟩, hcompressed⟩, horiginal⟩ := hsizes
        split at h
        · cases h
        · rename_i hratio
          refine ⟨hcompressed, horiginal, fun hgzip => ?_⟩
          simp only [hgzip, beq_self_eq_true, Bool.true_and, Bool.or_eq_true, not_or,
            Bool.not_eq_true] at hratio
          rw [← hsize]
          exact hratio.2

theorem validateFrameAgainstLocalCapabilities_ok {c : PayloadFrameCodec V}
    {frame : PayloadFrame V} (h : c.validateFrameAgainstLocalCapabilities frame true = .ok ()) :
    c.encodings.contains frame.enc = true ∧ c.compressions.contains frame.cmp = true ∧
      c.verifyFrameSignature frame = some true := by
  unfold PayloadFrameCodec.validateFrameAgainstLocalCapabilities at h
  split at h
  · cases h
  · split at h
    · cases h
    · split at h
      · cases h
      · rename_i henc
        split at h
        · cases h
        · rename_i hcmp
          rw [if_pos rfl] at h
          refine ⟨by simpa using henc, by simpa using hcmp, ?_⟩
          cases hverify : c.verifyFrameSignature frame with
          | none =>
            rw [hverify] at h
            cases h
          | some valid =>
            rw [hverify] at h
            cases valid with
            | true => rfl
            | false => cases h

end PlugAgente.Transport
