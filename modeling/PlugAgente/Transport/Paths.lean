import PlugAgente.Transport.FrameCodec

/-!
# The two paths of the transport

The path in one turn and the path with the pool make the same frames and values.  Where they
fail, they fail together and with the same failure, unless it is that of a step that the pool may
run or of the catch around the path: these name their paths, and have the class and the RPC error
code in common.
-/

namespace PlugAgente.Transport

open Wire Dart

variable {V α : Type}

/-- The failures of one step on the two paths, where they differ. -/
inductive NamesPath : Failure → Failure → Prop where
  | jsonEncode : NamesPath
      ⟨.compression, "Failed to encode JSON",
        [("operation", .text "encode"), ("encoding", .text "json")]⟩
      ⟨.compression, "Failed to encode JSON in isolate",
        [("operation", .text "jsonEncode"), ("encoding", .text "json")]⟩
  /-- An exception of the pool is left to the catch around the path. -/
  | gzipEncode (p : TransportPipeline) : NamesPath
      ⟨.compression, "Failed to compress with GZIP",
        [("operation", .text "compress"), ("algorithm", .text "gzip")]⟩
      (sendFailed p "prepareSendAsync")
  | send (p : TransportPipeline) :
      NamesPath (sendFailed p "prepareSend") (sendFailed p "prepareSendAsync")
  | gzipDecode (maxOutputBytes : Int) : NamesPath
      ⟨.compression, "Failed to decompress with GZIP",
        [("operation", .text "decompress"), ("algorithm", .text "gzip"),
          ("max_output_bytes", .int maxOutputBytes),
          ("rpc_error_code", .int RpcErrorCode.compressionFailed)]⟩
      ⟨.compression, "Failed to decompress with GZIP",
        [("operation", .text "decompress"), ("algorithm", .text "gzip"),
          ("rpc_error_code", .int RpcErrorCode.compressionFailed)]⟩
  /-- The bound of the output is computed within the catch of the step that the pool runs. -/
  | gzipBound {W : Type} (frame : PayloadFrame W) : NamesPath (receiveFailed frame "receiveProcess")
      ⟨.compression, "Failed to decompress with GZIP",
        [("operation", .text "decompress"), ("algorithm", .text "gzip"),
          ("rpc_error_code", .int RpcErrorCode.compressionFailed)]⟩
  | jsonDecode (reason : List (String × ContextValue))
      (hreason : reason = [] ∨ reason = [("reason", .text "top_level_null_payload")]) : NamesPath
      ⟨.compression, "Failed to decode JSON",
        [("operation", .text "decode"), ("encoding", .text "json")] ++ reason ++
          [("rpc_error_code", .int RpcErrorCode.decodingFailed)]⟩
      ⟨.compression, "Failed to decode JSON payload",
        [("operation", .text "jsonDecode"), ("encoding", .text "json"),
          ("rpc_error_code", .int RpcErrorCode.decodingFailed)]⟩
  | receive {W : Type} (frame : PayloadFrame W) :
      NamesPath (receiveFailed frame "receiveProcess")
      (receiveFailed frame "receiveProcessAsync")

/-- The same failure, or those of one step that names its path. -/
def FailuresAgree (f g : Failure) : Prop :=
  f = g ∨ NamesPath f g

theorem NamesPath.same {f g : Failure} (h : NamesPath f g) :
    f.kind = g.kind ∧ f.rpcErrorCode = g.rpcErrorCode := by
  cases h with
  | jsonDecode reason hreason =>
    rcases hreason with rfl | rfl
    · exact ⟨rfl, rfl⟩
    · exact ⟨rfl, rfl⟩
  | jsonEncode | gzipEncode | send | gzipDecode | gzipBound | receive => exact ⟨rfl, rfl⟩

/-- The same value, or failures that agree. -/
def Agrees : Except Failure α → Except Failure α → Prop
  | .ok a, .ok b => a = b
  | .error f, .error g => FailuresAgree f g
  | _, _ => False

theorem Agrees.refl (outcome : Except Failure α) : Agrees outcome outcome := by
  cases outcome with
  | ok a => exact rfl
  | error f => exact .inl rfl

/-- The failure that a body comes to, with the one that stands for an exception. -/
def Stop.failed (caught : Failure) : Stop → Failure
  | .failure f => f
  | .thrown => caught

/-- Two ways to stop that come to failures that agree. -/
def StopsAgree (caught caughtAsync : Failure) (stop stopAsync : Stop) : Prop :=
  FailuresAgree (stop.failed caught) (stopAsync.failed caughtAsync)

/-- Two bodies that end well together with one value, or stop in ways that agree. -/
def BodiesAgree (caught caughtAsync : Failure) (outcome outcomeAsync : Except Stop α) : Prop :=
  (∃ a, outcome = .ok a ∧ outcomeAsync = .ok a) ∨
    (∃ stop stopAsync, outcome = .error stop ∧ outcomeAsync = .error stopAsync ∧
      StopsAgree caught caughtAsync stop stopAsync)

theorem catching_error (caught : Failure) (stop : Stop) :
    (catching caught (.error stop) : Except Failure α) = .error (stop.failed caught) := by
  cases stop <;> rfl

theorem BodiesAgree.agrees {caught caughtAsync : Failure} {outcome outcomeAsync : Except Stop α}
    (h : BodiesAgree caught caughtAsync outcome outcomeAsync) :
    Agrees (catching caught outcome) (catching caughtAsync outcomeAsync) := by
  rcases h with ⟨a, rfl, rfl⟩ | ⟨stop, stopAsync, rfl, rfl, hstops⟩
  · exact rfl
  · rw [catching_error, catching_error]
    exact hstops

theorem BodiesAgree.ok (caught caughtAsync : Failure) (a : α) :
    BodiesAgree caught caughtAsync (.ok a) (.ok a) :=
  .inl ⟨a, rfl, rfl⟩

theorem BodiesAgree.stop {caught caughtAsync : Failure} {stop stopAsync : Stop}
    (h : StopsAgree caught caughtAsync stop stopAsync) :
    BodiesAgree caught caughtAsync (.error stop : Except Stop α) (.error stopAsync) :=
  .inr ⟨stop, stopAsync, rfl, rfl, h⟩

theorem BodiesAgree.failure (caught caughtAsync f : Failure) :
    BodiesAgree caught caughtAsync (.error (.failure f) : Except Stop α)
      (.error (.failure f)) :=
  .stop (.inl rfl)

/-! ## The send path -/

theorem encodeAsync_agrees (codecs : Codecs V) (k : ConnectionConstants) (p : TransportPipeline)
    (request : SendRequest) (data : Json V) :
    BodiesAgree (sendFailed p "prepareSend") (sendFailed p "prepareSendAsync")
      (encode codecs p.encoding data) (encodeAsync codecs k p request data) := by
  by_cases hjson : p.encoding = "json"
  · rw [encode, if_pos (beq_iff_eq.mpr hjson), encodeAsync, if_neg (by simp [hjson])]
    cases hencode : codecs.jsonEncode data with
    | some bytes =>
      rw [encodeJson, hencode]
      dsimp only
      split <;> exact .ok _ _ bytes
    | none =>
      rw [encodeJson, hencode]
      dsimp only
      split
      · exact .stop (.inr .jsonEncode)
      · exact .failure _ _ _
  · rw [encode, if_neg (by simp [hjson]), encodeAsync, if_pos (by simp [hjson])]
    exact .stop (.inr (.send p))

theorem gzipCompressAsync_agrees (codecs : Codecs V) (k : ConnectionConstants)
    (p : TransportPipeline) (request : SendRequest) (data : Bytes) :
    BodiesAgree (sendFailed p "prepareSend") (sendFailed p "prepareSendAsync")
      (gzipCompress codecs data) (gzipCompressAsync codecs k p request data) := by
  rw [gzipCompressAsync, gzipCompress]
  cases codecs.gzipEncode data with
  | some bytes =>
    dsimp only
    split <;> exact .ok _ _ bytes
  | none =>
    dsimp only
    split
    · exact .stop (.inr (.gzipEncode p))
    · exact .failure _ _ _

theorem prepareSendAsync_agrees (codecs : Codecs V) (k : ConnectionConstants)
    (p : TransportPipeline) (request : SendRequest) (data : Json V)
    (cache : Option AdaptiveCompressionCache) :
    Agrees (prepareSend codecs k p request data cache).1
        (prepareSendAsync codecs k p request data cache).1 ∧
      (prepareSend codecs k p request data cache).2 =
        (prepareSendAsync codecs k p request data cache).2 := by
  rw [prepareSend, prepareSendAsync, prepareSendBody, prepareSendAsyncBody]
  rcases encodeAsync_agrees codecs k p request data with
    ⟨encodedBytes, hencode, hasync⟩ | ⟨stop, stopAsync, hstop, hstopAsync, hstops⟩
  · rw [hencode, hasync]
    dsimp only
    cases decideCompression k p request data encodedBytes.length cache with
    | mk compress cacheAfter =>
      cases compress with
      | false => exact ⟨Agrees.refl _, rfl⟩
      | true =>
        dsimp only
        rcases gzipCompressAsync_agrees codecs k p request encodedBytes with
          ⟨compressedBytes, hgzip, hgzipAsync⟩ | ⟨stop, stopAsync, hstop, hstopAsync, hstops⟩
        · rw [hgzip, hgzipAsync]
          exact ⟨rfl, rfl⟩
        · rw [hstop, hstopAsync]
          exact ⟨(BodiesAgree.stop hstops).agrees, rfl⟩
  · rw [hstop, hstopAsync]
    exact ⟨(BodiesAgree.stop hstops).agrees, rfl⟩

/-! ## The receive path -/

theorem decompress_gzip_stop {codecs : Codecs V} {bytes : Bytes} {maxOutputBytes : Int}
    (h : decompressGzipBytesBounded codecs bytes maxOutputBytes = none) :
    withCode RpcErrorCode.compressionFailed (decompress codecs "gzip" bytes maxOutputBytes) =
      .error (.failure ⟨.compression, "Failed to decompress with GZIP",
        [("operation", .text "decompress"), ("algorithm", .text "gzip"),
          ("max_output_bytes", .int maxOutputBytes),
          ("rpc_error_code", .int RpcErrorCode.compressionFailed)]⟩) := by
  rw [decompress, if_pos (beq_self_eq_true _), h]
  rfl

theorem inflateAsync_agrees (codecs : Codecs V) (p : TransportPipeline) (frame : PayloadFrame V)
    (bytes : Bytes) (limits : ReceiveLimits) (ratio : Double) :
    BodiesAgree (receiveFailed frame "receiveProcess") (receiveFailed frame "receiveProcessAsync")
      (inflate codecs frame bytes limits ratio)
      (inflateAsync codecs p frame bytes limits ratio) := by
  rw [inflate, inflateAsync]
  by_cases hnone : (frame.cmp == "none") = true
  · rw [if_pos hnone, if_pos hnone]
    exact .ok _ _ bytes
  · rw [if_neg hnone, if_neg hnone]
    by_cases hgzip : frame.cmp = "gzip"
    · rw [if_neg (by simp [hgzip]), hgzip]
      cases hmax : maximumDecodedBytes frame bytes.length limits.maxOriginalBytes ratio with
      | none =>
        dsimp only [Option.bind_none]
        split
        · exact .stop (.inr (.gzipBound frame))
        · exact .stop (.inr (.receive frame))
      | some maxOutputBytes =>
        dsimp only [Option.bind_some]
        cases hbounded : decompressGzipBytesBounded codecs bytes maxOutputBytes with
        | none =>
          rw [decompress_gzip_stop hbounded]
          split
          · exact .stop (.inr (.gzipDecode maxOutputBytes))
          · exact .failure _ _ _
        | some output =>
          have hok : withCode RpcErrorCode.compressionFailed
              (decompress codecs "gzip" bytes maxOutputBytes) = .ok output := by
            rw [decompress, if_pos (beq_self_eq_true _), hbounded]
            rfl
          rw [hok]
          split
          · exact .ok _ _ output
          · exact .ok _ _ output
    · rw [if_pos (by simp [hgzip]), if_neg (by simp [hgzip])]
      exact .stop (.inr (.receive frame))

theorem decodeAsync_agrees (codecs : Codecs V) (frame : PayloadFrame V) (bytes : Bytes) :
    BodiesAgree (receiveFailed frame "receiveProcess") (receiveFailed frame "receiveProcessAsync")
      (withCode RpcErrorCode.decodingFailed (decode codecs frame.enc bytes))
      (decodeAsync codecs frame bytes) := by
  rw [decodeAsync]
  split
  · rename_i hisolate
    rw [Bool.and_eq_true] at hisolate
    rw [decode, if_pos hisolate.1]
    cases codecs.jsonDecode bytes with
    | none => exact .stop (.inr (.jsonDecode [] (.inl rfl)))
    | some decoded =>
      cases decoded with
      | null => exact .stop (.inr (.jsonDecode _ (.inr rfl)))
      | _ => exact .ok _ _ _
  · cases hdecode : withCode RpcErrorCode.decodingFailed (decode codecs frame.enc bytes) with
    | ok decoded => exact .ok _ _ decoded
    | error stop =>
      cases stop with
      | failure f => exact .failure _ _ f
      | thrown => exact .stop (.inr (.receive frame))

theorem receiveProcessAsync_agrees (codecs : Codecs V) (p : TransportPipeline)
    (frame : PayloadFrame V) (limits : ReceiveLimits) :
    Agrees (receiveProcess codecs p frame limits)
      (receiveProcessAsync codecs p frame limits) := by
  apply BodiesAgree.agrees
  rw [receiveProcessBody, receiveProcessAsyncBody]
  split
  · exact .failure _ _ _
  · cases payloadBytesFromFramePayload frame.payload with
    | none => exact .failure _ _ _
    | some bytes =>
      dsimp only
      split
      · exact .failure _ _ _
      · split
        · exact .failure _ _ _
        · split
          · exact .failure _ _ _
          · rcases inflateAsync_agrees codecs p frame bytes limits
              (limits.maxInflationRatio.getD p.maxInflationRatio) with
              ⟨decodable, hok, hokAsync⟩ | ⟨stop, stopAsync, hstop, hstopAsync, hstops⟩
            · rw [hok, hokAsync]
              dsimp only
              split
              · exact .failure _ _ _
              · split
                · exact .failure _ _ _
                · split
                  · exact .failure _ _ _
                  · exact decodeAsync_agrees codecs frame decodable
            · rw [hstop, hstopAsync]
              exact .stop hstops

/-! ## Incoming frames -/

namespace PayloadFrameCodec

variable (c : PayloadFrameCodec V)

/-- The worker is asked what the signer is asked here. -/
theorem verifyFrameSignatureAsync_eq (frame : PayloadFrame V) (payloadByteLength : Nat) :
    c.verifyFrameSignatureAsync frame payloadByteLength = c.verifyFrameSignature frame := by
  rw [verifyFrameSignatureAsync]
  split
  · rename_i verifyFrame json hsigner hsignature
    split
    · rfl
    · rw [verifyFrameSignature, hsigner, hsignature]
  · rfl

theorem validateFrameAgainstLocalCapabilities_true (frame : PayloadFrame V) :
    c.validateFrameAgainstLocalCapabilities frame true =
      match c.validateFrameAgainstLocalCapabilities frame false with
      | .error stop => .error stop
      | .ok _ =>
        match c.verifyFrameSignature frame with
        | none => .error .thrown
        | some true => .ok ()
        | some false => .error (.failure (invalidSignature frame)) := by
  rw [validateFrameAgainstLocalCapabilities, validateFrameAgainstLocalCapabilities]
  split
  · rfl
  · split
    · rfl
    · split
      · rfl
      · split
        · rfl
        · rfl

theorem processed_agrees {payload : Incoming V} {outcome outcomeAsync : Except Failure α}
    (h : Agrees outcome outcomeAsync) :
    BodiesAgree (decodeFailed payload) (decodeFailed payload) (processed outcome)
      (processed outcomeAsync) := by
  cases outcome with
  | ok a =>
    cases outcomeAsync with
    | ok b =>
      obtain rfl : a = b := h
      exact .ok _ _ a
    | error g => exact h.elim
  | error f =>
    cases outcomeAsync with
    | ok b => exact h.elim
    | error g => exact .stop h

theorem decodeIncomingAsync_agrees (payload : Incoming V) :
    Agrees (c.decodeIncoming payload) (c.decodeIncomingAsync payload) := by
  rw [decodeIncoming, decodeIncomingAsync]
  split
  · exact Agrees.refl _
  · apply BodiesAgree.agrees
    rw [decodeIncomingBody, decodeIncomingAsyncBody]
    cases PayloadFrame.fromJson c.codecs (payload.entries.getD []) with
    | none => exact .stop (.inl rfl)
    | some frame =>
      dsimp only
      cases c.validateFramePayloadBounds frame with
      | error f => exact .failure _ _ f
      | ok payloadByteLength =>
        dsimp only
        rw [validateFrameAgainstLocalCapabilities_true, verifyFrameSignatureAsync_eq]
        cases c.validateFrameAgainstLocalCapabilities frame false with
        | error stop => exact .stop (.inl rfl)
        | ok _ =>
          cases c.verifyFrameSignature frame with
          | none => exact .stop (.inl rfl)
          | some valid =>
            cases valid with
            | false => exact .failure _ _ _
            | true => exact processed_agrees (receiveProcessAsync_agrees _ _ _ _)

end PayloadFrameCodec

/-- Each of the paths with the pool agrees with the path in one turn, for every input, every
configuration and every state of the cache; failures that name their paths have the class and the
code in common. -/
theorem paths_agree :
    (∀ (codecs : Codecs V) (k : ConnectionConstants) (p : TransportPipeline)
        (request : SendRequest) (data : Json V) (cache : Option AdaptiveCompressionCache),
      Agrees (prepareSend codecs k p request data cache).1
          (prepareSendAsync codecs k p request data cache).1 ∧
        (prepareSend codecs k p request data cache).2 =
          (prepareSendAsync codecs k p request data cache).2) ∧
    (∀ (codecs : Codecs V) (p : TransportPipeline) (frame : PayloadFrame V)
        (limits : ReceiveLimits),
      Agrees (receiveProcess codecs p frame limits)
        (receiveProcessAsync codecs p frame limits)) ∧
    (∀ (c : PayloadFrameCodec V) (payload : Incoming V),
      Agrees (c.decodeIncoming payload) (c.decodeIncomingAsync payload)) ∧
    ∀ f g, NamesPath f g → f.kind = g.kind ∧ f.rpcErrorCode = g.rpcErrorCode :=
  ⟨prepareSendAsync_agrees, receiveProcessAsync_agrees,
    PayloadFrameCodec.decodeIncomingAsync_agrees, fun _ _ => NamesPath.same⟩

/-- Codecs at a value that is not JSON, such as a double that is not a number. -/
def refusingCodecs : Codecs Unit where
  jsonEncode _ := none
  jsonDecode _ := none
  gzipEncode _ := none
  gzipDecode _ := none
  isNum _ := true
  runtimeType _ := "double"

/-- A chunk with enough rows for the pool, none of which can be encoded. -/
def refusedChunk : Json Unit :=
  .map [("rows", .list (List.replicate 32 (.other ())))]

/-- The two sends fail with different texts. -/
theorem prepareSendAsync_names_isolate :
    ∃ f g, (prepareSend refusingCodecs {} { encoding := "json", compression := "none" }
          { metricEventName := some "rpc:chunk" } refusedChunk none).1 = .error f ∧
      (prepareSendAsync refusingCodecs {} { encoding := "json", compression := "none" }
          { metricEventName := some "rpc:chunk" } refusedChunk none).1 = .error g ∧
      f.message = "Failed to encode JSON" ∧ g.message = "Failed to encode JSON in isolate" ∧
      f ≠ g :=
  ⟨_, _, rfl, rfl, rfl, rfl, by decide⟩

end PlugAgente.Transport
