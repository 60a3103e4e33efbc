import PlugAgente.Transport.FrameCodec

/-!
# The round trip through the transport

The sender keeps the compressed bytes unless the quotient of the sizes, as a double, is above
the ratio; the receiver bounds the output by the floor of a product of doubles.  The two do
not agree on every pair of sizes, and `round_trip_iff` says when they have to: for bytes that
are sent compressed.  Bytes that are sent as they are have the quotient one, which only a
ratio below one forbids.
-/

namespace PlugAgente.Transport

open Wire Dart

variable {V : Type}

/-- What is assumed of the codecs: what was encoded is decoded to what it was. -/
structure Codecs.Inverse (codecs : Codecs V) : Prop where
  json : ∀ data bytes, data.isNull = false → codecs.jsonEncode data = some bytes →
    codecs.jsonDecode bytes = some data
  gzip : ∀ data bytes, codecs.gzipEncode data = some bytes → codecs.gzipDecode bytes = some data

/-- A receiver with the encoding and the ratio of the sender. -/
structure SameLimits (p q : TransportPipeline) (limits : ReceiveLimits) : Prop where
  encoding : q.encoding = p.encoding
  ratio : limits.maxInflationRatio.getD q.maxInflationRatio = p.maxInflationRatio

/-- The sizes of a frame are within the limits, as `prepareOutgoing` checks before it emits. -/
def withinLimits (frame : PayloadFrame V) (limits : ReceiveLimits) : Bool :=
  !exceeds frame.compressedSize limits.maxCompressedBytes &&
    !exceeds frame.originalSize limits.maxOriginalBytes

/-- The sender keeps the compressed bytes. -/
def keepsCompressed (k : ConnectionConstants) (p : TransportPipeline) (request : SendRequest)
    (data : Json V) (cache : Option AdaptiveCompressionCache) (originalSize compressedSize : Nat) :
    Bool :=
  (decideCompression k p request data originalSize cache).1 &&
    !(p.compression == "auto" && decide (originalSize ≤ compressedSize)) &&
    !exceedsInflationRatio originalSize compressedSize p.maxInflationRatio

/-- The bound of the receiver on the output leaves room for the encoded bytes. -/
def boundHolds (originalSize compressedSize : Nat) (ratio : Double) : Bool :=
  match ratioLimit compressedSize ratio with
  | none => false
  | some limit => decide ((originalSize : Int) ≤ limit)

/-- The tests of the two sides agree on a value: the bound has room for bytes that go
compressed, and the ratio lets the quotient one through for others. -/
def ratiosAgree (codecs : Codecs V) (k : ConnectionConstants) (p : TransportPipeline)
    (request : SendRequest) (data : Json V) (cache : Option AdaptiveCompressionCache) : Bool :=
  match codecs.jsonEncode data with
  | none => true
  | some encodedBytes =>
    match codecs.gzipEncode encodedBytes with
    | none => !exceedsInflationRatio encodedBytes.length encodedBytes.length p.maxInflationRatio
    | some compressedBytes =>
      if keepsCompressed k p request data cache encodedBytes.length compressedBytes.length then
        boundHolds encodedBytes.length compressedBytes.length p.maxInflationRatio
      else !exceedsInflationRatio encodedBytes.length encodedBytes.length p.maxInflationRatio

/-! ## What is sent -/

/-- The frame of a send: the encoded bytes or, if the sender keeps them, the compressed
ones. -/
theorem prepareSend_ok {codecs : Codecs V} {k : ConnectionConstants} {p : TransportPipeline}
    {request : SendRequest} {data : Json V} {cache cache' : Option AdaptiveCompressionCache}
    {frame : PayloadFrame V}
    (h : prepareSend codecs k p request data cache = (.ok frame, cache')) :
    p.encoding = "json" ∧ ∃ encodedBytes, codecs.jsonEncode data = some encodedBytes ∧
      ((frame = frameOf p request encodedBytes.length ⟨encodedBytes, "none", encodedBytes.length⟩ ∧
          ∀ compressedBytes, codecs.gzipEncode encodedBytes = some compressedBytes →
            keepsCompressed k p request data cache encodedBytes.length compressedBytes.length =
              false) ∨
        ∃ compressedBytes, codecs.gzipEncode encodedBytes = some compressedBytes ∧
          keepsCompressed k p request data cache encodedBytes.length compressedBytes.length =
            true ∧
          frame = frameOf p request encodedBytes.length
            ⟨compressedBytes, "gzip", compressedBytes.length⟩) := by
  have hencoding : p.encoding = "json" := by
    by_contra hne
    simp [prepareSend, prepareSendBody, encode, hne, catching] at h
  refine ⟨hencoding, ?_⟩
  cases hencode : codecs.jsonEncode data with
  | none =>
    simp [prepareSend, prepareSendBody, encode, encodeJson, hencoding, hencode, catching] at h
  | some encodedBytes =>
    refine ⟨encodedBytes, rfl, ?_⟩
    simp only [prepareSend, prepareSendBody, encode, encodeJson, hencoding, hencode,
      beq_self_eq_true, if_true] at h
    cases hdecide : decideCompression k p request data encodedBytes.length cache with
    | mk compress cacheAfter =>
      rw [hdecide] at h
      cases compress with
      | false =>
        left
        obtain ⟨hframe, -⟩ := Prod.mk.inj h
        refine ⟨(Except.ok.inj hframe).symm, ?_⟩
        intro compressedBytes _
        simp [keepsCompressed, hdecide]
      | true =>
        cases hgzip : codecs.gzipEncode encodedBytes with
        | none => simp [gzipCompress, hgzip, catching] at h
        | some compressedBytes =>
          simp only [gzipCompress, hgzip, catching] at h
          obtain ⟨hframe, -⟩ := Prod.mk.inj h
          have hframe := (Except.ok.inj hframe).symm
          by_cases hkept : (p.compression == "auto" &&
              decide (encodedBytes.length ≤ compressedBytes.length)) ||
              exceedsInflationRatio encodedBytes.length compressedBytes.length
                p.maxInflationRatio
          · left
            rw [chooseBytes, if_pos hkept] at hframe
            refine ⟨hframe, ?_⟩
            intro bytes hbytes
            obtain rfl := Option.some.inj hbytes
            rcases Bool.or_eq_true _ _ ▸ hkept with hauto | hratio
            · simp only [keepsCompressed, hauto, Bool.not_true, Bool.and_false, Bool.false_and]
            · simp only [keepsCompressed, hratio, Bool.not_true, Bool.and_false]
          · right
            rw [chooseBytes, if_neg hkept] at hframe
            rw [Bool.not_eq_true, Bool.or_eq_false_iff] at hkept
            refine ⟨compressedBytes, rfl, ?_, hframe⟩
            simp only [keepsCompressed, hdecide, hkept.1, hkept.2, Bool.not_false, Bool.and_self]

/-! ## What is received -/

section

variable {codecs : Codecs V} {p q : TransportPipeline} {limits : ReceiveLimits}
  {request : SendRequest} {data : Json V} {encodedBytes : Bytes}

theorem decode_encoded (hinverse : codecs.Inverse) (hdata : data.isNull = false)
    (hencode : codecs.jsonEncode data = some encodedBytes) :
    decode codecs "json" encodedBytes = .ok data := by
  rw [decode, if_pos (beq_self_eq_true _), hinverse.json data encodedBytes hdata hencode]
  cases data with
  | null => simp [Json.isNull] at hdata
  | _ => rfl

theorem receive_plain_iff (hinverse : codecs.Inverse) (hdata : data.isNull = false)
    (hencoding : p.encoding = "json") (hencode : codecs.jsonEncode data = some encodedBytes)
    (hsame : SameLimits p q limits)
    (hlimits : withinLimits (frameOf p request encodedBytes.length
      ⟨encodedBytes, "none", encodedBytes.length⟩ : PayloadFrame V) limits = true) :
    receiveProcess codecs q (frameOf p request encodedBytes.length
        ⟨encodedBytes, "none", encodedBytes.length⟩) limits = .ok data ↔
      exceedsInflationRatio encodedBytes.length encodedBytes.length p.maxInflationRatio =
        false := by
  simp only [withinLimits, frameOf, Bool.and_eq_true, Bool.not_eq_true'] at hlimits
  have hdecode := decode_encoded hinverse hdata hencode
  simp only [receiveProcess, receiveProcessBody, frameOf, hsame.encoding, hsame.ratio, hencoding,
    bne_self_eq_false, Bool.false_eq_true, if_false, payloadBytesFromFramePayload, ne_eq,
    not_true_eq_false, hlimits.1, hlimits.2, inflate, beq_self_eq_true, if_true]
  cases exceedsInflationRatio encodedBytes.length encodedBytes.length p.maxInflationRatio with
  | false => simp [hdecode, withCode, catching]
  | true => simp [catching]

theorem decompressGzipBytesBounded_eq {compressedBytes : Bytes} (maxOutputBytes : Int)
    (hgunzip : codecs.gzipDecode compressedBytes = some encodedBytes) :
    decompressGzipBytesBounded codecs compressedBytes maxOutputBytes =
      if (encodedBytes.length : Int) ≤ maxOutputBytes then some encodedBytes else none := by
  rw [decompressGzipBytesBounded, hgunzip]
  dsimp only
  by_cases hroom : (encodedBytes.length : Int) ≤ maxOutputBytes
  · rw [if_neg (by omega), if_neg (by omega), if_pos hroom]
  · rw [if_neg hroom, if_pos (by omega : maxOutputBytes < encodedBytes.length), ite_self]

theorem maximumDecodedBytes_room {frame : PayloadFrame V} {compressedSize : Nat}
    {maxOriginalBytes : Option Int} {ratio : Double} {limit : Int}
    (hlimit : exceeds frame.originalSize maxOriginalBytes = false)
    (hratio : ratioLimit compressedSize ratio = some limit) :
    ∃ bound, maximumDecodedBytes frame compressedSize maxOriginalBytes ratio = some bound ∧
      (frame.originalSize ≤ bound ↔ frame.originalSize ≤ limit) := by
  rw [maximumDecodedBytes, hratio]
  cases maxOriginalBytes with
  | none =>
    refine ⟨_, rfl, ?_⟩
    rw [le_min_iff]
    exact ⟨And.right, fun h => ⟨le_refl _, h⟩⟩
  | some original =>
    have hle : frame.originalSize ≤ original := by
      simpa [exceeds] using hlimit
    refine ⟨_, rfl, ?_⟩
    rw [le_min_iff, le_min_iff]
    exact ⟨And.right, fun h => ⟨⟨le_refl _, hle⟩, h⟩⟩

theorem inflate_gzip {frame : PayloadFrame V} (hcmp : frame.cmp = "gzip")
    (horiginal : frame.originalSize = encodedBytes.length) {compressedBytes : Bytes}
    (hgunzip : codecs.gzipDecode compressedBytes = some encodedBytes)
    (hlimit : exceeds frame.originalSize limits.maxOriginalBytes = false) (ratio : Double) :
    (boundHolds encodedBytes.length compressedBytes.length ratio = true ∧
        inflate codecs frame compressedBytes limits ratio = .ok encodedBytes) ∨
      (boundHolds encodedBytes.length compressedBytes.length ratio = false ∧
        ∃ stop, inflate codecs frame compressedBytes limits ratio = .error stop) := by
  have hnone : (("gzip" : String) == "none") = false := by decide
  have hgzip : (("gzip" : String) != "gzip") = false := by decide
  rw [inflate, hcmp, hnone, hgzip, boundHolds]
  cases hratio : ratioLimit compressedBytes.length ratio with
  | none =>
    right
    rw [maximumDecodedBytes, hratio]
    exact ⟨rfl, _, rfl⟩
  | some limit =>
    obtain ⟨bound, hmax, hroom⟩ := maximumDecodedBytes_room hlimit hratio
    rw [horiginal] at hroom
    rw [hmax]
    simp only [Bool.false_eq_true, if_false, decompress, beq_self_eq_true, if_true,
      decompressGzipBytesBounded_eq bound hgunzip]
    by_cases hle : (encodedBytes.length : Int) ≤ limit
    · left
      rw [if_pos (hroom.mpr hle)]
      exact ⟨decide_eq_true hle, rfl⟩
    · right
      rw [if_neg (fun h => hle (hroom.mp h))]
      exact ⟨decide_eq_false hle, _, rfl⟩

theorem receive_gzip_iff (hinverse : codecs.Inverse) (hdata : data.isNull = false)
    (hencoding : p.encoding = "json") (hencode : codecs.jsonEncode data = some encodedBytes)
    {compressedBytes : Bytes} (hgzip : codecs.gzipEncode encodedBytes = some compressedBytes)
    (hsame : SameLimits p q limits)
    (hlimits : withinLimits (frameOf p request encodedBytes.length
      ⟨compressedBytes, "gzip", compressedBytes.length⟩ : PayloadFrame V) limits = true)
    (hratio : exceedsInflationRatio encodedBytes.length compressedBytes.length
      p.maxInflationRatio = false) :
    receiveProcess codecs q (frameOf p request encodedBytes.length
        ⟨compressedBytes, "gzip", compressedBytes.length⟩) limits = .ok data ↔
      boundHolds encodedBytes.length compressedBytes.length p.maxInflationRatio = true := by
  have hdecode := decode_encoded hinverse hdata hencode
  have hgunzip := hinverse.gzip encodedBytes compressedBytes hgzip
  simp only [withinLimits, Bool.and_eq_true, Bool.not_eq_true'] at hlimits
  obtain ⟨hcompressed, horiginal⟩ := hlimits
  have hinflate := @inflate_gzip _ codecs limits encodedBytes (frameOf p request
    encodedBytes.length ⟨compressedBytes, "gzip", compressedBytes.length⟩) rfl rfl
    compressedBytes hgunzip horiginal p.maxInflationRatio
  generalize hframe : (frameOf p request encodedBytes.length
    ⟨compressedBytes, "gzip", compressedBytes.length⟩ : PayloadFrame V) = frame at *
  have henc : frame.enc = "json" := by rw [← hframe, ← hencoding]; rfl
  have hsize : frame.compressedSize = compressedBytes.length := by rw [← hframe]; rfl
  have hlength : frame.originalSize = encodedBytes.length := by rw [← hframe]; rfl
  have hpayload : payloadBytesFromFramePayload frame.payload = some compressedBytes := by
    rw [← hframe]; rfl
  have hexceeds : exceeds encodedBytes.length limits.maxOriginalBytes = false := by
    rw [← hlength]
    exact horiginal
  simp only [receiveProcess, receiveProcessBody, henc, hsame.encoding, hsame.ratio, hencoding,
    bne_self_eq_false, Bool.false_eq_true, if_false, hpayload, hsize, ne_eq, not_true_eq_false,
    hsize ▸ hcompressed, horiginal]
  rcases hinflate with ⟨hbound, hok⟩ | ⟨hbound, stop, herror⟩
  · simp [hok, hbound, hlength, hexceeds, hratio, hdecode, withCode, catching]
  · rw [herror, hbound]
    cases stop <;> simp [catching]

end

/-- What is sent is received as it was, exactly if the tests of the two sides agree on it. -/
theorem round_trip_iff {codecs : Codecs V} (hinverse : codecs.Inverse) {k : ConnectionConstants}
    {p q : TransportPipeline} {limits : ReceiveLimits} (hsame : SameLimits p q limits)
    {request : SendRequest} {data : Json V} (hdata : data.isNull = false)
    {cache cache' : Option AdaptiveCompressionCache} {frame : PayloadFrame V}
    (hsend : prepareSend codecs k p request data cache = (.ok frame, cache'))
    (hlimits : withinLimits frame limits = true) :
    receiveProcess codecs q frame limits = .ok data ↔
      ratiosAgree codecs k p request data cache = true := by
  obtain ⟨hencoding, encodedBytes, hencode, hframe⟩ := prepareSend_ok hsend
  rw [ratiosAgree, hencode]
  rcases hframe with ⟨rfl, hplain⟩ | ⟨compressedBytes, hgzip, hkeeps, rfl⟩
  · rw [receive_plain_iff hinverse hdata hencoding hencode hsame hlimits]
    dsimp only
    cases hgzip : codecs.gzipEncode encodedBytes with
    | none => simp
    | some compressedBytes => simp [hplain compressedBytes hgzip]
  · have hratio : exceedsInflationRatio encodedBytes.length compressedBytes.length
        p.maxInflationRatio = false := by
      rw [keepsCompressed, Bool.and_eq_true] at hkeeps
      simpa using hkeeps.2
    rw [receive_gzip_iff hinverse hdata hencoding hencode hgzip hsame hlimits hratio]
    dsimp only
    rw [hgzip]
    dsimp only
    rw [if_pos hkeeps]

/-! ## A text that does not come back -/

/-- A text of 113 letters, its JSON text of 115 bytes and the 25 bytes of its GZIP stream. -/
def letters : Json Empty :=
  .text (String.ofList (List.replicate 113 'a'))

def lettersEncoded : Bytes :=
  34 :: List.replicate 113 97 ++ [34]

def lettersCompressed : Bytes :=
  [31, 139, 8, 0, 0, 0, 0, 0, 0, 3, 83, 74, 164, 55, 80, 2, 0, 241, 202, 119, 22, 115, 0, 0, 0]

/-- The codecs of the platform on this text; they are asked for nothing else. -/
def lettersCodecs : Codecs Empty where
  jsonEncode
    | .text t => if t = String.ofList (List.replicate 113 'a') then some lettersEncoded else none
    | _ => none
  jsonDecode bytes := if bytes = lettersEncoded then some letters else none
  gzipEncode bytes := if bytes = lettersEncoded then some lettersCompressed else none
  gzipDecode bytes := if bytes = lettersCompressed then some lettersEncoded else none
  isNum := Empty.elim
  runtimeType _ := "String"

theorem lettersCodecs_inverse : lettersCodecs.Inverse where
  json := by
    intro data bytes _ hencode
    cases data with
    | text t =>
      simp only [lettersCodecs] at hencode
      split at hencode
      · rename_i ht
        obtain rfl := Option.some.inj hencode
        simp [lettersCodecs, letters, ht]
      · simp at hencode
    | _ => simp [lettersCodecs] at hencode
  gzip := by
    intro data bytes hencode
    simp only [lettersCodecs] at hencode
    split at hencode
    · rename_i hdata
      obtain rfl := Option.some.inj hencode
      simp [lettersCodecs, hdata]
    · simp at hencode

/-- A pipeline that compresses every text, with a ratio. -/
def gzipPipeline (ratio : Double) : TransportPipeline where
  encoding := "json"
  compression := "gzip"
  compressionThreshold := 1
  maxInflationRatio := ratio

/-- The frame that is sent. -/
def lettersFrame : PayloadFrame Empty :=
  frameOf (gzipPipeline (.finite 10)) {} 115 ⟨lettersCompressed, "gzip", 25⟩

theorem prepareSend_letters {ratio : Double} (hratio : exceedsInflationRatio 115 25 ratio = false) :
    prepareSend lettersCodecs {} (gzipPipeline ratio) {} letters none =
      (.ok lettersFrame, none) := by
  have hencode : lettersCodecs.jsonEncode letters = some lettersEncoded := by
    simp [lettersCodecs, letters]
  have hgzip : lettersCodecs.gzipEncode lettersEncoded = some lettersCompressed := by
    simp [lettersCodecs]
  have hlength : lettersEncoded.length = 115 := by decide
  have hcompressed : lettersCompressed.length = 25 := by decide
  have hencoded : encode lettersCodecs (gzipPipeline ratio).encoding letters =
      .ok lettersEncoded := by
    rw [encode, if_pos (show (gzipPipeline ratio).encoding == "json" from rfl), encodeJson,
      hencode]
  have hdecide : decideCompression {} (gzipPipeline ratio) {} letters 115 none =
      (true, none) := by
    rfl
  rw [prepareSend, prepareSendBody, hencoded]
  simp only [hlength, hdecide, gzipCompress, hgzip, hcompressed]
  rw [show (gzipPipeline ratio).maxInflationRatio = ratio from rfl, hratio]
  rfl

theorem withinLimits_none (frame : PayloadFrame V) : withinLimits frame {} = true :=
  rfl

/-- With the ratio 10 the text comes back. -/
theorem round_trip_letters :
    prepareSend lettersCodecs {} (gzipPipeline (.finite 10)) {} letters none =
        (.ok lettersFrame, none) ∧
      receiveProcess lettersCodecs (gzipPipeline (.finite 10)) lettersFrame {} = .ok letters := by
  have hratio : exceedsInflationRatio 115 25 (.finite 10) = false := by decide +kernel
  have hsend := prepareSend_letters hratio
  refine ⟨hsend, ?_⟩
  refine (round_trip_iff lettersCodecs_inverse ⟨rfl, rfl⟩ rfl hsend (withinLimits_none _)).mpr ?_
  decide +kernel

/-- With the ratio 4.6, which is the quotient of the sizes, the sender keeps the compressed
bytes, and the bound of the receiver is 114. -/
theorem round_trip_fails :
    prepareSend lettersCodecs {} (gzipPipeline (.round (46 / 10))) {} letters none =
        (.ok lettersFrame, none) ∧
      receiveProcess lettersCodecs (gzipPipeline (.round (46 / 10))) lettersFrame {} ≠
        .ok letters := by
  have hratio : exceedsInflationRatio 115 25 (.round (46 / 10)) = false := by decide +kernel
  refine ⟨prepareSend_letters hratio, ?_⟩
  have hencode : lettersCodecs.jsonEncode letters = some lettersEncoded := by
    simp [lettersCodecs, letters]
  have hgzip : lettersCodecs.gzipEncode lettersEncoded = some lettersCompressed := by
    simp [lettersCodecs]
  have hbound : boundHolds 115 25 (.round (46 / 10)) = false := by decide +kernel
  intro hreceive
  have hiff := @receive_gzip_iff _ lettersCodecs (gzipPipeline (.round (46 / 10)))
    (gzipPipeline (.round (46 / 10))) {} {} letters lettersEncoded lettersCodecs_inverse rfl rfl
    hencode lettersCompressed hgzip ⟨rfl, rfl⟩ (withinLimits_none _) hratio
  exact absurd (hbound.symm.trans (hiff.mp hreceive)) (by simp)

end PlugAgente.Transport
