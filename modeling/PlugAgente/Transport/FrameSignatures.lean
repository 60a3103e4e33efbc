import PlugAgente.Transport.Acceptance
import PlugAgente.Wire.SigningCanonicalizer

/-!
# Signatures of frames on their way

`PayloadSigner` signs a frame and verifies one, on the isolate itself or in a worker of
`TransportWorkPool`.  Between the two the payload may change its representation: it is sent to a
worker as bytes, and JSON makes a list of integers of it.

The HMAC of the `crypto` package is a parameter, and the worker does the job that it is given.
`none` is an exception.  `verifies_iff`: signatures verify on every way, and the two verifications
answer alike, unless the value of the signature is malformed.
-/

namespace PlugAgente.Signing

open Dart Wire
open Transport (Bytes PayloadSignature constantTimeEquals padBase64)

variable {V : Type}

/-! ## Frames -/

/-- A payload, or another value of a map on its way: JSON, bytes, or an object that `jsonEncode`
rejects.  `items` are those of typed data that is a list. -/
inductive Payload (V : Type) where
  | uint8List (bytes : Bytes)
  | byteBuffer (bytes : Bytes)
  | typedData (bytes : Bytes) (items : Option (List (Json V)))
  | intList (values : List Int)
  | json (value : Json V)
  | object

structure PayloadFrame (V : Type) where
  schemaVersion : String
  enc : String
  cmp : String
  contentType : String
  originalSize : Int
  compressedSize : Int
  payload : Payload V
  traceId : Option String := none
  requestId : Option String := none
  signature : Option (Entries V) := none

/-- `item is int` of all items. -/
def intItems (items : List (Json V)) : Option (List Int) :=
  items.mapM fun
    | .int n => some n
    | _ => none

/-- What `jsonEncode` makes of a payload. -/
def Payload.toJson : Payload V → Option (Json V)
  | .uint8List bytes => some (.list (bytes.map fun b => .int b.toNat))
  | .byteBuffer _ => none
  | .typedData _ items => items.map .list
  | .intList values => some (.list (values.map .int))
  | .json value => some value
  | .object => none

namespace PayloadFrame

/-- `toJson`, with what `jsonEncode` makes of the payload. -/
def toJson (frame : PayloadFrame V) : Option (Entries V) :=
  frame.payload.toJson.map fun payload =>
    [("schemaVersion", .text frame.schemaVersion), ("enc", .text frame.enc),
      ("cmp", .text frame.cmp), ("contentType", .text frame.contentType),
      ("originalSize", .int frame.originalSize), ("compressedSize", .int frame.compressedSize),
      ("payload", payload)] ++
    (frame.traceId.map fun id => ("traceId", .text id)).toList ++
    (frame.requestId.map fun id => ("requestId", .text id)).toList ++
    (frame.signature.map fun signature => ("signature", .map signature)).toList

/-- `as String`. -/
def asText : Option (Payload V) → Option String
  | some (.json (.text t)) => some t
  | _ => none

/-- `as String?`. -/
def asOptionalText : Option (Payload V) → Option (Option String)
  | none | some (.json .null) => some none
  | some (.json (.text t)) => some (some t)
  | _ => none

/-- `as int`. -/
def asInt : Option (Payload V) → Option Int
  | some (.json (.int n)) => some n
  | _ => none

/-- `as Map<String, dynamic>?`. -/
def asOptionalMap : Option (Payload V) → Option (Option (Entries V))
  | none | some (.json .null) => some none
  | some (.json (.map entries)) => some (some entries)
  | _ => none

/-- `fromJson`, which throws at a field of another type. -/
def fromJson (json : List (String × Payload V)) : Option (PayloadFrame V) := do
  let schemaVersion ← asText (json.lookup "schemaVersion")
  let enc ← asText (json.lookup "enc")
  let cmp ← asText (json.lookup "cmp")
  let contentType ← asText (json.lookup "contentType")
  let originalSize ← asInt (json.lookup "originalSize")
  let compressedSize ← asInt (json.lookup "compressedSize")
  let traceId ← asOptionalText (json.lookup "traceId")
  let requestId ← asOptionalText (json.lookup "requestId")
  let signature ← asOptionalMap (json.lookup "signature")
  return {
    schemaVersion, enc, cmp, contentType, originalSize, compressedSize
    payload := (json.lookup "payload").getD (.json .null)
    traceId, requestId, signature }

/-- A frame behind its own JSON: encoded to a text, decoded and read. -/
def overJson (D : Doubles V) (frame : PayloadFrame V) : Option (PayloadFrame V) := do
  let entries ← frame.toJson
  match jsonDecode D (jsonEncode D (.map entries)) with
  | some (.map decoded) => fromJson (decoded.map fun entry => (entry.1, .json entry.2))
  | _ => none

end PayloadFrame

/-! ## PayloadSigningCanonicalizer -/

section Canonicalizer

variable (D : Doubles V) (S : ListSort)

def payloadBytesForFrame : Payload V → Option Bytes
  | .uint8List bytes => some bytes
  | .byteBuffer bytes => some bytes
  | .typedData bytes _ => some bytes
  | .intList values => some (uint8List values)
  | .json (.list items) =>
    match intItems items with
    | some values => some (uint8List values)
    | none => some (utf8Encode (jsonEncode D (.list items)))
  | .json (.text value) => some ((base64Decode value).getD (utf8Encode value))
  | .json value => some (utf8Encode (jsonEncode D value))
  | .object => none

def optionalText : Option String → Json V
  | some t => .text t
  | none => .null

def canonicalizeFrame (frame : PayloadFrame V) : Option Bytes :=
  (payloadBytesForFrame D frame.payload).map fun payloadBytes =>
    canonicalJsonUtf8 D S (.map
      [("schemaVersion", .text frame.schemaVersion), ("enc", .text frame.enc),
        ("cmp", .text frame.cmp), ("contentType", .text frame.contentType),
        ("originalSize", .int frame.originalSize), ("compressedSize", .int frame.compressedSize),
        ("traceId", optionalText frame.traceId), ("requestId", optionalText frame.requestId),
        ("payload", .text (base64Encode payloadBytes))])

end Canonicalizer

/-! ## PayloadSigner -/

def supportedAlgorithm : String := "hmac-sha256"

/-- `PayloadSigner`: the active key is one of the keys. -/
structure PayloadSigner where
  keyBytes : List (String × Bytes)
  activeKeyId : String
  activeKey : Bytes
  active : keyBytes.lookup activeKeyId = some activeKey

namespace PayloadSigner

variable (D : Doubles V) (S : ListSort) (hmac : Bytes → Bytes → Bytes) (s : PayloadSigner)

/-- `_computeHmacFromUtf8Bytes`. -/
def computeHmac (data key : Bytes) : String :=
  base64Encode (hmac key data)

def signFrame (frame : PayloadFrame V) : Option PayloadSignature :=
  (canonicalizeFrame D S frame).map fun canonicalBytes =>
    { alg := supportedAlgorithm, value := computeHmac hmac canonicalBytes s.activeKey
      keyId := s.activeKeyId }

def verifyFrame (frame : PayloadFrame V) (signature : PayloadSignature) : Option Bool :=
  if signature.alg ≠ supportedAlgorithm then some false
  else
    match s.keyBytes.lookup signature.keyId with
    | none => some false
    | some key =>
      (canonicalizeFrame D S frame).bind fun canonicalBytes =>
        constantTimeEquals (computeHmac hmac canonicalBytes key) signature.value

/-! ## The worker -/

def frameDataForIsolate (frame : PayloadFrame V) : Option (List (String × Payload V)) :=
  (payloadBytesForFrame D frame.payload).map fun payloadBytes =>
    [("schemaVersion", .json (.text frame.schemaVersion)), ("enc", .json (.text frame.enc)),
      ("cmp", .json (.text frame.cmp)), ("contentType", .json (.text frame.contentType)),
      ("originalSize", .json (.int frame.originalSize)),
      ("compressedSize", .json (.int frame.compressedSize)),
      ("payload", .uint8List payloadBytes)] ++
    (frame.traceId.map fun id => ("traceId", .json (.text id))).toList ++
    (frame.requestId.map fun id => ("requestId", .json (.text id))).toList

/-- `_constantTimeEquals` of the worker, which catches a `FormatException`. -/
def workerEquals (expected actual : String) : Bool :=
  (constantTimeEquals expected actual).getD false

/-- The `hmacSign` work. -/
def hmacSign (frameData : List (String × Payload V)) (key : Bytes) : Option String := do
  let frame ← PayloadFrame.fromJson frameData
  let canonicalBytes ← canonicalizeFrame D S frame
  return base64Encode (hmac key canonicalBytes)

/-- The `hmacVerify` work. -/
def hmacVerify (frameData : List (String × Payload V)) (key : Bytes) (signature : String) :
    Option Bool := do
  let frame ← PayloadFrame.fromJson frameData
  let canonicalBytes ← canonicalizeFrame D S frame
  return workerEquals (base64Encode (hmac key canonicalBytes)) signature

def signFrameAsync (frame : PayloadFrame V) : Option PayloadSignature := do
  let frameData ← frameDataForIsolate D frame
  let value ← hmacSign D S hmac frameData s.activeKey
  return { alg := supportedAlgorithm, value, keyId := s.activeKeyId }

/-- `verifyFrameAsyncWithMetrics`. -/
def verifyFrameAsync (frame : PayloadFrame V) (signature : PayloadSignature) : Option Bool :=
  if signature.alg ≠ supportedAlgorithm then some false
  else
    match s.keyBytes.lookup signature.keyId with
    | none => some false
    | some key =>
      (frameDataForIsolate D frame).bind fun frameData =>
        hmacVerify D S hmac frameData key signature.value

/-! ## What is meant -/

/-- A payload of bytes, of integers or of text. -/
def Signable : Payload V → Prop
  | .uint8List _ | .byteBuffer _ | .intList _ | .json (.text _) => True
  | _ => False

/-- The signature is the code of the frame under the key it names. -/
def IsCodeOf (frame : PayloadFrame V) (signature : PayloadSignature) : Prop :=
  signature.alg = supportedAlgorithm ∧ ∃ key canonicalBytes,
    s.keyBytes.lookup signature.keyId = some key ∧
      canonicalizeFrame D S frame = some canonicalBytes ∧
      base64Decode (padBase64 signature.value) = some (hmac key canonicalBytes)

/-- The signature of a frame verifies for the frame and for what its JSON gives, a worker signs
alike, and both verifications answer the same verdict to the signature given, true only if it is
the code of the frame. -/
structure Dependable (frame : PayloadFrame V) (signature : PayloadSignature) : Prop where
  travels : Signable frame.payload →
    ∀ received, received = frame ∨ frame.overJson D = some received →
      ∃ own, s.signFrame D S hmac frame = some own ∧
        s.verifyFrame D S hmac received own = some true
  signs : s.signFrameAsync D S hmac frame = s.signFrame D S hmac frame
  answers : ∃ verdict, s.verifyFrame D S hmac frame signature = some verdict ∧
    s.verifyFrameAsync D S hmac frame signature = some verdict ∧
      (verdict = true → s.IsCodeOf D S hmac frame signature)

end PayloadSigner

/-! ## Other representations of a frame -/

section Ways

variable {D : Doubles V} {S : ListSort} {frame : PayloadFrame V}

theorem overJson_eq (hsignature : ∀ entries ∈ frame.signature, (Json.map entries).Distinct)
    (hpayload : ∀ payload ∈ frame.payload.toJson, payload.Distinct) :
    frame.overJson D =
      frame.payload.toJson.map fun payload => { frame with payload := .json payload } := by
  obtain ⟨schemaVersion, enc, cmp, contentType, originalSize, compressedSize, payload, traceId,
    requestId, signature⟩ := frame
  rw [PayloadFrame.overJson, PayloadFrame.toJson]
  cases hjson : payload.toJson with
  | none => rfl
  | some value =>
    have hvalue : value.Distinct := hpayload value hjson
    simp only [Option.map_some, Option.bind_eq_bind, Option.bind_some]
    rw [jsonDecode_jsonEncode]
    · cases traceId <;> cases requestId <;> cases signature <;> rfl
    · cases signature with
      | none =>
        cases traceId <;> cases requestId <;>
          exact ⟨by simp, by simp [DistinctEntries, Json.Distinct, hvalue]⟩
      | some entries =>
        have hentries : (Json.map entries).Distinct := hsignature entries rfl
        rw [Json.Distinct] at hentries
        cases traceId <;> cases requestId <;>
          exact ⟨by simp, by simp [DistinctEntries, Json.Distinct, hvalue, hentries]⟩

theorem intItems_map (values : List Int) :
    intItems (values.map (Json.int (V := V))) = some values := by
  induction values with
  | nil => rfl
  | cons n values ih =>
    rw [intItems] at ih
    simp [intItems, ih]

theorem payloadBytesForFrame_toJson {payload : Payload V} {value : Json V}
    (hsignable : PayloadSigner.Signable payload) (h : payload.toJson = some value) :
    payloadBytesForFrame D (.json value) = payloadBytesForFrame D payload := by
  cases payload with
  | uint8List bytes =>
    obtain rfl := Option.some.inj h
    have hitems : intItems (bytes.map fun b => (Json.int b.toNat : Json V)) =
        some (bytes.map fun b => (b.toNat : Int)) := by
      rw [← intItems_map (V := V), List.map_map]
      rfl
    have hbytes : uint8List (bytes.map fun b => (b.toNat : Int)) = bytes := by
      rw [uint8List, List.map_map]
      refine (List.map_congr_left fun b _ => ?_).trans (List.map_id bytes)
      have hlt := b.toNat_lt
      simp only [Function.comp_apply, UInt8.ofInt, id, ← UInt8.toNat_inj, UInt8.toNat_ofNat']
      omega
    simp only [payloadBytesForFrame, hitems, hbytes]
  | intList values =>
    obtain rfl := Option.some.inj h
    simp only [payloadBytesForFrame, intItems_map]
  | json value' =>
    obtain rfl := Option.some.inj h
    rfl
  | byteBuffer bytes => cases h
  | typedData bytes items => exact hsignable.elim
  | object => cases h

theorem distinct_toJson (hsignable : PayloadSigner.Signable frame.payload) :
    ∀ payload ∈ frame.payload.toJson, payload.Distinct := by
  have hints : ∀ values : List Int, DistinctItems (values.map (Json.int (V := V))) := by
    intro values
    induction values with
    | nil => trivial
    | cons n values ih => exact ⟨trivial, ih⟩
  intro payload h
  obtain ⟨_, _, _, _, _, _, own, _, _, _⟩ := frame
  cases own with
  | uint8List bytes =>
    obtain rfl := Option.some.inj h
    have := hints (bytes.map fun b => (b.toNat : Int))
    rwa [List.map_map] at this
  | intList values =>
    obtain rfl := Option.some.inj h
    exact hints values
  | json value =>
    obtain rfl := Option.some.inj h
    cases value with
    | text t => trivial
    | _ => exact hsignable.elim
  | byteBuffer bytes => cases h
  | typedData bytes items => exact hsignable.elim
  | object => cases h

theorem canonicalizeFrame_congr {payload : Payload V} {signature : Option (Entries V)}
    (h : payloadBytesForFrame D payload = payloadBytesForFrame D frame.payload) :
    canonicalizeFrame D S { frame with payload, signature } = canonicalizeFrame D S frame := by
  unfold canonicalizeFrame
  rw [h]

theorem fromJson_frameDataForIsolate {bytes : Bytes}
    (h : payloadBytesForFrame D frame.payload = some bytes) :
    ∃ data received, PayloadSigner.frameDataForIsolate D frame = some data ∧
      PayloadFrame.fromJson data = some received ∧
      canonicalizeFrame D S received = canonicalizeFrame D S frame := by
  refine ⟨_, { frame with payload := .uint8List bytes, signature := none },
    congrArg (Option.map _) h, ?_, canonicalizeFrame_congr h.symm⟩
  · obtain ⟨_, _, _, _, _, _, _, traceId, requestId, _⟩ := frame
    cases traceId <;> cases requestId <;> rfl

theorem payloadBytesForFrame_eq_none {payload : Payload V} :
    payloadBytesForFrame D payload = none ↔ payload = .object := by
  cases payload with
  | json value =>
    cases value with
    | list items =>
      simp only [payloadBytesForFrame]
      cases intItems items <;> simp
    | _ => simp [payloadBytesForFrame]
  | _ => simp [payloadBytesForFrame]

end Ways

/-! ## Verification -/

namespace PayloadSigner

theorem constantTimeEquals_base64Encode (bytes : Bytes) (value : String) :
    constantTimeEquals (base64Encode bytes) value =
      (base64Decode (padBase64 value)).map fun actual => decide (bytes = actual) := by
  simp only [constantTimeEquals, Transport.padBase64_encode, base64Decode_encode,
    Option.bind_eq_bind, Option.bind_some]
  cases base64Decode (padBase64 value) with
  | none => rfl
  | some actual =>
    simp only [Option.bind_some, Option.map_some, Option.pure_def, Option.some.injEq]
    rw [Bool.eq_iff_iff, beq_iff_eq, Transport.differences_eq_zero, decide_eq_true_iff]

section Verification

variable {D : Doubles V} {S : ListSort} {hmac : Bytes → Bytes → Bytes} {s : PayloadSigner}
  {frame : PayloadFrame V} {signature : PayloadSignature}

theorem verifyFrame_signFrame {received : PayloadFrame V} {canonicalBytes : Bytes}
    (hframe : canonicalizeFrame D S frame = some canonicalBytes)
    (hreceived : canonicalizeFrame D S received = some canonicalBytes) :
    ∃ own, s.signFrame D S hmac frame = some own ∧
      s.verifyFrame D S hmac received own = some true := by
  refine ⟨_, congrArg (Option.map _) hframe, ?_⟩
  have hself := constantTimeEquals_base64Encode (hmac s.activeKey canonicalBytes)
    (base64Encode (hmac s.activeKey canonicalBytes))
  rw [Transport.padBase64_encode, base64Decode_encode] at hself
  simp [verifyFrame, s.active, hreceived, computeHmac, hself]

/-- What a worker signs is what the isolate signs. -/
theorem signFrameAsync_eq : s.signFrameAsync D S hmac frame = s.signFrame D S hmac frame := by
  cases hbytes : payloadBytesForFrame D frame.payload with
  | none => simp [signFrameAsync, signFrame, frameDataForIsolate, canonicalizeFrame, hbytes]
  | some bytes =>
    obtain ⟨data, received, hdata, hreceived, hcanonical⟩ :=
      fromJson_frameDataForIsolate (S := S) hbytes
    simp only [signFrameAsync, signFrame, hmacSign, hdata, hreceived, hcanonical, Option.bind_some,
      Option.bind_eq_bind]
    cases canonicalizeFrame D S frame <;> rfl

/-- The verdict of a worker is the one of the isolate, and false where the isolate throws because
the value is malformed. -/
theorem verifyFrameAsync_eq (hpayload : frame.payload ≠ .object) :
    s.verifyFrameAsync D S hmac frame signature =
      some ((s.verifyFrame D S hmac frame signature).getD false) := by
  obtain ⟨bytes, hbytes⟩ := Option.ne_none_iff_exists'.mp
    (mt payloadBytesForFrame_eq_none.mp hpayload : payloadBytesForFrame D frame.payload ≠ none)
  obtain ⟨data, received, hdata, hreceived, hcanonical⟩ :=
    fromJson_frameDataForIsolate (S := S) hbytes
  obtain ⟨canonicalBytes, hframe⟩ : ∃ canonicalBytes,
      canonicalizeFrame D S frame = some canonicalBytes :=
    ⟨_, congrArg (Option.map _) hbytes⟩
  unfold verifyFrameAsync verifyFrame
  split_ifs
  · rfl
  · cases s.keyBytes.lookup signature.keyId with
    | none => rfl
    | some key =>
      simp only [hmacVerify, hdata, hreceived, hcanonical, hframe, Option.bind_some,
        Option.bind_eq_bind]
      rfl

theorem isCodeOf_of_verifyFrame (h : s.verifyFrame D S hmac frame signature = some true) :
    s.IsCodeOf D S hmac frame signature := by
  unfold verifyFrame at h
  split_ifs at h with halg
  · cases h
  cases hkey : s.keyBytes.lookup signature.keyId with
  | none => simp [hkey] at h
  | some key =>
    simp only [hkey] at h
    obtain ⟨canonicalBytes, hframe, hequal⟩ := Option.bind_eq_some_iff.mp h
    rw [computeHmac, constantTimeEquals_base64Encode] at hequal
    obtain ⟨actual, hactual, hsame⟩ := Option.map_eq_some_iff.mp hequal
    refine ⟨not_not.mp halg, key, canonicalBytes, hkey, hframe, ?_⟩
    rw [hactual, of_decide_eq_true hsame]

/-- There is a verdict unless a key is compared with a malformed value, or the frame has no
canonical form. -/
theorem verifyFrame_isSome :
    (∃ verdict, s.verifyFrame D S hmac frame signature = some verdict) ↔
      signature.alg ≠ supportedAlgorithm ∨ s.keyBytes.lookup signature.keyId = none ∨
        frame.payload ≠ .object ∧ (base64Decode (padBase64 signature.value)).isSome := by
  unfold verifyFrame
  split_ifs with halg
  · simp [halg]
  · rw [not_not] at halg
    cases s.keyBytes.lookup signature.keyId with
    | none => simp
    | some key =>
      have hframe : canonicalizeFrame D S frame = none ↔ frame.payload = .object := by
        rw [canonicalizeFrame, Option.map_eq_none_iff, payloadBytesForFrame_eq_none]
      cases hcanonical : canonicalizeFrame D S frame with
      | none => simp [halg, hframe.mp hcanonical]
      | some canonicalBytes =>
        have hpayload : frame.payload ≠ .object := by
          intro hobject
          rw [hframe.mpr hobject] at hcanonical
          cases hcanonical
        simp only [Option.bind_some, computeHmac, constantTimeEquals_base64Encode, halg]
        cases base64Decode (padBase64 signature.value) <;> simp [hpayload]

end Verification

/-- Signatures verify for the frame and for what its JSON gives, and a worker signs alike.  Both
verifications answer the same verdict, true only for the code of the frame, exactly when they
refuse the algorithm or the key, or the value of the signature is Base64. -/
theorem dependable_iff (D : Doubles V) (S : ListSort) (hmac : Bytes → Bytes → Bytes)
    (s : PayloadSigner) (frame : PayloadFrame V) (signature : PayloadSignature)
    (hsignature : ∀ entries ∈ frame.signature, (Json.map entries).Distinct) :
    s.Dependable D S hmac frame signature ↔
      signature.alg ≠ supportedAlgorithm ∨ s.keyBytes.lookup signature.keyId = none ∨
        frame.payload ≠ .object ∧ (base64Decode (padBase64 signature.value)).isSome := by
  constructor
  · rintro ⟨-, -, verdict, hverdict, -⟩
    exact verifyFrame_isSome.mp ⟨verdict, hverdict⟩
  · intro h
    refine ⟨fun hsignable received hreceived => ?_, signFrameAsync_eq, ?_⟩
    · have hpayload : payloadBytesForFrame D frame.payload ≠ none := by
        intro hnone
        rw [payloadBytesForFrame_eq_none.mp hnone] at hsignable
        exact hsignable
      obtain ⟨bytes, hbytes⟩ := Option.ne_none_iff_exists'.mp hpayload
      refine verifyFrame_signFrame (congrArg (Option.map _) hbytes) ?_
      rcases hreceived with rfl | hreceived
      · exact congrArg (Option.map _) hbytes
      · rw [overJson_eq hsignature (distinct_toJson hsignable)] at hreceived
        obtain ⟨value, hvalue, rfl⟩ := Option.map_eq_some_iff.mp hreceived
        rw [canonicalizeFrame_congr (payloadBytesForFrame_toJson hsignable hvalue)]
        exact congrArg (Option.map _) hbytes
    · obtain ⟨verdict, hverdict⟩ := verifyFrame_isSome.mpr h
      refine ⟨verdict, hverdict, ?_, ?_⟩
      · by_cases hpayload : frame.payload = .object
        · unfold verifyFrameAsync verifyFrame at *
          rcases h with halg | hkey | hvalue
          · rw [if_pos halg] at hverdict ⊢
            exact hverdict
          · rw [hkey] at hverdict ⊢
            exact hverdict
          · exact absurd hpayload hvalue.1
        · rw [verifyFrameAsync_eq hpayload, hverdict]
          rfl
      · rintro rfl
        exact isCodeOf_of_verifyFrame hverdict

/-! ### A frame of two bytes -/

/-- Values without doubles. -/
def noDoubles : Doubles Empty :=
  ⟨nofun, fun _ => none, nofun, nofun, nofun, nofun⟩

def emptyObject : PayloadFrame Empty :=
  { schemaVersion := "1.0", enc := "json", cmp := "none", contentType := "application/json"
    originalSize := 2, compressedSize := 2, payload := .uint8List [123, 125] }

def oneKey : PayloadSigner :=
  { keyBytes := [("main", [107])], activeKeyId := "main", activeKey := [107], active := rfl }

/-- The code of `emptyObject` under the key. -/
def code : Bytes :=
  [171, 58, 232, 124, 151, 198, 150, 102, 82, 49, 192, 151, 141, 46, 219, 21, 47, 228, 208, 125,
    38, 34, 151, 97, 42, 243, 29, 0, 156, 41, 86, 115]

/-- The signature of the frame is dependable. -/
theorem dependable_iff_code :
    oneKey.Dependable noDoubles .insertion (fun _ _ => code) emptyObject
      ⟨supportedAlgorithm, "qzrofJfGlmZSMcCXjS7bFS/k0H0mIpdhKvMdAJwpVnM=", "main"⟩ :=
  (dependable_iff _ _ _ _ _ _ (by simp [emptyObject])).mpr
    (.inr (.inr ⟨by simp [emptyObject], by decide +kernel⟩))

/-- A value that is not Base64 makes the verification throw. -/
theorem not_dependable_malformed :
    ¬ oneKey.Dependable noDoubles .insertion (fun _ _ => code) emptyObject
      ⟨supportedAlgorithm, "*", "main"⟩ := by
  rintro ⟨-, -, verdict, hverdict, -⟩
  rcases verifyFrame_isSome.mp ⟨verdict, hverdict⟩ with halg | hkey | ⟨-, hvalue⟩
  · exact halg rfl
  · cases hkey
  · exact absurd hvalue (by decide +kernel)

end PayloadSigner

end PlugAgente.Signing

