import PlugAgente.Dart.Base64
import PlugAgente.Negotiation.Protocol
import PlugAgente.Transport.FrameCodec

/-!
# The signature of a frame

`PayloadSigner.verifyFrame` recomputes the code of the canonical form of a frame, a JSON map
with sorted keys, and compares it in constant time with the one of the signature.

The HMAC of the `crypto` package is a parameter.  An exception of `base64Decode` is `none`.
-/

namespace PlugAgente.Transport

open Wire Dart

variable {V : Type}

/-- `PayloadSigningCanonicalizer.canonicalizeFrame`. -/
def canonicalizeFrame (frame : PayloadFrame V) : Bytes :=
  let text value := match value with
    | some t => jsonString t
    | none => "null"
  utf8Encode (jsonObject [
    ("cmp", jsonString frame.cmp),
    ("compressedSize", toString frame.compressedSize),
    ("contentType", jsonString frame.contentType),
    ("enc", jsonString frame.enc),
    ("originalSize", toString frame.originalSize),
    ("payload", jsonString (base64Encode ((payloadBytesFromFramePayload frame.payload).getD []))),
    ("requestId", text frame.requestId),
    ("schemaVersion", jsonString frame.schemaVersion),
    ("traceId", text frame.traceId)])

def padBase64 (s : String) : String :=
  let mod := utf16Length s % 4
  if mod = 0 then s else s ++ String.ofList (List.replicate (4 - mod) '=')

/-- The loop of `_constantTimeEquals`. -/
def differences (a b : Bytes) : Nat :=
  (List.range (max a.length b.length)).foldl
    (fun result i => result ||| ((a.getD i 0).toNat ^^^ (b.getD i 0).toNat))
    (a.length ^^^ b.length)

def constantTimeEquals (a b : String) : Option Bool := do
  let aBytes ← base64Decode (padBase64 a)
  let bBytes ← base64Decode (padBase64 b)
  return differences aBytes bBytes == 0

/-- `PayloadSigner`, with the bytes of its keys. -/
structure PayloadSigner where
  keyBytes : List (String × Bytes)
  /-- `Hmac(sha256, key).convert(data).bytes`. -/
  hmac : Bytes → Bytes → Bytes

namespace PayloadSigner

/-- `_computeHmacFromUtf8Bytes`. -/
def computeHmac (s : PayloadSigner) (data key : Bytes) : String :=
  base64Encode (s.hmac key data)

def verifyFrame (s : PayloadSigner) (frame : PayloadFrame V) (signature : PayloadSignature) :
    Option Bool :=
  if signature.alg != Negotiation.supportedAlgorithm then some false
  else
    match s.keyBytes.lookup signature.keyId with
    | none => some false
    | some key =>
      constantTimeEquals (s.computeHmac (canonicalizeFrame frame) key) signature.value

/-- A signature is the code of the canonical form of a frame under one of the keys. -/
structure Verifies (s : PayloadSigner) (frame : PayloadFrame V) (signature : PayloadSignature) :
    Prop where
  alg : signature.alg = Negotiation.supportedAlgorithm
  value : ∃ key, s.keyBytes.lookup signature.keyId = some key ∧
    base64Decode (padBase64 signature.value) = some (s.hmac key (canonicalizeFrame frame))

end PayloadSigner

/-! ## The comparison -/

theorem foldl_or_eq_zero {f : Nat → Nat} (indices : List Nat) (start : Nat) :
    indices.foldl (fun result i => result ||| f i) start = 0 ↔
      start = 0 ∧ ∀ i ∈ indices, f i = 0 := by
  induction indices generalizing start with
  | nil => simp
  | cons i rest ih =>
    rw [List.foldl_cons, ih, Nat.or_eq_zero_iff, List.forall_mem_cons, and_assoc]

theorem differences_eq_zero {a b : Bytes} : differences a b = 0 ↔ a = b := by
  rw [differences, foldl_or_eq_zero, Nat.xor_eq_zero_iff]
  constructor
  · rintro ⟨hlength, hall⟩
    apply List.ext_getElem hlength
    intro i hia hib
    have hxor := hall i (List.mem_range.mpr (by omega))
    rw [Nat.xor_eq_zero_iff, List.getD_eq_getElem _ _ hia, List.getD_eq_getElem _ _ hib] at hxor
    exact UInt8.toNat_inj.mp hxor
  · rintro rfl
    exact ⟨rfl, fun i _ => Nat.xor_self _⟩

theorem sum_units_eq_length {text : List Char} (h : ∀ c ∈ text, c.toNat < 0x10000) :
    (text.map fun c => if c.toNat < 0x10000 then 1 else 2).sum = text.length := by
  induction text with
  | nil => rfl
  | cons c rest ih =>
    rw [List.forall_mem_cons] at h
    rw [List.map_cons, List.sum_cons, if_pos h.1, ih h.2, List.length_cons]
    omega

theorem base64Digit_toNat_lt (n : Nat) : (base64Digit n).toNat < 0x10000 := by
  by_cases h : n < 64
  · have hall : ∀ n < 64, (base64Digit n).toNat < 0x10000 := by decide +kernel
    exact hall n h
  · have hlength : ("ABCDEFGHIJKLMNOPQRSTUVWXYZabcdefghijklmnopqrstuvwxyz0123456789+/".toList :
        List Char).length ≤ n := by
      have h64 : ("ABCDEFGHIJKLMNOPQRSTUVWXYZabcdefghijklmnopqrstuvwxyz0123456789+/".toList :
        List Char).length = 64 := by decide
      omega
    rw [base64Digit, List.getD_eq_default _ _ hlength]
    decide

theorem base64Digits_groups (bytes : List UInt8) :
    (∀ c ∈ base64Digits bytes, c.toNat < 0x10000) ∧ (base64Digits bytes).length % 4 = 0 := by
  induction bytes using base64Digits.induct with
  | case1 => simp [base64Digits]
  | case2 a => simp [base64Digits, base64Digit_toNat_lt]
  | case3 a b => simp [base64Digits, base64Digit_toNat_lt]
  | case4 a b c rest ih =>
    constructor
    · simp only [base64Digits, List.forall_mem_cons]
      exact ⟨base64Digit_toNat_lt _, base64Digit_toNat_lt _, base64Digit_toNat_lt _,
        base64Digit_toNat_lt _, ih.1⟩
    · simp only [base64Digits, List.length_cons]
      omega

theorem padBase64_encode (bytes : Bytes) : padBase64 (base64Encode bytes) = base64Encode bytes := by
  obtain ⟨hunits, hlength⟩ := base64Digits_groups bytes
  have hmod : utf16Length (base64Encode bytes) % 4 = 0 := by
    rw [utf16Length, base64Encode, String.toList_ofList, sum_units_eq_length hunits, hlength]
  rw [padBase64]
  exact if_pos hmod

theorem constantTimeEquals_encode {bytes : Bytes} {value : String}
    (h : constantTimeEquals (base64Encode bytes) value = some true) :
    base64Decode (padBase64 value) = some bytes := by
  simp only [constantTimeEquals, padBase64_encode, base64Decode_encode, Option.bind_eq_bind,
    Option.bind_eq_some_iff, Option.pure_def, Option.some.injEq, beq_iff_eq] at h
  obtain ⟨aBytes, rfl, bBytes, hvalue, hzero⟩ := h
  rw [hvalue, differences_eq_zero.mp hzero]

theorem PayloadSigner.verifyFrame_true {s : PayloadSigner} {frame : PayloadFrame V}
    {signature : PayloadSignature} (h : s.verifyFrame frame signature = some true) :
    s.Verifies frame signature := by
  unfold verifyFrame at h
  split at h
  · cases h
  · rename_i halg
    split at h
    · cases h
    · rename_i key hkey
      exact ⟨by simpa using halg, key, hkey, constantTimeEquals_encode h⟩

end PlugAgente.Transport
