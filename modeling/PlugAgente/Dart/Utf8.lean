import PlugAgente.Dart.JsonText

/-!
# UTF-8

The bytes of a text and the strict decoder `utf8.decode`, which drops a leading byte order mark.
A place in the bytes of a text is a border when it lies between two characters.  `fit cs n` is
the longest run of characters at the front of `cs` that takes at most `n` bytes, and `rest cs n`
is what follows it, so `size (fit cs n)` is the last border up to `n`.

The lemmas do three things:

* bytes decode exactly when they are the bytes of characters (`charsOf?_eq_some`), and a slice of
  the bytes of a text decodes exactly when it ends at a border (`charsOf?_take`);
* a byte inside a character is a continuation byte (`continues_iff`);
* `fit` and `rest` of a text in two parts (`fit_append_of_le`, `fit_append_of_ge`).
-/

namespace PlugAgente.Dart.Utf8

def bytesOf (cs : List Char) : List UInt8 :=
  cs.flatMap String.utf8EncodeChar

/-- How many bytes characters take. -/
def size (cs : List Char) : Nat :=
  (cs.map Char.utf8Size).sum

@[simp] theorem bytesOf_nil : bytesOf [] = [] := rfl

@[simp] theorem bytesOf_cons (c : Char) (cs : List Char) :
    bytesOf (c :: cs) = String.utf8EncodeChar c ++ bytesOf cs := by
  simp [bytesOf]

@[simp] theorem bytesOf_append (cs ds : List Char) :
    bytesOf (cs ++ ds) = bytesOf cs ++ bytesOf ds := by
  simp [bytesOf]

@[simp] theorem size_nil : size [] = 0 := rfl

@[simp] theorem size_cons (c : Char) (cs : List Char) :
    size (c :: cs) = c.utf8Size + size cs := by
  simp [size]

@[simp] theorem size_append (cs ds : List Char) : size (cs ++ ds) = size cs + size ds := by
  simp [size]

@[simp] theorem length_bytesOf (cs : List Char) : (bytesOf cs).length = size cs := by
  induction cs with
  | nil => rfl
  | cons c cs ih => rw [bytesOf_cons, List.length_append, ih, size_cons,
      String.length_utf8EncodeChar]

theorem size_pos {cs : List Char} (h : cs ≠ []) : 0 < size cs := by
  cases cs with
  | nil => exact absurd rfl h
  | cons c cs =>
    have hc : 0 < c.utf8Size := c.utf8Size_pos
    rw [size_cons]
    omega

@[simp] theorem size_eq_zero {cs : List Char} : size cs = 0 ↔ cs = [] := by
  constructor
  · intro h
    by_contra hne
    have hpos : 0 < size cs := size_pos hne
    omega
  · intro h
    rw [h, size_nil]

theorem toByteArray_bytesOf (cs : List Char) : (bytesOf cs).toByteArray = cs.utf8Encode := rfl

theorem toList_loop (bytes : ByteArray) (i : Nat) (done : List UInt8) :
    ByteArray.toList.loop bytes i done = done.reverse ++ bytes.data.toList.drop i := by
  fun_induction ByteArray.toList.loop bytes i done with
  | case1 i done h ih =>
    have hi : i < bytes.data.toList.length := h
    have hget : bytes.get! i = bytes.data.toList[i] := by
      simp only [ByteArray.get!, Array.getElem_toList]
      exact getElem!_pos bytes.data i h
    rw [ih, List.reverse_cons, List.append_assoc, hget, List.singleton_append,
      List.getElem_cons_drop]
  | case2 i done h =>
    have hi : bytes.data.toList.length ≤ i := Nat.le_of_not_lt h
    rw [List.drop_eq_nil_of_le hi, List.append_nil]

theorem utf8Encode_eq (s : String) : utf8Encode s = bytesOf s.toList := by
  have hlist : (bytesOf s.toList).toByteArray = s.toUTF8 := by
    rw [toByteArray_bytesOf, String.utf8Encode_toList, String.toUTF8_eq_toByteArray]
  rw [utf8Encode, ← hlist, ByteArray.toList, toList_loop, List.toList_data_toByteArray]
  rfl

theorem utf8Encode_ofList (cs : List Char) : utf8Encode (String.ofList cs) = bytesOf cs := by
  rw [utf8Encode_eq, String.toList_ofList]

/-! ## Decoding -/

/-- The characters that bytes encode; nothing when they are malformed. -/
def charsOf? (bytes : List UInt8) : Option (List Char) :=
  bytes.toByteArray.utf8Decode?.map Array.toList

theorem charsOf?_bytesOf (cs : List Char) : charsOf? (bytesOf cs) = some cs := by
  rw [charsOf?, toByteArray_bytesOf, List.utf8Decode?_utf8Encode]
  rfl

theorem charsOf?_eq_some {bytes : List UInt8} {cs : List Char} :
    charsOf? bytes = some cs ↔ bytes = bytesOf cs := by
  constructor
  · intro h
    have hsome : bytes.toByteArray.utf8Decode?.isSome := by
      rw [charsOf?, Option.map_eq_some_iff] at h
      obtain ⟨decoded, hdecoded, -⟩ := h
      rw [hdecoded]
      rfl
    obtain ⟨ds, hds⟩ := ByteArray.isSome_utf8Decode?_iff.mp hsome
    have heq : bytes = bytesOf ds := by
      rw [← List.toByteArray_inj, hds]
      rfl
    rw [heq, charsOf?_bytesOf] at h
    rw [heq, Option.some.inj h]
  · intro h
    rw [h, charsOf?_bytesOf]

theorem bytesOf_inj {cs ds : List Char} : bytesOf cs = bytesOf ds ↔ cs = ds := by
  constructor
  · intro h
    have hcs : charsOf? (bytesOf ds) = some cs := charsOf?_eq_some.mpr h.symm
    rw [charsOf?_bytesOf] at hcs
    exact (Option.some.inj hcs).symm
  · intro h
    rw [h]

/-- The bytes at the front of a text that are the bytes of characters are those of its first
characters. -/
theorem isPrefix_of_bytesOf {cs ds : List Char} {more : List UInt8}
    (h : bytesOf ds ++ more = bytesOf cs) : ds <+: cs := by
  apply List.isPrefix_of_utf8Encode_append_eq_utf8Encode more.toByteArray
  rw [← toByteArray_bytesOf, ← toByteArray_bytesOf, ← List.toByteArray_append, h]

/-! ## The characters that fit in a number of bytes -/

/-- The longest run of characters at the front that takes at most `n` bytes. -/
def fit : List Char → Nat → List Char
  | [], _ => []
  | c :: cs, n => if c.utf8Size ≤ n then c :: fit cs (n - c.utf8Size) else []

/-- What follows the characters that fit. -/
def rest (cs : List Char) (n : Nat) : List Char :=
  cs.drop (fit cs n).length

@[simp] theorem fit_nil (n : Nat) : fit [] n = [] := rfl

theorem fit_cons_of_le {c : Char} {n : Nat} (h : c.utf8Size ≤ n) (cs : List Char) :
    fit (c :: cs) n = c :: fit cs (n - c.utf8Size) := by
  rw [fit, if_pos h]

theorem fit_cons_of_lt {c : Char} {n : Nat} (h : n < c.utf8Size) (cs : List Char) :
    fit (c :: cs) n = [] := by
  rw [fit, if_neg (by omega)]

theorem fit_isPrefix (cs : List Char) (n : Nat) : fit cs n <+: cs := by
  induction cs generalizing n with
  | nil => exact List.nil_prefix
  | cons c cs ih =>
    by_cases h : c.utf8Size ≤ n
    · rw [fit_cons_of_le h]
      exact (List.prefix_cons_inj c).mpr (ih _)
    · rw [fit_cons_of_lt (by omega)]
      exact List.nil_prefix

@[simp] theorem fit_append_rest (cs : List Char) (n : Nat) : fit cs n ++ rest cs n = cs := by
  rw [rest]
  exact List.prefix_iff_eq_append.mp (fit_isPrefix cs n)

theorem size_fit_add_rest (cs : List Char) (n : Nat) :
    size (fit cs n) + size (rest cs n) = size cs := by
  rw [← size_append, fit_append_rest]

theorem size_fit_le (cs : List Char) (n : Nat) : size (fit cs n) ≤ n := by
  induction cs generalizing n with
  | nil => exact Nat.zero_le n
  | cons c cs ih =>
    by_cases h : c.utf8Size ≤ n
    · have htail : size (fit cs (n - c.utf8Size)) ≤ n - c.utf8Size := ih _
      rw [fit_cons_of_le h, size_cons]
      omega
    · rw [fit_cons_of_lt (by omega)]
      exact Nat.zero_le n

/-- A front part that fits is a front part of what fits. -/
theorem fit_append_of_ge {cs ds : List Char} {n : Nat} (h : size cs ≤ n) :
    fit (cs ++ ds) n = cs ++ fit ds (n - size cs) := by
  induction cs generalizing n with
  | nil => rfl
  | cons c cs ih =>
    rw [size_cons] at h
    rw [List.cons_append, fit_cons_of_le (by omega), ih (by omega), size_cons, List.cons_append,
      Nat.sub_sub]

/-- What follows the number of bytes does not matter. -/
theorem fit_append_of_le {cs ds : List Char} {n : Nat} (h : n ≤ size cs) :
    fit (cs ++ ds) n = fit cs n := by
  induction cs generalizing n with
  | nil =>
    rw [size_nil, Nat.le_zero] at h
    cases ds with
    | nil => rfl
    | cons d ds =>
      have hd : 0 < d.utf8Size := d.utf8Size_pos
      rw [List.nil_append, fit_cons_of_lt (by omega), fit_nil]
  | cons c cs ih =>
    rw [size_cons] at h
    by_cases hc : c.utf8Size ≤ n
    · rw [List.cons_append, fit_cons_of_le hc, fit_cons_of_le hc, ih (by omega)]
    · rw [List.cons_append, fit_cons_of_lt (by omega), fit_cons_of_lt (by omega)]

theorem fit_size (cs : List Char) : fit cs (size cs) = cs := by
  have h : fit (cs ++ []) (size cs) = cs ++ fit [] (size cs - size cs) :=
    fit_append_of_ge (Nat.le_refl _)
  rwa [List.append_nil, fit_nil, List.append_nil] at h

theorem fit_of_size_le {cs : List Char} {n : Nat} (h : size cs ≤ n) : fit cs n = cs := by
  have happend : fit (cs ++ []) n = cs ++ fit [] (n - size cs) := fit_append_of_ge h
  rwa [List.append_nil, fit_nil, List.append_nil] at happend

theorem fit_eq_of_le {cs : List Char} {m n : Nat} (hle : size (fit cs n) ≤ m) (hmn : m ≤ n) :
    fit cs m = fit cs n := by
  induction cs generalizing m n with
  | nil => rfl
  | cons c cs ih =>
    by_cases hc : c.utf8Size ≤ n
    · rw [fit_cons_of_le hc, size_cons] at hle
      rw [fit_cons_of_le hc, fit_cons_of_le (by omega), ih (n := n - c.utf8Size) (by omega)
        (by omega)]
    · rw [fit_cons_of_lt (by omega), fit_cons_of_lt (by omega)]

theorem fit_min (cs : List Char) (n : Nat) : fit cs (min n (size cs)) = fit cs n := by
  rcases Nat.le_total n (size cs) with h | h
  · rw [Nat.min_eq_left h]
  · rw [Nat.min_eq_right h, fit_size, fit_of_size_le h]

theorem rest_append_of_le {cs ds : List Char} {n : Nat} (h : n ≤ size cs) :
    rest (cs ++ ds) n = rest cs n ++ ds := by
  have hlength : (fit cs n).length ≤ cs.length := (fit_isPrefix cs n).length_le
  rw [rest, rest, fit_append_of_le h, List.drop_append_of_le_length hlength]

theorem rest_append_of_ge {cs ds : List Char} {n : Nat} (h : size cs ≤ n) :
    rest (cs ++ ds) n = rest ds (n - size cs) := by
  rw [rest, rest, fit_append_of_ge h, List.length_append, List.drop_length_add_append]

theorem fit_ne_nil {cs : List Char} {n : Nat} (hne : cs ≠ []) (hn : 4 ≤ n) : fit cs n ≠ [] := by
  cases cs with
  | nil => exact absurd rfl hne
  | cons c cs =>
    have hc : c.utf8Size ≤ 4 := c.utf8Size_le_four
    rw [fit_cons_of_le (by omega)]
    exact List.cons_ne_nil _ _

/-! ## Slices of the bytes -/

theorem take_bytesOf (cs : List Char) (n : Nat) :
    (bytesOf cs).take (size (fit cs n)) = bytesOf (fit cs n) := by
  have hparts : bytesOf cs = bytesOf (fit cs n) ++ bytesOf (rest cs n) := by
    rw [← bytesOf_append, fit_append_rest]
  rw [hparts, ← length_bytesOf, List.take_left]

theorem charsOf?_take {cs : List Char} {n : Nat} (h : n ≤ size cs) :
    charsOf? ((bytesOf cs).take n) = if size (fit cs n) = n then some (fit cs n) else none := by
  by_cases hborder : size (fit cs n) = n
  · rw [if_pos hborder]
    nth_rewrite 1 [← hborder]
    rw [take_bytesOf, charsOf?_bytesOf]
  · rw [if_neg hborder, Option.eq_none_iff_forall_ne_some]
    intro ds hds
    rw [charsOf?_eq_some] at hds
    have hparts : bytesOf ds ++ (bytesOf cs).drop n = bytesOf cs := by
      rw [← hds, List.take_append_drop]
    have hprefix : ds <+: cs := isPrefix_of_bytesOf hparts
    have hsize : size ds = n := by
      rw [← length_bytesOf, ← hds, List.length_take, length_bytesOf, Nat.min_eq_left h]
    obtain ⟨more, hmore⟩ := hprefix
    have hfit : fit cs n = ds := by
      rw [← hmore, fit_append_of_le (by omega), ← hsize, fit_size]
    exact hborder (by rw [hfit, hsize])

/-! ## Continuation bytes -/

/-- The test `(byte & 0xC0) == 0x80`: the byte does not start a character. -/
def continues (byte : UInt8) : Bool :=
  byte &&& 0xC0 == 0x80

theorem continues_following (n : Nat) : continues (UInt8.ofNat (n % 64 + 128)) := by
  have h : ∀ m < 64, continues (UInt8.ofNat (m + 128)) := by decide
  exact h _ (Nat.mod_lt _ (by decide))

theorem utf8EncodeChar_eq_cons (c : Char) : ∃ first following,
    String.utf8EncodeChar c = first :: following ∧ continues first = false ∧
      ∀ byte ∈ following, continues byte := by
  have hone : ∀ m < 128, continues (UInt8.ofNat m) = false := by decide
  have htwo : ∀ m < 32, continues (UInt8.ofNat (m + 192)) = false := by decide
  have hthree : ∀ m < 16, continues (UInt8.ofNat (m + 224)) = false := by decide
  have hfour : ∀ m < 8, continues (UInt8.ofNat (m + 240)) = false := by decide
  fun_cases String.utf8EncodeChar c with
  | case1 v h => exact ⟨_, _, rfl, hone _ (Nat.lt_succ_of_le h), by simp⟩
  | case2 v h1 h2 =>
    refine ⟨_, _, rfl, htwo _ (Nat.mod_lt _ (by decide)), ?_⟩
    simp only [List.mem_cons, List.not_mem_nil, or_false, forall_eq, continues_following]
  | case3 v h1 h2 h3 =>
    refine ⟨_, _, rfl, hthree _ (Nat.mod_lt _ (by decide)), ?_⟩
    simp only [List.mem_cons, List.not_mem_nil, or_false, forall_eq_or_imp, forall_eq,
      continues_following, and_true]
  | case4 v h1 h2 h3 =>
    refine ⟨_, _, rfl, hfour _ (Nat.mod_lt _ (by decide)), ?_⟩
    simp only [List.mem_cons, List.not_mem_nil, or_false, forall_eq_or_imp, forall_eq,
      continues_following, and_self]

theorem continues_iff {cs : List Char} {n : Nat} {byte : UInt8}
    (h : (bytesOf cs)[n]? = some byte) : continues byte ↔ size (fit cs n) ≠ n := by
  induction cs generalizing n with
  | nil => simp at h
  | cons c cs ih =>
    rw [bytesOf_cons] at h
    have hlength : (String.utf8EncodeChar c).length = c.utf8Size := String.length_utf8EncodeChar c
    by_cases hn : c.utf8Size ≤ n
    · rw [List.getElem?_append_right (by omega), hlength] at h
      rw [ih h, fit_cons_of_le hn, size_cons]
      omega
    · obtain ⟨first, following, heq, hfirst, hfollowing⟩ := utf8EncodeChar_eq_cons c
      rw [List.getElem?_append_left (by omega), heq] at h
      rw [fit_cons_of_lt (by omega), size_nil]
      cases n with
      | zero =>
        rw [List.getElem?_cons_zero, Option.some.injEq] at h
        rw [← h, hfirst]
        simp
      | succ n =>
        rw [List.getElem?_cons_succ] at h
        have hbyte : continues byte := hfollowing byte (List.mem_of_getElem? h)
        simp [hbyte]

/-! ## The byte order mark -/

/-- The character that `utf8.decode` drops at the front. -/
def byteOrderMark : Char :=
  Char.ofNat 0xFEFF

/-- A text without a byte order mark at its front. -/
def dropMark : List Char → List Char
  | [] => []
  | c :: cs => if c = byteOrderMark then cs else c :: cs

theorem dropMark_of_ne {cs : List Char} (h : cs.head? ≠ some byteOrderMark) :
    dropMark cs = cs := by
  cases cs with
  | nil => rfl
  | cons c cs => rw [dropMark, if_neg (by simpa using h)]

theorem dropMark_of_eq {cs : List Char} (h : cs.head? = some byteOrderMark) :
    size (dropMark cs) + 3 = size cs := by
  cases cs with
  | nil => simp at h
  | cons c cs =>
    have hc : c = byteOrderMark := by simpa using h
    have hsize : byteOrderMark.utf8Size = 3 := by decide
    rw [dropMark, if_pos hc, size_cons, hc, hsize, Nat.add_comm]

theorem dropMark_eq_nil {cs : List Char} : dropMark cs = [] ↔ cs = [] ∨ cs = [byteOrderMark] := by
  cases cs with
  | nil => simp [dropMark]
  | cons c cs =>
    by_cases hc : c = byteOrderMark
    · simp [dropMark, hc]
    · simp [dropMark, hc]

theorem size_dropMark_le (cs : List Char) : size (dropMark cs) ≤ size cs := by
  by_cases h : cs.head? = some byteOrderMark
  · have hsize := dropMark_of_eq h
    omega
  · rw [dropMark_of_ne h]

end PlugAgente.Dart.Utf8

namespace PlugAgente.Dart

/-- The exception of `utf8.decode`. -/
inductive FormatException where
  | malformed

/-- `utf8.decode` with `allowMalformed: false`. -/
def utf8Decode (bytes : List UInt8) : Except FormatException String :=
  match Utf8.charsOf? bytes with
  | some cs => .ok (String.ofList (Utf8.dropMark cs))
  | none => .error .malformed

theorem utf8Decode_bytesOf (cs : List Char) :
    utf8Decode (Utf8.bytesOf cs) = .ok (String.ofList (Utf8.dropMark cs)) := by
  rw [utf8Decode, Utf8.charsOf?_bytesOf]

end PlugAgente.Dart
