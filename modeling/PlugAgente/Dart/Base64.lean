import PlugAgente.Dart.JsonText

/-!
# Reading base64

`base64Decode`, which takes both alphabets and `%3D` for a padding sign, and throws at a digit
outside of them, at missing padding and at bits that are set behind the last byte.

Nothing here mentions the agent.
-/

namespace PlugAgente.Dart

/-- The six bits of a digit, in either alphabet. -/
def base64Value (c : Char) : Option Nat :=
  if 'A' ≤ c ∧ c ≤ 'Z' then some (c.toNat - 'A'.toNat)
  else if 'a' ≤ c ∧ c ≤ 'z' then some (c.toNat - 'a'.toNat + 26)
  else if '0' ≤ c ∧ c ≤ '9' then some (c.toNat - '0'.toNat + 52)
  else if c = '+' ∨ c = '-' then some 62
  else if c = '/' ∨ c = '_' then some 63
  else none

/-- Padding signs that are percent encoded. -/
def plainPadding : List Char → List Char
  | '%' :: '3' :: 'D' :: rest => '=' :: plainPadding rest
  | '%' :: '3' :: 'd' :: rest => '=' :: plainPadding rest
  | c :: rest => c :: plainPadding rest
  | [] => []

/-- The bytes of four digits. -/
def base64Bytes (a b c d : Nat) : List UInt8 :=
  [UInt8.ofNat (a * 4 + b / 16), UInt8.ofNat (b % 16 * 16 + c / 4), UInt8.ofNat (c % 4 * 64 + d)]

/-- The last four digits, of which one or two may be padding. -/
def base64Last (a b c d : Char) : Option (List UInt8) :=
  match base64Value a, base64Value b with
  | some x, some y =>
    if c = '=' then
      if d = '=' ∧ y % 16 = 0 then some ((base64Bytes x y 0 0).take 1) else none
    else
      match base64Value c with
      | none => none
      | some z =>
        if d = '=' then if z % 4 = 0 then some ((base64Bytes x y z 0).take 2) else none
        else (base64Value d).map (base64Bytes x y z)
  | _, _ => none

/-- The bytes of digits; padding stands only at the end. -/
def base64Read : List Char → Option (List UInt8)
  | [] => some []
  | [a, b, c, d] => base64Last a b c d
  | a :: b :: c :: d :: rest =>
    match base64Value a, base64Value b, base64Value c, base64Value d with
    | some x, some y, some z, some w => (base64Read rest).map (base64Bytes x y z w ++ ·)
    | _, _, _, _ => none
  | _ => none

def base64Decode (text : String) : Option (List UInt8) :=
  base64Read (plainPadding text.toList)

example : base64Decode "AP8NCg==" = some [0, 255, 13, 10] := by decide +kernel

/-! ## The round trip -/

theorem base64Value_digit {n : Nat} (h : n < 64) : base64Value (base64Digit n) = some n := by
  have hall : ∀ n < 64, base64Value (base64Digit n) = some n := by decide +kernel
  exact hall n h

theorem base64Digit_plain {n : Nat} (h : n < 64) :
    base64Digit n ≠ '%' ∧ base64Digit n ≠ '=' := by
  have hall : ∀ n < 64, base64Digit n ≠ '%' ∧ base64Digit n ≠ '=' := by decide +kernel
  exact hall n h

theorem plainPadding_eq_self {text : List Char} (h : '%' ∉ text) : plainPadding text = text := by
  induction text with
  | nil => rfl
  | cons c rest ih =>
    have hc : c ≠ '%' := fun hc => h (by simp [hc])
    have hrest : '%' ∉ rest := fun hmem => h (List.mem_cons_of_mem c hmem)
    rw [plainPadding, ih hrest]
    · rintro r rfl
      exact absurd rfl hc
    · rintro r rfl
      exact absurd rfl hc

theorem percent_notMem_base64Digits (bytes : List UInt8) : '%' ∉ base64Digits bytes := by
  induction bytes using base64Digits.induct with
  | case1 => simp [base64Digits]
  | case2 a =>
    have ha := a.toNat_lt
    simp only [base64Digits, List.mem_cons, List.not_mem_nil, or_false, not_or]
    exact ⟨(base64Digit_plain (by omega)).1.symm, (base64Digit_plain (by omega)).1.symm,
      by decide, by decide⟩
  | case3 a b =>
    have ha := a.toNat_lt
    have hb := b.toNat_lt
    simp only [base64Digits, List.mem_cons, List.not_mem_nil, or_false, not_or]
    exact ⟨(base64Digit_plain (by omega)).1.symm, (base64Digit_plain (by omega)).1.symm,
      (base64Digit_plain (by omega)).1.symm, by decide⟩
  | case4 a b c rest ih =>
    have ha := a.toNat_lt
    have hb := b.toNat_lt
    have hc := c.toNat_lt
    simp only [base64Digits, List.mem_cons, not_or]
    exact ⟨(base64Digit_plain (by omega)).1.symm, (base64Digit_plain (by omega)).1.symm,
      (base64Digit_plain (by omega)).1.symm, (base64Digit_plain (by omega)).1.symm, ih⟩

theorem UInt8.ofNat_eq {a : UInt8} {n : Nat} (h : n = a.toNat) : UInt8.ofNat n = a := by
  rw [h, UInt8.ofNat_toNat]

theorem base64Bytes_digits (a b c : UInt8) :
    base64Bytes (a.toNat / 4) (a.toNat % 4 * 16 + b.toNat / 16)
      (b.toNat % 16 * 4 + c.toNat / 64) (c.toNat % 64) = [a, b, c] := by
  have hb := b.toNat_lt
  have hc := c.toNat_lt
  unfold base64Bytes
  rw [UInt8.ofNat_eq (a := a) (by omega), UInt8.ofNat_eq (a := b) (by omega),
    UInt8.ofNat_eq (a := c) (by omega)]

theorem base64Last_two {a b : Char} {x y : Nat} (hx : base64Value a = some x)
    (hy : base64Value b = some y) (hrest : y % 16 = 0) :
    base64Last a b '=' '=' = some ((base64Bytes x y 0 0).take 1) := by
  simp [base64Last, hx, hy, hrest]

theorem base64Last_three {a b c : Char} {x y z : Nat} (hx : base64Value a = some x)
    (hy : base64Value b = some y) (hz : base64Value c = some z) (hc : c ≠ '=')
    (hrest : z % 4 = 0) : base64Last a b c '=' = some ((base64Bytes x y z 0).take 2) := by
  simp [base64Last, hx, hy, hz, hc, hrest]

theorem base64Last_four {a b c d : Char} {x y z w : Nat} (hx : base64Value a = some x)
    (hy : base64Value b = some y) (hz : base64Value c = some z) (hw : base64Value d = some w)
    (hc : c ≠ '=') (hd : d ≠ '=') : base64Last a b c d = some (base64Bytes x y z w) := by
  simp [base64Last, hx, hy, hz, hw, hc, hd]

theorem base64Read_digits (bytes : List UInt8) : base64Read (base64Digits bytes) = some bytes := by
  induction bytes using base64Digits.induct with
  | case1 => rfl
  | case2 a =>
    have ha := a.toNat_lt
    rw [base64Digits, base64Read, base64Last_two (base64Value_digit (by omega))
      (base64Value_digit (by omega)) (by omega), base64Bytes, UInt8.ofNat_eq (a := a) (by omega)]
    rfl
  | case3 a b =>
    have ha := a.toNat_lt
    have hb := b.toNat_lt
    rw [base64Digits, base64Read, base64Last_three (base64Value_digit (by omega))
      (base64Value_digit (by omega)) (base64Value_digit (by omega))
      (base64Digit_plain (by omega)).2 (by omega), base64Bytes,
      UInt8.ofNat_eq (a := a) (by omega), UInt8.ofNat_eq (a := b) (by omega)]
    rfl
  | case4 a b c rest ih =>
    have ha := a.toNat_lt
    have hb := b.toNat_lt
    have hc := c.toNat_lt
    rw [base64Digits]
    cases hrest : base64Digits rest with
    | nil =>
      rw [hrest] at ih
      obtain rfl : rest = [] := (Option.some.inj ih).symm
      rw [base64Read, base64Last_four (base64Value_digit (by omega))
        (base64Value_digit (by omega)) (base64Value_digit (by omega))
        (base64Value_digit (by omega)) (base64Digit_plain (by omega)).2
        (base64Digit_plain (by omega)).2, base64Bytes_digits]
    | cons d more =>
      rw [hrest] at ih
      rw [base64Read, base64Value_digit (by omega), base64Value_digit (by omega),
        base64Value_digit (by omega), base64Value_digit (by omega), ih]
      · exact congrArg (fun read => some (read ++ rest)) (base64Bytes_digits a b c)
      · simp

theorem base64Decode_encode (bytes : List UInt8) :
    base64Decode (base64Encode bytes) = some bytes := by
  rw [base64Decode, base64Encode, String.toList_ofList,
    plainPadding_eq_self (percent_notMem_base64Digits bytes), base64Read_digits]

end PlugAgente.Dart
