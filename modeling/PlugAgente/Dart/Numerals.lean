import PlugAgente.Dart.Text

/-!
# Dart integer numerals

`int.tryParse` with its two forms, decimal and hexadecimal.
-/

namespace PlugAgente.Dart

/-- The value of a run of decimal digits. -/
def digitsValue (digits : Text) : Nat :=
  digits.foldl (fun n c => 10 * n + (c.toNat - '0'.toNat)) 0

/-- A sign in front of a numeral: whether it is a minus, and the rest. -/
def splitSign : Text → Bool × Text
  | '-' :: rest => (true, rest)
  | '+' :: rest => (false, rest)
  | s => (false, s)

/-- The value of a hexadecimal digit. -/
def hexDigit? (c : Char) : Option Nat :=
  if c.isDigit then some (c.toNat - '0'.toNat)
  else if 'a' ≤ c ∧ c ≤ 'f' then some (c.toNat - 'a'.toNat + 10)
  else if 'A' ≤ c ∧ c ≤ 'F' then some (c.toNat - 'A'.toNat + 10)
  else none

/-- The value of a hexadecimal numeral behind its `0x`. -/
def hexValue? (digits : Text) : Option Nat :=
  if digits.isEmpty then none
  else (digits.mapM hexDigit?).map fun values => values.foldl (fun n d => 16 * n + d) 0

/-- `int.tryParse`, on the integers of 64 bits.  Without a minus, a hexadecimal numeral of 64
bits is read as a signed one. -/
def intTryParse (s : Text) : Option Int :=
  let (negative, body) := splitSign s
  match body with
  | '0' :: 'x' :: digits | '0' :: 'X' :: digits =>
    (hexValue? digits).bind fun n =>
      if negative then if n ≤ 2 ^ 63 then some (-(n : Int)) else none
      else if n < 2 ^ 63 then some n
      else if n < 2 ^ 64 then some (n - 2 ^ 64 : Int)
      else none
  | _ =>
    if body.isEmpty || !body.all Char.isDigit then none
    else
      let n : Int := if negative then -(digitsValue body : Int) else digitsValue body
      if -2 ^ 63 ≤ n ∧ n < 2 ^ 63 then some n else none

end PlugAgente.Dart
