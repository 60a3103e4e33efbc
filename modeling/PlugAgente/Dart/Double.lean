import Mathlib.Tactic
import Mathlib.Data.Int.Log

/-!
# Doubles

The doubles of 64 bits by their values: a finite double is the rational number it stands
for, and the result of an operation is the exact result, rounded to 53 binary digits, ties
to even.  The sign of zero is left out.

Nothing here mentions the agent.
-/

namespace PlugAgente.Dart

/-- A double: a finite value, an infinity or not a number. -/
inductive Double where
  | finite (value : ℚ)
  | infinity (negative : Bool)
  | nan
  deriving DecidableEq, Repr

namespace Double

/-- The nearest integer, and the even one of two that are equally near. -/
def roundHalfEven (q : ℚ) : Int :=
  let rest := q - ⌊q⌋
  if rest < 1 / 2 then ⌊q⌋
  else if 1 / 2 < rest then ⌊q⌋ + 1
  else if ⌊q⌋ % 2 = 0 then ⌊q⌋
  else ⌊q⌋ + 1

/-- The weight of the last of the 53 binary digits of a number, as a power of two; numbers
close to zero have fewer digits. -/
def lastDigit (q : ℚ) : Int :=
  max (Int.log 2 |q| - 52) (-1074)

/-- The double that stands for a number. -/
@[irreducible]
def round (q : ℚ) : Double :=
  let unit : ℚ := 2 ^ lastDigit q
  let value : ℚ := roundHalfEven (q / unit) * unit
  if |value| < 2 ^ 1024 then .finite value else .infinity (q < 0)

/-- The conversion of an integer. -/
def ofInt (n : Int) : Double :=
  round n

/-- `/`. -/
def div : Double → Double → Double
  | finite a, finite b =>
    if b = 0 then (if a = 0 then nan else infinity (a < 0)) else round (a / b)
  | finite _, infinity _ => finite 0
  | infinity negative, finite b => infinity (negative != decide (b < 0))
  | infinity _, infinity _ => nan
  | nan, _ => nan
  | _, nan => nan

/-- `*`. -/
def mul : Double → Double → Double
  | finite a, finite b => round (a * b)
  | finite a, infinity negative =>
    if a = 0 then nan else infinity (negative != decide (a < 0))
  | infinity negative, finite b =>
    if b = 0 then nan else infinity (negative != decide (b < 0))
  | infinity n, infinity m => infinity (n != m)
  | nan, _ => nan
  | _, nan => nan

/-- `<`. -/
def lt : Double → Double → Bool
  | finite a, finite b => a < b
  | finite _, infinity negative => !negative
  | infinity negative, finite _ => negative
  | infinity n, infinity m => n && !m
  | nan, _ => false
  | _, nan => false

theorem lt_irrefl (a : Double) : a.lt a = false := by
  cases a with
  | finite a => simp [lt]
  | infinity negative => cases negative <;> rfl
  | nan => rfl

theorem lt_asymm {a b : Double} (h : a.lt b = true) : b.lt a = false := by
  cases a with
  | finite a =>
    cases b with
    | finite b =>
      have hlt : a < b := by simpa [lt] using h
      simpa [lt] using hlt.le
    | infinity negative => simpa [lt] using h
    | nan => rfl
  | infinity negative =>
    cases b with
    | finite b => simpa [lt] using h
    | infinity m =>
      obtain ⟨rfl, rfl⟩ : negative = true ∧ m = false := by simpa [lt] using h
      rfl
    | nan => rfl
  | nan => simp [lt] at h

theorem lt_smaller (a b : Double) :
    a.lt (if a.lt b then a else b) = false ∧ b.lt (if a.lt b then a else b) = false := by
  split
  · rename_i h
    exact ⟨lt_irrefl a, lt_asymm h⟩
  · rename_i h
    exact ⟨by simpa using h, lt_irrefl b⟩

/-- `floor`, which throws unless the double is finite. -/
def floor? : Double → Option Int
  | finite a => some ⌊a⌋
  | _ => none

end Double

/-- The double 4.6, times 25, is just below 115. -/
example : Double.mul (.ofInt 25) (.round (46 / 10)) =
    .finite (115 - 1 / 2 ^ 46) := by decide +kernel

end PlugAgente.Dart
