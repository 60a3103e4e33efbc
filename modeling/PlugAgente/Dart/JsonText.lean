import Mathlib.Tactic

/-!
# Texts of `dart:convert`

`jsonEncode` of the flat arrays and maps that the journals build, `base64Encode`, and
`utf8.encode`.  An item of an array is given as its text.
-/

namespace PlugAgente.Dart

/-- `utf8.encode`. -/
def utf8Encode (s : String) : List UInt8 :=
  s.toUTF8.toList

/-- `Uint8List.fromList`: the low eight bits of each integer. -/
def uint8List (values : List Int) : List UInt8 :=
  values.map UInt8.ofInt

/-! ## Base64 -/

/-- The digit of six bits. -/
def base64Digit (n : Nat) : Char :=
  "ABCDEFGHIJKLMNOPQRSTUVWXYZabcdefghijklmnopqrstuvwxyz0123456789+/".toList.getD n '='

/-- The digits of three bytes, or of the one or two that are left. -/
def base64Digits : List UInt8 → List Char
  | [] => []
  | [a] =>
    [base64Digit (a.toNat / 4), base64Digit (a.toNat % 4 * 16), '=', '=']
  | [a, b] =>
    [base64Digit (a.toNat / 4), base64Digit (a.toNat % 4 * 16 + b.toNat / 16),
      base64Digit (b.toNat % 16 * 4), '=']
  | a :: b :: c :: rest =>
    base64Digit (a.toNat / 4) :: base64Digit (a.toNat % 4 * 16 + b.toNat / 16) ::
      base64Digit (b.toNat % 16 * 4 + c.toNat / 64) :: base64Digit (c.toNat % 64) ::
      base64Digits rest

def base64Encode (bytes : List UInt8) : String :=
  String.ofList (base64Digits bytes)

example : base64Encode [0, 255, 13, 10] = "AP8NCg==" := by decide

/-! ## JSON -/

/-- A character of a JSON string: quotes, backslashes and control characters are escaped. -/
def jsonChar (c : Char) : List Char :=
  if c = '"' ∨ c = '\\' then ['\\', c]
  else if c.toNat = 8 then ['\\', 'b']
  else if c.toNat = 9 then ['\\', 't']
  else if c.toNat = 10 then ['\\', 'n']
  else if c.toNat = 12 then ['\\', 'f']
  else if c.toNat = 13 then ['\\', 'r']
  else if c.toNat < 32 then
    ['\\', 'u', '0', '0', Nat.digitChar (c.toNat / 16), Nat.digitChar (c.toNat % 16)]
  else [c]

/-- `jsonEncode` of a string. -/
def jsonString (s : String) : String :=
  String.ofList ('"' :: (s.toList.flatMap jsonChar ++ ['"']))

/-- `jsonEncode` of a boolean. -/
def jsonBool (b : Bool) : String :=
  if b then "true" else "false"

/-- `jsonEncode` of a list. -/
def jsonArray (items : List String) : String :=
  "[" ++ String.intercalate "," items ++ "]"

/-- `jsonEncode` of a map, as its keys and the texts of its values. -/
def jsonObject (entries : List (String × String)) : String :=
  "\x7b" ++ String.intercalate "," (entries.map fun entry => jsonString entry.1 ++ ":" ++ entry.2)
    ++ "\x7d"

end PlugAgente.Dart
