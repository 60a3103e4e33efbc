import PlugAgente.CapturedOutput.Pieces

/-!
# The two windows

Both windows are `fit (rest cs offset) n`: from the last border up to the offset, as many
characters as the bytes allow.  `sliceUtf8TextWindow` takes it from the whole text
(`sliceUtf8TextWindow_eq`) and `sliceStreamWindow` from the payloads of some rows next to each
other (`sliceStreamWindow_eq`).  Where no piece starts with a byte order mark these payloads are
a part of the text that holds the whole window, so the two agree; a piece that does start with
one leaves the rows three bytes short.
-/

namespace PlugAgente.CapturedOutput

open Dart Dart.Utf8

/-! ## A window inside a part of a text -/

section Parts

variable {before middle after : List Char} {offset n : Nat}

theorem fit_parts (after : List Char) (hbefore : size before ≤ offset) (hmiddle : offset ≤ size before + size middle) :
    fit (before ++ (middle ++ after)) offset = before ++ fit middle (offset - size before) := by
  rw [fit_append_of_ge hbefore, fit_append_of_le (by omega)]

theorem window_parts (hbefore : size before ≤ offset)
    (hmiddle : offset ≤ size before + size middle)
    (hafter : after = [] ∨ offset + n ≤ size before + size middle) :
    fit (rest (before ++ (middle ++ after)) offset) n =
      fit (rest middle (offset - size before)) n := by
  rw [rest_append_of_ge hbefore, rest_append_of_le (by omega)]
  rcases hafter with hnil | hle
  · rw [hnil, List.append_nil]
  · have hparts := size_fit_add_rest middle (offset - size before)
    have hfit : size (fit middle (offset - size before)) ≤ offset - size before := size_fit_le _ _
    exact fit_append_of_le (by omega)

end Parts

/-! ## The window of a text at hand -/

theorem clamp_of_mem {x lower upper : Int} (hlower : lower ≤ x) (hupper : x ≤ upper) :
    clamp x lower upper = x := by
  rw [clamp, if_neg (by omega), if_neg (by omega)]

theorem clamp_of_ge {x lower upper : Int} (hlower : lower ≤ upper) (hupper : upper ≤ x) :
    clamp x lower upper = upper := by
  rw [clamp, if_neg (by omega)]
  split <;> omega

theorem clamp_mem {x lower upper : Int} (h : lower ≤ upper) :
    lower ≤ clamp x lower upper ∧ clamp x lower upper ≤ upper := by
  rw [clamp]
  split
  · omega
  · split <;> omega

theorem add64_of_lt {a b : Nat} (h : a + b < 2 ^ 63) : add64 a b = a + b := by
  rw [add64]
  apply Int.bmod_eq_of_le <;> omega

/-- A sum of two integers that does not fit is negative. -/
theorem add64_of_le {a b : Nat} (ha : a < 2 ^ 63) (hb : b < 2 ^ 63) (h : 2 ^ 63 ≤ a + b) :
    add64 a b < 0 := by
  rw [add64, Int.bmod]
  split <;> omega

theorem alignUtf8StartOffset_eq (cs : List Char) (offset : Int) :
    alignUtf8StartOffset (bytesOf cs) offset =
      size (fit cs (clamp offset 0 (size cs)).toNat) := by
  have hmem := clamp_mem (x := offset) (Int.natCast_nonneg (size cs))
  rw [alignUtf8StartOffset, length_bytesOf]
  exact alignBack_eq cs (by omega)

theorem sliceUtf8TextWindow_eq (text : String) {offset : Int} {place n : Nat}
    (hplace : clamp offset 0 (size text.toList) = (place : Int)) (hlt : place < size text.toList)
    (hn : size (fit text.toList place) + n < 2 ^ 63) :
    sliceUtf8TextWindow text offset n = .ok
      { text := String.ofList (dropMark (fit (rest text.toList place) n))
        nextOffset := size (fit text.toList place) + size (fit (rest text.toList place) n)
        totalBytes := size text.toList
        responseTruncated :=
          size (fit text.toList place) + size (fit (rest text.toList place) n) < size text.toList
        effectiveStart := size (fit text.toList place) } := by
  have hstart : alignUtf8StartOffset (bytesOf text.toList) offset =
      size (fit text.toList place) := by
    rw [alignUtf8StartOffset_eq, hplace, Int.toNat_natCast]
  have hle : size (fit text.toList place) ≤ place := size_fit_le _ _
  have hparts := size_fit_add_rest text.toList place
  have hclamp : (clamp (add64 (size (fit text.toList place)) n) (size (fit text.toList place))
      (size text.toList)).toNat =
      size (fit text.toList place) + min n (size (rest text.toList place)) := by
    rw [add64_of_lt hn, clamp, if_neg (by omega)]
    split <;> omega
  have hlast := lastDecodable_eq (fit text.toList place) (rest text.toList place)
    (Nat.min_le_right n _)
  rw [fit_append_rest, fit_min] at hlast
  have hdecode := utf8Decode_fit (fit text.toList place) (rest text.toList place) n
  rw [fit_append_rest] at hdecode
  rw [sliceUtf8TextWindow]
  simp only [utf8Encode_eq, length_bytesOf, hstart, hclamp, hlast, hdecode]
  rw [if_neg (by omega)]

theorem sliceUtf8TextWindow_wrapped (text : String) {offset : Int} {place n : Nat}
    (hplace : clamp offset 0 (size text.toList) = (place : Int)) (hlt : place < size text.toList)
    (hwrapped : add64 (size (fit text.toList place)) n < 0) :
    sliceUtf8TextWindow text offset n = .ok
      { text := "", nextOffset := size (fit text.toList place)
        totalBytes := size text.toList, responseTruncated := true
        effectiveStart := size (fit text.toList place) } := by
  have hstart : alignUtf8StartOffset (bytesOf text.toList) offset =
      size (fit text.toList place) := by
    rw [alignUtf8StartOffset_eq, hplace, Int.toNat_natCast]
  have hle : size (fit text.toList place) ≤ place := size_fit_le _ _
  have hclamp : (clamp (add64 (size (fit text.toList place)) n) (size (fit text.toList place))
      (size text.toList)).toNat = size (fit text.toList place) := by
    rw [clamp, if_pos (by omega), Int.toNat_natCast]
  have hdecode := utf8Decode_fit (fit text.toList place) (rest text.toList place) 0
  have hzero : fit (rest text.toList place) 0 = [] :=
    size_eq_zero.mp (Nat.le_zero.mp (size_fit_le _ 0))
  rw [fit_append_rest, hzero, size_nil, Nat.add_zero] at hdecode
  rw [sliceUtf8TextWindow]
  simp only [utf8Encode_eq, length_bytesOf, hstart, hclamp, lastDecodable_self, hdecode]
  rw [if_neg (by omega), decide_eq_true (by omega)]
  rfl

theorem sliceUtf8TextWindow_end (text : String) {offset : Int}
    (hplace : clamp offset 0 (size text.toList) = size text.toList) (n : Int) :
    sliceUtf8TextWindow text offset n =
      .ok (emptyWindow (size text.toList) (size text.toList)) := by
  have hstart : alignUtf8StartOffset (bytesOf text.toList) offset = size text.toList := by
    rw [alignUtf8StartOffset_eq, hplace, Int.toNat_natCast, fit_size]
  rw [sliceUtf8TextWindow]
  simp only [utf8Encode_eq, length_bytesOf, hstart]
  rw [if_pos (Nat.le_refl _)]

end PlugAgente.CapturedOutput
