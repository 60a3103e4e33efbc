import PlugAgente.CapturedOutput.Chunks

/-!
# The pieces of a text

`pieces n cs` cuts a text into pieces of at most `n` bytes, each as long as it can be.  The
chunker stores one row for each piece: `split_eq`.  A row starts where its piece starts, but its
payload is the piece without a byte order mark at its front, because `utf8.decode` drops it.
-/

namespace PlugAgente.CapturedOutput

open Dart Dart.Utf8

/-! ## The loops over the bytes of a text -/

theorem sublist_bytesOf (before cs : List Char) (k : Nat) :
    sublist (bytesOf (before ++ cs)) (size before) (size before + k) = (bytesOf cs).take k := by
  rw [sublist, bytesOf_append, List.drop_take, ← length_bytesOf before, List.drop_left,
    Nat.add_sub_cancel_left]

theorem utf8Decode_fit (before cs : List Char) (n : Nat) :
    utf8Decode (sublist (bytesOf (before ++ cs)) (size before) (size before + size (fit cs n))) =
      .ok (String.ofList (dropMark (fit cs n))) := by
  rw [sublist_bytesOf, take_bytesOf, utf8Decode_bytesOf]

theorem utf8Decode_take {cs : List Char} {k : Nat} (h : k ≤ size cs) :
    utf8Decode ((bytesOf cs).take k) =
      if size (fit cs k) = k then .ok (String.ofList (dropMark (fit cs k)))
      else .error .malformed := by
  rw [utf8Decode, charsOf?_take h]
  by_cases hborder : size (fit cs k) = k
  · rw [if_pos hborder, if_pos hborder]
  · rw [if_neg hborder, if_neg hborder]

theorem fit_pred {cs : List Char} {k : Nat} (h : size (fit cs (k + 1)) ≠ k + 1) :
    fit cs k = fit cs (k + 1) := by
  have hle : size (fit cs (k + 1)) ≤ k + 1 := size_fit_le cs (k + 1)
  exact fit_eq_of_le (by omega) (Nat.le_succ k)

theorem lastDecodable_self (bytes : List UInt8) (first : Nat) :
    lastDecodable bytes first first = first := by
  cases first with
  | zero => rfl
  | succ first => rw [lastDecodable, if_neg (by omega)]

theorem lastDecodable_eq (before cs : List Char) {k : Nat} (h : k ≤ size cs) :
    lastDecodable (bytesOf (before ++ cs)) (size before) (size before + k) =
      size before + size (fit cs k) := by
  induction k with
  | zero =>
    have hfit : size (fit cs 0) ≤ 0 := size_fit_le cs 0
    rw [Nat.add_zero, lastDecodable_self]
    omega
  | succ k ih =>
    rw [← Nat.add_assoc, lastDecodable, if_pos (by omega), Nat.add_assoc, sublist_bytesOf,
      utf8Decode_take h]
    by_cases hborder : size (fit cs (k + 1)) = k + 1
    · rw [if_pos hborder, hborder]
    · rw [if_neg hborder, ← fit_pred hborder]
      exact ih (by omega)

theorem decodeDown_eq (before cs : List Char) {k : Nat} (h : k ≤ size cs) :
    decodeDown (bytesOf (before ++ cs)) (size before) (size before + k) =
      (size before + size (fit cs k), String.ofList (dropMark (fit cs k))) := by
  induction k with
  | zero =>
    have hfit : fit cs 0 = [] := by
      rw [← size_eq_zero]
      exact Nat.le_zero.mp (size_fit_le cs 0)
    have hself : decodeDown (bytesOf (before ++ cs)) (size before) (size before) =
        (size before, "") := by
      cases size before with
      | zero => rfl
      | succ n => rw [decodeDown, if_neg (by omega)]
    rw [Nat.add_zero, hself, hfit]
    rfl
  | succ k ih =>
    rw [← Nat.add_assoc, decodeDown, if_pos (by omega), Nat.add_assoc, sublist_bytesOf,
      utf8Decode_take h]
    by_cases hborder : size (fit cs (k + 1)) = k + 1
    · rw [if_pos hborder, hborder]
    · rw [if_neg hborder, ← fit_pred hborder]
      exact ih (by omega)

theorem alignBack_eq (cs : List Char) {k : Nat} (h : k ≤ size cs) :
    alignBack (bytesOf cs) k = size (fit cs k) := by
  induction k with
  | zero =>
    have hfit : size (fit cs 0) ≤ 0 := size_fit_le cs 0
    rw [alignBack]
    omega
  | succ k ih =>
    cases hbyte : (bytesOf cs)[k + 1]? with
    | none =>
      have hsize : size cs ≤ k + 1 := by
        rw [← length_bytesOf]
        exact List.getElem?_eq_none_iff.mp hbyte
      rw [alignBack, hbyte, fit_of_size_le hsize]
      exact Nat.le_antisymm h hsize
    | some byte =>
      rw [alignBack, hbyte]
      by_cases hcontinues : continues byte
      · have hborder : size (fit cs (k + 1)) ≠ k + 1 := (continues_iff hbyte).mp hcontinues
        rw [← fit_pred hborder]
        simp only [hcontinues, if_true]
        exact ih (by omega)
      · have hborder : size (fit cs (k + 1)) = k + 1 := by
          by_contra hne
          exact hcontinues ((continues_iff hbyte).mpr hne)
        simp only [hcontinues, hborder]
        rfl

/-! ## Pieces -/

/-- A text cut into pieces of at most `n` bytes, each as long as it can be. -/
def pieces (n : Nat) (cs : List Char) : List (List Char) :=
  Loop.collect List.length
    (fun cs => if cs = [] then ([], none) else ([fit cs n], some (rest cs n))) cs

theorem length_rest_lt {n : Nat} (hn : 4 ≤ n) {cs : List Char} (hne : cs ≠ []) :
    (rest cs n).length < cs.length := by
  have hparts : (fit cs n ++ rest cs n).length = cs.length := by rw [fit_append_rest]
  have hfit : 0 < (fit cs n).length := List.length_pos_iff.mpr (fit_ne_nil hne hn)
  rw [List.length_append] at hparts
  omega

section Pieces

variable {n : Nat} (hn : 4 ≤ n)

include hn

theorem pieces_eq (cs : List Char) :
    pieces n cs = if cs = [] then [] else fit cs n :: pieces n (rest cs n) := by
  rw [pieces, Loop.collect_eq]
  · by_cases hne : cs = []
    · rw [if_pos hne, if_pos hne]
    · rw [if_neg hne, if_neg hne]
      rfl
  · intro cs out cs' hround
    by_cases hne : cs = []
    · rw [if_pos hne] at hround
      cases hround
    · rw [if_neg hne] at hround
      cases hround
      exact length_rest_lt hn hne

theorem flatten_pieces (cs : List Char) : (pieces n cs).flatten = cs := by
  induction hlength : cs.length using Nat.strong_induction_on generalizing cs with
  | _ length ih =>
    rw [pieces_eq hn]
    by_cases hne : cs = []
    · rw [if_pos hne, hne]
      rfl
    · have hlt : (rest cs n).length < length := hlength ▸ length_rest_lt hn hne
      rw [if_neg hne, List.flatten_cons, ih _ hlt _ rfl, fit_append_rest]

theorem ne_nil_of_mem_pieces {cs piece : List Char} (h : piece ∈ pieces n cs) : piece ≠ [] := by
  induction hlength : cs.length using Nat.strong_induction_on generalizing cs with
  | _ length ih =>
    rw [pieces_eq hn] at h
    by_cases hne : cs = []
    · rw [if_pos hne] at h
      cases h
    · have hlt : (rest cs n).length < length := hlength ▸ length_rest_lt hn hne
      rw [if_neg hne] at h
      rcases List.mem_cons.mp h with hfirst | hlater
      · rw [hfirst]
        exact fit_ne_nil hne hn
      · exact ih _ hlt hlater rfl

end Pieces

/-! ## The rows of the chunker -/

/-- The chunks of pieces, the first with the index and offset given. -/
def slicesOf : Nat → Nat → List (List Char) → List ChunkSlice
  | _, _, [] => []
  | index, offset, piece :: more =>
    { chunkIndex := index, utf8Offset := offset, payload := String.ofList (dropMark piece) } ::
      slicesOf (index + 1) (offset + size piece) more

theorem splitRound_decreasing (chunkSize : Nat) (bytes : List UInt8) :
    Loop.EmitDecreasing (fun state => bytes.length - state.1) (splitRound chunkSize bytes) := by
  intro ⟨offset, index⟩ out next h
  by_cases hoffset : offset < bytes.length
  · have hnext : clamp (offset + 1) offset bytes.length = offset + 1 := by
      rw [clamp, if_neg (by omega), if_neg (by omega)]
    simp only [splitRound, if_pos hoffset, hnext] at h
    split at h
    · cases h
    · simp only [Except.ok.injEq, Prod.mk.injEq, Option.some.injEq] at h
      rw [← h.2]
      -- a round that found nothing to decode still takes one byte
      show bytes.length - _ < bytes.length - offset
      split <;> omega
  · simp only [splitRound, if_neg hoffset] at h
    cases h

theorem splitRound_eq {n : Nat} (hn : 4 ≤ n) (before : List Char) {cs : List Char} (hne : cs ≠ [])
    (index : Nat) :
    splitRound n (bytesOf (before ++ cs)) (size before, index) =
      .ok ([⟨index, size before, String.ofList (dropMark (fit cs n))⟩],
        some (size before + size (fit cs n), index + 1)) := by
  have hcs : 0 < size cs := size_pos hne
  have hfit : 0 < size (fit cs n) := size_pos (fit_ne_nil hne hn)
  have hlength : (bytesOf (before ++ cs)).length = size before + size cs := by
    rw [length_bytesOf, size_append]
  have hclamp : clamp (size before + n) (size before) (size before + size cs) =
      size before + min n (size cs) := by
    rw [clamp, if_neg (by omega)]
    split <;> omega
  have hlast : lastDecodable (bytesOf (before ++ cs)) (size before)
      (size before + min n (size cs)) = size before + size (fit cs n) := by
    rw [lastDecodable_eq before cs (Nat.min_le_right _ _), fit_min]
  rw [splitRound]
  simp only [hlength, hclamp, hlast]
  rw [if_pos (by omega), if_neg (by omega), utf8Decode_fit]

theorem emit_splitRound {n : Nat} (hn : 4 ≤ n) (before cs : List Char) (index : Nat) :
    Loop.emit (fun state => (bytesOf (before ++ cs)).length - state.1)
        (splitRound n (bytesOf (before ++ cs))) (size before, index) =
      .ok (slicesOf index (size before) (pieces n cs)) := by
  induction hlength : cs.length using Nat.strong_induction_on generalizing before cs index with
  | _ length ih =>
    rw [pieces_eq hn]
    by_cases hne : cs = []
    · have hend : ¬ size before < (bytesOf (before ++ cs)).length := by
        rw [length_bytesOf, hne, List.append_nil]
        omega
      rw [Loop.emit_eq (splitRound_decreasing _ _), splitRound, if_neg hend, if_pos hne]
      rfl
    · have hlt : (rest cs n).length < length := hlength ▸ length_rest_lt hn hne
      have hmore := ih _ hlt (before ++ fit cs n) (rest cs n) (index + 1) rfl
      rw [List.append_assoc, fit_append_rest, size_append] at hmore
      rw [Loop.emit_next (splitRound_decreasing _ _) (splitRound_eq hn before hne index), hmore,
        if_neg hne]
      rfl

theorem split_eq {n : Nat} (hn : 4 ≤ n) (text : String) :
    split n text = .ok (slicesOf 0 0 (pieces n text.toList)) := by
  have h := emit_splitRound hn [] text.toList 0
  rw [List.nil_append, size_nil, ← utf8Encode_eq] at h
  exact h

theorem le_clamp {x lower upper : Nat} (h : lower ≤ upper) : lower ≤ clamp x lower upper := by
  rw [clamp]
  split
  · exact Nat.le_refl lower
  · split <;> omega

theorem four_le_chunkPayloadUtf8Bytes (parsed : Option Int) :
    4 ≤ chunkPayloadUtf8Bytes parsed := by
  have h : 4096 ≤ chunkPayloadUtf8Bytes parsed := le_clamp (by decide)
  omega

end PlugAgente.CapturedOutput
