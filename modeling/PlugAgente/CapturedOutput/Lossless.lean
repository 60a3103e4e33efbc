import PlugAgente.CapturedOutput.Agreement

/-!
# What chunks keep of a text

The chunks of a text are its pieces without the byte order marks at their fronts (`split_eq`).
So `split` keeps the text, its indexes and its offsets exactly when no piece starts with a byte
order mark: `splits_lossless_iff`.
-/

namespace PlugAgente.CapturedOutput

open Dart Dart.Utf8

/-- What a list of chunks is meant to be: its payloads join to the text, and each chunk is counted
from the chunks before it, is not empty and takes at most `chunkSize` bytes. -/
structure Lossless (chunkSize : Nat) (text : String) (slices : List ChunkSlice) : Prop where
  joined : String.join (slices.map ChunkSlice.payload) = text
  counted : ∀ before slice after, slices = before ++ slice :: after →
    slice.chunkIndex = before.length ∧
      slice.utf8Offset = (before.map fun s => (utf8Encode s.payload).length).sum
  sized : ∀ slice ∈ slices,
    slice.payload ≠ "" ∧ (utf8Encode slice.payload).length ≤ chunkSize

theorem size_le_of_mem_pieces {n : Nat} (hn : 4 ≤ n) {cs piece : List Char}
    (h : piece ∈ pieces n cs) : size piece ≤ n := by
  induction hlength : cs.length using Nat.strong_induction_on generalizing cs with
  | _ length ih =>
    rw [pieces_eq hn] at h
    by_cases hne : cs = []
    · rw [if_pos hne] at h
      cases h
    · have hlt : (rest cs n).length < length := hlength ▸ length_rest_lt hn hne
      rw [if_neg hne] at h
      rcases List.mem_cons.mp h with hfirst | hlater
      · rw [hfirst]
        exact size_fit_le cs n
      · exact ih _ hlt hlater rfl

/-! ## Chunks of pieces -/

theorem toList_join (texts : List String) :
    (String.join texts).toList = (texts.map String.toList).flatten := by
  simp [String.toList_join, List.flatMap_def]

theorem map_payload_slicesOf (index offset : Nat) (ps : List (List Char)) :
    (slicesOf index offset ps).map ChunkSlice.payload =
      ps.map fun piece => String.ofList (dropMark piece) := by
  induction ps generalizing index offset with
  | nil => rfl
  | cons piece ps ih => rw [slicesOf, List.map_cons, ih, List.map_cons]

theorem size_flatten (ps : List (List Char)) : size ps.flatten = (ps.map size).sum := by
  induction ps with
  | nil => rfl
  | cons piece ps ih => rw [List.flatten_cons, size_append, ih, List.map_cons, List.sum_cons]

theorem exists_piece_of_slice {index offset : Nat} {ps : List (List Char)}
    {before after : List ChunkSlice} {slice : ChunkSlice}
    (h : slicesOf index offset ps = before ++ slice :: after) :
    ∃ front piece back, ps = front ++ piece :: back ∧ before = slicesOf index offset front ∧
      slice = { chunkIndex := index + front.length, utf8Offset := offset + size front.flatten,
                payload := String.ofList (dropMark piece) } := by
  induction ps generalizing index offset before with
  | nil => simp [slicesOf] at h
  | cons piece ps ih =>
    rw [slicesOf] at h
    cases before with
    | nil =>
      rw [List.nil_append, List.cons.injEq] at h
      exact ⟨[], piece, ps, rfl, rfl, h.1.symm⟩
    | cons first before =>
      rw [List.cons_append, List.cons.injEq] at h
      obtain ⟨hfirst, hlater⟩ := h
      obtain ⟨front, piece', back, rfl, rfl, rfl⟩ := ih hlater
      refine ⟨piece :: front, piece', back, rfl, ?_, ?_⟩
      · rw [slicesOf, hfirst]
      · rw [List.length_cons, List.flatten_cons, size_append]
        congr 1 <;> omega

/-! ## The chunks of a text -/

section Text

variable {n : Nat} (hn : 4 ≤ n) {text : String}

include hn

theorem unmarked_of_joined
    (h : ((pieces n text.toList).map dropMark).flatten = text.toList) : Unmarked n text := by
  intro piece hpiece hmark
  have hshorter : ∀ ps : List (List Char), size (ps.map dropMark).flatten ≤ size ps.flatten := by
    intro ps
    induction ps with
    | nil => exact le_rfl
    | cons first ps ih =>
      have hfirst := size_dropMark_le first
      simp only [List.map_cons, List.flatten_cons, size_append]
      omega
  obtain ⟨front, back, hpieces⟩ := List.append_of_mem hpiece
  have hflat := flatten_pieces hn text.toList
  have hmarked := dropMark_of_eq hmark
  have hfront := hshorter front
  have hback := hshorter back
  have hsize := congrArg size (h.trans hflat.symm)
  rw [hpieces] at hsize
  simp only [List.map_append, List.map_cons, List.flatten_append, List.flatten_cons,
    size_append] at hsize
  omega

omit hn in
theorem map_dropMark_of_unmarked (h : Unmarked n text) (front : List (List Char))
    (hsub : ∀ piece ∈ front, piece ∈ pieces n text.toList) : front.map dropMark = front := by
  rw [List.map_congr_left fun piece hpiece => dropMark_of_ne (h piece (hsub piece hpiece))]
  exact List.map_id' front

theorem lossless_iff :
    Lossless n text (slicesOf 0 0 (pieces n text.toList)) ↔ Unmarked n text := by
  have hpayloads : String.join ((slicesOf 0 0 (pieces n text.toList)).map ChunkSlice.payload) =
      text ↔ ((pieces n text.toList).map dropMark).flatten = text.toList := by
    rw [← String.toList_inj, toList_join, map_payload_slicesOf, List.map_map]
    simp [Function.comp_def]
  constructor
  · intro h
    exact unmarked_of_joined hn (hpayloads.mp h.joined)
  · intro h
    have hall := map_dropMark_of_unmarked h (pieces n text.toList) fun _ hp => hp
    refine ⟨hpayloads.mpr (by rw [hall, flatten_pieces hn]), ?_, ?_⟩
    · intro before slice after hslices
      obtain ⟨front, piece, back, hpieces, rfl, rfl⟩ := exists_piece_of_slice hslices
      have hfront := map_dropMark_of_unmarked h front fun p hp => by
        rw [hpieces]
        exact List.mem_append_left _ hp
      refine ⟨?_, ?_⟩
      · have hlength := congrArg List.length (map_payload_slicesOf 0 0 front)
        simp only [List.length_map] at hlength
        rw [hlength, Nat.zero_add]
      · have hsum : (slicesOf 0 0 front).map (fun s => (utf8Encode s.payload).length) =
            front.map size := by
          have hmap := congrArg (List.map fun payload => (utf8Encode payload).length)
            (map_payload_slicesOf 0 0 front)
          rw [List.map_map, List.map_map] at hmap
          refine hmap.trans ?_
          conv_rhs => rw [← hfront, List.map_map]
          refine List.map_congr_left fun p _ => ?_
          simp [utf8Encode_ofList]
        show 0 + size front.flatten = _
        rw [hsum, Nat.zero_add, size_flatten]
    · intro slice hslice
      obtain ⟨before, after, hslices⟩ := List.append_of_mem hslice
      obtain ⟨front, piece, back, hpieces, -, rfl⟩ := exists_piece_of_slice hslices
      have hmem : piece ∈ pieces n text.toList := by simp [hpieces]
      rw [dropMark_of_ne (h piece hmem), utf8Encode_ofList, length_bytesOf]
      refine ⟨?_, size_le_of_mem_pieces hn hmem⟩
      rw [Ne, ← String.toList_inj, String.toList_ofList]
      exact ne_nil_of_mem_pieces hn hmem

end Text

/-- Splitting comes to an end for every text: each round goes on behind its chunk.  It keeps the
text exactly when no piece of it starts with a byte order mark. -/
theorem splits_lossless_iff {n : Nat} (hn : 4 ≤ n) (text : String) :
    Loop.EmitDecreasing (fun state => (utf8Encode text).length - state.1)
        (splitRound n (utf8Encode text)) ∧
      ((∃ slices, split n text = .ok slices ∧ Lossless n text slices) ↔ Unmarked n text) := by
  refine ⟨splitRound_decreasing n _, ?_⟩
  rw [split_eq hn]
  simp only [Except.ok.injEq, exists_eq_left']
  exact lossless_iff hn

/-- Chunks of the smallest size. -/
theorem splits_lossless_iff_four :
    Loop.EmitDecreasing (fun state => (utf8Encode "a").length - state.1)
        (splitRound 4 (utf8Encode "a")) ∧
      ((∃ slices, split 4 "a" = .ok slices ∧ Lossless 4 "a" slices) ↔ Unmarked 4 "a") :=
  splits_lossless_iff (by decide) "a"

/-- The chunk of a text that starts with a byte order mark is not the text. -/
theorem split_drops_mark :
    ¬ ∃ slices, split 4 (String.ofList [byteOrderMark, 'a']) = .ok slices ∧
      Lossless 4 (String.ofList [byteOrderMark, 'a']) slices := by
  rw [split_eq (by decide)]
  simp only [Except.ok.injEq, exists_eq_left']
  rw [lossless_iff (by decide), Unmarked, String.toList_ofList]
  intro h
  refine h (fit [byteOrderMark, 'a'] 4) ?_ (by decide)
  rw [pieces_eq (by decide), if_neg (by simp)]
  exact List.mem_cons_self

end PlugAgente.CapturedOutput
