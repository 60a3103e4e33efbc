import PlugAgente.CapturedOutput.StreamRows
import PlugAgente.CapturedOutput.Windows

/-!
# The two windows agree

The window read from the rows of a stream is the window of its text, unless a piece of the text
starts with a byte order mark.  The decoder drops the mark when the chunker builds the payload,
so the rows from there on lie three bytes away from the text.
-/

namespace PlugAgente.CapturedOutput

open Dart Dart.Utf8

/-- Two windows with the same payload, next offset and has-more flag. -/
def SameWindow (ofRows : Option CapturedOutputUtf8Window)
    (ofText : Except FormatException CapturedOutputUtf8Window) : Prop :=
  ∃ v w, ofRows = some v ∧ ofText = .ok w ∧ v.text = w.text ∧ v.nextOffset = w.nextOffset ∧
    v.responseTruncated = w.responseTruncated

/-- The end of a window that starts inside the text is an integer of 64 bits. -/
def EndFits (text : String) (offset maxBytes : Int) : Prop :=
  clamp offset 0 (size text.toList) < size text.toList →
    clamp offset 0 (size text.toList) + maxBytes < 2 ^ 63

/-- No piece of the text starts with a byte order mark. -/
def Unmarked (chunkSize : Nat) (text : String) : Prop :=
  ∀ piece ∈ pieces chunkSize text.toList, piece.head? ≠ some byteOrderMark

/-- Only a byte order mark is left of the text, and the window takes it. -/
def OnlyMarkLeft (text : String) (offset maxBytes : Int) : Prop :=
  let place := (clamp offset 0 (size text.toList)).toNat
  rest text.toList place = [byteOrderMark] ∧
    (size text.toList : Int) ≤ size (fit text.toList place) + maxBytes ∧
    size (fit text.toList place) + maxBytes < 2 ^ 63

theorem filter_replaceStream {n : Nat} (hn : 4 ≤ n) {table table' : List ChunkRow}
    {executionId stream text : String}
    (h : replaceStream n table executionId stream text = .ok table') :
    table'.filter (ChunkRow.isOf executionId stream) =
      rowsOf executionId stream 0 0 (pieces n text.toList) := by
  rw [replaceStream] at h
  simp only [split_eq hn, Except.ok.injEq] at h
  have hkept : (table.filter fun row => !row.isOf executionId stream).filter
      (ChunkRow.isOf executionId stream) = [] := by
    rw [List.filter_filter, List.filter_eq_nil_iff]
    intro row _
    simp
  have hall : (rowsOf executionId stream 0 0 (pieces n text.toList)).filter
      (ChunkRow.isOf executionId stream) = rowsOf executionId stream 0 0 (pieces n text.toList) := by
    rw [List.filter_eq_self]
    intro row hrow
    exact isOf_of_mem hrow
  rw [← h, List.filter_append, hkept, List.nil_append]
  exact hall

theorem replaceStream_ok {n : Nat} (hn : 4 ≤ n) (table : List ChunkRow)
    (executionId stream text : String) :
    ∃ table', replaceStream n table executionId stream text = .ok table' := by
  rw [replaceStream]
  simp only [split_eq hn]
  exact ⟨_, rfl⟩

theorem sliceStreamWindow_none {table : List ChunkRow} {executionId stream : String}
    (hrows : table.filter (ChunkRow.isOf executionId stream) = []) (offset maxBytes : Int) :
    sliceStreamWindow table executionId stream offset maxBytes = none := by
  rw [sliceStreamWindow]
  dsimp only
  rw [hrows, List.mergeSort_nil]
  rfl

/-! ## Payloads -/

theorem payloadsOf_of_unmarked {ps : List (List Char)}
    (h : ∀ p ∈ ps, p.head? ≠ some byteOrderMark) : payloadsOf ps = ps.flatten := by
  have hmap : ps.map dropMark = ps.map id := List.map_congr_left fun p hp => dropMark_of_ne (h p hp)
  rw [payloadsOf, hmap, List.map_id]

theorem size_payloadsOf_le (ps : List (List Char)) : size (payloadsOf ps) ≤ size ps.flatten := by
  induction ps with
  | nil => exact Nat.le_refl 0
  | cons p ps ih =>
    have hp : size (dropMark p) ≤ size p := size_dropMark_le p
    rw [payloadsOf] at ih ⊢
    rw [List.map_cons, List.flatten_cons, List.flatten_cons, size_append, size_append]
    omega

/-! ## The window of the rows -/

theorem rowsWindow_eq (total start : Nat) {place n : Nat} {cs : List Char} (hlow : start ≤ place)
    (hhigh : place ≤ start + size cs) (hn : place + n < 2 ^ 63) :
    rowsWindow total start place (bytesOf cs) n =
      { text := String.ofList (dropMark (fit (rest cs (place - start)) n))
        nextOffset := start + (size (fit cs (place - start)) + size (fit (rest cs (place - start)) n))
        totalBytes := total
        responseTruncated :=
          start + (size (fit cs (place - start)) + size (fit (rest cs (place - start)) n)) < total
        effectiveStart := start + size (fit cs (place - start)) } := by
  have hstart : alignUtf8StartOffset (bytesOf cs) ((place : Int) - (start : Int)) =
      size (fit cs (place - start)) := by
    rw [alignUtf8StartOffset_eq, clamp_of_mem (by omega) (by omega)]
    congr 2
    omega
  have hle : size (fit cs (place - start)) ≤ place - start := size_fit_le _ _
  have hparts := size_fit_add_rest cs (place - start)
  have hmin : (min (add64 (size (fit cs (place - start))) n) (size cs)).toNat =
      size (fit cs (place - start)) + min n (size (rest cs (place - start))) := by
    rw [add64_of_lt (by omega)]
    omega
  have hdown := decodeDown_eq (fit cs (place - start)) (rest cs (place - start))
    (Nat.min_le_right n _)
  rw [fit_append_rest, fit_min] at hdown
  rw [rowsWindow]
  simp only [hstart, decodeUtf8Window, length_bytesOf, hmin, hdown]

theorem decodeDown_le (bytes : List UInt8) (start last : Nat) :
    (decodeDown bytes start last).1 ≤ max start last := by
  induction last with
  | zero => exact Nat.le_max_left _ _
  | succ last ih =>
    rw [decodeDown]
    split
    · split
      · exact Nat.le_max_right _ _
      · omega
    · exact Nat.le_max_left _ _

theorem nextOffset_rowsWindow_le (total start place : Nat) (cs : List Char) (maxBytes : Int) :
    (rowsWindow total start place (bytesOf cs) maxBytes).nextOffset ≤ start + size cs := by
  have hstart : alignUtf8StartOffset (bytesOf cs) ((place : Int) - (start : Int)) ≤ size cs := by
    have hfit := size_fit_le cs (clamp ((place : Int) - (start : Int)) 0 (size cs)).toNat
    have hmem := clamp_mem (x := (place : Int) - (start : Int)) (Int.natCast_nonneg (size cs))
    rw [alignUtf8StartOffset_eq]
    omega
  have hdown := decodeDown_le (bytesOf cs)
    (alignUtf8StartOffset (bytesOf cs) ((place : Int) - (start : Int)))
    (min (add64 (alignUtf8StartOffset (bytesOf cs) ((place : Int) - (start : Int))) maxBytes)
      (size cs)).toNat
  simp only [rowsWindow, decodeUtf8Window, length_bytesOf]
  omega

/-! ## Rows of a text -/

section Stored

variable {n : Nat} (hn : 4 ≤ n) {table : List ChunkRow} {executionId stream text : String}
  {front : List (List Char)} {last : List Char}
  (hrows : table.filter (ChunkRow.isOf executionId stream) =
    rowsOf executionId stream 0 0 (front ++ [last]))
  (htext : front.flatten ++ last = text.toList) (hne : ∀ p ∈ front ++ [last], p ≠ [])

theorem exists_last_piece (hn : 4 ≤ n) (hempty : text ≠ "") :
    ∃ front last, pieces n text.toList = front ++ [last] ∧ front.flatten ++ last = text.toList ∧
      ∀ p ∈ front ++ [last], p ≠ [] := by
  have hflatten := flatten_pieces hn text.toList
  rcases List.eq_nil_or_concat (pieces n text.toList) with hnil | ⟨front, last, hconcat⟩
  · rw [hnil, List.flatten_nil] at hflatten
    exact absurd (String.toList_eq_nil_iff.mp hflatten.symm) hempty
  · rw [List.concat_eq_append] at hconcat
    refine ⟨front, last, hconcat, ?_, ?_⟩
    · rw [hconcat, List.flatten_append, List.flatten_singleton] at hflatten
      exact hflatten
    · intro p hp
      rw [← hconcat] at hp
      exact ne_nil_of_mem_pieces hn hp

theorem toList_parts (htext : front.flatten ++ last = text.toList)
    {before shown back after : List (List Char)} {piece : List Char}
    (hsplit : front ++ [last] = before ++ piece :: after) (hafter : after = shown ++ back) :
    text.toList = before.flatten ++ ((piece :: shown).flatten ++ back.flatten) := by
  have hflatten : (front ++ [last]).flatten = text.toList := by
    rw [List.flatten_append, List.flatten_singleton, htext]
  rw [← hflatten, hsplit, hafter, List.flatten_append, ← List.cons_append, List.flatten_append]

include hrows htext hne

/-- Without a byte order mark at the front of a piece the window of the rows is the window of the
text. -/
theorem sameWindow_of_unmarked (hunmarked : ∀ p ∈ front ++ [last], p.head? ≠ some byteOrderMark)
    {offset maxBytes : Int} (hpos : 1 ≤ maxBytes) (hfits : EndFits text offset maxBytes) :
    SameWindow (sliceStreamWindow table executionId stream offset maxBytes)
      (sliceUtf8TextWindow text offset maxBytes) := by
  have htotal : storedBytes front last = size text.toList := by
    rw [storedBytes, dropMark_of_ne (hunmarked last (by simp)), ← htext, size_append]
  have hmem := clamp_mem (x := offset) (Int.natCast_nonneg (size text.toList))
  obtain ⟨place, hplace⟩ := Int.eq_ofNat_of_zero_le hmem.1
  obtain ⟨m, rfl⟩ : ∃ m : Nat, maxBytes = m := ⟨maxBytes.toNat, by omega⟩
  rcases Nat.lt_or_ge place (size text.toList) with hlt | hge
  · have hsum : (place : Int) + m < 2 ^ 63 := by
      have h := hfits (by omega)
      omega
    have hflatten : size (front ++ [last]).flatten = size text.toList := by
      rw [List.flatten_append, List.flatten_singleton, htext]
    obtain ⟨before, piece, after, hsplit, hlow, hhigh⟩ :=
      exists_piece (front ++ [last]) 0 (Nat.zero_le place) (by omega)
    rw [Nat.zero_add] at hlow hhigh
    have hadd : add64 place m = place + m := add64_of_lt (by omega)
    obtain ⟨shown, back, hafter, hend, hwindow⟩ := sliceStreamWindow_rows hrows hsplit hne m
      (htotal ▸ hplace) (htotal ▸ hlt) hlow hhigh (by rw [hadd, htotal]; omega)
    have hparts := toList_parts htext hsplit hafter
    have hpayloads : payloadsOf (piece :: shown) = (piece :: shown).flatten := by
      apply payloadsOf_of_unmarked
      intro p hp
      refine hunmarked p ?_
      rw [hsplit, hafter, ← List.cons_append]
      exact List.mem_append_right _ (List.mem_append_left _ hp)
    have hsize := congrArg size hparts
    rw [size_append, size_append] at hsize
    have hpiece : size piece ≤ size (piece :: shown).flatten := by
      rw [List.flatten_cons, size_append]
      omega
    -- what follows the shown rows is empty, or lies past the end of the window
    have hafterwards : back.flatten = [] ∨
        place + m ≤ size before.flatten + size (piece :: shown).flatten := by
      rcases hend with hnil | hle
      · exact Or.inl (by rw [hnil]; rfl)
      · rw [hadd, htotal] at hle
        rcases Nat.eq_zero_or_pos (size back.flatten) with hzero | hmore
        · exact Or.inl (size_eq_zero.mp hzero)
        · right
          omega
    rw [rowsWindow_eq _ _ hlow (by rw [hpayloads]; omega) (by omega), hpayloads] at hwindow
    have hfit := fit_parts back.flatten hlow
      (by omega : place ≤ size before.flatten + size (piece :: shown).flatten)
    have hrest := window_parts (n := m) hlow
      (by omega : place ≤ size before.flatten + size (piece :: shown).flatten) hafterwards
    rw [← hparts] at hfit hrest
    have hstart : size (fit text.toList place) ≤ place := size_fit_le _ _
    refine ⟨_, _, hwindow, sliceUtf8TextWindow_eq text hplace hlt (by omega), ?_, ?_, ?_⟩
    · rw [hrest]
    · rw [hrest, hfit, size_append, Nat.add_assoc]
    · rw [hrest, hfit, size_append, Nat.add_assoc, htotal]
  · have hall : clamp offset 0 (size text.toList) = size text.toList := by omega
    refine ⟨_, _, sliceStreamWindow_end hrows (fun p hp => hne p (List.mem_append_left _ hp))
      (htotal ▸ hall) m, sliceUtf8TextWindow_end text hall m, rfl, ?_, rfl⟩
    rw [htotal]

theorem nextOffset_lt_of_marked {before after : List (List Char)} {piece : List Char}
    (hsplit : front ++ [last] = before ++ piece :: after)
    (hmark : piece.head? = some byteOrderMark) {m : Nat} (hm : size before.flatten + m < 2 ^ 63)
    (hend : size before.flatten + m = size text.toList) {w : CapturedOutputUtf8Window}
    (hw : sliceStreamWindow table executionId stream (size before.flatten) m = some w) :
    w.nextOffset < size text.toList := by
  have hpiece := dropMark_of_eq hmark
  have htotal := congrArg size (toList_parts htext hsplit (by simp : after = after ++ []))
  rw [size_append, size_append, List.flatten_cons, size_append, List.flatten_nil,
    size_nil] at htotal
  have hstored : storedBytes front last ≤ size text.toList := by
    have hlast : size (dropMark last) ≤ size last := size_dropMark_le last
    rw [storedBytes, ← htext, size_append]
    omega
  rcases Nat.lt_or_ge (size before.flatten) (storedBytes front last) with hlt | hge
  · have hclamp : clamp (size before.flatten : Int) 0 (storedBytes front last) =
        (size before.flatten : Int) := clamp_of_mem (by omega) (by omega)
    have hinside : size before.flatten < size before.flatten + size piece := by omega
    have hbound : (size before.flatten : Int) <
        min (add64 (size before.flatten) m) (storedBytes front last) := by
      rw [add64_of_lt hm]
      omega
    obtain ⟨shown, back, hafter, -, hrowsWindow⟩ := sliceStreamWindow_rows hrows hsplit hne m
      hclamp hlt (Nat.le_refl _) hinside hbound
    rw [hrowsWindow, Option.some.injEq] at hw
    have hle := nextOffset_rowsWindow_le (storedBytes front last) (size before.flatten)
      (size before.flatten) (payloadsOf (piece :: shown)) m
    have hshown := size_payloadsOf_le shown
    have hafterSize := congrArg (fun ps : List (List Char) => size ps.flatten) hafter
    simp only [List.flatten_append, size_append] at hafterSize
    rw [hw, payloadsOf, List.map_cons, List.flatten_cons, size_append] at hle
    rw [payloadsOf] at hshown
    omega
  · have hfront : ∀ p ∈ front, p ≠ [] := fun p hp => hne p (List.mem_append_left _ hp)
    rw [sliceStreamWindow_end hrows hfront (clamp_of_ge (by omega) (by omega)),
      Option.some.injEq] at hw
    have hnext : w.nextOffset = storedBytes front last := by rw [← hw]; rfl
    omega

theorem not_sameWindow_of_marked {before after : List (List Char)} {piece : List Char}
    (hsplit : front ++ [last] = before ++ piece :: after)
    (hmark : piece.head? = some byteOrderMark) {m : Nat} (hm : size before.flatten + m < 2 ^ 63)
    (hend : size before.flatten + m = size text.toList) :
    ¬ SameWindow (sliceStreamWindow table executionId stream (size before.flatten) m)
      (sliceUtf8TextWindow text (size before.flatten) m) := by
  have hpiece := dropMark_of_eq hmark
  have hparts := toList_parts htext hsplit (by simp : after = after ++ [])
  have hstart : fit text.toList (size before.flatten) = before.flatten := by
    rw [hparts, fit_append_of_le (Nat.le_refl _), fit_size]
  have hrest := size_fit_add_rest text.toList (size before.flatten)
  have htotal := congrArg size hparts
  rw [size_append, size_append, List.flatten_cons, size_append] at htotal
  rw [hstart] at hrest
  have hplace : clamp (size before.flatten : Int) 0 (size text.toList) =
      (size before.flatten : Int) := clamp_of_mem (by omega) (by omega)
  have hwindow := sliceUtf8TextWindow_eq text (n := m) hplace (by omega) (by rw [hstart]; exact hm)
  rw [hstart, fit_of_size_le (by omega)] at hwindow
  intro ⟨v, w, hv, hw, _, hnext, _⟩
  rw [hwindow, Except.ok.injEq] at hw
  have hlt := nextOffset_lt_of_marked hrows htext hne hsplit hmark hm hend hv
  have hreached : w.nextOffset = size text.toList := by
    rw [← hw]
    exact hrest
  omega

/-- Where the sum of offset and bytes wraps around, the rows give nothing and the end of the
stream. -/
theorem sameWindow_wrapped_iff (hunmarked : ∀ p ∈ front ++ [last], p.head? ≠ some byteOrderMark)
    {offset maxBytes : Int} (hsize : size text.toList < 2 ^ 63) (hmax : maxBytes < 2 ^ 63)
    (hfits : ¬ EndFits text offset maxBytes) :
    SameWindow (sliceStreamWindow table executionId stream offset maxBytes)
      (sliceUtf8TextWindow text offset maxBytes) ↔ OnlyMarkLeft text offset maxBytes := by
  have htotal : storedBytes front last = size text.toList := by
    rw [storedBytes, dropMark_of_ne (hunmarked last (by simp)), ← htext, size_append]
  have hmem := clamp_mem (x := offset) (Int.natCast_nonneg (size text.toList))
  obtain ⟨place, hplace⟩ := Int.eq_ofNat_of_zero_le hmem.1
  rw [EndFits, Classical.not_imp, hplace] at hfits
  obtain ⟨m, rfl⟩ : ∃ m : Nat, maxBytes = m := ⟨maxBytes.toNat, by omega⟩
  have hlt : place < size text.toList := by omega
  have hflatten : size (front ++ [last]).flatten = size text.toList := by
    rw [List.flatten_append, List.flatten_singleton, htext]
  obtain ⟨before, piece, after, hsplit, hlow, hhigh⟩ :=
    exists_piece (front ++ [last]) 0 (Nat.zero_le place) (by omega)
  rw [Nat.zero_add] at hlow hhigh
  have hwrapped : add64 place m < 0 := add64_of_le (by omega) (by omega) (by omega)
  have hofRows := sliceStreamWindow_wrapped hrows hsplit hne (htotal ▸ hplace) (htotal ▸ hlt) hlow
    hhigh hwrapped
  have hstart : size (fit text.toList place) ≤ place := size_fit_le _ _
  have hrest := size_fit_add_rest text.toList place
  have hleft : OnlyMarkLeft text offset m ↔ rest text.toList place = [byteOrderMark] ∧
      size text.toList ≤ size (fit text.toList place) + m ∧
      size (fit text.toList place) + m < 2 ^ 63 := by
    rw [OnlyMarkLeft, hplace]
    simp only [Int.toNat_natCast]
    refine and_congr_right fun _ => ?_
    omega
  rw [hleft, SameWindow, hofRows]
  by_cases hsum : size (fit text.toList place) + m < 2 ^ 63
  · rw [sliceUtf8TextWindow_eq text hplace hlt hsum]
    constructor
    · intro ⟨v, w, hv, hw, htextEq, hnext, _⟩
      rw [Option.some.injEq] at hv
      rw [Except.ok.injEq] at hw
      rw [← hv, ← hw] at htextEq hnext
      have hend : storedBytes front last =
          size (fit text.toList place) + size (fit (rest text.toList place) m) := hnext
      have hm : size (fit (rest text.toList place) m) ≤ m := size_fit_le _ _
      have hnothing : dropMark (fit (rest text.toList place) m) = [] :=
        String.ofList_injective htextEq.symm
      rw [fit_of_size_le (by omega), dropMark_eq_nil] at hnothing
      rcases hnothing with hnil | hmark
      · rw [hnil, size_nil] at hrest
        omega
      · refine ⟨hmark, by omega, hsum⟩
    · intro ⟨hmark, hall, _⟩
      rw [fit_of_size_le (by omega)]
      refine ⟨_, _, rfl, rfl, ?_, ?_, ?_⟩
      · rw [hmark]
        rfl
      · show storedBytes front last =
          size (fit text.toList place) + size (rest text.toList place)
        omega
      · show false = _
        rw [hrest, decide_eq_false (by omega)]
  · rw [sliceUtf8TextWindow_wrapped text hplace hlt (add64_of_le (by omega) (by omega) (by omega))]
    constructor
    · intro ⟨v, w, hv, hw, _, hnext, _⟩
      rw [Option.some.injEq] at hv
      rw [Except.ok.injEq] at hw
      rw [← hv, ← hw] at hnext
      have heq : storedBytes front last = size (fit text.toList place) := hnext
      omega
    · intro h
      omega

end Stored

/-! ## The agreement -/

/-- Storing a text never fails, and the rows then give the windows of the text for every offset
and every number of bytes exactly when the text is not empty and none of its pieces starts with a
byte order mark.  Where the end of a window does not fit in 64 bits they give another window,
unless only a byte order mark is left. -/
theorem windows_agree (parsed : Option Int) (table : List ChunkRow)
    (executionId stream text : String) (hsize : (utf8Encode text).length < 2 ^ 63) :
    ∃ table', replaceStream (chunkPayloadUtf8Bytes parsed) table executionId stream text =
        .ok table' ∧
      ((∀ offset maxBytes, 1 ≤ maxBytes → EndFits text offset maxBytes →
          SameWindow (sliceStreamWindow table' executionId stream offset maxBytes)
            (sliceUtf8TextWindow text offset maxBytes)) ↔
        text ≠ "" ∧ Unmarked (chunkPayloadUtf8Bytes parsed) text) ∧
      (text ≠ "" → Unmarked (chunkPayloadUtf8Bytes parsed) text →
        ∀ offset maxBytes, maxBytes < 2 ^ 63 → ¬ EndFits text offset maxBytes →
          (SameWindow (sliceStreamWindow table' executionId stream offset maxBytes)
            (sliceUtf8TextWindow text offset maxBytes) ↔ OnlyMarkLeft text offset maxBytes)) := by
  have hn : 4 ≤ chunkPayloadUtf8Bytes parsed := four_le_chunkPayloadUtf8Bytes parsed
  rw [utf8Encode_eq, length_bytesOf] at hsize
  obtain ⟨table', hstore⟩ := replaceStream_ok hn table executionId stream text
  have hrows := filter_replaceStream hn hstore
  refine ⟨table', hstore, ⟨?_, ?_⟩, ?_⟩
  · intro hall
    have hempty : text ≠ "" := by
      intro hempty
      obtain ⟨v, w, hv, -⟩ := hall 0 1 (by decide) (by simp [EndFits, hempty, clamp])
      rw [hempty, pieces_eq hn, if_pos String.toList_empty, rowsOf_nil] at hrows
      rw [sliceStreamWindow_none hrows] at hv
      cases hv
    refine ⟨hempty, ?_⟩
    intro piece hpiece hmark
    obtain ⟨front, last, hpieces, htext, hne⟩ := exists_last_piece hn hempty
    rw [hpieces] at hrows hpiece
    obtain ⟨before, after, hsplit⟩ := List.append_of_mem hpiece
    have htotal := congrArg size (toList_parts htext hsplit (by simp : after = after ++ []))
    rw [size_append, size_append, List.flatten_cons, size_append] at htotal
    have hpos : 0 < size piece := size_pos (hne piece hpiece)
    obtain ⟨m, hm⟩ : ∃ m, size before.flatten + m = size text.toList :=
      ⟨size text.toList - size before.flatten, by omega⟩
    have hplace : clamp (size before.flatten : Int) 0 (size text.toList) =
        (size before.flatten : Int) := clamp_of_mem (by omega) (by omega)
    have hfits : EndFits text (size before.flatten) m := by
      intro _
      rw [hplace]
      omega
    exact not_sameWindow_of_marked hrows htext hne hsplit hmark (by omega) hm
      (hall _ _ (by omega) hfits)
  · rintro ⟨hempty, hunmarked⟩ offset maxBytes hpos hfits
    obtain ⟨front, last, hpieces, htext, hne⟩ := exists_last_piece hn hempty
    rw [Unmarked, hpieces] at hunmarked
    rw [hpieces] at hrows
    exact sameWindow_of_unmarked hrows htext hne hunmarked hpos hfits
  · intro hempty hunmarked offset maxBytes hmax hfits
    obtain ⟨front, last, hpieces, htext, hne⟩ := exists_last_piece hn hempty
    rw [Unmarked, hpieces] at hunmarked
    rw [hpieces] at hrows
    exact sameWindow_wrapped_iff hrows htext hne hunmarked hsize hmax hfits

/-- A text of one character, with chunks of the default size. -/
theorem windows_agree_letter :
    (utf8Encode "a").length < 2 ^ 63 ∧
      ∃ table', replaceStream (chunkPayloadUtf8Bytes none) [] "execution" "stdout" "a" =
          .ok table' ∧
        ((∀ offset maxBytes, 1 ≤ maxBytes → EndFits "a" offset maxBytes →
            SameWindow (sliceStreamWindow table' "execution" "stdout" offset maxBytes)
              (sliceUtf8TextWindow "a" offset maxBytes)) ↔
          "a" ≠ "" ∧ Unmarked (chunkPayloadUtf8Bytes none) "a") ∧
        ("a" ≠ "" → Unmarked (chunkPayloadUtf8Bytes none) "a" →
          ∀ offset maxBytes, maxBytes < 2 ^ 63 → ¬ EndFits "a" offset maxBytes →
            (SameWindow (sliceStreamWindow table' "execution" "stdout" offset maxBytes)
              (sliceUtf8TextWindow "a" offset maxBytes) ↔ OnlyMarkLeft "a" offset maxBytes)) := by
  have hsize : (utf8Encode "a").length < 2 ^ 63 := by
    rw [utf8Encode_eq, length_bytesOf]
    decide
  exact ⟨hsize, windows_agree none [] "execution" "stdout" "a" hsize⟩

/-- A text that starts with a byte order mark: its rows end three bytes before it does. -/
theorem windows_differ_marked :
    ∃ table', replaceStream (chunkPayloadUtf8Bytes none) [] "execution" "stdout"
        (String.ofList [byteOrderMark, 'a']) = .ok table' ∧
      ¬ SameWindow (sliceStreamWindow table' "execution" "stdout" 0 4)
        (sliceUtf8TextWindow (String.ofList [byteOrderMark, 'a']) 0 4) := by
  have hn : 4 ≤ chunkPayloadUtf8Bytes none := four_le_chunkPayloadUtf8Bytes none
  obtain ⟨table', hstore⟩ := replaceStream_ok hn [] "execution" "stdout"
    (String.ofList [byteOrderMark, 'a'])
  have hrows := filter_replaceStream hn hstore
  have hfit : fit [byteOrderMark, 'a'] (chunkPayloadUtf8Bytes none) = [byteOrderMark, 'a'] :=
    fit_of_size_le (by decide)
  have hrest : rest [byteOrderMark, 'a'] (chunkPayloadUtf8Bytes none) = [] := by
    rw [rest, hfit]
    rfl
  have hpieces : pieces (chunkPayloadUtf8Bytes none) [byteOrderMark, 'a'] =
      [] ++ [[byteOrderMark, 'a']] := by
    rw [pieces_eq hn, if_neg (by decide), hfit, hrest, pieces_eq hn, if_pos rfl]
    rfl
  rw [String.toList_ofList, hpieces] at hrows
  refine ⟨table', hstore, ?_⟩
  have htext : ([] : List (List Char)).flatten ++ [byteOrderMark, 'a'] =
      (String.ofList [byteOrderMark, 'a']).toList := by
    rw [String.toList_ofList]
    rfl
  have hsplit : [] ++ [[byteOrderMark, 'a']] = [] ++ [byteOrderMark, 'a'] :: [] := rfl
  have hend : size ([] : List (List Char)).flatten + 4 =
      size (String.ofList [byteOrderMark, 'a']).toList := by
    rw [String.toList_ofList]
    decide
  exact not_sameWindow_of_marked hrows htext (by decide) hsplit rfl (by decide) hend

end PlugAgente.CapturedOutput
