import PlugAgente.CapturedOutput.Pieces

/-!
# The rows behind a window of a stream

The rows of a stream lie behind each other, each where its piece starts.  A window reads the row
that holds its offset and those after it that start before its end
(`sliceStreamWindow_rows`), and cuts the window from their payloads.
-/

namespace PlugAgente.CapturedOutput

open Dart Dart.Utf8

theorem head?_mergeSort_of_max {α : Type} {key : α → Nat} {rows : List α} {row : α}
    (hmem : row ∈ rows) (hmax : ∀ other ∈ rows, other = row ∨ key other < key row) :
    (rows.mergeSort fun a b => decide (key b ≤ key a)).head? = some row := by
  have hsorted : (rows.mergeSort fun a b => decide (key b ≤ key a)).Pairwise fun a b =>
      decide (key b ≤ key a) := by
    apply List.pairwise_mergeSort
    · intro a b c hab hbc
      simp only [decide_eq_true_eq] at hab hbc ⊢
      omega
    · intro a b
      simp only [Bool.or_eq_true, decide_eq_true_eq]
      omega
  have hperm := List.mergeSort_perm rows fun a b => decide (key b ≤ key a)
  cases hsort : rows.mergeSort fun a b => decide (key b ≤ key a) with
  | nil =>
    rw [hsort] at hperm
    cases hperm.symm.eq_nil ▸ hmem
  | cons first later =>
    rw [hsort] at hsorted hperm
    have hfirst : first ∈ rows := hperm.mem_iff.mp List.mem_cons_self
    rcases List.mem_cons.mp (hperm.mem_iff.mpr hmem) with heq | hlater
    · rw [heq]
      rfl
    · have hle : key row ≤ key first := by
        have h := List.rel_of_pairwise_cons hsorted hlater
        simpa using h
      rcases hmax first hfirst with heq | hlt
      · rw [heq]
        rfl
      · omega

section Rows

variable (executionId stream : String)

def rowAt (index offset : Nat) (piece : List Char) : ChunkRow :=
  { executionId, stream, chunkIndex := index, utf8Offset := offset,
    payload := String.ofList (dropMark piece) }

/-- The rows of pieces. -/
def rowsOf (index offset : Nat) (ps : List (List Char)) : List ChunkRow :=
  (slicesOf index offset ps).map (ChunkSlice.row executionId stream)

variable {executionId stream} {index offset : Nat} {ps qs : List (List Char)} {piece : List Char}

theorem rowAt_end (index offset : Nat) (piece : List Char) :
    (rowAt executionId stream index offset piece).utf8Offset +
      (rowAt executionId stream index offset piece).bytes.length =
      offset + size (dropMark piece) := by
  rw [ChunkRow.bytes, rowAt, utf8Encode_ofList, length_bytesOf]

@[simp] theorem rowsOf_nil : rowsOf executionId stream index offset [] = [] := rfl

@[simp] theorem rowsOf_cons :
    rowsOf executionId stream index offset (piece :: ps) =
      rowAt executionId stream index offset piece ::
        rowsOf executionId stream (index + 1) (offset + size piece) ps := rfl

theorem rowsOf_append :
    rowsOf executionId stream index offset (ps ++ qs) =
      rowsOf executionId stream index offset ps ++
        rowsOf executionId stream (index + ps.length) (offset + size ps.flatten) qs := by
  induction ps generalizing index offset with
  | nil => simp
  | cons p ps ih =>
    rw [List.cons_append, rowsOf_cons, rowsOf_cons, ih, List.cons_append, List.length_cons,
      List.flatten_cons, size_append, Nat.add_assoc index, Nat.add_comm 1, Nat.add_assoc offset]

theorem isOf_of_mem {row : ChunkRow} (h : row ∈ rowsOf executionId stream index offset ps) :
    row.isOf executionId stream := by
  obtain ⟨slice, -, rfl⟩ := List.mem_map.mp h
  simp [ChunkRow.isOf, ChunkSlice.row]

theorem le_of_mem {row : ChunkRow} (h : row ∈ rowsOf executionId stream index offset ps) :
    index ≤ row.chunkIndex ∧ offset ≤ row.utf8Offset := by
  induction ps generalizing index offset with
  | nil => cases h
  | cons p ps ih =>
    rw [rowsOf_cons] at h
    rcases List.mem_cons.mp h with hfirst | hlater
    · rw [hfirst]
      exact ⟨Nat.le_refl _, Nat.le_refl _⟩
    · have hle := ih hlater
      omega

theorem lt_of_mem {row : ChunkRow} (hne : ∀ p ∈ ps, p ≠ [])
    (h : row ∈ rowsOf executionId stream index offset ps) :
    row.chunkIndex < index + ps.length ∧ row.utf8Offset < offset + size ps.flatten := by
  induction ps generalizing index offset with
  | nil => cases h
  | cons p ps ih =>
    have hp : 0 < size p := size_pos (hne p List.mem_cons_self)
    rw [rowsOf_cons] at h
    rw [List.length_cons, List.flatten_cons, size_append]
    rcases List.mem_cons.mp h with hfirst | hlater
    · rw [hfirst]
      show index < _ ∧ offset < _
      omega
    · have hlt := ih (fun q hq => hne q (List.mem_cons_of_mem p hq)) hlater
      omega

theorem pairwise_rowsOf :
    (rowsOf executionId stream index offset ps).Pairwise fun a b => a.chunkIndex ≤ b.chunkIndex := by
  induction ps generalizing index offset with
  | nil => exact List.Pairwise.nil
  | cons p ps ih =>
    rw [rowsOf_cons]
    refine List.Pairwise.cons ?_ ih
    intro row hrow
    have hle := le_of_mem hrow
    show index ≤ row.chunkIndex
    omega

/-- The payloads of pieces. -/
def payloadsOf (ps : List (List Char)) : List Char :=
  (ps.map dropMark).flatten

theorem flatMap_bytes :
    (rowsOf executionId stream index offset ps).flatMap ChunkRow.bytes =
      bytesOf (payloadsOf ps) := by
  induction ps generalizing index offset with
  | nil => rfl
  | cons p ps ih =>
    rw [rowsOf_cons, List.flatMap_cons, ih, payloadsOf, payloadsOf, List.map_cons,
      List.flatten_cons, bytesOf_append]
    congr 1
    exact utf8Encode_ofList (dropMark p)

variable (executionId stream) in
theorem filter_before (index offset : Nat) (ps : List (List Char)) (bound : Int) :
    ∃ front back, ps = front ++ back ∧
      (rowsOf executionId stream index offset ps).filter
        (fun row => decide ((row.utf8Offset : Int) < bound)) =
        rowsOf executionId stream index offset front ∧
      (back = [] ∨ bound ≤ offset + size front.flatten) := by
  induction ps generalizing index offset with
  | nil => exact ⟨[], [], rfl, rfl, Or.inl rfl⟩
  | cons p ps ih =>
    by_cases hlt : (offset : Int) < bound
    · obtain ⟨front, back, hparts, hfilter, hend⟩ := ih (index + 1) (offset + size p)
      refine ⟨p :: front, back, by rw [hparts]; rfl, ?_, ?_⟩
      · have hfirst : decide (((rowAt executionId stream index offset p).utf8Offset : Int) <
            bound) = true := decide_eq_true hlt
        rw [rowsOf_cons, rowsOf_cons, List.filter_cons, if_pos hfirst, hfilter]
      · rw [List.flatten_cons, size_append]
        rcases hend with hnil | hle
        · exact Or.inl hnil
        · right
          push_cast at hle ⊢
          omega
    · refine ⟨[], p :: ps, rfl, ?_, Or.inr ?_⟩
      · rw [rowsOf_nil, List.filter_eq_nil_iff]
        intro row hrow
        have hle := le_of_mem hrow
        simp only [decide_eq_true_eq]
        omega
      · simpa using hlt

theorem exists_piece {place : Nat} (ps : List (List Char)) (offset : Nat) (hle : offset ≤ place)
    (hlt : place < offset + size ps.flatten) :
    ∃ before piece after, ps = before ++ piece :: after ∧
      offset + size before.flatten ≤ place ∧
      place < offset + size before.flatten + size piece := by
  induction ps generalizing offset with
  | nil =>
    rw [List.flatten_nil, size_nil] at hlt
    omega
  | cons p ps ih =>
    rw [List.flatten_cons, size_append] at hlt
    by_cases hp : place < offset + size p
    · refine ⟨[], p, ps, rfl, ?_, ?_⟩
      · simpa using hle
      · simpa using hp
    · obtain ⟨before, piece, after, hparts, hlow, hhigh⟩ := ih (offset + size p) (by omega)
        (by omega)
      refine ⟨p :: before, piece, after, by rw [hparts]; rfl, ?_, ?_⟩
      · rw [List.flatten_cons, size_append]
        omega
      · rw [List.flatten_cons, size_append]
        omega

/-! ## Reading the rows -/

section Window

variable {table : List ChunkRow} {front : List (List Char)} {last : List Char}
  (hrows : table.filter (ChunkRow.isOf executionId stream) =
    rowsOf executionId stream 0 0 (front ++ [last]))

/-- The size of a stream as its last row has it. -/
def storedBytes (front : List (List Char)) (last : List Char) : Nat :=
  size front.flatten + size (dropMark last)

/-- The window cut from the bytes of rows that start at `start`. -/
def rowsWindow (totalBytes start place : Nat) (bytes : List UInt8) (maxBytes : Int) :
    CapturedOutputUtf8Window :=
  let relativeStart := alignUtf8StartOffset bytes ((place : Int) - (start : Int))
  let absoluteEnd := start + (decodeUtf8Window bytes relativeStart maxBytes).1
  { text := (decodeUtf8Window bytes relativeStart maxBytes).2
    nextOffset := absoluteEnd, totalBytes
    responseTruncated := absoluteEnd < totalBytes
    effectiveStart := start + relativeStart }

/-- The window of the rows that a query found. -/
def windowOf (totalBytes place : Nat) (rows : List ChunkRow) (maxBytes : Int) :
    CapturedOutputUtf8Window :=
  match rows.head? with
  | none => emptyWindow totalBytes place
  | some first => rowsWindow totalBytes first.utf8Offset place (rows.flatMap ChunkRow.bytes) maxBytes

include hrows

theorem head?_last_row (hne : ∀ p ∈ front, p ≠ []) :
    ((table.filter (ChunkRow.isOf executionId stream)).mergeSort
        fun a b => decide (b.chunkIndex ≤ a.chunkIndex)).head? =
      some (rowAt executionId stream front.length (size front.flatten) last) := by
  rw [hrows, rowsOf_append, rowsOf_cons, rowsOf_nil, Nat.zero_add, Nat.zero_add]
  apply head?_mergeSort_of_max
  · exact List.mem_append_right _ List.mem_cons_self
  · intro other hother
    rcases List.mem_append.mp hother with hfront | hlast
    · have hlt := lt_of_mem hne hfront
      right
      show other.chunkIndex < front.length
      omega
    · exact Or.inl (List.mem_singleton.mp hlast)

theorem head?_start_row {before after : List (List Char)} {piece : List Char} {place : Nat}
    (hsplit : front ++ [last] = before ++ piece :: after) (hne : ∀ p ∈ front ++ [last], p ≠ [])
    (hlow : size before.flatten ≤ place) (hhigh : place < size before.flatten + size piece) :
    (((table.filter (ChunkRow.isOf executionId stream)).filter
        fun row => row.utf8Offset ≤ place).mergeSort
        fun a b => decide (b.utf8Offset ≤ a.utf8Offset)).head? =
      some (rowAt executionId stream before.length (size before.flatten) piece) := by
  rw [hsplit] at hne
  rw [hrows, hsplit, rowsOf_append, rowsOf_cons, Nat.zero_add, Nat.zero_add]
  apply head?_mergeSort_of_max
  · rw [List.mem_filter]
    refine ⟨List.mem_append_right _ List.mem_cons_self, ?_⟩
    exact decide_eq_true hlow
  · intro other hother
    rw [List.mem_filter, decide_eq_true_eq] at hother
    obtain ⟨hmem, hplace⟩ := hother
    rcases List.mem_append.mp hmem with hbefore | hlater
    · have hlt := lt_of_mem (fun p hp => hne p (List.mem_append_left _ hp)) hbefore
      right
      show other.utf8Offset < size before.flatten
      omega
    · rcases List.mem_cons.mp hlater with hpiece | hafter
      · exact Or.inl hpiece
      · have hle := le_of_mem hafter
        omega

theorem filter_window_rows {before after : List (List Char)} {piece : List Char}
    (hsplit : front ++ [last] = before ++ piece :: after) (hne : ∀ p ∈ front ++ [last], p ≠ [])
    (bound : Int) :
    ∃ shown back, piece :: after = shown ++ back ∧
      ((table.filter (ChunkRow.isOf executionId stream)).filter fun row =>
          decide (before.length ≤ row.chunkIndex) && decide ((row.utf8Offset : Int) < bound)) =
        rowsOf executionId stream before.length (size before.flatten) shown ∧
      (back = [] ∨ bound ≤ size before.flatten + size shown.flatten) := by
  rw [hsplit] at hne
  obtain ⟨shown, back, hparts, hfilter, hend⟩ := filter_before executionId stream before.length (size before.flatten) (piece :: after) bound
  refine ⟨shown, back, hparts, ?_, hend⟩
  have hbefore : (rowsOf executionId stream 0 0 before).filter (fun row =>
      decide (before.length ≤ row.chunkIndex) && decide ((row.utf8Offset : Int) < bound)) = [] := by
    rw [List.filter_eq_nil_iff]
    intro row hrow
    have hlt := lt_of_mem (fun p hp => hne p (List.mem_append_left _ hp)) hrow
    simp only [Bool.and_eq_true, decide_eq_true_eq]
    omega
  rw [hrows, hsplit, rowsOf_append, Nat.zero_add, Nat.zero_add, List.filter_append, hbefore,
    List.nil_append, ← hfilter]
  apply List.filter_congr
  intro row hrow
  have hle := le_of_mem hrow
  rw [decide_eq_true hle.1, Bool.true_and]

theorem sliceStreamWindow_end (hne : ∀ p ∈ front, p ≠ []) {offset : Int}
    (hplace : clamp offset 0 (storedBytes front last) = (storedBytes front last : Int))
    (maxBytes : Int) :
    sliceStreamWindow table executionId stream offset maxBytes =
      some (emptyWindow (storedBytes front last) (storedBytes front last)) := by
  have htotal : (rowAt executionId stream front.length (size front.flatten) last).utf8Offset +
      (rowAt executionId stream front.length (size front.flatten) last).bytes.length =
      storedBytes front last := rowAt_end _ _ _
  rw [sliceStreamWindow]
  simp only [head?_last_row hrows hne, htotal, hplace, Int.toNat_natCast]
  rw [if_pos (Nat.le_refl _)]

theorem sliceStreamWindow_inside {before after : List (List Char)} {piece : List Char}
    (hsplit : front ++ [last] = before ++ piece :: after) (hne : ∀ p ∈ front ++ [last], p ≠ [])
    {offset : Int} {place : Nat} (hplace : clamp offset 0 (storedBytes front last) = (place : Int))
    (hlt : place < storedBytes front last) (hlow : size before.flatten ≤ place)
    (hhigh : place < size before.flatten + size piece) (maxBytes : Int) :
    sliceStreamWindow table executionId stream offset maxBytes =
      some (windowOf (storedBytes front last) place
        (((table.filter (ChunkRow.isOf executionId stream)).filter fun row =>
            decide (before.length ≤ row.chunkIndex) && decide ((row.utf8Offset : Int) <
              min (add64 place maxBytes) (storedBytes front last))).mergeSort
          fun a b => decide (a.chunkIndex ≤ b.chunkIndex)) maxBytes) := by
  have hfront : ∀ p ∈ front, p ≠ [] := fun p hp => hne p (List.mem_append_left _ hp)
  have htotal : (rowAt executionId stream front.length (size front.flatten) last).utf8Offset +
      (rowAt executionId stream front.length (size front.flatten) last).bytes.length =
      storedBytes front last := rowAt_end _ _ _
  rw [sliceStreamWindow]
  dsimp only
  rw [head?_last_row hrows hfront]
  dsimp only
  rw [htotal, hplace, Int.toNat_natCast, if_neg (by omega),
    head?_start_row hrows hsplit hne hlow hhigh]
  dsimp only
  rw [rowAt, windowOf]
  split
  · rename_i hnone
    rw [hnone]
  · rename_i first hsome
    rw [hsome]
    rfl

theorem sliceStreamWindow_rows {before after : List (List Char)} {piece : List Char}
    (hsplit : front ++ [last] = before ++ piece :: after) (hne : ∀ p ∈ front ++ [last], p ≠ [])
    {offset : Int} (maxBytes : Int) {place : Nat}
    (hplace : clamp offset 0 (storedBytes front last) = (place : Int))
    (hlt : place < storedBytes front last) (hlow : size before.flatten ≤ place)
    (hhigh : place < size before.flatten + size piece)
    (hbound : (size before.flatten : Int) < min (add64 place maxBytes) (storedBytes front last)) :
    ∃ shown back, after = shown ++ back ∧
      (back = [] ∨ min (add64 place maxBytes) (storedBytes front last) ≤
        (size before.flatten : Int) + size (piece :: shown).flatten) ∧
      sliceStreamWindow table executionId stream offset maxBytes =
        some (rowsWindow (storedBytes front last) (size before.flatten) place
          (bytesOf (payloadsOf (piece :: shown))) maxBytes) := by
  obtain ⟨shown, back, hparts, hfilter, hend⟩ := filter_window_rows hrows hsplit hne
    (min (add64 place maxBytes) (storedBytes front last))
  cases shown with
  | nil =>
    -- the row of the offset starts before the end, so it is shown
    rw [List.nil_append] at hparts
    rw [← hparts, List.flatten_nil, size_nil] at hend
    rcases hend with hnil | hle
    · cases hnil
    · push_cast at hle
      omega
  | cons first shown =>
    rw [List.cons_append, List.cons.injEq] at hparts
    obtain ⟨hfirst, hafter⟩ := hparts
    subst hfirst
    have hsorted : (rowsOf executionId stream before.length (size before.flatten)
        (piece :: shown)).Pairwise fun a b => decide (a.chunkIndex ≤ b.chunkIndex) :=
      pairwise_rowsOf.imp fun hle => decide_eq_true hle
    refine ⟨shown, back, hafter, hend, ?_⟩
    rw [sliceStreamWindow_inside hrows hsplit hne hplace hlt hlow hhigh, hfilter,
      List.mergeSort_of_pairwise hsorted, ← flatMap_bytes]
    rfl

theorem sliceStreamWindow_wrapped {before after : List (List Char)} {piece : List Char}
    (hsplit : front ++ [last] = before ++ piece :: after) (hne : ∀ p ∈ front ++ [last], p ≠ [])
    {offset maxBytes : Int} {place : Nat}
    (hplace : clamp offset 0 (storedBytes front last) = (place : Int))
    (hlt : place < storedBytes front last) (hlow : size before.flatten ≤ place)
    (hhigh : place < size before.flatten + size piece) (hwrapped : add64 place maxBytes < 0) :
    sliceStreamWindow table executionId stream offset maxBytes =
      some (emptyWindow (storedBytes front last) place) := by
  have hnone : ((table.filter (ChunkRow.isOf executionId stream)).filter fun row =>
      decide (before.length ≤ row.chunkIndex) && decide ((row.utf8Offset : Int) <
        min (add64 place maxBytes) (storedBytes front last))) = [] := by
    rw [List.filter_eq_nil_iff]
    intro row hrow
    simp only [Bool.and_eq_true, decide_eq_true_eq]
    omega
  rw [sliceStreamWindow_inside hrows hsplit hne hplace hlt hlow hhigh, hnone, List.mergeSort_nil]
  rfl

end Window

end Rows

end PlugAgente.CapturedOutput
