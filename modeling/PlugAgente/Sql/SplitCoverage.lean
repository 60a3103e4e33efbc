import PlugAgente.Sql.Pieces
import PlugAgente.Sql.StatementSplit

/-!
# What the statement splitter keeps

`splitSqlStatements` should lose nothing that is executed: the significant
pieces of the fragments, one fragment after the other, should be those of the
text without the lines that are a batch separator (`expectedPieces`).

The splitter decides about a line by the code after its last `;`, and then drops
all that stands there.  `keptPieces` is what that leaves of a line, and
`significant_splitSqlStatements` says that the fragments hold what is kept.
`splitsFully_iff` compares the two: they agree when every line that the splitter
takes for a separator is one as a whole.

The count that stops at the second statement is a run of the same scan, which
`sqlHasMultipleTopLevelStatements_iff` follows side by side with the full one.
-/

namespace PlugAgente.Sql

open PlugAgente.Dart

/-! ## Lines -/

namespace Piece

/-- A line break of code. -/
def isLineBreak : Piece → Bool
  | .char c => Sql.isLineBreak c
  | _ => false

/-- A `;` of code. -/
def isSemicolon : Piece → Bool
  | .char c => c == ';'
  | _ => false

def code? : Piece → Option Char
  | .char c => some c
  | _ => none

end Piece

def codeOf (ps : List Piece) : Text := ps.filterMap Piece.code?

/-- The lines of a text; a line break inside a literal or a comment ends none. -/
def lines (ps : List Piece) : List (List Piece) := ps.splitOnP Piece.isLineBreak

/-- What stands on a line after its last `;`. -/
def openStatement (line : List Piece) : List Piece := line.rtakeWhile (!·.isSemicolon)

/-- What stands on a line up to its last `;`. -/
def closedStatements (line : List Piece) : List Piece := line.rdropWhile (!·.isSemicolon)

section Kept

variable (cm : CaseMap)

/-- The executed pieces of a line, if it is not as a whole the batch separator. -/
def expectedLine (line : List Piece) : List Piece :=
  if isGoSeparator cm (textOf line) then [] else significant line

/-- The executed pieces of a text. -/
def expectedPieces (sql : Text) : List Piece := (lines (pieces sql)).flatMap (expectedLine cm)

/-- The executed pieces of a line that the splitter keeps. -/
def keptPieces (line : List Piece) : List Piece :=
  significant (closedStatements line) ++
    if isGoSeparator cm (codeOf (openStatement line)) then [] else significant (openStatement line)

end Kept

theorem lines_append_break {ps : List Piece} {p : Piece} (hp : p.isLineBreak = true) :
    lines (ps ++ [p]) = lines ps ++ [[]] := by
  unfold lines
  rw [List.splitOnP_append_cons ps [] hp, List.splitOnP_nil]

theorem lines_append_other {ps line : List Piece} {closed : List (List Piece)} {p : Piece}
    (hp : p.isLineBreak = false) (h : lines ps = closed ++ [line]) :
    lines (ps ++ [p]) = closed ++ [line ++ [p]] := by
  unfold lines at h ⊢
  induction ps generalizing closed line with
  | nil =>
    have hclosed : closed = [] ∧ line = [] := by
      rw [List.splitOnP_nil] at h
      cases closed with
      | nil => simpa using h.symm
      | cons c cs => simp at h
    obtain ⟨rfl, rfl⟩ := hclosed
    simp [List.splitOnP_cons_eq_if_modifyHead, hp]
  | cons q ps ih =>
    rw [List.splitOnP_cons_eq_if_modifyHead] at h
    rw [List.cons_append, List.splitOnP_cons_eq_if_modifyHead]
    split at h
    · rename_i hq
      rw [if_pos hq]
      cases closed with
      | nil =>
        have hne := List.splitOnP_ne_nil Piece.isLineBreak ps
        simp [hne] at h
      | cons c cs =>
        simp only [List.cons_append, List.cons.injEq] at h
        rw [ih h.2, ← h.1]
        rfl
    · rename_i hq
      rw [if_neg hq]
      obtain ⟨l, ls, hl⟩ := List.exists_cons_of_ne_nil (List.splitOnP_ne_nil Piece.isLineBreak ps)
      rw [hl, List.modifyHead_cons] at h
      cases closed with
      | nil =>
        simp only [List.nil_append, List.cons.injEq] at h
        have hps : ps.splitOnP Piece.isLineBreak = [] ++ [l] := by rw [hl, h.2]; rfl
        rw [ih hps, ← h.1]
        rfl
      | cons c cs =>
        simp only [List.cons_append, List.cons.injEq] at h
        have hps : ps.splitOnP Piece.isLineBreak = (l :: cs) ++ [line] := by rw [hl, h.2]; rfl
        rw [ih hps, ← h.1]
        rfl

theorem closedStatements_append_openStatement (line : List Piece) :
    closedStatements line ++ openStatement line = line := List.rdropWhile_append_rtakeWhile

theorem openStatement_append_semicolon {line : List Piece} {p : Piece}
    (hp : p.isSemicolon = true) : openStatement (line ++ [p]) = [] :=
  List.rtakeWhile_concat_neg _ _ _ (by simp [hp])

theorem closedStatements_append_semicolon {line : List Piece} {p : Piece}
    (hp : p.isSemicolon = true) : closedStatements (line ++ [p]) = line ++ [p] :=
  List.rdropWhile_concat_neg _ _ _ (by simp [hp])

theorem openStatement_append_other {line : List Piece} {p : Piece}
    (hp : p.isSemicolon = false) : openStatement (line ++ [p]) = openStatement line ++ [p] :=
  List.rtakeWhile_concat_pos _ _ _ (by simp [hp])

theorem closedStatements_append_other {line : List Piece} {p : Piece}
    (hp : p.isSemicolon = false) : closedStatements (line ++ [p]) = closedStatements line :=
  List.rdropWhile_concat_pos _ _ _ (by simp [hp])

/-! ## The invariant of the scan -/

theorem writeCodeRange_cons {σ : Type} (cm : CaseMap) (f : σ → Text → σ × Bool)
    {s : SplitState σ} (hrunning : s.stop = false) (c : Char) (rest : Text) :
    s.writeCodeRange cm f (c :: rest) =
      if c == ';' then (s.flush f).writeCodeRange cm f rest
      else if isLineBreak c then
        match rest with
        | d :: rest' =>
          if c == '\r' && d == '\n' then
            ({ s with buf := s.buf ++ [c, d] }.handleEndOfLine cm f).writeCodeRange cm f rest'
          else
            ({ s with buf := s.buf ++ [c] }.handleEndOfLine cm f).writeCodeRange cm f (d :: rest')
        | [] => { s with buf := s.buf ++ [c] }.handleEndOfLine cm f
      else
        { s with buf := s.buf ++ [c], lineCode := s.lineCode ++ [c] }.writeCodeRange cm f rest := by
  rw [SplitState.writeCodeRange.eq_def]
  dsimp only
  rw [if_neg (by simp [hrunning])]
  cases rest <;> rfl

/-- The callback of `splitSqlStatements`. -/
def collectSegment (out : List Text) (trimmed : Text) : List Text × Bool := (out ++ [trimmed], false)

def executed (fragments : List Text) : List Piece :=
  fragments.flatMap fun fragment => significant (pieces fragment)

/-- The state after the pieces `done` of a text.  `closed` are the lines that have
ended and `line` is the one that has not; the buffer holds `pre`, of lines
before, and the open statement of the line. -/
structure SplitInv (cm : CaseMap) (done : List Piece) (closed : List (List Piece))
    (line pre : List Piece) (s : SplitState (List Text)) : Prop where
  running : s.stop = false
  lines : lines done = closed ++ [line]
  lineCode : s.lineCode = codeOf (openStatement line)
  buf : s.buf = textOf (pre ++ openStatement line)
  stmtLineStart : s.stmtLineStart = (textOf pre).length
  suffix : pre ++ openStatement line <:+ done
  seen : executed s.seen ++ (significant pre).map Piece.trimEnd =
    (closed.flatMap (keptPieces cm) ++ significant (closedStatements line)).map Piece.trimEnd

theorem executed_flush {s : SplitState (List Text)} {ps : List Piece} (hbuf : s.buf = textOf ps)
    (hscanned : Scanned ps) :
    executed (s.flush collectSegment).seen = executed s.seen ++ (significant ps).map Piece.trimEnd ∧
      (s.flush collectSegment).stop = false ∧ (s.flush collectSegment).buf = [] ∧
      (s.flush collectSegment).stmtLineStart = 0 ∧ (s.flush collectSegment).lineCode = [] := by
  have hsig := significant_trim hscanned
  rw [← hbuf] at hsig
  unfold SplitState.flush
  dsimp only
  split
  · rename_i hempty
    rw [List.isEmpty_iff] at hempty
    rw [hempty] at hsig
    refine ⟨?_, rfl, rfl, rfl, rfl⟩
    rw [← hsig]
    simp
  · refine ⟨?_, rfl, rfl, rfl, rfl⟩
    simp [collectSegment, executed, hsig]

section Steps

variable {cm : CaseMap} {done line pre : List Piece} {closed : List (List Piece)}
  {s : SplitState (List Text)}

theorem SplitInv.scanned (h : SplitInv cm done closed line pre s) (hdone : Scanned done) :
    Scanned (pre ++ openStatement line) := by
  obtain ⟨front, hfront⟩ := h.suffix
  rw [← hfront] at hdone
  exact hdone.of_append_right

theorem SplitInv.write (h : SplitInv cm done closed line pre s) {p : Piece}
    (hbreak : p.isLineBreak = false) (hsemi : p.isSemicolon = false) :
    SplitInv cm (done ++ [p]) closed (line ++ [p]) pre
      { s with buf := s.buf ++ p.text, lineCode := s.lineCode ++ p.code?.toList } where
  running := h.running
  lines := lines_append_other hbreak h.lines
  lineCode := by
    rw [openStatement_append_other hsemi, h.lineCode]
    simp only [codeOf, List.filterMap_append]
    cases p <;> rfl
  buf := by
    rw [openStatement_append_other hsemi, h.buf]
    simp [textOf_append]
  stmtLineStart := h.stmtLineStart
  suffix := by
    obtain ⟨front, hfront⟩ := h.suffix
    exact ⟨front, by rw [openStatement_append_other hsemi, ← hfront]; simp⟩
  seen := by
    rw [closedStatements_append_other hsemi]
    exact h.seen

theorem SplitInv.semicolon (h : SplitInv cm done closed line pre s) (hdone : Scanned done) :
    SplitInv cm (done ++ [Piece.char ';']) closed (line ++ [Piece.char ';']) []
      (s.flush collectSegment) := by
  obtain ⟨hseen, hstop, hbuf, hstart, hcode⟩ := executed_flush h.buf (h.scanned hdone)
  have hsemi : (Piece.char ';').isSemicolon = true := rfl
  refine ⟨hstop, lines_append_other rfl h.lines, ?_, ?_, hstart, ?_, ?_⟩
  · rw [openStatement_append_semicolon hsemi, hcode]
    rfl
  · rw [openStatement_append_semicolon hsemi, hbuf]
    rfl
  · rw [openStatement_append_semicolon hsemi]
    exact List.nil_suffix
  · rw [closedStatements_append_semicolon hsemi, hseen]
    have hline : significant (line ++ [Piece.char ';']) =
        significant (closedStatements line) ++ significant (openStatement line) := by
      rw [← significant_append, closedStatements_append_openStatement, significant_append]
      simp [significant, Piece.isSignificant]
    rw [hline, significant_append, List.map_append, ← List.append_assoc, h.seen]
    simp

theorem isWhitespace_of_isLineBreak {c : Char} (hc : isLineBreak c = true) :
    isWhitespace c = true := by
  simp only [isLineBreak, Bool.or_eq_true, beq_iff_eq] at hc
  rcases hc with rfl | rfl <;> decide

/-- The line breaks that end a line: one, or a carriage return and a line feed. -/
def IsLineEnd (breaks : Text) : Prop :=
  breaks = ['\r', '\n'] ∨ ∃ c, isLineBreak c = true ∧ breaks = [c]

theorem lines_append_lineEnd {breaks : Text} (hbreaks : IsLineEnd breaks) (ps : List Piece) :
    ∃ empty : List (List Piece), (∀ l ∈ empty, l = []) ∧
      lines (ps ++ breaks.map .char) = lines ps ++ empty ++ [[]] := by
  rcases hbreaks with rfl | ⟨c, hc, rfl⟩
  · refine ⟨[[]], by simp, ?_⟩
    have hsplit : ps ++ ['\r', '\n'].map Piece.char =
        (ps ++ [Piece.char '\r']) ++ [Piece.char '\n'] := by simp
    rw [hsplit, lines_append_break rfl, lines_append_break rfl]
  · have hp : (Piece.char c).isLineBreak = true := hc
    exact ⟨[], by simp, by rw [List.map_singleton, lines_append_break hp]; simp⟩

theorem significant_lineEnd {breaks : Text} (hbreaks : IsLineEnd breaks) :
    significant (breaks.map .char) = [] := by
  rcases hbreaks with rfl | ⟨c, hc, rfl⟩
  · rfl
  · simp [significant, Piece.isSignificant, isWhitespace_of_isLineBreak hc]

theorem textOf_map_char (t : Text) : textOf (t.map .char) = t := by
  induction t with
  | nil => rfl
  | cons c t ih => simp [Piece.text, ih]

theorem keptPieces_of_empty {empty : List (List Piece)} (h : ∀ l ∈ empty, l = []) :
    empty.flatMap (keptPieces cm) = [] := by
  rw [List.flatMap_eq_nil_iff]
  intro l hl
  rw [h l hl]
  simp [keptPieces, closedStatements, openStatement]

/-- The end of a line: a separator is dropped and the lines before it are handed
on, any other line stays in the buffer. -/
theorem SplitInv.endOfLine (h : SplitInv cm done closed line pre s) {breaks : Text}
    (hbreaks : IsLineEnd breaks) (hdone : Scanned done) :
    ∃ closed' pre', SplitInv cm (done ++ breaks.map .char) closed' [] pre'
      ({ s with buf := s.buf ++ breaks }.handleEndOfLine cm collectSegment) := by
  obtain ⟨empty, hempty, hlines⟩ := lines_append_lineEnd hbreaks done
  rw [h.lines] at hlines
  have hkept : (closed ++ [line] ++ empty).flatMap (keptPieces cm) =
      closed.flatMap (keptPieces cm) ++ keptPieces cm line := by
    simp [keptPieces_of_empty hempty]
  unfold SplitState.handleEndOfLine
  cases hgo : isGoSeparator cm s.lineCode with
  | true =>
    have hdrop : ({ s with buf := s.buf ++ breaks } : SplitState (List Text)).discardCurrentLine.buf
        = textOf pre := by
      simp [SplitState.discardCurrentLine, h.buf, h.stmtLineStart, textOf_append]
    obtain ⟨hseen, hstop, hbuf, hstart, -⟩ :=
      executed_flush hdrop (h.scanned hdone).of_append_left
    refine ⟨closed ++ [line] ++ empty, [], ?_⟩
    simp only [if_true]
    refine ⟨hstop, hlines, rfl, hbuf, hstart, List.nil_suffix, ?_⟩
    have hline : keptPieces cm line = significant (closedStatements line) := by
      simp [keptPieces, ← h.lineCode, hgo]
    rw [hkept, hline, hseen]
    show executed s.seen ++ _ ++ _ = _
    rw [h.seen]
    simp [closedStatements]
  | false =>
    refine ⟨closed ++ [line] ++ empty, pre ++ openStatement line ++ breaks.map .char, ?_⟩
    simp only [Bool.false_eq_true, if_false]
    refine ⟨h.running, hlines, rfl, ?_, ?_, ?_, ?_⟩
    · show s.buf ++ breaks = _
      rw [h.buf]
      simp [textOf_append, textOf_map_char, openStatement]
    · show (s.buf ++ breaks).length = _
      rw [h.buf]
      simp [textOf_append, textOf_map_char]
    · obtain ⟨front, hfront⟩ := h.suffix
      exact ⟨front, by rw [← hfront]; simp [openStatement]⟩
    · have hline : keptPieces cm line =
          significant (closedStatements line) ++ significant (openStatement line) := by
        simp [keptPieces, ← h.lineCode, hgo]
      rw [hkept, hline, significant_append, significant_append, significant_lineEnd hbreaks]
      show executed s.seen ++ _ = _
      rw [List.append_nil, List.map_append, ← List.append_assoc, h.seen]
      simp [closedStatements]

theorem SplitInv.writeCodeRange (t : Text) {done line pre : List Piece}
    {closed : List (List Piece)} {s : SplitState (List Text)}
    (h : SplitInv cm done closed line pre s) (hdone : Scanned (done ++ t.map .char)) :
    ∃ closed' line' pre', SplitInv cm (done ++ t.map .char) closed' line' pre'
      (s.writeCodeRange cm collectSegment t) := by
  match t with
  | [] => exact ⟨closed, line, pre, by simpa [SplitState.writeCodeRange] using h⟩
  | c :: rest =>
    have hstarts : Scanned done := hdone.of_append_left
    have hsplit : ∀ u v : Text, done ++ (u ++ v).map Piece.char =
        (done ++ u.map .char) ++ v.map .char := by
      intro u v
      simp
    rw [writeCodeRange_cons cm collectSegment h.running]
    split
    · rename_i hc
      rw [beq_iff_eq] at hc
      subst hc
      have hrest := hdone
      rw [← List.singleton_append, hsplit] at hrest ⊢
      exact SplitInv.writeCodeRange rest (h.semicolon hstarts) hrest
    · rename_i hsemi
      split
      · rename_i hbreak
        split
        · rename_i d rest'
          split
          · rename_i hcrlf
            simp only [Bool.and_eq_true, beq_iff_eq] at hcrlf
            obtain ⟨rfl, rfl⟩ := hcrlf
            have hrest := hdone
            rw [show '\r' :: '\n' :: rest' = ['\r', '\n'] ++ rest' from rfl, hsplit] at hrest ⊢
            obtain ⟨closed', pre', hend⟩ := h.endOfLine (Or.inl rfl) hstarts
            exact SplitInv.writeCodeRange rest' hend hrest
          · have hrest := hdone
            rw [← List.singleton_append, hsplit] at hrest ⊢
            obtain ⟨closed', pre', hend⟩ := h.endOfLine (Or.inr ⟨c, hbreak, rfl⟩) hstarts
            exact SplitInv.writeCodeRange (d :: rest') hend hrest
        · obtain ⟨closed', pre', hend⟩ := h.endOfLine (Or.inr ⟨c, hbreak, rfl⟩) hstarts
          exact ⟨closed', [], pre', hend⟩
      · rename_i hbreak
        have hrest := hdone
        rw [← List.singleton_append, hsplit] at hrest ⊢
        have hwrite := h.write (p := .char c) (by simpa [Piece.isLineBreak] using hbreak)
          (by simpa [Piece.isSemicolon] using hsemi)
        exact SplitInv.writeCodeRange rest hwrite hrest

theorem SplitInv.onSegment (h : SplitInv cm done closed line pre s) {segment : Segment}
    (hdone : Scanned (done ++ segment.pieces)) :
    ∃ closed' line' pre', SplitInv cm (done ++ segment.pieces) closed' line' pre'
      (s.onSegment cm collectSegment segment) := by
  cases segment with
  | code t => exact h.writeCodeRange t hdone
  | literal t =>
    have hwrite := h.write (p := .literal t) rfl rfl
    refine ⟨closed, line ++ [Piece.literal t], pre, ?_⟩
    simpa [SplitState.onSegment, Segment.pieces, h.running, Piece.text, Piece.code?] using hwrite
  | comment t isBlock =>
    have hwrite := h.write (p := .comment t isBlock) rfl rfl
    refine ⟨closed, line ++ [Piece.comment t isBlock], pre, ?_⟩
    simpa [SplitState.onSegment, Segment.pieces, h.running, Piece.text, Piece.code?] using hwrite

theorem SplitInv.foldl {segments : List Segment} {done line pre : List Piece}
    {closed : List (List Piece)} {s : SplitState (List Text)}
    (h : SplitInv cm done closed line pre s)
    (hdone : Scanned (done ++ segments.flatMap Segment.pieces)) :
    ∃ closed' line' pre', SplitInv cm (done ++ segments.flatMap Segment.pieces) closed' line' pre'
      (segments.foldl (SplitState.onSegment cm collectSegment) s) := by
  induction segments generalizing done line pre closed s with
  | nil => exact ⟨closed, line, pre, by simpa using h⟩
  | cons segment segments ih =>
    rw [List.flatMap_cons, ← List.append_assoc] at hdone ⊢
    obtain ⟨closed', line', pre', hstep⟩ := h.onSegment hdone.of_append_left
    exact ih hstep hdone

end Steps

theorem significant_splitSqlStatements (cm : CaseMap) (sql : Text) :
    executed (splitSqlStatements cm sql) =
      ((lines (pieces sql)).flatMap (keptPieces cm)).map Piece.trimEnd := by
  have hstart : SplitInv cm [] [] [] [] ({ seen := [] } : SplitState (List Text)) :=
    ⟨rfl, rfl, rfl, rfl, rfl, List.nil_suffix, rfl⟩
  have hall : Scanned ([] ++ (scanSqlText sql).flatMap Segment.pieces) := (scanned_pieces sql).1
  obtain ⟨closed, line, pre, h⟩ := hstart.foldl hall
  have hscanned : Scanned (pre ++ openStatement line) := h.scanned (scanned_pieces sql).1
  rw [List.nil_append] at h
  set s := (scanSqlText sql).foldl (SplitState.onSegment cm collectSegment) { seen := [] } with hs
  have hlines : lines (pieces sql) = closed ++ [line] := h.lines
  have hkept : (lines (pieces sql)).flatMap (keptPieces cm) =
      closed.flatMap (keptPieces cm) ++ keptPieces cm line := by
    rw [hlines]
    simp
  show executed (scanTopLevelSqlStatements cm collectSegment sql []) = _
  unfold scanTopLevelSqlStatements
  rw [← hs]
  cases hgo : isGoSeparator cm s.lineCode with
  | true =>
    have hdrop : s.discardCurrentLine.buf = textOf pre := by
      simp [SplitState.discardCurrentLine, h.buf, h.stmtLineStart, textOf_append]
    obtain ⟨hseen, -⟩ := executed_flush hdrop hscanned.of_append_left
    have hline : keptPieces cm line = significant (closedStatements line) := by
      simp [keptPieces, ← h.lineCode, hgo]
    have hstop : s.discardCurrentLine.stop = false := h.running
    simp only [h.running, hgo, Bool.not_false, Bool.and_self, if_true, hstop,
      Bool.false_eq_true, if_false]
    rw [hseen, hkept, hline]
    exact h.seen
  | false =>
    obtain ⟨hseen, -⟩ := executed_flush h.buf hscanned
    have hline : keptPieces cm line =
        significant (closedStatements line) ++ significant (openStatement line) := by
      simp [keptPieces, ← h.lineCode, hgo]
    simp only [h.running, hgo, Bool.not_false, Bool.and_false, Bool.false_eq_true, if_false]
    rw [hseen, hkept, hline, significant_append, List.map_append, ← List.append_assoc, h.seen]
    simp

/-! ## Separators -/

theorem mem_trim {x : Text} {c : Char} (hc : c ∈ x) (hblank : isWhitespace c = false) :
    c ∈ trim x := by
  have hleft : c ∈ trimLeft x := by
    rw [← List.takeWhile_append_dropWhile (p := isWhitespace) (l := x)] at hc
    rcases List.mem_append.mp hc with h | h
    · rw [List.mem_takeWhile_imp h] at hblank
      exact absurd hblank (by decide)
    · exact h
  obtain ⟨w, hw, hall⟩ := exists_trimRight (trimLeft x)
  rw [hw] at hleft
  rcases List.mem_append.mp hleft with h | h
  · exact h
  · rw [hall c h] at hblank
    exact absurd hblank (by decide)

section Separators

variable {cm : CaseMap}

theorem ne_of_isGoSeparator {x : Text} (h : isGoSeparator cm x = true) {c : Char} (hc : c ∈ x)
    (hblank : isWhitespace c = false) : isMarkStart c = false ∧ c ≠ ';' := by
  rw [isGoSeparator, beq_iff_eq] at h
  have hupper : cm.upper c ∈ ['G', 'O'] := by
    rw [← h]
    exact List.mem_map_of_mem (mem_trim hc hblank)
  -- The upper case of each of the six characters is the character itself.
  have hnot : ∀ d ∈ ['-', '/', '[', '\'', '"', ';'], c ≠ d := by
    intro d hd hcd
    have hascii : d.toNat < 128 := by
      simp at hd
      rcases hd with rfl | rfl | rfl | rfl | rfl | rfl <;> decide
    rw [hcd, cm.upper_ascii d hascii] at hupper
    simp at hd
    rcases hd with rfl | rfl | rfl | rfl | rfl | rfl <;> exact absurd hupper (by decide)
  refine ⟨?_, hnot ';' (by simp)⟩
  simp [isMarkStart, hnot]

theorem pieces_of_isGoSeparator {line : List Piece} (hscanned : ∀ p ∈ line, ∃ after, Reads p after)
    (h : isGoSeparator cm (textOf line) = true) :
    ∀ p ∈ line, ∃ c, p = .char c ∧ c ≠ ';' := by
  intro p hp
  obtain ⟨after, hreads⟩ := hscanned p hp
  have hmem : ∀ c ∈ p.text, c ∈ textOf line := fun c hc => List.mem_flatMap.mpr ⟨p, hp, hc⟩
  have hregion : ∀ segment, p.segment? = some segment → False := by
    intro segment hsegment
    obtain ⟨c, rest, htext, hmark, hblank⟩ := exists_mark_of_reads hsegment hreads
    have hgo := (ne_of_isGoSeparator h (hmem c (by simp [htext])) hblank).1
    rw [hmark] at hgo
    exact absurd hgo (by decide)
  cases p with
  | char c =>
    refine ⟨c, rfl, ?_⟩
    cases hblank : isWhitespace c with
    | false => exact (ne_of_isGoSeparator h (hmem c (by simp [Piece.text])) hblank).2
    | true =>
      rintro rfl
      exact absurd hblank (by decide)
  | literal t => exact (hregion _ rfl).elim
  | comment t isBlock => exact (hregion _ rfl).elim

theorem openStatement_of_chars {line : List Piece} (h : ∀ p ∈ line, ∃ c, p = .char c ∧ c ≠ ';') :
    openStatement line = line := by
  rw [openStatement, List.rtakeWhile_eq_self_iff]
  intro p hp
  obtain ⟨c, rfl, hc⟩ := h p hp
  simpa [Piece.isSemicolon] using hc

theorem codeOf_of_chars {line : List Piece} (h : ∀ p ∈ line, ∃ c, p = .char c ∧ c ≠ ';') :
    codeOf line = textOf line := by
  induction line with
  | nil => rfl
  | cons p line ih =>
    obtain ⟨c, rfl, -⟩ := h p List.mem_cons_self
    have htail := ih fun q hq => h q (List.mem_cons_of_mem _ hq)
    simp only [codeOf, List.filterMap_cons, Piece.code?, textOf_cons, Piece.text,
      List.singleton_append, List.cons.injEq, true_and]
    exact htail

theorem keptPieces_of_isGoSeparator {line : List Piece}
    (hscanned : ∀ p ∈ line, ∃ after, Reads p after)
    (h : isGoSeparator cm (textOf line) = true) : keptPieces cm line = [] := by
  have hchars := pieces_of_isGoSeparator hscanned h
  have hopen := openStatement_of_chars hchars
  have hclosed : closedStatements line = [] := by
    have happend := closedStatements_append_openStatement line
    rw [hopen] at happend
    simpa using happend
  rw [keptPieces, hclosed, hopen, codeOf_of_chars hchars, h]
  rfl

theorem significant_openStatement_ne_nil {line : List Piece}
    (h : isGoSeparator cm (codeOf (openStatement line)) = true) :
    significant (openStatement line) ≠ [] := by
  rw [isGoSeparator, beq_iff_eq] at h
  obtain ⟨c, hc, hblank⟩ : ∃ c ∈ codeOf (openStatement line), isWhitespace c = false := by
    by_contra hnone
    push Not at hnone
    have hall : ∀ c ∈ codeOf (openStatement line), isWhitespace c = true := by
      intro c hc
      simpa using hnone c hc
    have htrim : trim (codeOf (openStatement line)) = [] := by
      have hleft : trimLeft (codeOf (openStatement line)) = [] := List.dropWhile_eq_nil_iff.mpr hall
      rw [trim, hleft]
      rfl
    rw [htrim] at h
    simp [CaseMap.toUpperCase] at h
  obtain ⟨p, hp, hcode⟩ := List.mem_filterMap.mp hc
  have hpc : p = .char c := by
    cases p <;> simp [Piece.code?] at hcode
    rw [hcode]
  have hsemi : c ≠ ';' := by
    have hkeep := List.mem_rtakeWhile_imp hp
    rw [hpc] at hkeep
    simpa [Piece.isSemicolon] using hkeep
  have hmem : p ∈ significant (openStatement line) := by
    refine List.mem_filter.mpr ⟨hp, ?_⟩
    simp [hpc, Piece.isSignificant, hblank, hsemi]
  exact List.ne_nil_of_mem hmem

/-- The splitter keeps of a line what should be kept, or less of a line that it
takes for a separator by mistake. -/
theorem keptPieces_cases {line : List Piece} (hscanned : ∀ p ∈ line, ∃ after, Reads p after) :
    if isGoSeparator cm (codeOf (openStatement line)) && !isGoSeparator cm (textOf line)
    then (keptPieces cm line).length < (expectedLine cm line).length
    else keptPieces cm line = expectedLine cm line := by
  have hline : significant line =
      significant (closedStatements line) ++ significant (openStatement line) := by
    rw [← significant_append, closedStatements_append_openStatement]
  cases hwhole : isGoSeparator cm (textOf line) with
  | true => simp [expectedLine, hwhole, keptPieces_of_isGoSeparator hscanned hwhole]
  | false =>
    cases hopen : isGoSeparator cm (codeOf (openStatement line)) with
    | true =>
      have hne := List.length_pos_iff.mpr (significant_openStatement_ne_nil hopen)
      simp only [Bool.not_false, Bool.and_self, if_true]
      simp only [expectedLine, hwhole, keptPieces, hopen, hline, if_true, Bool.false_eq_true,
        if_false, List.length_append, List.length_nil]
      omega
    | false =>
      simp [expectedLine, hwhole, keptPieces, hopen, hline]

end Separators

/-! ## The comparison -/

theorem mem_lines {ps : List Piece} {p : Piece} :
    (∃ line ∈ lines ps, p ∈ line) ↔ p ∈ ps ∧ p.isLineBreak = false := by
  unfold lines
  induction ps with
  | nil => simp
  | cons q ps ih =>
    rw [List.splitOnP_cons_eq_if_modifyHead]
    split
    · rename_i hq
      simp only [List.mem_cons, exists_eq_or_imp, List.not_mem_nil, false_or, ih]
      constructor
      · rintro ⟨hp, hbreak⟩
        exact ⟨Or.inr hp, hbreak⟩
      · rintro ⟨rfl | hp, hbreak⟩
        · rw [hq] at hbreak
          exact absurd hbreak (by decide)
        · exact ⟨hp, hbreak⟩
    · rename_i hq
      obtain ⟨l, ls, hl⟩ := List.exists_cons_of_ne_nil (List.splitOnP_ne_nil Piece.isLineBreak ps)
      rw [hl] at ih ⊢
      simp only [List.modifyHead_cons, List.mem_cons, exists_eq_or_imp] at ih ⊢
      constructor
      · rintro ((rfl | hp) | hp)
        · exact ⟨Or.inl rfl, by simpa using hq⟩
        · exact ⟨Or.inr (ih.mp (Or.inl hp)).1, (ih.mp (Or.inl hp)).2⟩
        · exact ⟨Or.inr (ih.mp (Or.inr hp)).1, (ih.mp (Or.inr hp)).2⟩
      · rintro ⟨rfl | hp, hbreak⟩
        · exact Or.inl (Or.inl rfl)
        · rcases ih.mpr ⟨hp, hbreak⟩ with h | h
          · exact Or.inl (Or.inr h)
          · exact Or.inr h

theorem reads_of_mem_line {sql : Text} {line : List Piece} (hline : line ∈ lines (pieces sql)) :
    ∀ p ∈ line, ∃ after, Reads p after := by
  intro p hp
  exact (scanned_pieces sql).1.reads_of_mem (mem_lines.mp ⟨line, hline, hp⟩).1

/-- Lists of lines that are never longer and together as long are line by line as
long. -/
theorem length_eq_of_flatMap_length_eq {α β : Type*} {f g : α → List β} {xs : List α}
    (hle : ∀ x ∈ xs, (f x).length ≤ (g x).length)
    (heq : (xs.flatMap f).length = (xs.flatMap g).length) :
    ∀ x ∈ xs, (f x).length = (g x).length := by
  induction xs with
  | nil => simp
  | cons x xs ih =>
    have htail : (xs.flatMap f).length ≤ (xs.flatMap g).length := by
      rw [List.length_flatMap, List.length_flatMap]
      exact List.sum_le_sum fun y hy => hle y (List.mem_cons_of_mem x hy)
    have hhead := hle x List.mem_cons_self
    simp only [List.flatMap_cons, List.length_append] at heq
    intro y hy
    rcases List.mem_cons.mp hy with rfl | hy
    · omega
    · exact ih (fun z hz => hle z (List.mem_cons_of_mem x hz)) (by omega) y hy

section Comparison

variable (cm : CaseMap)

/-- Every line that the splitter takes for a separator is one as a whole. -/
def SeparatorsWhole (sql : Text) : Prop :=
  ∀ line ∈ lines (pieces sql), isGoSeparator cm (codeOf (openStatement line)) = true →
    isGoSeparator cm (textOf line) = true

/-- The text does not end in blanks of an open literal. -/
def NoOpenBlank (sql : Text) : Prop :=
  ∀ t, Piece.literal t ∈ pieces sql → trimRight t = t

/-- The fragments hold every executed piece once and in order, and the count of
statements agrees with the fragments. -/
def SplitsFully (sql : Text) : Prop :=
  executed (splitSqlStatements cm sql) = expectedPieces cm sql ∧
    (sqlHasMultipleTopLevelStatements cm sql = true ↔ 1 < (splitSqlStatements cm sql).length)

variable {cm}

theorem kept_eq_expected {sql : Text} (hwhole : SeparatorsWhole cm sql) :
    (lines (pieces sql)).flatMap (keptPieces cm) = expectedPieces cm sql := by
  apply List.flatMap_congr
  intro line hline
  have hcases := @keptPieces_cases cm line (reads_of_mem_line hline)
  rw [if_neg] at hcases
  · exact hcases
  · intro hbad
    rw [Bool.and_eq_true, Bool.not_eq_true'] at hbad
    rw [hwhole line hline hbad.1] at hbad
    exact absurd hbad.2 (by decide)

/-- A fragment list that holds as many pieces as expected takes no line for a
separator by mistake. -/
theorem separatorsWhole_of_length {sql : Text}
    (heq : ((lines (pieces sql)).flatMap (keptPieces cm)).length =
      (expectedPieces cm sql).length) : SeparatorsWhole cm sql := by
  have hcases : ∀ line ∈ lines (pieces sql), _ := fun line hline =>
    @keptPieces_cases cm line (reads_of_mem_line hline)
  have hle : ∀ line ∈ lines (pieces sql),
      (keptPieces cm line).length ≤ (expectedLine cm line).length := by
    intro line hline
    have h := hcases line hline
    split at h
    · exact le_of_lt h
    · rw [h]
  intro line hline hopen
  by_contra hwhole
  rw [Bool.not_eq_true] at hwhole
  have hlt := hcases line hline
  rw [hopen, hwhole] at hlt
  have hsame := length_eq_of_flatMap_length_eq hle heq line hline
  simp only [Bool.not_false, Bool.and_self, if_true] at hlt
  omega

theorem mem_of_mem_expectedPieces {sql : Text} {p : Piece} (hp : p ∈ expectedPieces cm sql) :
    p ∈ pieces sql ∧ p.isSignificant = true := by
  obtain ⟨line, hline, hp⟩ := List.mem_flatMap.mp hp
  unfold expectedLine at hp
  split at hp
  · simp at hp
  · obtain ⟨hmem, hsig⟩ := List.mem_filter.mp hp
    exact ⟨(mem_lines.mp ⟨line, hline, hmem⟩).1, hsig⟩

theorem literal_mem_expectedPieces {sql t : Text} (ht : Piece.literal t ∈ pieces sql) :
    Piece.literal t ∈ expectedPieces cm sql := by
  obtain ⟨line, hline, hmem⟩ := mem_lines.mpr ⟨ht, rfl⟩
  refine List.mem_flatMap.mpr ⟨line, hline, ?_⟩
  unfold expectedLine
  split
  · rename_i hgo
    obtain ⟨c, hc, -⟩ := pieces_of_isGoSeparator (reads_of_mem_line hline) hgo _ hmem
    exact absurd hc (by simp)
  · exact List.mem_filter.mpr ⟨hmem, rfl⟩

theorem map_trimEnd_expectedPieces_iff {sql : Text} :
    (expectedPieces cm sql).map Piece.trimEnd = expectedPieces cm sql ↔ NoOpenBlank sql := by
  conv_lhs => rhs; rw [← List.map_id (expectedPieces cm sql)]
  rw [List.map_inj_left]
  constructor
  · intro hall t ht
    have htrim := hall _ (literal_mem_expectedPieces ht)
    simpa [Piece.trimEnd] using htrim
  · intro hblank p hp
    obtain ⟨hmem, hsig⟩ := mem_of_mem_expectedPieces hp
    cases p with
    | char c => rfl
    | literal t =>
      rw [Piece.trimEnd, hblank t hmem]
      rfl
    | comment t isBlock => simp [Piece.isSignificant] at hsig

end Comparison

/-! ## The count of statements -/

/-- The callback of `sqlHasMultipleTopLevelStatements`. -/
def countSegment (n : Nat) (_ : Text) : Nat × Bool := (n + 1, decide (1 < n + 1))

/-- The counting scan next to the full one: they go together until the second
fragment, where the counting one stops. -/
inductive CountsAlong : SplitState (List Text) → SplitState Nat → Prop where
  | together (buf : Text) (start : Nat) (code : Text) (out : List Text) (h : out.length ≤ 1) :
      CountsAlong ⟨buf, start, code, false, out⟩ ⟨buf, start, code, false, out.length⟩
  | stopped (s : SplitState (List Text)) (t : SplitState Nat) (hs : 1 < s.seen.length)
      (hrunning : s.stop = false) (ht : 1 < t.seen) (hstop : t.stop = true) : CountsAlong s t

section Count

variable {cm : CaseMap} {s : SplitState (List Text)} {t : SplitState Nat}

theorem CountsAlong.running (h : CountsAlong s t) : s.stop = false := by
  cases h with
  | together => rfl
  | stopped _ _ _ hrunning => exact hrunning

theorem length_seen_flush (s : SplitState (List Text)) :
    s.seen.length ≤ (s.flush collectSegment).seen.length ∧
      (s.flush collectSegment).stop = false := by
  unfold SplitState.flush
  dsimp only
  split
  · exact ⟨le_refl _, rfl⟩
  · simp [collectSegment]

theorem CountsAlong.flush (h : CountsAlong s t) (hrunning : t.stop = false) :
    CountsAlong (s.flush collectSegment) (t.flush countSegment) := by
  cases h with
  | stopped _ _ _ _ _ hstop => rw [hstop] at hrunning; exact absurd hrunning (by decide)
  | together buf start code out hle =>
    unfold SplitState.flush
    dsimp only
    split
    · exact .together [] 0 [] out hle
    · by_cases hlen : out.length = 0
      · have hnil : out = [] := List.length_eq_zero_iff.mp hlen
        subst hnil
        exact .together [] 0 [] [trim buf] (by simp)
      · refine .stopped _ _ ?_ rfl ?_ ?_ <;> simp [collectSegment, countSegment] <;> omega

theorem CountsAlong.handleEndOfLine (h : CountsAlong s t) (hrunning : t.stop = false)
    (breaks : Text) :
    CountsAlong ({ s with buf := s.buf ++ breaks }.handleEndOfLine cm collectSegment)
      ({ t with buf := t.buf ++ breaks }.handleEndOfLine cm countSegment) := by
  cases h with
  | stopped _ _ _ _ _ hstop => rw [hstop] at hrunning; exact absurd hrunning (by decide)
  | together buf start code out hle =>
    have hdrop : CountsAlong
        (⟨(buf ++ breaks).take start, start, code, false, out⟩ : SplitState (List Text))
        ⟨(buf ++ breaks).take start, start, code, false, out.length⟩ := .together _ _ _ _ hle
    have hflush := hdrop.flush rfl
    unfold SplitState.handleEndOfLine
    dsimp only
    split
    · have hcode : ∀ (u : SplitState (List Text)) (v : SplitState Nat), CountsAlong u v →
          CountsAlong { u with lineCode := [] } { v with lineCode := [] } := by
        intro u v huv
        cases huv with
        | together buf start code out hle => exact .together buf start [] out hle
        | stopped _ _ hs hr ht hstop => exact .stopped _ _ hs hr ht hstop
      exact hcode _ _ hflush
    · exact .together _ _ _ _ hle

/-- The full scan never stops and never loses a fragment. -/
theorem length_seen_writeCodeRange (cm : CaseMap) (x : Text) (s : SplitState (List Text))
    (hrunning : s.stop = false) :
    s.seen.length ≤ (s.writeCodeRange cm collectSegment x).seen.length ∧
      (s.writeCodeRange cm collectSegment x).stop = false := by
  have hend : ∀ (u : SplitState (List Text)), u.stop = false →
      u.seen.length ≤ (u.handleEndOfLine cm collectSegment).seen.length ∧
        (u.handleEndOfLine cm collectSegment).stop = false := by
    intro u hu
    unfold SplitState.handleEndOfLine
    dsimp only
    split
    · exact length_seen_flush u.discardCurrentLine
    · exact ⟨le_refl _, hu⟩
  fun_induction SplitState.writeCodeRange cm collectSegment s x with
  | case1 s => exact ⟨le_refl _, hrunning⟩
  | case2 s c rest hstop => exact ⟨le_refl _, hrunning⟩
  | case3 s c rest _ _ ih =>
    obtain ⟨hle, hstop⟩ := length_seen_flush s
    exact ⟨le_trans hle (ih hstop).1, (ih hstop).2⟩
  | case4 s c _ _ hbreak d rest hcrlf ih =>
    obtain ⟨hle, hstop⟩ := hend { s with buf := s.buf ++ [c, d] } hrunning
    exact ⟨le_trans hle (ih hstop).1, (ih hstop).2⟩
  | case5 s c _ _ hbreak d rest hcrlf ih =>
    obtain ⟨hle, hstop⟩ := hend { s with buf := s.buf ++ [c] } hrunning
    exact ⟨le_trans hle (ih hstop).1, (ih hstop).2⟩
  | case6 s c _ _ hbreak => exact hend { s with buf := s.buf ++ [c] } hrunning
  | case7 s c rest _ _ _ ih => exact ih hrunning

theorem writeCodeRange_of_stop (x : Text) {t : SplitState Nat} (hstop : t.stop = true) :
    t.writeCodeRange cm countSegment x = t := by
  cases x with
  | nil => rw [SplitState.writeCodeRange]
  | cons c x =>
    rw [SplitState.writeCodeRange.eq_def]
    simp [hstop]

theorem CountsAlong.writeCodeRange (x : Text) {s : SplitState (List Text)} {t : SplitState Nat}
    (h : CountsAlong s t) :
    CountsAlong (s.writeCodeRange cm collectSegment x) (t.writeCodeRange cm countSegment x) := by
  cases hstop : t.stop with
  | true =>
    rw [writeCodeRange_of_stop x hstop]
    obtain ⟨hle, hrunning⟩ := length_seen_writeCodeRange cm x s h.running
    cases h with
    | together => simp at hstop
    | stopped _ _ hs _ ht _ => exact .stopped _ _ (lt_of_lt_of_le hs hle) hrunning ht hstop
  | false =>
    match x with
    | [] =>
      rw [SplitState.writeCodeRange, SplitState.writeCodeRange]
      exact h
    | c :: rest =>
      rw [writeCodeRange_cons cm collectSegment h.running,
        writeCodeRange_cons cm countSegment hstop]
      split
      · exact CountsAlong.writeCodeRange rest (h.flush hstop)
      · split
        · split
          · rename_i d rest'
            split
            · exact CountsAlong.writeCodeRange rest' (h.handleEndOfLine hstop [c, d])
            · exact CountsAlong.writeCodeRange (d :: rest') (h.handleEndOfLine hstop [c])
          · exact h.handleEndOfLine hstop [c]
        · apply CountsAlong.writeCodeRange rest
          cases h with
          | together buf start code out hle => exact .together _ _ _ _ hle
          | stopped _ _ _ _ _ hstop' => rw [hstop'] at hstop; exact absurd hstop (by decide)

theorem CountsAlong.onSegment (h : CountsAlong s t) (segment : Segment) :
    CountsAlong (s.onSegment cm collectSegment segment) (t.onSegment cm countSegment segment) := by
  have hwrite : ∀ text : Text, CountsAlong (if s.stop then s else { s with buf := s.buf ++ text })
      (if t.stop then t else { t with buf := t.buf ++ text }) := by
    intro text
    rw [if_neg (by simp [h.running])]
    cases h with
    | together buf start code out hle => exact .together _ _ _ _ hle
    | stopped _ _ hs hr ht hstop =>
      rw [if_pos hstop]
      exact .stopped _ _ hs hr ht hstop
  cases segment with
  | code x => exact h.writeCodeRange x
  | literal text => exact hwrite text
  | comment text isBlock => exact hwrite text

theorem CountsAlong.foldl (cm : CaseMap) (segments : List Segment) {s : SplitState (List Text)}
    {t : SplitState Nat} (h : CountsAlong s t) :
    CountsAlong (segments.foldl (SplitState.onSegment cm collectSegment) s)
      (segments.foldl (SplitState.onSegment cm countSegment) t) := by
  induction segments generalizing s t with
  | nil => exact h
  | cons segment segments ih => exact ih (h.onSegment segment)

end Count

/-- The count is above one exactly when there are two fragments or more. -/
theorem sqlHasMultipleTopLevelStatements_iff (cm : CaseMap) (sql : Text) :
    sqlHasMultipleTopLevelStatements cm sql = true ↔ 1 < (splitSqlStatements cm sql).length := by
  have hstart : CountsAlong ({ seen := [] } : SplitState (List Text)) { seen := 0 } :=
    .together [] 0 [] [] (by simp)
  have hfold := hstart.foldl cm (scanSqlText sql)
  show decide (1 < scanTopLevelSqlStatements cm countSegment sql 0) = true ↔
    1 < (scanTopLevelSqlStatements cm collectSegment sql []).length
  unfold scanTopLevelSqlStatements
  rw [decide_eq_true_iff]
  generalize (scanSqlText sql).foldl (SplitState.onSegment cm collectSegment) { seen := [] } = s
    at hfold ⊢
  generalize (scanSqlText sql).foldl (SplitState.onSegment cm countSegment) { seen := 0 } = t
    at hfold ⊢
  cases hfold with
  | stopped _ _ hs hr ht hstop =>
    have hgrows : ∀ u : SplitState (List Text), u.seen = s.seen →
        1 < (u.flush collectSegment).seen.length := by
      intro u hu
      have hle := (length_seen_flush u).1
      rw [hu] at hle
      omega
    simp only [hstop, Bool.not_true, Bool.false_and, Bool.false_eq_true, if_false, if_true, ht,
      true_iff]
    split
    · rw [if_neg (by simp [SplitState.discardCurrentLine, hr])]
      exact hgrows _ rfl
    · rw [if_neg (by simp [hr])]
      exact hgrows _ rfl
  | together buf start code out hle =>
    have hlast : ∀ b : Text, 1 < ((⟨b, start, code, false, out.length⟩ : SplitState Nat).flush
        countSegment).seen ↔ 1 < ((⟨b, start, code, false, out⟩ : SplitState (List Text)).flush
        collectSegment).seen.length := by
      intro b
      unfold SplitState.flush
      dsimp only
      split
      · rfl
      · simp [countSegment, collectSegment]
    cases hgo : isGoSeparator cm code with
    | true => simpa [hgo, SplitState.discardCurrentLine] using hlast (buf.take start)
    | false => simpa [hgo] using hlast buf

/-- The splitter loses nothing that is executed exactly when each line that it takes
for a separator is one as a whole and no open literal ends in blanks. -/
theorem splitsFully_iff (cm : CaseMap) (sql : Text) :
    SplitsFully cm sql ↔ SeparatorsWhole cm sql ∧ NoOpenBlank sql := by
  unfold SplitsFully
  rw [significant_splitSqlStatements]
  constructor
  · rintro ⟨heq, -⟩
    have hlength := congrArg List.length heq
    rw [List.length_map] at hlength
    have hwhole := separatorsWhole_of_length hlength
    rw [kept_eq_expected hwhole] at heq
    exact ⟨hwhole, map_trimEnd_expectedPieces_iff.mp heq⟩
  · rintro ⟨hwhole, hblank⟩
    rw [kept_eq_expected hwhole]
    exact ⟨map_trimEnd_expectedPieces_iff.mpr hblank, sqlHasMultipleTopLevelStatements_iff cm sql⟩

/-- The line `GO 'x'` is dropped with its literal. -/
theorem not_splitsFully_literal :
    ¬ SplitsFully asciiCase "SELECT 1\nGO 'x'\nSELECT 2".toList := by
  unfold SplitsFully
  decide +kernel

end PlugAgente.Sql
