import PlugAgente.Sql.TextScanner

/-!
# Splitting a text into statements

`splitSqlStatements` cuts a text at the top-level `;` and at the lines that hold
the batch separator `GO`.  `sqlHasMultipleTopLevelStatements` runs the same scan
and stops at the second statement.  Both hand the scan a callback that gets each
non-empty fragment and answers whether to stop.

`PreparedSql` is one parse of a request: the trimmed text, the text without
comments, and the answer of the statement count.
-/

namespace PlugAgente.Sql

open PlugAgente.Dart

/-- The variables of `_scanTopLevelSqlStatements`, and the state `seen` of the
callback. -/
structure SplitState (σ : Type) where
  buf : Text := []
  stmtLineStart : Nat := 0
  lineCode : Text := []
  stop : Bool := false
  seen : σ

section Scan

variable (cm : CaseMap) {σ : Type} (onNonEmptySegment : σ → Text → σ × Bool)

/-- `flush`: hand the trimmed buffer to the callback, if anything is left. -/
def SplitState.flush (s : SplitState σ) : SplitState σ :=
  let trimmed := trim s.buf
  if trimmed.isEmpty then ⟨[], 0, [], false, s.seen⟩
  else
    let r := onNonEmptySegment s.seen trimmed
    ⟨[], 0, [], r.2, r.1⟩

def SplitState.discardCurrentLine (s : SplitState σ) : SplitState σ :=
  { s with buf := s.buf.take s.stmtLineStart }

/-- Whether the code of a line is the batch separator. -/
def isGoSeparator (lineCode : Text) : Bool :=
  cm.toUpperCase (trim lineCode) == ['G', 'O']

def SplitState.handleEndOfLine (s : SplitState σ) : SplitState σ :=
  let s :=
    if isGoSeparator cm s.lineCode then s.discardCurrentLine.flush onNonEmptySegment
    else { s with stmtLineStart := s.buf.length }
  { s with lineCode := [] }

def SplitState.writeCodeRange : SplitState σ → Text → SplitState σ
  | s, [] => s
  | s, c :: rest =>
    if s.stop then s
    else if c == ';' then writeCodeRange (s.flush onNonEmptySegment) rest
    else if isLineBreak c then
      match rest with
      | d :: rest' =>
        if c == '\r' && d == '\n' then
          writeCodeRange
            ({ s with buf := s.buf ++ [c, d] }.handleEndOfLine cm onNonEmptySegment) rest'
        else
          writeCodeRange
            ({ s with buf := s.buf ++ [c] }.handleEndOfLine cm onNonEmptySegment) (d :: rest')
      | [] => { s with buf := s.buf ++ [c] }.handleEndOfLine cm onNonEmptySegment
    else
      writeCodeRange { s with buf := s.buf ++ [c], lineCode := s.lineCode ++ [c] } rest

/-- The three callbacks that `_scanTopLevelSqlStatements` gives to the walk. -/
def SplitState.onSegment (s : SplitState σ) : Segment → SplitState σ
  | .code t => s.writeCodeRange cm onNonEmptySegment t
  | .literal t => if s.stop then s else { s with buf := s.buf ++ t }
  | .comment t _ => if s.stop then s else { s with buf := s.buf ++ t }

def scanTopLevelSqlStatements (sql : Text) (start : σ) : σ :=
  let s : SplitState σ :=
    (scanSqlText sql).foldl (SplitState.onSegment cm onNonEmptySegment) { seen := start }
  let s := if !s.stop && isGoSeparator cm s.lineCode then s.discardCurrentLine else s
  if s.stop then s.seen else (s.flush onNonEmptySegment).seen

end Scan

variable (cm : CaseMap)

/-- `splitSqlStatements`: the callback collects the fragments and never stops. -/
def splitSqlStatements (sql : Text) : List Text :=
  scanTopLevelSqlStatements cm (fun out trimmed => (out ++ [trimmed], false)) sql []

/-- `sqlHasMultipleTopLevelStatements`: the callback counts and stops above one. -/
def sqlHasMultipleTopLevelStatements (sql : Text) : Bool :=
  1 < scanTopLevelSqlStatements cm (fun n _ => (n + 1, decide (1 < n + 1))) sql 0

/-- `PreparedSql`: one parse of a request.  Its fingerprint is `Fingerprint.fingerprintFor`. -/
structure PreparedSql where
  raw : Text
  trimmed : Text
  stripped : Text
  hasMultipleStatements : Bool

def PreparedSql.parse (raw : Text) : PreparedSql :=
  let trimmed := trim raw
  { raw := raw
    trimmed := trimmed
    stripped := trim (stripTopLevelSqlComments trimmed)
    hasMultipleStatements := sqlHasMultipleTopLevelStatements cm trimmed }

end PlugAgente.Sql
