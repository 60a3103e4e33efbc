import PlugAgente.Dart.Loop
import PlugAgente.Dart.Text

/-!
# The walk over SQL text

`scanSqlText` is the walk that every SQL text routine of the agent shares: it
cuts a text into code, literals (quoted or bracketed) and comments and reports
the ranges in order.  The source reports a range by its two indices; the model
reports its text, so that the range of a segment is the length of the segments
before it.

`stripTopLevelSqlComments` and the statement splitter are the callers.
-/

namespace PlugAgente.Sql

open PlugAgente.Dart

/-- A range that `scanSqlText` reports. -/
inductive Segment where
  | code (text : Text)
  | literal (text : Text)
  | comment (text : Text) (isBlock : Bool)
  deriving Repr, DecidableEq

namespace Segment

/-- The characters of the range. -/
def text : Segment → Text
  | .code t => t
  | .literal t => t
  | .comment t _ => t

end Segment

def isLineBreak (c : Char) : Bool := c == '\n' || c == '\r'

/-- The body of a `--` comment: everything up to the end of the line, and the
text from there. -/
def lineCommentEnd : Text → Text × Text
  | [] => ([], [])
  | c :: rest =>
    if isLineBreak c then ([], c :: rest)
    else
      let r := lineCommentEnd rest
      (c :: r.1, r.2)

/-- The body of a block comment with its end mark, and the text after it.  An
open comment takes the rest of the text. -/
def blockCommentEnd : Text → Text × Text
  | [] => ([], [])
  | c :: rest =>
    match rest with
    | d :: rest' =>
      if c == '*' && d == '/' then ([c, d], rest')
      else
        let r := blockCommentEnd rest
        (c :: r.1, r.2)
    | [] => ([c], [])

/-- A bracketed name after its opening bracket, with the closing bracket, and
the text after it. -/
def bracketEnd : Text → Text × Text
  | [] => ([], [])
  | c :: rest =>
    if c == ']' then ([c], rest)
    else
      let r := bracketEnd rest
      (c :: r.1, r.2)

/-- `_scanQuotedLiteral`: a quoted text after its opening quote, with the closing
quote, and the text after it.  A doubled quote stays inside. -/
def scanQuotedLiteral (quote : Char) : Text → Text × Text
  | [] => ([], [])
  | c :: rest =>
    if c == quote then
      match rest with
      | d :: rest' =>
        if d == quote then
          let r := scanQuotedLiteral quote rest'
          (c :: d :: r.1, r.2)
        else ([c], d :: rest')
      | [] => ([c], [])
    else
      let r := scanQuotedLiteral quote rest
      (c :: r.1, r.2)

/-- `flushCode`: an empty range is not reported. -/
def flushCode (code : Text) : List Segment :=
  if code.isEmpty then [] else [.code code]

/-- What starts at a position of code: a comment or a literal with the text
after it, or nothing. -/
def regionAt : Text → Option (Segment × Text)
  | '-' :: '-' :: rest =>
    let r := lineCommentEnd rest
    some (.comment ('-' :: '-' :: r.1) false, r.2)
  | '/' :: '*' :: rest =>
    let r := blockCommentEnd rest
    some (.comment ('/' :: '*' :: r.1) true, r.2)
  | '[' :: rest =>
    let r := bracketEnd rest
    some (.literal ('[' :: r.1), r.2)
  | '\'' :: rest =>
    let r := scanQuotedLiteral '\'' rest
    some (.literal ('\'' :: r.1), r.2)
  | '"' :: rest =>
    let r := scanQuotedLiteral '"' rest
    some (.literal ('"' :: r.1), r.2)
  | _ => none

/-- The cursor of the walk: the code not yet reported and the text ahead. -/
structure ScanCursor where
  code : Text
  rest : Text
  deriving Repr, DecidableEq

/-- One round of the walk. -/
def scanRound (s : ScanCursor) : List Segment × Option ScanCursor :=
  match s.rest with
  | [] => (flushCode s.code, none)
  | c :: rest =>
    match regionAt (c :: rest) with
    | some (segment, after) => (flushCode s.code ++ [segment], some ⟨[], after⟩)
    | none => ([], some ⟨s.code ++ [c], rest⟩)

/-- `scanSqlText`: the ranges of a text, in order. -/
def scanSqlText (sql : Text) : List Segment :=
  Loop.collect (fun s : ScanCursor => s.rest.length) scanRound ⟨[], sql⟩

/-- `stripTopLevelSqlComments`: every comment becomes one blank. -/
def stripTopLevelSqlComments (sql : Text) : Text :=
  (scanSqlText sql).flatMap fun
    | .code t => t
    | .literal t => t
    | .comment _ _ => [' ']

end PlugAgente.Sql
