import PlugAgente.Authorization.ClientTokenPolicy
import PlugAgente.Sql.StatementSplit

/-!
# The SQL operation classifier

`SqlOperationClassifier` reads the resources of a statement off its text by
looking for keywords outside quotes.  An index of the source is modelled by the
suffix it points at; where the code looks one character back
(`_isWordBoundary(sql, index - 1)`) the character before the suffix is carried
along.

Every loop is a `Loop` whose measure is the length of the text ahead, and
`_extractByKeywords` recurses on the nesting depth that is left.
-/

namespace PlugAgente.Sql

open PlugAgente.Dart PlugAgente.Authorization

/-! ## Results -/

structure ClassifiedSqlResource where
  resource : DatabaseResource
  operation : SqlOperation
  deriving Repr, DecidableEq

structure SqlOperationClassification where
  operation : SqlOperation
  resources : List ClassifiedSqlResource
  deriving Repr, DecidableEq

/-- `SqlClassificationReasons`. -/
inductive SqlClassificationReason where
  | emptySql
  | multipleStatements
  | unsupportedOperation
  | noTargetResources
  | nestingLimit
  | unclosedConstruct
  deriving Repr, DecidableEq

/-- The failure of a classification: its message and the `reason` of its
context.  `_SqlClassificationAbort` carries the same two. -/
structure ClassificationFailure where
  message : String
  reason : SqlClassificationReason
  deriving Repr, DecidableEq

/-- A computation that `_SqlClassificationAbort` may leave. -/
abbrev Aborting (α : Type) := Except ClassificationFailure α

def abortNesting : ClassificationFailure :=
  ⟨"SQL derived-table nesting exceeds the classification limit", .nestingLimit⟩

def abortParenthesis : ClassificationFailure :=
  ⟨"Unclosed SQL parenthesis", .unclosedConstruct⟩

def abortIdentifier : ClassificationFailure :=
  ⟨"Unclosed SQL identifier", .unclosedConstruct⟩

def abortLiteral : ClassificationFailure :=
  ⟨"Unclosed SQL literal", .unclosedConstruct⟩

/-! ## Characters and keywords -/

/-- `_isIdentifierStart`: `[a-z_]`, ignoring case. -/
def isIdentifierStart (c : Char) : Bool := c.isAlpha || c == '_'

/-- `_isIdentifierPart`: `[a-z0-9_$#]`, ignoring case. -/
def isIdentifierPart (c : Char) : Bool :=
  c.isAlphanum || c == '_' || c == '$' || c == '#'

/-- `_isWordBoundary` at the character before or after a keyword; `none` is
outside the text. -/
def isWordBoundary : Option Char → Bool
  | none => true
  | some c => !isIdentifierPart c

/-- `_isKeywordAt`: the keyword stands at the start of `text` as a whole word;
`before` is the character in front of it. -/
def isKeywordAt (before : Option Char) (keyword text : Text) : Bool :=
  keyword.isPrefixOf text && isWordBoundary before &&
    isWordBoundary (text.drop keyword.length).head?

def skipWhitespace (text : Text) : Text := text.dropWhile isWhitespace

/-! ## Quoted regions -/

/-- `_findClosingDelimiter`: the text inside the delimiters, of a text that
starts after the opening one, and the text after the closing one. -/
def findClosingDelimiter (delimiter : Char) : Text → Option (Text × Text)
  | [] => none
  | c :: rest =>
    if c == delimiter then
      match rest with
      | d :: rest' =>
        if d == delimiter then
          match findClosingDelimiter delimiter rest' with
          | none => none
          | some r => some (c :: d :: r.1, r.2)
        else some ([], d :: rest')
      | [] => some ([], [])
    else
      match findClosingDelimiter delimiter rest with
      | none => none
      | some r => some (c :: r.1, r.2)

/-- `sql.indexOf(']', start)`: the text before the first bracket, and the text
after it. -/
def findClosingBracket : Text → Option (Text × Text)
  | [] => none
  | c :: rest =>
    if c == ']' then some ([], rest)
    else
      match findClosingBracket rest with
      | none => none
      | some r => some (c :: r.1, r.2)

/-- The result of `_skipQuotedRegion`: the closing character and the text after
the region, or `none` when no region starts here. -/
def skipQuotedRegion : Text → Aborting (Option (Char × Text))
  | [] => .ok none
  | c :: rest =>
    if c == '\'' || c == '"' || c == '`' then
      match findClosingDelimiter c rest with
      | none => .error abortLiteral
      | some r => .ok (some (c, r.2))
    else if c == '[' then
      match findClosingBracket rest with
      | none => .error abortIdentifier
      | some r => .ok (some (']', r.2))
    else .ok none

/-! ## The keyword search -/

/-- A position in a text: the character before it and the text from it on. -/
structure Cursor where
  before : Option Char
  rest : Text
  deriving Repr, DecidableEq

/-- The cursor `n` characters on. -/
def Cursor.advance (c : Cursor) (n : Nat) : Cursor :=
  ⟨if n = 0 then c.before else (c.rest.take n).getLast?, c.rest.drop n⟩

/-- One round of `_findKeyword`. -/
def findKeywordRound (keyword : Text) (c : Cursor) : Cursor ⊕ Aborting (Option Cursor) :=
  match c.rest with
  | [] => .inr (.ok none)
  | ch :: rest =>
    match skipQuotedRegion (ch :: rest) with
    | .error e => .inr (.error e)
    | .ok (some (close, after)) => .inl ⟨some close, after⟩
    | .ok none =>
      if isKeywordAt c.before keyword (ch :: rest) then .inr (.ok (some c))
      else .inl ⟨some ch, rest⟩

/-- `_findKeyword`: the first position from `c` on where the keyword stands
outside quotes. -/
def findKeyword (keyword : Text) (c : Cursor) : Aborting (Option Cursor) :=
  Loop.whileDec (fun c : Cursor => c.rest.length) (findKeywordRound keyword) (.ok none) c

/-- The state of `_findClosingParenthesis`: the depth, the text passed and the
text ahead. -/
structure ParenState where
  depth : Nat
  passed : Text
  rest : Text

/-- One round of `_findClosingParenthesis`. -/
def findClosingParenthesisRound (s : ParenState) :
    ParenState ⊕ Aborting (Option (Text × Text)) :=
  match s.rest with
  | [] => .inr (.ok none)
  | c :: rest =>
    match skipQuotedRegion (c :: rest) with
    | .error e => .inr (.error e)
    | .ok (some (_, after)) =>
      .inl ⟨s.depth, s.passed ++ (c :: rest).take ((c :: rest).length - after.length), after⟩
    | .ok none =>
      if c == '(' then .inl ⟨s.depth + 1, s.passed ++ [c], rest⟩
      else if c == ')' then
        if s.depth = 1 then .inr (.ok (some (s.passed, rest)))
        else .inl ⟨s.depth - 1, s.passed ++ [c], rest⟩
      else .inl ⟨s.depth, s.passed ++ [c], rest⟩

/-- `_findClosingParenthesis` of a text that starts after the opening
parenthesis: the text inside and the text after the closing one. -/
def findClosingParenthesis (text : Text) : Aborting (Option (Text × Text)) :=
  Loop.whileDec (fun s : ParenState => s.rest.length) findClosingParenthesisRound
    (.ok none) ⟨1, [], text⟩

/-! ## Identifiers -/

/-- `_readIdentifierSegment`: the segment with its quotes and the text after
it. -/
def readIdentifierSegment : Text → Aborting (Option (Text × Text))
  | [] => .ok none
  | c :: rest =>
    if c == '[' then
      match findClosingBracket rest with
      | none => .error abortIdentifier
      | some r => .ok (some (c :: r.1 ++ [']'], r.2))
    else if c == '"' || c == '`' then
      match findClosingDelimiter c rest with
      | none => .error abortIdentifier
      | some r => .ok (some (c :: r.1 ++ [c], r.2))
    else if !isIdentifierStart c then .ok none
    else .ok (some (c :: rest.takeWhile isIdentifierPart, rest.dropWhile isIdentifierPart))

/-- One round of the loop of `_readQualifiedIdentifier` over the segments; the
state is the buffer and the text ahead. -/
def readSegmentsRound (s : Text × Text) : (Text × Text) ⊕ Aborting (Text × Text) :=
  match skipWhitespace s.2 with
  | '.' :: rest =>
    match readIdentifierSegment (skipWhitespace rest) with
    | .error e => .inr (.error e)
    | .ok none => .inr (.ok (s.1 ++ ['.'], skipWhitespace rest))
    | .ok (some r) => .inl (s.1 ++ '.' :: r.1, r.2)
  | rest => .inr (.ok (s.1, rest))

/-- The loop of `_readQualifiedIdentifier`, after the first segment. -/
def readSegments (buffer text : Text) : Aborting (Text × Text) :=
  Loop.whileDec (fun s : Text × Text => s.2.length) readSegmentsRound (.ok ([], []))
    (buffer, text)

/-- `_readQualifiedIdentifier`: the name as written, its segments joined by dots,
and the text after it. -/
def readQualifiedIdentifier (text : Text) : Aborting (Option (Text × Text)) :=
  match skipWhitespace text with
  | [] => .ok none
  | c :: rest =>
    if c == '(' then .ok none
    else
      match readIdentifierSegment (c :: rest) with
      | .error e => .error e
      | .ok none => .ok none
      | .ok (some first) =>
        match readSegments first.1 first.2 with
        | .error e => .error e
        | .ok r => .ok (some r)

/-! ## CTE names -/

/-- The cursor moved on to a suffix of its text. -/
def Cursor.moveTo (c : Cursor) (text : Text) : Cursor :=
  ⟨((c.rest.take (c.rest.length - text.length)).getLast?).or c.before, text⟩

section Cte

variable (cm : CaseMap)

/-- `_isKeywordAt(lowerSql, keyword, index)` where the cursor is in `sql` and
`lowerSql` is `sql.toLowerCase()`. -/
def isLowerKeywordAt (keyword : Text) (c : Cursor) : Bool :=
  isKeywordAt (c.before.map cm.lower) keyword (cm.toLowerCase c.rest)

/-- The cursor after `n` characters and the blanks that follow. -/
def Cursor.skip (c : Cursor) (n : Nat) : Cursor :=
  c.moveTo (skipWhitespace (c.rest.drop n))

/-- The cursor after a parenthesised text and the blanks that follow; the cursor
stands at the opening parenthesis. -/
def skipParenthesis (c : Cursor) (inside : Text) : Aborting Cursor :=
  match findClosingParenthesis inside with
  | .error e => .error e
  | .ok none => .error abortParenthesis
  | .ok (some r) => .ok (c.moveTo (skipWhitespace r.2))

/-- The optional column list behind the name of a CTE. -/
def skipColumnList (c : Cursor) : Aborting Cursor :=
  match c.rest with
  | '(' :: inside => skipParenthesis c inside
  | _ => .ok c

/-- `AS (body)` behind the name of a CTE: the cursor after it, or `none` when
the text goes on otherwise. -/
def skipCteBody (c : Cursor) : Aborting (Option Cursor) :=
  if !isLowerKeywordAt cm "as".toList c then .ok none
  else
    match (c.skip 2).rest with
    | '(' :: inside =>
      match skipParenthesis (c.skip 2) inside with
      | .error e => .error e
      | .ok after => .ok (some after)
    | _ => .ok none

/-- One round of the loop of `_extractCteAliases`: one CTE. -/
def cteAliasRound (s : List Text × Cursor) :
    (List Text × Cursor) ⊕ Aborting (List Text) :=
  match s.2.rest with
  | [] => .inr (.ok s.1)
  | _ :: _ =>
    match readQualifiedIdentifier s.2.rest with
    | .error e => .inr (.error e)
    | .ok none => .inr (.ok s.1)
    | .ok (some (name, rest)) =>
      let aliases := s.1 ++ [normalizeName cm name]
      match skipColumnList (s.2.moveTo (skipWhitespace rest)) with
      | .error e => .inr (.error e)
      | .ok c =>
        match skipCteBody cm c with
        | .error e => .inr (.error e)
        | .ok none => .inr (.ok aliases)
        | .ok (some c) =>
          match c.rest with
          | ',' :: _ => .inl (aliases, c.skip 1)
          | _ => .inr (.ok aliases)

/-- `_extractCteAliases`: the normalised names of the CTEs of a `WITH` prefix. -/
def extractCteAliases (sql : Text) : Aborting (List Text) :=
  let start : Cursor := (⟨none, sql⟩ : Cursor).skip 0
  if !isLowerKeywordAt cm "with".toList start then .ok []
  else
    let c := start.skip 4
    let c := if isLowerKeywordAt cm "recursive".toList c then c.skip 9 else c
    Loop.whileDec (fun s : List Text × Cursor => s.2.rest.length) (cteAliasRound cm)
      (.ok []) ([], c)

def isCteAliasReference (resource : DatabaseResource) (cteAliases : List Text) : Bool :=
  if cteAliases.isEmpty then false
  else
    let normalized := resource.normalizedName cm
    cteAliases.contains normalized || cteAliases.contains (baseName normalized)

end Cte

/-! ## Extraction by keywords -/

/-- `SqlOperationClassifier.maxDerivedTableDepth`. -/
def maxDerivedTableDepth : Nat := 16

/-- Insertion into a set: an equal resource that is there already stays. -/
def addResource (cm : CaseMap) (set : List DatabaseResource) (r : DatabaseResource) :
    List DatabaseResource :=
  if set.any (·.sameAs cm r) then set else set ++ [r]

/-- One round of the search for one keyword.  `onGroup` handles a text that
follows the keyword in parentheses: it gets the text after the opening
parenthesis and gives the resources inside and the text after the closing one. -/
def extractRound (onGroup : Text → Aborting (List DatabaseResource × Text)) (keyword : Text)
    (c : Cursor) : Aborting (List DatabaseResource × Option Cursor) :=
  match findKeyword keyword c with
  | .error e => .error e
  | .ok none => .ok ([], none)
  | .ok (some at') =>
    let search := at'.advance keyword.length
    match skipWhitespace search.rest with
    | '(' :: inside =>
      match onGroup inside with
      | .error e => .error e
      | .ok (found, after) => .ok (found, some ⟨some ')', after⟩)
    | _ =>
      match readQualifiedIdentifier search.rest with
      | .error e => .error e
      | .ok none => .ok ([], some search)
      | .ok (some (name, _)) =>
        if (trim name).isEmpty then .ok ([], some search)
        else .ok ([⟨.unknown, name⟩], some search)

/-- The resources behind one keyword, over the whole text. -/
def extractKeyword (onGroup : Text → Aborting (List DatabaseResource × Text)) (sql keyword : Text) :
    Aborting (List DatabaseResource) :=
  Loop.emit (fun c : Cursor => c.rest.length) (extractRound onGroup keyword) ⟨none, sql⟩

/-- The keyword loop of `_extractByKeywords`. -/
def extractKeywords (onGroup : Text → Aborting (List DatabaseResource × Text)) (sql : Text) :
    List Text → Aborting (List DatabaseResource)
  | [] => .ok []
  | keyword :: keywords =>
    match extractKeyword onGroup sql keyword with
    | .error e => .error e
    | .ok found =>
      match extractKeywords onGroup sql keywords with
      | .error e => .error e
      | .ok more => .ok (found ++ more)

/-- The keywords that introduce a table that is read. -/
def readKeywords : List Text := ["from".toList, "join".toList, "apply".toList]

section Extract

variable (cm : CaseMap)

/-- `_extractByKeywords` at one level of nesting. -/
def extractLevel (onGroup : Text → Aborting (List DatabaseResource × Text)) (sql : Text)
    (keywords : List Text) : Aborting (List DatabaseResource) :=
  match extractCteAliases cm sql with
  | .error e => .error e
  | .ok cteAliases =>
    match extractKeywords onGroup sql keywords with
    | .error e => .error e
    | .ok found =>
      .ok ((found.foldl (addResource cm) []).filter (!isCteAliasReference cm · cteAliases))

/-- `_extractByKeywords`, where `room` is `maxDerivedTableDepth - subqueryDepth`. -/
def extractByKeywords : Nat → Text → List Text → Aborting (List DatabaseResource)
  | 0, sql, keywords => extractLevel cm (fun _ => .error abortNesting) sql keywords
  | room + 1, sql, keywords =>
    extractLevel cm
      (fun inside =>
        match findClosingParenthesis inside with
        | .error e => .error e
        | .ok none => .error abortParenthesis
        | .ok (some (inner, after)) =>
          match extractByKeywords room inner readKeywords with
          | .error e => .error e
          | .ok found => .ok (found, after))
      sql keywords

/-! ## The target of a write -/

def looksLikeAlias (identifier : Text) : Bool :=
  match trim identifier with
  | [] => false
  | c :: rest => !(c :: rest).contains '.' && !(c == '[') && !(c == '"') && !(c == '`')

/-- The suffix of `sql` at a cursor found in its lower-case form. -/
def suffixAt (sql : Text) (c : Cursor) : Text := sql.drop (sql.length - c.rest.length)

def extractUpdateTarget (sql : Text) : Aborting (Option Text) := do
  let lowerSql := cm.toLowerCase sql
  let some at' ← findKeyword "update".toList ⟨none, lowerSql⟩ | return none
  let some (name, rest) ← readQualifiedIdentifier ((suffixAt sql at').drop 6) | return none
  let after : Cursor := (⟨none, lowerSql⟩ : Cursor).moveTo (cm.toLowerCase rest)
  let hasFrom := (← findKeyword "from".toList after).isSome
  let hasFromClause ← if hasFrom then pure true else (·.isSome) <$> findKeyword "join".toList after
  return if hasFromClause && looksLikeAlias name then none else some name

def extractMergeTarget (sql : Text) : Aborting (Option Text) := do
  let some at' ← findKeyword "merge".toList ⟨none, sql⟩ | return none
  let c := at'.skip 5
  let c := if isKeywordAt c.before "into".toList c.rest then c.skip 4 else c
  let some (name, _) ← readQualifiedIdentifier c.rest | return none
  return if (trim name).isEmpty then none else some name

/-- `_findDdlObjectKeyword`: the first of the object keywords, and the cursor at
it. -/
def findDdlObjectKeyword (start : Cursor) (verb : Text) : Aborting (Option (Text × Cursor)) := do
  let table ← findKeyword "table".toList start
  let view ← if verb = "truncate".toList then pure none else findKeyword "view".toList start
  return match table, view with
    | none, none => none
    | some t, none => some ("table".toList, t)
    | none, some v => some ("view".toList, v)
    | some t, some v =>
      if t.rest.length < v.rest.length then some ("view".toList, v) else some ("table".toList, t)

def skipOptionalKeywordSequence (c : Cursor) : List Text → Option Cursor
  | [] => some (c.skip 0)
  | keyword :: keywords =>
    if isLowerKeywordAt cm keyword (c.skip 0) then
      skipOptionalKeywordSequence ((c.skip 0).skip keyword.length) keywords
    else none

/-- The verb of a DDL statement. -/
def ddlVerb (lowerSql : Text) : Option Text :=
  ["create".toList, "alter".toList, "drop".toList, "truncate".toList].find?
    fun verb => (verb ++ [' ']).isPrefixOf lowerSql

def extractDdlTarget (sql : Text) : Aborting (Option DatabaseResource) := do
  let lowerSql := cm.toLowerCase sql
  let some verb := ddlVerb lowerSql | return none
  let start := (⟨none, lowerSql⟩ : Cursor).skip verb.length
  let some (keyword, at') ← findDdlObjectKeyword start verb | return none
  let c := ((⟨none, sql⟩ : Cursor).moveTo (suffixAt sql at')).skip keyword.length
  let c := (skipOptionalKeywordSequence cm c ["if".toList, "exists".toList]).getD c
  let c := (skipOptionalKeywordSequence cm c ["if".toList, "not".toList, "exists".toList]).getD c
  let some (name, _) ← readQualifiedIdentifier c.rest | return none
  return if (trim name).isEmpty then none
    else some ⟨if keyword = "view".toList then .view else .table, name⟩

end Extract

/-! ## Classification -/

section Classify

variable (cm : CaseMap)

def detectOperation (sql : Text) : Option SqlOperation :=
  let starts (verbs : List String) := verbs.any fun verb => verb.toList.isPrefixOf sql
  if starts ["select ", "with "] then some .read
  else if starts ["update ", "insert ", "merge "] then some .update
  else if starts ["delete "] then some .delete
  else if starts ["create ", "alter ", "drop ", "truncate "] then some .ddl
  else none

/-- The local `addAll` of `_extractResources`: what is no CTE name goes into the
set of accesses. -/
def addAccesses (cteAliases : List Text) (accesses : List ClassifiedSqlResource)
    (resources : List DatabaseResource) (operation : SqlOperation) :
    List ClassifiedSqlResource :=
  (resources.filter (!isCteAliasReference cm · cteAliases)).foldl
    (fun set r =>
      if set.any (fun a => a.resource.sameAs cm r && a.operation == operation) then set
      else set ++ [⟨r, operation⟩])
    accesses

/-- `_extractByKeywords` from the outside. -/
def extractTop (sql : Text) (keywords : List Text) : Aborting (List DatabaseResource) :=
  extractByKeywords cm maxDerivedTableDepth sql keywords

def extractResources (sql : Text) (operation : SqlOperation) :
    Aborting (List ClassifiedSqlResource) := do
  let cteAliases ← extractCteAliases cm sql
  let add := addAccesses cm cteAliases
  match operation with
  | .read => return add [] (← extractTop cm sql readKeywords) .read
  | .update =>
    if "update ".toList.isPrefixOf sql then
      let target ← extractUpdateTarget cm sql
      let accesses := add [] (target.toList.map fun name => ⟨.unknown, name⟩) .update
      return add accesses (← extractTop cm sql readKeywords) .update
    else if "insert ".toList.isPrefixOf sql then
      let accesses := add [] (← extractTop cm sql ["into".toList]) .update
      return add accesses (← extractTop cm sql readKeywords) .read
    else if "merge ".toList.isPrefixOf sql then
      let target ← extractMergeTarget sql
      let accesses := add [] (target.toList.map fun name => ⟨.unknown, name⟩) .update
      return add accesses (← extractTop cm sql ("using".toList :: readKeywords)) .read
    else return []
  | .delete =>
    let accesses := add [] (← extractTop cm sql ["from".toList]) .delete
    return add accesses (← extractTop cm sql ["join".toList, "apply".toList]) .read
  | .ddl =>
    let some target ← extractDdlTarget cm sql | return []
    let accesses := add [] [target] .ddl
    if target.resourceType = .view then
      return add accesses (← extractTop cm sql readKeywords) .read
    else return accesses

def classifyPrepared (prepared : PreparedSql) : Aborting SqlOperationClassification := do
  if prepared.trimmed.isEmpty then
    throw ⟨"SQL cannot be empty", .emptySql⟩
  if prepared.hasMultipleStatements then
    throw ⟨"Multiple SQL statements are not supported", .multipleStatements⟩
  let normalized := cm.toLowerCase prepared.stripped
  if normalized.isEmpty then
    throw ⟨"SQL cannot be empty", .emptySql⟩
  let some operation := detectOperation normalized
    | throw ⟨"Unsupported SQL operation", .unsupportedOperation⟩
  let resources ← extractResources cm normalized operation
  if resources.isEmpty then
    throw ⟨"Unable to determine SQL target resources", .noTargetResources⟩
  return ⟨operation, resources⟩

def classify (sql : Text) : Aborting SqlOperationClassification :=
  classifyPrepared cm (PreparedSql.parse cm sql)

end Classify

end PlugAgente.Sql
