import Mathlib.Tactic

/-!
# Cursor pagination

`OdbcPaginatedSqlBuilder`, `OdbcGatewayQueryResultMapper` and the cursor branch of
`resolvePagination`: how a page is asked for, which SQL it becomes, and which cursor its
answer carries.

The WHERE clause of a keyset page is kept as the disjunction of conjunctions that the
builder prints, and evaluated with the three truth values of SQL.  A cursor token stands
for the cursor it encodes; `decode` is what `fromToken` makes of it, if it could be written.

The database is a parameter.  It knows the value of an order term for a row, where it
sorts nulls and which values `jsonEncode` can write; the rows of the query are given in the
order in which it returns them.
-/

namespace PlugAgente.Pagination

/-! ## Order terms, cursors and requests -/

structure QueryPaginationOrderTerm where
  expression : String
  lookupKey : String
  descending : Bool := false
  deriving DecidableEq, Repr

/-- `SqlPaginationPlan` of a query that may be followed by cursors: it is ordered, and
its terms and fingerprint are not empty. -/
structure SqlPaginationPlan where
  queryFingerprint : String
  orderBy : List QueryPaginationOrderTerm
  fingerprint_ne : queryFingerprint ≠ ""
  orderBy_ne : orderBy ≠ []
  named : ∀ term ∈ orderBy, term.expression ≠ "" ∧ term.lookupKey ≠ ""

/-- `QueryPaginationCursor`, with key values in `V`. -/
structure QueryPaginationCursor (V : Type) where
  page : Nat
  pageSize : Nat
  offset : Option Nat := none
  queryHash : Option String := none
  orderBy : List QueryPaginationOrderTerm := []
  lastRowValues : List V := []

structure QueryPaginationRequest (V : Type) where
  page : Nat
  pageSize : Nat
  isCursorMode : Bool := false
  queryHash : Option String := none
  orderBy : List QueryPaginationOrderTerm := []
  lastRowValues : List V := []
  givenOffset : Option Nat := none

def maxNativeInteger : Nat := 0x7fffffffffffffff

def hasValidBounds (page pageSize : Nat) (offset : Option Nat) : Bool :=
  if page < 1 || maxNativeInteger ≤ page || pageSize < 1 || maxNativeInteger ≤ pageSize then false
  else
    let maxOffset := maxNativeInteger - pageSize - 1
    match offset with
    | some offset => offset ≤ maxOffset
    | none => page - 1 ≤ maxOffset / pageSize

namespace QueryPaginationCursor

variable {V : Type}

def isStableCursor (c : QueryPaginationCursor V) : Bool :=
  c.queryHash.isSome && !c.orderBy.isEmpty && c.lastRowValues.length == c.orderBy.length

/-- `fromToken` of `toToken`: `jsonEncode` throws on a key value without a JSON form, and a
cursor that is not stable is written in version 1, which has no keys. -/
def decode (hasJson : V → Bool) (c : QueryPaginationCursor V) : Option (QueryPaginationCursor V) :=
  if !c.lastRowValues.all hasJson then none
  else if !hasValidBounds c.page c.pageSize c.offset then none
  else if c.isStableCursor then
    if c.queryHash = some "" ||
        c.orderBy.any fun term => term.expression == "" || term.lookupKey == "" then none
    else some c
  else some { c with orderBy := [], lastRowValues := [] }

end QueryPaginationCursor

namespace QueryPaginationRequest

variable {V : Type}

def usesStableCursor (r : QueryPaginationRequest V) : Bool :=
  r.isCursorMode && r.queryHash.isSome && !r.orderBy.isEmpty &&
    r.lastRowValues.length == r.orderBy.length

def offset (r : QueryPaginationRequest V) : Nat :=
  r.givenOffset.getD ((r.page - 1) * r.pageSize)

def fetchSizeWithLookAhead (r : QueryPaginationRequest V) : Nat :=
  r.pageSize + 1

end QueryPaginationRequest

/-! ## The resolver -/

/-- The page branch of `resolvePagination`, for a query with a plan. -/
def resolvePage {V : Type} (plan : SqlPaginationPlan) (negotiatedMaxRows page pageSize : Nat) :
    Option (QueryPaginationRequest V) :=
  if page < 1 || pageSize < 1 then none
  else if !hasValidBounds page pageSize none then none
  else if negotiatedMaxRows < pageSize then none
  else some
    { page := page
      pageSize := pageSize
      queryHash := some plan.queryFingerprint
      orderBy := plan.orderBy }

/-- The cursor branch of `resolvePagination`. -/
def resolveCursor {V : Type} (hasJson : V → Bool) (plan : SqlPaginationPlan)
    (negotiatedMaxRows : Nat) (cursor : QueryPaginationCursor V) :
    Option (QueryPaginationRequest V) :=
  match cursor.decode hasJson with
  | none => none
  | some decoded =>
    if negotiatedMaxRows < decoded.pageSize then none
    else if decoded.isStableCursor &&
        (decoded.queryHash != some plan.queryFingerprint || decoded.orderBy != plan.orderBy) then
      none
    else some
      { page := decoded.page
        pageSize := decoded.pageSize
        isCursorMode := true
        givenOffset := decoded.offset
        queryHash := some (decoded.queryHash.getD plan.queryFingerprint)
        orderBy := plan.orderBy
        lastRowValues := decoded.lastRowValues }

/-! ## The keyset predicate -/

/-- The operators of the predicate. -/
inductive Operator where
  | eq
  | lt
  | gt
  deriving DecidableEq, Repr

/-- `expression operator literal`. -/
structure Comparison (V : Type) where
  term : QueryPaginationOrderTerm
  operator : Operator
  literal : V

/-- The conjunction for the term at hand: the terms before it are equal, and this one
comes after. -/
def keysetConjunction {V : Type} (before : List (QueryPaginationOrderTerm × V))
    (term : QueryPaginationOrderTerm) (value : V) : List (Comparison V) :=
  before.map (fun (term, value) => ⟨term, .eq, value⟩) ++
    [⟨term, if term.descending then .lt else .gt, value⟩]

def keysetDisjunctions {V : Type} (before : List (QueryPaginationOrderTerm × V)) :
    List (QueryPaginationOrderTerm × V) → List (List (Comparison V))
  | [] => []
  | (term, value) :: rest =>
    keysetConjunction before term value ::
      keysetDisjunctions (before ++ [(term, value)]) rest

/-- `buildKeysetWhereClause`: one disjunction for each term. -/
def buildKeysetWhereClause {V : Type} (orderBy : List QueryPaginationOrderTerm)
    (lastRowValues : List V) : List (List (Comparison V)) :=
  keysetDisjunctions [] (orderBy.zip lastRowValues)

/-! ## The database -/

/-- What the database knows of a row: the value of an order term, and the columns of the
answer, where a column may be missing or null.  A column that the answer has under the
lookup key of a term holds the value of the term.  `hasJson` are the values that `jsonEncode`
can write: texts, numbers and truth values, but no instants. -/
structure Database (Row V : Type) where
  key : QueryPaginationOrderTerm → Row → Option V
  column : Row → String → Option (Option V)
  nullsFirst : QueryPaginationOrderTerm → Bool
  hasJson : V → Bool
  column_key : ∀ term row value, column row term.lookupKey = some value → value = key term row

/-- A truth value of SQL; `none` is unknown. -/
abbrev Truth := Option Bool

namespace Truth

def and : Truth → Truth → Truth
  | some false, _ | _, some false => some false
  | some true, some true => some true
  | _, _ => none

def or : Truth → Truth → Truth
  | some true, _ | _, some true => some true
  | some false, some false => some false
  | _, _ => none

end Truth

namespace Database

variable {Row V : Type} [LinearOrder V] (db : Database Row V)

/-- A comparison with a literal: unknown on null. -/
def evalComparison (row : Row) (c : Comparison V) : Truth :=
  match db.key c.term row with
  | none => none
  | some value =>
    match c.operator with
    | .eq => some (value = c.literal)
    | .lt => some (value < c.literal)
    | .gt => some (c.literal < value)

def evalConjunction (row : Row) (conjunction : List (Comparison V)) : Truth :=
  (conjunction.map (db.evalComparison row)).foldr Truth.and (some true)

def evalWhere (row : Row) (clause : List (List (Comparison V))) : Truth :=
  (clause.map (db.evalConjunction row)).foldr Truth.or (some false)

/-- The order of two values under one term. -/
def compareTerm (term : QueryPaginationOrderTerm) (a b : Option V) : Ordering :=
  match a, b with
  | none, none => .eq
  | none, some _ => if db.nullsFirst term then .lt else .gt
  | some _, none => if db.nullsFirst term then .gt else .lt
  | some a, some b => if term.descending then compare b a else compare a b

/-- The order of two rows under ORDER BY. -/
def compareRows (orderBy : List QueryPaginationOrderTerm) (a b : Row) : Ordering :=
  match orderBy with
  | [] => .eq
  | term :: rest =>
    (db.compareTerm term (db.key term a) (db.key term b)).then (compareRows rest a b)

def Sorted (orderBy : List QueryPaginationOrderTerm) (rows : List Row) : Prop :=
  rows.Pairwise fun a b => db.compareRows orderBy a b ≠ .gt

/-- `buildCursorPaginatedSql`, executed. -/
def runCursorPaginatedSql (rows : List Row) (r : QueryPaginationRequest V) : List Row :=
  let whereClause := buildKeysetWhereClause r.orderBy r.lastRowValues
  (rows.filter fun row => db.evalWhere row whereClause = some true).take r.fetchSizeWithLookAhead

/-- `buildOffsetPaginatedSql`, executed. -/
def runOffsetPaginatedSql (rows : List Row) (r : QueryPaginationRequest V) : List Row :=
  (rows.drop r.offset).take r.fetchSizeWithLookAhead

/-- `prepareQueryExecution`, executed. -/
def execute (rows : List Row) (r : QueryPaginationRequest V) : List Row :=
  if r.usesStableCursor then db.runCursorPaginatedSql rows r
  else runOffsetPaginatedSql rows r

/-! ## The answer -/

/-- The values of the order terms in a row of the answer, if all of them are there. -/
def lastRowValues (row : Row) : List QueryPaginationOrderTerm → Option (List V)
  | [] => some []
  | term :: rest =>
    match db.column row term.lookupKey with
    | none => none
    | some none => none
    | some (some value) => (lastRowValues row rest).map (value :: ·)

def buildOffsetCursorToken (r : QueryPaginationRequest V) (returnedRows : Nat) :
    QueryPaginationCursor V where
  page := r.page + 1
  pageSize := r.pageSize
  offset := some (r.offset + returnedRows)

def buildNextCursorToken (r : QueryPaginationRequest V) (pageData : List Row) :
    Option (QueryPaginationCursor V) :=
  match pageData.getLast? with
  | none => none
  | some lastRow =>
    if r.orderBy.isEmpty then none
    else
      match db.lastRowValues lastRow r.orderBy with
      | none => some (buildOffsetCursorToken r pageData.length)
      | some values => some
        { page := r.page + 1
          pageSize := r.pageSize
          queryHash := r.queryHash
          orderBy := r.orderBy
          lastRowValues := values }

/-- `materializePagination`: the page and its cursor. -/
def materializePagination (r : QueryPaginationRequest V) (rawData : List Row) :
    List Row × Option (QueryPaginationCursor V) :=
  let hasNextPage := r.pageSize < rawData.length
  let pageData := if hasNextPage then rawData.take r.pageSize else rawData
  (pageData, if hasNextPage then db.buildNextCursorToken r pageData else none)

/-! ## Following the cursors -/

variable (plan : SqlPaginationPlan) (negotiatedMaxRows : Nat) (rows : List Row)

/-- The rows of a request and of the requests that its cursors lead to, within a number of
requests; none if a cursor cannot be written or is refused. -/
def follow : Nat → QueryPaginationRequest V → Option (List Row)
  | 0, _ => none
  | fuel + 1, r =>
    match db.materializePagination r (db.execute rows r) with
    | (pageData, none) => some pageData
    | (pageData, some cursor) =>
      match resolveCursor db.hasJson plan negotiatedMaxRows cursor with
      | none => none
      | some next => (follow fuel next).map (pageData ++ ·)

end Database

end PlugAgente.Pagination
