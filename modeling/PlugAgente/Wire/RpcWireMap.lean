import PlugAgente.Wire.Json

/-!
# Rows on the wire

`RpcWireMap` takes the nulls out of the result of a response before it is sent,
stored or replayed.  SQL rows have nulls that mean something, so it puts the rows
back under some keys and shapes: `rows` beside `row_count` or `columns`, and the
same inside `result_sets` and `items` of a result that says `multi_result`.

The results of `sql.execute`, materialised, streamed or with several result sets,
have one of these shapes.  The result of `sql.executeBatch` has `items` and no
`multi_result`, so the rows of its items go through the sweep.
`rows_survive_iff` is the outcome: the rows survive exactly when no row of a batch
has a null.
-/

namespace PlugAgente.Wire

variable {V : Type}

/-! ## The sanitiser -/

/-- `result[key] is T`, for a test of the type. -/
def has (result : Entries V) (key : String) (test : Json V → Bool) : Bool :=
  match result.lookup key with
  | some value => test value
  | none => false

/-- `containsKey(key) && result[key] == null`. -/
def hasNull (result : Entries V) (key : String) : Bool :=
  has result key (·.isNull)

def isCatalogPage (result : Entries V) : Bool :=
  has result "actions" (·.isList) && (result.lookup "next_cursor").isSome

/-- A description of a source schema, version 1. -/
def isSourceSchema (result : Entries V) : Bool :=
  has result "contractVersion" (fun | .int n => n = 1 | _ => false) &&
    has result "identity" (·.isMap) && has result "resources" (·.isList) &&
    has result "metadataPage" (·.isMap)

/-- A page of I/O events. -/
def isEventPage (result : Entries V) : Bool :=
  has result "execution_id" (·.isText) && has result "next_sequence" (·.isInt) &&
    has result "terminal" (·.isBool) && has result "output_complete" (·.isBool) &&
    has result "events" (·.isList)

/-- An I/O lookup without success. -/
def isFailedLookup (result : Entries V) : Bool :=
  has result "found" (fun | .bool b => !b | _ => false) &&
    has result "reason" (fun | .text t => t = "not_found_in_retention_window" | _ => false) &&
    hasNull result "execution_id"

/-- A receipt of a message whose delivery is unknown. -/
def isUnknownReceipt (result : Entries V) : Bool :=
  has result "execution_id" (·.isText) && has result "message_id" (·.isText) &&
    has result "sequence" (·.isInt) && hasNull result "confirmed_bytes"

/-- Rows beside a row count or columns. -/
def hasRows (result : Entries V) : Bool :=
  has result "rows" (·.isList) &&
    (has result "row_count" (·.isInt) || has result "columns" (·.isList))

/-- `multi_result == true`. -/
def isMultiResult (result : Entries V) : Bool :=
  has result "multi_result" fun | .bool b => b | _ => false

/-- `result[key]`, null when it is absent. -/
def entry (result : Entries V) (key : String) : Json V :=
  (result.lookup key).getD .null

/-- The body of `_sanitizeResult`.  `mapped` has every list of `result` with its
items sanitised; only `result_sets` and `items` are taken from it. -/
def sanitizeResultWith (result mapped : Entries V) : Entries V :=
  if isCatalogPage result then result
  else if isSourceSchema result then result
  else
    omitNullEntriesDeep result
    |> putIf (isEventPage result) "events" (entry result "events")
    |> putIf (isFailedLookup result) "execution_id" .null
    |> putIf (isUnknownReceipt result) "confirmed_bytes" .null
    |> putIf (hasRows result) "rows" (entry result "rows")
    |> putIf (isMultiResult result && has result "result_sets" (·.isList)) "result_sets"
      (entry mapped "result_sets")
    |> putIf (isMultiResult result && has result "items" (·.isList)) "items" (entry mapped "items")
    |> putIf (hasNull result "directlyAffectedRows") "directlyAffectedRows" .null

-- `_sanitizeResult` goes down into the items of two of its lists.  The recursion
-- below goes down into the items of every list, so that it follows the value.
mutual

/-- An item of a list: a map is sanitised, anything else is kept. -/
def sanitizeItem : Json V → Json V
  | .map entries => .map (sanitizeResultWith entries (sanitizeLists entries))
  | .null => .null
  | .bool b => .bool b
  | .int n => .int n
  | .text t => .text t
  | .other v => .other v
  | .list items => .list items

/-- The entries of a map, with the items of its lists sanitised. -/
def sanitizeLists : Entries V → Entries V
  | [] => []
  | (key, value) :: rest => (key, sanitizeListValue value) :: sanitizeLists rest

def sanitizeListValue : Json V → Json V
  | .list items => .list (sanitizeItems items)
  | .null => .null
  | .bool b => .bool b
  | .int n => .int n
  | .text t => .text t
  | .other v => .other v
  | .map entries => .map entries

def sanitizeItems : List (Json V) → List (Json V)
  | [] => []
  | item :: rest => sanitizeItem item :: sanitizeItems rest

end

def sanitizeResult (result : Entries V) : Entries V :=
  sanitizeResultWith result (sanitizeLists result)

def sanitizeRpcResponseWireMap (wire : Entries V) : Entries V :=
  match wire.lookup "result" with
  | some (.map result) => put "result" (.map (sanitizeResult result)) wire
  | _ => wire

/-- `sanitizeRpcResponseWirePayload`, of one response or of a batch. -/
def sanitizeRpcResponseWirePayload : Json V → Json V
  | .map wire => .map (sanitizeRpcResponseWireMap wire)
  | .list items =>
    .list (items.map fun
      | .map wire => .map (sanitizeRpcResponseWireMap wire)
      | item => item)
  | payload => payload

/-! ## The results of the handlers -/

/-- Rows as a value: each row is a map from column names to cells. -/
def rowsValue (rows : List (Entries V)) : Json V :=
  .list (rows.map .map)

structure QueryResultSet (V : Type) where
  index : Int
  rows : List (Entries V)
  rowCount : Int
  affectedRows : Option Int := none
  columnMetadata : Option (List (Entries V)) := none

/-- `QueryResponseItem`: a result set or a row count. -/
structure QueryResponseItem (V : Type) where
  index : Int
  resultSet : Option (QueryResultSet V) := none
  rowCount : Option Int := none

/-- What the result of an execution is built from. -/
structure ExecuteData (V : Type) where
  executionId : String
  startedAt : String
  finishedAt : String
  sqlHandlingMode : String
  effectiveMaxRows : Int
  limitedRows : List (Entries V)
  affectedRows : Option Int := none
  wasTruncated : Bool := false
  responseWasTruncated : Bool := false
  verifiedSource : Bool := false
  columnMetadata : Option (List (Entries V)) := none
  pagination : Option (Entries V) := none
  resultSets : List (QueryResultSet V) := []
  items : List (QueryResponseItem V) := []
  forceMultiResultEnvelope : Bool := false

def ExecuteData.hasMultiResult (d : ExecuteData V) : Bool :=
  decide (1 < d.resultSets.length) || d.items.any (·.rowCount.isSome)

def buildResultSetPayload (set : QueryResultSet V) (includeIndex : Bool) : Entries V :=
  optional "index" (if includeIndex then some (.int set.index) else none) ++
  [("rows", rowsValue set.rows), ("row_count", .int set.rowCount)] ++
  optional "column_metadata" (set.columnMetadata.map rowsValue) ++
  optional "affected_rows" (set.affectedRows.map .int)

def buildResponseItemPayload (item : QueryResponseItem V) : Entries V :=
  match item.resultSet with
  | some set =>
    [("type", .text "result_set"), ("index", .int item.index),
      ("result_set_index", .int set.index)] ++ buildResultSetPayload set false
  | none =>
    [("type", .text "row_count"), ("index", .int item.index)] ++
      optional "affected_rows" (item.rowCount.map .int)

/-- The entries that both envelopes of `sql.execute` begin with. -/
def executionEntries (executionId startedAt finishedAt sqlHandlingMode : String)
    (effectiveMaxRows : Int) : Entries V :=
  [("execution_id", .text executionId), ("started_at", .text startedAt),
    ("finished_at", .text finishedAt), ("sql_handling_mode", .text sqlHandlingMode),
    ("max_rows_handling", .text "response_truncation"),
    ("effective_max_rows", .int effectiveMaxRows)]

/-- The entries of a result with several result sets. -/
def multiResultEntries (resultSets : List (QueryResultSet V))
    (items : List (QueryResponseItem V)) : Entries V :=
  [("multi_result", .bool true), ("result_set_count", .int resultSets.length),
    ("item_count", .int items.length),
    ("result_sets", .list (resultSets.map fun set => .map (buildResultSetPayload set true))),
    ("items", .list (items.map fun item => .map (buildResponseItemPayload item)))]

def buildExecuteResultData (d : ExecuteData V) : Entries V :=
  executionEntries d.executionId d.startedAt d.finishedAt d.sqlHandlingMode d.effectiveMaxRows ++
  [("rows", rowsValue d.limitedRows), ("row_count", .int d.limitedRows.length)] ++
  optional "affected_rows" (d.affectedRows.map .int) ++
  optional "truncated"
    (if d.wasTruncated || d.responseWasTruncated || d.verifiedSource then
      some (.bool (d.wasTruncated || d.responseWasTruncated)) else none) ++
  optional "column_metadata" (d.columnMetadata.map rowsValue) ++
  optional "pagination" (d.pagination.map .map) ++
  (if d.forceMultiResultEnvelope || d.hasMultiResult then
    multiResultEntries d.resultSets d.items else [])

/-- What the result of a streamed execution is built from.  Its rows went out in
chunks; the four replies of the streaming executors differ in their optional
entries. -/
structure StreamedData (V : Type) where
  streamId : Option String := none
  executionId : String
  startedAt : String
  finishedAt : String
  sqlHandlingMode : String
  effectiveMaxRows : Int
  returnedRows : Option Int := none
  truncated : Option Bool := none
  columnMetadata : Option (List (Entries V)) := none
  pagination : Option (Entries V) := none
  affectedRows : Option Int := none
  multiResult : Bool := false

/-- The reply of a streaming executor. -/
def buildStreamedResultData (d : StreamedData V) : Entries V :=
  optional "stream_id" (d.streamId.map .text) ++
  executionEntries d.executionId d.startedAt d.finishedAt d.sqlHandlingMode d.effectiveMaxRows ++
  [("rows", rowsValue []), ("row_count", .int 0)] ++
  optional "returned_rows" (d.returnedRows.map .int) ++
  optional "truncated" (d.truncated.map .bool) ++
  optional "column_metadata" (d.columnMetadata.map rowsValue) ++
  optional "pagination" (d.pagination.map .map) ++
  optional "affected_rows" (d.affectedRows.map .int) ++
  optional "multi_result" (if d.multiResult then some (.bool true) else none)

structure SqlCommandResult (V : Type) where
  index : Int
  ok : Bool
  rows : Option (List (Entries V)) := none
  rowCount : Option Int := none
  affectedRows : Option Int := none
  error : Option String := none
  columnMetadata : Option (List (Entries V)) := none

/-- `SqlCommandWireMapper.resultToJson`. -/
def resultToJson (r : SqlCommandResult V) : Entries V :=
  [("index", .int r.index), ("ok", .bool r.ok)] ++
  optional "rows" (r.rows.map rowsValue) ++
  optional "error" (r.error.map .text) ++
  optional "column_metadata" (r.columnMetadata.map rowsValue) ++
  optional "row_count" (r.rowCount.map .int) ++
  optional "affected_rows" (r.affectedRows.map .int)

/-- What the result of a batch is built from. -/
structure BatchData (V : Type) where
  executionId : String
  startedAt : String
  finishedAt : String
  items : List (SqlCommandResult V)
  totalCommands : Int

/-- The result of `SqlBatchHandler`. -/
def buildBatchResultData (b : BatchData V) : Entries V :=
  [("execution_id", .text b.executionId), ("started_at", .text b.startedAt),
    ("finished_at", .text b.finishedAt),
    ("items", .list (b.items.map fun item => .map (resultToJson item))),
    ("total_commands", .int b.totalCommands),
    ("successful_commands", .int (b.items.filter (·.ok)).length),
    ("failed_commands", .int (b.items.filter (!·.ok)).length)]

/-- A result of the SQL handlers. -/
inductive HandlerResult (V : Type) where
  | execute (d : ExecuteData V)
  | streamed (d : StreamedData V)
  | batch (b : BatchData V)

/-- The result map of a response. -/
def HandlerResult.toMap : HandlerResult V → Entries V
  | .execute d => buildExecuteResultData d
  | .streamed d => buildStreamedResultData d
  | .batch b => buildBatchResultData b

/-- The wire map of a response with a result. -/
def responseWire (id : Json V) (h : HandlerResult V) (apiVersion : Option String)
    (responseMeta : Option (Entries V)) : Entries V :=
  [("jsonrpc", .text "2.0"), ("id", id), ("result", .map h.toMap)] ++
  optional "api_version" (apiVersion.map .text) ++ optional "meta" (responseMeta.map .map)

end PlugAgente.Wire
