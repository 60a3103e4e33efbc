import PlugAgente.Wire.RpcWireMap

/-!
# Which rows survive the sanitiser

The proof follows the keys: `lookup_sanitizeResultWith` says what the sanitiser
leaves under the three keys that hold rows, and the lemmas on the results of the
handlers say what they hold under the keys that the sanitiser looks at.
-/

namespace PlugAgente.Wire

variable {V : Type}

/-! ## What must survive -/

/-- An item of an array: its index and its rows. -/
def itemView : Json V → Option (Json V) × Option (Json V)
  | .map entries => (entries.lookup "index", entries.lookup "rows")
  | _ => (none, none)

/-- The items of an array, in their order. -/
def itemViews (result : Entries V) (key : String) :
    Option (List (Option (Json V) × Option (Json V))) :=
  match result.lookup key with
  | some (.list items) => some (items.map itemView)
  | _ => none

/-- The rows are the same, column by column and cell by cell, and the arrays of
items have the same items in the same places, with the same rows. -/
def RowsSurvive (before after : Entries V) : Prop :=
  after.lookup "rows" = before.lookup "rows" ∧
    itemViews after "result_sets" = itemViews before "result_sets" ∧
    itemViews after "items" = itemViews before "items"

/-- No row of an item of a batch has a null, at any depth. -/
def HandlerResult.BatchRowsWithoutNull : HandlerResult V → Prop
  | .batch b => ∀ item ∈ b.items, ∀ rows, item.rows = some rows → ∀ row ∈ rows, NoNull row
  | _ => True

/-! ## The sanitiser by key -/

section Keys

variable {result mapped : Entries V}

theorem lookup_rows_sanitizeResultWith (hcatalog : isCatalogPage result = false)
    (hschema : isSourceSchema result = false) :
    (sanitizeResultWith result mapped).lookup "rows" =
      if hasRows result then some (entry result "rows")
      else (omitNullEntriesDeep result).lookup "rows" := by
  rw [sanitizeResultWith, hcatalog, hschema, if_neg (by simp), if_neg (by simp)]
  rw [lookup_putIf_of_ne (by decide), lookup_putIf_of_ne (by decide),
    lookup_putIf_of_ne (by decide), putIf]
  split
  · rw [lookup_put, if_pos rfl]
  · rw [lookup_putIf_of_ne (by decide), lookup_putIf_of_ne (by decide),
      lookup_putIf_of_ne (by decide)]

theorem lookup_resultSets_sanitizeResultWith (hcatalog : isCatalogPage result = false)
    (hschema : isSourceSchema result = false) :
    (sanitizeResultWith result mapped).lookup "result_sets" =
      if isMultiResult result && has result "result_sets" (·.isList) then
        some (entry mapped "result_sets")
      else (omitNullEntriesDeep result).lookup "result_sets" := by
  rw [sanitizeResultWith, hcatalog, hschema, if_neg (by simp), if_neg (by simp)]
  rw [lookup_putIf_of_ne (by decide), lookup_putIf_of_ne (by decide), putIf]
  split
  · rw [lookup_put, if_pos rfl]
  · rw [lookup_putIf_of_ne (by decide), lookup_putIf_of_ne (by decide),
      lookup_putIf_of_ne (by decide), lookup_putIf_of_ne (by decide)]

theorem lookup_items_sanitizeResultWith (hcatalog : isCatalogPage result = false)
    (hschema : isSourceSchema result = false) :
    (sanitizeResultWith result mapped).lookup "items" =
      if isMultiResult result && has result "items" (·.isList) then some (entry mapped "items")
      else (omitNullEntriesDeep result).lookup "items" := by
  rw [sanitizeResultWith, hcatalog, hschema, if_neg (by simp), if_neg (by simp)]
  rw [lookup_putIf_of_ne (by decide), putIf]
  split
  · rw [lookup_put, if_pos rfl]
  · rw [lookup_putIf_of_ne (by decide), lookup_putIf_of_ne (by decide),
      lookup_putIf_of_ne (by decide), lookup_putIf_of_ne (by decide),
      lookup_putIf_of_ne (by decide)]

theorem lookup_index_sanitizeResultWith (hcatalog : isCatalogPage result = false)
    (hschema : isSourceSchema result = false) :
    (sanitizeResultWith result mapped).lookup "index" =
      (omitNullEntriesDeep result).lookup "index" := by
  rw [sanitizeResultWith, hcatalog, hschema, if_neg (by simp), if_neg (by simp)]
  rw [lookup_putIf_of_ne (by decide), lookup_putIf_of_ne (by decide),
    lookup_putIf_of_ne (by decide), lookup_putIf_of_ne (by decide),
    lookup_putIf_of_ne (by decide), lookup_putIf_of_ne (by decide),
    lookup_putIf_of_ne (by decide)]

theorem not_special (hactions : result.lookup "actions" = none)
    (hversion : result.lookup "contractVersion" = none) :
    isCatalogPage result = false ∧ isSourceSchema result = false := by
  simp [isCatalogPage, isSourceSchema, has, hactions, hversion]

end Keys

theorem sanitizeItems_eq_map (items : List (Json V)) :
    sanitizeItems items = items.map sanitizeItem := by
  induction items with
  | nil => simp [sanitizeItems]
  | cons item rest ih => simp [sanitizeItems, ih]

theorem lookup_sanitizeLists (key : String) (entries : Entries V) :
    (sanitizeLists entries).lookup key = (entries.lookup key).map sanitizeListValue := by
  induction entries with
  | nil => simp [sanitizeLists]
  | cons entry rest ih =>
    rw [sanitizeLists, List.lookup_cons, List.lookup_cons, ih]
    split <;> rfl

/-! ## Items with a row count -/

theorem itemView_sanitizeItem {item : Entries V} (hactions : item.lookup "actions" = none)
    (hversion : item.lookup "contractVersion" = none)
    (hindex : (∃ n, item.lookup "index" = some (.int n)) ∨ item.lookup "index" = none)
    (hrows : hasRows item = true ∨ item.lookup "rows" = none) :
    itemView (sanitizeItem (.map item)) = itemView (.map item) := by
  obtain ⟨hcatalog, hschema⟩ := not_special hactions hversion
  simp only [sanitizeItem, itemView]
  rw [lookup_index_sanitizeResultWith hcatalog hschema,
    lookup_rows_sanitizeResultWith hcatalog hschema]
  congr 1
  · rcases hindex with ⟨n, hindex⟩ | hindex
    · rw [lookup_omitNullEntriesDeep hindex rfl, hindex, omitNullValue]
    · rw [lookup_omitNullEntriesDeep_none hindex, hindex]
  · rcases hrows with hrows | hrows
    · rw [if_pos hrows, entry]
      cases hlookup : item.lookup "rows" with
      | none => simp [hasRows, has, hlookup] at hrows
      | some value => rfl
    · rw [if_neg (by simp [hasRows, has, hrows]), lookup_omitNullEntriesDeep_none hrows, hrows]

theorem itemView_buildResultSetPayload (set : QueryResultSet V) :
    itemView (sanitizeItem (.map (buildResultSetPayload set true))) =
      itemView (.map (buildResultSetPayload set true)) := by
  apply itemView_sanitizeItem
  · simp [-List.lookup_eq_none_iff, buildResultSetPayload, List.lookup_append, lookup_optional,
      List.lookup_cons]
  · simp [-List.lookup_eq_none_iff, buildResultSetPayload, List.lookup_append, lookup_optional,
      List.lookup_cons]
  · left
    exact ⟨set.index, by simp [buildResultSetPayload, List.lookup_append, lookup_optional]⟩
  · left
    simp [hasRows, has, buildResultSetPayload, List.lookup_append, lookup_optional, rowsValue,
      List.lookup_cons, Json.isList, Json.isInt]

theorem itemView_buildResponseItemPayload (item : QueryResponseItem V) :
    itemView (sanitizeItem (.map (buildResponseItemPayload item))) =
      itemView (.map (buildResponseItemPayload item)) := by
  rw [buildResponseItemPayload]
  split
  · apply itemView_sanitizeItem
    · simp [-List.lookup_eq_none_iff, buildResultSetPayload, List.lookup_append, lookup_optional,
        List.lookup_cons]
    · simp [-List.lookup_eq_none_iff, buildResultSetPayload, List.lookup_append, lookup_optional,
        List.lookup_cons]
    · left
      exact ⟨item.index, by simp [List.lookup_cons]⟩
    · left
      simp [hasRows, has, buildResultSetPayload, List.lookup_append, lookup_optional, rowsValue,
        List.lookup_cons, Json.isList, Json.isInt]
  · apply itemView_sanitizeItem
    · simp [-List.lookup_eq_none_iff, lookup_optional, List.lookup_cons]
    · simp [-List.lookup_eq_none_iff, lookup_optional, List.lookup_cons]
    · left
      exact ⟨item.index, by simp [List.lookup_cons]⟩
    · right
      simp [-List.lookup_eq_none_iff, lookup_optional, List.lookup_cons]

/-! ## The results of `sql.execute` -/

theorem itemViews_sanitizeLists {result : Entries V} {key : String} {items : List (Json V)}
    (hlookup : result.lookup key = some (.list items))
    (hitems : ∀ item ∈ items, itemView (sanitizeItem item) = itemView item) :
    entry (sanitizeLists result) key = .list (items.map sanitizeItem) ∧
      (items.map sanitizeItem).map itemView = items.map itemView := by
  constructor
  · rw [entry, lookup_sanitizeLists, hlookup]
    simp [sanitizeListValue, sanitizeItems_eq_map]
  · rw [List.map_map]
    apply List.map_congr_left
    exact hitems

/-- What `sql.execute` answers: rows with a row count, and beside them nothing, a
`multi_result` without arrays, or one with both arrays. -/
structure ExecuteShape (result : Entries V) : Prop where
  actions : result.lookup "actions" = none
  contractVersion : result.lookup "contractVersion" = none
  rows : hasRows result = true
  arrays :
    (result.lookup "result_sets" = none ∧ result.lookup "items" = none) ∨
      (isMultiResult result = true ∧
        ∃ sets items, result.lookup "result_sets" = some (.list sets) ∧
          result.lookup "items" = some (.list items) ∧
          (∀ item ∈ sets, itemView (sanitizeItem item) = itemView item) ∧
          ∀ item ∈ items, itemView (sanitizeItem item) = itemView item)

theorem ExecuteShape.rowsSurvive {result : Entries V} (h : ExecuteShape result) :
    RowsSurvive result (sanitizeResult result) := by
  obtain ⟨hcatalog, hschema⟩ := not_special h.actions h.contractVersion
  refine ⟨?_, ?_⟩
  · rw [sanitizeResult, lookup_rows_sanitizeResultWith hcatalog hschema, if_pos h.rows, entry]
    have hrows := h.rows
    cases hlookup : result.lookup "rows" with
    | none => simp [hasRows, has, hlookup] at hrows
    | some value => rfl
  · rw [itemViews, itemViews, itemViews, itemViews, sanitizeResult,
      lookup_resultSets_sanitizeResultWith hcatalog hschema,
      lookup_items_sanitizeResultWith hcatalog hschema]
    rcases h.arrays with ⟨hsets, hitems⟩ | ⟨hmulti, sets, items, hsets, hitems, hkeptSets, hkept⟩
    · simp [has, hsets, hitems, lookup_omitNullEntriesDeep_none hsets,
        lookup_omitNullEntriesDeep_none hitems]
    · obtain ⟨hentrySets, hviewSets⟩ := itemViews_sanitizeLists hsets hkeptSets
      obtain ⟨hentryItems, hviewItems⟩ := itemViews_sanitizeLists hitems hkept
      simp only [has, hsets, hitems, hmulti, Json.isList, Bool.and_self, if_true, hentrySets,
        hentryItems, hviewSets, hviewItems, and_self]

theorem executeShape_buildExecuteResultData (d : ExecuteData V) :
    ExecuteShape (buildExecuteResultData d) := by
  constructor
  · cases hmulti : d.forceMultiResultEnvelope || d.hasMultiResult <;>
      simp [-List.lookup_eq_none_iff, buildExecuteResultData, executionEntries, multiResultEntries,
        List.lookup_append, lookup_optional, List.lookup_cons, hmulti]
  · cases hmulti : d.forceMultiResultEnvelope || d.hasMultiResult <;>
      simp [-List.lookup_eq_none_iff, buildExecuteResultData, executionEntries, multiResultEntries,
        List.lookup_append, lookup_optional, List.lookup_cons, hmulti]
  · simp [hasRows, has, buildExecuteResultData, executionEntries, rowsValue, List.lookup_append,
      List.lookup_cons, Json.isList, Json.isInt]
  · cases hmulti : d.forceMultiResultEnvelope || d.hasMultiResult with
    | false =>
      left
      constructor <;>
        simp [-List.lookup_eq_none_iff, buildExecuteResultData, executionEntries,
          List.lookup_append, lookup_optional, List.lookup_cons, hmulti]
    | true =>
      right
      refine ⟨?_, d.resultSets.map fun set => .map (buildResultSetPayload set true),
        d.items.map fun item => .map (buildResponseItemPayload item), ?_, ?_, ?_, ?_⟩
      · simp [isMultiResult, has, buildExecuteResultData, executionEntries, multiResultEntries,
          List.lookup_append, lookup_optional, List.lookup_cons, hmulti]
      · simp [buildExecuteResultData, executionEntries, multiResultEntries,
          List.lookup_append, lookup_optional, List.lookup_cons, hmulti]
      · simp [buildExecuteResultData, executionEntries, multiResultEntries,
          List.lookup_append, lookup_optional, List.lookup_cons, hmulti]
      · intro item hitem
        obtain ⟨set, _, rfl⟩ := List.mem_map.mp hitem
        exact itemView_buildResultSetPayload set
      · intro item hitem
        obtain ⟨item, _, rfl⟩ := List.mem_map.mp hitem
        exact itemView_buildResponseItemPayload item

theorem executeShape_buildStreamedResultData (d : StreamedData V) :
    ExecuteShape (buildStreamedResultData d) := by
  constructor
  · simp [-List.lookup_eq_none_iff, buildStreamedResultData, executionEntries, List.lookup_append,
      lookup_optional, List.lookup_cons]
  · simp [-List.lookup_eq_none_iff, buildStreamedResultData, executionEntries, List.lookup_append,
      lookup_optional, List.lookup_cons]
  · simp [hasRows, has, buildStreamedResultData, executionEntries, rowsValue, List.lookup_append,
      lookup_optional, List.lookup_cons, Json.isList, Json.isInt]
  · left
    constructor <;>
      simp [-List.lookup_eq_none_iff, buildStreamedResultData, executionEntries,
        List.lookup_append, lookup_optional, List.lookup_cons]

/-! ## The results of `sql.executeBatch` -/

theorem lookup_index_resultToJson (r : SqlCommandResult V) :
    (resultToJson r).lookup "index" = some (.int r.index) := by
  simp [resultToJson]

theorem lookup_rows_resultToJson (r : SqlCommandResult V) :
    (resultToJson r).lookup "rows" = r.rows.map rowsValue := by
  cases hr : r.rows <;>
    simp [resultToJson, List.lookup_append, List.lookup_cons, lookup_optional, hr]

theorem itemView_omitNullEntriesDeep (r : SqlCommandResult V) :
    itemView (.map (omitNullEntriesDeep (resultToJson r))) =
      (some (.int r.index),
        r.rows.map fun rows => .list (rows.map fun row => .map (omitNullEntriesDeep row))) := by
  have hrows := lookup_rows_resultToJson r
  rw [itemView, lookup_omitNullEntriesDeep (lookup_index_resultToJson r) rfl]
  cases hr : r.rows with
  | none =>
    rw [hr] at hrows
    rw [lookup_omitNullEntriesDeep_none hrows]
    rfl
  | some rows =>
    rw [hr] at hrows
    rw [lookup_omitNullEntriesDeep hrows rfl, omitNullValue, rowsValue, omitNullValue,
      omitNullEntriesInList_map]
    rfl

theorem itemView_resultToJson_eq_iff (r : SqlCommandResult V) :
    itemView (.map (omitNullEntriesDeep (resultToJson r))) = itemView (.map (resultToJson r)) ↔
      ∀ rows, r.rows = some rows → ∀ row ∈ rows, NoNull row := by
  rw [itemView_omitNullEntriesDeep, itemView, lookup_index_resultToJson, lookup_rows_resultToJson]
  cases hr : r.rows with
  | none => simp
  | some rows =>
    simp only [Option.map_some, rowsValue, Prod.mk.injEq, Option.some.injEq, Json.list.injEq,
      true_and, forall_eq']
    rw [List.map_inj_left]
    simp only [Json.map.injEq, omitNullEntriesDeep_eq_self_iff]

theorem batch_rowsSurvive_iff (b : BatchData V) :
    RowsSurvive (buildBatchResultData b) (sanitizeResult (buildBatchResultData b)) ↔
      ∀ item ∈ b.items, ∀ rows, item.rows = some rows → ∀ row ∈ rows, NoNull row := by
  obtain ⟨hcatalog, hschema⟩ : isCatalogPage (buildBatchResultData b) = false ∧
      isSourceSchema (buildBatchResultData b) = false := by
    apply not_special
    · simp [-List.lookup_eq_none_iff, buildBatchResultData, List.lookup_cons]
    · simp [-List.lookup_eq_none_iff, buildBatchResultData, List.lookup_cons]
  have hrows : (buildBatchResultData b).lookup "rows" = none := by
    simp [-List.lookup_eq_none_iff, buildBatchResultData, List.lookup_cons]
  have hsets : (buildBatchResultData b).lookup "result_sets" = none := by
    simp [-List.lookup_eq_none_iff, buildBatchResultData, List.lookup_cons]
  have hitems : (buildBatchResultData b).lookup "items" =
      some (.list (b.items.map fun item => .map (resultToJson item))) := by
    simp [buildBatchResultData, List.lookup_cons]
  -- Without `multi_result` the items are what the sweep left of them.
  have hmulti : isMultiResult (buildBatchResultData b) = false := by
    simp [isMultiResult, has, buildBatchResultData, List.lookup_cons]
  rw [RowsSurvive, sanitizeResult, lookup_rows_sanitizeResultWith hcatalog hschema,
    if_neg (by simp [hasRows, has, hrows]), lookup_omitNullEntriesDeep_none hrows, hrows,
    itemViews, itemViews, itemViews, itemViews,
    lookup_resultSets_sanitizeResultWith hcatalog hschema,
    lookup_items_sanitizeResultWith hcatalog hschema, hmulti, Bool.false_and, Bool.false_and,
    if_neg (by simp), if_neg (by simp), lookup_omitNullEntriesDeep_none hsets, hsets,
    lookup_omitNullEntriesDeep hitems rfl, hitems, omitNullValue]
  have hmap : (b.items.map fun item => Json.map (resultToJson item)) =
      (b.items.map resultToJson).map Json.map := by
    rw [List.map_map]
    rfl
  rw [hmap, omitNullEntriesInList_map]
  simp only [true_and, Option.some.injEq, List.map_map]
  rw [List.map_inj_left]
  simp only [Function.comp_apply, itemView_resultToJson_eq_iff]

/-! ## The result -/

/-- The rows of a result survive exactly when the result is not that of a batch
with a null in a row. -/
theorem rowsSurvive_iff (h : HandlerResult V) :
    RowsSurvive h.toMap (sanitizeResult h.toMap) ↔ h.BatchRowsWithoutNull := by
  cases h with
  | execute d =>
    exact iff_of_true (executeShape_buildExecuteResultData d).rowsSurvive trivial
  | streamed d =>
    exact iff_of_true (executeShape_buildStreamedResultData d).rowsSurvive trivial
  | batch b => exact batch_rowsSurvive_iff b

/-- The sanitiser of a response leaves a result in it, and the rows survive in that
result exactly when it is not that of `sql.executeBatch` with a null in a row. -/
theorem response_rows_survive_iff (h : HandlerResult V) (id : Json V) (apiVersion : Option String)
    (responseMeta : Option (Entries V)) :
    ∃ result,
      (sanitizeRpcResponseWireMap (responseWire id h apiVersion responseMeta)).lookup "result" =
          some (.map result) ∧
        sanitizeRpcResponseWirePayload (.map (responseWire id h apiVersion responseMeta)) =
          .map (sanitizeRpcResponseWireMap (responseWire id h apiVersion responseMeta)) ∧
        (RowsSurvive h.toMap result ↔ h.BatchRowsWithoutNull) := by
  refine ⟨sanitizeResult h.toMap, ?_, rfl, rowsSurvive_iff h⟩
  have hresult : (responseWire id h apiVersion responseMeta).lookup "result" =
      some (.map h.toMap) := by
    simp [responseWire, List.lookup_cons]
  rw [sanitizeRpcResponseWireMap, hresult]
  dsimp only
  rw [lookup_put, if_pos rfl]

/-- A batch of one command whose only row has a null cell. -/
def nullCellBatch : BatchData Empty where
  executionId := "e"
  startedAt := "s"
  finishedAt := "f"
  items :=
    [{ index := 0
       ok := true
       rows := some [[("id", .int 1), ("marker", .null)]]
       rowCount := some 1 }]
  totalCommands := 1

/-- The null cell is gone after the sanitiser. -/
theorem batch_loses_null_cell :
    itemViews (buildBatchResultData nullCellBatch) "items" =
        some [(some (.int 0), some (rowsValue [[("id", .int 1), ("marker", .null)]]))] ∧
      itemViews (sanitizeResult (buildBatchResultData nullCellBatch)) "items" =
        some [(some (.int 0), some (rowsValue [[("id", .int 1)]]))] ∧
      ¬RowsSurvive (HandlerResult.batch nullCellBatch).toMap
        (sanitizeResult (HandlerResult.batch nullCellBatch).toMap) := by
  refine ⟨rfl, rfl, ?_⟩
  rw [rowsSurvive_iff]
  intro h
  have hrow := h _ (List.mem_singleton.mpr rfl) _ rfl _ (List.mem_singleton.mpr rfl)
  simp [NoNull, Json.isNull] at hrow

end PlugAgente.Wire
