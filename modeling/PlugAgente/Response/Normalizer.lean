import PlugAgente.Response.Rows

/-!
# The query normaliser

`QueryNormalizerService` on whole responses: the skip of large responses that look normalised
already, the reuse of what rewriting leaves unchanged, and the items, whose result sets are
looked up by index among the rewritten ones.  `full` is the response without any of these: every
row of the data, of every result set and of every item is rewritten.

* `replaceRows_cases`: replacing rewrites every row of the data and of the result sets.
* `shortcuts_invisible_iff` says for which responses the shortcuts cannot be seen.

The isolates compute the same function on a copy, so they are the function itself.
-/

namespace PlugAgente.Response

open PlugAgente.Dart

variable {N D O M P : Type}

/-! ## Responses -/

/-- `QueryResultSet`, with column metadata in `M`. -/
structure QueryResultSet (N D O M : Type) where
  index : Int
  rows : List (Row N D O)
  rowCount : Int
  affectedRows : Option Int := none
  columnMetadata : Option M := none

/-- `QueryResponseItem`, by its constructors. -/
inductive QueryResponseItem (N D O M : Type) where
  | resultSet (index : Int) (resultSet : Option (QueryResultSet N D O M))
  | rowCount (index : Int) (rowCount : Option Int)

/-- `QueryResponse`, with its pagination in `P`. -/
structure QueryResponse (N D O M P : Type) where
  id : Text
  requestId : Text
  agentId : Text
  data : List (Row N D O)
  timestamp : D
  startedAt : Option D := none
  wasTruncated : Bool := false
  affectedRows : Option Int := none
  error : Option Text := none
  columnMetadata : Option M := none
  pagination : Option P := none
  resultSets : List (QueryResultSet N D O M) := []
  items : List (QueryResponseItem N D O M) := []

inductive SqlHandlingMode where
  | managed
  | preserve
  deriving Repr, DecidableEq

def skipRowRewriteRowThreshold : Nat := 64

def normalizeIsolateRowThreshold : Nat := 500

def totalRowCount (response : QueryResponse N D O M P) : Nat :=
  if response.resultSets.isEmpty then response.data.length
  else (response.resultSets.map (·.rows.length)).sum

/-! ## The skip -/

/-- The loop of `_rowMapsLookWireSafe` over the entries of a row: nothing when it answers no. -/
def entriesLookWireSafe : List (Text × Cell N D O) → List Text → Option (List Text)
  | [], safeKeys => some safeKeys
  | (key, value) :: rest, safeKeys =>
    let added := !safeKeys.contains key
    if added && !isWireSafeColumnKey key then none
    else if !valueLooksWireSafe value then none
    else entriesLookWireSafe rest (if added then key :: safeKeys else safeKeys)

/-- The loop of `_rowMapsLookWireSafe` over the rows. -/
def rowsLookWireSafeFrom : List (Row N D O) → List Text → Bool
  | [], _ => true
  | row :: rest, safeKeys =>
    match entriesLookWireSafe row.entries safeKeys with
    | none => false
    | some safeKeys => rowsLookWireSafeFrom rest safeKeys

def rowMapsLookWireSafe (rows : List (Row N D O)) : Bool :=
  if rows.isEmpty then false else rowsLookWireSafeFrom rows []

def rowsLookWireSafe (response : QueryResponse N D O M P) : Bool :=
  if !response.resultSets.isEmpty then response.resultSets.all fun r => rowMapsLookWireSafe r.rows
  else rowMapsLookWireSafe response.data

def shouldSkipNormalization (response : QueryResponse N D O M P) : Bool :=
  if totalRowCount response < skipRowRewriteRowThreshold then false else rowsLookWireSafe response

/-! ## Replacing rows -/

section Replacing

variable {σ : Type} (rewriteRows : List (Row N D O) → σ → Option (List (Row N D O)) × σ)

/-- The loop of `_replaceRows` over the result sets: the result sets, and whether one of them
changed. -/
def replaceResultSets :
    List (QueryResultSet N D O M) → σ → (List (QueryResultSet N D O M) × Bool) × σ
  | [], s => (([], false), s)
  | resultSet :: rest, s =>
    match rewriteRows resultSet.rows s with
    | (none, s) =>
      let replaced := replaceResultSets rest s
      ((resultSet :: replaced.1.1, replaced.1.2), replaced.2)
    | (some rows, s) =>
      let replaced := replaceResultSets rest s
      (({ resultSet with rows := rows } :: replaced.1.1, true), replaced.2)

/-- `resultSetByIndex[index]`: of two result sets with one index the later one is kept. -/
def resultSetByIndex (resultSets : List (QueryResultSet N D O M)) (index : Int) :
    Option (QueryResultSet N D O M) :=
  resultSets.reverse.find? fun r => r.index == index

/-- An item with its result set taken from the given ones. -/
def relink (resultSets : List (QueryResultSet N D O M)) :
    QueryResponseItem N D O M → QueryResponseItem N D O M
  | .resultSet index (some resultSet) =>
    .resultSet index (resultSetByIndex resultSets resultSet.index)
  | item => item

def replaceRows (response : QueryResponse N D O M P) (s : σ) : QueryResponse N D O M P :=
  let data := rewriteRows response.data s
  let replaced := (replaceResultSets rewriteRows response.resultSets data.2).1
  if data.1.isNone && !replaced.2 then response
  else
    { response with
      data := data.1.getD response.data
      resultSets := if replaced.2 then replaced.1 else response.resultSets
      items := response.items.map (relink replaced.1) }

end Replacing

/-! ## The service -/

section Service

variable [DecidableEq N] [DecidableEq D] [DecidableEq O]
  (cm : CaseMap) (toIso8601String : D → Text)

def normalize (response : QueryResponse N D O M P) : QueryResponse N D O M P :=
  if shouldSkipNormalization response then response
  else replaceRows (normalizeRows cm toIso8601String) response KeyCache.empty

def materializeResponseCells (response : QueryResponse N D O M P) : QueryResponse N D O M P :=
  replaceRows (fun rows _ => materializeRows toIso8601String rows) response ()

def rowsNeedCellMaterialization (rows : List (Row N D O)) : Bool :=
  rows.any fun row => row.entries.any fun entry => odbcWireCellNeedsMaterialization entry.2

/-- `_needsCellMaterialization`: a result set that shares the list of the data is not looked at
again, which changes nothing. -/
def needsCellMaterialization (response : QueryResponse N D O M P) : Bool :=
  rowsNeedCellMaterialization response.data ||
    response.resultSets.any fun r => rowsNeedCellMaterialization r.rows

def normalizeAsync (response : QueryResponse N D O M P) :
    SqlHandlingMode → QueryResponse N D O M P
  | .preserve =>
    if normalizeIsolateRowThreshold ≤ totalRowCount response then
      if !needsCellMaterialization response then response
      else materializeResponseCells toIso8601String response
    else materializeResponseCells toIso8601String response
  | .managed =>
    if shouldSkipNormalization response then response
    else if totalRowCount response < normalizeIsolateRowThreshold then
      normalize cm toIso8601String response
    else normalize cm toIso8601String response

end Service

/-! ## Without shortcuts -/

section Full

variable (f : Text × Cell N D O → Text × Cell N D O)

/-- A result set with every row rewritten. -/
def rewriteResultSet (r : QueryResultSet N D O M) : QueryResultSet N D O M :=
  { r with rows := r.rows.map (rewriteRow f) }

/-- An item with every row of its result set rewritten. -/
def rewriteItem : QueryResponseItem N D O M → QueryResponseItem N D O M
  | .resultSet index resultSet => .resultSet index (resultSet.map (rewriteResultSet f))
  | item => item

/-- The response with every row of the data, of every result set and of every item rewritten. -/
def full (response : QueryResponse N D O M P) : QueryResponse N D O M P :=
  { response with
    data := response.data.map (rewriteRow f)
    resultSets := response.resultSets.map (rewriteResultSet f)
    items := response.items.map (rewriteItem f) }

/-- No row of the data or of a result set needs rewriting. -/
def ResponseUnchanged (response : QueryResponse N D O M P) : Prop :=
  RowsUnchanged f response.data ∧ ∀ r ∈ response.resultSets, RowsUnchanged f r.rows

/-- The result set of an item is, up to rewriting, the result set of the response that its index
finds; where the response needs no rewriting, it needs none either. -/
def ItemsLinked (response : QueryResponse N D O M P) : Prop :=
  ∀ index resultSet, QueryResponseItem.resultSet index (some resultSet) ∈ response.items →
    (ResponseUnchanged f response → RowsUnchanged f resultSet.rows) ∧
      (¬ ResponseUnchanged f response →
        (resultSetByIndex response.resultSets resultSet.index).map (rewriteResultSet f) =
          some (rewriteResultSet f resultSet))

end Full

/-! ## What the skip has seen -/

def EntrySafe (entry : Text × Cell N D O) : Prop :=
  isWireSafeColumnKey entry.1 = true ∧ valueLooksWireSafe entry.2 = true

theorem entriesLookWireSafe_some {entries : List (Text × Cell N D O)} {safeKeys keys : List Text}
    (hkeys : ∀ key ∈ safeKeys, isWireSafeColumnKey key = true)
    (h : entriesLookWireSafe entries safeKeys = some keys) :
    (∀ entry ∈ entries, EntrySafe entry) ∧ ∀ key ∈ keys, isWireSafeColumnKey key = true := by
  induction entries generalizing safeKeys with
  | nil =>
    cases h
    exact ⟨fun _ h => absurd h List.not_mem_nil, hkeys⟩
  | cons entry rest ih =>
    obtain ⟨key, value⟩ := entry
    unfold entriesLookWireSafe at h
    dsimp only at h
    split at h
    · cases h
    rename_i hkey
    split at h
    · cases h
    rename_i hvalue
    have hsafe : isWireSafeColumnKey key = true := by
      by_cases hmem : key ∈ safeKeys
      · exact hkeys key hmem
      · simpa [hmem] using hkey
    have hadded : ∀ k ∈ (if !safeKeys.contains key then key :: safeKeys else safeKeys),
        isWireSafeColumnKey k = true := by
      intro k hk
      split at hk
      · rcases List.mem_cons.mp hk with rfl | hk
        · exact hsafe
        · exact hkeys k hk
      · exact hkeys k hk
    have hrest := ih hadded h
    refine ⟨?_, hrest.2⟩
    intro e he
    rcases List.mem_cons.mp he with rfl | he
    · exact ⟨hsafe, by simpa using hvalue⟩
    · exact hrest.1 e he

theorem rowsLookWireSafeFrom_true {rows : List (Row N D O)} {safeKeys : List Text}
    (hkeys : ∀ key ∈ safeKeys, isWireSafeColumnKey key = true)
    (h : rowsLookWireSafeFrom rows safeKeys = true) :
    ∀ row ∈ rows, ∀ entry ∈ row.entries, EntrySafe entry := by
  induction rows generalizing safeKeys with
  | nil => exact fun _ h => absurd h List.not_mem_nil
  | cons row rest ih =>
    unfold rowsLookWireSafeFrom at h
    split at h
    · cases h
    · rename_i keys hentries
      obtain ⟨hrow, hmore⟩ := entriesLookWireSafe_some hkeys hentries
      intro r hr
      rcases List.mem_cons.mp hr with rfl | hr
      · exact hrow
      · exact ih hmore h r hr

theorem rowsUnchanged_of_wireSafe {cm : CaseMap} {toIso8601String : D → Text}
    {rows : List (Row N D O)} (h : rowMapsLookWireSafe rows = true) :
    RowsUnchanged (normalizeEntry cm toIso8601String) rows := by
  unfold rowMapsLookWireSafe at h
  split at h
  · cases h
  · intro row hrow entry hentry
    have hsafe := rowsLookWireSafeFrom_true (fun _ h => absurd h List.not_mem_nil) h row hrow
      entry hentry
    exact Prod.ext (normalizedKey_of_wireSafe hsafe.1) (normalizeValue_of_wireSafe hsafe.2)

theorem resultSetsUnchanged_of_skip {cm : CaseMap} {toIso8601String : D → Text}
    {response : QueryResponse N D O M P} (h : shouldSkipNormalization response = true) :
    ∀ r ∈ response.resultSets, RowsUnchanged (normalizeEntry cm toIso8601String) r.rows := by
  unfold shouldSkipNormalization rowsLookWireSafe at h
  split at h
  · cases h
  split at h
  · intro r hr
    exact rowsUnchanged_of_wireSafe (List.all_eq_true.mp h r hr)
  · rename_i hempty
    have hnone : response.resultSets = [] := by simpa using hempty
    rw [hnone]
    exact fun _ h => absurd h List.not_mem_nil

theorem responseUnchanged_of_skip {cm : CaseMap} {toIso8601String : D → Text}
    {response : QueryResponse N D O M P} (h : shouldSkipNormalization response = true) :
    ResponseUnchanged (normalizeEntry cm toIso8601String) response ↔
      RowsUnchanged (normalizeEntry cm toIso8601String) response.data :=
  ⟨fun hall => hall.1, fun hdata => ⟨hdata, resultSetsUnchanged_of_skip h⟩⟩

/-! ## Replacing is rewriting -/

section Replaced

variable {σ : Type} {rewriteRows : List (Row N D O) → σ → Option (List (Row N D O)) × σ}
  {f : Text × Cell N D O → Text × Cell N D O}

/-- The rewriting of a list of rows does not depend on what is passed along. -/
def RewritesRows (rewriteRows : List (Row N D O) → σ → Option (List (Row N D O)) × σ)
    (f : Text × Cell N D O → Text × Cell N D O) : Prop :=
  ∀ rows s, (RowsUnchanged f rows → (rewriteRows rows s).1 = none) ∧
    (¬ RowsUnchanged f rows → (rewriteRows rows s).1 = some (rows.map (rewriteRow f)))

theorem rewriteResultSet_of_unchanged {r : QueryResultSet N D O M}
    (h : RowsUnchanged f r.rows) : rewriteResultSet f r = r := by
  unfold rewriteResultSet
  rw [map_rewriteRow_of_unchanged h]

theorem rewriteResultSet_eq_self_iff {r : QueryResultSet N D O M} :
    rewriteResultSet f r = r ↔ RowsUnchanged f r.rows := by
  rw [← map_rewriteRow_eq_self_iff]
  constructor
  · exact fun h => congrArg QueryResultSet.rows h
  · intro h
    unfold rewriteResultSet
    rw [h]

theorem replaceResultSets_fst (h : RewritesRows rewriteRows f)
    (resultSets : List (QueryResultSet N D O M)) (s : σ) :
    (replaceResultSets rewriteRows resultSets s).1.1 = resultSets.map (rewriteResultSet f) ∧
      ((replaceResultSets rewriteRows resultSets s).1.2 = false ↔
        ∀ r ∈ resultSets, RowsUnchanged f r.rows) := by
  induction resultSets generalizing s with
  | nil => exact ⟨rfl, fun _ _ h => absurd h List.not_mem_nil, fun _ => rfl⟩
  | cons r rest ih =>
    obtain ⟨hsame, hchanged⟩ := h r.rows s
    unfold replaceResultSets
    rcases hrows : rewriteRows r.rows s with ⟨rows, s'⟩
    rw [hrows] at hsame hchanged
    obtain ⟨hsets, hflag⟩ := ih s'
    rw [List.forall_mem_cons, List.map_cons]
    by_cases hunchanged : RowsUnchanged f r.rows
    · obtain rfl : rows = none := hsame hunchanged
      dsimp only
      rw [hsets, rewriteResultSet_of_unchanged hunchanged, hflag]
      exact ⟨rfl, fun h => ⟨hunchanged, h⟩, fun h => h.2⟩
    · obtain rfl : rows = some (r.rows.map (rewriteRow f)) := hchanged hunchanged
      dsimp only
      rw [hsets]
      refine ⟨rfl, ⟨fun h => ?_, fun h => absurd h.1 hunchanged⟩⟩
      cases h

theorem replaceRows_cases (h : RewritesRows rewriteRows f) (response : QueryResponse N D O M P)
    (s : σ) :
    (ResponseUnchanged f response ∧ replaceRows rewriteRows response s = response) ∨
      (¬ ResponseUnchanged f response ∧ replaceRows rewriteRows response s =
        { response with
          data := response.data.map (rewriteRow f)
          resultSets := response.resultSets.map (rewriteResultSet f)
          items := response.items.map
            (relink (response.resultSets.map (rewriteResultSet f))) }) := by
  obtain ⟨hsame, hchanged⟩ := h response.data s
  obtain ⟨hsets, hflag⟩ :=
    replaceResultSets_fst h response.resultSets (rewriteRows response.data s).2
  unfold replaceRows
  dsimp only
  rw [hsets]
  cases hchangedSets : (replaceResultSets rewriteRows response.resultSets
      (rewriteRows response.data s).2).1.2 with
  | false =>
    have hkept := hflag.mp hchangedSets
    have hmap : response.resultSets.map (rewriteResultSet f) = response.resultSets :=
      (List.map_congr_left fun r hr => rewriteResultSet_of_unchanged (hkept r hr)).trans
        (List.map_id _)
    by_cases hdata : RowsUnchanged f response.data
    · rw [hsame hdata]
      exact .inl ⟨⟨hdata, hkept⟩, rfl⟩
    · rw [hchanged hdata, hmap]
      exact .inr ⟨fun hall => hdata hall.1, rfl⟩
  | true =>
    have hnot : ¬ ResponseUnchanged f response := by
      intro hall
      rw [hflag.mpr hall.2] at hchangedSets
      cases hchangedSets
    refine .inr ⟨hnot, ?_⟩
    by_cases hdata : RowsUnchanged f response.data
    · rw [hsame hdata, map_rewriteRow_of_unchanged hdata]
      rfl
    · rw [hchanged hdata]
      rfl

theorem resultSetByIndex_map (resultSets : List (QueryResultSet N D O M)) (index : Int) :
    resultSetByIndex (resultSets.map (rewriteResultSet f)) index =
      (resultSetByIndex resultSets index).map (rewriteResultSet f) := by
  unfold resultSetByIndex
  rw [← List.map_reverse, List.find?_map]
  rfl

theorem rewriteItem_eq_self_iff {item : QueryResponseItem N D O M} :
    rewriteItem f item = item ↔
      ∀ index resultSet, item = .resultSet index (some resultSet) →
        RowsUnchanged f resultSet.rows := by
  constructor
  · rintro h index resultSet rfl
    injection h with _ hset
    exact rewriteResultSet_eq_self_iff.mp (Option.some.inj hset)
  · intro h
    cases item with
    | rowCount index rowCount => rfl
    | resultSet index resultSet =>
      cases resultSet with
      | none => rfl
      | some resultSet =>
        show QueryResponseItem.resultSet index (some (rewriteResultSet f resultSet)) = _
        rw [rewriteResultSet_of_unchanged (h index resultSet rfl)]

theorem relink_eq_rewriteItem_iff {resultSets : List (QueryResultSet N D O M)}
    {item : QueryResponseItem N D O M} :
    relink (resultSets.map (rewriteResultSet f)) item = rewriteItem f item ↔
      ∀ index resultSet, item = .resultSet index (some resultSet) →
        (resultSetByIndex resultSets resultSet.index).map (rewriteResultSet f) =
          some (rewriteResultSet f resultSet) := by
  constructor
  · rintro h index resultSet rfl
    injection h with _ hset
    rw [← resultSetByIndex_map]
    exact hset
  · intro h
    cases item with
    | rowCount index rowCount => rfl
    | resultSet index resultSet =>
      cases resultSet with
      | none => rfl
      | some resultSet =>
        show QueryResponseItem.resultSet index _ = _
        rw [resultSetByIndex_map, h index resultSet rfl]
        rfl

theorem eq_full_iff {response : QueryResponse N D O M P} :
    response = full f response ↔ ResponseUnchanged f response ∧ ItemsLinked f response := by
  constructor
  · intro hfull
    have hdata : response.data.map (rewriteRow f) = response.data :=
      (congrArg QueryResponse.data hfull).symm
    have hsets : response.resultSets.map (rewriteResultSet f) = response.resultSets :=
      (congrArg QueryResponse.resultSets hfull).symm
    have hitems : response.items.map (rewriteItem f) = response.items :=
      (congrArg QueryResponse.items hfull).symm
    have hall : ResponseUnchanged f response :=
      ⟨(map_rewriteRow_eq_self_iff _).mp hdata, fun r hr =>
        rewriteResultSet_eq_self_iff.mp
          (List.map_inj_left.mp (hsets.trans (List.map_id _).symm) r hr)⟩
    refine ⟨hall, fun index resultSet hmem => ⟨fun _ => ?_, fun hnot => absurd hall hnot⟩⟩
    have hitem := List.map_inj_left.mp (hitems.trans (List.map_id _).symm) _ hmem
    exact rewriteItem_eq_self_iff.mp hitem index resultSet rfl
  · rintro ⟨hall, hlinked⟩
    have hsets : response.resultSets.map (rewriteResultSet f) = response.resultSets :=
      (List.map_congr_left fun r hr => rewriteResultSet_of_unchanged (hall.2 r hr)).trans
        (List.map_id _)
    have hitems : response.items.map (rewriteItem f) = response.items := by
      refine (List.map_congr_left fun item hitem => ?_).trans (List.map_id _)
      refine rewriteItem_eq_self_iff.mpr fun index resultSet hshape => ?_
      rw [hshape] at hitem
      exact (hlinked index resultSet hitem).1 hall
    unfold full
    rw [map_rewriteRow_of_unchanged hall.1, hsets, hitems]

theorem replaceRows_eq_full_iff (h : RewritesRows rewriteRows f)
    (response : QueryResponse N D O M P) (s : σ) :
    replaceRows rewriteRows response s = full f response ↔ ItemsLinked f response := by
  rcases replaceRows_cases h response s with ⟨hall, hkept⟩ | ⟨hnot, hreplaced⟩
  · rw [hkept, eq_full_iff]
    exact ⟨fun h => h.2, fun h => ⟨hall, h⟩⟩
  · rw [hreplaced]
    constructor
    · intro hfull index resultSet hmem
      have hitems := congrArg QueryResponse.items hfull
      have hitem := List.map_inj_left.mp hitems _ hmem
      exact ⟨fun hall => absurd hall hnot,
        fun _ => relink_eq_rewriteItem_iff.mp hitem index resultSet rfl⟩
    · intro hlinked
      have hitems : response.items.map (relink (response.resultSets.map (rewriteResultSet f))) =
          response.items.map (rewriteItem f) := by
        refine List.map_congr_left fun item hitem => ?_
        refine relink_eq_rewriteItem_iff.mpr fun index resultSet hshape => ?_
        rw [hshape] at hitem
        exact (hlinked index resultSet hitem).2 hnot
      unfold full
      rw [hitems]

end Replaced

/-! ## Materialising cells -/

theorem rowsUnchanged_of_not_needs {toIso8601String : D → Text} {rows : List (Row N D O)}
    (h : rowsNeedCellMaterialization rows = false) :
    RowsUnchanged (materializeEntry toIso8601String) rows := by
  intro row hrow entry hentry
  unfold rowsNeedCellMaterialization at h
  have hcells := Bool.eq_false_iff.mpr (List.any_eq_false.mp h row hrow)
  have hcell := Bool.eq_false_iff.mpr (List.any_eq_false.mp hcells entry hentry)
  exact Prod.ext rfl (normalizeOdbcWireCell_eq_self_iff.mpr hcell)

/-- The column names of the data, of the result sets and of the items. -/
def columnNames (response : QueryResponse N D O M P) :
    List (List Text) × List (List (List Text)) × List (Option (List (List Text))) :=
  (response.data.map (·.keys), response.resultSets.map fun r => r.rows.map (·.keys),
    response.items.map fun
      | .resultSet _ resultSet => resultSet.map fun r => r.rows.map (·.keys)
      | .rowCount _ _ => none)

theorem keys_materialize {toIso8601String : D → Text} (row : Row N D O) :
    (rewriteRow (materializeEntry toIso8601String) row).keys = row.keys := by
  have hnames : (row.entries.map (materializeEntry toIso8601String)).map Prod.fst = row.keys := by
    rw [List.map_map]
    rfl
  unfold rewriteRow LinkedMap.keys
  rw [LinkedMap.entries_ofEntries (hnames ▸ row.nodup), hnames]
  rfl

theorem columnNames_materialize {toIso8601String : D → Text}
    (response : QueryResponse N D O M P) :
    columnNames (full (materializeEntry toIso8601String) response) = columnNames response := by
  have hrows : ∀ rows : List (Row N D O),
      (rows.map (rewriteRow (materializeEntry toIso8601String))).map (·.keys) =
        rows.map (·.keys) := by
    intro rows
    rw [List.map_map]
    exact List.map_congr_left fun row _ => keys_materialize row
  unfold columnNames full
  refine Prod.ext (hrows _) (Prod.ext ?_ ?_)
  · dsimp only
    rw [List.map_map]
    exact List.map_congr_left fun r _ => hrows r.rows
  · dsimp only
    rw [List.map_map]
    refine List.map_congr_left fun item _ => ?_
    cases item with
    | rowCount index rowCount => rfl
    | resultSet index resultSet =>
      cases resultSet with
      | none => rfl
      | some r => exact congrArg some (hrows r.rows)

section Service

variable [DecidableEq N] [DecidableEq D] [DecidableEq O]
  {cm : CaseMap} {toIso8601String : D → Text}

/-! ## The shortcuts -/

theorem rewritesRows_normalizeRows :
    RewritesRows (normalizeRows (N := N) (O := O) cm toIso8601String)
      (normalizeEntry cm toIso8601String) := by
  intro rows s
  unfold normalizeRows
  rw [reuseUnchangedRows_eq rewrites_normalizeRow]
  exact ⟨fun h => if_pos h, fun h => if_neg h⟩

theorem rewritesRows_materializeRows :
    RewritesRows (fun (rows : List (Row N D O)) (_ : Unit) => materializeRows toIso8601String rows)
      (materializeEntry toIso8601String) := by
  intro rows s
  unfold materializeRows
  rw [reuseUnchangedRows_eq rewrites_materializeRow]
  exact ⟨fun h => if_pos h, fun h => if_neg h⟩

theorem materializeResponseCells_of_not_needs {response : QueryResponse N D O M P}
    (h : needsCellMaterialization response = false) :
    materializeResponseCells toIso8601String response = response := by
  unfold needsCellMaterialization at h
  rw [Bool.or_eq_false_iff] at h
  have hall : ResponseUnchanged (materializeEntry toIso8601String) response :=
    ⟨rowsUnchanged_of_not_needs h.1, fun r hr =>
      rowsUnchanged_of_not_needs (Bool.eq_false_iff.mpr (List.any_eq_false.mp h.2 r hr))⟩
  rcases replaceRows_cases rewritesRows_materializeRows response () with ⟨_, hkept⟩ | ⟨hnot, _⟩
  · exact hkept
  · exact absurd hall hnot

theorem normalizeAsync_preserve (response : QueryResponse N D O M P) :
    normalizeAsync cm toIso8601String response .preserve =
      materializeResponseCells toIso8601String response := by
  unfold normalizeAsync
  dsimp only
  split
  · split
    · rename_i hnone
      have hnot : needsCellMaterialization response = false := by simpa using hnone
      exact (materializeResponseCells_of_not_needs hnot).symm
    · rfl
  · rfl

theorem normalizeAsync_managed (response : QueryResponse N D O M P) :
    normalizeAsync cm toIso8601String response .managed =
      normalize cm toIso8601String response := by
  unfold normalizeAsync
  dsimp only
  split
  · rename_i hskip
    unfold normalize
    rw [if_pos hskip]
  · split <;> rfl

theorem materializeResponseCells_eq_full_iff (response : QueryResponse N D O M P) :
    materializeResponseCells toIso8601String response =
        full (materializeEntry toIso8601String) response ↔
      ItemsLinked (materializeEntry toIso8601String) response :=
  replaceRows_eq_full_iff rewritesRows_materializeRows response ()

theorem normalize_eq_full_iff (response : QueryResponse N D O M P) :
    normalize cm toIso8601String response = full (normalizeEntry cm toIso8601String) response ↔
      (shouldSkipNormalization response = true →
        RowsUnchanged (normalizeEntry cm toIso8601String) response.data) ∧
      ItemsLinked (normalizeEntry cm toIso8601String) response := by
  unfold normalize
  split
  · rename_i hskip
    rw [eq_full_iff, responseUnchanged_of_skip hskip]
    exact ⟨fun h => ⟨fun _ => h.1, h.2⟩, fun h => ⟨h.1 hskip, h.2⟩⟩
  · rename_i hskip
    rw [replaceRows_eq_full_iff rewritesRows_normalizeRows]
    exact ⟨fun h => ⟨fun hyes => absurd hyes hskip, h⟩, fun h => h.2⟩

/-- The shortcuts cannot be seen in the answers to exactly those responses of which a skipped
one has no data row to rewrite, and whose items are linked to their result sets. -/
theorem shortcuts_invisible_iff (cm : CaseMap) (toIso8601String : D → Text)
    (response : QueryResponse N D O M P) :
    (normalize cm toIso8601String response = full (normalizeEntry cm toIso8601String) response ∧
      normalizeAsync cm toIso8601String response .managed =
        full (normalizeEntry cm toIso8601String) response ∧
      normalizeAsync cm toIso8601String response .preserve =
        full (materializeEntry toIso8601String) response ∧
      columnNames (normalizeAsync cm toIso8601String response .preserve) = columnNames response) ↔
    (shouldSkipNormalization response = true →
        RowsUnchanged (normalizeEntry cm toIso8601String) response.data) ∧
      ItemsLinked (normalizeEntry cm toIso8601String) response ∧
      ItemsLinked (materializeEntry toIso8601String) response := by
  rw [normalizeAsync_managed, normalizeAsync_preserve, normalize_eq_full_iff,
    materializeResponseCells_eq_full_iff]
  constructor
  · rintro ⟨⟨hskip, hlinked⟩, _, hcells, _⟩
    exact ⟨hskip, hlinked, hcells⟩
  · rintro ⟨hskip, hlinked, hcells⟩
    refine ⟨⟨hskip, hlinked⟩, ⟨hskip, hlinked⟩, hcells, ?_⟩
    rw [(materializeResponseCells_eq_full_iff response).mpr hcells]
    exact columnNames_materialize response

end Service

/-- A response whose data is not the rows of its result set. -/
def unmirrored : QueryResponse Int Unit Unit Unit Unit where
  id := ['i']
  requestId := ['r']
  agentId := ['a']
  timestamp := ()
  data := [.ofEntries [(['N'], .num 1)]]
  resultSets :=
    [{ index := 0, rows := List.replicate 64 (.ofEntries [(['n'], .num 1)]), rowCount := 64 }]

/-- Its 64 wire-safe rows leave the name in upper case in the data. -/
theorem unmirrored_keeps_its_name :
    normalize asciiCase (fun _ => []) unmirrored = unmirrored ∧
      normalize asciiCase (fun _ => []) unmirrored ≠
        full (normalizeEntry asciiCase fun _ => []) unmirrored := by
  have hskip : shouldSkipNormalization unmirrored = true := by decide +kernel
  have hdata : ¬ RowsUnchanged (normalizeEntry asciiCase fun _ => []) unmirrored.data := by
    decide +kernel
  refine ⟨if_pos hskip, fun hfull => hdata ?_⟩
  exact ((normalize_eq_full_iff unmirrored).mp hfull).1 hskip

end PlugAgente.Response
