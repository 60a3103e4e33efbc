import Mathlib.Tactic

/-!
# The multi-result collector

`forEachStreamQueryMulti` joins the batches of a result set before it hands the result
set on, and `collectStreamQueryMulti` lists what is handed on.  The handler of the items
is a parameter that may throw; it passes a state of its own along.

`CutResultSet` is a result set with one way of cutting it into batches, and `Source` is
what a statement gives: such a result set or a row count.  `independent_of_batching_iff`
says when the items do not depend on the cuts: the output parameters of a result set are
read off its first batch only, while its metadata is taken from any batch.
-/

namespace PlugAgente.Stream.MultiResult

variable {V P M E F : Type}

/-- What the collector reads of a `QueryResult`: cells in `V`, output parameters in `P` and
column metadata in `M`. -/
structure QueryResult (V P M : Type) where
  columns : List String
  rows : List (List V)
  rowCount : Nat
  outputParamValues : List P := []
  columnsMetadata : Option M := none
  deriving DecidableEq, Repr

structure QueryResultMultiBatchItem (V P M : Type) where
  resultSet : Option (QueryResult V P M) := none
  rowCount : Option Nat := none
  isContinuationBatch : Bool := false

inductive QueryResultMultiItem (V P M : Type) where
  | resultSet (r : QueryResult V P M)
  | rowCount (n : Nat)
  deriving DecidableEq, Repr

structure ResultBatchAccumulator (V P M : Type) where
  first : QueryResult V P M
  rows : List (List V)
  rowCount : Nat
  metadata : Option M := none

namespace ResultBatchAccumulator

/-- The constructor. -/
def start (first : QueryResult V P M) : ResultBatchAccumulator V P M :=
  { first := first, rows := first.rows, rowCount := first.rowCount }

def append (a : ResultBatchAccumulator V P M) (next : QueryResult V P M) :
    ResultBatchAccumulator V P M :=
  { a with
    rows := a.rows ++ next.rows
    rowCount := a.rowCount + next.rowCount
    metadata := a.metadata.or next.columnsMetadata }

def build (a : ResultBatchAccumulator V P M) : QueryResult V P M :=
  { columns := a.first.columns
    rows := a.rows
    rowCount := a.rowCount
    outputParamValues := a.first.outputParamValues
    columnsMetadata := a.first.columnsMetadata.or a.metadata }

end ResultBatchAccumulator

/-! ## The loop -/

section Loop

variable (mapError : E → String → F) {σ : Type}
  (onItem : σ → QueryResultMultiItem V P M → σ × Option E)

/-- One call of the handler; what it throws becomes a failure. -/
def callHandler (s : σ) (item : QueryResultMultiItem V P M) : σ × Except F Unit :=
  match onItem s item with
  | (s, none) => (s, .ok ())
  | (s, some error) => (s, .error (mapError error "streamQueryMulti.onItem"))

def flushPending (pending : Option (ResultBatchAccumulator V P M)) (s : σ) : σ × Except F Unit :=
  match pending with
  | none => (s, .ok ())
  | some a => callHandler mapError onItem s (.resultSet a.build)

/-- The loop of `forEachStreamQueryMulti` over the events of the stream. -/
def forEachFrom : Option (ResultBatchAccumulator V P M) → σ →
    List (Except E (QueryResultMultiBatchItem V P M)) → σ × Except F Unit
  | pending, s, [] => flushPending mapError onItem pending s
  | _, s, .error error :: _ => (s, .error (mapError error "streamQueryMultiBatches"))
  | pending, s, .ok batch :: rest =>
    match batch.resultSet with
    | some resultSet =>
      match (if batch.isContinuationBatch then pending else none) with
      | some a => forEachFrom (some (a.append resultSet)) s rest
      | none =>
        match flushPending mapError onItem pending s with
        | (s, .error failure) => (s, .error failure)
        | (s, .ok ()) => forEachFrom (some (.start resultSet)) s rest
    | none =>
      match flushPending mapError onItem pending s with
      | (s, .error failure) => (s, .error failure)
      | (s, .ok ()) =>
        match batch.rowCount with
        | none => forEachFrom none s rest
        | some n =>
          match callHandler mapError onItem s (.rowCount n) with
          | (s, .error failure) => (s, .error failure)
          | (s, .ok ()) => forEachFrom none s rest

def forEachStreamQueryMulti (s : σ) (events : List (Except E (QueryResultMultiBatchItem V P M))) :
    σ × Except F Unit :=
  forEachFrom mapError onItem none s events

end Loop

/-- `collectStreamQueryMulti`: its handler adds the item to a list. -/
def collectStreamQueryMulti (mapError : E → String → F)
    (events : List (Except E (QueryResultMultiBatchItem V P M))) :
    Except F (List (QueryResultMultiItem V P M)) :=
  match forEachStreamQueryMulti mapError (fun items item => (items ++ [item], none)) [] events with
  | (_, .error failure) => .error failure
  | (items, .ok ()) => .ok items

/-! ## What a statement gives -/

/-- A result set and one way of cutting it into a first batch and continuations: the
batches have its columns, their rows are its rows in order, and its output parameters and
its metadata come with some batch, no matter which. -/
structure CutResultSet (V P M : Type) where
  whole : QueryResult V P M
  first : QueryResult V P M
  more : List (QueryResult V P M)
  columns : ∀ batch ∈ first :: more, batch.columns = whole.columns
  rows : (first :: more).flatMap (·.rows) = whole.rows
  rowCount : ((first :: more).map (·.rowCount)).sum = whole.rowCount
  outputParamValues : ∀ batch ∈ first :: more,
    batch.outputParamValues = [] ∨ batch.outputParamValues = whole.outputParamValues
  outputsArrive : whole.outputParamValues ≠ [] →
    ∃ batch ∈ first :: more, batch.outputParamValues = whole.outputParamValues
  columnsMetadata : (first :: more).findSome? (·.columnsMetadata) = whole.columnsMetadata

/-- One result of a statement. -/
inductive Source (V P M : Type) where
  | resultSet (cut : CutResultSet V P M)
  | rowCount (n : Nat)

namespace Source

/-- The item that stands for the result. -/
def item : Source V P M → QueryResultMultiItem V P M
  | .resultSet cut => .resultSet cut.whole
  | .rowCount n => .rowCount n

/-- The batches of the result, as the stream brings them. -/
def batches : Source V P M → List (QueryResultMultiBatchItem V P M)
  | .resultSet cut =>
    { resultSet := some cut.first } ::
      cut.more.map fun batch => { resultSet := some batch, isContinuationBatch := true }
  | .rowCount n => [{ rowCount := some n }]

/-- The output parameters of a result set come with its first batch, if with any. -/
def OutputsWithFirst : Source V P M → Prop
  | .resultSet cut =>
    cut.first.outputParamValues = [] → ∀ batch ∈ cut.more, batch.outputParamValues = []
  | .rowCount _ => True

end Source

/-- The events of a stream without errors. -/
def eventsOf (sources : List (Source V P M)) : List (Except E (QueryResultMultiBatchItem V P M)) :=
  (sources.flatMap Source.batches).map .ok

/-- A handler that gets the items one after the other, until it throws. -/
def deliver (mapError : E → String → F) {σ : Type}
    (onItem : σ → QueryResultMultiItem V P M → σ × Option E) :
    σ → List (QueryResultMultiItem V P M) → σ × Except F Unit
  | s, [] => (s, .ok ())
  | s, item :: items =>
    match callHandler mapError onItem s item with
    | (s, .error failure) => (s, .error failure)
    | (s, .ok ()) => deliver mapError onItem s items

/-! ## One result set -/

namespace ResultBatchAccumulator

/-- The accumulator after the continuations. -/
def appendAll (a : ResultBatchAccumulator V P M) (more : List (QueryResult V P M)) :
    ResultBatchAccumulator V P M :=
  more.foldl append a

theorem first_appendAll (a : ResultBatchAccumulator V P M) (more : List (QueryResult V P M)) :
    (a.appendAll more).first = a.first := by
  induction more generalizing a with
  | nil => rfl
  | cons batch more ih => exact ih (a.append batch)

theorem rows_appendAll (a : ResultBatchAccumulator V P M) (more : List (QueryResult V P M)) :
    (a.appendAll more).rows = a.rows ++ more.flatMap (·.rows) := by
  induction more generalizing a with
  | nil => exact (List.append_nil a.rows).symm
  | cons batch more ih =>
    have hrest := ih (a.append batch)
    rw [List.flatMap_cons, ← List.append_assoc]
    exact hrest

theorem rowCount_appendAll (a : ResultBatchAccumulator V P M) (more : List (QueryResult V P M)) :
    (a.appendAll more).rowCount = a.rowCount + (more.map (·.rowCount)).sum := by
  induction more generalizing a with
  | nil => rfl
  | cons batch more ih =>
    have hrest := ih (a.append batch)
    rw [List.map_cons, List.sum_cons, ← Nat.add_assoc]
    exact hrest

theorem metadata_appendAll (a : ResultBatchAccumulator V P M) (more : List (QueryResult V P M)) :
    (a.appendAll more).metadata = a.metadata.or (more.findSome? (·.columnsMetadata)) := by
  induction more generalizing a with
  | nil => exact (Option.or_none).symm
  | cons batch more ih =>
    have hrest := ih (a.append batch)
    rw [List.findSome?_cons]
    show (appendAll (a.append batch) more).metadata = _
    rw [hrest]
    show (a.metadata.or batch.columnsMetadata).or _ = _
    rw [Option.or_assoc]
    cases batch.columnsMetadata <;> rfl

end ResultBatchAccumulator

namespace CutResultSet

/-- What the accumulator makes of the batches. -/
def built (cut : CutResultSet V P M) : QueryResult V P M :=
  ((ResultBatchAccumulator.start cut.first).appendAll cut.more).build

theorem built_eq (cut : CutResultSet V P M) :
    cut.built = { cut.whole with outputParamValues := cut.first.outputParamValues } := by
  have hcolumns := cut.columns cut.first List.mem_cons_self
  have hrows := cut.rows
  have hcount := cut.rowCount
  have hmetadata := cut.columnsMetadata
  rw [List.flatMap_cons] at hrows
  rw [List.map_cons, List.sum_cons] at hcount
  rw [List.findSome?_cons] at hmetadata
  show QueryResult.mk ((ResultBatchAccumulator.start cut.first).appendAll cut.more).first.columns
      ((ResultBatchAccumulator.start cut.first).appendAll cut.more).rows
      ((ResultBatchAccumulator.start cut.first).appendAll cut.more).rowCount
      ((ResultBatchAccumulator.start cut.first).appendAll cut.more).first.outputParamValues
      (((ResultBatchAccumulator.start cut.first).appendAll cut.more).first.columnsMetadata.or
        ((ResultBatchAccumulator.start cut.first).appendAll cut.more).metadata) =
    QueryResult.mk cut.whole.columns cut.whole.rows cut.whole.rowCount
      cut.first.outputParamValues cut.whole.columnsMetadata
  rw [ResultBatchAccumulator.first_appendAll, ResultBatchAccumulator.rows_appendAll,
    ResultBatchAccumulator.rowCount_appendAll, ResultBatchAccumulator.metadata_appendAll,
    ← hcolumns, ← hrows, ← hcount, ← hmetadata]
  cases hfirst : cut.first.columnsMetadata with
  | none => simp [ResultBatchAccumulator.start, hfirst]
  | some m => simp [ResultBatchAccumulator.start, hfirst]

theorem built_eq_whole_iff (cut : CutResultSet V P M) :
    cut.built = cut.whole ↔
      (cut.first.outputParamValues = [] → ∀ batch ∈ cut.more, batch.outputParamValues = []) := by
  have hsame : cut.built = cut.whole ↔
      cut.first.outputParamValues = cut.whole.outputParamValues := by
    rw [built_eq]
    constructor
    · intro h
      rw [← h]
    · intro h
      rw [h]
  rw [hsame]
  constructor
  · intro hfirst hnil batch hbatch
    rw [hfirst] at hnil
    rcases cut.outputParamValues batch (List.mem_cons_of_mem _ hbatch) with h | h
    · exact h
    · rw [h, hnil]
  · intro hmore
    rcases cut.outputParamValues cut.first List.mem_cons_self with hnil | h
    · by_contra hne
      rw [hnil] at hne
      obtain ⟨batch, hbatch, hvalues⟩ := cut.outputsArrive (Ne.symm hne)
      rcases List.mem_cons.mp hbatch with rfl | hbatch
      · exact hne (hnil.symm.trans hvalues)
      · exact hne ((hmore hnil batch hbatch).symm.trans hvalues)
    · exact h

end CutResultSet

/-- The item that the collector makes of a result. -/
def Source.builtItem : Source V P M → QueryResultMultiItem V P M
  | .resultSet cut => .resultSet cut.built
  | .rowCount n => .rowCount n

theorem Source.builtItem_eq_iff (source : Source V P M) :
    source.builtItem = source.item ↔ source.OutputsWithFirst := by
  cases source with
  | resultSet cut =>
    show QueryResultMultiItem.resultSet cut.built = .resultSet cut.whole ↔ _
    rw [QueryResultMultiItem.resultSet.injEq]
    exact cut.built_eq_whole_iff
  | rowCount n => exact ⟨fun _ => trivial, fun _ => rfl⟩

/-! ## The whole stream -/

section Run

variable {mapError : E → String → F} {σ : Type}
  {onItem : σ → QueryResultMultiItem V P M → σ × Option E}

theorem forEachFrom_more (a : ResultBatchAccumulator V P M) (s : σ)
    (more : List (QueryResult V P M)) (rest : List (Except E (QueryResultMultiBatchItem V P M))) :
    forEachFrom mapError onItem (some a) s
        ((more.map fun batch =>
          .ok { resultSet := some batch, isContinuationBatch := true }) ++ rest) =
      forEachFrom mapError onItem (some (a.appendAll more)) s rest := by
  induction more generalizing a with
  | nil => rfl
  | cons batch more ih => exact ih (a.append batch)

/-- The item of a pending result set. -/
def pendingItem (pending : Option (ResultBatchAccumulator V P M)) :
    List (QueryResultMultiItem V P M) :=
  (pending.map fun a => QueryResultMultiItem.resultSet a.build).toList

theorem deliver_pendingItem (pending : Option (ResultBatchAccumulator V P M)) (s : σ)
    (items : List (QueryResultMultiItem V P M)) :
    deliver mapError onItem s (pendingItem pending ++ items) =
      match flushPending mapError onItem pending s with
      | (s, .error failure) => (s, .error failure)
      | (s, .ok ()) => deliver mapError onItem s items := by
  cases pending <;> rfl

theorem forEachFrom_eventsOf (pending : Option (ResultBatchAccumulator V P M)) (s : σ)
    (sources : List (Source V P M)) :
    forEachFrom mapError onItem pending s (eventsOf sources) =
      deliver mapError onItem s (pendingItem pending ++ sources.map Source.builtItem) := by
  induction sources generalizing pending s with
  | nil =>
    rw [deliver_pendingItem]
    show flushPending mapError onItem pending s = _
    rcases flushPending mapError onItem pending s with ⟨s', failure | ⟨⟩⟩ <;> rfl
  | cons source sources ih =>
    rw [List.map_cons, deliver_pendingItem]
    cases source with
    | resultSet cut =>
      have hevents : (eventsOf (.resultSet cut :: sources) :
            List (Except E (QueryResultMultiBatchItem V P M))) =
          Except.ok { resultSet := some cut.first } ::
            ((cut.more.map fun batch =>
              .ok { resultSet := some batch, isContinuationBatch := true }) ++
                eventsOf sources) := by
        simp [eventsOf, Source.batches, Function.comp_def]
      rw [hevents]
      show (match flushPending mapError onItem pending s with
        | (s, Except.error failure) => (s, Except.error failure)
        | (s, Except.ok ()) => forEachFrom mapError onItem (some (.start cut.first)) s _) = _
      rcases flushPending mapError onItem pending s with ⟨s', failure | ⟨⟩⟩
      · rfl
      · dsimp only
        rw [forEachFrom_more, ih]
        rfl
    | rowCount n =>
      show (match flushPending mapError onItem pending s with
        | (s, Except.error failure) => (s, Except.error failure)
        | (s, Except.ok ()) =>
          match callHandler mapError onItem s (.rowCount n) with
          | (s, Except.error failure) => (s, Except.error failure)
          | (s, Except.ok ()) => forEachFrom mapError onItem none s (eventsOf sources)) = _
      rcases flushPending mapError onItem pending s with ⟨s', failure | ⟨⟩⟩
      · rfl
      · dsimp only
        show _ = (match callHandler mapError onItem s' (.rowCount n) with
          | (s, Except.error failure) => (s, Except.error failure)
          | (s, Except.ok ()) => deliver mapError onItem s (sources.map Source.builtItem))
        rcases callHandler mapError onItem s' (.rowCount n) with ⟨s'', failure | ⟨⟩⟩
        · rfl
        · exact ih none s''

theorem deliver_collect (items more : List (QueryResultMultiItem V P M)) :
    deliver (E := E) mapError (fun items item => (items ++ [item], none)) items more =
      (items ++ more, .ok ()) := by
  induction more generalizing items with
  | nil =>
    rw [List.append_nil]
    rfl
  | cons item more ih =>
    have hrest := ih (items ++ [item])
    rw [List.append_assoc] at hrest
    exact hrest

end Run

theorem collectStreamQueryMulti_eventsOf (mapError : E → String → F)
    (sources : List (Source V P M)) :
    collectStreamQueryMulti mapError (eventsOf sources) =
      .ok (sources.map Source.builtItem) := by
  unfold collectStreamQueryMulti forEachStreamQueryMulti
  rw [forEachFrom_eventsOf, deliver_collect]
  rfl

/-- The items are the results whatever the cuts, for the collector and for every handler,
exactly when the output parameters come with the first batches. -/
theorem independent_of_batching_iff (mapError : E → String → F) (sources : List (Source V P M)) :
    (collectStreamQueryMulti mapError (eventsOf sources) = .ok (sources.map Source.item) ∧
      ∀ (σ : Type) (onItem : σ → QueryResultMultiItem V P M → σ × Option E) (s : σ),
        forEachStreamQueryMulti mapError onItem s (eventsOf sources) =
          deliver mapError onItem s (sources.map Source.item)) ↔
      ∀ source ∈ sources, source.OutputsWithFirst := by
  rw [collectStreamQueryMulti_eventsOf]
  constructor
  · rintro ⟨hcollect, -⟩ source hsource
    have hitems : sources.map Source.builtItem = sources.map Source.item :=
      Except.ok.inj hcollect
    exact source.builtItem_eq_iff.mp (List.map_inj_left.mp hitems source hsource)
  · intro h
    have hitems : sources.map Source.builtItem = sources.map Source.item :=
      List.map_congr_left fun source hsource => source.builtItem_eq_iff.mpr (h source hsource)
    rw [← hitems]
    refine ⟨rfl, fun σ onItem s => ?_⟩
    exact forEachFrom_eventsOf none s sources

/-! ## A procedure whose output parameter comes last -/

/-- Two batches of one result set; the second brings the output parameter. -/
def lateOutput : CutResultSet Nat Nat Unit where
  whole := { columns := ["v"], rows := [[1], [2]], rowCount := 2, outputParamValues := [7] }
  first := { columns := ["v"], rows := [[1]], rowCount := 1 }
  more := [{ columns := ["v"], rows := [[2]], rowCount := 1, outputParamValues := [7] }]
  columns := by decide
  rows := rfl
  rowCount := rfl
  outputParamValues := by decide
  outputsArrive := fun _ => ⟨_, List.mem_cons_of_mem _ List.mem_cons_self, rfl⟩
  columnsMetadata := rfl

/-- The output parameter is lost. -/
theorem lateOutput_lost :
    collectStreamQueryMulti (fun (e : String) _ => e) (eventsOf [.resultSet lateOutput]) =
        .ok [.resultSet { lateOutput.whole with outputParamValues := [] }] ∧
      ¬(collectStreamQueryMulti (fun (e : String) _ => e) (eventsOf [.resultSet lateOutput]) =
        .ok ([Source.resultSet lateOutput].map Source.item)) :=
  ⟨rfl, fun h => by cases h⟩

end PlugAgente.Stream.MultiResult
