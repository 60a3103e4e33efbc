import PlugAgente.Response.Normalizer

/-!
# The columns of normalised rows

Different column names can have one normalised name, and the later of two such columns
overwrites the earlier.  `loses_no_column_iff` says when no row loses a column: a response that
is normalised must not have two columns of one normalised name in a row, and a response that is
skipped must not have a value to rewrite in its data.
-/

namespace PlugAgente.Response

open PlugAgente.Dart

variable {N D O M P : Type}

/-! ## What is kept -/

/-- The values of a row, in the order of its columns. -/
def values (row : Row N D O) : List (Cell N D O) := row.entries.map Prod.snd

/-- The rows of the data and of the result sets; the items hold the result sets again. -/
def rowsOf (response : QueryResponse N D O M P) : List (Row N D O) :=
  response.data ++ response.resultSets.flatMap (·.rows)

section Claim

variable [DecidableEq N] [DecidableEq D] [DecidableEq O]

/-- Each row is answered with as many entries, which hold the normalised values of its own
columns; rows with the same names are answered with the same names; and the item of a result
set holds the answered one. -/
def LosesNoColumn (cm : CaseMap) (toIso8601String : D → Text)
    (response : QueryResponse N D O M P) : Prop :=
  let answer := normalize cm toIso8601String response
  (rowsOf answer).length = (rowsOf response).length ∧
    (∀ pair ∈ (rowsOf response).zip (rowsOf answer),
      pair.2.entries.length = pair.1.entries.length ∧
        values pair.2 = (values pair.1).map (normalizeValue toIso8601String)) ∧
    (∀ pair ∈ (rowsOf response).zip (rowsOf answer),
      ∀ other ∈ (rowsOf response).zip (rowsOf answer),
        (∀ name, name ∈ pair.1.keys ↔ name ∈ other.1.keys) →
          ∀ name, name ∈ pair.2.keys ↔ name ∈ other.2.keys) ∧
    ∀ (i : Nat) index resultSet,
      response.items[i]? = some (.resultSet index (some resultSet)) →
        resultSetByIndex response.resultSets resultSet.index = some resultSet →
          answer.items[i]? =
            some (.resultSet index (resultSetByIndex answer.resultSets resultSet.index))

end Claim

/-! ## One row -/

theorem mem_zip_map_iff {α β : Type} {l : List α} {g : α → β} {pair : α × β} :
    pair ∈ l.zip (l.map g) ↔ pair.1 ∈ l ∧ pair.2 = g pair.1 := by
  rw [← List.map_prod_left_eq_zip, List.mem_map]
  constructor
  · rintro ⟨a, ha, rfl⟩
    exact ⟨ha, rfl⟩
  · rintro ⟨ha, hb⟩
    exact ⟨pair.1, ha, Prod.ext rfl hb.symm⟩

theorem mem_zip_self_iff {α : Type} {l : List α} {pair : α × α} :
    pair ∈ l.zip l ↔ pair.1 ∈ l ∧ pair.2 = pair.1 := by
  have h : pair ∈ l.zip (l.map id) ↔ pair.1 ∈ l ∧ pair.2 = pair.1 := mem_zip_map_iff
  rwa [List.map_id] at h

section Row

variable {cm : CaseMap} {toIso8601String : D → Text}

theorem names_normalizeEntry (cm : CaseMap) (toIso8601String : D → Text) (row : Row N D O) :
    (row.entries.map (normalizeEntry cm toIso8601String)).map Prod.fst =
      row.keys.map (normalizedKey cm) := by
  unfold LinkedMap.keys
  rw [List.map_map, List.map_map]
  rfl

theorem values_normalized_iff (row : Row N D O) :
    (rewriteRow (normalizeEntry cm toIso8601String) row).entries.length = row.entries.length ∧
        values (rewriteRow (normalizeEntry cm toIso8601String) row) =
          (values row).map (normalizeValue toIso8601String) ↔
      (row.keys.map (normalizedKey cm)).Nodup := by
  rw [← names_normalizeEntry cm toIso8601String]
  constructor
  · rintro ⟨hlength, _⟩
    exact (length_rewriteRow_iff row).mp hlength
  · intro hnodup
    refine ⟨(length_rewriteRow_iff row).mpr hnodup, ?_⟩
    unfold values
    rw [(entries_rewriteRow_iff row).mpr hnodup, List.map_map, List.map_map]
    rfl

theorem values_kept_iff (row : Row N D O) :
    row.entries.length = row.entries.length ∧
        values row = (values row).map (normalizeValue toIso8601String) ↔
      ∀ entry ∈ row.entries, normalizeValue toIso8601String entry.2 = entry.2 := by
  unfold values
  rw [List.map_map, List.map_inj_left]
  exact ⟨fun h entry hentry => (h.2 entry hentry).symm,
    fun h => ⟨rfl, fun entry hentry => (h entry hentry).symm⟩⟩

theorem mem_keys_normalized {row : Row N D O} {name : Text} :
    name ∈ (rewriteRow (normalizeEntry cm toIso8601String) row).keys ↔
      ∃ key ∈ row.keys, normalizedKey cm key = name := by
  unfold rewriteRow
  rw [LinkedMap.mem_keys_ofEntries, names_normalizeEntry, List.mem_map]

theorem mem_keys_normalized_congr {row other : Row N D O}
    (h : ∀ name, name ∈ row.keys ↔ name ∈ other.keys) (name : Text) :
    name ∈ (rewriteRow (normalizeEntry cm toIso8601String) row).keys ↔
      name ∈ (rewriteRow (normalizeEntry cm toIso8601String) other).keys := by
  rw [mem_keys_normalized, mem_keys_normalized]
  simp only [h]

end Row

/-! ## The whole response -/

theorem valuesKept_of_skip {toIso8601String : D → Text} {response : QueryResponse N D O M P}
    (h : shouldSkipNormalization response = true) :
    (∀ row ∈ rowsOf response, ∀ entry ∈ row.entries,
        normalizeValue toIso8601String entry.2 = entry.2) ↔
      ∀ row ∈ response.data, ∀ entry ∈ row.entries,
        normalizeValue toIso8601String entry.2 = entry.2 := by
  constructor
  · exact fun hall row hrow => hall row (List.mem_append_left _ hrow)
  · intro hdata row hrow
    rcases List.mem_append.mp hrow with hrow | hrow
    · exact hdata row hrow
    · obtain ⟨r, hr, hin⟩ := List.mem_flatMap.mp hrow
      have hsafe : Unchanged (normalizeEntry asciiCase toIso8601String) row :=
        resultSetsUnchanged_of_skip h r hr row hin
      exact fun entry hentry => congrArg Prod.snd (hsafe entry hentry)

section Service

variable [DecidableEq N] [DecidableEq D] [DecidableEq O]
  {cm : CaseMap} {toIso8601String : D → Text}

theorem rowsOf_normalize {response : QueryResponse N D O M P}
    (h : shouldSkipNormalization response = false) :
    rowsOf (normalize cm toIso8601String response) =
      (rowsOf response).map (rewriteRow (normalizeEntry cm toIso8601String)) := by
  have hflat : ∀ resultSets : List (QueryResultSet N D O M),
      (resultSets.map (rewriteResultSet (normalizeEntry cm toIso8601String))).flatMap (·.rows) =
        (resultSets.flatMap (·.rows)).map (rewriteRow (normalizeEntry cm toIso8601String)) := by
    intro resultSets
    rw [List.flatMap_map, List.map_flatMap]
    rfl
  have hnormalize : normalize cm toIso8601String response =
      replaceRows (normalizeRows cm toIso8601String) response KeyCache.empty := by
    unfold normalize
    rw [h, if_neg Bool.false_ne_true]
  rw [hnormalize]
  rcases replaceRows_cases rewritesRows_normalizeRows response KeyCache.empty with
    ⟨hall, hkept⟩ | ⟨_, hreplaced⟩
  · have hrows : RowsUnchanged (normalizeEntry cm toIso8601String) (rowsOf response) := by
      intro row hrow
      rcases List.mem_append.mp hrow with hrow | hrow
      · exact hall.1 row hrow
      · obtain ⟨r, hr, hin⟩ := List.mem_flatMap.mp hrow
        exact hall.2 r hr row hin
    rw [hkept, map_rewriteRow_of_unchanged hrows]
  · rw [hreplaced]
    unfold rowsOf
    rw [List.map_append, hflat]

theorem items_normalize {response : QueryResponse N D O M P} {i : Nat} {index : Int}
    {resultSet : QueryResultSet N D O M}
    (hitem : response.items[i]? = some (.resultSet index (some resultSet)))
    (hlinked : resultSetByIndex response.resultSets resultSet.index = some resultSet) :
    (normalize cm toIso8601String response).items[i]? = some (.resultSet index
      (resultSetByIndex (normalize cm toIso8601String response).resultSets resultSet.index)) := by
  have hsame : response.items[i]? =
      some (.resultSet index (resultSetByIndex response.resultSets resultSet.index)) := by
    rw [hlinked]
    exact hitem
  unfold normalize
  split
  · exact hsame
  · rcases replaceRows_cases rewritesRows_normalizeRows response KeyCache.empty with
      ⟨_, hkept⟩ | ⟨_, hreplaced⟩
    · rw [hkept]
      exact hsame
    · rw [hreplaced]
      dsimp only
      rw [List.getElem?_map, hitem]
      rfl

/-- No row loses a column exactly when the normalised names of each row are distinct or, for a
response that is skipped, when the values of its data need no rewriting. -/
theorem loses_no_column_iff (cm : CaseMap) (toIso8601String : D → Text)
    (response : QueryResponse N D O M P) :
    LosesNoColumn cm toIso8601String response ↔
      if shouldSkipNormalization response then
        ∀ row ∈ response.data, ∀ entry ∈ row.entries,
          normalizeValue toIso8601String entry.2 = entry.2
      else ∀ row ∈ rowsOf response, (row.keys.map (normalizedKey cm)).Nodup := by
  unfold LosesNoColumn
  dsimp only
  cases hskip : shouldSkipNormalization response with
  | true =>
    have hkept : normalize cm toIso8601String response = response := if_pos hskip
    rw [if_pos rfl, hkept, ← valuesKept_of_skip hskip]
    refine ⟨fun h row hrow => ?_, fun hall => ⟨rfl, ?_, ?_, ?_⟩⟩
    · exact (values_kept_iff row).mp (h.2.1 (row, row) (mem_zip_self_iff.mpr ⟨hrow, rfl⟩))
    · intro pair hpair
      obtain ⟨hrow, hanswer⟩ := mem_zip_self_iff.mp hpair
      rw [hanswer]
      exact (values_kept_iff pair.1).mpr (hall pair.1 hrow)
    · intro pair hpair other hother hsame
      rw [(mem_zip_self_iff.mp hpair).2, (mem_zip_self_iff.mp hother).2]
      exact hsame
    · intro i index resultSet hitem hlinked
      rw [hlinked]
      exact hitem
  | false =>
    rw [if_neg Bool.false_ne_true, rowsOf_normalize hskip]
    refine ⟨fun h row hrow => ?_, fun hnodup => ⟨List.length_map _, ?_, ?_, ?_⟩⟩
    · exact (values_normalized_iff row).mp (h.2.1 (row, _) (mem_zip_map_iff.mpr ⟨hrow, rfl⟩))
    · intro pair hpair
      obtain ⟨hrow, hanswer⟩ := mem_zip_map_iff.mp hpair
      rw [hanswer]
      exact (values_normalized_iff pair.1).mpr (hnodup pair.1 hrow)
    · intro pair hpair other hother hsame
      rw [(mem_zip_map_iff.mp hpair).2, (mem_zip_map_iff.mp hother).2]
      exact mem_keys_normalized_congr hsame
    · exact fun i index resultSet => items_normalize

end Service

/-- A row with a column `N` and a column `n `. -/
def clashing : QueryResponse Int Unit Unit Unit Unit where
  id := ['i']
  requestId := ['r']
  agentId := ['a']
  timestamp := ()
  data := [.ofEntries [(['N'], .num 1), (['n', ' '], .num 2)]]

/-- The second column overwrites the first. -/
theorem clashing_loses_a_column :
    (normalize asciiCase (fun _ => []) clashing).data = [.ofEntries [(['n'], .num 2)]] ∧
      ¬ LosesNoColumn asciiCase (fun _ => []) clashing := by
  have hdata : (normalize asciiCase (fun _ => []) clashing).data =
      [.ofEntries [(['n'], .num 2)]] := by decide +kernel
  have hlength : (LinkedMap.ofEntries [(['n'], Cell.num (D := Unit) (O := Unit) (2 : Int))]
      ).entries.length ≠ 2 := by decide
  refine ⟨hdata, fun h => hlength ?_⟩
  have hrows : rowsOf (normalize asciiCase (fun _ => []) clashing) =
      [.ofEntries [(['n'], .num 2)]] := by
    unfold rowsOf
    rw [hdata]
    rfl
  have hpair := (h.2.1 (_, .ofEntries [(['n'], .num 2)]) (by
    rw [hrows]
    exact List.mem_cons_self)).1
  exact hpair

end PlugAgente.Response
