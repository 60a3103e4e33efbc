import PlugAgente.Pagination.Cursor

/-!
# What cursor pagination loses

Following the cursors of a query gives back its rows exactly when every page boundary can be
resumed (`cursor_complete_iff`).  A boundary whose last row lacks a key is resumed by an
offset, which is always right.  A boundary whose last row has all its keys is resumed by the
keyset predicate, if the keys can be written in a token, and the predicate passes over the rows
that have the same keys and over those that are null where they first differ.

`Window` is the list of which a page shows the first rows; the page is right if the list
agrees with the rows that are left as far as the page reaches.
-/

namespace PlugAgente.Pagination

/-! ## Truth values -/

theorem Truth.and_eq_true {a b : Truth} :
    Truth.and a b = some true ↔ a = some true ∧ b = some true := by
  rcases a with _ | _ | _ <;> rcases b with _ | _ | _ <;> simp [Truth.and]

theorem Truth.or_eq_true {a b : Truth} :
    Truth.or a b = some true ↔ a = some true ∨ b = some true := by
  rcases a with _ | _ | _ <;> rcases b with _ | _ | _ <;> simp [Truth.or]

theorem Truth.foldr_and_eq_true (l : List Truth) :
    l.foldr Truth.and (some true) = some true ↔ ∀ t ∈ l, t = some true := by
  induction l with
  | nil => simp
  | cons t rest ih =>
    rw [List.foldr_cons, Truth.and_eq_true, ih]
    simp

namespace Database

variable {Row V : Type} [LinearOrder V] (db : Database Row V)

/-! ## The keyset predicate -/

/-- `row` comes after `last`: at the first term in which they differ both have a value, and
that of `row` is the later one. -/
def StrictlyAfter (last row : Row) : List QueryPaginationOrderTerm → Prop
  | [] => False
  | term :: rest =>
    ∃ a b, db.key term last = some a ∧ db.key term row = some b ∧
      ((if term.descending then b < a else a < b) ∨ a = b ∧ StrictlyAfter last row rest)

/-- The answer has a value for every order term of a row. -/
def HasKeys (orderBy : List QueryPaginationOrderTerm) (row : Row) : Prop :=
  ∀ term ∈ orderBy, ∃ value, db.column row term.lookupKey = some (some value)

/-- The keys of a row can be written in a token, if the answer has all of them. -/
def Encodable (orderBy : List QueryPaginationOrderTerm) (row : Row) : Prop :=
  db.HasKeys orderBy row →
    ∀ term ∈ orderBy, ∀ value, db.key term row = some value → db.hasJson value = true

variable {db}

omit [LinearOrder V] in
theorem lastRowValues_some {row : Row} {orderBy : List QueryPaginationOrderTerm} {values : List V}
    (h : db.lastRowValues row orderBy = some values) :
    db.HasKeys orderBy row ∧ orderBy.map (fun term => db.key term row) = values.map some := by
  induction orderBy generalizing values with
  | nil =>
    cases h
    exact ⟨by simp [HasKeys], rfl⟩
  | cons term rest ih =>
    rw [lastRowValues] at h
    split at h
    · cases h
    · cases h
    · rename_i value hvalue
      obtain ⟨values', hvalues', rfl⟩ := Option.map_eq_some_iff.mp h
      obtain ⟨hkeys, hmap⟩ := ih hvalues'
      have hkey := db.column_key term row (some value) hvalue
      refine ⟨?_, by simp [← hkey, hmap]⟩
      intro term' hterm'
      rcases List.mem_cons.mp hterm' with rfl | hterm'
      · exact ⟨value, hvalue⟩
      · exact hkeys term' hterm'

omit [LinearOrder V] in
theorem lastRowValues_none {row : Row} {orderBy : List QueryPaginationOrderTerm}
    (h : db.lastRowValues row orderBy = none) : ¬ db.HasKeys orderBy row := by
  induction orderBy with
  | nil => cases h
  | cons term rest ih =>
    intro hkeys
    obtain ⟨value, hvalue⟩ := hkeys term (by simp)
    rw [lastRowValues, hvalue] at h
    have hrest : db.lastRowValues row rest = none := by simpa using h
    exact ih hrest fun term' hterm' => hkeys term' (by simp [hterm'])

omit [LinearOrder V] in
theorem encodable_iff {row : Row} {orderBy : List QueryPaginationOrderTerm} :
    ((db.lastRowValues row orderBy).getD []).all db.hasJson = true ↔ db.Encodable orderBy row := by
  cases hvalues : db.lastRowValues row orderBy with
  | none => exact iff_of_true rfl fun hkeys => absurd hkeys (lastRowValues_none hvalues)
  | some values =>
    obtain ⟨hkeys, hmap⟩ := lastRowValues_some hvalues
    rw [Option.getD_some, List.all_eq_true]
    constructor
    · intro hall _ term hterm value hvalue
      have hmem : some value ∈ values.map some := by
        rw [← hmap, ← hvalue]
        exact List.mem_map_of_mem hterm
      obtain ⟨value', hmem', heq⟩ := List.mem_map.mp hmem
      rw [← Option.some.inj heq]
      exact hall value' hmem'
    · intro hencodable value hmem
      have hkey : some value ∈ orderBy.map fun term => db.key term row := by
        rw [hmap]
        exact List.mem_map_of_mem hmem
      obtain ⟨term, hterm, hvalue⟩ := List.mem_map.mp hkey
      exact hencodable hkeys term hterm value hvalue

theorem evalConjunction_eq_true {row : Row} {before : List (QueryPaginationOrderTerm × V)}
    {term : QueryPaginationOrderTerm} {value : V} :
    db.evalConjunction row (keysetConjunction before term value) = some true ↔
      (∀ p ∈ before, db.key p.1 row = some p.2) ∧
      ∃ b, db.key term row = some b ∧ if term.descending then b < value else value < b := by
  rw [evalConjunction, Truth.foldr_and_eq_true, keysetConjunction]
  simp only [List.map_append, List.map_map, List.map_cons, List.map_nil, List.mem_append,
    List.mem_map, List.mem_singleton, Function.comp]
  constructor
  · intro h
    refine ⟨?_, ?_⟩
    · intro p hp
      have hp' := h _ (.inl ⟨p, hp, rfl⟩)
      rw [evalComparison] at hp'
      split at hp'
      · cases hp'
      · rename_i value hvalue
        simpa [hvalue] using hp'
    · have hlast := h _ (.inr rfl)
      rw [evalComparison] at hlast
      split at hlast
      · cases hlast
      · rename_i b hb
        refine ⟨b, hb, ?_⟩
        by_cases hd : term.descending <;> simpa [hd] using hlast
  · rintro ⟨hbefore, b, hb, hlast⟩ t (⟨p, hp, rfl⟩ | rfl)
    · simp [evalComparison, hbefore p hp]
    · by_cases hd : term.descending <;> simpa [evalComparison, hb, hd] using hlast

theorem evalWhere_keysetDisjunctions {last row : Row} {before : List (QueryPaginationOrderTerm × V)}
    {orderBy : List QueryPaginationOrderTerm} {values : List V}
    (hkeys : orderBy.map (fun term => db.key term last) = values.map some) :
    db.evalWhere row (keysetDisjunctions before (orderBy.zip values)) = some true ↔
      (∀ p ∈ before, db.key p.1 row = some p.2) ∧ db.StrictlyAfter last row orderBy := by
  induction orderBy generalizing before values with
  | nil => simp [keysetDisjunctions, evalWhere, StrictlyAfter]
  | cons term rest ih =>
    cases values with
    | nil => simp at hkeys
    | cons value values =>
      simp only [List.map_cons, List.cons.injEq] at hkeys
      obtain ⟨hkey, hrest⟩ := hkeys
      have hih := @ih (before ++ [(term, value)]) values hrest
      rw [List.zip_cons_cons, keysetDisjunctions, evalWhere, List.map_cons, List.foldr_cons,
        Truth.or_eq_true, evalConjunction_eq_true]
      rw [evalWhere] at hih
      rw [hih, StrictlyAfter]
      constructor
      · rintro (⟨hbefore, b, hb, hlt⟩ | ⟨hbefore, hafter⟩)
        · exact ⟨hbefore, value, b, hkey, hb, .inl hlt⟩
        · refine ⟨fun p hp => hbefore p (by simp [hp]), value, value, hkey, ?_, .inr ⟨rfl, hafter⟩⟩
          exact hbefore (term, value) (by simp)
      · rintro ⟨hbefore, a, b, ha, hb, hlt | ⟨hab, hafter⟩⟩
        · rw [hkey] at ha
          cases ha
          exact .inl ⟨hbefore, b, hb, hlt⟩
        · rw [hkey] at ha
          cases ha
          subst hab
          refine .inr ⟨?_, hafter⟩
          intro p hp
          rcases List.mem_append.mp hp with hp | hp
          · exact hbefore p hp
          · rw [List.mem_singleton.mp hp]
            exact hb

theorem evalWhere_eq_true {last row : Row} {orderBy : List QueryPaginationOrderTerm}
    {values : List V} (h : db.lastRowValues last orderBy = some values) :
    db.evalWhere row (buildKeysetWhereClause orderBy values) = some true ↔
      db.StrictlyAfter last row orderBy := by
  rw [buildKeysetWhereClause, evalWhere_keysetDisjunctions (lastRowValues_some h).2]
  simp

theorem not_strictlyAfter {a b : Row} {orderBy : List QueryPaginationOrderTerm}
    (h : db.compareRows orderBy a b ≠ .gt) : ¬ db.StrictlyAfter b a orderBy := by
  induction orderBy with
  | nil => exact fun hfalse => hfalse
  | cons term rest ih =>
    rintro ⟨x, y, hx, hy, hlt | ⟨hxy, hafter⟩⟩
    · have hgt : db.compareTerm term (some y) (some x) = .gt := by
        by_cases hd : term.descending
        · simpa [compareTerm, hd, compare_gt_iff_gt] using hlt
        · simpa [compareTerm, hd, compare_gt_iff_gt] using hlt
      apply h
      rw [compareRows, hx, hy, hgt]
      rfl
    · subst hxy
      have heq : db.compareTerm term (some x) (some x) = .eq := by
        simp [compareTerm]
      apply ih _ hafter
      rw [compareRows, hx, hy, heq] at h
      exact h

theorem compareRows_self (orderBy : List QueryPaginationOrderTerm) (a : Row) :
    db.compareRows orderBy a a = .eq := by
  induction orderBy with
  | nil => rfl
  | cons term rest ih =>
    have heq : db.compareTerm term (db.key term a) (db.key term a) = .eq := by
      cases db.key term a <;> simp [compareTerm]
    rw [compareRows, heq, ih]
    rfl

/-! ## Windows -/

/-- A page of `n` rows shows the beginning of `rows`, and knows whether there are more. -/
def Exact (window rows : List Row) (n : Nat) : Prop :=
  window.take n = rows.take n ∧ (n < window.length ↔ n < rows.length)

omit [LinearOrder V] in
/-- A selection of the rows is exact when it keeps those of the page, and one behind it if
there is one. -/
theorem exact_filter_iff {rows : List Row} {keep : Row → Bool} {n : Nat} :
    Exact (rows.filter keep) rows n ↔
      (∀ row ∈ rows.take n, keep row = true) ∧
      (n < rows.length → ∃ row ∈ rows.drop n, keep row = true) := by
  have hsplit : rows.filter keep = (rows.take n).filter keep ++ (rows.drop n).filter keep := by
    rw [← List.filter_append, List.take_append_drop]
  constructor
  · rintro ⟨htake, hmore⟩
    have hpage : ∀ row ∈ rows.take n, keep row = true := by
      intro row hrow
      rw [← htake] at hrow
      exact (List.mem_filter.mp (List.mem_of_mem_take hrow)).2
    refine ⟨hpage, ?_⟩
    intro hlt
    have hlonger := hmore.mpr hlt
    rw [hsplit, List.filter_eq_self.mpr hpage, List.length_append, List.length_take,
      Nat.min_eq_left hlt.le] at hlonger
    obtain ⟨row, hrow⟩ := List.exists_mem_of_length_pos
      (show 0 < ((rows.drop n).filter keep).length by omega)
    exact ⟨row, (List.mem_filter.mp hrow).1, (List.mem_filter.mp hrow).2⟩
  · rintro ⟨hpage, hmore⟩
    rw [Exact, hsplit, List.filter_eq_self.mpr hpage]
    by_cases hlt : n < rows.length
    · have hlen : (rows.take n).length = n := by
        rw [List.length_take]
        omega
      obtain ⟨row, hrow, hkeep⟩ := hmore hlt
      have hpos : 0 < ((rows.drop n).filter keep).length :=
        List.length_pos_of_mem (List.mem_filter.mpr ⟨hrow, hkeep⟩)
      refine ⟨?_, ?_⟩
      · rw [List.take_append_of_le_length (by omega), List.take_take, Nat.min_self]
      · rw [List.length_append]
        omega
    · have hdrop : rows.drop n = [] := List.drop_eq_nil_of_le (by omega)
      have hle : rows.length ≤ n := by omega
      simp [hdrop, hle]

variable (plan : SqlPaginationPlan) (n : Nat) (rows : List Row)

variable (db) in
/-- The rows behind the first `p` pages can be resumed from the last row of these: its keys,
if it has all of them, come before those of the next page, and before those of some row
behind it. -/
def Resumes (p : Nat) : Prop :=
  ∀ last, rows[p * n - 1]? = some last → db.HasKeys plan.orderBy last →
    (∀ row ∈ (rows.drop (p * n)).take n, db.StrictlyAfter last row plan.orderBy) ∧
    (n < (rows.drop (p * n)).length →
      ∃ row ∈ (rows.drop (p * n)).drop n, db.StrictlyAfter last row plan.orderBy)

/-- The request that follows the first `p` pages, by the keys of their last row or by the
offset. -/
def boundaryRequest (p : Nat) (values : Option (List V)) : QueryPaginationRequest V where
  page := p + 1
  pageSize := n
  isCursorMode := true
  queryHash := some plan.queryFingerprint
  orderBy := plan.orderBy
  lastRowValues := values.getD []
  givenOffset := if values.isSome then none else some (p * n)

variable {plan n rows}

theorem filter_eq_filter_drop {keep : Row → Bool} {last : Row} {m : Nat}
    (hsorted : db.Sorted plan.orderBy rows) (hlast : rows[m - 1]? = some last) (hm : 0 < m)
    (hkeep : ∀ row, keep row = true ↔ db.StrictlyAfter last row plan.orderBy) :
    rows.filter keep = (rows.drop m).filter keep := by
  have hnone : (rows.take m).filter keep = [] := by
    rw [List.filter_eq_nil_iff]
    intro row hrow hkept
    obtain ⟨i, hi⟩ := List.mem_iff_getElem?.mp hrow
    have him : i < m := by
      obtain ⟨hlt, -⟩ := List.getElem?_eq_some_iff.mp hi
      rw [List.length_take] at hlt
      omega
    rw [List.getElem?_take_of_lt him] at hi
    have hcompare : db.compareRows plan.orderBy row last ≠ .gt := by
      rcases Nat.lt_or_ge i (m - 1) with hlt | hge
      · obtain ⟨hi', rfl⟩ := List.getElem?_eq_some_iff.mp hi
        obtain ⟨hl', rfl⟩ := List.getElem?_eq_some_iff.mp hlast
        exact List.pairwise_iff_getElem.mp hsorted i (m - 1) hi' hl' hlt
      · have hieq : i = m - 1 := by omega
        rw [hieq, hlast] at hi
        cases hi
        simp [compareRows_self]
    exact not_strictlyAfter hcompare ((hkeep row).mp hkept)
  have hsplit : rows.filter keep = (rows.take m).filter keep ++ (rows.drop m).filter keep := by
    rw [← List.filter_append, List.take_append_drop]
  rw [hsplit, hnone, List.nil_append]

theorem execute_boundary (hsorted : db.Sorted plan.orderBy rows) {p : Nat} (hp : 0 < p * n)
    {last : Row} (hlast : rows[p * n - 1]? = some last) :
    ∃ window : List Row, window.length ≤ (rows.drop (p * n)).length ∧
      db.execute rows (boundaryRequest plan n p (db.lastRowValues last plan.orderBy)) =
        window.take (n + 1) ∧
      (Exact window (rows.drop (p * n)) n ↔ Resumes db plan n rows p) := by
  cases hvalues : db.lastRowValues last plan.orderBy with
  | none =>
    refine ⟨rows.drop (p * n), le_refl _, ?_, ?_⟩
    · have horder : plan.orderBy.length ≠ 0 := by
        simpa using plan.orderBy_ne
      have hstable :
          (boundaryRequest plan n p (none : Option (List V))).usesStableCursor = false := by
        simp [boundaryRequest, QueryPaginationRequest.usesStableCursor, horder.symm]
      rw [execute, if_neg (by simp [hstable])]
      rfl
    · refine ⟨fun _ => ?_, fun _ => ⟨rfl, Iff.rfl⟩⟩
      intro last' hlast' hkeys
      rw [hlast] at hlast'
      cases hlast'
      exact absurd hkeys (lastRowValues_none hvalues)
  | some values =>
    obtain ⟨hkeys, hmap⟩ := lastRowValues_some hvalues
    let keep : Row → Bool := fun row =>
      db.evalWhere row (buildKeysetWhereClause plan.orderBy values) = some true
    have hkeep : ∀ row, keep row = true ↔ db.StrictlyAfter last row plan.orderBy := by
      intro row
      simp only [keep, decide_eq_true_eq]
      exact evalWhere_eq_true hvalues
    refine ⟨(rows.drop (p * n)).filter keep, List.length_filter_le _ _, ?_, ?_⟩
    · have hlength : values.length = plan.orderBy.length := by
        have := congrArg List.length hmap
        simpa using this.symm
      have hstable : (boundaryRequest plan n p (some values)).usesStableCursor = true := by
        simp [boundaryRequest, QueryPaginationRequest.usesStableCursor, plan.orderBy_ne, hlength]
      rw [execute, if_pos hstable, ← filter_eq_filter_drop hsorted hlast hp hkeep]
      rfl
    · rw [exact_filter_iff, Resumes]
      simp only [hkeep]
      constructor
      · intro h last' hlast' _
        rw [hlast] at hlast'
        cases hlast'
        exact h
      · intro h
        exact h last hlast hkeys

/-! ## Requests -/

variable (plan n) in
/-- A request for the rows behind the first `p` pages. -/
structure Asks (r : QueryPaginationRequest V) (p : Nat) : Prop where
  page : r.page = p + 1
  pageSize : r.pageSize = n
  orderBy : r.orderBy = plan.orderBy
  queryHash : r.queryHash = some plan.queryFingerprint
  offset : r.offset = p * n

omit [LinearOrder V] in
theorem asks_boundaryRequest (p : Nat) (values : Option (List V)) :
    Asks plan n (boundaryRequest plan n p values) p := by
  refine ⟨rfl, rfl, rfl, rfl, ?_⟩
  cases values with
  | none => rfl
  | some values => simp [boundaryRequest, QueryPaginationRequest.offset]

theorem hasValidBounds_offset (p : Nat) (hn : 0 < n) :
    hasValidBounds (p + 1) n (some (p * n)) = hasValidBounds (p + 1) n none := by
  rw [hasValidBounds, hasValidBounds]
  split
  · rfl
  · simp only [Nat.add_sub_cancel]
    rw [Bool.eq_iff_iff]
    simp only [decide_eq_true_eq]
    rw [Nat.le_div_iff_mul_le hn]

omit [LinearOrder V] in
variable (db) in
theorem resolve_next {r : QueryPaginationRequest V} {p negotiatedMaxRows : Nat}
    (hasks : Asks plan n r p) (hn : 0 < n) (hmax : n ≤ negotiatedMaxRows) {pageData : List Row}
    {last : Row} (hlast : pageData.getLast? = some last) (hlength : pageData.length = n) :
    ∃ cursor, db.buildNextCursorToken r pageData = some cursor ∧
      resolveCursor db.hasJson plan negotiatedMaxRows cursor =
        if ((db.lastRowValues last plan.orderBy).getD []).all db.hasJson &&
            hasValidBounds (p + 2) n none then
          some (boundaryRequest plan n (p + 1) (db.lastRowValues last plan.orderBy))
        else none := by
  have horder : plan.orderBy.isEmpty = false := by simpa using plan.orderBy_ne
  have hmax' : ¬ negotiatedMaxRows < n := by omega
  rw [buildNextCursorToken, hlast]
  dsimp only
  rw [hasks.orderBy, if_neg (by simp [horder])]
  cases hvalues : db.lastRowValues last plan.orderBy with
  | none =>
    refine ⟨_, rfl, ?_⟩
    have hoffset : r.offset + pageData.length = (p + 1) * n := by
      rw [hasks.offset, hlength]
      ring
    have hstable : (buildOffsetCursorToken r pageData.length).isStableCursor = false := rfl
    have hbounds : hasValidBounds (buildOffsetCursorToken r pageData.length).page
        (buildOffsetCursorToken r pageData.length).pageSize
        (buildOffsetCursorToken r pageData.length).offset = hasValidBounds (p + 2) n none := by
      simp only [buildOffsetCursorToken, hoffset, hasks.page, hasks.pageSize]
      exact hasValidBounds_offset (p + 1) hn
    have hwritten : (buildOffsetCursorToken r pageData.length).lastRowValues.all db.hasJson =
        true := rfl
    rw [resolveCursor, QueryPaginationCursor.decode, hwritten, hbounds, hstable]
    cases hasValidBounds (p + 2) n none with
    | false => rfl
    | true =>
      simp [buildOffsetCursorToken, hoffset, hasks.page, hasks.pageSize, hmax',
        QueryPaginationCursor.isStableCursor, boundaryRequest]
  | some values =>
    refine ⟨_, rfl, ?_⟩
    obtain ⟨-, hmap⟩ := lastRowValues_some hvalues
    have hvalueslength : values.length = plan.orderBy.length := by
      have := congrArg List.length hmap
      simpa using this.symm
    have hnamed : plan.orderBy.any
        (fun term => term.expression == "" || term.lookupKey == "") = false := by
      rw [List.any_eq_false]
      intro term hterm
      simp [(plan.named term hterm).1, (plan.named term hterm).2]
    rw [resolveCursor, QueryPaginationCursor.decode]
    simp only [hasks.page, hasks.pageSize, hasks.queryHash, Option.getD_some]
    by_cases hwritten : values.all db.hasJson = true
    · cases hasValidBounds (p + 2) n none with
      | false => simp [hwritten]
      | true =>
        simp [QueryPaginationCursor.isStableCursor, horder, hvalueslength, hnamed, hmax',
          plan.fingerprint_ne, boundaryRequest, hwritten]
    · simp [hwritten]

/-! ## Following the cursors -/

theorem getElem?_of_take_eq {left window : List Row} (h : left.take n = window.take n)
    (hn : 0 < n) : left[n - 1]? = window[n - 1]? := by
  rw [← List.getElem?_take_of_lt (show n - 1 < n by omega), h, List.getElem?_take_of_lt (by omega)]

section Page

variable {r : QueryPaginationRequest V} {p negotiatedMaxRows : Nat} {window : List Row}
  (hasks : Asks plan n r p)

include hasks

omit [LinearOrder V] in
variable (db) in
/-- A page behind which a row was seen has a cursor to the next one. -/
theorem materialize_more (hn : 0 < n) (hmax : n ≤ negotiatedMaxRows) (hmore : n < window.length) :
    ∃ last cursor, window[n - 1]? = some last ∧
      db.materializePagination r (window.take (n + 1)) = (window.take n, some cursor) ∧
      resolveCursor db.hasJson plan negotiatedMaxRows cursor =
        if ((db.lastRowValues last plan.orderBy).getD []).all db.hasJson &&
            hasValidBounds (p + 2) n none then
          some (boundaryRequest plan n (p + 1) (db.lastRowValues last plan.orderBy))
        else none := by
  have hpage : (window.take n).length = n := by
    rw [List.length_take]
    omega
  obtain ⟨last, hlast⟩ : ∃ last, window[n - 1]? = some last :=
    ⟨_, List.getElem?_eq_getElem (by omega)⟩
  have hgetLast : (window.take n).getLast? = some last := by
    rw [List.getLast?_eq_getElem?, hpage, List.getElem?_take_of_lt (by omega), hlast]
  obtain ⟨cursor, hcursor, hresolve⟩ := resolve_next db hasks hn hmax hgetLast hpage
  have hlt : n < (window.take (n + 1)).length := by
    rw [List.length_take]
    omega
  have htake : (window.take (n + 1)).take n = window.take n := by
    rw [List.take_take, Nat.min_eq_left (by omega)]
  refine ⟨last, cursor, hlast, ?_, hresolve⟩
  simp only [materializePagination, hasks.pageSize, hlt, if_true, htake, hcursor]

omit [LinearOrder V] in
variable (db) in
theorem materialize_last (hlast : ¬n < window.length) :
    db.materializePagination r (window.take (n + 1)) = (window, none) := by
  have hwindow : window.take (n + 1) = window := List.take_of_length_le (by omega)
  simp only [materializePagination, hasks.pageSize, hwindow, hlast, if_false]

/-- One page, and what the pages behind it have to give. -/
theorem follow_succ_iff {fuel : Nat} (hn : 0 < n) (hmax : n ≤ negotiatedMaxRows)
    (hexecute : db.execute rows r = window.take (n + 1))
    (hlength : window.length ≤ (rows.drop (p * n)).length) :
    db.follow plan negotiatedMaxRows rows (fuel + 1) r = some (rows.drop (p * n)) ↔
      Exact window (rows.drop (p * n)) n ∧
      (n < (rows.drop (p * n)).length →
        hasValidBounds (p + 2) n none = true ∧
        ∃ last, rows[(p + 1) * n - 1]? = some last ∧ db.Encodable plan.orderBy last ∧
          db.follow plan negotiatedMaxRows rows fuel
            (boundaryRequest plan n (p + 1) (db.lastRowValues last plan.orderBy)) =
            some (rows.drop ((p + 1) * n))) := by
  have hdrop : rows.drop ((p + 1) * n) = (rows.drop (p * n)).drop n := by
    rw [List.drop_drop]
    congr 1
    ring
  have hget : rows[(p + 1) * n - 1]? = (rows.drop (p * n))[n - 1]? := by
    rw [List.getElem?_drop]
    congr 1
    have hmul : (p + 1) * n = p * n + n := by ring
    omega
  rw [hdrop, hget, follow, hexecute]
  generalize rows.drop (p * n) = left at *
  by_cases hmore : n < window.length
  · obtain ⟨last, cursor, hlast, hmaterialize, hresolve⟩ :=
      materialize_more db hasks hn hmax hmore
    rw [hmaterialize]
    dsimp only
    rw [hresolve]
    have hleft : n < left.length := by omega
    have hsame : ∀ last', left[n - 1]? = some last' → left.take n = window.take n →
        last' = last := by
      intro last' hlast' htake
      rw [getElem?_of_take_eq htake hn, hlast] at hlast'
      exact (Option.some.inj hlast').symm
    by_cases hencodable : db.Encodable plan.orderBy last
    case neg =>
      rw [Bool.eq_false_of_not_eq_true (encodable_iff.not.mpr hencodable), Bool.false_and,
        if_neg (by decide)]
      refine iff_of_false (by simp) ?_
      rintro ⟨⟨htake, -⟩, hbehind⟩
      obtain ⟨-, last', hlast', hencodable', -⟩ := hbehind hleft
      rw [hsame last' hlast' htake.symm] at hencodable'
      exact hencodable hencodable'
    rw [encodable_iff.mpr hencodable, Bool.true_and]
    cases hvalid : hasValidBounds (p + 2) n none with
    | false => simp [hleft]
    | true =>
      simp only [if_true, Option.map_eq_some_iff]
      have hpage : (window.take n).length = n := by
        rw [List.length_take]
        omega
      constructor
      · rintro ⟨rest, hrest, happend⟩
        have htake : left.take n = window.take n := by
          rw [← happend, List.take_append_of_le_length hpage.ge, List.take_take, Nat.min_self]
        have hskip : left.drop n = rest := by
          rw [← happend, List.drop_append_of_le_length hpage.ge]
          simp
        refine ⟨⟨htake.symm, by simp [hmore, hleft]⟩, fun _ => ⟨trivial, last, ?_, hencodable, ?_⟩⟩
        · rw [getElem?_of_take_eq htake hn, hlast]
        · rw [hrest, hskip]
      · rintro ⟨⟨htake, -⟩, hbehind⟩
        obtain ⟨-, last', hlast', -, hrest⟩ := hbehind hleft
        rw [hsame last' hlast' htake.symm] at hrest
        exact ⟨left.drop n, hrest, by rw [htake, List.take_append_drop]⟩
  · rw [materialize_last db hasks hmore]
    dsimp only
    constructor
    · intro h
      cases h
      exact ⟨⟨rfl, Iff.rfl⟩, fun hlt => absurd hlt hmore⟩
    · rintro ⟨⟨htake, hiff⟩, -⟩
      have hleft : ¬ n < left.length := fun hlt => hmore (hiff.mpr hlt)
      rw [List.take_of_length_le (by omega), List.take_of_length_le (by omega)] at htake
      rw [htake]

end Page

variable (db plan n rows) in
/-- The keys of the last row of the first `p` pages can be written in a token. -/
def Written (p : Nat) : Prop :=
  ∀ last, rows[p * n - 1]? = some last → db.Encodable plan.orderBy last

variable (db plan n rows) in
/-- Every page boundary can be resumed. -/
def Resumable : Prop :=
  ∀ p, 1 ≤ p → p * n < rows.length →
    hasValidBounds (p + 1) n none = true ∧ Written db plan n rows p ∧ Resumes db plan n rows p

theorem resumes_of_follow (hsorted : db.Sorted plan.orderBy rows) {negotiatedMaxRows : Nat}
    (hn : 0 < n) (hmax : n ≤ negotiatedMaxRows) {fuel : Nat} :
    ∀ {p : Nat} {r : QueryPaginationRequest V} {window : List Row}, Asks plan n r p →
      db.execute rows r = window.take (n + 1) → window.length ≤ (rows.drop (p * n)).length →
      db.follow plan negotiatedMaxRows rows fuel r = some (rows.drop (p * n)) →
      Exact window (rows.drop (p * n)) n ∧
      ∀ q, p < q → q * n < rows.length →
        hasValidBounds (q + 1) n none = true ∧ Written db plan n rows q ∧
          Resumes db plan n rows q := by
  induction fuel with
  | zero =>
    intro p r window _ _ _ h
    cases h
  | succ fuel ih =>
    intro p r window hasks hexecute hlength h
    obtain ⟨hexact, hbehind⟩ := (follow_succ_iff hasks hn hmax hexecute hlength).mp h
    refine ⟨hexact, ?_⟩
    intro q hpq hq
    have hle : (p + 1) * n ≤ q * n := Nat.mul_le_mul_right n hpq
    have hmul : (p + 1) * n = p * n + n := by ring
    have hmore : n < (rows.drop (p * n)).length := by
      rw [List.length_drop]
      omega
    obtain ⟨hvalid, last, hlast, hencodable, hfollow⟩ := hbehind hmore
    obtain ⟨window', hlength', hexecute', hiff⟩ :=
      execute_boundary hsorted (by omega) hlast
    obtain ⟨hexact', hlater⟩ := ih (asks_boundaryRequest (p + 1) _) hexecute' hlength' hfollow
    rcases Nat.lt_or_eq_of_le hpq with hlt | heq
    · exact hlater q hlt hq
    · rw [← heq]
      refine ⟨hvalid, ?_, hiff.mp hexact'⟩
      intro last' hlast'
      rw [hlast] at hlast'
      rw [← Option.some.inj hlast']
      exact hencodable

theorem follow_of_resumes (hsorted : db.Sorted plan.orderBy rows) {negotiatedMaxRows : Nat}
    (hn : 0 < n) (hmax : n ≤ negotiatedMaxRows) (hresumable : Resumable db plan n rows)
    (left : Nat) :
    ∀ {p : Nat} {r : QueryPaginationRequest V} {window : List Row},
      rows.length - p * n = left → Asks plan n r p →
      db.execute rows r = window.take (n + 1) → window.length ≤ (rows.drop (p * n)).length →
      Exact window (rows.drop (p * n)) n →
      ∃ fuel, db.follow plan negotiatedMaxRows rows fuel r = some (rows.drop (p * n)) := by
  induction left using Nat.strong_induction_on with
  | _ left ih =>
    intro p r window hleft hasks hexecute hlength hexact
    by_cases hmore : n < (rows.drop (p * n)).length
    · have hmul : (p + 1) * n = p * n + n := by ring
      have hlt : (p + 1) * n < rows.length := by
        rw [List.length_drop] at hmore
        omega
      obtain ⟨hvalid, hwritten, hresumes⟩ := hresumable (p + 1) (by omega) hlt
      obtain ⟨last, hlast⟩ : ∃ last, rows[(p + 1) * n - 1]? = some last :=
        ⟨_, List.getElem?_eq_getElem (by omega)⟩
      obtain ⟨window', hlength', hexecute', hiff⟩ :=
        execute_boundary hsorted (by omega) hlast
      obtain ⟨fuel, hfollow⟩ := ih (rows.length - (p + 1) * n) (by omega) rfl
        (asks_boundaryRequest (p + 1) _) hexecute' hlength' (hiff.mpr hresumes)
      exact ⟨fuel + 1, (follow_succ_iff hasks hn hmax hexecute hlength).mpr
        ⟨hexact, fun _ => ⟨hvalid, last, hlast, hwritten last hlast, hfollow⟩⟩⟩
    · exact ⟨1, (follow_succ_iff hasks hn hmax hexecute hlength).mpr
        ⟨hexact, fun hlt => absurd hlt hmore⟩⟩

end Database

/-! ## Tables with one key -/

/-- Rows with a number and a whole number as key under the column `k`, nulls last. -/
def keyedRows : Database (Nat × Option Int) Int where
  key _ row := row.2
  column row name := if name = "k" then some row.2 else none
  nullsFirst _ := false
  hasJson _ := true
  column_key := by
    intro term row value h
    split at h
    · exact (Option.some.inj h).symm
    · cases h

/-- `ORDER BY k`. -/
def byKey : SqlPaginationPlan where
  queryFingerprint := "q"
  orderBy := [{ expression := "k", lookupKey := "k" }]
  fingerprint_ne := by decide
  orderBy_ne := by decide
  named := by decide

/-- The first page of one row. -/
def firstPage : QueryPaginationRequest Int where
  page := 1
  pageSize := 1
  queryHash := some "q"
  orderBy := byKey.orderBy

end PlugAgente.Pagination
