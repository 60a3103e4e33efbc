import PlugAgente.Sql.Pieces

/-!
# The ranges of the walk

`scanSqlText` as the source has it, over indices: a range is reported by where it starts and where
it stops.  `scanSqlRanges_eq` connects it with the walk that reports texts, and `tiles` says that
the ranges lie side by side from the first character of a text to its last.
-/

namespace PlugAgente.Sql

open PlugAgente.Dart

/-- Which of its callbacks `scanSqlText` calls. -/
inductive RangeKind where
  | code
  | literal
  | comment (isBlock : Bool)
  deriving Repr, DecidableEq

/-- A range that `scanSqlText` reports. -/
structure SqlRange where
  start : Nat
  stop : Nat
  kind : RangeKind
  deriving Repr, DecidableEq

/-- `sql.substring(start, end)`. -/
def SqlRange.substring (sql : Text) (r : SqlRange) : Text :=
  (sql.drop r.start).take (r.stop - r.start)

/-! ## The inner loops -/

/-- A loop that moves an index through a text. -/
def scanIndex (sql : Text) (round : Text → Nat → Nat ⊕ Nat) (i : Nat) : Nat :=
  Loop.whileDec (fun i => sql.length - i) (round sql) 0 i

/-- One round in a `--` comment. -/
def lineCommentRound (sql : Text) (i : Nat) : Nat ⊕ Nat :=
  match sql[i]? with
  | none => .inr i
  | some c => if isLineBreak c then .inr i else .inl (i + 1)

/-- One round in a block comment, with `i = sql.length` when it is not closed. -/
def blockCommentRound (sql : Text) (i : Nat) : Nat ⊕ Nat :=
  match sql[i]?, sql[i + 1]? with
  | some c, some d => if c == '*' && d == '/' then .inr (i + 2) else .inl (i + 1)
  | _, _ => .inr sql.length

/-- One round in a bracketed name. -/
def bracketRound (sql : Text) (i : Nat) : Nat ⊕ Nat :=
  match sql[i]? with
  | none => .inr i
  | some c => if c == ']' then .inr (i + 1) else .inl (i + 1)

/-- One round of `_scanQuotedLiteral`. -/
def quotedLiteralRound (quote : Char) (sql : Text) (i : Nat) : Nat ⊕ Nat :=
  match sql[i]? with
  | none => .inr sql.length
  | some c =>
    if c == quote then
      if sql[i + 1]? == some quote then .inl (i + 2) else .inr (i + 1)
    else .inl (i + 1)

/-! ## The walk -/

/-- What starts at an index of code. -/
def rangeAt (sql : Text) (i : Nat) : Option SqlRange :=
  match sql[i]?, sql[i + 1]? with
  | some '-', some '-' => some ⟨i, scanIndex sql lineCommentRound (i + 2), .comment false⟩
  | some '/', some '*' => some ⟨i, scanIndex sql blockCommentRound (i + 2), .comment true⟩
  | some '[', _ => some ⟨i, scanIndex sql bracketRound (i + 1), .literal⟩
  | some '\'', _ => some ⟨i, scanIndex sql (quotedLiteralRound '\'') (i + 1), .literal⟩
  | some '"', _ => some ⟨i, scanIndex sql (quotedLiteralRound '"') (i + 1), .literal⟩
  | _, _ => none

/-- `i` and `codeStart`. -/
structure RangeCursor where
  index : Nat
  codeStart : Nat
  deriving Repr, DecidableEq

/-- `flushCode`. -/
def flushRange (codeStart stop : Nat) : List SqlRange :=
  if codeStart < stop then [⟨codeStart, stop, .code⟩] else []

/-- One round of the walk. -/
def rangeRound (sql : Text) (s : RangeCursor) : List SqlRange × Option RangeCursor :=
  if s.index < sql.length then
    match rangeAt sql s.index with
    | some r => (flushRange s.codeStart s.index ++ [r], some ⟨r.stop, r.stop⟩)
    | none => ([], some ⟨s.index + 1, s.codeStart⟩)
  else (flushRange s.codeStart s.index, none)

/-- `scanSqlText`. -/
def scanSqlRanges (sql : Text) : List SqlRange :=
  Loop.collect (fun s : RangeCursor => sql.length - s.index) (rangeRound sql) ⟨0, 0⟩

/-! ## The inner loops, on a text with the cursor inside -/

/-- Every round that goes on moves forward inside the text. -/
def Forward (round : Text → Nat → Nat ⊕ Nat) : Prop :=
  ∀ sql i j, round sql i = .inl j → i < j ∧ i < sql.length

theorem Forward.decreasing {round : Text → Nat → Nat ⊕ Nat} (h : Forward round) (sql : Text) :
    Loop.Decreasing (fun i => sql.length - i) (round sql) := by
  intro i j hij
  obtain ⟨hlt, hin⟩ := h sql i j hij
  show sql.length - j < sql.length - i
  omega

theorem lineCommentRound_forward : Forward lineCommentRound := by
  intro sql i j hij
  unfold lineCommentRound at hij
  split at hij
  · cases hij
  · rename_i c hc
    have := (List.getElem?_eq_some_iff.mp hc).1
    split_ifs at hij
    cases hij
    omega

theorem blockCommentRound_forward : Forward blockCommentRound := by
  intro sql i j hij
  unfold blockCommentRound at hij
  split at hij
  · rename_i c d hc hd
    have := (List.getElem?_eq_some_iff.mp hc).1
    split_ifs at hij
    cases hij
    omega
  · cases hij

theorem bracketRound_forward : Forward bracketRound := by
  intro sql i j hij
  unfold bracketRound at hij
  split at hij
  · cases hij
  · rename_i c hc
    have := (List.getElem?_eq_some_iff.mp hc).1
    split_ifs at hij
    cases hij
    omega

theorem quotedLiteralRound_forward (quote : Char) : Forward (quotedLiteralRound quote) := by
  intro sql i j hij
  unfold quotedLiteralRound at hij
  split at hij
  · cases hij
  · rename_i c hc
    have := (List.getElem?_eq_some_iff.mp hc).1
    split_ifs at hij <;> cases hij <;> omega

section Cursor

variable {round : Text → Nat → Nat ⊕ Nat}

theorem scanIndex_stop (h : Forward round) {sql : Text} {i j : Nat} (hr : round sql i = .inr j) :
    scanIndex sql round i = j :=
  Loop.whileDec_inr (h.decreasing sql) hr

theorem scanIndex_move (h : Forward round) {sql : Text} {i j : Nat} (hr : round sql i = .inl j) :
    scanIndex sql round i = scanIndex sql round j :=
  Loop.whileDec_inl (h.decreasing sql) hr

theorem getElem?_cursor (pre : Text) (c : Char) (x : Text) :
    (pre ++ c :: x)[pre.length]? = some c ∧ (pre ++ c :: x)[pre.length + 1]? = x[0]? := by
  constructor
  · simp
  · rw [List.getElem?_append_right (by omega)]
    simp

theorem getElem?_cursor_end (pre : Text) : (pre ++ ([] : Text))[pre.length]? = none := by
  simp

theorem scanIndex_moved (h : Forward round) {pre x : Text} {c : Char}
    (hr : round (pre ++ c :: x) pre.length = .inl (pre.length + 1)) {n : Nat}
    (hrest : scanIndex ((pre ++ [c]) ++ x) round (pre ++ [c]).length =
      (pre ++ [c]).length + n) :
    scanIndex (pre ++ c :: x) round pre.length = pre.length + (n + 1) := by
  rw [scanIndex_move h hr]
  rw [List.append_assoc, List.singleton_append, List.length_append, List.length_singleton] at hrest
  omega

end Cursor

theorem scanIndex_lineComment (pre x : Text) :
    scanIndex (pre ++ x) lineCommentRound pre.length =
      pre.length + (lineCommentEnd x).1.length := by
  induction x generalizing pre with
  | nil =>
    apply scanIndex_stop lineCommentRound_forward
    rw [lineCommentRound, getElem?_cursor_end]
    rfl
  | cons c x ih =>
    cases hc : isLineBreak c with
    | true =>
      rw [lineCommentEnd_break hc]
      apply scanIndex_stop lineCommentRound_forward
      rw [lineCommentRound, (getElem?_cursor pre c x).1]
      exact if_pos hc
    | false =>
      rw [lineCommentEnd_other hc]
      apply scanIndex_moved lineCommentRound_forward
      · rw [lineCommentRound, (getElem?_cursor pre c x).1]
        exact if_neg (by simp [hc])
      · exact ih (pre ++ [c])

theorem scanIndex_bracket (pre x : Text) :
    scanIndex (pre ++ x) bracketRound pre.length = pre.length + (bracketEnd x).1.length := by
  induction x generalizing pre with
  | nil =>
    apply scanIndex_stop bracketRound_forward
    rw [bracketRound, getElem?_cursor_end]
    rfl
  | cons c x ih =>
    by_cases hc : c = ']'
    · subst hc
      rw [bracketEnd_close]
      apply scanIndex_stop bracketRound_forward
      rw [bracketRound, (getElem?_cursor pre _ x).1]
      rfl
    · rw [bracketEnd_other hc]
      apply scanIndex_moved bracketRound_forward
      · rw [bracketRound, (getElem?_cursor pre c x).1]
        exact if_neg (by simp [hc])
      · exact ih (pre ++ [c])

theorem scanIndex_blockComment (pre x : Text) :
    scanIndex (pre ++ x) blockCommentRound pre.length =
      pre.length + (blockCommentEnd x).1.length := by
  induction x generalizing pre with
  | nil =>
    apply scanIndex_stop blockCommentRound_forward
    rw [blockCommentRound, getElem?_cursor_end]
    simp [blockCommentEnd]
  | cons c x ih =>
    obtain ⟨hc, hd⟩ := getElem?_cursor pre c x
    cases x with
    | nil =>
      apply scanIndex_stop blockCommentRound_forward
      rw [blockCommentRound, hc, hd]
      simp [blockCommentEnd]
    | cons d x =>
      by_cases hclose : c = '*' ∧ d = '/'
      · obtain ⟨rfl, rfl⟩ := hclose
        rw [blockCommentEnd_close]
        apply scanIndex_stop blockCommentRound_forward
        rw [blockCommentRound, hc, hd]
        rfl
      · rw [blockCommentEnd_other hclose]
        apply scanIndex_moved blockCommentRound_forward
        · rw [blockCommentRound, hc, hd]
          exact if_neg (by simpa using hclose)
        · exact ih (pre ++ [c])

theorem scanIndex_quotedLiteral (quote : Char) (pre x : Text) :
    scanIndex (pre ++ x) (quotedLiteralRound quote) pre.length =
      pre.length + (scanQuotedLiteral quote x).1.length := by
  have hforward := quotedLiteralRound_forward quote
  cases x with
  | nil =>
    apply scanIndex_stop hforward
    rw [quotedLiteralRound, getElem?_cursor_end]
    simp [scanQuotedLiteral]
  | cons c x =>
    obtain ⟨hc, hd⟩ := getElem?_cursor pre c x
    by_cases hquote : c = quote
    · subst hquote
      cases x with
      | nil =>
        rw [scanQuotedLiteral_end]
        apply scanIndex_stop hforward
        rw [quotedLiteralRound, hc, hd]
        simp
      | cons d x =>
        by_cases hdoubled : d = c
        · -- A doubled quote stays inside, and the cursor moves over both.
          subst hdoubled
          rw [scanQuotedLiteral_doubled]
          have hmove : quotedLiteralRound d (pre ++ d :: d :: x) pre.length =
              .inl (pre.length + 2) := by
            rw [quotedLiteralRound, hc, hd]
            simp
          rw [scanIndex_move hforward hmove]
          have hrest := scanIndex_quotedLiteral d (pre ++ [d, d]) x
          rw [show pre ++ [d, d] ++ x = pre ++ d :: d :: x by simp,
            show (pre ++ [d, d]).length = pre.length + 2 by simp] at hrest
          rw [hrest, List.length_cons, List.length_cons]
          omega
        · rw [scanQuotedLiteral_close hdoubled]
          apply scanIndex_stop hforward
          rw [quotedLiteralRound, hc, hd]
          simp [hdoubled]
    · rw [scanQuotedLiteral_other hquote]
      apply scanIndex_moved hforward
      · rw [quotedLiteralRound, hc]
        exact if_neg (by simp [hquote])
      · exact scanIndex_quotedLiteral quote (pre ++ [c]) x
termination_by x.length

/-! ## The ranges and the texts -/

/-- The callback of a segment. -/
def Segment.kind : Segment → RangeKind
  | .code _ => .code
  | .literal _ => .literal
  | .comment _ isBlock => .comment isBlock

/-- The ranges of segments, the first of which starts at an index. -/
def rangesOf (start : Nat) : List Segment → List SqlRange
  | [] => []
  | segment :: segments =>
    ⟨start, start + segment.text.length, segment.kind⟩ ::
      rangesOf (start + segment.text.length) segments

theorem rangesOf_append (start : Nat) (l m : List Segment) :
    rangesOf start (l ++ m) = rangesOf start l ++
      rangesOf (start + (l.flatMap Segment.text).length) m := by
  induction l generalizing start with
  | nil => rfl
  | cons segment l ih =>
    rw [List.cons_append, rangesOf, rangesOf, ih, List.cons_append, List.flatMap_cons,
      List.length_append, Nat.add_assoc]

theorem rangesOf_flushCode (start : Nat) (code : Text) :
    rangesOf start (flushCode code) = flushRange start (start + code.length) := by
  unfold flushCode flushRange
  cases code with
  | nil => simp [rangesOf]
  | cons c code => simp [rangesOf, Segment.text, Segment.kind]

theorem flatMap_text_flushCode (code : Text) : (flushCode code).flatMap Segment.text = code := by
  unfold flushCode
  cases code <;> simp [Segment.text]

theorem scanIndex_mark {round : Text → Nat → Nat ⊕ Nat} {f : Text → Text × Text}
    (h : ∀ pre x, scanIndex (pre ++ x) round pre.length = pre.length + (f x).1.length)
    (pre mark x : Text) :
    scanIndex (pre ++ (mark ++ x)) round (pre.length + mark.length) =
      pre.length + (mark ++ (f x).1).length := by
  rw [← List.append_assoc, ← List.length_append, h, List.length_append, List.length_append]
  omega

theorem rangeAt_eq (pre x : Text) :
    rangeAt (pre ++ x) pre.length =
      (regionAt x).map fun r => ⟨pre.length, pre.length + r.1.text.length, r.1.kind⟩ := by
  cases hregion : regionAt x with
  | some r =>
    obtain ⟨mark, f, mk, y, hopens, rfl, hsegment, -⟩ := opens_of_regionAt hregion
    rw [Option.map_some, hsegment, hopens.text_mk]
    cases hopens with
    | lineComment =>
      obtain ⟨hc, hd⟩ := getElem?_cursor pre '-' ('-' :: y)
      rw [← scanIndex_mark scanIndex_lineComment pre ['-', '-'] y]
      simp only [rangeAt, List.cons_append, List.nil_append, hc, hd]
      rfl
    | blockComment =>
      obtain ⟨hc, hd⟩ := getElem?_cursor pre '/' ('*' :: y)
      rw [← scanIndex_mark scanIndex_blockComment pre ['/', '*'] y]
      simp only [rangeAt, List.cons_append, List.nil_append, hc, hd]
      rfl
    | bracket =>
      obtain ⟨hc, hd⟩ := getElem?_cursor pre '[' y
      rw [← scanIndex_mark scanIndex_bracket pre ['['] y]
      simp only [rangeAt, List.cons_append, List.nil_append, hc, hd]
      rfl
    | single =>
      obtain ⟨hc, hd⟩ := getElem?_cursor pre '\'' y
      rw [← scanIndex_mark (scanIndex_quotedLiteral '\'') pre ['\''] y]
      simp only [rangeAt, List.cons_append, List.nil_append, hc, hd]
      rfl
    | double =>
      obtain ⟨hc, hd⟩ := getElem?_cursor pre '"' y
      rw [← scanIndex_mark (scanIndex_quotedLiteral '"') pre ['"'] y]
      simp only [rangeAt, List.cons_append, List.nil_append, hc, hd]
      rfl
  | none =>
    rw [Option.map_none]
    cases x with
    | nil => simp [rangeAt]
    | cons c x =>
      obtain ⟨hc, hd⟩ := getElem?_cursor pre c x
      unfold rangeAt
      rw [hc, hd]
      -- A mark at the index would begin a region.
      split
      · rename_i h₁ h₂
        obtain rfl := Option.some.inj h₁
        cases x with
        | nil => cases h₂
        | cons d x =>
          obtain rfl := Option.some.inj h₂
          simp [regionAt] at hregion
      · rename_i h₁ h₂
        obtain rfl := Option.some.inj h₁
        cases x with
        | nil => cases h₂
        | cons d x =>
          obtain rfl := Option.some.inj h₂
          simp [regionAt] at hregion
      · rename_i h₁
        obtain rfl := Option.some.inj h₁
        simp [regionAt] at hregion
      · rename_i h₁
        obtain rfl := Option.some.inj h₁
        simp [regionAt] at hregion
      · rename_i h₁
        obtain rfl := Option.some.inj h₁
        simp [regionAt] at hregion
      · rfl

theorem rangeAt_forward {sql : Text} {i : Nat} {r : SqlRange} (hi : i < sql.length)
    (h : rangeAt sql i = some r) : i < r.stop ∧ r.start = i := by
  have hsplit : sql = sql.take i ++ sql.drop i := (List.take_append_drop i sql).symm
  have hlen : (sql.take i).length = i := by
    rw [List.length_take]
    omega
  have heq := rangeAt_eq (sql.take i) (sql.drop i)
  rw [← hsplit, hlen, h] at heq
  obtain ⟨p, hp, hr⟩ := Option.map_eq_some_iff.mp heq.symm
  obtain ⟨htext, hlt⟩ := text_of_regionAt (show regionAt _ = some (p.1, p.2) from hp)
  have hlength := congrArg List.length htext
  rw [List.length_append] at hlength
  rw [← hr]
  refine ⟨?_, rfl⟩
  show i < i + p.1.text.length
  omega

theorem rangeRound_decreasing (sql : Text) (s : RangeCursor) (out : List SqlRange)
    (s' : RangeCursor) (h : rangeRound sql s = (out, some s')) :
    sql.length - s'.index < sql.length - s.index := by
  unfold rangeRound at h
  split_ifs at h with hi
  · split at h
    · rename_i r hr
      cases h
      have := (rangeAt_forward hi hr).1
      show sql.length - r.stop < _
      omega
    · cases h
      show sql.length - (s.index + 1) < _
      omega
  · cases h

/-- The walk over the indices reports the ranges of the texts that the walk over the text
reports. -/
theorem collect_rangeRound (pre code x : Text) :
    Loop.collect (fun s : RangeCursor => (pre ++ code ++ x).length - s.index)
        (rangeRound (pre ++ code ++ x)) ⟨(pre ++ code).length, pre.length⟩ =
      rangesOf pre.length (scanFrom ⟨code, x⟩) := by
  induction hn : x.length using Nat.strong_induction_on generalizing pre code x with
  | _ n ih =>
    rw [Loop.collect_eq (rangeRound_decreasing _)]
    have hat := rangeAt_eq (pre ++ code) x
    have hflush : rangesOf pre.length (flushCode code) =
        flushRange pre.length (pre ++ code).length := by
      rw [rangesOf_flushCode, List.length_append]
    cases hx : x with
    | nil =>
      have hround : rangeRound (pre ++ code ++ []) ⟨(pre ++ code).length, pre.length⟩ =
          (flushRange pre.length (pre ++ code).length, none) := by
        unfold rangeRound
        rw [if_neg (by simp)]
      rw [hround, scanFrom_nil, hflush]
    | cons c rest =>
      rw [← hx]
      have hin : (pre ++ code).length < (pre ++ code ++ x).length := by
        simp [hx]
      cases hregion : regionAt x with
      | some r =>
        obtain ⟨segment, after⟩ := r
        obtain ⟨htext, hlt⟩ := text_of_regionAt hregion
        rw [hregion, Option.map_some] at hat
        have hround : rangeRound (pre ++ code ++ x) ⟨(pre ++ code).length, pre.length⟩ =
            (flushRange pre.length (pre ++ code).length ++
              [⟨(pre ++ code).length, (pre ++ code).length + segment.text.length, segment.kind⟩],
            some ⟨(pre ++ code).length + segment.text.length,
              (pre ++ code).length + segment.text.length⟩) := by
          unfold rangeRound
          rw [if_pos hin, hat]
        have hcode : (pre ++ code).length = pre.length + code.length := List.length_append
        have hsegment : (pre ++ code ++ segment.text).length =
            (pre ++ code).length + segment.text.length := List.length_append
        have hrest := ih _ (hn ▸ hlt) (pre ++ code ++ segment.text) [] after rfl
        rw [List.append_nil, List.append_assoc (pre ++ code), htext, hsegment] at hrest
        rw [hround, scanFrom_region hregion, rangesOf_append, hflush, flatMap_text_flushCode,
          rangesOf, ← hcode, ← hrest]
        exact List.append_assoc _ _ _
      | none =>
        rw [hregion, Option.map_none] at hat
        have hround : rangeRound (pre ++ code ++ x) ⟨(pre ++ code).length, pre.length⟩ =
            ([], some ⟨(pre ++ code).length + 1, pre.length⟩) := by
          unfold rangeRound
          rw [if_pos hin, hat]
        have hrest := ih rest.length (by rw [← hn, hx]; simp) pre (code ++ [c]) rest rfl
        subst hx
        rw [show pre ++ (code ++ [c]) ++ rest = pre ++ code ++ c :: rest by simp,
          show (pre ++ (code ++ [c])).length = (pre ++ code).length + 1 by
            rw [← List.append_assoc, List.length_append]; rfl] at hrest
        rw [hround, scanFrom_char hregion, ← hrest]
        rfl

theorem scanSqlRanges_eq (sql : Text) : scanSqlRanges sql = rangesOf 0 (scanSqlText sql) :=
  collect_rangeRound [] [] sql

/-! ## Side by side -/

/-- The ranges lie side by side from `start` to `stop`, and none of them is empty. -/
def Tiles (start stop : Nat) : List SqlRange → Prop
  | [] => start = stop
  | r :: ranges => r.start = start ∧ r.start < r.stop ∧ Tiles r.stop stop ranges

theorem text_ne_nil_of_scanFrom {code x : Text} {segment : Segment}
    (h : segment ∈ scanFrom ⟨code, x⟩) : segment.text ≠ [] := by
  have hflush : ∀ code, segment ∈ flushCode code → segment.text ≠ [] := by
    intro code hmem
    unfold flushCode at hmem
    split_ifs at hmem with hempty
    · cases hmem
    · rw [List.mem_singleton.mp hmem]
      exact fun h => hempty (List.isEmpty_iff.mpr h)
  induction hn : x.length using Nat.strong_induction_on generalizing code x with
  | _ n ih =>
    cases hregion : regionAt x with
    | some r =>
      obtain ⟨found, after⟩ := r
      obtain ⟨htext, hlt⟩ := text_of_regionAt hregion
      rw [scanFrom_region hregion] at h
      rcases List.mem_append.mp h with hmem | hmem
      · exact hflush code hmem
      · rcases List.mem_cons.mp hmem with rfl | hrest
        · intro hnil
          rw [hnil, List.nil_append] at htext
          rw [htext] at hlt
          omega
        · exact ih _ (hn ▸ hlt) hrest rfl
    | none =>
      cases x with
      | nil =>
        rw [scanFrom_nil] at h
        exact hflush code h
      | cons c rest =>
        rw [scanFrom_char hregion] at h
        exact ih rest.length (by rw [← hn]; simp) h rfl

theorem tiles_rangesOf (start : Nat) {segments : List Segment}
    (h : ∀ segment ∈ segments, segment.text ≠ []) :
    Tiles start (start + (segments.flatMap Segment.text).length) (rangesOf start segments) := by
  induction segments generalizing start with
  | nil => rfl
  | cons segment segments ih =>
    have hpos : 0 < segment.text.length := List.length_pos_iff.mpr (h segment (by simp))
    refine ⟨rfl, by show start < start + _; omega, ?_⟩
    have hrest := ih (start + segment.text.length) fun s hs => h s (by simp [hs])
    rw [List.flatMap_cons, List.length_append, ← Nat.add_assoc]
    exact hrest

theorem flatMap_text_scanSqlText (sql : Text) : (scanSqlText sql).flatMap Segment.text = sql := by
  have hpieces : ∀ segment : Segment, textOf segment.pieces = segment.text := by
    intro segment
    cases segment with
    | code t =>
      show textOf (t.map .char) = t
      induction t with
      | nil => rfl
      | cons c t ih => rw [List.map_cons, textOf_cons, ih]; rfl
    | literal t => exact List.append_nil t
    | comment t isBlock => exact List.append_nil t
  calc (scanSqlText sql).flatMap Segment.text
      = (scanSqlText sql).flatMap fun segment => textOf segment.pieces := by
        apply List.flatMap_congr
        intro segment _
        exact (hpieces segment).symm
    _ = textOf (pieces sql) := List.flatMap_assoc.symm
    _ = sql := textOf_pieces sql

theorem tiles (sql : Text) : Tiles 0 sql.length (scanSqlRanges sql) := by
  have h := tiles_rangesOf 0 fun segment (hs : segment ∈ scanSqlText sql) =>
    text_ne_nil_of_scanFrom hs
  rw [flatMap_text_scanSqlText, Nat.zero_add] at h
  rw [scanSqlRanges_eq]
  exact h

theorem flatMap_rangesOf {α : Type*} (g : RangeKind → Text → List α) (pre : Text)
    (segments : List Segment) (post : Text) :
    (rangesOf pre.length segments).flatMap
        (fun r => g r.kind (r.substring (pre ++ segments.flatMap Segment.text ++ post))) =
      segments.flatMap fun segment => g segment.kind segment.text := by
  induction segments generalizing pre with
  | nil => rfl
  | cons segment segments ih =>
    have hrest := ih (pre ++ segment.text)
    rw [List.length_append] at hrest
    rw [rangesOf, List.flatMap_cons, List.flatMap_cons]
    apply congrArg₂ (· ++ ·)
    · have hsub : SqlRange.substring
          (pre ++ (segment :: segments).flatMap Segment.text ++ post)
          ⟨pre.length, pre.length + segment.text.length, segment.kind⟩ = segment.text := by
        simp [SqlRange.substring, List.append_assoc]
      exact congrArg (g segment.kind) hsub
    · simp only [List.append_assoc] at hrest ⊢
      exact hrest

theorem flatMap_scanSqlRanges {α : Type*} (g : RangeKind → Text → List α) (sql : Text) :
    (scanSqlRanges sql).flatMap (fun r => g r.kind (r.substring sql)) =
      (scanSqlText sql).flatMap fun segment => g segment.kind segment.text := by
  have h := flatMap_rangesOf g [] (scanSqlText sql) []
  rw [flatMap_text_scanSqlText, List.nil_append, List.append_nil] at h
  rw [scanSqlRanges_eq]
  exact h

end PlugAgente.Sql
