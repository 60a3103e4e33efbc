import PlugAgente.Sql.Pieces

/-!
# The clause scanners of the validator

`_findTopLevelOrderBy`, `_containsTopLevelKeyword` and `_splitTopLevelCommaSeparated` of
`SqlValidator` each keep three flags for the quotes and a depth of parentheses while they walk a
text.  The flags are one tracker here, `QuoteState`, and the first two are one loop,
`topLevelIndex`.

`outsideQuotes_eq` says that on a text without comments the tracker is outside quotes exactly
where `scanSqlText` reports code, so that what the scanners find can be said of that report:
`topLevelIndex_first` and `splitLoop_eq`.  The depth is counted from the report, too.
-/

namespace PlugAgente.Sql.ClauseScan

open PlugAgente.Dart

/-! ## The scanners -/

/-- `_isWordBoundary`, of the character there, if there is one. -/
def isWordBoundary : Option Char → Bool
  | none => true
  | some c => !(c.isAlphanum || c == '_')

/-- The three flags. -/
structure QuoteState where
  inSingleQuote : Bool := false
  inDoubleQuote : Bool := false
  inBracketQuote : Bool := false
  deriving DecidableEq, Repr

/-- The flags after a character, and whether the character is treated as outside quotes. -/
def QuoteState.next (q : QuoteState) (current : Char) : QuoteState × Bool :=
  if !q.inDoubleQuote && !q.inBracketQuote && current == '\'' then
    ({ q with inSingleQuote := !q.inSingleQuote }, false)
  else if !q.inSingleQuote && !q.inBracketQuote && current == '"' then
    ({ q with inDoubleQuote := !q.inDoubleQuote }, false)
  else if !q.inSingleQuote && !q.inDoubleQuote && current == '[' then
    ({ q with inBracketQuote := true }, false)
  else if q.inBracketQuote && current == ']' then
    ({ q with inBracketQuote := false }, false)
  else (q, !(q.inSingleQuote || q.inDoubleQuote || q.inBracketQuote))

/-- The keyword stands at the start of the text as a whole word. -/
def isKeywordAt (keyword : Text) (before : Option Char) (text : Text) : Bool :=
  keyword.isPrefixOf text && isWordBoundary before &&
    isWordBoundary (text.drop keyword.length).head?

/-- The loop that looks for a keyword outside quotes and parentheses, as long as it fits. -/
def topLevelIndex (keyword : Text) (q : QuoteState) (depth : Int) (before : Option Char) :
    Text → Option Nat
  | [] => none
  | current :: rest =>
    if (current :: rest).length < keyword.length then none
    else
      match q.next current with
      | (q, false) => (topLevelIndex keyword q depth (some current) rest).map (· + 1)
      | (q, true) =>
        if current == '(' then
          (topLevelIndex keyword q (depth + 1) (some current) rest).map (· + 1)
        else if current == ')' then
          (topLevelIndex keyword q (depth - 1) (some current) rest).map (· + 1)
        else if depth == 0 && isKeywordAt keyword before (current :: rest) then some 0
        else (topLevelIndex keyword q depth (some current) rest).map (· + 1)

def findTopLevelOrderBy (cm : CaseMap) (sql : Text) : Int :=
  match topLevelIndex "order by".toList {} 0 none (cm.toLowerCase sql) with
  | some i => i
  | none => -1

def containsTopLevelKeyword (cm : CaseMap) (sql keyword : Text) : Bool :=
  (topLevelIndex keyword {} 0 none (cm.toLowerCase sql)).isSome

/-- The loop of `_splitTopLevelCommaSeparated`, with the buffer. -/
def splitLoop (q : QuoteState) (depth : Int) (buffer : Text) : Text → List Text
  | [] => if (trim buffer).isEmpty then [] else [trim buffer]
  | current :: rest =>
    match q.next current with
    | (q, false) => splitLoop q depth (buffer ++ [current]) rest
    | (q, true) =>
      if current == '(' then splitLoop q (depth + 1) (buffer ++ [current]) rest
      else if current == ')' then splitLoop q (depth - 1) (buffer ++ [current]) rest
      else if current == ',' && depth == 0 then trim buffer :: splitLoop q depth [] rest
      else splitLoop q depth (buffer ++ [current]) rest

def splitTopLevelCommaSeparated (sql : Text) : List Text := splitLoop {} 0 [] sql

/-! ## What the walk reports -/

/-- Whether each position of a text is reported as code. -/
def codeMask (sql : Text) : List Bool :=
  (scanSqlText sql).flatMap fun
    | .code t => t.map fun _ => true
    | .literal t => t.map fun _ => false
    | .comment t _ => t.map fun _ => false

/-- No comment is reported. -/
def CommentFree (sql : Text) : Prop :=
  ∀ segment ∈ scanSqlText sql, ∀ t isBlock, segment ≠ .comment t isBlock

instance (sql : Text) : Decidable (CommentFree sql) :=
  decidable_of_iff (∀ segment ∈ scanSqlText sql, (segment matches .comment ..) = false) <| by
    refine forall₂_congr fun segment _ => ?_
    cases segment <;> simp

/-- What a character adds to the depth. -/
def parenWeight (c : Char) : Int :=
  if c == '(' then 1 else if c == ')' then -1 else 0

/-- The depth of the parentheses at the end of a text, of those that are code. -/
def depthOf : Text → List Bool → Int
  | c :: text, true :: mask => parenWeight c + depthOf text mask
  | _ :: text, false :: mask => depthOf text mask
  | _, _ => 0

theorem depthOf_nil (mask : List Bool) : depthOf [] mask = 0 := by
  cases mask with
  | nil => rfl
  | cons b mask => cases b <;> rfl

/-- Whether the tracker is outside quotes at each position. -/
def outsideQuotes (q : QuoteState) : Text → List Bool
  | [] => []
  | c :: rest => (q.next c).2 :: outsideQuotes (q.next c).1 rest

/-! ## The tracker on a literal -/

theorem outsideQuotes_bracket (x : Text) :
    outsideQuotes { inBracketQuote := true } x =
      (bracketEnd x).1.map (fun _ => false) ++ outsideQuotes {} (bracketEnd x).2 := by
  induction x with
  | nil => rfl
  | cons c rest ih =>
    by_cases hc : c = ']'
    · subst hc
      rw [bracketEnd_close]
      rfl
    · have hnext : QuoteState.next { inBracketQuote := true } c =
          ({ inBracketQuote := true }, false) := by
        simp [QuoteState.next, hc]
      rw [bracketEnd_other hc, outsideQuotes, hnext, ih]
      rfl

/-- The tracker inside a quoted text. -/
def quoted (quote : Char) : QuoteState :=
  { inSingleQuote := quote == '\'', inDoubleQuote := quote == '"' }

theorem outsideQuotes_quoted {quote : Char} (hquote : quote = '\'' ∨ quote = '"') (x : Text) :
    outsideQuotes (quoted quote) x =
      (scanQuotedLiteral quote x).1.map (fun _ => false) ++
        outsideQuotes {} (scanQuotedLiteral quote x).2 := by
  have hopen : QuoteState.next {} quote = (quoted quote, false) := by
    rcases hquote with rfl | rfl <;> rfl
  have hclose : QuoteState.next (quoted quote) quote = ({}, false) := by
    rcases hquote with rfl | rfl <;> rfl
  have hinside : ∀ c, c ≠ quote → QuoteState.next (quoted quote) c = (quoted quote, false) := by
    intro c hc
    rcases hquote with rfl | rfl <;> simp [QuoteState.next, quoted, hc]
  induction hn : x.length using Nat.strong_induction_on generalizing x with
  | _ n ih =>
    cases x with
    | nil => rw [scanQuotedLiteral]; rfl
    | cons c rest =>
      rw [List.length_cons] at hn
      by_cases hc : c = quote
      · subst hc
        rw [outsideQuotes, hclose]
        cases rest with
        | nil => rw [scanQuotedLiteral_end]; rfl
        | cons d rest =>
          by_cases hd : d = c
          · subst hd
            rw [List.length_cons] at hn
            rw [scanQuotedLiteral_doubled, outsideQuotes, hopen, ih _ (by omega) rest rfl]
            rfl
          · rw [scanQuotedLiteral_close hd]
            rfl
      · rw [scanQuotedLiteral_other hc, outsideQuotes, hinside c hc, ih _ (by omega) rest rfl]
        rfl

/-- The report by pieces. -/
def pieceMask : Piece → List Bool
  | .char _ => [true]
  | .literal t => t.map fun _ => false
  | .comment t _ => t.map fun _ => false

theorem codeMask_eq (sql : Text) : codeMask sql = (pieces sql).flatMap pieceMask := by
  rw [pieces, List.flatMap_assoc, codeMask]
  apply List.flatMap_congr
  intro segment _
  cases segment with
  | code t =>
    show t.map (fun _ => true) = (t.map Piece.char).flatMap pieceMask
    rw [List.flatMap_map]
    exact List.map_eq_flatMap
  | literal t => exact (List.append_nil _).symm
  | comment t isBlock => exact (List.append_nil _).symm

theorem CommentFree.notMem {sql : Text} (h : CommentFree sql) (t : Text) (isBlock : Bool) :
    Piece.comment t isBlock ∉ pieces sql := by
  intro hmem
  obtain ⟨segment, hsegment, hpiece⟩ := List.mem_flatMap.mp hmem
  cases segment with
  | code t' => simp [Segment.pieces] at hpiece
  | literal t' => simp [Segment.pieces] at hpiece
  | comment t' isBlock' => exact h _ hsegment t' isBlock' rfl

/-! ## The tracker and the walk -/

/-- What starts a literal is seen by the tracker, and nothing else that is code is. -/
theorem next_of_char {c : Char} {rest : Text} (h : regionAt (c :: rest) = none) :
    QuoteState.next {} c = ({}, true) := by
  have hsingle : c ≠ '\'' := by
    rintro rfl
    simp [regionAt] at h
  have hdouble : c ≠ '"' := by
    rintro rfl
    simp [regionAt] at h
  have hbracket : c ≠ '[' := by
    rintro rfl
    simp [regionAt] at h
  simp [QuoteState.next, hsingle, hdouble, hbracket]

theorem outsideQuotes_literal {x t after : Text} (h : regionAt x = some (.literal t, after)) :
    outsideQuotes {} x = t.map (fun _ => false) ++ outsideQuotes {} after := by
  obtain ⟨mark, f, mk, y, hopens, rfl, hsegment, rfl⟩ := opens_of_regionAt h
  cases hopens with
  | lineComment => cases hsegment
  | blockComment => cases hsegment
  | bracket =>
    cases hsegment
    exact congrArg (false :: ·) (outsideQuotes_bracket y)
  | single =>
    cases hsegment
    exact congrArg (false :: ·) (outsideQuotes_quoted (.inl rfl) y)
  | double =>
    cases hsegment
    exact congrArg (false :: ·) (outsideQuotes_quoted (.inr rfl) y)

theorem outsideQuotes_pieces {x : Text} (h : ∀ t isBlock, Piece.comment t isBlock ∉ pieces x) :
    outsideQuotes {} x = (pieces x).flatMap pieceMask := by
  induction hn : x.length using Nat.strong_induction_on generalizing x with
  | _ n ih =>
    cases hregion : regionAt x with
    | none =>
      cases x with
      | nil => rw [pieces_nil]; rfl
      | cons c rest =>
        rw [List.length_cons] at hn
        have hpieces := pieces_of_char hregion
        rw [hpieces] at h
        have hrest := ih rest.length (by omega)
          (fun t isBlock hmem => h t isBlock (List.mem_cons_of_mem _ hmem)) rfl
        rw [outsideQuotes, next_of_char hregion, hrest, hpieces]
        rfl
    | some r =>
      obtain ⟨segment, after⟩ := r
      have hpieces := pieces_of_region hregion
      have hlt := (text_of_regionAt hregion).2
      rw [hpieces] at h
      have hrest := ih after.length (by omega)
        (fun t isBlock hmem => h t isBlock (List.mem_append_right _ hmem)) rfl
      cases segment with
      | code t =>
        obtain ⟨mark, f, mk, y, hopens, -, hsegment, -⟩ := opens_of_regionAt hregion
        cases hopens <;> cases hsegment
      | literal t =>
        rw [outsideQuotes_literal hregion, hrest, hpieces, List.flatMap_append]
        congr 1
        exact (List.append_nil _).symm
      | comment t isBlock =>
        exact absurd (List.mem_append_left _ List.mem_cons_self) (h t isBlock)

theorem outsideQuotes_eq {sql : Text} (h : CommentFree sql) :
    outsideQuotes {} sql = codeMask sql := by
  rw [codeMask_eq]
  exact outsideQuotes_pieces h.notMem

/-- The characters that the scanners look for. -/
def marks : List Char := ['\'', '"', '[', ']', '(', ')']

theorem lower_eq_iff (cm : CaseMap) {mark : Char} (hmark : mark ∈ marks) (c : Char) :
    cm.lower c = mark ↔ c = mark := by
  have hascii : ∀ mark ∈ marks, mark.toNat < 128 ∧ mark.isAlpha = false := by decide
  rcases Nat.lt_or_ge c.toNat 128 with hlt | hge
  · rw [cm.lower_ascii c hlt]
    have hcases : ∀ c : Char, c.toNat < 128 → ∀ mark ∈ marks, c.toLower = mark ↔ c = mark :=
      fun c hc => ascii_cases (P := fun c => ∀ mark ∈ marks, c.toLower = mark ↔ c = mark)
        (by decide +kernel) hc
    exact hcases c hlt mark hmark
  · have hwide := cm.lower_wide c hge
    obtain ⟨hsmall, hnot⟩ := hascii mark hmark
    constructor
    · rintro rfl
      rcases hwide with halpha | hge'
      · exact absurd (hnot.symm.trans halpha) (by simp)
      · omega
    · rintro rfl
      omega

theorem lower_beq (cm : CaseMap) {mark : Char} (hmark : mark ∈ marks) (c : Char) :
    (cm.lower c == mark) = (c == mark) := by
  rw [Bool.eq_iff_iff, beq_iff_eq, beq_iff_eq]
  exact lower_eq_iff cm hmark c

theorem next_lower (cm : CaseMap) (q : QuoteState) (c : Char) : q.next (cm.lower c) = q.next c := by
  have hmark : ∀ mark ∈ marks, (cm.lower c == mark) = (c == mark) :=
    fun mark hmem => lower_beq cm hmem c
  unfold QuoteState.next
  rw [hmark '\'' (by decide), hmark '"' (by decide), hmark '[' (by decide), hmark ']' (by decide)]

theorem outsideQuotes_lower (cm : CaseMap) (q : QuoteState) (sql : Text) :
    outsideQuotes q (cm.toLowerCase sql) = outsideQuotes q sql := by
  induction sql generalizing q with
  | nil => rfl
  | cons c rest ih =>
    rw [CaseMap.toLowerCase_cons, outsideQuotes, outsideQuotes, next_lower, ih]

theorem depthOf_lower (cm : CaseMap) (text : Text) (mask : List Bool) :
    depthOf (cm.toLowerCase text) mask = depthOf text mask := by
  induction text generalizing mask with
  | nil => rfl
  | cons c text ih =>
    have hweight : parenWeight (cm.lower c) = parenWeight c := by
      rw [parenWeight, parenWeight, lower_beq cm (by decide), lower_beq cm (by decide)]
    cases mask with
    | nil => rfl
    | cons b mask => cases b <;> simp only [CaseMap.toLowerCase_cons, depthOf, ih, hweight]

/-! ## Keywords -/

/-- A keyword outside quotes and parentheses, with the flags and the depth at the start. -/
structure FoundAt (keyword : Text) (q : QuoteState) (depth : Int) (before : Option Char)
    (text : Text) (i : Nat) : Prop where
  code : (outsideQuotes q text)[i]? = some true
  level : depth + depthOf (text.take i) (outsideQuotes q text) = 0
  word : isKeywordAt keyword (if i = 0 then before else text[i - 1]?) (text.drop i) = true

section Loop

variable {keyword : Text} {q : QuoteState} {depth : Int} {before : Option Char} {c : Char}
  {rest : Text}

theorem foundAt_succ {i : Nat} :
    FoundAt keyword q depth before (c :: rest) (i + 1) ↔
      FoundAt keyword (q.next c).1 (depth + if (q.next c).2 then parenWeight c else 0) (some c)
        rest i := by
  have hbefore : (if i + 1 = 0 then before else (c :: rest)[i + 1 - 1]?) =
      if i = 0 then some c else rest[i - 1]? := by
    cases i <;> rfl
  have hlevel : depth + depthOf ((c :: rest).take (i + 1)) (outsideQuotes q (c :: rest)) =
      (depth + if (q.next c).2 then parenWeight c else 0) +
        depthOf (rest.take i) (outsideQuotes (q.next c).1 rest) := by
    rw [List.take_succ_cons, outsideQuotes]
    cases (q.next c).2 with
    | false => simp [depthOf]
    | true => simp [depthOf, add_assoc]
  constructor
  · rintro ⟨hcode, hdepth, hword⟩
    exact ⟨hcode, hlevel ▸ hdepth, hbefore ▸ hword⟩
  · rintro ⟨hcode, hdepth, hword⟩
    exact ⟨hcode, hlevel.symm ▸ hdepth, hbefore.symm ▸ hword⟩

theorem length_of_foundAt {text : Text} {i : Nat}
    (h : FoundAt keyword q depth before text i) : keyword.length ≤ text.length := by
  have hword := h.word
  unfold isKeywordAt at hword
  simp only [Bool.and_eq_true, List.isPrefixOf_iff_prefix] at hword
  have hlength := hword.1.1.length_le
  rw [List.length_drop] at hlength
  omega

end Loop

/-- The first place of a predicate, if it has one. -/
def IsFirst (P : Nat → Prop) : Option Nat → Prop
  | some i => P i ∧ ∀ j < i, ¬ P j
  | none => ∀ i, ¬ P i

theorem IsFirst.unique {P : Nat → Prop} {r s : Option Nat} (hr : IsFirst P r) (hs : IsFirst P s) :
    r = s := by
  cases r with
  | none =>
    cases s with
    | none => rfl
    | some j => exact absurd hs.1 (hr j)
  | some i =>
    cases s with
    | none => exact absurd hr.1 (hs i)
    | some j =>
      rcases Nat.lt_trichotomy i j with hlt | heq | hgt
      · exact absurd hr.1 (hs.2 i hlt)
      · rw [heq]
      · exact absurd hs.1 (hr.2 j hgt)

theorem exists_isFirst {P : Nat → Prop} (h : ∃ i, P i) : ∃ i, IsFirst P (some i) := by
  classical
  exact ⟨Nat.find h, Nat.find_spec h, fun j hj => Nat.find_min h hj⟩

theorem IsFirst.later {P Q : Nat → Prop} {r : Option Nat} (h : IsFirst P r) (hzero : ¬ Q 0)
    (hsucc : ∀ i, Q (i + 1) ↔ P i) : IsFirst Q (r.map (· + 1)) := by
  cases r with
  | none =>
    intro i
    cases i with
    | zero => exact hzero
    | succ i => exact fun hq => h i ((hsucc i).mp hq)
  | some i =>
    refine ⟨(hsucc i).mpr h.1, ?_⟩
    intro j hj
    cases j with
    | zero => exact hzero
    | succ j => exact fun hq => h.2 j (Nat.lt_of_succ_lt_succ hj) ((hsucc j).mp hq)

theorem topLevelIndex_first {keyword : Text}
    (hkeyword : ∀ c ∈ keyword.head?, parenWeight c = 0) (hne : keyword ≠ []) (q : QuoteState)
    (depth : Int) (before : Option Char) (text : Text) :
    IsFirst (FoundAt keyword q depth before text) (topLevelIndex keyword q depth before text) := by
  induction text generalizing q depth before with
  | nil =>
    intro i h
    have hcode := h.code
    simp [outsideQuotes] at hcode
  | cons c rest ih =>
    rw [topLevelIndex]
    split
    · rename_i hshort
      intro i h
      have hlength := length_of_foundAt h
      omega
    · split
      · rename_i q' hnext
        refine (ih q' depth (some c)).later ?_ ?_
        · intro h
          have hcode := h.code
          simp [outsideQuotes, hnext] at hcode
        · intro i
          rw [foundAt_succ, hnext]
          simp
      · rename_i q' hnext
        have hsucc : ∀ i, FoundAt keyword q depth before (c :: rest) (i + 1) ↔
            FoundAt keyword q' (depth + parenWeight c) (some c) rest i := by
          intro i
          rw [foundAt_succ, hnext, if_pos rfl]
        have hstart : parenWeight c ≠ 0 → ¬ FoundAt keyword q depth before (c :: rest) 0 := by
          intro hparen h
          have hword := h.word
          unfold isKeywordAt at hword
          simp only [Bool.and_eq_true, List.isPrefixOf_iff_prefix, List.drop_zero] at hword
          obtain ⟨d, keyword, rfl⟩ := List.exists_cons_of_ne_nil hne
          obtain rfl : d = c := (List.cons_prefix_cons.mp hword.1.1).1
          exact hparen (hkeyword d rfl)
        split
        · rename_i hopen
          obtain rfl : c = '(' := by simpa using hopen
          exact (ih q' (depth + 1) (some '(')).later (hstart (by decide)) hsucc
        · split
          · rename_i hclose
            obtain rfl : c = ')' := by simpa using hclose
            exact (ih q' (depth - 1) (some ')')).later (hstart (by decide)) hsucc
          · rename_i hopen hclose
            have hweight : parenWeight c = 0 := by simp [parenWeight, hopen, hclose]
            rw [hweight, add_zero] at hsucc
            split
            · rename_i hfound
              rw [Bool.and_eq_true, beq_iff_eq] at hfound
              refine ⟨⟨?_, ?_, ?_⟩, fun j hj => absurd hj (Nat.not_lt_zero j)⟩
              · simp [outsideQuotes, hnext]
              · rw [List.take_zero, depthOf_nil, hfound.1, add_zero]
              · exact hfound.2
            · rename_i hnot
              refine (ih q' depth (some c)).later ?_ hsucc
              intro h
              have hlevel := h.level
              rw [List.take_zero, depthOf_nil, add_zero] at hlevel
              exact hnot (by simpa [hlevel] using h.word)

/-! ## Parts -/

/-- A text cut at the commas that are code and outside parentheses. -/
def cutParts (depth : Int) (part : Text) : Text → List Bool → List Text
  | [], _ => [part]
  | c :: text, [] => cutParts depth (part ++ [c]) text []
  | c :: text, b :: mask =>
    if b && c == ',' && depth == 0 then part :: cutParts depth [] text mask
    else cutParts (depth + if b then parenWeight c else 0) (part ++ [c]) text mask

/-- Parts without the blanks around them, and without an empty last one. -/
def trimParts : List Text → List Text
  | [] => []
  | [last] => if (trim last).isEmpty then [] else [trim last]
  | part :: parts => trim part :: trimParts parts

theorem cutParts_ne_nil (depth : Int) (part text : Text) (mask : List Bool) :
    cutParts depth part text mask ≠ [] := by
  induction text generalizing depth part mask with
  | nil => simp [cutParts]
  | cons c text ih =>
    cases mask with
    | nil => exact ih _ _ _
    | cons b mask =>
      rw [cutParts]
      split
      · simp
      · exact ih _ _ _

theorem intercalate_cutParts (depth : Int) (part text : Text) (mask : List Bool) :
    [','].intercalate (cutParts depth part text mask) = part ++ text := by
  induction text generalizing depth part mask with
  | nil => simp [cutParts]
  | cons c text ih =>
    cases mask with
    | nil => rw [cutParts, ih]; simp
    | cons b mask =>
      rw [cutParts]
      split
      · rename_i hcomma
        obtain ⟨⟨-, rfl⟩, -⟩ : (b = true ∧ c = ',') ∧ depth = 0 := by simpa using hcomma
        obtain ⟨first, parts, hparts⟩ :=
          List.exists_cons_of_ne_nil (cutParts_ne_nil depth [] text mask)
        have hrest := ih depth [] mask
        rw [hparts] at hrest ⊢
        rw [List.intercalate_cons_cons, hrest]
        simp
      · rw [ih]
        simp

theorem splitLoop_eq (q : QuoteState) (depth : Int) (buffer text : Text) :
    splitLoop q depth buffer text =
      trimParts (cutParts depth buffer text (outsideQuotes q text)) := by
  induction text generalizing q depth buffer with
  | nil => rfl
  | cons c rest ih =>
    rw [splitLoop, outsideQuotes, cutParts]
    split
    · rename_i q' hnext
      rw [hnext, ih]
      simp
    · rename_i q' hnext
      rw [hnext]
      split
      · rename_i hopen
        obtain rfl : c = '(' := by simpa using hopen
        exact ih q' (depth + 1) (buffer ++ ['('])
      · split
        · rename_i hclose
          obtain rfl : c = ')' := by simpa using hclose
          exact ih q' (depth - 1) (buffer ++ [')'])
        · rename_i hopen hclose
          have hweight : parenWeight c = 0 := by simp [parenWeight, hopen, hclose]
          rw [Bool.true_and, if_pos rfl, hweight, add_zero]
          split
          · obtain ⟨first, parts, hparts⟩ := List.exists_cons_of_ne_nil
              (cutParts_ne_nil depth [] rest (outsideQuotes q' rest))
            rw [ih, hparts]
            rfl
          · exact ih q' depth (buffer ++ [c])

/-! ## The scanners and the walk -/

/-- A position that is code, outside parentheses. -/
structure TopLevelAt (sql : Text) (i : Nat) : Prop where
  code : (codeMask sql)[i]? = some true
  level : depthOf (sql.take i) (codeMask sql) = 0

/-- The character before a position, in lower case. -/
def charBefore (cm : CaseMap) (sql : Text) (i : Nat) : Option Char :=
  if i = 0 then none else (cm.toLowerCase sql)[i - 1]?

/-- A keyword at a position that is code, outside parentheses. -/
structure KeywordAt (cm : CaseMap) (sql keyword : Text) (i : Nat) : Prop where
  place : TopLevelAt sql i
  word : isKeywordAt keyword (charBefore cm sql i) ((cm.toLowerCase sql).drop i) = true

/-- `ORDER BY` at a position that is code, outside parentheses, with any blanks between its
words. -/
structure OrderByAt (cm : CaseMap) (sql : Text) (i : Nat) : Prop where
  place : TopLevelAt sql i
  before : isWordBoundary (charBefore cm sql i) = true
  words : ∃ blanks rest, (cm.toLowerCase sql).drop i =
      "order".toList ++ (blanks ++ ("by".toList ++ rest)) ∧
    blanks ≠ [] ∧ (∀ c ∈ blanks, isWhitespace c = true) ∧ isWordBoundary rest.head? = true

/-- The three scanners are outside quotes where the walk reports code, and find and cut there. -/
structure Agrees (cm : CaseMap) (sql : Text) : Prop where
  mask : outsideQuotes {} sql = codeMask sql
  lowerMask : outsideQuotes {} (cm.toLowerCase sql) = codeMask sql
  orderBy : ∀ i : Nat, findTopLevelOrderBy cm sql = i ↔ IsFirst (OrderByAt cm sql) (some i)
  noOrderBy : findTopLevelOrderBy cm sql = -1 ↔ ∀ i, ¬ OrderByAt cm sql i
  keyword : ∀ keyword : Text, keyword ≠ [] → (∀ c ∈ keyword.head?, parenWeight c = 0) →
    (containsTopLevelKeyword cm sql keyword = true ↔ ∃ i, KeywordAt cm sql keyword i)
  parts : splitTopLevelCommaSeparated sql = trimParts (cutParts 0 [] sql (codeMask sql))
  joined : [','].intercalate (cutParts 0 [] sql (codeMask sql)) = sql

/-- The first top-level `ORDER BY`, if there is one, is written with one space. -/
def SingleSpaced (cm : CaseMap) (sql : Text) : Prop :=
  ∀ i, IsFirst (OrderByAt cm sql) (some i) →
    "order by".toList <+: (cm.toLowerCase sql).drop i

section Main

variable {cm : CaseMap} {sql : Text}

theorem foundAt_iff (hfree : CommentFree sql) {keyword : Text} {i : Nat} :
    FoundAt keyword {} 0 none (cm.toLowerCase sql) i ↔ KeywordAt cm sql keyword i := by
  have hmask : outsideQuotes {} (cm.toLowerCase sql) = codeMask sql :=
    (outsideQuotes_lower cm {} sql).trans (outsideQuotes_eq hfree)
  have hlevel : depthOf ((cm.toLowerCase sql).take i) (codeMask sql) =
      depthOf (sql.take i) (codeMask sql) := by
    rw [← depthOf_lower cm (sql.take i), CaseMap.toLowerCase, CaseMap.toLowerCase, List.map_take]
  constructor
  · rintro ⟨hcode, hdepth, hword⟩
    rw [hmask] at hcode
    rw [hmask, hlevel, zero_add] at hdepth
    exact ⟨⟨hcode, hdepth⟩, hword⟩
  · rintro ⟨⟨hcode, hdepth⟩, hword⟩
    refine ⟨?_, ?_, hword⟩
    · rw [hmask]
      exact hcode
    · rw [hmask, hlevel, zero_add]
      exact hdepth

theorem topLevelIndex_keyword (cm : CaseMap) (hfree : CommentFree sql) {keyword : Text}
    (hne : keyword ≠ []) (hkeyword : ∀ c ∈ keyword.head?, parenWeight c = 0) :
    IsFirst (KeywordAt cm sql keyword) (topLevelIndex keyword {} 0 none (cm.toLowerCase sql)) := by
  have hfirst := topLevelIndex_first hkeyword hne {} 0 none (cm.toLowerCase sql)
  have hsame : FoundAt keyword {} 0 none (cm.toLowerCase sql) = KeywordAt cm sql keyword :=
    funext fun i => propext (foundAt_iff hfree)
  rwa [hsame] at hfirst

theorem keywordAt_iff {i : Nat} :
    KeywordAt cm sql "order by".toList i ↔
      OrderByAt cm sql i ∧ "order by".toList <+: (cm.toLowerCase sql).drop i := by
  have hsplit : "order by".toList = "order".toList ++ ([' '] ++ "by".toList) := by decide
  constructor
  · rintro ⟨hplace, hword⟩
    unfold isKeywordAt at hword
    simp only [Bool.and_eq_true, List.isPrefixOf_iff_prefix] at hword
    obtain ⟨⟨hword, hbefore⟩, hafter⟩ := hword
    obtain ⟨rest, hrest⟩ := hword
    refine ⟨⟨hplace, hbefore, [' '], rest, ?_, by simp, by decide, ?_⟩, ⟨rest, hrest⟩⟩
    · rw [← hrest, hsplit]
      simp
    · rw [← hrest, List.drop_left] at hafter
      exact hafter
  · rintro ⟨⟨hplace, hbefore, blanks, rest, hwords, hne, hblanks, hafter⟩, ⟨rest', hprefix⟩⟩
    have hone : blanks = [' '] := by
      rw [hwords, hsplit, List.append_assoc, List.append_cancel_left_eq] at hprefix
      obtain ⟨b, blanks, rfl⟩ := List.exists_cons_of_ne_nil hne
      obtain ⟨rfl, htail⟩ := List.cons.inj hprefix
      cases blanks with
      | nil => rfl
      | cons d blanks =>
        have hd : 'b' = d := (List.cons.inj htail).1
        exact absurd (hblanks d (by simp)) (hd ▸ by decide)
    refine ⟨hplace, ?_⟩
    unfold isKeywordAt
    simp only [Bool.and_eq_true, List.isPrefixOf_iff_prefix]
    refine ⟨⟨⟨rest', hprefix⟩, hbefore⟩, ?_⟩
    have hdrop : (cm.toLowerCase sql).drop i = "order by".toList ++ rest := by
      rw [hwords, hone, hsplit]
      simp
    rw [hdrop, List.drop_left]
    exact hafter

theorem findTopLevelOrderBy_eq {i : Nat} :
    findTopLevelOrderBy cm sql = i ↔
      topLevelIndex "order by".toList {} 0 none (cm.toLowerCase sql) = some i := by
  unfold findTopLevelOrderBy
  cases topLevelIndex "order by".toList {} 0 none (cm.toLowerCase sql) with
  | none => simp
  | some j => simp

theorem findTopLevelOrderBy_none :
    findTopLevelOrderBy cm sql = -1 ↔
      topLevelIndex "order by".toList {} 0 none (cm.toLowerCase sql) = none := by
  unfold findTopLevelOrderBy
  cases topLevelIndex "order by".toList {} 0 none (cm.toLowerCase sql) with
  | none => simp
  | some j => simp

theorem topLevelIndex_orderBy (cm : CaseMap) (hfree : CommentFree sql) :
    IsFirst (KeywordAt cm sql "order by".toList)
      (topLevelIndex "order by".toList {} 0 none (cm.toLowerCase sql)) := by
  have hchars : "order by".toList = ['o', 'r', 'd', 'e', 'r', ' ', 'b', 'y'] := by decide
  have hhead : ∀ c ∈ "order by".toList.head?, parenWeight c = 0 := by
    rw [hchars]
    simp [parenWeight]
  exact topLevelIndex_keyword cm hfree (by simp [hchars]) hhead

theorem orderBy_isFirst (hfree : CommentFree sql) (hsingle : SingleSpaced cm sql) :
    IsFirst (OrderByAt cm sql)
      (topLevelIndex "order by".toList {} 0 none (cm.toLowerCase sql)) := by
  have hkeyword := topLevelIndex_orderBy cm hfree
  by_cases hex : ∃ i, OrderByAt cm sql i
  · obtain ⟨i, hi⟩ := exists_isFirst hex
    have hat : IsFirst (KeywordAt cm sql "order by".toList) (some i) :=
      ⟨keywordAt_iff.mpr ⟨hi.1, hsingle i hi⟩, fun j hj h => hi.2 j hj (keywordAt_iff.mp h).1⟩
    rw [hkeyword.unique hat]
    exact hi
  · have hnone : IsFirst (KeywordAt cm sql "order by".toList) none :=
      fun i h => hex ⟨i, (keywordAt_iff.mp h).1⟩
    rw [hkeyword.unique hnone]
    exact fun i h => hex ⟨i, h⟩

/-- The scanners agree with the walk where the first `ORDER BY` has one space. -/
theorem agrees_iff (hfree : CommentFree sql) : Agrees cm sql ↔ SingleSpaced cm sql := by
  constructor
  · intro h i hfirst
    have hfound := findTopLevelOrderBy_eq.mp ((h.orderBy i).mpr hfirst)
    have hkeyword := topLevelIndex_orderBy cm hfree
    rw [hfound] at hkeyword
    exact (keywordAt_iff.mp hkeyword.1).2
  · intro hsingle
    have hfirst := orderBy_isFirst hfree hsingle
    refine ⟨outsideQuotes_eq hfree, (outsideQuotes_lower cm {} sql).trans (outsideQuotes_eq hfree),
      ?_, ?_, ?_, ?_, intercalate_cutParts 0 [] sql (codeMask sql)⟩
    · intro i
      rw [findTopLevelOrderBy_eq]
      constructor
      · intro hi
        exact hi ▸ hfirst
      · exact hfirst.unique
    · rw [findTopLevelOrderBy_none]
      constructor
      · intro hnone
        rw [hnone] at hfirst
        exact hfirst
      · intro hnone
        exact hfirst.unique hnone
    · intro keyword hne hkeyword
      have hat := topLevelIndex_keyword cm hfree hne hkeyword
      unfold containsTopLevelKeyword
      cases hindex : topLevelIndex keyword {} 0 none (cm.toLowerCase sql) with
      | none =>
        rw [hindex] at hat
        simp only [Option.isSome_none, Bool.false_eq_true, false_iff, not_exists]
        exact hat
      | some i =>
        rw [hindex] at hat
        simp only [Option.isSome_some, true_iff]
        exact ⟨i, hat.1⟩
    · rw [splitTopLevelCommaSeparated, splitLoop_eq, outsideQuotes_eq hfree]

end Main

def bracketedSql : Text := "ORDER BY [a,b], c".toList

theorem agrees_bracketed : CommentFree bracketedSql ∧ Agrees asciiCase bracketedSql := by
  have hfree : CommentFree bracketedSql := by decide +kernel
  have hat : OrderByAt asciiCase bracketedSql 0 :=
    ⟨⟨by decide +kernel, by decide +kernel⟩, by decide +kernel, [' '], " [a,b], c".toList,
      by decide +kernel, by decide, by decide, by decide +kernel⟩
  have hfirst : IsFirst (OrderByAt asciiCase bracketedSql) (some 0) :=
    ⟨hat, fun j hj => absurd hj (Nat.not_lt_zero j)⟩
  refine ⟨hfree, (agrees_iff hfree).mpr ?_⟩
  intro i hi
  obtain rfl : i = 0 := Option.some.inj (hi.unique hfirst)
  exact List.isPrefixOf_iff_prefix.mp (by decide +kernel)

def twoBlanksSql : Text := "SELECT a FROM t ORDER  BY a".toList

theorem orderBy_twoBlanks :
    CommentFree twoBlanksSql ∧ OrderByAt asciiCase twoBlanksSql 16 ∧
      findTopLevelOrderBy asciiCase twoBlanksSql = -1 ∧ ¬ Agrees asciiCase twoBlanksSql := by
  have hfree : CommentFree twoBlanksSql := by decide +kernel
  have hat : OrderByAt asciiCase twoBlanksSql 16 :=
    ⟨⟨by decide +kernel, by decide +kernel⟩, by decide +kernel, [' ', ' '], " a".toList,
      by decide +kernel, by decide, by decide, by decide +kernel⟩
  have hfind : findTopLevelOrderBy asciiCase twoBlanksSql = -1 := by decide +kernel
  exact ⟨hfree, hat, hfind, fun h => h.noOrderBy.mp hfind 16 hat⟩

end PlugAgente.Sql.ClauseScan
