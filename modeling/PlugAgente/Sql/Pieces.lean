import PlugAgente.Sql.TextScanner

/-!
# The pieces of a text

The walk over SQL text reports ranges.  A proof about a caller wants the text
one piece at a time: a character of code, a literal, or a comment.  `pieces` is
the walk read this way, and `pieces_of_region` and `pieces_of_char` unfold it at
the start of a text.

There are four groups.

* The readers of regions.  `Reader` is what the four of them have in common, and
  `Opens` lists the marks that a region begins with.
* Pieces.  `pieces_scanFrom` connects them with the loop of the walk.
* Reading pieces back.  `Scanned` is what the pieces of a text have of
  themselves: each is read back from its own characters and the text after it.
  A part of the pieces of a text is scanned too, so a fragment that is cut out
  between pieces has the pieces it was cut from (`pieces_textOf`).
* Trimming.  `significant_trim` says what `trim` does to the pieces that are
  executed: nothing, except that an open literal at the end loses its blanks.
-/

namespace PlugAgente.Sql

open PlugAgente.Dart

/-! ## The readers of regions -/

section Readers

theorem lineCommentEnd_break {c : Char} (hc : isLineBreak c = true) (rest : Text) :
    lineCommentEnd (c :: rest) = ([], c :: rest) := by
  simp [lineCommentEnd, hc]

theorem lineCommentEnd_other {c : Char} (hc : isLineBreak c = false) (rest : Text) :
    lineCommentEnd (c :: rest) = (c :: (lineCommentEnd rest).1, (lineCommentEnd rest).2) := by
  simp [lineCommentEnd, hc]

theorem blockCommentEnd_close (rest : Text) :
    blockCommentEnd ('*' :: '/' :: rest) = (['*', '/'], rest) := by
  simp [blockCommentEnd]

theorem blockCommentEnd_other {c d : Char} (h : ¬ (c = '*' ∧ d = '/')) (rest : Text) :
    blockCommentEnd (c :: d :: rest) =
      (c :: (blockCommentEnd (d :: rest)).1, (blockCommentEnd (d :: rest)).2) := by
  have hcond : (c == '*' && d == '/') = false := by simpa using h
  rw [blockCommentEnd.eq_def]
  simp only [hcond, Bool.false_eq_true, if_false]

theorem bracketEnd_close (rest : Text) : bracketEnd (']' :: rest) = ([']'], rest) := by
  simp [bracketEnd]

theorem bracketEnd_other {c : Char} (hc : c ≠ ']') (rest : Text) :
    bracketEnd (c :: rest) = (c :: (bracketEnd rest).1, (bracketEnd rest).2) := by
  simp [bracketEnd, hc]

variable {quote : Char}

theorem scanQuotedLiteral_doubled (rest : Text) :
    scanQuotedLiteral quote (quote :: quote :: rest) =
      (quote :: quote :: (scanQuotedLiteral quote rest).1, (scanQuotedLiteral quote rest).2) := by
  rw [scanQuotedLiteral.eq_def]
  simp

theorem scanQuotedLiteral_close {d : Char} (hd : d ≠ quote) (rest : Text) :
    scanQuotedLiteral quote (quote :: d :: rest) = ([quote], d :: rest) := by
  rw [scanQuotedLiteral.eq_def]
  simp [hd]

theorem scanQuotedLiteral_end : scanQuotedLiteral quote [quote] = ([quote], []) := by
  rw [scanQuotedLiteral.eq_def]
  simp

theorem scanQuotedLiteral_other {c : Char} (hc : c ≠ quote) (rest : Text) :
    scanQuotedLiteral quote (c :: rest) =
      (c :: (scanQuotedLiteral quote rest).1, (scanQuotedLiteral quote rest).2) := by
  rw [scanQuotedLiteral.eq_def]
  simp [hc]

end Readers

/-- What a reader of regions has in common with the others: it takes the first
part of a text, at the end of a text it takes all of a part that it would have
taken, and what it takes does not change when the text after it is cut. -/
structure Reader (f : Text → Text × Text) : Prop where
  append : ∀ x, (f x).1 ++ (f x).2 = x
  cut : ∀ a x y, f (a ++ (x ++ y)) = (a, x ++ y) → f (a ++ x) = (a, x)
  begin : ∀ a y, f (a ++ y) = (a ++ y, []) → f a = (a, [])

theorem lineCommentEnd_reader : Reader lineCommentEnd where
  append x := by
    induction x with
    | nil => rfl
    | cons c rest ih =>
      cases hc : isLineBreak c with
      | true => rw [lineCommentEnd_break hc]; rfl
      | false => rw [lineCommentEnd_other hc]; simpa using ih
  cut a x y h := by
    induction a with
    | nil =>
      cases x with
      | nil => rfl
      | cons c x =>
        cases hc : isLineBreak c with
        | true => exact lineCommentEnd_break hc x
        | false => simp [lineCommentEnd_other hc] at h
    | cons c a ih =>
      cases hc : isLineBreak c with
      | true => simp [lineCommentEnd_break hc] at h
      | false =>
        have hrest : lineCommentEnd (a ++ (x ++ y)) = (a, x ++ y) := by
          simpa [lineCommentEnd_other hc, Prod.ext_iff] using h
        rw [List.cons_append, lineCommentEnd_other hc, ih hrest]
  begin a y h := by
    induction a with
    | nil => rfl
    | cons c a ih =>
      cases hc : isLineBreak c with
      | true => simp [lineCommentEnd_break hc] at h
      | false =>
        have hrest : lineCommentEnd (a ++ y) = (a ++ y, []) := by
          simpa [lineCommentEnd_other hc, Prod.ext_iff] using h
        rw [lineCommentEnd_other hc, ih hrest]

theorem bracketEnd_reader : Reader bracketEnd where
  append x := by
    induction x with
    | nil => rfl
    | cons c rest ih =>
      by_cases hc : c = ']'
      · subst hc
        rw [bracketEnd_close]
        rfl
      · rw [bracketEnd_other hc]
        simpa using ih
  cut a x y h := by
    induction a with
    | nil =>
      cases x with
      | nil => rfl
      | cons c x =>
        by_cases hc : c = ']'
        · subst hc
          simp [bracketEnd_close] at h
        · simp [bracketEnd_other hc] at h
    | cons c a ih =>
      by_cases hc : c = ']'
      · subst hc
        have ha : a = [] := by simpa [bracketEnd_close, Prod.ext_iff] using (Prod.ext_iff.mp h).1.symm
        subst ha
        exact bracketEnd_close x
      · have hrest : bracketEnd (a ++ (x ++ y)) = (a, x ++ y) := by
          simpa [bracketEnd_other hc, Prod.ext_iff] using h
        rw [List.cons_append, bracketEnd_other hc, ih hrest]
  begin a y h := by
    induction a with
    | nil => rfl
    | cons c a ih =>
      by_cases hc : c = ']'
      · subst hc
        have ha : a = [] := by
          have hfst := (Prod.ext_iff.mp h).1
          simp [bracketEnd_close] at hfst
          tauto
        subst ha
        exact bracketEnd_close []
      · have hrest : bracketEnd (a ++ y) = (a ++ y, []) := by
          simpa [bracketEnd_other hc, Prod.ext_iff] using h
        rw [bracketEnd_other hc, ih hrest]

theorem blockCommentEnd_append (x : Text) :
    (blockCommentEnd x).1 ++ (blockCommentEnd x).2 = x := by
  match x with
  | [] => rfl
  | [c] => simp [blockCommentEnd]
  | c :: d :: rest =>
    by_cases h : c = '*' ∧ d = '/'
    · obtain ⟨rfl, rfl⟩ := h
      rw [blockCommentEnd_close]
      rfl
    · rw [blockCommentEnd_other h]
      simpa using blockCommentEnd_append (d :: rest)

theorem blockCommentEnd_cut (a x y : Text) (h : blockCommentEnd (a ++ (x ++ y)) = (a, x ++ y)) :
    blockCommentEnd (a ++ x) = (a, x) := by
  match a, x with
  | [], [] => rfl
  | [], [c] =>
    cases y with
    | nil => simp [blockCommentEnd] at h
    | cons d y =>
      by_cases hcd : c = '*' ∧ d = '/'
      · obtain ⟨rfl, rfl⟩ := hcd
        simp [blockCommentEnd_close] at h
      · simp [blockCommentEnd_other hcd] at h
  | [], c :: d :: x =>
    by_cases hcd : c = '*' ∧ d = '/'
    · obtain ⟨rfl, rfl⟩ := hcd
      simp [blockCommentEnd_close] at h
    · simp [blockCommentEnd_other hcd] at h
  | [c], [] => simp [blockCommentEnd]
  | [c], d :: x =>
    by_cases hcd : c = '*' ∧ d = '/'
    · obtain ⟨rfl, rfl⟩ := hcd
      simp [blockCommentEnd_close] at h
    · have hrest : blockCommentEnd ([] ++ (d :: x ++ y)) = ([], d :: x ++ y) := by
        simpa [blockCommentEnd_other hcd, Prod.ext_iff] using h
      have htail := blockCommentEnd_cut [] (d :: x) y hrest
      rw [List.cons_append, List.nil_append, blockCommentEnd_other hcd]
      simpa [Prod.ext_iff] using htail
  | c :: d :: a, x =>
    by_cases hcd : c = '*' ∧ d = '/'
    · obtain ⟨rfl, rfl⟩ := hcd
      have ha : a = [] := by
        have hfst := (Prod.ext_iff.mp h).1
        simpa [blockCommentEnd_close] using hfst.symm
      subst ha
      exact blockCommentEnd_close x
    · have hrest : blockCommentEnd (d :: a ++ (x ++ y)) = (d :: a, x ++ y) := by
        simpa [blockCommentEnd_other hcd, Prod.ext_iff] using h
      have htail := blockCommentEnd_cut (d :: a) x y hrest
      rw [List.cons_append, List.cons_append, blockCommentEnd_other hcd]
      simpa [Prod.ext_iff] using htail
termination_by a.length

theorem blockCommentEnd_begin (a y : Text) (h : blockCommentEnd (a ++ y) = (a ++ y, [])) :
    blockCommentEnd a = (a, []) := by
  match a with
  | [] => rfl
  | [c] => simp [blockCommentEnd]
  | c :: d :: a =>
    by_cases hcd : c = '*' ∧ d = '/'
    · obtain ⟨rfl, rfl⟩ := hcd
      have ha : a = [] := by
        have hsnd := (Prod.ext_iff.mp h).2
        simp only [List.cons_append, blockCommentEnd_close, List.append_eq_nil_iff] at hsnd
        exact hsnd.1
      subst ha
      exact blockCommentEnd_close []
    · have hrest : blockCommentEnd (d :: a ++ y) = (d :: a ++ y, []) := by
        simpa [blockCommentEnd_other hcd, Prod.ext_iff] using h
      have htail := blockCommentEnd_begin (d :: a) y hrest
      rw [blockCommentEnd_other hcd, htail]

theorem blockCommentEnd_reader : Reader blockCommentEnd :=
  ⟨blockCommentEnd_append, blockCommentEnd_cut, blockCommentEnd_begin⟩

section Quoted

variable {quote : Char}

theorem scanQuotedLiteral_append (x : Text) :
    (scanQuotedLiteral quote x).1 ++ (scanQuotedLiteral quote x).2 = x := by
  match x with
  | [] => rfl
  | c :: rest =>
    by_cases hc : quote = c
    · subst hc
      match rest with
      | [] => rw [scanQuotedLiteral_end]; rfl
      | d :: rest =>
        by_cases hd : quote = d
        · subst hd
          rw [scanQuotedLiteral_doubled]
          simpa using scanQuotedLiteral_append rest
        · rw [scanQuotedLiteral_close (Ne.symm hd)]
          rfl
    · rw [scanQuotedLiteral_other (Ne.symm hc)]
      simpa using scanQuotedLiteral_append rest

theorem scanQuotedLiteral_fst_ne_nil (c : Char) (x : Text) :
    (scanQuotedLiteral quote (c :: x)).1 ≠ [] := by
  by_cases hc : quote = c
  · subst hc
    cases x with
    | nil => simp [scanQuotedLiteral_end]
    | cons d x =>
      by_cases hd : quote = d
      · subst hd
        simp [scanQuotedLiteral_doubled]
      · simp [scanQuotedLiteral_close (Ne.symm hd)]
  · simp [scanQuotedLiteral_other (Ne.symm hc)]

theorem scanQuotedLiteral_cut (a x y : Text)
    (h : scanQuotedLiteral quote (a ++ (x ++ y)) = (a, x ++ y)) :
    scanQuotedLiteral quote (a ++ x) = (a, x) := by
  match a with
  | [] =>
    cases x with
    | nil => rfl
    | cons c x =>
      have hfst : (scanQuotedLiteral quote (c :: (x ++ y))).1 = [] := (Prod.ext_iff.mp h).1
      exact absurd hfst (scanQuotedLiteral_fst_ne_nil c (x ++ y))
  | c :: a =>
    by_cases hc : quote = c
    · subst hc
      match a with
      | [] =>
        cases x with
        | nil => exact scanQuotedLiteral_end
        | cons d x =>
          by_cases hd : quote = d
          · subst hd
            simp [scanQuotedLiteral_doubled] at h
          · exact scanQuotedLiteral_close (Ne.symm hd) x
      | d :: a =>
        by_cases hd : quote = d
        · subst hd
          have hrest : scanQuotedLiteral quote (a ++ (x ++ y)) = (a, x ++ y) := by
            simpa [scanQuotedLiteral_doubled, Prod.ext_iff] using h
          have htail := scanQuotedLiteral_cut a x y hrest
          rw [List.cons_append, List.cons_append, scanQuotedLiteral_doubled, htail]
        · simp [scanQuotedLiteral_close (Ne.symm hd)] at h
    · have hrest : scanQuotedLiteral quote (a ++ (x ++ y)) = (a, x ++ y) := by
        simpa [scanQuotedLiteral_other (Ne.symm hc), Prod.ext_iff] using h
      have htail := scanQuotedLiteral_cut a x y hrest
      rw [List.cons_append, scanQuotedLiteral_other (Ne.symm hc), htail]

theorem scanQuotedLiteral_begin (a y : Text)
    (h : scanQuotedLiteral quote (a ++ y) = (a ++ y, [])) :
    scanQuotedLiteral quote a = (a, []) := by
  match a with
  | [] => rfl
  | c :: a =>
    by_cases hc : quote = c
    · subst hc
      match a with
      | [] => exact scanQuotedLiteral_end
      | d :: a =>
        by_cases hd : quote = d
        · subst hd
          have hrest : scanQuotedLiteral quote (a ++ y) = (a ++ y, []) := by
            simpa [scanQuotedLiteral_doubled, Prod.ext_iff] using h
          have htail := scanQuotedLiteral_begin a y hrest
          rw [scanQuotedLiteral_doubled, htail]
        · simp [scanQuotedLiteral_close (Ne.symm hd)] at h
    · have hrest : scanQuotedLiteral quote (a ++ y) = (a ++ y, []) := by
        simpa [scanQuotedLiteral_other (Ne.symm hc), Prod.ext_iff] using h
      have htail := scanQuotedLiteral_begin a y hrest
      rw [scanQuotedLiteral_other (Ne.symm hc), htail]

theorem scanQuotedLiteral_reader (quote : Char) : Reader (scanQuotedLiteral quote) :=
  ⟨scanQuotedLiteral_append, scanQuotedLiteral_cut, scanQuotedLiteral_begin⟩

end Quoted

/-! ## Regions -/

/-- How a region begins: the mark, the reader of what follows it, and the kind of
segment. -/
inductive Opens : Text → (Text → Text × Text) → (Text → Segment) → Prop where
  | lineComment : Opens ['-', '-'] lineCommentEnd (.comment · false)
  | blockComment : Opens ['/', '*'] blockCommentEnd (.comment · true)
  | bracket : Opens ['['] bracketEnd .literal
  | single : Opens ['\''] (scanQuotedLiteral '\'') .literal
  | double : Opens ['"'] (scanQuotedLiteral '"') .literal

section Opens

variable {mark : Text} {f : Text → Text × Text} {mk : Text → Segment}

theorem Opens.reader (h : Opens mark f mk) : Reader f := by
  cases h
  · exact lineCommentEnd_reader
  · exact blockCommentEnd_reader
  · exact bracketEnd_reader
  · exact scanQuotedLiteral_reader _
  · exact scanQuotedLiteral_reader _

theorem Opens.text_mk (h : Opens mark f mk) (t : Text) : (mk t).text = t := by
  cases h <;> rfl

theorem Opens.mark_ne_nil (h : Opens mark f mk) : mark ≠ [] := by
  cases h <;> simp

theorem Opens.not_isWhitespace (h : Opens mark f mk) {c : Char} (hc : c ∈ mark) :
    isWhitespace c = false := by
  have hmarks : c ∈ ['-', '/', '*', '[', '\'', '"'] := by
    cases h <;> simp at hc ⊢ <;> tauto
  have hall : ∀ d ∈ ['-', '/', '*', '[', '\'', '"'], isWhitespace d = false := by decide
  exact hall c hmarks

theorem Opens.regionAt (h : Opens mark f mk) (x : Text) :
    regionAt (mark ++ x) = some (mk (mark ++ (f x).1), (f x).2) := by
  cases h <;> rfl

end Opens

theorem opens_of_regionAt {x after : Text} {segment : Segment}
    (h : regionAt x = some (segment, after)) :
    ∃ mark f mk y, Opens mark f mk ∧ x = mark ++ y ∧ segment = mk (mark ++ (f y).1) ∧
      after = (f y).2 := by
  unfold regionAt at h
  split at h
  · rename_i y
    simp only [Option.some.injEq, Prod.mk.injEq] at h
    exact ⟨_, _, _, y, .lineComment, rfl, h.1.symm, h.2.symm⟩
  · rename_i y
    simp only [Option.some.injEq, Prod.mk.injEq] at h
    exact ⟨_, _, _, y, .blockComment, rfl, h.1.symm, h.2.symm⟩
  · rename_i y
    simp only [Option.some.injEq, Prod.mk.injEq] at h
    exact ⟨_, _, _, y, .bracket, rfl, h.1.symm, h.2.symm⟩
  · rename_i y
    simp only [Option.some.injEq, Prod.mk.injEq] at h
    exact ⟨_, _, _, y, .single, rfl, h.1.symm, h.2.symm⟩
  · rename_i y
    simp only [Option.some.injEq, Prod.mk.injEq] at h
    exact ⟨_, _, _, y, .double, rfl, h.1.symm, h.2.symm⟩
  · simp at h

theorem text_of_regionAt {x after : Text} {segment : Segment}
    (h : regionAt x = some (segment, after)) :
    segment.text ++ after = x ∧ after.length < x.length := by
  obtain ⟨mark, f, mk, y, hopens, rfl, rfl, rfl⟩ := opens_of_regionAt h
  have happend := hopens.reader.append y
  have hmark : 0 < mark.length := List.length_pos_iff.mpr hopens.mark_ne_nil
  constructor
  · rw [hopens.text_mk, List.append_assoc, happend]
  · have hlength := congrArg List.length happend
    simp only [List.length_append] at hlength ⊢
    omega

theorem regionAt_cut {t x y : Text} {segment : Segment} (htext : segment.text = t)
    (h : regionAt (t ++ (x ++ y)) = some (segment, x ++ y)) :
    regionAt (t ++ x) = some (segment, x) := by
  obtain ⟨mark, f, mk, z, hopens, hz, hsegment, hafter⟩ := opens_of_regionAt h
  have ht : t = mark ++ (f z).1 := by rw [← htext, hsegment, hopens.text_mk]
  have hread : f ((f z).1 ++ (x ++ y)) = ((f z).1, x ++ y) := by
    rw [hafter, hopens.reader.append]
  have hcut := hopens.reader.cut _ _ _ hread
  rw [ht, List.append_assoc, hopens.regionAt, hcut, hsegment]

theorem regionAt_begin {t y : Text} {segment : Segment} (htext : segment.text = t ++ y)
    (hy : ∀ c ∈ y, isWhitespace c = true) (h : regionAt (t ++ y) = some (segment, [])) :
    ∃ mk mark f, Opens mark f mk ∧ segment = mk (t ++ y) ∧ regionAt t = some (mk t, []) := by
  obtain ⟨mark, f, mk, z, hopens, hz, hsegment, hafter⟩ := opens_of_regionAt h
  have hread : f z = (z, []) := by
    have happend := hopens.reader.append z
    rw [← hafter, List.append_nil] at happend
    rw [Prod.ext_iff]
    exact ⟨happend, hafter.symm⟩
  -- The mark has no blank, so it stands in `t`.
  obtain ⟨w, rfl⟩ : mark <+: t := by
    rcases List.append_eq_append_iff.mp hz with ⟨w, hw, hyw⟩ | ⟨w, hw, -⟩
    · cases w with
      | nil => exact ⟨[], by simpa using hw⟩
      | cons c w =>
        have hmark : isWhitespace c = false := hopens.not_isWhitespace (by simp [hw])
        have hblank : isWhitespace c = true := hy c (by simp [hyw])
        rw [hmark] at hblank
        exact absurd hblank (by decide)
    · exact ⟨w, hw.symm⟩
  have hz' : z = w ++ y := by simpa using hz.symm
  rw [hz'] at hread
  have hbegin := hopens.reader.begin w y hread
  refine ⟨mk, mark, f, hopens, ?_, ?_⟩
  · rw [hsegment, hz', hread]
    simp
  · rw [hopens.regionAt, hbegin]

/-! ## Pieces -/

/-- A character of code, or a whole literal or comment. -/
inductive Piece where
  | char (c : Char)
  | literal (text : Text)
  | comment (text : Text) (isBlock : Bool)
  deriving Repr, DecidableEq

namespace Piece

def text : Piece → Text
  | .char c => [c]
  | .literal t => t
  | .comment t _ => t

end Piece

/-- The characters of pieces. -/
def textOf (ps : List Piece) : Text := ps.flatMap Piece.text

@[simp] theorem textOf_nil : textOf [] = [] := rfl

@[simp] theorem textOf_cons (p : Piece) (ps : List Piece) :
    textOf (p :: ps) = p.text ++ textOf ps := rfl

@[simp] theorem textOf_append (ps qs : List Piece) : textOf (ps ++ qs) = textOf ps ++ textOf qs :=
  List.flatMap_append

/-- The pieces of a range of the walk. -/
def Segment.pieces : Segment → List Piece
  | .code t => t.map .char
  | .literal t => [.literal t]
  | .comment t isBlock => [.comment t isBlock]

def pieces (sql : Text) : List Piece := (scanSqlText sql).flatMap Segment.pieces

theorem scanRound_decreasing (s : ScanCursor) (out : List Segment) (s' : ScanCursor)
    (h : scanRound s = (out, some s')) : s'.rest.length < s.rest.length := by
  unfold scanRound at h
  split at h
  · simp at h
  · rename_i c rest hrest
    split at h
    · rename_i segment after hregion
      simp only [Prod.mk.injEq, Option.some.injEq] at h
      rw [← h.2, hrest]
      exact (text_of_regionAt hregion).2
    · simp only [Prod.mk.injEq, Option.some.injEq] at h
      rw [← h.2, hrest]
      simp

/-- The walk from a cursor. -/
def scanFrom (s : ScanCursor) : List Segment :=
  Loop.collect (fun s : ScanCursor => s.rest.length) scanRound s

theorem scanFrom_nil (code : Text) : scanFrom ⟨code, []⟩ = flushCode code := by
  rw [scanFrom, Loop.collect_eq scanRound_decreasing]
  rfl

theorem scanFrom_region {code x after : Text} {segment : Segment}
    (h : regionAt x = some (segment, after)) :
    scanFrom ⟨code, x⟩ = flushCode code ++ segment :: scanFrom ⟨[], after⟩ := by
  rw [scanFrom, Loop.collect_eq scanRound_decreasing]
  cases x with
  | nil => simp [regionAt] at h
  | cons c rest => simp [scanRound, h, scanFrom]

theorem scanFrom_char {code rest : Text} {c : Char} (h : regionAt (c :: rest) = none) :
    scanFrom ⟨code, c :: rest⟩ = scanFrom ⟨code ++ [c], rest⟩ := by
  rw [scanFrom, Loop.collect_eq scanRound_decreasing]
  simp [scanRound, h, scanFrom]

@[simp] theorem pieces_nil : pieces [] = [] := by
  show (scanFrom ⟨[], []⟩).flatMap Segment.pieces = []
  rw [scanFrom_nil]
  rfl

theorem pieces_flushCode (code : Text) :
    (flushCode code).flatMap Segment.pieces = code.map .char := by
  unfold flushCode
  cases code <;> simp [Segment.pieces]

theorem pieces_scanFrom (code x : Text) :
    (scanFrom ⟨code, x⟩).flatMap Segment.pieces = code.map .char ++ pieces x := by
  induction hn : x.length using Nat.strong_induction_on generalizing code x with
  | _ n ih =>
    cases hregion : regionAt x with
    | some r =>
      obtain ⟨segment, after⟩ := r
      have hstart : pieces x = segment.pieces ++ (scanFrom ⟨[], after⟩).flatMap Segment.pieces := by
        show (scanFrom ⟨[], x⟩).flatMap Segment.pieces = _
        rw [scanFrom_region hregion]
        simp [flushCode]
      rw [scanFrom_region hregion, List.flatMap_append, pieces_flushCode, hstart,
        List.flatMap_cons]
    | none =>
      cases x with
      | nil => rw [scanFrom_nil, pieces_flushCode, pieces_nil, List.append_nil]
      | cons c rest =>
        have hlt : rest.length < n := by simp [← hn]
        have hstart : pieces (c :: rest) = [c].map .char ++ pieces rest := by
          show (scanFrom ⟨[], c :: rest⟩).flatMap Segment.pieces = _
          rw [scanFrom_char hregion]
          exact ih _ hlt _ _ rfl
        rw [scanFrom_char hregion, ih _ hlt _ _ rfl, hstart]
        simp

theorem pieces_of_region {x after : Text} {segment : Segment}
    (h : regionAt x = some (segment, after)) : pieces x = segment.pieces ++ pieces after := by
  show (scanFrom ⟨[], x⟩).flatMap Segment.pieces = _
  rw [scanFrom_region h]
  rfl

theorem pieces_of_char {c : Char} {rest : Text} (h : regionAt (c :: rest) = none) :
    pieces (c :: rest) = .char c :: pieces rest := by
  show (scanFrom ⟨[], c :: rest⟩).flatMap Segment.pieces = _
  rw [scanFrom_char h, pieces_scanFrom]
  rfl

/-! ## Reading pieces back -/

/-- The range of a piece that is a region. -/
def Piece.segment? : Piece → Option Segment
  | .char _ => none
  | .literal t => some (.literal t)
  | .comment t isBlock => some (.comment t isBlock)

/-- The walk reads the piece back when `after` follows it. -/
def Reads (p : Piece) (after : Text) : Prop :=
  regionAt (p.text ++ after) = p.segment?.map fun segment => (segment, after)

/-- Each piece is read back from its own text and the text of those after it. -/
def Scanned : List Piece → Prop
  | [] => True
  | p :: ps => Reads p (textOf ps) ∧ Scanned ps

theorem pieces_cons {p : Piece} {after : Text} (h : Reads p after) :
    pieces (p.text ++ after) = p :: pieces after := by
  cases p with
  | char c => exact pieces_of_char h
  | literal t => exact pieces_of_region h
  | comment t isBlock => exact pieces_of_region h

theorem pieces_textOf {ps : List Piece} (h : Scanned ps) : pieces (textOf ps) = ps := by
  induction ps with
  | nil => exact pieces_nil
  | cons p ps ih => rw [textOf_cons, pieces_cons h.1, ih h.2]

theorem exists_reads {x : Text} (hx : x ≠ []) :
    ∃ p after, x = p.text ++ after ∧ Reads p after ∧ after.length < x.length := by
  cases hregion : regionAt x with
  | none =>
    obtain ⟨c, rest, rfl⟩ := List.exists_cons_of_ne_nil hx
    exact ⟨.char c, rest, rfl, hregion, by simp⟩
  | some r =>
    obtain ⟨segment, after⟩ := r
    obtain ⟨htext, hlt⟩ := text_of_regionAt hregion
    obtain ⟨mark, f, mk, y, hopens, -, hsegment, -⟩ := opens_of_regionAt hregion
    obtain ⟨p, hp, hptext⟩ : ∃ p : Piece, p.segment? = some segment ∧ p.text = segment.text := by
      rw [hsegment]
      cases hopens
      · exact ⟨.comment _ _, rfl, rfl⟩
      · exact ⟨.comment _ _, rfl, rfl⟩
      · exact ⟨.literal _, rfl, rfl⟩
      · exact ⟨.literal _, rfl, rfl⟩
      · exact ⟨.literal _, rfl, rfl⟩
    refine ⟨p, after, ?_, ?_, hlt⟩
    · rw [hptext, htext]
    · rw [Reads, hptext, htext, hregion, hp]
      rfl

theorem scanned_pieces (x : Text) : Scanned (pieces x) ∧ textOf (pieces x) = x := by
  induction hn : x.length using Nat.strong_induction_on generalizing x with
  | _ n ih =>
    by_cases hx : x = []
    · subst hx
      rw [pieces_nil]
      exact ⟨trivial, rfl⟩
    · obtain ⟨p, after, rfl, hreads, hlt⟩ := exists_reads hx
      obtain ⟨hscanned, htext⟩ := ih _ (hn ▸ hlt) after rfl
      rw [pieces_cons hreads]
      refine ⟨⟨?_, hscanned⟩, ?_⟩
      · rw [htext]
        exact hreads
      · rw [textOf_cons, htext]

@[simp] theorem textOf_pieces (x : Text) : textOf (pieces x) = x := (scanned_pieces x).2

theorem Reads.cut {p : Piece} {x y : Text} (h : Reads p (x ++ y)) : Reads p x := by
  unfold Reads at h ⊢
  cases p with
  | char c =>
    cases hregion : regionAt ((Piece.char c).text ++ x) with
    | none => rfl
    | some r =>
      obtain ⟨mark, f, mk, z, hopens, hz, -, -⟩ := opens_of_regionAt hregion
      rw [← List.append_assoc, hz, List.append_assoc, hopens.regionAt] at h
      simp [Piece.segment?] at h
  | literal t => exact regionAt_cut rfl h
  | comment t isBlock => exact regionAt_cut rfl h

theorem Scanned.reads_of_mem {ps : List Piece} (h : Scanned ps) {p : Piece} (hp : p ∈ ps) :
    ∃ after, Reads p after := by
  induction ps with
  | nil => simp at hp
  | cons q ps ih =>
    rcases List.mem_cons.mp hp with rfl | hp
    · exact ⟨_, h.1⟩
    · exact ih h.2 hp

theorem Scanned.of_append_right {ps qs : List Piece} (h : Scanned (ps ++ qs)) : Scanned qs := by
  induction ps with
  | nil => exact h
  | cons p ps ih => exact ih h.2

theorem Scanned.of_append_left {ps qs : List Piece} (h : Scanned (ps ++ qs)) : Scanned ps := by
  induction ps with
  | nil => trivial
  | cons p ps ih =>
    refine ⟨?_, ih h.2⟩
    have hreads : Reads p (textOf (ps ++ qs)) := h.1
    rw [textOf_append] at hreads
    exact hreads.cut

/-! ## Trimming -/

theorem trimRight_append_of_not {x : Text} {c : Char} (hc : isWhitespace c = false) :
    trimRight (x ++ [c]) = x ++ [c] :=
  List.rdropWhile_concat_neg _ _ _ (by simp [hc])

theorem exists_trimRight (x : Text) :
    ∃ w, x = trimRight x ++ w ∧ ∀ c ∈ w, isWhitespace c = true := by
  refine ⟨x.rtakeWhile isWhitespace, List.rdropWhile_append_rtakeWhile.symm, ?_⟩
  intro c hc
  exact List.mem_rtakeWhile_imp hc

theorem trimRight_append {x y : Text} (hy : ∃ c ∈ y, isWhitespace c = false) :
    trimRight (x ++ y) = x ++ trimRight y := by
  induction y using List.reverseRecOn with
  | nil => simp at hy
  | append_singleton y c ih =>
    cases hc : isWhitespace c with
    | false =>
      rw [← List.append_assoc, trimRight_append_of_not hc, trimRight_append_of_not hc,
        List.append_assoc]
    | true =>
      obtain ⟨d, hd, hblank⟩ := hy
      have hdy : d ∈ y := by
        rcases List.mem_append.mp hd with h | h
        · exact h
        · rw [List.mem_singleton] at h
          subst h
          rw [hc] at hblank
          exact absurd hblank (by decide)
      have hdrop : ∀ z : Text, trimRight (z ++ [c]) = trimRight z := fun z =>
        List.rdropWhile_concat_pos _ _ _ hc
      rw [← List.append_assoc, hdrop, hdrop, ih ⟨d, hdy, hblank⟩]

theorem bracketEnd_closed {x : Text} (h : (bracketEnd x).2 ≠ []) :
    ∃ a, (bracketEnd x).1 = a ++ [']'] := by
  induction x with
  | nil => simp [bracketEnd] at h
  | cons c x ih =>
    by_cases hc : c = ']'
    · subst hc
      exact ⟨[], by rw [bracketEnd_close]; rfl⟩
    · rw [bracketEnd_other hc] at h ⊢
      obtain ⟨a, ha⟩ := ih h
      exact ⟨c :: a, by simp [ha]⟩

theorem scanQuotedLiteral_closed {quote : Char} (x : Text)
    (h : (scanQuotedLiteral quote x).2 ≠ []) :
    ∃ a, (scanQuotedLiteral quote x).1 = a ++ [quote] := by
  match x with
  | [] => simp [scanQuotedLiteral] at h
  | c :: x =>
    by_cases hc : quote = c
    · subst hc
      match x with
      | [] => exact ⟨[], by rw [scanQuotedLiteral_end]; rfl⟩
      | d :: x =>
        by_cases hd : quote = d
        · subst hd
          rw [scanQuotedLiteral_doubled] at h ⊢
          obtain ⟨a, ha⟩ := scanQuotedLiteral_closed x h
          exact ⟨quote :: quote :: a, by simp [ha]⟩
        · exact ⟨[], by rw [scanQuotedLiteral_close (Ne.symm hd)]; rfl⟩
    · rw [scanQuotedLiteral_other (Ne.symm hc)] at h ⊢
      obtain ⟨a, ha⟩ := scanQuotedLiteral_closed x h
      exact ⟨c :: a, by simp [ha]⟩

theorem trimRight_of_reads_literal {t after : Text} (h : Reads (.literal t) after)
    (hafter : after ≠ []) : trimRight t = t := by
  obtain ⟨mark, f, mk, y, hopens, -, hsegment, hy⟩ := opens_of_regionAt h
  have hlast : ∃ a c, t = a ++ [c] ∧ isWhitespace c = false := by
    rw [hy] at hafter
    cases hopens with
    | lineComment => simp at hsegment
    | blockComment => simp at hsegment
    | bracket =>
      obtain ⟨a, ha⟩ := bracketEnd_closed hafter
      simp only [Segment.literal.injEq] at hsegment
      exact ⟨'[' :: a, ']', by rw [hsegment, ha]; rfl, by decide⟩
    | single =>
      obtain ⟨a, ha⟩ := scanQuotedLiteral_closed y hafter
      simp only [Segment.literal.injEq] at hsegment
      exact ⟨'\'' :: a, '\'', by rw [hsegment, ha]; rfl, by decide⟩
    | double =>
      obtain ⟨a, ha⟩ := scanQuotedLiteral_closed y hafter
      simp only [Segment.literal.injEq] at hsegment
      exact ⟨'"' :: a, '"', by rw [hsegment, ha]; rfl, by decide⟩
  obtain ⟨a, c, rfl, hc⟩ := hlast
  exact trimRight_append_of_not hc

namespace Piece

/-- A blank of code. -/
def isBlank : Piece → Bool
  | .char c => isWhitespace c
  | _ => false

/-- Whether a piece is executed: a character of code other than `;` and blanks,
or a literal. -/
def isSignificant : Piece → Bool
  | .char c => !isWhitespace c && c != ';'
  | .literal _ => true
  | .comment _ _ => false

/-- A region without the blanks at its end. -/
def trimEnd : Piece → Piece
  | .char c => .char c
  | .literal t => .literal (trimRight t)
  | .comment t isBlock => .comment (trimRight t) isBlock

end Piece

/-- The executed pieces, in order. -/
def significant (ps : List Piece) : List Piece := ps.filter Piece.isSignificant

@[simp] theorem significant_nil : significant [] = [] := rfl

@[simp] theorem significant_append (ps qs : List Piece) :
    significant (ps ++ qs) = significant ps ++ significant qs := List.filter_append ..

/-- The first characters of the marks. -/
def isMarkStart (c : Char) : Bool :=
  c == '-' || c == '/' || c == '[' || c == '\'' || c == '"'

/-- A region begins with one of five characters, and none of them is a blank. -/
theorem exists_mark_of_reads {p : Piece} {after : Text} {segment : Segment}
    (hp : p.segment? = some segment) (h : Reads p after) :
    ∃ c rest, p.text = c :: rest ∧ isMarkStart c = true ∧ isWhitespace c = false := by
  rw [Reads, hp] at h
  obtain ⟨mark, f, mk, y, hopens, -, hsegment, -⟩ := opens_of_regionAt h
  have htext : p.text = mark ++ (f y).1 := by
    have hsame : p.text = segment.text := by
      cases p <;> simp [Piece.segment?] at hp <;> subst hp <;> rfl
    rw [hsame, hsegment, hopens.text_mk]
  obtain ⟨c, rest, hmark⟩ := List.exists_cons_of_ne_nil hopens.mark_ne_nil
  refine ⟨c, rest ++ (f y).1, by rw [htext, hmark]; rfl, ?_, hopens.not_isWhitespace (by simp [hmark])⟩
  cases hopens <;> simp only [List.cons.injEq] at hmark <;> rw [← hmark.1] <;> decide

theorem trimLeft_textOf {ps : List Piece} (h : Scanned ps) :
    trimLeft (textOf ps) = textOf (ps.dropWhile Piece.isBlank) := by
  induction ps with
  | nil => rfl
  | cons p ps ih =>
    have hregion : ∀ segment, p.segment? = some segment →
        trimLeft (textOf (p :: ps)) = textOf (p :: ps) := by
      intro segment hp
      obtain ⟨c, rest, htext, -, hc⟩ := exists_mark_of_reads hp h.1
      rw [textOf_cons, htext]
      simp [trimLeft, hc]
    cases p with
    | char c =>
      cases hc : isWhitespace c with
      | true =>
        have hblank : (Piece.char c).isBlank = true := hc
        rw [List.dropWhile_cons_of_pos hblank, ← ih h.2]
        simp [trimLeft, Piece.text, hc]
      | false =>
        have hblank : ¬ (Piece.char c).isBlank = true := by simp [Piece.isBlank, hc]
        rw [List.dropWhile_cons_of_neg hblank]
        simp [trimLeft, Piece.text, hc]
    | literal t => exact hregion _ rfl
    | comment t isBlock => exact hregion _ rfl

theorem significant_dropWhile_isBlank (ps : List Piece) :
    significant (ps.dropWhile Piece.isBlank) = significant ps := by
  induction ps with
  | nil => rfl
  | cons p ps ih =>
    by_cases hp : p.isBlank = true
    · have hnot : p.isSignificant = false := by
        cases p <;> simp_all [Piece.isBlank, Piece.isSignificant]
      rw [List.dropWhile_cons_of_pos hp, ih]
      simp [significant, hnot]
    · rw [List.dropWhile_cons_of_neg hp]

theorem Scanned.replace_last {ps : List Piece} {p p' : Piece} {w : Text}
    (h : Scanned (ps ++ [p])) (htext : p.text = p'.text ++ w) (hreads : Reads p' []) :
    Scanned (ps ++ [p']) := by
  induction ps with
  | nil => exact ⟨hreads, trivial⟩
  | cons q ps ih =>
    refine ⟨?_, ih h.2⟩
    have hq : Reads q (textOf (ps ++ [p])) := h.1
    have hsplit : textOf (ps ++ [p]) = textOf (ps ++ [p']) ++ w := by
      simp [textOf_append, htext]
    rw [hsplit] at hq
    exact hq.cut

theorem reads_trimEnd {p : Piece} (h : Reads p []) :
    Reads p.trimEnd [] ∧ ∃ w, p.text = p.trimEnd.text ++ w := by
  have hregion : ∀ segment, p.segment? = some segment → segment.text = p.text →
      (∀ mk : Text → Segment, (∃ mark f, Opens mark f mk) → segment = mk p.text →
        p.trimEnd.segment? = some (mk (trimRight p.text))) →
      p.trimEnd.text = trimRight p.text →
      Reads p.trimEnd [] ∧ ∃ w, p.text = p.trimEnd.text ++ w := by
    intro segment hp hsegment hmk htrim
    obtain ⟨w, hw, hblank⟩ := exists_trimRight p.text
    rw [Reads, hp, List.append_nil] at h
    have hopen := regionAt_begin (t := trimRight p.text) (by rw [hsegment]; exact hw) hblank
      (by rw [← hw]; exact h)
    obtain ⟨mk, mark, f, hopens, hmk', hread⟩ := hopen
    rw [← hw] at hmk'
    refine ⟨?_, w, by rw [htrim]; exact hw⟩
    rw [Reads, htrim, List.append_nil, hread, hmk mk ⟨mark, f, hopens⟩ hmk']
    rfl
  cases p with
  | char c => exact ⟨h, [], by simp [Piece.trimEnd]⟩
  | literal t =>
    refine hregion _ rfl rfl ?_ rfl
    rintro mk ⟨mark, f, hopens⟩ hsegment
    cases hopens <;> simp_all [Piece.trimEnd, Piece.segment?, Piece.text]
  | comment t isBlock =>
    refine hregion _ rfl rfl ?_ rfl
    rintro mk ⟨mark, f, hopens⟩ hsegment
    cases hopens <;> simp_all [Piece.trimEnd, Piece.segment?, Piece.text]

/-- The literals that something follows are closed. -/
theorem map_trimEnd_of_scanned {ps qs : List Piece} (h : Scanned (ps ++ qs))
    (hqs : textOf qs ≠ []) : (significant ps).map Piece.trimEnd = significant ps := by
  induction ps with
  | nil => rfl
  | cons p ps ih =>
    have hhead : Reads p (textOf (ps ++ qs)) := h.1
    have htail := ih h.2
    rw [significant, List.filter_cons]
    split
    · rename_i hsig
      rw [List.map_cons]
      congr 1
      cases p with
      | char c => rfl
      | literal t =>
        have htrim := trimRight_of_reads_literal hhead (by simp [textOf_append, hqs])
        simp [Piece.trimEnd, htrim]
      | comment t isBlock => simp [Piece.isSignificant] at hsig
    · exact htail

theorem Scanned.reads_last {ps : List Piece} {p : Piece} (h : Scanned (ps ++ [p])) :
    Reads p [] := h.of_append_right.1

theorem exists_not_blank {p : Piece} {after : Text} (h : Reads p after) (hp : p.isBlank = false) :
    ∃ c ∈ p.text, isWhitespace c = false := by
  have hregion : ∀ segment, p.segment? = some segment → ∃ c ∈ p.text, isWhitespace c = false := by
    intro segment hsegment
    obtain ⟨c, rest, htext, -, hc⟩ := exists_mark_of_reads hsegment h
    exact ⟨c, by simp [htext], hc⟩
  cases p with
  | char c => exact ⟨c, by simp [Piece.text], hp⟩
  | literal t => exact hregion _ rfl
  | comment t isBlock => exact hregion _ rfl

theorem trimRight_textOf_concat {ps : List Piece} {p : Piece} {after : Text} (h : Reads p after)
    (hp : p.isBlank = false) : trimRight (textOf (ps ++ [p])) = textOf (ps ++ [p.trimEnd]) := by
  have hlast : trimRight p.text = p.trimEnd.text := by
    cases p with
    | char c => exact trimRight_append_of_not (x := []) hp
    | literal t => rfl
    | comment t isBlock => rfl
  simp only [textOf_append, textOf_cons, textOf_nil, List.append_nil]
  rw [trimRight_append (exists_not_blank h hp), hlast]

theorem trimRight_textOf_blank {ps : List Piece} {c : Char} (hc : isWhitespace c = true) :
    trimRight (textOf (ps ++ [Piece.char c])) = trimRight (textOf ps) := by
  rw [textOf_append]
  exact List.rdropWhile_concat_pos _ _ _ hc

/-- The end of a scanned text is trimmed by pieces: blanks of code go, and of a
region the blanks at its end. -/
theorem significant_trimRight {ps : List Piece} (h : Scanned ps) :
    significant (pieces (trimRight (textOf ps))) = (significant ps).map Piece.trimEnd := by
  induction ps using List.reverseRecOn with
  | nil => simp [trimRight]
  | append_singleton ps p ih =>
    have hlast := h.reads_last
    cases hp : p.isBlank with
    | true =>
      cases p with
      | char c =>
        have hc : isWhitespace c = true := hp
        rw [trimRight_textOf_blank hc, ih h.of_append_left]
        simp [significant, Piece.isSignificant, hc]
      | literal t => simp [Piece.isBlank] at hp
      | comment t isBlock => simp [Piece.isBlank] at hp
    | false =>
      obtain ⟨hreads, w, hw⟩ := reads_trimEnd hlast
      have hne : textOf [p] ≠ [] := by
        obtain ⟨c, hc, -⟩ := exists_not_blank hlast hp
        intro hnil
        simp only [textOf_cons, textOf_nil, List.append_nil] at hnil
        rw [hnil] at hc
        simp at hc
      have hsig : p.trimEnd.isSignificant = p.isSignificant := by cases p <;> rfl
      rw [trimRight_textOf_concat hlast hp, pieces_textOf (h.replace_last hw hreads),
        significant_append, significant_append, List.map_append, map_trimEnd_of_scanned h hne]
      congr 1
      simp only [significant, List.filter_cons, List.filter_nil, hsig]
      split <;> rfl

theorem significant_trim {ps : List Piece} (h : Scanned ps) :
    significant (pieces (trim (textOf ps))) = (significant ps).map Piece.trimEnd := by
  have hsuffix : Scanned (ps.dropWhile Piece.isBlank) := by
    rw [← List.takeWhile_append_dropWhile (p := Piece.isBlank) (l := ps)] at h
    exact h.of_append_right
  rw [trim, trimLeft_textOf h, significant_trimRight hsuffix, significant_dropWhile_isBlank]

end PlugAgente.Sql
