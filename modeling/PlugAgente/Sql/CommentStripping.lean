import PlugAgente.Sql.TextRanges

/-!
# Stripping the comments of a text

`stripTopLevelSqlComments` writes a blank for each comment.  So no two characters come to stand side
by side that did not: what follows a character of code, or a closed literal, is either what followed
it before or a blank.  Each piece is read back from the stripped text (`Scanned.uncommented`), and
what the walk finds there are the pieces of the text with blanks for the comments.
-/

namespace PlugAgente.Sql

open PlugAgente.Dart

/-! ## The stripped text -/

/-- What is left of a piece when the comments are stripped. -/
def Piece.stripped : Piece → Text
  | .char c => [c]
  | .literal t => t
  | .comment _ _ => [' ']

/-- What is left of pieces when the comments are stripped. -/
def strippedOf (ps : List Piece) : Text := ps.flatMap Piece.stripped

@[simp] theorem strippedOf_cons (p : Piece) (ps : List Piece) :
    strippedOf (p :: ps) = p.stripped ++ strippedOf ps := rfl

@[simp] theorem strippedOf_chars (t : Text) : strippedOf (t.map .char) = t := by
  induction t with
  | nil => rfl
  | cons c t ih =>
    rw [List.map_cons, strippedOf_cons, ih]
    rfl

theorem strippedOf_segment (segment : Segment) :
    strippedOf segment.pieces =
      match segment with
      | .code t => t
      | .literal t => t
      | .comment _ _ => [' '] := by
  cases segment with
  | code t => exact strippedOf_chars t
  | literal t => exact List.append_nil t
  | comment t isBlock => rfl

theorem stripTopLevelSqlComments_eq (sql : Text) :
    stripTopLevelSqlComments sql = strippedOf (pieces sql) := by
  unfold stripTopLevelSqlComments pieces strippedOf
  rw [List.flatMap_assoc]
  apply List.flatMap_congr
  intro segment _
  exact (strippedOf_segment segment).symm

/-! ## What may follow a piece -/

/-- The text after a piece still begins as it did, or begins with a blank now. -/
inductive Follows : Text → Text → Prop where
  | nil : Follows [] []
  | same (c : Char) (x x' : Text) : Follows (c :: x) (c :: x')
  | blank (c : Char) (x x' : Text) : Follows (c :: x) (' ' :: x')

theorem bracketEnd_follow {a x : Text} (hx : x ≠ []) (h : bracketEnd (a ++ x) = (a, x)) (y : Text) :
    bracketEnd (a ++ y) = (a, y) := by
  induction a with
  | nil =>
    obtain ⟨c, x, rfl⟩ := List.exists_cons_of_ne_nil hx
    by_cases hc : c = ']'
    · subst hc
      simp [bracketEnd_close] at h
    · simp [bracketEnd_other hc] at h
  | cons c a ih =>
    by_cases hc : c = ']'
    · subst hc
      obtain rfl : a = [] := by
        have hfst := (Prod.ext_iff.mp h).1
        simpa [bracketEnd_close] using hfst.symm
      exact bracketEnd_close y
    · have hrest : bracketEnd (a ++ x) = (a, x) := by
        simpa [bracketEnd_other hc, Prod.ext_iff] using h
      rw [List.cons_append, bracketEnd_other hc, ih hrest]

theorem scanQuotedLiteral_follow {quote : Char} (a x y : Text) (hx : x ≠ [])
    (hy : y.head? ≠ some quote) (h : scanQuotedLiteral quote (a ++ x) = (a, x)) :
    scanQuotedLiteral quote (a ++ y) = (a, y) := by
  match a with
  | [] =>
    obtain ⟨c, x, rfl⟩ := List.exists_cons_of_ne_nil hx
    have hfst : (scanQuotedLiteral quote (c :: x)).1 = [] := (Prod.ext_iff.mp h).1
    exact absurd hfst (scanQuotedLiteral_fst_ne_nil c x)
  | [c] =>
    by_cases hc : quote = c
    · subst hc
      cases y with
      | nil => exact scanQuotedLiteral_end
      | cons d y => exact scanQuotedLiteral_close (fun he => hy (by rw [he]; rfl)) y
    · obtain ⟨d, x, rfl⟩ := List.exists_cons_of_ne_nil hx
      have hfst : (scanQuotedLiteral quote (d :: x)).1 = [] := by
        simpa [scanQuotedLiteral_other (Ne.symm hc)] using (Prod.ext_iff.mp h).1
      exact absurd hfst (scanQuotedLiteral_fst_ne_nil d x)
  | c :: d :: a =>
    by_cases hc : quote = c
    · subst hc
      by_cases hd : quote = d
      · subst hd
        have hrest : scanQuotedLiteral quote (a ++ x) = (a, x) := by
          simpa [scanQuotedLiteral_doubled, Prod.ext_iff] using h
        have htail := scanQuotedLiteral_follow a x y hx hy hrest
        rw [List.cons_append, List.cons_append, scanQuotedLiteral_doubled, htail]
      · simp [scanQuotedLiteral_close (Ne.symm hd)] at h
    · have hrest : scanQuotedLiteral quote (d :: a ++ x) = (d :: a, x) := by
        simpa [scanQuotedLiteral_other (Ne.symm hc), Prod.ext_iff] using h
      have htail := scanQuotedLiteral_follow (d :: a) x y hx hy hrest
      rw [List.cons_append, scanQuotedLiteral_other (Ne.symm hc), htail]
termination_by a.length

theorem scanQuotedLiteral_snd_head {quote : Char} (x : Text) :
    (scanQuotedLiteral quote x).2.head? ≠ some quote := by
  cases x with
  | nil => simp [scanQuotedLiteral]
  | cons c x =>
    by_cases hc : quote = c
    · subst hc
      cases x with
      | nil => simp [scanQuotedLiteral_end]
      | cons d x =>
        by_cases hd : quote = d
        · subst hd
          rw [scanQuotedLiteral_doubled]
          exact scanQuotedLiteral_snd_head x
        · rw [scanQuotedLiteral_close (Ne.symm hd)]
          simpa using Ne.symm hd
    · rw [scanQuotedLiteral_other (Ne.symm hc)]
      exact scanQuotedLiteral_snd_head x
termination_by x.length

theorem Follows.head {x y : Text} (h : Follows x y) {quote : Char} (hquote : quote ≠ ' ')
    (hx : x.head? ≠ some quote) : y.head? ≠ some quote := by
  cases h with
  | nil => exact hx
  | same c x x' => exact hx
  | blank c x x' => simpa using Ne.symm hquote

theorem scanQuotedLiteral_follows {quote : Char} (hquote : quote ≠ ' ') {a x y : Text}
    (hfollows : Follows x y) (h : scanQuotedLiteral quote (a ++ x) = (a, x)) :
    scanQuotedLiteral quote (a ++ y) = (a, y) := by
  have hhead : y.head? ≠ some quote := by
    apply hfollows.head hquote
    have hsnd := @scanQuotedLiteral_snd_head quote (a ++ x)
    rwa [h] at hsnd
  cases hfollows with
  | nil => exact h
  | same c x x' => exact scanQuotedLiteral_follow _ _ _ (by simp) hhead h
  | blank c x x' => exact scanQuotedLiteral_follow _ _ _ (by simp) hhead h

theorem bracketEnd_follows {a x y : Text} (hfollows : Follows x y)
    (h : bracketEnd (a ++ x) = (a, x)) : bracketEnd (a ++ y) = (a, y) := by
  cases hfollows with
  | nil => exact h
  | same c x x' => exact bracketEnd_follow (by simp) h _
  | blank c x x' => exact bracketEnd_follow (by simp) h _

theorem Reads.literal_follows {t x y : Text} (h : Reads (.literal t) x) (hfollows : Follows x y) :
    Reads (.literal t) y := by
  obtain ⟨mark, f, mk, z, hopens, hz, hsegment, hafter⟩ := opens_of_regionAt h
  have ht : t = mark ++ (f z).1 := by
    rw [← hopens.text_mk (mark ++ (f z).1), ← hsegment]
    rfl
  have hread : f ((f z).1 ++ x) = ((f z).1, x) := by
    rw [hafter, hopens.reader.append]
  have hread' : f ((f z).1 ++ y) = ((f z).1, y) := by
    cases hopens with
    | lineComment => cases hsegment
    | blockComment => cases hsegment
    | bracket => exact bracketEnd_follows hfollows hread
    | single => exact scanQuotedLiteral_follows (by decide) hfollows hread
    | double => exact scanQuotedLiteral_follows (by decide) hfollows hread
  show regionAt (t ++ y) = some (.literal t, y)
  rw [ht, List.append_assoc, hopens.regionAt, hread', ← ht, hsegment, ← ht]

theorem Reads.char_follows {c : Char} {x y : Text} (h : Reads (.char c) x)
    (hfollows : Follows x y) : Reads (.char c) y := by
  change regionAt (c :: x) = none at h
  show regionAt (c :: y) = none
  cases hregion : regionAt (c :: y) with
  | none => rfl
  | some r =>
    obtain ⟨mark, f, mk, z, hopens, hz, -, -⟩ := opens_of_regionAt hregion
    -- The mark would have begun a region before, too.
    cases hopens with
    | lineComment =>
      obtain ⟨rfl, rfl⟩ := List.cons.inj hz
      cases hfollows with
      | same d x x' => simp [regionAt] at h
    | blockComment =>
      obtain ⟨rfl, rfl⟩ := List.cons.inj hz
      cases hfollows with
      | same d x x' => simp [regionAt] at h
    | bracket =>
      obtain ⟨rfl, -⟩ := List.cons.inj hz
      simp [regionAt] at h
    | single =>
      obtain ⟨rfl, -⟩ := List.cons.inj hz
      simp [regionAt] at h
    | double =>
      obtain ⟨rfl, -⟩ := List.cons.inj hz
      simp [regionAt] at h

/-! ## The pieces of a stripped text -/

/-- The piece that is left when the comments are stripped. -/
def Piece.uncommented : Piece → Piece
  | .comment _ _ => .char ' '
  | p => p

theorem Piece.text_uncommented (p : Piece) : p.uncommented.text = p.stripped := by
  cases p <;> rfl

theorem textOf_uncommented (ps : List Piece) :
    textOf (ps.map Piece.uncommented) = strippedOf ps := by
  induction ps with
  | nil => rfl
  | cons p ps ih => rw [List.map_cons, textOf_cons, strippedOf_cons, ih, p.text_uncommented]

theorem text_ne_nil_of_reads {p : Piece} {after : Text} (h : Reads p after) : p.text ≠ [] := by
  intro hnil
  have hlt : ∀ segment, regionAt (p.text ++ after) ≠ some (segment, after) := by
    intro segment hregion
    have := (text_of_regionAt hregion).2
    rw [hnil, List.nil_append] at this
    omega
  cases p with
  | char c => cases hnil
  | literal t => exact hlt _ h
  | comment t isBlock => exact hlt _ h

theorem Scanned.follows {ps : List Piece} (h : Scanned ps) :
    Follows (textOf ps) (strippedOf ps) := by
  cases ps with
  | nil => exact .nil
  | cons p ps =>
    obtain ⟨c, t, htext⟩ := List.exists_cons_of_ne_nil (text_ne_nil_of_reads h.1)
    rw [textOf_cons, strippedOf_cons, htext]
    cases p with
    | char d =>
      obtain ⟨rfl, -⟩ := List.cons.inj htext
      exact .same _ _ _
    | literal t' =>
      rw [show (Piece.literal t').stripped = c :: t from htext]
      exact .same _ _ _
    | comment t' isBlock => exact .blank _ _ _

theorem Scanned.uncommented {ps : List Piece} (h : Scanned ps) :
    Scanned (ps.map Piece.uncommented) := by
  induction ps with
  | nil => trivial
  | cons p ps ih =>
    refine ⟨?_, ih h.2⟩
    rw [textOf_uncommented]
    have hreads : Reads p (textOf ps) := h.1
    cases p with
    | char c => exact hreads.char_follows h.2.follows
    | literal t => exact hreads.literal_follows h.2.follows
    | comment t isBlock => rfl

theorem pieces_stripped (sql : Text) :
    pieces (stripTopLevelSqlComments sql) = (pieces sql).map Piece.uncommented := by
  rw [stripTopLevelSqlComments_eq, ← textOf_uncommented]
  exact pieces_textOf (scanned_pieces sql).1.uncommented

/-! ## The ranges of a stripped text -/

/-- What `stripTopLevelSqlComments` writes for a range. -/
def RangeKind.written : RangeKind → Text → Text
  | .comment _, _ => [' ']
  | _, t => t

def RangeKind.literalTexts : RangeKind → Text → List Text
  | .literal, t => [t]
  | _, _ => []

/-- The literals and quoted identifiers of a text, in order. -/
def literalTexts (sql : Text) : List Text :=
  (scanSqlRanges sql).flatMap fun r => r.kind.literalTexts (r.substring sql)

theorem stripTopLevelSqlComments_ranges (sql : Text) :
    stripTopLevelSqlComments sql =
      (scanSqlRanges sql).flatMap fun r => r.kind.written (r.substring sql) := by
  rw [flatMap_scanSqlRanges]
  unfold stripTopLevelSqlComments
  apply List.flatMap_congr
  intro segment _
  cases segment <;> rfl

def Piece.literalTexts : Piece → List Text
  | .literal t => [t]
  | _ => []

theorem literalTexts_eq (sql : Text) : literalTexts sql = (pieces sql).flatMap Piece.literalTexts := by
  rw [literalTexts, flatMap_scanSqlRanges, pieces, List.flatMap_assoc]
  apply List.flatMap_congr
  intro segment _
  cases segment with
  | code t =>
    show [] = (t.map Piece.char).flatMap Piece.literalTexts
    rw [List.flatMap_map]
    exact (List.flatMap_eq_nil_iff.mpr fun _ _ => rfl).symm
  | literal t => rfl
  | comment t isBlock => rfl

theorem comment_mem_pieces {sql : Text} {r : SqlRange} (hr : r ∈ scanSqlRanges sql) {isBlock : Bool}
    (hkind : r.kind = .comment isBlock) : ∃ t, Piece.comment t isBlock ∈ pieces sql := by
  have hkinds : RangeKind.comment isBlock ∈
      (scanSqlText sql).flatMap fun segment => [segment.kind] := by
    rw [← flatMap_scanSqlRanges fun kind _ => [kind]]
    exact List.mem_flatMap.mpr ⟨r, hr, by simp [hkind]⟩
  obtain ⟨segment, hsegment, hmem⟩ := List.mem_flatMap.mp hkinds
  cases segment with
  | code t => simp [Segment.kind] at hmem
  | literal t => simp [Segment.kind] at hmem
  | comment t block =>
    obtain rfl : isBlock = block := by simpa [Segment.kind] using hmem
    exact ⟨t, List.mem_flatMap.mpr ⟨_, hsegment, by simp [Segment.pieces]⟩⟩

structure StripsComments (sql : Text) : Prop where
  tiles : Tiles 0 sql.length (scanSqlRanges sql)
  written : stripTopLevelSqlComments sql =
    (scanSqlRanges sql).flatMap fun r => r.kind.written (r.substring sql)
  no_comment : ∀ r ∈ scanSqlRanges (stripTopLevelSqlComments sql), ∀ isBlock,
    r.kind ≠ .comment isBlock
  literals : literalTexts (stripTopLevelSqlComments sql) = literalTexts sql
  idempotent : stripTopLevelSqlComments (stripTopLevelSqlComments sql) =
    stripTopLevelSqlComments sql

theorem strips_comments (sql : Text) : StripsComments sql where
  tiles := tiles sql
  written := stripTopLevelSqlComments_ranges sql
  no_comment r hr isBlock hkind := by
    obtain ⟨t, hmem⟩ := comment_mem_pieces hr hkind
    rw [pieces_stripped] at hmem
    obtain ⟨p, -, hp⟩ := List.mem_map.mp hmem
    cases p <;> cases hp
  literals := by
    rw [literalTexts_eq, literalTexts_eq, pieces_stripped, List.flatMap_map]
    apply List.flatMap_congr
    intro p _
    cases p <;> rfl
  idempotent := by
    rw [stripTopLevelSqlComments_eq (stripTopLevelSqlComments sql), pieces_stripped,
      stripTopLevelSqlComments_eq sql, strippedOf, List.flatMap_map]
    apply List.flatMap_congr
    intro p _
    cases p <;> rfl

example : scanSqlRanges "a--b\n/*c".toList =
    [⟨0, 1, .code⟩, ⟨1, 4, .comment false⟩, ⟨4, 5, .code⟩, ⟨5, 8, .comment true⟩] := by
  decide

end PlugAgente.Sql
