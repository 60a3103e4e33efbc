import PlugAgente.Dart.JsonText
import PlugAgente.Dart.LinkedMap
import PlugAgente.Dart.Text

/-!
# Rows of a query response

`QueryNormalizerService` rewrites the rows of a response: every column name into lower case
letters, digits and underscores, and every cell into a plain value.  A row that needs no
rewriting is kept as the same object, and so is a list of such rows; the first change copies
what came before it.  Here nothing stands for the same object.

* `rewriteLoop_eq`: the lazy rewriting of a row is `rewriteRow`, which rewrites every entry.
* `reuseUnchangedRows_eq`: the lazy rewriting of a list of rows rewrites every row.
* `normalizedKey_of_wireSafe`: a wire-safe name is its own normalised name.
* `rewriteRow_eq_self_iff`, `entries_rewriteRow_iff`: what rewriting keeps.
-/

namespace PlugAgente.Response

open PlugAgente.Dart

/-! ## Cells -/

/-- A cell: numbers are in `N`, instants in `D` and what is none of the known types in `O`. -/
inductive Cell (N D O : Type) where
  | null
  | text (t : Text)
  | num (n : N)
  | bool (b : Bool)
  | lazyString (value : Text)
  | dateTime (t : D)
  | bytes (bytes : List UInt8)
  | other (o : O)
  deriving DecidableEq

variable {N D O : Type}

/-- `normalizeOdbcWireCell`; `toIso8601String` is the one of `DateTime`. -/
def normalizeOdbcWireCell (toIso8601String : D → Text) : Cell N D O → Cell N D O
  | .lazyString value => .text value
  | .dateTime t => .text (toIso8601String t)
  | .bytes bytes => .text (base64Encode bytes).toList
  | value => value

def odbcWireCellNeedsMaterialization : Cell N D O → Bool
  | .lazyString _ | .dateTime _ | .bytes _ => true
  | _ => false

def normalizeValue (toIso8601String : D → Text) (value : Cell N D O) : Cell N D O :=
  match normalizeOdbcWireCell toIso8601String value with
  | .text t => .text (trim t)
  | materialized => materialized

def valueLooksWireSafe : Cell N D O → Bool
  | .null | .num _ | .bool _ => true
  | .text t => t == trim t
  | _ => false

theorem normalizeOdbcWireCell_eq_self_iff {toIso8601String : D → Text} {value : Cell N D O} :
    normalizeOdbcWireCell toIso8601String value = value ↔
      odbcWireCellNeedsMaterialization value = false := by
  cases value <;> simp [normalizeOdbcWireCell, odbcWireCellNeedsMaterialization]

theorem normalizeValue_of_wireSafe {toIso8601String : D → Text} {value : Cell N D O}
    (h : valueLooksWireSafe value = true) : normalizeValue toIso8601String value = value := by
  cases value with
  | text t => exact congrArg Cell.text (beq_iff_eq.mp h).symm
  | null => rfl
  | num n => rfl
  | bool b => rfl
  | lazyString value => cases h
  | dateTime t => cases h
  | bytes bytes => cases h
  | other o => cases h

/-! ## Column names -/

/-- The characters `[a-z0-9_]`. -/
def isColumnChar (c : Char) : Bool := ('a' ≤ c && c ≤ 'z') || c.isDigit || c == '_'

def sanitizeQuery (query : Text) : Text :=
  if query.isEmpty then [] else trim (collapseWhitespace query)

/-- `replaceAllMapped(RegExp(r'\s+'), (match) => '_')`: each run of blanks is collapsed to one
and that one replaced. -/
def underscores (t : Text) : Text :=
  (collapseWhitespace t).map fun c => if isRegExpWhitespace c then '_' else c

def normalizeColumnName (cm : CaseMap) (columnName : Text) : Text :=
  if columnName.isEmpty then "column".toList
  else (cm.toLowerCase (underscores columnName)).filter isColumnChar

/-- The name that the cache keeps for a column. -/
def normalizedKey (cm : CaseMap) (key : Text) : Text := normalizeColumnName cm (sanitizeQuery key)

/-- `_wireSafeColumnKey.hasMatch`. -/
def isWireSafeColumnKey : Text → Bool
  | [] => false
  | c :: rest => ('a' ≤ c && c ≤ 'z') && rest.all isColumnChar

theorem toNat_of_isColumnChar {c : Char} (h : isColumnChar c = true) :
    c.toNat < 128 ∧ isWhitespace c = false ∧ c.toLower = c := by
  have hascii : c.toNat < 128 := by
    have hcases : ('a' ≤ c ∧ c ≤ 'z') ∨ c.isDigit = true ∨ c = '_' := by
      simpa [isColumnChar, or_assoc] using h
    rcases hcases with ⟨_, hz⟩ | hdigit | rfl
    · exact Nat.lt_of_le_of_lt (Char.le_def.mp hz) (by decide)
    · exact Nat.lt_of_le_of_lt (Char.isDigit_iff_toNat.mp hdigit).2 (by decide)
    · decide
  refine ⟨hascii, ?_⟩
  revert h
  exact ascii_cases (P := fun c => isColumnChar c = true → isWhitespace c = false ∧ c.toLower = c)
    (by decide) hascii

theorem trim_of_forall {t : Text} (h : ∀ c ∈ t, isWhitespace c = false) : trim t = t :=
  Trimmed.trim_eq ⟨fun c hc => h c (List.mem_of_mem_head? hc),
    fun c hc => h c (List.mem_of_mem_getLast? hc)⟩

theorem normalizedKey_of_wireSafe {cm : CaseMap} {key : Text}
    (h : isWireSafeColumnKey key = true) : normalizedKey cm key = key := by
  cases key with
  | nil => cases h
  | cons c rest =>
    have hchars : ∀ d ∈ c :: rest, isColumnChar d = true := by
      unfold isWireSafeColumnKey at h
      rw [Bool.and_eq_true, List.all_eq_true] at h
      intro d hd
      rcases List.mem_cons.mp hd with rfl | hd
      · unfold isColumnChar
        rw [h.1]
        rfl
      · exact h.2 d hd
    have hblank : ∀ d ∈ c :: rest, isWhitespace d = false :=
      fun d hd => (toNat_of_isColumnChar (hchars d hd)).2.1
    have hcollapse : collapseWhitespace (c :: rest) = c :: rest :=
      collapse_eq_self fun d hd => isRegExpWhitespace_of_not (hblank d hd)
    have hunderscores : underscores (c :: rest) = c :: rest := by
      unfold underscores
      rw [hcollapse]
      refine (List.map_congr_left fun d hd => ?_).trans (List.map_id _)
      rw [isRegExpWhitespace_of_not (hblank d hd), if_neg Bool.false_ne_true]
      rfl
    have hlower : cm.toLowerCase (c :: rest) = c :: rest := by
      refine (List.map_congr_left fun d hd => ?_).trans (List.map_id _)
      obtain ⟨hascii, _, hsame⟩ := toNat_of_isColumnChar (hchars d hd)
      exact (cm.lower_ascii d hascii).trans hsame
    unfold normalizedKey sanitizeQuery
    rw [List.isEmpty_cons, if_neg Bool.false_ne_true, hcollapse, trim_of_forall hblank]
    unfold normalizeColumnName
    rw [List.isEmpty_cons, if_neg Bool.false_ne_true, hunderscores, hlower]
    exact List.filter_eq_self.mpr hchars

/-! ## Rows -/

/-- A row, by its column names. -/
abbrev Row (N D O : Type) := LinkedMap Text (Cell N D O)

/-- The normalised names that are known already. -/
structure KeyCache (cm : CaseMap) where
  entries : List (Text × Text)
  correct : ∀ key name, entries.lookup key = some name → name = normalizedKey cm key

namespace KeyCache

variable {cm : CaseMap}

def empty : KeyCache cm := ⟨[], nofun⟩

/-- `putIfAbsent` of a column name. -/
def putIfAbsent (cache : KeyCache cm) (key : Text) : Text × KeyCache cm :=
  match cache.entries.lookup key with
  | some name => (name, cache)
  | none => (normalizedKey cm key, ⟨(key, normalizedKey cm key) :: cache.entries, by
      intro k name h
      rw [List.lookup_cons] at h
      split at h
      · rename_i hkey
        rw [beq_iff_eq.mp hkey]
        exact (Option.some.inj h).symm
      · exact cache.correct k name h⟩)

theorem putIfAbsent_fst (cache : KeyCache cm) (key : Text) :
    (cache.putIfAbsent key).1 = normalizedKey cm key := by
  unfold putIfAbsent
  split
  · rename_i name h
    exact cache.correct key name h
  · rfl

end KeyCache

section Rewriting

variable (f : Text × Cell N D O → Text × Cell N D O)

/-- The row whose entries are all rewritten; a later entry overwrites one of its name. -/
def rewriteRow (row : Row N D O) : Row N D O := .ofEntries (row.entries.map f)

/-- The entries are their own rewriting. -/
def Unchanged (row : Row N D O) : Prop := ∀ entry ∈ row.entries, f entry = entry

variable {f}

theorem rewriteRow_of_unchanged {row : Row N D O} (h : Unchanged f row) :
    rewriteRow f row = row := by
  have hmap : row.entries.map f = row.entries := (List.map_congr_left h).trans (List.map_id _)
  unfold rewriteRow
  rw [hmap, LinkedMap.ofEntries_entries]

theorem length_rewriteRow_iff (row : Row N D O) :
    (rewriteRow f row).entries.length = row.entries.length ↔
      ((row.entries.map f).map Prod.fst).Nodup := by
  have hlength : (row.entries.map f).length = row.entries.length := List.length_map _
  rw [← hlength]
  exact LinkedMap.length_ofEntries_iff

theorem entries_rewriteRow_iff (row : Row N D O) :
    (rewriteRow f row).entries = row.entries.map f ↔
      ((row.entries.map f).map Prod.fst).Nodup := by
  constructor
  · intro h
    rw [← length_rewriteRow_iff, h, List.length_map]
  · exact LinkedMap.entries_ofEntries

theorem rewriteRow_eq_self_iff (row : Row N D O) : rewriteRow f row = row ↔ Unchanged f row := by
  constructor
  · intro h
    have hlength : (rewriteRow f row).entries.length = row.entries.length := by rw [h]
    have hmap := (entries_rewriteRow_iff row).mpr ((length_rewriteRow_iff row).mp hlength)
    rw [h] at hmap
    exact List.map_inj_left.mp (hmap.symm.trans (List.map_id _).symm)
  · exact rewriteRow_of_unchanged

/-- Every row is its own rewriting. -/
def RowsUnchanged (f : Text × Cell N D O → Text × Cell N D O) (rows : List (Row N D O)) : Prop :=
  ∀ row ∈ rows, Unchanged f row

theorem map_rewriteRow_of_unchanged {rows : List (Row N D O)} (h : RowsUnchanged f rows) :
    rows.map (rewriteRow f) = rows :=
  (List.map_congr_left fun row hrow => rewriteRow_of_unchanged (h row hrow)).trans (List.map_id _)

theorem map_rewriteRow_eq_self_iff (rows : List (Row N D O)) :
    rows.map (rewriteRow f) = rows ↔ RowsUnchanged f rows := by
  constructor
  · intro h row hrow
    rw [← rewriteRow_eq_self_iff]
    exact List.map_inj_left.mp (h.trans (List.map_id _).symm) row hrow
  · exact map_rewriteRow_of_unchanged

variable [DecidableEq N] [DecidableEq D] [DecidableEq O]

instance (row : Row N D O) : Decidable (Unchanged f row) :=
  inferInstanceAs (Decidable (∀ entry ∈ row.entries, f entry = entry))

/-- The loop over the entries of a row: `rewritten` is nothing as long as each entry is its own
rewriting, and `seen` counts the entries. -/
def rewriteLoop (f : Text × Cell N D O → Text × Cell N D O) (row : Row N D O) :
    List (Text × Cell N D O) → Option (Row N D O) → Nat → Option (Row N D O)
  | [], rewritten, _ => rewritten
  | entry :: rest, rewritten, seen =>
    if rewritten.isNone && f entry == entry then rewriteLoop f row rest none (seen + 1)
    else
      let prefixed := rewritten.getD (row.take seen)
      rewriteLoop f row rest (some (prefixed.put (f entry).1 (f entry).2)) (seen + 1)

theorem rewriteLoop_some (row acc : Row N D O) (rest : List (Text × Cell N D O)) (seen : Nat) :
    rewriteLoop f row rest (some acc) seen = some (acc.putAll (rest.map f)) := by
  induction rest generalizing acc seen with
  | nil => rfl
  | cons entry rest ih => exact ih (acc.put (f entry).1 (f entry).2) (seen + 1)

theorem rewriteLoop_none {row : Row N D O} {before rest : List (Text × Cell N D O)}
    (hrow : row.entries = before ++ rest) (hbefore : ∀ entry ∈ before, f entry = entry) :
    rewriteLoop f row rest none before.length =
      if ∀ entry ∈ rest, f entry = entry then none else some (rewriteRow f row) := by
  induction rest generalizing before with
  | nil => exact (if_pos fun entry h => absurd h List.not_mem_nil).symm
  | cons entry rest ih =>
    unfold rewriteLoop
    by_cases hsame : f entry = entry
    · have hsplit : row.entries = (before ++ [entry]) ++ rest := by simpa using hrow
      have hkept : ∀ e ∈ before ++ [entry], f e = e := by
        intro e he
        rcases List.mem_append.mp he with he | he
        · exact hbefore e he
        · rwa [List.mem_singleton.mp he]
      have hrest := ih hsplit hkept
      rw [List.length_append, List.length_singleton] at hrest
      simp only [Option.isNone_none, hsame, BEq.rfl, Bool.and_self, if_true, List.forall_mem_cons,
        true_and]
      exact hrest
    · have hchanged : (f entry == entry) = false := beq_eq_false_iff_ne.mpr hsame
      have hnot : ¬ ∀ e ∈ entry :: rest, f e = e := fun h => hsame (h entry List.mem_cons_self)
      rw [if_neg hnot, hchanged]
      show rewriteLoop f row rest
        (some ((row.take before.length).put (f entry).1 (f entry).2)) _ = _
      rw [rewriteLoop_some]
      have htake : row.take before.length = LinkedMap.ofEntries (before.map f) := by
        have hmap : before.map f = before :=
          (List.map_congr_left hbefore).trans (List.map_id _)
        apply LinkedMap.ext
        show row.entries.take before.length = _
        rw [hmap, hrow, List.take_left, LinkedMap.entries_ofEntries]
        have hnodup := row.nodup
        rw [hrow, List.map_append] at hnodup
        exact (List.nodup_append.mp hnodup).1
      rw [htake]
      unfold rewriteRow
      rw [hrow, List.map_append, List.map_cons]
      show _ = some (LinkedMap.empty.putAll (before.map f ++ f entry :: rest.map f))
      rw [LinkedMap.putAll_append]
      rfl

theorem rewriteLoop_eq (row : Row N D O) :
    rewriteLoop f row row.entries none 0 =
      if Unchanged f row then none else some (rewriteRow f row) := by
  have hnone : ∀ entry ∈ ([] : List (Text × Cell N D O)), f entry = entry :=
    fun _ h => absurd h List.not_mem_nil
  exact rewriteLoop_none rfl hnone

end Rewriting

/-! ## Lists of rows -/

section Reusing

variable [DecidableEq N] [DecidableEq D] [DecidableEq O]

variable {σ : Type} (rewrite : Row N D O → σ → Option (Row N D O) × σ)

/-- The loop of `_reuseUnchangedRows` over the rows from an index on. -/
def reuseLoop (rows : List (Row N D O)) :
    List (Row N D O) → Nat → Option (List (Row N D O)) → σ → Option (List (Row N D O)) × σ
  | [], _, rewritten, s => (rewritten, s)
  | row :: rest, index, rewritten, s =>
    match rewritten, rewrite row s with
    | none, (none, s) => reuseLoop rows rest (index + 1) none s
    | none, (some next, s) => reuseLoop rows rest (index + 1) (some (rows.set index next)) s
    | some list, (next, s) =>
      reuseLoop rows rest (index + 1) (some (list.set index (next.getD row))) s

def reuseUnchangedRows (rows : List (Row N D O)) (s : σ) : Option (List (Row N D O)) × σ :=
  reuseLoop rewrite rows rows 0 none s

variable {rewrite} {f : Text × Cell N D O → Text × Cell N D O}

instance (rows : List (Row N D O)) : Decidable (RowsUnchanged f rows) :=
  inferInstanceAs (Decidable (∀ row ∈ rows, Unchanged f row))

/-- The rewriting of a row does not depend on what is passed along. -/
def Rewrites (rewrite : Row N D O → σ → Option (Row N D O) × σ)
    (f : Text × Cell N D O → Text × Cell N D O) : Prop :=
  ∀ row s, (rewrite row s).1 = if Unchanged f row then none else some (rewriteRow f row)

theorem reuseLoop_some (h : Rewrites rewrite f) (rows : List (Row N D O))
    (before rest : List (Row N D O)) (s : σ) :
    (reuseLoop rewrite rows rest before.length (some (before ++ rest)) s).1 =
      some (before ++ rest.map (rewriteRow f)) := by
  induction rest generalizing before s with
  | nil => rfl
  | cons row rest ih =>
    unfold reuseLoop
    have hrow := h row s
    rcases hresult : rewrite row s with ⟨next, s'⟩
    rw [hresult] at hrow
    have hnext : next.getD row = rewriteRow f row := by
      dsimp only at hrow
      rw [hrow]
      split
      · rename_i hsame
        exact (rewriteRow_of_unchanged hsame).symm
      · rfl
    have hset : (before ++ row :: rest).set before.length (rewriteRow f row) =
        (before ++ [rewriteRow f row]) ++ rest := by simp
    have hrest := ih (before ++ [rewriteRow f row]) s'
    rw [List.length_append, List.length_singleton] at hrest
    dsimp only
    rw [hnext, hset, hrest]
    simp

theorem reuseLoop_none (h : Rewrites rewrite f) {rows before rest : List (Row N D O)}
    (hrows : rows = before ++ rest) (hbefore : RowsUnchanged f before) (s : σ) :
    (reuseLoop rewrite rows rest before.length none s).1 =
      if RowsUnchanged f rest then none else some (rows.map (rewriteRow f)) := by
  induction rest generalizing before s with
  | nil => exact (if_pos fun _ h => absurd h List.not_mem_nil).symm
  | cons row rest ih =>
    unfold reuseLoop
    have hrow := h row s
    rcases hresult : rewrite row s with ⟨next, s'⟩
    rw [hresult] at hrow
    dsimp only at hrow
    by_cases hsame : Unchanged f row
    · rw [if_pos hsame] at hrow
      have hsplit : rows = (before ++ [row]) ++ rest := by simpa using hrows
      have hkept : RowsUnchanged f (before ++ [row]) := by
        intro r hr
        rcases List.mem_append.mp hr with hr | hr
        · exact hbefore r hr
        · rwa [List.mem_singleton.mp hr]
      have hrest := ih hsplit hkept s'
      rw [List.length_append, List.length_singleton] at hrest
      have hiff : RowsUnchanged f (row :: rest) ↔ RowsUnchanged f rest :=
        ⟨fun hall r hr => hall r (List.mem_cons_of_mem _ hr), fun hall r hr => by
          rcases List.mem_cons.mp hr with rfl | hr
          · exact hsame
          · exact hall r hr⟩
      rw [hrow]
      dsimp only
      rw [hrest]
      simp only [hiff]
    · rw [if_neg hsame] at hrow
      have hnot : ¬ RowsUnchanged f (row :: rest) := fun hall => hsame (hall row List.mem_cons_self)
      have hmap : before.map (rewriteRow f) = before :=
        (List.map_congr_left fun r hr => rewriteRow_of_unchanged (hbefore r hr)).trans
          (List.map_id _)
      have hset : rows.set before.length (rewriteRow f row) =
          (before ++ [rewriteRow f row]) ++ rest := by
        rw [hrows]
        simp
      have hrest := reuseLoop_some h rows (before ++ [rewriteRow f row]) rest s'
      rw [List.length_append, List.length_singleton] at hrest
      rw [if_neg hnot, hrow]
      dsimp only
      rw [hset, hrest, hrows, List.map_append, List.map_cons, hmap]
      simp

/-- The lazy rewriting of a list of rows rewrites every row, and keeps exactly the lists that
need none. -/
theorem reuseUnchangedRows_eq (h : Rewrites rewrite f) (rows : List (Row N D O)) (s : σ) :
    (reuseUnchangedRows rewrite rows s).1 =
      if RowsUnchanged f rows then none else some (rows.map (rewriteRow f)) := by
  have hnone : RowsUnchanged f ([] : List (Row N D O)) := fun _ h => absurd h List.not_mem_nil
  exact reuseLoop_none h rfl hnone s

end Reusing

/-! ## The two rewritings -/

section Rewritings

variable (cm : CaseMap) (toIso8601String : D → Text)

/-- What becomes of an entry when its name and its value are normalised. -/
def normalizeEntry (entry : Text × Cell N D O) : Text × Cell N D O :=
  (normalizedKey cm entry.1, normalizeValue toIso8601String entry.2)

/-- What becomes of an entry when its value is materialised. -/
def materializeEntry (entry : Text × Cell N D O) : Text × Cell N D O :=
  (entry.1, normalizeOdbcWireCell toIso8601String entry.2)

variable [DecidableEq N] [DecidableEq D] [DecidableEq O]

/-- The loop of `_normalizeRow`. -/
def normalizeRowLoop (row : Row N D O) :
    List (Text × Cell N D O) → Option (Row N D O) → Nat → KeyCache cm →
      Option (Row N D O) × KeyCache cm
  | [], rewritten, _, cache => (rewritten, cache)
  | entry :: rest, rewritten, seen, cache =>
    let (key, cache) := cache.putIfAbsent entry.1
    let value := normalizeValue toIso8601String entry.2
    if rewritten.isNone && (key == entry.1 && value == entry.2) then
      normalizeRowLoop row rest none (seen + 1) cache
    else
      let prefixed := rewritten.getD (row.take seen)
      normalizeRowLoop row rest (some (prefixed.put key value)) (seen + 1) cache

def normalizeRow (row : Row N D O) (keyCache : KeyCache cm) : Option (Row N D O) × KeyCache cm :=
  normalizeRowLoop cm toIso8601String row row.entries none 0 keyCache

def normalizeRows (rows : List (Row N D O)) (keyCache : KeyCache cm) :
    Option (List (Row N D O)) × KeyCache cm :=
  reuseUnchangedRows (normalizeRow cm toIso8601String) rows keyCache

def materializeRow (row : Row N D O) : Option (Row N D O) :=
  rewriteLoop (materializeEntry toIso8601String) row row.entries none 0

def materializeRows (rows : List (Row N D O)) : Option (List (Row N D O)) × Unit :=
  reuseUnchangedRows (fun row s => (materializeRow toIso8601String row, s)) rows ()

variable {cm toIso8601String}

theorem normalizeRowLoop_fst (row : Row N D O) (rest : List (Text × Cell N D O))
    (rewritten : Option (Row N D O)) (seen : Nat) (cache : KeyCache cm) :
    (normalizeRowLoop cm toIso8601String row rest rewritten seen cache).1 =
      rewriteLoop (normalizeEntry cm toIso8601String) row rest rewritten seen := by
  induction rest generalizing rewritten seen cache with
  | nil => rfl
  | cons entry rest ih =>
    have hkey := cache.putIfAbsent_fst entry.1
    unfold normalizeRowLoop rewriteLoop
    rcases hput : cache.putIfAbsent entry.1 with ⟨key, cache'⟩
    rw [hput] at hkey
    obtain rfl : key = normalizedKey cm entry.1 := hkey
    have hsame : (normalizeEntry cm toIso8601String entry == entry) =
        (normalizedKey cm entry.1 == entry.1 &&
          normalizeValue toIso8601String entry.2 == entry.2) := rfl
    dsimp only
    rw [hsame]
    split
    · exact ih none (seen + 1) cache'
    · exact ih _ (seen + 1) cache'

theorem rewrites_normalizeRow :
    Rewrites (normalizeRow (N := N) (O := O) cm toIso8601String)
      (normalizeEntry cm toIso8601String) := by
  intro row cache
  unfold normalizeRow
  rw [normalizeRowLoop_fst, rewriteLoop_eq]

theorem rewrites_materializeRow :
    Rewrites (fun (row : Row N D O) (s : Unit) => (materializeRow toIso8601String row, s))
      (materializeEntry toIso8601String) :=
  fun row _ => rewriteLoop_eq row

end Rewritings

end PlugAgente.Response
