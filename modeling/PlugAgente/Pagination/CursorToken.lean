import PlugAgente.Pagination.Cursor
import PlugAgente.Dart.Double
import PlugAgente.Wire.Json

/-!
# Cursor tokens

A next cursor is computed from the request and the last row of its page, written as JSON and
read back with strict checks when the client sends it again.  The bound check of the request,
the arithmetic of the cursor and the checks of the reader are compared here on 64-bit
integers.

`NoOverflow` holds for every request within bounds.  `no_overflow_and_exact_iff` says for
which requests and pages the cursor comes back: the last page and offset of the bounds have a
next cursor that the same bounds refuse, a key may have no JSON form, and a cursor with keys
needs the fingerprint of its query.

The text of the tokens is a parameter, `TokenCodec`; a thrown `FormatException` is its message.
-/

namespace PlugAgente.Pagination.Token

open PlugAgente.Dart PlugAgente.Wire

variable {T τ : Type}

/-! ## Cursors and requests -/

/-- The value of a cell, with its instants in `T`. -/
inductive CellValue (T : Type) where
  | null
  | text (s : String)
  | bool (b : Bool)
  | int (n : Int64)
  | double (d : Double)
  | dateTime (t : T)
  deriving DecidableEq

structure QueryPaginationCursor (T : Type) where
  page : Int64
  pageSize : Int64
  offset : Option Int64 := none
  queryHash : Option String := none
  orderBy : List QueryPaginationOrderTerm := []
  lastRowValues : List (CellValue T) := []
  deriving DecidableEq

/-- `QueryPaginationRequest`, as far as the next cursor and the bounds read it. -/
structure QueryPaginationRequest where
  page : Int64
  pageSize : Int64
  queryHash : Option String := none
  orderBy : List QueryPaginationOrderTerm := []
  givenOffset : Option Int64 := none

def maxNativeInteger : Int64 := 0x7fffffffffffffff

/-- `QueryPaginationRequest.hasValidBounds`. -/
def hasValidBounds (page pageSize : Int64) (offset : Option Int64) : Bool :=
  if page < 1 || maxNativeInteger ≤ page || pageSize < 1 || maxNativeInteger ≤ pageSize then false
  else
    let maxOffset := maxNativeInteger - pageSize - 1
    match offset with
    | some offset => 0 ≤ offset && offset ≤ maxOffset
    | none => page - 1 ≤ maxOffset / pageSize

namespace QueryPaginationRequest

def offset (r : QueryPaginationRequest) : Int64 :=
  r.givenOffset.getD ((r.page - 1) * r.pageSize)

def fetchSizeWithLookAhead (r : QueryPaginationRequest) : Int64 := r.pageSize + 1

end QueryPaginationRequest

/-! ## Writing -/

/-- A value in `jsonEncode`; nothing when it throws. -/
def CellValue.toJson : CellValue T → Option (Json Double)
  | .null => some .null
  | .text s => some (.text s)
  | .bool b => some (.bool b)
  | .int n => some (.int n.toInt)
  | .double (.finite q) => some (.other (.finite q))
  | .double _ => none
  | .dateTime _ => none

/-- `QueryPaginationOrderTerm.toJson`. -/
def orderTermToJson (term : QueryPaginationOrderTerm) : Json Double :=
  .map [("expression", .text term.expression), ("lookup_key", .text term.lookupKey),
    ("descending", .bool term.descending)]

namespace QueryPaginationCursor

def isStableCursor (c : QueryPaginationCursor T) : Bool :=
  c.queryHash.isSome && !c.orderBy.isEmpty && c.lastRowValues.length == c.orderBy.length

/-- The entries of a token whose key values are written. -/
def entries (c : QueryPaginationCursor T) (lastRowValues : List (Json Double)) : Entries Double :=
  [("v", Json.int (if c.isStableCursor then 2 else 1))] ++
    optional "offset" (c.offset.map fun n => .int n.toInt) ++
    [("page", Json.int c.page.toInt), ("page_size", Json.int c.pageSize.toInt)] ++
    optional "query_hash" (c.queryHash.map .text) ++
    optional "order_by"
      (if c.orderBy.isEmpty then none else some (.list (c.orderBy.map orderTermToJson))) ++
    optional "last_row_values"
      (if c.lastRowValues.isEmpty then none else some (.list lastRowValues))

/-- The object that `toToken` encodes; nothing when `jsonEncode` throws. -/
def toJson (c : QueryPaginationCursor T) : Option (Json Double) :=
  (c.lastRowValues.mapM CellValue.toJson).map fun lastRowValues => .map (c.entries lastRowValues)

end QueryPaginationCursor

/-- The text of a token: JSON, UTF-8 and base64url without padding.  What is read of the token
of a cursor is the object that was written; tokens that are none are read as an error. -/
structure TokenCodec (T τ : Type) where
  encode : Json Double → τ
  decode : τ → Except String (Json Double)
  decode_encode : ∀ (c : QueryPaginationCursor T) (json : Json Double), c.toJson = some json →
    decode (encode json) = .ok json

/-- `toToken`; nothing when it throws. -/
def QueryPaginationCursor.toToken (codec : TokenCodec T τ) (c : QueryPaginationCursor T) :
    Option τ :=
  c.toJson.map codec.encode

/-! ## Reading -/

/-- `json[key]`: a key that is not there reads as null. -/
def valueAt (json : Entries Double) (key : String) : Json Double := (json.lookup key).getD .null

/-- A term of `order_by`. -/
def readOrderTerm : Json Double → Except String QueryPaginationOrderTerm
  | .map term =>
    match valueAt term "expression", valueAt term "lookup_key", valueAt term "descending" with
    | .text expression, .text lookupKey, .null => named expression lookupKey false
    | .text expression, .text lookupKey, .bool descending => named expression lookupKey descending
    | _, _, _ => .error "Invalid cursor ordering"
  | _ => .error "Invalid cursor ordering"
where
  named (expression lookupKey : String) (descending : Bool) :
      Except String QueryPaginationOrderTerm :=
    if expression.isEmpty || lookupKey.isEmpty then .error "Invalid cursor ordering"
    else .ok ⟨expression, lookupKey, descending⟩

/-- A value of `last_row_values`. -/
def readKeyValue : Json Double → Except String (CellValue T)
  | .text s => .ok (.text s)
  | .bool b => .ok (.bool b)
  | .int n => .ok (.int (.ofInt n))
  | .other (.finite q) => .ok (.double (.finite q))
  | _ => .error "Invalid cursor key value"

/-- The terms and values of a cursor of version 2. -/
def readStable (json : Entries Double) :
    Except String (List QueryPaginationOrderTerm × List (CellValue T)) :=
  match valueAt json "query_hash", valueAt json "order_by", valueAt json "last_row_values" with
  | .text queryHash, .list terms, .list values =>
    if queryHash.isEmpty || terms.isEmpty || values.length != terms.length then
      .error "Invalid stable cursor"
    else do
      let orderBy ← terms.mapM readOrderTerm
      let lastRowValues ← values.mapM readKeyValue
      return (orderBy, lastRowValues)
  | _, _, _ => .error "Invalid stable cursor"

/-- An optional field: null, or a value of its type. -/
def optionalInt : Json Double → Option (Option Int64)
  | .null => some none
  | .int n => some (some (.ofInt n))
  | _ => none

def optionalText : Json Double → Option (Option String)
  | .null => some none
  | .text t => some (some t)
  | _ => none

/-- `json['v'] ?? 1`, if it is a known version. -/
def readVersion (json : Entries Double) : Option Int :=
  match valueAt json "v" with
  | .null => some 1
  | .int n => if n = 1 ∨ n = 2 then some n else none
  | _ => none

/-- `fromToken`, from the decoded object on. -/
def fromObject (json : Entries Double) : Except String (QueryPaginationCursor T) :=
  match readVersion json with
  | none => .error "Unsupported cursor version"
  | some version =>
    match valueAt json "page", valueAt json "page_size", optionalInt (valueAt json "offset"),
      optionalText (valueAt json "query_hash") with
    | .int page, .int pageSize, some offset, some queryHash =>
      if !hasValidBounds (.ofInt page) (.ofInt pageSize) offset then
        .error "Invalid cursor pagination bounds"
      else if version = 2 then
        match readStable json with
        | .error message => .error message
        | .ok (orderBy, lastRowValues) =>
          .ok ⟨.ofInt page, .ofInt pageSize, offset, queryHash, orderBy, lastRowValues⟩
      else .ok ⟨.ofInt page, .ofInt pageSize, offset, queryHash, [], []⟩
    | _, _, _, _ => .error "Invalid cursor field types"

def fromToken (codec : TokenCodec T τ) (token : τ) : Except String (QueryPaginationCursor T) :=
  match codec.decode token with
  | .error message => .error message
  | .ok (.map json) => fromObject json
  | .ok _ => .error "Invalid cursor object"

/-! ## The next cursor -/

/-- A row of a page, by its columns. -/
abbrev Row (T : Type) := List (String × CellValue T)

/-- The cursor of `_buildOffsetCursorToken`. -/
def offsetCursor (pagination : QueryPaginationRequest) (returnedRows : Nat) :
    QueryPaginationCursor T where
  page := pagination.page + 1
  pageSize := pagination.pageSize
  offset := some (pagination.offset + .ofNat returnedRows)

/-- The loop of `buildNextCursorToken` over the terms: nothing when a key is missing or null. -/
def lastRowValues (lastRow : Row T) : List QueryPaginationOrderTerm → Option (List (CellValue T))
  | [] => some []
  | term :: rest =>
    match lastRow.lookup term.lookupKey with
    | none => none
    | some .null => none
    | some value => (lastRowValues lastRow rest).map (value :: ·)

/-- The cursor that `buildNextCursorToken` encodes. -/
def nextCursor (pagination : QueryPaginationRequest) (pageData : List (Row T)) :
    Option (QueryPaginationCursor T) :=
  match pageData.getLast? with
  | none => none
  | some lastRow =>
    if pagination.orderBy.isEmpty then none
    else
      match lastRowValues lastRow pagination.orderBy with
      | none => some (offsetCursor pagination pageData.length)
      | some values => some
          { page := pagination.page + 1
            pageSize := pagination.pageSize
            queryHash := pagination.queryHash
            orderBy := pagination.orderBy
            lastRowValues := values }

/-- `buildNextCursorToken`: null, a token, or nothing when the encoding throws. -/
def buildNextCursorToken (codec : TokenCodec T τ) (pagination : QueryPaginationRequest)
    (pageData : List (Row T)) : Option (Option τ) :=
  match nextCursor pagination pageData with
  | none => some none
  | some cursor => (cursor.toToken codec).map some

/-! ## Bounds -/

theorem toInt_add_of_range {x y : Int64} (hlow : -2 ^ 63 ≤ x.toInt + y.toInt)
    (hhigh : x.toInt + y.toInt < 2 ^ 63) : (x + y).toInt = x.toInt + y.toInt := by
  rw [Int64.toInt_add]
  exact Int.bmod_eq_of_le hlow hhigh

theorem toInt_sub_of_range {x y : Int64} (hlow : -2 ^ 63 ≤ x.toInt - y.toInt)
    (hhigh : x.toInt - y.toInt < 2 ^ 63) : (x - y).toInt = x.toInt - y.toInt := by
  rw [Int64.toInt_sub]
  exact Int.bmod_eq_of_le hlow hhigh

theorem toInt_mul_of_range {x y : Int64} (hlow : -2 ^ 63 ≤ x.toInt * y.toInt)
    (hhigh : x.toInt * y.toInt < 2 ^ 63) : (x * y).toInt = x.toInt * y.toInt := by
  rw [Int64.toInt_mul]
  exact Int.bmod_eq_of_le hlow hhigh

theorem toInt_one : (1 : Int64).toInt = 1 := rfl

theorem toInt_maxNativeInteger : maxNativeInteger.toInt = 2 ^ 63 - 1 := rfl

theorem toInt_maxOffset {pageSize : Int64} (hone : 1 ≤ pageSize.toInt)
    (hmax : pageSize.toInt < 2 ^ 63 - 1) :
    (maxNativeInteger - pageSize - 1).toInt = 2 ^ 63 - 2 - pageSize.toInt := by
  have hsub : (maxNativeInteger - pageSize).toInt = 2 ^ 63 - 1 - pageSize.toInt := by
    rw [toInt_sub_of_range, toInt_maxNativeInteger] <;> rw [toInt_maxNativeInteger] <;> omega
  rw [toInt_sub_of_range, hsub, toInt_one]
  · omega
  · rw [hsub, toInt_one]
    omega
  · rw [hsub, toInt_one]
    omega

theorem hasValidBounds_iff {page pageSize : Int64} {offset : Option Int64} :
    hasValidBounds page pageSize offset = true ↔
      1 ≤ page.toInt ∧ page.toInt < 2 ^ 63 - 1 ∧ 1 ≤ pageSize.toInt ∧
        pageSize.toInt < 2 ^ 63 - 1 ∧
        match offset with
        | some offset => 0 ≤ offset.toInt ∧ offset.toInt ≤ 2 ^ 63 - 2 - pageSize.toInt
        | none => page.toInt - 1 ≤ (2 ^ 63 - 2 - pageSize.toInt) / pageSize.toInt := by
  unfold hasValidBounds
  split
  · rename_i hout
    simp only [Bool.or_eq_true, decide_eq_true_eq, Int64.lt_iff_toInt_lt, Int64.le_iff_toInt_le,
      toInt_maxNativeInteger, toInt_one] at hout
    constructor
    · intro h
      cases h
    · intro h
      omega
  · rename_i hin
    simp only [Bool.or_eq_true, decide_eq_true_eq, Int64.lt_iff_toInt_lt, Int64.le_iff_toInt_le,
      toInt_maxNativeInteger, toInt_one] at hin
    have hpage : 1 ≤ page.toInt ∧ page.toInt < 2 ^ 63 - 1 := by omega
    have hsize : 1 ≤ pageSize.toInt ∧ pageSize.toInt < 2 ^ 63 - 1 := by omega
    have hmax := toInt_maxOffset hsize.1 hsize.2
    cases offset with
    | some offset =>
      dsimp only
      rw [Bool.and_eq_true, decide_eq_true_eq, decide_eq_true_eq, Int64.le_iff_toInt_le,
        Int64.le_iff_toInt_le, hmax]
      have hzero : (0 : Int64).toInt = 0 := rfl
      omega
    | none =>
      dsimp only
      have hbefore : (page - 1).toInt = page.toInt - 1 := by
        rw [toInt_sub_of_range, toInt_one] <;> rw [toInt_one] <;> omega
      have hne : pageSize ≠ -1 := by
        rintro rfl
        exact absurd hsize.1 (by decide)
      rw [decide_eq_true_eq, Int64.le_iff_toInt_le, hbefore,
        Int64.toInt_div_of_ne_right _ _ hne, hmax, Int.tdiv_eq_ediv_of_nonneg (by omega)]
      omega

/-- What the request and its page compute is computed without overflow. -/
structure NoOverflow (pagination : QueryPaginationRequest) (returnedRows : Nat) : Prop where
  pageBefore : (pagination.page - 1).toInt = pagination.page.toInt - 1
  offset : pagination.offset.toInt =
    (pagination.givenOffset.map Int64.toInt).getD
      ((pagination.page.toInt - 1) * pagination.pageSize.toInt)
  fetchSizeWithLookAhead :
    pagination.fetchSizeWithLookAhead.toInt = pagination.pageSize.toInt + 1
  nextPage : (pagination.page + 1).toInt = pagination.page.toInt + 1
  nextOffset : (pagination.offset + .ofNat returnedRows).toInt =
    pagination.offset.toInt + returnedRows

theorem noOverflow {pagination : QueryPaginationRequest} {returnedRows : Nat}
    (hvalid : hasValidBounds pagination.page pagination.pageSize pagination.givenOffset = true)
    (hpage : (returnedRows : Int) ≤ pagination.pageSize.toInt) :
    NoOverflow pagination returnedRows := by
  obtain ⟨hpage1, hpageMax, hsize1, hsizeMax, hoffset⟩ := hasValidBounds_iff.mp hvalid
  have hbefore : (pagination.page - 1).toInt = pagination.page.toInt - 1 := by
    rw [toInt_sub_of_range, toInt_one] <;> rw [toInt_one] <;> omega
  have hfits : 0 ≤ pagination.offset.toInt ∧
      pagination.offset.toInt ≤ 2 ^ 63 - 2 - pagination.pageSize.toInt ∧
      pagination.offset.toInt = (pagination.givenOffset.map Int64.toInt).getD
        ((pagination.page.toInt - 1) * pagination.pageSize.toInt) := by
    unfold QueryPaginationRequest.offset
    cases hgiven : pagination.givenOffset with
    | some offset =>
      rw [hgiven] at hoffset
      exact ⟨hoffset.1, hoffset.2, rfl⟩
    | none =>
      rw [hgiven] at hoffset
      have hproduct : (pagination.page.toInt - 1) * pagination.pageSize.toInt ≤
          2 ^ 63 - 2 - pagination.pageSize.toInt :=
        Int.mul_le_of_le_ediv (by omega) hoffset
      have hnonneg : 0 ≤ (pagination.page.toInt - 1) * pagination.pageSize.toInt :=
        Int.mul_nonneg (by omega) (by omega)
      have hmul : ((pagination.page - 1) * pagination.pageSize).toInt =
          (pagination.page.toInt - 1) * pagination.pageSize.toInt := by
        rw [toInt_mul_of_range, hbefore] <;> rw [hbefore] <;> omega
      show 0 ≤ ((pagination.page - 1) * pagination.pageSize).toInt ∧
        ((pagination.page - 1) * pagination.pageSize).toInt ≤ _ ∧
          ((pagination.page - 1) * pagination.pageSize).toInt = _
      rw [hmul]
      exact ⟨hnonneg, hproduct, rfl⟩
  obtain ⟨hoffset0, hoffsetMax, hoffsetEq⟩ := hfits
  have hrows : (Int64.ofNat returnedRows).toInt = returnedRows :=
    Int64.toInt_ofNat_of_lt (by omega)
  refine ⟨hbefore, hoffsetEq, ?_, ?_, ?_⟩
  · show (pagination.pageSize + 1).toInt = _
    rw [toInt_add_of_range, toInt_one] <;> rw [toInt_one] <;> omega
  · rw [toInt_add_of_range, toInt_one] <;> rw [toInt_one] <;> omega
  · rw [toInt_add_of_range, hrows] <;> rw [hrows] <;> omega

/-! ## Reading back -/

section ReadingBack

variable {c : QueryPaginationCursor T} {values : List (Json Double)}

theorem readKeyValue_toJson {value : CellValue T} {json : Json Double} (hne : value ≠ .null)
    (h : value.toJson = some json) : readKeyValue json = .ok value := by
  cases value with
  | null => exact absurd rfl hne
  | text s =>
    cases h
    rfl
  | bool b =>
    cases h
    rfl
  | int n =>
    cases h
    show Except.ok (CellValue.int (Int64.ofInt n.toInt)) = _
    rw [Int64.ofInt_toInt]
  | double d =>
    cases d with
    | finite q =>
      cases h
      rfl
    | infinity negative => cases h
    | nan => cases h
  | dateTime t => cases h

theorem mapM_readKeyValue {cells : List (CellValue T)} (hne : ∀ value ∈ cells, value ≠ .null)
    (h : cells.mapM CellValue.toJson = some values) :
    values.mapM readKeyValue = .ok cells ∧ values.length = cells.length := by
  induction cells generalizing values with
  | nil =>
    rw [List.mapM_nil] at h
    cases h
    exact ⟨rfl, rfl⟩
  | cons value cells ih =>
    rw [List.mapM_cons] at h
    cases hvalue : value.toJson with
    | none =>
      rw [hvalue] at h
      cases h
    | some json =>
      cases hcells : cells.mapM CellValue.toJson with
      | none =>
        rw [hvalue, hcells] at h
        cases h
      | some rest =>
        rw [hvalue, hcells] at h
        cases h
        have hrest := ih (fun v hv => hne v (List.mem_cons_of_mem _ hv)) hcells
        refine ⟨?_, congrArg (· + 1) hrest.2⟩
        rw [List.mapM_cons, readKeyValue_toJson (hne value List.mem_cons_self) hvalue, hrest.1]
        rfl

theorem readOrderTerm_toJson (term : QueryPaginationOrderTerm) :
    readOrderTerm (orderTermToJson term) =
      if term.expression = "" ∨ term.lookupKey = "" then .error "Invalid cursor ordering"
      else .ok term := by
  show readOrderTerm.named term.expression term.lookupKey term.descending = _
  unfold readOrderTerm.named
  simp only [Bool.or_eq_true, String.isEmpty_iff]

theorem mapM_readOrderTerm_iff (terms : List QueryPaginationOrderTerm) :
    (terms.map orderTermToJson).mapM readOrderTerm = .ok terms ↔
      ∀ term ∈ terms, term.expression ≠ "" ∧ term.lookupKey ≠ "" := by
  induction terms with
  | nil => exact ⟨fun _ term hterm => absurd hterm List.not_mem_nil, fun _ => rfl⟩
  | cons term terms ih =>
    rw [List.map_cons, List.mapM_cons, readOrderTerm_toJson, List.forall_mem_cons, ← ih]
    split
    · rename_i hempty
      constructor
      · intro h
        cases h
      · rintro ⟨hnamed, _⟩
        rcases hempty with h | h
        · exact absurd h hnamed.1
        · exact absurd h hnamed.2
    · rename_i hnamed
      rw [not_or] at hnamed
      show (((terms.map orderTermToJson).mapM readOrderTerm) >>= fun rest => pure (term :: rest)) =
        _ ↔ _
      cases hrest : (terms.map orderTermToJson).mapM readOrderTerm with
      | error message =>
        constructor
        · intro h
          cases h
        · rintro ⟨_, h⟩
          cases h
      | ok rest =>
        show Except.ok (term :: rest) = Except.ok (term :: terms) ↔ _
        simp [hnamed]

theorem valueAt_entries (c : QueryPaginationCursor T) (values : List (Json Double)) :
    readVersion (c.entries values) = some (if c.isStableCursor then 2 else 1) ∧
    valueAt (c.entries values) "page" = .int c.page.toInt ∧
    valueAt (c.entries values) "page_size" = .int c.pageSize.toInt ∧
    optionalInt (valueAt (c.entries values) "offset") = some c.offset ∧
    optionalText (valueAt (c.entries values) "query_hash") = some c.queryHash := by
  have hversion : valueAt (c.entries values) "v" = .int (if c.isStableCursor then 2 else 1) := rfl
  have hoffset : valueAt (c.entries values) "offset" =
      (c.offset.map fun n => Json.int n.toInt).getD .null := by
    simp [valueAt, QueryPaginationCursor.entries, List.lookup_append, lookup_optional,
      List.lookup_cons]
  have hhash : valueAt (c.entries values) "query_hash" = (c.queryHash.map .text).getD .null := by
    simp [valueAt, QueryPaginationCursor.entries, List.lookup_append, lookup_optional,
      List.lookup_cons]
  refine ⟨?_, ?_, ?_, ?_, ?_⟩
  · unfold readVersion
    rw [hversion]
    cases c.isStableCursor <;> rfl
  · simp [valueAt, QueryPaginationCursor.entries, List.lookup_append, lookup_optional,
      List.lookup_cons]
  · simp [valueAt, QueryPaginationCursor.entries, List.lookup_append, lookup_optional,
      List.lookup_cons]
  · rw [hoffset]
    cases c.offset with
    | none => rfl
    | some n =>
      show some (some (Int64.ofInt n.toInt)) = _
      rw [Int64.ofInt_toInt]
  · rw [hhash]
    cases c.queryHash <;> rfl

theorem fromObject_of_not_stable (hstable : c.isStableCursor = false) :
    fromObject (T := T) (c.entries values) =
      if hasValidBounds c.page c.pageSize c.offset then
        .ok { c with orderBy := [], lastRowValues := [] }
      else .error "Invalid cursor pagination bounds" := by
  obtain ⟨hversion, hpage, hsize, hoffset, hhash⟩ := valueAt_entries c values
  unfold fromObject
  rw [hversion, hpage, hsize, hoffset, hhash, hstable]
  dsimp only
  rw [Int64.ofInt_toInt, Int64.ofInt_toInt]
  cases hasValidBounds c.page c.pageSize c.offset <;> rfl

theorem readStable_entries (hstable : c.isStableCursor = true)
    (hne : ∀ value ∈ c.lastRowValues, value ≠ .null)
    (hvalues : c.lastRowValues.mapM CellValue.toJson = some values) :
    readStable (c.entries values) = .ok (c.orderBy, c.lastRowValues) ↔
      c.queryHash ≠ some "" ∧ ∀ term ∈ c.orderBy, term.expression ≠ "" ∧ term.lookupKey ≠ "" := by
  unfold QueryPaginationCursor.isStableCursor at hstable
  rw [Bool.and_eq_true, Bool.and_eq_true, beq_iff_eq, Option.isSome_iff_exists] at hstable
  obtain ⟨⟨⟨hash, hhash⟩, horder⟩, hlength⟩ := hstable
  obtain ⟨hread, hvaluesLength⟩ := mapM_readKeyValue hne hvalues
  have horder' : c.orderBy ≠ [] := by simpa using horder
  have hlast : c.lastRowValues ≠ [] := by
    intro h
    rw [h] at hlength
    exact horder' (List.length_eq_zero_iff.mp hlength.symm)
  have hhashAt : valueAt (c.entries values) "query_hash" = .text hash := by
    simp [valueAt, QueryPaginationCursor.entries, List.lookup_append, lookup_optional,
      List.lookup_cons, hhash]
  have horderAt : valueAt (c.entries values) "order_by" =
      .list (c.orderBy.map orderTermToJson) := by
    simp [valueAt, QueryPaginationCursor.entries, List.lookup_append, lookup_optional,
      List.lookup_cons, horder']
  have hvaluesAt : valueAt (c.entries values) "last_row_values" = .list values := by
    simp [valueAt, QueryPaginationCursor.entries, List.lookup_append, lookup_optional,
      List.lookup_cons, hlast]
  have hfits : ((c.orderBy.map orderTermToJson).isEmpty ||
      values.length != (c.orderBy.map orderTermToJson).length) = false := by
    rw [hvaluesLength, hlength, List.length_map]
    simp [horder']
  unfold readStable
  rw [hhashAt, horderAt, hvaluesAt, hhash]
  dsimp only
  rw [Bool.or_assoc, hfits, Bool.or_false, hread, ← mapM_readOrderTerm_iff]
  by_cases hempty : hash = ""
  · subst hempty
    constructor
    · intro h
      cases h
    · rintro ⟨h, _⟩
      exact absurd rfl h
  · have hnonempty : hash.isEmpty = false := by simpa using hempty
    rw [hnonempty, if_neg Bool.false_ne_true]
    have hsome : some hash ≠ some "" := fun h => hempty (Option.some.inj h)
    cases hterms : (c.orderBy.map orderTermToJson).mapM readOrderTerm with
    | error message =>
      constructor
      · intro h
        cases h
      · rintro ⟨_, h⟩
        cases h
    | ok terms =>
      show Except.ok (terms, c.lastRowValues) = Except.ok (c.orderBy, c.lastRowValues) ↔ _
      simp [hsome]

theorem fromObject_of_stable (hstable : c.isStableCursor = true)
    (hne : ∀ value ∈ c.lastRowValues, value ≠ .null)
    (hvalues : c.lastRowValues.mapM CellValue.toJson = some values) :
    fromObject (c.entries values) = .ok c ↔
      hasValidBounds c.page c.pageSize c.offset = true ∧ c.queryHash ≠ some "" ∧
        ∀ term ∈ c.orderBy, term.expression ≠ "" ∧ term.lookupKey ≠ "" := by
  obtain ⟨hversion, hpage, hsize, hoffset, hhash⟩ := valueAt_entries c values
  rw [← readStable_entries hstable hne hvalues]
  unfold fromObject
  rw [hversion, hpage, hsize, hoffset, hhash, hstable]
  dsimp only
  rw [Int64.ofInt_toInt, Int64.ofInt_toInt]
  cases hbounds : hasValidBounds c.page c.pageSize c.offset with
  | false =>
    constructor
    · intro h
      cases h
    · rintro ⟨h, _⟩
      cases h
  | true =>
    cases hread : readStable (T := T) (c.entries values) with
    | error message =>
      constructor
      · intro h
        cases h
      · rintro ⟨_, h⟩
        cases h
    | ok pair =>
      show Except.ok (QueryPaginationCursor.mk c.page c.pageSize c.offset c.queryHash pair.1
        pair.2) = Except.ok c ↔ _
      constructor
      · intro h
        have hc := Except.ok.inj h
        refine ⟨rfl, congrArg Except.ok (Prod.ext ?_ ?_)⟩
        · exact congrArg QueryPaginationCursor.orderBy hc
        · exact congrArg QueryPaginationCursor.lastRowValues hc
      · rintro ⟨_, h⟩
        rw [Except.ok.inj h]

end ReadingBack

/-! ## The next cursor comes back -/

section NextCursor

variable {codec : TokenCodec T τ} {pagination : QueryPaginationRequest} {pageData : List (Row T)}

/-- A cursor is written, and read back as it was. -/
def ComesBack (codec : TokenCodec T τ) (c : QueryPaginationCursor T) : Prop :=
  ∃ token, c.toToken codec = some token ∧ fromToken codec token = .ok c

theorem comesBack_iff {c : QueryPaginationCursor T} :
    ComesBack codec c ↔ ∃ values, c.lastRowValues.mapM CellValue.toJson = some values ∧
      fromObject (c.entries values) = .ok c := by
  unfold ComesBack QueryPaginationCursor.toToken
  cases hvalues : c.lastRowValues.mapM CellValue.toJson with
  | none =>
    have hjson : c.toJson = none := by
      unfold QueryPaginationCursor.toJson
      rw [hvalues]
      rfl
    rw [hjson]
    simp
  | some values =>
    have hjson : c.toJson = some (.map (c.entries values)) := by
      unfold QueryPaginationCursor.toJson
      rw [hvalues]
      rfl
    have hdecoded : fromToken codec (codec.encode (.map (c.entries values))) =
        fromObject (c.entries values) := by
      unfold fromToken
      rw [codec.decode_encode c _ hjson]
    rw [hjson]
    simp [hdecoded]

def HasKeys (lastRow : Row T) (terms : List QueryPaginationOrderTerm) : Prop :=
  ∀ term ∈ terms, ∃ value, lastRow.lookup term.lookupKey = some value ∧ value ≠ .null

theorem lastRowValues_cases (lastRow : Row T) (terms : List QueryPaginationOrderTerm) :
    (lastRowValues lastRow terms = none ∧ ¬ HasKeys lastRow terms) ∨
      ∃ values, lastRowValues lastRow terms = some values ∧ HasKeys lastRow terms ∧
        values.length = terms.length ∧
        ∀ value, value ∈ values ↔ ∃ term ∈ terms, lastRow.lookup term.lookupKey = some value := by
  induction terms with
  | nil => exact .inr ⟨[], rfl, fun term hterm => absurd hterm List.not_mem_nil, rfl, by simp⟩
  | cons term terms ih =>
    unfold lastRowValues
    have hlost : ∀ {found : Option (CellValue T)}, lastRow.lookup term.lookupKey = found →
        (found = none ∨ found = some .null) → ¬ HasKeys lastRow (term :: terms) := by
      intro found hfound hcases hkeys
      obtain ⟨value, hvalue, hne⟩ := hkeys term List.mem_cons_self
      rw [← hfound, hvalue] at hcases
      simp [hne] at hcases
    split
    · rename_i hlookup
      exact .inl ⟨rfl, hlost hlookup (.inl rfl)⟩
    · rename_i hlookup
      exact .inl ⟨rfl, hlost hlookup (.inr rfl)⟩
    · rename_i value hne hlookup
      have hne' : value ≠ .null := fun h => hne h
      rcases ih with ⟨hnone, hkeys⟩ | ⟨values, hsome, hkeys, hlength, hmem⟩
      · refine .inl ⟨by rw [hnone]; rfl, fun h => hkeys fun t ht => h t (List.mem_cons_of_mem _ ht)⟩
      · refine .inr ⟨value :: values, by rw [hsome]; rfl, ?_, congrArg (· + 1) hlength, ?_⟩
        · intro t ht
          rcases List.mem_cons.mp ht with rfl | ht
          · exact ⟨value, hlookup, hne'⟩
          · exact hkeys t ht
        · intro v
          rw [List.mem_cons, hmem, List.exists_mem_cons_iff, hlookup, Option.some.injEq, eq_comm]

theorem exists_mapM_toJson_iff (values : List (CellValue T)) :
    (∃ json, values.mapM CellValue.toJson = some json) ↔ ∀ value ∈ values, value.toJson ≠ none := by
  induction values with
  | nil => exact ⟨fun _ v hv => absurd hv List.not_mem_nil, fun _ => ⟨[], rfl⟩⟩
  | cons value values ih =>
    rw [List.mapM_cons, List.forall_mem_cons, ← ih]
    cases value.toJson with
    | none => simp
    | some json => cases values.mapM CellValue.toJson <;> simp

/-- Every cursor of a page comes back. -/
def Exact (codec : TokenCodec T τ) (pagination : QueryPaginationRequest)
    (pageData : List (Row T)) : Prop :=
  ∀ c, nextCursor pagination pageData = some c → ∃ token,
    buildNextCursorToken codec pagination pageData = some (some token) ∧
      fromToken codec token = .ok c

/-- The next page is within the bounds again, and for a cursor with keys the query has a
fingerprint, the terms are named and each key of the last row has a JSON form. -/
def NextCursorFits (pagination : QueryPaginationRequest) (pageData : List (Row T)) : Prop :=
  ∀ lastRow, pageData.getLast? = some lastRow → pagination.orderBy ≠ [] →
    pagination.page.toInt + 1 < 2 ^ 63 - 1 ∧
      (¬ HasKeys lastRow pagination.orderBy →
        pagination.offset.toInt + pageData.length ≤ 2 ^ 63 - 2 - pagination.pageSize.toInt) ∧
      (HasKeys lastRow pagination.orderBy →
        pagination.page.toInt ≤
            (2 ^ 63 - 2 - pagination.pageSize.toInt) / pagination.pageSize.toInt ∧
          pagination.queryHash ≠ none ∧ pagination.queryHash ≠ some "" ∧
            ∀ term ∈ pagination.orderBy, term.expression ≠ "" ∧ term.lookupKey ≠ "" ∧
              ∀ value, lastRow.lookup term.lookupKey = some value → value.toJson ≠ none)

theorem exact_iff : Exact codec pagination pageData ↔
    ∀ c, nextCursor pagination pageData = some c → ComesBack codec c := by
  unfold Exact ComesBack buildNextCursorToken
  refine forall_congr' fun c => imp_congr_right fun hc => ?_
  rw [hc]
  cases hjson : c.toToken codec <;> simp [hjson]

theorem hasValidBounds_next
    (hvalid : hasValidBounds pagination.page pagination.pageSize pagination.givenOffset = true)
    (hpage : (pageData.length : Int) ≤ pagination.pageSize.toInt) :
    (hasValidBounds (pagination.page + 1) pagination.pageSize
        (some (pagination.offset + .ofNat pageData.length)) = true ↔
      pagination.page.toInt + 1 < 2 ^ 63 - 1 ∧
        pagination.offset.toInt + pageData.length ≤ 2 ^ 63 - 2 - pagination.pageSize.toInt) ∧
    (hasValidBounds (pagination.page + 1) pagination.pageSize none = true ↔
      pagination.page.toInt + 1 < 2 ^ 63 - 1 ∧
        pagination.page.toInt ≤
          (2 ^ 63 - 2 - pagination.pageSize.toInt) / pagination.pageSize.toInt) := by
  have hexact := noOverflow hvalid hpage
  obtain ⟨hpage1, hpageMax, hsize1, hsizeMax, hoffset⟩ := hasValidBounds_iff.mp hvalid
  have hoffset0 : 0 ≤ pagination.offset.toInt := by
    rw [hexact.offset]
    cases hgiven : pagination.givenOffset with
    | some offset =>
      rw [hgiven] at hoffset
      exact hoffset.1
    | none => exact Int.mul_nonneg (by omega) (by omega)
  rw [hasValidBounds_iff, hasValidBounds_iff, hexact.nextPage]
  dsimp only
  rw [hexact.nextOffset]
  constructor
  · omega
  · rw [Int.add_sub_cancel]
    omega

theorem comesBack_offsetCursor (returnedRows : Nat) :
    ComesBack codec (offsetCursor pagination returnedRows : QueryPaginationCursor T) ↔
      hasValidBounds (pagination.page + 1) pagination.pageSize
        (some (pagination.offset + .ofNat returnedRows)) = true := by
  have hobject : fromObject ((offsetCursor pagination returnedRows :
        QueryPaginationCursor T).entries []) =
      if hasValidBounds (pagination.page + 1) pagination.pageSize
          (some (pagination.offset + .ofNat returnedRows)) then
        .ok (offsetCursor pagination returnedRows : QueryPaginationCursor T)
      else .error "Invalid cursor pagination bounds" := fromObject_of_not_stable rfl
  rw [comesBack_iff]
  constructor
  · rintro ⟨values, hvalues, hread⟩
    obtain rfl : [] = values := Option.some.inj hvalues
    rw [hobject] at hread
    split at hread
    · assumption
    · cases hread
  · intro hbounds
    refine ⟨[], rfl, ?_⟩
    rw [hobject]
    exact if_pos hbounds

theorem comesBack_keys {c : QueryPaginationCursor T} (horder : c.orderBy ≠ [])
    (hlength : c.lastRowValues.length = c.orderBy.length)
    (hne : ∀ value ∈ c.lastRowValues, value ≠ .null) :
    ComesBack codec c ↔
      hasValidBounds c.page c.pageSize c.offset = true ∧ c.queryHash ≠ none ∧
        c.queryHash ≠ some "" ∧
        (∀ term ∈ c.orderBy, term.expression ≠ "" ∧ term.lookupKey ≠ "") ∧
        ∀ value ∈ c.lastRowValues, value.toJson ≠ none := by
  rw [comesBack_iff, ← exists_mapM_toJson_iff]
  cases hstable : c.isStableCursor with
  | false =>
    have hhash : c.queryHash = none := by
      unfold QueryPaginationCursor.isStableCursor at hstable
      cases hhash : c.queryHash with
      | none => rfl
      | some hash =>
        rw [hhash, hlength] at hstable
        simp [horder] at hstable
    constructor
    · rintro ⟨values, _, hread⟩
      rw [fromObject_of_not_stable hstable] at hread
      split at hread
      · have hempty := congrArg QueryPaginationCursor.orderBy (Except.ok.inj hread)
        exact absurd hempty.symm horder
      · cases hread
    · rintro ⟨_, h, _⟩
      exact absurd hhash h
  | true =>
    have hhash : c.queryHash ≠ none := by
      unfold QueryPaginationCursor.isStableCursor at hstable
      rw [Bool.and_eq_true, Bool.and_eq_true] at hstable
      exact Option.isSome_iff_ne_none.mp hstable.1.1
    constructor
    · rintro ⟨values, hvalues, hread⟩
      obtain ⟨hbounds, hnamed⟩ := (fromObject_of_stable hstable hne hvalues).mp hread
      exact ⟨hbounds, hhash, hnamed.1, hnamed.2, values, hvalues⟩
    · rintro ⟨hbounds, _, hnonempty, hnamed, values, hvalues⟩
      exact ⟨values, hvalues,
        (fromObject_of_stable hstable hne hvalues).mpr ⟨hbounds, hnonempty, hnamed⟩⟩

theorem exact_iff_nextCursorFits
    (hvalid : hasValidBounds pagination.page pagination.pageSize pagination.givenOffset = true)
    (hpage : (pageData.length : Int) ≤ pagination.pageSize.toInt) :
    Exact codec pagination pageData ↔ NextCursorFits pagination pageData := by
  obtain ⟨hoffsetBounds, hkeyBounds⟩ := hasValidBounds_next hvalid hpage
  rw [exact_iff]
  unfold nextCursor NextCursorFits
  cases hlast : pageData.getLast? with
  | none => simp
  | some lastRow =>
    by_cases horder : pagination.orderBy = []
    · simp [horder]
    have hfull : pagination.orderBy.isEmpty = false := by simpa using horder
    dsimp only
    rw [hfull, if_neg Bool.false_ne_true]
    rcases lastRowValues_cases lastRow pagination.orderBy with
      ⟨hnone, hkeys⟩ | ⟨values, hsome, hkeys, hlength, hmem⟩
    · rw [hnone]
      simp only [Option.some.injEq, forall_eq', ne_eq, horder, not_false_eq_true, hkeys,
        comesBack_offsetCursor, hoffsetBounds]
      simp
    · have hne : ∀ value ∈ values, value ≠ .null := by
        intro value hvalue
        obtain ⟨term, hterm, hlookup⟩ := (hmem value).mp hvalue
        obtain ⟨value', hlookup', hne⟩ := hkeys term hterm
        rw [hlookup] at hlookup'
        rwa [Option.some.inj hlookup']
      have hencodable : (∀ value ∈ values, value.toJson ≠ none) ↔
          ∀ term ∈ pagination.orderBy, ∀ value, lastRow.lookup term.lookupKey = some value →
            value.toJson ≠ none := by
        constructor
        · exact fun h term hterm value hlookup => h value ((hmem value).mpr ⟨term, hterm, hlookup⟩)
        · intro h value hvalue
          obtain ⟨term, hterm, hlookup⟩ := (hmem value).mp hvalue
          exact h term hterm value hlookup
      have hback : ComesBack codec ⟨pagination.page + 1, pagination.pageSize, none,
          pagination.queryHash, pagination.orderBy, values⟩ ↔ _ :=
        comesBack_keys horder hlength hne
      rw [hsome]
      simp only [Option.some.injEq, forall_eq', hback, hkeyBounds, hencodable, hkeys,
        not_true_eq_false, false_imp_iff, true_imp_iff, true_and, and_assoc]
      constructor
      · rintro ⟨hnext, hlast, hhash, hnonempty, hnamed, hjson⟩ _
        exact ⟨hnext, hlast, hhash, hnonempty, fun term hterm =>
          ⟨(hnamed term hterm).1, (hnamed term hterm).2, hjson term hterm⟩⟩
      · intro h
        obtain ⟨hnext, hlast, hhash, hnonempty, hterms⟩ := h horder
        exact ⟨hnext, hlast, hhash, hnonempty,
          fun term hterm => ⟨(hterms term hterm).1, (hterms term hterm).2.1⟩,
          fun term hterm => (hterms term hterm).2.2⟩

/-- For a request within bounds and a page of it nothing overflows, and the next cursor comes
back exactly when `NextCursorFits`. -/
theorem no_overflow_and_exact_iff (codec : TokenCodec T τ) (pagination : QueryPaginationRequest)
    (pageData : List (Row T))
    (hvalid : hasValidBounds pagination.page pagination.pageSize pagination.givenOffset = true)
    (hpage : (pageData.length : Int) ≤ pagination.pageSize.toInt) :
    (NoOverflow pagination pageData.length ∧ Exact codec pagination pageData) ↔
      NextCursorFits pagination pageData := by
  rw [and_iff_right (noOverflow hvalid hpage)]
  exact exact_iff_nextCursorFits hvalid hpage

end NextCursor

/-! ## The cursors of the server -/

/-- Tokens that are the objects themselves. -/
def plainCodec : TokenCodec T (Json Double) where
  encode := id
  decode := .ok
  decode_encode := fun _ _ _ => rfl

/-- A page of the rows of a query ordered by their number. -/
def byNumber (page pageSize : Int64) : QueryPaginationRequest where
  page := page
  pageSize := pageSize
  queryHash := some "hash"
  orderBy := [⟨"id", "id", false⟩]

theorem no_overflow_and_exact_second : NoOverflow (byNumber 2 2) 1 ∧
    Exact plainCodec (byNumber 2 2) ([[("id", .int 7)]] : List (Row Empty)) := by
  refine (no_overflow_and_exact_iff plainCodec (byNumber 2 2) [[("id", .int 7)]] (by decide)
    (by decide)).mpr ?_
  intro lastRow hlast _
  obtain rfl : [("id", CellValue.int 7)] = lastRow := Option.some.inj hlast
  have hkeys : HasKeys ([("id", .int 7)] : Row Empty) (byNumber 2 2).orderBy := by
    intro term hterm
    obtain rfl := List.mem_singleton.mp hterm
    exact ⟨.int 7, rfl, by decide⟩
  refine ⟨by decide, fun h => absurd hkeys h, fun _ => ⟨by decide, by decide, by decide, ?_⟩⟩
  intro term hterm
  obtain rfl := List.mem_singleton.mp hterm
  refine ⟨by decide, by decide, ?_⟩
  intro value hvalue
  obtain rfl : CellValue.int 7 = value := Option.some.inj hvalue
  exact Option.some_ne_none _

/-- The last page within the bounds has a next cursor that they refuse, and a key that is an
instant has no JSON form. -/
theorem lastPage_refused :
    (hasValidBounds 9223372036854775806 1 none = true ∧
      ¬ Exact plainCodec (byNumber 9223372036854775806 1)
        ([[("id", .int 7)]] : List (Row Empty))) ∧
    hasValidBounds 1 1 none = true ∧
      ¬ Exact plainCodec (byNumber 1 1) ([[("id", .dateTime ())]] : List (Row Unit)) := by
  refine ⟨⟨by decide, fun h => ?_⟩, by decide, fun h => ?_⟩
  · have hfits := (exact_iff_nextCursorFits (by decide) (by decide)).mp h _ rfl (by decide)
    exact absurd hfits.1 (by decide)
  · have hfits := (exact_iff_nextCursorFits (by decide) (by decide)).mp h _ rfl (by decide)
    have hkeys : HasKeys ([("id", .dateTime ())] : Row Unit) (byNumber 1 1).orderBy := by
      intro term hterm
      obtain rfl := List.mem_singleton.mp hterm
      exact ⟨.dateTime (), rfl, by decide⟩
    obtain ⟨_, _, _, hterms⟩ := hfits.2.2 hkeys
    exact (hterms _ (List.mem_singleton.mpr rfl)).2.2 _ rfl rfl

end PlugAgente.Pagination.Token
