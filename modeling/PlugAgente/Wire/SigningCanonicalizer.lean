import PlugAgente.Dart.Utf8
import PlugAgente.Wire.CanonicalJson

/-!
# The canonical values of the agent

`PayloadSigningCanonicalizer` sorts the keys of every map before a payload is signed.  A list
without containers is reused, and rows with the keys of the first row and without containers
share one sorted key order.  `canonicalizeJsonValueForIdempotency` sorts keys for fingerprints.

Both give the canonical form of a value (`canonicalJsonValue_eq`, `canonicalizeForIdempotency_eq`),
so the texts are equal exactly for values that differ in the order of keys only:
`canonical_texts`.  The objects of the model have string keys, so `toString` of a key and the two
branches for maps of other key types are left out.
-/

namespace PlugAgente.Wire

open Dart (ListSort)

variable {V : Type}

/-! ## PayloadSigningCanonicalizer -/

/-- `value is Map || value is List`. -/
def Json.isContainer (value : Json V) : Bool :=
  value.isMap || value.isList

/-- The keys of the first row, unless it has a container. -/
def prototypeKeys (prototype : Entries V) : Option (List String) :=
  if prototype.any fun entry => entry.2.isContainer then none else some (prototype.map Prod.fst)

/-- `row[key]`, where the row has the key and the value is no container. -/
def plainChild (row : Entries V) (key : String) : Option (String × Json V) :=
  match row.lookup key with
  | none => none
  | some child => if child.isContainer then none else some (key, child)

/-- A row in the order of the keys. -/
def sortedRow (keyOrder : List String) : Json V → Option (Json V)
  | .map row =>
    if row.length ≠ keyOrder.length then none
    else (keyOrder.mapM (plainChild row)).map .map
  | _ => none

def sortedPlainRows (S : ListSort) (rows : List (Json V)) : Option (List (Json V)) :=
  match rows with
  | [] => some []
  | .map prototype :: _ =>
    match prototypeKeys prototype with
    | none => none
    | some keys => rows.mapM (sortedRow (S.sort compareStrings keys))
  | _ => none

mutual

/-- `_canonicalJsonValue`.  The sort of `_canonicalMap` looks at the keys only, so it does not
matter that the values are made canonical before it here. -/
def canonicalJsonValue (S : ListSort) : Json V → Json V
  | .map entries => .map (S.sort compareKeys (canonicalJsonEntries S entries))
  | .list items =>
    .list (if items.any Json.isContainer then
      match sortedPlainRows S items with
      | some plainRows => plainRows
      | none => canonicalJsonItems S items
    else items)
  | .null => .null
  | .bool b => .bool b
  | .int n => .int n
  | .text t => .text t
  | .other v => .other v

def canonicalJsonEntries (S : ListSort) : Entries V → Entries V
  | [] => []
  | (key, value) :: entries => (key, canonicalJsonValue S value) :: canonicalJsonEntries S entries

def canonicalJsonItems (S : ListSort) : List (Json V) → List (Json V)
  | [] => []
  | item :: items => canonicalJsonValue S item :: canonicalJsonItems S items

end

/-- `canonicalJsonUtf8`; the encoder of bytes writes the text of `jsonEncode`. -/
def canonicalJsonUtf8 (D : Doubles V) (S : ListSort) (value : Json V) : List UInt8 :=
  Dart.utf8Encode (jsonEncode D (canonicalJsonValue S value))

/-! ## Fingerprints -/

mutual

/-- `canonicalizeJsonValueForIdempotency`. -/
def canonicalizeForIdempotency (S : ListSort) : Json V → Json V
  | .map entries =>
    let normalized := canonicalizeEntriesForIdempotency S entries
    let sortedKeys := S.sort compareStrings (normalized.map Prod.fst)
    .map (sortedKeys.map fun key => (key, (normalized.lookup key).getD .null))
  | .list items => .list (canonicalizeItemsForIdempotency S items)
  | .null => .null
  | .bool b => .bool b
  | .int n => .int n
  | .text t => .text t
  | .other v => .other v

def canonicalizeEntriesForIdempotency (S : ListSort) : Entries V → Entries V
  | [] => []
  | (key, value) :: entries =>
    (key, canonicalizeForIdempotency S value) :: canonicalizeEntriesForIdempotency S entries

def canonicalizeItemsForIdempotency (S : ListSort) : List (Json V) → List (Json V)
  | [] => []
  | item :: items =>
    canonicalizeForIdempotency S item :: canonicalizeItemsForIdempotency S items

end

mutual

theorem canonicalizeForIdempotency_eq (S : ListSort) : ∀ v : Json V, v.Distinct →
    canonicalizeForIdempotency S v = canonicalize S v
  | .map entries, h => by
    have hentries := canonicalizeEntriesForIdempotency_eq S entries h.2
    have hkeys : ((canonicalizeEntries S entries).map Prod.fst).Nodup := by
      rw [keys_canonicalizeEntries]
      exact h.1
    rw [canonicalizeForIdempotency, canonicalize, hentries]
    exact congrArg Json.map (map_lookup_sort S hkeys (List.Perm.refl _))
  | .list items, h => by
    rw [canonicalizeForIdempotency, canonicalize, canonicalizeItemsForIdempotency_eq S items h]
  | .null, _ => rfl
  | .bool _, _ => rfl
  | .int _, _ => rfl
  | .text _, _ => rfl
  | .other _, _ => rfl

theorem canonicalizeEntriesForIdempotency_eq (S : ListSort) : ∀ entries : Entries V,
    DistinctEntries entries →
      canonicalizeEntriesForIdempotency S entries = canonicalizeEntries S entries
  | [], _ => rfl
  | (key, value) :: entries, h => by
    rw [canonicalizeEntriesForIdempotency, canonicalizeEntries,
      canonicalizeForIdempotency_eq S value h.1,
      canonicalizeEntriesForIdempotency_eq S entries h.2]

theorem canonicalizeItemsForIdempotency_eq (S : ListSort) : ∀ items : List (Json V),
    DistinctItems items → canonicalizeItemsForIdempotency S items = canonicalizeItems S items
  | [], _ => rfl
  | item :: items, h => by
    rw [canonicalizeItemsForIdempotency, canonicalizeItems,
      canonicalizeForIdempotency_eq S item h.1, canonicalizeItemsForIdempotency_eq S items h.2]

end

/-! ## Plain rows -/

theorem canonicalize_of_not_isContainer (S : ListSort) {v : Json V} (h : v.isContainer = false) :
    canonicalize S v = v := by
  cases v with
  | list items => cases h
  | map entries => cases h
  | _ => rfl

theorem canonicalizeItems_of_plain (S : ListSort) {items : List (Json V)}
    (h : items.any Json.isContainer = false) : canonicalizeItems S items = items := by
  induction items with
  | nil => rfl
  | cons item items ih =>
    rw [List.any_cons, Bool.or_eq_false_iff] at h
    rw [canonicalizeItems, canonicalize_of_not_isContainer S h.1, ih h.2]

/-- A loop that may fail and did not has an answer for each element. -/
theorem map_of_mapM {α β : Type} {f : α → Option β} {l : List α} {out : List β}
    (h : l.mapM f = some out) : l.map f = out.map some := by
  induction l generalizing out with
  | nil =>
    obtain rfl := Option.some.inj h
    rfl
  | cons a l ih =>
    rw [List.mapM_cons] at h
    obtain ⟨b, hb, h⟩ := Option.bind_eq_some_iff.mp h
    obtain ⟨rest, hrest, h⟩ := Option.bind_eq_some_iff.mp h
    obtain rfl := Option.some.inj h
    rw [List.map_cons, List.map_cons, hb, ih hrest]

theorem plainChild_eq_some {row : Entries V} {key : String} {entry : String × Json V}
    (h : plainChild row key = some entry) :
    entry = (key, (row.lookup key).getD .null) ∧ entry.2.isContainer = false ∧
      row.lookup key = some entry.2 := by
  rw [plainChild] at h
  cases hchild : row.lookup key with
  | none => simp [hchild] at h
  | some child =>
    simp only [hchild] at h
    split at h
    · cases h
    · rename_i hplain
      obtain rfl := Option.some.inj h
      exact ⟨rfl, by simpa using hplain, rfl⟩

/-- What a sorted row is: the entries of the row, none of them a container, in the order of the
keys. -/
theorem sortedRow_eq_some {S : ListSort} {keys : List String} {row : Json V} {sorted : Json V}
    (hnodup : keys.Nodup) (hrow : row.Distinct)
    (h : sortedRow (S.sort compareStrings keys) row = some sorted) :
    sorted = canonicalize S row := by
  cases row with
  | map entries =>
    rw [sortedRow] at h
    split at h
    · cases h
    rename_i hlength
    obtain ⟨children, hchildren, rfl⟩ := Option.map_eq_some_iff.mp h
    have hsorted := S.perm compareStrings keys
    rw [not_not, hsorted.length_eq] at hlength
    have hanswers := map_of_mapM hchildren
    have hchild : ∀ key ∈ keys, ∃ entry ∈ children, plainChild entries key = some entry := by
      intro key hkey
      have hmem := List.mem_map_of_mem (f := plainChild entries) (hsorted.symm.subset hkey)
      rw [hanswers] at hmem
      obtain ⟨entry, hentry, heq⟩ := List.mem_map.mp hmem
      exact ⟨entry, hentry, heq.symm⟩
    have hmap : children = (S.sort compareStrings keys).map
        fun key => (key, (entries.lookup key).getD .null) := by
      refine List.map_injective_iff.mpr (Option.some_injective _) ?_
      rw [← hanswers, List.map_map]
      refine List.map_congr_left fun key hkey => ?_
      obtain ⟨entry, -, hentry⟩ := hchild key (hsorted.subset hkey)
      rw [hentry, (plainChild_eq_some hentry).1]
      rfl
    have hsub : keys ⊆ entries.map Prod.fst := by
      intro key hkey
      obtain ⟨entry, -, hentry⟩ := hchild key hkey
      obtain ⟨before, after, hentries, -⟩ :=
        List.lookup_eq_some_iff.mp (plainChild_eq_some hentry).2.2
      simp [hentries]
    have hkeys : keys.Perm (entries.map Prod.fst) :=
      (hnodup.subperm hsub).perm_of_length_le (by rw [List.length_map]; omega)
    have hplain : ∀ entry ∈ entries, entry.2.isContainer = false := by
      intro entry hmem
      obtain ⟨child, -, hchild⟩ := hchild entry.1 (hkeys.symm.subset (List.mem_map_of_mem hmem))
      obtain ⟨-, hplain, hlookup⟩ := plainChild_eq_some hchild
      rw [lookup_of_mem hrow.1 hmem] at hlookup
      rwa [Option.some.inj hlookup]
    have hself : canonicalizeEntries S entries = entries := by
      rw [canonicalizeEntries_eq]
      refine (List.map_congr_left fun entry hmem => ?_).trans (List.map_id entries)
      rw [canonicalize_of_not_isContainer S (hplain entry hmem)]
      rfl
    rw [canonicalize, hself, hmap, map_lookup_sort S hrow.1 hkeys]
  | _ => simp [sortedRow] at h

theorem sortedPlainRows_eq_some {S : ListSort} {rows sorted : List (Json V)}
    (hrows : DistinctItems rows) (h : sortedPlainRows S rows = some sorted) :
    sorted = canonicalizeItems S rows := by
  unfold sortedPlainRows at h
  split at h
  · obtain rfl := Option.some.inj h
    rfl
  · rename_i prototype more
    cases hkeys : prototypeKeys prototype with
    | none => simp [hkeys] at h
    | some keys =>
      simp only [hkeys] at h
      have hnodup : keys.Nodup := by
        unfold prototypeKeys at hkeys
        split at hkeys
        · cases hkeys
        · obtain rfl := Option.some.inj hkeys
          exact hrows.1.1
      clear hkeys
      generalize Json.map prototype :: more = rows at h hrows
      induction rows generalizing sorted with
      | nil =>
        obtain rfl := Option.some.inj h
        rfl
      | cons row rows ih =>
        rw [List.mapM_cons] at h
        obtain ⟨first, hfirst, h⟩ := Option.bind_eq_some_iff.mp h
        obtain ⟨later, hlater, h⟩ := Option.bind_eq_some_iff.mp h
        obtain rfl := Option.some.inj h
        rw [canonicalizeItems, sortedRow_eq_some hnodup hrows.1 hfirst, ih hlater hrows.2]
  · cases h

mutual

theorem canonicalJsonValue_eq (S : ListSort) : ∀ v : Json V, v.Distinct →
    canonicalJsonValue S v = canonicalize S v
  | .map entries, h => by
    rw [canonicalJsonValue, canonicalize, canonicalJsonEntries_eq S entries h.2]
  | .list items, h => by
    rw [canonicalJsonValue, canonicalize, canonicalJsonItems_eq S items h]
    congr 1
    split
    · split
      · rename_i plainRows hplain
        exact sortedPlainRows_eq_some h hplain
      · rfl
    · rename_i hplain
      exact (canonicalizeItems_of_plain S (by simpa using hplain)).symm
  | .null, _ => rfl
  | .bool _, _ => rfl
  | .int _, _ => rfl
  | .text _, _ => rfl
  | .other _, _ => rfl

theorem canonicalJsonEntries_eq (S : ListSort) : ∀ entries : Entries V,
    DistinctEntries entries → canonicalJsonEntries S entries = canonicalizeEntries S entries
  | [], _ => rfl
  | (key, value) :: entries, h => by
    rw [canonicalJsonEntries, canonicalizeEntries, canonicalJsonValue_eq S value h.1,
      canonicalJsonEntries_eq S entries h.2]

theorem canonicalJsonItems_eq (S : ListSort) : ∀ items : List (Json V),
    DistinctItems items → canonicalJsonItems S items = canonicalizeItems S items
  | [], _ => rfl
  | item :: items, h => by
    rw [canonicalJsonItems, canonicalizeItems, canonicalJsonValue_eq S item h.1,
      canonicalJsonItems_eq S items h.2]

end

/-! ## The two laws -/

theorem canonicalJsonUtf8_eq_iff (D : Doubles V) (S : ListSort) {v w : Json V} (hv : v.Distinct)
    (hw : w.Distinct) : canonicalJsonUtf8 D S v = canonicalJsonUtf8 D S w ↔ v.Same w := by
  rw [canonicalJsonUtf8, canonicalJsonUtf8, canonicalJsonValue_eq S v hv,
    canonicalJsonValue_eq S w hw, Dart.Utf8.utf8Encode_eq, Dart.Utf8.utf8Encode_eq,
    Dart.Utf8.bytesOf_inj, String.toList_inj]
  exact canonicalText_eq_iff D S hv hw

/-- The fast path for rows answers what the generic path does, and the canonical bytes and the
text of a fingerprint are equal exactly for values that differ in the order of keys only. -/
theorem canonical_texts (D : Doubles V) (S : ListSort) :
    (∀ rows sorted : List (Json V), DistinctItems rows → sortedPlainRows S rows = some sorted →
      sorted = rows.map (canonicalJsonValue S)) ∧
    (∀ v w : Json V, v.Distinct → w.Distinct →
      (canonicalJsonUtf8 D S v = canonicalJsonUtf8 D S w ↔ v.Same w)) ∧
    ∀ v w : Json V, v.Distinct → w.Distinct →
      (jsonEncode D (canonicalizeForIdempotency S v) =
          jsonEncode D (canonicalizeForIdempotency S w) ↔ v.Same w) := by
  refine ⟨fun rows sorted hrows h => ?_, fun v w hv hw => canonicalJsonUtf8_eq_iff D S hv hw,
    fun v w hv hw => ?_⟩
  · have hitems : canonicalJsonItems S rows = rows.map (canonicalJsonValue S) := by
      clear h hrows
      induction rows with
      | nil => rfl
      | cons row rows ih => rw [canonicalJsonItems, List.map_cons, ih]
    rw [sortedPlainRows_eq_some hrows h, ← canonicalJsonItems_eq S rows hrows, hitems]
  · rw [canonicalizeForIdempotency_eq S v hv, canonicalizeForIdempotency_eq S w hw]
    exact canonicalText_eq_iff D S hv hw

end PlugAgente.Wire
