import PlugAgente.Dart.ListSort
import PlugAgente.Wire.JsonCodec

/-!
# Canonical JSON

A canonical value has the entries of its maps in the order of their keys.  Two values are the
same if they differ in the order of entries only, at any depth; lists are compared item by item.
`canonicalize_eq_iff` says that the same values, and no others, have one canonical form.

Nothing here mentions the agent.
-/

namespace PlugAgente.Wire

open Dart (ListSort compareTo)

variable {V : Type}

/-! ## The canonical form -/

/-- The order of entries by their keys. -/
def compareKeys (a b : String × Json V) : Ordering :=
  compareTo a.1.toList b.1.toList

instance : Std.TransCmp (compareKeys (V := V)) :=
  Dart.transCmp_compareTo fun entry : String × Json V => entry.1.toList

mutual

/-- The canonical form of a value. -/
def canonicalize (S : ListSort) : Json V → Json V
  | .map entries => .map (S.sort compareKeys (canonicalizeEntries S entries))
  | .list items => .list (canonicalizeItems S items)
  | .null => .null
  | .bool b => .bool b
  | .int n => .int n
  | .text t => .text t
  | .other v => .other v

def canonicalizeEntries (S : ListSort) : Entries V → Entries V
  | [] => []
  | (key, value) :: entries => (key, canonicalize S value) :: canonicalizeEntries S entries

def canonicalizeItems (S : ListSort) : List (Json V) → List (Json V)
  | [] => []
  | item :: items => canonicalize S item :: canonicalizeItems S items

end

mutual

/-- The same value, but for the order of entries. -/
def Json.Same : Json V → Json V → Prop
  | .null, .null => True
  | .bool b, .bool c => b = c
  | .int m, .int n => m = n
  | .text t, .text u => t = u
  | .other v, .other w => v = w
  | .list items, .list items' => SameItems items items'
  | .map entries, .map entries' => ∃ other : Entries V, other.Perm entries' ∧
      SameEntries entries other
  | _, _ => False

def SameItems : List (Json V) → List (Json V) → Prop
  | [], [] => True
  | a :: as, b :: bs => a.Same b ∧ SameItems as bs
  | _, _ => False

def SameEntries : Entries V → Entries V → Prop
  | [], [] => True
  | (k, a) :: as, (l, b) :: bs => k = l ∧ a.Same b ∧ SameEntries as bs
  | _, _ => False

end

/-! ## Entries -/

theorem canonicalizeEntries_eq (S : ListSort) (entries : Entries V) :
    canonicalizeEntries S entries =
      entries.map fun entry => (entry.1, canonicalize S entry.2) := by
  induction entries with
  | nil => rfl
  | cons entry entries ih =>
    rw [canonicalizeEntries, ih]
    rfl

theorem keys_canonicalizeEntries (S : ListSort) (entries : Entries V) :
    (canonicalizeEntries S entries).map Prod.fst = entries.map Prod.fst := by
  rw [canonicalizeEntries_eq, List.map_map]
  rfl

theorem distinctEntries_iff {entries : Entries V} :
    DistinctEntries entries ↔ ∀ entry ∈ entries, entry.2.Distinct := by
  induction entries with
  | nil => simp [DistinctEntries]
  | cons entry entries ih => simp [DistinctEntries, ih]

theorem exists_perm_map {α β : Type} {f : α → β} {l : List β} {k : List α}
    (h : l.Perm (k.map f)) : ∃ k' : List α, k'.Perm k ∧ k'.map f = l := by
  induction k generalizing l with
  | nil =>
    rw [List.map_nil, List.perm_nil] at h
    exact ⟨[], List.Perm.refl _, h.symm⟩
  | cons a k ih =>
    obtain ⟨before, after, rfl⟩ :=
      List.append_of_mem (h.symm.subset (List.mem_cons_self : f a ∈ (a :: k).map f))
    have hrest : (before ++ after).Perm (k.map f) :=
      List.Perm.cons_inv (List.perm_middle.symm.trans h)
    obtain ⟨k', hperm, hmap⟩ := ih hrest
    obtain ⟨k₁, k₂, rfl, rfl, rfl⟩ := List.map_eq_append_iff.mp hmap
    refine ⟨k₁ ++ a :: k₂, List.perm_middle.trans (hperm.cons a), ?_⟩
    rw [List.map_append, List.map_cons]

theorem sort_entries_eq_iff (S : ListSort) {entries entries' : Entries V}
    (hkeys : (entries.map Prod.fst).Nodup) :
    S.sort compareKeys entries = S.sort compareKeys entries' ↔ entries.Perm entries' := by
  constructor
  · intro h
    have hleft := S.perm compareKeys entries
    rw [h] at hleft
    exact hleft.symm.trans (S.perm compareKeys entries')
  · intro h
    have hmap : (S.sort compareKeys entries).map id = (S.sort compareKeys entries').map id := by
      refine S.map_sort ?_ ?_ (h.map id)
      · rintro a _ b _ rfl rfl
        rfl
      · intro a ha b hb htied
        have hkey : a.1 = b.1 := String.toList_inj.mp (Dart.compareTo_eq_iff.mp htied)
        exact List.inj_on_of_nodup_map hkeys ha hb hkey
    rwa [List.map_id, List.map_id] at hmap

theorem lookup_of_mem {entries : Entries V} (hkeys : (entries.map Prod.fst).Nodup)
    {entry : String × Json V} (hmem : entry ∈ entries) :
    entries.lookup entry.1 = some entry.2 := by
  induction entries with
  | nil => cases hmem
  | cons first entries ih =>
    obtain ⟨hfirst, hlater⟩ := List.nodup_cons.mp hkeys
    rcases List.mem_cons.mp hmem with rfl | hmem
    · exact List.lookup_cons_self
    · have hne : (entry.1 == first.1) = false := by
        rw [beq_eq_false_iff_ne]
        intro heq
        exact hfirst (heq ▸ List.mem_map_of_mem hmem)
      rw [List.lookup_cons, hne]
      exact ih hlater hmem

/-- The order of keys. -/
def compareStrings (a b : String) : Ordering :=
  compareTo a.toList b.toList

instance : Std.TransCmp compareStrings :=
  Dart.transCmp_compareTo String.toList

theorem map_lookup_sort (S : ListSort) {entries : Entries V} {keys : List String}
    (hkeys : (entries.map Prod.fst).Nodup) (hperm : keys.Perm (entries.map Prod.fst)) :
    (S.sort compareStrings keys).map (fun key => (key, (entries.lookup key).getD .null)) =
      S.sort compareKeys entries := by
  have hself : (entries.map Prod.fst).map (fun key => (key, (entries.lookup key).getD .null)) =
      entries := by
    rw [List.map_map]
    refine (List.map_congr_left fun entry hmem => ?_).trans (List.map_id entries)
    simp [lookup_of_mem hkeys hmem]
  have hleft := ((S.perm compareStrings keys).trans hperm).map
    fun key => (key, (entries.lookup key).getD .null)
  rw [hself] at hleft
  have hright := S.perm compareKeys entries
  refine List.Perm.eq_of_pairwise ?_ ?_ (S.ordered compareKeys entries)
    (hleft.trans hright.symm)
  · intro a b ha hb hab hba
    have htied := Std.OrientedCmp.isLE_antisymm hab hba
    have hkey : a.1 = b.1 := String.toList_inj.mp (Dart.compareTo_eq_iff.mp htied)
    exact List.inj_on_of_nodup_map hkeys (hleft.subset ha) (hright.subset hb) hkey
  · rw [List.pairwise_map]
    exact S.ordered compareStrings keys

/-! ## Same values -/

mutual

theorem canonicalize_eq_iff (S : ListSort) : ∀ v w : Json V, v.Distinct → w.Distinct →
    (canonicalize S v = canonicalize S w ↔ v.Same w)
  | .map entries, w, hv, hw => by
    cases w with
    | map entries' =>
      have hnodup : ((canonicalizeEntries S entries).map Prod.fst).Nodup := by
        rw [keys_canonicalizeEntries]
        exact hv.1
      rw [canonicalize, canonicalize, Json.map.injEq, sort_entries_eq_iff S hnodup]
      unfold Json.Same
      constructor
      · intro h
        rw [canonicalizeEntries_eq S entries'] at h
        obtain ⟨other, hperm, hmap⟩ := exists_perm_map h
        have hother : DistinctEntries other := distinctEntries_iff.mpr fun entry hmem =>
          distinctEntries_iff.mp hw.2 entry (hperm.subset hmem)
        refine ⟨other, hperm, (canonicalizeEntries_eq_iff S entries other hv.2 hother).mp ?_⟩
        rw [canonicalizeEntries_eq S other, hmap]
      · rintro ⟨other, hperm, hsame⟩
        have hother : DistinctEntries other := distinctEntries_iff.mpr fun entry hmem =>
          distinctEntries_iff.mp hw.2 entry (hperm.subset hmem)
        rw [(canonicalizeEntries_eq_iff S entries other hv.2 hother).mpr hsame,
          canonicalizeEntries_eq, canonicalizeEntries_eq]
        exact hperm.map _
    | _ => simp [canonicalize, Json.Same]
  | .list items, w, hv, hw => by
    cases w with
    | list items' =>
      rw [canonicalize, canonicalize, Json.list.injEq]
      exact canonicalizeItems_eq_iff S items items' hv hw
    | _ => simp [canonicalize, Json.Same]
  | .null, w, _, _ => by cases w <;> simp [canonicalize, Json.Same]
  | .bool _, w, _, _ => by cases w <;> simp [canonicalize, Json.Same]
  | .int _, w, _, _ => by cases w <;> simp [canonicalize, Json.Same]
  | .text _, w, _, _ => by cases w <;> simp [canonicalize, Json.Same]
  | .other _, w, _, _ => by cases w <;> simp [canonicalize, Json.Same]

theorem canonicalizeEntries_eq_iff (S : ListSort) : ∀ entries entries' : Entries V,
    DistinctEntries entries → DistinctEntries entries' →
      (canonicalizeEntries S entries = canonicalizeEntries S entries' ↔
        SameEntries entries entries')
  | [], [], _, _ => by simp [canonicalizeEntries, SameEntries]
  | [], _ :: _, _, _ => by simp [canonicalizeEntries, SameEntries]
  | _ :: _, [], _, _ => by simp [canonicalizeEntries, SameEntries]
  | (k, a) :: as, (l, b) :: bs, h, h' => by
    rw [canonicalizeEntries, canonicalizeEntries, List.cons.injEq, Prod.mk.injEq,
      canonicalize_eq_iff S a b h.1 h'.1, canonicalizeEntries_eq_iff S as bs h.2 h'.2]
    exact and_assoc

theorem canonicalizeItems_eq_iff (S : ListSort) : ∀ items items' : List (Json V),
    DistinctItems items → DistinctItems items' →
      (canonicalizeItems S items = canonicalizeItems S items' ↔ SameItems items items')
  | [], [], _, _ => by simp [canonicalizeItems, SameItems]
  | [], _ :: _, _, _ => by simp [canonicalizeItems, SameItems]
  | _ :: _, [], _, _ => by simp [canonicalizeItems, SameItems]
  | a :: as, b :: bs, h, h' => by
    rw [canonicalizeItems, canonicalizeItems, List.cons.injEq,
      canonicalize_eq_iff S a b h.1 h'.1, canonicalizeItems_eq_iff S as bs h.2 h'.2]
    rfl

end

/-! ## Canonical values -/

mutual

theorem distinct_canonicalize (S : ListSort) : ∀ v : Json V, v.Distinct →
    (canonicalize S v).Distinct
  | .map entries, h => by
    have hperm := S.perm compareKeys (canonicalizeEntries S entries)
    have hentries := distinctEntries_iff.mp (distinct_canonicalizeEntries S entries h.2)
    refine ⟨?_, distinctEntries_iff.mpr fun entry hmem => hentries entry (hperm.subset hmem)⟩
    refine (hperm.map Prod.fst).nodup_iff.mpr ?_
    rw [keys_canonicalizeEntries]
    exact h.1
  | .list items, h => distinct_canonicalizeItems S items h
  | .null, _ => trivial
  | .bool _, _ => trivial
  | .int _, _ => trivial
  | .text _, _ => trivial
  | .other _, _ => trivial

theorem distinct_canonicalizeEntries (S : ListSort) : ∀ entries : Entries V,
    DistinctEntries entries → DistinctEntries (canonicalizeEntries S entries)
  | [], _ => trivial
  | (_, value) :: entries, h =>
    ⟨distinct_canonicalize S value h.1, distinct_canonicalizeEntries S entries h.2⟩

theorem distinct_canonicalizeItems (S : ListSort) : ∀ items : List (Json V),
    DistinctItems items → DistinctItems (canonicalizeItems S items)
  | [], _ => trivial
  | item :: items, h => ⟨distinct_canonicalize S item h.1, distinct_canonicalizeItems S items h.2⟩

end

theorem canonicalText_eq_iff (D : Doubles V) (S : ListSort) {v w : Json V} (hv : v.Distinct)
    (hw : w.Distinct) :
    jsonEncode D (canonicalize S v) = jsonEncode D (canonicalize S w) ↔ v.Same w := by
  rw [jsonEncode_inj D (distinct_canonicalize S v hv) (distinct_canonicalize S w hw),
    canonicalize_eq_iff S v w hv hw]

end PlugAgente.Wire
