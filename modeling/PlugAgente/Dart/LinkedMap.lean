import Mathlib.Tactic

/-!
# Maps in insertion order

A map that keeps its entries in the order in which their keys were first written: a later
write to a key replaces its value in place.  `ofEntries` writes entries one after the other
into an empty map; `entries_ofEntries` and `length_ofEntries_iff` say that nothing is lost
exactly when the keys are distinct.  A `LinkedSet` is the keys of such a map.

Nothing here mentions the agent.
-/

namespace PlugAgente.Dart

/-- A map in insertion order. -/
structure LinkedMap (K V : Type) where
  entries : List (K × V)
  nodup : (entries.map Prod.fst).Nodup

namespace LinkedMap

variable {K V : Type}

@[ext] theorem ext {m n : LinkedMap K V} (h : m.entries = n.entries) : m = n := by
  cases m
  cases n
  cases h
  rfl

def keys (m : LinkedMap K V) : List K := m.entries.map Prod.fst

def empty : LinkedMap K V := ⟨[], List.nodup_nil⟩

/-- The first entries of a map. -/
def take (m : LinkedMap K V) (count : Nat) : LinkedMap K V :=
  ⟨m.entries.take count, m.nodup.sublist ((List.take_sublist count m.entries).map Prod.fst)⟩

variable [DecidableEq K]

instance [DecidableEq V] : DecidableEq (LinkedMap K V) := fun m n =>
  decidable_of_iff (m.entries = n.entries) ⟨ext, fun h => congrArg entries h⟩

/-! ## Writing an entry -/

/-- The keys after a write. -/
def putKey (keys : List K) (key : K) : List K := if key ∈ keys then keys else keys ++ [key]

/-- The entries after a write. -/
def putEntry (key : K) (value : V) : List (K × V) → List (K × V)
  | [] => [(key, value)]
  | (k, v) :: rest =>
    if k = key then (key, value) :: rest else (k, v) :: putEntry key value rest

theorem keys_putEntry (key : K) (value : V) (entries : List (K × V)) :
    (putEntry key value entries).map Prod.fst = putKey (entries.map Prod.fst) key := by
  induction entries with
  | nil => rfl
  | cons entry rest ih =>
    unfold putEntry putKey
    by_cases h : entry.1 = key
    · rw [if_pos h]
      simp [h]
    · rw [if_neg h, List.map_cons, ih]
      unfold putKey
      by_cases hmem : key ∈ rest.map Prod.fst
      · have hin : key ∈ List.map Prod.fst (entry :: rest) := List.mem_cons_of_mem _ hmem
        rw [if_pos hmem, if_pos hin]
        rfl
      · have hnot : key ∉ List.map Prod.fst (entry :: rest) := by
          rw [List.map_cons, List.mem_cons, not_or]
          exact ⟨fun h' => h h'.symm, hmem⟩
        rw [if_neg hmem, if_neg hnot]
        rfl

theorem nodup_putKey {keys : List K} (h : keys.Nodup) (key : K) : (putKey keys key).Nodup := by
  unfold putKey
  split
  · exact h
  · rename_i hnot
    exact List.nodup_append.mpr ⟨h, List.nodup_singleton key, by
      rintro a ha b hb rfl
      obtain rfl := List.mem_singleton.mp hb
      exact hnot ha⟩

theorem putEntry_of_notMem {key : K} {entries : List (K × V)} (value : V)
    (h : key ∉ entries.map Prod.fst) : putEntry key value entries = entries ++ [(key, value)] := by
  induction entries with
  | nil => rfl
  | cons entry rest ih =>
    rw [List.map_cons, List.mem_cons, not_or] at h
    unfold putEntry
    rw [if_neg (Ne.symm h.1), ih h.2]
    rfl

/-- `m[key] = value`. -/
def put (m : LinkedMap K V) (key : K) (value : V) : LinkedMap K V :=
  ⟨putEntry key value m.entries, by
    rw [keys_putEntry]
    exact nodup_putKey m.nodup key⟩

theorem keys_put (m : LinkedMap K V) (key : K) (value : V) :
    (m.put key value).keys = putKey m.keys key :=
  keys_putEntry key value m.entries

theorem entries_put_of_notMem {m : LinkedMap K V} {key : K} (value : V) (h : key ∉ m.keys) :
    (m.put key value).entries = m.entries ++ [(key, value)] :=
  putEntry_of_notMem value h

/-! ## Reading and removing -/

/-- `m[key]`. -/
def get (m : LinkedMap K V) (key : K) : Option V :=
  (m.entries.find? fun entry => entry.1 = key).map Prod.snd

/-- `m.removeWhere(p)`. -/
def removeWhere (m : LinkedMap K V) (p : K → V → Bool) : LinkedMap K V :=
  ⟨m.entries.filter fun entry => !p entry.1 entry.2,
    m.nodup.sublist (List.filter_sublist.map Prod.fst)⟩

theorem get_eq_some_iff {m : LinkedMap K V} {key : K} {value : V} :
    m.get key = some value ↔ (key, value) ∈ m.entries := by
  unfold get
  constructor
  · intro h
    obtain ⟨⟨found, value'⟩, hfind, hvalue⟩ := Option.map_eq_some_iff.mp h
    obtain rfl : value' = value := hvalue
    obtain rfl : found = key := by simpa using List.find?_some hfind
    exact List.mem_of_find?_eq_some hfind
  · intro hmem
    cases hfind : m.entries.find? fun entry => entry.1 = key with
    | none =>
      have := List.find?_eq_none.mp hfind _ hmem
      simp at this
    | some found =>
      have hsame : found.1 = key := by simpa using List.find?_some hfind
      have hfound := List.mem_of_find?_eq_some hfind
      rw [List.inj_on_of_nodup_map m.nodup hfound hmem hsame]
      rfl

theorem get_eq_none_iff {m : LinkedMap K V} {key : K} : m.get key = none ↔ key ∉ m.keys := by
  unfold get keys
  rw [Option.map_eq_none_iff, List.find?_eq_none, List.mem_map, not_exists]
  refine forall_congr' fun entry => ?_
  rw [decide_eq_true_eq, not_and]

theorem get_putEntry (key : K) (value : V) (entries : List (K × V)) (k : K) :
    ((putEntry key value entries).find? fun entry => entry.1 = k).map Prod.snd =
      if k = key then some value else (entries.find? fun entry => entry.1 = k).map Prod.snd := by
  induction entries with
  | nil =>
    by_cases h : key = k
    · simp [putEntry, h]
    · simp [putEntry, h, Ne.symm h]
  | cons entry rest ih =>
    unfold putEntry
    by_cases hentry : entry.1 = key
    · rw [if_pos hentry]
      by_cases h : key = k
      · simp [h]
      · simp [h, Ne.symm h, hentry]
    · rw [if_neg hentry]
      by_cases h : entry.1 = k
      · simp [← h, hentry]
      · simp only [List.find?_cons, h, decide_false]
        exact ih

theorem get_put (m : LinkedMap K V) (key : K) (value : V) (k : K) :
    (m.put key value).get k = if k = key then some value else m.get k :=
  get_putEntry key value m.entries k

theorem get_removeWhere {m : LinkedMap K V} {p : K → V → Bool} {key : K} {value : V} :
    (m.removeWhere p).get key = some value ↔ m.get key = some value ∧ p key value = false := by
  rw [get_eq_some_iff, get_eq_some_iff]
  unfold removeWhere
  rw [List.mem_filter]
  simp

/-- `m.remove(key)`. -/
def remove (m : LinkedMap K V) (key : K) : LinkedMap K V := m.removeWhere fun k _ => k = key

theorem get_remove (m : LinkedMap K V) (key k : K) :
    (m.remove key).get k = if k = key then none else m.get k := by
  ext value
  unfold remove
  rw [get_removeWhere]
  by_cases h : k = key <;> simp [h]

omit [DecidableEq K] in
theorem length_removeWhere_le (m : LinkedMap K V) (p : K → V → Bool) :
    (m.removeWhere p).entries.length ≤ m.entries.length :=
  List.length_filter_le _ _

theorem length_put_le (m : LinkedMap K V) (key : K) (value : V) :
    (m.put key value).entries.length ≤ m.entries.length + if key ∈ m.keys then 0 else 1 := by
  have hkeys : (m.put key value).keys.length = (putKey m.keys key).length := by rw [keys_put]
  have hput : (m.put key value).keys.length = (m.put key value).entries.length :=
    List.length_map _
  have hm : m.keys.length = m.entries.length := List.length_map _
  rw [hput] at hkeys
  rw [hkeys, ← hm]
  unfold putKey
  split
  · exact le_refl _
  · rw [List.length_append]
    exact le_refl _

/-! ## Writing entries one after the other -/

/-- The map after more writes. -/
def putAll (m : LinkedMap K V) (entries : List (K × V)) : LinkedMap K V :=
  entries.foldl (fun m entry => m.put entry.1 entry.2) m

def ofEntries (entries : List (K × V)) : LinkedMap K V := empty.putAll entries

theorem putAll_append (m : LinkedMap K V) (first second : List (K × V)) :
    m.putAll (first ++ second) = (m.putAll first).putAll second :=
  List.foldl_append

theorem keys_putAll (m : LinkedMap K V) (entries : List (K × V)) :
    (m.putAll entries).keys = (entries.map Prod.fst).foldl putKey m.keys := by
  induction entries generalizing m with
  | nil => rfl
  | cons entry rest ih =>
    have hrest := ih (m.put entry.1 entry.2)
    rw [keys_put] at hrest
    exact hrest

theorem keys_ofEntries (entries : List (K × V)) :
    (ofEntries entries).keys = (entries.map Prod.fst).foldl putKey [] :=
  keys_putAll empty entries

theorem mem_foldl_putKey {keys added : List K} {key : K} :
    key ∈ added.foldl putKey keys ↔ key ∈ keys ∨ key ∈ added := by
  induction added generalizing keys with
  | nil => simp
  | cons first added ih =>
    have hput : key ∈ putKey keys first ↔ key ∈ keys ∨ key = first := by
      unfold putKey
      split
      · rename_i hmem
        exact ⟨.inl, fun h => h.elim id fun h => h ▸ hmem⟩
      · rw [List.mem_append, List.mem_singleton]
    rw [List.foldl_cons, ih, hput, List.mem_cons, or_assoc]

theorem mem_keys_ofEntries {entries : List (K × V)} {key : K} :
    key ∈ (ofEntries entries).keys ↔ key ∈ entries.map Prod.fst := by
  rw [keys_ofEntries, mem_foldl_putKey]
  simp

theorem entries_putAll {m : LinkedMap K V} {entries : List (K × V)}
    (h : (m.keys ++ entries.map Prod.fst).Nodup) :
    (m.putAll entries).entries = m.entries ++ entries := by
  induction entries generalizing m with
  | nil => exact (List.append_nil _).symm
  | cons entry rest ih =>
    have hnew : entry.1 ∉ m.keys := by
      intro hmem
      exact (List.nodup_append.mp h).2.2 _ hmem _ List.mem_cons_self rfl
    have hput := entries_put_of_notMem entry.2 hnew
    have hkeys : (m.put entry.1 entry.2).keys = m.keys ++ [entry.1] := by
      rw [keys_put]
      exact if_neg hnew
    have hfresh : ((m.put entry.1 entry.2).keys ++ rest.map Prod.fst).Nodup := by
      rw [hkeys, List.append_assoc]
      exact h
    have hrest := ih hfresh
    rw [hput, List.append_assoc] at hrest
    exact hrest

theorem entries_ofEntries {entries : List (K × V)} (h : (entries.map Prod.fst).Nodup) :
    (ofEntries entries).entries = entries :=
  entries_putAll h

theorem ofEntries_entries (m : LinkedMap K V) : ofEntries m.entries = m :=
  ext (entries_ofEntries m.nodup)

theorem mem_of_mem_ofEntries {entries : List (K × V)} {entry : K × V}
    (h : entry ∈ (ofEntries entries).entries) : entry ∈ entries := by
  induction entries using List.reverseRecOn with
  | nil => exact absurd h List.not_mem_nil
  | append_singleton entries last ih =>
    unfold ofEntries at h ih
    rw [putAll_append] at h
    have hget := get_eq_some_iff.mpr h
    rw [putAll, List.foldl_cons, List.foldl_nil, get_put] at hget
    split_ifs at hget with heq
    · have hlast : entry = last := Prod.ext heq (Option.some.inj hget).symm
      exact List.mem_append_right _ (List.mem_singleton.mpr hlast)
    · exact List.mem_append_left _ (ih (get_eq_some_iff.mp hget))

theorem length_foldl_putKey {keys added : List K} (hnodup : keys.Nodup) :
    (added.foldl putKey keys).length ≤ keys.length + added.length ∧
      ((added.foldl putKey keys).length = keys.length + added.length →
        (keys ++ added).Nodup) := by
  induction added generalizing keys with
  | nil => exact ⟨le_refl _, fun _ => by rwa [List.append_nil]⟩
  | cons key added ih =>
    have hstep := ih (nodup_putKey hnodup key)
    rw [List.foldl_cons, List.length_cons]
    by_cases hmem : key ∈ keys
    · have hsame : putKey keys key = keys := if_pos hmem
      rw [hsame] at hstep ⊢
      exact ⟨by omega, fun h => by omega⟩
    · have hnew : putKey keys key = keys ++ [key] := if_neg hmem
      rw [hnew, List.length_append, List.length_singleton] at hstep
      rw [hnew]
      refine ⟨by omega, fun h => ?_⟩
      have hall := hstep.2 (by omega)
      rwa [List.append_assoc] at hall

theorem length_ofEntries_iff {entries : List (K × V)} :
    (ofEntries entries).entries.length = entries.length ↔ (entries.map Prod.fst).Nodup := by
  constructor
  · intro h
    have hkeys : ((entries.map Prod.fst).foldl putKey []).length =
        (entries.map Prod.fst).length := by
      rw [← keys_ofEntries, keys, List.length_map, List.length_map, h]
    exact (length_foldl_putKey List.nodup_nil).2 (by simpa using hkeys)
  · intro h
    rw [entries_ofEntries h]

end LinkedMap

/-! ## Sets -/

/-- A set in insertion order. -/
structure LinkedSet (α : Type) where
  items : List α
  nodup : items.Nodup
  deriving DecidableEq

namespace LinkedSet

variable {α : Type}

variable [DecidableEq α]

/-- `toSet`. -/
def ofList (items : List α) : LinkedSet α :=
  ⟨(LinkedMap.ofEntries (items.map fun x => (x, ()))).keys,
    (LinkedMap.ofEntries (items.map fun x => (x, ()))).nodup⟩

omit [DecidableEq α] in
theorem map_fst_items (items : List α) : (items.map fun x => (x, ())).map Prod.fst = items := by
  rw [List.map_map]
  exact List.map_id _

theorem mem_ofList {items : List α} {x : α} : x ∈ (ofList items).items ↔ x ∈ items := by
  unfold ofList
  rw [LinkedMap.mem_keys_ofEntries, map_fst_items]

end LinkedSet

end PlugAgente.Dart
