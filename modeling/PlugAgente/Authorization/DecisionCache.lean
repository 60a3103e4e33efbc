import PlugAgente.Dart.Text

/-!
# The authorization decision cache

`InMemoryAuthorizationDecisionCache` is a linked hash map in recency order with
a revision that every explicit invalidation raises.  The map is modelled as the
list of its entries, the oldest first.

The lemmas say what each operation can do to the entries: `get`, eviction and
invalidation only remove, and `put` adds the one entry it is given.
-/

namespace PlugAgente.Authorization

open PlugAgente.Dart

/-- `AuthorizationDecisionCacheEntry`. -/
structure DecisionEntry where
  allowed : Bool
  expiresAt : Int
  clientId : Option Text := none
  reason : Option String := none
  requestId : Option Text := none
  method : Option String := none
  deriving Repr, DecidableEq

def DecisionEntry.isExpiredAt (e : DecisionEntry) (now : Int) : Bool :=
  !decide (now < e.expiresAt)

/-- `InMemoryAuthorizationDecisionCache`. -/
structure DecisionCache where
  maxEntries : Nat := 8192
  revision : Nat := 0
  entries : List (Text × DecisionEntry) := []
  deriving Repr, DecidableEq

namespace DecisionCache

/-- `_entries.remove(key)`. -/
def remove (c : DecisionCache) (key : Text) : DecisionCache :=
  { c with entries := c.entries.filter (·.1 != key) }

/-- `_entries[key]`. -/
def lookup (c : DecisionCache) (key : Text) : Option DecisionEntry :=
  (c.entries.find? (·.1 == key)).map (·.2)

/-- `get`: a live entry moves to the end, an expired one is dropped. -/
def get (c : DecisionCache) (key : Text) (now : Int) : Option DecisionEntry × DecisionCache :=
  match c.lookup key with
  | none => (none, c)
  | some entry =>
    if entry.isExpiredAt now then (none, c.remove key)
    else
      (some entry, { c.remove key with entries := (c.remove key).entries ++ [(key, entry)] })

/-- `_evictExcess`: above the cap first the expired entries go, then the oldest. -/
def evictExcess (c : DecisionCache) (now : Int) : DecisionCache :=
  if c.maxEntries < c.entries.length then
    let live := c.entries.filter (!·.2.isExpiredAt now)
    { c with entries := live.drop (live.length - c.maxEntries) }
  else c

def put (c : DecisionCache) (key : Text) (entry : DecisionEntry) (now : Int) : DecisionCache :=
  { c.remove key with entries := (c.remove key).entries ++ [(key, entry)] }.evictExcess now

def invalidate (c : DecisionCache) (key : Text) : DecisionCache :=
  { c.remove key with revision := c.revision + 1 }

def invalidateForCredentialHash (c : DecisionCache) (credentialHash : Text) : DecisionCache :=
  { c with
    revision := c.revision + 1
    entries := c.entries.filter fun e => !(credentialHash ++ ['|']).isPrefixOf e.1 }

def invalidateAll (c : DecisionCache) : DecisionCache :=
  { c with revision := c.revision + 1, entries := [] }

/-! ## What the operations do to the entries -/

theorem mem_of_lookup {c : DecisionCache} {key : Text} {entry : DecisionEntry}
    (h : c.lookup key = some entry) : (key, entry) ∈ c.entries := by
  rw [lookup, Option.map_eq_some_iff] at h
  obtain ⟨⟨k, e⟩, hfind, rfl⟩ := h
  have hk : k = key := by simpa using List.find?_some hfind
  subst hk
  exact List.mem_of_find?_eq_some hfind

theorem mem_of_get {c : DecisionCache} {key : Text} {now : Int} {entry : DecisionEntry}
    (h : (c.get key now).1 = some entry) : (key, entry) ∈ c.entries := by
  unfold get at h
  cases hl : c.lookup key with
  | none => simp [hl] at h
  | some e =>
    simp only [hl] at h
    split at h
    · simp at h
    · simp only [Option.some.injEq] at h
      subst h
      exact mem_of_lookup hl

theorem mem_of_mem_remove {c : DecisionCache} {key : Text} {x : Text × DecisionEntry}
    (h : x ∈ (c.remove key).entries) : x ∈ c.entries :=
  (List.mem_filter.mp h).1

theorem mem_of_mem_get {c : DecisionCache} {key : Text} {now : Int} {x : Text × DecisionEntry}
    (h : x ∈ (c.get key now).2.entries) : x ∈ c.entries := by
  unfold get at h
  cases hl : c.lookup key with
  | none => simpa [hl] using h
  | some e =>
    simp only [hl] at h
    split at h
    · exact mem_of_mem_remove h
    · rcases List.mem_append.mp h with h | h
      · exact mem_of_mem_remove h
      · rw [List.mem_singleton] at h
        subst h
        exact mem_of_lookup hl

theorem mem_of_mem_evictExcess {c : DecisionCache} {now : Int} {x : Text × DecisionEntry}
    (h : x ∈ (c.evictExcess now).entries) : x ∈ c.entries := by
  unfold evictExcess at h
  split at h
  · exact (List.mem_filter.mp (List.mem_of_mem_drop h)).1
  · exact h

theorem mem_of_mem_put {c : DecisionCache} {key : Text} {entry : DecisionEntry} {now : Int}
    {x : Text × DecisionEntry} (h : x ∈ (c.put key entry now).entries) :
    x = (key, entry) ∨ x ∈ c.entries := by
  rcases List.mem_append.mp (mem_of_mem_evictExcess h) with h | h
  · exact Or.inr (mem_of_mem_remove h)
  · exact Or.inl (List.mem_singleton.mp h)

@[simp] theorem revision_remove (c : DecisionCache) (key : Text) :
    (c.remove key).revision = c.revision := rfl

@[simp] theorem revision_get (c : DecisionCache) (key : Text) (now : Int) :
    (c.get key now).2.revision = c.revision := by
  unfold get
  split
  · rfl
  · split <;> rfl

@[simp] theorem revision_evictExcess (c : DecisionCache) (now : Int) :
    (c.evictExcess now).revision = c.revision := by
  unfold evictExcess
  split <;> rfl

@[simp] theorem revision_put (c : DecisionCache) (key : Text) (entry : DecisionEntry) (now : Int) :
    (c.put key entry now).revision = c.revision := by
  simp [put]

theorem mem_invalidateForCredentialHash {c : DecisionCache} {hash : Text}
    {x : Text × DecisionEntry} :
    x ∈ (c.invalidateForCredentialHash hash).entries ↔
      x ∈ c.entries ∧ ¬ (hash ++ ['|']) <+: x.1 := by
  simp only [invalidateForCredentialHash, List.mem_filter, ← List.isPrefixOf_iff_prefix,
    Bool.not_eq_true', Bool.not_eq_true]

end DecisionCache

end PlugAgente.Authorization
