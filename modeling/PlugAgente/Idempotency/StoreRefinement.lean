import PlugAgente.Idempotency.DriftStore

/-!
# The store refines a map with expiry

`Agrees` is the refinement relation: every entry of the cache and every row of the table is of the
latest write of its key, and ends no later.  What `getRecord` returns is then the record of the
map.

A write breaks it in four ways, which `SetHonoured` excludes: the cache gets the response as it
is and the table one that is sanitised when it is read; a write without a fingerprint leaves the
fingerprint of the row before; a full table evicts a row also for a key that is there; and the
row it evicts is the one with the least stamp, expired or not.
-/

namespace PlugAgente.Idempotency

variable {V J : Type}

/-- An entry of the cache that is of the latest write of its key. -/
def L1Entry.Of (e : String × L1Entry V) (m : ExpiringMap V) : Prop :=
  ∃ written, m e.1 = some written ∧ e.2.record = written.record ∧ e.2.expiresAt ≤ written.expiresAt

/-- A row that is of the latest write of its key. -/
def CacheRow.Of (codec : ResponseCodec V J) (row : CacheRow J) (m : ExpiringMap V) : Prop :=
  ∃ written, m row.cacheKey = some written ∧
    row.responseJson = codec.jsonEncode written.record.response ∧
    sanitizeRpcResponse written.record.response = written.record.response ∧
    row.requestFingerprint = written.record.requestFingerprint ∧
    row.expiresAt * 1000000 ≤ written.expiresAt

/-- The cache and the table are of the latest writes, and the table is within its bound. -/
structure Agrees (config : StoreConfig) (codec : ResponseCodec V J) (s : StoreState V J) : Prop where
  l1 : ∀ e ∈ s.store.l1, L1Entry.Of e s.map
  rows : ∀ row ∈ s.store.rows, row.Of codec s.map
  length : s.store.rows.length ≤ config.maxEntries
  keys : (s.store.rows.map (·.cacheKey)).Nodup

/-- A row with the least stamp. -/
def IsOldest (rows : List (CacheRow J)) (row : CacheRow J) : Prop :=
  ∀ other ∈ rows, row.updatedAt ≤ other.updatedAt

/-- A write that the store honours. -/
structure SetHonoured (config : StoreConfig) (s : DriftIdempotencyStore V J) (key : String)
    (response : RpcResponse V) (requestFingerprint : Option String) (now : Nat) : Prop where
  sanitized : sanitizeRpcResponse response = response
  fingerprint : s.rows.length < config.maxEntries → requestFingerprint = none →
    ∀ row ∈ s.rows, row.cacheKey = key → row.requestFingerprint = none
  present : config.maxEntries ≤ s.rows.length → key ∈ s.rows.map (·.cacheKey) →
    ∀ row ∈ s.rows, IsOldest s.rows row → row.cacheKey = key
  expired : config.maxEntries ≤ s.rows.length → (∃ row ∈ s.rows, row.IsExpired now) →
    ∀ row ∈ s.rows, IsOldest s.rows row → row.IsExpired now

/-- The store honours the writes. -/
def Honoured (config : StoreConfig) (s : StoreState V J) : StoreAction V → Prop
  | .set key response _ requestFingerprint now _ =>
    SetHonoured config s.store key response requestFingerprint now
  | _ => True

/-! ## What is taken -/

theorem eq_of_cacheKey_eq {rows : List (CacheRow J)} (hkeys : (rows.map (·.cacheKey)).Nodup)
    {row other : CacheRow J} (hrow : row ∈ rows) (hother : other ∈ rows)
    (h : row.cacheKey = other.cacheKey) : row = other :=
  List.inj_on_of_nodup_map hkeys hrow hother h

theorem MayTake.one {rows : List (CacheRow J)} {keys : List String} (h : MayTake rows 1 keys)
    (hkeys : (rows.map (·.cacheKey)).Nodup) (hpos : 1 ≤ rows.length) :
    ∃ row ∈ rows, keys = [row.cacheKey] ∧ IsOldest rows row := by
  obtain ⟨-, hlength, hmem, hleast⟩ := h
  rw [Nat.min_eq_left hpos] at hlength
  obtain ⟨key, hkey⟩ := List.length_eq_one_iff.mp hlength
  rw [hkey] at hmem hleast
  obtain ⟨row, hrow, hrowKey⟩ := List.mem_map.mp (hmem key (by simp))
  refine ⟨row, hrow, by rw [hkey, hrowKey], ?_⟩
  intro other hother
  by_cases hsame : other.cacheKey = key
  · rw [eq_of_cacheKey_eq hkeys hrow hother (hrowKey.trans hsame.symm)]
  · exact hleast row hrow (by simp [hrowKey]) other hother (by simpa using hsame)

theorem MayTake.none {rows : List (CacheRow J)} {keys : List String} (h : MayTake rows 0 keys) :
    keys = [] := by
  have hlength := h.2.1
  rw [Nat.zero_min] at hlength
  exact List.length_eq_zero_iff.mp hlength

namespace DriftIdempotencyStore

variable {config : StoreConfig} {codec : ResponseCodec V J} {s s' : DriftIdempotencyStore V J}

theorem evicted_cases {evicted : List String} (hlength : s.rows.length ≤ config.maxEntries)
    (hkeys : (s.rows.map (·.cacheKey)).Nodup) (h : MayTake s.rows (s.excess config) evicted) :
    s.rows.length < config.maxEntries ∧ evicted = [] ∨
      config.maxEntries ≤ s.rows.length ∧
        ∃ row ∈ s.rows, evicted = [row.cacheKey] ∧ IsOldest s.rows row := by
  by_cases hfull : config.maxEntries ≤ s.rows.length
  · right
    have hpos := config.maxEntries_pos
    have hone : s.excess config = 1 := by
      rw [excess, if_pos hfull]
      omega
    rw [hone] at h
    exact ⟨hfull, h.one hkeys (by omega)⟩
  · left
    rw [excess, if_neg hfull] at h
    exact ⟨by omega, h.none⟩

/-! ## The cache -/

theorem mem_l1Invalidate {key : String} {e : String × L1Entry V} :
    e ∈ (s.l1Invalidate key).l1 ↔ e ∈ s.l1 ∧ e.1 ≠ key := by
  simp [l1Invalidate]

theorem l1Get_some {key : String} {now : Nat} {record : IdempotencyRecord V}
    (h : s.l1Get key now = (some record, s')) :
    ∃ entry, (key, entry) ∈ s.l1 ∧ entry.record = record ∧ now ≤ entry.expiresAt := by
  rw [l1Get] at h
  split at h
  · cases h
  · rename_i k entry hfound
    have hkey : k = key := by simpa using List.find?_some hfound
    rw [hkey] at hfound
    split at h
    · cases h
    · rename_i hnow
      rw [Prod.mk.injEq, Option.some.injEq] at h
      exact ⟨entry, List.mem_of_find?_eq_some hfound, h.1, Nat.not_lt.mp hnow⟩

theorem l1Get_rows (key : String) (now : Nat) : (s.l1Get key now).2.rows = s.rows := by
  rw [l1Get]
  split
  · rfl
  · split <;> rfl

theorem mem_l1Get {key : String} {now : Nat} {e : String × L1Entry V}
    (h : e ∈ (s.l1Get key now).2.l1) : e ∈ s.l1 := by
  rw [l1Get] at h
  split at h
  · exact h
  · rename_i k entry hfound
    have hkey : k = key := by simpa using List.find?_some hfound
    split at h
    · exact (mem_l1Invalidate.mp h).1
    · rcases List.mem_append.mp h with hold | hnew
      · exact (mem_l1Invalidate.mp hold).1
      · rw [List.mem_singleton.mp hnew, ← hkey]
        exact List.mem_of_find?_eq_some hfound

theorem mem_l1Put {key : String} {entry : L1Entry V} {e : String × L1Entry V}
    (h : e ∈ (s.l1Put config key entry).l1) : e ∈ s.l1 ∧ e.1 ≠ key ∨ e = (key, entry) := by
  rcases List.mem_append.mp h with hold | hnew
  · exact Or.inl (mem_l1Invalidate.mp (List.mem_of_mem_drop hold))
  · exact Or.inr (List.mem_singleton.mp hnew)

/-! ## The table -/

theorem mem_of_row? {key : String} {row : CacheRow J} (h : s.row? key = some row) :
    row ∈ s.rows ∧ row.cacheKey = key :=
  ⟨List.mem_of_find?_eq_some h, by simpa using List.find?_some h⟩

theorem mem_touch {touched : CacheRow J} {now : Nat} {row : CacheRow J}
    (h : row ∈ (s.touch config touched now).rows) :
    ∃ old ∈ s.rows, ∃ stamp, row = { old with updatedAt := stamp } := by
  rw [touch] at h
  split at h
  · obtain ⟨old, hold, hrow⟩ := Rows.mem_write.mp h
    refine ⟨old, hold, ?_⟩
    split at hrow
    · exact ⟨_, hrow.symm⟩
    · exact ⟨old.updatedAt, hrow.symm⟩
  · exact ⟨row, h, row.updatedAt, rfl⟩

theorem touch_keys (touched : CacheRow J) (now : Nat) :
    (s.touch config touched now).rows.map (·.cacheKey) = s.rows.map (·.cacheKey) := by
  rw [touch]
  split
  · apply Rows.map_write
    intro row
    rfl
  · rfl

theorem touch_l1 (touched : CacheRow J) (now : Nat) : (s.touch config touched now).l1 = s.l1 := by
  rw [touch]
  split <;> rfl

theorem tableGet_some {key : String} {now : Nat} {record : IdempotencyRecord V}
    (h : s.tableGet config codec key now = (some record, s')) :
    ∃ row ∈ s.rows, row.cacheKey = key ∧ now ≤ row.expiresAt * 1000000 ∧
      (∃ parsed, codec.parseResponse row.responseJson = some parsed ∧
        record = ⟨sanitizeRpcResponse parsed, row.requestFingerprint⟩) ∧
      s' = (s.touch config row now).l1Put config key ⟨record, row.expiresAt * 1000000⟩ := by
  rw [tableGet] at h
  split at h
  · cases h
  · rename_i row hrow
    obtain ⟨hmem, hkey⟩ := mem_of_row? hrow
    split at h
    · cases h
    · rename_i hnow
      dsimp only at h
      split at h
      · cases h
      · rename_i parsed hparsed
        rw [Prod.mk.injEq, Option.some.injEq] at h
        rw [← h.1, ← h.2]
        exact ⟨row, hmem, hkey, Nat.not_lt.mp hnow, ⟨parsed, hparsed, rfl⟩, rfl⟩

/-- Rows are gone, or have another stamp. -/
structure Shrunk (s s' : DriftIdempotencyStore V J) : Prop where
  rows : ∀ row ∈ s'.rows, ∃ old ∈ s.rows, ∃ stamp, row = { old with updatedAt := stamp }
  keys : (s'.rows.map (·.cacheKey)).Sublist (s.rows.map (·.cacheKey))

theorem Shrunk.touch (row : CacheRow J) (now : Nat) : Shrunk s (s.touch config row now) :=
  ⟨fun _ hrow => mem_touch hrow, by rw [touch_keys]⟩

theorem Shrunk.filter (h : Shrunk s s') (p : CacheRow J → Bool) :
    Shrunk s { s' with rows := s'.rows.filter p } :=
  ⟨fun row hrow => h.rows row (List.mem_filter.mp hrow).1,
    (List.filter_sublist.map _).trans h.keys⟩

theorem Shrunk.refl : Shrunk s s :=
  ⟨fun row hrow => ⟨row, hrow, row.updatedAt, rfl⟩, List.Sublist.refl _⟩

theorem tableGet_none {key : String} {now : Nat} (h : s.tableGet config codec key now = (none, s')) :
    Shrunk s s' ∧ ∀ e ∈ s'.l1, e ∈ s.l1 := by
  rw [tableGet] at h
  split at h
  · rw [← (Prod.mk.inj h).2]
    exact ⟨⟨Shrunk.refl.rows, Shrunk.refl.keys⟩, fun e he => (mem_l1Invalidate.mp he).1⟩
  · rename_i row hrow
    split at h
    · rw [← (Prod.mk.inj h).2]
      have hshrunk := (Shrunk.refl (s := s)).filter fun r => r.cacheKey ≠ key
      exact ⟨⟨hshrunk.rows, hshrunk.keys⟩, fun e he => (mem_l1Invalidate.mp he).1⟩
    · dsimp only at h
      split at h
      · rw [← (Prod.mk.inj h).2]
        have htouch : Shrunk s (s.touch config row now) := Shrunk.touch row now
        have hshrunk := htouch.filter fun r => r.cacheKey ≠ key
        refine ⟨⟨hshrunk.rows, hshrunk.keys⟩, ?_⟩
        intro e he
        have hmem : e ∈ (s.touch config row now).l1 := (mem_l1Invalidate.mp he).1
        rw [touch_l1] at hmem
        exact hmem
      · cases h

end DriftIdempotencyStore

/-! ## Steps -/

open DriftIdempotencyStore

variable {config : StoreConfig} {codec : ResponseCodec V J} {s : StoreState V J}

theorem CacheRow.Of.stamp {row : CacheRow J} {m : ExpiringMap V} (h : row.Of codec m) (stamp : Nat) :
    CacheRow.Of codec { row with updatedAt := stamp } m :=
  h

theorem Agrees.shrunk (h : Agrees config codec s) {store : DriftIdempotencyStore V J}
    (hshrunk : Shrunk s.store store) (hl1 : ∀ e ∈ store.l1, L1Entry.Of e s.map) :
    Agrees config codec { s with store := store } := by
  refine ⟨hl1, ?_, ?_, h.keys.sublist hshrunk.keys⟩
  · intro row hrow
    obtain ⟨old, hold, stamp, hstamp⟩ := hshrunk.rows row hrow
    rw [hstamp]
    exact (h.rows old hold).stamp stamp
  · have hlength := hshrunk.keys.length_le
    rw [List.length_map, List.length_map] at hlength
    exact hlength.trans h.length

theorem Agrees.l1Get (h : Agrees config codec s) (key : String) (now : Nat) :
    Agrees config codec { s with store := (s.store.l1Get key now).2 } := by
  have hrows := l1Get_rows (s := s.store) key now
  refine ⟨fun e he => h.l1 e (mem_l1Get he), ?_, ?_, ?_⟩
  · rw [hrows]
    exact h.rows
  · rw [hrows]
    exact h.length
  · rw [hrows]
    exact h.keys

theorem Agrees.l1Get_some (h : Agrees config codec s) {key : String} {now : Nat}
    {record : IdempotencyRecord V} {store : DriftIdempotencyStore V J}
    (hget : s.store.l1Get key now = (some record, store)) : s.map.get key now = some record := by
  obtain ⟨entry, hentry, hrecord, hnow⟩ := DriftIdempotencyStore.l1Get_some hget
  obtain ⟨written, hwritten, hsame, hends⟩ := h.l1 _ hentry
  rw [← hrecord, show entry.record = written.record from hsame]
  exact ExpiringMap.get_eq_some hwritten (hnow.trans hends)

theorem CacheRow.Of.read {row : CacheRow J} {m : ExpiringMap V} (h : row.Of codec m)
    {parsed : RpcResponse V} (hparsed : codec.parseResponse row.responseJson = some parsed) :
    ∃ written, m row.cacheKey = some written ∧ row.expiresAt * 1000000 ≤ written.expiresAt ∧
      ⟨sanitizeRpcResponse parsed, row.requestFingerprint⟩ = written.record := by
  obtain ⟨written, hwritten, hjson, hsanitized, hfingerprint, hends⟩ := h
  rw [hjson, codec.lossless, Option.some.injEq] at hparsed
  refine ⟨written, hwritten, hends, ?_⟩
  rw [← hparsed, hsanitized, hfingerprint]

theorem Agrees.tableGet_some (h : Agrees config codec s) {key : String} {now : Nat}
    {record : IdempotencyRecord V} {store : DriftIdempotencyStore V J}
    (hget : s.store.tableGet config codec key now = (some record, store)) :
    s.map.get key now = some record ∧ Agrees config codec { s with store := store } := by
  obtain ⟨row, hrow, hkey, hnow, ⟨parsed, hparsed, hrecord⟩, hstore⟩ :=
    DriftIdempotencyStore.tableGet_some hget
  obtain ⟨written, hwritten, hends, hread⟩ := (h.rows row hrow).read hparsed
  rw [hkey] at hwritten
  rw [hread] at hrecord
  constructor
  · rw [hrecord]
    exact ExpiringMap.get_eq_some hwritten (hnow.trans hends)
  · rw [hstore]
    have hshrunk : Shrunk s.store (s.store.touch config row now) := Shrunk.touch row now
    refine h.shrunk ⟨hshrunk.rows, hshrunk.keys⟩ ?_
    intro e he
    rcases mem_l1Put he with ⟨hold, -⟩ | hnew
    · rw [touch_l1] at hold
      exact h.l1 e hold
    · rw [hnew]
      exact ⟨written, hwritten, hrecord, hends⟩

theorem Agrees.tableGet (h : Agrees config codec s) (key : String) (now : Nat) :
    Agrees config codec { s with store := (s.store.tableGet config codec key now).2 } := by
  rcases hget : s.store.tableGet config codec key now with ⟨_ | record, store⟩
  · obtain ⟨hshrunk, hl1⟩ := tableGet_none hget
    exact h.shrunk hshrunk fun e he => h.l1 e (hl1 e he)
  · exact (h.tableGet_some hget).2

theorem Agrees.getRecord_some (h : Agrees config codec s) {key : String} {now : Nat}
    {record : IdempotencyRecord V} {store : DriftIdempotencyStore V J}
    (hget : s.store.getRecord config codec key now = (some record, store)) :
    s.map.get key now = some record := by
  rw [getRecord] at hget
  have hl1 := h.l1Get key now
  rcases hfound : s.store.l1Get key now with ⟨_ | found, store'⟩
  · rw [hfound] at hget hl1
    exact (hl1.tableGet_some hget).1
  · rw [hfound] at hget
    rw [Prod.mk.injEq, Option.some.injEq] at hget
    rw [← hget.1]
    exact h.l1Get_some hfound

theorem Agrees.getRecord (h : Agrees config codec s) (key : String) (now : Nat) :
    Agrees config codec { s with store := (s.store.getRecord config codec key now).2 } := by
  rw [DriftIdempotencyStore.getRecord]
  have hl1 := h.l1Get key now
  rcases hfound : s.store.l1Get key now with ⟨_ | found, store'⟩
  · rw [hfound] at hl1
    exact hl1.tableGet key now
  · rw [hfound] at hl1
    exact hl1

theorem Agrees.purgeExpiredEntries (h : Agrees config codec s) (reference : Nat) :
    Agrees config codec { s with store := s.store.purgeExpiredEntries reference } := by
  have hshrunk := (Shrunk.refl (s := s.store)).filter fun row => ¬ row.expiresAt < seconds reference
  exact h.shrunk ⟨hshrunk.rows, hshrunk.keys⟩ h.l1

/-! ## Writes -/

section Set

variable {key : String} {response : RpcResponse V} {ttl : Int} {requestFingerprint : Option String}
  {now : Nat} {evicted : List String}

/-- A row after an upsert is one of another key, or has what was written; its fingerprint is the
one that was written, or without one that of the row before. -/
theorem mem_upsert {store : DriftIdempotencyStore V J} {new row : CacheRow J}
    (h : row ∈ (store.upsert new).rows) :
    row ∈ store.rows ∧ row.cacheKey ≠ new.cacheKey ∨ row = new ∨
      ∃ old ∈ store.rows, old.cacheKey = new.cacheKey ∧
        row = { new with requestFingerprint := new.requestFingerprint.or old.requestFingerprint } := by
  rw [upsert] at h
  dsimp only at h
  split at h
  · obtain ⟨old, hold, hrow⟩ := Rows.mem_write.mp h
    by_cases hkey : old.cacheKey = new.cacheKey
    · rw [if_pos (by simpa using hkey)] at hrow
      exact Or.inr (Or.inr ⟨old, hold, hkey, hrow.symm⟩)
    · rw [if_neg (by simpa using hkey)] at hrow
      rw [← hrow]
      exact Or.inl ⟨hold, hkey⟩
  · rename_i hnone
    rcases List.mem_append.mp h with hold | hnew
    · left
      refine ⟨hold, ?_⟩
      intro hkey
      apply hnone
      rw [List.any_eq_true]
      exact ⟨row, hold, by simpa using hkey⟩
    · exact Or.inr (Or.inl (List.mem_singleton.mp hnew))

theorem mem_upsert_of_ne {store : DriftIdempotencyStore V J} {new row : CacheRow J}
    (h : row ∈ store.rows) (hkey : row.cacheKey ≠ new.cacheKey) : row ∈ (store.upsert new).rows := by
  rw [upsert]
  dsimp only
  split
  · exact Rows.mem_write.mpr ⟨row, h, by rw [if_neg (by simpa using hkey)]⟩
  · exact List.mem_append_left _ h

theorem upsert_keys (store : DriftIdempotencyStore V J) (new : CacheRow J) :
    (store.upsert new).rows.map (·.cacheKey) = store.rows.map (·.cacheKey) ∨
      new.cacheKey ∉ store.rows.map (·.cacheKey) ∧
        (store.upsert new).rows.map (·.cacheKey) = store.rows.map (·.cacheKey) ++ [new.cacheKey] := by
  rw [upsert]
  dsimp only
  split
  · left
    rw [Rows.write, List.map_map]
    apply List.map_congr_left
    intro row _
    rw [Function.comp_apply]
    split
    · rename_i hkey
      exact (of_decide_eq_true hkey).symm
    · rfl
  · rename_i hnone
    right
    rw [List.map_append]
    refine ⟨?_, rfl⟩
    intro hmem
    obtain ⟨row, hrow, hkey⟩ := List.mem_map.mp hmem
    apply hnone
    rw [List.any_eq_true]
    exact ⟨row, hrow, by simpa using hkey⟩

theorem Agrees.rows_set (h : Agrees config codec s)
    (hhonoured : SetHonoured config s.store key response requestFingerprint now)
    (htake : MayTake s.store.rows (s.store.excess config) evicted) {row : CacheRow J}
    (hrow : row ∈ (s.store.set config codec key response ttl requestFingerprint now evicted).rows) :
    row ∈ s.store.rows ∧ row.cacheKey ≠ key ∨
      row.cacheKey = key ∧ row.responseJson = codec.jsonEncode response ∧
        row.requestFingerprint = requestFingerprint ∧
        row.expiresAt = seconds (expiresAt config ttl now) := by
  rcases mem_upsert hrow with ⟨hold, hkey⟩ | hnew | ⟨old, hold, hkey, hnew⟩
  · exact Or.inl ⟨(List.mem_filter.mp hold).1, hkey⟩
  · right
    rw [hnew]
    exact ⟨rfl, rfl, rfl, rfl⟩
  · right
    obtain ⟨hmem, hkept⟩ := List.mem_filter.mp hold
    have hkept : old.cacheKey ∉ evicted := by simpa using hkept
    have hfingerprint : requestFingerprint.or old.requestFingerprint = requestFingerprint := by
      cases requestFingerprint with
      | some fingerprint => rfl
      | none =>
        rcases evicted_cases h.length h.keys htake with ⟨hroom, -⟩ | ⟨hfull, oldest, ho, hevicted, hleast⟩
        · exact hhonoured.fingerprint hroom rfl old hmem hkey
        · -- The row that is evicted has the key.
          have hoKey : oldest.cacheKey = key :=
            hhonoured.present hfull (List.mem_map.mpr ⟨old, hmem, hkey⟩) oldest ho hleast
          rw [hevicted, hoKey] at hkept
          exact absurd (List.mem_singleton.mpr hkey) hkept
    rw [hnew]
    exact ⟨rfl, rfl, hfingerprint, rfl⟩

theorem upsert_bound {store : DriftIdempotencyStore V J} (new : CacheRow J) {bound : Nat}
    (hlength : store.rows.length < bound) (hkeys : (store.rows.map (·.cacheKey)).Nodup) :
    (store.upsert new).rows.length ≤ bound ∧ ((store.upsert new).rows.map (·.cacheKey)).Nodup := by
  rcases upsert_keys store new with hsame | ⟨hnew, hadded⟩
  · rw [hsame]
    have hlen := congrArg List.length hsame
    rw [List.length_map, List.length_map] at hlen
    exact ⟨by omega, hkeys⟩
  · rw [hadded]
    have hlen := congrArg List.length hadded
    rw [List.length_append, List.length_map, List.length_map, List.length_singleton] at hlen
    refine ⟨by omega, ?_⟩
    rw [List.nodup_append]
    refine ⟨hkeys, List.nodup_singleton _, ?_⟩
    intro a ha b hb hab
    rw [hab, List.mem_singleton.mp hb] at ha
    exact hnew ha

theorem Agrees.room (h : Agrees config codec s)
    (htake : MayTake s.store.rows (s.store.excess config) evicted) :
    (s.store.evict evicted).rows.length < config.maxEntries := by
  rcases evicted_cases h.length h.keys htake with ⟨hroom, -⟩ | ⟨-, oldest, ho, hevicted, -⟩
  · exact Nat.lt_of_le_of_lt (List.length_filter_le _ _) hroom
  · apply Nat.lt_of_lt_of_le _ h.length
    apply List.length_filter_lt_length_iff_exists.mpr
    exact ⟨oldest, ho, by simp [hevicted]⟩

theorem L1Entry.Of.set {e : String × L1Entry V} {m : ExpiringMap V} (h : L1Entry.Of e m)
    (hkey : e.1 ≠ key) (written : Written V) : L1Entry.Of e (m.set key written) := by
  rw [L1Entry.Of, ExpiringMap.set_of_ne _ hkey]
  exact h

theorem CacheRow.Of.set {row : CacheRow J} {m : ExpiringMap V} (h : row.Of codec m)
    (hkey : row.cacheKey ≠ key) (written : Written V) : row.Of codec (m.set key written) := by
  rw [CacheRow.Of, ExpiringMap.set_of_ne _ hkey]
  exact h

theorem Agrees.set (h : Agrees config codec s)
    (hhonoured : SetHonoured config s.store key response requestFingerprint now)
    (htake : MayTake s.store.rows (s.store.excess config) evicted) :
    Agrees config codec
      { store := s.store.set config codec key response ttl requestFingerprint now evicted
        map := s.map.set key ⟨⟨response, requestFingerprint⟩, expiresAt config ttl now⟩ } := by
  have hkeys : ((s.store.evict evicted).rows.map (·.cacheKey)).Nodup :=
    h.keys.sublist (List.filter_sublist.map _)
  obtain ⟨hlength, hkeys⟩ := upsert_bound _ (h.room htake) hkeys
  refine ⟨?_, ?_, hlength, hkeys⟩
  · intro e he
    rcases mem_l1Put he with ⟨hold, hkey⟩ | hnew
    · exact (h.l1 e hold).set hkey _
    · rw [hnew]
      exact ⟨_, ExpiringMap.set_self _ _ _, rfl, le_refl _⟩
  · intro row hrow
    rcases h.rows_set hhonoured htake hrow with ⟨hold, hkey⟩ | ⟨hkey, hjson, hfingerprint, hends⟩
    · exact (h.rows row hold).set hkey _
    · rw [CacheRow.Of, hkey, hjson, hfingerprint, hends]
      exact ⟨_, ExpiringMap.set_self _ _ _, rfl, hhonoured.sanitized, rfl, seconds_mul_le _⟩

theorem Agrees.keeps_others (h : Agrees config codec s)
    (hhonoured : SetHonoured config s.store key response requestFingerprint now)
    (htake : MayTake s.store.rows (s.store.excess config) evicted)
    (hpresent : key ∈ s.store.rows.map (·.cacheKey)) {row : CacheRow J} (hrow : row ∈ s.store.rows)
    (hkey : row.cacheKey ≠ key) :
    row ∈ (s.store.set config codec key response ttl requestFingerprint now evicted).rows := by
  apply mem_upsert_of_ne _ hkey
  apply List.mem_filter.mpr
  refine ⟨hrow, ?_⟩
  rcases evicted_cases h.length h.keys htake with ⟨-, hnone⟩ | ⟨hfull, oldest, ho, hevicted, hleast⟩
  · simp [hnone]
  · have hoKey : oldest.cacheKey = key := hhonoured.present hfull hpresent oldest ho hleast
    simp [hevicted, hoKey, hkey]

theorem Agrees.evicts_expired (h : Agrees config codec s)
    (hhonoured : SetHonoured config s.store key response requestFingerprint now)
    (htake : MayTake s.store.rows (s.store.excess config) evicted) {row : CacheRow J}
    (hrow : row ∈ s.store.rows) (hevicted : row.cacheKey ∈ evicted) (hexpired : ¬ row.IsExpired now) :
    ∀ other ∈ s.store.rows, ¬ other.IsExpired now := by
  rcases evicted_cases h.length h.keys htake with ⟨-, hnone⟩ | ⟨hfull, oldest, ho, hone, hleast⟩
  · rw [hnone] at hevicted
    cases hevicted
  · rw [hone, List.mem_singleton] at hevicted
    have hsame : row = oldest := eq_of_cacheKey_eq h.keys hrow ho hevicted
    rw [hsame] at hexpired
    intro other hother hotherExpired
    exact hexpired (hhonoured.expired hfull ⟨other, hother, hotherExpired⟩ oldest ho hleast)

end Set

/-! ## The result -/

theorem Agrees.step (h : Agrees config codec s) {a : StoreAction V} {s' : StoreState V J}
    (hhonoured : Honoured config s a) (hstep : (storeMachine config codec).step s a = some s') :
    Agrees config codec s' := by
  cases a with
  | set key response ttl requestFingerprint now evicted =>
    simp only [storeMachine] at hstep
    split at hstep
    · rename_i htake
      rw [← Option.some.inj hstep]
      exact h.set hhonoured htake
    · cases hstep
  | getRecord key now =>
    rw [← Option.some.inj hstep]
    exact h.getRecord key now
  | purgeExpiredEntries reference =>
    rw [← Option.some.inj hstep]
    exact h.purgeExpiredEntries reference

theorem agrees_of_reach (h : (storeMachine config codec).Reach (Honoured config) s) :
    Agrees config codec s := by
  refine h.invariant ?_ fun s a s' hs hhonoured hstep => hs.step hhonoured hstep
  intro s hstart
  rw [hstart]
  exact ⟨by simp, by simp, Nat.zero_le _, List.nodup_nil⟩

/-- In every run whose writes the store honours: a record that `getRecord` returns is that of the
map, and the same from the cache and from the table; the table is within its bound; a write to a
key that is there evicts no other row, and one that evicts a row that has not expired leaves none
that has. -/
theorem store_refines (h : (storeMachine config codec).Reach (Honoured config) s) :
    (∀ key now record store, s.store.getRecord config codec key now = (some record, store) →
      s.map.get key now = some record) ∧
    (∀ key now cached stored, (s.store.l1Get key now).1 = some cached →
      (s.store.tableGet config codec key now).1 = some stored → cached = stored) ∧
    s.store.rows.length ≤ config.maxEntries ∧
    ∀ key response ttl requestFingerprint now evicted s',
      Honoured config s (.set key response ttl requestFingerprint now evicted) →
      (storeMachine config codec).step s (.set key response ttl requestFingerprint now evicted) =
        some s' →
      (key ∈ s.store.rows.map (·.cacheKey) →
        ∀ row ∈ s.store.rows, row.cacheKey ≠ key → row ∈ s'.store.rows) ∧
      ∀ row ∈ s.store.rows, row.cacheKey ∈ evicted → ¬ row.IsExpired now →
        ∀ other ∈ s.store.rows, ¬ other.IsExpired now := by
  have hagrees := agrees_of_reach h
  refine ⟨?_, ?_, hagrees.length, ?_⟩
  · intro key now record store hget
    exact hagrees.getRecord_some hget
  · intro key now cached stored hcached hstored
    have hl1 : s.store.l1Get key now = (some cached, (s.store.l1Get key now).2) :=
      Prod.ext hcached rfl
    have htable : s.store.tableGet config codec key now =
        (some stored, (s.store.tableGet config codec key now).2) := Prod.ext hstored rfl
    have hsame : s.map.get key now = some stored := (hagrees.tableGet_some htable).1
    rw [hagrees.l1Get_some hl1] at hsame
    exact Option.some.inj hsame
  · intro key response ttl requestFingerprint now evicted s' hhonoured hstep
    simp only [storeMachine] at hstep
    split at hstep
    · rename_i htake
      rw [← Option.some.inj hstep]
      constructor
      · intro hpresent row hrow hkey
        exact hagrees.keeps_others hhonoured htake hpresent hrow hkey
      · intro row hrow hevicted hexpired
        exact hagrees.evicts_expired hhonoured htake hrow hevicted hexpired
    · cases hstep

/-- A table of two rows behind a cache of one entry. -/
def small : StoreConfig where
  maxEntries := 2
  l1MaxEntries := 1

/-- The text of a response is taken for the response. -/
def plainCodec : ResponseCodec Empty (RpcResponse Empty) where
  jsonEncode response := response
  parseResponse response := some response
  lossless _ := rfl

def number (n : Int) : RpcResponse Empty where
  id := none
  result := some (.int n)

/-- The state after some calls, the start if one of them was not possible. -/
def afterCalls (calls : List (StoreAction Empty)) : StoreState Empty (RpcResponse Empty) :=
  ((storeMachine small plainCodec).run {} calls).getD {}

/-- A record is read from the table after another key took its place in the cache. -/
theorem store_refines_reread :
    let s := afterCalls [.set "k" (number 1) 0 (some "A") 0 [], .set "j" (number 2) 0 none 0 []]
    (s.store.l1Get "k" 0).1 = none ∧
      ∃ record store, s.store.getRecord small plainCodec "k" 0 = (some record, store) ∧
        s.map.get "k" 0 = some record := by
  intro s
  have hreach : (storeMachine small plainCodec).Reach (Honoured small) s := by
    refine .step (a := .set "j" (number 2) 0 none 0 [])
      (.step (a := .set "k" (number 1) 0 (some "A") 0 []) (.start rfl) ?_ rfl) ?_ rfl
    · exact ⟨rfl, by simp, by simp [small], by simp [small]⟩
    · refine ⟨rfl, ?_, ?_, ?_⟩
      · intro _ _ row hrow hkey
        rw [List.mem_singleton.mp hrow] at hkey
        exact absurd hkey (by decide)
      · intro hfull
        exact absurd hfull (by decide)
      · intro hfull
        exact absurd hfull (by decide)
  have hget : (s.store.getRecord small plainCodec "k" 0).1 = some ⟨number 1, some "A"⟩ := rfl
  have hpair : s.store.getRecord small plainCodec "k" 0 =
      (some ⟨number 1, some "A"⟩, (s.store.getRecord small plainCodec "k" 0).2) := Prod.ext hget rfl
  exact ⟨rfl, _, _, hpair, (store_refines hreach).1 "k" 0 _ _ hpair⟩

/-- A write without a fingerprint, after one with it. -/
def mixedCalls : List (StoreAction Empty) :=
  [.set "k" (number 1) 0 (some "A") 0 [], .set "k" (number 2) 0 none 0 [],
    .set "j" (number 3) 0 none 0 []]

/-- A full table whose second row expires after a second, and the first one after a minute. -/
def fullCalls : List (StoreAction Empty) :=
  [.set "k" (number 1) 60000000 none 0 [], .set "j" (number 2) 1000000 none 1000000 []]

/-- Without the condition: a write without a fingerprint leaves that of the write before, a write
to a key that is there evicts another row, and an expired row stays while another one goes. -/
theorem store_not_refines :
    ((storeMachine small plainCodec).Reachable (afterCalls mixedCalls) ∧
      ((afterCalls mixedCalls).store.getRecord small plainCodec "k" 0).1 =
        some ⟨number 2, some "A"⟩ ∧
      (afterCalls mixedCalls).map.get "k" 0 = some ⟨number 2, none⟩) ∧
    (storeMachine small plainCodec).Reachable (afterCalls fullCalls) ∧
    (afterCalls fullCalls).store.rows.map (fun row => (row.cacheKey, decide (row.IsExpired 9000000))) =
      [("k", false), ("j", true)] ∧
    (∃ s', (storeMachine small plainCodec).step (afterCalls fullCalls)
        (.set "j" (number 3) 0 none 9000000 ["k"]) = some s' ∧
      s'.store.rows.map (·.cacheKey) = ["j"]) ∧
    ∃ s', (storeMachine small plainCodec).step (afterCalls fullCalls)
        (.set "m" (number 3) 0 none 9000000 ["k"]) = some s' ∧
      s'.store.rows.map (·.cacheKey) = ["j", "m"] := by
  have hmixed : (storeMachine small plainCodec).run {} mixedCalls = some (afterCalls mixedCalls) :=
    rfl
  have hfull : (storeMachine small plainCodec).run {} fullCalls = some (afterCalls fullCalls) := rfl
  exact ⟨⟨Machine.reachable_of_run rfl hmixed, rfl, rfl⟩, Machine.reachable_of_run rfl hfull, rfl,
    ⟨_, rfl, rfl⟩, _, rfl, rfl⟩

end PlugAgente.Idempotency
