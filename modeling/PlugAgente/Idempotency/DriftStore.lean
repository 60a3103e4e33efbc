import PlugAgente.Idempotency.Orchestrator

/-!
# The persisted idempotency store

`DriftIdempotencyStore` keeps the responses of idempotent requests in a table, with an in-memory
cache (`IdempotencyL1Cache`) in front of it.  `ExpiringMap` is what the store is for: a map that
forgets a key when the lifetime of its latest write is over.

Times are microseconds since the epoch; the date columns of the table hold whole seconds.  A
statement that evicts takes the rows with the least `updated_at`, and the rows with equal stamps
in an order that is not specified: the keys it takes are part of the action, and have to be some
that the statement may take.
-/

namespace PlugAgente.Idempotency

/-- `IdempotencyRecord`, as the store returns it. -/
structure IdempotencyRecord (V : Type) where
  response : RpcResponse V
  requestFingerprint : Option String

/-! ## A map with expiry -/

/-- A write: its record, and when its lifetime is over. -/
structure Written (V : Type) where
  record : IdempotencyRecord V
  expiresAt : Nat

/-- The latest write of each key. -/
abbrev ExpiringMap (V : Type) := String → Option (Written V)

namespace ExpiringMap

variable {V : Type}

/-- A write takes the place of the one before. -/
def set (m : ExpiringMap V) (key : String) (written : Written V) : ExpiringMap V :=
  fun k => if k = key then some written else m k

/-- The latest record of a key, unless its lifetime is over. -/
def get (m : ExpiringMap V) (key : String) (now : Nat) : Option (IdempotencyRecord V) :=
  match m key with
  | none => none
  | some written => if written.expiresAt < now then none else some written.record

@[simp] theorem set_self (m : ExpiringMap V) (key : String) (written : Written V) :
    m.set key written key = some written := by
  simp [set]

theorem set_of_ne (m : ExpiringMap V) {key k : String} (h : k ≠ key) (written : Written V) :
    m.set key written k = m k := by
  simp [set, h]

theorem get_eq_some {m : ExpiringMap V} {key : String} {now : Nat} {written : Written V}
    (h : m key = some written) (hnow : now ≤ written.expiresAt) :
    m.get key now = some written.record := by
  rw [get, h]
  dsimp only
  rw [if_neg (Nat.not_lt.mpr hnow)]

end ExpiringMap

/-! ## The store -/

/-- The parameters of the store; `entryTtl` is `rpcIdempotencyEntryTtl`, which the environment may
set. -/
structure StoreConfig where
  maxEntries : Nat := 8192
  lruUpdateMinInterval : Nat := 60000000
  l1MaxEntries : Nat := 256
  entryTtl : Nat := 300000000
  maxEntries_pos : 1 ≤ maxEntries := by decide
  l1MaxEntries_pos : 1 ≤ l1MaxEntries := by decide

/-- The JSON text of a response, and what is read back from it. -/
structure ResponseCodec (V J : Type) where
  jsonEncode : RpcResponse V → J
  parseResponse : J → Option (RpcResponse V)
  lossless : ∀ response, parseResponse (jsonEncode response) = some response

/-- The whole seconds of a time. -/
def seconds (time : Nat) : Nat :=
  time / 1000000

theorem seconds_mul_le (time : Nat) : seconds time * 1000000 ≤ time :=
  Nat.div_mul_le_self time 1000000

/-- A row of `RpcIdempotencyCacheTable`. -/
structure CacheRow (J : Type) where
  cacheKey : String
  responseJson : J
  requestFingerprint : Option String
  expiresAt : Nat
  updatedAt : Nat

/-- `row.expiresAt.isBefore(now)`. -/
def CacheRow.IsExpired {J : Type} (row : CacheRow J) (now : Nat) : Prop :=
  row.expiresAt * 1000000 < now

instance {J : Type} (row : CacheRow J) (now : Nat) : Decidable (row.IsExpired now) :=
  inferInstanceAs (Decidable (_ < _))

/-- `_IdempotencyL1Entry`. -/
structure L1Entry (V : Type) where
  record : IdempotencyRecord V
  expiresAt : Nat

/-- `DriftIdempotencyStore`: the table, and the cache with the oldest entry first. -/
structure DriftIdempotencyStore (V J : Type) where
  rows : List (CacheRow J) := []
  l1 : List (String × L1Entry V) := []

/-- The keys that `ORDER BY updated_at ASC LIMIT count` may take. -/
def MayTake {J : Type} (rows : List (CacheRow J)) (count : Nat) (keys : List String) : Prop :=
  keys.Nodup ∧ keys.length = min count rows.length ∧ (∀ key ∈ keys, key ∈ rows.map (·.cacheKey)) ∧
    ∀ row ∈ rows, row.cacheKey ∈ keys →
      ∀ other ∈ rows, other.cacheKey ∉ keys → row.updatedAt ≤ other.updatedAt

instance {J : Type} (rows : List (CacheRow J)) (count : Nat) (keys : List String) :
    Decidable (MayTake rows count keys) :=
  inferInstanceAs (Decidable (_ ∧ _))

namespace DriftIdempotencyStore

variable {V J : Type} (config : StoreConfig) (codec : ResponseCodec V J)

/-- `IdempotencyL1Cache.invalidate`. -/
def l1Invalidate (s : DriftIdempotencyStore V J) (key : String) : DriftIdempotencyStore V J :=
  { s with l1 := s.l1.filter fun e => e.1 ≠ key }

/-- `IdempotencyL1Cache.get`: what it returns, and the store after it. -/
def l1Get (s : DriftIdempotencyStore V J) (key : String) (now : Nat) :
    Option (IdempotencyRecord V) × DriftIdempotencyStore V J :=
  match s.l1.find? fun e => e.1 = key with
  | none => (none, s)
  | some (_, entry) =>
    if entry.expiresAt < now then (none, s.l1Invalidate key)
    else
      (some entry.record,
        { s with l1 := (s.l1Invalidate key).l1 ++ [(key, entry)] })

/-- `IdempotencyL1Cache.put`: entries that are too many go first, the oldest of them first. -/
def l1Put (s : DriftIdempotencyStore V J) (key : String) (entry : L1Entry V) :
    DriftIdempotencyStore V J :=
  let others := (s.l1Invalidate key).l1
  { s with l1 := others.drop (others.length + 1 - config.l1MaxEntries) ++ [(key, entry)] }

def row? (s : DriftIdempotencyStore V J) (key : String) : Option (CacheRow J) :=
  s.rows.find? fun row => row.cacheKey = key

/-- `DELETE … WHERE cache_key = key`. -/
def deleteRow (s : DriftIdempotencyStore V J) (key : String) : DriftIdempotencyStore V J :=
  { s with rows := s.rows.filter fun row => row.cacheKey ≠ key }

/-- `UPDATE … SET updated_at = now WHERE cache_key = key`, unless the stamp is recent. -/
def touch (s : DriftIdempotencyStore V J) (row : CacheRow J) (now : Nat) :
    DriftIdempotencyStore V J :=
  if config.lruUpdateMinInterval = 0 ∨ row.updatedAt * 1000000 + config.lruUpdateMinInterval ≤ now
  then
    { s with
      rows := Rows.write (fun r => decide (r.cacheKey = row.cacheKey))
        (fun r => { r with updatedAt := seconds now }) s.rows }
  else s

/-- `getRecord` from the table on. -/
def tableGet (s : DriftIdempotencyStore V J) (key : String) (now : Nat) :
    Option (IdempotencyRecord V) × DriftIdempotencyStore V J :=
  match s.row? key with
  | none => (none, s.l1Invalidate key)
  | some row =>
    if row.IsExpired now then (none, (s.deleteRow key).l1Invalidate key)
    else
      let s := s.touch config row now
      match codec.parseResponse row.responseJson with
      | none => (none, (s.deleteRow key).l1Invalidate key)
      | some parsed =>
        let record : IdempotencyRecord V := ⟨sanitizeRpcResponse parsed, row.requestFingerprint⟩
        (some record, s.l1Put config key ⟨record, row.expiresAt * 1000000⟩)

/-- `getRecord`: what it returns, and the store after it. -/
def getRecord (s : DriftIdempotencyStore V J) (key : String) (now : Nat) :
    Option (IdempotencyRecord V) × DriftIdempotencyStore V J :=
  match s.l1Get key now with
  | (some record, s) => (some record, s)
  | (none, s) => s.tableGet config codec key now

/-- The end of an entry: a lifetime that is not positive is the default one. -/
def expiresAt (ttl : Int) (now : Nat) : Nat :=
  now + if ttl ≤ 0 then config.entryTtl else ttl.toNat

/-- How many rows a write evicts: one more than there are too many. -/
def excess (s : DriftIdempotencyStore V J) : Nat :=
  if config.maxEntries ≤ s.rows.length then s.rows.length - config.maxEntries + 1 else 0

/-- `_evictOldest`, of the keys the statement takes. -/
def evict (s : DriftIdempotencyStore V J) (keys : List String) : DriftIdempotencyStore V J :=
  { s with rows := s.rows.filter fun row => row.cacheKey ∉ keys }

/-- `insertOnConflictUpdate`: a row with the key is written over, and keeps its fingerprint if the
companion has none. -/
def upsert (s : DriftIdempotencyStore V J) (row : CacheRow J) : DriftIdempotencyStore V J :=
  { s with
    rows :=
      if s.rows.any fun r => r.cacheKey = row.cacheKey then
        Rows.write (fun r => decide (r.cacheKey = row.cacheKey))
          (fun r => { row with
            requestFingerprint := row.requestFingerprint.or r.requestFingerprint }) s.rows
      else s.rows ++ [row] }

/-- `set`, with the keys that are evicted. -/
def set (s : DriftIdempotencyStore V J) (key : String) (response : RpcResponse V) (ttl : Int)
    (requestFingerprint : Option String) (now : Nat) (evicted : List String) :
    DriftIdempotencyStore V J :=
  ((s.evict evicted).upsert
    { cacheKey := key
      responseJson := codec.jsonEncode response
      requestFingerprint := requestFingerprint
      expiresAt := seconds (expiresAt config ttl now)
      updatedAt := seconds now }).l1Put config key
    ⟨⟨response, requestFingerprint⟩, expiresAt config ttl now⟩

/-- `purgeExpiredEntries`; the column is compared in whole seconds. -/
def purgeExpiredEntries (s : DriftIdempotencyStore V J) (reference : Nat) :
    DriftIdempotencyStore V J :=
  { s with rows := s.rows.filter fun row => ¬ row.expiresAt < seconds reference }

end DriftIdempotencyStore

/-! ## Runs -/

/-- What is called on a store, with the reading of the clock. -/
inductive StoreAction (V : Type) where
  | set (key : String) (response : RpcResponse V) (ttl : Int) (requestFingerprint : Option String)
    (now : Nat) (evicted : List String)
  | getRecord (key : String) (now : Nat)
  | purgeExpiredEntries (reference : Nat)

/-- A store and the map that it stands for. -/
structure StoreState (V J : Type) where
  store : DriftIdempotencyStore V J := {}
  map : ExpiringMap V := fun _ => none

/-- The store as a machine that starts empty. -/
def storeMachine {V J : Type} (config : StoreConfig) (codec : ResponseCodec V J) :
    Machine (StoreState V J) (StoreAction V) where
  start s := s = {}
  step s
    | .set key response ttl requestFingerprint now evicted =>
      if MayTake s.store.rows (s.store.excess config) evicted then
        some
          { store := s.store.set config codec key response ttl requestFingerprint now evicted
            map := s.map.set key ⟨⟨response, requestFingerprint⟩,
              DriftIdempotencyStore.expiresAt config ttl now⟩ }
      else none
    | .getRecord key now =>
      some { s with store := (s.store.getRecord config codec key now).2 }
    | .purgeExpiredEntries reference =>
      some { s with store := s.store.purgeExpiredEntries reference }

end PlugAgente.Idempotency
