import PlugAgente.Authorization.ClientTokenPolicy

/-!
# The cache of token policies

`ClientTokenPolicyMemoryCache` keeps resolved policies for a while and shares the lookups that
are under way.  A lookup cannot be cancelled: it runs on after its timeout and after an
invalidation, and holds its place until it ends.  Whether its result still counts is decided when
its future completes, by the identity of the pending resolution.

The cache is a machine.  A loader ends (`loaderEnded`), the logical timeout comes (`timedOut`), the
future of a resolution completes (`settled`), and each caller that shares it goes on with it
(`delivered`), in steps of their own, with anything in between.  Beside the fields of the cache the
state has the loaders that run, the futures that are open, those that have completed, what the
callers have got, and the invalidations so far; a load and the entry made from it know how many
there were when the loader started.
-/

namespace PlugAgente.Authorization

open PlugAgente.Dart

/-- The default of `maxPendingResolutions`. -/
def defaultMaxPendingResolutions (maxEntries : Nat) : Nat :=
  if 0 < maxEntries ∧ maxEntries < 128 then maxEntries else 128

/-- The parameters of the cache. -/
structure PolicyCacheConfig where
  ttl : Int := 30000000
  maxEntries : Nat := 2048
  maxPendingResolutions : Nat := defaultMaxPendingResolutions maxEntries

/-- A lookup that was started; `_PendingPolicyResolution` is told apart by the number. -/
structure PolicyLoad where
  id : Nat
  credentialHash : Text
  invalidations : Nat
  deriving DecidableEq

/-- `_PolicyCacheEntry`, with the lookup that made it. -/
structure PolicyCacheEntry where
  policy : ClientTokenPolicy
  expiresAt : Int
  source : Option PolicyLoad

/-- How a loader ends.  An exception becomes a failure, and an error completes the future. -/
inductive LoaderEnd where
  | success (policy : ClientTokenPolicy)
  | failure
  | exception
  | error

/-- What the future of a resolution goes on with. -/
inductive Loaded where
  | success (policy : ClientTokenPolicy)
  | failure
  | error

structure ClientTokenPolicyResolution where
  result : Option ClientTokenPolicy
  isCurrent : Bool

/-- A resolution whose future is open, with what it goes on with and the callers that await it. -/
structure OpenResolution where
  load : PolicyLoad
  loaded : Option Loaded
  callers : Nat := 1

/-- A resolution whose future has completed, with the callers that have not gone on yet, and the
invalidations there were. -/
structure CompletedResolution where
  load : PolicyLoad
  resolution : ClientTokenPolicyResolution
  callers : Nat
  completed : Nat

/-- What a caller has got, with the invalidations there were when the future had completed and when
the caller went on. -/
structure Receipt where
  load : PolicyLoad
  resolution : ClientTokenPolicyResolution
  completed : Nat
  received : Nat

/-- What `_load` makes of the end of a loader. -/
def LoaderEnd.loaded : LoaderEnd → Loaded
  | .success policy => .success policy
  | .failure => .failure
  | .exception => .failure
  | .error => .error

/-- A future goes on with a result, unless it does already. -/
def OpenResolution.goOn (load : PolicyLoad) (loaded : Loaded) (o : OpenResolution) :
    OpenResolution :=
  if o.load = load ∧ o.loaded.isNone then { o with loaded := some loaded } else o

/-- One more caller shares a lookup that is under way. -/
def OpenResolution.join (load : PolicyLoad) (o : OpenResolution) : OpenResolution :=
  if o.load = load then { o with callers := o.callers + 1 } else o

/-- What is invalidated: a credential, or everything. -/
def covers (invalidation : Option Text) (credentialHash : Text) : Prop :=
  invalidation = none ∨ invalidation = some credentialHash

/-- `ClientTokenPolicyMemoryCache`; the map of entries is a list, the oldest first. -/
structure PolicyCache where
  entries : List (Text × PolicyCacheEntry) := []
  pending : List PolicyLoad := []
  inFlightCount : Int := 0
  running : List PolicyLoad := []
  openResolutions : List OpenResolution := []
  completedResolutions : List CompletedResolution := []
  receipts : List Receipt := []
  started : Nat := 0
  invalidations : List (Option Text) := []

namespace PolicyCache

variable (config : PolicyCacheConfig)

/-- `_entries.remove`. -/
def remove (c : PolicyCache) (credentialHash : Text) : PolicyCache :=
  { c with entries := c.entries.filter fun e => e.1 ≠ credentialHash }

/-- `_entries[credentialHash]`. -/
def lookup (c : PolicyCache) (credentialHash : Text) : Option PolicyCacheEntry :=
  (c.entries.find? fun e => e.1 = credentialHash).map (·.2)

/-- `get`: what it returns, and the cache after it. -/
def get (c : PolicyCache) (credentialHash : Text) (now : Int) :
    Option PolicyCacheEntry × PolicyCache :=
  match c.lookup credentialHash with
  | none => (none, c)
  | some entry =>
    if ¬ now < entry.expiresAt then (none, c.remove credentialHash)
    else
      (some entry, { c.remove credentialHash with
        entries := (c.remove credentialHash).entries ++ [(credentialHash, entry)] })

/-- The end of an entry: that of the cache, or of the credential if it ends before. -/
def expiresAt (policy : ClientTokenPolicy) (now : Int) : Int :=
  match policy.credentialExpiresAt with
  | none => now + config.ttl
  | some expiry => if expiry < now + config.ttl then expiry else now + config.ttl

/-- `put`, of a policy that a lookup made or that a caller has. -/
def put (c : PolicyCache) (credentialHash : Text) (policy : ClientTokenPolicy)
    (source : Option PolicyLoad) (now : Int) : PolicyCache :=
  let c := c.remove credentialHash
  if ¬ now < expiresAt config policy now then c
  else
    let entries := c.entries ++ [(credentialHash, ⟨policy, expiresAt config policy now, source⟩)]
    { c with entries := entries.drop (entries.length - config.maxEntries) }

def invalidate (c : PolicyCache) (credentialHash : Text) : PolicyCache :=
  { c.remove credentialHash with
    pending := c.pending.filter fun l => l.credentialHash ≠ credentialHash
    invalidations := c.invalidations ++ [some credentialHash] }

def invalidateAll (c : PolicyCache) : PolicyCache :=
  { c with entries := [], pending := [], invalidations := c.invalidations ++ [none] }

/-- `_pending[credentialHash]`. -/
def pendingOf (c : PolicyCache) (credentialHash : Text) : Option PolicyLoad :=
  c.pending.find? fun l => l.credentialHash = credentialHash

/-- `resolveSingleFlight`: a lookup that is under way is shared, and above the capacity the
resolution is refused; otherwise the loader starts. -/
def resolveSingleFlight (c : PolicyCache) (credentialHash : Text) : PolicyCache :=
  match c.pendingOf credentialHash with
  | some load => { c with openResolutions := c.openResolutions.map (OpenResolution.join load) }
  | none =>
    if config.maxPendingResolutions ≤ c.inFlightCount then c
    else
      let load : PolicyLoad := ⟨c.started, credentialHash, c.invalidations.length⟩
      { c with
        inFlightCount := c.inFlightCount + 1
        pending := c.pending ++ [load]
        running := c.running ++ [load]
        openResolutions := c.openResolutions ++ [⟨load, none, 1⟩]
        started := c.started + 1 }

/-- A loader ends: `_load` frees its place, and the future goes on unless it timed out before. -/
def loaderEnded (c : PolicyCache) (i : Nat) (load : PolicyLoad) (ending : LoaderEnd) :
    PolicyCache :=
  { c with
    inFlightCount := c.inFlightCount - 1
    running := c.running.eraseIdx i
    openResolutions := c.openResolutions.map (OpenResolution.goOn load ending.loaded) }

/-- The logical timeout. -/
def timedOut (c : PolicyCache) (load : PolicyLoad) : PolicyCache :=
  { c with openResolutions := c.openResolutions.map (OpenResolution.goOn load .failure) }

/-- `identical(_pending[credentialHash], pending)`. -/
def isCurrent (c : PolicyCache) (load : PolicyLoad) : Bool :=
  c.pendingOf load.credentialHash = some load

/-- The callback of `then`: the resolution that the future completes with. -/
def resolution (c : PolicyCache) (load : PolicyLoad) : Loaded → Option ClientTokenPolicyResolution
  | .success policy => some ⟨some policy, c.isCurrent load⟩
  | .failure => some ⟨none, c.isCurrent load⟩
  | .error => none

/-- The callback of `then` puts a policy that is current. -/
def completed (c : PolicyCache) (load : PolicyLoad) (loaded : Loaded) (now : Int) : PolicyCache :=
  match loaded with
  | .success policy =>
    if c.isCurrent load then c.put config load.credentialHash policy (some load) now else c
  | _ => c

/-- The future of a resolution completes, and the pending resolution is removed if it is still
this one.  A future that completes with an error has no resolution for its callers. -/
def settled (c : PolicyCache) (j : Nat) (load : PolicyLoad) (loaded : Loaded) (callers : Nat)
    (now : Int) : PolicyCache :=
  let resolutions := (c.resolution load loaded).toList.map fun resolution =>
    (⟨load, resolution, callers, c.invalidations.length⟩ : CompletedResolution)
  let c := c.completed config load loaded now
  { c with
    pending := if c.isCurrent load then
      c.pending.filter fun l => l.credentialHash ≠ load.credentialHash else c.pending
    openResolutions := c.openResolutions.eraseIdx j
    completedResolutions := c.completedResolutions ++ resolutions }

/-- A caller goes on with the resolution that it shares. -/
def delivered (c : PolicyCache) (k : Nat) (d : CompletedResolution) : PolicyCache :=
  { c with
    completedResolutions := c.completedResolutions.set k { d with callers := d.callers - 1 }
    receipts := c.receipts ++ [⟨d.load, d.resolution, d.completed, c.invalidations.length⟩] }

end PolicyCache

/-- What happens to a cache. -/
inductive PolicyCacheAction where
  | get (credentialHash : Text) (now : Int)
  | put (credentialHash : Text) (policy : ClientTokenPolicy) (now : Int)
  | invalidate (credentialHash : Text)
  | invalidateAll
  | resolveSingleFlight (credentialHash : Text)
  | loaderEnded (i : Nat) (ending : LoaderEnd)
  | timedOut (j : Nat)
  | settled (j : Nat) (now : Int)
  | delivered (k : Nat)

def policyCache (config : PolicyCacheConfig) : Machine PolicyCache PolicyCacheAction where
  start c := c = {}
  step c
    | .get credentialHash now => some (c.get credentialHash now).2
    | .put credentialHash policy now => some (c.put config credentialHash policy none now)
    | .invalidate credentialHash => some (c.invalidate credentialHash)
    | .invalidateAll => some c.invalidateAll
    | .resolveSingleFlight credentialHash => some (c.resolveSingleFlight config credentialHash)
    | .loaderEnded i ending => (c.running[i]?).map fun load => c.loaderEnded i load ending
    | .timedOut j =>
      match c.openResolutions[j]? with
      | some ⟨load, none, _⟩ => some (c.timedOut load)
      | _ => none
    | .settled j now =>
      match c.openResolutions[j]? with
      | some ⟨load, some loaded, callers⟩ => some (c.settled config j load loaded callers now)
      | _ => none
    | .delivered k =>
      match c.completedResolutions[k]? with
      | some d => if 0 < d.callers then some (c.delivered k d) else none
      | none => none

end PlugAgente.Authorization
