import PlugAgente.Authorization.Transparency

/-!
# Decisions that outlive an invalidation

Any number of calls run at once, and each waits once, for its policy.  The steps
of the system are the two stretches of a call, the answer of the resolver in
between, a change of a policy, and the invalidations of the decision cache.

The state carries a clock of its own that every step advances.  With it the
state records when a policy was resolved, when each credential was last
invalidated, and from which resolution each key of the cache was last stored
(`Origin`).  The code sees none of these.

`Fresh` says that no entry comes from a policy that was resolved before the last
invalidation of its credential.  `fresh_of_reachable` is the safety result: it
asks for something of the verified method only, whose calls store decisions
without a comparison of revisions.
-/

namespace PlugAgente.Authorization

open PlugAgente.Dart PlugAgente.Sql

/-! ## The system -/

/-- A call that waits for its policy or has just been given it.  `begunAt` and
the second part of `resolved` are instants of the clock of the system. -/
structure InFlight where
  pending : Pending
  begunAt : Nat
  resolved : Option (Except Failure ClientTokenPolicy × Nat) := none

/-- Where the entry under a key comes from: the credential of the call that
stored it, and the instant its policy was resolved. -/
structure Origin where
  hash : Text
  resolvedAt : Nat

/-- The state of the system. -/
structure System where
  cache : Option DecisionCache
  policies : Text → Except Failure ClientTokenPolicy
  calls : List InFlight := []
  time : Nat := 1
  invalidatedAt : Text → Nat := fun _ => 0
  origins : Text → Origin := fun _ => ⟨[], 0⟩

/-- The steps of the system. -/
inductive Action where
  | beginCall (r : AuthorizeRequest) (clock : Clock)
  | resolvePolicy (call : Nat) (now : Int)
  | finishCall (call : Nat) (clock : Clock)
  | changePolicy (token : Text) (answer : Except Failure ClientTokenPolicy)
  | invalidate (key : Text)
  | invalidateForCredentialHash (hash : Text)
  | invalidateAll

namespace System

variable (env : AuthorizeEnv)

/-- Start a call, or start it over: a call that is not settled at once joins the
waiting ones. -/
def start (s : System) (calls : List InFlight) (r : AuthorizeRequest) (clock : Clock) : System :=
  match Authorization.beginCall env s.cache r clock with
  | (.done _, cache) => { s with cache := cache, calls := calls, time := s.time + 1 }
  | (.pending p, cache) =>
    { s with cache := cache, calls := calls ++ [⟨p, s.time, none⟩], time := s.time + 1 }

/-- Give the waiting call `i` the policy that is in force now. -/
def resolve (s : System) (i : Nat) (now : Int) : System :=
  match s.calls[i]? with
  | some c =>
    match c.resolved with
    | none =>
      let answer := validateToken c.pending.request.token (s.policies c.pending.request.token) now
      { s with
        calls := s.calls.set i { c with resolved := some (answer, s.time) }
        time := s.time + 1 }
    | some _ => s
  | none => s

/-- The origins after the puts of a call. -/
def recordOrigins (s : System) (puts : List Put) (origin : Origin) : Text → Origin :=
  fun key => if key ∈ puts.map (·.key) then origin else s.origins key

/-- Run the second stretch of call `i`, whose policy is resolved. -/
def finish (s : System) (i : Nat) (clock : Clock) : System :=
  match s.calls[i]? with
  | some ⟨p, _, some (answer, resolvedAt)⟩ =>
    match Authorization.finishCall env s.cache p clock answer with
    | (.retry, _) => s.start env (s.calls.eraseIdx i) p.request clock
    | (.done _, cache) =>
      { s with
        cache := cache
        calls := s.calls.eraseIdx i
        origins := s.recordOrigins (settleCall env p clock answer).2
          ⟨env.hashToken p.request.token, resolvedAt⟩
        time := s.time + 1 }
  | _ => s

def step (s : System) : Action → System
  | .beginCall r clock => s.start env s.calls r clock
  | .resolvePolicy i now => s.resolve i now
  | .finishCall i clock => s.finish env i clock
  | .changePolicy token answer =>
    { s with
      policies := fun t => if t = token then answer else s.policies t
      time := s.time + 1 }
  | .invalidate key =>
    { s with cache := s.cache.map (·.invalidate key), time := s.time + 1 }
  | .invalidateForCredentialHash hash =>
    { s with
      cache := s.cache.map (·.invalidateForCredentialHash hash)
      invalidatedAt := fun h => if h = hash then s.time else s.invalidatedAt h
      time := s.time + 1 }
  | .invalidateAll =>
    { s with
      cache := s.cache.map (·.invalidateAll)
      invalidatedAt := fun _ => s.time
      time := s.time + 1 }

/-- The start: no call is under way and the cache, if there is one, is empty. -/
def initial (maxEntries : Option Nat) (policies : Text → Except Failure ClientTokenPolicy) :
    System where
  cache := maxEntries.map fun n => { maxEntries := n }
  policies := policies

/-- The states that are reached by steps that `guard` lets through. -/
inductive Reachable (guard : System → Action → Prop) : System → Prop where
  | initial (maxEntries : Option Nat) (policies : Text → Except Failure ClientTokenPolicy) :
      Reachable guard (initial maxEntries policies)
  | step {s : System} (a : Action) (hs : Reachable guard s) (hguard : guard s a) :
      Reachable guard (s.step env a)

/-- No entry comes from a policy that was resolved before the last invalidation
of its credential. -/
def Fresh (s : System) : Prop :=
  ∀ x ∈ entriesOf s.cache,
    s.invalidatedAt (s.origins x.1).hash < (s.origins x.1).resolvedAt

/-- Whether the second stretch of a verified call over an answer of the resolver
comes to store decisions. -/
def mayStore (clock : Clock) (r : AuthorizeRequest) : Except Failure ClientTokenPolicy → Bool
  | .error failure => canCacheTokenResolverFailure failure
  | .ok policy =>
    !refusesVerified env policy r && !policy.isCredentialExpiredAt clock.lifetime

/-- A verified call that comes to store decisions finishes before its credential
is invalidated again.  Nothing is asked of the other steps. -/
def verifiedInTime (s : System) : Action → Bool
  | .finishCall i clock =>
    match s.calls[i]? with
    | some ⟨p, _, some (answer, resolvedAt)⟩ =>
      !p.request.isVerified || !mayStore env clock p.request answer ||
        decide (s.invalidatedAt (env.hashToken p.request.token) < resolvedAt)
    | _ => true
  | _ => true

end System

/-! ## What the second stretch stores -/

section Stores

variable {env : AuthorizeEnv}

/-- The method that compares names as a whole stores nothing. -/
theorem settleCall_of_exactResource {p : Pending} {clock : Clock}
    {answer : Except Failure ClientTokenPolicy} (hexact : p.request.exactResource = true) :
    (settleCall env p clock answer).2 = [] := by
  have hnone : ∀ d k, cacheDecision env p.request clock d k = none := by
    intro d k
    simp [cacheDecision, hexact]
  have hall : ∀ d, cacheAll env p.request clock p.misses d = [] := by
    intro d
    simp [cacheAll, hnone]
  have hloop : ∀ (policy : ClientTokenPolicy) (ks : List KeyedAccess) (s : Decisions),
      (ks.foldl (decideAccess env policy p.request clock) s).puts = s.puts := by
    intro policy ks
    induction ks with
    | nil => intro s; rfl
    | cons k ks ih =>
      intro s
      rw [List.foldl_cons, ih]
      unfold decideAccess
      split <;> simp [hnone]
  unfold settleCall
  split
  · unfold decideCall
    dsimp only
    split
    · rfl
    · split
      · rfl
      · split
        · exact hall _
        · split
          · exact hall _
          · exact hloop _ _ _
  · simp [hall]

theorem mem_settleCall {p : Pending} {clock : Clock} {answer : Except Failure ClientTokenPolicy}
    {q : Put} (hq : q ∈ (settleCall env p clock answer).2) :
    System.mayStore env clock p.request answer = true ∧ ∃ k ∈ p.misses, q.key = k.key := by
  unfold settleCall at hq
  split at hq
  · rename_i policy
    unfold decideCall at hq
    dsimp only at hq
    split at hq
    · simp at hq
    · rename_i hrefuse
      have hrefuse' : refusesVerified env policy p.request = false :=
        Bool.eq_false_iff.mpr hrefuse
      split at hq
      · simp at hq
      · rename_i hlife
        have hlive : policy.isCredentialExpiredAt clock.lifetime = false := by
          unfold validateLifetime at hlife
          split_ifs at hlife with hexpired
          simpa using hexpired
        have hkey : ∃ k ∈ p.misses, q.key = k.key := by
          split at hq
          · obtain ⟨k, hk, hkey, -⟩ := mem_cacheAll hq
            exact ⟨k, hk, hkey⟩
          · split at hq
            · obtain ⟨k, hk, hkey, -⟩ := mem_cacheAll hq
              exact ⟨k, hk, hkey⟩
            · rcases puts_decisions hq with h | ⟨k, hk, hkey, -⟩
              · simp at h
              · exact ⟨k, hk, hkey⟩
        exact ⟨by simp [System.mayStore, hrefuse', hlive], hkey⟩
  · dsimp only at hq
    split_ifs at hq with hcache
    · obtain ⟨k, hk, hkey, -⟩ := mem_cacheAll hq
      exact ⟨hcache, k, hk, hkey⟩
    · simp at hq

theorem revision_storePuts (decisionCache : Option DecisionCache) (puts : List Put) :
    (storePuts decisionCache puts).map (·.revision) = decisionCache.map (·.revision) := by
  cases decisionCache with
  | none => rfl
  | some cache =>
    induction puts generalizing cache with
    | nil => rfl
    | cons q puts ih =>
      have htail := ih (cache.put q.key q.entry q.now)
      simpa [storePuts] using htail

theorem hash_prefix_keyOf (r : AuthorizeRequest) (a : ClassifiedSqlResource) :
    (env.hashToken r.token ++ ['|']) <+: r.keyOf env a := by
  unfold AuthorizeRequest.keyOf
  rw [decisionCacheKey_eq]
  exact ⟨a.operation.name.toList ++ '|' ::
    keyTail (normalizeDatabaseName env.cm r.requestDatabase) (a.resource.normalizedName env.cm),
    by simp⟩

end Stores

/-! ## The invariant -/

namespace System

/-- What holds of a call under way.  A call that read a revision knows by it
whether an invalidation came since; a call that read none is of a method that
reads no cache. -/
structure CallInv (env : AuthorizeEnv) (s : System) (c : InFlight) : Prop where
  begun : c.begunAt < s.time
  resolved : ∀ answer t, c.resolved = some (answer, t) → c.begunAt < t
  keys : ∀ k ∈ c.pending.misses, (env.hashToken c.pending.request.token ++ ['|']) <+: k.key
  unread : c.pending.cacheRevision = none → s.cache = none ∨
    c.pending.request.isVerified = true ∨ c.pending.request.exactResource = true
  read : ∀ seen cache, c.pending.cacheRevision = some seen → s.cache = some cache →
    seen ≤ cache.revision ∧ (cache.revision = seen → ∀ h, s.invalidatedAt h ≤ c.begunAt)

structure Inv (env : AuthorizeEnv) (s : System) : Prop where
  past : ∀ h, s.invalidatedAt h < s.time
  fresh : Fresh s
  hash : ∀ x ∈ entriesOf s.cache, ((s.origins x.1).hash ++ ['|']) <+: x.1
  calls : ∀ c ∈ s.calls, CallInv env s c

/-- How a step moves the revision: it stays, with every record of an
invalidation, or it grows. -/
def RevisionMoves (s s' : System) : Prop :=
  (s'.cache.map (·.revision) = s.cache.map (·.revision) ∧ s'.invalidatedAt = s.invalidatedAt) ∨
    s'.cache.map (·.revision) = s.cache.map (·.revision + 1)

variable {env : AuthorizeEnv} {s s' : System}

theorem CallInv.mono {c : InFlight} (hc : CallInv env s c) (htime : s.time ≤ s'.time)
    (hmoves : RevisionMoves s s') : CallInv env s' c where
  begun := lt_of_lt_of_le hc.begun htime
  resolved := hc.resolved
  keys := hc.keys
  unread hnone := by
    rcases hc.unread hnone with h | h
    · left
      rcases hmoves with ⟨hrev, -⟩ | hrev
      · simpa [h] using hrev
      · simpa [h] using hrev
    · exact Or.inr h
  read seen cache' hseen hcache' := by
    rw [RevisionMoves, hcache'] at hmoves
    cases hcache : s.cache with
    | none => simp [hcache] at hmoves
    | some cache =>
      obtain ⟨hle, hquiet⟩ := hc.read seen cache hseen hcache
      rw [hcache] at hmoves
      rcases hmoves with ⟨hrev, hinv⟩ | hrev
      · have hrev' : cache'.revision = cache.revision := by simpa using hrev
        rw [hrev', hinv]
        exact ⟨hle, hquiet⟩
      · have hrev' : cache'.revision = cache.revision + 1 := by simpa using hrev
        rw [hrev']
        refine ⟨by omega, ?_⟩
        intro hseen'
        omega

theorem Inv.of_quiet (hinv : Inv env s) (htime : s.time ≤ s'.time)
    (hinvalid : s'.invalidatedAt = s.invalidatedAt) (horigins : s'.origins = s.origins)
    (hentries : ∀ x ∈ entriesOf s'.cache, x ∈ entriesOf s.cache)
    (hcalls : ∀ c ∈ s'.calls, CallInv env s' c) : Inv env s' where
  past h := hinvalid ▸ lt_of_lt_of_le (hinv.past h) htime
  fresh x hx := by
    rw [hinvalid, horigins]
    exact hinv.fresh x (hentries x hx)
  hash x hx := by
    rw [horigins]
    exact hinv.hash x (hentries x hx)
  calls := hcalls

theorem Inv.start (hinv : Inv env s) {calls : List InFlight} (hsub : ∀ c ∈ calls, c ∈ s.calls)
    (r : AuthorizeRequest) (clock : Clock) : Inv env (s.start env calls r clock) := by
  have hrevision := revision_beginCall env s.cache r clock
  have hentries : ∀ x ∈ entriesOf (Authorization.beginCall env s.cache r clock).2,
      x ∈ entriesOf s.cache := fun x hx => mem_entriesOf_beginCall hx
  unfold System.start
  split
  · rename_i result cache hbegin
    rw [hbegin] at hrevision hentries
    refine hinv.of_quiet (by simp) rfl rfl hentries ?_
    intro c hc
    exact (hinv.calls c (hsub c hc)).mono (by simp) (Or.inl ⟨hrevision, rfl⟩)
  · rename_i p cache hbegin
    rw [hbegin] at hrevision hentries
    have hpending : (Authorization.beginCall env s.cache r clock).1 = .pending p := by
      rw [hbegin]
    obtain ⟨hrequest, hseen⟩ := beginCall_pending env hpending
    refine hinv.of_quiet (by simp) rfl rfl hentries ?_
    intro c hc
    rcases List.mem_append.mp hc with hc | hc
    · exact (hinv.calls c (hsub c hc)).mono (by simp) (Or.inl ⟨hrevision, rfl⟩)
    · rw [List.mem_singleton] at hc
      subst hc
      refine ⟨by simp, by simp, ?_, ?_, ?_⟩
      · intro k hk
        dsimp only
        rw [key_of_mem_pending_misses hpending hk, hrequest]
        exact hash_prefix_keyOf r k.access
      · intro hnone
        dsimp only at hnone ⊢
        rw [hseen, AuthorizeRequest.readCache] at hnone
        rw [hrequest]
        split at hnone
        · rename_i hskip
          exact Or.inr (by simpa using hskip)
        · left
          have hnone' : s.cache = none := by simpa using hnone
          simpa [hnone'] using hrevision
      · intro seen cache' hsome hcache'
        dsimp only at hsome hcache' ⊢
        rw [hseen, AuthorizeRequest.readCache] at hsome
        split at hsome
        · simp at hsome
        · rw [← hrevision, hcache'] at hsome
          have heq : cache'.revision = seen := by simpa using hsome
          refine ⟨le_of_eq heq.symm, fun _ h => ?_⟩
          exact le_of_lt (hinv.past h)

theorem Inv.resolve (hinv : Inv env s) (i : Nat) (now : Int) : Inv env (s.resolve i now) := by
  unfold System.resolve
  split
  · rename_i c hc
    split
    · refine hinv.of_quiet (by simp) rfl rfl (fun x hx => hx) ?_
      have hmoves : ∀ calls time, RevisionMoves s { s with calls := calls, time := time } :=
        fun calls time => Or.inl ⟨rfl, rfl⟩
      intro c' hc'
      rcases List.mem_or_eq_of_mem_set hc' with h | h
      · exact (hinv.calls c' h).mono (by simp) (hmoves _ _)
      · subst h
        have hold : ∀ calls, CallInv env { s with calls := calls, time := s.time + 1 } c :=
          fun calls => (hinv.calls c (List.mem_of_getElem? hc)).mono (by simp) (hmoves _ _)
        specialize hold (s.calls.set i { c with
          resolved := some (validateToken c.pending.request.token
            (s.policies c.pending.request.token) now, s.time) })
        refine ⟨hold.begun, ?_, hold.keys, hold.unread, hold.read⟩
        intro answer t hsome
        simp only [Option.some.injEq, Prod.mk.injEq] at hsome
        rw [← hsome.2]
        exact (hinv.calls c (List.mem_of_getElem? hc)).begun
    · exact hinv
  · exact hinv

/-- A call that does not notice an invalidation, and is in time if it is verified,
stores decisions of a policy that is newer than the last invalidation. -/
theorem CallInv.resolved_after {c : InFlight} (hc : CallInv env s c) {clock : Clock}
    {answer : Except Failure ClientTokenPolicy} {t : Nat}
    (hresolved : c.resolved = some (answer, t))
    (hsame : noticesInvalidation s.cache c.pending = false)
    (hintime : c.pending.request.isVerified = true →
      mayStore env clock c.pending.request answer = true →
      s.invalidatedAt (env.hashToken c.pending.request.token) < t)
    {x : Text × DecisionEntry}
    (hx : x ∈ entriesOf (storePuts s.cache (settleCall env c.pending clock answer).2))
    (hput : x.1 ∈ (settleCall env c.pending clock answer).2.map (·.key)) :
    s.invalidatedAt (env.hashToken c.pending.request.token) < t := by
  obtain ⟨q, hq, -⟩ := List.mem_map.mp hput
  obtain ⟨hstore, -⟩ := mem_settleCall hq
  have hbegun := hc.resolved answer t hresolved
  cases hcache : s.cache with
  | none => simp [hcache, storePuts, entriesOf] at hx
  | some cache =>
    cases hseen : c.pending.cacheRevision with
    | none =>
      rcases hc.unread hseen with h | h | h
      · simp [hcache] at h
      · exact hintime h hstore
      · rw [settleCall_of_exactResource h] at hq
        simp at hq
    | some seen =>
      have heq : cache.revision = seen := by
        simpa [noticesInvalidation, hseen, hcache] using hsame
      have hquiet := (hc.read seen cache hseen hcache).2 heq
      exact lt_of_le_of_lt (hquiet _) hbegun

theorem Inv.finish (hinv : Inv env s) {i : Nat} {clock : Clock}
    (hguard : s.verifiedInTime env (.finishCall i clock) = true) :
    Inv env (s.finish env i clock) := by
  unfold System.finish
  split
  · rename_i p begunAt answer t hget
    have hmem : (⟨p, begunAt, some (answer, t)⟩ : InFlight) ∈ s.calls := List.mem_of_getElem? hget
    have hcall := hinv.calls _ hmem
    have hintime : p.request.isVerified = true → mayStore env clock p.request answer = true →
        s.invalidatedAt (env.hashToken p.request.token) < t := by
      intro hverified hstore
      simpa [verifiedInTime, hget, hverified, hstore] using hguard
    have hsub : ∀ c ∈ s.calls.eraseIdx i, c ∈ s.calls := fun c hc => List.mem_of_mem_eraseIdx hc
    unfold Authorization.finishCall
    cases hsame : noticesInvalidation s.cache p with
    | true => simpa using hinv.start hsub p.request clock
    | false =>
      simp only [Bool.false_eq_true, if_false]
      have hmoves : ∀ s' : System, s'.cache = storePuts s.cache (settleCall env p clock answer).2 →
          s'.invalidatedAt = s.invalidatedAt → RevisionMoves s s' := by
        intro s' hcache hinvalid
        refine Or.inl ⟨?_, hinvalid⟩
        rw [hcache, revision_storePuts]
      refine ⟨fun h => ?_, ?_, ?_, ?_⟩
      · have := hinv.past h
        show s.invalidatedAt h < s.time + 1
        omega
      · intro x hx
        show s.invalidatedAt (s.recordOrigins _ _ x.1).hash < (s.recordOrigins _ _ x.1).resolvedAt
        unfold recordOrigins
        split
        · rename_i hput
          exact hcall.resolved_after rfl hsame hintime hx hput
        · rename_i hput
          rcases mem_entriesOf_storePuts hx with h | ⟨q, hq, rfl⟩
          · exact hinv.fresh x h
          · exact absurd (List.mem_map_of_mem hq) hput
      · intro x hx
        show ((s.recordOrigins _ _ x.1).hash ++ ['|']) <+: x.1
        unfold recordOrigins
        split
        · rename_i hput
          obtain ⟨q, hq, hkey⟩ := List.mem_map.mp hput
          obtain ⟨-, k, hk, hkey'⟩ := mem_settleCall hq
          rw [← hkey, hkey']
          exact hcall.keys k hk
        · rename_i hput
          rcases mem_entriesOf_storePuts hx with h | ⟨q, hq, rfl⟩
          · exact hinv.hash x h
          · exact absurd (List.mem_map_of_mem hq) hput
      · intro c hc
        exact (hinv.calls c (hsub c hc)).mono (by simp) (hmoves _ rfl rfl)
  · exact hinv

theorem Inv.invalidate (hinv : Inv env s) {cache : Option DecisionCache}
    {invalidatedAt : Text → Nat} (hrev : cache.map (·.revision) = s.cache.map (·.revision + 1))
    (hat : ∀ h, invalidatedAt h = s.time ∨ invalidatedAt h = s.invalidatedAt h)
    (hentries : ∀ x ∈ entriesOf cache, x ∈ entriesOf s.cache ∧
      invalidatedAt (s.origins x.1).hash = s.invalidatedAt (s.origins x.1).hash) :
    Inv env { s with cache := cache, invalidatedAt := invalidatedAt, time := s.time + 1 } where
  past h := by
    have hpast := hinv.past h
    show invalidatedAt h < s.time + 1
    rcases hat h with heq | heq <;> omega
  fresh x hx := by
    obtain ⟨hmem, hsame⟩ := hentries x hx
    show invalidatedAt (s.origins x.1).hash < (s.origins x.1).resolvedAt
    rw [hsame]
    exact hinv.fresh x hmem
  hash x hx := hinv.hash x (hentries x hx).1
  calls c hc := (hinv.calls c hc).mono (by simp) (Or.inr hrev)

theorem Inv.step (hinv : Inv env s) {a : Action} (hguard : s.verifiedInTime env a = true) :
    Inv env (s.step env a) := by
  cases a with
  | beginCall r clock => exact hinv.start (fun c hc => hc) r clock
  | resolvePolicy i now => exact hinv.resolve i now
  | finishCall i clock => exact hinv.finish hguard
  | changePolicy token answer =>
    exact hinv.of_quiet (by simp [System.step]) rfl rfl (fun x hx => hx)
      (fun c hc => (hinv.calls c hc).mono (by simp [System.step]) (Or.inl ⟨rfl, rfl⟩))
  | invalidate key =>
    refine hinv.invalidate ?_ (fun h => Or.inr rfl) ?_
    · cases s.cache <;> rfl
    · intro x hx
      cases hcache : s.cache with
      | none => simp [hcache, entriesOf] at hx
      | some cache =>
        refine ⟨?_, rfl⟩
        rw [hcache] at hx
        exact DecisionCache.mem_of_mem_remove hx
  | invalidateForCredentialHash hash =>
    refine hinv.invalidate ?_ (fun h => ?_) ?_
    · cases s.cache <;> rfl
    · by_cases heq : h = hash
      · simp [heq]
      · simp [heq]
    · intro x hx
      cases hcache : s.cache with
      | none => simp [hcache, entriesOf] at hx
      | some cache =>
        rw [hcache] at hx
        obtain ⟨hmem, hother⟩ := DecisionCache.mem_invalidateForCredentialHash.mp hx
        have hmem' : x ∈ entriesOf s.cache := by
          rw [hcache]
          exact hmem
        refine ⟨hcache ▸ hmem', ?_⟩
        -- The key of an entry begins with its credential, so the entry of another
        -- credential is left.
        have hne : (s.origins x.1).hash ≠ hash := by
          intro heq
          exact hother (heq ▸ hinv.hash x hmem')
        simp [hne]
  | invalidateAll =>
    refine hinv.invalidate ?_ (fun h => Or.inl rfl) ?_
    · cases s.cache <;> rfl
    · intro x hx
      cases hcache : s.cache with
      | none => simp [hcache, entriesOf] at hx
      | some cache => simp [hcache, entriesOf, DecisionCache.invalidateAll] at hx

theorem inv_initial (maxEntries : Option Nat)
    (policies : Text → Except Failure ClientTokenPolicy) :
    Inv env (System.initial maxEntries policies) where
  past h := by simp [System.initial]
  fresh x hx := by cases maxEntries <;> simp [System.initial, entriesOf] at hx
  hash x hx := by cases maxEntries <;> simp [System.initial, entriesOf] at hx
  calls c hc := by simp [System.initial] at hc

theorem inv_of_reachable (hs : Reachable env (fun s a => s.verifiedInTime env a = true) s) :
    Inv env s := by
  induction hs with
  | initial maxEntries policies => exact inv_initial maxEntries policies
  | step a _ hguard ih => exact ih.step hguard

/-- In every run in which the verified calls finish in time no stale decision is
in the cache. -/
theorem fresh_of_reachable
    (hs : Reachable env (fun s a => s.verifiedInTime env a = true) s) : Fresh s :=
  (inv_of_reachable hs).fresh

/-! ## Traces -/

/-- The state after a list of steps. -/
def run (env : AuthorizeEnv) (s : System) (actions : List Action) : System :=
  actions.foldl (·.step env) s

/-- Whether every step of a list passes a guard where it is taken. -/
def passes (env : AuthorizeEnv) (guard : System → Action → Bool) : System → List Action → Bool
  | _, [] => true
  | s, a :: actions => guard s a && passes env guard (s.step env a) actions

theorem reachable_run {guard : System → Action → Bool} {actions : List Action}
    (hs : Reachable env (fun s a => guard s a = true) s)
    (hpasses : passes env guard s actions = true) :
    Reachable env (fun s a => guard s a = true) (run env s actions) := by
  induction actions generalizing s with
  | nil => exact hs
  | cons a actions ih =>
    rw [passes, Bool.and_eq_true] at hpasses
    exact ih (hs.step a hpasses.1) hpasses.2

instance (s : System) : Decidable (Fresh s) :=
  inferInstanceAs (Decidable (∀ x ∈ entriesOf s.cache, _ < _))

/-- A read with a database, by a method. -/
def sampleRead (method : String) : AuthorizeRequest :=
  ⟨"abc".toList, "select a from t".toList, some "d".toList, none, some method, none⟩

/-- A policy that grants reads on the database of `sampleRead`. -/
def readPolicy : ClientTokenPolicy :=
  { tablesOnlyPolicy with database := some "d".toList }

/-- The start of the traces: every token has `readPolicy`. -/
def sampleSystem : System := System.initial (some 8192) fun _ => .ok readPolicy

/-- A read is under way while its policy changes and is invalidated; then a
verified read runs in time. -/
def timelyTrace : List Action :=
  [.beginCall (sampleRead "sql.execute") stillClock, .resolvePolicy 0 0,
    .changePolicy "abc".toList (.ok { readPolicy with allViews := true }), .invalidateAll,
    .finishCall 0 stillClock, .beginCall (sampleRead verifiedMethod) stillClock,
    .resolvePolicy 1 0, .finishCall 1 stillClock]

theorem fresh_timelyTrace :
    Fresh (run sampleEnv sampleSystem timelyTrace) ∧
      (entriesOf (run sampleEnv sampleSystem timelyTrace).cache).length = 1 := by
  have hpasses : passes sampleEnv (fun s a => s.verifiedInTime sampleEnv a) sampleSystem
      timelyTrace = true := by decide +kernel
  exact ⟨fresh_of_reachable (reachable_run (.initial _ _) hpasses), by decide +kernel⟩

/-- The verified read is under way while its policy is revoked and invalidated: it
stores what the policy said before. -/
def lateTrace : List Action :=
  [.beginCall (sampleRead verifiedMethod) stillClock, .resolvePolicy 0 0,
    .changePolicy "abc".toList (.ok { readPolicy with isRevoked := true }),
    .invalidateForCredentialHash (sampleEnv.hashToken "abc".toList), .finishCall 0 stillClock]

/-- A stale decision is reached when nothing is asked of the steps. -/
theorem stale_lateTrace :
    Reachable sampleEnv (fun _ _ => True) (run sampleEnv sampleSystem lateTrace) ∧
      ¬ Fresh (run sampleEnv sampleSystem lateTrace) := by
  refine ⟨?_, by decide +kernel⟩
  have hrun : Reachable sampleEnv (fun s a => (fun _ _ => true : System → Action → Bool) s a = true)
      (run sampleEnv sampleSystem lateTrace) := reachable_run (.initial _ _) (by decide +kernel)
  simpa using hrun

end System

end PlugAgente.Authorization
