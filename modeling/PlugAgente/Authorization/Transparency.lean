import PlugAgente.Authorization.PolicyLaw

/-!
# What the decision cache changes

The outcome of a call is compared with the outcome of the same call made with no
decision cache, for a policy that stays as it is during the run.

`allowsCall` is the outcome without a cache.  The results are in three groups.

* `call_isOk`: a call over a cache whose entries say what the policy says of the
  accesses of the call has the outcome `allowsCall`.  The call without a cache is
  the case of no entries.
* `agrees_call`: the puts of a call keep the entries so, for every access of the
  run that has the key of an entry.
* `runCalls_isOk`: the induction over the run.

The key of an access does not hold the type of the resource.  `KeysTellApart` is
the condition on the run that makes up for it.
-/

namespace PlugAgente.Authorization

open PlugAgente.Dart PlugAgente.Sql

variable (env : AuthorizeEnv) (policy : ClientTokenPolicy)

/-! ## The outcome without a cache -/

/-- The accesses of a request; none when the classification fails. -/
def AuthorizeRequest.accesses (r : AuthorizeRequest) : List ClassifiedSqlResource :=
  match r.classification env with
  | .ok classification => classification.resources
  | .error _ => []

/-- The database of a request as the use case compares it. -/
def AuthorizeRequest.database (r : AuthorizeRequest) : Option Text :=
  normalizeDatabaseName env.cm r.requestDatabase

/-- Whether the policy accepts the database of a request. -/
def ClientTokenPolicy.acceptsDatabase (database : Option Text) : Bool :=
  match policy.payloadDatabaseConstraint env.cm with
  | none => true
  | some expected => database == some expected

/-- Whether the policy grants an access of a request. -/
def grants (r : AuthorizeRequest) (a : ClassifiedSqlResource) : Bool :=
  !(trim r.token).isEmpty && policy.acceptsDatabase env (r.database env) &&
    policy.isAllowed env.cm a.operation a.resource

/-- Whether a verified request is refused before any access is looked at. -/
def refusesVerified (r : AuthorizeRequest) : Bool :=
  r.isVerified && (policy.isRevoked || (policy.payloadDatabaseConstraint env.cm).isNone)

/-- The outcome of a call that no cache takes part in. -/
def allowsCall (r : AuthorizeRequest) : Bool :=
  match r.classification env with
  | .error _ => false
  | .ok classification =>
    classification.resources.isEmpty ||
      !refusesVerified env policy r && classification.resources.all (grants env policy r)

variable {env policy}

theorem isNone_validateDatabaseConstraint (database : Option Text)
    (classification : SqlOperationClassification) :
    (validateDatabaseConstraint env.cm policy database classification).isNone =
      policy.acceptsDatabase env database := by
  unfold validateDatabaseConstraint ClientTokenPolicy.acceptsDatabase
  cases policy.payloadDatabaseConstraint env.cm with
  | none => simp
  | some expected =>
    cases database with
    | none => simp
    | some requested =>
      by_cases heq : requested = expected
      · simp [heq]
      · simp [heq]

theorem isAllowed_congr {operation : SqlOperation} {a b : DatabaseResource} {exact : Bool}
    (htype : a.resourceType = b.resourceType)
    (hname : a.normalizedName env.cm = b.normalizedName env.cm) :
    policy.isAllowed env.cm operation a exact = policy.isAllowed env.cm operation b exact := by
  have happlies : ∀ rule : ClientTokenRule, rule.appliesTo env.cm a = rule.appliesTo env.cm b := by
    intro rule
    have hmatch : rule.resource.matchesName env.cm a.name =
        rule.resource.matchesName env.cm b.name := by
      simp only [DatabaseResource.matchesName]
      rw [show normalizeName env.cm a.name = normalizeName env.cm b.name from hname]
    simp only [ClientTokenRule.appliesTo, hmatch, htype]
  have hloop : ∀ (rules : List ClientTokenRule) (found : Bool),
      ClientTokenPolicy.ruleLoop env.cm operation a exact rules found =
        ClientTokenPolicy.ruleLoop env.cm operation b exact rules found := by
    intro rules
    induction rules with
    | nil => intro found; rfl
    | cons rule rules ih =>
      intro found
      simp only [ClientTokenPolicy.ruleLoop, happlies, hname, ih]
  simp only [ClientTokenPolicy.isAllowed, hloop, htype]

/-! ## The lookups -/

def entriesOf (decisionCache : Option DecisionCache) : List (Text × DecisionEntry) :=
  (decisionCache.map (·.entries)).getD []

/-- The cached decisions for the accesses of a request are what `decision` says. -/
def HitsRight (decision : ClassifiedSqlResource → Bool) (ks : List KeyedAccess)
    (decisionCache : Option DecisionCache) : Prop :=
  ∀ x ∈ entriesOf decisionCache, ∀ k ∈ ks, k.key = x.1 → x.2.allowed = decision k.access

theorem mem_entriesOf_lookupAccess {clock : Clock} {s : Lookups} {k : KeyedAccess}
    {x : Text × DecisionEntry} (hx : x ∈ entriesOf (lookupAccess env clock s k).cache) :
    x ∈ entriesOf s.cache := by
  unfold lookupAccess at hx
  cases hcache : s.cache with
  | none => simpa [hcache] using hx
  | some cache =>
    simp only [hcache] at hx
    have hget : x ∈ (cache.get k.key (clock.lookup k.index)).2.entries := by
      split at hx
      · simpa [entriesOf] using hx
      · split at hx <;> simpa [entriesOf] using hx
    exact DecisionCache.mem_of_mem_get hget

theorem mem_entriesOf_lookups {clock : Clock} {ks : List KeyedAccess} {s : Lookups}
    {x : Text × DecisionEntry}
    (hx : x ∈ entriesOf (ks.foldl (lookupAccess env clock) s).cache) : x ∈ entriesOf s.cache := by
  induction ks generalizing s with
  | nil => exact hx
  | cons k ks ih => exact mem_entriesOf_lookupAccess (ih hx)

theorem addDenied_ne_nil (denied : List ClassifiedSqlResource) (a : ClassifiedSqlResource) :
    (addDenied env.cm denied a).isEmpty = false := by
  unfold addDenied
  split
  · rename_i hany
    cases denied with
    | nil => simp at hany
    | cons d ds => rfl
  · simp

/-- What the lookups have settled so far: nothing is denied and the misses are
granted. -/
def Lookups.clear (decision : ClassifiedSqlResource → Bool) (s : Lookups) : Bool :=
  s.denied.isEmpty && s.misses.all fun k => decision k.access

theorem clear_lookupAccess {decision : ClassifiedSqlResource → Bool} {clock : Clock}
    {s : Lookups} {k : KeyedAccess} (hright : HitsRight decision [k] s.cache) :
    (lookupAccess env clock s k).clear decision = (s.clear decision && decision k.access) := by
  unfold lookupAccess
  cases hcache : s.cache with
  | none => simp [Lookups.clear, Bool.and_assoc]
  | some cache =>
    dsimp only
    cases hget : (cache.get k.key (clock.lookup k.index)).1 with
    | none => simp [Lookups.clear, Bool.and_assoc]
    | some entry =>
      have hmem : (k.key, entry) ∈ entriesOf s.cache := by
        simpa [entriesOf, hcache] using DecisionCache.mem_of_get hget
      have hentry : entry.allowed = decision k.access :=
        hright _ hmem k (List.mem_singleton.mpr rfl) rfl
      cases hallowed : entry.allowed with
      | true => simp [Lookups.clear, ← hentry, hallowed]
      | false => simp [Lookups.clear, ← hentry, hallowed, addDenied_ne_nil]

theorem clear_lookups {decision : ClassifiedSqlResource → Bool} {clock : Clock}
    {ks : List KeyedAccess} {s : Lookups} (hright : HitsRight decision ks s.cache) :
    (ks.foldl (lookupAccess env clock) s).clear decision =
      (s.clear decision && ks.all fun k => decision k.access) := by
  induction ks generalizing s with
  | nil => simp
  | cons k ks ih =>
    have hhead : HitsRight decision [k] s.cache := by
      intro x hx k' hk'
      exact hright x hx k' (by simp_all)
    have htail : HitsRight decision ks (lookupAccess env clock s k).cache := by
      intro x hx k' hk'
      exact hright x (mem_entriesOf_lookupAccess hx) k' (List.mem_cons_of_mem k hk')
    rw [List.foldl_cons, ih htail, clear_lookupAccess hhead, List.all_cons, Bool.and_assoc]

theorem mem_misses {clock : Clock} {ks : List KeyedAccess} {s : Lookups} {k : KeyedAccess}
    (hk : k ∈ (ks.foldl (lookupAccess env clock) s).misses) : k ∈ s.misses ∨ k ∈ ks := by
  induction ks generalizing s with
  | nil => exact Or.inl hk
  | cons k' ks ih =>
    rcases ih hk with h | h
    · have hround : k ∈ s.misses ∨ k = k' := by
        unfold lookupAccess at h
        split at h
        · simpa using h
        · dsimp only at h
          split at h
          · simpa using h
          · split at h <;> exact Or.inl h
      rcases hround with h | h
      · exact Or.inl h
      · exact Or.inr (by simp [h])
    · exact Or.inr (List.mem_cons_of_mem k' h)

/-! ## The decisions -/

theorem cacheDecision_eq_some {r : AuthorizeRequest} {clock : Clock} {d : Decision}
    {k : KeyedAccess} {q : Put} (hput : cacheDecision env r clock d k = some q) :
    q.key = k.key ∧ q.entry.allowed = d.allowed := by
  unfold cacheDecision at hput
  split_ifs at hput
  dsimp only at hput
  split_ifs at hput
  rw [Option.some.injEq] at hput
  subst hput
  exact ⟨rfl, rfl⟩

theorem mem_cacheAll {r : AuthorizeRequest} {clock : Clock} {misses : List KeyedAccess}
    {d : Decision} {q : Put} (hq : q ∈ cacheAll env r clock misses d) :
    ∃ k ∈ misses, q.key = k.key ∧ q.entry.allowed = d.allowed := by
  obtain ⟨k, hk, hput⟩ := List.mem_filterMap.mp hq
  exact ⟨k, hk, cacheDecision_eq_some hput⟩

theorem denied_decideAccess {r : AuthorizeRequest} {clock : Clock} {s : Decisions}
    {k : KeyedAccess} :
    (decideAccess env policy r clock s k).denied.isEmpty =
      (s.denied.isEmpty &&
        policy.isAllowed env.cm k.access.operation k.access.resource r.exactResource) := by
  unfold decideAccess
  split
  · rename_i hallowed
    simp [hallowed]
  · rename_i hdenied
    simp [hdenied, addDenied_ne_nil]

theorem denied_decisions {r : AuthorizeRequest} {clock : Clock} {ks : List KeyedAccess}
    {s : Decisions} :
    (ks.foldl (decideAccess env policy r clock) s).denied.isEmpty =
      (s.denied.isEmpty && ks.all fun k =>
        policy.isAllowed env.cm k.access.operation k.access.resource r.exactResource) := by
  induction ks generalizing s with
  | nil => simp
  | cons k ks ih => rw [List.foldl_cons, ih, denied_decideAccess, List.all_cons, Bool.and_assoc]

theorem puts_decideAccess {r : AuthorizeRequest} {clock : Clock} {s : Decisions}
    {k : KeyedAccess} {q : Put} (hq : q ∈ (decideAccess env policy r clock s k).puts) :
    q ∈ s.puts ∨ q.key = k.key ∧ q.entry.allowed =
      policy.isAllowed env.cm k.access.operation k.access.resource r.exactResource := by
  unfold decideAccess at hq
  split at hq
  · rename_i hallowed
    rcases List.mem_append.mp hq with h | h
    · exact Or.inl h
    · rw [Option.mem_toList] at h
      rw [hallowed]
      exact Or.inr (cacheDecision_eq_some h)
  · rename_i hdenied
    rcases List.mem_append.mp hq with h | h
    · exact Or.inl h
    · rw [Option.mem_toList] at h
      rw [Bool.not_eq_true] at hdenied
      rw [hdenied]
      exact Or.inr (cacheDecision_eq_some h)

theorem puts_decisions {r : AuthorizeRequest} {clock : Clock} {ks : List KeyedAccess}
    {s : Decisions} {q : Put} (hq : q ∈ (ks.foldl (decideAccess env policy r clock) s).puts) :
    q ∈ s.puts ∨ ∃ k ∈ ks, q.key = k.key ∧ q.entry.allowed =
      policy.isAllowed env.cm k.access.operation k.access.resource r.exactResource := by
  induction ks generalizing s with
  | nil => exact Or.inl hq
  | cons k ks ih =>
    rcases ih hq with h | ⟨k', hk', hput⟩
    · rcases puts_decideAccess h with h | hput
      · exact Or.inl h
      · exact Or.inr ⟨k, List.mem_cons_self, hput⟩
    · exact Or.inr ⟨k', List.mem_cons_of_mem k hk', hput⟩

/-- The credential is alive at the two readings of the clock that check it. -/
def LiveAt (policy : ClientTokenPolicy) (clock : Clock) : Prop :=
  policy.isCredentialExpiredAt clock.validation = false ∧
    policy.isCredentialExpiredAt clock.lifetime = false

instance (policy : ClientTokenPolicy) (clock : Clock) : Decidable (LiveAt policy clock) :=
  inferInstanceAs (Decidable (_ ∧ _))

theorem isOk_outcome (classification : SqlOperationClassification)
    (policy : Option ClientTokenPolicy) (denied : List ClassifiedSqlResource)
    (reasons : List (Text × String)) (clientId : Option Text) :
    (outcome env classification policy denied reasons clientId).isOk = denied.isEmpty := by
  unfold outcome
  cases denied.isEmpty <;> rfl

/-- The second stretch of a call over a live policy: when it succeeds, and what it
stores. -/
structure SettlesRight (env : AuthorizeEnv) (policy : ClientTokenPolicy) (p : Pending)
    (settled : Except Failure Unit × List Put) : Prop where
  isOk : settled.1.isOk = (!refusesVerified env policy p.request && (p.denied.isEmpty &&
    p.misses.all fun k => grants env policy p.request k.access))
  puts : ∀ q ∈ settled.2, ∃ k ∈ p.misses,
    q.key = k.key ∧ q.entry.allowed = grants env policy p.request k.access

theorem decideCall_settlesRight {p : Pending} {clock : Clock}
    (hexact : p.request.exactResource = false) (hlive : LiveAt policy clock)
    (htoken : (trim p.request.token).isEmpty = false) (hmisses : p.misses ≠ [])
    (hsub : ∀ k ∈ p.misses, k.access ∈ p.classification.resources) :
    SettlesRight env policy p (decideCall env p clock policy) := by
  have hlife : validateLifetime policy clock.lifetime = .ok policy := by
    simp [validateLifetime, hlive.2]
  have haccepts : (validateDatabaseConstraint env.cm policy (p.request.database env)
      p.classification).isNone = policy.acceptsDatabase env (p.request.database env) :=
    isNone_validateDatabaseConstraint _ _
  unfold decideCall
  dsimp only
  split
  · -- a verified request is refused
    rename_i hrefuse
    refine ⟨?_, by simp⟩
    have hrefuse' : refusesVerified env policy p.request = true := hrefuse
    simp [Except.isOk, Except.toBool, hrefuse']
  · rename_i hrefuse
    have hrefuse' : refusesVerified env policy p.request = false :=
      Bool.not_eq_true _ ▸ hrefuse
    rw [hlife]
    dsimp only
    split
    · -- the database of the request is not the one of the policy
      rename_i failure hfailure
      have hno : policy.acceptsDatabase env (p.request.database env) = false := by
        rw [← haccepts]
        simp only [AuthorizeRequest.database]
        rw [hfailure]
        rfl
      have hgrants : ∀ a, grants env policy p.request a = false := by simp [grants, hno]
      refine ⟨?_, ?_⟩
      · obtain ⟨k, ks, hks⟩ := List.exists_cons_of_ne_nil hmisses
        simp [Except.isOk, Except.toBool, hgrants, hks]
      · intro q hq
        obtain ⟨k, hk, hkey, hallowed⟩ := mem_cacheAll hq
        exact ⟨k, hk, hkey, by rw [hallowed, hgrants]⟩
    · rename_i hnone
      have hyes : policy.acceptsDatabase env (p.request.database env) = true := by
        rw [← haccepts]
        simp only [AuthorizeRequest.database]
        rw [hnone]
        rfl
      have hgrants : ∀ a, grants env policy p.request a =
          policy.isAllowed env.cm a.operation a.resource := by
        intro a
        simp [grants, hyes, htoken]
      split
      · -- the global scope covers every access
        rename_i hshort
        have hall : ∀ k ∈ p.misses, grants env policy p.request k.access = true := by
          intro k hk
          rw [hgrants]
          exact ClientTokenPolicy.isAllowed_iff.mpr
            (ClientTokenPolicy.granted_of_canShortCircuit hshort (hsub k hk) _)
        refine ⟨?_, ?_⟩
        · have hmiss : (p.misses.all fun k => grants env policy p.request k.access) = true :=
            List.all_eq_true.mpr hall
          rw [isOk_outcome, hrefuse', hmiss]
          simp
        · intro q hq
          obtain ⟨k, hk, hkey, hallowed⟩ := mem_cacheAll hq
          exact ⟨k, hk, hkey, by rw [hallowed, hall k hk]⟩
      · -- the policy decides each miss
        refine ⟨?_, ?_⟩
        · rw [isOk_outcome, denied_decisions, hrefuse', hexact]
          simp [hgrants]
        · intro q hq
          rcases puts_decisions hq with h | ⟨k, hk, hkey, hallowed⟩
          · simp at h
          · exact ⟨k, hk, hkey, by rw [hallowed, hgrants, hexact]⟩

theorem settleCall_settlesRight {p : Pending} {clock : Clock}
    (hexact : p.request.exactResource = false) (hlive : LiveAt policy clock)
    (hmisses : p.misses ≠ []) (hsub : ∀ k ∈ p.misses, k.access ∈ p.classification.resources) :
    SettlesRight env policy p
      (settleCall env p clock (validateToken p.request.token (.ok policy) clock.validation)) := by
  cases htoken : (trim p.request.token).isEmpty with
  | true =>
    -- An absent token is denied, and the denial is cached.
    have hgrants : ∀ a, grants env policy p.request a = false := by simp [grants, htoken]
    refine ⟨?_, ?_⟩
    · obtain ⟨k, ks, hks⟩ := List.exists_cons_of_ne_nil hmisses
      simp [validateToken, htoken, settleCall, Except.isOk, Except.toBool, hgrants, hks]
    · intro q hq
      have hq' : q ∈ cacheAll env p.request clock p.misses
          { allowed := false, clientId := none, reason := none } := by
        simpa [validateToken, htoken, settleCall, canCacheTokenResolverFailure] using hq
      obtain ⟨k, hk, hkey, hallowed⟩ := mem_cacheAll hq'
      exact ⟨k, hk, hkey, by rw [hallowed, hgrants]⟩
  | false =>
    have hvalid : validateToken p.request.token (.ok policy) clock.validation = .ok policy := by
      simp [validateToken, htoken, validateLifetime, hlive.1]
    rw [hvalid]
    exact decideCall_settlesRight hexact hlive htoken hmisses hsub

/-! ## One call -/

theorem mem_entriesOf_storePuts {decisionCache : Option DecisionCache} {puts : List Put}
    {x : Text × DecisionEntry} (hx : x ∈ entriesOf (storePuts decisionCache puts)) :
    x ∈ entriesOf decisionCache ∨ ∃ q ∈ puts, x = (q.key, q.entry) := by
  cases decisionCache with
  | none => simp [storePuts, entriesOf] at hx
  | some cache =>
    induction puts generalizing cache with
    | nil => exact Or.inl hx
    | cons q puts ih =>
      rcases ih (cache.put q.key q.entry q.now) hx with h | ⟨q', hq', rfl⟩
      · rcases DecisionCache.mem_of_mem_put h with h | h
        · exact Or.inr ⟨q, List.mem_cons_self, h⟩
        · exact Or.inl h
      · exact Or.inr ⟨q', List.mem_cons_of_mem q hq', rfl⟩

theorem access_of_mem_keyedAccesses {r : AuthorizeRequest}
    {classification : SqlOperationClassification} {k : KeyedAccess}
    (hk : k ∈ r.keyedAccesses env classification) :
    k.access ∈ classification.resources ∧ k.key = r.keyOf env k.access := by
  obtain ⟨i, hi, rfl⟩ := List.mem_mapIdx.mp hk
  exact ⟨List.getElem_mem hi, rfl⟩

theorem all_keyedAccesses (r : AuthorizeRequest) (classification : SqlOperationClassification)
    (decision : ClassifiedSqlResource → Bool) :
    ((r.keyedAccesses env classification).all fun k => decision k.access) =
      classification.resources.all decision := by
  unfold AuthorizeRequest.keyedAccesses
  rw [Bool.eq_iff_iff, List.all_eq_true, List.all_eq_true]
  constructor
  · intro hall a ha
    obtain ⟨i, hi, rfl⟩ := List.getElem_of_mem ha
    exact hall ⟨i, classification.resources[i], r.keyOf env classification.resources[i]⟩
      (List.mem_mapIdx.mpr ⟨i, hi, rfl⟩)
  · intro hall k hk
    obtain ⟨i, hi, rfl⟩ := List.mem_mapIdx.mp hk
    exact hall _ (List.getElem_mem hi)

theorem isEmpty_keyedAccesses (r : AuthorizeRequest)
    (classification : SqlOperationClassification) :
    (r.keyedAccesses env classification).isEmpty = classification.resources.isEmpty := by
  unfold AuthorizeRequest.keyedAccesses
  cases classification.resources <;> simp

/-- What a call does over a cache whose hits are right: its outcome is the one
without a cache, and each new entry says what the policy grants. -/
structure CallsRight (env : AuthorizeEnv) (policy : ClientTokenPolicy) (r : AuthorizeRequest)
    (before : Option DecisionCache) (after : Except Failure Unit × Option DecisionCache) :
    Prop where
  isOk : after.1.isOk = allowsCall env policy r
  entries : ∀ x ∈ entriesOf after.2, x ∈ entriesOf before ∨
    ∃ a ∈ r.accesses env, x.1 = r.keyOf env a ∧ x.2.allowed = grants env policy r a

theorem misses_of_cache_none {clock : Clock} {ks : List KeyedAccess} {s : Lookups}
    (hcache : s.cache = none) :
    (ks.foldl (lookupAccess env clock) s).misses = s.misses ++ ks := by
  induction ks generalizing s with
  | nil => simp
  | cons k ks ih =>
    have hround : lookupAccess env clock s k = { s with misses := s.misses ++ [k] } := by
      simp [lookupAccess, hcache]
    rw [List.foldl_cons, hround, ih (by exact hcache)]
    simp

theorem mem_entriesOf_readCache {r : AuthorizeRequest} {decisionCache : Option DecisionCache}
    {x : Text × DecisionEntry} (hx : x ∈ entriesOf (r.readCache decisionCache)) :
    x ∈ entriesOf decisionCache := by
  unfold AuthorizeRequest.readCache at hx
  split at hx
  · simp [entriesOf] at hx
  · exact hx

theorem mem_entriesOf_beginCall {decisionCache : Option DecisionCache} {r : AuthorizeRequest}
    {clock : Clock} {x : Text × DecisionEntry}
    (hx : x ∈ entriesOf (beginCall env decisionCache r clock).2) :
    x ∈ entriesOf decisionCache := by
  have hor : ∀ s : Lookups, (∀ y ∈ entriesOf s.cache, y ∈ entriesOf (r.readCache decisionCache)) →
      x ∈ entriesOf (s.cache.or decisionCache) → x ∈ entriesOf decisionCache := by
    intro s hs hx
    cases hcache : s.cache with
    | none => simpa [hcache] using hx
    | some cache =>
      exact mem_entriesOf_readCache (hs x (by simpa [hcache] using hx))
  unfold beginCall at hx
  split at hx
  · exact hx
  · dsimp only at hx
    split at hx
    · exact hor _ (fun y hy => mem_entriesOf_lookups hy) hx
    · exact hor _ (fun y hy => mem_entriesOf_lookups hy) hx

theorem key_of_mem_pending_misses {decisionCache : Option DecisionCache} {r : AuthorizeRequest}
    {clock : Clock} {p : Pending} (hbegin : (beginCall env decisionCache r clock).1 = .pending p)
    {k : KeyedAccess} (hk : k ∈ p.misses) : k.key = r.keyOf env k.access := by
  unfold beginCall at hbegin
  split at hbegin
  · simp at hbegin
  · dsimp only at hbegin
    split_ifs at hbegin
    rw [BeginResult.pending.injEq] at hbegin
    subst hbegin
    rcases mem_misses hk with h | h
    · simp at h
    · exact (access_of_mem_keyedAccesses h).2

theorem call_callsRight {r : AuthorizeRequest} {clock : Clock}
    {decisionCache : Option DecisionCache} (hexact : r.exactResource = false)
    (hlive : LiveAt policy clock)
    (hright : ∀ x ∈ entriesOf decisionCache, ∀ a ∈ r.accesses env,
      r.keyOf env a = x.1 → x.2.allowed = grants env policy r a) :
    CallsRight env policy r decisionCache (call env decisionCache r clock (.ok policy)) := by
  unfold call beginCall
  cases hclass : r.classification env with
  | error failure =>
    refine ⟨?_, fun x hx => Or.inl hx⟩
    simp [allowsCall, hclass, Except.isOk, Except.toBool]
  | ok classification =>
    have haccesses : r.accesses env = classification.resources := by
      simp [AuthorizeRequest.accesses, hclass]
    have hallows : allowsCall env policy r = (classification.resources.isEmpty ||
        !refusesVerified env policy r && classification.resources.all (grants env policy r)) := by
      simp [allowsCall, hclass]
    dsimp only
    set ks := r.keyedAccesses env classification with hks
    set s := ks.foldl (lookupAccess env clock) { cache := r.readCache decisionCache } with hs
    have hhits : HitsRight (grants env policy r) ks (r.readCache decisionCache) := by
      intro x hx k hk hkey
      obtain ⟨haccess, hkeyOf⟩ := access_of_mem_keyedAccesses hk
      exact hright x (mem_entriesOf_readCache hx) k.access (haccesses ▸ haccess)
        (hkeyOf ▸ hkey)
    have hclear : s.clear (grants env policy r) =
        classification.resources.all (grants env policy r) := by
      rw [hs, clear_lookups hhits, hks, all_keyedAccesses]
      simp [Lookups.clear]
    have hkept : ∀ x ∈ entriesOf (s.cache.or decisionCache), x ∈ entriesOf decisionCache := by
      intro x hx
      cases hcache : s.cache with
      | none => simpa [hcache] using hx
      | some cache =>
        have hx' : x ∈ entriesOf s.cache := by simpa [hcache] using hx
        exact mem_entriesOf_readCache (mem_entriesOf_lookups hx')
    by_cases hmisses : s.misses = []
    · -- every access was a hit
      rw [if_pos (by simp [hmisses])]
      refine ⟨?_, fun x hx => Or.inl (hkept x hx)⟩
      rw [isOk_outcome, hallows, ← hclear]
      have hdenied : s.clear (grants env policy r) = s.denied.isEmpty := by
        simp [Lookups.clear, hmisses]
      cases hverified : r.isVerified with
      | true =>
        have hempty : classification.resources = [] := by
          have hcache : r.readCache decisionCache = none := by
            simp [AuthorizeRequest.readCache, hverified]
          have hall : s.misses = [] ++ ks := by
            rw [hs]
            exact misses_of_cache_none hcache
          have hnil : ks.isEmpty = true := by simp_all
          rw [hks, isEmpty_keyedAccesses] at hnil
          simpa using hnil
        have htrue : s.denied.isEmpty = true := by
          rw [← hdenied, hclear, hempty]
          rfl
        simp [htrue, hempty]
      | false =>
        have hrefuse : refusesVerified env policy r = false := by
          simp [refusesVerified, hverified]
        rw [hrefuse, hdenied]
        cases hempty : classification.resources.isEmpty with
        | true =>
          have htrue : s.denied.isEmpty = true := by
            rw [← hdenied, hclear, List.isEmpty_iff.mp hempty]
            rfl
          simp [htrue]
        | false => simp
    · rw [if_neg (by simpa using hmisses)]
      have hsub : ∀ k ∈ s.misses, k ∈ ks := by
        intro k hk
        rcases mem_misses hk with h | h
        · simp at h
        · exact h
      dsimp only
      set p : Pending := ⟨r, classification, (r.readCache decisionCache).map (·.revision),
        s.misses, s.denied, s.reasons, s.clientId⟩ with hp
      have hsettle : SettlesRight env policy p
          (settleCall env p clock (validateToken r.token (.ok policy) clock.validation)) :=
        settleCall_settlesRight hexact hlive hmisses
          (fun k hk => (access_of_mem_keyedAccesses (hsub k hk)).1)
      refine ⟨?_, ?_⟩
      · have hresources : classification.resources.isEmpty = false := by
          have hkeyed : ks.isEmpty = classification.resources.isEmpty :=
            isEmpty_keyedAccesses r classification
          rw [← hkeyed]
          obtain ⟨k, hk⟩ := List.exists_mem_of_ne_nil _ hmisses
          rw [List.isEmpty_eq_false_iff_exists_mem]
          exact ⟨k, hsub k hk⟩
        rw [hsettle.isOk, hallows, hresources, ← hclear]
        simp [Lookups.clear, hp]
      · intro x hx
        rcases mem_entriesOf_storePuts hx with h | ⟨q, hq, rfl⟩
        · exact Or.inl (hkept x h)
        · obtain ⟨k, hk, hkey, hallowed⟩ := hsettle.puts q hq
          obtain ⟨haccess, hkeyOf⟩ := access_of_mem_keyedAccesses (hsub k hk)
          refine Or.inr ⟨k.access, haccesses ▸ haccess, ?_, hallowed⟩
          rw [hkey, hkeyOf]

/-! ## Keys -/

/-- The part of a key after the operation. -/
def keyTail (database : Option Text) (resource : Text) : Text :=
  match database with
  | none => resource
  | some d => "db:".toList ++ d ++ '|' :: resource

theorem decisionCacheKey_eq (hash : Text) (operation : SqlOperation) (resource : Text)
    (database : Option Text) :
    decisionCacheKey hash operation resource database =
      hash ++ '|' :: (operation.name.toList ++ '|' :: keyTail database resource) := by
  cases database <;> simp [decisionCacheKey, keyTail]

/-- No name of an operation is the beginning of another one, so the key of a
credential fixes the operation and what stands after it. -/
theorem decisionCacheKey_inj {hash : Text} {operation operation' : SqlOperation}
    {resource resource' : Text} {database database' : Option Text}
    (hkey : decisionCacheKey hash operation resource database =
      decisionCacheKey hash operation' resource' database') :
    operation = operation' ∧ keyTail database resource = keyTail database' resource' := by
  rw [decisionCacheKey_eq, decisionCacheKey_eq, List.append_cancel_left_eq,
    List.cons.injEq] at hkey
  have htail := hkey.2
  cases operation <;> cases operation' <;> simp_all [SqlOperation.name]

theorem keyTail_inj {database : Option Text} {resource resource' : Text}
    (htail : keyTail database resource = keyTail database resource') : resource = resource' := by
  cases database with
  | none => exact htail
  | some d => simpa [keyTail] using htail

/-! ## Runs -/

variable (env policy)

/-- Calls one after the other over one decision cache, each with its own clock;
the resolver answers with the policy every time. -/
def runCalls : Option DecisionCache → List (AuthorizeRequest × Clock) → List (Except Failure Unit)
  | _, [] => []
  | decisionCache, c :: calls =>
    let r := call env decisionCache c.1 c.2 (.ok policy)
    r.1 :: runCalls r.2 calls

/-- The calls are made with one token, by methods that decide by the base name,
while the credential is alive. -/
structure SteadyRun (token : Text) (calls : List (AuthorizeRequest × Clock)) : Prop where
  token : ∀ c ∈ calls, c.1.token = token
  method : ∀ c ∈ calls, c.1.method ≠ some operationMethod
  live : ∀ c ∈ calls, LiveAt policy c.2

/-- Two accesses of the run that have the operation and the rest of the key in
common have the database and the type of the resource in common as well, or the
policy does not tell them apart. -/
def KeysTellApart (calls : List (AuthorizeRequest × Clock)) : Prop :=
  ∀ c ∈ calls, ∀ c' ∈ calls, ∀ a ∈ c.1.accesses env, ∀ b ∈ c'.1.accesses env,
    a.operation = b.operation →
    keyTail (c.1.database env) (a.resource.normalizedName env.cm) =
      keyTail (c'.1.database env) (b.resource.normalizedName env.cm) →
    (c.1.database env = c'.1.database env ∧
      a.resource.resourceType = b.resource.resourceType) ∨
    (policy.isAllowed env.cm a.operation a.resource =
        policy.isAllowed env.cm b.operation b.resource ∧
      (policy.isAllowed env.cm a.operation a.resource = true →
        policy.acceptsDatabase env (c.1.database env) =
          policy.acceptsDatabase env (c'.1.database env)))

/-- The invariant of a run: an entry says what the policy grants to every access
of the run that has its key. -/
def Agrees (calls : List (AuthorizeRequest × Clock)) (decisionCache : Option DecisionCache) :
    Prop :=
  ∀ x ∈ entriesOf decisionCache, ∀ c ∈ calls, ∀ a ∈ c.1.accesses env,
    c.1.keyOf env a = x.1 → x.2.allowed = grants env policy c.1 a

variable {env policy}

section Run

variable {token : Text} {calls : List (AuthorizeRequest × Clock)}

theorem SteadyRun.exactResource (hsteady : SteadyRun policy token calls)
    {c : AuthorizeRequest × Clock} (hc : c ∈ calls) : c.1.exactResource = false := by
  simpa [AuthorizeRequest.exactResource] using hsteady.method c hc

theorem key_parts (hsteady : SteadyRun policy token calls) {c c' : AuthorizeRequest × Clock}
    (hc : c ∈ calls) (hc' : c' ∈ calls) {a b : ClassifiedSqlResource}
    (hkey : c.1.keyOf env a = c'.1.keyOf env b) :
    a.operation = b.operation ∧
      keyTail (c.1.database env) (a.resource.normalizedName env.cm) =
        keyTail (c'.1.database env) (b.resource.normalizedName env.cm) := by
  unfold AuthorizeRequest.keyOf at hkey
  rw [hsteady.token c hc, hsteady.token c' hc'] at hkey
  exact decisionCacheKey_inj hkey

theorem isAllowed_eq_of_key_eq (hsteady : SteadyRun policy token calls)
    (hapart : KeysTellApart env policy calls) {c c' : AuthorizeRequest × Clock} (hc : c ∈ calls)
    (hc' : c' ∈ calls) {a b : ClassifiedSqlResource} (ha : a ∈ c.1.accesses env)
    (hb : b ∈ c'.1.accesses env) (hkey : c.1.keyOf env a = c'.1.keyOf env b) :
    policy.isAllowed env.cm a.operation a.resource =
      policy.isAllowed env.cm b.operation b.resource := by
  obtain ⟨hop, htail⟩ := key_parts hsteady hc hc' hkey
  rcases hapart c hc c' hc' a ha b hb hop htail with ⟨hdatabase, htype⟩ | ⟨halike, -⟩
  · rw [hdatabase] at htail
    rw [hop]
    exact isAllowed_congr htype (keyTail_inj htail)
  · exact halike

theorem grants_eq_of_key_eq (hsteady : SteadyRun policy token calls)
    (hapart : KeysTellApart env policy calls) {c c' : AuthorizeRequest × Clock} (hc : c ∈ calls)
    (hc' : c' ∈ calls) {a b : ClassifiedSqlResource} (ha : a ∈ c.1.accesses env)
    (hb : b ∈ c'.1.accesses env) (hkey : c.1.keyOf env a = c'.1.keyOf env b) :
    grants env policy c.1 a = grants env policy c'.1 b := by
  have hallowed := isAllowed_eq_of_key_eq hsteady hapart hc hc' ha hb hkey
  obtain ⟨hop, htail⟩ := key_parts hsteady hc hc' hkey
  unfold grants
  rw [hsteady.token c hc, hsteady.token c' hc', ← hallowed]
  rcases hapart c hc c' hc' a ha b hb hop htail with ⟨hdatabase, -⟩ | ⟨-, haccepts⟩
  · rw [hdatabase]
  · cases h : policy.isAllowed env.cm a.operation a.resource with
    | true => rw [haccepts h]
    | false => simp

theorem agrees_call (hsteady : SteadyRun policy token calls)
    (hapart : KeysTellApart env policy calls) {decisionCache : Option DecisionCache}
    (hagrees : Agrees env policy calls decisionCache) {c : AuthorizeRequest × Clock}
    (hc : c ∈ calls) :
    Agrees env policy calls (call env decisionCache c.1 c.2 (.ok policy)).2 := by
  have hright := call_callsRight (hsteady.exactResource hc) (hsteady.live c hc)
    (fun x hx a ha => hagrees x hx c hc a ha)
  intro x hx c' hc' b hb hkey
  rcases hright.entries x hx with h | ⟨a, ha, hkeyx, hallowed⟩
  · exact hagrees x h c' hc' b hb hkey
  · rw [hallowed]
    exact grants_eq_of_key_eq hsteady hapart hc hc' ha hb (hkeyx ▸ hkey.symm)

/-- The run lemma: over a cache that agrees with the policy each call of the run
has the outcome it has without a cache. -/
theorem runCalls_isOk (hsteady : SteadyRun policy token calls)
    (hapart : KeysTellApart env policy calls) {cs : List (AuthorizeRequest × Clock)}
    (hcs : ∀ c ∈ cs, c ∈ calls) {decisionCache : Option DecisionCache}
    (hagrees : Agrees env policy calls decisionCache) :
    (runCalls env policy decisionCache cs).map Except.isOk =
      cs.map fun c => allowsCall env policy c.1 := by
  induction cs generalizing decisionCache with
  | nil => rfl
  | cons c cs ih =>
    have hc : c ∈ calls := hcs c List.mem_cons_self
    have hright := call_callsRight (hsteady.exactResource hc) (hsteady.live c hc)
      (fun x hx a ha => hagrees x hx c hc a ha)
    have htail := ih (fun c' hc' => hcs c' (List.mem_cons_of_mem c hc'))
      (agrees_call hsteady hapart hagrees hc)
    simp only [runCalls, List.map_cons, hright.isOk, htail]

/-- The decision cache is transparent in every run that no key confuses. -/
theorem runCalls_transparent (maxEntries : Nat) (hsteady : SteadyRun policy token calls)
    (hapart : KeysTellApart env policy calls) :
    (runCalls env policy (some { maxEntries := maxEntries }) calls).map Except.isOk =
        calls.map (fun c => (call env none c.1 c.2 (.ok policy)).1.isOk) ∧
      ∀ c ∈ calls, ∀ c' ∈ calls, ∀ a ∈ c.1.accesses env, ∀ b ∈ c'.1.accesses env,
        c.1.keyOf env a = c'.1.keyOf env b →
          policy.isAllowed env.cm a.operation a.resource =
            policy.isAllowed env.cm b.operation b.resource := by
  refine ⟨?_, fun c hc c' hc' a ha b hb => isAllowed_eq_of_key_eq hsteady hapart hc hc' ha hb⟩
  have hempty : Agrees env policy calls (some { maxEntries := maxEntries }) := by
    intro x hx
    simp [entriesOf] at hx
  rw [runCalls_isOk hsteady hapart (fun c hc => hc) hempty]
  apply List.map_congr_left
  intro c hc
  have hnone : CallsRight env policy c.1 none (call env none c.1 c.2 (.ok policy)) :=
    call_callsRight (hsteady.exactResource hc) (hsteady.live c hc)
      (fun x hx => by simp [entriesOf] at hx)
  rw [hnone.isOk]

end Run

/-! ## A run with both answers -/

/-- SHA-256 of the token of the runs below. -/
def sampleEnv : AuthorizeEnv where
  cm := asciiCase
  sha256 token :=
    if token = "abc".toList then
      "ba7816bf8f01cfea414140de5dae2223b00361a396177a9cb410ff61f20015ad".toList
    else []

/-- A clock that stands still. -/
def stillClock : Clock where
  lookup _ := 0
  validation := 0
  lifetime := 0
  decision _ := 0
  eviction _ := 0

/-- A policy that grants DDL on every table and on no view. -/
def tablesOnlyPolicy : ClientTokenPolicy where
  clientId := "c".toList
  allTables := true
  allViews := false
  globalPermissions := { canRead := true, canUpdate := true, canDelete := true, canDdl := true }
  rules := []

/-- A call with a statement. -/
def sampleCall (sql : String) : AuthorizeRequest × Clock :=
  (⟨"abc".toList, sql.toList, none, none, some "sql.execute", none⟩, stillClock)

theorem runCalls_transparent_sample :
    (runCalls sampleEnv tablesOnlyPolicy (some { maxEntries := 8192 })
        [sampleCall "drop table t", sampleCall "drop view v", sampleCall "drop table t"]).map
        Except.isOk = [true, false, true] := by
  have hsteady : SteadyRun tablesOnlyPolicy "abc".toList
      [sampleCall "drop table t", sampleCall "drop view v", sampleCall "drop table t"] :=
    ⟨by decide, by decide, by decide +kernel⟩
  have hapart : KeysTellApart sampleEnv tablesOnlyPolicy
      [sampleCall "drop table t", sampleCall "drop view v", sampleCall "drop table t"] := by
    unfold KeysTellApart
    decide +kernel
  rw [(runCalls_transparent 8192 hsteady hapart).1]
  decide +kernel

/-- `DROP TABLE x` leaves an entry that lets `DROP VIEW x` through, which the
policy does not allow. -/
theorem runCalls_not_transparent :
    SteadyRun tablesOnlyPolicy "abc".toList
        [sampleCall "drop table x", sampleCall "drop view x"] ∧
      (runCalls sampleEnv tablesOnlyPolicy (some {})
        [sampleCall "drop table x", sampleCall "drop view x"]).map Except.isOk = [true, true] ∧
      ([sampleCall "drop table x", sampleCall "drop view x"].map fun c =>
        (call sampleEnv none c.1 c.2 (.ok tablesOnlyPolicy)).1.isOk) = [true, false] :=
  ⟨⟨by decide, by decide, by decide +kernel⟩, by decide +kernel, by decide +kernel⟩

end PlugAgente.Authorization
