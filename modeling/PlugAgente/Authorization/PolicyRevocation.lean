import PlugAgente.Authorization.PolicyCache
import PlugAgente.Machine.Rows

/-!
# No policy outlives its revocation

A lookup is `Fresh` when nothing that covers its credential was invalidated since its loader
started.  Pending lookups and entries are fresh in every state that is reached, since an
invalidation removes what it covers; so `get` returns a fresh policy, and a resolution that is
current was fresh when its future completed.  It is decided then, for all callers that share it: a
caller that goes on after another one has invalidated the credential gets the same resolution.  An
entry ends no later than the credential of its policy.
-/

namespace PlugAgente.Authorization

open PlugAgente.Dart

namespace PolicyCache

/-- Nothing that covers the credential was invalidated since the loader started. -/
def Fresh (c : PolicyCache) (load : PolicyLoad) : Prop :=
  ∀ invalidation ∈ c.invalidations.drop load.invalidations, ¬ covers invalidation load.credentialHash

/-- An entry is of its credential, is fresh if a lookup made it, and ends with the credential. -/
def EntryKept (c : PolicyCache) (e : Text × PolicyCacheEntry) : Prop :=
  (∀ load, e.2.source = some load → load.credentialHash = e.1 ∧ c.Fresh load) ∧
    ∀ expiry, e.2.policy.credentialExpiresAt = some expiry → e.2.expiresAt ≤ expiry

/-- The entries and the pending lookups are fresh, and the count is that of the loaders. -/
structure Kept (config : PolicyCacheConfig) (c : PolicyCache) : Prop where
  entries : ∀ e ∈ c.entries, c.EntryKept e
  pending : ∀ load ∈ c.pending, c.Fresh load
  count : c.inFlightCount = c.running.length
  capacity : c.running.length ≤ config.maxPendingResolutions

variable {config : PolicyCacheConfig} {c : PolicyCache}

/-! ## Entries -/

theorem mem_remove {credentialHash : Text} {e : Text × PolicyCacheEntry}
    (h : e ∈ (c.remove credentialHash).entries) : e ∈ c.entries ∧ e.1 ≠ credentialHash := by
  rw [remove, List.mem_filter] at h
  exact ⟨h.1, by simpa using h.2⟩

theorem mem_of_lookup {credentialHash : Text} {entry : PolicyCacheEntry}
    (h : c.lookup credentialHash = some entry) : (credentialHash, entry) ∈ c.entries := by
  rw [lookup, Option.map_eq_some_iff] at h
  obtain ⟨e, hfind, hentry⟩ := h
  have hkey : e.1 = credentialHash := by simpa using List.find?_some hfind
  rw [← hkey, ← hentry]
  exact List.mem_of_find?_eq_some hfind

theorem get_some {credentialHash : Text} {now : Int} {entry : PolicyCacheEntry} {c' : PolicyCache}
    (h : c.get credentialHash now = (some entry, c')) :
    (credentialHash, entry) ∈ c.entries ∧ now < entry.expiresAt := by
  rw [get] at h
  cases hlookup : c.lookup credentialHash with
  | none => simp [hlookup] at h
  | some found =>
    simp only [hlookup] at h
    split at h
    · simp at h
    · rename_i hnow
      rw [Prod.mk.injEq, Option.some.injEq] at h
      rw [← h.1]
      exact ⟨mem_of_lookup hlookup, not_not.mp hnow⟩

theorem mem_get {credentialHash : Text} {now : Int} {e : Text × PolicyCacheEntry}
    (h : e ∈ (c.get credentialHash now).2.entries) : e ∈ c.entries := by
  rw [get] at h
  cases hlookup : c.lookup credentialHash with
  | none =>
    rw [hlookup] at h
    exact h
  | some found =>
    simp only [hlookup] at h
    split at h
    · exact (mem_remove h).1
    · rcases List.mem_append.mp h with hold | hnew
      · exact (mem_remove hold).1
      · rw [List.mem_singleton.mp hnew]
        exact mem_of_lookup hlookup

theorem get_rest (credentialHash : Text) (now : Int) :
    (c.get credentialHash now).2.pending = c.pending ∧
      (c.get credentialHash now).2.invalidations = c.invalidations ∧
      (c.get credentialHash now).2.inFlightCount = c.inFlightCount ∧
      (c.get credentialHash now).2.running = c.running := by
  rw [get]
  split
  · exact ⟨rfl, rfl, rfl, rfl⟩
  · split <;> exact ⟨rfl, rfl, rfl, rfl⟩

theorem expiresAt_le {policy : ClientTokenPolicy} {expiry : Int}
    (h : policy.credentialExpiresAt = some expiry) (now : Int) :
    expiresAt config policy now ≤ expiry := by
  rw [expiresAt, h]
  dsimp only
  split <;> omega

theorem mem_put {credentialHash : Text} {policy : ClientTokenPolicy} {source : Option PolicyLoad}
    {now : Int} {e : Text × PolicyCacheEntry}
    (h : e ∈ (c.put config credentialHash policy source now).entries) :
    e ∈ c.entries ∨ e.1 = credentialHash ∧ e.2.policy = policy ∧ e.2.source = source ∧
      ∀ expiry, policy.credentialExpiresAt = some expiry → e.2.expiresAt ≤ expiry := by
  rw [put] at h
  dsimp only at h
  split at h
  · exact Or.inl (mem_remove h).1
  · rcases List.mem_append.mp (List.mem_of_mem_drop h) with hold | hnew
    · exact Or.inl (mem_remove hold).1
    · right
      rw [List.mem_singleton.mp hnew]
      exact ⟨rfl, rfl, rfl, fun expiry hexpiry => expiresAt_le hexpiry now⟩

theorem put_rest (config : PolicyCacheConfig) (credentialHash : Text) (policy : ClientTokenPolicy)
    (source : Option PolicyLoad) (now : Int) :
    (c.put config credentialHash policy source now).pending = c.pending ∧
      (c.put config credentialHash policy source now).invalidations = c.invalidations ∧
      (c.put config credentialHash policy source now).inFlightCount = c.inFlightCount ∧
      (c.put config credentialHash policy source now).running = c.running ∧
      (c.put config credentialHash policy source now).openResolutions = c.openResolutions := by
  rw [put]
  dsimp only
  split <;> exact ⟨rfl, rfl, rfl, rfl, rfl⟩

/-! ## Freshness -/

theorem mem_pending_of_isCurrent {load : PolicyLoad} (h : c.isCurrent load = true) :
    load ∈ c.pending := by
  have hpending : c.pendingOf load.credentialHash = some load := by simpa [isCurrent] using h
  exact List.mem_of_find?_eq_some hpending

theorem Fresh.of_eq {c' : PolicyCache} {load : PolicyLoad} (h : c.Fresh load)
    (heq : c'.invalidations = c.invalidations) : c'.Fresh load := by
  rw [Fresh, heq]
  exact h

theorem EntryKept.of_eq {c' : PolicyCache} {e : Text × PolicyCacheEntry} (h : c.EntryKept e)
    (heq : c'.invalidations = c.invalidations) : c'.EntryKept e :=
  ⟨fun load hload => ⟨(h.1 load hload).1, (h.1 load hload).2.of_eq heq⟩, h.2⟩

theorem Fresh.append {c' : PolicyCache} {load : PolicyLoad} {invalidation : Option Text}
    (h : c.Fresh load) (heq : c'.invalidations = c.invalidations ++ [invalidation])
    (hnot : ¬ covers invalidation load.credentialHash) : c'.Fresh load := by
  intro other hother
  rw [heq, List.drop_append] at hother
  rcases List.mem_append.mp hother with hold | hnew
  · exact h other hold
  · rw [List.mem_singleton.mp (List.mem_of_mem_drop hnew)]
    exact hnot

/-! ## Steps -/

theorem Kept.get (h : Kept config c) (credentialHash : Text) (now : Int) :
    Kept config (c.get credentialHash now).2 := by
  obtain ⟨hpending, hinvalidations, hcount, hrunning⟩ := c.get_rest credentialHash now
  refine ⟨?_, ?_, ?_, ?_⟩
  · exact fun e he => (h.entries e (mem_get he)).of_eq hinvalidations
  · rw [hpending]
    exact fun load hload => (h.pending load hload).of_eq hinvalidations
  · rw [hcount, hrunning]
    exact h.count
  · rw [hrunning]
    exact h.capacity

theorem Kept.put (h : Kept config c) {credentialHash : Text} (policy : ClientTokenPolicy)
    {source : Option PolicyLoad} (now : Int)
    (hsource : ∀ load, source = some load → load.credentialHash = credentialHash ∧ c.Fresh load) :
    Kept config (c.put config credentialHash policy source now) := by
  obtain ⟨hpending, hinvalidations, hcount, hrunning, -⟩ :=
    c.put_rest config credentialHash policy source now
  refine ⟨?_, ?_, ?_, ?_⟩
  · intro e he
    rcases mem_put he with hold | ⟨hkey, hpolicy, hentry, hexpiry⟩
    · exact (h.entries e hold).of_eq hinvalidations
    · refine ⟨?_, ?_⟩
      · intro load hload
        rw [hentry] at hload
        rw [hkey]
        exact ⟨(hsource load hload).1, (hsource load hload).2.of_eq hinvalidations⟩
      · rw [hpolicy]
        exact hexpiry
  · rw [hpending]
    exact fun load hload => (h.pending load hload).of_eq hinvalidations
  · rw [hcount, hrunning]
    exact h.count
  · rw [hrunning]
    exact h.capacity

theorem Kept.invalidate (h : Kept config c) (credentialHash : Text) :
    Kept config (c.invalidate credentialHash) := by
  refine ⟨?_, ?_, h.count, h.capacity⟩
  · intro e he
    obtain ⟨hmem, hkey⟩ := mem_remove he
    have hkept := h.entries e hmem
    refine ⟨?_, hkept.2⟩
    intro load hload
    obtain ⟨hcredential, hfresh⟩ := hkept.1 load hload
    refine ⟨hcredential, hfresh.append rfl ?_⟩
    simpa [covers, hcredential, eq_comm] using hkey
  · intro load hload
    obtain ⟨hmem, hne⟩ := List.mem_filter.mp hload
    have hother : load.credentialHash ≠ credentialHash := by simpa using hne
    refine (h.pending load hmem).append rfl ?_
    intro hcovers
    rcases hcovers with hall | hsome
    · cases hall
    · exact hother (Option.some.inj hsome).symm

theorem Kept.invalidateAll (h : Kept config c) : Kept config c.invalidateAll := by
  refine ⟨?_, ?_, h.count, h.capacity⟩
  · intro e he
    cases he
  · intro load hload
    cases hload

theorem Kept.resolveSingleFlight (h : Kept config c) (credentialHash : Text) :
    Kept config (c.resolveSingleFlight config credentialHash) := by
  rw [PolicyCache.resolveSingleFlight]
  split
  · exact ⟨h.entries, h.pending, h.count, h.capacity⟩
  · split
    · exact h
    · rename_i hroom
      have hcount := h.count
      refine ⟨h.entries, ?_, ?_, ?_⟩
      · intro load hload
        rcases List.mem_append.mp hload with hold | hnew
        · exact h.pending load hold
        · rw [List.mem_singleton.mp hnew]
          intro invalidation hmem
          simp at hmem
      · simp [hcount]
      · rw [List.length_append, List.length_singleton]
        omega

theorem Kept.loaderEnded (h : Kept config c) {i : Nat} {load : PolicyLoad}
    (hload : c.running[i]? = some load) (ending : LoaderEnd) :
    Kept config (c.loaderEnded i load ending) := by
  obtain ⟨hlt, -⟩ := List.getElem?_eq_some_iff.mp hload
  have hlength : (c.running.eraseIdx i).length = c.running.length - 1 :=
    List.length_eraseIdx_of_lt hlt
  have hcount := h.count
  have hcapacity := h.capacity
  refine ⟨h.entries, h.pending, ?_, ?_⟩
  · show c.inFlightCount - 1 = ((c.running.eraseIdx i).length : Int)
    omega
  · show (c.running.eraseIdx i).length ≤ config.maxPendingResolutions
    omega

theorem Kept.settled (h : Kept config c) (j : Nat) (load : PolicyLoad) (loaded : Loaded)
    (callers : Nat) (now : Int) : Kept config (c.settled config j load loaded callers now) := by
  have hput : ∀ policy, c.isCurrent load = true →
      Kept config (c.put config load.credentialHash policy (some load) now) := by
    intro policy hcurrent
    apply h.put policy now
    intro other hother
    rw [← Option.some.inj hother]
    exact ⟨rfl, h.pending load (mem_pending_of_isCurrent hcurrent)⟩
  have hthen : Kept config (c.completed config load loaded now) := by
    cases loaded with
    | success policy =>
      rw [completed]
      by_cases hcurrent : c.isCurrent load = true
      · rw [if_pos hcurrent]
        exact hput policy hcurrent
      · rw [if_neg hcurrent]
        exact h
    | failure => exact h
    | error => exact h
  refine ⟨hthen.entries, ?_, hthen.count, hthen.capacity⟩
  intro other hother
  rw [PolicyCache.settled] at hother
  dsimp only at hother
  split at hother
  · exact hthen.pending other (List.mem_filter.mp hother).1
  · exact hthen.pending other hother

theorem Kept.step (h : Kept config c) {a : PolicyCacheAction} {c' : PolicyCache}
    (hstep : (policyCache config).step c a = some c') : Kept config c' := by
  cases a with
  | get credentialHash now =>
    rw [← Option.some.inj hstep]
    exact h.get credentialHash now
  | put credentialHash policy now =>
    rw [← Option.some.inj hstep]
    exact h.put policy now (by simp)
  | invalidate credentialHash =>
    rw [← Option.some.inj hstep]
    exact h.invalidate credentialHash
  | invalidateAll =>
    rw [← Option.some.inj hstep]
    exact h.invalidateAll
  | resolveSingleFlight credentialHash =>
    rw [← Option.some.inj hstep]
    exact h.resolveSingleFlight credentialHash
  | loaderEnded i ending =>
    simp only [policyCache, Option.map_eq_some_iff] at hstep
    obtain ⟨load, hload, hresult⟩ := hstep
    rw [← hresult]
    exact h.loaderEnded hload ending
  | timedOut j =>
    simp only [policyCache] at hstep
    split at hstep
    · rw [← Option.some.inj hstep]
      exact ⟨h.entries, h.pending, h.count, h.capacity⟩
    · cases hstep
  | settled j now =>
    simp only [policyCache] at hstep
    split at hstep
    · rename_i load loaded callers _
      rw [← Option.some.inj hstep]
      exact h.settled j load loaded callers now
    · cases hstep
  | delivered k =>
    simp only [policyCache] at hstep
    split at hstep
    · split_ifs at hstep
      rw [← Option.some.inj hstep]
      exact ⟨h.entries, h.pending, h.count, h.capacity⟩
    · cases hstep

theorem kept_of_reachable (h : (policyCache config).Reachable c) : Kept config c := by
  refine h.invariant ?_ fun c a c' hkept _ hstep => hkept.step hstep
  intro c hstart
  rw [hstart]
  exact ⟨by simp, by simp, rfl, Nat.zero_le _⟩

/-! ## What the callers get -/

/-- An invalidation that covers the credential of a lookup has come after its loader started and
before there were so many of them. -/
def Overtaken (invalidations : List (Option Text)) (load : PolicyLoad) (count : Nat) : Prop :=
  ∃ i invalidation, load.invalidations ≤ i ∧ i < count ∧ invalidations[i]? = some invalidation ∧
    covers invalidation load.credentialHash

/-- A resolution that is current was not overtaken when its future completed. -/
structure Handed (c : PolicyCache) : Prop where
  completed : ∀ d ∈ c.completedResolutions, d.completed ≤ c.invalidations.length ∧
    (d.resolution.isCurrent = true → ¬ Overtaken c.invalidations d.load d.completed)
  received : ∀ r ∈ c.receipts, r.completed ≤ r.received ∧ r.received ≤ c.invalidations.length ∧
    (r.resolution.isCurrent = true → ¬ Overtaken c.invalidations r.load r.completed)

theorem Fresh.not_overtaken {load : PolicyLoad} (h : c.Fresh load) (count : Nat) :
    ¬ Overtaken c.invalidations load count := by
  rintro ⟨i, invalidation, hstarted, -, hinvalidation, hcovers⟩
  refine h invalidation (List.mem_iff_getElem?.mpr ⟨i - load.invalidations, ?_⟩) hcovers
  rw [List.getElem?_drop, Nat.add_sub_cancel' hstarted]
  exact hinvalidation

theorem not_overtaken_later {invalidations later : List (Option Text)} {load : PolicyLoad}
    {count : Nat} (h : ¬ Overtaken invalidations load count) (hcount : count ≤ invalidations.length)
    (hgrows : invalidations <+: later) : ¬ Overtaken later load count := by
  rintro ⟨i, invalidation, hstarted, hlt, hinvalidation, hcovers⟩
  obtain ⟨more, rfl⟩ := hgrows
  rw [List.getElem?_append_left (by omega)] at hinvalidation
  exact h ⟨i, invalidation, hstarted, hlt, hinvalidation, hcovers⟩

theorem Handed.later {c' : PolicyCache} (h : c.Handed)
    (hcompleted : c'.completedResolutions = c.completedResolutions)
    (hreceipts : c'.receipts = c.receipts) (hgrows : c.invalidations <+: c'.invalidations) :
    c'.Handed := by
  refine ⟨?_, ?_⟩
  · rw [hcompleted]
    intro d hd
    obtain ⟨hcount, hfresh⟩ := h.completed d hd
    exact ⟨hcount.trans hgrows.length_le,
      fun hcurrent => not_overtaken_later (hfresh hcurrent) hcount hgrows⟩
  · rw [hreceipts]
    intro r hr
    obtain ⟨hle, hcount, hfresh⟩ := h.received r hr
    exact ⟨hle, hcount.trans hgrows.length_le,
      fun hcurrent => not_overtaken_later (hfresh hcurrent) (hle.trans hcount) hgrows⟩

theorem resolution_current {load : PolicyLoad} {loaded : Loaded}
    {resolution : ClientTokenPolicyResolution} (h : c.resolution load loaded = some resolution)
    (hcurrent : resolution.isCurrent = true) : load ∈ c.pending := by
  apply mem_pending_of_isCurrent
  cases loaded with
  | success policy =>
    cases h
    exact hcurrent
  | failure =>
    cases h
    exact hcurrent
  | error => cases h

theorem put_handed (config : PolicyCacheConfig) (credentialHash : Text)
    (policy : ClientTokenPolicy) (source : Option PolicyLoad) (now : Int) :
    (c.put config credentialHash policy source now).invalidations = c.invalidations ∧
      (c.put config credentialHash policy source now).completedResolutions =
        c.completedResolutions ∧
      (c.put config credentialHash policy source now).receipts = c.receipts := by
  rw [put]
  dsimp only
  split <;> exact ⟨rfl, rfl, rfl⟩

theorem Handed.settled (h : c.Handed) (hkept : Kept config c) (j : Nat) (load : PolicyLoad)
    (loaded : Loaded) (callers : Nat) (now : Int) :
    (c.settled config j load loaded callers now).Handed := by
  have hsame : (c.completed config load loaded now).invalidations = c.invalidations ∧
      (c.completed config load loaded now).completedResolutions = c.completedResolutions ∧
      (c.completed config load loaded now).receipts = c.receipts := by
    cases loaded with
    | success policy =>
      rw [PolicyCache.completed]
      split
      · exact put_handed _ _ _ _ _
      · exact ⟨rfl, rfl, rfl⟩
    | failure | error => exact ⟨rfl, rfl, rfl⟩
  obtain ⟨hinvalidations, hcompleted, hreceipts⟩ := hsame
  refine ⟨?_, ?_⟩
  · intro d hd
    show d.completed ≤ (c.completed config load loaded now).invalidations.length ∧ (_ →
      ¬ Overtaken (c.completed config load loaded now).invalidations d.load d.completed)
    rw [hinvalidations]
    rcases List.mem_append.mp hd with hold | hnew
    · rw [hcompleted] at hold
      exact h.completed d hold
    · obtain ⟨resolution, hresolution, rfl⟩ := List.mem_map.mp hnew
      refine ⟨le_rfl, fun hcurrent => ?_⟩
      have hpending := resolution_current (Option.mem_toList.mp hresolution) hcurrent
      exact (hkept.pending load hpending).not_overtaken _
  · show ∀ r ∈ (c.completed config load loaded now).receipts, r.completed ≤ r.received ∧
      r.received ≤ (c.completed config load loaded now).invalidations.length ∧ (_ →
        ¬ Overtaken (c.completed config load loaded now).invalidations r.load r.completed)
    rw [hreceipts, hinvalidations]
    exact h.received

theorem Handed.delivered (h : c.Handed) {k : Nat} {d : CompletedResolution}
    (hd : c.completedResolutions[k]? = some d) : (c.delivered k d).Handed := by
  obtain ⟨hcount, hfresh⟩ := h.completed d (List.mem_of_getElem? hd)
  refine ⟨?_, ?_⟩
  · intro other hother
    rcases List.mem_or_eq_of_mem_set hother with hold | rfl
    · exact h.completed other hold
    · exact ⟨hcount, hfresh⟩
  · intro r hr
    rcases List.mem_append.mp hr with hold | hnew
    · exact h.received r hold
    · rw [List.mem_singleton.mp hnew]
      exact ⟨hcount, le_rfl, hfresh⟩

theorem Handed.step (h : c.Handed) (hkept : Kept config c) {a : PolicyCacheAction}
    {c' : PolicyCache} (hstep : (policyCache config).step c a = some c') : c'.Handed := by
  cases a with
  | get credentialHash now =>
    rw [← Option.some.inj hstep]
    show (c.get credentialHash now).2.Handed
    rw [PolicyCache.get]
    split
    · exact h
    · split <;> exact h.later rfl rfl List.prefix_rfl
  | put credentialHash policy now =>
    rw [← Option.some.inj hstep]
    obtain ⟨hinvalidations, hcompleted, hreceipts⟩ :=
      c.put_handed config credentialHash policy none now
    exact h.later hcompleted hreceipts (hinvalidations ▸ List.prefix_rfl)
  | invalidate credentialHash =>
    rw [← Option.some.inj hstep]
    exact h.later rfl rfl (List.prefix_append _ _)
  | invalidateAll =>
    rw [← Option.some.inj hstep]
    exact h.later rfl rfl (List.prefix_append _ _)
  | resolveSingleFlight credentialHash =>
    rw [← Option.some.inj hstep]
    show (c.resolveSingleFlight config credentialHash).Handed
    rw [PolicyCache.resolveSingleFlight]
    split
    · exact h.later rfl rfl List.prefix_rfl
    · split
      · exact h
      · exact h.later rfl rfl List.prefix_rfl
  | loaderEnded i ending =>
    simp only [policyCache, Option.map_eq_some_iff] at hstep
    obtain ⟨load, -, rfl⟩ := hstep
    exact h.later rfl rfl List.prefix_rfl
  | timedOut j =>
    simp only [policyCache] at hstep
    split at hstep
    · rw [← Option.some.inj hstep]
      exact h.later rfl rfl List.prefix_rfl
    · cases hstep
  | settled j now =>
    simp only [policyCache] at hstep
    split at hstep
    · rw [← Option.some.inj hstep]
      exact h.settled hkept _ _ _ _ _
    · cases hstep
  | delivered k =>
    simp only [policyCache] at hstep
    split at hstep
    · rename_i d hd
      split_ifs at hstep
      rw [← Option.some.inj hstep]
      exact h.delivered hd
    · cases hstep

theorem handed_of_reachable (h : (policyCache config).Reachable c) : c.Handed := by
  have hall : Kept config c ∧ c.Handed := by
    refine h.invariant (I := fun c => Kept config c ∧ c.Handed) ?_ ?_
    · rintro c rfl
      exact ⟨⟨by simp, by simp, rfl, Nat.zero_le _⟩, ⟨by simp, by simp⟩⟩
    · rintro c a c' ⟨hkept, hhanded⟩ - hstep
      exact ⟨hkept.step hstep, hhanded.step hkept hstep⟩
  exact hall.2

/-- Of two callers that share a lookup, the second goes on after the first one, which found the
credential at its end, has invalidated it: it gets the policy all the same, and as current. -/
theorem stale_policy_delivered :
    ¬ ∀ (c : PolicyCache), (policyCache {}).Reachable c →
      ∀ r ∈ c.receipts, r.resolution.isCurrent = true →
        ∀ policy, r.resolution.result = some policy →
          ¬ Overtaken c.invalidations r.load r.received := by
  intro hall
  let policy : ClientTokenPolicy :=
    { clientId := ['b'], allTables := true, allViews := true,
      globalPermissions := ⟨true, true, true, true⟩, rules := [] }
  let start : PolicyCache := {}
  obtain ⟨c, hrun⟩ : ∃ c, (policyCache {}).run start
      [.resolveSingleFlight ['a'], .resolveSingleFlight ['a'], .loaderEnded 0 (.success policy),
        .settled 0 5, .delivered 0, .invalidate ['a'], .delivered 0] = some c := ⟨_, rfl⟩
  have hc := Option.some.inj hrun
  refine hall c (Machine.reachable_of_run rfl hrun) ⟨⟨0, ['a'], 0⟩, ⟨some policy, true⟩, 0, 1⟩ ?_
    rfl policy rfl ⟨0, some ['a'], le_rfl, Nat.zero_lt_one, ?_, .inr rfl⟩
  · rw [← hc]
    exact List.mem_cons_of_mem _ (List.mem_singleton_self _)
  · rw [← hc]
    rfl

/-- In every state that is reached: `get` returns a policy only of a lookup that started after the
last invalidation of its credential, and only before the credential ends; where a caller has got a
resolution that is current, an invalidation of the credential that came after the loader had
started came after the future had completed; and the loaders that run are counted and are no more
than the configuration allows. -/
theorem policies_current (h : (policyCache config).Reachable c) :
    (∀ credentialHash now entry c', c.get credentialHash now = (some entry, c') →
      (∀ load, entry.source = some load →
        load.credentialHash = credentialHash ∧ c.Fresh load) ∧
      ∀ expiry, entry.policy.credentialExpiresAt = some expiry → now < expiry) ∧
    (∀ r ∈ c.receipts, r.resolution.isCurrent = true →
      ¬ Overtaken c.invalidations r.load r.completed) ∧
    (∀ r ∈ c.receipts, r.completed ≤ r.received ∧ r.received ≤ c.invalidations.length) ∧
    c.running.length ≤ config.maxPendingResolutions ∧ c.inFlightCount = c.running.length := by
  have hkept := kept_of_reachable h
  have hhanded := handed_of_reachable h
  refine ⟨?_, fun r hr => (hhanded.received r hr).2.2, ?_, hkept.capacity, hkept.count⟩
  · intro credentialHash now entry c' hget
    obtain ⟨hmem, hnow⟩ := get_some hget
    obtain ⟨hsource, hexpiry⟩ := hkept.entries _ hmem
    refine ⟨hsource, ?_⟩
    intro expiry hcredential
    have hle : entry.expiresAt ≤ expiry := hexpiry expiry hcredential
    omega
  · intro r hr
    exact ⟨(hhanded.received r hr).1, (hhanded.received r hr).2.1⟩

/-- A lookup that is invalidated while it runs and ends with a policy: its caller gets it, and not
as current. -/
theorem policies_current_invalidated :
    ∃ c : PolicyCache, (policyCache {}).Reachable c ∧ c.invalidations = [some ['a']] ∧
      (c.receipts.map fun r => r.resolution.isCurrent) = [false] ∧
      (∀ credentialHash now entry c', c.get credentialHash now = (some entry, c') →
        (∀ load, entry.source = some load →
          load.credentialHash = credentialHash ∧ c.Fresh load) ∧
        ∀ expiry, entry.policy.credentialExpiresAt = some expiry → now < expiry) ∧
      (∀ r ∈ c.receipts, r.resolution.isCurrent = true →
        ¬ Overtaken c.invalidations r.load r.completed) ∧
      (∀ r ∈ c.receipts, r.completed ≤ r.received ∧ r.received ≤ c.invalidations.length) ∧
      c.running.length ≤ 128 ∧ c.inFlightCount = c.running.length := by
  let policy : ClientTokenPolicy :=
    { clientId := ['b'], allTables := true, allViews := true,
      globalPermissions := ⟨true, true, true, true⟩, rules := [] }
  let run : List PolicyCacheAction :=
    [.resolveSingleFlight ['a'], .invalidate ['a'], .loaderEnded 0 (.success policy),
      .settled 0 5, .delivered 0]
  let start : PolicyCache := {}
  obtain ⟨c, hrun⟩ : ∃ c, (policyCache {}).run start run = some c := ⟨_, rfl⟩
  have hreachable : (policyCache {}).Reachable c := Machine.reachable_of_run rfl hrun
  have hinvalidations : c.invalidations = [some ['a']] := by
    rw [← Option.some.inj hrun]
    rfl
  have hreceipts : (c.receipts.map fun r => r.resolution.isCurrent) = [false] := by
    rw [← Option.some.inj hrun]
    rfl
  exact ⟨c, hreachable, hinvalidations, hreceipts, policies_current hreachable⟩

/-! ## Lookups that are shared -/

/-- The entries are of different credentials, and no more than the configuration allows. -/
def Bounded (config : PolicyCacheConfig) (entries : List (Text × PolicyCacheEntry)) : Prop :=
  (entries.map (·.1)).Nodup ∧ entries.length ≤ config.maxEntries

theorem Bounded.sublist {entries entries' : List (Text × PolicyCacheEntry)}
    (h : Bounded config entries) (hsub : entries'.Sublist entries) : Bounded config entries' :=
  ⟨h.1.sublist (hsub.map _), hsub.length_le.trans h.2⟩

theorem nodup_replaced (h : Bounded config c.entries) (credentialHash : Text)
    (entry : PolicyCacheEntry) :
    (((c.remove credentialHash).entries ++ [(credentialHash, entry)]).map (·.1)).Nodup := by
  rw [List.map_append, List.nodup_append]
  refine ⟨(h.sublist List.filter_sublist).1, List.nodup_singleton _, ?_⟩
  intro key hkey other hother
  obtain ⟨e, he, rfl⟩ := List.mem_map.mp hkey
  rw [List.mem_singleton.mp hother]
  exact (mem_remove he).2

theorem Bounded.get (h : Bounded config c.entries) (credentialHash : Text) (now : Int) :
    Bounded config (c.get credentialHash now).2.entries := by
  rw [PolicyCache.get]
  split
  · exact h
  · rename_i entry hlookup
    split
    · exact h.sublist List.filter_sublist
    · -- The entry moves to the end.
      have hless : (c.remove credentialHash).entries.length < c.entries.length :=
        List.length_filter_lt_length_iff_exists.mpr ⟨_, mem_of_lookup hlookup, by simp⟩
      refine ⟨nodup_replaced h _ _, ?_⟩
      rw [List.length_append, List.length_singleton]
      exact hless.trans_le h.2

theorem Bounded.put (h : Bounded config c.entries) (credentialHash : Text)
    (policy : ClientTokenPolicy) (source : Option PolicyLoad) (now : Int) :
    Bounded config (c.put config credentialHash policy source now).entries := by
  rw [PolicyCache.put]
  dsimp only
  split
  · exact h.sublist List.filter_sublist
  · refine ⟨(nodup_replaced h _ _).sublist ((List.drop_sublist _ _).map _), ?_⟩
    rw [List.length_drop]
    omega

/-- At most one lookup of a credential is pending; each has its future, and the loader of a
future that waits is running. -/
structure Flights (c : PolicyCache) : Prop where
  single : (c.pending.map (·.credentialHash)).Nodup
  opened : ∀ load ∈ c.pending, ∃ o ∈ c.openResolutions, o.load = load
  running : ∀ o ∈ c.openResolutions, o.loaded = none → o.load ∈ c.running

theorem Flights.of_sublist {c' : PolicyCache} (h : c.Flights)
    (hpending : c'.pending.Sublist c.pending) (hopen : c'.openResolutions = c.openResolutions)
    (hrunning : c'.running = c.running) : c'.Flights := by
  refine ⟨h.single.sublist (hpending.map _), ?_, ?_⟩
  · rw [hopen]
    exact fun load hload => h.opened load (hpending.subset hload)
  · rw [hopen, hrunning]
    exact h.running

theorem Flights.get (h : c.Flights) (credentialHash : Text) (now : Int) :
    (c.get credentialHash now).2.Flights := by
  rw [PolicyCache.get]
  split
  · exact h
  · split <;> exact ⟨h.single, h.opened, h.running⟩

theorem Flights.put (h : c.Flights) (credentialHash : Text) (policy : ClientTokenPolicy)
    (source : Option PolicyLoad) (now : Int) :
    (c.put config credentialHash policy source now).Flights := by
  obtain ⟨hpending, -, -, hrunning, hopen⟩ := c.put_rest config credentialHash policy source now
  exact h.of_sublist (hpending ▸ List.Sublist.refl _) hopen hrunning

/-- The futures change and keep their loads, and the loaders of those that wait run. -/
theorem Flights.mapped (h : c.Flights) {c' : PolicyCache} {f : OpenResolution → OpenResolution}
    (hload : ∀ o, (f o).load = o.load) (hpending : c'.pending = c.pending)
    (hopen : c'.openResolutions = c.openResolutions.map f)
    (hrunning : ∀ o ∈ c.openResolutions, (f o).loaded = none → o.load ∈ c'.running) :
    c'.Flights := by
  refine ⟨hpending ▸ h.single, ?_, ?_⟩
  · intro other hother
    obtain ⟨o, ho, heq⟩ := h.opened other (hpending ▸ hother)
    exact ⟨_, hopen ▸ List.mem_map_of_mem ho, (hload o).trans heq⟩
  · intro o' ho' hwaits
    rw [hopen] at ho'
    obtain ⟨o, ho, rfl⟩ := List.mem_map.mp ho'
    rw [hload]
    exact hrunning o ho hwaits

theorem Flights.resolveSingleFlight (h : c.Flights) (credentialHash : Text) :
    (c.resolveSingleFlight config credentialHash).Flights := by
  rw [PolicyCache.resolveSingleFlight]
  split
  · rename_i load _
    refine h.mapped (f := OpenResolution.join load) ?_ rfl rfl ?_
    · intro o
      rw [OpenResolution.join]
      split <;> rfl
    · intro o ho hwaits
      refine h.running o ho ?_
      rw [OpenResolution.join] at hwaits
      split at hwaits
      · exact hwaits
      · exact hwaits
  · rename_i hnone
    split
    · exact h
    · refine ⟨?_, ?_, ?_⟩
      · rw [List.map_append, List.nodup_append]
        refine ⟨h.single, List.nodup_singleton _, ?_⟩
        intro key hkey other hother
        obtain ⟨load, hload, rfl⟩ := List.mem_map.mp hkey
        rw [List.mem_singleton.mp hother]
        have hother := List.find?_eq_none.mp hnone load hload
        simpa using hother
      · intro load hload
        rcases List.mem_append.mp hload with hold | hnew
        · obtain ⟨o, ho, heq⟩ := h.opened load hold
          exact ⟨o, List.mem_append_left _ ho, heq⟩
        · exact ⟨_, List.mem_append_right _ (List.mem_singleton_self _),
            (List.mem_singleton.mp hnew).symm⟩
      · intro o ho hwaits
        rcases List.mem_append.mp ho with hold | hnew
        · exact List.mem_append_left _ (h.running o hold hwaits)
        · rw [List.mem_singleton.mp hnew]
          exact List.mem_append_right _ (List.mem_singleton_self _)

theorem Flights.goOn (h : c.Flights) (load : PolicyLoad) (loaded : Loaded) {c' : PolicyCache}
    (hpending : c'.pending = c.pending)
    (hopen : c'.openResolutions = c.openResolutions.map (OpenResolution.goOn load loaded))
    (hrunning : ∀ other ∈ c.running, other ≠ load → other ∈ c'.running) : c'.Flights := by
  refine h.mapped (f := OpenResolution.goOn load loaded) ?_ hpending hopen ?_
  · intro o
    rw [OpenResolution.goOn]
    split <;> rfl
  · intro o ho hwaits
    rw [OpenResolution.goOn] at hwaits
    split at hwaits
    · cases hwaits
    · rename_i hstays
      refine hrunning _ (h.running o ho hwaits) ?_
      intro heq
      exact hstays ⟨heq, by rw [hwaits]; rfl⟩

theorem Flights.isCurrent (h : c.Flights) {load : PolicyLoad} (hload : load ∈ c.pending) :
    c.isCurrent load = true := by
  rw [PolicyCache.isCurrent, pendingOf, Rows.find?_of_nodup h.single hload]
  simp

theorem Flights.settled (h : c.Flights) {j : Nat} {load : PolicyLoad} {loaded : Loaded}
    {callers : Nat} (hj : c.openResolutions[j]? = some ⟨load, some loaded, callers⟩) (now : Int) :
    (c.settled config j load loaded callers now).Flights := by
  have hthen : (c.completed config load loaded now).Flights ∧
      (c.completed config load loaded now).openResolutions = c.openResolutions := by
    cases loaded with
    | success policy =>
      rw [completed]
      split
      · exact ⟨h.put _ _ _ _, (c.put_rest config _ _ _ _).2.2.2.2⟩
      · exact ⟨h, rfl⟩
    | failure => exact ⟨h, rfl⟩
    | error => exact ⟨h, rfl⟩
  rw [PolicyCache.settled]
  generalize c.completed config load loaded now = d at hthen
  obtain ⟨hd, hopen⟩ := hthen
  rw [← hopen] at hj
  -- A pending lookup that stays is another one, so its future is not the one that completes.
  have hstays : ∀ other ∈ (if d.isCurrent load then
      d.pending.filter fun l => l.credentialHash ≠ load.credentialHash else d.pending),
      other ∈ d.pending ∧ other ≠ load := by
    intro other hother
    split at hother
    · obtain ⟨hmem, hne⟩ := List.mem_filter.mp hother
      refine ⟨hmem, ?_⟩
      rintro rfl
      simp at hne
    · rename_i hstale
      refine ⟨hother, ?_⟩
      rintro rfl
      exact hstale (hd.isCurrent hother)
  refine ⟨List.Nodup.sublist (List.Sublist.map _ ?_) hd.single, ?_,
    fun o ho => hd.running o (List.mem_of_mem_eraseIdx ho)⟩
  · dsimp only
    split
    · exact List.filter_sublist
    · exact List.Sublist.refl _
  · intro other hother
    obtain ⟨hmem, hne⟩ := hstays other hother
    obtain ⟨o, ho, heq⟩ := hd.opened other hmem
    obtain ⟨i, hi⟩ := List.mem_iff_getElem?.mp ho
    refine ⟨o, List.mem_eraseIdx_iff_getElem?.mpr ⟨i, ?_, hi⟩, heq⟩
    rintro rfl
    rw [hj] at hi
    rw [← Option.some.inj hi] at heq
    exact hne heq.symm

theorem flights_step {a : PolicyCacheAction} {c' : PolicyCache} (h : c.Flights)
    (hbounded : Bounded config c.entries) (hstep : (policyCache config).step c a = some c') :
    c'.Flights ∧ Bounded config c'.entries := by
  cases a with
  | get credentialHash now =>
    rw [← Option.some.inj hstep]
    exact ⟨h.get _ _, hbounded.get _ _⟩
  | put credentialHash policy now =>
    rw [← Option.some.inj hstep]
    exact ⟨h.put _ _ _ _, hbounded.put _ _ _ _⟩
  | invalidate credentialHash =>
    rw [← Option.some.inj hstep]
    exact ⟨h.of_sublist List.filter_sublist rfl rfl, hbounded.sublist List.filter_sublist⟩
  | invalidateAll =>
    rw [← Option.some.inj hstep]
    exact ⟨h.of_sublist (List.nil_sublist _) rfl rfl, hbounded.sublist (List.nil_sublist _)⟩
  | resolveSingleFlight credentialHash =>
    rw [← Option.some.inj hstep]
    refine ⟨h.resolveSingleFlight _, ?_⟩
    show Bounded config (c.resolveSingleFlight config credentialHash).entries
    rw [PolicyCache.resolveSingleFlight]
    split
    · exact hbounded
    · split <;> exact hbounded
  | loaderEnded i ending =>
    simp only [policyCache, Option.map_eq_some_iff] at hstep
    obtain ⟨load, hload, rfl⟩ := hstep
    refine ⟨h.goOn load ending.loaded rfl rfl ?_, hbounded⟩
    intro other hother hne
    obtain ⟨k, hk⟩ := List.mem_iff_getElem?.mp hother
    refine List.mem_eraseIdx_iff_getElem?.mpr ⟨k, ?_, hk⟩
    rintro rfl
    exact hne (Option.some.inj (hk.symm.trans hload))
  | timedOut j =>
    simp only [policyCache] at hstep
    split at hstep
    · rw [← Option.some.inj hstep]
      exact ⟨h.goOn _ _ rfl rfl fun _ hother _ => hother, hbounded⟩
    · cases hstep
  | settled j now =>
    simp only [policyCache] at hstep
    split at hstep
    · rename_i load loaded callers hj
      rw [← Option.some.inj hstep]
      refine ⟨h.settled hj now, ?_⟩
      show Bounded config (c.completed config load loaded now).entries
      cases loaded with
      | success policy =>
        rw [completed]
        split
        · exact hbounded.put _ _ _ _
        · exact hbounded
      | failure => exact hbounded
      | error => exact hbounded
    · cases hstep
  | delivered k =>
    simp only [policyCache] at hstep
    split at hstep
    · split_ifs at hstep
      rw [← Option.some.inj hstep]
      exact ⟨h.of_sublist (List.Sublist.refl _) rfl rfl, hbounded⟩
    · cases hstep

/-- In every state that is reached a credential has at most one pending lookup, the callers that
share it await a future that is open, a future that waits has its loader running, and the entries
are of different credentials and no more than the configuration allows. -/
theorem single_flight (h : (policyCache config).Reachable c) :
    (c.pending.map (·.credentialHash)).Nodup ∧
      (∀ load ∈ c.pending, ∃ o ∈ c.openResolutions, o.load = load) ∧
      (∀ o ∈ c.openResolutions, o.loaded = none → o.load ∈ c.running) ∧
      (c.entries.map (·.1)).Nodup ∧ c.entries.length ≤ config.maxEntries := by
  obtain ⟨⟨hsingle, hopened, hrunning⟩, hkeys, hlength⟩ : c.Flights ∧ Bounded config c.entries := by
    refine h.invariant (I := fun c => c.Flights ∧ Bounded config c.entries) ?_ ?_
    · rintro c rfl
      exact ⟨⟨.nil, by simp, by simp⟩, .nil, Nat.zero_le _⟩
    · intro c a c' hc _ hstep
      exact flights_step hc.1 hc.2 hstep
  exact ⟨hsingle, hopened, hrunning, hkeys, hlength⟩

theorem single_flight_invalidated :
    ∃ c, (policyCache {}).run {} [.resolveSingleFlight ['a'], .resolveSingleFlight ['a'],
        .invalidate ['a'], .resolveSingleFlight ['a']] = some c ∧ c.started = 2 ∧
      ∃ o ∈ c.openResolutions, o.load = ⟨1, ['a'], 1⟩ := by
  refine ⟨_, rfl, rfl, ?_⟩
  have hrun : (policyCache {}).run {} [.resolveSingleFlight ['a'], .resolveSingleFlight ['a'],
    .invalidate ['a'], .resolveSingleFlight ['a']] = some _ := rfl
  exact (single_flight (Machine.reachable_of_run rfl hrun)).2.1 _ (List.mem_singleton_self _)

end PolicyCache

end PlugAgente.Authorization
