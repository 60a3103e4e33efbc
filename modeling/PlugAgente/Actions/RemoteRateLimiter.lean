import PlugAgente.Dart.LinkedMap
import PlugAgente.Machine.Ledger
import PlugAgente.Machine.Transition

/-!
# The rate limiter of remote actions

`AgentActionRemoteRateLimiter`: a count for each scope, in windows of one minute.  The scopes are
held by the text that joins their four parts, and different scopes may have the same text.

`limits_keys` is what the limiter keeps for the joined texts in every run.  `limits` is what that
comes to for the scopes themselves, when the calls of a run have no text in common by accident.

A call of `Random.nextInt` is any number below its bound.
-/

namespace PlugAgente.Actions

open PlugAgente.Dart

/-! ## The limiter -/

/-- The arguments of `tryAcquire`. -/
structure RemoteScope where
  agentId : String
  method : String
  actionId : String
  requesterKey : String
  deriving DecidableEq, Repr

def scopeKey (scope : RemoteScope) : String :=
  scope.agentId ++ "|" ++ scope.method ++ "|" ++ scope.actionId ++ "|" ++ scope.requesterKey

/-- `AgentActionRemoteRateLimitDecision`; `retryAfter` is in milliseconds. -/
structure AgentActionRemoteRateLimitDecision where
  allowed : Bool
  retryAfter : Option Int
  deriving DecidableEq, Repr

structure WindowCount where
  windowId : Int
  count : Int
  deriving DecidableEq, Repr

/-- The parameters of the limiter. -/
structure RateLimiterConfig where
  max : Int
  maxScopeEntries : Int := 8192

abbrev Windows := LinkedMap String WindowCount

/-- `millisecondsSinceEpoch` of a time in microseconds. -/
def millisecondsSinceEpoch (now : Int) : Int := now.tdiv 1000

def windowId (now : Int) : Int := (millisecondsSinceEpoch now).tdiv 60000

/-- `_windows.removeWhere((_, value) => value.windowId < currentWindowId - 2)`. -/
def removeStale (windows : Windows) (currentWindowId : Int) : Windows :=
  windows.removeWhere fun _ value => value.windowId < currentWindowId - 2

/-- The loop of `_evictBeforeNewKeyIfNeeded`; `nextInt` draws below the number of keys. -/
def evictRandom (maxScopeEntries : Int) (nextInt : Nat → Nat) : List (String × WindowCount) →
    List (String × WindowCount)
  | [] => []
  | entry :: rest =>
    if maxScopeEntries ≤ (entry :: rest).length then
      evictRandom maxScopeEntries nextInt
        ((entry :: rest).eraseIdx (nextInt (entry :: rest).length % (entry :: rest).length))
    else entry :: rest
termination_by entries => entries.length
decreasing_by
  have hlt := Nat.mod_lt (nextInt (entry :: rest).length) (Nat.succ_pos rest.length)
  rw [List.length_eraseIdx_of_lt hlt]
  exact Nat.lt_succ_self _

theorem evictRandom_sublist (maxScopeEntries : Int) (nextInt : Nat → Nat)
    (entries : List (String × WindowCount)) :
    (evictRandom maxScopeEntries nextInt entries).Sublist entries := by
  fun_induction evictRandom maxScopeEntries nextInt entries with
  | case1 => exact List.Sublist.refl _
  | case2 entry rest _ ih => exact ih.trans (List.eraseIdx_sublist _ _)
  | case3 entry rest => exact List.Sublist.refl _

def evictBeforeNewKeyIfNeeded (maxScopeEntries : Int) (nextInt : Nat → Nat)
    (windows : Windows) (currentWindowId : Int) : Windows :=
  if maxScopeEntries ≤ 0 || windows.entries.length < maxScopeEntries then windows
  else
    let windows := removeStale windows currentWindowId
    ⟨evictRandom maxScopeEntries nextInt windows.entries,
      windows.nodup.sublist ((evictRandom_sublist _ _ _).map Prod.fst)⟩

def trimExcessEntries (windows : Windows) (currentWindowId : Int) : Windows :=
  if windows.entries.length ≤ 4096 then windows else removeStale windows currentWindowId

def tryAcquire (cfg : RateLimiterConfig) (nextInt : Nat → Nat) (windows : Windows) (now : Int)
    (scope : RemoteScope) : Windows × AgentActionRemoteRateLimitDecision :=
  if cfg.max ≤ 0 then (windows, ⟨true, none⟩)
  else
    let current := windowId now
    let key := scopeKey scope
    match windows.get key with
    | none =>
      let windows := evictBeforeNewKeyIfNeeded cfg.maxScopeEntries nextInt windows current
      (trimExcessEntries (windows.put key ⟨current, 1⟩) current, ⟨true, none⟩)
    | some entry =>
      if entry.windowId ≠ current then
        (trimExcessEntries (windows.put key ⟨current, 1⟩) current, ⟨true, none⟩)
      else if cfg.max ≤ entry.count then
        (windows, ⟨false, some ((current + 1) * 60000 - millisecondsSinceEpoch now)⟩)
      else (windows.put key ⟨current, entry.count + 1⟩, ⟨true, none⟩)

/-! ## Runs -/

/-- A call of `tryAcquire`, with the numbers that it draws. -/
structure AcquireEvent where
  now : Int
  scope : RemoteScope
  nextInt : Nat → Nat

/-- A call with its decision. -/
structure AcquireCall where
  now : Int
  scope : RemoteScope
  decision : AgentActionRemoteRateLimitDecision
  deriving DecidableEq, Repr

/-- A limiter with the calls that were made so far. -/
structure LimiterRun where
  windows : Windows := LinkedMap.empty
  log : List AcquireCall := []
  deriving DecidableEq

def LimiterRun.step (cfg : RateLimiterConfig) (s : LimiterRun) (e : AcquireEvent) : LimiterRun :=
  let r := tryAcquire cfg e.nextInt s.windows e.now e.scope
  ⟨r.1, s.log ++ [⟨e.now, e.scope, r.2⟩]⟩

def limiterMachine (cfg : RateLimiterConfig) : Machine LimiterRun AcquireEvent where
  start s := s = {}
  step s e := some (s.step cfg e)

def allowedKey (key : String) (window : Int) (call : AcquireCall) : Bool :=
  call.decision.allowed && scopeKey call.scope == key && windowId call.now == window

def allowedScope (scope : RemoteScope) (window : Int) (call : AcquireCall) : Bool :=
  call.decision.allowed && call.scope == scope && windowId call.now == window

/-- The number of different scopes. -/
def scopes (log : List AcquireCall) : Nat := (log.map AcquireCall.scope).toFinset.card

/-- A time that is not before 1970, nor before any call. -/
def Later (log : List AcquireCall) (now : Int) : Prop :=
  0 ≤ now ∧ ∀ call ∈ log, call.now ≤ now

/-- The clock does not run backwards, and it is not before 1970. -/
def ClockInOrder (s : LimiterRun) (e : AcquireEvent) : Prop := Later s.log e.now

/-- No other scope was called that has the same key. -/
def OwnKey (s : LimiterRun) (e : AcquireEvent) : Prop :=
  ∀ call ∈ s.log, scopeKey call.scope = scopeKey e.scope → call.scope = e.scope

/-- What a run of the limiter is to keep. -/
structure Limits (cfg : RateLimiterConfig) (s : LimiterRun) : Prop where
  share : ∀ scope window, scopes s.log < cfg.maxScopeEntries →
    ((s.log.countP (allowedScope scope window) : Nat) : Int) ≤ cfg.max
  denied : ∀ before call after, s.log = before ++ call :: after →
    scopes s.log < cfg.maxScopeEntries → call.decision.allowed = false →
      cfg.max ≤ ((before.countP (allowedScope call.scope (windowId call.now)) : Nat) : Int)
  retryAfter : ∀ call ∈ s.log, call.decision.allowed = false →
    ∃ wait, call.decision.retryAfter = some wait ∧ 0 < wait ∧ wait ≤ 60000
  tracked : 0 < cfg.maxScopeEntries → s.windows.entries.length ≤ cfg.maxScopeEntries

/-! ## The minute windows -/

section Windows

variable {now later : Int}

theorem windowId_eq (h : 0 ≤ now) : windowId now = now / 1000 / 60000 := by
  unfold windowId millisecondsSinceEpoch
  rw [Int.tdiv_eq_ediv_of_nonneg h, Int.tdiv_eq_ediv_of_nonneg (by omega)]

theorem windowId_mono (h : 0 ≤ now) (hle : now ≤ later) : windowId now ≤ windowId later := by
  rw [windowId_eq h, windowId_eq (by omega)]
  omega

theorem remaining_bounds (h : 0 ≤ now) :
    0 < (windowId now + 1) * 60000 - millisecondsSinceEpoch now ∧
      (windowId now + 1) * 60000 - millisecondsSinceEpoch now ≤ 60000 := by
  rw [windowId_eq h]
  unfold millisecondsSinceEpoch
  rw [Int.tdiv_eq_ediv_of_nonneg h]
  omega

end Windows

/-! ## What a call does -/

section Acquire

variable {cfg : RateLimiterConfig} {nextInt : Nat → Nat} {windows windows' : Windows}
  {now : Int} {scope : RemoteScope} {decision : AgentActionRemoteRateLimitDecision}

/-- What a call comes to, with a limit.  `base` is what is left of the windows. -/
inductive Acquires (cfg : RateLimiterConfig) (windows : Windows) (now : Int) (scope : RemoteScope) :
    Windows × AgentActionRemoteRateLimitDecision → Prop where
  | fresh (base : Windows) (hbase : base.entries.Sublist windows.entries)
      (hother : ∀ entry, windows.get (scopeKey scope) = some entry → entry.windowId ≠ windowId now)
      (hroom : scopeKey scope ∈ windows.keys ∨ windows.entries.length < cfg.maxScopeEntries →
        base = windows)
      (htracked : 0 < cfg.maxScopeEntries → scopeKey scope ∉ windows.keys →
        base.entries.length < cfg.maxScopeEntries) :
      Acquires cfg windows now scope
        (trimExcessEntries (base.put (scopeKey scope) ⟨windowId now, 1⟩) (windowId now),
          ⟨true, none⟩)
  | denied {count : Int} (hentry : windows.get (scopeKey scope) = some ⟨windowId now, count⟩)
      (hfull : cfg.max ≤ count) :
      Acquires cfg windows now scope
        (windows, ⟨false, some ((windowId now + 1) * 60000 - millisecondsSinceEpoch now)⟩)
  | counted {count : Int} (hentry : windows.get (scopeKey scope) = some ⟨windowId now, count⟩)
      (hroom : count < cfg.max) :
      Acquires cfg windows now scope
        (windows.put (scopeKey scope) ⟨windowId now, count + 1⟩, ⟨true, none⟩)

theorem length_evictRandom {maxScopeEntries : Int} (h : 0 < maxScopeEntries)
    (entries : List (String × WindowCount)) :
    (evictRandom maxScopeEntries nextInt entries).length < maxScopeEntries := by
  fun_induction evictRandom maxScopeEntries nextInt entries with
  | case1 => exact h
  | case2 entry rest _ ih => exact ih
  | case3 entry rest hroom => exact not_le.mp hroom

theorem acquires (hmax : 0 < cfg.max) (nextInt : Nat → Nat) (windows : Windows) (now : Int)
    (scope : RemoteScope) :
    Acquires cfg windows now scope (tryAcquire cfg nextInt windows now scope) := by
  unfold tryAcquire
  rw [if_neg (not_le.mpr hmax)]
  dsimp only
  split
  · rename_i hnone
    have habsent := LinkedMap.get_eq_none_iff.mp hnone
    refine .fresh _ ?_ ?_ ?_ ?_
    · unfold evictBeforeNewKeyIfNeeded
      split
      · exact List.Sublist.refl _
      · exact (evictRandom_sublist _ _ _).trans List.filter_sublist
    · intro entry hentry
      rw [hnone] at hentry
      cases hentry
    · rintro (hthere | hroom)
      · exact absurd hthere habsent
      · exact if_pos (by simp [hroom])
    · intro hpos _
      unfold evictBeforeNewKeyIfNeeded
      split
      · rename_i hroom
        simp only [Bool.or_eq_true, decide_eq_true_eq] at hroom
        omega
      · exact length_evictRandom hpos _
  · rename_i entry hentry
    split
    · rename_i hother
      refine .fresh windows (List.Sublist.refl _) ?_ (fun _ => rfl) ?_
      · intro entry' hentry'
        rw [hentry] at hentry'
        rwa [← Option.some.inj hentry']
      · intro _ habsent
        rw [LinkedMap.get_eq_none_iff.mpr habsent] at hentry
        cases hentry
    · rename_i hsame
      rw [not_not] at hsame
      obtain ⟨window, count⟩ := entry
      obtain rfl : window = windowId now := hsame
      split
      · rename_i hfull
        exact .denied hentry hfull
      · rename_i hroom
        exact .counted hentry (not_le.mp hroom)

end Acquire

/-! ## The counts -/

/-- The number of different keys. -/
def keys (log : List AcquireCall) : Nat :=
  (log.map fun call => scopeKey call.scope).toFinset.card

structure Counts (get : String → Option WindowCount) (log : List AcquireCall) : Prop where
  held : ∀ key entry, get key = some entry →
    entry.count = ((log.countP (allowedKey key entry.windowId) : Nat) : Int) ∧
      ∀ call ∈ log, scopeKey call.scope = key → windowId call.now ≤ entry.windowId
  gone : ∀ key, get key = none → ∀ call ∈ log, scopeKey call.scope = key →
    ∀ later, Later log later → windowId call.now < windowId later

/-- What the state of the limiter says of the log. -/
structure Kept (cfg : RateLimiterConfig) (s : LimiterRun) : Prop where
  times : ∀ call ∈ s.log, 0 ≤ call.now
  tracked : 0 < cfg.maxScopeEntries → s.windows.entries.length ≤ cfg.maxScopeEntries
  seen : ∀ key entry, s.windows.get key = some entry →
    ∃ call ∈ s.log, scopeKey call.scope = key ∧ windowId call.now = entry.windowId
  counts : keys s.log ≤ cfg.maxScopeEntries → Counts s.windows.get s.log

/-- What the limiter keeps for the keys. -/
structure KeyLimits (cfg : RateLimiterConfig) (log : List AcquireCall) : Prop where
  share : keys log ≤ cfg.maxScopeEntries → ∀ key window,
    ((log.countP (allowedKey key window) : Nat) : Int) ≤ cfg.max
  denied : ∀ before call after, log = before ++ call :: after →
    keys log ≤ cfg.maxScopeEntries → call.decision.allowed = false →
      cfg.max ≤
        ((before.countP (allowedKey (scopeKey call.scope) (windowId call.now)) : Nat) : Int)
  retryAfter : ∀ call ∈ log, call.decision.allowed = false →
    ∃ wait, call.decision.retryAfter = some wait ∧ 0 < wait ∧ wait ≤ 60000

section Counts

variable {cfg : RateLimiterConfig} {log : List AcquireCall} {call : AcquireCall}

theorem later_concat {later : Int} (h : Later (log ++ [call]) later) :
    Later log later ∧ call.now ≤ later :=
  ⟨⟨h.1, fun c hc => h.2 c (List.mem_append_left _ hc)⟩,
    h.2 call (List.mem_append_right _ (List.mem_singleton_self _))⟩

theorem keys_concat_le (log : List AcquireCall) (call : AcquireCall) :
    keys log ≤ keys (log ++ [call]) := by
  unfold keys
  refine Finset.card_le_card fun key hkey => ?_
  rw [List.mem_toFinset] at hkey ⊢
  rw [List.map_append]
  exact List.mem_append_left _ hkey

theorem keys_before {bound : Int} (h : keys (log ++ [call]) ≤ bound) : keys log ≤ bound := by
  have := keys_concat_le log call
  omega

theorem countP_concat_other {key : String} {window : Int}
    (h : scopeKey call.scope ≠ key ∨ windowId call.now ≠ window ∨ call.decision.allowed = false) :
    (log ++ [call]).countP (allowedKey key window) = log.countP (allowedKey key window) := by
  have hnot : ¬ allowedKey key window call = true := by
    unfold allowedKey
    simp only [Bool.and_eq_true, beq_iff_eq]
    rintro ⟨⟨hallowed, hkey⟩, hwindow⟩
    rw [hallowed] at h
    simp [hkey, hwindow] at h
  rw [List.countP_append, List.countP_singleton, if_neg hnot, Nat.add_zero]

theorem countP_concat_own (log : List AcquireCall) (call : AcquireCall)
    (h : call.decision.allowed = true) :
    (log ++ [call]).countP (allowedKey (scopeKey call.scope) (windowId call.now)) =
      log.countP (allowedKey (scopeKey call.scope) (windowId call.now)) + 1 := by
  have hown : allowedKey (scopeKey call.scope) (windowId call.now) call = true := by
    simp [allowedKey, h]
  rw [List.countP_append, List.countP_singleton, if_pos hown]

theorem Counts.none_allowed {get : String → Option WindowCount} (h : Counts get log) {key : String}
    {now : Int} (hnow : Later log now)
    (hother : ∀ entry, get key = some entry → entry.windowId < windowId now) :
    log.countP (allowedKey key (windowId now)) = 0 := by
  rw [List.countP_eq_zero]
  intro call hcall hallowed
  unfold allowedKey at hallowed
  simp only [Bool.and_eq_true, beq_iff_eq] at hallowed
  obtain ⟨⟨-, hkey⟩, hwindow⟩ := hallowed
  cases hget : get key with
  | none =>
    have := h.gone key hget call hcall hkey now hnow
    omega
  | some entry =>
    have := (h.held key entry hget).2 call hcall hkey
    have := hother entry hget
    omega

theorem Counts.write {get get' : String → Option WindowCount} (h : Counts get log)
    (htimes : ∀ c ∈ log, 0 ≤ c.now) (hnow : Later log call.now) (count : Int)
    (hget : ∀ key, get' key =
      if key = scopeKey call.scope then some ⟨windowId call.now, count⟩ else get key)
    (hcount : count = (((log ++ [call]).countP
      (allowedKey (scopeKey call.scope) (windowId call.now)) : Nat) : Int)) :
    Counts get' (log ++ [call]) where
  held := by
    intro key entry hentry
    rw [hget] at hentry
    by_cases hkey : key = scopeKey call.scope
    · rw [if_pos hkey] at hentry
      obtain rfl := Option.some.inj hentry
      subst hkey
      refine ⟨hcount, ?_⟩
      intro c hc _
      rcases List.mem_append.mp hc with hc | hc
      · exact windowId_mono (htimes c hc) (hnow.2 c hc)
      · rw [List.mem_singleton.mp hc]
    · rw [if_neg hkey] at hentry
      obtain ⟨hheld, hle⟩ := h.held key entry hentry
      rw [countP_concat_other (.inl (Ne.symm hkey))]
      refine ⟨hheld, ?_⟩
      intro c hc hsame
      rcases List.mem_append.mp hc with hc | hc
      · exact hle c hc hsame
      · rw [List.mem_singleton.mp hc] at hsame
        exact absurd hsame.symm hkey
  gone := by
    intro key hnone c hc hsame later hlater
    rw [hget] at hnone
    by_cases hkey : key = scopeKey call.scope
    · rw [if_pos hkey] at hnone
      cases hnone
    · rw [if_neg hkey] at hnone
      rcases List.mem_append.mp hc with hc | hc
      · exact h.gone key hnone c hc hsame later (later_concat hlater).1
      · rw [List.mem_singleton.mp hc] at hsame
        exact absurd hsame.symm hkey

theorem Counts.drop {get get' : String → Option WindowCount} (h : Counts get log) (now : Int)
    (hlast : ∀ later, Later log later → windowId now ≤ windowId later)
    (hget : ∀ key entry, get' key = some entry → get key = some entry)
    (hdropped : ∀ key entry, get key = some entry → get' key = none →
      entry.windowId < windowId now) : Counts get' log where
  held key entry hentry := h.held key entry (hget key entry hentry)
  gone := by
    intro key hnone call hcall hkey later hlater
    cases hold : get key with
    | none => exact h.gone key hold call hcall hkey later hlater
    | some entry =>
      have hle := (h.held key entry hold).2 call hcall hkey
      have hlt := hdropped key entry hold hnone
      have := hlast later hlater
      omega

theorem get_trimExcessEntries {windows : Windows} {window : Int} {key : String}
    {entry : WindowCount} (h : (trimExcessEntries windows window).get key = some entry) :
    windows.get key = some entry := by
  unfold trimExcessEntries at h
  split at h
  · exact h
  · exact (LinkedMap.get_removeWhere.mp h).1

theorem stale_of_trimmed {windows : Windows} {window : Int} {key : String}
    {entry : WindowCount} (h : windows.get key = some entry)
    (hnone : (trimExcessEntries windows window).get key = none) : entry.windowId < window := by
  unfold trimExcessEntries at hnone
  split at hnone
  · rw [h] at hnone
    cases hnone
  · by_contra hrecent
    have hkept : (removeStale windows window).get key = some entry :=
      LinkedMap.get_removeWhere.mpr ⟨h, by rw [decide_eq_false_iff_not]; omega⟩
    rw [hnone] at hkept
    cases hkept

theorem length_trimExcessEntries_le (windows : Windows) (window : Int) :
    (trimExcessEntries windows window).entries.length ≤ windows.entries.length := by
  unfold trimExcessEntries
  split
  · exact le_refl _
  · exact LinkedMap.length_removeWhere_le _ _

theorem Kept.room {s : LimiterRun} (h : Kept cfg s) {call : AcquireCall}
    (hkeys : keys (s.log ++ [call]) ≤ cfg.maxScopeEntries)
    (hnew : scopeKey call.scope ∉ s.windows.keys) :
    s.windows.entries.length < cfg.maxScopeEntries := by
  have hnodup : (scopeKey call.scope :: s.windows.keys).Nodup :=
    List.nodup_cons.mpr ⟨hnew, s.windows.nodup⟩
  have hsub : (scopeKey call.scope :: s.windows.keys).toFinset ⊆
      ((s.log ++ [call]).map fun c => scopeKey c.scope).toFinset := by
    intro key hkey
    rw [List.mem_toFinset] at hkey ⊢
    rw [List.map_append]
    rcases List.mem_cons.mp hkey with rfl | hkey
    · exact List.mem_append_right _ (List.mem_singleton_self _)
    · cases hget : s.windows.get key with
      | none => exact absurd hkey (LinkedMap.get_eq_none_iff.mp hget)
      | some entry =>
        obtain ⟨c, hc, rfl, -⟩ := h.seen key entry hget
        exact List.mem_append_left _ (List.mem_map_of_mem hc)
  have hcard := Finset.card_le_card hsub
  rw [List.toFinset_card_of_nodup hnodup, List.length_cons] at hcard
  have hlength : s.windows.keys.length = s.windows.entries.length := List.length_map _
  unfold keys at hkeys
  omega

end Counts

/-! ## The step of a run -/

section Step

variable {cfg : RateLimiterConfig} {s : LimiterRun} {now : Int} {scope : RemoteScope}
  {windows : Windows} {decision : AgentActionRemoteRateLimitDecision}

theorem mem_concat_last (log : List AcquireCall) (call : AcquireCall) : call ∈ log ++ [call] :=
  List.mem_append_right _ (List.mem_singleton_self _)

theorem get_of_sublist {base windows : Windows} (h : base.entries.Sublist windows.entries)
    {key : String} {entry : WindowCount} (hget : base.get key = some entry) :
    windows.get key = some entry :=
  LinkedMap.get_eq_some_iff.mpr (h.subset (LinkedMap.get_eq_some_iff.mp hget))

theorem Kept.windowId_le (h : Kept cfg s) (hnow : Later s.log now) {key : String}
    {entry : WindowCount} (hentry : s.windows.get key = some entry) :
    entry.windowId ≤ windowId now := by
  obtain ⟨call, hcall, -, hwindow⟩ := h.seen key entry hentry
  rw [← hwindow]
  exact windowId_mono (h.times call hcall) (hnow.2 call hcall)

theorem Kept.fresh_zero (h : Kept cfg s) (hnow : Later s.log now)
    (hkeys : keys s.log ≤ cfg.maxScopeEntries) {key : String}
    (hother : ∀ entry, s.windows.get key = some entry → entry.windowId ≠ windowId now) :
    s.log.countP (allowedKey key (windowId now)) = 0 := by
  refine (h.counts hkeys).none_allowed hnow fun entry hentry => ?_
  have hle := h.windowId_le hnow hentry
  have hne := hother entry hentry
  omega

theorem Kept.acquired (h : Kept cfg s) (hnow : Later s.log now)
    (ha : Acquires cfg s.windows now scope (windows, decision)) :
    Kept cfg ⟨windows, s.log ++ [⟨now, scope, decision⟩]⟩ := by
  have htimes : ∀ call ∈ s.log ++ [⟨now, scope, decision⟩], 0 ≤ call.now := by
    intro call hcall
    rcases List.mem_append.mp hcall with hcall | hcall
    · exact h.times call hcall
    · rw [List.mem_singleton.mp hcall]
      exact hnow.1
  cases ha with
  | fresh base hbase hother hroom htracked =>
    refine ⟨htimes, ?_, ?_, ?_⟩
    · intro hpos
      have htrim := length_trimExcessEntries_le
        (base.put (scopeKey scope) ⟨windowId now, 1⟩) (windowId now)
      have hput := LinkedMap.length_put_le base (scopeKey scope) ⟨windowId now, 1⟩
      have hlength := h.tracked hpos
      show ((trimExcessEntries _ _).entries.length : Int) ≤ _
      by_cases hthere : scopeKey scope ∈ s.windows.keys
      · obtain rfl := hroom (.inl hthere)
        rw [if_pos hthere] at hput
        omega
      · have := htracked hpos hthere
        split at hput <;> omega
    · intro key entry hentry
      have hput := get_trimExcessEntries hentry
      rw [LinkedMap.get_put] at hput
      by_cases hkey : key = scopeKey scope
      · rw [if_pos hkey] at hput
        obtain rfl := Option.some.inj hput
        exact ⟨_, mem_concat_last _ _, hkey.symm, rfl⟩
      · rw [if_neg hkey] at hput
        obtain ⟨call, hcall, hseen⟩ := h.seen key entry (get_of_sublist hbase hput)
        exact ⟨call, List.mem_append_left _ hcall, hseen⟩
    · intro hkeys
      have hbase_eq : base = s.windows := by
        by_cases hthere : scopeKey scope ∈ s.windows.keys
        · exact hroom (.inl hthere)
        · exact hroom (.inr (h.room hkeys hthere))
      subst hbase_eq
      have hzero := h.fresh_zero hnow (keys_before hkeys) hother
      have hwritten : Counts (s.windows.put (scopeKey scope) ⟨windowId now, 1⟩).get
          (s.log ++ [⟨now, scope, ⟨true, none⟩⟩]) := by
        refine (h.counts (keys_before hkeys)).write h.times hnow _ (LinkedMap.get_put _ _ _) ?_
        rw [countP_concat_own s.log _ rfl, hzero]
        rfl
      refine hwritten.drop now ?_ ?_ ?_
      · intro later hlater
        exact windowId_mono hnow.1 (later_concat hlater).2
      · intro key entry hentry
        exact get_trimExcessEntries hentry
      · intro key entry hentry hnone
        exact stale_of_trimmed hentry hnone
  | @denied count hentry hfull =>
    refine ⟨htimes, h.tracked, ?_, ?_⟩
    · intro key entry hentry
      obtain ⟨call, hcall, hseen⟩ := h.seen key entry hentry
      exact ⟨call, List.mem_append_left _ hcall, hseen⟩
    · intro hkeys
      have hcounts := h.counts (keys_before hkeys)
      refine hcounts.write h.times hnow count ?_ ?_
      · intro key
        by_cases hkey : key = scopeKey scope
        · rw [if_pos hkey, hkey]
          exact hentry
        · rw [if_neg hkey]
      · rw [countP_concat_other (.inr (.inr rfl))]
        exact (hcounts.held _ _ hentry).1
  | @counted count hentry hroom =>
    refine ⟨htimes, ?_, ?_, ?_⟩
    · intro hpos
      have hput := LinkedMap.length_put_le s.windows (scopeKey scope) ⟨windowId now, count + 1⟩
      have hthere : scopeKey scope ∈ s.windows.keys := by
        by_contra hnot
        rw [LinkedMap.get_eq_none_iff.mpr hnot] at hentry
        cases hentry
      have hlength := h.tracked hpos
      rw [if_pos hthere] at hput
      show ((s.windows.put _ _).entries.length : Int) ≤ _
      omega
    · intro key entry hput
      rw [LinkedMap.get_put] at hput
      by_cases hkey : key = scopeKey scope
      · rw [if_pos hkey] at hput
        obtain rfl := Option.some.inj hput
        exact ⟨_, mem_concat_last _ _, hkey.symm, rfl⟩
      · rw [if_neg hkey] at hput
        obtain ⟨call, hcall, hseen⟩ := h.seen key entry hput
        exact ⟨call, List.mem_append_left _ hcall, hseen⟩
    · intro hkeys
      have hcounts := h.counts (keys_before hkeys)
      refine hcounts.write h.times hnow _ (LinkedMap.get_put _ _ _) ?_
      have hcount : count = _ := (hcounts.held _ _ hentry).1
      rw [countP_concat_own s.log _ rfl, Nat.cast_add, ← hcount]
      rfl

theorem KeyLimits.acquired (hlimits : KeyLimits cfg s.log) (h : Kept cfg s) (hmax : 0 < cfg.max)
    (hnow : Later s.log now) (ha : Acquires cfg s.windows now scope (windows, decision)) :
    KeyLimits cfg (s.log ++ [⟨now, scope, decision⟩]) := by
  constructor
  · intro hkeys key window
    by_cases hown : key = scopeKey scope ∧ window = windowId now ∧ decision.allowed = true
    · obtain ⟨rfl, rfl, hallowed⟩ := hown
      rw [countP_concat_own s.log ⟨now, scope, decision⟩ hallowed]
      cases ha with
      | fresh base hbase hother =>
        rw [h.fresh_zero hnow (keys_before hkeys) hother]
        omega
      | denied => cases hallowed
      | counted hentry hroom =>
        have := ((h.counts (keys_before hkeys)).held _ _ hentry).1
        push_cast
        dsimp only at this
        omega
    · rw [countP_concat_other]
      · exact hlimits.share (keys_before hkeys) key window
      · by_contra hsame
        simp only [not_or, ne_eq, not_not, Bool.not_eq_false] at hsame
        exact hown ⟨hsame.1.symm, hsame.2.1.symm, hsame.2.2⟩
  · intro before call after hlog hkeys hdenied
    rcases Ledger.concat_split hlog with ⟨rfl, rfl⟩ | ⟨rest, rfl, hrest⟩
    · cases ha with
      | fresh => cases hdenied
      | denied hentry hfull =>
        rw [← ((h.counts (keys_before hkeys)).held _ _ hentry).1]
        exact hfull
      | counted => cases hdenied
    · exact hlimits.denied before call rest hrest (keys_before hkeys) hdenied
  · intro call hcall hdenied
    rcases List.mem_append.mp hcall with hcall | hcall
    · exact hlimits.retryAfter call hcall hdenied
    · obtain rfl := List.mem_singleton.mp hcall
      cases ha with
      | fresh => cases hdenied
      | denied => exact ⟨_, rfl, remaining_bounds hnow.1⟩
      | counted => cases hdenied

end Step

/-! ## The run -/

section Run

variable {cfg : RateLimiterConfig} {s : LimiterRun}

theorem limits_keys (hmax : 0 < cfg.max) (h : (limiterMachine cfg).Reach ClockInOrder s) :
    Kept cfg s ∧ KeyLimits cfg s.log := by
  refine h.invariant (I := fun s => Kept cfg s ∧ KeyLimits cfg s.log) ?_ ?_
  · intro s hstart
    obtain rfl : s = {} := hstart
    refine ⟨⟨by simp, fun hpos => hpos.le, ?_, fun _ => ⟨?_, by simp⟩⟩, ?_⟩
    · intro key entry hentry
      cases hentry
    · intro key entry hentry
      cases hentry
    · constructor <;> simp [hmax.le]
  · intro s event s' hs hguard hstep
    obtain rfl : s.step cfg event = s' := Option.some.inj hstep
    have ha := acquires hmax event.nextInt s.windows event.now event.scope
    exact ⟨hs.1.acquired hguard ha, hs.2.acquired hs.1 hmax hguard ha⟩

/-- No two scopes that were called have the same key. -/
def Distinct (log : List AcquireCall) : Prop :=
  ∀ c ∈ log, ∀ d ∈ log, scopeKey c.scope = scopeKey d.scope → c.scope = d.scope

theorem distinct_calls
    (h : (limiterMachine cfg).Reach (fun s e => ClockInOrder s e ∧ OwnKey s e) s) :
    Distinct s.log := by
  refine h.invariant (I := fun s => Distinct s.log) ?_ ?_
  · intro s hstart
    obtain rfl : s = {} := hstart
    intro c hc
    cases hc
  · intro s event s' hs hguard hstep
    obtain rfl : s.step cfg event = s' := Option.some.inj hstep
    have hown : OwnKey s event := hguard.2
    intro c hc d hd hkey
    rcases List.mem_append.mp hc with hc | hc <;> rcases List.mem_append.mp hd with hd | hd
    · exact hs c hc d hd hkey
    · rw [List.mem_singleton.mp hd] at hkey ⊢
      exact hown c hc hkey
    · rw [List.mem_singleton.mp hc] at hkey ⊢
      exact (hown d hd hkey.symm).symm
    · rw [List.mem_singleton.mp hc, List.mem_singleton.mp hd]

theorem keys_le_scopes (log : List AcquireCall) : keys log ≤ scopes log := by
  have himage : (log.map fun call => scopeKey call.scope).toFinset =
      (log.map AcquireCall.scope).toFinset.image scopeKey := by
    ext key
    simp
  unfold keys scopes
  rw [himage]
  exact Finset.card_image_le

theorem countP_scope_le_key (log : List AcquireCall) (scope : RemoteScope) (window : Int) :
    log.countP (allowedScope scope window) ≤ log.countP (allowedKey (scopeKey scope) window) := by
  refine List.countP_mono_left fun call _ hallowed => ?_
  unfold allowedScope at hallowed
  unfold allowedKey
  simp only [Bool.and_eq_true, beq_iff_eq] at hallowed ⊢
  exact ⟨⟨hallowed.1.1, congrArg scopeKey hallowed.1.2⟩, hallowed.2⟩

/-- What the limiter keeps for the scopes, in every run in which no two of them have the same
key. -/
theorem limits (hmax : 0 < cfg.max)
    (h : (limiterMachine cfg).Reach (fun s e => ClockInOrder s e ∧ OwnKey s e) s) :
    Limits cfg s := by
  have hkept := limits_keys hmax (h.mono fun _ _ hguard => hguard.1)
  have hdistinct := distinct_calls h
  have hkeys := keys_le_scopes s.log
  constructor
  · intro scope window hscopes
    have hshare := hkept.2.share (by omega) (scopeKey scope) window
    have hle := countP_scope_le_key s.log scope window
    omega
  · intro before call after hlog hscopes hdenied
    have hfull := hkept.2.denied before call after hlog (by omega) hdenied
    -- The calls with the key of the denied one are those of its scope.
    have hsame : before.countP (allowedKey (scopeKey call.scope) (windowId call.now)) =
        before.countP (allowedScope call.scope (windowId call.now)) := by
      refine List.countP_congr fun c hc => ?_
      have hcall : call ∈ s.log := hlog ▸ List.mem_append_right _ List.mem_cons_self
      have hbefore : c ∈ s.log := hlog ▸ List.mem_append_left _ hc
      have hscope : scopeKey c.scope = scopeKey call.scope ↔ c.scope = call.scope :=
        ⟨hdistinct c hbefore call hcall, congrArg scopeKey⟩
      unfold allowedKey allowedScope
      simp only [Bool.and_eq_true, beq_iff_eq, hscope]
    rw [← hsame]
    exact hfull
  · exact hkept.2.retryAfter
  · exact hkept.1.tracked

end Run

/-- Two scopes with one key. -/
def splitScope : RemoteScope := ⟨"a", "run", "x|y", "z"⟩

def otherScope : RemoteScope := ⟨"a", "run", "x", "y|z"⟩

/-- The limiter after one call of each scope, at the same time. -/
def afterCalls (cfg : RateLimiterConfig) (scopes : List RemoteScope) : LimiterRun :=
  scopes.foldl (fun s scope => s.step cfg ⟨0, scope, fun _ => 0⟩) {}

theorem clockInOrder_first (e : AcquireEvent) (h : 0 ≤ e.now) : ClockInOrder {} e :=
  ⟨h, fun _ hcall => absurd hcall List.not_mem_nil⟩

theorem clockInOrder_second (cfg : RateLimiterConfig) (first second : AcquireEvent)
    (h : 0 ≤ first.now) (hle : first.now ≤ second.now) :
    ClockInOrder (({} : LimiterRun).step cfg first) second := by
  refine ⟨le_trans h hle, fun call hcall => ?_⟩
  rw [List.mem_singleton.mp hcall]
  exact hle

theorem limits_repeated :
    Limits { max := 1 } (afterCalls { max := 1 } [splitScope, splitScope]) := by
  refine limits (by decide) (.step (a := ⟨0, splitScope, fun _ => 0⟩)
    (.step (a := ⟨0, splitScope, fun _ => 0⟩) (.start rfl) ?_ rfl) ?_ rfl)
  · refine ⟨clockInOrder_first _ (le_refl 0), ?_⟩
    intro call hcall
    cases hcall
  · refine ⟨clockInOrder_second _ _ _ (le_refl 0) (le_refl 0), ?_⟩
    intro call hcall _
    rw [List.mem_singleton.mp hcall]

/-- A scope that was never called is denied, since another one has its key. -/
theorem other_scope_denied : ¬ ∀ (cfg : RateLimiterConfig) (s : LimiterRun), 0 < cfg.max →
    (limiterMachine cfg).Reach ClockInOrder s → Limits cfg s := by
  intro h
  have hreach : (limiterMachine { max := 1 }).Reach ClockInOrder
      (afterCalls { max := 1 } [splitScope, otherScope]) :=
    .step (a := ⟨0, otherScope, fun _ => 0⟩)
      (.step (a := ⟨0, splitScope, fun _ => 0⟩) (.start rfl)
        (clockInOrder_first _ (le_refl 0)) rfl)
      (clockInOrder_second _ _ _ (le_refl 0) (le_refl 0)) rfl
  have hlimits := h _ _ (by decide) hreach
  have hlog : (afterCalls { max := 1 } [splitScope, otherScope]).log =
      [⟨0, splitScope, ⟨true, none⟩⟩, ⟨0, otherScope, ⟨false, some 60000⟩⟩] := by decide
  have hdenied := hlimits.denied [⟨0, splitScope, ⟨true, none⟩⟩] _ [] hlog
    (by rw [hlog]; decide) rfl
  exact absurd hdenied (by decide)

end PlugAgente.Actions
