import PlugAgente.Dart.Text
import PlugAgente.Machine.Ledger
import PlugAgente.Machine.Transition

/-!
# The guard of RPC requests

`RpcRequestGuard`: the limit on the requests of a sliding window, and the detection of replays.
The guard drops stamps and keys only when it is called again.  `guards` says what that comes to
over a whole run: how many requests are allowed in any window, which are refused, and when a key
may be used again.

A run keeps a log of what was evaluated, and of the clearing of the replay cache.
-/

namespace PlugAgente.Transport

open PlugAgente.Dart

/-! ## The guard -/

/-- What the guard reads of an `RpcRequest`: `meta.requestId`, and `id` as text. -/
structure GuardedRequest where
  requestId : Option String := none
  id : Option String := none
  deriving DecidableEq, Repr

/-- `trim().isEmpty`. -/
def isBlankText (t : String) : Bool := (trim t.toList).isEmpty

def resolveRpcWireAckId (request : GuardedRequest) : Option String :=
  match request.requestId with
  | some wireId => if isBlankText wireId then request.id else some wireId
  | none => request.id

def resolveRpcReplayGuardKey (request : GuardedRequest) : Option String :=
  resolveRpcWireAckId request

inductive RpcRequestGuardResult where
  | allow
  | rateLimited
  | replayDetected
  deriving DecidableEq, Repr

/-- The parameters of the guard; windows and times are in microseconds. -/
structure RpcRequestGuardConfig where
  rateLimitWindow : Int := 60000000
  maxRequestsPerWindow : Int := 1200
  replayWindow : Int := 120000000

structure RpcRequestGuard where
  rpcRequestTimeline : List Int := []
  recentRpcRequestIds : List (String × Int) := []
  deriving DecidableEq, Repr

namespace RpcRequestGuard

variable (cfg : RpcRequestGuardConfig) (s : RpcRequestGuard)

def evictExpiredFromTimeline (now : Int) : RpcRequestGuard :=
  let cutoff := now - cfg.rateLimitWindow
  { s with rpcRequestTimeline := s.rpcRequestTimeline.dropWhile fun stamp => stamp < cutoff }

def registerRequest (now : Int) : RpcRequestGuard :=
  { s with rpcRequestTimeline := s.rpcRequestTimeline ++ [now] }.evictExpiredFromTimeline cfg now

def cleanupReplayCache (now : Int) : RpcRequestGuard :=
  let cutoff := now - cfg.replayWindow
  { s with recentRpcRequestIds := s.recentRpcRequestIds.filter fun entry => !(entry.2 < cutoff) }

def clearReplayCache : RpcRequestGuard :=
  { s with recentRpcRequestIds := [] }

/-- The key of a request, unless it is blank: what `evaluate` goes by. -/
def usableKey (request : GuardedRequest) : Option String :=
  (resolveRpcReplayGuardKey request).filter fun key => !isBlankText key

def evaluate (now : Int) (request : GuardedRequest) : RpcRequestGuard × RpcRequestGuardResult :=
  -- `_isRateLimited` evicts once more.
  let s := (s.registerRequest cfg now).evictExpiredFromTimeline cfg now
  if cfg.maxRequestsPerWindow < s.rpcRequestTimeline.length then (s, .rateLimited)
  else
    match usableKey request with
    | none => (s, .allow)
    | some key =>
      let s := s.cleanupReplayCache cfg now
      if s.recentRpcRequestIds.any fun entry => entry.1 == key then (s, .replayDetected)
      else ({ s with recentRpcRequestIds := s.recentRpcRequestIds ++ [(key, now)] }, .allow)

end RpcRequestGuard

/-! ## Runs -/

inductive GuardEvent where
  | evaluate (now : Int) (request : GuardedRequest)
  | clearReplayCache
  deriving DecidableEq, Repr

/-- What happened, with the result of each evaluation. -/
inductive GuardEntry where
  | evaluated (now : Int) (request : GuardedRequest) (result : RpcRequestGuardResult)
  | cleared
  deriving DecidableEq, Repr

/-- A guard with what happened so far. -/
structure GuardRun where
  guard : RpcRequestGuard := {}
  log : List GuardEntry := []
  deriving DecidableEq, Repr

def GuardRun.step (cfg : RpcRequestGuardConfig) (s : GuardRun) : GuardEvent → GuardRun
  | .evaluate now request =>
    let r := s.guard.evaluate cfg now request
    ⟨r.1, s.log ++ [.evaluated now request r.2]⟩
  | .clearReplayCache => ⟨s.guard.clearReplayCache, s.log ++ [.cleared]⟩

def guardMachine (cfg : RpcRequestGuardConfig) : Machine GuardRun GuardEvent where
  start s := s = {}
  step s e := some (s.step cfg e)

namespace GuardEntry

/-- The request was received in the closed window from `low` to `high`. -/
def receivedIn (low high : Int) : GuardEntry → Bool
  | .evaluated now _ _ => low ≤ now && now ≤ high
  | .cleared => false

/-- The request was received in the window and allowed. -/
def allowedIn (low high : Int) : GuardEntry → Bool
  | .evaluated now _ result => low ≤ now && now ≤ high && result == .allow
  | .cleared => false

end GuardEntry

/-- The clock does not run backwards. -/
def InOrder (s : GuardRun) : GuardEvent → Prop
  | .evaluate now _ =>
    ∀ before request result, .evaluated before request result ∈ s.log → before ≤ now
  | .clearReplayCache => True

/-- What the guard promises of a whole run. -/
structure Guards (cfg : RpcRequestGuardConfig) (log : List GuardEntry) : Prop where
  /-- No window has more allowed requests than the limit. -/
  window : ∀ low,
    ((log.countP (GuardEntry.allowedIn low (low + cfg.rateLimitWindow)) : Nat) : Int) ≤
      max cfg.maxRequestsPerWindow 0
  /-- The requests that are refused for their rate. -/
  rate : ∀ before now request result after,
    log = before ++ .evaluated now request result :: after →
      (result = .rateLimited ↔ cfg.maxRequestsPerWindow <
        (before ++ [.evaluated now request result]).countP
          (GuardEntry.receivedIn (now - cfg.rateLimitWindow) now))
  /-- A key is not allowed again within the replay window. -/
  once : ∀ before now request between now' request' after key,
    log = before ++ .evaluated now request .allow :: (between ++
      .evaluated now' request' .allow :: after) →
      RpcRequestGuard.usableKey request = some key →
      RpcRequestGuard.usableKey request' = some key →
      .cleared ∉ between → cfg.replayWindow < now' - now
  /-- A replay repeats a key that was allowed within the replay window. -/
  replay : ∀ before now request after,
    log = before ++ .evaluated now request .replayDetected :: after →
      ∃ key now' request', RpcRequestGuard.usableKey request = some key ∧
        RpcRequestGuard.usableKey request' = some key ∧
        .evaluated now' request' .allow ∈ before ∧ now - cfg.replayWindow ≤ now' ∧ now' ≤ now

/-! ## What an evaluation does -/

section Evaluate

variable {cfg : RpcRequestGuardConfig}

/-- The stamps that are left at a time, and those of the cache. -/
def keptStamps (cfg : RpcRequestGuardConfig) (now : Int) (stamps : List Int) : List Int :=
  stamps.dropWhile fun stamp => stamp < now - cfg.rateLimitWindow

def keptKeys (cfg : RpcRequestGuardConfig) (now : Int) (keys : List (String × Int)) :
    List (String × Int) :=
  keys.filter fun entry => !(entry.2 < now - cfg.replayWindow)

/-- What an evaluation comes to. -/
inductive Evaluates (cfg : RpcRequestGuardConfig) (s : RpcRequestGuard) (now : Int)
    (request : GuardedRequest) : RpcRequestGuard × RpcRequestGuardResult → Prop where
  | rateLimited (h : cfg.maxRequestsPerWindow <
      (keptStamps cfg now (s.rpcRequestTimeline ++ [now])).length) :
      Evaluates cfg s now request
        (⟨keptStamps cfg now (s.rpcRequestTimeline ++ [now]), s.recentRpcRequestIds⟩, .rateLimited)
  | noKey (h : (keptStamps cfg now (s.rpcRequestTimeline ++ [now])).length ≤
      cfg.maxRequestsPerWindow) (hkey : RpcRequestGuard.usableKey request = none) :
      Evaluates cfg s now request
        (⟨keptStamps cfg now (s.rpcRequestTimeline ++ [now]), s.recentRpcRequestIds⟩, .allow)
  | replay (h : (keptStamps cfg now (s.rpcRequestTimeline ++ [now])).length ≤
      cfg.maxRequestsPerWindow) {key : String} {stamp : Int}
      (hkey : RpcRequestGuard.usableKey request = some key)
      (hseen : (key, stamp) ∈ keptKeys cfg now s.recentRpcRequestIds) :
      Evaluates cfg s now request
        (⟨keptStamps cfg now (s.rpcRequestTimeline ++ [now]),
          keptKeys cfg now s.recentRpcRequestIds⟩, .replayDetected)
  | allow (h : (keptStamps cfg now (s.rpcRequestTimeline ++ [now])).length ≤
      cfg.maxRequestsPerWindow) {key : String}
      (hkey : RpcRequestGuard.usableKey request = some key)
      (hnew : ∀ stamp, (key, stamp) ∉ keptKeys cfg now s.recentRpcRequestIds) :
      Evaluates cfg s now request
        (⟨keptStamps cfg now (s.rpcRequestTimeline ++ [now]),
          keptKeys cfg now s.recentRpcRequestIds ++ [(key, now)]⟩, .allow)

theorem evaluates (cfg : RpcRequestGuardConfig) (s : RpcRequestGuard) (now : Int)
    (request : GuardedRequest) : Evaluates cfg s now request (s.evaluate cfg now request) := by
  have htwice : ∀ stamps,
      keptStamps cfg now (keptStamps cfg now stamps) = keptStamps cfg now stamps :=
    fun stamps => List.dropWhile_idempotent _ _
  have hevict : (s.registerRequest cfg now).evictExpiredFromTimeline cfg now =
      ⟨keptStamps cfg now (s.rpcRequestTimeline ++ [now]), s.recentRpcRequestIds⟩ :=
    congrArg (RpcRequestGuard.mk · s.recentRpcRequestIds) (htwice (s.rpcRequestTimeline ++ [now]))
  unfold RpcRequestGuard.evaluate
  rw [hevict]
  dsimp only
  split
  · rename_i h
    exact .rateLimited h
  · rename_i h
    rw [not_lt] at h
    split
    · rename_i hkey
      exact .noKey h hkey
    · rename_i key hkey
      split
      · rename_i hseen
        obtain ⟨⟨other, stamp⟩, hmem, hsame⟩ := List.any_eq_true.mp hseen
        obtain rfl : other = key := beq_iff_eq.mp hsame
        exact .replay h hkey hmem
      · rename_i hseen
        refine .allow h hkey ?_
        intro stamp hmem
        exact hseen (List.any_eq_true.mpr ⟨_, hmem, beq_self_eq_true key⟩)

variable {s s' : RpcRequestGuard} {now : Int} {request : GuardedRequest}
  {result : RpcRequestGuardResult}

theorem Evaluates.timeline (h : Evaluates cfg s now request (s', result)) :
    s'.rpcRequestTimeline = keptStamps cfg now (s.rpcRequestTimeline ++ [now]) := by
  cases h <;> rfl

theorem Evaluates.rateLimited_iff (h : Evaluates cfg s now request (s', result)) :
    result = .rateLimited ↔
      cfg.maxRequestsPerWindow < (keptStamps cfg now (s.rpcRequestTimeline ++ [now])).length := by
  cases h with
  | rateLimited h => exact iff_of_true rfl h
  | noKey h => exact iff_of_false (by decide) (not_lt.mpr h)
  | replay h => exact iff_of_false (by decide) (not_lt.mpr h)
  | allow h => exact iff_of_false (by decide) (not_lt.mpr h)

theorem mem_keptKeys {keys : List (String × Int)} {key : String} {stamp : Int} :
    (key, stamp) ∈ keptKeys cfg now keys ↔
      (key, stamp) ∈ keys ∧ now - cfg.replayWindow ≤ stamp := by
  unfold keptKeys
  rw [List.mem_filter]
  simp

theorem Evaluates.keys_kept (h : Evaluates cfg s now request (s', result)) {key : String}
    {stamp : Int} (hkey : (key, stamp) ∈ s.recentRpcRequestIds) :
    (key, stamp) ∈ s'.recentRpcRequestIds ∨ stamp < now - cfg.replayWindow := by
  have hfilter : (key, stamp) ∈ keptKeys cfg now s.recentRpcRequestIds ∨
      stamp < now - cfg.replayWindow := by
    rw [mem_keptKeys]
    by_cases hold : stamp < now - cfg.replayWindow
    · exact .inr hold
    · exact .inl ⟨hkey, not_lt.mp hold⟩
  cases h with
  | rateLimited => exact .inl hkey
  | noKey => exact .inl hkey
  | replay => exact hfilter
  | allow => exact hfilter.imp_left (List.mem_append_left _)

theorem Evaluates.keys_held (h : Evaluates cfg s now request (s', result)) {key : String}
    {stamp : Int} (hkey : (key, stamp) ∈ s'.recentRpcRequestIds) :
    (key, stamp) ∈ s.recentRpcRequestIds ∨
      stamp = now ∧ result = .allow ∧ RpcRequestGuard.usableKey request = some key := by
  cases h with
  | rateLimited => exact .inl hkey
  | noKey => exact .inl hkey
  | replay => exact .inl (mem_keptKeys.mp hkey).1
  | allow _ husable =>
    rcases List.mem_append.mp hkey with hkey | hkey
    · exact .inl (mem_keptKeys.mp hkey).1
    · rw [List.mem_singleton, Prod.mk.injEq] at hkey
      exact .inr ⟨hkey.2, rfl, hkey.1 ▸ husable⟩

theorem Evaluates.key_added (h : Evaluates cfg s now request (s', .allow)) {key : String}
    (hkey : RpcRequestGuard.usableKey request = some key) :
    (key, now) ∈ s'.recentRpcRequestIds := by
  cases h with
  | noKey _ hnone =>
    rw [hnone] at hkey
    cases hkey
  | allow _ hkey' =>
    obtain rfl := Option.some.inj (hkey'.symm.trans hkey)
    exact List.mem_append_right _ (List.mem_singleton_self _)

theorem Evaluates.key_new (h : Evaluates cfg s now request (s', .allow)) {key : String}
    (hkey : RpcRequestGuard.usableKey request = some key) {stamp : Int}
    (hseen : (key, stamp) ∈ s.recentRpcRequestIds) : stamp < now - cfg.replayWindow := by
  cases h with
  | noKey _ hnone =>
    rw [hnone] at hkey
    cases hkey
  | allow _ hkey' hnew =>
    obtain rfl := Option.some.inj (hkey'.symm.trans hkey)
    by_contra hrecent
    exact hnew stamp (mem_keptKeys.mpr ⟨hseen, not_lt.mp hrecent⟩)

theorem Evaluates.key_seen (h : Evaluates cfg s now request (s', .replayDetected)) :
    ∃ key stamp, RpcRequestGuard.usableKey request = some key ∧
      (key, stamp) ∈ s.recentRpcRequestIds ∧ now - cfg.replayWindow ≤ stamp := by
  cases h with
  | replay _ hkey hseen => exact ⟨_, _, hkey, mem_keptKeys.mp hseen⟩

end Evaluate

/-! ## The invariant -/

/-- The times at which requests were received. -/
def received (log : List GuardEntry) : List Int :=
  log.filterMap fun
    | .evaluated now _ _ => some now
    | .cleared => none

/-- Nothing was received after the time. -/
def IsNow (log : List GuardEntry) (now : Int) : Prop := ∀ stamp ∈ received log, stamp ≤ now

/-- What the state of the guard says of the log. -/
structure Kept (cfg : RpcRequestGuardConfig) (s : GuardRun) : Prop where
  sorted : (received s.log).Pairwise (· ≤ ·)
  /-- The stamps that were dropped are in no window that ends later. -/
  stamps : ∃ dropped, received s.log = dropped ++ s.guard.rpcRequestTimeline ∧
    ∀ stamp ∈ dropped, ∀ now, IsNow s.log now → stamp < now - cfg.rateLimitWindow
  /-- The keys that were dropped since the cache was cleared are outside the replay window. -/
  seen : ∀ before now request after key,
    s.log = before ++ .evaluated now request .allow :: after → .cleared ∉ after →
      RpcRequestGuard.usableKey request = some key →
      (key, now) ∈ s.guard.recentRpcRequestIds ∨
        ∀ later, IsNow s.log later → now < later - cfg.replayWindow
  held : ∀ key now, (key, now) ∈ s.guard.recentRpcRequestIds →
    ∃ request, .evaluated now request .allow ∈ s.log ∧
      RpcRequestGuard.usableKey request = some key

section Kept

variable {cfg : RpcRequestGuardConfig} {log : List GuardEntry}

theorem received_append (log more : List GuardEntry) :
    received (log ++ more) = received log ++ received more := List.filterMap_append

theorem received_concat (now : Int) (request : GuardedRequest) (result : RpcRequestGuardResult) :
    received (log ++ [.evaluated now request result]) = received log ++ [now] :=
  received_append log _

theorem received_cleared : received (log ++ [.cleared]) = received log := by
  rw [received_append]
  exact List.append_nil _

theorem mem_received {now : Int} :
    now ∈ received log ↔ ∃ request result, .evaluated now request result ∈ log := by
  unfold received
  rw [List.mem_filterMap]
  constructor
  · rintro ⟨entry, hentry, hnow⟩
    cases entry with
    | evaluated now' request result =>
      obtain rfl : now' = now := Option.some.inj hnow
      exact ⟨request, result, hentry⟩
    | cleared => cases hnow
  · rintro ⟨request, result, hentry⟩
    exact ⟨_, hentry, rfl⟩

theorem dropWhile_eq_filter {stamps : List Int} (hsorted : stamps.Pairwise (· ≤ ·)) (cutoff : Int) :
    stamps.dropWhile (fun stamp => stamp < cutoff) = stamps.filter fun stamp => cutoff ≤ stamp := by
  induction stamps with
  | nil => rfl
  | cons stamp stamps ih =>
    rw [List.pairwise_cons] at hsorted
    by_cases hold : stamp < cutoff
    · have hskip : (stamp :: stamps).dropWhile (fun stamp => stamp < cutoff) =
          stamps.dropWhile fun stamp => stamp < cutoff := List.dropWhile_cons_of_pos (by simpa)
      rw [hskip, ih hsorted.2, List.filter_cons_of_neg]
      simpa using hold
    · have hall : ∀ later ∈ stamp :: stamps, decide (cutoff ≤ later) = true := by
        intro later hlater
        rw [decide_eq_true_eq]
        rcases List.mem_cons.mp hlater with rfl | hlater
        · omega
        · have := hsorted.1 later hlater
          omega
      rw [List.dropWhile_cons_of_neg (by simpa using hold), List.filter_eq_self.mpr hall]

theorem Kept.length_keptStamps {s : GuardRun} (h : Kept cfg s) {now : Int} (hnow : IsNow s.log now)
    (request : GuardedRequest) (result : RpcRequestGuardResult) :
    (keptStamps cfg now (s.guard.rpcRequestTimeline ++ [now])).length =
      (s.log ++ [GuardEntry.evaluated now request result]).countP
        (GuardEntry.receivedIn (now - cfg.rateLimitWindow) now) := by
  obtain ⟨dropped, hreceived, hdropped⟩ := h.stamps
  have hcount : (s.log ++ [GuardEntry.evaluated now request result]).countP
      (GuardEntry.receivedIn (now - cfg.rateLimitWindow) now) =
      (received (s.log ++ [GuardEntry.evaluated now request result])).countP fun stamp =>
        now - cfg.rateLimitWindow ≤ stamp && stamp ≤ now := by
    unfold received
    rw [List.countP_filterMap]
    refine List.countP_congr fun entry _ => ?_
    cases entry <;> simp [GuardEntry.receivedIn]
  have hsorted : (s.guard.rpcRequestTimeline ++ [now]).Pairwise (· ≤ ·) := by
    rw [List.pairwise_append]
    refine ⟨(hreceived ▸ h.sorted).sublist (List.sublist_append_right _ _),
      List.pairwise_singleton _ _, ?_⟩
    intro stamp hstamp later hlater
    rw [List.mem_singleton.mp hlater]
    exact hnow stamp (hreceived ▸ List.mem_append_right _ hstamp)
  rw [hcount, received_concat, hreceived, List.append_assoc, List.countP_append, keptStamps,
    dropWhile_eq_filter hsorted, ← List.countP_eq_length_filter]
  have hzero : dropped.countP (fun stamp =>
      now - cfg.rateLimitWindow ≤ stamp && stamp ≤ now) = 0 := by
    rw [List.countP_eq_zero]
    intro stamp hstamp
    have hold := hdropped stamp hstamp now hnow
    simp only [Bool.and_eq_true, decide_eq_true_eq]
    omega
  rw [hzero, Nat.zero_add]
  refine List.countP_congr fun stamp hstamp => ?_
  have hle : stamp ≤ now := by
    rcases List.mem_append.mp hstamp with hstamp | hstamp
    · exact hnow stamp (hreceived ▸ List.mem_append_right _ hstamp)
    · rw [List.mem_singleton.mp hstamp]
  simp [hle]

theorem isNow_concat {now later : Int} {request : GuardedRequest} {result : RpcRequestGuardResult}
    (h : IsNow (log ++ [GuardEntry.evaluated now request result]) later) :
    IsNow log later ∧ now ≤ later := by
  unfold IsNow at h
  rw [received_concat] at h
  exact ⟨fun stamp hstamp => h stamp (List.mem_append_left _ hstamp),
    h now (List.mem_append_right _ (List.mem_singleton_self _))⟩

theorem inOrder_isNow {s : GuardRun} {now : Int} {request : GuardedRequest}
    (h : InOrder s (.evaluate now request)) : IsNow s.log now := by
  intro stamp hstamp
  obtain ⟨_, _, hentry⟩ := mem_received.mp hstamp
  exact h _ _ _ hentry

theorem Kept.start : Kept cfg {} where
  sorted := List.Pairwise.nil
  stamps := ⟨[], rfl, fun _ hstamp => absurd hstamp List.not_mem_nil⟩
  seen before now request after key hlog := absurd hlog (by simp)
  held key now hkey := absurd hkey List.not_mem_nil

theorem Kept.evaluated {s : GuardRun} (h : Kept cfg s) {now : Int} (hnow : IsNow s.log now)
    {request : GuardedRequest} {guard : RpcRequestGuard} {result : RpcRequestGuardResult}
    (he : Evaluates cfg s.guard now request (guard, result)) :
    Kept cfg ⟨guard, s.log ++ [.evaluated now request result]⟩ where
  sorted := by
    rw [received_concat, List.pairwise_append]
    refine ⟨h.sorted, List.pairwise_singleton _ _, ?_⟩
    intro stamp hstamp later hlater
    rw [List.mem_singleton.mp hlater]
    exact hnow stamp hstamp
  stamps := by
    obtain ⟨dropped, hreceived, hdropped⟩ := h.stamps
    refine ⟨dropped ++ (s.guard.rpcRequestTimeline ++ [now]).takeWhile
      (fun stamp => stamp < now - cfg.rateLimitWindow), ?_, ?_⟩
    · show received (s.log ++ [GuardEntry.evaluated now request result]) =
        _ ++ guard.rpcRequestTimeline
      rw [he.timeline, keptStamps, received_concat, hreceived, List.append_assoc, List.append_assoc,
        List.takeWhile_append_dropWhile]
    · intro stamp hstamp later hlater
      have hlater' := isNow_concat hlater
      rcases List.mem_append.mp hstamp with hstamp | hstamp
      · exact hdropped stamp hstamp later hlater'.1
      · have hold : stamp < now - cfg.rateLimitWindow := by
          simpa using List.mem_takeWhile_imp hstamp
        omega
  seen := by
    intro before earlier request' after key hlog hcleared hkey
    rcases Ledger.concat_split hlog with ⟨rfl, hentry⟩ | ⟨rest, rfl, hrest⟩
    · cases hentry
      exact .inl (he.key_added hkey)
    · have hcleared' : .cleared ∉ rest := fun hmem => hcleared (List.mem_append_left _ hmem)
      rcases h.seen before earlier request' rest key hrest hcleared' hkey with hheld | hold
      · rcases he.keys_kept hheld with hheld | hold
        · exact .inl hheld
        · right
          intro later hlater
          have := (isNow_concat hlater).2
          omega
      · exact .inr fun later hlater => hold later (isNow_concat hlater).1
  held := by
    intro key stamp hkey
    rcases he.keys_held hkey with hkey | ⟨rfl, rfl, husable⟩
    · obtain ⟨request', hentry, hkey⟩ := h.held key stamp hkey
      exact ⟨request', List.mem_append_left _ hentry, hkey⟩
    · exact ⟨request, List.mem_append_right _ (List.mem_singleton_self _), husable⟩

theorem Kept.cleared {s : GuardRun} (h : Kept cfg s) :
    Kept cfg ⟨s.guard.clearReplayCache, s.log ++ [.cleared]⟩ where
  sorted := by
    rw [received_cleared]
    exact h.sorted
  stamps := by
    obtain ⟨dropped, hreceived, hdropped⟩ := h.stamps
    refine ⟨dropped, ?_, ?_⟩
    · rw [received_cleared]
      exact hreceived
    · intro stamp hstamp later hlater
      unfold IsNow at hlater
      rw [received_cleared] at hlater
      exact hdropped stamp hstamp later hlater
  seen := by
    intro before now request after key hlog hcleared
    rcases Ledger.concat_split hlog with ⟨-, hentry⟩ | ⟨rest, rfl, -⟩
    · cases hentry
    · exact absurd (List.mem_append_right _ (List.mem_singleton_self _)) hcleared
  held key now hkey := absurd hkey List.not_mem_nil

end Kept

/-! ## The run -/

section Run

variable {cfg : RpcRequestGuardConfig}

/-- The requests of a window that were allowed so far were all received in the window that ends
with the last of them. -/
theorem Guards.window_evaluated {s : GuardRun} (hguards : Guards cfg s.log) (hkept : Kept cfg s)
    {now : Int} (hnow : IsNow s.log now) {request : GuardedRequest} {guard : RpcRequestGuard}
    {result : RpcRequestGuardResult} (he : Evaluates cfg s.guard now request (guard, result))
    (low : Int) :
    (((s.log ++ [GuardEntry.evaluated now request result]).countP
      (GuardEntry.allowedIn low (low + cfg.rateLimitWindow)) : Nat) : Int) ≤
        max cfg.maxRequestsPerWindow 0 := by
  by_cases hin : GuardEntry.allowedIn low (low + cfg.rateLimitWindow)
      (.evaluated now request result) = true
  · have hnew : (low ≤ now ∧ now ≤ low + cfg.rateLimitWindow) ∧ result = .allow := by
      simpa [GuardEntry.allowedIn] using hin
    have hlimit : ¬ result = .rateLimited := by rw [hnew.2]; decide
    rw [he.rateLimited_iff, hkept.length_keptStamps hnow request result] at hlimit
    have hle : (s.log ++ [GuardEntry.evaluated now request result]).countP
        (GuardEntry.allowedIn low (low + cfg.rateLimitWindow)) ≤
        (s.log ++ [GuardEntry.evaluated now request result]).countP
          (GuardEntry.receivedIn (now - cfg.rateLimitWindow) now) := by
      refine List.countP_mono_left fun entry hentry hallowed => ?_
      cases entry with
      | cleared => cases hallowed
      | evaluated stamp request' result' =>
        have hstamp : stamp ≤ now := by
          rcases List.mem_append.mp hentry with hentry | hentry
          · exact hnow stamp (mem_received.mpr ⟨_, _, hentry⟩)
          · cases List.mem_singleton.mp hentry
            exact le_refl _
        have hwindow : (low ≤ stamp ∧ stamp ≤ low + cfg.rateLimitWindow) ∧ result' = .allow := by
          simpa [GuardEntry.allowedIn] using hallowed
        simp only [GuardEntry.receivedIn, Bool.and_eq_true, decide_eq_true_eq]
        omega
    omega
  · rw [List.countP_append, List.countP_singleton, if_neg hin]
    exact hguards.window low

theorem Guards.evaluated {s : GuardRun} (hguards : Guards cfg s.log) (hkept : Kept cfg s)
    {now : Int} (hnow : IsNow s.log now) {request : GuardedRequest} {guard : RpcRequestGuard}
    {result : RpcRequestGuardResult} (he : Evaluates cfg s.guard now request (guard, result)) :
    Guards cfg (s.log ++ [.evaluated now request result]) where
  window := hguards.window_evaluated hkept hnow he
  rate := by
    intro before stamp request' result' after hlog
    rcases Ledger.concat_split hlog with ⟨rfl, hentry⟩ | ⟨rest, rfl, hrest⟩
    · cases hentry
      rw [he.rateLimited_iff, hkept.length_keptStamps hnow]
    · exact hguards.rate before stamp request' result' rest hrest
  once := by
    intro before earlier request₁ between later request₂ after key hlog hkey₁ hkey₂ hcleared
    rw [← List.cons_append, ← List.append_assoc] at hlog
    rcases Ledger.concat_split hlog with ⟨hbefore, hentry⟩ | ⟨rest, rfl, hrest⟩
    · cases hentry
      rcases hkept.seen before earlier request₁ between key hbefore.symm hcleared hkey₁ with
        hheld | hold
      · have := he.key_new hkey₂ hheld
        omega
      · have := hold now hnow
        omega
    · rw [List.append_assoc, List.cons_append] at hrest
      exact hguards.once before earlier request₁ between later request₂ rest key hrest hkey₁ hkey₂
        hcleared
  replay := by
    intro before stamp request' after hlog
    rcases Ledger.concat_split hlog with ⟨rfl, hentry⟩ | ⟨rest, rfl, hrest⟩
    · cases hentry
      obtain ⟨key, seen, hkey, hseen, hrecent⟩ := he.key_seen
      obtain ⟨request', hallowed, hkey'⟩ := hkept.held key seen hseen
      exact ⟨key, seen, request', hkey, hkey', hallowed, hrecent,
        hnow seen (mem_received.mpr ⟨_, _, hallowed⟩)⟩
    · exact hguards.replay before stamp request' rest hrest

theorem Guards.cleared {log : List GuardEntry} (hguards : Guards cfg log) :
    Guards cfg (log ++ [.cleared]) where
  window low := by
    rw [List.countP_append]
    exact hguards.window low
  rate := by
    intro before stamp request result after hlog
    rcases Ledger.concat_split hlog with ⟨-, hentry⟩ | ⟨rest, rfl, hrest⟩
    · cases hentry
    · exact hguards.rate before stamp request result rest hrest
  once := by
    intro before earlier request₁ between later request₂ after key hlog
    rw [← List.cons_append, ← List.append_assoc] at hlog
    rcases Ledger.concat_split hlog with ⟨-, hentry⟩ | ⟨rest, rfl, hrest⟩
    · cases hentry
    · rw [List.append_assoc, List.cons_append] at hrest
      exact hguards.once before earlier request₁ between later request₂ rest key hrest
  replay := by
    intro before stamp request after hlog
    rcases Ledger.concat_split hlog with ⟨-, hentry⟩ | ⟨rest, rfl, hrest⟩
    · cases hentry
    · exact hguards.replay before stamp request rest hrest

theorem kept_and_guards {s : GuardRun} (h : (guardMachine cfg).Reach InOrder s) :
    Kept cfg s ∧ Guards cfg s.log := by
  refine h.invariant (I := fun s => Kept cfg s ∧ Guards cfg s.log) ?_ ?_
  · intro s hstart
    obtain rfl : s = {} := hstart
    refine ⟨Kept.start, ?_⟩
    constructor <;> simp
  · intro s event s' hs hguard hstep
    obtain rfl : s.step cfg event = s' := Option.some.inj hstep
    cases event with
    | evaluate now request =>
      have hnow := inOrder_isNow hguard
      have he := evaluates cfg s.guard now request
      exact ⟨hs.1.evaluated hnow he, hs.2.evaluated hs.1 hnow he⟩
    | clearReplayCache => exact ⟨hs.1.cleared, hs.2.cleared⟩

/-- What the guard promises of every run in which the clock does not run backwards. -/
theorem guards {s : GuardRun} (h : (guardMachine cfg).Reach InOrder s) : Guards cfg s.log :=
  (kept_and_guards h).2

end Run

/-- Two requests whose key is a blank. -/
def blankRequests : List GuardEvent :=
  [.evaluate 0 { id := some " " }, .evaluate 0 { id := some " " }]

def blankLog : List GuardEntry :=
  [.evaluated 0 { id := some " " } .allow, .evaluated 0 { id := some " " } .allow]

/-- One key three times, then once more after the cache was cleared, with a limit of three. -/
def repeatedRequests : List GuardEvent :=
  [.evaluate 0 { id := some "a" }, .evaluate 1 { id := some "a" }, .clearReplayCache,
    .evaluate 2 { id := some "a" }, .evaluate 3 { id := some "b" }]

def repeatedLog : List GuardEntry :=
  [.evaluated 0 { id := some "a" } .allow, .evaluated 1 { id := some "a" } .replayDetected,
    .cleared, .evaluated 2 { id := some "a" } .allow, .evaluated 3 { id := some "b" } .rateLimited]

theorem inOrder_of_received {s : GuardRun} {now : Int} {request : GuardedRequest}
    (h : (received s.log).all (fun stamp => stamp ≤ now) = true) :
    InOrder s (.evaluate now request) := by
  intro stamp request' result hentry
  rw [List.all_eq_true] at h
  exact decide_eq_true_eq.mp (h stamp (mem_received.mpr ⟨_, _, hentry⟩))

theorem reach_of_guardRun {cfg : RpcRequestGuardConfig} {s : GuardRun} (events : List GuardEvent)
    (hallowed : (guardMachine cfg).Allowed InOrder {} events)
    (hrun : (guardMachine cfg).run {} events = some s) : (guardMachine cfg).Reach InOrder s :=
  (Machine.Reach.start rfl).of_run events hallowed hrun

theorem guards_repeated : Guards { maxRequestsPerWindow := 3 } repeatedLog :=
  guards (s := ⟨⟨[0, 1, 2, 3], [("a", 2)]⟩, repeatedLog⟩)
    (reach_of_guardRun repeatedRequests
      ⟨inOrder_of_received rfl, inOrder_of_received rfl, trivial, inOrder_of_received rfl,
        inOrder_of_received rfl, trivial⟩ rfl)

/-- A blank key is allowed again at once: the guard goes by no blank key. -/
theorem blank_key_twice : ¬ ∀ (cfg : RpcRequestGuardConfig) (s : GuardRun),
    (guardMachine cfg).Reach InOrder s →
      ∀ before now request between now' request' after key,
        s.log = before ++ .evaluated now request .allow :: (between ++
          .evaluated now' request' .allow :: after) →
        resolveRpcReplayGuardKey request = some key →
        resolveRpcReplayGuardKey request' = some key →
        .cleared ∉ between → cfg.replayWindow < now' - now := by
  intro h
  have hreach : (guardMachine {}).Reach InOrder ⟨⟨[0, 0], []⟩, blankLog⟩ :=
    reach_of_guardRun blankRequests
      ⟨inOrder_of_received rfl, inOrder_of_received rfl, trivial⟩ rfl
  have hwindow := h {} _ hreach [] 0 { id := some " " } [] 0 { id := some " " } [] " " rfl rfl rfl
    List.not_mem_nil
  exact absurd hwindow (by decide)

end PlugAgente.Transport
