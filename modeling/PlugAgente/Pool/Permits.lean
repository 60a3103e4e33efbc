import PlugAgente.Pool.Semaphore

/-!
# The permits that the users of a semaphore hold

Code that shares a `PoolSemaphore` keeps, with each of its own records, the call of
`acquire` in which the record waits or whose permit it holds.  `Accounts live` says that
`live` are those calls: every call that waits is one of them, and the active count is the
number of those that have a permit.

Each operation of the semaphore has one lemma, about a semaphore that nobody resizes.  A
user adds its call when it calls `acquire`, drops it when `acquire` has thrown, and gives it
back with `release`.  A call that has a permit never loses it (`Later`), so a user that has
seen its call return may rely on it until it releases.
-/

namespace PlugAgente.Pool.Semaphore

/-- The call has a permit. -/
def granted (s : Semaphore) (k : Nat) : Bool :=
  match s.calls[k]? with
  | some c => c.status.isGranted
  | none => false

/-- The code that awaits the call has its permit. -/
def hasReturned (s : Semaphore) (k : Nat) : Bool :=
  match s.calls[k]? with
  | some ⟨_, .acquired⟩ => true
  | _ => false

def hasThrown (s : Semaphore) (k : Nat) : Bool :=
  match s.calls[k]? with
  | some ⟨_, .timedOut⟩ => true
  | _ => false

theorem granted_of_hasReturned {s : Semaphore} {k : Nat} (h : s.hasReturned k = true) :
    s.granted k = true := by
  rw [hasReturned] at h
  split at h
  · rename_i hk
    simp [granted, hk, Status.isGranted]
  · cases h

/-- What the users of a semaphore know of it. -/
structure Accounts (s : Semaphore) (live : List Nat) : Prop where
  sound : s.Sound
  room : s.activeCount ≤ s.maxConcurrent
  nodup : live.Nodup
  count : s.activeCount = live.countP s.granted
  waits : ∀ k ∈ s.waitQueue, k ∈ live
  range : ∀ k ∈ live, k < s.calls.length

/-- Later: the same maximum, every call is there, and one that had a permit has it still. -/
structure Later (s t : Semaphore) : Prop where
  maximum : t.maxConcurrent = s.maxConcurrent
  length : s.calls.length ≤ t.calls.length
  kept : ∀ k, s.granted k = true → t.granted k = true

theorem Later.refl (s : Semaphore) : s.Later s :=
  ⟨rfl, Nat.le_refl _, fun _ h => h⟩

theorem accounts_new {n : Nat} (hn : 0 < n) :
    ({ maxConcurrent := n } : Semaphore).Accounts [] := by
  refine ⟨?_, ?_, List.nodup_nil, by simp, ?_, ?_⟩
  · exact sound_of_reachable (Machine.Reach.start ⟨n, hn, rfl⟩)
  · show 0 ≤ n
    omega
  · intro k hk
    simp at hk
  · intro k hk
    simp at hk

theorem Accounts.perm {s : Semaphore} {live live' : List Nat} (h : s.Accounts live)
    (hperm : live.Perm live') : s.Accounts live' := by
  refine ⟨h.sound, h.room, hperm.nodup_iff.mp h.nodup, ?_, ?_, ?_⟩
  · rw [← hperm.countP_eq]
    exact h.count
  · intro k hk
    exact hperm.mem_iff.mp (h.waits k hk)
  · intro k hk
    exact h.range k (hperm.mem_iff.mpr hk)

/-! ## The calls and their permits -/

theorem granted_setStatus {s : Semaphore} {k : Nat} {status : Status} {c : Acquire}
    (hk : s.calls[k]? = some c) (n : Nat) :
    (s.setStatus k status).granted n = if n = k then status.isGranted else s.granted n := by
  rw [granted, getElem?_setStatus hk]
  split_ifs with h
  · rfl
  · rfl

theorem granted_setStatus_same {s : Semaphore} {k : Nat} {status : Status} {c : Acquire}
    (hk : s.calls[k]? = some c) (hgranted : status.isGranted = c.status.isGranted) (n : Nat) :
    (s.setStatus k status).granted n = s.granted n := by
  rw [granted_setStatus hk]
  split_ifs with h
  · rw [h, granted, hk, hgranted]
  · rfl

theorem countP_one_more {p q : Nat → Bool} {live : List Nat} {k : Nat} (hnodup : live.Nodup)
    (hk : k ∈ live) (hp : p k = false) (hq : q k = true) (hsame : ∀ n, n ≠ k → q n = p n) :
    live.countP q = live.countP p + 1 := by
  have hperm : live.Perm (k :: live.erase k) := List.perm_cons_erase hk
  have hrest : (live.erase k).countP q = (live.erase k).countP p := by
    apply List.countP_congr
    intro n hn
    have hne : n ≠ k := ((hnodup.mem_erase_iff).mp hn).1
    rw [hsame n hne]
  rw [hperm.countP_eq q, hperm.countP_eq p, List.countP_cons_of_pos hq,
    List.countP_cons_of_neg (by simp [hp]), hrest]

theorem Kept.exists_waiting {s : Semaphore} {k : Nat} {rest : List Nat} (h : s.Kept (k :: rest)) :
    ∃ timed expired, s.calls[k]? = some ⟨timed, .waiting expired⟩ := by
  have hlt : k < s.calls.length := h.range k (by simp)
  have hk : s.calls[k]? = some s.calls[k] := List.getElem?_eq_getElem hlt
  have hwaiting := (h.waits k _ hk).mp List.mem_cons_self
  generalize s.calls[k] = c at hk hwaiting
  obtain ⟨timed, status⟩ := c
  cases status with
  | waiting expired => exact ⟨timed, expired, hk⟩
  | handed expired => simp [Status.isWaiting] at hwaiting
  | acquired => simp [Status.isWaiting] at hwaiting
  | timedOut => simp [Status.isWaiting] at hwaiting

/-- What handing a permit to the first of the queue does. -/
theorem Kept.handTo_eq {s : Semaphore} {k : Nat} {rest : List Nat} (h : s.Kept (k :: rest)) :
    s.granted k = false ∧ (s.handTo k).granted k = true ∧
      (∀ n, n ≠ k → (s.handTo k).granted n = s.granted n) ∧
      (s.handTo k).activeCount = s.activeCount + 1 ∧
      (s.handTo k).maxConcurrent = s.maxConcurrent ∧
      (s.handTo k).calls.length = s.calls.length := by
  obtain ⟨timed, expired, hk⟩ := h.exists_waiting
  have hhand : s.handTo k = (s.grant k).setStatus k (.handed expired) := by
    simp only [Semaphore.handTo, hk]
  have hcall : (s.grant k).calls[k]? = some ⟨timed, .waiting expired⟩ := hk
  rw [hhand]
  refine ⟨?_, ?_, ?_, ?_, ?_, ?_⟩
  · simp [Semaphore.granted, hk, Status.isGranted]
  · rw [granted_setStatus hcall, if_pos rfl]
    rfl
  · intro n hn
    rw [granted_setStatus hcall, if_neg hn]
    rfl
  · rw [setStatus_activeCount]
    rfl
  · rw [setStatus_maxConcurrent]
    rfl
  · rw [setStatus_length]
    rfl

theorem Kept.drainWaiters_accounts {s : Semaphore} {queue live : List Nat} (h : s.Kept queue)
    (hroom : s.activeCount ≤ s.maxConcurrent) (hnodup : live.Nodup)
    (hcount : s.activeCount = live.countP s.granted) (hwaits : ∀ k ∈ queue, k ∈ live)
    (hrange : ∀ k ∈ live, k < s.calls.length) :
    (Semaphore.drainWaiters queue s).Accounts live ∧
      s.Later (Semaphore.drainWaiters queue s) := by
  induction queue generalizing s with
  | nil =>
    have hsound := h.drainWaiters
    rw [Semaphore.drainWaiters] at hsound ⊢
    refine ⟨⟨hsound, hroom, hnodup, hcount, ?_, hrange⟩, rfl, Nat.le_refl _, fun _ hk => hk⟩
    intro k hk
    simp at hk
  | cons k rest ih =>
    have hsound := h.drainWaiters
    rw [Semaphore.drainWaiters] at hsound ⊢
    split_ifs at hsound ⊢ with hfree
    · obtain ⟨hwas, his, hothers, hactive, hmaximum, hlength⟩ := h.handTo_eq
      have hmore := countP_one_more hnodup (hwaits k (by simp)) hwas his hothers
      obtain ⟨haccounts, hlater⟩ := ih (h.handTo hfree) (by omega) (by omega)
        (fun n hn => hwaits n (by simp [hn])) (fun n hn => by rw [hlength]; exact hrange n hn)
      refine ⟨haccounts, hlater.maximum.trans hmaximum, hlength ▸ hlater.length,
        fun n hn => hlater.kept n ?_⟩
      by_cases hnk : n = k
      · rw [hnk]
        exact his
      · rw [hothers n hnk]
        exact hn
    · exact ⟨⟨hsound, hroom, hnodup, hcount, hwaits, hrange⟩, rfl, Nat.le_refl _,
        fun _ hk => hk⟩

/-! ## The operations -/

theorem Accounts.acquire {s : Semaphore} {live : List Nat} (h : s.Accounts live) (timed : Bool) :
    (s.acquire timed).Accounts (s.calls.length :: live) ∧ s.Later (s.acquire timed) := by
  have hsound := h.sound.acquire timed
  have hfresh : s.calls.length ∉ live := by
    intro hmem
    have := h.range _ hmem
    omega
  have hnodup : (s.calls.length :: live).Nodup := List.nodup_cons.mpr ⟨hfresh, h.nodup⟩
  -- Whatever its status, the new call changes nothing for those that are there.
  have hold : ∀ (t : Semaphore) (c : Acquire), t.calls = s.calls ++ [c] →
      ∀ n, n < s.calls.length → t.granted n = s.granted n := by
    intro t c hcalls n hn
    rw [granted, granted, hcalls, List.getElem?_append_left hn]
  have hlater : ∀ (t : Semaphore) (c : Acquire), t.calls = s.calls ++ [c] →
      ∀ n, s.granted n = true → t.granted n = true := by
    intro t c hcalls n hn
    by_cases hlt : n < s.calls.length
    · rw [hold t c hcalls n hlt]
      exact hn
    · rw [granted, List.getElem?_eq_none (by omega)] at hn
      cases hn
  have hcount : ∀ (t : Semaphore) (c : Acquire), t.calls = s.calls ++ [c] →
      live.countP t.granted = s.activeCount := by
    intro t c hcalls
    rw [h.count]
    apply List.countP_congr
    intro n hn
    rw [hold t c hcalls n (h.range n hn)]
  have hrange : ∀ k ∈ s.calls.length :: live, k < s.calls.length + 1 := by
    intro k hk
    rcases List.mem_cons.mp hk with heq | hk
    · omega
    · have := h.range k hk
      omega
  have hmore : ∀ c : Acquire, s.calls.length ≤ (s.calls ++ [c]).length := by simp
  rw [Semaphore.acquire] at hsound ⊢
  split_ifs at hsound ⊢ with hfree
  · refine ⟨⟨hsound, ?_, hnodup, ?_, ?_, ?_⟩, rfl, hmore _, hlater _ _ rfl⟩
    · show s.activeCount + 1 ≤ s.maxConcurrent
      omega
    · rw [List.countP_cons_of_pos (by simp [granted, Status.isGranted]), hcount _ _ rfl]
      rfl
    · intro k hk
      exact List.mem_cons_of_mem _ (h.waits k hk)
    · simpa [grant] using hrange
  · refine ⟨⟨hsound, h.room, hnodup, ?_, ?_, ?_⟩, rfl, hmore _, hlater _ _ rfl⟩
    · rw [List.countP_cons_of_neg (by simp [granted, Status.isGranted]), hcount _ _ rfl]
    · intro k hk
      have hk : k ∈ s.waitQueue ++ [s.calls.length] := hk
      rcases List.mem_append.mp hk with hk | hk
      · exact List.mem_cons_of_mem _ (h.waits k hk)
      · rw [List.mem_singleton.mp hk]
        exact List.mem_cons_self
    · simpa using hrange

/-- The status of a call changes, and it keeps or lacks its permit. -/
theorem Accounts.of_same {s t : Semaphore} {live : List Nat} (h : s.Accounts live)
    (hsound : t.Sound) (hactive : t.activeCount = s.activeCount)
    (hmaximum : t.maxConcurrent = s.maxConcurrent) (hgranted : ∀ n, t.granted n = s.granted n)
    (hwaits : ∀ k ∈ t.waitQueue, k ∈ s.waitQueue) (hlength : t.calls.length = s.calls.length) :
    t.Accounts live ∧ s.Later t := by
  refine ⟨⟨hsound, ?_, h.nodup, ?_, ?_, ?_⟩, hmaximum, hlength.ge, ?_⟩
  · rw [hactive, hmaximum]
    exact h.room
  · rw [hactive, h.count]
    apply List.countP_congr
    intro n _
    rw [hgranted n]
  · intro k hk
    exact h.waits k (hwaits k hk)
  · intro k hk
    rw [hlength]
    exact h.range k hk
  · intro k hk
    rw [hgranted k]
    exact hk

theorem Accounts.setStatus {s : Semaphore} {live : List Nat} (h : s.Accounts live) {k : Nat}
    {status : Status} {c : Acquire} (hk : s.calls[k]? = some c)
    (hwaits : status.isWaiting = c.status.isWaiting)
    (hgranted : status.isGranted = c.status.isGranted) :
    (s.setStatus k status).Accounts live ∧ s.Later (s.setStatus k status) := by
  apply h.of_same (h.sound.setStatus hk hwaits hgranted) (setStatus_activeCount s k status)
    (setStatus_maxConcurrent s k status) (granted_setStatus_same hk hgranted) _
    (setStatus_length s k status)
  intro n hn
  rwa [setStatus_waitQueue] at hn

theorem Accounts.expire {s s' : Semaphore} {live : List Nat} (h : s.Accounts live) {k : Nat}
    (hstep : s.expire k = some s') : s'.Accounts live ∧ s.Later s' := by
  rw [Semaphore.expire] at hstep
  split at hstep
  · rename_i hk
    rw [← Option.some.inj hstep]
    exact h.setStatus hk rfl rfl
  · rename_i hk
    rw [← Option.some.inj hstep]
    exact h.setStatus hk rfl rfl
  · cases hstep

theorem Accounts.resume {s s' : Semaphore} {live : List Nat} (h : s.Accounts live) {k : Nat}
    (hstep : s.resume k = some s') : s'.Accounts live ∧ s.Later s' := by
  have hsound := h.sound.resume hstep
  rw [Semaphore.resume] at hstep
  split at hstep
  · rename_i hk
    rw [← Option.some.inj hstep]
    exact h.setStatus hk rfl rfl
  · rename_i hk
    have heq := (Option.some.inj hstep).symm
    subst heq
    have hgranted : ∀ n, (s.setStatus k .timedOut).granted n = s.granted n :=
      granted_setStatus_same hk rfl
    apply h.of_same hsound (setStatus_activeCount s k _) (setStatus_maxConcurrent s k _)
      hgranted _ (setStatus_length s k _)
    intro n hn
    exact List.mem_of_mem_erase hn
  · cases hstep

theorem Accounts.drop {s : Semaphore} {live : List Nat} {k : Nat} (h : s.Accounts (k :: live))
    (hk : s.hasThrown k = true) : s.Accounts live := by
  rw [hasThrown] at hk
  split at hk
  · rename_i timed hcall
    have hnot : k ∉ s.waitQueue := by
      intro hmem
      have := (h.sound.kept.waits k _ hcall).mp hmem
      simp [Status.isWaiting] at this
    refine ⟨h.sound, h.room, h.nodup.of_cons, ?_, ?_, ?_⟩
    · rw [h.count, List.countP_cons_of_neg (by simp [granted, hcall, Status.isGranted])]
    · intro n hn
      rcases List.mem_cons.mp (h.waits n hn) with heq | hmem
      · rw [heq] at hn
        exact absurd hn hnot
      · exact hmem
    · intro n hn
      exact h.range n (List.mem_cons_of_mem _ hn)
  · cases hk

theorem Accounts.release {s : Semaphore} {live : List Nat} {k : Nat}
    (h : s.Accounts (k :: live)) (hk : s.granted k = true) :
    s.release.Accounts live ∧ s.Later s.release := by
  have hcount := h.count
  rw [List.countP_cons_of_pos hk] at hcount
  have hpos : 0 < s.activeCount := by omega
  have hlt : k < s.calls.length := h.range k (by simp)
  have hcall : s.calls[k]? = some s.calls[k] := List.getElem?_eq_getElem hlt
  have hnot : k ∉ s.waitQueue := by
    intro hmem
    have hwaiting := (h.sound.kept.waits k _ hcall).mp hmem
    rw [granted, hcall] at hk
    dsimp only at hk
    generalize s.calls[k].status = status at hwaiting hk
    cases status <;> simp [Status.isWaiting, Status.isGranted] at hwaiting hk
  have hkept := h.sound.kept
  have hbalance := hkept.count
  have hroom := h.room
  have hless : ({ s with activeCount := s.activeCount - 1, released := s.released + 1 } :
      Semaphore).Kept s.waitQueue := by
    refine ⟨?_, hkept.bound, hkept.order, hkept.range, hkept.waits, hkept.granted⟩
    show s.activeCount - 1 + (s.released + 1) = s.grants.length
    omega
  have hwaits : ∀ n ∈ s.waitQueue, n ∈ live := by
    intro n hn
    rcases List.mem_cons.mp (h.waits n hn) with heq | hmem
    · rw [heq] at hn
      exact absurd hn hnot
    · exact hmem
  have hrange : ∀ n ∈ live, n < s.calls.length := by
    intro n hn
    exact h.range n (List.mem_cons_of_mem _ hn)
  have hcounted : s.activeCount - 1 = live.countP s.granted := by omega
  have hfits : s.activeCount - 1 ≤ s.maxConcurrent := by omega
  rw [Semaphore.release, if_pos hpos]
  obtain ⟨haccounts, hlater⟩ :=
    hless.drainWaiters_accounts hfits h.nodup.of_cons hcounted hwaits hrange
  exact ⟨haccounts, hlater.maximum, hlater.length, hlater.kept⟩

end PlugAgente.Pool.Semaphore
