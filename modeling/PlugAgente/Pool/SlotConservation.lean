import PlugAgente.Machine.Ledger
import PlugAgente.Pool.ConnectionPool

/-!
# The slots of the connection pool

The permits of the pool that are out are those of the connections that are leased or being
opened; a connection whose disconnect is not confirmed is one of those that are leased.
`Slots` says so for every state, and that a permit is given back once: it is tied to the
call of the semaphore that an attempt stands for.

`leased_step` is what a step does to a lease: nothing, or it confirms the disconnect of its
connection and gives the permit back.
-/

namespace PlugAgente.Pool

namespace OdbcConnectionPool

/-- What an attempt relies on. -/
def Behind (s : OdbcConnectionPool) (a : Attempt) : Prop :=
  match a.stage with
  | .inHandshake call _ => s.semaphore.granted call = true
  | .connecting call _ => s.semaphore.granted call = true
  | .leased call _ => s.semaphore.granted call = true
  | .returned call _ => call ∈ s.givenBack
  | _ => True

structure Slots (s : OdbcConnectionPool) : Prop where
  accounts : s.semaphore.Accounts (s.attempts.filterMap Attempt.call?)
  behind : ∀ (i : Nat) (a : Attempt), s.attempts[i]? = some a → s.Behind a
  leased : s.leasedIds.Perm (s.attempts.filterMap Attempt.leasedId?)
  nodup : s.leasedIds.Nodup
  backNodup : s.givenBack.Nodup
  back : ∀ call ∈ s.givenBack, call < s.semaphore.calls.length ∧
    call ∉ s.attempts.filterMap Attempt.call?

/-- Later: the semaphore is later, and what was given back stays so. -/
structure Later (s t : OdbcConnectionPool) : Prop where
  semaphore : s.semaphore.Later t.semaphore
  back : ∀ call ∈ s.givenBack, call ∈ t.givenBack

theorem Later.behind {s t : OdbcConnectionPool} (h : s.Later t) {a : Attempt}
    (ha : s.Behind a) : t.Behind a := by
  obtain ⟨connectionString, stage⟩ := a
  cases stage with
  | inHandshake call handshake => exact h.semaphore.kept _ ha
  | connecting call handshake => exact h.semaphore.kept _ ha
  | leased call id => exact h.semaphore.kept _ ha
  | returned call id => exact h.back _ ha
  | refused => trivial
  | inPool call => trivial
  | failed => trivial

theorem Slots.frame {s t : OdbcConnectionPool} (h : s.Slots) (hsemaphore : t.semaphore = s.semaphore)
    (hattempts : t.attempts = s.attempts) (hleased : t.leasedIds = s.leasedIds)
    (hback : t.givenBack = s.givenBack) : t.Slots := by
  have hlater : s.Later t :=
    ⟨hsemaphore ▸ Semaphore.Later.refl _, fun call hcall => hback ▸ hcall⟩
  refine ⟨?_, ?_, ?_, ?_, ?_, ?_⟩
  · rw [hsemaphore, hattempts]
    exact h.accounts
  · rw [hattempts]
    exact fun i a hi => hlater.behind (h.behind i a hi)
  · rw [hleased, hattempts]
    exact h.leased
  · rw [hleased]
    exact h.nodup
  · rw [hback]
    exact h.backNodup
  · rw [hback, hsemaphore, hattempts]
    exact h.back

theorem Slots.replace {s t : OdbcConnectionPool} (h : s.Slots) {i : Nat} {a b : Attempt}
    (hi : s.attempts[i]? = some a) (hattempts : t.attempts = s.attempts.set i b)
    {given : List Nat} (hback : t.givenBack = s.givenBack ++ given)
    (hcall : b.call? = a.call? ∧ given = [] ∨
      b.call? = none ∧ (given = [] ∨ given = a.call?.toList))
    (hsemaphore : ∀ rest, s.semaphore.Accounts (a.call?.toList ++ rest) →
      t.semaphore.Accounts (b.call?.toList ++ rest) ∧ s.semaphore.Later t.semaphore)
    (hleased : ∀ rest, s.leasedIds.Perm (a.leasedId?.toList ++ rest) →
      t.leasedIds.Perm (b.leasedId?.toList ++ rest) ∧ t.leasedIds.Nodup)
    (hbehind : t.Behind b) : t.Slots := by
  have hbefore := Ledger.filterMap_split Attempt.call? hi
  have hafter := Ledger.filterMap_set Attempt.call? (b := b) hi
  have hcalls := h.accounts.perm hbefore
  obtain ⟨haccounts, hlater⟩ := hsemaphore _ hcalls
  obtain ⟨hperm, hnodup⟩ := hleased _ (h.leased.trans (Ledger.filterMap_split _ hi))
  have hboth : s.Later t := ⟨hlater, fun call hmem => by rw [hback]; simp [hmem]⟩
  -- What is given back is the call of the attempt, which it no longer stands for.
  have hgiven : ∀ call ∈ given, a.call? = some call := by
    intro call hmem
    rcases hcall with ⟨-, hnone⟩ | ⟨-, hnone | hsome⟩
    · simp [hnone] at hmem
    · simp [hnone] at hmem
    · simpa [hsome, Option.mem_toList] using hmem
  have hlive : ∀ call, call ∈ (s.attempts.set i b).filterMap Attempt.call? →
      call ∈ s.attempts.filterMap Attempt.call? := by
    intro call hmem
    have hmem := hafter.mem_iff.mp hmem
    apply hbefore.mem_iff.mpr
    rcases hcall with ⟨hsame, -⟩ | ⟨hnone, -⟩
    · rwa [hsame] at hmem
    · rw [hnone] at hmem
      exact List.mem_append_right _ hmem
  have hfresh : ∀ call ∈ given, call ∉ (s.attempts.set i b).filterMap Attempt.call? := by
    intro call hmem hin
    have hown := hgiven call hmem
    have hnodup := hcalls.nodup
    rw [hown] at hnodup
    have hin := hafter.mem_iff.mp hin
    rcases hcall with ⟨-, hnone⟩ | ⟨hnone, -⟩
    · simp [hnone] at hmem
    · rw [hnone] at hin
      exact (List.nodup_cons.mp hnodup).1 hin
  refine ⟨?_, ?_, ?_, hnodup, ?_, ?_⟩
  · rw [hattempts]
    exact haccounts.perm hafter.symm
  · rw [hattempts]
    apply Ledger.forall_set
    · intro n c _ hn
      exact hboth.behind (h.behind n c hn)
    · intro _
      exact hbehind
  · rw [hattempts]
    exact hperm.trans (Ledger.filterMap_set _ hi).symm
  · rw [hback, List.nodup_append]
    refine ⟨h.backNodup, ?_, ?_⟩
    · rcases hcall with ⟨-, hnone⟩ | ⟨-, hnone | hsome⟩
      · simp [hnone]
      · simp [hnone]
      · rw [hsome]
        cases a.call? <;> simp
    · intro c hc d hd heq
      have hin : d ∈ s.attempts.filterMap Attempt.call? :=
        hbefore.mem_iff.mpr (by simp [hgiven d hd])
      exact (h.back c hc).2 (heq ▸ hin)
  · intro call hmem
    rw [hattempts]
    rw [hback] at hmem
    rcases List.mem_append.mp hmem with hmem | hmem
    · have hold := h.back call hmem
      refine ⟨Nat.lt_of_lt_of_le hold.1 hlater.length, fun hin => hold.2 (hlive call hin)⟩
    · refine ⟨?_, hfresh call hmem⟩
      have hlt : call < s.semaphore.calls.length :=
        h.accounts.range call (hbefore.mem_iff.mpr (by simp [hgiven call hmem]))
      exact Nat.lt_of_lt_of_le hlt hlater.length

theorem Slots.giveBack {s t : OdbcConnectionPool} (h : s.Slots) {i call : Nat} {a : Attempt}
    {stage : AttemptStage} (hi : s.attempts[i]? = some a) (hcall : a.call? = some call)
    (hgranted : s.semaphore.granted call = true)
    (hattempts : t.attempts = s.attempts.set i { a with stage := stage })
    (hback : t.givenBack = s.givenBack ++ [call])
    (hsemaphore : t.semaphore = s.semaphore.release)
    (hnone : ({ a with stage := stage } : Attempt).call? = none)
    (hleased : ∀ rest, s.leasedIds.Perm (a.leasedId?.toList ++ rest) →
      t.leasedIds.Perm (({ a with stage := stage } : Attempt).leasedId?.toList ++ rest) ∧
        t.leasedIds.Nodup)
    (hbehind : t.Behind { a with stage := stage }) : t.Slots := by
  refine h.replace hi hattempts hback (.inr ⟨hnone, .inr (by rw [hcall]; rfl)⟩) ?_ hleased hbehind
  intro rest haccounts
  rw [hcall] at haccounts
  rw [hnone, hsemaphore]
  exact haccounts.release hgranted

theorem leased_same {s : OdbcConnectionPool} (h : s.Slots) {a b : Attempt}
    (ha : a.leasedId? = none) (hb : b.leasedId? = none) (rest : List String)
    (hperm : s.leasedIds.Perm (a.leasedId?.toList ++ rest)) :
    s.leasedIds.Perm (b.leasedId?.toList ++ rest) ∧ s.leasedIds.Nodup := by
  rw [ha] at hperm
  rw [hb]
  exact ⟨hperm, h.nodup⟩

/-! ## The steps -/

theorem Slots.acquire {s : OdbcConnectionPool} (h : s.Slots) (connectionString : String) :
    (s.acquire connectionString).Slots := by
  rw [OdbcConnectionPool.acquire]
  split_ifs
  · let a : Attempt := ⟨connectionString, .refused⟩
    have hcalls : (s.attempts ++ [a]).filterMap Attempt.call? =
        s.attempts.filterMap Attempt.call? := by
      rw [List.filterMap_append]
      exact List.append_nil _
    have hids : (s.attempts ++ [a]).filterMap Attempt.leasedId? =
        s.attempts.filterMap Attempt.leasedId? := by
      rw [List.filterMap_append]
      exact List.append_nil _
    refine ⟨hcalls.symm ▸ h.accounts, ?_, hids.symm ▸ h.leased, h.nodup, h.backNodup,
      hcalls.symm ▸ h.back⟩
    exact Ledger.forall_concat (fun n b hn => h.behind n b hn) trivial
  · let a : Attempt := ⟨connectionString, .inPool s.semaphore.calls.length⟩
    obtain ⟨haccounts, hlater⟩ := h.accounts.acquire true
    have hcalls : (s.attempts ++ [a]).filterMap Attempt.call? =
        s.attempts.filterMap Attempt.call? ++ [s.semaphore.calls.length] := by
      rw [List.filterMap_append]
      rfl
    have hids : (s.attempts ++ [a]).filterMap Attempt.leasedId? =
        s.attempts.filterMap Attempt.leasedId? := by
      rw [List.filterMap_append]
      exact List.append_nil _
    have hboth : s.Later { s with
        semaphore := s.semaphore.acquire true
        attempts := s.attempts ++ [a] } := ⟨hlater, fun call hcall => hcall⟩
    refine ⟨?_, ?_, hids.symm ▸ h.leased, h.nodup, h.backNodup, ?_⟩
    · show (s.semaphore.acquire true).Accounts ((s.attempts ++ [a]).filterMap Attempt.call?)
      rw [hcalls]
      exact haccounts.perm (List.perm_append_singleton _ _).symm
    · exact Ledger.forall_concat (fun n b hn => hboth.behind (h.behind n b hn)) trivial
    · intro call hmem
      obtain ⟨hlt, hnot⟩ := h.back call hmem
      refine ⟨Nat.lt_of_lt_of_le hlt hlater.length, ?_⟩
      show call ∉ (s.attempts ++ [a]).filterMap Attempt.call?
      rw [hcalls]
      intro hin
      rcases List.mem_append.mp hin with hin | hin
      · exact hnot hin
      · have := List.mem_singleton.mp hin
        omega

theorem Slots.turn {s s' : OdbcConnectionPool} (h : s.Slots) {level : PoolLevel}
    {f : Semaphore → Option Semaphore}
    (hf : ∀ u u' live, u.Accounts live → f u = some u' → u'.Accounts live ∧ u.Later u')
    (hstep : s.turn level f = some s') : s'.Slots := by
  cases level with
  | pool =>
    rw [OdbcConnectionPool.turn, Option.map_eq_some_iff] at hstep
    obtain ⟨u, hu, heq⟩ := hstep
    obtain ⟨haccounts, hlater⟩ := hf _ _ _ h.accounts hu
    have hboth : s.Later { s with semaphore := u } := ⟨hlater, fun call hcall => hcall⟩
    rw [← heq]
    exact ⟨haccounts, fun i a hi => hboth.behind (h.behind i a hi), h.leased, h.nodup,
      h.backNodup, fun call hcall =>
        ⟨Nat.lt_of_lt_of_le (h.back call hcall).1 hlater.length, (h.back call hcall).2⟩⟩
  | handshake =>
    rw [OdbcConnectionPool.turn, Option.map_eq_some_iff] at hstep
    obtain ⟨u, _, heq⟩ := hstep
    rw [← heq]
    exact h.frame rfl rfl rfl rfl

theorem Slots.poolReturned {s s' : OdbcConnectionPool} (h : s.Slots) {i : Nat}
    {budgetLeft : Bool} (hstep : s.poolReturned i budgetLeft = some s') : s'.Slots := by
  rw [OdbcConnectionPool.poolReturned] at hstep
  split at hstep
  · rename_i connectionString call hi
    dsimp only at hstep
    split_ifs at hstep with hreturned hbudget hthrown
    · have hgranted := Semaphore.granted_of_hasReturned hreturned
      rw [← Option.some.inj hstep]
      refine h.replace hi rfl (List.append_nil _).symm (.inl ⟨rfl, rfl⟩) ?_
        (leased_same h rfl rfl) hgranted
      exact fun rest haccounts => ⟨haccounts, Semaphore.Later.refl _⟩
    · have hgranted := Semaphore.granted_of_hasReturned hreturned
      rw [← Option.some.inj hstep]
      exact h.giveBack hi rfl hgranted rfl rfl rfl rfl (leased_same h rfl rfl) trivial
    · rw [← Option.some.inj hstep]
      refine h.replace hi rfl (List.append_nil _).symm (.inr ⟨rfl, .inl rfl⟩) ?_
        (leased_same h rfl rfl) trivial
      exact fun rest haccounts => ⟨haccounts.drop hthrown, Semaphore.Later.refl _⟩
  · cases hstep

theorem Slots.handshakeReturned {s s' : OdbcConnectionPool} (h : s.Slots) {i : Nat}
    (hstep : s.handshakeReturned i = some s') : s'.Slots := by
  rw [OdbcConnectionPool.handshakeReturned] at hstep
  split at hstep
  · rename_i connectionString call handshake hi
    have hgranted : s.semaphore.granted call = true := h.behind i _ hi
    dsimp only at hstep
    split_ifs at hstep
    · rw [← Option.some.inj hstep]
      refine h.replace hi rfl (List.append_nil _).symm (.inl ⟨rfl, rfl⟩) ?_
        (leased_same h rfl rfl) hgranted
      exact fun rest haccounts => ⟨haccounts, Semaphore.Later.refl _⟩
    · rw [← Option.some.inj hstep]
      exact h.giveBack hi rfl hgranted rfl rfl rfl rfl (leased_same h rfl rfl) trivial
  · cases hstep

theorem Slots.connected {s s' : OdbcConnectionPool} (h : s.Slots) {i : Nat}
    {result : ConnectResult} (hapart : ∀ id, result = .success id → id ∉ s.leasedIds)
    (hstep : s.connected i result = some s') : s'.Slots := by
  rw [OdbcConnectionPool.connected] at hstep
  split at hstep
  · rename_i connectionString call handshake hi
    have hgranted : s.semaphore.granted call = true := h.behind i _ hi
    dsimp only at hstep
    cases result with
    | success id =>
      have hnew := hapart id rfl
      rw [← Option.some.inj hstep]
      refine h.replace hi rfl (List.append_nil _).symm (.inl ⟨rfl, rfl⟩) ?_ ?_ hgranted
      · exact fun rest haccounts => ⟨haccounts, Semaphore.Later.refl _⟩
      · intro rest hperm
        dsimp only
        rw [List.insert_of_not_mem hnew]
        exact ⟨hperm.cons id, List.nodup_cons.mpr ⟨hnew, h.nodup⟩⟩
    | failure =>
      rw [← Option.some.inj hstep]
      exact h.giveBack hi rfl hgranted rfl rfl rfl rfl (leased_same h rfl rfl) trivial
    | throws =>
      rw [← Option.some.inj hstep]
      exact h.giveBack hi rfl hgranted rfl rfl rfl rfl (leased_same h rfl rfl) trivial
  · cases hstep

theorem Slots.exists_attempt {s : OdbcConnectionPool} (h : s.Slots) {id : String}
    (hid : id ∈ s.leasedIds) :
    ∃ i connectionString call, s.attempts.findIdx? (·.leasedId? = some id) = some i ∧
      s.attempts[i]? = some ⟨connectionString, .leased call id⟩ := by
  obtain ⟨a, ha, hleased⟩ := List.mem_filterMap.mp (h.leased.mem_iff.mp hid)
  have hsome : (s.attempts.findIdx? (·.leasedId? = some id)).isSome := by
    rw [List.findIdx?_isSome]
    exact List.any_eq_true.mpr ⟨a, ha, by simp [hleased]⟩
  obtain ⟨i, hi⟩ := Option.isSome_iff_exists.mp hsome
  obtain ⟨hlt, hfound, -⟩ := List.findIdx?_eq_some_iff_getElem.mp hi
  have hget : s.attempts[i]? = some s.attempts[i] := List.getElem?_eq_getElem hlt
  generalize s.attempts[i] = b at hfound hget
  obtain ⟨connectionString, stage⟩ := b
  cases stage <;> simp [Attempt.leasedId?] at hfound
  subst hfound
  exact ⟨i, _, _, hi, hget⟩

theorem Slots.finalizeLeaseRelease_eq {s : OdbcConnectionPool} (h : s.Slots) {id : String}
    (hid : id ∈ s.leasedIds) :
    ∃ i connectionString call, s.attempts[i]? = some ⟨connectionString, .leased call id⟩ ∧
      s.finalizeLeaseRelease id =
        ({ s with
          leasedIds := s.leasedIds.erase id
          leasedIdsByConnectionString :=
            s.leasedIdsByConnectionString.filter (·.2 ≠ id) }.setStage i
              ⟨connectionString, .leased call id⟩ (.returned call id)).giveBack call := by
  obtain ⟨i, connectionString, call, hfind, hget⟩ := h.exists_attempt hid
  refine ⟨i, connectionString, call, hget, ?_⟩
  rw [finalizeLeaseRelease, if_pos hid]
  dsimp only
  rw [hfind]
  dsimp only
  rw [hget]

theorem Slots.finalizeLeaseRelease {s : OdbcConnectionPool} (h : s.Slots) (id : String) :
    (s.finalizeLeaseRelease id).Slots := by
  by_cases hid : id ∈ s.leasedIds
  · obtain ⟨i, connectionString, call, hi, heq⟩ := h.finalizeLeaseRelease_eq hid
    rw [heq]
    refine h.giveBack hi rfl (h.behind i _ hi) rfl rfl rfl rfl ?_ ?_
    · intro rest hperm
      refine ⟨?_, h.nodup.erase id⟩
      show (s.leasedIds.erase id).Perm rest
      have herased := hperm.erase id
      rwa [show (Attempt.leasedId? ⟨connectionString, .leased call id⟩).toList ++ rest =
        id :: rest from rfl, List.erase_cons_head] at herased
    · exact List.mem_append_right _ List.mem_cons_self
  · rw [OdbcConnectionPool.finalizeLeaseRelease, if_neg hid]
    exact h

theorem Slots.finishWork {s : OdbcConnectionPool} (h : s.Slots) (w : Nat) (id : String)
    (held : Bool) : (s.finishWork w id held).Slots := by
  rw [OdbcConnectionPool.finishWork]
  dsimp only
  split_ifs <;> exact h.frame rfl rfl rfl rfl

theorem Slots.quarantine {s : OdbcConnectionPool} (h : s.Slots) (id : String) :
    (s.quarantine id).Slots :=
  h.frame rfl rfl rfl rfl

theorem Slots.confirm {s : OdbcConnectionPool} (h : s.Slots) (id : String) :
    (s.confirm id).Slots := by
  have hwithout : ({ s with unconfirmedIds := s.unconfirmedIds.erase id } :
      OdbcConnectionPool).Slots := h.frame rfl rfl rfl rfl
  exact (hwithout.finalizeLeaseRelease id).frame rfl rfl rfl rfl

theorem Slots.disconnect {s : OdbcConnectionPool} (h : s.Slots) (id : String) :
    (s.disconnect id).Slots := by
  rw [OdbcConnectionPool.disconnect]
  split
  · split
    · exact h
    · split
      · exact h.quarantine id
      · exact h.frame rfl rfl rfl rfl
  · exact h

theorem Slots.step {s s' : OdbcConnectionPool} (h : s.Slots) {e : PoolEvent}
    (hapart : DriverNamesApart s e) (hstep : connectionPool.step s e = some s') : s'.Slots := by
  cases e with
  | acquire connectionString =>
    rw [← Option.some.inj hstep]
    exact h.acquire connectionString
  | expire level call =>
    have hturn : s.turn level (·.expire call) = some s' := hstep
    exact h.turn (fun u u' live hu he => hu.expire he) hturn
  | resume level call =>
    have hturn : s.turn level (·.resume call) = some s' := hstep
    exact h.turn (fun u u' live hu he => hu.resume he) hturn
  | poolReturned i budgetLeft => exact h.poolReturned hstep
  | handshakeReturned i => exact h.handshakeReturned hstep
  | connected i result =>
    refine h.connected (fun id hid => ?_) hstep
    rw [hid] at hapart
    exact hapart
  | disconnect id =>
    rw [← Option.some.inj hstep]
    exact h.disconnect id
  | discardUnknown id =>
    rw [← Option.some.inj hstep]
    exact h.quarantine id
  | cleanupTimeout id =>
    rw [eq_of_cleanupTimeout hstep]
    exact h.quarantine id
  | workReturned w =>
    have hstep : s.workReturned w = some s' := hstep
    rw [workReturned] at hstep
    split at hstep
    · split_ifs at hstep
      · rw [← Option.some.inj hstep]
        exact h.frame rfl rfl rfl rfl
      · rw [← Option.some.inj hstep]
        exact (h.quarantine _).finishWork _ _ _
    · cases hstep
  | disconnected w result =>
    have hstep : s.disconnected w result = some s' := hstep
    rw [disconnected] at hstep
    split at hstep
    · split_ifs at hstep
      · rw [← Option.some.inj hstep]
        exact (h.confirm _).finishWork _ _ _
      · rw [← Option.some.inj hstep]
        exact (h.quarantine _).finishWork _ _ _
    · cases hstep

theorem slots_of_reach {s : OdbcConnectionPool} (h : connectionPool.Reach DriverNamesApart s) :
    s.Slots := by
  refine h.invariant ?_ fun s e s' hs hapart hstep => hs.step hapart hstep
  intro s hstart
  obtain ⟨poolSize, handshakes, hpool, hhandshakes, heq⟩ := hstart
  subst heq
  refine ⟨Semaphore.accounts_new hpool, ?_, List.Perm.nil, List.nodup_nil, List.nodup_nil, ?_⟩
  · intro i a hi
    cases hi
  · intro call hmem
    cases hmem

/-! ## The numbers -/

/-- The attempt has a permit and its connection is being opened. -/
def isOpening (s : OdbcConnectionPool) (a : Attempt) : Bool :=
  a.isUnderWay && (a.call?.map s.semaphore.granted).getD false

/-- The connections that are being opened. -/
def opening (s : OdbcConnectionPool) : Nat :=
  s.attempts.countP s.isOpening

/-- The leased connections whose disconnect is not in doubt. -/
def held (s : OdbcConnectionPool) : Nat :=
  s.leasedIds.countP fun id => !s.unconfirmedIds.contains id

/-- The leased connections whose disconnect is unconfirmed. -/
def unconfirmed (s : OdbcConnectionPool) : Nat :=
  s.leasedIds.countP fun id => s.unconfirmedIds.contains id

theorem held_add_unconfirmed (s : OdbcConnectionPool) :
    s.held + s.unconfirmed = s.leasedIds.length := by
  have hsplit := List.length_eq_countP_add_countP (l := s.leasedIds)
    fun id => s.unconfirmedIds.contains id
  simp only [Bool.not_eq_true] at hsplit
  rw [held, unconfirmed, hsplit, Nat.add_comm]
  congr 1
  apply List.countP_congr
  intro id _
  cases s.unconfirmedIds.contains id <;> simp

theorem Slots.leasedIds_length {s : OdbcConnectionPool} (h : s.Slots) :
    s.leasedIds.length = s.attempts.countP fun a => a.leasedId?.isSome := by
  rw [h.leased.length_eq, List.length_filterMap_eq_countP]

theorem Slots.activeCount_eq {s : OdbcConnectionPool} (h : s.Slots) :
    s.semaphore.activeCount = s.opening + s.leasedIds.length := by
  have hopening : ∀ a ∈ s.attempts, ((a.call?.map s.semaphore.granted).getD false = true ∧
      (!a.leasedId?.isSome) = true) ↔ s.isOpening a = true := by
    intro a _
    obtain ⟨connectionString, stage⟩ := a
    cases stage <;> simp [isOpening, Attempt.call?, Attempt.leasedId?, Attempt.isUnderWay]
  have hleased : ∀ a ∈ s.attempts, ((a.call?.map s.semaphore.granted).getD false = true ∧
      a.leasedId?.isSome = true) ↔ a.leasedId?.isSome = true := by
    intro a ha
    obtain ⟨i, hi⟩ := List.mem_iff_getElem?.mp ha
    have hbehind := h.behind i a hi
    obtain ⟨connectionString, stage⟩ := a
    cases stage with
    | leased call id =>
      have hgranted : s.semaphore.granted call = true := hbehind
      simpa [Attempt.call?, Attempt.leasedId?] using hgranted
    | _ => simp [Attempt.leasedId?]
  rw [h.accounts.count, List.countP_filterMap,
    List.countP_eq_countP_filter_add _ _ fun a => a.leasedId?.isSome, List.countP_filter,
    List.countP_filter, h.leasedIds_length, opening, Nat.add_comm]
  congr 1
  · apply List.countP_congr
    intro a ha
    rw [← hopening a ha]
    simp
  · apply List.countP_congr
    intro a ha
    rw [← hleased a ha]
    simp

/-! ## The end of a lease -/

theorem Slots.attempt_unique {s : OdbcConnectionPool} (h : s.Slots) {i j : Nat} {a b : Attempt}
    {id : String} (hi : s.attempts[i]? = some a) (hj : s.attempts[j]? = some b)
    (ha : a.leasedId? = some id) (hb : b.leasedId? = some id) : i = j := by
  by_contra hne
  have hperm := h.leased.trans (Ledger.filterMap_split Attempt.leasedId? hi)
  have hnodup := hperm.nodup_iff.mp h.nodup
  rw [ha] at hnodup
  refine (List.nodup_cons.mp hnodup).1 (List.mem_filterMap.mpr ⟨b, ?_, hb⟩)
  exact List.mem_eraseIdx_iff_getElem?.mpr ⟨j, fun he => hne he.symm, hj⟩

theorem Slots.leased_step {s s' : OdbcConnectionPool} (h : s.Slots) {e : PoolEvent}
    (hstep : connectionPool.step s e = some s') {i call : Nat} {connectionString id : String}
    (hi : s.attempts[i]? = some ⟨connectionString, .leased call id⟩) :
    s'.attempts[i]? = some ⟨connectionString, .leased call id⟩ ∨
      ∃ w handshake result, e = .disconnected w result ∧ result.isConfirmed = true ∧
        s.works[w]? = some ⟨id, .disconnecting handshake⟩ ∧
        s'.attempts[i]? = some ⟨connectionString, .returned call id⟩ ∧
        s'.givenBack = s.givenBack ++ [call] := by
  cases attempts_move hstep with
  | kept hattempts =>
    rw [hattempts]
    exact .inl hi
  | added b hattempts _ =>
    rw [hattempts]
    exact .inl (Ledger.getElem?_kept hi)
  | moved j a b hj ha hattempts _ =>
    have hij : j ≠ i := by
      intro he
      rw [he, hi] at hj
      rw [← Option.some.inj hj] at ha
      cases ha
    rw [hattempts, List.getElem?_set_ne hij]
    exact .inl hi
  | confirmed w gone handshake result he hresult hw hattempts hback =>
    let t : OdbcConnectionPool := { s with unconfirmedIds := s.unconfirmedIds.erase gone }
    have ht : t.Slots := h.frame rfl rfl rfl rfl
    have hconfirm : (s.confirm gone).attempts = (t.finalizeLeaseRelease gone).attempts := rfl
    have hgiven : (s.confirm gone).givenBack = (t.finalizeLeaseRelease gone).givenBack := rfl
    by_cases hgone : gone ∈ s.leasedIds
    · obtain ⟨j, other, k, hj, heq⟩ := ht.finalizeLeaseRelease_eq hgone
      have hset : s'.attempts = s.attempts.set j ⟨other, .returned k gone⟩ := by
        rw [hattempts, hconfirm, heq]
        rfl
      by_cases hid : gone = id
      · subst hid
        -- It is this lease, for no other has the id.
        have hji : j = i := h.attempt_unique hj hi rfl rfl
        subst hji
        have hsame := Option.some.inj (hi.symm.trans hj)
        simp only [Attempt.mk.injEq, AttemptStage.leased.injEq, and_true] at hsame
        have hlt : j < s.attempts.length := (List.getElem?_eq_some_iff.mp hi).1
        refine .inr ⟨w, handshake, result, he, hresult, hw, ?_, ?_⟩
        · rw [hset, List.getElem?_set_self hlt, hsame.1, hsame.2]
        · rw [hback, hgiven, heq, hsame.2]
          rfl
      · have hij : j ≠ i := by
          intro he
          rw [he] at hj
          have hsame := Option.some.inj (hi.symm.trans hj)
          simp only [Attempt.mk.injEq, AttemptStage.leased.injEq] at hsame
          exact hid hsame.2.2.symm
        rw [hset, List.getElem?_set_ne hij]
        exact .inl hi
    · have hsame : s'.attempts = s.attempts := by
        rw [hattempts, hconfirm, OdbcConnectionPool.finalizeLeaseRelease, if_neg hgone]
      rw [hsame]
      exact .inl hi

end OdbcConnectionPool

open OdbcConnectionPool in
/-- In every state that is reached, whatever the driver does as long as it names connections
apart: the permits that are out are those of the connections that are leased, of those whose
disconnect is unconfirmed, and of those that are being opened; the leases are within the size
of the pool; no permit is given back twice; the permit of a lease is kept until a step that
confirms the disconnect of its connection, which gives it back, and it has been given back
once the lease has ended. -/
theorem slots_conserved {s : OdbcConnectionPool}
    (h : connectionPool.Reach DriverNamesApart s) :
    s.semaphore.activeCount = s.held + s.unconfirmed + s.opening ∧
      s.held + s.unconfirmed = s.leasedIds.length ∧
      s.leasedIds.length ≤ s.semaphore.maxConcurrent ∧
      s.givenBack.Nodup ∧
      (∀ (i : Nat) (connectionString : String) (call : Nat) (id : String),
        s.attempts[i]? = some ⟨connectionString, .returned call id⟩ → call ∈ s.givenBack) ∧
      ∀ (i : Nat) (connectionString : String) (call : Nat) (id : String),
        s.attempts[i]? = some ⟨connectionString, .leased call id⟩ →
        id ∈ s.leasedIds ∧ call ∉ s.givenBack ∧
        ∀ e s', connectionPool.step s e = some s' →
          s'.attempts[i]? = some ⟨connectionString, .leased call id⟩ ∨
            ∃ w handshake result, e = .disconnected w result ∧ result.isConfirmed = true ∧
              s.works[w]? = some ⟨id, .disconnecting handshake⟩ ∧
              s'.attempts[i]? = some ⟨connectionString, .returned call id⟩ ∧
              s'.givenBack = s.givenBack ++ [call] := by
  have hslots := slots_of_reach h
  have hactive := hslots.activeCount_eq
  have hleased := s.held_add_unconfirmed
  have hroom := hslots.accounts.room
  refine ⟨by omega, hleased, by omega, hslots.backNodup, ?_, ?_⟩
  · intro i connectionString call id hi
    exact hslots.behind i _ hi
  · intro i connectionString call id hi
    have hmem : (⟨connectionString, .leased call id⟩ : Attempt) ∈ s.attempts :=
      List.mem_of_getElem? hi
    refine ⟨?_, ?_, fun e s' hstep => hslots.leased_step hstep hi⟩
    · exact hslots.leased.mem_iff.mpr (List.mem_filterMap.mpr ⟨_, hmem, rfl⟩)
    · intro hback
      exact (hslots.back call hback).2 (List.mem_filterMap.mpr ⟨_, hmem, rfl⟩)

/-- A pool of one, whose only connection is given back: the caller stops waiting for the
disconnect, which is confirmed later. -/
def lateDisconnect : List PoolEvent :=
  [.acquire "dsn", .poolReturned 0 true, .handshakeReturned 0, .connected 0 (.success "1"),
    .disconnect "1", .workReturned 0, .cleanupTimeout "1", .disconnected 0 .success]

/-- The permit has come back once, and none is out. -/
theorem slots_conserved_lateDisconnect :
    ∃ s, connectionPool.run (.make 1 1) lateDisconnect = some s ∧ s.givenBack = [0] ∧
      s.attempts[0]? = some ⟨"dsn", .returned 0 "1"⟩ ∧ s.semaphore.activeCount = 0 ∧
      s.semaphore.activeCount = s.held + s.unconfirmed + s.opening := by
  refine ⟨_, rfl, rfl, rfl, rfl, ?_⟩
  have hstart : connectionPool.Reach DriverNamesApart (.make 1 1) :=
    Machine.Reach.start ⟨1, 1, by decide, by decide, rfl⟩
  refine (slots_conserved (hstart.of_run lateDisconnect ?_ rfl)).1
  exact ⟨trivial, trivial, trivial, List.not_mem_nil, trivial, trivial, trivial, trivial, trivial⟩

end PlugAgente.Pool
