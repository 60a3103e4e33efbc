import PlugAgente.Machine.Ledger
import PlugAgente.Machine.Transition

/-!
# The gate of the token refresh

`HubAccessTokenRefreshGate` as a machine.  A call of `runExclusive` leads a refresh of its own,
joins the one in flight, or is skipped while the cooldown lasts.  A refresh is named by the call
that leads it, and the stage of that call is its completer: calls that joined go on in a later
turn, and other calls and `reset` may come between.

`refresh_shared` is about those who wait for a refresh, `refreshes_spaced` about the times of the
refreshes.
-/

namespace PlugAgente.Sessions

/-- How far a call of `runExclusive` is. -/
inductive RefreshStage (ε α : Type) where
  /-- It awaits its action. -/
  | leading
  | returned (completedAt : Int) (value : α)
  | threw (error : ε)
  /-- It awaits the completer of another call. -/
  | joined (leader : Nat)
  | answered (leader : Nat) (result : Except ε α)
  /-- It has returned null. -/
  | skipped

variable {ε α : Type}

/-- What the completer of a call holds. -/
def RefreshStage.completed : RefreshStage ε α → Option (Except ε α)
  | .returned _ value => some (.ok value)
  | .threw error => some (.error error)
  | _ => none

def RefreshStage.isLeading : RefreshStage ε α → Bool
  | .leading => true
  | _ => false

theorem RefreshStage.isLeading_iff (stage : RefreshStage ε α) :
    stage.isLeading = true ↔ stage = .leading := by
  cases stage <;> simp [isLeading]

/-- It leads or has led a refresh. -/
def RefreshStage.leads : RefreshStage ε α → Prop
  | .leading | .returned .. | .threw _ => True
  | _ => False

/-- A call of `runExclusive`; the resets before it are history. -/
structure RefreshCall (ε α : Type) where
  now : Int
  respectCooldown : Bool
  resets : Nat
  stage : RefreshStage ε α

structure HubAccessTokenRefreshGate (ε α : Type) where
  lastCompletedAt : Option Int := none
  inFlight : Option Nat := none
  calls : List (RefreshCall ε α) := []
  resets : Nat := 0

inductive RefreshEvent (ε α : Type) where
  | runExclusive (now : Int) (respectCooldown : Bool)
  | actionReturned (call : Nat) (now : Int) (value : α)
  | actionThrew (call : Nat) (error : ε)
  /-- A call goes on behind the future that it awaits. -/
  | resume (call : Nat)
  | reset

/-- The time that an event reads. -/
def RefreshEvent.time? : RefreshEvent ε α → Option Int
  | .runExclusive now _ => some now
  | .actionReturned _ now _ => some now
  | _ => none

namespace HubAccessTokenRefreshGate

def isCooldownActive (minInterval : Int) (s : HubAccessTokenRefreshGate ε α) (now : Int) : Bool :=
  match s.lastCompletedAt with
  | none => false
  | some last => 0 < minInterval && now - last < minInterval

def reset (s : HubAccessTokenRefreshGate ε α) : HubAccessTokenRefreshGate ε α :=
  { s with lastCompletedAt := none, inFlight := none, resets := s.resets + 1 }

def enter (s : HubAccessTokenRefreshGate ε α) (now : Int) (respectCooldown : Bool)
    (stage : RefreshStage ε α) : HubAccessTokenRefreshGate ε α :=
  { s with calls := s.calls ++ [⟨now, respectCooldown, s.resets, stage⟩] }

/-- `runExclusive`, up to its first `await`. -/
def runExclusive (minInterval : Int) (s : HubAccessTokenRefreshGate ε α) (now : Int)
    (respectCooldown : Bool) : HubAccessTokenRefreshGate ε α :=
  match s.inFlight with
  | some leader => s.enter now respectCooldown (.joined leader)
  | none =>
    if respectCooldown && s.isCooldownActive minInterval now then
      s.enter now respectCooldown .skipped
    else { s.enter now respectCooldown .leading with inFlight := some s.calls.length }

def become (s : HubAccessTokenRefreshGate ε α) (k : Nat) (c : RefreshCall ε α)
    (stage : RefreshStage ε α) : HubAccessTokenRefreshGate ε α :=
  { s with calls := s.calls.set k { c with stage := stage } }

/-- The `finally` of a call that leads. -/
def leave (s : HubAccessTokenRefreshGate ε α) (k : Nat) : HubAccessTokenRefreshGate ε α :=
  { s with inFlight := if s.inFlight = some k then none else s.inFlight }

/-- The call with a number, when it awaits its action. -/
def leader? (s : HubAccessTokenRefreshGate ε α) (k : Nat) : Option (RefreshCall ε α) :=
  s.calls[k]?.filter fun c => c.stage.isLeading

/-- `runExclusive` behind `await action()`, when it returns. -/
def actionReturned (s : HubAccessTokenRefreshGate ε α) (k : Nat) (now : Int) (value : α) :
    Option (HubAccessTokenRefreshGate ε α) :=
  (s.leader? k).map fun c =>
    { (s.become k c (.returned now value)).leave k with lastCompletedAt := some now }

/-- The same, when it throws. -/
def actionThrew (s : HubAccessTokenRefreshGate ε α) (k : Nat) (error : ε) :
    Option (HubAccessTokenRefreshGate ε α) :=
  (s.leader? k).map fun c => (s.become k c (.threw error)).leave k

/-- What the future of a call holds. -/
def future (s : HubAccessTokenRefreshGate ε α) (leader : Nat) : Option (Except ε α) :=
  s.calls[leader]?.bind fun l => l.stage.completed

/-- `runExclusive` behind `await inFlight.completer.future`. -/
def resume (s : HubAccessTokenRefreshGate ε α) (k : Nat) : Option (HubAccessTokenRefreshGate ε α) :=
  match s.calls[k]? with
  | some c =>
    match c.stage with
    | .joined leader => (s.future leader).map fun result => s.become k c (.answered leader result)
    | _ => none
  | none => none

end HubAccessTokenRefreshGate

open HubAccessTokenRefreshGate

/-- The gate with its minimal interval. -/
def refreshGate (ε α : Type) (minInterval : Int) :
    Machine (HubAccessTokenRefreshGate ε α) (RefreshEvent ε α) where
  start s := s = {}
  step s
    | .runExclusive now respectCooldown => some (s.runExclusive minInterval now respectCooldown)
    | .actionReturned k now value => s.actionReturned k now value
    | .actionThrew k error => s.actionThrew k error
    | .resume k => s.resume k
    | .reset => some s.reset

namespace HubAccessTokenRefreshGate

variable {minInterval : Int} {s s' : HubAccessTokenRefreshGate ε α} {k : Nat}
  {c : RefreshCall ε α}

/-! ## What an event does -/

/-- A call enters, a call that leads ends, or a call that joined is answered. -/
inductive Moves (minInterval : Int) (s : HubAccessTokenRefreshGate ε α) :
    Option Int → HubAccessTokenRefreshGate ε α → Prop where
  | joins (now : Int) (respectCooldown : Bool) (leader : Nat) (h : s.inFlight = some leader) :
    Moves minInterval s (some now) (s.enter now respectCooldown (.joined leader))
  | skips (now : Int) (respectCooldown : Bool) :
    Moves minInterval s (some now) (s.enter now respectCooldown .skipped)
  | leads (now : Int) (respectCooldown : Bool) (hfree : s.inFlight = none)
    (hcooled : respectCooldown = true → s.isCooldownActive minInterval now = false) :
    Moves minInterval s (some now)
      { s.enter now respectCooldown .leading with inFlight := some s.calls.length }
  | ends (time : Option Int) (k : Nat) (c : RefreshCall ε α) (stage : RefreshStage ε α)
    (last : Option Int) (hc : s.calls[k]? = some c) (hstage : c.stage = .leading)
    (hended : (∃ now value, stage = .returned now value ∧ last = some now ∧ time = some now) ∨
      (∃ error, stage = .threw error) ∧ last = s.lastCompletedAt) :
    Moves minInterval s time { (s.become k c stage).leave k with lastCompletedAt := last }
  | answers (k : Nat) (c : RefreshCall ε α) (leader : Nat) (result : Except ε α)
    (hc : s.calls[k]? = some c) (hstage : c.stage = .joined leader)
    (hfuture : s.future leader = some result) :
    Moves minInterval s none (s.become k c (.answered leader result))
  | resets : Moves minInterval s none s.reset

theorem leader?_eq_some (h : s.leader? k = some c) :
    s.calls[k]? = some c ∧ c.stage = .leading := by
  obtain ⟨hc, hleading⟩ := Option.filter_eq_some_iff.mp h
  exact ⟨hc, c.stage.isLeading_iff.mp hleading⟩

theorem step_moves {e : RefreshEvent ε α} (h : (refreshGate ε α minInterval).step s e = some s') :
    Moves minInterval s e.time? s' := by
  cases e with
  | runExclusive now respectCooldown =>
    rw [← Option.some.inj h]
    show Moves minInterval s (some now) (s.runExclusive minInterval now respectCooldown)
    rw [runExclusive]
    split
    · rename_i leader hleader
      exact .joins now respectCooldown leader hleader
    · rename_i hfree
      split_ifs with hcooldown
      · exact .skips now respectCooldown
      · refine .leads now respectCooldown hfree ?_
        intro hrespects
        simpa [hrespects] using hcooldown
  | actionReturned k now value =>
    obtain ⟨c, hc, heq⟩ := Option.map_eq_some_iff.mp h
    obtain ⟨hfound, hstage⟩ := leader?_eq_some hc
    rw [← heq]
    exact .ends _ k c _ _ hfound hstage (.inl ⟨now, value, rfl, rfl, rfl⟩)
  | actionThrew k error =>
    obtain ⟨c, hc, heq⟩ := Option.map_eq_some_iff.mp h
    obtain ⟨hfound, hstage⟩ := leader?_eq_some hc
    rw [← heq]
    exact .ends _ k c _ _ hfound hstage (.inr ⟨⟨error, rfl⟩, rfl⟩)
  | resume k =>
    change s.resume k = some s' at h
    rw [resume] at h
    split at h
    · rename_i c hc
      split at h
      · rename_i leader hstage
        obtain ⟨result, hfuture, heq⟩ := Option.map_eq_some_iff.mp h
        rw [← heq]
        exact .answers k c leader result hc hstage hfuture
      · cases h
    · cases h
  | reset =>
    rw [← Option.some.inj h]
    exact .resets

/-! ## Who waits -/

/-- A call that joined awaits a call that leads or has led; one that was answered has what the
completer of that call holds. -/
def Waits (s : HubAccessTokenRefreshGate ε α) (c : RefreshCall ε α) : Prop :=
  match c.stage with
  | .joined leader => ∃ l, s.calls[leader]? = some l ∧ l.stage.leads
  | .answered leader result => s.future leader = some result
  | _ => True

/-- The refresh in flight runs, and one that runs is in flight unless a reset has let go of it. -/
structure Kept (s : HubAccessTokenRefreshGate ε α) : Prop where
  inFlight : ∀ k, s.inFlight = some k → ∃ c, s.calls[k]? = some c ∧ c.stage = .leading
  running : ∀ (k : Nat) (c : RefreshCall ε α), s.calls[k]? = some c → c.stage = .leading →
    c.resets = s.resets → s.inFlight = some k
  resets : ∀ (k : Nat) (c : RefreshCall ε α), s.calls[k]? = some c → c.resets ≤ s.resets
  waits : ∀ (k : Nat) (c : RefreshCall ε α), s.calls[k]? = some c → Waits s c

/-- The calls that lead go on to lead, and what their completers hold stays. -/
def Grows (s s' : HubAccessTokenRefreshGate ε α) : Prop :=
  ∀ (k : Nat) (c : RefreshCall ε α), s.calls[k]? = some c → c.stage.leads →
    ∃ d, s'.calls[k]? = some d ∧ d.stage.leads ∧
      ∀ result, c.stage.completed = some result → d.stage.completed = some result

theorem Waits.grow (h : Waits s c) (hgrows : Grows s s') : Waits s' c := by
  rw [Waits] at *
  split
  · rename_i leader hstage
    rw [hstage] at h
    obtain ⟨l, hl, hleads⟩ := h
    obtain ⟨d, hd, hleads', -⟩ := hgrows leader l hl hleads
    exact ⟨d, hd, hleads'⟩
  · rename_i leader result hstage
    rw [hstage] at h
    obtain ⟨l, hl, hresult⟩ := Option.bind_eq_some_iff.mp h
    have hleads : l.stage.leads := by
      cases hl' : l.stage <;> simp_all [RefreshStage.completed, RefreshStage.leads]
    obtain ⟨d, hd, -, hkept⟩ := hgrows leader l hl hleads
    exact Option.bind_eq_some_iff.mpr ⟨d, hd, hkept result hresult⟩
  · trivial

theorem grows_enter (s : HubAccessTokenRefreshGate ε α) (now : Int) (respectCooldown : Bool)
    (stage : RefreshStage ε α) : Grows s (s.enter now respectCooldown stage) :=
  fun _ c hc hleads => ⟨c, Ledger.getElem?_kept hc, hleads, fun _ hresult => hresult⟩

theorem grows_become (s : HubAccessTokenRefreshGate ε α) (hc : s.calls[k]? = some c)
    (hpending : c.stage.completed = none) {stage : RefreshStage ε α}
    (hleads : c.stage.leads → stage.leads) : Grows s (s.become k c stage) := by
  intro j d hd hleads'
  by_cases hj : j = k
  · subst hj
    obtain rfl := Option.some.inj (hc.symm.trans hd)
    have hlt : j < s.calls.length := (List.getElem?_eq_some_iff.mp hc).1
    refine ⟨{ c with stage := stage }, List.getElem?_set_self hlt, hleads hleads', ?_⟩
    intro result hresult
    rw [hpending] at hresult
    cases hresult
  · exact ⟨d, by rw [become, List.getElem?_set_ne (Ne.symm hj), hd], hleads', fun _ h => h⟩

theorem Kept.enter (h : Kept s) (now : Int) (respectCooldown : Bool) {stage : RefreshStage ε α}
    (hstage : stage ≠ .leading)
    (hwaits : Waits s ⟨now, respectCooldown, s.resets, stage⟩) :
    Kept (s.enter now respectCooldown stage) := by
  have hgrows := grows_enter s now respectCooldown stage
  refine ⟨?_, ?_, ?_, ?_⟩
  · intro k hk
    obtain ⟨c, hc, hleading⟩ := h.inFlight k hk
    exact ⟨c, Ledger.getElem?_kept hc, hleading⟩
  · apply Ledger.forall_concat
    · exact h.running
    · intro hleading
      exact absurd hleading hstage
  · exact Ledger.forall_concat h.resets (le_refl _)
  · exact Ledger.forall_concat (fun k c hc => (h.waits k c hc).grow hgrows)
      (hwaits.grow hgrows)

/-- A call ends or is answered. -/
theorem Kept.become (h : Kept s) (hc : s.calls[k]? = some c) {stage : RefreshStage ε α}
    {inFlight : Option Nat} {last : Option Int} (hgrows : Grows s (s.become k c stage))
    (hstage : stage ≠ .leading) (hwaits : Waits s { c with stage := stage })
    (hin : ∀ j, inFlight = some j ↔ s.inFlight = some j ∧ j ≠ k) :
    Kept { s.become k c stage with inFlight := inFlight, lastCompletedAt := last } := by
  refine ⟨?_, ?_, ?_, ?_⟩
  · intro j hj
    obtain ⟨hold, hne⟩ := (hin j).mp hj
    obtain ⟨d, hd, hleading⟩ := h.inFlight j hold
    exact ⟨d, (List.getElem?_set_ne (Ne.symm hne)).trans hd, hleading⟩
  · apply Ledger.forall_set
    · exact fun j d hne hd hleading hresets =>
        (hin j).mpr ⟨h.running j d hd hleading hresets, hne⟩
    · exact fun _ hleading => absurd hleading hstage
  · exact Ledger.forall_set (fun j d _ hd => h.resets j d hd) fun _ => h.resets k c hc
  · exact Ledger.forall_set (fun j d _ hd => (h.waits j d hd).grow hgrows)
      fun _ => hwaits.grow hgrows

theorem Kept.move {time : Option Int} (h : Kept s) (hmove : Moves minInterval s time s') :
    Kept s' := by
  cases hmove with
  | joins now respectCooldown leader hleader =>
    obtain ⟨l, hl, hleading⟩ := h.inFlight leader hleader
    exact h.enter now respectCooldown (by simp) ⟨l, hl, by simp [hleading, RefreshStage.leads]⟩
  | skips now respectCooldown => exact h.enter now respectCooldown (by simp) trivial
  | leads now respectCooldown hfree hcooled =>
    have hgrows := grows_enter s now respectCooldown .leading
    refine ⟨?_, ?_, ?_, ?_⟩
    · intro k hk
      obtain rfl := Option.some.inj hk
      exact ⟨_, List.getElem?_concat_length, rfl⟩
    · apply Ledger.forall_concat
      · intro k c hc hleading hresets
        have hin := h.running k c hc hleading hresets
        rw [hfree] at hin
        cases hin
      · exact fun _ _ => rfl
    · exact Ledger.forall_concat h.resets (le_refl _)
    · exact Ledger.forall_concat (fun k c hc => (h.waits k c hc).grow hgrows) trivial
  | ends time k c stage last hc hstage hended =>
    have hended' : stage ≠ .leading ∧ stage.leads ∧ Waits s { c with stage := stage } := by
      rcases hended with ⟨now, value, rfl, -⟩ | ⟨⟨error, rfl⟩, -⟩
      · exact ⟨by simp, trivial, trivial⟩
      · exact ⟨by simp, trivial, trivial⟩
    refine h.become hc ?_ hended'.1 hended'.2.2 ?_
    · exact grows_become s hc (by rw [hstage]; rfl) fun _ => hended'.2.1
    · intro j
      show (if s.inFlight = some k then none else s.inFlight) = some j ↔ _
      split_ifs with hk
      · simp [hk, eq_comm]
      · refine ⟨fun hj => ⟨hj, ?_⟩, And.left⟩
        rintro rfl
        exact hk hj
  | answers k c leader result hc hstage hfuture =>
    refine h.become hc ?_ (by simp) hfuture ?_
    · refine grows_become s hc (by rw [hstage]; rfl) ?_
      rw [hstage]
      exact False.elim
    · intro j
      refine ⟨fun hj => ⟨hj, ?_⟩, And.left⟩
      -- What is in flight leads.
      rintro rfl
      obtain ⟨d, hd, hleading⟩ := h.inFlight j hj
      rw [Option.some.inj (hc.symm.trans hd), hleading] at hstage
      cases hstage
  | resets =>
    refine ⟨nofun, ?_, ?_, h.waits⟩
    · intro k c hc _ hresets
      have hle := h.resets k c hc
      have heq : c.resets = s.resets + 1 := hresets
      omega
    · exact fun k c hc => Nat.le_succ_of_le (h.resets k c hc)

theorem kept (h : (refreshGate ε α minInterval).Reachable s) : Kept s := by
  refine h.invariant ?_ fun s e s' hs _ hstep => hs.move (step_moves hstep)
  intro s hstart
  rw [show s = {} from hstart]
  exact ⟨by simp, by simp, by simp, by simp⟩

/-- However calls, ends and resets come between: since the last reset at most one call awaits its
action, and it is the one in flight; a call that joined has its leader still running or can go on
with what the leader's completer holds; and one that was answered has exactly that. -/
theorem refresh_shared (h : (refreshGate ε α minInterval).Reachable s) {k : Nat}
    {c : RefreshCall ε α} (hc : s.calls[k]? = some c) :
    (c.stage = .leading → c.resets = s.resets → s.inFlight = some k) ∧
      (∀ leader, c.stage = .joined leader →
        (∃ l, s.calls[leader]? = some l ∧ l.stage = .leading) ∨
          ∃ result, s.future leader = some result ∧
            (refreshGate ε α minInterval).step s (.resume k) =
              some (s.become k c (.answered leader result))) ∧
      ∀ leader result, c.stage = .answered leader result → s.future leader = some result := by
  have hkept := kept h
  have hwaits := hkept.waits k c hc
  rw [Waits] at hwaits
  refine ⟨hkept.running k c hc, ?_, ?_⟩
  · intro leader hstage
    rw [hstage] at hwaits
    obtain ⟨l, hl, hleads⟩ := hwaits
    have hresume : (refreshGate ε α minInterval).step s (.resume k) =
        (s.future leader).map fun result => s.become k c (.answered leader result) := by
      show s.resume k = _
      rw [resume, hc]
      simp only [hstage]
    have hcompleted : ∀ result, l.stage.completed = some result → s.future leader = some result :=
      fun result hresult => Option.bind_eq_some_iff.mpr ⟨l, hl, hresult⟩
    cases hl' : l.stage with
    | leading => exact .inl ⟨l, hl, hl'⟩
    | returned now value =>
      have hfuture := hcompleted (.ok value) (by rw [hl']; rfl)
      exact .inr ⟨_, hfuture, by rw [hresume, hfuture]; rfl⟩
    | threw error =>
      have hfuture := hcompleted (.error error) (by rw [hl']; rfl)
      exact .inr ⟨_, hfuture, by rw [hresume, hfuture]; rfl⟩
    | joined | answered | skipped =>
      rw [hl'] at hleads
      exact hleads.elim
  · intro leader result hstage
    rw [hstage] at hwaits
    exact hwaits

/-- A refresh, two calls while it is in flight, and its end. -/
def sharedRun : List (RefreshEvent String Nat) :=
  [.runExclusive 0 true, .runExclusive 1 true, .runExclusive 2 false, .actionReturned 0 3 7]

def shared : HubAccessTokenRefreshGate String Nat :=
  ((refreshGate String Nat 5).run {} sharedRun).getD {}

theorem refresh_shared_answers :
    (refreshGate String Nat 5).step shared (.resume 2) =
      some (shared.become 2 ⟨2, false, 0, .joined 0⟩ (.answered 0 (.ok 7))) := by
  have hrun : (refreshGate String Nat 5).run {} sharedRun = some shared := rfl
  obtain ⟨-, hjoined, -⟩ := refresh_shared (Machine.reachable_of_run rfl hrun)
    (k := 2) (c := ⟨2, false, 0, .joined 0⟩) rfl
  rcases hjoined 0 rfl with ⟨l, hl, hleading⟩ | ⟨result, hfuture, hstep⟩
  · cases Option.some.inj hl
    cases hleading
  · cases Option.some.inj hfuture
    exact hstep

/-! ## The interval -/

/-- The time that an event reads is not before the end of a refresh. -/
def ClockForward (s : HubAccessTokenRefreshGate ε α) (e : RefreshEvent ε α) : Prop :=
  ∀ now, e.time? = some now → ∀ (k : Nat) (c : RefreshCall ε α), s.calls[k]? = some c →
    ∀ completedAt value, c.stage = .returned completedAt value → completedAt ≤ now

/-- Of two refreshes with no reset between, the first has ended, and the second has kept the
interval if it respects the cooldown and the first has not thrown. -/
def Spaced (minInterval : Int) (a b : RefreshCall ε α) : Prop :=
  a.stage.leads → b.stage.leads → a.resets = b.resets → a.stage ≠ .leading ∧
    ∀ completedAt value, a.stage = .returned completedAt value → completedAt ≤ b.now ∧
      (b.respectCooldown = true → minInterval ≤ b.now - completedAt)

structure Spread (minInterval : Int) (s : HubAccessTokenRefreshGate ε α) : Prop where
  last : ∀ (k : Nat) (c : RefreshCall ε α), s.calls[k]? = some c → c.resets = s.resets →
    ∀ completedAt value, c.stage = .returned completedAt value →
      ∃ last, s.lastCompletedAt = some last ∧ completedAt ≤ last
  spaced : ∀ (j : Nat) (b : RefreshCall ε α), s.calls[j]? = some b →
    ∀ (i : Nat) (a : RefreshCall ε α), i < j → s.calls[i]? = some a → Spaced minInterval a b

/-- A call that leads no refresh has entered. -/
theorem Spread.enter (h : Spread minInterval s) (now : Int) (respectCooldown : Bool)
    {stage : RefreshStage ε α} (hreturned : ∀ completedAt value,
      stage ≠ .returned completedAt value)
    (hspaced : ∀ (i : Nat) (a : RefreshCall ε α), s.calls[i]? = some a →
      Spaced minInterval a ⟨now, respectCooldown, s.resets, stage⟩) :
    Spread minInterval (s.enter now respectCooldown stage) := by
  constructor
  · apply Ledger.forall_concat
    · exact h.last
    · intro _ completedAt value hstage
      exact absurd hstage (hreturned completedAt value)
  · apply Ledger.forall_concat
    · intro j b hb i a hij ha
      have hlt : i < s.calls.length := hij.trans (List.getElem?_eq_some_iff.mp hb).1
      exact h.spaced j b hb i a hij ((List.getElem?_append_left hlt).symm.trans ha)
    · intro i a hlt ha
      exact hspaced i a ((List.getElem?_append_left hlt).symm.trans ha)

theorem interval_of_cooled {now last completedAt : Int} (hlast : s.lastCompletedAt = some last)
    (hle : completedAt ≤ last) (hnow : completedAt ≤ now)
    (h : s.isCooldownActive minInterval now = false) : minInterval ≤ now - completedAt := by
  simp only [isCooldownActive, hlast, Bool.and_eq_false_iff, decide_eq_false_iff_not] at h
  omega

/-- A call keeps its place among the refreshes when it ends or is answered. -/
theorem Spread.become (h : Spread minInterval s) (hc : s.calls[k]? = some c)
    {stage : RefreshStage ε α} {inFlight : Option Nat} {lastCompletedAt : Option Int}
    (hleads : stage.leads → c.stage = .leading)
    (hlast : ∀ (j : Nat) (d : RefreshCall ε α), (s.calls.set k { c with stage := stage })[j]? =
      some d → d.resets = s.resets → ∀ completedAt value, d.stage = .returned completedAt value →
        ∃ last, lastCompletedAt = some last ∧ completedAt ≤ last) :
    Spread minInterval { s.become k c stage with
      inFlight := inFlight, lastCompletedAt := lastCompletedAt } := by
  refine ⟨hlast, ?_⟩
  have hplace : ∀ (j : Nat) (b : RefreshCall ε α),
      (s.calls.set k { c with stage := stage })[j]? = some b →
        ∃ b', s.calls[j]? = some b' ∧ b'.resets = b.resets ∧ b'.now = b.now ∧
          b'.respectCooldown = b.respectCooldown ∧ (b.stage.leads → b'.stage.leads) ∧
            (j ≠ k → b' = b) := by
    apply Ledger.forall_set
    · exact fun j b _ hb => ⟨b, hb, rfl, rfl, rfl, id, fun _ => rfl⟩
    · refine fun _ => ⟨c, hc, rfl, rfl, rfl, ?_, fun hne => absurd rfl hne⟩
      intro hled
      rw [hleads hled]
      trivial
  intro j b hb i a hij ha hal hbl hresets
  obtain ⟨b', hb', hbresets, hbnow, hbrespects, hbleads, -⟩ := hplace j b hb
  obtain ⟨a', ha', haresets, -, -, haleads, hasame⟩ := hplace i a ha
  have hold := h.spaced j b' hb' i a' hij ha' (haleads hal) (hbleads hbl)
    (by rw [haresets, hbresets, hresets])
  -- The call itself runs, so that no refresh has started behind it.
  have hne : i ≠ k := by
    rintro rfl
    obtain rfl := Option.some.inj (hc.symm.trans ha')
    have hlt : i < s.calls.length := (List.getElem?_eq_some_iff.mp hc).1
    obtain rfl := Option.some.inj ((List.getElem?_set_self hlt).symm.trans ha)
    exact hold.1 (hleads hal)
  rw [← hbnow, ← hbrespects, ← hasame hne]
  exact hold

theorem Spread.move {time : Option Int} (h : Spread minInterval s) (hkept : Kept s)
    (hclock : ∀ now, time = some now → ∀ (k : Nat) (c : RefreshCall ε α),
      s.calls[k]? = some c → ∀ completedAt value, c.stage = .returned completedAt value →
        completedAt ≤ now)
    (hmove : Moves minInterval s time s') : Spread minInterval s' := by
  cases hmove with
  | joins now respectCooldown leader hleader =>
    exact h.enter now respectCooldown (by simp) fun _ _ _ _ hleads => hleads.elim
  | skips now respectCooldown =>
    exact h.enter now respectCooldown (by simp) fun _ _ _ _ hleads => hleads.elim
  | leads now respectCooldown hfree hcooled =>
    have hentered : Spread minInterval (s.enter now respectCooldown .leading) := by
      refine h.enter now respectCooldown (by simp) ?_
      intro i a ha _ _ hresets
      constructor
      · intro hleading
        have hin := hkept.running i a ha hleading hresets
        rw [hfree] at hin
        cases hin
      · intro completedAt value hstage
        obtain ⟨last, hlast, hle⟩ := h.last i a ha hresets completedAt value hstage
        have hnow := hclock now rfl i a ha completedAt value hstage
        exact ⟨hnow, fun hrespects => interval_of_cooled hlast hle hnow (hcooled hrespects)⟩
    exact ⟨hentered.last, hentered.spaced⟩
  | ends time k c stage last hc hstage hended =>
    refine h.become hc (fun _ => hstage) ?_
    rcases hended with ⟨now, value, rfl, rfl, rfl⟩ | ⟨⟨error, rfl⟩, rfl⟩
    · apply Ledger.forall_set
      · intro j d _ hd _ completedAt value' hreturned
        exact ⟨now, rfl, hclock now rfl j d hd completedAt value' hreturned⟩
      · intro _ _ completedAt value' hreturned
        cases hreturned
        exact ⟨now, rfl, le_refl _⟩
    · apply Ledger.forall_set
      · exact fun j d _ hd => h.last j d hd
      · intro _ _ _ _ hreturned
        cases hreturned
  | answers k c leader result hc hstage hfuture =>
    refine h.become hc (fun hleads => hleads.elim) ?_
    apply Ledger.forall_set
    · exact fun j d _ hd => h.last j d hd
    · intro _ _ _ _ hreturned
      cases hreturned
  | resets =>
    refine ⟨?_, h.spaced⟩
    intro k c hc hresets
    have hle := hkept.resets k c hc
    have heq : c.resets = s.resets + 1 := hresets
    omega

/-- While the clock goes forward: the refreshes between two resets follow each other, and one that
respects the cooldown starts no earlier than the interval after each that has returned. -/
theorem refreshes_spaced (h : (refreshGate ε α minInterval).Reach ClockForward s) {i j : Nat}
    {a b : RefreshCall ε α} (hij : i < j) (ha : s.calls[i]? = some a) (hb : s.calls[j]? = some b) :
    Spaced minInterval a b := by
  suffices hall : Kept s ∧ Spread minInterval s from hall.2.spaced j b hb i a hij ha
  refine h.invariant (I := fun s => Kept s ∧ Spread minInterval s) ?_ ?_
  · intro s hstart
    rw [show s = {} from hstart]
    exact ⟨⟨by simp, by simp, by simp, by simp⟩, ⟨by simp, by simp⟩⟩
  · rintro s e s' ⟨hkept, hspread⟩ hclock hstep
    have hmove := step_moves hstep
    exact ⟨hkept.move hmove, hspread.move hkept hclock hmove⟩

/-- A refresh returns at three, and the next one waits for the interval of five. -/
def spacedRun : List (RefreshEvent String Nat) :=
  [.runExclusive 0 true, .actionReturned 0 3 7, .runExclusive 5 true, .runExclusive 8 true]

def spaced : HubAccessTokenRefreshGate String Nat :=
  ((refreshGate String Nat 5).run {} spacedRun).getD {}

theorem refreshes_spaced_run :
    Spaced 5 (⟨0, true, 0, .returned 3 7⟩ : RefreshCall String Nat) ⟨8, true, 0, .leading⟩ := by
  have hreach : (refreshGate String Nat 5).Reach ClockForward spaced := by
    refine Machine.Reach.of_run (.start rfl) spacedRun ?_ rfl
    refine ⟨?_, ?_, ?_, ?_, trivial⟩
    all_goals
      intro now hnow k c hc completedAt value hstage
      obtain rfl := Option.some.inj hnow
      rcases k with _ | _ | _ | k <;> cases hc <;> cases hstage
      all_goals decide
  exact refreshes_spaced hreach (i := 0) (j := 2) (by decide) rfl rfl

end HubAccessTokenRefreshGate

end PlugAgente.Sessions
