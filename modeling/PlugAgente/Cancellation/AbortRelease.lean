import PlugAgente.Cancellation.AbortOwners

/-!
# Aborts are released

What is covered is passed to the native cancel: the microtasks and the returns of the native side
alone lead there.  And, in runs where no abort call ends after the last execution of its request is
gone, an owner that is armed has an execution, and a request without one is left alone.
-/

namespace PlugAgente.Cancellation

open Dart Rows

/-- What the event loop and the native side do by themselves. -/
def AbortAction.isProgress {κ : Type} : AbortAction κ → Bool
  | .nativeReturned _ | .microtask => true
  | _ => false

namespace InFlightAborts

variable {κ : Type} {ttl : Nat} {s s' t : InFlightAborts κ} {r k : Text} {causes : List κ}
  {row : InFlightRow κ}

/-! ## What is covered is passed on -/

/-- An execution that the event loop and the native side pass to the native cancel. -/
def Passes (ttl : Nat) (s : InFlightAborts κ) (row : InFlightRow κ) : Prop :=
  ∃ actions t, (∀ a ∈ actions, AbortAction.isProgress a = true) ∧
    (abortMachine κ ttl).run s actions = some t ∧ ∃ causes, (row, causes) ∈ t.cancelled

theorem Passes.of_logged (h : (row, causes) ∈ s.cancelled) : s.Passes ttl row :=
  ⟨[], s, fun _ ha => (List.not_mem_nil ha).elim, rfl, causes, h⟩

theorem Passes.of_step {a : AbortAction κ} (ha : a.isProgress = true)
    (hstep : s.step ttl a = some s') (h : s'.Passes ttl row) : s.Passes ttl row := by
  obtain ⟨actions, t, hactions, hrun, hlogged⟩ := h
  refine ⟨a :: actions, t, ?_, ?_, hlogged⟩
  · intro b hb
    rcases List.mem_cons.mp hb with heq | hb
    · rw [heq]
      exact ha
    · exact hactions b hb
  · have hmachine : (abortMachine κ ttl).step s a = some s' := hstep
    rw [Machine.run, hmachine]
    exact hrun

theorem Passes.of_call (htarget : row.handle.hasNativeCancelTarget = true) {call : AbortCall κ}
    (hcall : call ∈ s.calls) (hrow : row ∈ call.rest) : s.Passes ttl row := by
  induction hlength : call.rest.length using Nat.strong_induction_on generalizing s call with
  | _ n ih =>
    obtain ⟨i, hi⟩ := List.mem_iff_getElem?.mp hcall
    have hstep : s.step ttl (.nativeReturned i) = some (abortHandles ttl call.requestId call.causes
        call.rest call.hasPendingTarget { s with calls := s.calls.eraseIdx i }) := by
      rw [step, hi]
      rfl
    refine .of_step rfl hstep ?_
    rcases abortHandles_cases ttl call.requestId call.causes call.rest call.hasPendingTarget
      { s with calls := s.calls.eraseIdx i } with hgoes | hends
    · obtain ⟨before, next, after, discarded, pending, hrest, hbefore, hresult⟩ := hgoes
      rw [hresult]
      rw [hrest] at hrow
      rcases List.mem_append.mp hrow with hrow | hrow
      · rw [hbefore row hrow] at htarget
        cases htarget
      · rcases List.mem_cons.mp hrow with heq | hrow
        · rw [heq]
          exact .of_logged (List.mem_append_right _ (List.mem_singleton.mpr rfl))
        · refine ih after.length ?_ (List.mem_append_right _ (List.mem_singleton.mpr rfl)) hrow rfl
          rw [← hlength, hrest, List.length_append, List.length_cons]
          omega
    · obtain ⟨discarded, pending, hnone, -⟩ := hends
      rw [hnone row hrow] at htarget
      cases htarget

theorem abortHandles_keeps (ttl : Nat) (s : InFlightAborts κ) (causes : List κ) (hr : r ≠ [])
    (rest : List (InFlightRow κ)) (hasPendingTarget : Bool) :
    (abortHandles ttl r causes rest hasPendingTarget s).active = s.active ∧
      (∀ k ≠ r, (abortHandles ttl r causes rest hasPendingTarget s).Armed k ↔ s.Armed k) ∧
      ∃ more, (abortHandles ttl r causes rest hasPendingTarget s).microtasks =
        s.microtasks ++ more := by
  rcases abortHandles_cases ttl r causes rest hasPendingTarget s with
    hgoes | ⟨discarded, pending, -, hresult⟩
  · obtain ⟨before, next, after, discarded, pending, -, -, hresult⟩ := hgoes
    rw [hresult]
    exact ⟨rfl, fun _ _ => Iff.rfl, [], (List.append_nil _).symm⟩
  · obtain ⟨htouch, -⟩ := finishAbort_spec ttl
      { s with discarded := discarded } causes hr pending
    rw [hresult]
    exact ⟨htouch.active, fun k hk => htouch.armed hk, htouch.microtasks⟩

theorem Passes.of_abortHandles (htarget : row.handle.hasNativeCancelTarget = true)
    {rest : List (InFlightRow κ)} (hrow : row ∈ rest) (hasPendingTarget : Bool) :
    (abortHandles ttl r causes rest hasPendingTarget s).Passes ttl row := by
  rcases abortHandles_cases ttl r causes rest hasPendingTarget s with
    hgoes | ⟨discarded, pending, hnone, -⟩
  · obtain ⟨before, next, after, discarded, pending, hrest, hbefore, hresult⟩ := hgoes
    rw [hresult]
    rw [hrest] at hrow
    rcases List.mem_append.mp hrow with hrow | hrow
    · rw [hbefore row hrow] at htarget
      cases htarget
    · rcases List.mem_cons.mp hrow with heq | hrow
      · rw [heq]
        exact .of_logged (List.mem_append_right _ (List.mem_singleton.mpr rfl))
      · exact .of_call htarget (List.mem_append_right _ (List.mem_singleton.mpr rfl)) hrow
  · rw [hnone row hrow] at htarget
    cases htarget

/-- An execution whose request is armed and has a microtask is passed on: the microtasks before it
leave it registered and armed. -/
theorem Passes.of_microtask (htarget : row.handle.hasNativeCancelTarget = true)
    (hrow : row ∈ s.active) (hnamed : ∀ row ∈ s.active, row.requestId ≠ [])
    (harmed : s.Armed row.requestId) {before after : List Text}
    (hqueue : s.microtasks = before ++ row.requestId :: after) : s.Passes ttl row := by
  induction before generalizing s after with
  | nil =>
    have hstep : s.step ttl .microtask =
        some ({ s with microtasks := after }.fulfillPendingAbort ttl row.requestId) := by
      rw [step, hqueue]
      rfl
    refine .of_step rfl hstep ?_
    have hsome : ¬ (peekAll { s with microtasks := after } row.requestId).isEmpty = true := by
      intro hnone
      exact peekAll_isEmpty.mp hnone row hrow rfl
    have hstill : Armed { s with microtasks := after } row.requestId := harmed
    rw [fulfillPendingAbort, if_neg (not_not.mpr hstill), if_neg hsome]
    exact .of_abortHandles htarget (mem_peekAll.mpr ⟨hrow, rfl⟩) false
  | cons k before ih =>
    have hstep : s.step ttl .microtask = some
        ({ s with microtasks := before ++ row.requestId :: after }.fulfillPendingAbort ttl k) := by
      rw [step, hqueue]
      rfl
    refine .of_step rfl hstep ?_
    rw [fulfillPendingAbort]
    split
    · exact ih hrow hnamed harmed rfl
    · split
      · exact ih hrow hnamed harmed rfl
      · rename_i hsome
        by_cases hk : row.requestId = k
        · exact .of_abortHandles htarget (mem_peekAll.mpr ⟨hrow, hk⟩) false
        · have hkne : k ≠ [] := by
            intro hkne
            apply hsome
            apply peekAll_isEmpty.mpr
            intro other hother
            rw [hkne]
            exact hnamed other hother
          obtain ⟨hactive, hothers, more, hmore⟩ := abortHandles_keeps ttl
            { s with microtasks := before ++ row.requestId :: after } (s.causes k) hkne
            (s.peekAll k) false
          have hbehind := hmore.trans (List.append_assoc before (row.requestId :: after) more)
          exact ih (hactive.symm ▸ hrow) (hactive.symm ▸ hnamed) ((hothers _ hk).mpr harmed) hbehind

theorem Followed.passes (h : s.Followed) (hrow : row ∈ s.active) (harmed : s.Armed row.requestId)
    (htarget : row.handle.hasNativeCancelTarget = true) : s.Passes ttl row := by
  rcases h.covered row hrow harmed htarget with ⟨causes, hlogged⟩ | hqueued | ⟨call, hcall, -, hmem⟩
  · exact .of_logged hlogged
  · obtain ⟨before, after, hqueue⟩ := List.mem_iff_append.mp hqueued
    exact .of_microtask htarget hrow h.named harmed hqueue
  · exact .of_call htarget hcall hmem

/-! ## What is released -/

/-- When the last native cancel of an abort call returns, an execution of its request is
registered. -/
def Honoured (s : InFlightAborts κ) : AbortAction κ → Prop
  | .nativeReturned i => ∀ call, s.calls[i]? = some call →
    (∀ row ∈ call.rest, row.handle.hasNativeCancelTarget = false) →
      ∃ row ∈ s.active, row.requestId = call.requestId
  | _ => True

/-- An owner that is armed has an execution, and a pending abort has a timer unless pending aborts
do not expire. -/
structure Owned (ttl : Nat) (s : InFlightAborts κ) : Prop where
  owner : ∀ k ∈ s.ownerAborts, ∃ row ∈ s.active, row.requestId = k
  timers : 0 < ttl → ∀ k ∈ s.pendingAborts, k ∈ s.expiryTimers

theorem Owned.empty : Owned ttl ({} : InFlightAborts κ) := by
  refine ⟨?_, ?_⟩
  · intro k hk
    exact absurd hk (Finset.notMem_empty k)
  · intro _ k hk
    exact absurd hk (Finset.notMem_empty k)

theorem Owned.keep (h : s.Owned ttl) (howner : s'.ownerAborts = s.ownerAborts)
    (hpending : s'.pendingAborts = s.pendingAborts) (htimers : s'.expiryTimers = s.expiryTimers)
    (hactive : ∀ k, (∃ row ∈ s.active, row.requestId = k) → ∃ row ∈ s'.active, row.requestId = k) :
    s'.Owned ttl := by
  refine ⟨?_, ?_⟩
  · intro k hk
    rw [howner] at hk
    exact hactive k (h.owner k hk)
  · rw [hpending, htimers]
    exact h.timers

theorem Owned.places (h : s.Owned ttl) {credentials : κ → Prop} (hp : Places r credentials s s') :
    s'.Owned ttl := by
  obtain ⟨-, active, registrations, hs, -, hkept⟩ := hp
  rw [hs]
  apply h.keep
  · simp
  · simp
  · simp
  · intro k hk
    obtain ⟨row, hrow, hof⟩ := hk
    obtain ⟨row', hrow', hsame⟩ := hkept row hrow
    exact ⟨row', by rw [notify_active]; exact hrow', hsame.trans hof⟩

theorem Owned.unregister (h : s.Owned ttl) (r : Text) (executionId : Option Text) :
    (s.unregister r executionId).Owned ttl := by
  rcases unregister_cases s r executionId with heq | heq | ⟨active, heq, -, hothers, hleft⟩
  · rw [heq]
    exact h
  · rw [heq]
    refine ⟨?_, ?_⟩
    · intro k hk
      obtain ⟨hne, hk⟩ := Finset.mem_erase.mp hk
      obtain ⟨row, hrow, hof⟩ := h.owner k hk
      refine ⟨row, List.mem_filter.mpr ⟨hrow, ?_⟩, hof⟩
      rw [hof]
      exact decide_eq_true hne
    · intro httl k hk
      obtain ⟨hne, hk⟩ := Finset.mem_erase.mp hk
      exact Finset.mem_erase.mpr ⟨hne, h.timers httl k hk⟩
  · rw [heq]
    refine h.keep rfl rfl rfl ?_
    intro k hk
    obtain ⟨row, hrow, hof⟩ := hk
    by_cases hkr : k = r
    · rw [hkr]
      exact hleft ⟨row, hrow, hof.trans hkr⟩
    · exact ⟨row, hothers row hrow (hof ▸ hkr), hof⟩

theorem Owned.touch (h : s.Owned ttl) (ht : Touches r s s')
    (howner : r ∈ s'.ownerAborts → ∃ row ∈ s.active, row.requestId = r)
    (htimer : r ∈ s'.pendingAborts → 0 < ttl → r ∈ s'.expiryTimers) : s'.Owned ttl := by
  refine ⟨?_, ?_⟩
  · intro k hk
    rw [ht.active]
    by_cases hkr : k = r
    · rw [hkr] at hk ⊢
      exact howner hk
    · exact h.owner k ((ht.owner k hkr).mp hk)
  · intro httl k hk
    by_cases hkr : k = r
    · rw [hkr] at hk ⊢
      exact htimer hk httl
    · exact (ht.timers k hkr).mpr (h.timers httl k ((ht.pending k hkr).mp hk))

theorem Owned.abortHandles (h : s.Owned ttl) (hr : r ≠ []) {rest : List (InFlightRow κ)}
    (hend : (∀ row ∈ rest, row.handle.hasNativeCancelTarget = false) →
      ∃ row ∈ s.active, row.requestId = r) (hasPendingTarget : Bool) :
    (abortHandles ttl r causes rest hasPendingTarget s).Owned ttl := by
  rcases abortHandles_cases ttl r causes rest hasPendingTarget s with
    hgoes | ⟨discarded, pending, hnone, hresult⟩
  · obtain ⟨before, next, after, discarded, pending, -, -, hresult⟩ := hgoes
    rw [hresult]
    exact h.keep rfl rfl rfl fun _ hk => hk
  · obtain ⟨htouch, -, -, htimer⟩ := finishAbort_spec ttl
      { s with discarded := discarded } causes hr pending
    rw [hresult]
    have hbefore : Owned ttl { s with discarded := discarded } := h.keep rfl rfl rfl fun _ hk => hk
    exact hbefore.touch htouch (fun _ => hend hnone) htimer

theorem exists_of_peekAll (h : ¬ (s.peekAll r).isEmpty = true) :
    ∃ row ∈ s.active, row.requestId = r := by
  by_contra hnone
  apply h
  apply peekAll_isEmpty.mpr
  intro row hrow hof
  exact hnone ⟨row, hrow, hof⟩

theorem Owned.step (h : s.Owned ttl) (hf : s.Followed) {a : AbortAction κ}
    (hhonoured : s.Honoured a) (hstep : s.step ttl a = some s') : s'.Owned ttl := by
  cases a with
  | register r handle executionId credential =>
    rw [← Option.some.inj hstep]
    rcases register_places s r handle executionId credential with heq | hplaces
    · rw [heq]
      exact h
    · exact h.places hplaces
  | bindTarget r target executionId =>
    rw [← Option.some.inj hstep]
    rcases bindTarget_places s r target executionId with heq | hplaces
    · rw [heq]
      exact h
    · exact h.places hplaces
  | unregister r executionId =>
    rw [← Option.some.inj hstep]
    exact h.unregister r executionId
  | abort r armIfMissing cause =>
    rcases step_abort hstep with rfl | ⟨hr, ⟨-, rfl⟩ | ⟨hsome, rfl⟩⟩
    · exact h
    · obtain ⟨htouch, -, hsame, htimer⟩ := markPendingAbort_spec ttl s [cause] hr
      exact h.touch htouch (fun howner => h.owner r (hsame ▸ howner)) fun _ => htimer
    · exact h.abortHandles hr (fun _ => exists_of_peekAll hsome) false
  | nativeReturned i =>
    obtain ⟨call, hcall, rfl⟩ := step_nativeReturned hstep
    have hbefore : Owned ttl { s with calls := s.calls.eraseIdx i } :=
      h.keep rfl rfl rfl fun _ hk => hk
    exact hbefore.abortHandles (hf.calls call (List.mem_of_getElem? hcall)).1
      (hhonoured call hcall) _
  | microtask =>
    obtain ⟨r, queue, -, hends⟩ := step_microtask hstep
    have hbefore : Owned ttl { s with microtasks := queue } := h.keep rfl rfl rfl fun _ hk => hk
    rcases hends with ⟨-, rfl⟩ | ⟨-, hsome, rfl⟩
    · exact hbefore
    · exact hbefore.abortHandles (hf.ne_of_peekAll hsome) (fun _ => exists_of_peekAll hsome) false
  | expire r =>
    obtain rfl := step_expire hstep
    refine ⟨?_, ?_⟩
    · intro k hk
      rw [expire, forget_ownerAborts] at hk
      rw [expire, forget_active]
      exact h.owner k hk
    · intro httl k hk
      rw [expire, forget_pendingAborts] at hk
      rw [expire, forget_expiryTimers]
      obtain ⟨hne, hk⟩ := Finset.mem_erase.mp hk
      exact Finset.mem_erase.mpr ⟨hne, h.timers httl k hk⟩

theorem Owned.run_expire (h : s.Owned ttl) (httl : 0 < ttl) (hactive : s.active = []) :
    ∃ (expired : List Text) (t : InFlightAborts κ),
      (abortMachine κ ttl).run s (expired.map .expire) = some t ∧
        t.hasUnconfirmedWork = false := by
  have howner : ∀ k, k ∉ s.ownerAborts := by
    intro k hk
    obtain ⟨row, hrow, -⟩ := h.owner k hk
    rw [hactive] at hrow
    cases hrow
  induction hpending : s.pendingAborts using Finset.induction_on generalizing s with
  | empty =>
    have hnone : s.ownerAborts = ∅ := Finset.eq_empty_iff_forall_notMem.mpr howner
    refine ⟨[], s, rfl, ?_⟩
    simp [hasUnconfirmedWork, hactive, hpending, hnone]
  | insert r rest hr ih =>
    have htimer : r ∈ s.expiryTimers := by
      apply h.timers httl
      rw [hpending]
      exact Finset.mem_insert_self r rest
    have hstep : s.step ttl (.expire r) = some (s.expire r) := if_pos htimer
    have hexpired : (s.expire r).Owned ttl := by
      refine ⟨?_, ?_⟩
      · intro k hk
        rw [expire, forget_ownerAborts] at hk
        exact absurd hk (howner k)
      · intro _ k hk
        rw [expire, forget_pendingAborts] at hk
        rw [expire, forget_expiryTimers]
        obtain ⟨hne, hk⟩ := Finset.mem_erase.mp hk
        exact Finset.mem_erase.mpr ⟨hne, h.timers httl k hk⟩
    have hleft : (s.expire r).pendingAborts = rest := by
      rw [expire, forget_pendingAborts]
      simp [hpending, hr]
    obtain ⟨expired, t, hrun, hnone⟩ := ih hexpired (by simp [expire, hactive])
      (by simpa [expire] using howner) hleft
    refine ⟨r :: expired, t, ?_, hnone⟩
    have hmachine : (abortMachine κ ttl).step s (.expire r) = some (s.expire r) := hstep
    rw [List.map_cons, Machine.run, hmachine]
    exact hrun

/-! ## A request that is left alone -/

def AbortsRequest (r : Text) : AbortAction κ → Prop
  | .abort requestId _ _ => requestId = r
  | _ => False

/-- The executions of a request that were passed to the native cancel. -/
def cancelledOf (s : InFlightAborts κ) (r : Text) : List (InFlightRow κ × List κ) :=
  s.cancelled.filter fun entry => entry.1.requestId = r

/-- Nothing is armed for the request, and no abort call of it is in progress. -/
structure Quiet (r : Text) (s : InFlightAborts κ) : Prop where
  disarmed : ¬ s.Armed r
  calls : ∀ call ∈ s.calls, call.requestId ≠ r

theorem Quiet.keep (h : s.Quiet r) (harmed : s'.Armed r → s.Armed r) (hcalls : s'.calls = s.calls)
    (hcancelled : s'.cancelled = s.cancelled) :
    s'.Quiet r ∧ s'.cancelledOf r = s.cancelledOf r := by
  refine ⟨⟨fun hr => h.disarmed (harmed hr), ?_⟩, ?_⟩
  · rw [hcalls]
    exact h.calls
  · rw [cancelledOf, hcancelled]
    rfl

theorem Quiet.abortHandles (h : s.Quiet r) (hk : k ≠ []) (hkr : k ≠ r) {rest : List (InFlightRow κ)}
    (hrest : ∀ row ∈ rest, row.requestId = k) (hasPendingTarget : Bool) :
    (abortHandles ttl k causes rest hasPendingTarget s).Quiet r ∧
      (abortHandles ttl k causes rest hasPendingTarget s).cancelledOf r = s.cancelledOf r := by
  rcases abortHandles_cases ttl k causes rest hasPendingTarget s with
    hgoes | ⟨discarded, pending, -, hresult⟩
  · obtain ⟨before, next, after, discarded, pending, heq, -, hresult⟩ := hgoes
    have hnext : next.requestId = k :=
      hrest next (heq ▸ List.mem_append_right _ (List.mem_cons_self ..))
    rw [hresult]
    refine ⟨⟨h.disarmed, ?_⟩, ?_⟩
    · intro call hcall
      rcases List.mem_append.mp hcall with hcall | hcall
      · exact h.calls call hcall
      · rw [List.mem_singleton.mp hcall]
        exact hkr
    · simp [cancelledOf, hnext, hkr]
  · obtain ⟨htouch, -⟩ := finishAbort_spec ttl
      { s with discarded := discarded } causes hk pending
    rw [hresult]
    exact h.keep (htouch.armed hkr.symm).mp htouch.calls htouch.cancelled

theorem Quiet.step (h : s.Quiet r) (hf : s.Followed) {a : AbortAction κ} (ha : ¬ AbortsRequest r a)
    (hstep : s.step ttl a = some s') : s'.Quiet r ∧ s'.cancelledOf r = s.cancelledOf r := by
  cases a with
  | register k handle executionId credential =>
    rw [← Option.some.inj hstep]
    rcases register_places s k handle executionId credential with heq | ⟨-, active, _, heq, -⟩
    · rw [heq]
      exact ⟨h, rfl⟩
    · rw [heq]
      exact h.keep (by simp [Armed]) (by simp) (by simp)
  | bindTarget k target executionId =>
    rw [← Option.some.inj hstep]
    rcases bindTarget_places s k target executionId with heq | ⟨-, active, _, heq, -⟩
    · rw [heq]
      exact ⟨h, rfl⟩
    · rw [heq]
      exact h.keep (by simp [Armed]) (by simp) (by simp)
  | unregister k executionId =>
    rw [← Option.some.inj hstep]
    rcases unregister_cases s k executionId with heq | heq | ⟨active, heq, -, -, -⟩
    · rw [heq]
      exact ⟨h, rfl⟩
    · rw [heq]
      exact h.keep clearOwner_armed rfl rfl
    · rw [heq]
      exact h.keep (fun harmed => harmed) rfl rfl
  | abort k armIfMissing cause =>
    have hkr : k ≠ r := ha
    rcases step_abort hstep with rfl | ⟨hk, ⟨-, rfl⟩ | ⟨-, rfl⟩⟩
    · exact ⟨h, rfl⟩
    · obtain ⟨htouch, -⟩ := markPendingAbort_spec ttl s [cause] hk
      exact h.keep (htouch.armed hkr.symm).mp htouch.calls htouch.cancelled
    · exact h.abortHandles hk hkr (fun row hrow => (mem_peekAll.mp hrow).2) false
  | nativeReturned i =>
    obtain ⟨call, hcall, rfl⟩ := step_nativeReturned hstep
    have hmem := List.mem_of_getElem? hcall
    have hbefore : Quiet r { s with calls := s.calls.eraseIdx i } :=
      ⟨h.disarmed, fun other hother => h.calls other ((List.eraseIdx_sublist _ _).mem hother)⟩
    exact hbefore.abortHandles (hf.calls call hmem).1 (h.calls call hmem) (hf.calls call hmem).2 _
  | microtask =>
    obtain ⟨k, queue, -, hends⟩ := step_microtask hstep
    have hbefore : Quiet r { s with microtasks := queue } := ⟨h.disarmed, h.calls⟩
    rcases hends with ⟨-, rfl⟩ | ⟨harmed, hsome, rfl⟩
    · exact ⟨hbefore, rfl⟩
    · have hkr : k ≠ r := by
        rintro rfl
        exact h.disarmed harmed
      exact hbefore.abortHandles (hf.ne_of_peekAll hsome) hkr
        (fun row hrow => (mem_peekAll.mp hrow).2) false
  | expire k =>
    obtain rfl := step_expire hstep
    exact h.keep expire_armed (by simp [expire]) (by simp [expire])

/-- What a state comes to without an abort of the request. -/
def WithoutAbort (ttl : Nat) (r : Text) (s : InFlightAborts κ) : InFlightAborts κ → Prop :=
  Machine.Reach { abortMachine κ ttl with start := fun t => t = s }
    fun _ a => ¬ AbortsRequest r a

theorem Quiet.without (h : s.Quiet r) (hf : s.Followed) (hw : s.WithoutAbort ttl r s') :
    s'.cancelledOf r = s.cancelledOf r := by
  have hall : s'.Followed ∧ s'.Quiet r ∧ s'.cancelledOf r = s.cancelledOf r := by
    refine Machine.Reach.invariant
      (I := fun t => t.Followed ∧ t.Quiet r ∧ t.cancelledOf r = s.cancelledOf r) ?_ ?_ hw
    · intro t hstart
      rw [hstart]
      exact ⟨hf, h, rfl⟩
    · intro t a t' ht ha hstep
      obtain ⟨hf, hq, hsame⟩ := ht
      have hstep : t.step ttl a = some t' := hstep
      obtain ⟨hq', hsame'⟩ := hq.step hf ha hstep
      exact ⟨hf.step hstep, hq', hsame'.trans hsame⟩
  exact hall.2.2

/-! ## An abort takes effect -/

/-- An abort of the request has taken effect, or an abort call of it is in progress. -/
def Aborting (s : InFlightAborts κ) (r : Text) : Prop :=
  r ∈ s.ownerAborts ∨ ∃ call ∈ s.calls, call.requestId = r

theorem aborting_abortHandles (ttl : Nat) (s : InFlightAborts κ) (causes : List κ) (hr : r ≠ [])
    (rest : List (InFlightRow κ)) (hasPendingTarget : Bool) :
    (abortHandles ttl r causes rest hasPendingTarget s).Aborting r ∧
      ∀ call ∈ s.calls, call ∈ (abortHandles ttl r causes rest hasPendingTarget s).calls := by
  rcases abortHandles_cases ttl r causes rest hasPendingTarget s with
    hgoes | ⟨discarded, pending, -, hresult⟩
  · obtain ⟨before, next, after, discarded, pending, -, -, hresult⟩ := hgoes
    rw [hresult]
    exact ⟨Or.inr ⟨_, List.mem_append_right _ (List.mem_singleton.mpr rfl), rfl⟩,
      fun call hcall => List.mem_append_left _ hcall⟩
  · obtain ⟨htouch, hown, -⟩ := finishAbort_spec ttl
      { s with discarded := discarded } causes hr pending
    rw [hresult]
    refine ⟨Or.inl hown, ?_⟩
    intro call hcall
    rw [htouch.calls]
    exact hcall

theorem Followed.abort_aborting (h : s.Followed) (hrow : ∃ row ∈ s.active, row.requestId = r)
    (armIfMissing : Bool) (cause : κ) :
    (s.abortInFlightExecution ttl r armIfMissing cause).Aborting r := by
  obtain ⟨row, hmem, hof⟩ := hrow
  have hr : r ≠ [] := hof ▸ h.named row hmem
  have hsome : ¬ (s.peekAll r).isEmpty = true := by
    intro hnone
    exact peekAll_isEmpty.mp hnone row hmem hof
  rw [abortInFlightExecution, if_neg (by simpa using hr), if_neg hsome]
  exact (aborting_abortHandles ttl s _ hr _ _).1

theorem Followed.call_kept (h : s.Followed) {a : AbortAction κ} (hstep : s.step ttl a = some s')
    (hcall : ∃ call ∈ s.calls, call.requestId = r) : s'.Aborting r := by
  obtain ⟨call, hmem, hof⟩ := hcall
  have hkept : (∀ call ∈ s.calls, call ∈ s'.calls) → s'.Aborting r :=
    fun hkept => Or.inr ⟨call, hkept call hmem, hof⟩
  cases a with
  | register k handle executionId credential =>
    rw [← Option.some.inj hstep]
    rcases register_places s k handle executionId credential with heq | ⟨-, active, _, heq, -⟩
    · rw [heq]
      exact Or.inr ⟨call, hmem, hof⟩
    · rw [heq]
      exact Or.inr ⟨call, by rw [notify_calls]; exact hmem, hof⟩
  | bindTarget k target executionId =>
    rw [← Option.some.inj hstep]
    rcases bindTarget_places s k target executionId with heq | ⟨-, active, _, heq, -⟩
    · rw [heq]
      exact Or.inr ⟨call, hmem, hof⟩
    · rw [heq]
      exact Or.inr ⟨call, by rw [notify_calls]; exact hmem, hof⟩
  | unregister k executionId =>
    rw [← Option.some.inj hstep]
    rcases unregister_cases s k executionId with heq | heq | ⟨active, heq, -, -, -⟩
    · rw [heq]
      exact Or.inr ⟨call, hmem, hof⟩
    · rw [heq]
      exact Or.inr ⟨call, hmem, hof⟩
    · rw [heq]
      exact Or.inr ⟨call, hmem, hof⟩
  | abort k armIfMissing cause =>
    apply hkept
    rcases step_abort hstep with rfl | ⟨hk, ⟨-, rfl⟩ | ⟨-, rfl⟩⟩
    · exact fun _ h => h
    · rw [(markPendingAbort_spec ttl s [cause] hk).1.calls]
      exact fun _ h => h
    · exact (aborting_abortHandles ttl s _ hk _ _).2
  | nativeReturned i =>
    obtain ⟨ended, hended, rfl⟩ := step_nativeReturned hstep
    obtain ⟨haborting, hothers⟩ := aborting_abortHandles ttl
      { s with calls := s.calls.eraseIdx i } ended.causes
      (h.calls ended (List.mem_of_getElem? hended)).1 ended.rest ended.hasPendingTarget
    obtain ⟨j, hj⟩ := List.mem_iff_getElem?.mp hmem
    by_cases hij : j = i
    · rw [hij, hended] at hj
      rw [← hof, ← Option.some.inj hj]
      exact haborting
    · exact Or.inr ⟨call, hothers call (List.mem_eraseIdx_iff_getElem?.mpr ⟨j, hij, hj⟩), hof⟩
  | microtask =>
    apply hkept
    obtain ⟨k, queue, -, ⟨-, rfl⟩ | ⟨-, hsome, rfl⟩⟩ := step_microtask hstep
    · exact fun _ h => h
    · exact (aborting_abortHandles ttl { s with microtasks := queue } _ (h.ne_of_peekAll hsome)
        _ _).2
  | expire k =>
    apply hkept
    rw [step_expire hstep]
    simp [expire]

theorem Followed.aborting_step (h : s.Followed) {a : AbortAction κ} (hstep : s.step ttl a = some s')
    (hr : s.Aborting r) : s'.Aborting r ∨ ∀ row ∈ s'.active, row.requestId ≠ r := by
  rcases hr with howner | hcall
  · rcases h.owner_kept hstep howner with hkept | hgone
    · exact Or.inl (Or.inl hkept)
    · exact Or.inr hgone
  · exact Or.inl (h.call_kept hstep hcall)

end InFlightAborts

/-- In every state that is reached, every execution with a target whose request is armed was passed
to the native cancel, or is on its way there and gets there, and an abort of a request stays in
progress or in effect while the request has an execution.  In every state that is reached by steps
that are honoured, no owner without an execution is armed, there is no unconfirmed work left once
the executions are gone and the pending aborts have expired, and what is registered for a request
that was left alone is not aborted. -/
theorem aborts_follow_owner (κ : Type) (ttl : Nat) :
    (∀ s, (abortMachine κ ttl).Reachable s →
      (∀ row ∈ s.active, s.Armed row.requestId → row.handle.hasNativeCancelTarget = true →
        s.Covered row ∧ s.Passes ttl row) ∧
      (∀ r armIfMissing cause s', s.step ttl (.abort r armIfMissing cause) = some s' →
        (∃ row ∈ s.active, row.requestId = r) → s'.Aborting r) ∧
      ∀ a s' r, s.step ttl a = some s' → (∃ row ∈ s'.active, row.requestId = r) →
        (s.Aborting r → s'.Aborting r) ∧ (r ∈ s.ownerAborts → r ∈ s'.ownerAborts)) ∧
    ∀ s, (abortMachine κ ttl).Reach InFlightAborts.Honoured s →
      (∀ r, (∀ row ∈ s.active, row.requestId ≠ r) → r ∉ s.ownerAborts) ∧
      (s.active = [] → 0 < ttl → ∃ (expired : List Text) (t : InFlightAborts κ),
        (abortMachine κ ttl).run s (expired.map .expire) = some t ∧
          t.hasUnconfirmedWork = false) ∧
      ∀ r, (∀ row ∈ s.active, row.requestId ≠ r) → r ∉ s.pendingAborts →
        (∀ call ∈ s.calls, call.requestId ≠ r) → ∀ s', s.WithoutAbort ttl r s' →
          s'.cancelledOf r = s.cancelledOf r := by
  constructor
  · intro s hs
    have hf := InFlightAborts.followed_of_reachable hs
    refine ⟨?_, ?_, ?_⟩
    · intro row hrow harmed htarget
      exact ⟨hf.covered row hrow harmed htarget, hf.passes hrow harmed htarget⟩
    · intro r armIfMissing cause s' hstep hrow
      rw [← Option.some.inj hstep]
      exact hf.abort_aborting hrow armIfMissing cause
    · intro a s' r hstep hrow
      obtain ⟨row, hmem, hof⟩ := hrow
      refine ⟨?_, ?_⟩
      · intro hr
        exact (hf.aborting_step hstep hr).resolve_right fun hgone => hgone row hmem hof
      · intro hr
        exact (hf.owner_kept hstep hr).resolve_right fun hgone => hgone row hmem hof
  · intro s hs
    have hf := InFlightAborts.followed_of_reachable hs.reachable
    have ho : s.Owned ttl := by
      have hboth : s.Followed ∧ s.Owned ttl := by
        refine Machine.Reach.invariant (I := fun s => s.Followed ∧ s.Owned ttl) ?_ ?_ hs
        · intro s hstart
          rw [hstart]
          exact ⟨.empty, .empty⟩
        · intro s a s' hboth hhonoured hstep
          exact ⟨hboth.1.step hstep, hboth.2.step hboth.1 hhonoured hstep⟩
      exact hboth.2
    have howner : ∀ r, (∀ row ∈ s.active, row.requestId ≠ r) → r ∉ s.ownerAborts := by
      intro r hnone hr
      obtain ⟨row, hrow, hof⟩ := ho.owner r hr
      exact hnone row hrow hof
    refine ⟨howner, fun hactive httl => ho.run_expire httl hactive, ?_⟩
    intro r hnone hpending hcalls s' hw
    have hquiet : s.Quiet r := by
      refine ⟨?_, hcalls⟩
      intro harmed
      rcases harmed with harmed | harmed
      · exact hpending harmed
      · exact howner r hnone harmed
    exact hquiet.without hf hw

/-- The state after some actions, the start if one of them was not enabled. -/
def afterAborts (actions : List (AbortAction Unit)) : InFlightAborts Unit :=
  ((abortMachine Unit 120000000).run {} actions).getD {}

/-- A second execution is registered after the abort of its request has taken effect. -/
def lateActions : List (AbortAction Unit) :=
  [.register "r".toList { connectionId := "c".toList, statementId := some 1 } (some "1".toList) (),
    .abort "r".toList false (), .nativeReturned 0,
    .register "r".toList { connectionId := "d".toList, statementId := some 2 } (some "2".toList) ()]

/-- The second execution is on its way to the native cancel. -/
theorem aborts_follow_owner_late :
    ∃ row ∈ (afterAborts lateActions).active, row.executionId = "2".toList ∧
      (afterAborts lateActions).Passes 120000000 row := by
  have hrun : (abortMachine Unit 120000000).run {} lateActions =
      some (afterAborts lateActions) := rfl
  have hreachable : (abortMachine Unit 120000000).Reachable (afterAborts lateActions) :=
    Machine.reachable_of_run rfl hrun
  have hrow : (⟨1, "r".toList, "2".toList, (), ⟨"d".toList, some 2, none⟩⟩ : InFlightRow Unit) ∈
      (afterAborts lateActions).active := List.mem_cons_of_mem _ (List.mem_singleton.mpr rfl)
  have harmed : (afterAborts lateActions).Armed "r".toList := Or.inr (Finset.mem_insert_self _ _)
  have hfollowed := ((aborts_follow_owner Unit 120000000).1 _ hreachable).1 _ hrow harmed rfl
  exact ⟨_, hrow, rfl, hfollowed.2⟩

/-- An execution of a request is unregistered while its abort waits for the native cancel, and a
later request with the same id is registered. -/
def reusedActions : List (AbortAction Unit) :=
  [.register "r".toList { connectionId := "c".toList, statementId := some 1 } none (),
    .abort "r".toList false (), .unregister "r".toList none, .nativeReturned 0, .microtask]

/-- The execution of the later request. -/
def reusedRegister : AbortAction Unit :=
  .register "r".toList { connectionId := "d".toList, statementId := some 2 } none ()

/-- An owner stays armed without an execution and without an abort call in progress, and the
execution of a later request with the same id is passed to the native cancel. -/
theorem aborts_outlive_owner :
    (¬ ∀ s, (abortMachine Unit 120000000).Reachable s → ∀ r, (∀ row ∈ s.active, row.requestId ≠ r) →
      (∀ call ∈ s.calls, call.requestId ≠ r) → r ∉ s.ownerAborts) ∧
    (afterAborts reusedActions).hasUnconfirmedWork = true ∧
    ∃ entry ∈ (afterAborts (reusedActions ++ [reusedRegister, .microtask])).cancelled,
      entry.1.handle.connectionId = "d".toList := by
  refine ⟨?_, rfl, ?_⟩
  · intro h
    have hrun : (abortMachine Unit 120000000).run {} reusedActions =
        some (afterAborts reusedActions) := rfl
    have hreachable : (abortMachine Unit 120000000).Reachable (afterAborts reusedActions) :=
      Machine.reachable_of_run rfl hrun
    have hdisarmed := h _ hreachable "r".toList (fun row hrow => by cases hrow)
      (fun call hcall => by cases hcall)
    exact hdisarmed (Finset.mem_insert_self _ _)
  · exact ⟨_, List.mem_cons_of_mem _ (List.mem_singleton.mpr rfl), rfl⟩

end PlugAgente.Cancellation
