import PlugAgente.Cancellation.NativeAbort

/-!
# An abort follows its owner

`Covered` says where an execution is on its way to the native cancel: it was passed on, a microtask
of its request is scheduled, or an abort call of its request has it before it.  Every execution with
a target whose request is armed is covered, in every state that is reached (`Followed`).

An abort call that ends arms its request again.  When the last execution was unregistered while the
call waited, nothing disarms the request any more; `Honoured` leaves this out.
-/

namespace PlugAgente.Cancellation

open Dart Rows

namespace InFlightAborts

variable {κ : Type} {ttl : Nat} {s s' t : InFlightAborts κ} {r k : Text} {causes : List κ}

/-! ## What the operations change -/

section Fields

theorem notify_eq (s : InFlightAborts κ) (r : Text) :
    s.notifyPendingAbort r = { s with microtasks := (s.notifyPendingAbort r).microtasks } := by
  rw [notifyPendingAbort]
  split <;> rfl

theorem forget_eq (s : InFlightAborts κ) (r : Text) :
    s.forget r = { s with causes := (s.forget r).causes } := by
  rw [forget]
  split <;> rfl

@[simp] theorem notify_active : (s.notifyPendingAbort r).active = s.active := by rw [notify_eq]

@[simp] theorem notify_pendingAborts :
    (s.notifyPendingAbort r).pendingAborts = s.pendingAborts := by rw [notify_eq]

@[simp] theorem notify_ownerAborts : (s.notifyPendingAbort r).ownerAborts = s.ownerAborts := by
  rw [notify_eq]

@[simp] theorem notify_expiryTimers : (s.notifyPendingAbort r).expiryTimers = s.expiryTimers := by
  rw [notify_eq]

@[simp] theorem notify_calls : (s.notifyPendingAbort r).calls = s.calls := by rw [notify_eq]

@[simp] theorem notify_cancelled : (s.notifyPendingAbort r).cancelled = s.cancelled := by
  rw [notify_eq]

@[simp] theorem forget_active : (s.forget r).active = s.active := by rw [forget_eq]

@[simp] theorem forget_pendingAborts : (s.forget r).pendingAborts = s.pendingAborts := by
  rw [forget_eq]

@[simp] theorem forget_ownerAborts : (s.forget r).ownerAborts = s.ownerAborts := by rw [forget_eq]

@[simp] theorem forget_expiryTimers : (s.forget r).expiryTimers = s.expiryTimers := by
  rw [forget_eq]

@[simp] theorem forget_microtasks : (s.forget r).microtasks = s.microtasks := by rw [forget_eq]

@[simp] theorem forget_calls : (s.forget r).calls = s.calls := by rw [forget_eq]

@[simp] theorem forget_cancelled : (s.forget r).cancelled = s.cancelled := by rw [forget_eq]

theorem notify_microtasks : ∃ more, (s.notifyPendingAbort r).microtasks = s.microtasks ++ more := by
  rw [notifyPendingAbort]
  split
  · exact ⟨_, rfl⟩
  · exact ⟨[], (List.append_nil _).symm⟩

theorem mem_notify (h : k ∈ s.microtasks) : k ∈ (s.notifyPendingAbort r).microtasks := by
  obtain ⟨more, heq⟩ := notify_microtasks (s := s) (r := r)
  rw [heq]
  exact List.mem_append_left _ h

theorem notify_armed (h : s.Armed r) : r ∈ (s.notifyPendingAbort r).microtasks := by
  rw [notifyPendingAbort, if_pos h]
  exact List.mem_append_right _ (List.mem_singleton.mpr rfl)

theorem mem_peekAll {row : InFlightRow κ} :
    row ∈ s.peekAll r ↔ row ∈ s.active ∧ row.requestId = r := by
  simp [peekAll]

theorem peekAll_isEmpty : (s.peekAll r).isEmpty = true ↔ ∀ row ∈ s.active, row.requestId ≠ r := by
  simp [peekAll]

end Fields

/-- What arms or disarms a request touches: neither the executions nor the calls, and no other
request. -/
structure Touches (r : Text) (s s' : InFlightAborts κ) : Prop where
  active : s'.active = s.active
  calls : s'.calls = s.calls
  cancelled : s'.cancelled = s.cancelled
  microtasks : ∃ more, s'.microtasks = s.microtasks ++ more
  pending : ∀ k ≠ r, k ∈ s'.pendingAborts ↔ k ∈ s.pendingAborts
  owner : ∀ k ≠ r, k ∈ s'.ownerAborts ↔ k ∈ s.ownerAborts
  timers : ∀ k ≠ r, k ∈ s'.expiryTimers ↔ k ∈ s.expiryTimers

theorem Touches.trans (h : Touches r s s') (h' : Touches r s' t) : Touches r s t := by
  refine ⟨h'.active.trans h.active, h'.calls.trans h.calls, h'.cancelled.trans h.cancelled, ?_, ?_,
    ?_, ?_⟩
  · obtain ⟨more, hs⟩ := h.microtasks
    obtain ⟨later, ht⟩ := h'.microtasks
    exact ⟨more ++ later, by rw [ht, hs, List.append_assoc]⟩
  · intro k hk
    exact (h'.pending k hk).trans (h.pending k hk)
  · intro k hk
    exact (h'.owner k hk).trans (h.owner k hk)
  · intro k hk
    exact (h'.timers k hk).trans (h.timers k hk)

theorem Touches.queued (h : Touches r s s') (hk : k ∈ s.microtasks) : k ∈ s'.microtasks := by
  obtain ⟨more, heq⟩ := h.microtasks
  rw [heq]
  exact List.mem_append_left _ hk

theorem Touches.armed (h : Touches r s s') (hk : k ≠ r) : s'.Armed k ↔ s.Armed k :=
  or_congr (h.pending k hk) (h.owner k hk)

theorem markOwnerAbort_spec (s : InFlightAborts κ) (causes : List κ) (hr : r ≠ []) :
    Touches r s (s.markOwnerAbort r causes) ∧ r ∈ (s.markOwnerAbort r causes).ownerAborts ∧
      (r ∈ s.ownerAborts ∨ r ∈ (s.markOwnerAbort r causes).microtasks) ∧
      (s.markOwnerAbort r causes).pendingAborts = s.pendingAborts ∧
      (s.markOwnerAbort r causes).expiryTimers = s.expiryTimers := by
  rw [markOwnerAbort, if_neg (by simpa using hr)]
  dsimp only
  split
  · rename_i harmed
    refine ⟨⟨rfl, rfl, rfl, ⟨[], (List.append_nil _).symm⟩, fun _ _ => Iff.rfl, ?_,
      fun _ _ => Iff.rfl⟩,
      Finset.mem_insert_self _ _, Or.inl (of_decide_eq_true harmed), rfl, rfl⟩
    intro k hk
    simp [hk]
  · refine ⟨⟨?_, ?_, ?_, ?_, ?_, ?_, ?_⟩, ?_, Or.inr ?_, ?_, ?_⟩
    · simp [blame]
    · simp [blame]
    · simp [blame]
    · exact notify_microtasks
    · intro k _
      simp [blame]
    · intro k hk
      simp [hk, blame]
    · intro k _
      simp [blame]
    · simp
    · exact notify_armed (Or.inr (Finset.mem_insert_self _ _))
    · simp [blame]
    · simp [blame]

theorem markPendingAbort_spec (ttl : Nat) (s : InFlightAborts κ) (causes : List κ) (hr : r ≠ []) :
    Touches r s (s.markPendingAbort ttl r causes) ∧
      r ∈ (s.markPendingAbort ttl r causes).pendingAborts ∧
      (s.markPendingAbort ttl r causes).ownerAborts = s.ownerAborts ∧
      (0 < ttl → r ∈ (s.markPendingAbort ttl r causes).expiryTimers) := by
  have htimers : ∀ k ≠ r,
      k ∈ (if ttl = 0 then s.expiryTimers.erase r else insert r s.expiryTimers) ↔
        k ∈ s.expiryTimers := by
    intro k hk
    split
    · simp [hk]
    · simp [hk]
  have hown : 0 < ttl →
      r ∈ (if ttl = 0 then s.expiryTimers.erase r else insert r s.expiryTimers) := by
    intro httl
    rw [if_neg (Nat.pos_iff_ne_zero.mp httl)]
    exact Finset.mem_insert_self _ _
  rw [markPendingAbort, if_neg (by simpa using hr)]
  dsimp only
  split
  · refine ⟨⟨?_, ?_, ?_, ?_, ?_, ?_, ?_⟩, ?_, ?_, ?_⟩
    · simp [blame]
    · simp [blame]
    · simp [blame]
    · exact notify_microtasks
    · intro k hk
      simp [hk]
    · intro k _
      simp [blame]
    · intro k hk
      rw [notify_expiryTimers]
      exact htimers k hk
    · simp
    · simp [blame]
    · intro httl
      rw [notify_expiryTimers]
      exact hown httl
  · refine ⟨⟨rfl, rfl, rfl, ⟨[], (List.append_nil _).symm⟩, ?_, fun _ _ => Iff.rfl, htimers⟩,
      Finset.mem_insert_self _ _, rfl, hown⟩
    intro k hk
    simp [hk]

theorem clearPendingAbort_spec (s : InFlightAborts κ) (hr : r ≠ []) :
    Touches r s (s.clearPendingAbort r) ∧ r ∉ (s.clearPendingAbort r).pendingAborts ∧
      (s.clearPendingAbort r).ownerAborts = s.ownerAborts := by
  rw [clearPendingAbort, if_neg (by simpa using hr)]
  refine ⟨⟨?_, ?_, ?_, ?_, ?_, ?_, ?_⟩, ?_, ?_⟩
  · simp
  · simp
  · simp
  · exact ⟨[], by simp⟩
  · intro k hk
    simp [hk]
  · intro k _
    simp
  · intro k hk
    simp [hk]
  · simp
  · simp

theorem finishAbort_spec (ttl : Nat) (s : InFlightAborts κ) (causes : List κ) (hr : r ≠ [])
    (hasPendingTarget : Bool) :
    Touches r s (s.finishAbort ttl r hasPendingTarget causes) ∧
      r ∈ (s.finishAbort ttl r hasPendingTarget causes).ownerAborts ∧
      (r ∈ s.ownerAborts ∨ r ∈ (s.finishAbort ttl r hasPendingTarget causes).microtasks) ∧
      (r ∈ (s.finishAbort ttl r hasPendingTarget causes).pendingAborts → 0 < ttl →
        r ∈ (s.finishAbort ttl r hasPendingTarget causes).expiryTimers) := by
  obtain ⟨htouch, howner, hnotified, -, -⟩ := markOwnerAbort_spec s causes hr
  rw [finishAbort]
  split
  · obtain ⟨hpending, -, hsame, htimer⟩ :=
      markPendingAbort_spec ttl (s.markOwnerAbort r causes) causes hr
    refine ⟨htouch.trans hpending, ?_, ?_, fun _ => htimer⟩
    · rw [hsame]
      exact howner
    · rcases hnotified with harmed | hnotified
      · exact Or.inl harmed
      · exact Or.inr (hpending.queued hnotified)
  · obtain ⟨hcleared, hnot, hsame⟩ := clearPendingAbort_spec (s.markOwnerAbort r causes) hr
    refine ⟨htouch.trans hcleared, ?_, ?_, fun h => absurd h hnot⟩
    · rw [hsame]
      exact howner
    · rcases hnotified with harmed | hnotified
      · exact Or.inl harmed
      · exact Or.inr (hcleared.queued hnotified)

/-! ## What a step does -/

theorem abortHandles_cases (ttl : Nat) (r : Text) (causes : List κ) (rest : List (InFlightRow κ))
    (hasPendingTarget : Bool) (s : InFlightAborts κ) :
    (∃ before row after discarded pending, rest = before ++ row :: after ∧
      (∀ x ∈ before, x.handle.hasNativeCancelTarget = false) ∧
      abortHandles ttl r causes rest hasPendingTarget s = { s with
        discarded := discarded
        cancelled := s.cancelled ++ [(row, causes)]
        calls := s.calls ++ [⟨r, after, pending, causes⟩] }) ∨
    ∃ discarded pending, (∀ x ∈ rest, x.handle.hasNativeCancelTarget = false) ∧
      abortHandles ttl r causes rest hasPendingTarget s =
        finishAbort ttl { s with discarded := discarded } r pending causes := by
  induction rest generalizing hasPendingTarget s with
  | nil => exact Or.inr ⟨s.discarded, hasPendingTarget, by simp, rfl⟩
  | cons row rest ih =>
    rw [abortHandles]
    split
    · exact Or.inl ⟨[], row, rest, s.discarded, hasPendingTarget, rfl, by simp, rfl⟩
    · rename_i hnone
      have hrow : row.handle.hasNativeCancelTarget = false := Bool.eq_false_of_not_eq_true hnone
      rcases ih true { s with discarded := s.discarded ++ [row.handle.connectionId] } with
        hcall | hend
      · obtain ⟨before, next, after, discarded, pending, hrest, hbefore, hresult⟩ := hcall
        refine Or.inl ⟨row :: before, next, after, discarded, pending, ?_, ?_, hresult⟩
        · rw [hrest]
          rfl
        · intro x hx
          rcases List.mem_cons.mp hx with heq | hx
          · rw [heq]
            exact hrow
          · exact hbefore x hx
      · obtain ⟨discarded, pending, hnone, hresult⟩ := hend
        refine Or.inr ⟨discarded, pending, ?_, hresult⟩
        intro x hx
        rcases List.mem_cons.mp hx with heq | hx
        · rw [heq]
          exact hrow
        · exact hnone x hx

/-- The rows of a request are written: no other row changes, and none goes away. -/
def Places (r : Text) (credentials : κ → Prop) (s s' : InFlightAborts κ) : Prop :=
  r ≠ [] ∧ ∃ active registrations,
    s' = { s with active := active, registrations := registrations }.notifyPendingAbort r ∧
    (∀ row ∈ active, row ∈ s.active ∨ row.requestId = r ∧ credentials row.credential) ∧
    ∀ row ∈ s.active, ∃ row' ∈ active, row'.requestId = row.requestId

theorem register_places (s : InFlightAborts κ) (r : Text) (handle : InFlightHandle)
    (executionId : Option Text) (credential : κ) :
    s.register r handle executionId credential = s ∨
      Places r (· = credential) s (s.register r handle executionId credential) := by
  by_cases hr : r = []
  · exact Or.inl (if_pos (by simp [hr]))
  · right
    rw [register, if_neg (by simpa using hr)]
    refine ⟨hr, _, _, rfl, ?_, ?_⟩
    · intro row hrow
      split at hrow
      · obtain ⟨old, hold, hwritten⟩ := mem_write.mp hrow
        split at hwritten
        · rw [← hwritten]
          exact Or.inr ⟨rfl, rfl⟩
        · rw [← hwritten]
          exact Or.inl hold
      · rcases List.mem_append.mp hrow with hrow | hrow
        · exact Or.inl hrow
        · rw [List.mem_singleton.mp hrow]
          exact Or.inr ⟨rfl, rfl⟩
    · intro row hrow
      split
      · refine ⟨_, mem_write.mpr ⟨row, hrow, rfl⟩, ?_⟩
        split
        · rename_i hsame
          simp only [isRow, Bool.and_eq_true, decide_eq_true_eq] at hsame
          exact hsame.1.symm
        · rfl
      · exact ⟨row, List.mem_append_left _ hrow, rfl⟩

theorem bindTarget_places (s : InFlightAborts κ) (r : Text) (target : NativeTarget)
    (executionId : Option Text) :
    s.bindTarget r target executionId = s ∨
      Places r (fun c => ∃ row ∈ s.active, row.requestId = r ∧ row.credential = c) s
        (s.bindTarget r target executionId) := by
  rw [bindTarget]
  split
  · exact Or.inl rfl
  · rename_i hbound
    right
    have hr : r ≠ [] := by
      intro hr
      exact hbound (by simp [hr])
    refine ⟨hr, _, s.registrations, rfl, ?_, ?_⟩
    · intro row hrow
      obtain ⟨old, hold, hwritten⟩ := mem_write.mp hrow
      split at hwritten
      · rename_i hsame
        simp only [isRow, Bool.and_eq_true, decide_eq_true_eq] at hsame
        rw [← hwritten]
        exact Or.inr ⟨hsame.1, old, hold, hsame.1, rfl⟩
      · rw [← hwritten]
        exact Or.inl hold
    · intro row hrow
      refine ⟨_, mem_write.mpr ⟨row, hrow, rfl⟩, ?_⟩
      split <;> rfl

theorem unregister_cases (s : InFlightAborts κ) (r : Text) (executionId : Option Text) :
    s.unregister r executionId = s ∨ s.unregister r executionId = s.clearOwner r ∨
      ∃ active, s.unregister r executionId = { s with active := active } ∧
        (∀ row ∈ active, row ∈ s.active) ∧ (∀ row ∈ s.active, row.requestId ≠ r → row ∈ active) ∧
        ((∃ row ∈ s.active, row.requestId = r) → ∃ row ∈ active, row.requestId = r) := by
  by_cases hr : r = []
  · exact Or.inl (if_pos (by simp [hr]))
  · right
    have hne : ¬ r.isEmpty = true := by simpa using hr
    match executionId with
    | none => exact Or.inl (if_neg hne)
    | some [] => exact Or.inl (if_neg hne)
    | some (c :: rest) =>
      rw [unregister.eq_def, if_neg hne]
      dsimp only
      split
      · exact Or.inl rfl
      · rename_i hleft
        refine Or.inr ⟨_, rfl, ?_, ?_, ?_⟩
        · intro row hrow
          exact (List.mem_filter.mp hrow).1
        · intro row hrow hne
          refine List.mem_filter.mpr ⟨hrow, ?_⟩
          simp [isRow, hne]
        · intro hsome
          simp only [Bool.and_eq_true, Bool.not_eq_true', List.all_eq_true, decide_eq_true_eq,
            not_and, not_forall, not_not] at hleft
          obtain ⟨row, hrow, hof⟩ := hsome
          have hpeek : (s.peekAll r).isEmpty = false := by
            apply Bool.eq_false_of_not_eq_true
            intro hempty
            exact peekAll_isEmpty.mp hempty row hrow hof
          obtain ⟨left, hmem, hof⟩ := hleft hpeek
          exact ⟨left, hmem, hof⟩

/-! ## What is armed is covered -/

/-- An execution that was passed to the native cancel, or is on its way there. -/
def Covered (s : InFlightAborts κ) (row : InFlightRow κ) : Prop :=
  (∃ causes, (row, causes) ∈ s.cancelled) ∨ row.requestId ∈ s.microtasks ∨
    ∃ call ∈ s.calls, call.requestId = row.requestId ∧ row ∈ call.rest

/-- The executions and the calls are of requests with an id, and every execution with a target
whose request is armed is covered. -/
structure Followed (s : InFlightAborts κ) : Prop where
  named : ∀ row ∈ s.active, row.requestId ≠ []
  calls : ∀ call ∈ s.calls, call.requestId ≠ [] ∧ ∀ row ∈ call.rest, row.requestId = call.requestId
  covered : ∀ row ∈ s.active, s.Armed row.requestId → row.handle.hasNativeCancelTarget = true →
    s.Covered row

section Covering

variable {row : InFlightRow κ}

theorem Covered.mono (h : s.Covered row)
    (hcancelled : ∀ entry ∈ s.cancelled, entry ∈ s'.cancelled)
    (hmicrotasks : ∀ k ∈ s.microtasks, k ∈ s'.microtasks)
    (hcalls : ∀ call ∈ s.calls, call ∈ s'.calls) : s'.Covered row := by
  rcases h with ⟨causes, hentry⟩ | hqueued | ⟨call, hcall, hof, hrest⟩
  · exact Or.inl ⟨causes, hcancelled _ hentry⟩
  · exact Or.inr (Or.inl (hmicrotasks _ hqueued))
  · exact Or.inr (Or.inr ⟨call, hcalls call hcall, hof, hrest⟩)

theorem Touches.covered (h : Touches r s s') (hrow : s.Covered row) : s'.Covered row := by
  apply hrow.mono
  · intro entry hentry
    rw [h.cancelled]
    exact hentry
  · intro k
    exact h.queued
  · intro call hcall
    rw [h.calls]
    exact hcall

theorem Followed.touch (h : s.Followed) (ht : Touches r s s')
    (harmed : s'.Armed r → s.Armed r ∨ r ∈ s'.microtasks ∨ ∀ row ∈ s.active, row.requestId ≠ r) :
    s'.Followed := by
  refine ⟨?_, ?_, ?_⟩
  · rw [ht.active]
    exact h.named
  · rw [ht.calls]
    exact h.calls
  · intro row hrow hrowArmed htarget
    rw [ht.active] at hrow
    by_cases hk : row.requestId = r
    · rcases harmed (hk ▸ hrowArmed) with hbefore | hqueued | hnone
      · exact ht.covered (h.covered row hrow (hk.symm ▸ hbefore) htarget)
      · exact Or.inr (Or.inl (hk.symm ▸ hqueued))
      · exact absurd hk (hnone row hrow)
    · exact ht.covered (h.covered row hrow ((ht.armed hk).mp hrowArmed) htarget)

/-- The rows of a request are written, and its listener is told when it is armed. -/
theorem Followed.places (h : s.Followed) {credentials : κ → Prop} (hp : Places r credentials s s') :
    s'.Followed := by
  obtain ⟨hr, active, registrations, hs, hrows, -⟩ := hp
  rw [hs]
  refine ⟨?_, ?_, ?_⟩
  · intro row hrow
    rw [notify_active] at hrow
    rcases hrows row hrow with hrow | hrow
    · exact h.named row hrow
    · rw [hrow.1]
      exact hr
  · rw [notify_calls]
    exact h.calls
  · intro row hrow harmed htarget
    rw [notify_active] at hrow
    rw [Armed, notify_pendingAborts, notify_ownerAborts] at harmed
    by_cases hk : row.requestId = r
    · rw [hk] at harmed
      refine Or.inr (Or.inl ?_)
      rw [hk]
      exact notify_armed harmed
    · rcases hrows row hrow with hrow | hrow
      · apply (h.covered row hrow harmed htarget).mono
        · intro entry hentry
          rw [notify_cancelled]
          exact hentry
        · intro k hmem
          exact mem_notify hmem
        · intro call hcall
          rw [notify_calls]
          exact hcall
      · exact absurd hrow.1 hk

/-- Executions go away, and requests are disarmed. -/
theorem Followed.drop (h : s.Followed) (hactive : ∀ row ∈ s'.active, row ∈ s.active)
    (harmed : ∀ k, s'.Armed k → s.Armed k) (hcalls : s'.calls = s.calls)
    (hcancelled : s'.cancelled = s.cancelled) (hmicrotasks : s'.microtasks = s.microtasks) :
    s'.Followed := by
  refine ⟨?_, ?_, ?_⟩
  · intro row hrow
    exact h.named row (hactive row hrow)
  · rw [hcalls]
    exact h.calls
  · intro row hrow hrowArmed htarget
    have hcovered := h.covered row (hactive row hrow) (harmed _ hrowArmed) htarget
    rw [Covered, hcalls, hcancelled, hmicrotasks]
    exact hcovered

theorem Followed.abortHandles (hr : r ≠ []) {rest : List (InFlightRow κ)}
    (hrest : ∀ row ∈ rest, row.requestId = r) (hnamed : ∀ row ∈ s.active, row.requestId ≠ [])
    (hcalls : ∀ call ∈ s.calls, call.requestId ≠ [] ∧
      ∀ row ∈ call.rest, row.requestId = call.requestId)
    (hcovered : ∀ row ∈ s.active, s.Armed row.requestId →
      row.handle.hasNativeCancelTarget = true → s.Covered row ∨ row ∈ rest)
    (hasPendingTarget : Bool) :
    (abortHandles ttl r causes rest hasPendingTarget s).Followed := by
  rcases abortHandles_cases ttl r causes rest hasPendingTarget s with
    hcall | hend
  · obtain ⟨before, next, after, discarded, pending, heq, hbefore, hresult⟩ := hcall
    rw [hresult]
    refine ⟨hnamed, ?_, ?_⟩
    · intro call hmem
      rcases List.mem_append.mp hmem with hmem | hmem
      · exact hcalls call hmem
      · rw [List.mem_singleton.mp hmem]
        refine ⟨hr, ?_⟩
        intro row hrow
        exact hrest row (heq ▸ List.mem_append_right _ (List.mem_cons_of_mem _ hrow))
    · intro row hrow harmed htarget
      rcases hcovered row hrow harmed htarget with hcovered | hmem
      · exact hcovered.mono (fun _ h => List.mem_append_left _ h) (fun _ h => h)
          (fun _ h => List.mem_append_left _ h)
      · have hof := hrest row hmem
        rw [heq] at hmem
        rcases List.mem_append.mp hmem with hmem | hmem
        · rw [hbefore row hmem] at htarget
          cases htarget
        · rcases List.mem_cons.mp hmem with hnext | hmem
          · rw [hnext]
            exact Or.inl ⟨causes, List.mem_append_right _ (List.mem_singleton.mpr rfl)⟩
          · exact Or.inr (Or.inr ⟨_, List.mem_append_right _ (List.mem_singleton.mpr rfl), hof.symm,
              hmem⟩)
  · obtain ⟨discarded, pending, hnone, hresult⟩ := hend
    rw [hresult]
    have hbefore : Followed { s with discarded := discarded } := by
      refine ⟨hnamed, hcalls, ?_⟩
      intro row hrow harmed htarget
      rcases hcovered row hrow harmed htarget with hcovered | hmem
      · exact hcovered
      · rw [hnone row hmem] at htarget
        cases htarget
    obtain ⟨htouch, -, hnotified, -⟩ := finishAbort_spec ttl
      { s with discarded := discarded } causes hr pending
    apply hbefore.touch htouch
    intro _
    rcases hnotified with harmed | hnotified
    · exact Or.inl (Or.inr harmed)
    · exact Or.inr (Or.inl hnotified)

end Covering

theorem Followed.empty : Followed ({} : InFlightAborts κ) := by
  refine ⟨?_, ?_, ?_⟩
  · intro row hrow
    cases hrow
  · intro call hcall
    cases hcall
  · intro row hrow
    cases hrow

theorem Followed.ne_of_peekAll (h : s.Followed) (hsome : ¬ (s.peekAll r).isEmpty = true) :
    r ≠ [] := by
  intro hr
  apply hsome
  apply peekAll_isEmpty.mpr
  intro row hrow
  rw [hr]
  exact h.named row hrow

theorem clearOwner_armed (h : (s.clearOwner r).Armed k) : s.Armed k := by
  rcases h with h | h
  · exact Or.inl (Finset.mem_of_mem_erase h)
  · exact Or.inr (Finset.mem_of_mem_erase h)

theorem Followed.unregister (h : s.Followed) (r : Text) (executionId : Option Text) :
    (s.unregister r executionId).Followed := by
  rcases unregister_cases s r executionId with heq | heq | ⟨active, heq, hactive, -, -⟩
  · rw [heq]
    exact h
  · rw [heq]
    exact h.drop (fun row hrow => (List.mem_filter.mp hrow).1) (fun _ => clearOwner_armed) rfl rfl
      rfl
  · rw [heq]
    exact h.drop hactive (fun _ harmed => harmed) rfl rfl rfl

theorem Followed.abort (h : s.Followed) {armIfMissing : Bool} {cause : κ}
    (hstep : s.step ttl (.abort r armIfMissing cause) = some s') : s'.Followed := by
  rcases step_abort hstep with rfl | ⟨hr, ⟨hnone, rfl⟩ | ⟨-, rfl⟩⟩
  · exact h
  · apply h.touch (markPendingAbort_spec ttl s [cause] hr).1
    intro _
    exact Or.inr (Or.inr (peekAll_isEmpty.mp hnone))
  · apply Followed.abortHandles hr (fun row hrow => (mem_peekAll.mp hrow).2) h.named h.calls
    intro row hrow harmed htarget
    exact Or.inl (h.covered row hrow harmed htarget)

theorem Followed.nativeReturned (h : s.Followed) {i : Nat} {call : AbortCall κ}
    (hcall : s.calls[i]? = some call) :
    (InFlightAborts.abortHandles ttl call.requestId call.causes call.rest call.hasPendingTarget
      { s with calls := s.calls.eraseIdx i }).Followed := by
  obtain ⟨hr, hrest⟩ := h.calls call (List.mem_of_getElem? hcall)
  apply Followed.abortHandles (s := { s with calls := s.calls.eraseIdx i }) hr hrest h.named
  · intro other hother
    exact h.calls other ((List.eraseIdx_sublist _ _).mem hother)
  · intro row hrow harmed htarget
    rcases h.covered row hrow harmed htarget with hlogged | hqueued | ⟨other, hother, hof, hmem⟩
    · exact Or.inl (Or.inl hlogged)
    · exact Or.inl (Or.inr (Or.inl hqueued))
    · obtain ⟨j, hj⟩ := List.mem_iff_getElem?.mp hother
      by_cases hij : j = i
      · rw [hij, hcall] at hj
        rw [Option.some.inj hj]
        exact Or.inr hmem
      · refine Or.inl (Or.inr (Or.inr ⟨other, ?_, hof, hmem⟩))
        exact List.mem_eraseIdx_iff_getElem?.mpr ⟨j, hij, hj⟩

theorem Followed.microtask (h : s.Followed) (hstep : s.step ttl .microtask = some s') :
    s'.Followed := by
  obtain ⟨r, queue, hqueue, hends⟩ := step_microtask hstep
  have hothers : ∀ row ∈ s.active, s.Armed row.requestId →
      row.handle.hasNativeCancelTarget = true → row.requestId ≠ r →
      Covered { s with microtasks := queue } row := by
    intro row hrow harmed htarget hne
    rcases h.covered row hrow harmed htarget with hlogged | hqueued | hcalled
    · exact Or.inl hlogged
    · rw [hqueue] at hqueued
      rcases List.mem_cons.mp hqueued with heq | hqueued
      · exact absurd heq hne
      · exact Or.inr (Or.inl hqueued)
    · exact Or.inr (Or.inr hcalled)
  rcases hends with ⟨hnone, rfl⟩ | ⟨-, hsome, rfl⟩
  · refine ⟨h.named, h.calls, ?_⟩
    intro row hrow harmed htarget
    apply hothers row hrow harmed htarget
    intro hof
    rw [hof] at harmed
    exact peekAll_isEmpty.mp (hnone harmed) row hrow hof
  · have hr : r ≠ [] := h.ne_of_peekAll hsome
    apply Followed.abortHandles (s := { s with microtasks := queue }) hr
      (fun row hrow => (mem_peekAll.mp hrow).2) h.named h.calls
    intro row hrow harmed htarget
    by_cases hof : row.requestId = r
    · exact Or.inr (mem_peekAll.mpr ⟨hrow, hof⟩)
    · exact Or.inl (hothers row hrow harmed htarget hof)

theorem expire_armed (h : (s.expire r).Armed k) : s.Armed k := by
  rw [expire, Armed, forget_pendingAborts, forget_ownerAborts] at h
  rcases h with h | h
  · exact Or.inl (Finset.mem_of_mem_erase h)
  · exact Or.inr h

theorem Followed.step (h : s.Followed) {a : AbortAction κ} (hstep : s.step ttl a = some s') :
    s'.Followed := by
  cases a with
  | register r handle executionId credential =>
    rw [← Option.some.inj hstep]
    rcases register_places s r handle executionId credential with heq | hplaces
    · rw [heq]
      exact h
    · exact h.places hplaces
  | bindTarget r target executionId =>
    rw [← Option.some.inj hstep]
    rcases bindTarget_places s r target executionId with heq | hplaces
    · rw [heq]
      exact h
    · exact h.places hplaces
  | unregister r executionId =>
    rw [← Option.some.inj hstep]
    exact h.unregister r executionId
  | abort r armIfMissing cause => exact h.abort hstep
  | nativeReturned i =>
    obtain ⟨call, hcall, rfl⟩ := step_nativeReturned hstep
    exact h.nativeReturned hcall
  | microtask => exact h.microtask hstep
  | expire r =>
    obtain rfl := step_expire hstep
    apply h.drop
    · intro row hrow
      simpa [expire] using hrow
    · intro k
      exact expire_armed
    · simp [expire]
    · simp [expire]
    · simp [expire]

theorem followed_of_reachable (h : (abortMachine κ ttl).Reachable s) : s.Followed := by
  refine Machine.Reach.invariant (I := Followed) ?_ ?_ h
  · intro s hstart
    rw [hstart]
    exact .empty
  · intro s a s' hs _ hstep
    exact hs.step hstep

/-! ## The owners -/

section Owners

theorem Touches.owner_kept (h : Touches r s s') (hown : r ∈ s'.ownerAborts)
    (hk : k ∈ s.ownerAborts) : k ∈ s'.ownerAborts := by
  by_cases heq : k = r
  · rw [heq]
    exact hown
  · exact (h.owner k heq).mpr hk

theorem abortHandles_owner_kept (hr : r ≠ []) (rest : List (InFlightRow κ))
    (hasPendingTarget : Bool) (hk : k ∈ s.ownerAborts) :
    k ∈ (abortHandles ttl r causes rest hasPendingTarget s).ownerAborts := by
  rcases abortHandles_cases ttl r causes rest hasPendingTarget s with
    hcall | ⟨discarded, pending, -, hresult⟩
  · obtain ⟨before, next, after, discarded, pending, -, -, hresult⟩ := hcall
    rw [hresult]
    exact hk
  · rw [hresult]
    obtain ⟨htouch, hown, -⟩ := finishAbort_spec ttl
      { s with discarded := discarded } causes hr pending
    exact htouch.owner_kept hown hk

theorem Followed.owner_kept (h : s.Followed) {a : AbortAction κ} (hstep : s.step ttl a = some s')
    (hk : k ∈ s.ownerAborts) : k ∈ s'.ownerAborts ∨ ∀ row ∈ s'.active, row.requestId ≠ k := by
  cases a with
  | register r handle executionId credential =>
    left
    rw [← Option.some.inj hstep]
    rcases register_places s r handle executionId credential with heq | ⟨-, active, _, heq, -⟩
    · rw [heq]
      exact hk
    · rw [heq, notify_ownerAborts]
      exact hk
  | bindTarget r target executionId =>
    left
    rw [← Option.some.inj hstep]
    rcases bindTarget_places s r target executionId with heq | ⟨-, active, _, heq, -⟩
    · rw [heq]
      exact hk
    · rw [heq, notify_ownerAborts]
      exact hk
  | unregister r executionId =>
    rw [← Option.some.inj hstep]
    rcases unregister_cases s r executionId with heq | heq | ⟨active, heq, -, -, -⟩
    · rw [heq]
      exact Or.inl hk
    · rw [heq]
      by_cases hkr : k = r
      · right
        intro row hrow
        rw [hkr]
        exact of_decide_eq_true (List.mem_filter.mp hrow).2
      · exact Or.inl (Finset.mem_erase.mpr ⟨hkr, hk⟩)
    · rw [heq]
      exact Or.inl hk
  | abort r armIfMissing cause =>
    left
    rcases step_abort hstep with rfl | ⟨hr, ⟨-, rfl⟩ | ⟨-, rfl⟩⟩
    · exact hk
    · rw [(markPendingAbort_spec ttl s [cause] hr).2.2.1]
      exact hk
    · exact abortHandles_owner_kept hr _ _ hk
  | nativeReturned i =>
    left
    obtain ⟨call, hcall, rfl⟩ := step_nativeReturned hstep
    exact abortHandles_owner_kept (h.calls call (List.mem_of_getElem? hcall)).1 _ _ hk
  | microtask =>
    left
    obtain ⟨r, queue, -, ⟨-, rfl⟩ | ⟨-, hsome, rfl⟩⟩ := step_microtask hstep
    · exact hk
    · exact abortHandles_owner_kept (h.ne_of_peekAll hsome) _ _ hk
  | expire r =>
    left
    rw [step_expire hstep, expire, forget_ownerAborts]
    exact hk

end Owners

end InFlightAborts

end PlugAgente.Cancellation
