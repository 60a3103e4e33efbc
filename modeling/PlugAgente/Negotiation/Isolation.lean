import PlugAgente.Negotiation.Handshake

/-!
# Isolation of handshakes

At most one timer is live in every state that is reached (`AtMostOneTimer`).  That a reset ends
the handshakes before it, and that a handshake registers again only so often, needs more: a
register that is awaited when a reset comes goes on after it, and arms a timer or forces a
reconnect for the new session; a timer of an older handshake may expire after a newer one has set
the count to zero.

`Current` is what keeps that away: registers go on only for handshakes that began after the last
reset, and timeouts expire only for the newest handshake.
-/

namespace PlugAgente.Negotiation

namespace CapabilitiesNegotiator

/-- At most one timer is live, and it is the one of the field. -/
def AtMostOneTimer (s : CapabilitiesNegotiator) : Prop :=
  s.timers = [] ∨ ∃ t, s.timers = [t] ∧ s.capabilitiesTimeoutTimer = some t.id

/-- What handshakes did, and the live timers, belong to handshakes that began after the last
reset. -/
def Isolated (s : CapabilitiesNegotiator) : Prop :=
  (∀ e ∈ s.events, e.owner.resets = e.resets) ∧ ∀ t ∈ s.timers, t.owner.resets = s.resets

/-- How often a handshake registered again. -/
def reRegistrations (s : CapabilitiesNegotiator) (id : Nat) : Nat :=
  s.events.countP fun e => e.effect = .reRegistered ∧ e.owner.id = id

/-- No handshake registers again more often than the configuration has it. -/
def Bounded (s : CapabilitiesNegotiator) : Prop :=
  ∀ id, s.reRegistrations id ≤ capabilitiesMaxReRegisterAttempts

/-- Registers go on only for handshakes that no reset has ended, and timeouts expire only for the
newest handshake. -/
def Current (s : CapabilitiesNegotiator) : Action → Prop
  | .profileLoaded i _ | .emitted i _ =>
    ∀ r, s.registers[i]? = some r → r.owner.resets = s.resets
  | .timeout i => ∀ t, s.timers[i]? = some t → t.owner.id + 1 = s.begun
  | _ => True

/-! ## The timer -/

section Timer

variable {s : CapabilitiesNegotiator}

theorem cancelTimer_timers (h : s.AtMostOneTimer) : s.cancelTimer.timers = [] := by
  rw [cancelTimer]
  rcases h with hnone | ⟨t, htimers, hfield⟩
  · split
    · exact hnone
    · simp [hnone]
  · rw [hfield]
    simp [htimers]

@[simp] theorem cancelTimer_registers : s.cancelTimer.registers = s.registers := by
  rw [cancelTimer]
  split <;> rfl

@[simp] theorem cancelTimer_events : s.cancelTimer.events = s.events := by
  rw [cancelTimer]
  split <;> rfl

@[simp] theorem cancelTimer_resets : s.cancelTimer.resets = s.resets := by
  rw [cancelTimer]
  split <;> rfl

@[simp] theorem cancelTimer_begun : s.cancelTimer.begun = s.begun := by
  rw [cancelTimer]
  split <;> rfl

@[simp] theorem cancelTimer_reRegisterCount :
    s.cancelTimer.reRegisterCount = s.reRegisterCount := by
  rw [cancelTimer]
  split <;> rfl

end Timer

/-! ## What a step does -/

/-- Who may still act: the owners of the suspended registers and of the timers. -/
def owners (s : CapabilitiesNegotiator) : List Handshake :=
  s.registers.map (·.owner) ++ s.timers.map (·.owner)

/-- What a step does to the timers, the registers, the count and the record. -/
inductive Steps (s s' : CapabilitiesNegotiator) (a : Action) : Prop where
  /-- Nothing but that a register or a timer may end. -/
  | quiet (htimers : s'.timers = [] ∨ s'.timers = s.timers ∧
      s'.capabilitiesTimeoutTimer = s.capabilitiesTimeoutTimer)
    (howners : s'.owners.Sublist s.owners) (hcount : s'.reRegisterCount = s.reRegisterCount)
    (hbegun : s'.begun = s.begun) (hresets : s'.resets = s.resets)
    (hevents : s'.events = s.events)
  | begins (htimers : s'.timers = s.timers)
    (hfield : s'.capabilitiesTimeoutTimer = s.capabilitiesTimeoutTimer)
    (howners : s'.owners.Perm (⟨s.begun, s.resets⟩ :: s.owners)) (hcount : s'.reRegisterCount = 0)
    (hbegun : s'.begun = s.begun + 1) (hresets : s'.resets = s.resets)
    (hevents : s'.events = s.events)
  /-- A register is emitted, is rejected, or arms the timer. -/
  | goesOn (owner : Handshake) (effect : Effect) (hmem : owner ∈ s.owners)
    (hcurrent : s.Current a → owner.resets = s.resets) (heffect : effect ≠ .reRegistered)
    (htimers : s'.timers = s.timers ∧ s'.capabilitiesTimeoutTimer = s.capabilitiesTimeoutTimer ∨
      ∃ id, s'.timers = [⟨id, owner⟩] ∧ s'.capabilitiesTimeoutTimer = some id)
    (howners : s'.owners.Subperm s.owners) (hcount : s'.reRegisterCount = s.reRegisterCount)
    (hbegun : s'.begun = s.begun) (hresets : s'.resets = s.resets)
    (hevents : s'.events = s.events ++ [⟨effect, owner, s.resets⟩])
  | reRegisters (t : Timer) (ht : s.timers = [t]) (hcurrent : s.Current a → t.owner.id + 1 = s.begun)
    (hlt : s.reRegisterCount < capabilitiesMaxReRegisterAttempts) (htimers : s'.timers = [])
    (howners : s'.owners = s.owners) (hcount : s'.reRegisterCount = s.reRegisterCount + 1)
    (hbegun : s'.begun = s.begun) (hresets : s'.resets = s.resets)
    (hevents : s'.events = s.events ++ [⟨.reRegistered, t.owner, s.resets⟩])
  | givesUp (t : Timer) (ht : s.timers = [t]) (hcurrent : s.Current a → t.owner.id + 1 = s.begun)
    (htimers : s'.timers = []) (hregisters : s'.registers = s.registers)
    (hcount : s'.reRegisterCount = 0) (hbegun : s'.begun = s.begun)
    (hresets : s'.resets = s.resets)
    (hevents : s'.events = s.events ++ [⟨.reconnectForced, t.owner, s.resets⟩])
  | resets (htimers : s'.timers = []) (hregisters : s'.registers = s.registers)
    (hcount : s'.reRegisterCount = 0) (hbegun : s'.begun = s.begun)
    (hresets : s'.resets = s.resets + 1) (hevents : s'.events = s.events)

section Step

variable {s : CapabilitiesNegotiator}

theorem begin_steps (awaiting : Bool) (caller : Caller) (a : Action) :
    Steps s (({ s with awaitingPostReconnectCapabilities := awaiting } :
      CapabilitiesNegotiator).begin caller) a := by
  apply Steps.begins <;> try rfl
  show ((s.registers ++ [_]).map _ ++ s.timers.map _).Perm _
  rw [List.map_append, List.append_assoc]
  exact List.perm_middle

theorem owner_mem_of_register {i : Nat} {r : Register} (hr : s.registers[i]? = some r) :
    r.owner ∈ s.owners := by
  apply List.mem_append_left
  exact List.mem_map.mpr ⟨r, List.mem_of_getElem? hr, rfl⟩

theorem owners_eraseIdx {i : Nat} {r : Register} (hr : s.registers[i]? = some r) :
    s.owners.Perm (r.owner :: ((s.registers.eraseIdx i).map (·.owner) ++ s.timers.map (·.owner))) := by
  obtain ⟨hlt, hget⟩ := List.getElem?_eq_some_iff.mp hr
  have hperm : s.registers.Perm (r :: s.registers.eraseIdx i) := by
    rw [← hget]
    exact (List.getElem_cons_eraseIdx_perm hlt).symm
  exact (hperm.map _).append_right _

theorem eraseIdx_sublist_owners (i : Nat) :
    ((s.registers.eraseIdx i).map (·.owner) ++ s.timers.map (·.owner)).Sublist s.owners :=
  ((List.eraseIdx_sublist s.registers i).map _).append_right _

theorem registered_steps (h : s.AtMostOneTimer) {i : Nat} {r : Register} {a : Action}
    (hr : s.registers[i]? = some r) (hcurrent : s.Current a → r.owner.resets = s.resets)
    (sent : Bool) :
    Steps s (({ s with registers := s.registers.eraseIdx i } : CapabilitiesNegotiator).registered r
      sent) a := by
  have hmem := owner_mem_of_register hr
  cases sent with
  | true =>
    have htimers := cancelTimer_timers (s := { s with registers := s.registers.eraseIdx i }) h
    refine .goesOn r.owner .timerArmed hmem hcurrent (by decide)
      (.inr ⟨_, by simp [registered, startTimeoutTimer, record, htimers], rfl⟩) ?_ ?_ ?_ ?_ ?_
    · have herase := owners_eraseIdx hr
      have howners : (({ s with registers := s.registers.eraseIdx i } :
          CapabilitiesNegotiator).registered r true).owners =
          (s.registers.eraseIdx i).map (·.owner) ++ [r.owner] := by
        simp [registered, startTimeoutTimer, record, owners, htimers]
      rw [howners]
      have hfront : (r.owner :: (s.registers.eraseIdx i).map (·.owner)).Sublist
          (r.owner :: ((s.registers.eraseIdx i).map (·.owner) ++ s.timers.map (·.owner))) :=
        (List.sublist_append_left _ _).cons_cons r.owner
      exact (List.perm_append_singleton _ _).subperm.trans
        (hfront.subperm.trans herase.symm.subperm)
    all_goals simp [registered, startTimeoutTimer, record]
  | false =>
    have hsame : (({ s with registers := s.registers.eraseIdx i } :
        CapabilitiesNegotiator).registered r false).timers = s.timers := by
      simp only [registered, record]
      cases r.caller <;> rfl
    refine .goesOn r.owner .reconnectForced hmem hcurrent (by decide) (.inl ⟨hsame, ?_⟩) ?_ ?_ ?_ ?_ ?_
    · simp only [registered, record]
      cases r.caller <;> rfl
    · have hregisters : (({ s with registers := s.registers.eraseIdx i } :
          CapabilitiesNegotiator).registered r false).registers = s.registers.eraseIdx i := by
        simp only [registered, record]
        cases r.caller <;> rfl
      rw [owners, hregisters, hsame]
      exact (eraseIdx_sublist_owners i).subperm
    all_goals
      simp only [registered, record]
      cases r.caller <;> rfl

theorem profileLoaded_steps (h : s.AtMostOneTimer) {i : Nat} {r : Register} {a : Action}
    (hr : s.registers[i]? = some r) (hcurrent : s.Current a → r.owner.resets = s.resets)
    (valid : Bool) : Steps s (s.profileLoaded i r valid) a := by
  cases valid with
  | true =>
    refine .goesOn r.owner .registerEmitted (owner_mem_of_register hr) hcurrent (by decide)
      (.inl ⟨rfl, rfl⟩) ?_ rfl rfl rfl rfl
    obtain ⟨hlt, hget⟩ := List.getElem?_eq_some_iff.mp hr
    have howners : (s.profileLoaded i r true).owners = s.owners := by
      show (s.registers.set i { r with stage := .emission }).map _ ++ s.timers.map _ = _
      rw [List.map_set]
      show (s.registers.map _).set i r.owner ++ s.timers.map _ = _
      rw [← hget, ← List.getElem_map (fun r : Register => r.owner), List.set_getElem_self]
      · rfl
      · rw [List.length_map]
        exact hlt
    rw [howners]
  | false => exact registered_steps h hr hcurrent false

theorem timeout_steps (h : s.AtMostOneTimer) {i : Nat} {t : Timer} {a : Action}
    (ht : s.timers[i]? = some t) (hcurrent : s.Current a → t.owner.id + 1 = s.begun) :
    Steps s (({ s with timers := s.timers.eraseIdx i } : CapabilitiesNegotiator).timeout t) a := by
  have hone : s.timers = [t] ∧ s.timers.eraseIdx i = [] := by
    rcases h with hnone | ⟨only, hsingle, -⟩
    · rw [hnone] at ht
      cases ht
    · rw [hsingle] at ht ⊢
      cases i with
      | zero => exact ⟨congrArg (fun t => [t]) (Option.some.inj ht), rfl⟩
      | succ i => cases ht
  obtain ⟨hsingle, herase⟩ := hone
  rw [timeout, herase]
  split_ifs with hreceived hcount
  · refine .quiet (.inl rfl) ?_ rfl rfl rfl rfl
    show (s.registers.map _ ++ [].map _).Sublist s.owners
    rw [List.map_nil, List.append_nil]
    exact List.sublist_append_left _ _
  · refine .reRegisters t hsingle hcurrent hcount rfl ?_ rfl rfl rfl rfl
    show (s.registers ++ [_]).map _ ++ [].map _ = s.registers.map _ ++ s.timers.map _
    rw [hsingle, List.map_nil, List.append_nil, List.map_append]
    rfl
  · exact .givesUp t hsingle hcurrent rfl rfl rfl rfl rfl rfl

theorem handleEnvelope_steps (h : s.AtMostOneTimer) (envelope : Envelope) (a : Action) :
    Steps s (s.handleEnvelope envelope) a := by
  cases envelope with
  | success =>
    have htimers : (s.handleEnvelope .success).timers = [] := cancelTimer_timers h
    refine .quiet (.inl htimers) ?_ ?_ ?_ ?_ ?_
    · rw [owners, htimers, List.map_nil, List.append_nil, handleEnvelope]
      simp only [cancelTimer_registers]
      exact List.sublist_append_left _ _
    all_goals simp [handleEnvelope]
  | missingCapabilities => exact .quiet (.inr ⟨rfl, rfl⟩) (List.Sublist.refl _) rfl rfl rfl rfl
  | failure => exact .quiet (.inr ⟨rfl, rfl⟩) (List.Sublist.refl _) rfl rfl rfl rfl

theorem resetWith_steps (h : s.AtMostOneTimer) (awaiting : Bool) (a : Action) :
    Steps s (s.resetWith awaiting) a := by
  refine .resets (cancelTimer_timers h) ?_ rfl ?_ rfl ?_
  all_goals simp [resetWith]

theorem step_steps (h : s.AtMostOneTimer) {a : Action} {s' : CapabilitiesNegotiator}
    (hstep : step s a = some s') : Steps s s' a := by
  cases a with
  | sendRegisterAndStartTimeout =>
    rw [← Option.some.inj hstep]
    exact begin_steps s.awaitingPostReconnectCapabilities _ _
  | sendReRegisterAfterReconnect =>
    rw [← Option.some.inj hstep]
    exact begin_steps true _ _
  | profileLoaded i valid =>
    rw [step] at hstep
    cases hr : s.registers[i]? with
    | none => simp [hr] at hstep
    | some r =>
      rw [hr] at hstep
      by_cases hstage : r.stage = .profile
      · simp only [if_pos hstage, Option.some.injEq] at hstep
        rw [← hstep]
        exact profileLoaded_steps h hr
          (fun hcurrent : s.Current (.profileLoaded i valid) => hcurrent r hr) valid
      · simp [hstage] at hstep
  | emitted i sent =>
    rw [step] at hstep
    cases hr : s.registers[i]? with
    | none => simp [hr] at hstep
    | some r =>
      rw [hr] at hstep
      by_cases hstage : r.stage = .emission
      · simp only [if_pos hstage, Option.some.injEq] at hstep
        rw [← hstep]
        exact registered_steps h hr
          (fun hcurrent : s.Current (.emitted i sent) => hcurrent r hr) sent
      · simp [hstage] at hstep
  | registerThrew i =>
    rw [step] at hstep
    split at hstep
    · rw [← Option.some.inj hstep]
      exact .quiet (.inr ⟨rfl, rfl⟩) (eraseIdx_sublist_owners i) rfl rfl rfl rfl
    · cases hstep
  | timeout i =>
    rw [step] at hstep
    cases ht : s.timers[i]? with
    | none => simp [ht] at hstep
    | some t =>
      rw [ht] at hstep
      rw [← Option.some.inj hstep]
      exact timeout_steps h ht fun hcurrent : s.Current (.timeout i) => hcurrent t ht
  | handleEnvelope envelope =>
    rw [← Option.some.inj hstep]
    exact handleEnvelope_steps h envelope _
  | reset =>
    rw [← Option.some.inj hstep]
    exact resetWith_steps h false _
  | resetForReconnect =>
    rw [← Option.some.inj hstep]
    exact resetWith_steps h true _
  | markAwaitingPostReconnectCapabilities =>
    rw [← Option.some.inj hstep]
    exact .quiet (.inr ⟨rfl, rfl⟩) (List.Sublist.refl _) rfl rfl rfl rfl

end Step

/-! ## The invariant -/

/-- Handshakes that may still act have begun, and each may do so in one place. -/
structure Sound (s : CapabilitiesNegotiator) : Prop where
  timer : s.AtMostOneTimer
  begun : ∀ owner ∈ s.owners, owner.id < s.begun
  resets : ∀ owner ∈ s.owners, owner.resets ≤ s.resets
  single : (s.owners.map (·.id)).Nodup

/-- What the count says about the newest handshake while it may still act. -/
structure Counted (s : CapabilitiesNegotiator) : Prop where
  count : s.reRegisterCount ≤ capabilitiesMaxReRegisterAttempts
  newest : ∀ owner ∈ s.owners, owner.id + 1 = s.begun → owner.resets = s.resets →
    s.reRegistrations owner.id = s.reRegisterCount
  unborn : ∀ id, s.begun ≤ id → s.reRegistrations id = 0
  bounded : s.Bounded

theorem nodup_of_subperm {xs ys : List Handshake} (h : xs.Subperm ys)
    (hys : (ys.map (·.id)).Nodup) : (xs.map (·.id)).Nodup := by
  obtain ⟨zs, hperm, hsublist⟩ := h
  exact (hperm.map _).nodup_iff.mp (hys.sublist (hsublist.map _))

theorem Sound.initial : Sound initial :=
  ⟨Or.inl rfl, by simp [owners, CapabilitiesNegotiator.initial],
    by simp [owners, CapabilitiesNegotiator.initial],
    by simp [owners, CapabilitiesNegotiator.initial]⟩

section Kept

variable {s s' : CapabilitiesNegotiator} {a : Action}

theorem Sound.fewer (h : Sound s) (htimer : s'.AtMostOneTimer)
    (howners : s'.owners.Subperm s.owners) (hbegun : s'.begun = s.begun)
    (hresets : s.resets ≤ s'.resets) : Sound s' := by
  refine ⟨htimer, ?_, ?_, nodup_of_subperm howners h.single⟩
  · rw [hbegun]
    exact fun owner ho => h.begun owner (howners.subset ho)
  · intro owner ho
    have hle := h.resets owner (howners.subset ho)
    omega

theorem owners_of_no_timer (htimers : s'.timers = []) (hregisters : s'.registers = s.registers) :
    s'.owners.Sublist s.owners := by
  rw [owners, htimers, hregisters, List.map_nil, List.append_nil]
  exact List.sublist_append_left _ _

theorem Sound.step (h : Sound s) (hsteps : Steps s s' a) : Sound s' := by
  cases hsteps with
  | quiet htimers howners _ hbegun hresets _ =>
    refine h.fewer ?_ howners.subperm hbegun hresets.ge
    rcases htimers with hnone | ⟨hsame, hfield⟩
    · exact Or.inl hnone
    · rw [AtMostOneTimer, hsame, hfield]
      exact h.timer
  | begins htimers hfield howners _ hbegun hresets _ =>
    refine ⟨?_, ?_, ?_, ?_⟩
    · rw [AtMostOneTimer, htimers, hfield]
      exact h.timer
    · intro owner ho
      rw [hbegun]
      rcases List.mem_cons.mp (howners.subset ho) with hnew | hold
      · rw [hnew]
        exact Nat.lt_succ_self _
      · exact Nat.lt_succ_of_lt (h.begun owner hold)
    · intro owner ho
      rw [hresets]
      rcases List.mem_cons.mp (howners.subset ho) with hnew | hold
      · rw [hnew]
      · exact h.resets owner hold
    · refine (howners.map _).nodup_iff.mpr (List.nodup_cons.mpr ⟨?_, h.single⟩)
      intro hmem
      obtain ⟨owner, ho, hid⟩ := List.mem_map.mp hmem
      have hlt := h.begun owner ho
      have hnew : owner.id = s.begun := hid
      omega
  | goesOn owner effect hmem _ _ htimers howners _ hbegun hresets _ =>
    refine h.fewer ?_ howners hbegun hresets.ge
    rcases htimers with ⟨hsame, hfield⟩ | ⟨id, hnew, hfield⟩
    · rw [AtMostOneTimer, hsame, hfield]
      exact h.timer
    · exact Or.inr ⟨_, hnew, hfield⟩
  | reRegisters t _ _ _ htimers howners _ hbegun hresets _ =>
    exact h.fewer (Or.inl htimers) (howners ▸ List.Subperm.refl _) hbegun hresets.ge
  | givesUp t _ _ htimers hregisters _ hbegun hresets _ =>
    exact h.fewer (Or.inl htimers) (owners_of_no_timer htimers hregisters).subperm hbegun
      hresets.ge
  | resets htimers hregisters _ hbegun hresets _ =>
    exact h.fewer (Or.inl htimers) (owners_of_no_timer htimers hregisters).subperm hbegun
      (by omega)

/-! ## What the record holds -/

theorem reRegistrations_eq (hevents : s'.events = s.events) (id : Nat) :
    s'.reRegistrations id = s.reRegistrations id := by
  rw [reRegistrations, hevents, reRegistrations]

theorem reRegistrations_append {e : Event} (hevents : s'.events = s.events ++ [e]) (id : Nat) :
    s'.reRegistrations id = s.reRegistrations id +
      if e.effect = .reRegistered ∧ e.owner.id = id then 1 else 0 := by
  rw [reRegistrations, hevents, List.countP_append, List.countP_singleton, reRegistrations]
  simp

theorem reRegistrations_other {effect : Effect} {owner : Handshake}
    (hevents : s'.events = s.events ++ [⟨effect, owner, s.resets⟩])
    (heffect : effect ≠ .reRegistered) (id : Nat) :
    s'.reRegistrations id = s.reRegistrations id := by
  rw [reRegistrations_append hevents, if_neg fun h => heffect h.1, Nat.add_zero]

theorem reRegistrations_again {owner : Handshake}
    (hevents : s'.events = s.events ++ [⟨.reRegistered, owner, s.resets⟩]) (id : Nat) :
    s'.reRegistrations id = s.reRegistrations id + if owner.id = id then 1 else 0 := by
  rw [reRegistrations_append hevents]
  simp

theorem Counted.fewer (h : Counted s) (howners : ∀ owner ∈ s'.owners, owner ∈ s.owners)
    (hcount : s'.reRegisterCount = s.reRegisterCount) (hbegun : s'.begun = s.begun)
    (hresets : s'.resets = s.resets)
    (hevents : ∀ id, s'.reRegistrations id = s.reRegistrations id) : Counted s' := by
  refine ⟨hcount ▸ h.count, ?_, ?_, ?_⟩
  · intro owner ho hnewest hcurrent
    rw [hevents, hcount]
    exact h.newest owner (howners owner ho) (hbegun ▸ hnewest) (hresets ▸ hcurrent)
  · intro id hid
    rw [hevents]
    exact h.unborn id (hbegun ▸ hid)
  · intro id
    rw [hevents]
    exact h.bounded id

theorem owner_mem_of_timer {t : Timer} (ht : s.timers = [t]) : t.owner ∈ s.owners := by
  rw [owners, ht]
  simp

/-- Under the guard the count is the number of times that the newest handshake registered
again. -/
theorem Counted.step (hs : Sound s) (h : Counted s) (hisolated : Isolated s) (hcurrent : s.Current a)
    (hsteps : Steps s s' a) : Counted s' := by
  cases hsteps with
  | quiet _ howners hcount hbegun hresets hevents =>
    exact h.fewer (fun owner ho => howners.subset ho) hcount hbegun hresets
      (reRegistrations_eq hevents)
  | begins _ _ howners hcount hbegun hresets hevents =>
    refine ⟨by omega, ?_, ?_, ?_⟩
    · intro owner ho hnewest _
      rw [reRegistrations_eq hevents, hcount]
      exact h.unborn owner.id (by omega)
    · intro id hid
      rw [reRegistrations_eq hevents]
      exact h.unborn id (by omega)
    · intro id
      rw [reRegistrations_eq hevents]
      exact h.bounded id
  | goesOn owner effect _ _ heffect _ howners hcount hbegun hresets hevents =>
    exact h.fewer (fun owner ho => howners.subset ho) hcount hbegun hresets
      (reRegistrations_other hevents heffect)
  | reRegisters t ht hnewest hlt htimers howners hcount hbegun hresets hevents =>
    have hid : t.owner.id + 1 = s.begun := hnewest hcurrent
    have hdone : s.reRegistrations t.owner.id = s.reRegisterCount :=
      h.newest t.owner (owner_mem_of_timer ht) hid (hisolated.2 t (by rw [ht]; simp))
    refine ⟨by omega, ?_, ?_, ?_⟩
    · intro owner ho hnew _
      have hsame : t.owner.id = owner.id := by omega
      rw [reRegistrations_again hevents, if_pos hsame, ← hsame, hdone, hcount]
    · intro id hunborn
      rw [reRegistrations_again hevents, if_neg (by omega), Nat.add_zero]
      exact h.unborn id (by omega)
    · intro id
      rw [reRegistrations_again hevents]
      have hbounded := h.bounded id
      split
      · rename_i hsame
        rw [← hsame, hdone]
        omega
      · omega
  | givesUp t ht hnewest htimers hregisters hcount hbegun hresets hevents =>
    have hother : ∀ id, s'.reRegistrations id = s.reRegistrations id :=
      reRegistrations_other hevents (by decide)
    have hid : t.owner.id + 1 = s.begun := hnewest hcurrent
    refine ⟨by omega, ?_, ?_, ?_⟩
    · -- the newest handshake had the timer, so it has no register
      intro owner ho hnew _
      rw [owners, htimers, hregisters, List.map_nil, List.append_nil] at ho
      have hsingle := hs.single
      rw [owners, ht, List.map_append, List.nodup_append] at hsingle
      have hne := hsingle.2.2 owner.id (List.mem_map_of_mem ho) t.owner.id (by simp)
      omega
    · intro id hunborn
      rw [hother]
      exact h.unborn id (hbegun ▸ hunborn)
    · intro id
      rw [hother]
      exact h.bounded id
  | resets htimers hregisters hcount hbegun hresets hevents =>
    refine ⟨by omega, ?_, ?_, ?_⟩
    · intro owner ho _ hnow
      have hle := hs.resets owner ((owners_of_no_timer htimers hregisters).subset ho)
      omega
    · intro id hunborn
      rw [reRegistrations_eq hevents]
      exact h.unborn id (hbegun ▸ hunborn)
    · intro id
      rw [reRegistrations_eq hevents]
      exact h.bounded id

theorem Isolated.append (h : Isolated s) {effect : Effect} {owner : Handshake}
    (howner : owner.resets = s.resets)
    (hevents : s'.events = s.events ++ [⟨effect, owner, s.resets⟩]) :
    ∀ e ∈ s'.events, e.owner.resets = e.resets := by
  intro e he
  rw [hevents] at he
  rcases List.mem_append.mp he with hold | hnew
  · exact h.1 e hold
  · rw [List.mem_singleton.mp hnew]
    exact howner

/-- Under the guard no reset is followed by an act of a handshake before it. -/
theorem Isolated.step (h : Isolated s) (hcurrent : s.Current a) (hsteps : Steps s s' a) :
    Isolated s' := by
  cases hsteps with
  | quiet htimers _ _ _ hresets hevents =>
    refine ⟨hevents ▸ h.1, ?_⟩
    rcases htimers with hnone | ⟨hsame, -⟩
    · simp [hnone]
    · rw [hsame, hresets]
      exact h.2
  | begins htimers _ _ _ _ hresets hevents =>
    refine ⟨hevents ▸ h.1, ?_⟩
    rw [htimers, hresets]
    exact h.2
  | goesOn owner effect _ hgoesOn _ htimers _ _ _ hresets hevents =>
    refine ⟨h.append (hgoesOn hcurrent) hevents, ?_⟩
    rcases htimers with ⟨hsame, -⟩ | ⟨id, hnew, -⟩
    · rw [hsame, hresets]
      exact h.2
    · intro t ht
      rw [hnew] at ht
      rw [List.mem_singleton.mp ht, hresets]
      exact hgoesOn hcurrent
  | reRegisters t ht _ _ htimers _ _ _ _ hevents =>
    exact ⟨h.append (h.2 t (by rw [ht]; simp)) hevents, by simp [htimers]⟩
  | givesUp t ht _ htimers _ _ _ _ hevents =>
    exact ⟨h.append (h.2 t (by rw [ht]; simp)) hevents, by simp [htimers]⟩
  | resets htimers _ _ _ _ hevents => exact ⟨hevents ▸ h.1, by simp [htimers]⟩

end Kept

/-! ## Runs -/

theorem sound_of_reach {guard : CapabilitiesNegotiator → Action → Prop}
    {s : CapabilitiesNegotiator} (h : negotiator.Reach guard s) : Sound s :=
  h.invariant (fun _ hstart => hstart ▸ Sound.initial)
    fun _ _ _ hs _ hstep => hs.step (step_steps hs.timer hstep)

theorem atMostOneTimer_of_reachable {s : CapabilitiesNegotiator} (h : negotiator.Reachable s) :
    s.timers.length ≤ 1 := by
  rcases (sound_of_reach h).timer with hnone | ⟨t, hone, -⟩
  · rw [hnone]
    exact Nat.zero_le 1
  · rw [hone]
    exact Nat.le_refl 1

/-- A run in which registers go on only for handshakes that no reset has ended, and timeouts
expire only for the newest handshake, keeps the handshakes apart. -/
theorem handshakes_isolated {s : CapabilitiesNegotiator} (h : negotiator.Reach Current s) :
    s.timers.length ≤ 1 ∧ Isolated s ∧ Bounded s := by
  have hkept : Sound s ∧ Counted s ∧ Isolated s := by
    refine h.invariant (I := fun s => Sound s ∧ Counted s ∧ Isolated s) ?_ ?_
    · intro s hstart
      rw [hstart]
      refine ⟨Sound.initial, ⟨Nat.zero_le _, ?_, fun id _ => rfl, fun id => Nat.zero_le _⟩, ?_⟩
      · simp [owners, initial]
      · simp [Isolated, initial]
    · intro s a s' ⟨hs, hcounted, hisolated⟩ hcurrent hstep
      have hsteps := step_steps hs.timer hstep
      exact ⟨hs.step hsteps, hcounted.step hs hisolated hcurrent hsteps,
        hisolated.step hcurrent hsteps⟩
  exact ⟨atMostOneTimer_of_reachable h.reachable, hkept.2.2, hkept.2.1.bounded⟩

/-- A handshake that registers, registers again after a timeout, and is reset. -/
theorem handshakes_isolated_timeout :
    ∃ s : CapabilitiesNegotiator, negotiator.Reach Current s ∧ s.reRegistrations 0 = 1 ∧
      s.resets = 1 ∧ s.timers.length ≤ 1 ∧ Isolated s ∧ Bounded s := by
  let actions : List Action := [.sendRegisterAndStartTimeout, .profileLoaded 0 true,
    .emitted 0 true, .timeout 0, .profileLoaded 0 true, .emitted 0 true, .reset]
  have hallowed : negotiator.Allowed Current initial actions := by
    simp [Machine.Allowed, actions, negotiator, step, Current, sendRegisterAndStartTimeout, begin,
      sendAgentRegister, initial, profileLoaded, record, registered, startTimeoutTimer,
      cancelTimer, timeout, capabilitiesMaxReRegisterAttempts]
  have hreach : negotiator.Reach Current ((negotiator.run initial actions).getD initial) :=
    Machine.Reach.of_run (Machine.Reach.start rfl) actions hallowed rfl
  exact ⟨_, hreach, by decide, by decide, handshakes_isolated hreach⟩

/-- A register that is emitted when a reset comes: its continuation arms a timer for the session
after the reset. -/
theorem handshakes_not_isolated :
    ¬ ∀ s : CapabilitiesNegotiator, negotiator.Reachable s →
      s.timers.length ≤ 1 ∧ Isolated s ∧ Bounded s := by
  intro hall
  let actions : List Action := [.sendRegisterAndStartTimeout, .profileLoaded 0 true, .reset,
    .emitted 0 true]
  have hrun : negotiator.run initial actions = some ((negotiator.run initial actions).getD initial) :=
    rfl
  have hreach : negotiator.Reachable ((negotiator.run initial actions).getD initial) :=
    Machine.reachable_of_run rfl hrun
  have hisolated := (hall _ hreach).2.1.2
  revert hisolated
  decide

end CapabilitiesNegotiator

end PlugAgente.Negotiation
