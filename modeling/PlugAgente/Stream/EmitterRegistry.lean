import PlugAgente.Dart.LinkedMap
import PlugAgente.Stream.EmitterSafety

/-!
# The registry of the stream emitters

`StreamEmitterRegistry` as a machine, beside the emitters it holds.  An emitter is named by
its place in `pool`, so that two stream ids may hold the same one, and it goes on by events of
its own between the calls.  `timers` are all timers that were ever set; one that is not `live`
was cancelled or has fired.

A timer is set, replaced and cancelled with the entry of its stream id.  `Aligned` says so, and
`AlignedBut` is what is left of it while an operation is at one stream id.
-/

namespace PlugAgente.Stream

open Dart (LinkedMap)

variable {ρ κ : Type}

/-- A timer of `_scheduleIdleTimer`, with what its callback holds. -/
structure IdleTimer where
  streamId : String
  emitter : Option Nat
  live : Bool
  deriving DecidableEq, Repr

structure EmitterRegistry (ρ κ : Type) where
  emitters : LinkedMap String Nat := .empty
  idleTimers : LinkedMap String Nat := .empty
  expiredEmitters : Nat := 0
  queuePeak : Nat := 0
  /-- What `_capProvider` returns now. -/
  negotiated : Int
  timers : List IdleTimer := []
  pool : Nat → Emitter ρ κ

/-- The calls, the timers that fire, a new negotiated cap and the emitters' own events. -/
inductive RegistryAction (ρ κ : Type) where
  | tryRegister (streamId : String) (emitter : Nat)
  | touch (streamId : String)
  | unregister (streamId : String) (emitter : Option Nat)
  | expire (timer : Nat)
  | dispose
  | negotiate (cap : Int)
  | own (emitter : Nat) (event : Event ρ κ)

namespace EmitterRegistry

def activeCount (s : EmitterRegistry ρ κ) : Nat :=
  s.emitters.entries.length

def effectiveCap (hardCeiling : Int) (s : EmitterRegistry ρ κ) : Int :=
  if s.negotiated ≤ 0 then hardCeiling
  else if s.negotiated < hardCeiling then s.negotiated
  else hardCeiling

def recordPeak (s : EmitterRegistry ρ κ) (emitter : Nat) : EmitterRegistry ρ κ :=
  { s with queuePeak :=
      if s.queuePeak < (s.pool emitter).queuedPeak then (s.pool emitter).queuedPeak
      else s.queuePeak }

/-- `_recordPeak(emitter)` and `emitter.onTransportLoss()`. -/
def fault (s : EmitterRegistry ρ κ) (emitter : Nat) : EmitterRegistry ρ κ :=
  let s := s.recordPeak emitter
  { s with pool := Function.update s.pool emitter (s.pool emitter).onTransportLoss }

/-- `timer.cancel()`. -/
def cancel (s : EmitterRegistry ρ κ) (timer : Nat) : EmitterRegistry ρ κ :=
  { s with timers := s.timers.modify timer fun t => { t with live := false } }

/-- `_idleTimers.remove(streamId)?.cancel()`. -/
def dropTimer (s : EmitterRegistry ρ κ) (streamId : String) : EmitterRegistry ρ κ :=
  match s.idleTimers.get streamId with
  | none => s
  | some timer => { s with idleTimers := s.idleTimers.remove streamId }.cancel timer

def scheduleIdleTimer (s : EmitterRegistry ρ κ) (streamId : String) : EmitterRegistry ρ κ :=
  let s := s.dropTimer streamId
  { s with
    timers := s.timers ++ [⟨streamId, s.emitters.get streamId, true⟩]
    idleTimers := s.idleTimers.put streamId s.timers.length }

def tryRegister (hardCeiling : Int) (s : EmitterRegistry ρ κ) (streamId : String) (emitter : Nat) :
    EmitterRegistry ρ κ × Bool :=
  match s.emitters.get streamId with
  | some previous =>
    let s := if previous = emitter then s else s.fault previous
    ({ s with emitters := s.emitters.put streamId emitter }.scheduleIdleTimer streamId, true)
  | none =>
    if s.effectiveCap hardCeiling ≤ s.activeCount then (s, false)
    else ({ s with emitters := s.emitters.put streamId emitter }.scheduleIdleTimer streamId, true)

def touch (s : EmitterRegistry ρ κ) (streamId : String) : EmitterRegistry ρ κ :=
  if (s.emitters.get streamId).isSome then s.scheduleIdleTimer streamId else s

def unregister (s : EmitterRegistry ρ κ) (streamId : String) (emitter : Option Nat) :
    EmitterRegistry ρ κ :=
  if emitter.isSome && s.emitters.get streamId != emitter then s
  else
    let s' := match s.emitters.get streamId with
      | some removed => s.recordPeak removed
      | none => s
    { s' with emitters := s.emitters.remove streamId }.dropTimer streamId

/-- The callback of a timer. -/
def onIdle (s : EmitterRegistry ρ κ) (timer : IdleTimer) : EmitterRegistry ρ κ :=
  match timer.emitter with
  | none => s
  | some emitter =>
    if s.emitters.get timer.streamId = some emitter then
      let s := s.fault emitter
      { s with
        emitters := s.emitters.remove timer.streamId
        expiredEmitters := s.expiredEmitters + 1
        idleTimers := s.idleTimers.remove timer.streamId }
    else s

/-- A timer fires, once and unless it was cancelled. -/
def expire (s : EmitterRegistry ρ κ) (timer : Nat) : Option (EmitterRegistry ρ κ) :=
  match s.timers[timer]? with
  | none => none
  | some t => if t.live then some ((s.cancel timer).onIdle t) else none

def dispose (s : EmitterRegistry ρ κ) : EmitterRegistry ρ κ :=
  let s := (s.idleTimers.entries.map Prod.snd).foldl cancel s
  let s := (s.emitters.entries.map Prod.snd).foldl fault { s with idleTimers := .empty }
  { s with emitters := .empty }

/-- An emitter goes on by itself. -/
def own (s : EmitterRegistry ρ κ) (emitter : Nat) (event : Event ρ κ) :
    Option (EmitterRegistry ρ κ) :=
  match (Stream.emitter ρ κ).step (s.pool emitter) event with
  | none => none
  | some next => some { s with pool := Function.update s.pool emitter next }

end EmitterRegistry

def registry (ρ κ : Type) (hardCeiling : Int) :
    Machine (EmitterRegistry ρ κ) (RegistryAction ρ κ) where
  start s := ∃ negotiated pool, (∀ i, (emitter ρ κ).start (pool i)) ∧
    s = { negotiated := negotiated, pool := pool }
  step s
    | .tryRegister streamId emitter => some (s.tryRegister hardCeiling streamId emitter).1
    | .touch streamId => some (s.touch streamId)
    | .unregister streamId emitter => some (s.unregister streamId emitter)
    | .expire timer => s.expire timer
    | .dispose => some s.dispose
    | .negotiate cap => some { s with negotiated := cap }
    | .own emitter event => s.own emitter event

namespace EmitterRegistry

/-! ## The two maps -/

/-- The maps and the live timers have the same stream ids, and each timer holds the emitter of
its stream id. -/
structure Aligned (s : EmitterRegistry ρ κ) : Prop where
  hosted : ∀ id, (s.emitters.get id).isSome = (s.idleTimers.get id).isSome
  listed : ∀ t timer, s.timers[t]? = some timer → timer.live = true →
    s.idleTimers.get timer.streamId = some t
  current : ∀ id t, s.idleTimers.get id = some t →
    s.timers[t]? = some ⟨id, s.emitters.get id, true⟩

/-- The same, but for the emitter at one stream id. -/
structure AlignedBut (s : EmitterRegistry ρ κ) (id : String) : Prop where
  hosted : ∀ k, k ≠ id → (s.emitters.get k).isSome = (s.idleTimers.get k).isSome
  listed : ∀ t timer, s.timers[t]? = some timer → timer.live = true →
    s.idleTimers.get timer.streamId = some t
  current : ∀ k t, s.idleTimers.get k = some t →
    ∃ e, s.timers[t]? = some ⟨k, e, true⟩ ∧ (k ≠ id → e = s.emitters.get k)

theorem Aligned.but {s : EmitterRegistry ρ κ} (h : s.Aligned) {id : String}
    {emitters : LinkedMap String Nat} (hget : ∀ k, k ≠ id → emitters.get k = s.emitters.get k) :
    AlignedBut { s with emitters := emitters } id := by
  refine ⟨?_, h.listed, ?_⟩
  · intro k hk
    rw [hget k hk]
    exact h.hosted k
  · intro k t ht
    exact ⟨_, h.current k t ht, fun hk => (hget k hk).symm⟩

@[simp] theorem dropTimer_emitters (s : EmitterRegistry ρ κ) (id : String) :
    (s.dropTimer id).emitters = s.emitters := by
  unfold dropTimer
  split <;> rfl

@[simp] theorem dropTimer_pool (s : EmitterRegistry ρ κ) (id : String) :
    (s.dropTimer id).pool = s.pool := by
  unfold dropTimer
  split <;> rfl

theorem AlignedBut.dropTimer {s : EmitterRegistry ρ κ} {id : String} (h : s.AlignedBut id) :
    (s.dropTimer id).AlignedBut id ∧ (s.dropTimer id).idleTimers.get id = none := by
  unfold EmitterRegistry.dropTimer
  split
  · rename_i hnone
    exact ⟨h, hnone⟩
  · rename_i timer htimer
    obtain ⟨held, hheld, -⟩ := h.current id timer htimer
    have hidle : ∀ k, (s.idleTimers.remove id).get k =
        if k = id then none else s.idleTimers.get k := fun k => LinkedMap.get_remove _ id k
    refine ⟨⟨?_, ?_, ?_⟩, (hidle id).trans (if_pos rfl)⟩
    · intro k hk
      show _ = ((s.idleTimers.remove id).get k).isSome
      rw [hidle, if_neg hk]
      exact h.hosted k hk
    · intro t found hfound hlive
      have hmodify : (s.timers.modify timer fun t => { t with live := false })[t]? = some found :=
        hfound
      rw [List.getElem?_modify] at hmodify
      obtain ⟨before, hbefore, heq⟩ := Option.map_eq_some_iff.mp hmodify
      by_cases ht : timer = t
      · rw [if_pos ht] at heq
        rw [← heq] at hlive
        simp at hlive
      · rw [if_neg ht] at heq
        obtain rfl : before = found := heq
        have hlisted := h.listed t before hbefore hlive
        show (s.idleTimers.remove id).get before.streamId = some t
        rw [hidle, if_neg]
        · exact hlisted
        · intro hid
          rw [hid, htimer] at hlisted
          exact ht (Option.some.inj hlisted)
    · intro k t ht
      have hk : (s.idleTimers.remove id).get k = some t := ht
      rw [hidle] at hk
      by_cases hid : k = id
      · simp [hid] at hk
      · rw [if_neg hid] at hk
        obtain ⟨e, he, hcurrent⟩ := h.current k t hk
        refine ⟨e, ?_, hcurrent⟩
        have hne : timer ≠ t := by
          rintro rfl
          rw [hheld] at he
          exact hid (congrArg IdleTimer.streamId (Option.some.inj he)).symm
        show (s.timers.modify timer fun t => { t with live := false })[t]? = _
        rw [List.getElem?_modify, he]
        simp [hne]

theorem AlignedBut.closed {s : EmitterRegistry ρ κ} {id : String} (h : s.AlignedBut id)
    (hemitter : s.emitters.get id = none) (htimer : s.idleTimers.get id = none) : s.Aligned := by
  refine ⟨?_, h.listed, ?_⟩
  · intro k
    by_cases hk : k = id
    · rw [hk, hemitter, htimer]
    · exact h.hosted k hk
  · intro k t ht
    obtain ⟨e, he, hcurrent⟩ := h.current k t ht
    have hk : k ≠ id := by
      rintro rfl
      simp [htimer] at ht
    rw [he, hcurrent hk]

@[simp] theorem scheduleIdleTimer_emitters (s : EmitterRegistry ρ κ) (id : String) :
    (s.scheduleIdleTimer id).emitters = s.emitters :=
  s.dropTimer_emitters id

@[simp] theorem scheduleIdleTimer_pool (s : EmitterRegistry ρ κ) (id : String) :
    (s.scheduleIdleTimer id).pool = s.pool :=
  s.dropTimer_pool id

theorem AlignedBut.scheduleIdleTimer {s : EmitterRegistry ρ κ} {id : String}
    (h : s.AlignedBut id) (hsome : (s.emitters.get id).isSome = true) :
    (s.scheduleIdleTimer id).Aligned := by
  obtain ⟨hbut, hnone⟩ := h.dropTimer
  unfold EmitterRegistry.scheduleIdleTimer
  rw [← s.dropTimer_emitters id] at hsome
  generalize s.dropTimer id = s at hbut hnone hsome
  have hidle : ∀ k, (s.idleTimers.put id s.timers.length).get k =
      if k = id then some s.timers.length else s.idleTimers.get k :=
    fun k => LinkedMap.get_put _ id _ k
  refine ⟨?_, ?_, ?_⟩
  · intro k
    show (s.emitters.get k).isSome = ((s.idleTimers.put id s.timers.length).get k).isSome
    rw [hidle]
    by_cases hk : k = id
    · rw [if_pos hk, hk, hsome]
      rfl
    · rw [if_neg hk]
      exact hbut.hosted k hk
  · intro t timer ht hlive
    show (s.idleTimers.put id s.timers.length).get timer.streamId = some t
    rw [hidle]
    have happend : (s.timers ++ [⟨id, s.emitters.get id, true⟩])[t]? = some timer := ht
    rcases Nat.lt_or_ge t s.timers.length with hlt | hge
    · rw [List.getElem?_append_left hlt] at happend
      have hlisted := hbut.listed t timer happend hlive
      rw [if_neg]
      · exact hlisted
      · rintro hid
        simp [hid, hnone] at hlisted
    · rw [List.getElem?_append_right hge, List.getElem?_singleton] at happend
      split at happend
      · obtain rfl := Option.some.inj happend
        rw [if_pos rfl]
        congr 1
        omega
      · simp at happend
  · intro k t ht
    have hget : (s.idleTimers.put id s.timers.length).get k = some t := ht
    show (s.timers ++ [⟨id, s.emitters.get id, true⟩])[t]? = some ⟨k, s.emitters.get k, true⟩
    rw [hidle] at hget
    by_cases hk : k = id
    · rw [if_pos hk] at hget
      obtain rfl := Option.some.inj hget
      rw [List.getElem?_append_right (le_refl _), Nat.sub_self, hk]
      rfl
    · rw [if_neg hk] at hget
      obtain ⟨e, he, hcurrent⟩ := hbut.current k t hget
      have hlt : t < s.timers.length := (List.getElem?_eq_some_iff.mp he).1
      rw [List.getElem?_append_left hlt, he, hcurrent hk]

/-! ## The operations -/

theorem tryRegister_cases (hardCeiling : Int) (s : EmitterRegistry ρ κ) (id : String) (e : Nat) :
    (s.tryRegister hardCeiling id e).1 = s ∨
      ∃ s' : EmitterRegistry ρ κ,
        (s' = s ∧ (∀ previous, s.emitters.get id = some previous → previous = e) ∨
          ∃ previous, s.emitters.get id = some previous ∧ s' = s.fault previous) ∧
        (s.emitters.get id = none → (s.activeCount : Int) < s.effectiveCap hardCeiling) ∧
        (s.tryRegister hardCeiling id e).1 =
          { s' with emitters := s.emitters.put id e }.scheduleIdleTimer id := by
  unfold tryRegister
  split
  · rename_i previous hprevious
    right
    by_cases hsame : previous = e
    · refine ⟨s, .inl ⟨rfl, ?_⟩, by simp [hprevious], ?_⟩
      · intro other hother
        rw [← hsame]
        exact (Option.some.inj (hprevious.symm.trans hother)).symm
      · simp only [if_pos hsame]
    · refine ⟨s.fault previous, .inr ⟨previous, hprevious, rfl⟩, by simp [hprevious], ?_⟩
      simp only [if_neg hsame]
      rfl
  · rename_i hnone
    split
    · exact .inl rfl
    · rename_i hcap
      exact .inr ⟨s, .inl ⟨rfl, by simp [hnone]⟩, fun _ => by omega, rfl⟩

theorem Aligned.tryRegister {s : EmitterRegistry ρ κ} (h : s.Aligned) (hardCeiling : Int)
    (id : String) (e : Nat) : (s.tryRegister hardCeiling id e).1.Aligned := by
  rcases s.tryRegister_cases hardCeiling id e with heq | ⟨s', hs', -, heq⟩
  · rw [heq]
    exact h
  · rw [heq]
    have haligned : s'.Aligned ∧ s'.emitters = s.emitters := by
      rcases hs' with ⟨rfl, -⟩ | ⟨previous, -, rfl⟩
      · exact ⟨h, rfl⟩
      · exact ⟨⟨h.hosted, h.listed, h.current⟩, rfl⟩
    refine (haligned.1.but ?_).scheduleIdleTimer ?_
    · intro k hk
      rw [LinkedMap.get_put, if_neg hk, haligned.2]
    · rw [LinkedMap.get_put, if_pos rfl]
      rfl

theorem Aligned.touch {s : EmitterRegistry ρ κ} (h : s.Aligned) (id : String) :
    (s.touch id).Aligned := by
  unfold EmitterRegistry.touch
  split
  · rename_i hsome
    have hbut : s.AlignedBut id := h.but (fun _ _ => rfl)
    exact hbut.scheduleIdleTimer hsome
  · exact h

theorem unregister_other {s : EmitterRegistry ρ κ} {id : String} {e : Nat}
    (h : s.emitters.get id ≠ some e) : s.unregister id (some e) = s := by
  unfold unregister
  rw [if_pos]
  simpa using h

theorem unregister_cases (s : EmitterRegistry ρ κ) (id : String) (e : Option Nat) :
    s.unregister id e = s ∨
      ∃ peak, s.unregister id e =
        { s with emitters := s.emitters.remove id, queuePeak := peak }.dropTimer id := by
  unfold unregister
  split
  · exact .inl rfl
  · right
    cases s.emitters.get id with
    | none => exact ⟨s.queuePeak, rfl⟩
    | some removed => exact ⟨_, rfl⟩

theorem Aligned.remove {s : EmitterRegistry ρ κ} (h : s.Aligned) (id : String) :
    ({ s with emitters := s.emitters.remove id }.dropTimer id).Aligned := by
  have hothers : ∀ k, k ≠ id → (s.emitters.remove id).get k = s.emitters.get k := by
    intro k hk
    rw [LinkedMap.get_remove, if_neg hk]
  obtain ⟨hbut, hnone⟩ := (h.but hothers).dropTimer
  refine hbut.closed ?_ hnone
  rw [dropTimer_emitters, LinkedMap.get_remove, if_pos rfl]

theorem Aligned.unregister {s : EmitterRegistry ρ κ} (h : s.Aligned) (id : String)
    (e : Option Nat) : (s.unregister id e).Aligned := by
  rcases s.unregister_cases id e with heq | ⟨peak, heq⟩
  · rw [heq]
    exact h
  · have hpeak : Aligned { s with queuePeak := peak } := ⟨h.hosted, h.listed, h.current⟩
    rw [heq]
    exact hpeak.remove id

theorem Aligned.expire_cases {s s' : EmitterRegistry ρ κ} (h : s.Aligned) {timer : Nat}
    (hstep : s.expire timer = some s') :
    ∃ id e, s.timers[timer]? = some ⟨id, some e, true⟩ ∧ s.emitters.get id = some e ∧
      s.idleTimers.get id = some timer ∧
      s' = { (s.cancel timer).fault e with
        emitters := s.emitters.remove id
        expiredEmitters := s.expiredEmitters + 1
        idleTimers := s.idleTimers.remove id } := by
  unfold expire at hstep
  split at hstep
  · simp at hstep
  · rename_i t ht
    split at hstep
    · rename_i hlive
      have hlisted := h.listed timer t ht hlive
      have hcurrent := h.current t.streamId timer hlisted
      have hhosted := h.hosted t.streamId
      rw [hlisted] at hhosted
      obtain ⟨e, he⟩ := Option.isSome_iff_exists.mp hhosted
      have hheld : t = ⟨t.streamId, some e, true⟩ := by
        rw [← he]
        exact Option.some.inj (ht.symm.trans hcurrent)
      refine ⟨t.streamId, e, by rw [← hheld, ht], he, hlisted, ?_⟩
      rw [← Option.some.inj hstep, hheld]
      exact if_pos he
    · simp at hstep

theorem Aligned.expire {s s' : EmitterRegistry ρ κ} (h : s.Aligned) {timer : Nat}
    (hstep : s.expire timer = some s') : s'.Aligned := by
  obtain ⟨id, e, -, -, hidle, rfl⟩ := h.expire_cases hstep
  have hremove := h.remove id
  unfold EmitterRegistry.dropTimer at hremove
  simp only [hidle] at hremove
  exact ⟨hremove.hosted, hremove.listed, hremove.current⟩

theorem foldl_cancel (cancelled : List Nat) (s : EmitterRegistry ρ κ) :
    (cancelled.foldl cancel s).emitters = s.emitters ∧ (cancelled.foldl cancel s).pool = s.pool ∧
      ∀ t timer, (cancelled.foldl cancel s).timers[t]? = some timer → timer.live = true →
        t ∉ cancelled ∧ s.timers[t]? = some timer := by
  induction cancelled generalizing s with
  | nil => exact ⟨rfl, rfl, fun t timer ht _ => ⟨List.not_mem_nil, ht⟩⟩
  | cons first cancelled ih =>
    obtain ⟨hemitters, hpool, htimers⟩ := ih (s.cancel first)
    refine ⟨hemitters, hpool, ?_⟩
    intro t timer ht hlive
    obtain ⟨hnot, hmodify⟩ := htimers t timer ht hlive
    unfold cancel at hmodify
    rw [List.getElem?_modify] at hmodify
    obtain ⟨before, hbefore, heq⟩ := Option.map_eq_some_iff.mp hmodify
    by_cases hfirst : first = t
    · rw [if_pos hfirst] at heq
      rw [← heq] at hlive
      simp at hlive
    · rw [if_neg hfirst] at heq
      obtain rfl : before = timer := heq
      exact ⟨by simp [hnot, Ne.symm hfirst], hbefore⟩

theorem foldl_fault (faulted : List Nat) (s : EmitterRegistry ρ κ) :
    (faulted.foldl fault s).idleTimers = s.idleTimers ∧
      (faulted.foldl fault s).timers = s.timers := by
  induction faulted generalizing s with
  | nil => exact ⟨rfl, rfl⟩
  | cons first faulted ih => exact ih (s.fault first)

theorem Aligned.dispose {s : EmitterRegistry ρ κ} (h : s.Aligned) : s.dispose.Aligned := by
  obtain ⟨-, -, htimers⟩ := foldl_cancel (s.idleTimers.entries.map Prod.snd) s
  unfold EmitterRegistry.dispose
  generalize (s.idleTimers.entries.map Prod.snd).foldl cancel s = u at htimers
  obtain ⟨hidle, hsame⟩ :=
    foldl_fault (u.emitters.entries.map Prod.snd) { u with idleTimers := .empty }
  have hempty : ∀ k, (LinkedMap.empty : LinkedMap String Nat).get k = none := fun _ => rfl
  refine ⟨?_, ?_, ?_⟩
  · intro k
    simp only [hidle, hempty]
  · intro t timer ht hlive
    rw [hsame] at ht
    obtain ⟨hnot, hbefore⟩ := htimers t timer ht hlive
    have hlisted := LinkedMap.get_eq_some_iff.mp (h.listed t timer hbefore hlive)
    exact absurd (List.mem_map_of_mem (f := Prod.snd) hlisted) hnot
  · intro k t ht
    simp [hidle, hempty] at ht

theorem own_cases {s s' : EmitterRegistry ρ κ} {i : Nat} {event : Event ρ κ}
    (hstep : s.own i event = some s') :
    ∃ next, (emitter ρ κ).step (s.pool i) event = some next ∧
      s' = { s with pool := Function.update s.pool i next } := by
  unfold own at hstep
  split at hstep
  · simp at hstep
  · rename_i next hnext
    exact ⟨next, hnext, (Option.some.inj hstep).symm⟩

theorem Aligned.step {hardCeiling : Int} {s s' : EmitterRegistry ρ κ} (h : s.Aligned)
    {action : RegistryAction ρ κ} (hstep : (registry ρ κ hardCeiling).step s action = some s') :
    s'.Aligned := by
  cases action with
  | tryRegister id e =>
    rw [← Option.some.inj hstep]
    exact h.tryRegister hardCeiling id e
  | touch id =>
    rw [← Option.some.inj hstep]
    exact h.touch id
  | unregister id e =>
    rw [← Option.some.inj hstep]
    exact h.unregister id e
  | expire timer => exact h.expire hstep
  | dispose =>
    rw [← Option.some.inj hstep]
    exact h.dispose
  | negotiate cap =>
    rw [← Option.some.inj hstep]
    exact ⟨h.hosted, h.listed, h.current⟩
  | own i event =>
    obtain ⟨next, -, rfl⟩ := own_cases hstep
    exact ⟨h.hosted, h.listed, h.current⟩

/-! ## The number of emitters -/

theorem effectiveCap_le (hardCeiling : Int) (s : EmitterRegistry ρ κ) :
    s.effectiveCap hardCeiling ≤ hardCeiling := by
  unfold effectiveCap
  split
  · exact le_refl _
  · split <;> omega

theorem activeCount_remove (s : EmitterRegistry ρ κ) (id : String) :
    (s.emitters.remove id).entries.length ≤ s.activeCount :=
  LinkedMap.length_removeWhere_le _ _

theorem activeCount_step {hardCeiling : Int} {s s' : EmitterRegistry ρ κ} (h : s.Aligned)
    {action : RegistryAction ρ κ} (hstep : (registry ρ κ hardCeiling).step s action = some s') :
    s'.activeCount ≤ s.activeCount ∨
      s'.activeCount = s.activeCount + 1 ∧ (s.activeCount : Int) < s.effectiveCap hardCeiling := by
  cases action with
  | tryRegister id e =>
    rw [← Option.some.inj hstep]
    rcases s.tryRegister_cases hardCeiling id e with heq | ⟨s', -, hcap, heq⟩
    · rw [heq]
      exact .inl (le_refl _)
    · have hput := s.emitters.length_put_le id e
      have hcount : (s.tryRegister hardCeiling id e).1.activeCount =
          (s.emitters.put id e).entries.length := by
        rw [heq, activeCount, scheduleIdleTimer_emitters]
      rw [hcount]
      split at hput
      · exact .inl hput
      · rename_i hkey
        have hlt := hcap (LinkedMap.get_eq_none_iff.mpr hkey)
        unfold activeCount at hlt ⊢
        omega
  | touch id =>
    rw [← Option.some.inj hstep]
    left
    show (s.touch id).emitters.entries.length ≤ _
    unfold touch
    split
    · rw [scheduleIdleTimer_emitters]
      exact le_refl _
    · exact le_refl _
  | unregister id e =>
    rw [← Option.some.inj hstep]
    left
    show (s.unregister id e).emitters.entries.length ≤ _
    rcases s.unregister_cases id e with heq | ⟨peak, heq⟩
    · rw [heq]
      exact le_refl _
    · rw [heq, dropTimer_emitters]
      exact s.activeCount_remove id
  | expire timer =>
    obtain ⟨id, e, -, -, -, rfl⟩ := h.expire_cases hstep
    exact .inl (s.activeCount_remove id)
  | dispose =>
    rw [← Option.some.inj hstep]
    exact .inl (Nat.zero_le _)
  | negotiate cap =>
    rw [← Option.some.inj hstep]
    exact .inl (le_refl _)
  | own i event =>
    obtain ⟨next, -, rfl⟩ := own_cases hstep
    exact .inl (le_refl _)

/-! ## The emitters -/

theorem fault_pool (s : EmitterRegistry ρ κ) (e i : Nat) :
    (s.fault e).pool i = if i = e then (s.pool i).onTransportLoss else s.pool i := by
  show Function.update s.pool e _ i = _
  rw [Function.update_apply]
  by_cases h : i = e <;> simp [h, recordPeak]

theorem leads_fault {s : EmitterRegistry ρ κ} {p : Emitter ρ κ} {i : Nat}
    (h : (emitter ρ κ).Leads p (s.pool i)) (e : Nat) :
    (emitter ρ κ).Leads p ((s.fault e).pool i) := by
  rw [fault_pool]
  split
  · exact Machine.Leads.step (a := .onTransportLoss) h rfl
  · exact h

theorem leads_foldl_fault (faulted : List Nat) {s : EmitterRegistry ρ κ} {p : Emitter ρ κ} {i : Nat}
    (h : (emitter ρ κ).Leads p (s.pool i)) :
    (emitter ρ κ).Leads p ((faulted.foldl fault s).pool i) := by
  induction faulted generalizing s with
  | nil => exact h
  | cons first faulted ih => exact ih (leads_fault h first)

theorem foldl_fault_lost (faulted : List Nat) (s : EmitterRegistry ρ κ) (i : Nat) :
    ((faulted.foldl fault s).pool i).frames = (s.pool i).frames ∧
      (i ∈ faulted ∨ (s.pool i).lost = true → ((faulted.foldl fault s).pool i).lost = true) := by
  induction faulted generalizing s with
  | nil => exact ⟨rfl, fun h => h.resolve_left List.not_mem_nil⟩
  | cons first faulted ih =>
    obtain ⟨hframes, hlost⟩ := ih (s.fault first)
    rw [fault_pool] at hframes hlost
    constructor
    · rw [List.foldl_cons, hframes]
      split <;> rfl
    · intro hor
      refine hlost ?_
      rw [List.mem_cons] at hor
      rcases hor with (hi | hmem) | hbefore
      · exact .inr (by rw [if_pos hi]; rfl)
      · exact .inl hmem
      · right
        split
        · rfl
        · exact hbefore

theorem leads_step {hardCeiling : Int} {s s' : EmitterRegistry ρ κ} (h : s.Aligned)
    {action : RegistryAction ρ κ} (hstep : (registry ρ κ hardCeiling).step s action = some s')
    {p : Emitter ρ κ} {i : Nat} (hp : (emitter ρ κ).Leads p (s.pool i)) :
    (emitter ρ κ).Leads p (s'.pool i) := by
  cases action with
  | tryRegister id e =>
    rw [← Option.some.inj hstep]
    rcases s.tryRegister_cases hardCeiling id e with heq | ⟨s', hs', -, heq⟩
    · rw [heq]
      exact hp
    · rw [heq, scheduleIdleTimer_pool]
      rcases hs' with ⟨rfl, -⟩ | ⟨previous, -, rfl⟩
      · exact hp
      · exact leads_fault hp previous
  | touch id =>
    rw [← Option.some.inj hstep]
    show (emitter ρ κ).Leads p ((s.touch id).pool i)
    unfold touch
    split
    · rw [scheduleIdleTimer_pool]
      exact hp
    · exact hp
  | unregister id e =>
    rw [← Option.some.inj hstep]
    rcases s.unregister_cases id e with heq | ⟨peak, heq⟩
    · rw [heq]
      exact hp
    · rw [heq, dropTimer_pool]
      exact hp
  | expire timer =>
    obtain ⟨id, e, -, -, -, rfl⟩ := h.expire_cases hstep
    exact leads_fault (s := s.cancel timer) hp e
  | dispose =>
    rw [← Option.some.inj hstep]
    obtain ⟨hemitters, hpool, -⟩ := foldl_cancel (s.idleTimers.entries.map Prod.snd) s
    refine leads_foldl_fault _ ?_
    rw [hpool]
    exact hp
  | negotiate cap =>
    rw [← Option.some.inj hstep]
    exact hp
  | own j event =>
    obtain ⟨next, hnext, rfl⟩ := own_cases hstep
    show (emitter ρ κ).Leads p (Function.update s.pool j next i)
    rw [Function.update_apply]
    split
    · rename_i hij
      rw [hij] at hp
      exact hp.step hnext
    · exact hp

theorem lost_of_leaves {hardCeiling : Int} {s s' : EmitterRegistry ρ κ} (h : s.Aligned)
    {action : RegistryAction ρ κ} (hstep : (registry ρ κ hardCeiling).step s action = some s')
    (haction : ∀ id e, action ≠ .unregister id e) {id : String} {e : Nat}
    (hheld : s.emitters.get id = some e) (hleaves : s'.emitters.get id ≠ some e) :
    (s'.pool e).lost = true ∧ (s'.pool e).frames = (s.pool e).frames := by
  cases action with
  | tryRegister k f =>
    rw [← Option.some.inj hstep] at hleaves ⊢
    rcases s.tryRegister_cases hardCeiling k f with heq | ⟨s', hs', -, heq⟩
    · rw [heq] at hleaves
      exact absurd hheld hleaves
    · simp only [heq, scheduleIdleTimer_emitters, scheduleIdleTimer_pool, LinkedMap.get_put]
        at hleaves ⊢
      by_cases hk : id = k
      · rw [if_pos hk] at hleaves
        rw [hk] at hheld
        rcases hs' with ⟨-, hsame⟩ | ⟨previous, hprevious, rfl⟩
        · exact absurd (congrArg some (hsame e hheld).symm) hleaves
        · obtain rfl : e = previous := Option.some.inj (hheld.symm.trans hprevious)
          rw [fault_pool, if_pos rfl]
          exact ⟨rfl, rfl⟩
      · rw [if_neg hk] at hleaves
        exact absurd hheld hleaves
  | touch k =>
    rw [← Option.some.inj hstep] at hleaves
    change (s.touch k).emitters.get id ≠ some e at hleaves
    unfold touch at hleaves
    split at hleaves
    · rw [scheduleIdleTimer_emitters] at hleaves
      exact absurd hheld hleaves
    · exact absurd hheld hleaves
  | unregister k f => exact absurd rfl (haction k f)
  | expire timer =>
    obtain ⟨k, f, -, hf, -, rfl⟩ := h.expire_cases hstep
    change (s.emitters.remove k).get id ≠ some e at hleaves
    rw [LinkedMap.get_remove] at hleaves
    by_cases hk : id = k
    · rw [hk] at hheld
      obtain rfl : e = f := Option.some.inj (hheld.symm.trans hf)
      show (((s.cancel timer).fault e).pool e).lost = true ∧
        (((s.cancel timer).fault e).pool e).frames = _
      rw [fault_pool, if_pos rfl]
      exact ⟨rfl, rfl⟩
    · rw [if_neg hk] at hleaves
      exact absurd hheld hleaves
  | dispose =>
    rw [← Option.some.inj hstep]
    obtain ⟨hemitters, hpool, -⟩ := foldl_cancel (s.idleTimers.entries.map Prod.snd) s
    have hmem : e ∈ s.emitters.entries.map Prod.snd :=
      List.mem_map_of_mem (f := Prod.snd) (LinkedMap.get_eq_some_iff.mp hheld)
    rw [← hemitters] at hmem
    obtain ⟨hframes, hlost⟩ := foldl_fault_lost _
      { (s.idleTimers.entries.map Prod.snd).foldl cancel s with idleTimers := .empty } e
    refine ⟨hlost (.inl hmem), hframes.trans ?_⟩
    show (((s.idleTimers.entries.map Prod.snd).foldl cancel s).pool e).frames = _
    rw [hpool]
  | negotiate cap =>
    rw [← Option.some.inj hstep] at hleaves
    exact absurd hheld hleaves
  | own j event =>
    obtain ⟨next, -, rfl⟩ := own_cases hstep
    exact absurd hheld hleaves

/-! ## The discipline -/

theorem aligned_of_reachable {hardCeiling : Int} {s : EmitterRegistry ρ κ}
    (h : (registry ρ κ hardCeiling).Reachable s) : s.Aligned := by
  refine h.invariant ?_ ?_
  · rintro s ⟨negotiated, pool, -, rfl⟩
    refine ⟨fun _ => rfl, by simp, ?_⟩
    intro id t ht
    simp [LinkedMap.get, LinkedMap.empty] at ht
  · intro s action s' hs _ hstep
    exact hs.step hstep

theorem activeCount_of_reachable {hardCeiling : Int} {s : EmitterRegistry ρ κ}
    (h : (registry ρ κ hardCeiling).Reachable s) : (s.activeCount : Int) ≤ max hardCeiling 0 := by
  induction h with
  | start h =>
    obtain ⟨negotiated, pool, -, rfl⟩ := h
    exact le_max_right _ _
  | @step s s' action hs _ hstep ih =>
    have hcap := s.effectiveCap_le hardCeiling
    have hcount := activeCount_step (aligned_of_reachable hs) hstep
    omega

theorem pool_of_reachable {hardCeiling : Int} {s : EmitterRegistry ρ κ}
    (h : (registry ρ κ hardCeiling).Reachable s) (i : Nat) :
    (emitter ρ κ).Reachable (s.pool i) := by
  induction h with
  | start h =>
    obtain ⟨negotiated, pool, hpool, rfl⟩ := h
    exact Machine.Reach.start (hpool i)
  | step hs _ hstep ih =>
    exact (leads_step (aligned_of_reachable hs) hstep Machine.Leads.refl).reachable ih

theorem leads_pool {hardCeiling : Int} {s t : EmitterRegistry ρ κ} (h : s.Aligned)
    (hleads : (registry ρ κ hardCeiling).Leads s t) (i : Nat) :
    (emitter ρ κ).Leads (s.pool i) (t.pool i) := by
  have hkept := hleads.keeps (I := fun u => u.Aligned ∧
    (emitter ρ κ).Leads (s.pool i) (u.pool i)) ?_ ⟨h, .refl⟩
  · exact hkept.2
  · intro u action u' hu hstep
    exact ⟨hu.1.step hstep, leads_step hu.1 hstep hu.2⟩

/-- What the registry promises. -/
structure Disciplined (hardCeiling : Int) (s : EmitterRegistry ρ κ) : Prop where
  /-- The two maps have the same stream ids. -/
  hosted : ∀ id, (s.emitters.get id).isSome = (s.idleTimers.get id).isSome
  /-- A stream id has an emitter exactly when it has a live timer. -/
  timed : ∀ id, (s.emitters.get id).isSome = true ↔
    ∃ timer ∈ s.timers, timer.live = true ∧ timer.streamId = id
  single : ∀ (t u : Nat) (timer other : IdleTimer), s.timers[t]? = some timer →
    s.timers[u]? = some other → timer.live = true → other.live = true →
    timer.streamId = other.streamId → t = u
  bounded : 0 ≤ hardCeiling → (s.activeCount : Int) ≤ hardCeiling
  grows : ∀ action s', (registry ρ κ hardCeiling).step s action = some s' →
    s.activeCount < s'.activeCount →
    (s.activeCount : Int) < s.effectiveCap hardCeiling ∧ s'.activeCount = s.activeCount + 1
  /-- An emitter that is replaced, expires or is disposed of is faulted, then and later, and
  emits nothing more. -/
  faulted : ∀ action s', (registry ρ κ hardCeiling).step s action = some s' →
    (∀ id e, action ≠ .unregister id e) →
    ∀ id e, s.emitters.get id = some e → s'.emitters.get id ≠ some e →
    ∀ t, (registry ρ κ hardCeiling).Leads s' t →
      (t.pool e).isFaulted = true ∧ (t.pool e).frames = (s.pool e).frames
  /-- The callback of a timer of another emitter takes nothing away. -/
  oldExpiry : ∀ timer id e, s.emitters.get id = some e → timer.emitter ≠ some e →
    (s.onIdle timer).emitters.get id = some e
  expires : ∀ timer s', s.expire timer = some s' → ∀ id e, s.emitters.get id = some e →
    s'.emitters.get id ≠ some e → ∃ held, s.timers[timer]? = some held ∧ held.emitter = some e
  /-- Nor does an `unregister` of another emitter. -/
  oldUnregister : ∀ id k e f, s.emitters.get id = some e → f ≠ e →
    (s.unregister k (some f)).emitters.get id = some e

theorem onIdle_other {s : EmitterRegistry ρ κ} {timer : IdleTimer} {id : String} {e : Nat}
    (hheld : s.emitters.get id = some e) (hother : timer.emitter ≠ some e) :
    (s.onIdle timer).emitters.get id = some e := by
  unfold onIdle
  split
  · exact hheld
  · rename_i f hf
    split
    · rename_i hcurrent
      show (s.emitters.remove timer.streamId).get id = some e
      rw [LinkedMap.get_remove, if_neg]
      · exact hheld
      · intro hid
        rw [← hid, hheld] at hcurrent
        exact hother (hf.trans hcurrent.symm)
    · exact hheld

theorem unregister_kept {s : EmitterRegistry ρ κ} {id k : String} {e f : Nat}
    (hheld : s.emitters.get id = some e) (hother : f ≠ e) :
    (s.unregister k (some f)).emitters.get id = some e := by
  by_cases hk : id = k
  · rw [← hk, unregister_other]
    · exact hheld
    · rw [hheld]
      exact fun h => hother (Option.some.inj h).symm
  · rcases s.unregister_cases k (some f) with heq | ⟨peak, heq⟩
    · rw [heq]
      exact hheld
    · rw [heq, dropTimer_emitters]
      show (s.emitters.remove k).get id = some e
      rw [LinkedMap.get_remove, if_neg hk]
      exact hheld

/-- The discipline holds in every state that is reached, whatever the order of the calls, the
timers, the emitters' own events and the changes of the cap. -/
theorem disciplined {hardCeiling : Int} {s : EmitterRegistry ρ κ}
    (h : (registry ρ κ hardCeiling).Reachable s) : s.Disciplined hardCeiling := by
  have haligned := aligned_of_reachable h
  constructor
  case hosted => exact haligned.hosted
  case timed =>
    intro id
    rw [haligned.hosted]
    constructor
    · intro hsome
      obtain ⟨t, ht⟩ := Option.isSome_iff_exists.mp hsome
      exact ⟨_, List.mem_of_getElem? (haligned.current id t ht), rfl, rfl⟩
    · rintro ⟨timer, hmem, hlive, rfl⟩
      obtain ⟨t, ht⟩ := List.mem_iff_getElem?.mp hmem
      rw [haligned.listed t timer ht hlive]
      rfl
  case single =>
    intro t u timer other ht hu hlive hother hid
    have hfirst := haligned.listed t timer ht hlive
    rw [hid, haligned.listed u other hu hother] at hfirst
    exact (Option.some.inj hfirst).symm
  case bounded =>
    intro hpos
    have hcount := activeCount_of_reachable h
    omega
  case grows =>
    intro action s' hstep hlt
    have hcount := activeCount_step haligned hstep
    omega
  case faulted =>
    intro action s' hstep haction id e hheld hleaves t hleads
    obtain ⟨hlost, hframes⟩ := lost_of_leaves haligned hstep haction hheld hleaves
    have hsound := Emitter.sound_of_reachable (pool_of_reachable (h.step trivial hstep) e)
    have hpool := leads_pool (haligned.step hstep) hleads e
    have hend : (s'.pool e).ended = true := by simp [Emitter.ended, hlost]
    obtain ⟨hsound', hlost'⟩ := hpool.keeps (I := fun u => u.Sound ∧ u.lost = true) (by
      intro u event u' hu hstep
      have hended : u.ended = true := by simp [Emitter.ended, hu.2]
      exact ⟨hu.1.step hstep, (hu.1.quiet_step hended hstep).loss hu.2⟩) ⟨hsound, hlost⟩
    exact ⟨hsound'.core.loss hlost', (hsound.frames_of_leads hend hpool).trans hframes⟩
  case oldExpiry => exact fun timer id e hheld hother => onIdle_other hheld hother
  case expires =>
    intro timer s' hstep id e hheld hleaves
    obtain ⟨k, f, htimer, hf, -, rfl⟩ := haligned.expire_cases hstep
    change (s.emitters.remove k).get id ≠ some e at hleaves
    rw [LinkedMap.get_remove] at hleaves
    by_cases hk : id = k
    · rw [hk] at hheld
      exact ⟨_, htimer, hf.symm.trans hheld⟩
    · rw [if_neg hk] at hleaves
      exact absurd hheld hleaves
  case oldUnregister => exact fun id k e f hheld hother => unregister_kept hheld hother

/-- A stream id is taken over, and the new emitter expires. -/
def takenOver : List (RegistryAction Nat Nat) :=
  [.tryRegister "s" 0, .own 0 (.emitChunk ⟨"s", 1⟩ true), .tryRegister "s" 1,
    .unregister "s" (some 0), .negotiate 1, .tryRegister "t" 2, .touch "s", .expire 2]

/-- The emitter that was replaced is faulted, the cap keeps the second stream id out, and the
registry is empty after the expiry. -/
theorem disciplined_takenOver :
    ∃ s, (registry Nat Nat 2).run
        { negotiated := 0, pool := fun _ => { maxQueueSize := 4, sendCredit := 1, granted := 1 } }
        takenOver = some s ∧
      s.activeCount = 0 ∧ s.expiredEmitters = 1 ∧ (s.pool 0).isFaulted = true ∧
      (s.pool 1).isFaulted = true ∧ (s.pool 2).isFaulted = false ∧
      (s.emitters.get "s").isSome = (s.idleTimers.get "s").isSome := by
  refine ⟨_, rfl, rfl, rfl, rfl, rfl, rfl, ?_⟩
  refine (@disciplined Nat Nat 2 _ ?_).hosted "s"
  exact @Machine.reachable_of_run _ _ (registry Nat Nat 2) _ _
    ⟨0, _, fun _ => ⟨4, 1, by decide, rfl⟩, rfl⟩ takenOver rfl

end EmitterRegistry

end PlugAgente.Stream
