import PlugAgente.Stream.Emitter

/-!
# The credit protocol of the stream emitter

One drain is open at a time, and it is the only code that hands frames to the transport.
`Core` is what holds of the rest of the state while that drain stands at `stage`; `Sound`
adds that there is one drain at most, and that nothing is left to flush when there is none.

The unregistration follows the outcome of the `emit`, so it is counted when no drain awaits
the transport or is about to handle a failure.
-/

namespace PlugAgente.Stream

variable {ρ κ : Type}

def Frame.chunk? : Frame ρ κ → Option (RpcStreamChunk ρ)
  | .chunk c => some c
  | .complete _ => none

def Frame.complete? : Frame ρ κ → Option κ
  | .chunk _ => none
  | .complete c => some c

/-- The drain awaits the transport, or is about to handle a failure. -/
def Stage.unsettled : Stage → Bool
  | .emittingChunk | .emittingComplete | .failing => true
  | _ => false

namespace Emitter

/-- The chunks that were handed to the transport. -/
def sent (s : Emitter ρ κ) : List (RpcStreamChunk ρ) :=
  s.frames.filterMap Frame.chunk?

/-- The completions that were handed to the transport. -/
def completes (s : Emitter ρ κ) : List κ :=
  s.frames.filterMap Frame.complete?

/-- An `emit` has failed, the transport was lost or the completion was emitted. -/
def ended (s : Emitter ρ κ) : Bool :=
  s.emitFailed || s.lost || !s.completes.isEmpty

/-- The emitter without its drains, while the only one stands at `stage`. -/
structure Core (s : Emitter ρ κ) (stage : Option Stage) : Prop where
  order : s.frames = s.sent.map .chunk ++ s.completes.map .complete
  completion : s.completes.length = if s.completed then 1 else 0
  sentPrefix : s.sent <+: s.accepted
  queued : s.isFaulted = false → s.accepted = s.sent ++ s.chunkQueue
  credit : s.overflowed = false →
    0 ≤ s.sendCredit.toInt ∧ s.sent.length + s.sendCredit.toInt = s.granted
  done : s.completed = true → s.completionRequested = true ∧ s.accepted = s.sent ∧
    s.chunkQueue = [] ∧ s.pendingComplete = none
  pending : s.pendingComplete ≠ none → s.completionRequested = true
  faulted : s.isFaulted = true → s.chunkQueue = [] ∧ s.pendingComplete = none
  failed : s.emitFailed = true → s.isFaulted = true ∨ stage = some .failing
  loss : s.lost = true → s.isFaulted = true
  held : s.registered = true →
    s.registrations = 1 ∧ s.unregistrations = 0 ∧ s.streamId.isSome = true
  fresh : s.registered = false → s.isFaulted = false → s.completed = false →
    s.registrations = 0 ∧ s.emitFailed = false
  freed : s.registered = false → s.lost = false → s.unregistrations = s.registrations
  once : s.registrations ≤ 1 ∧ s.unregistrations ≤ s.registrations
  occupied : s.chunkQueue ≠ [] → s.registered = true
  sending : stage = some .emittingChunk → s.registered = true ∨ s.isFaulted = true
  completing : stage = some .emittingComplete → s.completed = true
  /-- A stream that has ended is registered only until its drain goes on. -/
  holding : s.registered = true → (s.completed = true → stage = some .emittingComplete) ∧
    (s.emitFailed = true → stage = some .failing)

/-- The invariant. -/
structure Sound (s : Emitter ρ κ) : Prop where
  core : s.Core s.drains.head?
  single : s.drains.length ≤ 1
  flushing : s.flushInFlight = !s.drains.isEmpty
  idle : s.drains = [] → s.needsFlush = false

theorem sent_of_chunk {s t : Emitter ρ κ} {chunk : RpcStreamChunk ρ}
    (h : t.frames = s.frames ++ [.chunk chunk]) :
    t.sent = s.sent ++ [chunk] ∧ t.completes = s.completes := by
  simp [sent, completes, h, Frame.chunk?, Frame.complete?]

theorem sent_of_complete {s t : Emitter ρ κ} {complete : κ}
    (h : t.frames = s.frames ++ [.complete complete]) :
    t.sent = s.sent ∧ t.completes = s.completes ++ [complete] := by
  simp [sent, completes, h, Frame.chunk?, Frame.complete?]

theorem Core.restage {s : Emitter ρ κ} {stage : Option Stage} (h : s.Core stage)
    (hcomplete : stage ≠ some .emittingComplete) (hfailing : stage ≠ some .failing)
    {next : Option Stage} (hnext : ∀ st, next = some st → st.emits = false) : s.Core next := by
  refine { h with
    failed := ?_, sending := fun hst => absurd (hnext _ hst) (by simp [Stage.emits])
    completing := fun hst => absurd (hnext _ hst) (by simp [Stage.emits]), holding := ?_ }
  · intro hemit
    exact (h.failed hemit).imp_right (fun hst => absurd hst hfailing)
  · intro hreg
    have hhold := h.holding hreg
    exact ⟨fun hc => absurd (hhold.1 hc) hcomplete, fun he => absurd (hhold.2 he) hfailing⟩

theorem Core.start (maxQueueSize : Nat) {credit : Nat} (hcredit : credit < 2 ^ 63) :
    Core ({ maxQueueSize := maxQueueSize, sendCredit := .ofNat credit, granted := credit } :
      Emitter ρ κ) none := by
  constructor <;> simp [sent, completes, Int64.toInt_ofNat_of_lt hcredit, -Int64.toInt_ofNat']

/-! ## The updates of the methods -/

theorem Core.onTransportLoss {s : Emitter ρ κ} {stage : Option Stage} (h : s.Core stage) :
    s.onTransportLoss.Core stage := by
  refine { h with
    queued := ?_, done := ?_, pending := ?_, faulted := fun _ => ⟨rfl, rfl⟩
    failed := fun _ => .inl rfl, loss := fun _ => rfl, held := ?_, fresh := ?_, freed := ?_
    occupied := ?_, sending := fun _ => .inr rfl, holding := ?_ }
  · simp [Emitter.onTransportLoss]
  · intro hc
    exact ⟨(h.done hc).1, (h.done hc).2.1, rfl, rfl⟩
  · exact fun hne => absurd rfl hne
  · simp [Emitter.onTransportLoss]
  · simp [Emitter.onTransportLoss]
  · simp [Emitter.onTransportLoss]
  · exact fun hne => absurd rfl hne
  · simp [Emitter.onTransportLoss]

theorem Core.grant {s : Emitter ρ κ} {stage : Option Stage} (h : s.Core stage)
    {windowSize : Int64} (hpos : 0 < windowSize.toInt) :
    Core { s with
      sendCredit := s.sendCredit + windowSize
      granted := s.granted + windowSize.toInt.toNat
      overflowed := s.overflowed || 2 ^ 63 ≤ s.sendCredit.toInt + windowSize.toInt } stage := by
  refine { h with credit := ?_ }
  intro hfits
  simp only [Bool.or_eq_false_iff, decide_eq_false_iff_not, not_le] at hfits
  obtain ⟨hnonneg, htotal⟩ := h.credit hfits.1
  have hsum : (s.sendCredit + windowSize).toInt = s.sendCredit.toInt + windowSize.toInt := by
    rw [Int64.toInt_add]
    exact Int.bmod_eq_of_le (by omega) (by omega)
  show 0 ≤ (s.sendCredit + windowSize).toInt ∧
    (s.sent.length : Int) + (s.sendCredit + windowSize).toInt =
      (s.granted + windowSize.toInt.toNat : Nat)
  rw [hsum]
  omega

theorem toInt_spend {credit : Int64} (h : 0 < credit) :
    0 < credit.toInt ∧ (credit - 1).toInt = credit.toInt - 1 := by
  have hpos : 0 < credit.toInt := Int64.lt_iff_toInt_lt.mp h
  have hlt : credit.toInt < 2 ^ 63 := credit.toInt_lt
  refine ⟨hpos, ?_⟩
  rw [Int64.toInt_sub]
  exact Int.bmod_eq_of_le (by rw [Int64.toInt_one]; omega) (by rw [Int64.toInt_one]; omega)

theorem Core.accept {s : Emitter ρ κ} {stage : Option Stage} (h : s.Core stage)
    (hfault : s.isFaulted = false) (hdone : s.completed = false) (chunk : RpcStreamChunk ρ)
    (hreg : s.registered = true) (peak : Nat) :
    Core { s with
      chunkQueue := s.chunkQueue ++ [chunk]
      accepted := s.accepted ++ [chunk]
      queuedPeak := peak } stage := by
  refine { h with
    sentPrefix := ?_, queued := ?_, done := ?_, faulted := ?_, occupied := fun _ => hreg }
  · exact h.sentPrefix.trans (List.prefix_append _ _)
  · intro _
    show s.accepted ++ [chunk] = s.sent ++ (s.chunkQueue ++ [chunk])
    rw [h.queued hfault, List.append_assoc]
  · intro hc
    exact absurd (hdone.symm.trans hc) (by simp)
  · intro hf
    exact absurd (hfault.symm.trans hf) (by simp)

theorem Core.register {s : Emitter ρ κ} {stage : Option Stage} (h : s.Core stage)
    (hfault : s.isFaulted = false) (hdone : s.completed = false) (hreg : s.registered = false)
    (streamId : String) :
    Core { s with
      streamId := some streamId
      registered := true
      registrations := s.registrations + 1 } stage := by
  obtain ⟨hfresh, hfailing⟩ := h.fresh hreg hfault hdone
  have honce : s.registrations ≤ 1 ∧ s.unregistrations ≤ s.registrations := h.once
  refine { h with
    held := ?_, fresh := ?_, freed := ?_, once := ?_, occupied := fun _ => rfl
    sending := fun _ => .inl rfl, holding := ?_ }
  · intro _
    refine ⟨?_, ?_, rfl⟩
    · show s.registrations + 1 = 1
      omega
    · show s.unregistrations = 0
      omega
  · simp
  · simp
  · show s.registrations + 1 ≤ 1 ∧ s.unregistrations ≤ s.registrations + 1
    omega
  · simp [hdone, hfailing]

theorem Core.request {s : Emitter ρ κ} {stage : Option Stage} (h : s.Core stage)
    (hfault : s.isFaulted = false) (hdone : s.completed = false) (complete : κ) :
    Core { s with completionRequested := true, pendingComplete := some complete } stage := by
  refine { h with done := ?_, pending := ?_, faulted := ?_ }
  · intro hc
    exact absurd (hdone.symm.trans hc) (by simp)
  · intro _
    rfl
  · intro hf
    exact absurd (hfault.symm.trans hf) (by simp)

/-! ## The turns of the drain -/

@[simp] theorem unregister_completed (s : Emitter ρ κ) : s.unregister.completed = s.completed := by
  rw [Emitter.unregister]
  split <;> rfl

@[simp] theorem unregister_frames (s : Emitter ρ κ) : s.unregister.frames = s.frames := by
  rw [Emitter.unregister]
  split <;> rfl

theorem Core.unregister {s : Emitter ρ κ} {stage : Option Stage} (h : s.Core stage)
    (hqueue : s.chunkQueue = []) (hend : s.isFaulted = true ∨ s.completed = true)
    {next : Option Stage} (hnext : ∀ st, next = some st → st.emits = false)
    (hfailed : s.emitFailed = true → s.isFaulted = true ∨ next = some .failing) :
    s.unregister.Core next ∧ s.unregister.registered = false := by
  rw [Emitter.unregister]
  split
  · rename_i hslot
    have hreg : s.registered = true := by
      rw [Bool.and_eq_true] at hslot
      exact hslot.2
    obtain ⟨hone, hzero, -⟩ := h.held hreg
    refine ⟨{ h with
      failed := hfailed, held := by simp, fresh := ?_, freed := ?_, once := ?_
      occupied := fun hne => absurd hqueue hne
      sending := fun hst => absurd (hnext _ hst) (by simp [Stage.emits])
      completing := fun hst => absurd (hnext _ hst) (by simp [Stage.emits])
      holding := by simp }, rfl⟩
    · intro _ hfault hdone
      rcases hend with hend | hend
      · exact absurd (hfault.symm.trans hend) (by simp)
      · exact absurd (hdone.symm.trans hend) (by simp)
    · intro _ _
      show s.unregistrations + 1 = s.registrations
      omega
    · show s.registrations ≤ 1 ∧ s.unregistrations + 1 ≤ s.registrations
      omega
  · rename_i hslot
    have hreg : s.registered = false := by
      cases hr : s.registered with
      | false => rfl
      | true => simp [hr, (h.held hr).2.2] at hslot
    refine ⟨{ h with
      failed := hfailed
      sending := fun hst => absurd (hnext _ hst) (by simp [Stage.emits])
      completing := fun hst => absurd (hnext _ hst) (by simp [Stage.emits]), holding := ?_ }, hreg⟩
    simp [hreg]

theorem Core.handleFlushError {s : Emitter ρ κ} {stage : Option Stage} (h : s.Core stage) :
    s.handleFlushError.Core (some .closing) := by
  have hcleared : Core { s with isFaulted := true, chunkQueue := [], pendingComplete := none }
      stage := by
    refine { h with
      queued := by simp, done := ?_, pending := fun hne => absurd rfl hne
      faulted := fun _ => ⟨rfl, rfl⟩, failed := fun _ => .inl rfl, loss := fun _ => rfl
      fresh := by simp, occupied := fun hne => absurd rfl hne, sending := fun _ => .inr rfl }
    intro hc
    exact ⟨(h.done hc).1, (h.done hc).2.1, rfl, rfl⟩
  exact (hcleared.unregister rfl (.inl rfl) (by simp [Stage.emits]) (fun _ => .inl rfl)).1

theorem Core.unsettled {s : Emitter ρ κ} {stage : Option Stage} (h : s.Core stage)
    (hdone : s.completed = false) (hfault : s.isFaulted = false) (hfailing : stage ≠ some .failing) :
    s.completes = [] ∧ s.emitFailed = false := by
  constructor
  · have hlength := h.completion
    rw [hdone] at hlength
    exact List.length_eq_zero_iff.mp hlength
  · cases he : s.emitFailed with
    | false => rfl
    | true => simpa [hfault, hfailing] using h.failed he

theorem Core.maybeEmitComplete {s : Emitter ρ κ} {stage : Option Stage} (h : s.Core stage)
    (hcomplete : stage ≠ some .emittingComplete) (hfailing : stage ≠ some .failing) :
    s.maybeEmitComplete.1.Core (some s.maybeEmitComplete.2) := by
  rw [Emitter.maybeEmitComplete]
  split
  · exact h.restage hcomplete hfailing (by simp [Stage.emits])
  · rename_i complete hpending
    split
    · exact h.restage hcomplete hfailing (by simp [Stage.emits])
    · rename_i hguard
      obtain ⟨hqueue, hfault⟩ : s.chunkQueue = [] ∧ s.isFaulted = false := by
        simpa using hguard
      have hdone : s.completed = false := by
        cases hc : s.completed with
        | false => rfl
        | true => simp [(h.done hc).2.2.2] at hpending
      obtain ⟨hnone, hemit⟩ := h.unsettled hdone hfault hfailing
      have hall : s.accepted = s.sent := by
        rw [h.queued hfault, hqueue, List.append_nil]
      obtain ⟨hsent, hcompletes⟩ := @sent_of_complete _ _ s { s with
        pendingComplete := none
        completed := true
        frames := s.frames ++ [.complete complete] } complete rfl
      rw [hnone, List.nil_append] at hcompletes
      refine { h with
        order := ?_, completion := ?_, sentPrefix := ?_, queued := ?_, credit := ?_, done := ?_
        pending := fun hne => absurd rfl hne, faulted := fun _ => ⟨hqueue, rfl⟩, failed := ?_
        fresh := by simp, sending := by simp, completing := fun _ => rfl, holding := ?_ }
      · rw [hsent, hcompletes]
        show s.frames ++ [_] = _
        rw [h.order, hnone, List.map_nil, List.append_nil]
        rfl
      · rw [hcompletes]
        rfl
      · rw [hsent]
        exact h.sentPrefix
      · rw [hsent]
        exact h.queued
      · rw [hsent]
        exact h.credit
      · intro _
        rw [hsent]
        exact ⟨h.pending (by simp [hpending]), hall, hqueue, rfl⟩
      · intro he
        exact absurd (hemit.symm.trans he) (by simp)
      · intro _
        exact ⟨fun _ => rfl, fun he => absurd (hemit.symm.trans he) (by simp)⟩

theorem Core.flushLoop {s : Emitter ρ κ} {stage : Option Stage} (h : s.Core stage)
    (hcomplete : stage ≠ some .emittingComplete) (hfailing : stage ≠ some .failing) :
    s.flushLoop.1.Core (some s.flushLoop.2) := by
  rw [Emitter.flushLoop]
  split
  · exact h.maybeEmitComplete hcomplete hfailing
  · rename_i chunk rest hqueue
    split
    · rename_i hguard
      obtain ⟨⟨hfault, hdone⟩, hcredit⟩ :
          (s.isFaulted = false ∧ s.completed = false) ∧ 0 < s.sendCredit := by
        simpa using hguard
      obtain ⟨hnone, hemit⟩ := h.unsettled hdone hfault hfailing
      have hreg : s.registered = true := h.occupied (by simp [hqueue])
      have haccepted : s.accepted = s.sent ++ [chunk] ++ rest := by
        rw [h.queued hfault, hqueue, List.append_assoc, List.singleton_append]
      obtain ⟨hsent, hcompletes⟩ := @sent_of_chunk _ _ s { s with
        chunkQueue := rest
        sendCredit := s.sendCredit - 1
        frames := s.frames ++ [.chunk chunk] } chunk rfl
      refine { h with
        order := ?_, completion := ?_, sentPrefix := ?_, queued := ?_, credit := ?_, done := ?_
        faulted := ?_, failed := ?_, occupied := fun _ => hreg, sending := fun _ => .inl hreg
        completing := by simp, holding := ?_ }
      · rw [hsent, hcompletes]
        show s.frames ++ [_] = _
        rw [h.order, hnone, List.map_nil, List.append_nil, List.append_nil, List.map_append]
        rfl
      · rw [hcompletes]
        exact h.completion
      · rw [hsent]
        exact ⟨rest, haccepted.symm⟩
      · intro _
        rw [hsent]
        exact haccepted
      · intro hfits
        obtain ⟨-, htotal⟩ := h.credit hfits
        obtain ⟨hpos, hspend⟩ := toInt_spend hcredit
        rw [hsent, List.length_append, List.length_singleton]
        show 0 ≤ (s.sendCredit - 1).toInt ∧
          ((s.sent.length + 1 : Nat) : Int) + (s.sendCredit - 1).toInt = s.granted
        rw [hspend]
        omega
      · intro hc
        exact absurd (hdone.symm.trans hc) (by simp)
      · intro hf
        exact absurd (hfault.symm.trans hf) (by simp)
      · intro he
        exact absurd (hemit.symm.trans he) (by simp)
      · intro _
        exact ⟨fun hc => absurd (hdone.symm.trans hc) (by simp),
          fun he => absurd (hemit.symm.trans he) (by simp)⟩
    · exact h.maybeEmitComplete hcomplete hfailing

theorem Core.runStage {s : Emitter ρ κ} {stage : Stage} (h : s.Core (some stage))
    (emitted : Bool) : (s.runStage emitted stage).1.Core (some (s.runStage emitted stage).2) := by
  cases stage with
  | scheduled =>
    rw [Emitter.runStage]
    split
    · exact h.restage (by simp) (by simp) (by simp [Stage.emits])
    · exact h.flushLoop (by simp) (by simp)
  | emittingChunk =>
    rw [Emitter.runStage]
    split
    · refine { h with
        failed := fun _ => .inr rfl, fresh := ?_, sending := by simp, completing := by simp
        holding := ?_ }
      · intro hreg hfault _
        rcases h.sending rfl with hr | hf
        · exact absurd (hreg.symm.trans hr) (by simp)
        · exact absurd (hfault.symm.trans hf) (by simp)
      · intro hreg
        exact ⟨fun hc => absurd ((h.holding hreg).1 hc) (by simp), fun _ => rfl⟩
    · split
      · exact h.restage (by simp) (by simp) (by simp [Stage.emits])
      · exact h.flushLoop (by simp) (by simp)
  | emittingComplete =>
    have hdone : s.completed = true := h.completing rfl
    have hqueue : s.chunkQueue = [] := (h.done hdone).2.2.1
    have hfailed : s.emitFailed = true → s.isFaulted = true := by
      intro he
      exact (h.failed he).resolve_right (by simp)
    rw [Emitter.runStage]
    split
    · obtain ⟨hcore, hreg⟩ := @Core.unregister _ _ _ _ h hqueue (.inr hdone) (some .failing)
        (by simp [Stage.emits]) (fun he => .inl (hfailed he))
      refine { hcore with
        failed := fun _ => .inr rfl, fresh := ?_, holding := ?_ }
      · intro _ _ hc
        rw [Emitter.unregister_completed, hdone] at hc
        exact absurd hc (by simp)
      · simp [hreg]
    · exact (h.unregister hqueue (.inr hdone) (by simp [Stage.emits])
        (fun he => .inl (hfailed he))).1
  | failing => exact h.handleFlushError
  | closing => exact h

theorem maybeEmitComplete_flushInFlight (s : Emitter ρ κ) :
    s.maybeEmitComplete.1.flushInFlight = s.flushInFlight := by
  rw [Emitter.maybeEmitComplete]
  split
  · rfl
  · split <;> rfl

theorem flushLoop_flushInFlight (s : Emitter ρ κ) :
    s.flushLoop.1.flushInFlight = s.flushInFlight := by
  rw [Emitter.flushLoop]
  split
  · exact s.maybeEmitComplete_flushInFlight
  · split
    · rfl
    · exact s.maybeEmitComplete_flushInFlight

@[simp] theorem unregister_flushInFlight (s : Emitter ρ κ) :
    s.unregister.flushInFlight = s.flushInFlight := by
  rw [Emitter.unregister]
  split <;> rfl

theorem runStage_flushInFlight (s : Emitter ρ κ) (emitted : Bool) (stage : Stage) :
    (s.runStage emitted stage).1.flushInFlight = s.flushInFlight := by
  cases stage with
  | scheduled =>
    rw [Emitter.runStage]
    split
    · rfl
    · exact s.flushLoop_flushInFlight
  | emittingChunk =>
    rw [Emitter.runStage]
    split
    · rfl
    · split
      · rfl
      · exact s.flushLoop_flushInFlight
  | emittingComplete =>
    rw [Emitter.runStage]
    split <;> exact s.unregister_flushInFlight
  | failing => simp [Emitter.runStage, Emitter.handleFlushError]
  | closing => rfl

/-! ## The steps -/

theorem Core.scheduleFlush {s : Emitter ρ κ} (h : s.Core s.drains.head?)
    (hsingle : s.drains.length ≤ 1) (hflushing : s.flushInFlight = !s.drains.isEmpty) :
    s.scheduleFlush.Sound := by
  rw [Emitter.scheduleFlush]
  split
  · rename_i hopen
    refine ⟨h, hsingle, hflushing, ?_⟩
    intro hnil
    simp [hflushing, hnil] at hopen
  · rename_i hclosed
    have hnil : s.drains = [] := by
      simpa [hflushing] using hclosed
    rw [hnil] at h ⊢
    refine ⟨?_, by simp, by simp, by simp⟩
    have hscheduled : s.Core (some .scheduled) :=
      h.restage (by simp) (by simp) (by simp [Stage.emits])
    exact { hscheduled with }

theorem Sound.start (maxQueueSize : Nat) {credit : Nat} (hcredit : credit < 2 ^ 63) :
    Sound ({ maxQueueSize := maxQueueSize, sendCredit := .ofNat credit, granted := credit } :
      Emitter ρ κ) :=
  ⟨Core.start maxQueueSize hcredit, by simp, by simp, by simp [needsFlush]⟩

theorem Sound.onTransportLoss {s : Emitter ρ κ} (h : s.Sound) : s.onTransportLoss.Sound :=
  ⟨h.core.onTransportLoss, h.single, h.flushing, fun _ => by
    simp [Emitter.onTransportLoss, needsFlush]⟩

theorem Sound.releaseChunks {s : Emitter ρ κ} (h : s.Sound) (windowSize : Int64) :
    (s.releaseChunks windowSize).Sound := by
  rw [Emitter.releaseChunks]
  split
  · exact h
  · rename_i hopen
    have hpos : 0 < windowSize.toInt := by
      simp only [Bool.or_eq_true, decide_eq_true_eq, not_or, Int64.le_iff_toInt_le,
        Int64.toInt_zero] at hopen
      omega
    exact Core.scheduleFlush (h.core.grant hpos) h.single h.flushing

theorem Core.enqueue {s : Emitter ρ κ} (h : s.Core s.drains.head?)
    (hsingle : s.drains.length ≤ 1) (hflushing : s.flushInFlight = !s.drains.isEmpty)
    (hidle : s.drains = [] → s.needsFlush = false) (hfault : s.isFaulted = false)
    (hdone : s.completed = false) (hreg : s.registered = true) (chunk : RpcStreamChunk ρ) :
    (s.enqueue chunk).Sound := by
  rw [Emitter.enqueue]
  split
  · exact ⟨h, hsingle, hflushing, hidle⟩
  · exact Core.scheduleFlush (h.accept hfault hdone chunk hreg _) hsingle hflushing

theorem Sound.emitChunk {s : Emitter ρ κ} (h : s.Sound) (chunk : RpcStreamChunk ρ)
    (accepts : Bool) : (s.emitChunk chunk accepts).Sound := by
  rw [Emitter.emitChunk]
  split
  · exact h
  · rename_i hopen
    obtain ⟨⟨hfault, hrequested⟩, hdone⟩ :
        (s.isFaulted = false ∧ s.completionRequested = false) ∧ s.completed = false := by
      simpa using hopen
    split
    · rename_i hreg
      exact h.core.enqueue h.single h.flushing h.idle hfault hdone hreg chunk
    · rename_i hreg
      rw [Bool.not_eq_true] at hreg
      split
      · exact Core.enqueue (h.core.register hfault hdone hreg chunk.streamId) h.single h.flushing
          h.idle hfault hdone rfl chunk
      · refine ⟨{ h.core with held := ?_ }, h.single, h.flushing, h.idle⟩
        intro hr
        exact absurd (hreg.symm.trans hr) (by simp)

theorem Sound.emitComplete {s : Emitter ρ κ} (h : s.Sound) (complete : κ) :
    (s.emitComplete complete).Sound := by
  rw [Emitter.emitComplete]
  split
  · exact h
  · rename_i hopen
    obtain ⟨⟨hfault, hrequested⟩, hdone⟩ :
        (s.isFaulted = false ∧ s.completionRequested = false) ∧ s.completed = false := by
      simpa using hopen
    exact Core.scheduleFlush (h.core.request hfault hdone complete) h.single h.flushing

theorem Sound.drains_eq {s : Emitter ρ κ} (h : s.Sound) {i : Nat} {stage : Stage}
    (hi : s.drains[i]? = some stage) : i = 0 ∧ s.drains = [stage] := by
  have hsingle := h.single
  match hd : s.drains, hsingle with
  | [], _ => simp [hd] at hi
  | [st], _ =>
    rw [hd] at hi
    have hlt : i < [st].length := (List.getElem?_eq_some_iff.mp hi).1
    have hzero : i = 0 := by
      rw [List.length_singleton] at hlt
      omega
    subst hzero
    exact ⟨rfl, by simpa using hi⟩

theorem Sound.finishDrain {s : Emitter ρ κ} (h : s.Sound) (hdrains : s.drains = [.closing]) :
    (s.finishDrain 0).Sound := by
  have hclosing : s.Core (some .closing) := by
    have hcore := h.core
    rwa [hdrains] at hcore
  have hnone : s.Core none := hclosing.restage (by simp) (by simp) (by simp)
  rw [Emitter.finishDrain, hdrains]
  by_cases hneeds : s.needsFlush = true
  · show (if s.needsFlush = true then _ else _ : Emitter ρ κ).Sound
    rw [if_pos hneeds]
    exact Core.scheduleFlush { hnone with } (by simp) (by simp)
  · show (if s.needsFlush = true then _ else _ : Emitter ρ κ).Sound
    rw [if_neg hneeds]
    exact ⟨{ hnone with }, by simp, by simp, fun _ => Bool.not_eq_true _ ▸ hneeds⟩

theorem Sound.turn {s s' : Emitter ρ κ} (h : s.Sound) {i : Nat} {emitted : Bool}
    (hturn : s.turn i emitted = some s') : s'.Sound := by
  rw [Emitter.turn] at hturn
  split at hturn
  · simp at hturn
  · rename_i hi
    obtain ⟨rfl, hdrains⟩ := h.drains_eq hi
    rw [← Option.some.inj hturn]
    exact h.finishDrain hdrains
  · rename_i stage hclosing hi
    obtain ⟨rfl, hdrains⟩ := h.drains_eq hi
    have hcore : s.Core (some stage) := by
      have hcore := h.core
      rwa [hdrains] at hcore
    have hnext := hcore.runStage emitted
    have hflushing := s.runStage_flushInFlight emitted stage
    rw [h.flushing, hdrains] at hflushing
    generalize s.runStage emitted stage = r at hturn hnext hflushing
    obtain rfl := Option.some.inj hturn
    have hset : s.drains.set 0 r.2 = [r.2] := by
      rw [hdrains]
      rfl
    rw [hset]
    exact ⟨{ hnext with }, by simp, hflushing, by simp⟩

theorem Sound.step {s s' : Emitter ρ κ} (h : s.Sound) {event : Event ρ κ}
    (hstep : (emitter ρ κ).step s event = some s') : s'.Sound := by
  cases event with
  | emitChunk chunk accepts =>
    rw [← Option.some.inj hstep]
    exact h.emitChunk chunk accepts
  | emitComplete complete =>
    rw [← Option.some.inj hstep]
    exact h.emitComplete complete
  | releaseChunks windowSize =>
    rw [← Option.some.inj hstep]
    exact h.releaseChunks windowSize
  | onTransportLoss =>
    rw [← Option.some.inj hstep]
    exact h.onTransportLoss
  | turn i emitted => exact h.turn hstep

theorem sound_of_reachable {s : Emitter ρ κ} (h : (emitter ρ κ).Reachable s) : s.Sound := by
  refine h.invariant ?_ ?_
  · rintro s ⟨maxQueueSize, credit, hcredit, rfl⟩
    exact Sound.start maxQueueSize hcredit
  · intro s event s' hs _ hstep
    exact hs.step hstep

/-! ## After the end -/

@[simp] theorem scheduleFlush_frames (s : Emitter ρ κ) : s.scheduleFlush.frames = s.frames := by
  rw [Emitter.scheduleFlush]
  split <;> rfl

@[simp] theorem scheduleFlush_emitFailed (s : Emitter ρ κ) :
    s.scheduleFlush.emitFailed = s.emitFailed := by
  rw [Emitter.scheduleFlush]
  split <;> rfl

@[simp] theorem scheduleFlush_lost (s : Emitter ρ κ) : s.scheduleFlush.lost = s.lost := by
  rw [Emitter.scheduleFlush]
  split <;> rfl

/-- What a later state has when nothing was emitted in between. -/
structure Quiet (s t : Emitter ρ κ) : Prop where
  frames : t.frames = s.frames
  failed : s.emitFailed = true → t.emitFailed = true
  loss : s.lost = true → t.lost = true

theorem Quiet.refl (s : Emitter ρ κ) : s.Quiet s :=
  ⟨rfl, id, id⟩

theorem Quiet.ended {s t : Emitter ρ κ} (h : s.Quiet t) (hend : s.ended = true) :
    t.ended = true := by
  simp only [Emitter.ended, completes, h.frames, Bool.or_eq_true] at hend ⊢
  rcases hend with (hfailed | hlost) | hcomplete
  · exact .inl (.inl (h.failed hfailed))
  · exact .inl (.inr (h.loss hlost))
  · exact .inr hcomplete

theorem quiet_scheduleFlush (s : Emitter ρ κ) : s.Quiet s.scheduleFlush :=
  ⟨by simp, by simp, by simp⟩

theorem quiet_enqueue (s : Emitter ρ κ) (chunk : RpcStreamChunk ρ) :
    s.Quiet (s.enqueue chunk) := by
  rw [Emitter.enqueue]
  split
  · exact Quiet.refl s
  · exact ⟨by simp, by simp, by simp⟩

theorem quiet_emitChunk (s : Emitter ρ κ) (chunk : RpcStreamChunk ρ) (accepts : Bool) :
    s.Quiet (s.emitChunk chunk accepts) := by
  rw [Emitter.emitChunk]
  split
  · exact Quiet.refl s
  · split
    · exact s.quiet_enqueue chunk
    · split
      · have hquiet := quiet_enqueue { s with
          streamId := some chunk.streamId
          registered := true
          registrations := s.registrations + 1 } chunk
        exact ⟨hquiet.frames, hquiet.failed, hquiet.loss⟩
      · exact ⟨rfl, id, id⟩

theorem quiet_emitComplete (s : Emitter ρ κ) (complete : κ) :
    s.Quiet (s.emitComplete complete) := by
  rw [Emitter.emitComplete]
  split
  · exact Quiet.refl s
  · exact ⟨by simp, by simp, by simp⟩

theorem quiet_releaseChunks (s : Emitter ρ κ) (windowSize : Int64) :
    s.Quiet (s.releaseChunks windowSize) := by
  rw [Emitter.releaseChunks]
  split
  · exact Quiet.refl s
  · exact ⟨by simp, by simp, by simp⟩

theorem quiet_unregister (s : Emitter ρ κ) : s.Quiet s.unregister := by
  rw [Emitter.unregister]
  split
  · exact ⟨rfl, id, id⟩
  · exact Quiet.refl s

theorem quiet_finishDrain (s : Emitter ρ κ) (i : Nat) : s.Quiet (s.finishDrain i) := by
  rw [Emitter.finishDrain]
  split
  · have hquiet := quiet_scheduleFlush { s with
      flushInFlight := false
      drains := s.drains.eraseIdx i }
    exact ⟨hquiet.frames, hquiet.failed, hquiet.loss⟩
  · exact ⟨rfl, id, id⟩

theorem Core.flushLoop_completed {s : Emitter ρ κ} {stage : Option Stage} (h : s.Core stage)
    (hdone : s.completed = true) : s.flushLoop = (s, .closing) := by
  obtain ⟨-, -, hqueue, hpending⟩ := h.done hdone
  simp only [Emitter.flushLoop, hqueue, Emitter.maybeEmitComplete, hpending]

/-- A turn of the drain after the end emits nothing. -/
theorem Core.quiet_runStage {s : Emitter ρ κ} {stage : Stage} (h : s.Core (some stage))
    (hend : s.ended = true) (emitted : Bool) : s.Quiet (s.runStage emitted stage).1 := by
  have hcases : stage ≠ .failing → s.isFaulted = true ∨ s.completed = true := by
    intro hstage
    simp only [Emitter.ended, Bool.or_eq_true] at hend
    rcases hend with (hfailed | hlost) | hcomplete
    · exact .inl ((h.failed hfailed).resolve_right (by simpa using hstage))
    · exact .inl (h.loss hlost)
    · right
      by_contra hdone
      have hlength := h.completion
      rw [if_neg hdone] at hlength
      simp [List.length_eq_zero_iff.mp hlength] at hcomplete
  have hloop : stage ≠ .failing → s.isFaulted ≠ true → s.Quiet s.flushLoop.1 := by
    intro hstage hfault
    rw [h.flushLoop_completed ((hcases hstage).resolve_left hfault)]
    exact Quiet.refl s
  cases stage with
  | scheduled =>
    rw [Emitter.runStage]
    split
    · exact Quiet.refl s
    · rename_i hfault
      exact hloop (by simp) hfault
  | emittingChunk =>
    rw [Emitter.runStage]
    split
    · exact ⟨rfl, fun _ => rfl, id⟩
    · split
      · exact Quiet.refl s
      · rename_i hfault
        exact hloop (by simp) hfault
  | emittingComplete =>
    rw [Emitter.runStage]
    have hquiet := s.quiet_unregister
    split
    · exact ⟨hquiet.frames, fun _ => rfl, hquiet.loss⟩
    · exact hquiet
  | failing =>
    have hquiet := quiet_unregister { s with
      isFaulted := true
      chunkQueue := []
      pendingComplete := none }
    exact ⟨hquiet.frames, hquiet.failed, hquiet.loss⟩
  | closing => exact Quiet.refl s

theorem Sound.quiet_step {s s' : Emitter ρ κ} (h : s.Sound) (hend : s.ended = true)
    {event : Event ρ κ} (hstep : (emitter ρ κ).step s event = some s') : s.Quiet s' := by
  cases event with
  | emitChunk chunk accepts =>
    rw [← Option.some.inj hstep]
    exact s.quiet_emitChunk chunk accepts
  | emitComplete complete =>
    rw [← Option.some.inj hstep]
    exact s.quiet_emitComplete complete
  | releaseChunks windowSize =>
    rw [← Option.some.inj hstep]
    exact s.quiet_releaseChunks windowSize
  | onTransportLoss =>
    rw [← Option.some.inj hstep]
    exact ⟨rfl, id, fun _ => rfl⟩
  | turn i emitted =>
    change s.turn i emitted = some s' at hstep
    rw [Emitter.turn] at hstep
    split at hstep
    · simp at hstep
    · rw [← Option.some.inj hstep]
      exact s.quiet_finishDrain i
    · rename_i stage _ hi
      have hcore : s.Core (some stage) := by
        have hcore := h.core
        rwa [(h.drains_eq hi).2] at hcore
      have hquiet := hcore.quiet_runStage hend emitted
      rw [← Option.some.inj hstep]
      exact ⟨hquiet.frames, hquiet.failed, hquiet.loss⟩

theorem Sound.frames_of_leads {s t : Emitter ρ κ} (h : s.Sound) (hend : s.ended = true)
    (hleads : (emitter ρ κ).Leads s t) : t.frames = s.frames := by
  have hkept := hleads.keeps (I := fun u => u.Sound ∧ u.ended = true ∧ u.frames = s.frames) ?_
    ⟨h, hend, rfl⟩
  · exact hkept.2.2
  · intro u event u' hu hstep
    have hquiet := hu.1.quiet_step hu.2.1 hstep
    exact ⟨hu.1.step hstep, hquiet.ended hu.2.1, hquiet.frames.trans hu.2.2⟩

/-! ## The protocol -/

/-- What the emitter promises. -/
structure CreditProtocol (s : Emitter ρ κ) : Prop where
  /-- Chunks are emitted in the order in which they were accepted. -/
  inOrder : s.sent <+: s.accepted
  /-- No chunk is emitted without credit. -/
  covered : s.sent.length ≤ s.granted
  oneEmit : s.drains.countP Stage.emits ≤ 1
  oneComplete : s.completes.length ≤ 1
  /-- The completion comes after every chunk that was accepted. -/
  last : s.completes ≠ [] → s.frames = s.accepted.map .chunk ++ s.completes.map .complete
  /-- Nothing follows the completion, an `emit` that failed or a loss. -/
  final : s.ended = true → ∀ t, (emitter ρ κ).Leads s t → t.frames = s.frames
  /-- Nothing that could be sent is left behind. -/
  drained : s.drains = [] → s.isFaulted = false → s.chunkQueue = [] ∨ s.sendCredit = 0
  unregisteredOnce : s.unregistrations ≤ s.registrations ∧ s.registrations ≤ 1
  unregistered : s.registrations = 1 → s.completes ≠ [] ∨ s.emitFailed = true →
    s.lost = false → (∀ stage ∈ s.drains, stage.unsettled = false) → s.unregistrations = 1

theorem Core.completed_of_completes {s : Emitter ρ κ} {stage : Option Stage} (h : s.Core stage)
    (hne : s.completes ≠ []) : s.completed = true := by
  by_contra hdone
  have hlength := h.completion
  rw [if_neg hdone] at hlength
  exact hne (List.length_eq_zero_iff.mp hlength)

theorem Sound.not_registered {s : Emitter ρ κ} (h : s.Sound)
    (hend : s.completes ≠ [] ∨ s.emitFailed = true)
    (hsettled : ∀ stage ∈ s.drains, stage.unsettled = false) : s.registered = false := by
  by_contra hreg
  rw [Bool.not_eq_false] at hreg
  obtain ⟨hcompleted, hfailed⟩ := h.core.holding hreg
  rcases hend with hne | hemit
  · have hstage := hcompleted (h.core.completed_of_completes hne)
    exact absurd (hsettled _ (List.mem_of_mem_head? hstage)) (by simp [Stage.unsettled])
  · exact absurd (hsettled _ (List.mem_of_mem_head? (hfailed hemit))) (by simp [Stage.unsettled])

/-- The protocol holds in every state that is reached without an overflow of the credit, whatever
the order of the calls, the turns and the outcomes. -/
theorem credit_protocol {s : Emitter ρ κ} (h : (emitter ρ κ).Reachable s)
    (hfits : s.overflowed = false) : s.CreditProtocol := by
  have hsound := sound_of_reachable h
  have hcore := hsound.core
  obtain ⟨hnonneg, hcredit⟩ := hcore.credit hfits
  constructor
  case inOrder => exact hcore.sentPrefix
  case covered => omega
  case oneEmit => exact (List.countP_le_length).trans hsound.single
  case oneComplete =>
    rw [hcore.completion]
    split <;> omega
  case last =>
    intro hne
    rw [(hcore.done (hcore.completed_of_completes hne)).2.1]
    exact hcore.order
  case final => exact fun hend t hleads => hsound.frames_of_leads hend hleads
  case drained =>
    intro hdrains hfault
    have hidle := hsound.idle hdrains
    by_cases hdone : s.completed = true
    · exact .inl (hcore.done hdone).2.2.1
    · by_contra hleft
      rw [not_or] at hleft
      have hpos : 0 < s.sendCredit := by
        rw [Int64.lt_iff_toInt_lt, Int64.toInt_zero]
        have hne : s.sendCredit.toInt ≠ 0 := fun hzero => hleft.2 (Int64.toInt.inj hzero)
        omega
      simp [needsFlush, hfault, hdone, hpos, hleft.1] at hidle
  case unregisteredOnce => exact ⟨hcore.once.2, hcore.once.1⟩
  case unregistered =>
    intro hone hend hlost hsettled
    rw [hcore.freed (hsound.not_registered hend hsettled) hlost, hone]

/-- A run with two chunks, of which the second waits for credit, and a completion. -/
def windowOfOne : List (Event Nat Nat) :=
  [.emitChunk ⟨"s", 1⟩ true, .emitChunk ⟨"s", 2⟩ true, .turn 0 true, .emitComplete 3,
    .turn 0 true, .turn 0 true, .releaseChunks 1, .turn 0 true, .turn 0 true, .turn 0 true,
    .turn 0 true]

/-- Both chunks and the completion are emitted, and the stream is unregistered once. -/
theorem credit_protocol_windowOfOne :
    ∃ s, (emitter Nat Nat).run { maxQueueSize := 4, sendCredit := 1, granted := 1 } windowOfOne =
        some s ∧
      s.frames = [.chunk ⟨"s", 1⟩, .chunk ⟨"s", 2⟩, .complete 3] ∧ s.registrations = 1 ∧
      s.unregistrations = 1 := by
  refine ⟨_, rfl, rfl, rfl, ?_⟩
  refine (credit_protocol ?_ rfl).unregistered rfl (.inl (by decide)) rfl (by decide)
  exact @Machine.reachable_of_run _ _ (emitter Nat Nat) _ _ ⟨4, 1, by decide, rfl⟩ windowOfOne rfl

/-- The hub releases as many chunks as an `int` can say, on top of a credit of one. -/
def wideWindow : List (Event Nat Nat) :=
  [.releaseChunks 9223372036854775807, .turn 0 true, .turn 0 true, .emitChunk ⟨"s", 1⟩ true,
    .turn 0 true, .turn 0 true]

/-- The credit has become negative, and an accepted chunk is left behind. -/
theorem chunk_left_behind :
    ∃ s, (emitter Nat Nat).Reachable s ∧ s.drains = [] ∧ s.isFaulted = false ∧
      s.chunkQueue ≠ [] ∧ s.sendCredit ≠ 0 := by
  obtain ⟨s, hrun⟩ : ∃ s, (emitter Nat Nat).run
      { maxQueueSize := 4, sendCredit := 1, granted := 1 } wideWindow = some s := ⟨_, rfl⟩
  have hleft : s.drains = [] ∧ s.isFaulted = false ∧ s.chunkQueue = [⟨"s", 1⟩] ∧
      s.sendCredit = -9223372036854775808 := by
    rw [← Option.some.inj hrun]
    exact ⟨rfl, rfl, rfl, rfl⟩
  obtain ⟨hdrains, hfault, hqueue, hcredit⟩ := hleft
  refine ⟨s, ?_, hdrains, hfault, by simp [hqueue], by rw [hcredit]; decide⟩
  exact @Machine.reachable_of_run _ _ (emitter Nat Nat) _ _ ⟨4, 1, by decide, rfl⟩ wideWindow hrun

/-! ## What a drain delivers -/

/-- What a state comes to by turns of its drain, while the transport takes what it is given. -/
def DrainsTo (s t : Emitter ρ κ) : Prop :=
  Relation.ReflTransGen (fun s t => s.turn 0 true = some t) s t

theorem turn_of_stage {s : Emitter ρ κ} {stage : Stage} (hdrains : s.drains = [stage])
    (hstage : stage ≠ .closing) :
    s.turn 0 true =
      some { (s.runStage true stage).1 with drains := [(s.runStage true stage).2] } := by
  rw [Emitter.turn, hdrains]
  cases stage with
  | closing => exact absurd rfl hstage
  | _ => rfl

/-- The state when the drain ends at `s` and leaves nothing to flush. -/
def settled (s : Emitter ρ κ) : Emitter ρ κ :=
  { s with flushInFlight := false, drains := [] }

theorem turn_closing {s : Emitter ρ κ} (hdrains : s.drains = [.closing])
    (hidle : s.needsFlush = false) : s.turn 0 true = some s.settled := by
  have hturn : s.turn 0 true = some (s.finishDrain 0) := by
    rw [Emitter.turn, hdrains]
    rfl
  rw [hturn, finishDrain, hdrains]
  congr 1
  exact if_neg (by rw [Bool.not_eq_true]; exact hidle)

/-- The number of chunks that the credit covers. -/
def credit (s : Emitter ρ κ) : Nat := s.sendCredit.toInt.toNat

theorem credit_eq_zero {s : Emitter ρ κ} (h : ¬ 0 < s.sendCredit) : s.credit = 0 := by
  rw [Int64.lt_iff_toInt_lt, Int64.toInt_zero] at h
  rw [credit]
  omega

theorem credit_spend {s : Emitter ρ κ} (h : 0 < s.sendCredit) :
    s.credit = (s.sendCredit - 1).toInt.toNat + 1 := by
  obtain ⟨hpos, hspend⟩ := toInt_spend h
  rw [credit, hspend]
  omega

/-- What the drain of `s` delivers with the credit there is: the chunks that it covers, and
the completion if these are all. -/
structure Delivered (s t : Emitter ρ κ) : Prop where
  drains : t.drains = []
  sent : t.sent = s.sent ++ s.chunkQueue.take s.credit
  completes : t.completes = s.completes ++
    if s.chunkQueue.length ≤ s.credit then s.pendingComplete.toList else []

theorem delivers_closing {s : Emitter ρ κ} (hdrains : s.drains = [.closing])
    (hidle : s.needsFlush = false) (hqueue : s.chunkQueue.take s.credit = [])
    (hpending : s.chunkQueue.length ≤ s.credit → s.pendingComplete = none) :
    ∃ t, s.DrainsTo t ∧ s.Delivered t := by
  refine ⟨_, .single (turn_closing hdrains hidle), rfl, ?_, ?_⟩
  · rw [hqueue, List.append_nil]
    rfl
  · split_ifs with hle
    · rw [hpending hle, Option.toList_none, List.append_nil]
      rfl
    · rw [List.append_nil]
      rfl

theorem delivers_completed {s : Emitter ρ κ} (hdrains : s.drains = [.emittingComplete])
    (hcompleted : s.completed = true) (hqueue : s.chunkQueue = [])
    (hpending : s.pendingComplete = none) : ∃ t, s.DrainsTo t ∧ s.Delivered t := by
  obtain ⟨u, hu⟩ : ∃ u, u = { s.unregister with drains := [.closing] } := ⟨_, rfl⟩
  have hturn : s.turn 0 true = some u := by
    rw [turn_of_stage hdrains (by simp), hu]
    rfl
  have hclosing : u.drains = [.closing] := by rw [hu]
  obtain ⟨hqueue', hpending', hcompleted', hsent, hcompletes⟩ : u.chunkQueue = [] ∧
      u.pendingComplete = none ∧ u.completed = true ∧ u.sent = s.sent ∧
        u.completes = s.completes := by
    rw [hu, unregister]
    split <;> exact ⟨hqueue, hpending, hcompleted, rfl, rfl⟩
  obtain ⟨t, hdrain, hdelivered⟩ := delivers_closing hclosing (by simp [needsFlush, hcompleted'])
    (by rw [hqueue', List.take_nil]) (fun _ => hpending')
  refine ⟨t, .head hturn hdrain, hdelivered.drains, ?_, ?_⟩
  · rw [hdelivered.sent, hsent, hqueue', hqueue, List.take_nil, List.take_nil]
  · rw [hdelivered.completes, hcompletes, hpending', hpending]
    simp

/-- The end of the loop of `_flushBody`: no credit is left, or no chunk. -/
theorem delivers_rest {s : Emitter ρ κ}
    (hturn : s.turn 0 true =
      some { s.maybeEmitComplete.1 with drains := [s.maybeEmitComplete.2] })
    (hstop : s.chunkQueue = [] ∨ ¬ 0 < s.sendCredit) (hfault : s.isFaulted = false) :
    ∃ t, s.DrainsTo t ∧ s.Delivered t := by
  have hqueue : s.chunkQueue.take s.credit = [] := by
    rcases hstop with hempty | hspent
    · rw [hempty, List.take_nil]
    · rw [credit_eq_zero hspent, List.take_zero]
  by_cases hemits : s.pendingComplete ≠ none ∧ s.chunkQueue = []
  · obtain ⟨complete, hcomplete⟩ := Option.ne_none_iff_exists'.mp hemits.1
    obtain ⟨u, hu⟩ : ∃ u : Emitter ρ κ, u = { s with
      pendingComplete := none
      completed := true
      frames := s.frames ++ [.complete complete]
      drains := [.emittingComplete] } := ⟨_, rfl⟩
    have hnext : s.turn 0 true = some u := by
      rw [hturn, maybeEmitComplete, hcomplete, hu]
      simp [hemits.2, hfault]
    have hframes : u.frames = s.frames ++ [.complete complete] := by rw [hu]
    obtain ⟨hsent, hcompletes⟩ := sent_of_complete hframes
    obtain ⟨t, hdrain, hdelivered⟩ := delivers_completed (s := u) (by rw [hu]) (by rw [hu])
      (by rw [hu]; exact hemits.2) (by rw [hu])
    have hleft : u.chunkQueue = [] ∧ u.pendingComplete = none := by
      rw [hu]
      exact ⟨hemits.2, rfl⟩
    refine ⟨t, .head hnext hdrain, hdelivered.drains, ?_, ?_⟩
    · rw [hdelivered.sent, hsent, hleft.1, hqueue, List.take_nil]
    · rw [hdelivered.completes, hcompletes, hleft.1, hleft.2, hemits.2, hcomplete]
      simp
  · have hnext : s.maybeEmitComplete = (s, .closing) := by
      rw [maybeEmitComplete]
      cases hpending : s.pendingComplete with
      | none => rfl
      | some complete =>
        have hchunks : s.chunkQueue ≠ [] := fun hempty => hemits ⟨by simp [hpending], hempty⟩
        simp [hchunks]
    have hnone : s.chunkQueue = [] → s.pendingComplete = none := by
      intro hempty
      by_contra hpending
      exact hemits ⟨hpending, hempty⟩
    have hidle : needsFlush { s with drains := [.closing] } = false := by
      cases hchunks : s.chunkQueue with
      | nil => simp [needsFlush, hnone hchunks]
      | cons chunk rest =>
        have hspent : ¬ 0 < s.sendCredit := hstop.resolve_left (by simp [hchunks])
        simp [needsFlush, hspent]
    rw [hnext] at hturn
    obtain ⟨t, hdrain, hdelivered⟩ := delivers_closing rfl hidle hqueue (fun hle => hnone <| by
      rcases hstop with hempty | hspent
      · exact hempty
      · have hzero : s.chunkQueue.length ≤ 0 := (credit_eq_zero hspent) ▸ hle
        exact List.length_eq_zero_iff.mp (Nat.le_zero.mp hzero))
    exact ⟨t, .head hturn hdrain, hdelivered.drains, hdelivered.sent, hdelivered.completes⟩

theorem delivers_flush {s : Emitter ρ κ} {stage : Stage} (hdrains : s.drains = [stage])
    (hstage : stage = .scheduled ∨ stage = .emittingChunk) (hfault : s.isFaulted = false)
    (hdone : s.completed = true → s.chunkQueue = []) : ∃ t, s.DrainsTo t ∧ s.Delivered t := by
  have hturn : s.turn 0 true = some { s.flushLoop.1 with drains := [s.flushLoop.2] } := by
    rcases hstage with rfl | rfl <;>
    · rw [turn_of_stage hdrains (by simp), runStage, hfault]
      rfl
  induction hqueue : s.chunkQueue generalizing s stage with
  | nil =>
    rw [flushLoop, hqueue] at hturn
    exact delivers_rest hturn (.inl hqueue) hfault
  | cons chunk rest ih =>
    have hopen : s.completed = false := by
      rw [← Bool.not_eq_true]
      intro hcompleted
      rw [hdone hcompleted] at hqueue
      cases hqueue
    by_cases hcredit : 0 < s.sendCredit
    · obtain ⟨u, hu⟩ : ∃ u : Emitter ρ κ, u = { s with
        chunkQueue := rest
        sendCredit := s.sendCredit - 1
        frames := s.frames ++ [.chunk chunk]
        drains := [.emittingChunk] } := ⟨_, rfl⟩
      have hnext : s.turn 0 true = some u := by
        rw [hturn, flushLoop, hqueue, hu]
        simp [hfault, hopen, hcredit]
      have hfault' : u.isFaulted = false := by rw [hu]; exact hfault
      have hframes : u.frames = s.frames ++ [.chunk chunk] := by rw [hu]
      have hemitting : u.drains = [.emittingChunk] := by rw [hu]
      obtain ⟨hsent, hcompletes⟩ := sent_of_chunk hframes
      obtain ⟨t, hdrain, hdelivered⟩ := ih hemitting (.inr rfl) hfault' (by rw [hu]; simp [hopen])
        (by rw [turn_of_stage hemitting (by simp), runStage, hfault']; rfl) (by rw [hu])
      have hleft : u.chunkQueue = rest ∧ s.credit = u.credit + 1 ∧
          u.pendingComplete = s.pendingComplete := by
        rw [hu]
        exact ⟨rfl, credit_spend hcredit, rfl⟩
      obtain ⟨hrest, hspent, hpending⟩ := hleft
      refine ⟨t, .head hnext hdrain, hdelivered.drains, ?_, ?_⟩
      · rw [hdelivered.sent, hsent, hqueue, hrest, hspent, List.take_succ_cons,
          List.append_assoc, List.singleton_append]
      · rw [hdelivered.completes, hcompletes, hqueue, hrest, hspent, hpending]
        simp
    · rw [flushLoop, hqueue] at hturn
      simp only [hcredit, decide_false, Bool.and_false] at hturn
      exact delivers_rest hturn (.inr hcredit) hfault

theorem Core.covers_nothing {s : Emitter ρ κ} {stage : Option Stage} (h : s.Core stage)
    (hfault : s.isFaulted = false) (hidle : s.needsFlush = false) :
    s.chunkQueue.take s.credit = [] ∧
      (s.chunkQueue.length ≤ s.credit → s.pendingComplete = none) := by
  cases hcompleted : s.completed with
  | true =>
    obtain ⟨-, -, hqueue, hpending⟩ := h.done hcompleted
    rw [hqueue, hpending, List.take_nil]
    exact ⟨rfl, fun _ => rfl⟩
  | false =>
    simp only [needsFlush, hfault, hcompleted, Bool.not_false, Bool.true_and,
      Bool.or_eq_false_iff] at hidle
    cases hqueue : s.chunkQueue with
    | nil => simpa [hqueue] using hidle.2
    | cons chunk rest =>
      have hspent : ¬ 0 < s.sendCredit := by simpa [hqueue] using hidle.1
      simp [credit_eq_zero hspent]

/-- The stream makes progress: from every state that is reached without a fault and without an
overflow of the credit, once the transport takes what it is given, the drain comes to its end, and
has handed over exactly the queued chunks that the credit left of the granted one covers, and the
completion if these are all. -/
theorem drain_delivers {s : Emitter ρ κ} (h : (emitter ρ κ).Reachable s)
    (hfits : s.overflowed = false) (hfault : s.isFaulted = false)
    (hfailing : .failing ∉ s.drains) :
    s.sent.length + s.credit = s.granted ∧ ∃ t, s.DrainsTo t ∧ s.Delivered t := by
  have hsound := sound_of_reachable h
  have hcore := hsound.core
  refine ⟨?_, ?_⟩
  · obtain ⟨hnonneg, hcredit⟩ := hcore.credit hfits
    rw [credit]
    omega
  cases hdrains : s.drains with
  | nil =>
    obtain ⟨hqueue, hpending⟩ := hcore.covers_nothing hfault (hsound.idle hdrains)
    refine ⟨s, .refl, hdrains, by rw [hqueue, List.append_nil], ?_⟩
    split_ifs with hle
    · rw [hpending hle, Option.toList_none, List.append_nil]
    · rw [List.append_nil]
  | cons stage rest =>
    have hsingle : s.drains = [stage] := (hsound.drains_eq (i := 0) (by rw [hdrains]; rfl)).2
    rw [hsingle] at hcore
    have hdone : s.completed = true → s.chunkQueue = [] := fun hc => (hcore.done hc).2.2.1
    cases stage with
    | scheduled => exact delivers_flush hsingle (.inl rfl) hfault hdone
    | emittingChunk => exact delivers_flush hsingle (.inr rfl) hfault hdone
    | emittingComplete =>
      have hcompleted := hcore.completing rfl
      obtain ⟨-, -, hqueue, hpending⟩ := hcore.done hcompleted
      exact delivers_completed hsingle hcompleted hqueue hpending
    | failing => exact absurd (hsingle ▸ List.mem_singleton_self _) hfailing
    | closing =>
      cases hneeds : s.needsFlush with
      | true =>
        have hturn : s.turn 0 true =
            some { s with flushInFlight := true, drains := [.scheduled] } := by
          rw [Emitter.turn, hsingle]
          show some (s.finishDrain 0) = _
          rw [finishDrain, hsingle]
          show some (if s.needsFlush = true then _ else _) = _
          rw [if_pos hneeds]
          rfl
        obtain ⟨t, hdrain, hdelivered⟩ := delivers_flush
          (s := { s with flushInFlight := true, drains := [.scheduled] }) rfl (.inl rfl) hfault hdone
        exact ⟨t, .head hturn hdrain, hdelivered.drains, hdelivered.sent, hdelivered.completes⟩
      | false =>
        obtain ⟨hqueue, hpending⟩ := hcore.covers_nothing hfault hneeds
        exact delivers_closing hsingle hneeds hqueue hpending

/-- Two chunks and the completion wait for the drain, with credit for both. -/
def waitingStream : List (Event Nat Nat) :=
  [.emitChunk ⟨"s", 1⟩ true, .emitChunk ⟨"s", 2⟩ true, .emitComplete 3, .releaseChunks 1]

theorem drain_delivers_waiting :
    ∃ s, (emitter Nat Nat).run { maxQueueSize := 4, sendCredit := 1, granted := 1 } waitingStream =
        some s ∧
      ∃ t, s.DrainsTo t ∧ t.sent = [⟨"s", 1⟩, ⟨"s", 2⟩] ∧ t.completes = [3] := by
  obtain ⟨s, hrun⟩ : ∃ s, (emitter Nat Nat).run
      { maxQueueSize := 4, sendCredit := 1, granted := 1 } waitingStream = some s := ⟨_, rfl⟩
  have hreach := @Machine.reachable_of_run _ _ (emitter Nat Nat) _ _ ⟨4, 1, by decide, rfl⟩
    waitingStream hrun
  have hwaits : s.isFaulted = false ∧ s.drains = [.scheduled] ∧ s.credit = 2 ∧ s.frames = [] ∧
      s.chunkQueue = [⟨"s", 1⟩, ⟨"s", 2⟩] ∧ s.pendingComplete = some 3 ∧
      s.overflowed = false := by
    rw [← Option.some.inj hrun]
    exact ⟨rfl, rfl, rfl, rfl, rfl, rfl, rfl⟩
  obtain ⟨hfault, hdrains, hcredit, hframes, hqueue, hpending, hfits⟩ := hwaits
  obtain ⟨-, t, hdrain, hdelivered⟩ := drain_delivers hreach hfits hfault (by simp [hdrains])
  refine ⟨s, hrun, t, hdrain, ?_, ?_⟩
  · rw [hdelivered.sent, sent, hframes, hqueue, hcredit]
    rfl
  · rw [hdelivered.completes, completes, hframes, hqueue, hcredit, hpending]
    rfl

end Emitter

end PlugAgente.Stream
