import PlugAgente.Maintenance.UpdateMaintenance
import PlugAgente.Machine.Ledger

/-!
# Maintenance is one way

Nothing is restored from the moment on in which local data may be closing or an exit policy may
have been left halfway: the coordinator is sealed then, and its preparation is never given up.
While it is not sealed, every exit policy whose end it does not wait for has ended with a known
outcome, so `_restore` finds the agent as it was.
-/

namespace PlugAgente.Maintenance

open Dart

/-! ## The history -/

/-- Where admission may be restored. -/
structure MayRestore (before : List MaintenanceHistory) : Prop where
  frozen : before.count .frozen = before.count .restored + 1
  notClosing : .closing ∉ before
  known : ∀ operationId, .policiesUnknown operationId ∉ before
  ended : ∀ operationId, .policiesApplied operationId ∈ before →
    .policiesEnded operationId ∈ before

/-- Admission is restored at most once for each freeze, and only while nothing is closing and the
outcome of every exit policy is known; policies are applied once for each operation, local data is
closed once, and a preparation is ready when the close has succeeded. -/
structure OneWay (history : List MaintenanceHistory) : Prop where
  restored : ∀ before after, history = before ++ .restored :: after → MayRestore before
  applied_once : ∀ operationId, history.count (.policiesApplied operationId) ≤ 1
  closing_once : history.count .closing ≤ 1
  ready : ∀ before after, history = before ++ .reported .ready :: after → .closed ∈ before

theorem OneWay.concat {history : List MaintenanceHistory} {entry : MaintenanceHistory}
    (h : OneWay history) (hrestored : entry = .restored → MayRestore history)
    (happlied : ∀ operationId, entry = .policiesApplied operationId → entry ∉ history)
    (hclosing : entry = .closing → entry ∉ history)
    (hready : entry = .reported .ready → .closed ∈ history) : OneWay (history ++ [entry]) := by
  refine ⟨?_, ?_, ?_, ?_⟩
  · intro before after heq
    rcases Ledger.concat_split heq with ⟨rfl, hentry⟩ | ⟨rest, -, hold⟩
    · exact hrestored hentry.symm
    · exact h.restored before rest hold
  · intro operationId
    rw [List.count_append, List.count_singleton]
    have hone := h.applied_once operationId
    split_ifs with hentry
    · have heq := eq_of_beq hentry
      have hnone := List.count_eq_zero_of_not_mem (happlied operationId heq)
      rw [heq] at hnone
      omega
    · exact hone
  · rw [List.count_append, List.count_singleton]
    have hone := h.closing_once
    split_ifs with hentry
    · have heq := eq_of_beq hentry
      have hnone := List.count_eq_zero_of_not_mem (hclosing heq)
      rw [heq] at hnone
      omega
    · exact hone
  · intro before after heq
    rcases Ledger.concat_split heq with ⟨rfl, hentry⟩ | ⟨rest, -, hold⟩
    · exact hready hentry.symm
    · exact h.ready before rest hold

namespace UpdateMaintenanceCoordinator

variable {c c' : UpdateMaintenanceCoordinator} {operationId : Text} {r : Callbacks}

/-! ## The invariant -/

/-- The exit policies, but one, have ended with a known outcome. -/
def AllKnown (pending : Option Text) (c : UpdateMaintenanceCoordinator) : Prop :=
  ∀ e ∈ c.exitPolicies, some e.operationId ≠ pending →
    ∃ answer, e.outcome = some answer ∧ answer.isUnknown = false

/-- What the history says of the fields. -/
structure Book (c : UpdateMaintenanceCoordinator) : Prop where
  oneWay : OneWay c.history
  frozen : c.history.count .frozen = c.history.count .restored + (if c.isFrozen then 1 else 0)
  ids : (c.exitPolicies.map ExitPolicy.operationId).Nodup
  applied : ∀ operationId, .policiesApplied operationId ∈ c.history →
    c.isSealed = true ∨ ∃ e ∈ c.exitPolicies, e.operationId = operationId
  ended : ∀ e ∈ c.exitPolicies, e.outcome.isSome = true →
    .policiesEnded e.operationId ∈ c.history
  unknown : ∀ operationId, .policiesUnknown operationId ∈ c.history →
    c.isSealed = true ∨ ∃ e ∈ c.exitPolicies, e.operationId = operationId ∧
      e.outcome.any CallbackAnswer.isUnknown = true
  closing : .closing ∈ c.history → c.isSealed = true

/-- What holds of a preparation between two events. -/
def StageOk (c : UpdateMaintenanceCoordinator) : Prop :=
  match c.preparation with
  | none => c.isSealed = false ∧ AllKnown none c ∧ c.isFrozen = false
  | some p =>
    match p.stage with
    | .starting => False
    | .waiting _ => c.isSealed = false ∧ AllKnown none c
    | .awaitingPolicies _ =>
      c.isSealed = false ∧ c.effectsStarted = true ∧ AllKnown (some p.operationId) c
    | .awaitingSnapshot _ => c.isSealed = false ∧ c.effectsStarted = true ∧ AllKnown none c
    | .awaitingClose => c.isSealed = true
    | .completed _ => c.isSealed = false → AllKnown none c ∧ c.isFrozen = false

structure Inv (c : UpdateMaintenanceCoordinator) : Prop where
  book : Book c
  stage : StageOk c

/-- What holds while `_prepare` runs before the point of no return. -/
structure Running (operationId : Text) (c : UpdateMaintenanceCoordinator) : Prop where
  preparation : ∃ stage, c.preparation = some { operationId := operationId, stage := stage }
  book : Book c
  unsealed : c.isSealed = false
  known : AllKnown none c

theorem Book.same (h : Book c) (hhistory : c'.history = c.history)
    (hfrozen : c'.isFrozen = c.isFrozen) (hpolicies : c'.exitPolicies = c.exitPolicies)
    (hsealed : c.isSealed = true → c'.isSealed = true) : Book c' := by
  refine ⟨?_, ?_, ?_, ?_, ?_, ?_, ?_⟩
  · rw [hhistory]
    exact h.oneWay
  · rw [hhistory, hfrozen]
    exact h.frozen
  · rw [hpolicies]
    exact h.ids
  · intro operationId hmem
    rw [hhistory] at hmem
    rw [hpolicies]
    exact (h.applied operationId hmem).imp_left hsealed
  · rw [hhistory, hpolicies]
    exact h.ended
  · intro operationId hmem
    rw [hhistory] at hmem
    rw [hpolicies]
    exact (h.unknown operationId hmem).imp_left hsealed
  · rw [hhistory]
    exact fun hmem => hsealed (h.closing hmem)

theorem Book.append {entry : MaintenanceHistory} (h : Book c) (isFrozen : Bool)
    (hway : OneWay (c.history ++ [entry]))
    (hfrozen : (c.history ++ [entry]).count .frozen =
      (c.history ++ [entry]).count .restored + if isFrozen then 1 else 0)
    (happlied : ∀ operationId, entry = .policiesApplied operationId → c.isSealed = true)
    (hunknown : ∀ operationId, entry = .policiesUnknown operationId → c.isSealed = true ∨
      ∃ e ∈ c.exitPolicies, e.operationId = operationId ∧
        e.outcome.any CallbackAnswer.isUnknown = true)
    (hclosing : entry = .closing → c.isSealed = true) :
    Book (record entry { c with isFrozen := isFrozen }) := by
  have hmem : ∀ e, e ∈ c.history ++ [entry] → e ∈ c.history ∨ e = entry := by
    intro e he
    simpa using he
  refine ⟨hway, hfrozen, h.ids, ?_, ?_, ?_, ?_⟩
  · intro operationId he
    rcases hmem _ he with hold | hnew
    · exact h.applied operationId hold
    · exact .inl (happlied operationId hnew.symm)
  · intro e he hsome
    exact List.mem_append_left _ (h.ended e he hsome)
  · intro operationId he
    rcases hmem _ he with hold | hnew
    · exact h.unknown operationId hold
    · exact hunknown operationId hnew.symm
  · intro he
    rcases hmem _ he with hold | hnew
    · exact h.closing hold
    · exact hclosing hnew.symm

theorem Book.record {entry : MaintenanceHistory} (h : Book c)
    (hway : OneWay (c.history ++ [entry])) (hfrozen : entry ≠ .frozen)
    (hrestored : entry ≠ .restored)
    (happlied : ∀ operationId, entry = .policiesApplied operationId → c.isSealed = true)
    (hunknown : ∀ operationId, entry = .policiesUnknown operationId → c.isSealed = true ∨
      ∃ e ∈ c.exitPolicies, e.operationId = operationId ∧
        e.outcome.any CallbackAnswer.isUnknown = true)
    (hclosing : entry = .closing → c.isSealed = true) : Book (c.record entry) := by
  refine h.append c.isFrozen hway ?_ happlied hunknown hclosing
  rw [List.count_append, List.count_append, List.count_singleton, List.count_singleton,
    if_neg (by simpa using hfrozen), if_neg (by simpa using hrestored)]
  exact h.frozen

theorem Book.report {result : MaintenanceResult} (h : Book c)
    (hready : result = .ready → .closed ∈ c.history) : Book (c.record (.reported result)) := by
  refine h.record (h.oneWay.concat nofun nofun nofun ?_) nofun nofun nofun nofun nofun
  intro heq
  cases heq
  exact hready rfl

theorem complete_inv {p : Preparation} {result : MaintenanceResult} (h : Book c)
    (hpreparation : c.preparation = some p)
    (hopen : c.isSealed = false → AllKnown none c ∧ c.isFrozen = false)
    (hready : result = .ready → .closed ∈ c.history) : Inv (c.complete result) := by
  have hbook : Book (c.setStage (.completed result)) := h.same rfl rfl rfl id
  refine ⟨hbook.report hready, ?_⟩
  unfold StageOk complete setStage UpdateMaintenanceCoordinator.record
  rw [hpreparation]
  exact hopen

/-! ## Restoring -/

theorem Running.mayRestore (h : Running operationId c) (hfrozen : c.isFrozen = true) :
    MayRestore c.history := by
  have hunsealed : ¬ c.isSealed = true := by
    rw [h.unsealed]
    nofun
  refine ⟨?_, fun hmem => hunsealed (h.book.closing hmem), ?_, ?_⟩
  · have hcount := h.book.frozen
    rwa [hfrozen] at hcount
  · intro k hmem
    rcases h.book.unknown k hmem with hsealed | ⟨e, he, -, hany⟩
    · exact hunsealed hsealed
    · obtain ⟨answer, houtcome, hknown⟩ := h.known e he nofun
      rw [houtcome] at hany
      exact absurd hany (by simp [hknown])
  · intro k hmem
    rcases h.book.applied k hmem with hsealed | ⟨e, he, rfl⟩
    · exact absurd hsealed hunsealed
    · obtain ⟨answer, houtcome, -⟩ := h.known e he nofun
      exact h.book.ended e he (by rw [houtcome]; rfl)

theorem Running.restore (h : Running operationId c) : Running operationId c.restore := by
  unfold UpdateMaintenanceCoordinator.restore
  split_ifs with hfrozen
  · refine ⟨h.preparation, ?_, h.unsealed, h.known⟩
    have hcount := h.book.frozen
    rw [hfrozen, if_pos rfl] at hcount
    have hway : OneWay (c.history ++ [.restored]) :=
      h.book.oneWay.concat (fun _ => h.mayRestore hfrozen) nofun nofun nofun
    refine h.book.append false hway ?_ nofun nofun nofun
    rw [List.count_append, List.count_append, List.count_singleton, List.count_singleton,
      if_neg (by decide), if_pos (by decide), if_neg (by decide)]
    omega
  · exact h

theorem restore_isFrozen (c : UpdateMaintenanceCoordinator) : c.restore.isFrozen = false := by
  unfold restore
  split_ifs with hfrozen
  · rfl
  · simpa using hfrozen

theorem Running.complete {result : MaintenanceResult} (h : Running operationId c)
    (hready : result ≠ .ready) : Inv (c.restore.complete result) := by
  obtain ⟨stage, hstage⟩ := h.restore.preparation
  exact complete_inv h.restore.book hstage (fun _ => ⟨h.restore.known, restore_isFrozen c⟩)
    (fun heq => absurd heq hready)

theorem caught_started {p : Preparation} (h : Book c.sealMaintenance)
    (hpreparation : c.preparation = some p) (heffects : c.effectsStarted = true) :
    Inv (c.caught r) := by
  unfold caught
  rw [if_pos heffects]
  dsimp only
  rw [if_pos (show c.sealMaintenance.isSealed = true from rfl)]
  exact complete_inv h hpreparation nofun nofun

theorem Book.sealMaintenance (h : Book c) : Book c.sealMaintenance :=
  h.same rfl rfl rfl fun _ => rfl

theorem Running.caught (h : Running operationId c) (r : Callbacks) : Inv (c.caught r) := by
  by_cases heffects : c.effectsStarted = true
  · obtain ⟨stage, hstage⟩ := h.preparation
    exact caught_started h.book.sealMaintenance hstage heffects
  · unfold UpdateMaintenanceCoordinator.caught
    rw [if_neg heffects]
    dsimp only
    rw [if_neg (by rw [h.unsealed]; nofun)]
    split_ifs
    · exact h.complete nofun
    · exact h.complete nofun

theorem caught_sealed {p : Preparation} (h : Book c) (hpreparation : c.preparation = some p)
    (hsealed : c.isSealed = true) : Inv (c.caught r) := by
  unfold caught
  have hbook : Book (if c.effectsStarted = true then c.sealMaintenance else c) := by
    split_ifs
    · exact h.sealMaintenance
    · exact h
  have hkept : (if c.effectsStarted = true then c.sealMaintenance else c).isSealed = true ∧
      (if c.effectsStarted = true then c.sealMaintenance else c).preparation = some p := by
    split_ifs
    · exact ⟨rfl, hpreparation⟩
    · exact ⟨hsealed, hpreparation⟩
  dsimp only
  rw [if_pos hkept.1]
  refine complete_inv hbook hkept.2 ?_ nofun
  intro hopen
  rw [hkept.1] at hopen
  cases hopen

theorem Running.restoreThen {result : MaintenanceResult} (h : Running operationId c)
    (r : Callbacks) (hready : result ≠ .ready) : Inv (c.restoreThen result r) := by
  unfold UpdateMaintenanceCoordinator.restoreThen
  split_ifs
  · exact h.restore.caught r
  · exact h.complete hready

theorem Running.defer (h : Running operationId c) (r : Callbacks) (k : Nat) :
    Inv (c.defer r k) := by
  unfold UpdateMaintenanceCoordinator.defer
  cases r.clock k with
  | none => exact h.caught r
  | some now =>
    have hnext : Running operationId { c with retryAfter := some (now + retryDelay) } :=
      ⟨h.preparation, h.book.same rfl rfl rfl id, h.unsealed, h.known⟩
    exact hnext.restoreThen r nofun

/-! ## The events of a preparation -/

theorem policy?_none (h : (c.policy? operationId).isSome = false) :
    ∀ e ∈ c.exitPolicies, e.operationId ≠ operationId := by
  intro e he heq
  have hnone : c.policy? operationId = none := by simpa using h
  exact List.find?_eq_none.mp hnone e he (by simpa using heq)

theorem policy?_some {e : ExitPolicy} (h : c.policy? operationId = some e) :
    e ∈ c.exitPolicies ∧ e.operationId = operationId :=
  ⟨List.mem_of_find?_eq_some h, by simpa using List.find?_some h⟩

theorem Running.not_applied (h : Running operationId c)
    (hnone : (c.policy? operationId).isSome = false) :
    .policiesApplied operationId ∉ c.history := by
  intro hmem
  rcases h.book.applied operationId hmem with hsealed | ⟨e, he, heq⟩
  · rw [h.unsealed] at hsealed
    cases hsealed
  · exact policy?_none hnone e he heq

theorem Running.applied (h : Running operationId c)
    (hnone : (c.policy? operationId).isSome = false) :
    Book { c.record (.policiesApplied operationId) with
      exitPolicies := c.exitPolicies ++ [{ operationId := operationId }] } := by
  have hway : OneWay (c.history ++ [.policiesApplied operationId]) := by
    refine h.book.oneWay.concat nofun ?_ nofun nofun
    intro k heq
    cases heq
    exact h.not_applied hnone
  refine ⟨hway, ?_, ?_, ?_, ?_, ?_, ?_⟩
  · have hcount := h.book.frozen
    show (c.history ++ [MaintenanceHistory.policiesApplied operationId]).count
        MaintenanceHistory.frozen =
      (c.history ++ [MaintenanceHistory.policiesApplied operationId]).count
        MaintenanceHistory.restored + _
    rw [List.count_append, List.count_append, List.count_singleton, List.count_singleton,
      if_neg (by simp), if_neg (by simp)]
    exact hcount
  · rw [List.map_append]
    refine List.Nodup.append h.book.ids (List.nodup_singleton _) ?_
    intro k hold hnew
    obtain ⟨e, he, rfl⟩ := List.mem_map.mp hold
    exact policy?_none hnone e he (by simpa using hnew)
  · intro k hmem
    right
    rcases List.mem_append.mp hmem with hold | hnew
    · rcases h.book.applied k hold with hsealed | ⟨e, he, heq⟩
      · rw [h.unsealed] at hsealed
        cases hsealed
      · exact ⟨e, List.mem_append_left _ he, heq⟩
    · cases List.mem_singleton.mp hnew
      exact ⟨_, List.mem_append_right _ (List.mem_singleton_self _), rfl⟩
  · intro e he hsome
    rcases List.mem_append.mp he with hold | hnew
    · exact List.mem_append_left _ (h.book.ended e hold hsome)
    · rw [List.mem_singleton.mp hnew] at hsome
      cases hsome
  · intro k hmem
    rcases List.mem_append.mp hmem with hold | hnew
    · exact (h.book.unknown k hold).imp_right fun ⟨e, he, hrest⟩ =>
        ⟨e, List.mem_append_left _ he, hrest⟩
    · cases List.mem_singleton.mp hnew
  · intro hmem
    exact h.book.closing (by simpa [record] using hmem)

theorem Running.applied_throws (h : Running operationId c)
    (hnone : (c.policy? operationId).isSome = false) (heffects : c.effectsStarted = true) :
    Inv (((c.record (.policiesApplied operationId)).record
      (.policiesUnknown operationId)).caught r) := by
  obtain ⟨stage, hstage⟩ := h.preparation
  have hsealed := h.book.sealMaintenance
  have happlied : Book (c.sealMaintenance.record (.policiesApplied operationId)) := by
    refine hsealed.record (h.book.oneWay.concat nofun ?_ nofun nofun) nofun nofun
      (fun _ _ => rfl) nofun nofun
    intro k heq
    cases heq
    exact h.not_applied hnone
  have hunknown : Book ((c.sealMaintenance.record (.policiesApplied operationId)).record
      (.policiesUnknown operationId)) :=
    happlied.record (happlied.oneWay.concat nofun nofun nofun nofun) nofun nofun nofun
      (fun _ _ => .inl rfl) nofun
  exact caught_started hunknown hstage heffects

theorem Running.awaitPolicies (h : Running operationId c) (deadline : Int) (r : Callbacks) :
    Inv (c.awaitPolicies operationId deadline r) := by
  have hnext : Running operationId { c with effectsStarted := true } :=
    ⟨h.preparation, h.book.same rfl rfl rfl id, h.unsealed, h.known⟩
  obtain ⟨stage, hstage⟩ := h.preparation
  unfold UpdateMaintenanceCoordinator.awaitPolicies
  dsimp only
  split
  case isTrue =>
    refine ⟨hnext.book.same rfl rfl rfl id, ?_⟩
    unfold StageOk setStage
    dsimp only
    rw [hstage]
    exact ⟨h.unsealed, rfl, fun e he _ => h.known e he nofun⟩
  case isFalse hpolicy =>
    have hnone := Bool.eq_false_iff.mpr hpolicy
    split
    case isTrue =>
      refine ⟨(hnext.applied hnone).same rfl rfl rfl id, ?_⟩
      unfold StageOk setStage record
      dsimp only
      rw [hstage]
      refine ⟨h.unsealed, rfl, ?_⟩
      intro e he hne
      rcases List.mem_append.mp he with hold | hnew
      · exact h.known e hold nofun
      · rw [List.mem_singleton.mp hnew] at hne
        exact absurd rfl hne
    case isFalse => exact hnext.applied_throws hnone rfl

theorem Running.startPolicies (h : Running operationId c) (deadline : Int) (r : Callbacks)
    (k : Nat) : Inv (c.startPolicies operationId deadline r k) := by
  unfold UpdateMaintenanceCoordinator.startPolicies
  split_ifs with hcancel hlimit
  · exact h.restoreThen r nofun
  · exact h.restoreThen r nofun
  · cases r.clock k with
    | none => exact h.caught r
    | some now =>
      dsimp only
      split_ifs
      · exact h.defer r (k + 1)
      · exact h.awaitPolicies deadline r

theorem Running.idleLoop (h : Running operationId c) (deadline : Int) (r : Callbacks) (k : Nat) :
    Inv (c.idleLoop operationId deadline r k) := by
  unfold UpdateMaintenanceCoordinator.idleLoop
  cases r.isSafelyIdle with
  | none => exact h.caught r
  | some isIdle =>
    cases isIdle with
    | true => exact h.startPolicies deadline r k
    | false =>
      dsimp only
      split_ifs with hcancel
      · exact h.defer r k
      · cases r.clock k with
        | none => exact h.caught r
        | some now =>
          dsimp only
          split_ifs
          · obtain ⟨stage, hstage⟩ := h.preparation
            refine ⟨h.book.same rfl rfl rfl id, ?_⟩
            unfold StageOk setStage
            rw [hstage]
            exact ⟨h.unsealed, h.known⟩
          · exact h.defer r (k + 1)

theorem Running.recheck (h : Running operationId c) (deadline : Int) (r : Callbacks)
    {next : Nat → UpdateMaintenanceCoordinator} (hnext : Inv (next 1)) :
    Inv (c.recheck deadline r next) := by
  unfold UpdateMaintenanceCoordinator.recheck
  split_ifs with hcancel
  · exact h.defer r 0
  · cases r.isSafelyIdle with
    | none => exact h.caught r
    | some isIdle =>
      cases isIdle with
      | false => exact h.defer r 0
      | true =>
        cases r.clock 0 with
        | none => exact h.caught r
        | some now =>
          dsimp only
          split_ifs
          · exact hnext
          · exact h.defer r 1

theorem Running.startSnapshot (h : Running operationId c) (heffects : c.effectsStarted = true)
    (deadline : Int) (r : Callbacks) (k : Nat) : Inv (c.startSnapshot deadline r k) := by
  have hstage : Inv (c.setStage (.awaitingSnapshot deadline)) := by
    obtain ⟨stage, hstage⟩ := h.preparation
    refine ⟨h.book.same rfl rfl rfl id, ?_⟩
    unfold StageOk setStage
    rw [hstage]
    exact ⟨h.unsealed, heffects, h.known⟩
  unfold UpdateMaintenanceCoordinator.startSnapshot startAwait
  split_ifs
  · exact hstage
  · exact h.caught r
  · exact hstage

theorem Running.startClose (h : Running operationId c) (r : Callbacks) (k : Nat) :
    Inv (c.startClose r k) := by
  obtain ⟨stage, hstage⟩ := h.preparation
  have hsealed := h.book.sealMaintenance
  have hnot : MaintenanceHistory.closing ∉ c.history := by
    intro hmem
    have hclosed := h.book.closing hmem
    rw [h.unsealed] at hclosed
    cases hclosed
  have hbook : Book (c.sealMaintenance.record .closing) :=
    hsealed.record (h.book.oneWay.concat nofun nofun (fun _ => hnot) nofun) nofun nofun nofun nofun
      fun _ => rfl
  unfold UpdateMaintenanceCoordinator.startClose startAwait
  split_ifs
  · refine ⟨hbook.same rfl rfl rfl id, ?_⟩
    unfold StageOk setStage record sealMaintenance
    dsimp only
    rw [hstage]
    rfl
  · exact caught_sealed hbook hstage rfl

/-! ## Every event -/

theorem Inv.begin (h : Inv c) (hnone : c.preparation = none) (operationId : Text) (r : Callbacks)
    (k : Nat) : Inv (c.begin operationId r k) := by
  have hok := h.stage
  unfold StageOk at hok
  rw [hnone] at hok
  obtain ⟨hunsealed, hknown, hfrozen⟩ := hok
  have hrunning : Running operationId { c with
      preparation := some { operationId := operationId, stage := .starting }
      cancelRequested := false
      effectsStarted := false } :=
    ⟨⟨.starting, rfl⟩, h.book.same rfl rfl rfl id, hunsealed, hknown⟩
  unfold UpdateMaintenanceCoordinator.begin
  dsimp only
  split
  case isTrue =>
    have hfreeze : Running operationId (record .frozen { c with
        preparation := some { operationId := operationId, stage := .starting }
        cancelRequested := false
        effectsStarted := false
        isFrozen := true }) := by
      have hway : OneWay (c.history ++ [.frozen]) := h.book.oneWay.concat nofun nofun nofun nofun
      refine ⟨⟨.starting, rfl⟩, hrunning.book.append true hway ?_ nofun nofun nofun, hunsealed,
        hknown⟩
      have hcount := h.book.frozen
      rw [hfrozen] at hcount
      rw [List.count_append, List.count_append, List.count_singleton, List.count_singleton,
        if_pos (by decide), if_neg (by decide)]
      simpa using hcount
    cases r.clock k with
    | none => exact hfreeze.caught r
    | some now => exact hfreeze.idleLoop _ r (k + 1)
  case isFalse => exact hrunning.caught r

theorem Inv.prepare (h : Inv c) (operationId : Text) (r : Callbacks) :
    Inv (c.prepare operationId r) := by
  have hreport : ∀ result, result ≠ .ready → Inv (c.record (.reported result)) := by
    intro result hresult
    exact ⟨h.book.report fun heq => absurd heq hresult, h.stage⟩
  unfold UpdateMaintenanceCoordinator.prepare
  split
  case h_1 p hp =>
    split_ifs
    · exact h
    · exact hreport _ nofun
  case h_2 hnone =>
    split
    case h_1 => exact h.begin hnone operationId r 0
    case h_2 nextAttempt _ =>
      split
      case h_1 => exact h
      case h_2 now _ =>
        split_ifs
        · exact hreport _ nofun
        · exact h.begin hnone operationId r 1

theorem Inv.cancel (h : Inv c) : Inv c.cancel := by
  unfold UpdateMaintenanceCoordinator.cancel
  split_ifs with hsealed
  · exact h
  · have hok := h.stage
    have hnext : Inv { c with cancelRequested := true } := ⟨h.book.same rfl rfl rfl id, hok⟩
    dsimp only
    split_ifs with hnone
    · unfold StageOk at hok
      rw [Option.isNone_iff_eq_none.mp hnone] at hok
      have hrestore : restore { c with cancelRequested := true } =
          { c with cancelRequested := true } := by
        unfold UpdateMaintenanceCoordinator.restore
        exact if_neg (by simp [hok.2.2])
      rw [hrestore]
      exact hnext
    · exact hnext

theorem Inv.waited {returns : Bool} (h : Inv c) (hstep : c.waited returns r = some c') :
    Inv c' := by
  have hok := h.stage
  unfold UpdateMaintenanceCoordinator.waited at hstep
  split at hstep
  case h_1 operationId deadline hp =>
    unfold StageOk at hok
    rw [hp] at hok
    have hrunning : Running operationId c := ⟨⟨_, hp⟩, h.book, hok.1, hok.2⟩
    cases hstep
    split_ifs
    · exact hrunning.idleLoop deadline r 0
    · exact hrunning.caught r
  case h_2 => cases hstep

theorem Book.policy_unique (h : Book c) {e e' : ExitPolicy} (he : c.policy? operationId = some e)
    (he' : e' ∈ c.exitPolicies) (hid : e'.operationId = operationId) : e' = e := by
  have hfound := Rows.find?_of_nodup h.ids he'
  unfold policy? at he
  rw [hid] at hfound
  exact Option.some.inj (hfound.symm.trans he)

theorem mem_completed {rows : List ExitPolicy} {answer : CallbackAnswer} {e : ExitPolicy}
    (h : e ∈ Rows.write (fun e => decide (e.operationId = operationId))
      (fun e => { e with outcome := some answer }) rows) :
    (e ∈ rows ∧ e.operationId ≠ operationId) ∨
      (e = { operationId := operationId, outcome := some answer } ∧
        ∃ old ∈ rows, old.operationId = operationId) := by
  obtain ⟨old, hold, rfl⟩ := Rows.mem_write.mp h
  split_ifs with heq
  · have hid : old.operationId = operationId := by simpa using heq
    exact .inr ⟨by rw [hid], old, hold, hid⟩
  · exact .inl ⟨hold, by simpa using heq⟩

theorem Book.completed {e : ExitPolicy} {answer : CallbackAnswer} (h : Book c)
    (he : c.policy? operationId = some e) (hpending : e.outcome = none)
    (hended : .policiesEnded operationId ∈ c.history) :
    Book { c with
      exitPolicies := Rows.write (fun e => decide (e.operationId = operationId))
        (fun e => { e with outcome := some answer }) c.exitPolicies } := by
  refine ⟨h.oneWay, h.frozen, ?_, ?_, ?_, ?_, h.closing⟩
  · have hids : (Rows.write (fun e => decide (e.operationId = operationId))
        (fun e => { e with outcome := some answer }) c.exitPolicies).map ExitPolicy.operationId =
          c.exitPolicies.map ExitPolicy.operationId := by
      refine Rows.map_write ?_ _
      exact fun _ => rfl
    show (List.map ExitPolicy.operationId (Rows.write _ _ c.exitPolicies)).Nodup
    rw [hids]
    exact h.ids
  · intro k hmem
    refine (h.applied k hmem).imp_right ?_
    rintro ⟨old, hold, hid⟩
    refine ⟨_, Rows.mem_write.mpr ⟨old, hold, rfl⟩, ?_⟩
    split_ifs
    · exact hid
    · exact hid
  · intro new hnew hsome
    rcases mem_completed hnew with ⟨hold, -⟩ | ⟨rfl, -⟩
    · exact h.ended new hold hsome
    · exact hended
  · intro k hmem
    refine (h.unknown k hmem).imp_right ?_
    rintro ⟨old, hold, hid, hany⟩
    have hne : old.operationId ≠ operationId := by
      intro heq
      rw [h.policy_unique he hold heq, hpending] at hany
      cases hany
    refine ⟨old, Rows.mem_write.mpr ⟨old, hold, ?_⟩, hid, hany⟩
    rw [if_neg (by simpa using hne)]

theorem AllKnown.completed {pending : Option Text} {e : ExitPolicy} {answer : CallbackAnswer}
    (h : AllKnown pending c) (he : c.policy? operationId = some e) (hpending : e.outcome = none)
    {new : UpdateMaintenanceCoordinator}
    (hnew : new.exitPolicies = Rows.write (fun e => decide (e.operationId = operationId))
      (fun e => { e with outcome := some answer }) c.exitPolicies) :
    some operationId = pending ∧ AllKnown pending new := by
  obtain ⟨hmem, hid⟩ := policy?_some he
  have hawaited : some operationId = pending := by
    by_contra hne
    obtain ⟨known, houtcome, -⟩ := h e hmem (by rwa [hid])
    rw [hpending] at houtcome
    cases houtcome
  refine ⟨hawaited, ?_⟩
  intro e' he' hne
  rw [hnew] at he'
  rcases mem_completed he' with ⟨hold, -⟩ | ⟨rfl, -⟩
  · exact h e' hold hne
  · exact absurd hawaited hne

theorem Inv.completePolicies {answer : CallbackAnswer} (h : Inv c)
    (hstep : c.completePolicies operationId answer = some c') : Inv c' := by
  unfold UpdateMaintenanceCoordinator.completePolicies at hstep
  split at hstep
  case h_1 k he =>
    have hended : Book (c.record (.policiesEnded operationId)) :=
      h.book.record (h.book.oneWay.concat nofun nofun nofun nofun) nofun nofun nofun nofun nofun
    have hbook := @Book.completed _ _ _ answer hended he rfl
      (List.mem_append_right _ (List.mem_singleton_self _))
    have hstage : ∀ new : UpdateMaintenanceCoordinator,
        new.preparation = c.preparation → new.isSealed = c.isSealed →
        new.effectsStarted = c.effectsStarted → new.isFrozen = c.isFrozen →
        new.exitPolicies = Rows.write (fun e => decide (e.operationId = operationId))
          (fun e => { e with outcome := some answer }) c.exitPolicies → StageOk new := by
      intro new hpreparation hsealed heffects hfrozen hpolicies
      have hok := h.stage
      unfold StageOk at hok ⊢
      rw [hpreparation, hsealed, heffects, hfrozen]
      split at hok
      case h_1 => exact absurd (hok.2.1.completed he rfl hpolicies).1 nofun
      case h_2 p hp =>
        split at hok
        case h_1 => exact hok
        case h_2 => exact absurd (hok.2.completed he rfl hpolicies).1 nofun
        case h_3 => exact ⟨hok.1, hok.2.1, (hok.2.2.completed he rfl hpolicies).2⟩
        case h_4 => exact absurd (hok.2.2.completed he rfl hpolicies).1 nofun
        case h_5 => exact hok
        case h_6 =>
          intro hunsealed
          exact absurd ((hok hunsealed).1.completed he rfl hpolicies).1 nofun
    cases hstep
    split_ifs with hunknown
    · refine ⟨hbook.record (hbook.oneWay.concat nofun nofun nofun nofun) nofun nofun nofun ?_ nofun,
        hstage _ rfl rfl rfl rfl rfl⟩
      intro k heq
      cases heq
      obtain ⟨hmem, hid⟩ := policy?_some he
      exact .inr ⟨_, Rows.mem_write.mpr ⟨_, hmem, if_pos (by simpa using hid)⟩, hid, hunknown⟩
    · exact ⟨hbook, hstage _ rfl rfl rfl rfl rfl⟩
  case h_2 => cases hstep

theorem Inv.policiesAnswered (h : Inv c) (hstep : c.policiesAnswered r = some c') : Inv c' := by
  have hok := h.stage
  unfold UpdateMaintenanceCoordinator.policiesAnswered at hstep
  split at hstep
  case h_1 operationId deadline hp =>
    unfold StageOk at hok
    rw [hp] at hok
    obtain ⟨hunsealed, heffects, hknown⟩ := hok
    -- once the awaited exit policies have a known outcome, all of them have
    have hrunning : ∀ answer, (c.policy? operationId).bind ExitPolicy.outcome = some answer →
        answer.isUnknown = false → Running operationId c := by
      intro answer hanswer hanswerKnown
      refine ⟨⟨_, hp⟩, h.book, hunsealed, ?_⟩
      intro e he _
      by_cases hid : e.operationId = operationId
      · obtain ⟨found, hfound, houtcome⟩ := Option.bind_eq_some_iff.mp hanswer
        rw [h.book.policy_unique hfound he hid]
        exact ⟨answer, houtcome, hanswerKnown⟩
      · exact hknown e he fun heq => hid (Option.some.inj heq)
    split at hstep
    case h_1 => cases hstep
    case h_2 =>
      cases hstep
      exact caught_started h.book.sealMaintenance hp heffects
    case h_3 e hanswer =>
      split at hstep
      case isTrue =>
        cases hstep
        exact complete_inv h.book.sealMaintenance hp nofun nofun
      case isFalse hunknown =>
        have hnext := hrunning _ hanswer (Bool.eq_false_iff.mpr hunknown)
        split at hstep
        case h_1 =>
          cases hstep
          exact hnext.caught r
        case h_2 =>
          cases hstep
          exact complete_inv h.book.sealMaintenance hp nofun nofun
        case h_3 =>
          cases hstep
          exact hnext.restoreThen r nofun
    case h_4 hanswer =>
      cases hstep
      have hnext := hrunning _ hanswer rfl
      exact hnext.recheck deadline r (hnext.startSnapshot heffects deadline r 1)
  case h_2 => cases hstep

theorem Inv.policiesTimedOut (h : Inv c) (hstep : c.policiesTimedOut = some c') : Inv c' := by
  unfold UpdateMaintenanceCoordinator.policiesTimedOut at hstep
  split at hstep
  case h_1 operationId deadline hp =>
    cases hstep
    have hsealed := h.book.sealMaintenance
    have hunknown : Book (c.sealMaintenance.record (.policiesUnknown operationId)) :=
      hsealed.record (h.book.oneWay.concat nofun nofun nofun nofun) nofun nofun nofun
        (fun _ _ => .inl rfl) nofun
    exact complete_inv hunknown hp nofun nofun
  case h_2 => cases hstep

theorem Inv.snapshotAnswered {answer : CallbackAnswer} (h : Inv c)
    (hstep : c.snapshotAnswered answer r = some c') : Inv c' := by
  have hok := h.stage
  unfold UpdateMaintenanceCoordinator.snapshotAnswered at hstep
  split at hstep
  case h_1 operationId deadline hp =>
    unfold StageOk at hok
    rw [hp] at hok
    have hrunning : Running operationId c := ⟨⟨_, hp⟩, h.book, hok.1, hok.2.2⟩
    split at hstep
    case isTrue =>
      cases answer with
      | throws =>
        cases hstep
        exact hrunning.caught r
      | failure e =>
        cases hstep
        split_ifs
        · exact complete_inv h.book.sealMaintenance hp nofun nofun
        · exact hrunning.restoreThen r nofun
      | success =>
        cases hstep
        exact hrunning.recheck deadline r (hrunning.startClose r 1)
    case isFalse => cases hstep
  case h_2 => cases hstep

theorem Inv.closeAnswered {answer : CallbackAnswer} (h : Inv c)
    (hstep : c.closeAnswered answer r = some c') : Inv c' := by
  have hok := h.stage
  unfold UpdateMaintenanceCoordinator.closeAnswered at hstep
  split at hstep
  case h_1 operationId hp =>
    unfold StageOk at hok
    rw [hp] at hok
    have hopen : ¬ c.isSealed = false := by
      rw [hok]
      nofun
    cases answer with
    | throws =>
      cases hstep
      exact caught_sealed h.book hp hok
    | failure e =>
      cases hstep
      exact complete_inv h.book hp (fun hunsealed => absurd hunsealed hopen) nofun
    | success =>
      cases hstep
      have hclosed : Book (c.record .closed) :=
        h.book.record (h.book.oneWay.concat nofun nofun nofun nofun) nofun nofun nofun nofun nofun
      refine complete_inv hclosed hp (fun hunsealed => absurd hunsealed hopen) ?_
      intro _
      exact List.mem_append_right _ (List.mem_singleton_self _)
  case h_2 => cases hstep

theorem Inv.whenComplete (h : Inv c) (hstep : c.whenComplete = some c') : Inv c' := by
  have hok := h.stage
  unfold UpdateMaintenanceCoordinator.whenComplete at hstep
  split at hstep
  case h_1 operationId result hp =>
    unfold StageOk at hok
    rw [hp] at hok
    cases hstep
    split_ifs with hsealed
    · exact h
    · have hunsealed : c.isSealed = false := by simpa using hsealed
      exact ⟨h.book.same rfl rfl rfl id, hunsealed, hok hunsealed⟩
  case h_2 => cases hstep

theorem Inv.start (hasBeforeClose : Bool) :
    Inv ({ hasBeforeClose := hasBeforeClose } : UpdateMaintenanceCoordinator) := by
  have hway : OneWay [] := by
    refine ⟨?_, fun _ => Nat.zero_le _, Nat.zero_le _, ?_⟩
    · intro before after heq
      simp at heq
    · intro before after heq
      simp at heq
  exact ⟨⟨hway, rfl, List.nodup_nil, nofun, nofun, nofun, nofun⟩, rfl, nofun, rfl⟩

theorem Inv.step {event : Event} (h : Inv c) (hstep : machine.step c event = some c') :
    Inv c' := by
  cases event with
  | prepare operationId r =>
    cases hstep
    exact h.prepare operationId r
  | cancel =>
    cases hstep
    exact h.cancel
  | waited returns r => exact h.waited hstep
  | completePolicies operationId answer => exact h.completePolicies hstep
  | policiesAnswered r => exact h.policiesAnswered hstep
  | policiesTimedOut => exact h.policiesTimedOut hstep
  | snapshotAnswered answer r => exact h.snapshotAnswered hstep
  | closeAnswered answer r => exact h.closeAnswered hstep
  | whenComplete => exact h.whenComplete hstep

theorem inv_of_reachable (h : machine.Reachable c) : Inv c := by
  refine Machine.Reach.invariant ?_ ?_ h
  · rintro c ⟨hasBeforeClose, rfl⟩
    exact Inv.start hasBeforeClose
  · intro c event c' hc _ hstep
    exact hc.step hstep

/-- Whatever the callbacks come to and however the calls are interleaved, maintenance is one
way. -/
theorem one_way (c : UpdateMaintenanceCoordinator) (h : machine.Reachable c) : OneWay c.history :=
  (inv_of_reachable h).book.oneWay

/-! ## Runs -/

/-- An agent that is idle and whose clock stands still. -/
def idleCallbacks : Callbacks := { clock := fun _ => some 0 }

/-- A preparation that goes through, with a `cancel` that comes too late. -/
def readyRun : List Event :=
  [.prepare ['u'] idleCallbacks, .completePolicies ['u'] .success, .policiesAnswered idleCallbacks,
    .snapshotAnswered .success idleCallbacks, .cancel, .closeAnswered .success idleCallbacks,
    .whenComplete]

def afterEvents (events : List Event) : UpdateMaintenanceCoordinator :=
  (machine.run {} events).getD {}

theorem coordinator_start : machine.start {} :=
  ⟨true, rfl⟩

theorem one_way_readyRun :
    (afterEvents readyRun).history =
        [.frozen, .policiesApplied ['u'], .policiesEnded ['u'], .closing, .closed,
          .reported .ready] ∧
      OneWay (afterEvents readyRun).history :=
  ⟨rfl, one_way _ (Machine.reachable_of_run coordinator_start
    (show machine.run _ readyRun = some (afterEvents readyRun) from rfl))⟩

end UpdateMaintenanceCoordinator

end PlugAgente.Maintenance
