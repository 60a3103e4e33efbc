import PlugAgente.Batch.ReadOnlyParallel

/-!
# What a parallel read-only batch accounts for

Each command is taken once from the cursor, so it is in the hands of at most one worker and comes to
at most one outcome, and the permits are those that were given back and those that workers hold.
The result at an index is made of the outcome of the command at that index and of no other.  All
workers have ended when the connections are released, one after the other, and the execution ends
when none is left.
-/

namespace PlugAgente.Batch

namespace ReadOnlyRun

variable {ρ : Type} {batch : ReadOnlyBatch} {s s' : ReadOnlyRun ρ}

/-- The commands that were handed to the runner. -/
def executedIndexes (s : ReadOnlyRun ρ) : List Nat :=
  s.executed.map ExecutedCommand.index

/-! ## The invariant -/

/-- What holds of the command of a worker. -/
def WorkerOk (batch : ReadOnlyBatch) (s : ReadOnlyRun ρ) : WorkerStage → Prop
  | .awaitingPermit index | .admitted index => index < s.cursor ∧ index < batch.commands.length
  | .executing index => index ∈ s.executedIndexes
  | .ready | .returned | .thrown => True

/-- The item of a command that has come to something; an exception that leaves the runner has
none. -/
def itemOf (batch : ReadOnlyBatch) (index : Nat) : ItemOutcome ρ → Option (SqlCommandResult ρ)
  | .expired => some (.failure index "Batch SQL execution timeout")
  | .noPermit => some (.failure index
      "Batch SQL execution timeout while waiting for read-only parallel capacity")
  | .cancelled => some (.failure index "Batch SQL execution was cancelled")
  | .expiredWithPermit => some (.failure index
      "Batch SQL execution timeout before read-only item execution")
  | .unprepared => some (.failure index "Batch SQL execution timeout")
  | .answered (.response response) => some (.ofResponse index batch.maxRows response)
  | .answered (.failure e) => some (.failure index e.message)
  | .answered .timedOut => some (.failure index "Batch SQL execution timeout")
  | .answered .throws => none

/-- The command of an outcome that is an answer of the runner. -/
def answered? : Nat × ItemOutcome ρ → Option Nat
  | (index, .answered _) => some index
  | _ => none

/-- What holds of the workers, the permits, the outcomes and the results. -/
structure Work (batch : ReadOnlyBatch) (s : ReadOnlyRun ρ) : Prop where
  executed_nodup : (s.executedIndexes ++ s.workers.filterMap WorkerStage.unexecuted?).Nodup
  executed : ∀ call ∈ s.executed,
    call.index < s.cursor ∧ batch.commands[call.index]? = some call.command
  answered : s.executedIndexes.Perm
    (s.outcomes.filterMap answered? ++ s.workers.filterMap WorkerStage.executing?)
  outcomes_nodup : (s.outcomes.map Prod.fst ++ s.workers.filterMap WorkerStage.taken?).Nodup
  outcomes_lt : ∀ index ∈ s.outcomes.map Prod.fst, index < s.cursor
  permits_nodup : (s.permits ++ s.workers.filterMap WorkerStage.awaiting?).Nodup
  permits_lt : ∀ index ∈ s.permits, index < s.cursor
  permits_held : s.permits.Perm (s.permitReleases ++ s.workers.filterMap WorkerStage.holding?)
  workers : ∀ stage ∈ s.workers, WorkerOk batch s stage
  results : ∀ (index : Nat) (entry : Option (SqlCommandResult ρ)), s.results[index]? = some entry →
    entry = (s.outcomes.lookup index).bind (itemOf batch index)

/-- The item at an index of the list that is returned. -/
def itemAt (batch : ReadOnlyBatch) (cancelled : Bool) (s : ReadOnlyRun ρ) (index : Nat) :
    SqlCommandResult ρ :=
  ((s.outcomes.lookup index).bind (itemOf batch index)).getD (missingResult cancelled index)

/-- All acquires have settled and all workers have ended. -/
structure Quiet (s : ReadOnlyRun ρ) : Prop where
  settled : ∀ a ∈ s.acquires, a.isSettled = true
  done : ∀ stage ∈ s.workers, stage.isDone = true

/-- What holds of each phase. -/
def PhaseOk (batch : ReadOnlyBatch) (s : ReadOnlyRun ρ) : Prop :=
  match s.phase with
  | .entered =>
    s.acquires = [] ∧ s.workers = [] ∧ s.released = [] ∧ s.results = [] ∧ s.outcomes = []
  | .warmingUp => s.workers = [] ∧ s.released = [] ∧ s.results = [] ∧ s.outcomes = []
  | .working =>
    (∀ a ∈ s.acquires, a.isSettled = true) ∧ s.released = [] ∧
      s.results.length = batch.commands.length
  | .releasing remaining ending =>
    s.Quiet ∧ s.released ++ remaining = s.workerConnections ∧
      (ending = .lists → s.results.length = batch.commands.length)
  | .failed _ | .thrown => s.Quiet ∧ s.released = s.workerConnections
  | .returned results =>
    s.Quiet ∧ s.released = s.workerConnections ∧
      ∃ cancelled, results = (List.range batch.commands.length).map (s.itemAt batch cancelled)

structure Accounted (batch : ReadOnlyBatch) (s : ReadOnlyRun ρ) : Prop where
  work : Work batch s
  phase : PhaseOk batch s

/-! ## Steps of one worker -/

theorem WorkerOk.of_lt {stage : WorkerStage} (h : WorkerOk batch s stage)
    (hexecuted : s.executedIndexes ⊆ s'.executedIndexes) (hcursor : s.cursor ≤ s'.cursor) :
    WorkerOk batch s' stage := by
  cases stage with
  | ready | returned | thrown => trivial
  | awaitingPermit index | admitted index => exact ⟨lt_of_lt_of_le h.1 hcursor, h.2⟩
  | executing index => exact hexecuted h

theorem workers_set {worker : Nat} {stage : WorkerStage}
    (h : ∀ old ∈ s.workers, WorkerOk batch s old)
    (hexecuted : s.executedIndexes ⊆ s'.executedIndexes) (hcursor : s.cursor ≤ s'.cursor)
    (hstage : WorkerOk batch s' stage) :
    ∀ new ∈ s.workers.set worker stage, WorkerOk batch s' new := by
  intro new hnew
  rcases List.mem_or_eq_of_mem_set hnew with hold | rfl
  · exact (h new hold).of_lt hexecuted hcursor
  · exact hstage

theorem Work.idle {worker : Nat} {stage : WorkerStage} (h : Work batch s)
    (hw : s.workers[worker]? = some .ready) (hstage : stage = .ready ∨ stage = .returned) :
    Work batch (s.setWorker worker stage) := by
  have hnone : stage.unexecuted? = none ∧ stage.awaiting? = none ∧ stage.holding? = none ∧
      stage.taken? = none ∧ stage.executing? = none := by
    rcases hstage with rfl | rfl
    · exact ⟨rfl, rfl, rfl, rfl, rfl⟩
    · exact ⟨rfl, rfl, rfl, rfl, rfl⟩
  obtain ⟨hunexecuted, hawaiting, hholding, htaken, hexecuting⟩ := hnone
  refine ⟨?_, h.executed, ?_, ?_, h.outcomes_lt, ?_, h.permits_lt, ?_, ?_, h.results⟩
  · exact ((Ledger.filterMap_kept hw hunexecuted).append_left _).nodup_iff.mpr h.executed_nodup
  · exact h.answered.trans ((Ledger.filterMap_kept hw hexecuting).symm.append_left _)
  · exact ((Ledger.filterMap_kept hw htaken).append_left _).nodup_iff.mpr h.outcomes_nodup
  · exact ((Ledger.filterMap_kept hw hawaiting).append_left _).nodup_iff.mpr h.permits_nodup
  · exact h.permits_held.trans ((Ledger.filterMap_kept hw hholding).symm.append_left _)
  · refine workers_set h.workers (List.Subset.refl _) le_rfl ?_
    rcases hstage with rfl | rfl
    · trivial
    · trivial

theorem Work.advance (h : Work batch s) : Work batch { s with cursor := s.cursor + 1 } := by
  refine ⟨h.executed_nodup, ?_, h.answered, h.outcomes_nodup, ?_, h.permits_nodup, ?_,
    h.permits_held, ?_, h.results⟩
  · intro call hcall
    exact ⟨Nat.lt_succ_of_lt (h.executed call hcall).1, (h.executed call hcall).2⟩
  · intro index hindex
    exact Nat.lt_succ_of_lt (h.outcomes_lt index hindex)
  · intro index hindex
    exact Nat.lt_succ_of_lt (h.permits_lt index hindex)
  · intro stage hstage
    exact (h.workers stage hstage).of_lt (List.Subset.refl _) (Nat.le_succ _)

theorem Work.unexecuted_lt (h : Work batch s) {index : Nat}
    (hindex : index ∈ s.workers.filterMap WorkerStage.unexecuted?) : index < s.cursor := by
  obtain ⟨stage, hstage, heq⟩ := List.mem_filterMap.mp hindex
  have hok := h.workers stage hstage
  cases stage with
  | ready | returned | thrown | executing => cases heq
  | awaitingPermit k | admitted k =>
    cases heq
    exact hok.1

theorem Work.awaiting_lt (h : Work batch s) {index : Nat}
    (hindex : index ∈ s.workers.filterMap WorkerStage.awaiting?) : index < s.cursor := by
  obtain ⟨stage, hstage, heq⟩ := List.mem_filterMap.mp hindex
  have hok := h.workers stage hstage
  cases stage with
  | ready | returned | thrown | executing | admitted => cases heq
  | awaitingPermit k =>
    cases heq
    exact hok.1

theorem Work.taken_lt (h : Work batch s) {index : Nat}
    (hindex : index ∈ s.workers.filterMap WorkerStage.taken?) : index < s.cursor := by
  obtain ⟨stage, hstage, heq⟩ := List.mem_filterMap.mp hindex
  have hok := h.workers stage hstage
  cases stage with
  | ready | returned | thrown => cases heq
  | awaitingPermit k | admitted k =>
    cases heq
    exact hok.1
  | executing k =>
    cases heq
    obtain ⟨call, hcall, rfl⟩ := List.mem_map.mp hok
    exact (h.executed call hcall).1

theorem Work.cursor_fresh (h : Work batch s) :
    s.cursor ∉ s.outcomes.map Prod.fst ++ s.workers.filterMap WorkerStage.taken? := by
  rw [List.mem_append, not_or]
  exact ⟨fun hmem => absurd (h.outcomes_lt _ hmem) (lt_irrefl _),
    fun hmem => absurd (h.taken_lt hmem) (lt_irrefl _)⟩

theorem Work.take {worker : Nat} (h : Work batch s) (hw : s.workers[worker]? = some .ready)
    (hlt : s.cursor < batch.commands.length) :
    Work batch ({ s with cursor := s.cursor + 1 }.setWorker worker (.awaitingPermit s.cursor)) := by
  have hexecuted : s.cursor ∉ s.executedIndexes ++ s.workers.filterMap WorkerStage.unexecuted? := by
    rw [List.mem_append, not_or]
    refine ⟨?_, fun hmem => absurd (h.unexecuted_lt hmem) (lt_irrefl _)⟩
    intro hmem
    obtain ⟨call, hcall, heq⟩ := List.mem_map.mp hmem
    have := (h.executed call hcall).1
    omega
  have hpermits : s.cursor ∉ s.permits ++ s.workers.filterMap WorkerStage.awaiting? := by
    rw [List.mem_append, not_or]
    exact ⟨fun hmem => absurd (h.permits_lt _ hmem) (lt_irrefl _),
      fun hmem => absurd (h.awaiting_lt hmem) (lt_irrefl _)⟩
  have hnext := h.advance
  refine ⟨?_, hnext.executed, ?_, ?_, hnext.outcomes_lt, ?_, hnext.permits_lt, ?_, ?_,
    hnext.results⟩
  · have hperm := (Ledger.filterMap_come (f := WorkerStage.unexecuted?) hw rfl
      (b := .awaitingPermit s.cursor) rfl).append_left s.executedIndexes
    exact (hperm.trans List.perm_middle).nodup_iff.mpr
      (List.nodup_cons.mpr ⟨hexecuted, h.executed_nodup⟩)
  · exact h.answered.trans ((Ledger.filterMap_kept (f := WorkerStage.executing?) hw
      (b := .awaitingPermit s.cursor) rfl).symm.append_left _)
  · have hperm := (Ledger.filterMap_come (f := WorkerStage.taken?) hw rfl
      (b := .awaitingPermit s.cursor) rfl).append_left (s.outcomes.map Prod.fst)
    exact (hperm.trans List.perm_middle).nodup_iff.mpr
      (List.nodup_cons.mpr ⟨h.cursor_fresh, h.outcomes_nodup⟩)
  · have hperm := (Ledger.filterMap_come (f := WorkerStage.awaiting?) hw rfl
      (b := .awaitingPermit s.cursor) rfl).append_left s.permits
    exact (hperm.trans List.perm_middle).nodup_iff.mpr
      (List.nodup_cons.mpr ⟨hpermits, h.permits_nodup⟩)
  · exact h.permits_held.trans ((Ledger.filterMap_kept (f := WorkerStage.holding?) hw
      (b := .awaitingPermit s.cursor) rfl).symm.append_left _)
  · exact workers_set (s := { s with cursor := s.cursor + 1 }) hnext.workers
      (List.Subset.refl _) le_rfl ⟨Nat.lt_succ_self _, hlt⟩

theorem Work.admit {worker index : Nat} (h : Work batch s)
    (hw : s.workers[worker]? = some (.awaitingPermit index)) :
    Work batch ({ s with permits := s.permits ++ [index] }.setWorker worker (.admitted index)) := by
  have hok := h.workers _ (List.mem_of_getElem? hw)
  have hkept := Ledger.filterMap_kept (f := WorkerStage.unexecuted?) hw (b := .admitted index) rfl
  have hgone := Ledger.filterMap_gone (f := WorkerStage.awaiting?) hw rfl (b := .admitted index) rfl
  have hcome := Ledger.filterMap_come (f := WorkerStage.holding?) hw rfl (b := .admitted index) rfl
  have htaken := Ledger.filterMap_kept (f := WorkerStage.taken?) hw (b := .admitted index) rfl
  have hexecuting := Ledger.filterMap_kept (f := WorkerStage.executing?) hw
    (b := .admitted index) rfl
  refine ⟨?_, h.executed, ?_, ?_, h.outcomes_lt, ?_, ?_, ?_, ?_, h.results⟩
  · exact (hkept.append_left _).nodup_iff.mpr h.executed_nodup
  · exact h.answered.trans (hexecuting.symm.append_left _)
  · exact (htaken.append_left _).nodup_iff.mpr h.outcomes_nodup
  · show (s.permits ++ [index] ++ _).Nodup
    rw [List.append_assoc, List.singleton_append]
    exact (hgone.append_left s.permits).nodup_iff.mp h.permits_nodup
  · intro k hk
    rcases List.mem_append.mp hk with hold | hnew
    · exact h.permits_lt k hold
    · rw [List.mem_singleton.mp hnew]
      exact hok.1
  · calc List.Perm (s.permits ++ [index]) (index :: s.permits) := List.perm_append_singleton _ _
      List.Perm _ (index :: (s.permitReleases ++ s.workers.filterMap WorkerStage.holding?)) :=
        h.permits_held.cons index
      List.Perm _ (s.permitReleases ++ index :: s.workers.filterMap WorkerStage.holding?) :=
        List.perm_middle.symm
      List.Perm _ _ := hcome.symm.append_left _
  · exact workers_set h.workers (List.Subset.refl _) le_rfl hok

theorem lookup_recorded {s : ReadOnlyRun ρ} {index : Nat} (h : index ∉ s.outcomes.map Prod.fst)
    (outcome : Option (ItemOutcome ρ)) (k : Nat) :
    (s.outcomes ++ (outcome.map (index, ·)).toList).lookup k =
      if k = index then outcome else s.outcomes.lookup k := by
  have hnone : s.outcomes.lookup index = none := by
    rw [List.lookup_eq_none_iff]
    intro entry hentry
    rw [bne_iff_ne]
    rintro rfl
    exact h (List.mem_map_of_mem hentry)
  rw [List.lookup_append]
  cases outcome with
  | none =>
    split_ifs with hk
    · rw [hk, hnone]
      rfl
    · simp
  | some outcome =>
    split_ifs with hk
    · rw [hk, hnone]
      simp
    · have hne : (k == index) = false := beq_eq_false_iff_ne.mpr hk
      simp [List.lookup_cons, hne]

/-- The results after a command has come to something, or was left with nothing. -/
theorem results_recorded {index : Nat} (outcome : Option (ItemOutcome ρ))
    (h : ∀ (k : Nat) (entry : Option (SqlCommandResult ρ)), s.results[k]? = some entry →
      entry = (s.outcomes.lookup k).bind (itemOf batch k))
    (hfresh : index ∉ s.outcomes.map Prod.fst) (k : Nat) (entry : Option (SqlCommandResult ρ))
    (hentry : ((outcome.bind (itemOf batch index)).elim s.results fun result =>
      s.results.set index (some result))[k]? = some entry) :
    entry = ((s.outcomes ++ (outcome.map (index, ·)).toList).lookup k).bind (itemOf batch k) := by
  rw [lookup_recorded hfresh]
  have hnone : s.outcomes.lookup index = none := by
    have := lookup_recorded hfresh none index
    rwa [if_pos rfl, Option.map_none, Option.toList_none, List.append_nil] at this
  cases hitem : outcome.bind (itemOf batch index) with
  | none =>
    rw [hitem] at hentry
    have hold := h k entry hentry
    split_ifs with hk
    · rw [hk, hitem]
      rw [hk, hnone] at hold
      exact hold
    · exact hold
  | some result =>
    rw [hitem, Option.elim_some, List.getElem?_set] at hentry
    split_ifs at hentry with hk hlt
    · rw [if_pos hk.symm, ← hk, hitem]
      exact (Option.some.inj hentry).symm
    · rw [if_neg (Ne.symm hk)]
      exact h k entry hentry

/-- A worker leaves its command: the command has come to something, unless an exception has left the
worker before the runner was called. -/
theorem Work.leave {worker index : Nat} {old stage : WorkerStage}
    (outcome : Option (ItemOutcome ρ)) (h : Work batch s) (hw : s.workers[worker]? = some old)
    (htaken : old.taken? = some index) (hstage : stage = .ready ∨ stage.isDone = true)
    (hanswered : (outcome.bind fun o => answered? (index, o)) = old.executing?)
    (hworkers : s'.workers = s.workers.set worker stage) (hcursor : s'.cursor = s.cursor)
    (hexecuted : s'.executed = s.executed) (hpermits : s'.permits = s.permits)
    (hreleases : s'.permitReleases = s.permitReleases ++ old.holding?.toList)
    (houtcomes : s'.outcomes = s.outcomes ++ (outcome.map (index, ·)).toList)
    (hresults : s'.results = (outcome.bind (itemOf batch index)).elim s.results fun result =>
      s.results.set index (some result)) : Work batch s' := by
  have hlt : index < s.cursor :=
    h.taken_lt (List.mem_filterMap.mpr ⟨old, List.mem_of_getElem? hw, htaken⟩)
  have hnone : stage.unexecuted? = none ∧ stage.awaiting? = none ∧ stage.holding? = none ∧
      stage.taken? = none ∧ stage.executing? = none ∧ WorkerOk batch s' stage := by
    cases stage with
    | ready | returned | thrown => exact ⟨rfl, rfl, rfl, rfl, rfl, trivial⟩
    | awaitingPermit | admitted | executing => simp [WorkerStage.isDone] at hstage
  obtain ⟨hunexecuted, hawaiting, hholding, htaken', hexecuting, hok⟩ := hnone
  have hindexes : s'.executedIndexes = s.executedIndexes := by
    rw [executedIndexes, hexecuted, executedIndexes]
  have hleft : ∀ f : WorkerStage → Option Nat, f stage = none →
      (s.workers.filterMap f).Perm ((f old).toList ++ s'.workers.filterMap f) := by
    intro f hf
    have hset := Ledger.filterMap_set f (b := stage) hw
    rw [hf, Option.toList_none, List.nil_append] at hset
    rw [hworkers]
    exact (Ledger.filterMap_split f hw).trans (hset.symm.append_left _)
  have hfresh : index ∉ s.outcomes.map Prod.fst := by
    have hnodup := ((hleft _ htaken').append_left _).nodup_iff.mp h.outcomes_nodup
    rw [htaken, Option.toList_some, List.singleton_append] at hnodup
    intro hmem
    exact (List.nodup_cons.mp (List.perm_middle.nodup_iff.mp hnodup)).1
      (List.mem_append_left _ hmem)
  have hdropped : ∀ {l m r : List Nat}, (l ++ (m ++ r)).Nodup → (l ++ r).Nodup := fun hnodup =>
    hnodup.sublist ((List.Sublist.refl _).append (List.sublist_append_right _ _))
  refine ⟨?_, ?_, ?_, ?_, ?_, ?_, ?_, ?_, ?_, ?_⟩
  · rw [hindexes]
    exact hdropped (((hleft _ hunexecuted).append_left _).nodup_iff.mp h.executed_nodup)
  · rw [hexecuted, hcursor]
    exact h.executed
  · rw [hindexes, houtcomes, List.filterMap_append]
    have hnew : (outcome.map (index, ·)).toList.filterMap answered? = old.executing?.toList := by
      rw [← hanswered]
      cases outcome with
      | none => rfl
      | some outcome => cases outcome <;> rfl
    rw [hnew, List.append_assoc]
    exact h.answered.trans ((hleft _ hexecuting).append_left _)
  · rw [houtcomes, List.map_append, List.append_assoc]
    have hnodup := ((hleft _ htaken').append_left _).nodup_iff.mp h.outcomes_nodup
    cases outcome with
    | none => exact hdropped hnodup
    | some outcome =>
      rw [htaken] at hnodup
      exact hnodup
  · rw [houtcomes, hcursor]
    intro k hk
    rw [List.map_append] at hk
    rcases List.mem_append.mp hk with hold | hnew
    · exact h.outcomes_lt k hold
    · cases outcome with
      | none => cases hnew
      | some outcome =>
        rw [List.mem_singleton.mp hnew]
        exact hlt
  · rw [hpermits]
    exact hdropped (((hleft _ hawaiting).append_left _).nodup_iff.mp h.permits_nodup)
  · rw [hpermits, hcursor]
    exact h.permits_lt
  · rw [hpermits, hreleases, List.append_assoc]
    exact h.permits_held.trans ((hleft _ hholding).append_left _)
  · rw [hworkers]
    exact workers_set h.workers (fun _ => hindexes ▸ id) (le_of_eq hcursor.symm) hok
  · rw [hresults, houtcomes]
    exact results_recorded outcome h.results hfresh

/-- The deadline has passed when a worker takes a command. -/
theorem Work.expire (h : Work batch s) :
    Work batch (({ s with cursor := s.cursor + 1 }.record s.cursor .expired).fail s.cursor
      "Batch SQL execution timeout") := by
  have hnext := h.advance
  have hfresh := h.cursor_fresh
  refine ⟨hnext.executed_nodup, hnext.executed, ?_, ?_, ?_, hnext.permits_nodup, hnext.permits_lt,
    hnext.permits_held, ?_, ?_⟩
  · show s.executedIndexes.Perm
      ((s.outcomes ++ [(s.cursor, ItemOutcome.expired)]).filterMap answered? ++ _)
    rw [List.filterMap_append, List.filterMap_cons_none rfl, List.filterMap_nil, List.append_nil]
    exact h.answered
  · show ((s.outcomes ++ [(s.cursor, ItemOutcome.expired)]).map Prod.fst ++ _).Nodup
    rw [List.map_append, List.append_assoc]
    exact List.perm_middle.nodup_iff.mpr (List.nodup_cons.mpr ⟨hfresh, h.outcomes_nodup⟩)
  · show ∀ k ∈ (s.outcomes ++ [(s.cursor, ItemOutcome.expired)]).map Prod.fst, k < s.cursor + 1
    intro k hk
    rw [List.map_append] at hk
    rcases List.mem_append.mp hk with hold | hnew
    · exact hnext.outcomes_lt k hold
    · rw [List.mem_singleton.mp hnew]
      exact Nat.lt_succ_self _
  · intro stage hstage
    exact (hnext.workers stage hstage).of_lt (List.Subset.refl _) le_rfl
  · exact results_recorded (some .expired) h.results
      (fun hmem => hfresh (List.mem_append_left _ hmem))

theorem Work.call {worker index : Nat} {call : ExecutedCommand} (h : Work batch s)
    (hw : s.workers[worker]? = some (.admitted index)) (hindex : call.index = index)
    (hcommand : batch.commands[index]? = some call.command) :
    Work batch ({ s with executed := s.executed ++ [call] }.setWorker worker
      (.executing index)) := by
  have hok := h.workers _ (List.mem_of_getElem? hw)
  have hgone := Ledger.filterMap_gone (f := WorkerStage.unexecuted?) hw rfl
    (b := .executing index) rfl
  have hawaiting := Ledger.filterMap_kept (f := WorkerStage.awaiting?) hw
    (b := .executing index) rfl
  have hholding := Ledger.filterMap_kept (f := WorkerStage.holding?) hw (b := .executing index) rfl
  have htaken := Ledger.filterMap_kept (f := WorkerStage.taken?) hw (b := .executing index) rfl
  have hcome := Ledger.filterMap_come (f := WorkerStage.executing?) hw rfl
    (b := .executing index) rfl
  have hadded : ({ s with executed := s.executed ++ [call] } : ReadOnlyRun ρ).executedIndexes =
      s.executedIndexes ++ [index] := by
    rw [executedIndexes, List.map_append, ← hindex]
    rfl
  have hsubset : s.executedIndexes ⊆
      ({ s with executed := s.executed ++ [call] } : ReadOnlyRun ρ).executedIndexes := by
    rw [hadded]
    exact List.subset_append_left _ _
  refine ⟨?_, ?_, ?_, ?_, h.outcomes_lt, ?_, h.permits_lt, ?_, ?_, h.results⟩
  · show (executedIndexes { s with executed := s.executed ++ [call] } ++ _).Nodup
    rw [hadded, List.append_assoc, List.singleton_append]
    exact (hgone.append_left s.executedIndexes).nodup_iff.mp h.executed_nodup
  · intro c hc
    rcases List.mem_append.mp hc with hold | hnew
    · exact h.executed c hold
    · rw [List.mem_singleton.mp hnew, hindex]
      exact ⟨hok.1, hcommand⟩
  · show (executedIndexes { s with executed := s.executed ++ [call] }).Perm _
    rw [hadded]
    calc List.Perm (s.executedIndexes ++ [index]) (index :: s.executedIndexes) :=
        List.perm_append_singleton _ _
      List.Perm _ (index :: (s.outcomes.filterMap answered? ++
          s.workers.filterMap WorkerStage.executing?)) := h.answered.cons index
      List.Perm _ (s.outcomes.filterMap answered? ++
          index :: s.workers.filterMap WorkerStage.executing?) := List.perm_middle.symm
      List.Perm _ _ := hcome.symm.append_left _
  · exact (htaken.append_left _).nodup_iff.mpr h.outcomes_nodup
  · exact (hawaiting.append_left _).nodup_iff.mpr h.permits_nodup
  · exact h.permits_held.trans (hholding.symm.append_left _)
  · refine workers_set (s := s) h.workers hsubset le_rfl ?_
    show index ∈ executedIndexes { s with executed := s.executed ++ [call] }
    rw [hadded]
    simp

/-! ## The phases -/

/-- The step is one of a worker: it touches neither the acquires nor the releases. -/
structure SameWarmup (s s' : ReadOnlyRun ρ) : Prop where
  phase : s'.phase = s.phase
  acquires : s'.acquires = s.acquires
  released : s'.released = s.released
  results : s'.results.length = s.results.length

theorem Accounted.work_step (h : Accounted batch s) (hphase : s.phase = .working)
    (hwork : Work batch s') (hsame : SameWarmup s s') : Accounted batch s' := by
  have hok := h.phase
  refine ⟨hwork, ?_⟩
  unfold PhaseOk at hok ⊢
  rw [hphase] at hok
  rw [hsame.phase, hphase, hsame.acquires, hsame.released, hsame.results]
  exact hok

theorem Accounted.takeCommand {worker : Nat} {now : Int} (h : Accounted batch s)
    (hstep : s.takeCommand batch worker now = some s') : Accounted batch s' := by
  unfold ReadOnlyRun.takeCommand at hstep
  split at hstep
  case h_1 hphase hw =>
    dsimp only at hstep
    split_ifs at hstep with hcancelled hlength hexpired
    · cases hstep
      exact h.work_step hphase (h.work.idle hw (.inr rfl)) ⟨rfl, rfl, rfl, rfl⟩
    · cases hstep
      exact h.work_step hphase (h.work.advance.idle hw (.inr rfl)) ⟨rfl, rfl, rfl, rfl⟩
    · cases hstep
      exact h.work_step hphase h.work.expire ⟨rfl, rfl, rfl, List.length_set⟩
    · cases hstep
      exact h.work_step hphase (h.work.take hw (by omega)) ⟨rfl, rfl, rfl, rfl⟩
  case h_2 => cases hstep

theorem Accounted.answerPermit {worker : Nat} {answer : PermitAnswer} (h : Accounted batch s)
    (hstep : s.answerPermit worker answer = some s') : Accounted batch s' := by
  unfold ReadOnlyRun.answerPermit at hstep
  split at hstep
  case h_1 index hphase hw =>
    cases answer with
    | granted =>
      cases hstep
      have hwork := Work.admit h.work hw
      exact h.work_step hphase hwork ⟨rfl, rfl, rfl, rfl⟩
    | timedOut =>
      cases hstep
      exact h.work_step hphase (h.work.leave (some .noPermit) hw rfl (.inl rfl) rfl rfl rfl rfl rfl
        (List.append_nil _).symm rfl rfl) ⟨rfl, rfl, rfl, List.length_set⟩
    | throws =>
      cases hstep
      exact h.work_step hphase (h.work.leave none hw rfl (.inr rfl) rfl rfl rfl rfl rfl
        (List.append_nil _).symm (List.append_nil _).symm rfl) ⟨rfl, rfl, rfl, rfl⟩
  case h_2 => cases hstep

theorem Accounted.runCommand {worker : Nat} {now : Int} {answer : PrepareAnswer}
    (h : Accounted batch s) (hstep : s.runCommand batch worker now answer = some s') :
    Accounted batch s' := by
  unfold ReadOnlyRun.runCommand at hstep
  split at hstep
  case h_1 index hphase hw =>
    split_ifs at hstep with hcancelled hexpired
    · cases hstep
      exact h.work_step hphase (h.work.leave (some .cancelled) hw rfl (.inr rfl) rfl rfl rfl rfl
        rfl rfl rfl rfl) ⟨rfl, rfl, rfl, List.length_set⟩
    · cases hstep
      exact h.work_step hphase (h.work.leave (some .expiredWithPermit) hw rfl (.inl rfl) rfl rfl
        rfl rfl rfl rfl rfl rfl) ⟨rfl, rfl, rfl, List.length_set⟩
    · split at hstep
      case h_1 command hcommand =>
        cases hstep
        exact h.work_step hphase (h.work.call hw rfl hcommand) ⟨rfl, rfl, rfl, rfl⟩
      case h_2 =>
        cases hstep
        exact h.work_step hphase (h.work.leave (some .unprepared) hw rfl (.inl rfl) rfl rfl rfl rfl
          rfl rfl rfl rfl) ⟨rfl, rfl, rfl, List.length_set⟩
      case h_3 =>
        cases hstep
        exact h.work_step hphase (h.work.leave none hw rfl (.inr rfl) rfl rfl rfl rfl rfl rfl
          (List.append_nil _).symm rfl) ⟨rfl, rfl, rfl, rfl⟩
  case h_2 => cases hstep

theorem discardInvalid_eq (batch : ReadOnlyBatch) (worker : Nat) (e : BatchError)
    (s : ReadOnlyRun ρ) : ∃ connections,
      s.discardInvalid batch worker e = { s with connectionsToDiscard := connections } := by
  unfold discardInvalid
  split_ifs
  · exact ⟨_, rfl⟩
  · exact ⟨_, rfl⟩

theorem Accounted.answerRunner {worker : Nat} {answer : RunnerAnswer ρ} (h : Accounted batch s)
    (hstep : s.answerRunner batch worker answer = some s') : Accounted batch s' := by
  unfold ReadOnlyRun.answerRunner at hstep
  split at hstep
  case h_1 index hphase hw =>
    cases answer with
    | response response =>
      cases hstep
      exact h.work_step hphase (h.work.leave (some (.answered _)) hw rfl (.inl rfl) rfl rfl rfl
        rfl rfl rfl rfl rfl) ⟨rfl, rfl, rfl, List.length_set⟩
    | failure e =>
      obtain ⟨connections, hdiscard⟩ :=
        discardInvalid_eq batch worker e (s.record index (.answered (.failure e)))
      dsimp only at hstep
      rw [hdiscard] at hstep
      cases hstep
      exact h.work_step hphase (h.work.leave (some (.answered _)) hw rfl (.inl rfl) rfl rfl rfl
        rfl rfl rfl rfl rfl) ⟨rfl, rfl, rfl, List.length_set⟩
    | timedOut =>
      cases hstep
      exact h.work_step hphase (h.work.leave (some (.answered _)) hw rfl (.inl rfl) rfl rfl rfl
        rfl rfl rfl rfl rfl) ⟨rfl, rfl, rfl, List.length_set⟩
    | throws =>
      cases hstep
      exact h.work_step hphase (h.work.leave (some (.answered _)) hw rfl (.inr rfl) rfl rfl rfl
        rfl rfl rfl rfl rfl) ⟨rfl, rfl, rfl, rfl⟩
  case h_2 => cases hstep

/-! ## Warm-up and end -/

theorem Work.same (h : Work batch s) (hworkers : s'.workers = s.workers)
    (hcursor : s'.cursor = s.cursor) (hresults : s'.results = s.results)
    (houtcomes : s'.outcomes = s.outcomes) (hexecuted : s'.executed = s.executed)
    (hpermits : s'.permits = s.permits) (hreleases : s'.permitReleases = s.permitReleases) :
    Work batch s' := by
  have hindexes : s'.executedIndexes = s.executedIndexes := by
    rw [executedIndexes, hexecuted, executedIndexes]
  refine ⟨?_, ?_, ?_, ?_, ?_, ?_, ?_, ?_, ?_, ?_⟩
  · rw [hindexes, hworkers]
    exact h.executed_nodup
  · rw [hexecuted, hcursor]
    exact h.executed
  · rw [hindexes, houtcomes, hworkers]
    exact h.answered
  · rw [houtcomes, hworkers]
    exact h.outcomes_nodup
  · rw [houtcomes, hcursor]
    exact h.outcomes_lt
  · rw [hpermits, hworkers]
    exact h.permits_nodup
  · rw [hpermits, hcursor]
    exact h.permits_lt
  · rw [hpermits, hreleases, hworkers]
    exact h.permits_held
  · rw [hworkers]
    intro stage hstage
    exact (h.workers stage hstage).of_lt (fun _ => hindexes ▸ id) (le_of_eq hcursor.symm)
  · rw [hresults, houtcomes]
    exact h.results

theorem Accounted.enter {now : Int} (h : Accounted batch s)
    (hstep : s.enter batch now = some s') : Accounted batch s' := by
  have hok := h.phase
  unfold ReadOnlyRun.enter at hstep
  split at hstep
  case h_1 hphase =>
    unfold PhaseOk at hok
    rw [hphase] at hok
    obtain ⟨hacquires, hworkers, hreleased, hresults⟩ := hok
    have hquiet : s.Quiet := by
      refine ⟨?_, ?_⟩
      · rw [hacquires]
        simp
      · rw [hworkers]
        simp
    have hconnections : s.released = s.workerConnections := by
      rw [hreleased, workerConnections, hacquires]
      rfl
    split_ifs at hstep
    · cases hstep
      exact ⟨h.work.same rfl rfl rfl rfl rfl rfl rfl, ⟨hquiet.1, hquiet.2⟩, hconnections⟩
    · cases hstep
      exact ⟨h.work.same rfl rfl rfl rfl rfl rfl rfl, ⟨hquiet.1, hquiet.2⟩, hconnections⟩
    · cases hstep
      exact ⟨h.work.same rfl rfl rfl rfl rfl rfl rfl, hworkers, hreleased, hresults⟩
  case h_2 => cases hstep

theorem Accounted.requestConnection {worker : Nat} {now : Int} (h : Accounted batch s)
    (hstep : s.requestConnection batch worker now = some s') : Accounted batch s' := by
  have hok := h.phase
  unfold ReadOnlyRun.requestConnection at hstep
  split at hstep
  case h_1 hphase _ =>
    unfold PhaseOk at hok
    rw [hphase] at hok
    cases hstep
    refine ⟨h.work.same rfl rfl rfl rfl rfl rfl rfl, ?_⟩
    unfold PhaseOk
    rw [hphase]
    exact hok
  case h_2 => cases hstep

theorem Accounted.answerAcquire {worker : Nat} {answer : AcquireAnswer} (h : Accounted batch s)
    (hstep : s.answerAcquire worker answer = some s') : Accounted batch s' := by
  have hok := h.phase
  unfold ReadOnlyRun.answerAcquire at hstep
  split at hstep
  case h_1 hphase _ =>
    unfold PhaseOk at hok
    rw [hphase] at hok
    cases hstep
    refine ⟨h.work.same rfl rfl rfl rfl rfl rfl rfl, ?_⟩
    unfold PhaseOk
    rw [hphase]
    exact hok
  case h_2 => cases hstep

theorem Work.started (h : Work batch s) (hworkers : s.workers = []) (houtcomes : s.outcomes = []) :
    Work batch ({ s with
      phase := .working
      workers := List.replicate batch.parallelism .ready
      results := List.replicate batch.commands.length none } : ReadOnlyRun ρ) := by
  have hnone : ∀ f : WorkerStage → Option Nat, f .ready = none →
      (List.replicate batch.parallelism WorkerStage.ready).filterMap f =
        s.workers.filterMap f := by
    intro f hf
    rw [hworkers, List.filterMap_nil, List.filterMap_replicate_of_none hf]
  refine ⟨?_, h.executed, ?_, ?_, h.outcomes_lt, ?_, h.permits_lt, ?_, ?_, ?_⟩
  · show (s.executedIndexes ++ (List.replicate _ _).filterMap _).Nodup
    rw [hnone _ rfl]
    exact h.executed_nodup
  · show s.executedIndexes.Perm (s.outcomes.filterMap answered? ++ (List.replicate _ _).filterMap _)
    rw [hnone _ rfl]
    exact h.answered
  · show (s.outcomes.map Prod.fst ++ (List.replicate _ _).filterMap _).Nodup
    rw [hnone _ rfl]
    exact h.outcomes_nodup
  · show (s.permits ++ (List.replicate _ _).filterMap _).Nodup
    rw [hnone _ rfl]
    exact h.permits_nodup
  · show s.permits.Perm (s.permitReleases ++ (List.replicate _ _).filterMap _)
    rw [hnone _ rfl]
    exact h.permits_held
  · intro stage hstage
    rw [List.eq_of_mem_replicate hstage]
    trivial
  · intro index entry hentry
    rw [List.getElem?_replicate] at hentry
    split_ifs at hentry
    cases hentry
    show none = (s.outcomes.lookup index).bind _
    rw [houtcomes]
    rfl

theorem Accounted.endWarmup (h : Accounted batch s) (hstep : s.endWarmup batch = some s') :
    Accounted batch s' := by
  have hok := h.phase
  unfold ReadOnlyRun.endWarmup at hstep
  split at hstep
  case h_1 hphase =>
    unfold PhaseOk at hok
    rw [hphase] at hok
    obtain ⟨hworkers, hreleased, hresults, houtcomes⟩ := hok
    split_ifs at hstep with hsettled hfailed
    · cases hstep
      have hquiet : s.Quiet := by
        refine ⟨List.all_eq_true.mp hsettled, ?_⟩
        rw [hworkers]
        simp
      refine ⟨h.work.same rfl rfl rfl rfl rfl rfl rfl, ⟨hquiet.1, hquiet.2⟩, ?_, nofun⟩
      show s.released ++ s.workerConnections = s.workerConnections
      rw [hreleased, List.nil_append]
    · cases hstep
      exact ⟨h.work.started hworkers houtcomes, List.all_eq_true.mp hsettled, hreleased,
        List.length_replicate⟩
  case h_2 => cases hstep

theorem Accounted.endWork (h : Accounted batch s) (hstep : s.endWork = some s') :
    Accounted batch s' := by
  have hok := h.phase
  unfold ReadOnlyRun.endWork at hstep
  split at hstep
  case h_1 hphase =>
    unfold PhaseOk at hok
    rw [hphase] at hok
    obtain ⟨hsettled, hreleased, hresults⟩ := hok
    split at hstep
    case isTrue hdone =>
      cases hstep
      refine ⟨h.work.same rfl rfl rfl rfl rfl rfl rfl, ⟨hsettled, List.all_eq_true.mp hdone⟩, ?_,
        fun _ => hresults⟩
      show s.released ++ s.workerConnections = s.workerConnections
      rw [hreleased, List.nil_append]
    case isFalse => cases hstep
  case h_2 => cases hstep

theorem Accounted.releaseConnection (h : Accounted batch s)
    (hstep : s.releaseConnection = some s') : Accounted batch s' := by
  have hok := h.phase
  unfold ReadOnlyRun.releaseConnection at hstep
  split at hstep
  case h_1 connectionId remaining ending hphase =>
    unfold PhaseOk at hok
    rw [hphase] at hok
    obtain ⟨hquiet, hreleased, hresults⟩ := hok
    cases hstep
    refine ⟨h.work.same rfl rfl rfl rfl rfl rfl rfl, ⟨hquiet.1, hquiet.2⟩, ?_, hresults⟩
    show s.released ++ [connectionId] ++ remaining = s.workerConnections
    rw [List.append_assoc, List.singleton_append]
    exact hreleased
  case h_2 => cases hstep

theorem Work.listed_eq (h : Work batch s) (hlength : s.results.length = batch.commands.length) :
    s.listed = (List.range batch.commands.length).map (s.itemAt batch s.cancelled) := by
  apply List.ext_getElem
  · rw [listed, List.length_mapIdx, hlength, List.length_map, List.length_range]
  · intro index hlt _
    have hindex : index < s.results.length := by
      rwa [listed, List.length_mapIdx] at hlt
    simp only [listed, List.getElem_mapIdx, List.getElem_map, List.getElem_range, itemAt]
    rw [h.results index _ (List.getElem?_eq_getElem hindex)]

theorem Accounted.leave (h : Accounted batch s) (hstep : s.leave = some s') :
    Accounted batch s' := by
  have hok := h.phase
  unfold ReadOnlyRun.leave at hstep
  split at hstep
  case h_1 ending hphase =>
    unfold PhaseOk at hok
    rw [hphase] at hok
    obtain ⟨hquiet, hreleased, hresults⟩ := hok
    rw [List.append_nil] at hreleased
    cases ending with
    | fails e =>
      cases hstep
      exact ⟨h.work.same rfl rfl rfl rfl rfl rfl rfl, ⟨hquiet.1, hquiet.2⟩, hreleased⟩
    | lists =>
      cases hstep
      exact ⟨h.work.same rfl rfl rfl rfl rfl rfl rfl, ⟨hquiet.1, hquiet.2⟩, hreleased, s.cancelled,
        h.work.listed_eq (hresults rfl)⟩
    | throws =>
      cases hstep
      exact ⟨h.work.same rfl rfl rfl rfl rfl rfl rfl, ⟨hquiet.1, hquiet.2⟩, hreleased⟩
  case h_2 => cases hstep

theorem Accounted.cancel (h : Accounted batch s) :
    Accounted batch { s with cancelled := true } := by
  have hok := h.phase
  refine ⟨h.work.same rfl rfl rfl rfl rfl rfl rfl, ?_⟩
  unfold PhaseOk at hok ⊢
  dsimp only
  split at hok
  case h_1 | h_2 | h_3 => exact hok
  case h_4 | h_5 | h_6 | h_7 => exact ⟨⟨hok.1.1, hok.1.2⟩, hok.2⟩

theorem Accounted.start (cancelled : Bool) :
    Accounted batch ({ cancelled := cancelled } : ReadOnlyRun ρ) := by
  refine ⟨⟨List.nodup_nil, nofun, List.Perm.refl _, List.nodup_nil, nofun, List.nodup_nil, nofun,
    List.Perm.refl _, nofun, ?_⟩, rfl, rfl, rfl, rfl, rfl⟩
  intro index entry hentry
  cases hentry

theorem Accounted.step {event : ReadOnlyEvent ρ} (h : Accounted batch s)
    (hstep : (machine batch).step s event = some s') : Accounted batch s' := by
  cases event with
  | cancel =>
    cases hstep
    exact h.cancel
  | enter now => exact h.enter hstep
  | requestConnection worker now => exact h.requestConnection hstep
  | answerAcquire worker answer => exact h.answerAcquire hstep
  | endWarmup => exact h.endWarmup hstep
  | takeCommand worker now => exact h.takeCommand hstep
  | answerPermit worker answer => exact h.answerPermit hstep
  | runCommand worker now answer => exact h.runCommand hstep
  | answerRunner worker answer => exact h.answerRunner hstep
  | endWork => exact h.endWork hstep
  | releaseConnection => exact h.releaseConnection hstep
  | leave => exact h.leave hstep

theorem accounted_of_reachable (h : (machine batch).Reachable s) : Accounted batch s := by
  refine Machine.Reach.invariant ?_ ?_ h
  · rintro s ⟨cancelled, rfl⟩
    exact Accounted.start cancelled
  · intro s event s' hs _ hstep
    exact hs.step hstep

/-! ## Each command once, and everything given back -/

/-- What an execution has done so far, and what it has given back when it is over.  The item at an
index of a returned list is made of what the command at that index has come to: the answer of the
runner for it, when it was handed to the runner. -/
structure OnceEach (batch : ReadOnlyBatch) (s : ReadOnlyRun ρ) : Prop where
  executed_once : s.executedIndexes.Nodup
  executed_command : ∀ call ∈ s.executed, batch.commands[call.index]? = some call.command
  outcome_once : (s.outcomes.map Prod.fst).Nodup
  answer_executed : ∀ (index : Nat) (answer : RunnerAnswer ρ),
    (index, .answered answer) ∈ s.outcomes → index ∈ s.executedIndexes
  executed_answer : s.phase.isExit = true → ∀ index ∈ s.executedIndexes,
    ∃ answer, (index, .answered answer) ∈ s.outcomes
  result_each : ∀ results, s.phase = .returned results → ∃ cancelled,
    results = (List.range batch.commands.length).map (s.itemAt batch cancelled)
  result_index : ∀ results, s.phase = .returned results →
    results.map SqlCommandResult.index = List.range batch.commands.length
  result_executed : ∀ results, s.phase = .returned results →
    ∀ result ∈ results, result.ok = true → result.index ∈ s.executedIndexes
  released_at_most : s.released <+: s.workerConnections
  permits_at_most : s.permits.Nodup ∧ s.permitReleases.Subperm s.permits
  exit_settled : s.phase.isExit = true → ∀ a ∈ s.acquires, a.isSettled = true
  exit_released : s.phase.isExit = true → s.released = s.workerConnections
  exit_permits : s.phase.isExit = true → s.permitReleases.Perm s.permits

theorem Accounted.exit (h : Accounted batch s) (hexit : s.phase.isExit = true) :
    s.Quiet ∧ s.released = s.workerConnections := by
  have hok := h.phase
  unfold PhaseOk at hok
  split at hok
  case h_5 | h_6 => exact hok
  case h_7 => exact ⟨hok.1, hok.2.1⟩
  case h_1 hphase | h_2 hphase | h_3 hphase | h_4 hphase =>
    rw [hphase] at hexit
    cases hexit

theorem Quiet.done_none (h : s.Quiet) {f : WorkerStage → Option Nat}
    (hf : ∀ stage, stage.isDone = true → f stage = none) : s.workers.filterMap f = [] :=
  List.filterMap_eq_nil_iff.mpr fun stage hstage => hf stage (h.done stage hstage)

theorem WorkerStage.holding_of_done {stage : WorkerStage} (h : stage.isDone = true) :
    stage.holding? = none ∧ stage.executing? = none := by
  cases stage with
  | returned | thrown => exact ⟨rfl, rfl⟩
  | ready | awaitingPermit | admitted | executing => cases h

theorem itemOf_index {index : Nat} {outcome : ItemOutcome ρ} {result : SqlCommandResult ρ}
    (h : itemOf batch index outcome = some result) : result.index = index := by
  unfold itemOf at h
  split at h
  case h_9 => cases h
  all_goals
    cases h
    rfl

/-- An item that says `ok` is made of an answer. -/
theorem answered_of_ok {index : Nat} {outcome : ItemOutcome ρ} {result : SqlCommandResult ρ}
    (h : itemOf batch index outcome = some result) (hok : result.ok = true) :
    ∃ answer, outcome = .answered answer := by
  unfold itemOf at h
  split at h
  case h_6 | h_7 | h_8 => exact ⟨_, rfl⟩
  case h_1 | h_2 | h_3 | h_4 | h_5 =>
    cases h
    cases hok
  case h_9 => cases h

theorem itemAt_index (batch : ReadOnlyBatch) (cancelled : Bool) (s : ReadOnlyRun ρ) (index : Nat) :
    (s.itemAt batch cancelled index).index = index := by
  unfold itemAt
  cases hitem : (s.outcomes.lookup index).bind (itemOf batch index) with
  | none => rfl
  | some result =>
    obtain ⟨outcome, _, hresult⟩ := Option.bind_eq_some_iff.mp hitem
    exact itemOf_index hresult

theorem mem_of_lookup {l : List (Nat × ItemOutcome ρ)} {index : Nat} {outcome : ItemOutcome ρ}
    (h : l.lookup index = some outcome) : (index, outcome) ∈ l := by
  obtain ⟨before, after, rfl, _⟩ := List.lookup_eq_some_iff.mp h
  simp

theorem Work.answer_executed (h : Work batch s) {index : Nat} {answer : RunnerAnswer ρ}
    (hanswer : (index, .answered answer) ∈ s.outcomes) : index ∈ s.executedIndexes :=
  h.answered.symm.subset
    (List.mem_append_left _ (List.mem_filterMap.mpr ⟨_, hanswer, rfl⟩))

theorem Work.ok_executed (h : Work batch s) {cancelled : Bool} {index : Nat}
    (hok : (s.itemAt batch cancelled index).ok = true) : index ∈ s.executedIndexes := by
  unfold itemAt at hok
  cases hitem : (s.outcomes.lookup index).bind (itemOf batch index) with
  | none =>
    rw [hitem] at hok
    cases hok
  | some result =>
    rw [hitem] at hok
    obtain ⟨outcome, hlookup, hresult⟩ := Option.bind_eq_some_iff.mp hitem
    obtain ⟨answer, rfl⟩ := answered_of_ok hresult hok
    exact h.answer_executed (mem_of_lookup hlookup)

theorem Work.executed_answer (h : Work batch s) (hquiet : s.Quiet) {index : Nat}
    (hindex : index ∈ s.executedIndexes) :
    ∃ answer, (index, ItemOutcome.answered answer) ∈ s.outcomes := by
  have hanswered := h.answered
  rw [hquiet.done_none fun stage hdone => (WorkerStage.holding_of_done hdone).2,
    List.append_nil] at hanswered
  obtain ⟨⟨k, outcome⟩, hmem, heq⟩ := List.mem_filterMap.mp (hanswered.subset hindex)
  cases outcome with
  | answered answer =>
    cases heq
    exact ⟨answer, hmem⟩
  | expired | noPermit | cancelled | expiredWithPermit | unprepared => cases heq

theorem Accounted.returned (h : Accounted batch s) {results : List (SqlCommandResult ρ)}
    (hphase : s.phase = .returned results) : ∃ cancelled,
      results = (List.range batch.commands.length).map (s.itemAt batch cancelled) := by
  have hok := h.phase
  unfold PhaseOk at hok
  rw [hphase] at hok
  exact hok.2.2

theorem Accounted.released_prefix (h : Accounted batch s) : s.released <+: s.workerConnections := by
  have hok := h.phase
  unfold PhaseOk at hok
  split at hok
  case h_1 =>
    rw [hok.2.2.1]
    exact List.nil_prefix
  case h_2 | h_3 =>
    rw [hok.2.1]
    exact List.nil_prefix
  case h_4 => exact ⟨_, hok.2.1⟩
  case h_5 | h_6 =>
    rw [hok.2]
  case h_7 =>
    rw [hok.2.1]

theorem Accounted.onceEach (h : Accounted batch s) : OnceEach batch s := by
  refine ⟨?_, fun call hcall => (h.work.executed call hcall).2, ?_,
    fun index answer => h.work.answer_executed,
    fun hexit index => h.work.executed_answer (h.exit hexit).1, fun results => h.returned, ?_, ?_,
    h.released_prefix, ⟨?_, ?_⟩, fun hexit => (h.exit hexit).1.settled,
    fun hexit => (h.exit hexit).2, ?_⟩
  · exact (List.nodup_append.mp h.work.executed_nodup).1
  · exact (List.nodup_append.mp h.work.outcomes_nodup).1
  · intro results hreturned
    obtain ⟨cancelled, rfl⟩ := h.returned hreturned
    rw [List.map_map]
    exact (List.map_congr_left fun index _ => itemAt_index batch cancelled s index).trans
      (List.map_id _)
  · intro results hreturned result hresult hok
    obtain ⟨cancelled, rfl⟩ := h.returned hreturned
    obtain ⟨index, _, rfl⟩ := List.mem_map.mp hresult
    rw [itemAt_index]
    exact h.work.ok_executed hok
  · exact (List.nodup_append.mp h.work.permits_nodup).1
  · exact (List.sublist_append_left _ _).subperm.trans h.work.permits_held.symm.subperm
  · intro hexit
    have hheld := h.work.permits_held
    rw [(h.exit hexit).1.done_none fun stage hdone => (WorkerStage.holding_of_done hdone).1,
      List.append_nil] at hheld
    exact hheld.symm

/-- In every state of an execution each command was handed to the runner at most once, a returned
list has at each index the item that is made of what its own command has come to, and no connection
or permit was given back twice; when the execution is over, each connection and each permit has been
given back. -/
theorem once_each (batch : ReadOnlyBatch) (s : ReadOnlyRun ρ)
    (h : (machine batch).Reachable s) : OnceEach batch s :=
  (accounted_of_reachable h).onceEach

theorem goes_on (batch : ReadOnlyBatch) (s : ReadOnlyRun ρ) (hexit : s.phase.isExit = false) :
    ∃ event, event ≠ .cancel ∧ ((machine batch).step s event).isSome = true := by
  cases hphase : s.phase with
  | entered =>
    refine ⟨.enter 0, nofun, ?_⟩
    show (s.enter batch 0).isSome = true
    unfold ReadOnlyRun.enter
    rw [hphase]
    dsimp only
    split_ifs
    · rfl
    · rfl
    · rfl
  | warmingUp =>
    by_cases hsettled : s.acquires.all AcquireStage.isSettled = true
    · refine ⟨.endWarmup, nofun, ?_⟩
      show (s.endWarmup batch).isSome = true
      unfold ReadOnlyRun.endWarmup
      rw [hphase]
      dsimp only
      rw [if_pos hsettled]
      split_ifs
      · rfl
      · rfl
    · rw [List.all_eq_true] at hsettled
      push Not at hsettled
      obtain ⟨stage, hmem, hstage⟩ := hsettled
      obtain ⟨worker, hw⟩ := List.getElem?_of_mem hmem
      cases stage with
      | acquired | failed => exact absurd rfl hstage
      | created =>
        refine ⟨.requestConnection worker 0, nofun, ?_⟩
        show (s.requestConnection batch worker 0).isSome = true
        unfold ReadOnlyRun.requestConnection
        rw [hphase, hw]
        rfl
      | requested =>
        refine ⟨.answerAcquire worker .throws, nofun, ?_⟩
        show (s.answerAcquire worker .throws).isSome = true
        unfold ReadOnlyRun.answerAcquire
        rw [hphase, hw]
        rfl
  | working =>
    by_cases hdone : s.workers.all WorkerStage.isDone = true
    · refine ⟨.endWork, nofun, ?_⟩
      show s.endWork.isSome = true
      unfold ReadOnlyRun.endWork
      rw [hphase]
      dsimp only
      rw [if_pos hdone]
      rfl
    · rw [List.all_eq_true] at hdone
      push Not at hdone
      obtain ⟨stage, hmem, hstage⟩ := hdone
      obtain ⟨worker, hw⟩ := List.getElem?_of_mem hmem
      cases stage with
      | returned | thrown => exact absurd rfl hstage
      | ready =>
        refine ⟨.takeCommand worker 0, nofun, ?_⟩
        show (s.takeCommand batch worker 0).isSome = true
        unfold ReadOnlyRun.takeCommand
        rw [hphase, hw]
        dsimp only
        split_ifs
        · rfl
        · rfl
        · rfl
        · rfl
      | awaitingPermit index =>
        refine ⟨.answerPermit worker .throws, nofun, ?_⟩
        show (s.answerPermit worker .throws).isSome = true
        unfold ReadOnlyRun.answerPermit
        rw [hphase, hw]
        rfl
      | admitted index =>
        refine ⟨.runCommand worker 0 .throws, nofun, ?_⟩
        show (s.runCommand batch worker 0 .throws).isSome = true
        unfold ReadOnlyRun.runCommand
        rw [hphase, hw]
        dsimp only
        split_ifs
        · rfl
        · rfl
        · rfl
      | executing index =>
        refine ⟨.answerRunner worker .throws, nofun, ?_⟩
        show (s.answerRunner batch worker .throws).isSome = true
        unfold ReadOnlyRun.answerRunner
        rw [hphase, hw]
        rfl
  | releasing remaining ending =>
    cases remaining with
    | nil =>
      refine ⟨.leave, nofun, ?_⟩
      show s.leave.isSome = true
      unfold ReadOnlyRun.leave
      rw [hphase]
      cases ending with
      | fails | lists | throws => rfl
    | cons connectionId rest =>
      refine ⟨.releaseConnection, nofun, ?_⟩
      show s.releaseConnection.isSome = true
      unfold ReadOnlyRun.releaseConnection
      rw [hphase]
      rfl
  | failed | returned | thrown =>
    rw [hphase] at hexit
    cases hexit

/-! ## A run -/

/-- Two commands on two workers, the second of which waits in vain for a permit. -/
def twoCommands : ReadOnlyBatch :=
  { commands := [{ sql := "SELECT 1".toList }, { sql := "SELECT 2".toList }]
    maxParallelReadOnlyBatchItems := 4
    poolSize := 3
    deadline := some 100 }

def twoCommandsRun : List (ReadOnlyEvent Nat) :=
  [.enter 0, .requestConnection 0 0, .requestConnection 1 0, .answerAcquire 1 (.connection 8),
    .answerAcquire 0 (.connection 7), .endWarmup, .takeCommand 0 1, .takeCommand 1 1,
    .answerPermit 0 .granted, .runCommand 0 2 .prepared, .answerPermit 1 .timedOut,
    .answerRunner 0 (.response { data := [11] }), .takeCommand 1 3, .takeCommand 0 3, .endWork,
    .releaseConnection, .releaseConnection, .leave]

/-- The state after events of the two commands. -/
def afterEvents (events : List (ReadOnlyEvent Nat)) : ReadOnlyRun Nat :=
  ((machine twoCommands).run {} events).getD {}

theorem twoCommands_start : (machine twoCommands).start ({} : ReadOnlyRun Nat) :=
  ⟨false, rfl⟩

/-- Both items have their results, and both connections and the permit are given back. -/
theorem once_each_twoCommands :
    (afterEvents twoCommandsRun).phase =
        .returned [.ofResponse 0 50000 { data := [11] },
          .failure 1
            "Batch SQL execution timeout while waiting for read-only parallel capacity"] ∧
      (afterEvents twoCommandsRun).released = [7, 8] ∧
      (afterEvents twoCommandsRun).permitReleases = [0] ∧
      OnceEach twoCommands (afterEvents twoCommandsRun) :=
  ⟨rfl, rfl, rfl, once_each _ _ (Machine.reachable_of_run twoCommands_start
    (show (machine twoCommands).run _ twoCommandsRun = some (afterEvents twoCommandsRun) from rfl))⟩

end ReadOnlyRun

end PlugAgente.Batch
