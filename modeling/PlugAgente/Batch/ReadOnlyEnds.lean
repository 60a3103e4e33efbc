import PlugAgente.Batch.ReadOnlyAccounting

/-!
# Read-only batches come to their end

`left` bounds the turns that an execution still takes: each of its own events lowers it, and a
cancellation leaves it.  With `goes_on`, which finds an event in every state that is not an exit,
no order of the events keeps an execution from its end.
-/

namespace PlugAgente.Batch

variable {ρ : Type}

/-- The turns that are left of an acquire. -/
def AcquireStage.left : AcquireStage → Int
  | created => 2
  | requested => 1
  | _ => 0

/-- The turns that are left of a worker, the commands that are still to be taken apart. -/
def WorkerStage.left : WorkerStage → Int
  | ready => 1
  | awaitingPermit _ => 4
  | admitted _ => 3
  | executing _ => 2
  | _ => 0

namespace ReadOnlyRun

variable {batch : ReadOnlyBatch} {s s' : ReadOnlyRun ρ}

/-- The turns that are left of an execution. -/
def left (batch : ReadOnlyBatch) (s : ReadOnlyRun ρ) : Int :=
  match s.phase with
  | .entered => 4 * batch.parallelism + 4 * batch.commands.length + 4
  | .warmingUp => Ledger.total AcquireStage.left s.acquires + s.acquires.length +
      batch.parallelism + 4 * batch.commands.length + 3
  | .working => Ledger.total WorkerStage.left s.workers + s.acquires.length +
      4 * (batch.commands.length - s.cursor : Nat) + 2
  | .releasing remaining _ => remaining.length + 1
  | _ => 0

theorem AcquireStage.left_nonneg (stage : AcquireStage) : 0 ≤ stage.left := by
  cases stage <;> simp [AcquireStage.left]

theorem WorkerStage.left_nonneg (stage : WorkerStage) : 0 ≤ stage.left := by
  cases stage <;> simp [WorkerStage.left]

theorem total_replicate {α : Type} (f : α → Int) (n : Nat) (a : α) :
    Ledger.total f (List.replicate n a) = n * f a := by
  simp [Ledger.total]

theorem left_nonneg (batch : ReadOnlyBatch) (s : ReadOnlyRun ρ) : 0 ≤ s.left batch := by
  have hacquires : 0 ≤ Ledger.total AcquireStage.left s.acquires :=
    Ledger.total_nonneg fun stage _ => AcquireStage.left_nonneg stage
  have hworkers : 0 ≤ Ledger.total WorkerStage.left s.workers :=
    Ledger.total_nonneg fun stage _ => WorkerStage.left_nonneg stage
  unfold left
  split <;> omega

/-! ## Warm-up and end -/

theorem left_acquire {worker : Nat} {old stage : AcquireStage} (hphase : s.phase = .warmingUp)
    (hw : s.acquires[worker]? = some old) (hlt : stage.left < old.left) :
    left batch { s with acquires := s.acquires.set worker stage } < s.left batch := by
  have htotal := Ledger.total_set AcquireStage.left (b := stage) hw
  simp only [left, hphase, List.length_set]
  omega

theorem left_endWarmup (hstep : s.endWarmup batch = some s') : s'.left batch < s.left batch := by
  have hacquires : 0 ≤ Ledger.total AcquireStage.left s.acquires :=
    Ledger.total_nonneg fun stage _ => AcquireStage.left_nonneg stage
  have hconnections : s.workerConnections.length ≤ s.acquires.length :=
    List.length_filterMap_le _ _
  unfold ReadOnlyRun.endWarmup at hstep
  split at hstep
  case h_1 hphase =>
    split_ifs at hstep
    · cases hstep
      simp only [left, hphase]
      omega
    · cases hstep
      simp only [left, hphase, total_replicate, WorkerStage.left]
      omega
  case h_2 => cases hstep

theorem left_endWork (hstep : s.endWork = some s') : s'.left batch < s.left batch := by
  have hworkers : 0 ≤ Ledger.total WorkerStage.left s.workers :=
    Ledger.total_nonneg fun stage _ => WorkerStage.left_nonneg stage
  have hconnections : s.workerConnections.length ≤ s.acquires.length :=
    List.length_filterMap_le _ _
  unfold ReadOnlyRun.endWork at hstep
  split at hstep
  case h_1 hphase =>
    split_ifs at hstep
    all_goals
      cases hstep
      simp only [left, hphase]
      omega
  case h_2 => cases hstep

/-! ## Workers -/

/-- A worker goes on to a stage with fewer turns, and nothing else that counts has changed. -/
theorem left_worker {worker : Nat} {old stage : WorkerStage} (hphase : s.phase = .working)
    (hw : s.workers[worker]? = some old) (hphase' : s'.phase = .working)
    (hacquires : s'.acquires = s.acquires) (hcursor : s'.cursor = s.cursor)
    (hworkers : s'.workers = s.workers.set worker stage) (hlt : stage.left < old.left) :
    s'.left batch < s.left batch := by
  have htotal := Ledger.total_set WorkerStage.left (b := stage) hw
  simp only [left, hphase', hphase, hacquires, hworkers, hcursor]
  omega

theorem left_takeCommand {worker : Nat} {now : Int}
    (hstep : s.takeCommand batch worker now = some s') : s'.left batch < s.left batch := by
  unfold ReadOnlyRun.takeCommand at hstep
  split at hstep
  case h_1 hphase hw =>
    have htotal := fun stage => Ledger.total_set WorkerStage.left (b := stage) hw
    dsimp only at hstep
    split_ifs at hstep with hcancelled hlength hexpired
    all_goals
      cases hstep
      simp only [left, setWorker, record, fail, setResult, hphase, htotal, WorkerStage.left]
      omega
  case h_2 => cases hstep

theorem left_answerPermit {worker : Nat} {answer : PermitAnswer}
    (hstep : s.answerPermit worker answer = some s') : s'.left batch < s.left batch := by
  unfold ReadOnlyRun.answerPermit at hstep
  split at hstep
  case h_1 index hphase hw =>
    cases answer with
    | granted | timedOut | throws =>
      cases hstep
      exact left_worker hphase hw hphase rfl rfl rfl (by simp [WorkerStage.left])
  case h_2 => cases hstep

theorem left_runCommand {worker : Nat} {now : Int} {answer : PrepareAnswer}
    (hstep : s.runCommand batch worker now answer = some s') : s'.left batch < s.left batch := by
  unfold ReadOnlyRun.runCommand at hstep
  split at hstep
  case h_1 index hphase hw =>
    split_ifs at hstep with hcancelled hexpired
    on_goal 3 => split at hstep
    all_goals
      cases hstep
      exact left_worker hphase hw hphase rfl rfl rfl (by simp [WorkerStage.left])
  case h_2 => cases hstep

theorem left_answerRunner {worker : Nat} {answer : RunnerAnswer ρ}
    (hstep : s.answerRunner batch worker answer = some s') : s'.left batch < s.left batch := by
  unfold ReadOnlyRun.answerRunner at hstep
  split at hstep
  case h_1 index hphase hw =>
    cases answer with
    | failure e =>
      obtain ⟨connections, hdiscard⟩ :=
        discardInvalid_eq batch worker e (s.record index (.answered (.failure e)))
      dsimp only at hstep
      rw [hdiscard] at hstep
      cases hstep
      exact left_worker hphase hw hphase rfl rfl rfl (by simp [WorkerStage.left])
    | response | timedOut | throws =>
      cases hstep
      exact left_worker hphase hw hphase rfl rfl rfl (by simp [WorkerStage.left])
  case h_2 => cases hstep

/-! ## Runs -/

/-- An event of the execution itself. -/
def isTurn : ReadOnlyEvent ρ → Bool
  | .cancel => false
  | _ => true

theorem left_step {event : ReadOnlyEvent ρ} (hturn : isTurn event = true)
    (hstep : (machine batch).step s event = some s') : s'.left batch < s.left batch := by
  cases event with
  | cancel => cases hturn
  | enter now =>
    change s.enter batch now = some s' at hstep
    unfold ReadOnlyRun.enter at hstep
    split at hstep
    case h_1 hphase =>
      split_ifs at hstep
      all_goals
        cases hstep
        simp only [left, hphase, total_replicate, AcquireStage.left, List.length_replicate]
        omega
    case h_2 => cases hstep
  | requestConnection worker now =>
    change s.requestConnection batch worker now = some s' at hstep
    unfold ReadOnlyRun.requestConnection at hstep
    split at hstep
    case h_1 hphase hw =>
      cases hstep
      refine left_acquire hphase hw ?_
      split_ifs <;> simp [AcquireStage.left]
    case h_2 => cases hstep
  | answerAcquire worker answer =>
    change s.answerAcquire worker answer = some s' at hstep
    unfold ReadOnlyRun.answerAcquire at hstep
    split at hstep
    case h_1 hphase hw =>
      cases hstep
      refine left_acquire hphase hw ?_
      cases answer <;> simp [AcquireStage.left]
    case h_2 => cases hstep
  | endWarmup => exact left_endWarmup hstep
  | takeCommand worker now => exact left_takeCommand hstep
  | answerPermit worker answer => exact left_answerPermit hstep
  | runCommand worker now answer => exact left_runCommand hstep
  | answerRunner worker answer => exact left_answerRunner hstep
  | endWork => exact left_endWork hstep
  | releaseConnection =>
    change s.releaseConnection = some s' at hstep
    unfold ReadOnlyRun.releaseConnection at hstep
    split at hstep
    case h_1 hphase =>
      cases hstep
      simp only [left, hphase, List.length_cons]
      omega
    case h_2 => cases hstep
  | leave =>
    change s.leave = some s' at hstep
    unfold ReadOnlyRun.leave at hstep
    split at hstep
    case h_1 ending hphase =>
      cases ending with
      | fails | lists | throws =>
        cases hstep
        simp only [left, hphase, List.length_nil]
        omega
    case h_2 => cases hstep

theorem run_spec (h : Accounted batch s) (events : List (ReadOnlyEvent ρ))
    (hrun : (machine batch).run s events = some s') :
    Accounted batch s' ∧ s'.left batch + events.countP isTurn ≤ s.left batch := by
  induction events generalizing s with
  | nil =>
    cases hrun
    exact ⟨h, by simp⟩
  | cons event rest ih =>
    rw [Machine.run] at hrun
    split at hrun
    case h_1 next hstep =>
      obtain ⟨hafter, hrest⟩ := ih (h.step hstep) hrun
      refine ⟨hafter, ?_⟩
      rw [List.countP_cons]
      by_cases hturn : isTurn event = true
      · have hfirst := left_step hturn hstep
        rw [if_pos hturn]
        push_cast
        omega
      · cases event with
        | cancel =>
          cases hstep
          rw [if_neg hturn, add_zero]
          exact hrest
        | _ => exact absurd rfl hturn
    case h_2 => cases hrun

/-- No order of the events keeps an execution from its end: it takes no more turns than `left` says,
and one that can take none any more has left `execute`; the permits and the connections it was given
are then given back, each once. -/
theorem comes_to_end (batch : ReadOnlyBatch) (s s' : ReadOnlyRun ρ)
    (h : (machine batch).Reachable s) (events : List (ReadOnlyEvent ρ))
    (hrun : (machine batch).run s events = some s') :
    events.countP isTurn ≤ s.left batch ∧
      ((∀ event, isTurn event = true → (machine batch).step s' event = none) →
        s'.phase.isExit = true ∧ s'.permitReleases.Perm s'.permits ∧
          s'.released = s'.workerConnections) := by
  obtain ⟨haccounted, hle⟩ := run_spec (accounted_of_reachable h) events hrun
  have hnonneg := left_nonneg batch s'
  refine ⟨by omega, ?_⟩
  intro hstuck
  have hexit : s'.phase.isExit = true := by
    by_contra hnot
    obtain ⟨event, hne, hsome⟩ := goes_on batch s' (by simpa using hnot)
    have hturn : isTurn event = true := by
      cases event with
      | cancel => exact absurd rfl hne
      | _ => rfl
    rw [hstuck event hturn] at hsome
    cases hsome
  have honce := haccounted.onceEach
  exact ⟨hexit, honce.exit_permits hexit, honce.exit_released hexit⟩

theorem comes_to_end_twoCommands :
    twoCommandsRun.countP isTurn = 18 ∧ ((18 : Int) ≤ ({} : ReadOnlyRun Nat).left twoCommands) ∧
      (afterEvents twoCommandsRun).permitReleases.Perm (afterEvents twoCommandsRun).permits := by
  have hend := comes_to_end twoCommands {} (afterEvents twoCommandsRun) (.start twoCommands_start)
    twoCommandsRun rfl
  refine ⟨rfl, hend.1, (hend.2 ?_).2.1⟩
  intro event hturn
  cases event with
  | cancel => cases hturn
  | _ => rfl

end ReadOnlyRun

end PlugAgente.Batch
