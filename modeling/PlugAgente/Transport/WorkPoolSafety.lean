import PlugAgente.Transport.WorkPool

/-!
# Each transport job is completed once

`Inv` says that each job is in exactly one of three places: in the queue, active on a worker, or
completed once.  An abort empties the first two places into the third one (`Inv.abortAll`), also
when it comes from inside `_schedule`, and every other event moves one job from one place to the
next.
-/

namespace PlugAgente.Transport

namespace TransportWorkPool

variable {p p' : TransportWorkPool} {i w : Nat} {outcome : WorkOutcome}

/-! ## Where a job is -/

/-- The number of workers on which a job is active. -/
def activeOn (p : TransportWorkPool) (i : Nat) : Nat :=
  p.made.countP fun worker => worker.active = some i

/-- The completions of a job. -/
def completionsOf (p : TransportWorkPool) (i : Nat) : List WorkOutcome :=
  (p.jobs[i]?.map (·.completions)).getD []

/-- The invariant of the pool. -/
structure Inv (p : TransportWorkPool) : Prop where
  once : ∀ i < p.jobs.length, p.queue.count i + p.activeOn i + (p.completionsOf i).length = 1
  known : ∀ (w : Nat) (worker : PoolWorker) (i : Nat), p.made[w]? = some worker →
    worker.active = some i → i < p.jobs.length
  live : ∀ (w : Nat) (worker : PoolWorker), p.made[w]? = some worker → worker.active ≠ none →
    w ∈ p.workers ∧ worker.closed = false ∧ worker.sendPort = true
  order : ∃ rest, p.runs.map Prod.fst ++ rest = List.range p.jobs.length ∧
    (p.stopped = false → rest = p.queue)
  held : ∀ i w, (i, w) ∈ p.runs → p.completionsOf i = [] →
    ∃ worker, p.made[w]? = some worker ∧ worker.active = some i
  empty : p.stopped = true → p.queue = [] ∧ p.workers = []

/-! ## What an abort does -/

/-- Some of the jobs that had not completed have completed with an outcome. -/
structure Fails (outcome : WorkOutcome) (p p' : TransportWorkPool) : Prop where
  length : p'.jobs.length = p.jobs.length
  jobs : ∀ i, p'.completionsOf i = p.completionsOf i ∨
    p.completionsOf i = [] ∧ p'.completionsOf i = [outcome]

theorem Fails.refl (p : TransportWorkPool) : Fails outcome p p :=
  ⟨rfl, fun _ => .inl rfl⟩

theorem Fails.trans {p q r : TransportWorkPool} (h : Fails outcome p q) (h' : Fails outcome q r) :
    Fails outcome p r := by
  refine ⟨h'.length.trans h.length, fun i => ?_⟩
  rcases h.jobs i with hsame | ⟨hnone, hone⟩ <;> rcases h'.jobs i with hsame' | ⟨hnone', hone'⟩
  · exact .inl (hsame'.trans hsame)
  · exact .inr ⟨hsame ▸ hnone', hone'⟩
  · exact .inr ⟨hnone, hsame'.trans hone⟩
  · rw [hone] at hnone'
    cases hnone'

theorem Fails.ne_nil (h : Fails outcome p p') (hi : p.completionsOf i ≠ []) :
    p'.completionsOf i ≠ [] := by
  rcases h.jobs i with hsame | ⟨hnone, -⟩
  · rwa [hsame]
  · exact absurd hnone hi

theorem completionsOf_complete (hi : i < p.jobs.length) (j : Nat) :
    (p.complete i outcome).completionsOf j =
      if j = i then p.completionsOf i ++ [outcome] else p.completionsOf j := by
  have hjob : p.jobs[i]? = some p.jobs[i] := List.getElem?_eq_getElem hi
  unfold completionsOf complete
  dsimp only
  rw [Ledger.getElem?_changed hjob]
  split
  · rename_i hj
    rw [hjob]
    rfl
  · rfl

theorem fail_eq (outcome : WorkOutcome) (p : TransportWorkPool) (i : Nat) :
    p.fail outcome i = { p with jobs := (p.fail outcome i).jobs } := by
  unfold TransportWorkPool.fail
  split <;> rfl

theorem fail_fails (outcome : WorkOutcome) (p : TransportWorkPool) (i : Nat) :
    Fails outcome p (p.fail outcome i) := by
  unfold TransportWorkPool.fail
  split
  · exact .refl p
  · rename_i hopen
    have hi : i < p.jobs.length := by
      by_contra hge
      rw [List.getElem?_eq_none (Nat.not_lt.mp hge)] at hopen
      exact hopen rfl
    refine ⟨by simp [complete], fun j => ?_⟩
    rw [completionsOf_complete hi]
    split
    · rename_i hj
      have hnone : p.completionsOf i = [] := by
        have hjob : p.jobs[i]? = some p.jobs[i] := List.getElem?_eq_getElem hi
        rw [hjob] at hopen
        unfold completionsOf
        rw [hjob]
        simpa [WorkJob.isCompleted] using hopen
      rw [hj, hnone]
      exact .inr ⟨rfl, rfl⟩
    · exact .inl rfl

theorem completionsOf_fail (hi : i < p.jobs.length) :
    (p.fail outcome i).completionsOf i ≠ [] := by
  have hjob : p.jobs[i]? = some p.jobs[i] := List.getElem?_eq_getElem hi
  unfold TransportWorkPool.fail
  split
  · rename_i hdone
    rw [hjob] at hdone
    unfold completionsOf
    rw [hjob]
    simpa [WorkJob.isCompleted] using hdone
  · rw [completionsOf_complete hi, if_pos rfl]
    simp

theorem foldl_fail (outcome : WorkOutcome) (queue : List Nat) (p : TransportWorkPool) :
    let p' := queue.foldl (fail outcome) p
    p' = { p with jobs := p'.jobs } ∧ Fails outcome p p' ∧
      ∀ i ∈ queue, i < p.jobs.length → p'.completionsOf i ≠ [] := by
  induction queue generalizing p with
  | nil => exact ⟨rfl, .refl p, fun i hi => absurd hi List.not_mem_nil⟩
  | cons k queue ih =>
    obtain ⟨hframe, hfails, hdone⟩ := ih (p.fail outcome k)
    have hfirst := fail_fails outcome p k
    rw [List.foldl_cons]
    refine ⟨?_, hfirst.trans hfails, ?_⟩
    · rw [hframe, fail_eq outcome p k]
    · intro i hi hlt
      rcases List.mem_cons.mp hi with rfl | hi
      · exact hfails.ne_nil (completionsOf_fail hlt)
      · exact hdone i hi (by rw [hfirst.length]; exact hlt)

theorem close_close (worker : PoolWorker) : worker.close.close = worker.close := by
  have hclosed : worker.close.closed = true := by
    unfold PoolWorker.close
    split
    · assumption
    · rfl
  generalize worker.close = closed at hclosed
  exact if_pos hclosed

theorem abortWorker_spec (outcome : WorkOutcome) (p : TransportWorkPool) (w : Nat) :
    let p' := p.abortWorker outcome w
    p' = { p with jobs := p'.jobs, made := p.made.modify w (·.close) } ∧ Fails outcome p p' ∧
      ∀ (worker : PoolWorker) (i : Nat), p.made[w]? = some worker → worker.active = some i →
        i < p.jobs.length → p'.completionsOf i ≠ [] := by
  unfold abortWorker
  cases hactive : p.made[w]?.bind (·.active) with
  | none =>
    refine ⟨rfl, ⟨rfl, fun _ => .inl rfl⟩, ?_⟩
    intro worker i hworker hi
    rw [hworker, Option.bind_some, hi] at hactive
    cases hactive
  | some k =>
    have hfails := fail_fails outcome p k
    have hframe := fail_eq outcome p k
    refine ⟨?_, ⟨hfails.length, hfails.jobs⟩, ?_⟩
    · dsimp only
      rw [hframe]
    · intro worker i hworker hi hlt
      rw [hworker, Option.bind_some, hi] at hactive
      rw [← Option.some.inj hactive]
      exact completionsOf_fail hlt

theorem foldl_abortWorker (outcome : WorkOutcome) (ws : List Nat) (p : TransportWorkPool) :
    let p' := ws.foldl (abortWorker outcome) p
    p' = { p with jobs := p'.jobs, made := p'.made } ∧ Fails outcome p p' ∧
      (∀ w, p'.made[w]? = if w ∈ ws then p.made[w]?.map (·.close) else p.made[w]?) ∧
      ∀ w ∈ ws, ∀ (worker : PoolWorker) (i : Nat), p.made[w]? = some worker →
        worker.active = some i → i < p.jobs.length → p'.completionsOf i ≠ [] := by
  induction ws generalizing p with
  | nil => exact ⟨rfl, .refl p, fun w => rfl, fun w hw => absurd hw List.not_mem_nil⟩
  | cons v ws ih =>
    obtain ⟨hframe, hfails, hmade, hdone⟩ := ih (p.abortWorker outcome v)
    obtain ⟨hframe', hfails', hdone'⟩ := abortWorker_spec outcome p v
    have hround : ∀ w, (p.abortWorker outcome v).made[w]? =
        if w = v then p.made[w]?.map (·.close) else p.made[w]? := by
      intro w
      rw [hframe']
      exact Ledger.getElem?_modified _ _ _ _
    rw [List.foldl_cons]
    refine ⟨?_, hfails'.trans hfails, ?_, ?_⟩
    · rw [hframe, hframe']
    · intro w
      rw [hmade, hround]
      by_cases hv : w = v
      · rw [if_pos hv, if_pos (List.mem_cons.mpr (.inl hv))]
        split
        · cases p.made[w]? <;> simp [close_close]
        · rfl
      · rw [if_neg hv]
        simp [hv]
    · intro w hw worker i hworker hactive hlt
      by_cases hv : w = v
      · rw [hv] at hworker
        exact hfails.ne_nil (hdone' worker i hworker hactive hlt)
      · have hmem : w ∈ ws := (List.mem_cons.mp hw).resolve_left hv
        refine hdone w hmem worker i ?_ hactive (by rw [hfails'.length]; exact hlt)
        rw [hround, if_neg hv, hworker]

theorem abortAll_spec (outcome : WorkOutcome) (p : TransportWorkPool) :
    let p' := p.abortAll outcome
    p' = { p with jobs := p'.jobs, made := p'.made, queue := [], workers := [] } ∧
      Fails outcome p p' ∧
      (∀ w, p'.made[w]? = if w ∈ p.workers then p.made[w]?.map (·.close) else p.made[w]?) ∧
      (∀ i ∈ p.queue, i < p.jobs.length → p'.completionsOf i ≠ []) ∧
      ∀ w ∈ p.workers, ∀ (worker : PoolWorker) (i : Nat), p.made[w]? = some worker →
        worker.active = some i → i < p.jobs.length → p'.completionsOf i ≠ [] := by
  obtain ⟨hframe, hfails, hdone⟩ := foldl_fail outcome p.queue p
  unfold TransportWorkPool.abortAll
  generalize p.queue.foldl (fail outcome) p = q at hframe hfails hdone
  obtain ⟨hframe', hfails', hmade, hdone'⟩ :=
    foldl_abortWorker outcome q.workers { q with queue := [] }
  have hworkers : q.workers = p.workers := by rw [hframe]
  have hsame : q.made = p.made := by rw [hframe]
  dsimp only at hmade hdone' ⊢
  generalize q.workers.foldl (abortWorker outcome) { q with queue := [] } = r at *
  have hr : Fails outcome p r := hfails.trans ⟨hfails'.length, hfails'.jobs⟩
  rw [hworkers, hsame] at hmade hdone'
  refine ⟨?_, ⟨hr.length, hr.jobs⟩, hmade, ?_, ?_⟩
  · rw [hframe', hframe]
  · intro i hi hlt
    exact hfails'.ne_nil (hdone i hi hlt)
  · intro w hw worker i hworker hactive hlt
    exact hdone' w hw worker i hworker hactive (by rw [hfails.length]; exact hlt)

theorem close_active (worker : PoolWorker) (h : worker.closed = true → worker.active = none) :
    worker.close.active = none := by
  unfold PoolWorker.close
  split
  · exact h ‹_›
  · rfl

theorem Inv.abortAll (h : p.Inv) {disposed fatalError : Bool}
    (hstopped : (disposed || fatalError) = true) :
    (TransportWorkPool.abortAll { p with disposed := disposed, fatalError := fatalError }
      outcome).Inv := by
  obtain ⟨hframe, hfails, hmade, hqueue, hworkers⟩ := abortAll_spec outcome
    { p with disposed := disposed, fatalError := fatalError }
  generalize TransportWorkPool.abortAll { p with disposed := disposed, fatalError := fatalError }
    outcome = p' at *
  have hlength : p'.jobs.length = p.jobs.length := hfails.length
  have hidle : ∀ (w : Nat) (worker : PoolWorker), p'.made[w]? = some worker →
      worker.active = none := by
    intro w worker hworker
    rw [hmade] at hworker
    by_cases hw : w ∈ p.workers
    · rw [if_pos hw, Option.map_eq_some_iff] at hworker
      obtain ⟨before, hbefore, rfl⟩ := hworker
      apply close_active
      intro hclosed
      by_contra hactive
      have hopen := (h.live w before hbefore hactive).2.1
      rw [hclosed] at hopen
      cases hopen
    · rw [if_neg hw] at hworker
      by_contra hactive
      exact hw (h.live w worker hworker hactive).1
  have hnone : ∀ i, p'.activeOn i = 0 := by
    intro i
    unfold activeOn
    rw [List.countP_eq_zero]
    intro worker hworker
    obtain ⟨w, hw⟩ := List.mem_iff_getElem?.mp hworker
    simp [hidle w worker hw]
  -- a job that has not completed is in the queue or on a worker, and completes here
  have hdone : ∀ i < p.jobs.length, p'.completionsOf i ≠ [] := by
    intro i hi
    by_cases hopen : p.completionsOf i = []
    · have honce := h.once i hi
      rw [hopen, List.length_nil, Nat.add_zero] at honce
      by_cases hcount : p.queue.count i = 0
      · have hactive : 0 < p.activeOn i := by omega
        obtain ⟨worker, hmem, hworker⟩ := List.countP_pos_iff.mp hactive
        obtain ⟨w, hw⟩ := List.mem_iff_getElem?.mp hmem
        have hactive' : worker.active = some i := by simpa using hworker
        have hlive := h.live w worker hw (by rw [hactive']; simp)
        exact hworkers w hlive.1 worker i hw hactive' hi
      · exact hqueue i (List.count_pos_iff.mp (Nat.pos_of_ne_zero hcount)) hi
    · exact hfails.ne_nil hopen
  have hone : ∀ i < p.jobs.length, (p'.completionsOf i).length = 1 := by
    intro i hi
    rcases hfails.jobs i with hsame | ⟨-, hone⟩
    · have honce := h.once i hi
      have hne := List.length_pos_of_ne_nil (hdone i hi)
      have hsame' : p'.completionsOf i = p.completionsOf i := hsame
      rw [hsame'] at hne ⊢
      omega
    · rw [hone]
      rfl
  have hq : p'.queue = [] := by rw [hframe]
  have hw : p'.workers = [] := by rw [hframe]
  have hruns : p'.runs = p.runs := by rw [hframe]
  have hstop : p'.stopped = true := by rw [hframe]; exact hstopped
  constructor
  · intro i hi
    rw [hlength] at hi
    rw [hq, hnone, hone i hi]
    rfl
  · intro w worker i hworker hactive
    rw [hidle w worker hworker] at hactive
    cases hactive
  · intro w worker hworker hactive
    exact absurd (hidle w worker hworker) hactive
  · obtain ⟨rest, hrest, -⟩ := h.order
    refine ⟨rest, ?_, ?_⟩
    · rw [hruns, hlength, hrest]
    · intro hrunning
      rw [hstop] at hrunning
      cases hrunning
  · intro i w hrun hopen
    rw [hruns] at hrun
    have hmem : i ∈ p.runs.map Prod.fst := List.mem_map_of_mem hrun
    obtain ⟨rest, hrest, -⟩ := h.order
    have hlt : i < p.jobs.length := by
      rw [← List.mem_range, ← hrest]
      exact List.mem_append_left _ hmem
    exact absurd hopen (hdone i hlt)
  · exact fun _ => ⟨hq, hw⟩

theorem Inv.failPool (h : p.Inv) : p.failPool.Inv := by
  unfold TransportWorkPool.failPool
  split
  · exact h
  · exact h.abortAll (by simp)

theorem Inv.dispose (h : p.Inv) : p.dispose.Inv := by
  unfold TransportWorkPool.dispose
  split
  · exact h
  · exact h.abortAll (by simp)

/-! ## What the other events do -/

theorem Inv.withStarting (h : p.Inv) (phase : StartPhase) : Inv { p with starting := phase } :=
  ⟨h.once, h.known, h.live, h.order, h.held, h.empty⟩

theorem Inv.activate {queue : List Nat} {worker : PoolWorker} (h : p.Inv)
    (hqueue : p.queue = i :: queue) (hrunning : p.stopped = false) (hmem : w ∈ p.workers)
    (hworker : p.made[w]? = some worker) (hidle : worker.active = none)
    (hport : worker.sendPort = true) (hopen : worker.closed = false) :
    (TransportWorkPool.activate { p with queue := queue } w i).Inv := by
  have hmade : (p.made.modify w fun worker => { worker with active := some i }) =
      p.made.set w { worker with active := some i } := Ledger.modify_eq_set hworker _
  obtain ⟨rest, hrest, hqueued⟩ := h.order
  rw [hqueued hrunning, hqueue] at hrest
  have hlt : i < p.jobs.length := by
    rw [← List.mem_range, ← hrest]
    simp
  have hothers : ∀ (v : Nat) (other : PoolWorker), v ≠ w → p.made[v]? = some other →
      (p.made.set w { worker with active := some i })[v]? = some other := by
    intro v other hv hother
    rw [List.getElem?_set_ne (Ne.symm hv), hother]
  unfold TransportWorkPool.activate
  rw [hmade]
  constructor
  · intro j hj
    have honce := h.once j hj
    have hcount := Ledger.countP_set (fun worker => decide (worker.active = some j))
      (b := { worker with active := some i }) hworker
    simp only [hidle, Option.some.injEq, reduceCtorEq, decide_false, Bool.false_eq_true,
      if_false, Nat.add_zero, decide_eq_true_eq] at hcount
    unfold activeOn
    rw [hqueue, List.count_cons] at honce
    simp only [beq_iff_eq] at honce
    show queue.count j + (p.made.set w { worker with active := some i }).countP _ +
      (p.completionsOf j).length = 1
    rw [hcount]
    unfold activeOn at honce
    omega
  · have hknown : ∀ (v : Nat) (other : PoolWorker),
        (p.made.set w { worker with active := some i })[v]? = some other →
          ∀ j, other.active = some j → j < p.jobs.length := by
      refine Ledger.forall_set (fun v other _ hother j => h.known v other j hother) ?_
      rintro - j hj
      rw [← Option.some.inj hj]
      exact hlt
    exact fun v other j hother => hknown v other hother j
  · refine Ledger.forall_set ?_ ?_
    · exact fun v other _ hother => h.live v other hother
    · exact fun _ _ => ⟨hmem, hopen, hport⟩
  · refine ⟨queue, ?_, fun _ => rfl⟩
    show (p.runs ++ [(i, w)]).map Prod.fst ++ queue = _
    rw [List.map_append, List.append_assoc]
    exact hrest
  · intro j v hrun hnone
    rcases List.mem_append.mp hrun with hold | hnew
    · obtain ⟨other, hother, hactive⟩ := h.held j v hold hnone
      by_cases hv : v = w
      · rw [hv, hworker] at hother
        rw [← Option.some.inj hother, hidle] at hactive
        cases hactive
      · exact ⟨other, hothers v other hv hother, hactive⟩
    · obtain ⟨rfl, rfl⟩ : j = i ∧ v = w := by simpa using hnew
      refine ⟨_, List.getElem?_set_self (List.getElem?_eq_some_iff.mp hworker).1, rfl⟩
  · intro hstopped
    have : p.stopped = true := hstopped
    rw [hrunning] at this
    cases this

theorem runJob_cases (p : TransportWorkPool) (hrunning : p.stopped = false) (w i : Nat) :
    (p.runJob w i).workers = [] ∧ p.runJob w i = (p.activate w i).failPool ∨
      p.runJob w i = p.activate w i := by
  unfold runJob
  split
  · left
    refine ⟨?_, rfl⟩
    unfold TransportWorkPool.failPool
    have hgoes : ¬ ((p.activate w i).disposed || (p.activate w i).fatalError) = true := by
      show ¬ p.stopped = true
      rw [hrunning]
      exact Bool.false_ne_true
    rw [if_neg hgoes, (abortAll_spec .fatal _).1]
  · exact .inr rfl

theorem Inv.scheduleLoop (ws : List Nat) (h : p.Inv) (hrunning : p.stopped = false)
    (hws : ∀ w ∈ ws, w ∈ p.workers) : (TransportWorkPool.scheduleLoop ws p).Inv := by
  induction ws generalizing p with
  | nil => exact h
  | cons w ws ih =>
    have hrest : ∀ v ∈ ws, v ∈ p.workers := fun v hv => hws v (List.mem_cons_of_mem _ hv)
    unfold TransportWorkPool.scheduleLoop
    split
    · rename_i worker i queue hworker hqueue
      split
      · exact ih h hrunning hrest
      · rename_i hready
        simp only [Bool.or_eq_true, not_or, Bool.not_eq_true, Bool.not_eq_false'] at hready
        have hidle : worker.active = none := by simpa using hready.1.1
        have hactivate := h.activate hqueue hrunning (hws w List.mem_cons_self) hworker hidle
          hready.1.2 hready.2
        dsimp only
        rcases runJob_cases { p with queue := queue } hrunning w i with ⟨hcleared, hrun⟩ | hrun
        · rw [if_pos (by rw [hcleared]; rfl), hrun]
          exact hactivate.failPool
        · rw [hrun]
          split
          · exact hactivate
          · exact ih hactivate hrunning hrest
    · exact ih h hrunning hrest

theorem Inv.schedule (h : p.Inv) : p.schedule.Inv := by
  unfold TransportWorkPool.schedule
  split
  · exact h
  · rename_i hready
    simp only [Bool.or_eq_true, not_or, Bool.not_eq_true] at hready
    exact h.scheduleLoop p.workers (by simp [stopped, hready.1.1, hready.1.2]) fun w hw => hw

theorem Inv.ports (h : p.Inv) (f : PoolWorker → PoolWorker)
    (hactive : ∀ worker, (f worker).active = worker.active)
    (hclosed : ∀ worker, (f worker).closed = worker.closed)
    (hport : ∀ worker, worker.sendPort = true → (f worker).sendPort = true) :
    Inv { p with made := p.made.modify w f } := by
  have hback : ∀ (v : Nat) (worker : PoolWorker), (p.made.modify w f)[v]? = some worker →
      ∃ before, p.made[v]? = some before ∧ (worker = before ∨ worker = f before) := by
    intro v worker hworker
    rw [Ledger.getElem?_modified] at hworker
    split at hworker
    · obtain ⟨before, hbefore, rfl⟩ := Option.map_eq_some_iff.mp hworker
      exact ⟨before, hbefore, .inr rfl⟩
    · exact ⟨worker, hworker, .inl rfl⟩
  have hkept : ∀ v : Nat, ((p.made.modify w f)[v]?.map (·.active)) = p.made[v]?.map (·.active) := by
    intro v
    rw [Ledger.getElem?_modified]
    split
    · cases p.made[v]? <;> simp [hactive]
    · rfl
  have hlist : (p.made.modify w f).map (·.active) = p.made.map (·.active) := by
    apply List.ext_getElem?
    intro v
    rw [List.getElem?_map, List.getElem?_map, hkept]
  constructor
  · intro j hj
    have honce := h.once j hj
    have hcount : ∀ l : List PoolWorker, (l.countP fun worker => decide (worker.active = some j)) =
        (l.map (·.active)).countP fun active => decide (active = some j) := by
      intro l
      rw [List.countP_map]
      rfl
    unfold activeOn at honce ⊢
    rw [hcount] at honce ⊢
    rw [show ({ p with made := p.made.modify w f } : TransportWorkPool).made =
      p.made.modify w f from rfl, hlist]
    exact honce
  · intro v worker j hworker hj
    obtain ⟨before, hbefore, rfl | rfl⟩ := hback v worker hworker
    · exact h.known v _ j hbefore hj
    · exact h.known v before j hbefore (by rw [← hactive, hj])
  · intro v worker hworker hne
    obtain ⟨before, hbefore, rfl | rfl⟩ := hback v worker hworker
    · exact h.live v _ hbefore hne
    · rw [hactive] at hne
      obtain ⟨hmem, hopen, hsend⟩ := h.live v before hbefore hne
      exact ⟨hmem, by rw [hclosed, hopen], hport before hsend⟩
  · exact h.order
  · intro j v hrun hnone
    obtain ⟨worker, hworker, hj⟩ := h.held j v hrun hnone
    have hv := hkept v
    rw [hworker, Option.map_some, Option.map_eq_some_iff] at hv
    obtain ⟨after, hafter, hsame⟩ := hv
    exact ⟨after, hafter, by rw [hsame, hj]⟩
  · exact h.empty

theorem Inv.startFrom (h : p.Inv) (index : Nat) : (p.startFrom index).Inv := by
  unfold TransportWorkPool.startFrom
  split
  · rename_i hgoes
    have hrunning : p.stopped = false := by
      rw [Bool.and_eq_true, Bool.not_eq_true'] at hgoes
      exact hgoes.2
    constructor
    · intro j hj
      show p.queue.count j + (p.made ++ [({} : PoolWorker)]).countP
        (fun worker => decide (worker.active = some j)) + (p.completionsOf j).length = 1
      rw [List.countP_append]
      exact h.once j hj
    · intro v worker j hworker hj
      rcases Ledger.getElem?_added hworker with hkept | ⟨-, rfl⟩
      · exact h.known v worker j hkept hj
      · cases hj
    · intro v worker hworker hne
      rcases Ledger.getElem?_added hworker with hkept | ⟨-, rfl⟩
      · obtain ⟨hmem, hrest⟩ := h.live v worker hkept hne
        exact ⟨List.mem_append_left _ hmem, hrest⟩
      · exact absurd rfl hne
    · exact h.order
    · intro j v hrun hnone
      obtain ⟨worker, hworker, hj⟩ := h.held j v hrun hnone
      exact ⟨worker, Ledger.getElem?_kept hworker, hj⟩
    · intro hstopped
      have : p.stopped = true := hstopped
      rw [hrunning] at this
      cases this
  · exact h.withStarting _

theorem Inv.ensureStarted (h : p.Inv) : p.ensureStarted.Inv := by
  unfold TransportWorkPool.ensureStarted
  split
  · exact (h.startFrom 0).schedule
  · exact h.schedule

theorem Inv.add (h : p.Inv) (hrunning : p.stopped = false) (sendThrows : Bool) :
    Inv { p with
      jobs := p.jobs ++ [{ sendThrows := sendThrows }]
      queue := p.queue ++ [p.jobs.length] } := by
  obtain ⟨rest, hrest, hqueued⟩ := h.order
  rw [hqueued hrunning] at hrest
  have hold : ∀ j ∈ p.queue, j < p.jobs.length := by
    intro j hj
    rw [← List.mem_range, ← hrest]
    exact List.mem_append_right _ hj
  have hkept : ∀ j < p.jobs.length,
      ({ p with
        jobs := p.jobs ++ [{ sendThrows := sendThrows }]
        queue := p.queue ++ [p.jobs.length] } : TransportWorkPool).completionsOf j =
        p.completionsOf j := by
    intro j hj
    unfold completionsOf
    rw [show ({ p with
      jobs := p.jobs ++ [{ sendThrows := sendThrows }]
      queue := p.queue ++ [p.jobs.length] } : TransportWorkPool).jobs =
        p.jobs ++ [{ sendThrows := sendThrows }] from rfl, List.getElem?_append_left hj]
  constructor
  · intro j hj
    have hj' : j < p.jobs.length + 1 := by simpa using hj
    rcases Nat.lt_succ_iff_lt_or_eq.mp hj' with hlt | rfl
    · have honce := h.once j hlt
      rw [hkept j hlt]
      show (p.queue ++ [p.jobs.length]).count j + p.activeOn j + _ = 1
      rw [List.count_append, List.count_singleton, if_neg (by simp; omega)]
      exact honce
    · have hcount : p.queue.count p.jobs.length = 0 := by
        rw [List.count_eq_zero]
        exact fun hmem => Nat.lt_irrefl _ (hold _ hmem)
      have hactive : p.activeOn p.jobs.length = 0 := by
        unfold activeOn
        rw [List.countP_eq_zero]
        intro worker hworker hj
        obtain ⟨v, hv⟩ := List.mem_iff_getElem?.mp hworker
        exact Nat.lt_irrefl _ (h.known v worker _ hv (by simpa using hj))
      show (p.queue ++ [p.jobs.length]).count p.jobs.length + p.activeOn p.jobs.length +
        (completionsOf _ p.jobs.length).length = 1
      rw [List.count_append, hcount, hactive]
      unfold completionsOf
      simp
  · intro v worker j hworker hj
    have := h.known v worker j hworker hj
    simp only [List.length_append, List.length_singleton]
    omega
  · exact h.live
  · refine ⟨p.queue ++ [p.jobs.length], ?_, fun _ => rfl⟩
    show p.runs.map Prod.fst ++ (p.queue ++ [p.jobs.length]) =
      List.range (p.jobs ++ [WorkJob.mk sendThrows []]).length
    rw [← List.append_assoc, hrest, List.length_append, List.length_singleton, List.range_succ]
  · intro j v hrun hnone
    have hmem : j ∈ p.runs.map Prod.fst := List.mem_map_of_mem hrun
    have hlt : j < p.jobs.length := by
      rw [← List.mem_range, ← hrest]
      exact List.mem_append_left _ hmem
    rw [hkept j hlt] at hnone
    exact h.held j v hrun hnone
  · intro hstopped
    have : p.stopped = true := hstopped
    rw [hrunning] at this
    cases this

theorem Inv.submit (h : p.Inv) (sendThrows : Bool) : (p.submit sendThrows).Inv := by
  unfold TransportWorkPool.submit
  split
  · exact h
  · rename_i hdisposed
    split
    · exact h
    · rename_i hfatal
      refine (h.add ?_ sendThrows).ensureStarted
      unfold stopped
      rw [Bool.not_eq_true] at hdisposed hfatal
      rw [hdisposed, hfatal]
      rfl

theorem Inv.release {worker : PoolWorker} (h : p.Inv) (hworker : p.made[w]? = some worker)
    (hactive : worker.active = some i) (hopen : p.completionsOf i = []) (outcome : WorkOutcome) :
    (TransportWorkPool.complete
      { p with made := p.made.modify w fun worker => { worker with active := none } } i
        outcome).Inv := by
  have hlt := h.known w worker i hworker hactive
  have hmade : (p.made.modify w fun worker => { worker with active := none }) =
      p.made.set w { worker with active := none } := Ledger.modify_eq_set hworker _
  rw [hmade]
  have hcompletions : ∀ j, (TransportWorkPool.complete
      { p with made := p.made.set w { worker with active := none } } i outcome).completionsOf j =
        if j = i then p.completionsOf i ++ [outcome] else p.completionsOf j :=
    fun j => completionsOf_complete hlt j
  have hlength : (TransportWorkPool.complete
      { p with made := p.made.set w { worker with active := none } } i outcome).jobs.length =
        p.jobs.length := by
    simp [TransportWorkPool.complete]
  have honeWorker := h.once i hlt
  constructor
  · intro j hj
    rw [hlength] at hj
    have honce := h.once j hj
    have hcount := Ledger.countP_set (fun worker => decide (worker.active = some j))
      (b := { worker with active := none }) hworker
    simp only [hactive, Option.some.injEq, reduceCtorEq, decide_false, Bool.false_eq_true,
      if_false, Nat.add_zero, decide_eq_true_eq] at hcount
    rw [hcompletions]
    unfold activeOn at honce
    show p.queue.count j + (p.made.set w { worker with active := none }).countP
      (fun worker => decide (worker.active = some j)) + _ = 1
    by_cases hji : j = i
    · rw [if_pos hji, hopen]
      rw [hji] at honce hcount
      rw [if_pos rfl] at hcount
      rw [hopen] at honce
      simp only [List.nil_append, List.length_singleton, List.length_nil] at honce ⊢
      rw [hji]
      omega
    · rw [if_neg (Ne.symm hji)] at hcount
      rw [if_neg hji]
      omega
  · have hknown : ∀ (v : Nat) (other : PoolWorker),
        (p.made.set w { worker with active := none })[v]? = some other →
          ∀ j, other.active = some j → j < p.jobs.length := by
      refine Ledger.forall_set (fun v other _ hother j => h.known v other j hother) ?_
      rintro - j hj
      cases hj
    intro v other j hother hj
    rw [hlength]
    exact hknown v other hother j hj
  · refine Ledger.forall_set ?_ ?_
    · exact fun v other _ hother => h.live v other hother
    · exact fun _ hne => absurd rfl hne
  · obtain ⟨rest, hrest, hqueued⟩ := h.order
    exact ⟨rest, by rw [hlength]; exact hrest, hqueued⟩
  · intro j v hrun hnone
    rw [hcompletions] at hnone
    split at hnone
    · simp at hnone
    · rename_i hji
      obtain ⟨other, hother, hj⟩ := h.held j v hrun hnone
      have hv : v ≠ w := by
        rintro rfl
        rw [hworker] at hother
        rw [← Option.some.inj hother, hactive] at hj
        exact hji (Option.some.inj hj).symm
      exact ⟨other, by rw [← hother]; exact List.getElem?_set_ne (Ne.symm hv), hj⟩
  · exact h.empty

theorem Inv.reply {message : WorkReply} (h : p.Inv) (hreply : p.reply i w message = some p') :
    p'.Inv := by
  unfold TransportWorkPool.reply at hreply
  split_ifs at hreply with hrun
  split at hreply
  · rename_i worker job hworker hjob
    by_cases hstale : (worker.closed || worker.active != some i || job.isCompleted) = true
    · rw [if_pos hstale] at hreply
      rw [← Option.some.inj hreply]
      exact h
    · rw [if_neg hstale] at hreply
      simp only [Bool.or_eq_true, not_or, Bool.not_eq_true, bne_eq_false_iff_eq] at hstale
      have hnone : p.completionsOf i = [] := by
        unfold completionsOf
        rw [hjob]
        simpa [WorkJob.isCompleted] using hstale.2
      have hrelease := fun outcome => h.release hworker hstale.1.2 hnone outcome
      dsimp only at hreply
      split at hreply <;> rw [← Option.some.inj hreply]
      · exact (hrelease _).failPool
      · exact (hrelease _).schedule
      · exact (hrelease _).failPool
      · exact (hrelease _).schedule
  · cases hreply

theorem Inv.step {e : WorkPoolEvent} (h : p.Inv) (hstep : workPool.step p e = some p') :
    p'.Inv := by
  cases e with
  | submit sendThrows =>
    rw [← Option.some.inj hstep]
    exact h.submit sendThrows
  | dispose =>
    rw [← Option.some.inj hstep]
    exact h.dispose
  | spawned =>
    change p.spawned = some p' at hstep
    unfold spawned at hstep
    split at hstep
    · split at hstep <;> rw [← Option.some.inj hstep] <;> exact h.withStarting _
    · cases hstep
  | spawnFailed =>
    simp only [workPool] at hstep
    split at hstep
    · rw [← Option.some.inj hstep]
      exact h.withStarting _
    · cases hstep
  | handshake v isSendPort =>
    change p.handshake v isSendPort = some p' at hstep
    unfold handshake at hstep
    split at hstep
    · cases hstep
    · split_ifs at hstep
      · rw [← Option.some.inj hstep]
        exact h.failPool
      · rw [← Option.some.inj hstep]
        exact h.ports _ (fun _ => rfl) (fun _ => rfl) fun _ _ => rfl
  | readyAwaited =>
    change p.readyAwaited = some p' at hstep
    unfold readyAwaited at hstep
    split at hstep
    · split_ifs at hstep
      rw [← Option.some.inj hstep]
      exact (h.ports (fun worker => { worker with readyPortOpen := false }) (fun _ => rfl)
        (fun _ => rfl) fun _ hport => hport).withStarting _
    · cases hstep
  | subscriptionCancelled =>
    change p.subscriptionCancelled = some p' at hstep
    unfold subscriptionCancelled at hstep
    split at hstep
    · split at hstep <;> rw [← Option.some.inj hstep]
      · exact h.withStarting _
      · exact h.startFrom _
    · cases hstep
  | startCaught =>
    change (if p.starting = .threw then some { p.failPool with starting := .returned }
      else none) = some p' at hstep
    split_ifs at hstep
    rw [← Option.some.inj hstep]
    exact h.failPool.withStarting _
  | startCompleted =>
    change (if p.starting = .returned then some { p.schedule with starting := .over }
      else none) = some p' at hstep
    split_ifs at hstep
    rw [← Option.some.inj hstep]
    exact h.schedule.withStarting _
  | reply j v message => exact h.reply hstep
  | workerFailed v =>
    change (if v < p.made.length then some p.failPool else none) = some p' at hstep
    split_ifs at hstep
    rw [← Option.some.inj hstep]
    exact h.failPool

theorem inv_of_reachable (h : workPool.Reachable p) : p.Inv := by
  refine Machine.Reach.invariant (I := Inv) ?_ (fun _ _ _ hi _ hstep => hi.step hstep) h
  rintro p ⟨workerCount, rfl⟩
  constructor
  · exact fun i hi => absurd hi (Nat.not_lt_zero i)
  · intro v worker j hworker
    simp [make] at hworker
  · intro v worker hworker
    simp [make] at hworker
  · exact ⟨[], rfl, fun _ => rfl⟩
  · exact fun j v hrun => absurd hrun List.not_mem_nil
  · intro hstopped
    cases hstopped

/-! ## Every run -/

theorem failPool_of_stopped (h : p.stopped = true) : p.failPool = p := if_pos h

theorem schedule_of_stopped (h : p.stopped = true) : p.schedule = p := by
  unfold stopped at h
  unfold TransportWorkPool.schedule
  rw [h]
  rfl

theorem Inv.quiet {e : WorkPoolEvent} (h : p.Inv) (hstopped : p.stopped = true)
    (hstep : workPool.step p e = some p') :
    p'.stopped = true ∧ p'.runs = p.runs ∧ p'.jobs.length = p.jobs.length := by
  have hsame : p.stopped = true ∧ p.runs = p.runs ∧ p.jobs.length = p.jobs.length :=
    ⟨hstopped, rfl, rfl⟩
  cases e with
  | submit sendThrows =>
    rw [← Option.some.inj hstep]
    unfold TransportWorkPool.submit
    split
    · exact hsame
    · rename_i hdisposed
      have hfatal : p.fatalError = true := by
        unfold stopped at hstopped
        rw [Bool.not_eq_true] at hdisposed
        rwa [hdisposed, Bool.false_or] at hstopped
      rw [if_pos hfatal]
      exact hsame
  | dispose =>
    rw [← Option.some.inj hstep]
    unfold TransportWorkPool.dispose
    split
    · exact hsame
    · obtain ⟨hframe, hfails, -⟩ := abortAll_spec .cancelled { p with disposed := true }
      refine ⟨?_, ?_, hfails.length⟩ <;> rw [hframe]
      rfl
  | spawned =>
    change p.spawned = some p' at hstep
    unfold spawned at hstep
    split at hstep
    · split at hstep <;> rw [← Option.some.inj hstep] <;> exact hsame
    · cases hstep
  | spawnFailed =>
    simp only [workPool] at hstep
    split at hstep
    · rw [← Option.some.inj hstep]
      exact hsame
    · cases hstep
  | handshake v isSendPort =>
    change p.handshake v isSendPort = some p' at hstep
    unfold handshake at hstep
    split at hstep
    · cases hstep
    · split_ifs at hstep
      · rw [← Option.some.inj hstep, failPool_of_stopped hstopped]
        exact hsame
      · rw [← Option.some.inj hstep]
        exact hsame
  | readyAwaited =>
    change p.readyAwaited = some p' at hstep
    unfold readyAwaited at hstep
    split at hstep
    · split_ifs at hstep
      rw [← Option.some.inj hstep]
      exact hsame
    · cases hstep
  | subscriptionCancelled =>
    change p.subscriptionCancelled = some p' at hstep
    unfold subscriptionCancelled at hstep
    split at hstep
    · split at hstep <;> rw [← Option.some.inj hstep]
      · exact hsame
      · unfold TransportWorkPool.startFrom
        rw [show (p.disposed || p.fatalError) = true from hstopped, Bool.not_true, Bool.and_false,
          if_neg Bool.false_ne_true]
        exact hsame
    · cases hstep
  | startCaught =>
    change (if p.starting = .threw then some { p.failPool with starting := .returned }
      else none) = some p' at hstep
    split_ifs at hstep
    rw [← Option.some.inj hstep, failPool_of_stopped hstopped]
    exact hsame
  | startCompleted =>
    change (if p.starting = .returned then some { p.schedule with starting := .over }
      else none) = some p' at hstep
    split_ifs at hstep
    rw [← Option.some.inj hstep, schedule_of_stopped hstopped]
    exact hsame
  | reply j v message =>
    change p.reply j v message = some p' at hstep
    unfold TransportWorkPool.reply at hstep
    split_ifs at hstep
    split at hstep
    · rename_i worker job hworker hjob
      -- no job is active on any worker, so the message comes too late
      have hidle : worker.active = none := by
        by_contra hactive
        have hmem := (h.live v worker hworker hactive).1
        rw [(h.empty hstopped).2] at hmem
        exact absurd hmem List.not_mem_nil
      rw [if_pos (by rw [hidle]; simp)] at hstep
      rw [← Option.some.inj hstep]
      exact hsame
    · cases hstep
  | workerFailed v =>
    change (if v < p.made.length then some p.failPool else none) = some p' at hstep
    split_ifs at hstep
    rw [← Option.some.inj hstep, failPool_of_stopped hstopped]
    exact hsame

/-- Each job that was submitted is queued, active on one live worker, or completed once. -/
structure CompletesOnce (p : TransportWorkPool) : Prop where
  once : ∀ i < p.jobs.length, p.queue.count i + p.activeOn i + (p.completionsOf i).length = 1
  live : ∀ (w : Nat) (worker : PoolWorker), p.made[w]? = some worker → worker.active ≠ none →
    w ∈ p.workers ∧ worker.closed = false ∧ worker.sendPort = true
  /-- Of the jobs that a worker was given, at most one has not completed. -/
  single : ∀ i j w, (i, w) ∈ p.runs → (j, w) ∈ p.runs → p.completionsOf i = [] →
    p.completionsOf j = [] → i = j
  /-- The jobs start in the order in which they were submitted. -/
  order : p.runs.map Prod.fst = List.range p.runs.length
  /-- When the pool has stopped, every job has completed, and none starts any more. -/
  done : p.stopped = true → ∀ i < p.jobs.length, (p.completionsOf i).length = 1
  quiet : p.stopped = true → ∀ e p', workPool.step p e = some p' →
    p'.stopped = true ∧ p'.runs = p.runs ∧ p'.jobs.length = p.jobs.length

theorem completes_once (h : workPool.Reachable p) : p.CompletesOnce := by
  have hinv := inv_of_reachable h
  refine ⟨hinv.once, hinv.live, ?_, ?_, ?_, ?_⟩
  · intro i j w hi hj hopen hopen'
    obtain ⟨worker, hworker, hactive⟩ := hinv.held i w hi hopen
    obtain ⟨worker', hworker', hactive'⟩ := hinv.held j w hj hopen'
    rw [hworker] at hworker'
    rw [← Option.some.inj hworker', hactive] at hactive'
    exact Option.some.inj hactive'
  · obtain ⟨rest, hrest, -⟩ := hinv.order
    have hprefix := congrArg (List.take p.runs.length) hrest
    have hle : p.runs.length ≤ p.jobs.length := by
      have := congrArg List.length hrest
      simp only [List.length_append, List.length_map, List.length_range] at this
      omega
    rw [List.take_range, Nat.min_eq_left hle] at hprefix
    rw [← hprefix, List.take_append_of_le_length (by simp), List.take_of_length_le (by simp)]
  · intro hstopped i hi
    have honce := hinv.once i hi
    have hidle : p.activeOn i = 0 := by
      unfold activeOn
      rw [List.countP_eq_zero]
      intro worker hworker hactive
      obtain ⟨w, hw⟩ := List.mem_iff_getElem?.mp hworker
      have hactive' : worker.active = some i := by simpa using hactive
      have hmem := (hinv.live w worker hw (by rw [hactive']; simp)).1
      rw [(hinv.empty hstopped).2] at hmem
      exact absurd hmem List.not_mem_nil
    rw [(hinv.empty hstopped).1, hidle] at honce
    simpa using honce
  · exact fun hstopped e p' hstep => hinv.quiet hstopped hstep

/-- Two jobs wait for the first worker; the send of the second one throws while the pool goes
over its workers. -/
theorem completes_once_send :
    ∃ p : TransportWorkPool, p.CompletesOnce ∧
      p.jobs.map (·.completions) = [[.fatal], [.fatal], [.fatal]] := by
  have hrun : workPool.run (.make 2) [.submit false, .submit true, .submit false,
      .handshake 0 true, .spawned, .readyAwaited, .subscriptionCancelled, .handshake 1 true,
      .spawned, .readyAwaited, .subscriptionCancelled, .startCompleted] = some _ := rfl
  exact ⟨_, completes_once (Machine.reachable_of_run ⟨2, rfl⟩ hrun), rfl⟩

end TransportWorkPool

end PlugAgente.Transport
