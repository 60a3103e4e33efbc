import PlugAgente.Execution.IdempotentRun
import PlugAgente.Machine.Ledger

/-!
# One run for each idempotency key

The leader of a key is alone between its reservation and its end, and what it saves is found by
every later leader: at most one call starts a runner, and every other call returns the execution
of that call or fails.

The key is removed when the completer is completed.  `run` completes it with what the repository
and the queue answer, and with an `Exception` of the start; an error that is thrown by a lookup or
by the start leaves it as it is, and the key reserved.  `Settles` is that no such error is thrown.
-/

namespace PlugAgente.Execution

open Dart

variable {actionId key : Text} {s s' : RunsState} {i : Nat} {c c' : RunCall}

/-! ## Stages -/

namespace RunStage

/-- The call holds the key and has more to do. -/
def leads : RunStage → Bool
  | leaderLookup | firstSave | firstSaved | auditing | enqueued _ | joined _ => true
  | followerLookup _ | following _ | ended => false

/-- The first save of the call is committed, and the call has more to do. -/
def saved : RunStage → Bool
  | firstSaved | auditing | enqueued _ | joined _ => true
  | leaderLookup | firstSave | followerLookup _ | following _ | ended => false

/-- How far a call has come. -/
def rank : RunStage → Nat
  | leaderLookup | followerLookup _ => 0
  | firstSave | following _ => 1
  | firstSaved => 2
  | auditing => 3
  | joined _ | enqueued .waiting => 4
  | enqueued .started => 5
  | enqueued .runnerStarted => 6
  | enqueued (.done _) => 7
  | ended => 8

theorem rank_le (stage : RunStage) : stage.rank ≤ RunStage.ended.rank := by
  cases stage with
  | enqueued task => cases task <;> simp [rank]
  | _ => simp [rank]

theorem leads_of_saved {stage : RunStage} (h : stage.saved = true) : stage.leads = true := by
  cases stage <;> simp_all [saved, leads]

end RunStage

/-! ## What holds of a call -/

/-- What holds of a call, with the key and the rows as they are. -/
structure RunCall.Ok (reserved : Option Nat) (rows : List ExecutionRef) (i : Nat) (c : RunCall) :
    Prop where
  leading : c.stage.leads = true → reserved = some i
  empty : c.stage = .firstSave → rows = []
  created : c.stage.saved = true → rows = [.createdBy i]
  notJoined : ∀ other, c.stage ≠ .joined other
  completed : c.completed.isSome = true → c.stage = .ended
  results : ∀ e, c.completed = some (.success e) ∨ c.returned = some (.success e) → e ∈ rows

namespace RunCall.Ok

variable {reserved : Option Nat} {rows : List ExecutionRef}

/-- A call that goes on has no result yet but that of the queued execution. -/
theorem completed_none (h : c.Ok reserved rows i) (hstage : c.stage ≠ .ended) :
    c.completed = none := by
  by_contra hsome
  exact hstage (h.completed (Option.isSome_iff_ne_none.mpr hsome))

theorem ended (hstage : c.stage = .ended)
    (hresults : ∀ e, c.completed = some (.success e) ∨ c.returned = some (.success e) → e ∈ rows) :
    c.Ok reserved rows i := by
  refine ⟨?_, ?_, ?_, ?_, fun _ => hstage, hresults⟩
  · intro hleads
    rw [hstage] at hleads
    cases hleads
  · intro hfirst
    rw [hstage] at hfirst
    cases hfirst
  · intro hsaved
    rw [hstage] at hsaved
    cases hsaved
  · intro other hjoined
    rw [hstage] at hjoined
    cases hjoined

theorem settle {result : RunResult} (hresult : ∀ e, result = .success e → e ∈ rows) :
    (c.settle result).Ok reserved rows i := by
  refine ended rfl ?_
  rintro e (he | he)
  · exact hresult e (Option.some.inj he)
  · exact hresult e (Option.some.inj he)

theorem leave (h : c.Ok reserved rows i) {result : RunResult}
    (hresult : ∀ e, result = .success e → e ∈ rows) : (c.leave result).Ok reserved rows i := by
  refine ended rfl ?_
  rintro e (he | he)
  · exact h.results e (.inl he)
  · exact hresult e (Option.some.inj he)

theorem startFailed (h : c.Ok reserved rows i) (outcome : StartOutcome) :
    (c.startFailed outcome).Ok reserved rows i := by
  unfold RunCall.startFailed
  split
  · exact h.leave (by simp)
  · exact settle (by simp)

theorem complete (h : c.Ok reserved rows i) {execution : ExecutionRef} (he : execution ∈ rows)
    (completion : Completion) : (c.complete execution completion).Ok reserved rows i := by
  unfold RunCall.complete
  cases completion with
  | succeeded =>
    refine ended rfl ?_
    rintro e (hcompleted | hreturned)
    · cases hcompleted
      exact he
    · rcases Option.or_eq_some_iff.mp hreturned with hreturned | ⟨-, hreturned⟩
      · exact h.results e (.inr hreturned)
      · cases hreturned
        exact he
  | failed =>
    refine ended rfl ?_
    rintro e (hcompleted | hreturned)
    · cases hcompleted
    · rcases Option.or_eq_some_iff.mp hreturned with hreturned | ⟨-, hreturned⟩
      · exact h.results e (.inr hreturned)
      · cases hreturned
  | threw =>
    refine ended rfl ?_
    rintro e (hcompleted | hreturned)
    · cases hcompleted
    · rcases Option.or_eq_some_iff.mp hreturned with hreturned | ⟨-, hreturned⟩
      · exact h.results e (.inr hreturned)
      · cases hreturned

/-- A leader whose first save is committed goes on. -/
theorem goOn (h : c.Ok reserved rows i) (hsaved : c.stage.saved = true) {stage : RunStage}
    (hstage : stage.saved = true) (hjoined : ∀ other, stage ≠ .joined other) :
    RunCall.Ok reserved rows i { c with stage } := by
  have hnone : c.completed = none := by
    apply h.completed_none
    intro hended
    rw [hended] at hsaved
    cases hsaved
  refine ⟨?_, ?_, ?_, hjoined, ?_, h.results⟩
  · intro _
    exact h.leading (RunStage.leads_of_saved hsaved)
  · intro hfirst
    have hfirst : stage = .firstSave := hfirst
    rw [hfirst] at hstage
    cases hstage
  · intro _
    exact h.created hsaved
  · intro hsome
    rw [show RunCall.completed { c with stage } = none from hnone] at hsome
    cases hsome

end RunCall.Ok

/-! ## The invariant -/

namespace RunsState

/-- At most one call has created an execution, and what it is about to do is in its hands. -/
structure Single (s : RunsState) : Prop where
  reserved : ∀ l, s.reserved = some l → l < s.calls.length
  calls : ∀ (n : Nat) (c : RunCall), s.calls[n]? = some c → c.Ok s.reserved s.rows n
  queueEntry : ∀ j, s.queueEntry = some j →
    s.rows = [.createdBy j] ∧ ∃ c, s.calls[j]? = some c ∧ 4 ≤ c.stage.rank
  starts : ∀ j ∈ s.runnerStarts,
    s.rows = [.createdBy j] ∧ ∃ c, s.calls[j]? = some c ∧ 6 ≤ c.stage.rank
  nodup : s.runnerStarts.Nodup

theorem Single.leader_unique (h : s.Single) {j : Nat} {d : RunCall} (hc : s.calls[i]? = some c)
    (hd : s.calls[j]? = some d) (hleads : c.stage.leads = true) (hleads' : d.stage.leads = true) :
    j = i := by
  have hi := (h.calls i c hc).leading hleads
  have hj := (h.calls j d hd).leading hleads'
  rw [hi] at hj
  exact (Option.some.inj hj).symm

/-- A call that has come far stays there when a call goes on. -/
theorem rank_set (hc : s.calls[i]? = some c) (hrank : c.stage.rank ≤ c'.stage.rank) {n j : Nat}
    (h : ∃ d, s.calls[j]? = some d ∧ n ≤ d.stage.rank) :
    ∃ d, (s.calls.set i c')[j]? = some d ∧ n ≤ d.stage.rank := by
  obtain ⟨d, hd, hn⟩ := h
  have hi : i < s.calls.length := (List.getElem?_eq_some_iff.mp hc).1
  by_cases hij : i = j
  · subst hij
    rw [hc] at hd
    cases hd
    exact ⟨c', List.getElem?_set_self hi, by omega⟩
  · exact ⟨d, by rw [List.getElem?_set_ne hij]; exact hd, hn⟩

theorem Single.setCall (h : s.Single) (hc : s.calls[i]? = some c)
    (hok : c'.Ok s.reserved s.rows i) (hrank : c.stage.rank ≤ c'.stage.rank) :
    (s.setCall i c').Single := by
  refine ⟨?_, ?_, ?_, ?_, h.nodup⟩
  · intro l hl
    show l < (s.calls.set i c').length
    rw [List.length_set]
    exact h.reserved l hl
  · exact Ledger.forall_set (fun n d _ hd => h.calls n d hd) (fun _ => hok)
  · intro j hj
    obtain ⟨hrows, hfar⟩ := h.queueEntry j hj
    exact ⟨hrows, rank_set hc hrank hfar⟩
  · intro j hj
    obtain ⟨hrows, hfar⟩ := h.starts j hj
    exact ⟨hrows, rank_set hc hrank hfar⟩

theorem Single.settle (h : s.Single) (hc : s.calls[i]? = some c) {result : RunResult}
    (hresult : ∀ e, result = .success e → e ∈ s.rows) : (s.setCall i (c.settle result)).Single :=
  h.setCall hc (.settle hresult) (RunStage.rank_le _)

theorem Single.leave (h : s.Single) (hc : s.calls[i]? = some c) {result : RunResult}
    (hresult : ∀ e, result = .success e → e ∈ s.rows) : (s.setCall i (c.leave result)).Single :=
  h.setCall hc ((h.calls i c hc).leave hresult) (RunStage.rank_le _)

theorem Single.startFailed (h : s.Single) (hc : s.calls[i]? = some c) (outcome : StartOutcome) :
    (s.setCall i (c.startFailed outcome)).Single := by
  refine h.setCall hc ((h.calls i c hc).startFailed outcome) ?_
  unfold RunCall.startFailed
  split
  · exact RunStage.rank_le _
  · exact RunStage.rank_le _

theorem Single.complete (h : s.Single) (hc : s.calls[i]? = some c) {execution : ExecutionRef}
    (he : execution ∈ s.rows) (completion : Completion) :
    (s.setCall i (c.complete execution completion)).Single := by
  refine h.setCall hc ((h.calls i c hc).complete he completion) ?_
  unfold RunCall.complete
  cases completion with
  | succeeded => exact RunStage.rank_le _
  | failed => exact RunStage.rank_le _
  | threw => exact RunStage.rank_le _

/-! ## The steps -/

theorem Single.called (h : s.Single) (request : AgentActionExecutionRequest) :
    (s.called request).Single := by
  have hfar : ∀ {n j : Nat} (d : RunCall), (∃ c, s.calls[j]? = some c ∧ n ≤ c.stage.rank) →
      ∃ c, (s.calls ++ [d])[j]? = some c ∧ n ≤ c.stage.rank := by
    rintro n j d ⟨c, hc, hn⟩
    exact ⟨c, Ledger.getElem?_kept hc, hn⟩
  -- a new call that does not lead
  have hquiet : ∀ d : RunCall, d.Ok s.reserved s.rows s.calls.length →
      Single { s with calls := s.calls ++ [d] } := by
    intro d hd
    refine ⟨?_, ?_, ?_, ?_, h.nodup⟩
    · intro l hl
      have := h.reserved l hl
      show l < (s.calls ++ [d]).length
      rw [List.length_append]
      omega
    · intro n e he
      rcases Ledger.getElem?_added he with he | ⟨rfl, rfl⟩
      · exact h.calls n e he
      · exact hd
    · intro j hj
      exact ⟨(h.queueEntry j hj).1, hfar d (h.queueEntry j hj).2⟩
    · intro j hj
      exact ⟨(h.starts j hj).1, hfar d (h.starts j hj).2⟩
  unfold RunsState.called
  split
  · exact hquiet _ (.ended rfl (by simp))
  · split
    · apply hquiet
      refine ⟨?_, ?_, ?_, ?_, by simp, by simp⟩
      all_goals split <;> simp [RunStage.leads, RunStage.saved]
    · rename_i hreserved
      have hother : ∀ (n : Nat) (c : RunCall), s.calls[n]? = some c →
          c.Ok (some s.calls.length) s.rows n := by
        intro n c hc
        have hok := h.calls n c hc
        refine { hok with leading := ?_ }
        intro hleads
        rw [hok.leading hleads] at hreserved
        cases hreserved
      refine ⟨?_, ?_, ?_, ?_, h.nodup⟩
      · intro l hl
        cases hl
        show s.calls.length < (s.calls ++ _).length
        rw [List.length_append, List.length_singleton]
        omega
      · intro n e he
        rcases Ledger.getElem?_added he with he | ⟨rfl, rfl⟩
        · exact hother n e he
        · refine ⟨fun _ => rfl, ?_, ?_, ?_, ?_, ?_⟩
          all_goals simp [RunStage.saved]
      · intro j hj
        exact ⟨(h.queueEntry j hj).1, hfar _ (h.queueEntry j hj).2⟩
      · intro j hj
        exact ⟨(h.starts j hj).1, hfar _ (h.starts j hj).2⟩

theorem Single.leaderLooked (h : s.Single) (hc : s.calls[i]? = some c)
    (hstage : c.stage = .leaderLookup) {answer : LookupAnswer}
    (hanswers : s.answersWith answer = true) : (s.leaderLooked i c answer).Single := by
  cases answer with
  | found execution =>
    refine h.settle hc ?_
    rintro e he
    cases he
    exact List.contains_iff_mem.mp hanswers
  | empty =>
    have hrows : s.rows = [] := List.isEmpty_iff.mp hanswers
    have hok := h.calls i c hc
    have hnone := hok.completed_none (by simp [hstage])
    refine h.setCall hc ⟨?_, fun _ => hrows, ?_, ?_, ?_, hok.results⟩ ?_
    · intro _
      exact hok.leading (by rw [hstage]; rfl)
    · intro hsaved
      cases hsaved
    · simp
    · intro hsome
      rw [show RunCall.completed { c with stage := .firstSave } = none from hnone] at hsome
      cases hsome
    · rw [hstage]
      simp [RunStage.rank]
  | fails => exact h.settle hc (by simp)
  | throws => exact h.leave hc (by simp)

theorem Single.followerLooked (h : s.Single) (hc : s.calls[i]? = some c) {leader : Nat}
    (hstage : c.stage = .followerLookup leader) {answer : LookupAnswer}
    (hanswers : s.answersWith answer = true) : (s.followerLooked i c leader answer).Single := by
  cases answer with
  | found execution =>
    refine h.leave hc ?_
    rintro e he
    cases he
    exact List.contains_iff_mem.mp hanswers
  | empty =>
    have hok := h.calls i c hc
    have hnone := hok.completed_none (by simp [hstage])
    refine h.setCall hc ⟨?_, ?_, ?_, ?_, ?_, hok.results⟩ ?_
    · intro hleads
      cases hleads
    · simp
    · intro hsaved
      cases hsaved
    · simp
    · intro hsome
      rw [show RunCall.completed { c with stage := .following leader } = none from hnone] at hsome
      cases hsome
    · rw [hstage]
      simp [RunStage.rank]
  | fails => exact h.leave hc (by simp)
  | throws => exact h.leave hc (by simp)

/-- The rows become those of the leader that has found none. -/
theorem Single.firstSaved (h : s.Single) (hc : s.calls[i]? = some c)
    (hstage : c.stage = .firstSave) (outcome : StartOutcome) :
    (s.firstSaved i c outcome).Single := by
  cases outcome with
  | ok =>
    have hok := h.calls i c hc
    have hrows : s.rows = [] := hok.empty hstage
    have hleads : c.stage.leads = true := by rw [hstage]; rfl
    have hnone := hok.completed_none (by simp [hstage])
    have hadded : (.createdBy i :: s.rows : List ExecutionRef) = [.createdBy i] := by rw [hrows]
    -- there are no rows: nothing was saved, and no call has a result
    have hresults : ∀ (n : Nat) (d : RunCall), s.calls[n]? = some d → ∀ e,
        d.completed = some (.success e) ∨ d.returned = some (.success e) → False := by
      intro n d hd e he
      have := (h.calls n d hd).results e he
      rw [hrows] at this
      cases this
    have hnotSaved : ∀ (n : Nat) (d : RunCall), s.calls[n]? = some d → d.stage.saved = false := by
      intro n d hd
      by_contra hsaved
      have := (h.calls n d hd).created (eq_true_of_ne_false hsaved)
      rw [hrows] at this
      cases this
    refine ⟨?_, ?_, ?_, ?_, h.nodup⟩
    · intro l hl
      show l < (s.calls.set i _).length
      rw [List.length_set]
      exact h.reserved l hl
    · refine Ledger.forall_set ?_ ?_
      · intro n d hn hd
        have hother := h.calls n d hd
        refine ⟨hother.leading, ?_, ?_, hother.notJoined, hother.completed, ?_⟩
        · intro hfirst
          have hleads' : d.stage.leads = true := by rw [hfirst]; rfl
          exact absurd (h.leader_unique hc hd hleads hleads') hn
        · intro hsaved
          rw [hnotSaved n d hd] at hsaved
          cases hsaved
        · intro e he
          exact (hresults n d hd e he).elim
      · intro _
        refine ⟨fun _ => hok.leading hleads, ?_, fun _ => hadded, ?_, ?_, ?_⟩
        · simp
        · simp
        · intro hsome
          rw [show RunCall.completed { c with stage := .firstSaved } = none from hnone] at hsome
          cases hsome
        · intro e he
          exact (hresults i c hc e he).elim
    · intro j hj
      have := (h.queueEntry j hj).1
      rw [hrows] at this
      cases this
    · intro j hj
      have := (h.starts j hj).1
      rw [hrows] at this
      cases this
  | failure => exact h.startFailed hc _
  | exception => exact h.startFailed hc _
  | error => exact h.startFailed hc _

theorem Single.goOn (h : s.Single) (hc : s.calls[i]? = some c) (hsaved : c.stage.saved = true)
    {stage : RunStage} (hstage : stage.saved = true) (hjoined : ∀ other, stage ≠ .joined other)
    (hrank : c.stage.rank ≤ stage.rank) : (s.setCall i { c with stage }).Single :=
  h.setCall hc ((h.calls i c hc).goOn hsaved hstage hjoined) hrank

theorem Single.queueEntry_none (h : s.Single) (hc : s.calls[i]? = some c)
    (hstage : c.stage = .auditing) : s.queueEntry = none := by
  cases hentry : s.queueEntry with
  | none => rfl
  | some j =>
    obtain ⟨hrows, d, hd, hrank⟩ := h.queueEntry j hentry
    have hcreated := (h.calls i c hc).created (by rw [hstage]; rfl)
    rw [hcreated] at hrows
    cases hrows
    rw [hc] at hd
    cases hd
    rw [hstage] at hrank
    simp [RunStage.rank] at hrank

theorem Single.enqueue (h : s.Single) (hc : s.calls[i]? = some c) (hstage : c.stage = .auditing)
    (disposed : Bool) : (s.enqueue i c disposed).Single := by
  have hok := h.calls i c hc
  have hcreated : s.rows = [.createdBy i] := hok.created (by rw [hstage]; rfl)
  have hnone := hok.completed_none (by simp [hstage])
  -- what the call returns is its own execution, which is in the rows
  have hreturned : ∀ task, RunCall.Ok s.reserved s.rows i
      { c with
        stage := .enqueued task
        returned :=
          if c.request.returnWhenQueued then some (.success (.createdBy i)) else none } := by
    intro task
    refine ⟨?_, ?_, fun _ => hcreated, ?_, ?_, ?_⟩
    · intro _
      exact hok.leading (by rw [hstage]; rfl)
    · simp
    · simp
    · intro hsome
      exact absurd hsome (by simp [hnone])
    · rintro e (he | he)
      · exact hok.results e (.inl he)
      · have he : (if c.request.returnWhenQueued then some (RunResult.success (.createdBy i))
            else none) = some (.success e) := he
        split_ifs at he
        cases he
        rw [hcreated]
        exact List.mem_singleton.mpr rfl
  unfold RunsState.enqueue
  dsimp only
  split
  · exact h.setCall hc (hreturned _) (by rw [hstage]; simp [RunStage.rank])
  · rw [h.queueEntry_none hc hstage]
    have hset := h.setCall hc (hreturned .waiting) (by rw [hstage]; simp [RunStage.rank])
    refine ⟨hset.reserved, hset.calls, ?_, hset.starts, hset.nodup⟩
    intro j hj
    cases hj
    refine ⟨hcreated, _, List.getElem?_set_self (List.getElem?_eq_some_iff.mp hc).1, ?_⟩
    simp [RunStage.rank]

theorem Single.runnerStarts (h : s.Single) (hc : s.calls[i]? = some c)
    (hstage : c.stage = .enqueued .started) :
    Single { s.setCall i { c with stage := .enqueued .runnerStarted } with
      runnerStarts := s.runnerStarts ++ [i] } := by
  have hok := h.calls i c hc
  have hcreated : s.rows = [.createdBy i] := hok.created (by rw [hstage]; rfl)
  have hsaved : RunStage.saved (.enqueued .runnerStarted) = true := rfl
  have hset := h.goOn hc (by rw [hstage]; rfl) hsaved (by simp) (by rw [hstage]; decide)
  refine ⟨hset.reserved, hset.calls, hset.queueEntry, ?_, ?_⟩
  · intro j hj
    rcases List.mem_append.mp hj with hj | hj
    · exact hset.starts j hj
    · rw [List.mem_singleton.mp hj]
      refine ⟨hcreated, _, List.getElem?_set_self (List.getElem?_eq_some_iff.mp hc).1, ?_⟩
      simp [RunStage.rank]
  · refine List.nodup_append.mpr ⟨h.nodup, List.nodup_singleton i, ?_⟩
    intro j hj k hk hjk
    rw [List.mem_singleton] at hk
    subst hjk hk
    obtain ⟨-, d, hd, hrank⟩ := h.starts j hj
    rw [hc] at hd
    cases hd
    rw [hstage] at hrank
    simp [RunStage.rank] at hrank

theorem rank_mayComplete {task : TaskStage} {succeeded : Bool}
    (h : mayComplete task succeeded = true) :
    (RunStage.enqueued task).rank ≤ (RunStage.enqueued (.done succeeded)).rank := by
  cases task with
  | done => cases h
  | waiting | started | runnerStarted => decide +revert

theorem Single.callStep (h : s.Single) (hc : s.calls[i]? = some c) {a : RunAction}
    (hstep : s.callStep i c a = some s') : s'.Single := by
  have hok := h.calls i c hc
  cases a with
  | lookup _ answer =>
    simp only [RunsState.callStep] at hstep
    split at hstep
    · rename_i hanswers
      split at hstep
      · rename_i hstage
        rw [← Option.some.inj hstep]
        exact h.leaderLooked hc hstage hanswers
      · rename_i leader hstage
        rw [← Option.some.inj hstep]
        exact h.followerLooked hc hstage hanswers
      · cases hstep
    · cases hstep
  | firstSave _ outcome =>
    simp only [RunsState.callStep] at hstep
    split at hstep
    · rename_i hstage
      rw [← Option.some.inj hstep]
      exact h.firstSaved hc hstage outcome
    · cases hstep
  | firstSaveReturns _ outcome =>
    simp only [RunsState.callStep] at hstep
    split at hstep
    · rename_i hstage
      split at hstep
      · rw [← Option.some.inj hstep]
        exact h.goOn hc (by rw [hstage]; rfl) rfl (by simp) (by rw [hstage]; decide)
      · rw [← Option.some.inj hstep]
        exact h.startFailed hc _
    · cases hstep
  | audited _ outcome disposed =>
    simp only [RunsState.callStep] at hstep
    split at hstep
    · rename_i hstage
      split at hstep
      · rw [← Option.some.inj hstep]
        exact h.enqueue hc hstage disposed
      · rw [← Option.some.inj hstep]
        exact h.startFailed hc _
    · cases hstep
  | taskStarts _ =>
    simp only [RunsState.callStep] at hstep
    split at hstep
    · rename_i hstage
      rw [← Option.some.inj hstep]
      exact h.goOn hc (by rw [hstage]; rfl) rfl (by simp) (by rw [hstage]; decide)
    · cases hstep
  | runnerStarts _ =>
    simp only [RunsState.callStep] at hstep
    split at hstep
    · rename_i hstage
      rw [← Option.some.inj hstep]
      exact h.runnerStarts hc hstage
    · cases hstep
  | queueCompletes _ succeeded =>
    simp only [RunsState.callStep] at hstep
    split at hstep
    · rename_i task hstage
      split at hstep
      · rename_i hmay
        rw [← Option.some.inj hstep]
        exact h.goOn hc (by rw [hstage]; rfl) rfl (by simp)
          (by rw [hstage]; exact rank_mayComplete hmay)
      · cases hstep
    · cases hstep
  | completes _ completion =>
    have hown : c.stage.saved = true → .createdBy i ∈ s.rows := by
      intro hsaved
      rw [hok.created hsaved]
      exact List.mem_singleton.mpr rfl
    simp only [RunsState.callStep] at hstep
    split at hstep
    · rename_i hstage
      split at hstep
      · rw [← Option.some.inj hstep]
        exact h.complete hc (hown (by rw [hstage]; rfl)) _
      · cases hstep
    · rename_i hstage
      split at hstep
      · cases hstep
      · rw [← Option.some.inj hstep]
        exact h.complete hc (hown (by rw [hstage]; rfl)) _
    · rename_i other hstage
      exact absurd hstage (hok.notJoined other)
    · cases hstep
  | follow _ =>
    simp only [RunsState.callStep] at hstep
    split at hstep
    · rename_i leader hstage
      split at hstep
      · rename_i result hresult
        rw [← Option.some.inj hstep]
        obtain ⟨d, hd, hcompleted⟩ := Option.bind_eq_some_iff.mp hresult
        refine h.leave hc ?_
        rintro e rfl
        exact (h.calls leader d hd).results e (.inl hcompleted)
      · cases hstep
    · cases hstep
  | call _ => cases hstep
  | forget => cases hstep
  | queueForgets => cases hstep

/-- The key is removed when no call leads: the leader that it was reserved with is done. -/
theorem Single.forgotten (h : s.Single) (hstep : s.forgotten = some s') : s'.Single := by
  unfold RunsState.forgotten at hstep
  split at hstep
  · rename_i leader hreserved
    split at hstep
    · rename_i hdone
      rw [← Option.some.inj hstep]
      obtain ⟨result, hresult⟩ := Option.isSome_iff_exists.mp hdone
      obtain ⟨d, hd, hcompleted⟩ := Option.bind_eq_some_iff.mp hresult
      have hended := (h.calls leader d hd).completed (by rw [hcompleted]; rfl)
      refine ⟨by simp, ?_, h.queueEntry, h.starts, h.nodup⟩
      intro n e he
      refine { h.calls n e he with leading := ?_ }
      intro hleads
      have hn := (h.calls n e he).leading hleads
      rw [hreserved] at hn
      cases hn
      rw [hd] at he
      cases he
      rw [hended] at hleads
      cases hleads
    · cases hstep
  · cases hstep

theorem Single.queueForgotten (h : s.Single) (hstep : s.queueForgotten = some s') :
    s'.Single := by
  unfold RunsState.queueForgotten at hstep
  split at hstep
  · split at hstep
    · rw [← Option.some.inj hstep]
      exact ⟨h.reserved, h.calls, by simp, h.starts, h.nodup⟩
    · rw [← Option.some.inj hstep]
      exact ⟨h.reserved, h.calls, by simp, h.starts, h.nodup⟩
    · cases hstep
  · cases hstep

theorem step_cases {a : RunAction} (hstep : (runs actionId key).step s a = some s') :
    (∃ request, request.IsFor actionId key ∧ s' = s.called request) ∨
      (∃ i c, s.calls[i]? = some c ∧ subject a = some i ∧ s.callStep i c a = some s') ∨
      s.forgotten = some s' ∨ s.queueForgotten = some s' := by
  cases a with
  | call request =>
    simp only [runs] at hstep
    split at hstep
    · rename_i hfor
      exact .inl ⟨request, hfor, (Option.some.inj hstep).symm⟩
    · cases hstep
  | forget => exact .inr (.inr (.inl hstep))
  | queueForgets => exact .inr (.inr (.inr hstep))
  | lookup i _ | firstSave i _ | firstSaveReturns i _ | audited i _ _ | taskStarts i
  | runnerStarts i | queueCompletes i _ | completes i _ | follow i =>
    simp only [runs, subject] at hstep
    split at hstep
    · rename_i c hc
      exact .inr (.inl ⟨i, c, hc, rfl, hstep⟩)
    · cases hstep

theorem Single.step (h : s.Single) {a : RunAction}
    (hstep : (runs actionId key).step s a = some s') : s'.Single := by
  rcases step_cases hstep with ⟨request, -, rfl⟩ | ⟨i, c, hc, -, hstep⟩ | hstep | hstep
  · exact h.called request
  · exact h.callStep hc hstep
  · exact h.forgotten hstep
  · exact h.queueForgotten hstep

theorem single_of_reachable (h : (runs actionId key).Reachable s) : s.Single := by
  refine h.invariant ?_ (fun _ _ _ ih _ hstep => ih.step hstep)
  rintro s ⟨hcalls, hreserved, hentry, hstarts, -⟩
  refine ⟨?_, ?_, ?_, ?_, ?_⟩
  · simp [hreserved]
  · simp [hcalls]
  · simp [hentry]
  · simp [hstarts]
  · simp [hstarts]

/-! ## The key -/

/-- The lookup of a leader answers, and its start throws nothing but an `Exception`. -/
def Settles (s : RunsState) : RunAction → Prop
  | .lookup i answer =>
    ∀ c, s.calls[i]? = some c → c.stage = .leaderLookup → answer ≠ .throws
  | .firstSave _ outcome | .firstSaveReturns _ outcome | .audited _ outcome _ => outcome ≠ .error
  | _ => True

def Keeps (c : RunCall) : Prop :=
  c.stage.leads = true ∨ c.completed.isSome = true

theorem keeps_startFailed {outcome : StartOutcome} (h : outcome ≠ .error) :
    Keeps (c.startFailed outcome) := by
  right
  cases outcome with
  | error => exact absurd rfl h
  | ok | failure | exception => rfl

theorem keeps_complete (execution : ExecutionRef) (completion : Completion) :
    Keeps (c.complete execution completion) := by
  right
  cases completion with
  | succeeded | failed | threw => rfl

theorem callStep_calls {a : RunAction} (hstep : s.callStep i c a = some s') :
    s'.reserved = s.reserved ∧ ∃ c', s'.calls = s.calls.set i c' ∧
      (subject a = some i → s.calls[i]? = some c → s.Settles a → Keeps c → Keeps c') := by
  cases a with
  | lookup j answer =>
    simp only [RunsState.callStep] at hstep
    split at hstep
    · split at hstep
      · rename_i hstage
        rw [← Option.some.inj hstep]
        cases answer with
        | found execution => exact ⟨rfl, _, rfl, fun _ _ _ _ => .inr rfl⟩
        | empty => exact ⟨rfl, _, rfl, fun _ _ _ _ => .inl rfl⟩
        | fails => exact ⟨rfl, _, rfl, fun _ _ _ _ => .inr rfl⟩
        | throws =>
          refine ⟨rfl, _, rfl, fun hsubject hc hsettles _ => ?_⟩
          cases hsubject
          exact absurd rfl (hsettles c hc hstage)
      · rename_i leader hstage
        rw [← Option.some.inj hstep]
        have hkeeps : Keeps c → c.completed.isSome = true := by
          rintro (hleads | hcompleted)
          · rw [hstage] at hleads
            cases hleads
          · exact hcompleted
        cases answer with
        | found execution => exact ⟨rfl, _, rfl, fun _ _ _ h => .inr (hkeeps h)⟩
        | empty => exact ⟨rfl, _, rfl, fun _ _ _ h => .inr (hkeeps h)⟩
        | fails => exact ⟨rfl, _, rfl, fun _ _ _ h => .inr (hkeeps h)⟩
        | throws => exact ⟨rfl, _, rfl, fun _ _ _ h => .inr (hkeeps h)⟩
      · cases hstep
    · cases hstep
  | firstSave j outcome =>
    simp only [RunsState.callStep] at hstep
    split at hstep
    · rw [← Option.some.inj hstep]
      cases outcome with
      | ok => exact ⟨rfl, _, rfl, fun _ _ _ _ => .inl rfl⟩
      | failure | exception | error =>
        exact ⟨rfl, _, rfl, fun _ _ hsettles _ => keeps_startFailed hsettles⟩
    · cases hstep
  | firstSaveReturns j outcome =>
    simp only [RunsState.callStep] at hstep
    split at hstep
    · split at hstep
      · rw [← Option.some.inj hstep]
        exact ⟨rfl, _, rfl, fun _ _ _ _ => .inl rfl⟩
      · rw [← Option.some.inj hstep]
        exact ⟨rfl, _, rfl, fun _ _ hsettles _ => keeps_startFailed hsettles⟩
    · cases hstep
  | audited j outcome disposed =>
    simp only [RunsState.callStep] at hstep
    split at hstep
    · split at hstep
      · rw [← Option.some.inj hstep]
        unfold RunsState.enqueue
        dsimp only
        split
        · exact ⟨rfl, _, rfl, fun _ _ _ _ => .inl rfl⟩
        · split
          · exact ⟨rfl, _, rfl, fun _ _ _ _ => .inl rfl⟩
          · exact ⟨rfl, _, rfl, fun _ _ _ _ => .inl rfl⟩
      · rw [← Option.some.inj hstep]
        exact ⟨rfl, _, rfl, fun _ _ hsettles _ => keeps_startFailed hsettles⟩
    · cases hstep
  | taskStarts j =>
    simp only [RunsState.callStep] at hstep
    split at hstep
    · rw [← Option.some.inj hstep]
      exact ⟨rfl, _, rfl, fun _ _ _ _ => .inl rfl⟩
    · cases hstep
  | runnerStarts j =>
    simp only [RunsState.callStep] at hstep
    split at hstep
    · rw [← Option.some.inj hstep]
      exact ⟨rfl, _, rfl, fun _ _ _ _ => .inl rfl⟩
    · cases hstep
  | queueCompletes j succeeded =>
    simp only [RunsState.callStep] at hstep
    split at hstep
    · split at hstep
      · rw [← Option.some.inj hstep]
        exact ⟨rfl, _, rfl, fun _ _ _ _ => .inl rfl⟩
      · cases hstep
    · cases hstep
  | completes j completion =>
    simp only [RunsState.callStep] at hstep
    split at hstep
    · split at hstep
      · rw [← Option.some.inj hstep]
        exact ⟨rfl, _, rfl, fun _ _ _ _ => keeps_complete _ _⟩
      · cases hstep
    · split at hstep
      · cases hstep
      · rw [← Option.some.inj hstep]
        exact ⟨rfl, _, rfl, fun _ _ _ _ => keeps_complete _ _⟩
    · rw [← Option.some.inj hstep]
      exact ⟨rfl, _, rfl, fun _ _ _ _ => keeps_complete _ _⟩
    · cases hstep
  | follow j =>
    simp only [RunsState.callStep] at hstep
    split at hstep
    · rename_i leader hstage
      split at hstep
      · rw [← Option.some.inj hstep]
        refine ⟨rfl, _, rfl, fun _ _ _ hkeeps => ?_⟩
        rcases hkeeps with hleads | hcompleted
        · rw [hstage] at hleads
          cases hleads
        · exact .inr hcompleted
      · cases hstep
    · cases hstep
  | call _ => cases hstep
  | forget => cases hstep
  | queueForgets => cases hstep

/-- The call that the key is reserved with leads, or its completer is completed. -/
def Kept (s : RunsState) : Prop :=
  ∀ l, s.reserved = some l → ∃ c, s.calls[l]? = some c ∧ Keeps c

theorem Kept.called (h : s.Kept) (request : AgentActionExecutionRequest) :
    (s.called request).Kept := by
  have hquiet : ∀ d : RunCall, Kept { s with calls := s.calls ++ [d] } := by
    intro d l hl
    obtain ⟨c, hc, hkeeps⟩ := h l hl
    exact ⟨c, Ledger.getElem?_kept hc, hkeeps⟩
  unfold RunsState.called
  split
  · exact hquiet _
  · split
    · exact hquiet _
    · intro l hl
      cases hl
      exact ⟨_, List.getElem?_concat_length .., .inl rfl⟩

theorem Kept.callStep (h : s.Kept) (hc : s.calls[i]? = some c) {a : RunAction}
    (hsubject : subject a = some i) (hsettles : s.Settles a)
    (hstep : s.callStep i c a = some s') : s'.Kept := by
  obtain ⟨hreserved, c', hcalls, hkeeps⟩ := callStep_calls hstep
  intro l hl
  rw [hreserved] at hl
  obtain ⟨d, hd, hkept⟩ := h l hl
  rw [hcalls]
  by_cases hil : i = l
  · subst hil
    rw [hc] at hd
    cases hd
    have hi : i < s.calls.length := (List.getElem?_eq_some_iff.mp hc).1
    exact ⟨c', List.getElem?_set_self hi, hkeeps hsubject hc hsettles hkept⟩
  · exact ⟨d, by rw [List.getElem?_set_ne hil]; exact hd, hkept⟩

theorem forgotten_eq (hstep : s.forgotten = some s') :
    s' = { s with reserved := none } := by
  unfold RunsState.forgotten at hstep
  split at hstep
  · split at hstep
    · exact (Option.some.inj hstep).symm
    · cases hstep
  · cases hstep

theorem queueForgotten_eq (hstep : s.queueForgotten = some s') :
    s' = { s with queueEntry := none } := by
  unfold RunsState.queueForgotten at hstep
  split at hstep
  · split at hstep
    · exact (Option.some.inj hstep).symm
    · exact (Option.some.inj hstep).symm
    · cases hstep
  · cases hstep

theorem Kept.step (h : s.Kept) {a : RunAction} (hsettles : s.Settles a)
    (hstep : (runs actionId key).step s a = some s') : s'.Kept := by
  rcases step_cases hstep with ⟨request, -, rfl⟩ | ⟨i, c, hc, hsubject, hstep⟩ | hstep | hstep
  · exact h.called request
  · exact h.callStep hc hsubject hsettles hstep
  · rw [forgotten_eq hstep]
    intro l hl
    cases hl
  · rw [queueForgotten_eq hstep]
    exact h

theorem kept_of_reach (h : (runs actionId key).Reach Settles s) : s.Kept := by
  refine h.invariant ?_ (fun _ _ _ ih hsettles hstep => ih.step hsettles hstep)
  rintro s ⟨-, hreserved, -⟩ l hl
  rw [hreserved] at hl
  cases hl

/-- The key stays reserved for ever when its leader has ended and has not completed its
completer. -/
theorem stuck {t : RunsState} {l : Nat} (hreserved : s.reserved = some l)
    (hc : s.calls[l]? = some c) (hended : c.stage = .ended) (hnone : c.completed = none)
    (h : (runs actionId key).Leads s t) : t.reserved = some l ∧ t.calls[l]? = some c := by
  refine h.keeps (I := fun t => t.reserved = some l ∧ t.calls[l]? = some c) ?_ ⟨hreserved, hc⟩
  rintro s a s' ⟨hreserved, hc⟩ hstep
  rcases step_cases hstep with ⟨request, -, rfl⟩ | ⟨i, d, hd, -, hstep⟩ | hstep | hstep
  · unfold RunsState.called
    split
    · exact ⟨hreserved, Ledger.getElem?_kept hc⟩
    · split
      · exact ⟨hreserved, Ledger.getElem?_kept hc⟩
      · rename_i hfree
        rw [hreserved] at hfree
        cases hfree
  · obtain ⟨hsame, d', hcalls, -⟩ := callStep_calls hstep
    rw [hsame, hcalls]
    by_cases hil : i = l
    · subst hil
      rw [hc] at hd
      cases hd
      -- a call that has ended takes no step
      cases a with
      | _ => simp [RunsState.callStep, hended] at hstep
    · exact ⟨hreserved, by rw [List.getElem?_set_ne hil]; exact hc⟩
  · unfold RunsState.forgotten at hstep
    rw [hreserved] at hstep
    simp [hc, hnone] at hstep
  · rw [queueForgotten_eq hstep]
    exact ⟨hreserved, hc⟩

/-! ## At most once -/

/-- Whatever the repository, the queue and the runner answer, the runner is started by one call at
most, and every call that succeeds returns the execution of that call.  The key is reserved with a
leader that has more to do, or its removal is due, in every run in which the lookups of the leaders
answer and their starts throw no error. -/
theorem single_run (actionId key : Text) :
    (∀ s, (runs actionId key).Reachable s →
      s.runnerStarts.length ≤ 1 ∧
        ∀ i ∈ s.runnerStarts, ∀ c ∈ s.calls, ∀ e, c.returned = some (.success e) →
          e = .createdBy i) ∧
      ∀ s, (runs actionId key).Reach Settles s → ∀ l, s.reserved = some l →
        ∃ c, s.calls[l]? = some c ∧
          (c.stage ≠ .ended ∨
            (runs actionId key).step s .forget = some { s with reserved := none }) := by
  refine ⟨?_, ?_⟩
  · intro s hs
    have hsingle := single_of_reachable hs
    refine ⟨?_, ?_⟩
    · -- two starts would be of the one execution that is in the rows
      by_contra hmany
      have hlength : 1 < s.runnerStarts.length := by omega
      have hne := (List.nodup_iff_injective_get.mp hsingle.nodup).ne
        (show (⟨0, by omega⟩ : Fin s.runnerStarts.length) ≠ ⟨1, hlength⟩ by simp)
      have hfirst := (hsingle.starts _ (List.get_mem s.runnerStarts ⟨0, by omega⟩)).1
      have hsecond := (hsingle.starts _ (List.get_mem s.runnerStarts ⟨1, hlength⟩)).1
      rw [hfirst] at hsecond
      simp only [List.cons.injEq, ExecutionRef.createdBy.injEq, and_true] at hsecond
      exact hne hsecond
    · intro i hi c hc e he
      obtain ⟨n, hn⟩ := List.mem_iff_getElem?.mp hc
      have hmem := (hsingle.calls n c hn).results e (.inr he)
      rw [(hsingle.starts i hi).1] at hmem
      exact List.mem_singleton.mp hmem
  · intro s hs l hl
    obtain ⟨c, hc, hkeeps⟩ := kept_of_reach hs l hl
    refine ⟨c, hc, ?_⟩
    rcases hkeeps with hleads | hcompleted
    · left
      intro hended
      rw [hended] at hleads
      cases hleads
    · right
      show s.forgotten = _
      unfold RunsState.forgotten
      rw [hl]
      simp [hc, hcompleted]

/-! ## Runs -/

/-- A request for the action `a` with the key `k`. -/
def keyed (returnWhenQueued : Bool) : AgentActionExecutionRequest where
  actionId := ['a']
  idempotencyKey := some ['k', ' ']
  returnWhenQueued

def afterRuns (actions : List RunAction) : RunsState :=
  ((runs ['a'] ['k']).run {} actions).getD {}

theorem runs_start : (runs ['a'] ['k']).start {} := ⟨rfl, rfl, rfl, rfl, by simp⟩

/-- A call leads and succeeds, and another one follows it. -/
def leadAndFollow : List RunAction :=
  [.call (keyed false), .call (keyed true), .lookup 0 .empty, .firstSave 0 .ok,
    .firstSaveReturns 0 .ok, .audited 0 .ok false, .taskStarts 0, .runnerStarts 0,
    .lookup 1 (.found (.createdBy 0)), .queueCompletes 0 true, .completes 0 .succeeded]

theorem single_run_followed :
    (afterRuns leadAndFollow).runnerStarts.length ≤ 1 ∧
      (∀ c ∈ (afterRuns leadAndFollow).calls, ∀ e, c.returned = some (.success e) →
        e = .createdBy 0) ∧
      (runs ['a'] ['k']).step (afterRuns leadAndFollow) .forget =
        some { afterRuns leadAndFollow with reserved := none } := by
  have hreach : (runs ['a'] ['k']).Reach Settles (afterRuns leadAndFollow) := by
    refine Machine.Reach.of_run (.start runs_start) leadAndFollow ?_ rfl
    refine ⟨trivial, trivial, ?_, ?_, ?_, ?_, trivial, trivial, ?_, trivial, trivial, trivial⟩
    · exact fun _ _ _ => by decide
    · exact (by decide : StartOutcome.ok ≠ .error)
    · exact (by decide : StartOutcome.ok ≠ .error)
    · exact (by decide : StartOutcome.ok ≠ .error)
    · exact fun _ _ _ => by decide
  obtain ⟨honce, hkey⟩ := single_run ['a'] ['k']
  obtain ⟨hle, hsame⟩ := honce _ hreach.reachable
  refine ⟨hle, hsame 0 (by decide), ?_⟩
  obtain ⟨c, hc, hdone⟩ := hkey _ hreach 0 (by decide)
  refine hdone.resolve_left fun hne => hne ?_
  cases hc
  rfl

/-- The lookup of the leader throws, as it does on a row whose status has no name here. -/
def lookupThrows : List RunAction :=
  [.call (keyed false), .lookup 0 .throws]

/-- The key is left reserved, and stays so. -/
theorem key_left_reserved :
    ∃ s, (runs ['a'] ['k']).Reachable s ∧ ∃ c, s.calls[0]? = some c ∧ c.stage = .ended ∧
      c.returned = some .threw ∧ ∀ t, (runs ['a'] ['k']).Leads s t → t.reserved = some 0 := by
  refine ⟨afterRuns lookupThrows, ?_, _, rfl, rfl, rfl, ?_⟩
  · exact Machine.reachable_of_run runs_start
      (show (runs ['a'] ['k']).run _ lookupThrows = some (afterRuns lookupThrows) from rfl)
  · intro t ht
    exact (stuck rfl rfl rfl rfl ht).1

end RunsState

end PlugAgente.Execution
