import PlugAgente.Queue.LaneScheduler

/-!
# Fairness of the lane scheduler

The scheduler over runs of enqueues and takes.  What a test says of a request may change from take
to take.

A take answers the head of a lane, so a lane keeps its order (`run_waiting`).  A lane whose head is
eligible gets nearer to the cursor with every take that serves another lane, and it is at most
`laneOrder.length` lanes away (`distance_after`, `served_of_ready`).
-/

namespace PlugAgente.Queue.SqlQueueLaneScheduler

variable {T : Type}

/-! ## Runs -/

/-- `enqueue` of `SqlExecutionLaneRegistry`. -/
def enqueue (kind : SqlExecutionKind) (request : T) (s : LaneState T) : LaneState T :=
  { s with queues := Function.update s.queues kind (s.queues kind ++ [request]) }

/-- What happens to the lanes. -/
inductive Event (T : Type) where
  | enqueue (kind : SqlExecutionKind) (request : T)
  | take (isEligible : T → Bool)

/-- A take that answered a request: the lanes and the test it saw. -/
structure Served (T : Type) where
  before : LaneState T
  isEligible : T → Bool
  lane : SqlExecutionKind
  request : T

/-- The takes of a run that answered a request, and the lanes at its end. -/
def run (s : LaneState T) : List (Event T) → List (Served T) × LaneState T
  | [] => ([], s)
  | .enqueue kind request :: events => run (enqueue kind request s) events
  | .take isEligible :: events =>
    match takeNext isEligible s with
    | (none, s') => run s' events
    | (some request, s') =>
      let later := run s' events
      ({ before := s, isEligible, lane := laneAt s'.lastServedLaneIndex, request } :: later.1,
        later.2)

/-- The lanes of a new registry. -/
def registry : LaneState T := {}

/-- The requests that were put into a lane. -/
def enqueued (kind : SqlExecutionKind) (events : List (Event T)) : List T :=
  events.filterMap fun
    | .enqueue lane request => if lane = kind then some request else none
    | .take _ => none

def taken (kind : SqlExecutionKind) (served : List (Served T)) : List T :=
  (served.filter fun take => take.lane = kind).map Served.request

/-! ## The order of a lane -/

theorem queues_enqueue (kind lane : SqlExecutionKind) (request : T) (s : LaneState T) :
    (enqueue lane request s).queues kind =
      s.queues kind ++ if lane = kind then [request] else [] := by
  rw [enqueue]
  by_cases hlane : lane = kind
  · subst hlane
    simp
  · simp [Function.update_of_ne (Ne.symm hlane), hlane]

/-- What waits in a lane and what is put into it is what is taken from it and what waits in it then,
in order. -/
theorem run_waiting (kind : SqlExecutionKind) (events : List (Event T)) (s : LaneState T) :
    s.queues kind ++ enqueued kind events =
      taken kind (run s events).1 ++ (run s events).2.queues kind := by
  induction events generalizing s with
  | nil => simp [enqueued, taken, run]
  | cons event events ih =>
    cases event with
    | enqueue lane request =>
      rw [run, ← ih, queues_enqueue, List.append_assoc]
      by_cases hlane : lane = kind <;> simp [enqueued, hlane]
    | take isEligible =>
      have hspec := takeNext_spec isEligible s
      have henqueued : enqueued kind (.take isEligible :: events) = enqueued kind events := rfl
      rw [run, henqueued]
      generalize takeNext isEligible s = answer at hspec
      obtain ⟨_ | request, s'⟩ := answer
      · obtain ⟨-, rfl⟩ := hspec
        exact ih _
      · obtain ⟨-, rest, hqueue, hqueues⟩ := hspec
        have hrest := ih s'
        by_cases hlane : laneAt s'.lastServedLaneIndex = kind
        · have hwaiting : s.queues kind = request :: s'.queues kind := by
            rw [hqueues, ← hlane, hqueue, Function.update_self]
          simp only [taken, List.filter_cons, hlane, decide_true, if_true, List.map_cons,
            hwaiting, List.cons_append]
          exact congrArg (request :: ·) hrest
        · have hwaiting : s.queues kind = s'.queues kind := by
            rw [hqueues, Function.update_of_ne (Ne.symm hlane)]
          simp only [taken, List.filter_cons, hlane, decide_false, hwaiting]
          exact hrest

/-! ## Fairness -/

/-- How many lanes the cursor passes before it comes to `kind`. -/
def distance (s : LaneState T) (kind : SqlExecutionKind) : Nat :=
  ((laneOrder.idxOf kind - s.lastServedLaneIndex - 1) % laneOrder.length : Int).toNat

theorem distance_lt (s : LaneState T) (kind : SqlExecutionKind) :
    distance s kind < laneOrder.length := by
  show (_ % (6 : Int)).toNat < 6
  omega

theorem laneAt_distance (s : LaneState T) (kind : SqlExecutionKind) :
    laneAt (laneIndex s.lastServedLaneIndex (distance s kind + 1)) = kind := by
  have hindex : laneIndex s.lastServedLaneIndex (distance s kind + 1) = laneOrder.idxOf kind := by
    have hlt : laneOrder.idxOf kind < 6 := by cases kind <;> decide
    show (_ + ((_ % (6 : Int)).toNat + 1 : Nat)) % (6 : Int) = _
    omega
  rw [hindex]
  cases kind <;> rfl

theorem distance_after {isEligible : T → Bool} {s s' : LaneState T} {request : T}
    {kind : SqlExecutionKind} (h : takeNext isEligible s = (some request, s'))
    (hready : Ready isEligible s kind) (hother : laneAt s'.lastServedLaneIndex ≠ kind) :
    distance s' kind < distance s kind := by
  rw [takeNext] at h
  cases hfind : findNext isEligible s with
  | none => simp [hfind] at h
  | some answer =>
    obtain ⟨index, candidate⟩ := answer
    simp only [hfind, Prod.mk.injEq] at h
    obtain ⟨-, rfl⟩ := h
    obtain ⟨offset, hoffset, hindex, -, -, hfirst⟩ := findNext_eq_some hfind
    have hlane := laneAt_distance s kind
    have hlt : distance s kind < 6 := distance_lt s kind
    have hle : offset ≤ distance s kind + 1 :=
      hfirst _ (by rw [List.mem_range'_1]; exact ⟨by omega, by show _ < 1 + 6; omega⟩)
        (hlane.symm ▸ hready)
    have hne : offset ≠ distance s kind + 1 := by
      rintro rfl
      exact hother (hindex ▸ hlane)
    rw [List.mem_range'_1] at hoffset
    have hdistance : distance s kind =
        ((laneOrder.idxOf kind - s.lastServedLaneIndex - 1) % (6 : Int)).toNat := rfl
    have hcursor : index = (s.lastServedLaneIndex + offset) % (6 : Int) := hindex
    show ((laneOrder.idxOf kind - index - 1) % (6 : Int)).toNat < distance s kind
    omega

theorem distance_enqueue (lane kind : SqlExecutionKind) (request : T) (s : LaneState T) :
    distance (enqueue lane request s) kind = distance s kind := rfl

theorem served_of_ready {kind : SqlExecutionKind} (events : List (Event T)) (s : LaneState T)
    (hlong : distance s kind < (run s events).1.length)
    (hready : ∀ take ∈ (run s events).1, Ready take.isEligible take.before kind) :
    ∃ take ∈ (run s events).1, take.lane = kind := by
  induction events generalizing s with
  | nil => simp [run] at hlong
  | cons event events ih =>
    cases event with
    | enqueue lane request =>
      rw [run] at hlong hready ⊢
      exact ih _ (distance_enqueue lane kind request s ▸ hlong) hready
    | take isEligible =>
      rw [run] at hlong hready ⊢
      cases htake : takeNext isEligible s with
      | mk answer s' =>
        rw [htake] at hlong hready
        cases answer with
        | none =>
          have hspec := takeNext_spec isEligible s
          rw [htake] at hspec
          obtain ⟨-, rfl⟩ := hspec
          exact ih _ hlong hready
        | some request =>
          dsimp only at hlong hready ⊢
          by_cases hlane : laneAt s'.lastServedLaneIndex = kind
          · exact ⟨_, List.mem_cons_self, hlane⟩
          · have hnearer := distance_after htake (hready _ List.mem_cons_self) hlane
            rw [List.length_cons] at hlong
            obtain ⟨take, htaken, hkind⟩ := ih s' (by omega)
              fun take htaken => hready take (List.mem_cons_of_mem _ htaken)
            exact ⟨take, List.mem_cons_of_mem _ htaken, hkind⟩

/-! ## The scheduler over a run -/

/-- In every run every take answers the head of a lane whose head is eligible, or nothing if there
is none; what is taken from a lane and what waits in it is what was put into it, in order; and a
lane whose head may be taken at `laneOrder.length` successful takes in a row is served by one of
them. -/
theorem schedules_fairly (events : List (Event T)) :
    (∀ before isEligible after, events = before ++ .take isEligible :: after →
      TakesHead isEligible (run registry before).2
        (takeNext isEligible (run registry before).2)) ∧
    (∀ kind, enqueued kind events =
      taken kind (run registry events).1 ++ (run registry events).2.queues kind) ∧
    ∀ before during after kind, events = before ++ during ++ after →
      laneOrder.length ≤ (run (run registry before).2 during).1.length →
      (∀ take ∈ (run (run registry before).2 during).1,
        Ready take.isEligible take.before kind) →
      ∃ take ∈ (run (run registry before).2 during).1, take.lane = kind := by
  refine ⟨fun before isEligible _ _ => takeNext_spec isEligible _, ?_, ?_⟩
  · exact fun kind => run_waiting kind events registry
  · intro before during _ kind _ hlong hready
    exact served_of_ready during _ ((distance_lt _ kind).trans_le hlong) hready

end PlugAgente.Queue.SqlQueueLaneScheduler
