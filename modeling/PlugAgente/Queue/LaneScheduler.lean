import Mathlib.Tactic

/-!
# The lane scheduler

`SqlQueueLaneScheduler` over requests of any type: the requests that wait, by kind, and the
round-robin cursor.  A take answers the head of the first lane behind the cursor whose head is
eligible (`findNext_eq_some`), and nothing if there is no such lane (`findNext_eq_none`).
-/

namespace PlugAgente.Queue

/-- `SqlExecutionKind`, one lane each. -/
inductive SqlExecutionKind where
  | query
  | shortQuery
  | longQuery
  | nonQuery
  | batch
  | streaming
  deriving DecidableEq, Repr

/-- `SqlQueueLaneScheduler.laneOrder`. -/
def laneOrder : List SqlExecutionKind :=
  [.query, .shortQuery, .longQuery, .nonQuery, .batch, .streaming]

/-- The queues, by kind, the head of each first.  To the scheduler a kind without a queue is one
with an empty queue. -/
abbrev Lanes (T : Type) := SqlExecutionKind → List T

namespace SqlQueueLaneScheduler

variable {T : Type}

/-! ## The scheduler -/

/-- The queues with the cursor of `SqlQueueLaneSchedulerState`. -/
structure LaneState (T : Type) where
  queues : Lanes T := fun _ => []
  lastServedLaneIndex : Int := -1

/-- The lane that the round-robin cursor comes to after `offset` lanes. -/
def laneIndex (lastServedLaneIndex : Int) (offset : Nat) : Int :=
  (lastServedLaneIndex + offset) % laneOrder.length

def laneAt (index : Int) : SqlExecutionKind :=
  laneOrder.getD index.toNat .query

/-- One round of the search of `_takeNext`: the head of the lane, if it is eligible. -/
def tryLane (isEligible : T → Bool) (s : LaneState T) (index : Int) : Option (Int × T) :=
  match s.queues (laneAt index) with
  | [] => none
  | candidate :: _ => if isEligible candidate then some (index, candidate) else none

/-- The search of `_takeNext`, from the lane behind the cursor on. -/
def findNext (isEligible : T → Bool) (s : LaneState T) : Option (Int × T) :=
  (List.range' 1 laneOrder.length).findSome? fun offset =>
    tryLane isEligible s (laneIndex s.lastServedLaneIndex offset)

/-- `_takeNext`; `takeNextQueuedRequest` is the take for which every request is eligible. -/
def takeNext (isEligible : T → Bool) (s : LaneState T) : Option T × LaneState T :=
  match findNext isEligible s with
  | none => (none, s)
  | some (index, candidate) =>
    (some candidate,
      { queues := Function.update s.queues (laneAt index) (s.queues (laneAt index)).tail
        lastServedLaneIndex := index })

/-! ## One take -/

/-- The head of a lane may be taken. -/
def Ready (isEligible : T → Bool) (s : LaneState T) (kind : SqlExecutionKind) : Prop :=
  ∃ request rest, s.queues kind = request :: rest ∧ isEligible request = true

theorem exists_offset (last : Int) (kind : SqlExecutionKind) :
    ∃ offset ∈ List.range' 1 laneOrder.length, laneAt (laneIndex last offset) = kind := by
  have hreach : ∀ n : Nat, n < 6 →
      ∃ offset ∈ List.range' 1 laneOrder.length, laneIndex last offset = n := by
    intro n hn
    refine ⟨((n - last - 1) % 6).toNat + 1, ?_, ?_⟩
    · rw [List.mem_range'_1]
      show 1 ≤ _ ∧ _ < 1 + 6
      omega
    · show (last + _) % (6 : Int) = n
      omega
  have hindex : ∃ n < 6, laneAt (n : Nat) = kind := by
    cases kind
    exacts [⟨0, by decide⟩, ⟨1, by decide⟩, ⟨2, by decide⟩, ⟨3, by decide⟩, ⟨4, by decide⟩,
      ⟨5, by decide⟩]
  obtain ⟨n, hn, hkind⟩ := hindex
  obtain ⟨offset, hoffset, hlane⟩ := hreach n hn
  exact ⟨offset, hoffset, by rw [hlane, hkind]⟩

section Take

variable {isEligible : T → Bool} {s : LaneState T}

theorem tryLane_eq_some {index index' : Int} {request : T} :
    tryLane isEligible s index = some (index', request) ↔
      index' = index ∧ isEligible request = true ∧
        ∃ rest, s.queues (laneAt index) = request :: rest := by
  rw [tryLane]
  cases hqueue : s.queues (laneAt index) with
  | nil => simp
  | cons candidate rest =>
    dsimp only
    split
    · rename_i heligible
      simp only [Option.some.injEq, Prod.mk.injEq, List.cons.injEq]
      constructor
      · rintro ⟨rfl, rfl⟩
        exact ⟨rfl, heligible, rest, rfl, rfl⟩
      · rintro ⟨rfl, -, _, rfl, -⟩
        exact ⟨rfl, rfl⟩
    · rename_i heligible
      simp only [List.cons.injEq, reduceCtorEq, false_iff]
      rintro ⟨-, helig, _, rfl, -⟩
      exact heligible helig

theorem tryLane_eq_none {index : Int} :
    tryLane isEligible s index = none ↔ ¬ Ready isEligible s (laneAt index) := by
  constructor
  · rintro h ⟨request, rest, hqueue, heligible⟩
    have hsome := tryLane_eq_some.mpr ⟨rfl, heligible, rest, hqueue⟩
    exact absurd (h.symm.trans hsome) (by simp)
  · intro h
    cases hround : tryLane isEligible s index with
    | none => rfl
    | some answer =>
      obtain ⟨-, heligible, rest, hqueue⟩ := tryLane_eq_some.mp hround
      exact absurd ⟨answer.2, rest, hqueue, heligible⟩ h

/-- The search comes to nothing exactly when no head may be taken. -/
theorem findNext_eq_none :
    findNext isEligible s = none ↔ ∀ kind, ¬ Ready isEligible s kind := by
  rw [findNext, List.findSome?_eq_none_iff]
  constructor
  · intro h kind
    obtain ⟨offset, hoffset, hlane⟩ := exists_offset s.lastServedLaneIndex kind
    rw [← hlane]
    exact tryLane_eq_none.mp (h offset hoffset)
  · exact fun h offset _ => tryLane_eq_none.mpr (h _)

/-- The answer of the search is the first head behind the cursor that may be taken. -/
theorem findNext_eq_some {index : Int} {request : T}
    (h : findNext isEligible s = some (index, request)) :
    ∃ offset ∈ List.range' 1 laneOrder.length, index = laneIndex s.lastServedLaneIndex offset ∧
      isEligible request = true ∧ (∃ rest, s.queues (laneAt index) = request :: rest) ∧
      ∀ offset' ∈ List.range' 1 laneOrder.length,
        Ready isEligible s (laneAt (laneIndex s.lastServedLaneIndex offset')) →
          offset ≤ offset' := by
  rw [findNext, List.findSome?_eq_some_iff] at h
  obtain ⟨passed, offset, ahead, hrange, hround, hpassed⟩ := h
  obtain ⟨rfl, heligible, rest, hqueue⟩ := tryLane_eq_some.mp hround
  refine ⟨offset, by simp [hrange], rfl, heligible, ⟨rest, hqueue⟩, ?_⟩
  intro offset' hoffset' hready
  have hsorted : (passed ++ offset :: ahead).Pairwise (· < ·) :=
    hrange ▸ List.pairwise_lt_range'
  rw [hrange] at hoffset'
  rcases List.mem_append.mp hoffset' with hbefore | hrest
  · exact absurd hready (tryLane_eq_none.mp (hpassed offset' hbefore))
  · rcases List.mem_cons.mp hrest with rfl | hahead
    · exact le_rfl
    · exact (List.rel_of_pairwise_cons (List.pairwise_append.mp hsorted).2.1 hahead).le

/-- What a take is meant to do: it answers the head of a lane whose head is eligible, and nothing
only if there is none. -/
def TakesHead (isEligible : T → Bool) (s : LaneState T) : Option T × LaneState T → Prop
  | (none, s') => (∀ kind, ¬ Ready isEligible s kind) ∧ s' = s
  | (some request, s') => isEligible request = true ∧
      ∃ rest, s.queues (laneAt s'.lastServedLaneIndex) = request :: rest ∧
        s'.queues = Function.update s.queues (laneAt s'.lastServedLaneIndex) rest

theorem takeNext_spec (isEligible : T → Bool) (s : LaneState T) :
    TakesHead isEligible s (takeNext isEligible s) := by
  rw [takeNext]
  cases hfind : findNext isEligible s with
  | none => exact ⟨findNext_eq_none.mp hfind, rfl⟩
  | some answer =>
    obtain ⟨index, request⟩ := answer
    obtain ⟨-, -, -, heligible, ⟨rest, hqueue⟩, -⟩ := findNext_eq_some hfind
    refine ⟨heligible, rest, hqueue, ?_⟩
    rw [hqueue]
    rfl

end Take

end SqlQueueLaneScheduler

end PlugAgente.Queue
