import Mathlib.Tactic

/-!
# Transition systems

A machine has start states and a partial step for each action: an action that is
not enabled has no next state.  `Reach guard` are the states that are reached by
steps that `guard` lets through, `Reachable` those that are reached by any steps,
and `Leads` is what a state may come to later.

`Reach.invariant` is the induction over runs, stated once.  `reach_of_run` turns an
evaluated list of actions into a state that is reached.

Nothing here mentions the agent.
-/

namespace PlugAgente

/-- A machine over the states `σ` and the actions `α`. -/
structure Machine (σ α : Type*) where
  start : σ → Prop
  step : σ → α → Option σ

namespace Machine

variable {σ α : Type*} (M : Machine σ α)

/-- The states that are reached by steps that `guard` lets through. -/
inductive Reach (guard : σ → α → Prop) : σ → Prop where
  | start {s : σ} (h : M.start s) : Reach guard s
  | step {s s' : σ} {a : α} (hs : Reach guard s) (hguard : guard s a)
      (h : M.step s a = some s') : Reach guard s'

/-- The states that are reached by any steps. -/
abbrev Reachable (s : σ) : Prop :=
  M.Reach (fun _ _ => True) s

/-- What a state may come to later. -/
inductive Leads (s : σ) : σ → Prop where
  | refl : Leads s s
  | step {t u : σ} {a : α} (ht : Leads s t) (h : M.step t a = some u) : Leads s u

/-- The state after a list of actions, each of which has to be enabled. -/
def run (s : σ) : List α → Option σ
  | [] => some s
  | a :: rest =>
    match M.step s a with
    | some s' => run s' rest
    | none => none

variable {M} {guard : σ → α → Prop}

/-- What holds at the start and is kept by every step holds of every state that
is reached. -/
theorem Reach.invariant {I : σ → Prop} (hstart : ∀ s, M.start s → I s)
    (hstep : ∀ s a s', I s → guard s a → M.step s a = some s' → I s') {s : σ}
    (h : M.Reach guard s) : I s := by
  induction h with
  | start h => exact hstart _ h
  | step _ hguard h ih => exact hstep _ _ _ ih hguard h

theorem Reach.mono {guard' : σ → α → Prop} (himp : ∀ s a, guard s a → guard' s a) {s : σ}
    (h : M.Reach guard s) : M.Reach guard' s := by
  induction h with
  | start h => exact Reach.start h
  | step _ hguard h ih => exact Reach.step ih (himp _ _ hguard) h

theorem Reach.reachable {s : σ} (h : M.Reach guard s) : M.Reachable s :=
  h.mono fun _ _ _ => trivial

theorem Leads.reachable {s t : σ} (h : M.Leads s t) (hs : M.Reachable s) : M.Reachable t := by
  induction h with
  | refl => exact hs
  | step _ h ih => exact Reach.step ih trivial h

theorem Leads.keeps {I : σ → Prop} (hstep : ∀ s a s', I s → M.step s a = some s' → I s')
    {s t : σ} (h : M.Leads s t) (hs : I s) : I t := by
  induction h with
  | refl => exact hs
  | step _ h ih => exact hstep _ _ _ ih h

theorem reach_of_run {s t : σ} (hstart : M.start s) {actions : List α}
    (hguard : ∀ s, ∀ a ∈ actions, guard s a) (hrun : M.run s actions = some t) :
    M.Reach guard t := by
  suffices h : ∀ {s}, M.Reach guard s → M.run s actions = some t → M.Reach guard t from
    h (Reach.start hstart) hrun
  clear hrun hstart
  induction actions with
  | nil =>
    intro s hs hrun
    rw [run] at hrun
    rwa [← Option.some.inj hrun]
  | cons a rest ih =>
    intro s hs hrun
    rw [run] at hrun
    cases hstep : M.step s a with
    | none => simp [hstep] at hrun
    | some s' =>
      rw [hstep] at hrun
      have hrest : ∀ s, ∀ a ∈ rest, guard s a := fun s b hb => hguard s b (by simp [hb])
      exact ih hrest (hs.step (hguard s a (by simp)) hstep) hrun

/-- `guard` lets each action of a list through where it is taken. -/
def Allowed (M : Machine σ α) (guard : σ → α → Prop) (s : σ) : List α → Prop
  | [] => True
  | a :: rest =>
    guard s a ∧
      match M.step s a with
      | some s' => Allowed M guard s' rest
      | none => False

theorem Reach.of_run {s t : σ} (hs : M.Reach guard s) (actions : List α)
    (hallowed : M.Allowed guard s actions) (hrun : M.run s actions = some t) :
    M.Reach guard t := by
  induction actions generalizing s with
  | nil =>
    rw [run] at hrun
    rwa [← Option.some.inj hrun]
  | cons a rest ih =>
    rw [run] at hrun
    rw [Allowed] at hallowed
    obtain ⟨hguard, hrest⟩ := hallowed
    cases hstep : M.step s a with
    | none => simp [hstep] at hrun
    | some s' =>
      rw [hstep] at hrun hrest
      exact ih (hs.step hguard hstep) hrest hrun

theorem reachable_of_run {s t : σ} (hstart : M.start s) {actions : List α}
    (hrun : M.run s actions = some t) : M.Reachable t :=
  reach_of_run hstart (fun _ _ _ => trivial) hrun

end Machine

end PlugAgente
