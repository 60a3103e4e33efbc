import Mathlib.Tactic

/-!
# Loops with a variant

The scanners of the agent are `while` loops over a cursor.  `Loop.run` is such
a loop cut off after a number of rounds, so that it computes by structural
recursion.  `Loop.whileDec` picks the number of rounds from a measure of the
state.  When every round that goes on makes the measure smaller, the cut-off is
never met, and `whileDec_eq` unfolds one round with no fuel in sight.
`Loop.emit` is the same for a loop that writes output on the way and may stop
with an error, and `Loop.collect` for one that cannot fail.

Nothing here mentions SQL or the agent.
-/

namespace PlugAgente.Dart.Loop

variable {σ ρ : Type*}

/-- A loop whose body goes on with a new state (`inl`) or leaves with a result
(`inr`), cut off after `fuel` rounds. -/
def run (body : σ → σ ⊕ ρ) : Nat → σ → Option ρ
  | 0, _ => none
  | fuel + 1, s =>
    match body s with
    | .inl s' => run body fuel s'
    | .inr r => some r

/-- Every round that goes on makes the measure smaller. -/
def Decreasing (μ : σ → Nat) (body : σ → σ ⊕ ρ) : Prop :=
  ∀ s s', body s = .inl s' → μ s' < μ s

/-- The loop with as many rounds as its measure allows.  `cut` is the answer of
a loop that is cut off; a loop with a decreasing body never gives it. -/
def whileDec (μ : σ → Nat) (body : σ → σ ⊕ ρ) (cut : ρ) (s : σ) : ρ :=
  (run body (μ s + 1) s).getD cut

variable {μ : σ → Nat} {body : σ → σ ⊕ ρ} {cut : ρ}

/-- The rounds above the measure do not change the answer. -/
theorem run_fuel (h : Decreasing μ body) :
    ∀ (n m : Nat) (s : σ), μ s < n → μ s < m → run body n s = run body m s := by
  intro n
  induction n with
  | zero => intro m s hn _; omega
  | succ n ih =>
    intro m s hn hm
    obtain ⟨m, rfl⟩ : ∃ k, m = k + 1 := ⟨m - 1, by omega⟩
    rw [run, run]
    cases hb : body s with
    | inl s' =>
      have hlt : μ s' < μ s := h s s' hb
      exact ih m s' (by omega) (by omega)
    | inr r => rfl

theorem whileDec_eq (h : Decreasing μ body) (s : σ) :
    whileDec μ body cut s =
      match body s with
      | .inl s' => whileDec μ body cut s'
      | .inr r => r := by
  rw [whileDec, run]
  cases hb : body s with
  | inl s' =>
    have hlt : μ s' < μ s := h s s' hb
    simp only [whileDec]
    rw [run_fuel h (μ s) (μ s' + 1) s' (by omega) (by omega)]
  | inr r => rfl

theorem whileDec_inl (h : Decreasing μ body) {s s' : σ} (hb : body s = .inl s') :
    whileDec μ body cut s = whileDec μ body cut s' := by
  rw [whileDec_eq h, hb]

theorem whileDec_inr (h : Decreasing μ body) {s : σ} {r : ρ} (hb : body s = .inr r) :
    whileDec μ body cut s = r := by
  rw [whileDec_eq h, hb]

/-! ## Loops that write output -/

section Emit

variable {ε ο : Type*}

/-- A loop that writes the output of each round, and goes on with a new state,
ends, or stops with an error; cut off after `fuel` rounds. -/
def emitRun (body : σ → Except ε (List ο × Option σ)) : Nat → σ → Except ε (List ο)
  | 0, _ => .ok []
  | fuel + 1, s =>
    match body s with
    | .error e => .error e
    | .ok (out, none) => .ok out
    | .ok (out, some s') =>
      match emitRun body fuel s' with
      | .error e => .error e
      | .ok more => .ok (out ++ more)

/-- Every round that goes on makes the measure smaller. -/
def EmitDecreasing (μ : σ → Nat) (body : σ → Except ε (List ο × Option σ)) : Prop :=
  ∀ s out s', body s = .ok (out, some s') → μ s' < μ s

/-- The loop with as many rounds as its measure allows. -/
def emit (μ : σ → Nat) (body : σ → Except ε (List ο × Option σ)) (s : σ) :
    Except ε (List ο) :=
  emitRun body (μ s + 1) s

variable {body : σ → Except ε (List ο × Option σ)}

theorem emitRun_fuel (h : EmitDecreasing μ body) :
    ∀ (n m : Nat) (s : σ), μ s < n → μ s < m → emitRun body n s = emitRun body m s := by
  intro n
  induction n with
  | zero => intro m s hn _; omega
  | succ n ih =>
    intro m s hn hm
    obtain ⟨m, rfl⟩ : ∃ k, m = k + 1 := ⟨m - 1, by omega⟩
    rw [emitRun, emitRun]
    rcases hb : body s with e | ⟨out, _ | s'⟩
    · rfl
    · rfl
    · have hlt : μ s' < μ s := h s out s' hb
      simp only
      rw [ih m s' (by omega) (by omega)]

theorem emit_eq (h : EmitDecreasing μ body) (s : σ) :
    emit μ body s =
      match body s with
      | .error e => .error e
      | .ok (out, none) => .ok out
      | .ok (out, some s') =>
        match emit μ body s' with
        | .error e => .error e
        | .ok more => .ok (out ++ more) := by
  rw [emit, emitRun]
  rcases hb : body s with e | ⟨out, _ | s'⟩
  · rfl
  · rfl
  · have hlt : μ s' < μ s := h s out s' hb
    simp only [emit]
    rw [emitRun_fuel h (μ s) (μ s' + 1) s' (by omega) (by omega)]

theorem emit_next (h : EmitDecreasing μ body) {s s' : σ} {out : List ο}
    (hb : body s = .ok (out, some s')) :
    emit μ body s =
      match emit μ body s' with
      | .error e => .error e
      | .ok more => .ok (out ++ more) := by
  rw [emit_eq h, hb]

/-- An output loop that cannot fail. -/
def collect (μ : σ → Nat) (body : σ → List ο × Option σ) (s : σ) : List ο :=
  match emit (ε := Empty) μ (fun s => .ok (body s)) s with
  | .ok out => out

theorem collect_eq {body : σ → List ο × Option σ}
    (h : ∀ s out s', body s = (out, some s') → μ s' < μ s) (s : σ) :
    collect μ body s =
      match body s with
      | (out, none) => out
      | (out, some s') => out ++ collect μ body s' := by
  have hdec : EmitDecreasing (ε := Empty) μ (fun s => .ok (body s)) := by
    intro s out s' hb
    exact h s out s' (by simpa using hb)
  rw [collect, emit_eq hdec]
  rcases hb : body s with ⟨out, _ | s'⟩
  · rfl
  · simp only [collect]
    rcases emit (ε := Empty) μ (fun s => .ok (body s)) s' with e | more
    · exact e.elim
    · rfl

end Emit

end PlugAgente.Dart.Loop
