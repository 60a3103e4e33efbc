import PlugAgente.Machine.Rows

/-!
# Transactions

A transaction over a state reads and writes it, and either ends with a value or throws.
What it has written counts only if it ends with a value: `commit` runs a transaction, and
the state after one that throws is the state before it.

The lemmas `…_eq_ok` say when a transaction ends with a value, one for each way to build
one, so that a successful run is taken apart by rewriting.

Nothing here mentions the agent.
-/

namespace PlugAgente

/-- A transaction over the states `σ` that may throw an `ε`. -/
abbrev Atomic (σ ε : Type) (α : Type) := StateT σ (Except ε) α

namespace Atomic

variable {σ ε α β : Type}

/-- Throw unless the condition holds. -/
def require (condition : Prop) [Decidable condition] (e : ε) : Atomic σ ε Unit :=
  fun s => if condition then .ok ((), s) else .error e

/-- The value of a result, or what it throws. -/
def ofExcept (x : Except ε α) : Atomic σ ε α :=
  fun s => x.map fun a => (a, s)

/-- Run a transaction: what it has written counts only if it ends with a value. -/
def commit (t : Atomic σ ε α) (s : σ) : Except ε α × σ :=
  match t s with
  | .ok (a, s') => (.ok a, s')
  | .error e => (.error e, s)

@[simp] theorem bind_eq_ok {x : Atomic σ ε α} {f : α → Atomic σ ε β} {s : σ} {r : β × σ} :
    (x >>= f) s = .ok r ↔ ∃ a s', x s = .ok (a, s') ∧ f a s' = .ok r := by
  simp only [bind, StateT.bind, Except.bind]
  cases x s with
  | error e => simp
  | ok p => simp [Prod.ext_iff]

@[simp] theorem pure_eq_ok {a b : α} {s s' : σ} :
    (pure a : Atomic σ ε α) s = .ok (b, s') ↔ b = a ∧ s' = s := by
  show (Except.ok (a, s) : Except ε (α × σ)) = .ok (b, s') ↔ _
  simp [eq_comm]

@[simp] theorem require_eq_ok {condition : Prop} [Decidable condition] {e : ε} {s s' : σ}
    {u : Unit} : require condition e s = .ok (u, s') ↔ condition ∧ s' = s := by
  rw [require]
  split_ifs with h
  · simp [h, eq_comm]
  · simp [h]

@[simp] theorem ofExcept_eq_ok {x : Except ε α} {a : α} {s s' : σ} :
    ofExcept x s = .ok (a, s') ↔ x = .ok a ∧ s' = s := by
  cases x with
  | error e => simp [ofExcept, Except.map]
  | ok b => simp [ofExcept, Except.map, eq_comm]

@[simp] theorem get_eq_ok {a s s' : σ} :
    (get : Atomic σ ε σ) s = .ok (a, s') ↔ a = s ∧ s' = s := by
  show (Except.ok (s, s) : Except ε (σ × σ)) = .ok (a, s') ↔ _
  simp [eq_comm]

@[simp] theorem modify_eq_ok {f : σ → σ} {s s' : σ} {u : Unit} :
    (modify f : Atomic σ ε Unit) s = .ok (u, s') ↔ s' = f s := by
  show (Except.ok ((), f s) : Except ε (Unit × σ)) = .ok (u, s') ↔ _
  simp [eq_comm]

@[simp] theorem throw_ne_ok {e : ε} {s : σ} {r : α × σ} :
    (throw e : Atomic σ ε α) s = .ok r ↔ False := by
  constructor
  · intro h
    cases h
  · intro h
    exact h.elim

/-! ## What goes on after a step -/

@[simp] theorem require_bind {condition : Prop} [Decidable condition] {e : ε}
    {f : Unit → Atomic σ ε β} {s : σ} {r : β × σ} :
    (require condition e >>= f) s = .ok r ↔ condition ∧ f () s = .ok r := by
  rw [bind_eq_ok]
  simp only [require_eq_ok]
  constructor
  · rintro ⟨_, _, ⟨h, rfl⟩, hf⟩
    exact ⟨h, hf⟩
  · intro h
    exact ⟨(), s, ⟨h.1, rfl⟩, h.2⟩

@[simp] theorem get_bind {f : σ → Atomic σ ε β} {s : σ} {r : β × σ} :
    (get >>= f) s = .ok r ↔ f s s = .ok r :=
  Iff.rfl

@[simp] theorem modify_bind {g : σ → σ} {f : Unit → Atomic σ ε β} {s : σ} {r : β × σ} :
    (modify g >>= f) s = .ok r ↔ f () (g s) = .ok r :=
  Iff.rfl

@[simp] theorem pure_bind_eq_ok {a : α} {f : α → Atomic σ ε β} {s : σ} {r : β × σ} :
    ((pure a : Atomic σ ε α) >>= f) s = .ok r ↔ f a s = .ok r :=
  Iff.rfl

@[simp] theorem ofExcept_bind {x : Except ε α} {f : α → Atomic σ ε β} {s : σ} {r : β × σ} :
    (ofExcept x >>= f) s = .ok r ↔ ∃ a, x = .ok a ∧ f a s = .ok r := by
  rw [bind_eq_ok]
  simp only [ofExcept_eq_ok]
  constructor
  · rintro ⟨a, _, ⟨h, rfl⟩, hf⟩
    exact ⟨a, h, hf⟩
  · rintro ⟨a, h, hf⟩
    exact ⟨a, s, ⟨h, rfl⟩, hf⟩

/-! ## Running a step -/

theorem bind_of_ok {x : Atomic σ ε α} {f : α → Atomic σ ε β} {s s' : σ} {a : α}
    (h : x s = .ok (a, s')) : (x >>= f) s = f a s' := by
  simp only [bind, StateT.bind, Except.bind, h]

theorem bind_of_error {x : Atomic σ ε α} {f : α → Atomic σ ε β} {s : σ} {e : ε}
    (h : x s = .error e) : (x >>= f) s = .error e := by
  simp only [bind, StateT.bind, Except.bind, h]

theorem require_of {condition : Prop} [Decidable condition] (h : condition) (e : ε) (s : σ) :
    require condition e s = .ok ((), s) :=
  if_pos h

theorem require_of_not {condition : Prop} [Decidable condition] (h : ¬ condition) (e : ε) (s : σ) :
    require condition e s = .error e :=
  if_neg h

/-! ## Commits -/

/-- A transaction that throws has changed nothing. -/
theorem commit_unchanged {t : Atomic σ ε α} {s : σ} {e : ε} (h : (commit t s).1 = .error e) :
    (commit t s).2 = s := by
  rw [commit] at h ⊢
  cases ht : t s with
  | error e => rfl
  | ok p =>
    rw [ht] at h
    cases h

theorem commit_eq_ok {t : Atomic σ ε α} {s s' : σ} {a : α} :
    commit t s = (.ok a, s') ↔ t s = .ok (a, s') := by
  rw [commit]
  cases t s with
  | error e => simp
  | ok p => simp [Prod.ext_iff]

theorem commit_of_ok {t : Atomic σ ε α} {s s' : σ} {a : α} (h : t s = .ok (a, s')) :
    commit t s = (.ok a, s') :=
  commit_eq_ok.mpr h

theorem commit_of_error {t : Atomic σ ε α} {s : σ} {e : ε} (h : t s = .error e) :
    commit t s = (.error e, s) := by
  rw [commit, h]

theorem commit_cases (t : Atomic σ ε α) (s : σ) :
    (∃ a s', t s = .ok (a, s') ∧ commit t s = (.ok a, s')) ∨
      ∃ e, t s = .error e ∧ commit t s = (.error e, s) := by
  cases h : t s with
  | error e => exact .inr ⟨e, rfl, by rw [commit, h]⟩
  | ok p => exact .inl ⟨p.1, p.2, rfl, by rw [commit, h]⟩

end Atomic

end PlugAgente
