import Mathlib.Tactic

/-!
# Rows of a table

A table is the list of its rows, in the order in which they were inserted.  `write` is an
`UPDATE … WHERE`.  The lemmas say what a query finds after a write that leaves alone what
the query asks for.

Nothing here mentions the agent.
-/

namespace PlugAgente.Rows

variable {ρ κ : Type*}

/-- The rows for which `p` holds are rewritten. -/
def write (p : ρ → Bool) (f : ρ → ρ) (rows : List ρ) : List ρ :=
  rows.map fun r => if p r then f r else r

@[simp] theorem write_nil (p : ρ → Bool) (f : ρ → ρ) : write p f [] = [] := rfl

@[simp] theorem write_cons (p : ρ → Bool) (f : ρ → ρ) (r : ρ) (rows : List ρ) :
    write p f (r :: rows) = (if p r then f r else r) :: write p f rows := rfl

@[simp] theorem length_write (p : ρ → Bool) (f : ρ → ρ) (rows : List ρ) :
    (write p f rows).length = rows.length :=
  List.length_map _

theorem mem_write {p : ρ → Bool} {f : ρ → ρ} {rows : List ρ} {r : ρ} :
    r ∈ write p f rows ↔ ∃ old ∈ rows, (if p old then f old else old) = r :=
  List.mem_map

theorem write_eq_self {p : ρ → Bool} {f : ρ → ρ} {rows : List ρ}
    (h : ∀ r ∈ rows, p r = false) : write p f rows = rows := by
  rw [write]
  conv_rhs => rw [← List.map_id rows]
  apply List.map_congr_left
  intro r hr
  simp [h r hr]

theorem write_congr {p q : ρ → Bool} {f : ρ → ρ} {rows : List ρ}
    (h : ∀ r ∈ rows, p r = q r) : write p f rows = write q f rows := by
  apply List.map_congr_left
  intro r hr
  simp [h r hr]

theorem map_write {p : ρ → Bool} {f : ρ → ρ} {column : ρ → κ}
    (h : ∀ r, column (f r) = column r) (rows : List ρ) :
    (write p f rows).map column = rows.map column := by
  rw [write, List.map_map]
  apply List.map_congr_left
  intro r _
  rw [Function.comp_apply]
  split_ifs
  · exact h r
  · rfl

theorem filter_write {p q : ρ → Bool} {f : ρ → ρ} (h : ∀ r, q (f r) = q r) (rows : List ρ) :
    (write p f rows).filter q = write p f (rows.filter q) := by
  rw [write, List.filter_map]
  congr 1
  apply List.filter_congr
  intro r _
  rw [Function.comp_apply]
  split_ifs
  · exact h r
  · rfl

theorem filter_write_ne {p q : ρ → Bool} {f : ρ → ρ} (h : ∀ r, q (f r) = q r)
    (hne : ∀ r, q r = true → p r = false) (rows : List ρ) :
    (write p f rows).filter q = rows.filter q := by
  rw [filter_write h]
  apply write_eq_self
  intro r hr
  exact hne r (List.mem_filter.mp hr).2

theorem find?_write {p q : ρ → Bool} {f : ρ → ρ} (h : ∀ r, q (f r) = q r) (rows : List ρ) :
    (write p f rows).find? q = (rows.find? q).map fun r => if p r then f r else r := by
  rw [write, List.find?_map]
  congr 2
  funext r
  rw [Function.comp_apply]
  split_ifs
  · exact h r
  · rfl

theorem find?_of_nodup [DecidableEq κ] {column : ρ → κ} {rows : List ρ}
    (h : (rows.map column).Nodup) {r : ρ} (hr : r ∈ rows) :
    rows.find? (fun s => column s = column r) = some r := by
  induction rows with
  | nil => cases hr
  | cons s rest ih =>
    rw [List.map_cons, List.nodup_cons] at h
    rcases List.mem_cons.mp hr with heq | hmem
    · rw [heq]
      exact List.find?_cons_of_pos (by simp)
    · have hne : column s ≠ column r := by
        intro he
        exact h.1 (he ▸ List.mem_map_of_mem hmem)
      rw [List.find?_cons_of_neg (by simpa using hne)]
      exact ih h.2 hmem

theorem write_eq_set [DecidableEq κ] {column : ρ → κ} {rows : List ρ}
    (h : (rows.map column).Nodup) {i : Nat} {r : ρ} (hi : rows[i]? = some r) (f : ρ → ρ) :
    write (fun s => column s = column r) f rows = rows.set i (f r) := by
  obtain ⟨hlt, heq⟩ := List.getElem?_eq_some_iff.mp hi
  apply List.ext_getElem?
  intro j
  rw [write, List.getElem?_map, List.getElem?_set]
  by_cases hij : i = j
  · subst hij
    simp [hlt, heq]
  · rw [if_neg hij]
    cases hj : rows[j]? with
    | none => rfl
    | some s =>
      obtain ⟨hlt', heq'⟩ := List.getElem?_eq_some_iff.mp hj
      have hne : column s ≠ column r := by
        intro hsame
        apply hij
        have hi : i < (rows.map column).length := by simpa using hlt
        have hj : j < (rows.map column).length := by simpa using hlt'
        have heqs : (rows.map column)[i] = (rows.map column)[j] := by
          rw [List.getElem_map, List.getElem_map, heq, heq', hsame]
        exact (List.Nodup.getElem_inj_iff h).mp heqs
      simp [hne]

/-- The row with a unique value, and the other ones. -/
theorem perm_cons_filter [DecidableEq κ] {column : ρ → κ} {rows : List ρ}
    (h : (rows.map column).Nodup) {r : ρ} (hr : r ∈ rows) :
    rows.Perm (r :: rows.filter fun s => column s ≠ column r) := by
  induction rows with
  | nil => cases hr
  | cons s rest ih =>
    rw [List.map_cons, List.nodup_cons] at h
    rcases List.mem_cons.mp hr with heq | hmem
    · have hrest : rest.filter (fun t => column t ≠ column r) = rest := by
        apply List.filter_eq_self.mpr
        intro t ht
        apply decide_eq_true
        intro he
        exact h.1 (heq ▸ he ▸ List.mem_map_of_mem ht)
      rw [List.filter_cons_of_neg (by simp [heq]), hrest, heq]
    · have hne : column s ≠ column r := by
        intro he
        exact h.1 (he ▸ List.mem_map_of_mem hmem)
      rw [List.filter_cons_of_pos (by simp [hne])]
      exact ((ih h.2 hmem).cons s).trans (List.Perm.swap _ _ _)

end PlugAgente.Rows
