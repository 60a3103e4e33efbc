import Mathlib.Tactic

/-!
# Ledgers

A ledger is a list of records, named by their positions, with totals over all of
them.  A step of a system appends a record or replaces one, and the lemmas say
what happens to a total and to a property that every record has.

Nothing here mentions the agent.
-/

namespace PlugAgente.Ledger

variable {α : Type*}

/-- The total of `f` over the records. -/
def total (f : α → Int) (l : List α) : Int :=
  (l.map f).sum

@[simp] theorem total_nil (f : α → Int) : total f [] = 0 := rfl

@[simp] theorem total_cons (f : α → Int) (a : α) (l : List α) :
    total f (a :: l) = f a + total f l := by
  simp [total]

@[simp] theorem total_concat (f : α → Int) (l : List α) (a : α) :
    total f (l ++ [a]) = total f l + f a := by
  simp [total]

theorem total_append (f : α → Int) (l m : List α) : total f (l ++ m) = total f l + total f m := by
  simp [total]

theorem total_nonneg {f : α → Int} {l : List α} (hf : ∀ a ∈ l, 0 ≤ f a) : 0 ≤ total f l := by
  apply List.sum_nonneg
  intro x hx
  obtain ⟨a, ha, rfl⟩ := List.mem_map.mp hx
  exact hf a ha

theorem total_set (f : α → Int) {l : List α} {i : Nat} {a b : α} (h : l[i]? = some a) :
    total f (l.set i b) = total f l - f a + f b := by
  induction l generalizing i with
  | nil => simp at h
  | cons c rest ih =>
    cases i with
    | zero =>
      have hc : c = a := by simpa using h
      subst hc
      simp only [List.set_cons_zero, total_cons]
      omega
    | succ i =>
      have hrest : rest[i]? = some a := by simpa using h
      simp only [List.set_cons_succ, total_cons, ih hrest]
      omega

theorem total_set_same (f : α → Int) {l : List α} {i : Nat} {a b : α} (h : l[i]? = some a)
    (hf : f b = f a) : total f (l.set i b) = total f l := by
  rw [total_set f h, hf]
  omega

/-- The number of records with a property after one was replaced. -/
theorem countP_set (p : α → Bool) {l : List α} {i : Nat} {a b : α} (h : l[i]? = some a) :
    (l.set i b).countP p + (if p a then 1 else 0) = l.countP p + (if p b then 1 else 0) := by
  induction l generalizing i with
  | nil => simp at h
  | cons c rest ih =>
    cases i with
    | zero =>
      have hc : c = a := by simpa using h
      subst hc
      simp only [List.set_cons_zero, List.countP_cons]
      omega
    | succ i =>
      have hrest : rest[i]? = some a := by simpa using h
      have hcount := ih hrest
      simp only [List.set_cons_succ, List.countP_cons]
      omega

theorem le_total {f : α → Int} {l : List α} (hf : ∀ a ∈ l, 0 ≤ f a) {i : Nat} {a : α}
    (h : l[i]? = some a) : f a ≤ total f l := by
  induction l generalizing i with
  | nil => simp at h
  | cons c rest ih =>
    have hc : 0 ≤ f c := hf c (by simp)
    have hrest : ∀ a ∈ rest, 0 ≤ f a := fun a ha => hf a (by simp [ha])
    have hnonneg : 0 ≤ total f rest := total_nonneg hrest
    cases i with
    | zero =>
      have hca : c = a := by simpa using h
      rw [total_cons, ← hca]
      omega
    | succ i =>
      have hle : f a ≤ total f rest := ih hrest (by simpa using h)
      rw [total_cons]
      omega

/-- A property of every record, with its position, after one was replaced. -/
theorem forall_set {P : Nat → α → Prop} {l : List α} {i : Nat} {b : α}
    (hl : ∀ n a, n ≠ i → l[n]? = some a → P n a) (hb : i < l.length → P i b) :
    ∀ n a, (l.set i b)[n]? = some a → P n a := by
  intro n a h
  by_cases hn : n = i
  · subst hn
    have hlt : n < l.length := by
      have := (List.getElem?_eq_some_iff.mp h).1
      simpa using this
    rw [List.getElem?_set_self hlt] at h
    rw [← Option.some.inj h]
    exact hb hlt
  · rw [List.getElem?_set_ne (fun he => hn he.symm)] at h
    exact hl n a hn h

theorem getElem?_added {l : List α} {a b : α} {n : Nat} (h : (l ++ [b])[n]? = some a) :
    l[n]? = some a ∨ (n = l.length ∧ a = b) := by
  rcases Nat.lt_or_ge n l.length with hlt | hge
  · rw [List.getElem?_append_left hlt] at h
    exact .inl h
  · have hlt : n < (l ++ [b]).length := (List.getElem?_eq_some_iff.mp h).1
    rw [List.length_append, List.length_singleton] at hlt
    obtain rfl : n = l.length := by omega
    rw [List.getElem?_concat_length] at h
    exact .inr ⟨rfl, (Option.some.inj h).symm⟩

theorem getElem?_kept {l : List α} {a b : α} {n : Nat} (h : l[n]? = some a) :
    (l ++ [b])[n]? = some a := by
  rw [List.getElem?_append_left (List.getElem?_eq_some_iff.mp h).1, h]

theorem modify_eq_set {l : List α} {i : Nat} {a : α} (h : l[i]? = some a) (f : α → α) :
    l.modify i f = l.set i (f a) := by
  apply List.ext_getElem?
  intro n
  obtain ⟨hlt, heq⟩ := List.getElem?_eq_some_iff.mp h
  rw [List.getElem?_modify, List.getElem?_set]
  by_cases hn : i = n
  · subst hn
    simp [hlt, heq]
  · simp [hn]

/-- The records after the one at a position, if there is one, was changed. -/
theorem getElem?_modified (f : α → α) (l : List α) (i n : Nat) :
    (l.modify i f)[n]? = if n = i then l[n]?.map f else l[n]? := by
  rw [List.getElem?_modify]
  by_cases hn : n = i
  · simp [hn]
  · simp [hn, Ne.symm hn]

theorem getElem?_changed {l : List α} {i : Nat} {a : α} (h : l[i]? = some a) (f : α → α)
    (n : Nat) : (l.modify i f)[n]? = if n = i then some (f a) else l[n]? := by
  have hlt : i < l.length := (List.getElem?_eq_some_iff.mp h).1
  rw [modify_eq_set h]
  by_cases hn : n = i
  · subst hn
    rw [if_pos rfl, List.getElem?_set_self hlt]
  · rw [if_neg hn, List.getElem?_set_ne (fun he => hn he.symm)]

/-- A property of every record after one was appended. -/
theorem forall_concat {P : Nat → α → Prop} {l : List α} {b : α}
    (hl : ∀ n a, l[n]? = some a → P n a) (hb : P l.length b) :
    ∀ n a, (l ++ [b])[n]? = some a → P n a := by
  intro n a h
  rcases getElem?_added h with hold | ⟨rfl, rfl⟩
  · exact hl n a hold
  · exact hb

/-- The entries that the records make, with those of one record in front. -/
theorem filterMap_split {β : Type*} (f : α → Option β) {l : List α} {i : Nat} {a : α}
    (h : l[i]? = some a) :
    (l.filterMap f).Perm ((f a).toList ++ (l.eraseIdx i).filterMap f) := by
  induction l generalizing i with
  | nil => simp at h
  | cons c rest ih =>
    cases i with
    | zero =>
      have hc : c = a := by simpa using h
      subst hc
      rw [List.eraseIdx_cons_zero]
      cases hf : f c with
      | none => rw [List.filterMap_cons_none hf]; rfl
      | some b => rw [List.filterMap_cons_some hf]; rfl
    | succ i =>
      have hrest := ih (i := i) (by simpa using h)
      rw [List.eraseIdx_cons_succ]
      cases hf : f c with
      | none =>
        rw [List.filterMap_cons_none hf, List.filterMap_cons_none hf]
        exact hrest
      | some b =>
        rw [List.filterMap_cons_some hf, List.filterMap_cons_some hf]
        exact (hrest.cons b).trans List.perm_middle.symm

theorem filterMap_set {β : Type*} (f : α → Option β) {l : List α} {i : Nat} {a b : α}
    (h : l[i]? = some a) :
    ((l.set i b).filterMap f).Perm ((f b).toList ++ (l.eraseIdx i).filterMap f) := by
  have hlt : i < l.length := (List.getElem?_eq_some_iff.mp h).1
  have hsplit := filterMap_split f (List.getElem?_set_self (a := b) hlt)
  rwa [List.eraseIdx_set_eq] at hsplit

theorem filterMap_kept {β : Type*} {f : α → Option β} {l : List α} {i : Nat} {a b : α}
    (h : l[i]? = some a) (hf : f b = f a) : ((l.set i b).filterMap f).Perm (l.filterMap f) := by
  have hset := filterMap_set f (b := b) h
  rw [hf] at hset
  exact hset.trans (filterMap_split f h).symm

theorem filterMap_gone {β : Type*} {f : α → Option β} {l : List α} {i : Nat} {a b : α} {x : β}
    (h : l[i]? = some a) (ha : f a = some x) (hb : f b = none) :
    (l.filterMap f).Perm (x :: (l.set i b).filterMap f) := by
  have hsplit := filterMap_split f h
  have hset := filterMap_set f (b := b) h
  rw [ha] at hsplit
  rw [hb] at hset
  exact hsplit.trans (hset.symm.cons x)

theorem filterMap_come {β : Type*} {f : α → Option β} {l : List α} {i : Nat} {a b : α} {x : β}
    (h : l[i]? = some a) (ha : f a = none) (hb : f b = some x) :
    ((l.set i b).filterMap f).Perm (x :: l.filterMap f) := by
  have hsplit := filterMap_split f h
  have hset := filterMap_set f (b := b) h
  rw [ha] at hsplit
  rw [hb] at hset
  exact hset.trans (hsplit.symm.cons x)

/-- Where a record stands in a ledger to which one is added. -/
theorem concat_split {l before after : List α} {a b : α} (h : l ++ [a] = before ++ b :: after) :
    (before = l ∧ b = a) ∨ ∃ rest, after = rest ++ [a] ∧ l = before ++ b :: rest := by
  rcases List.eq_nil_or_concat' after with rfl | ⟨rest, last, rfl⟩
  · have hinj := List.append_inj' h rfl
    exact .inl ⟨hinj.1.symm, by simpa using hinj.2.symm⟩
  · right
    rw [← List.cons_append, ← List.append_assoc] at h
    have hinj := List.append_inj' h rfl
    have hlast : a = last := by simpa using hinj.2
    exact ⟨rest, by rw [hlast], hinj.1⟩

theorem countP_le_one {p : α → Bool} {l : List α}
    (h : ∀ (i j : Nat) (a b : α), l[i]? = some a → l[j]? = some b → p a = true → p b = true → i = j) :
    l.countP p ≤ 1 := by
  induction l with
  | nil => simp
  | cons c rest ih =>
    rw [List.countP_cons]
    split_ifs with hc
    · rw [List.countP_eq_zero.mpr]
      intro b hb hpb
      obtain ⟨j, hj⟩ := List.getElem?_of_mem hb
      have := h 0 (j + 1) c b rfl (by simpa using hj) hc hpb
      omega
    · apply ih
      intro i j a b hi hj ha hb
      have := h (i + 1) (j + 1) a b (by simpa using hi) (by simpa using hj) ha hb
      omega

theorem total_filter (p : α → Bool) (f : α → Int) (l : List α) :
    total (fun a => if p a then f a else 0) l = ((l.filter p).map f).sum := by
  induction l with
  | nil => rfl
  | cons c rest ih =>
    rw [total_cons, ih, List.filter_cons]
    split_ifs
    · rw [List.map_cons, List.sum_cons]
    · omega

end PlugAgente.Ledger
