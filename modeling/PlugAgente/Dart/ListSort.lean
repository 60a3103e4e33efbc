import PlugAgente.Dart.Text

/-!
# The order of strings and `List.sort`

`String.compareTo` compares two strings by their UTF-16 units.  `List.sort` returns the elements in
an order that its comparator accepts and says nothing of two elements that tie, so a sort is a
parameter here.  Two sorts of the same elements agree on everything that the comparator
distinguishes.  Insertion sort, which the Dart runtime uses for short lists, keeps tied elements in
their order.
-/

namespace PlugAgente.Dart

open Std

/-! ## Strings -/

def utf16Units (c : Char) : List Nat :=
  if c.toNat < 0x10000 then [c.toNat]
  else [0xD800 + (c.toNat - 0x10000) / 0x400, 0xDC00 + (c.toNat - 0x10000) % 0x400]

/-- `String.codeUnits`. -/
def utf16 (s : Text) : List Nat := s.flatMap utf16Units

/-- `String.compareTo`. -/
def compareTo (s t : Text) : Ordering := compare (utf16 s) (utf16 t)

theorem toNat_cases (c : Char) : c.toNat < 0xD800 ∨ 0xDFFF < c.toNat ∧ c.toNat < 0x110000 := c.valid

theorem utf16Units_append_inj {c d : Char} {u v : List Nat}
    (h : utf16Units c ++ u = utf16Units d ++ v) : c = d ∧ u = v := by
  have hc := toNat_cases c
  have hd := toNat_cases d
  unfold utf16Units at h
  split at h <;> split at h <;>
    simp only [List.cons_append, List.nil_append, List.cons.injEq] at h
  · exact ⟨Char.toNat_inj.mp h.1, h.2⟩
  · omega
  · omega
  · refine ⟨Char.toNat_inj.mp ?_, h.2.2⟩
    omega

theorem utf16_inj {s t : Text} (h : utf16 s = utf16 t) : s = t := by
  induction s generalizing t with
  | nil =>
    cases t with
    | nil => rfl
    | cons d t =>
      simp only [utf16, List.flatMap_nil, List.flatMap_cons, utf16Units] at h
      split at h <;> simp at h
  | cons c s ih =>
    cases t with
    | nil =>
      simp only [utf16, List.flatMap_nil, List.flatMap_cons, utf16Units] at h
      split at h <;> simp at h
    | cons d t =>
      have hboth := utf16Units_append_inj (by simpa [utf16] using h)
      rw [hboth.1, ih hboth.2]

instance transCmp_compareTo {α : Type} (name : α → Text) :
    TransCmp fun a b => compareTo (name a) (name b) :=
  inferInstanceAs (TransCmp (compareOn fun a => utf16 (name a)))

theorem compareTo_eq_iff {s t : Text} : compareTo s t = .eq ↔ s = t := by
  unfold compareTo
  rw [LawfulEqCmp.compare_eq_iff_eq]
  exact ⟨utf16_inj, congrArg utf16⟩

/-! ## `List.sort` -/

/-- What is known of `List.sort`. -/
structure ListSort where
  sort : {α : Type} → (α → α → Ordering) → List α → List α
  perm : ∀ {α : Type} (cmp : α → α → Ordering) (l : List α), (sort cmp l).Perm l
  ordered : ∀ {α : Type} (cmp : α → α → Ordering) [TransCmp cmp] (l : List α),
    (sort cmp l).Pairwise fun a b => (cmp a b).isLE = true

namespace ListSort

variable {α β : Type} {cmp : α → α → Ordering}

/-- Sorting forgets the order of the elements, as far as the comparator tells them apart. -/
theorem map_sort (S : ListSort) [TransCmp cmp] {f : α → β} {l l' : List α}
    (hcmp : ∀ a a' b b', f a = f a' → f b = f b' → cmp a b = cmp a' b')
    (htied : ∀ a ∈ l, ∀ b ∈ l, cmp a b = .eq → f a = f b)
    (h : (l.map f).Perm (l'.map f)) : (S.sort cmp l).map f = (S.sort cmp l').map f := by
  have hordered : ∀ k : List α, ((S.sort cmp k).map f).Pairwise fun x y =>
      ∃ a b, f a = x ∧ f b = y ∧ (cmp a b).isLE = true := by
    intro k
    rw [List.pairwise_map]
    exact (S.ordered cmp k).imp fun {a b} hab => ⟨a, b, rfl, rfl, hab⟩
  have hsorted : ∀ k : List α, ((S.sort cmp k).map f).Perm (k.map f) :=
    fun k => (S.perm cmp k).map f
  refine List.Perm.eq_of_pairwise ?_ (hordered l) (hordered l')
    ((hsorted l).trans (h.trans (hsorted l').symm))
  rintro x y hx hy ⟨a, b, hax, hby, hab⟩ ⟨b', a', hby', hax', hba⟩
  obtain ⟨p, hp, rfl⟩ := List.mem_map.mp ((hsorted l).subset hx)
  obtain ⟨q, hq, rfl⟩ := List.mem_map.mp (h.symm.subset ((hsorted l').subset hy))
  rw [hcmp a p b q hax hby] at hab
  rw [hcmp b' q a' p hby' hax'] at hba
  exact htied p hp q hq (OrientedCmp.isLE_antisymm hab hba)

/-- A comparator that only equal elements tie gives one order. -/
theorem sort_eq (S : ListSort) [TransCmp cmp] (htied : ∀ a b, cmp a b = .eq → a = b)
    {l l' : List α} (h : l.Perm l') : S.sort cmp l = S.sort cmp l' := by
  have hmap : (S.sort cmp l).map id = (S.sort cmp l').map id := by
    apply S.map_sort
    · rintro a _ b _ rfl rfl
      rfl
    · exact fun a _ b _ => htied a b
    · exact h.map id
  rwa [List.map_id, List.map_id] at hmap

/-! ### Insertion sort -/

def insertion : ListSort where
  sort cmp l := l.insertionSort fun a b => (cmp a b).isLE = true
  perm cmp l := List.perm_insertionSort _ l
  ordered cmp _ l := by
    have htotal : Std.Total fun a b => (cmp a b).isLE = true :=
      ⟨fun a b => by
        have hswap : cmp b a = (cmp a b).swap := OrientedCmp.eq_swap
        rw [hswap]
        cases cmp a b <;> simp⟩
    have htrans : IsTrans _ fun a b => (cmp a b).isLE = true :=
      ⟨fun a b c => TransCmp.isLE_trans⟩
    exact List.pairwise_insertionSort _ l

theorem filter_insertion {p : α → Bool} (l : List α)
    (htied : ∀ a b, p a = true → p b = true → (cmp a b).isLE = true) :
    (insertion.sort cmp l).filter p = l.filter p := by
  have hkept : (l.filter p).Pairwise fun a b => (cmp a b).isLE = true := by
    rw [List.pairwise_filter]
    exact List.pairwise_of_forall fun a b ha hb => htied a b ha hb
  have hsub : (l.filter p).Sublist (insertion.sort cmp l) :=
    List.sublist_insertionSort hkept List.filter_sublist
  have hfilter := hsub.filter p
  rw [List.filter_filter] at hfilter
  simp only [Bool.and_self] at hfilter
  exact (hfilter.eq_of_length ((insertion.perm cmp l).filter p).length_eq.symm).symm

end ListSort

end PlugAgente.Dart
