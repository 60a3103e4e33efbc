import Mathlib.Tactic

/-!
# JSON maps and the null sweep

A map of the wire is the list of its entries in insertion order, with distinct
keys.  `omitNullEntriesDeep` is the sweep of `RpcWireMap` that takes every null out
of nested maps and lists, and `put` is what a later entry of a map literal does to
an earlier one.

`NoNull` is freedom from nulls at every depth, and `omitNullEntriesDeep_eq_self_iff`
says that the sweep leaves exactly such maps alone.
-/

namespace PlugAgente.Wire

/-- A JSON value; `other` are the leaves of other types, such as doubles. -/
inductive Json (V : Type) where
  | null
  | bool (b : Bool)
  | int (n : Int)
  | text (t : String)
  | other (v : V)
  | list (items : List (Json V))
  | map (entries : List (String × Json V))

/-- The entries of a map. -/
abbrev Entries (V : Type) := List (String × Json V)

variable {V : Type}

namespace Json

def isNull : Json V → Bool
  | null => true
  | _ => false

def isInt : Json V → Bool
  | int _ => true
  | _ => false

def isBool : Json V → Bool
  | bool _ => true
  | _ => false

def isText : Json V → Bool
  | text _ => true
  | _ => false

def isList : Json V → Bool
  | list _ => true
  | _ => false

def isMap : Json V → Bool
  | map _ => true
  | _ => false

end Json

/-! ## The sweep -/

mutual

/-- What the sweep makes of a value that is not null. -/
def omitNullValue : Json V → Json V
  | .map entries => .map (omitNullEntriesDeep entries)
  | .list items => .list (omitNullEntriesInList items)
  | .null => .null
  | .bool b => .bool b
  | .int n => .int n
  | .text t => .text t
  | .other v => .other v

def omitNullEntriesDeep : Entries V → Entries V
  | [] => []
  | (key, value) :: rest =>
    if value.isNull then omitNullEntriesDeep rest
    else (key, omitNullValue value) :: omitNullEntriesDeep rest

def omitNullEntriesInList : List (Json V) → List (Json V)
  | [] => []
  | item :: rest =>
    if item.isNull then omitNullEntriesInList rest
    else omitNullValue item :: omitNullEntriesInList rest

end

mutual

/-- No null at any depth below a value. -/
def NoNullBelow : Json V → Prop
  | .map entries => NoNull entries
  | .list items => NoNullItems items
  | _ => True

/-- No null in the entries of a map, at any depth. -/
def NoNull : Entries V → Prop
  | [] => True
  | (_, value) :: rest => value.isNull = false ∧ NoNullBelow value ∧ NoNull rest

/-- No null in a list, at any depth. -/
def NoNullItems : List (Json V) → Prop
  | [] => True
  | item :: rest => item.isNull = false ∧ NoNullBelow item ∧ NoNullItems rest

end

mutual

theorem length_omitNullEntriesDeep : ∀ entries : Entries V,
    (omitNullEntriesDeep entries).length ≤ entries.length
  | [] => by simp [omitNullEntriesDeep]
  | (key, value) :: rest => by
    have ih := length_omitNullEntriesDeep rest
    rw [omitNullEntriesDeep]
    split
    · exact Nat.le_succ_of_le ih
    · simpa using ih

theorem length_omitNullEntriesInList : ∀ items : List (Json V),
    (omitNullEntriesInList items).length ≤ items.length
  | [] => by simp [omitNullEntriesInList]
  | item :: rest => by
    have ih := length_omitNullEntriesInList rest
    rw [omitNullEntriesInList]
    split
    · exact Nat.le_succ_of_le ih
    · simpa using ih

end

mutual

theorem omitNullValue_eq_self_iff : ∀ value : Json V, omitNullValue value = value ↔ NoNullBelow value
  | .map entries => by
    simp only [omitNullValue, NoNullBelow, Json.map.injEq]
    exact omitNullEntriesDeep_eq_self_iff entries
  | .list items => by
    simp only [omitNullValue, NoNullBelow, Json.list.injEq]
    exact omitNullEntriesInList_eq_self_iff items
  | .null => by simp [omitNullValue, NoNullBelow]
  | .bool _ => by simp [omitNullValue, NoNullBelow]
  | .int _ => by simp [omitNullValue, NoNullBelow]
  | .text _ => by simp [omitNullValue, NoNullBelow]
  | .other _ => by simp [omitNullValue, NoNullBelow]

theorem omitNullEntriesDeep_eq_self_iff : ∀ entries : Entries V,
    omitNullEntriesDeep entries = entries ↔ NoNull entries
  | [] => by simp [omitNullEntriesDeep, NoNull]
  | (key, value) :: rest => by
    rw [omitNullEntriesDeep, NoNull]
    cases hnull : value.isNull with
    | true =>
      -- The entry is gone, and nothing else can have grown.
      simp only [if_true, Bool.true_eq_false, false_and, iff_false]
      intro h
      have hlen := length_omitNullEntriesDeep rest
      have := congrArg List.length h
      simp only [List.length_cons] at this
      omega
    | false =>
      simp only [Bool.false_eq_true, if_false, List.cons.injEq, Prod.mk.injEq, true_and]
      rw [omitNullValue_eq_self_iff value, omitNullEntriesDeep_eq_self_iff rest]

theorem omitNullEntriesInList_eq_self_iff : ∀ items : List (Json V),
    omitNullEntriesInList items = items ↔ NoNullItems items
  | [] => by simp [omitNullEntriesInList, NoNullItems]
  | item :: rest => by
    rw [omitNullEntriesInList, NoNullItems]
    cases hnull : item.isNull with
    | true =>
      simp only [if_true, Bool.true_eq_false, false_and, iff_false]
      intro h
      have hlen := length_omitNullEntriesInList rest
      have := congrArg List.length h
      simp only [List.length_cons] at this
      omega
    | false =>
      simp only [Bool.false_eq_true, if_false, List.cons.injEq, true_and]
      rw [omitNullValue_eq_self_iff item, omitNullEntriesInList_eq_self_iff rest]

end

theorem omitNullEntriesInList_map (rows : List (Entries V)) :
    omitNullEntriesInList (rows.map Json.map) =
      rows.map fun row => Json.map (omitNullEntriesDeep row) := by
  induction rows with
  | nil => simp [omitNullEntriesInList]
  | cons row rest ih => simp [omitNullEntriesInList, Json.isNull, omitNullValue, ih]

/-! ## Entries by key -/

theorem lookup_omitNullEntriesDeep {key : String} {value : Json V} :
    ∀ {entries : Entries V}, entries.lookup key = some value → value.isNull = false →
      (omitNullEntriesDeep entries).lookup key = some (omitNullValue value)
  | [], h, _ => by simp at h
  | (k, v) :: rest, h, hnull => by
    rw [omitNullEntriesDeep]
    by_cases hk : key = k
    · subst hk
      have hv : v = value := by simpa using h
      subst hv
      simp [hnull]
    · have hrest : rest.lookup key = some value := by
        rw [List.lookup_cons, show (key == k) = false by simpa using hk] at h
        exact h
      have ih := lookup_omitNullEntriesDeep hrest hnull
      split
      · exact ih
      · rw [List.lookup_cons, show (key == k) = false by simpa using hk]
        exact ih

theorem lookup_omitNullEntriesDeep_none {key : String} :
    ∀ {entries : Entries V}, entries.lookup key = none →
      (omitNullEntriesDeep entries).lookup key = none
  | [], _ => by simp [omitNullEntriesDeep]
  | (k, v) :: rest, h => by
    rw [omitNullEntriesDeep]
    have hk : (key == k) = false := by
      by_contra hk
      rw [List.lookup_cons, show (key == k) = true by simpa using hk] at h
      cases h
    have hrest : rest.lookup key = none := by
      rw [List.lookup_cons, hk] at h
      exact h
    have ih := lookup_omitNullEntriesDeep_none hrest
    split
    · exact ih
    · rw [List.lookup_cons, hk]
      exact ih

/-- An entry of a map literal after the entries before it: it takes the place of
the entry with its key, if there is one. -/
def put (key : String) (value : Json V) : Entries V → Entries V
  | [] => [(key, value)]
  | (k, v) :: rest => if k = key then (key, value) :: rest else (k, v) :: put key value rest

theorem lookup_put (key k : String) (value : Json V) :
    ∀ entries : Entries V,
      (put key value entries).lookup k = if k = key then some value else entries.lookup k
  | [] => by
    by_cases h : k = key
    · simp [put, h]
    · simp [put, h, List.lookup_cons, show (k == key) = false by simpa using h]
  | (k', v) :: rest => by
    rw [put]
    by_cases hk' : k' = key
    · subst hk'
      by_cases h : k = k'
      · simp [h]
      · simp [h, List.lookup_cons, show (k == k') = false by simpa using h]
    · rw [if_neg hk', List.lookup_cons, List.lookup_cons, lookup_put key k value rest]
      by_cases h : k = k'
      · subst h
        simp [hk']
      · simp [show (k == k') = false by simpa using h]

/-- An entry of a map literal that is there only under a condition. -/
def putIf (condition : Bool) (key : String) (value : Json V) (entries : Entries V) : Entries V :=
  if condition then put key value entries else entries

theorem lookup_putIf_of_ne {key k : String} (h : k ≠ key) (condition : Bool) (value : Json V)
    (entries : Entries V) : (putIf condition key value entries).lookup k = entries.lookup k := by
  rw [putIf]
  split
  · rw [lookup_put, if_neg h]
  · rfl

/-- `if (value != null) key: value` in a map literal. -/
def optional (key : String) : Option (Json V) → Entries V
  | some value => [(key, value)]
  | none => []

theorem lookup_optional (key k : String) (value : Option (Json V)) :
    (optional key value).lookup k = if k = key then value else none := by
  cases value with
  | none => simp [optional]
  | some value =>
    by_cases h : k = key
    · simp [optional, h]
    · simp [optional, List.lookup_cons, h, show (k == key) = false by simpa using h]

end PlugAgente.Wire
