import Mathlib

/-!
# Dart strings

A Dart string is modelled as the list of its characters.  The scanners of the
agent walk a string with an index and look one character back; the model
carries the suffix that the index points at and, where the code looks back, the
character before it.

`CaseMap` is the case mapping behind `String.toLowerCase` and
`String.toUpperCase`.  Dart takes it from the Unicode tables, which the model
does not copy: it is a parameter, and the fields state what the code relies on.
`asciiCase` is the mapping that knows the ASCII letters only.
-/

namespace PlugAgente.Dart

/-- A Dart string, as the list of its characters. -/
abbrev Text := List Char

instance : LawfulBEq Text := inferInstanceAs (LawfulBEq (List Char))

/-- What holds of every character of a text is decided along the text, not along all
characters. -/
instance (priority := 2000) decidableForallMem (p : Char → Prop) [DecidablePred p] (s : Text) :
    Decidable (∀ c ∈ s, p c) :=
  List.decidableBAll p s

/-! ## Whitespace -/

/-- The characters that `String.trim` removes: the Unicode `White_Space`
property and the byte order mark. -/
def isWhitespace (c : Char) : Bool :=
  let n := c.toNat
  (9 ≤ n && n ≤ 13) || n == 0x20 || n == 0x85 || n == 0xA0 || n == 0x1680 ||
    (0x2000 ≤ n && n ≤ 0x200A) || n == 0x2028 || n == 0x2029 || n == 0x202F ||
    n == 0x205F || n == 0x3000 || n == 0xFEFF

/-- The characters of the class `\s` of a Dart `RegExp`: those of `trim`
without U+0085. -/
def isRegExpWhitespace (c : Char) : Bool :=
  isWhitespace c && c.toNat != 0x85

def trimLeft (s : Text) : Text := s.dropWhile isWhitespace

def trimRight (s : Text) : Text := s.rdropWhile isWhitespace

/-- `String.trim`. -/
def trim (s : Text) : Text := trimRight (trimLeft s)

/-! ## Runs of blanks -/

/-- `replaceAll(RegExp(r'\s+'), ' ')`. -/
def collapseWhitespace : Text → Text
  | [] => []
  | c :: rest =>
    if isRegExpWhitespace c then
      match rest with
      | d :: _ => if isRegExpWhitespace d then collapseWhitespace rest
          else ' ' :: collapseWhitespace rest
      | [] => [' ']
    else c :: collapseWhitespace rest

theorem isRegExpWhitespace_of_not {c : Char} (h : isWhitespace c = false) :
    isRegExpWhitespace c = false := by
  simp [isRegExpWhitespace, h]

theorem collapse_cons {c : Char} (h : isRegExpWhitespace c = false) (rest : Text) :
    collapseWhitespace (c :: rest) = c :: collapseWhitespace rest := by
  rw [collapseWhitespace.eq_def]
  simp [h]

theorem collapse_eq_self {x : Text} (h : ∀ c ∈ x, isRegExpWhitespace c = false) :
    collapseWhitespace x = x := by
  induction x with
  | nil => rfl
  | cons c x ih =>
    rw [collapse_cons (h c List.mem_cons_self), ih fun d hd => h d (List.mem_cons_of_mem c hd)]

/-! ## Case mapping -/

/-- The character of an ASCII letter or any character outside ASCII. -/
def isLetterOrWide (c : Char) : Prop := c.isAlpha ∨ 128 ≤ c.toNat

/-- The one-to-one Unicode case mapping of the Dart runtime. -/
structure CaseMap where
  lower : Char → Char
  upper : Char → Char
  /-- On ASCII the mapping is the ASCII one. -/
  lower_ascii : ∀ c, c.toNat < 128 → lower c = c.toLower
  upper_ascii : ∀ c, c.toNat < 128 → upper c = c.toUpper
  /-- A character outside ASCII becomes no digit, blank or punctuation of
  ASCII. -/
  lower_wide : ∀ c, 128 ≤ c.toNat → isLetterOrWide (lower c)
  upper_wide : ∀ c, 128 ≤ c.toNat → isLetterOrWide (upper c)
  lower_lower : ∀ c, lower (lower c) = lower c
  /-- A blank has no case. -/
  isWhitespace_lower : ∀ c, isWhitespace (lower c) = isWhitespace c

namespace CaseMap

variable (cm : CaseMap)

/-- `String.toLowerCase`. -/
def toLowerCase (s : Text) : Text := s.map cm.lower

/-- `String.toUpperCase`. -/
def toUpperCase (s : Text) : Text := s.map cm.upper

@[simp] theorem toLowerCase_nil : cm.toLowerCase [] = [] := rfl

@[simp] theorem toLowerCase_cons (c : Char) (s : Text) :
    cm.toLowerCase (c :: s) = cm.lower c :: cm.toLowerCase s := rfl

@[simp] theorem toLowerCase_append (s t : Text) :
    cm.toLowerCase (s ++ t) = cm.toLowerCase s ++ cm.toLowerCase t := by
  simp [toLowerCase]

end CaseMap

/-! ## The ASCII mapping -/

theorem ascii_cases {P : Char → Prop} (h : ∀ n < 128, P (Char.ofNat n)) {c : Char}
    (hc : c.toNat < 128) : P c := by
  have hp := h c.toNat hc
  rwa [Char.ofNat_toNat] at hp

theorem toLower_of_wide {c : Char} (h : 128 ≤ c.toNat) : c.toLower = c := by
  have hn : ¬ (c.val ≥ 'A'.val ∧ c.val ≤ 'Z'.val) := by
    rintro ⟨_, h2⟩
    have h3 : c.val.toNat ≤ 90 := UInt32.le_iff_toNat_le.mp h2
    have h4 : c.toNat = c.val.toNat := rfl
    omega
  rw [Char.toLower, dif_neg hn]

theorem toUpper_of_wide {c : Char} (h : 128 ≤ c.toNat) : c.toUpper = c := by
  have hn : ¬ (c.val ≥ 'a'.val ∧ c.val ≤ 'z'.val) := by
    rintro ⟨_, h2⟩
    have h3 : c.val.toNat ≤ 122 := UInt32.le_iff_toNat_le.mp h2
    have h4 : c.toNat = c.val.toNat := rfl
    omega
  rw [Char.toUpper, dif_neg hn]

/-- The case mapping that folds the ASCII letters and keeps every other
character. -/
def asciiCase : CaseMap where
  lower := Char.toLower
  upper := Char.toUpper
  lower_ascii := fun _ _ => rfl
  upper_ascii := fun _ _ => rfl
  lower_wide := fun c h => Or.inr (by rw [toLower_of_wide h]; exact h)
  upper_wide := fun c h => Or.inr (by rw [toUpper_of_wide h]; exact h)
  lower_lower := by
    intro c
    rcases Nat.lt_or_ge c.toNat 128 with h | h
    · exact ascii_cases (P := fun c => c.toLower.toLower = c.toLower) (by decide) h
    · rw [toLower_of_wide h, toLower_of_wide h]
  isWhitespace_lower := by
    intro c
    rcases Nat.lt_or_ge c.toNat 128 with h | h
    · exact ascii_cases (P := fun c => isWhitespace c.toLower = isWhitespace c) (by decide) h
    · rw [toLower_of_wide h]

/-! ## Trimmed strings -/

/-- All characters are blanks. -/
def AllBlank (t : Text) : Prop := ∀ c ∈ t, isWhitespace c = true

/-- No blank stands at the ends. -/
structure Trimmed (t : Text) : Prop where
  head : ∀ c ∈ t.head?, isWhitespace c = false
  last : ∀ c ∈ t.getLast?, isWhitespace c = false

theorem trimLeft_eq_self {t : Text} (h : ∀ c ∈ t.head?, isWhitespace c = false) :
    trimLeft t = t := by
  cases t with
  | nil => rfl
  | cons c t => exact List.dropWhile_cons_of_neg (by simp [h c rfl])

theorem trimRight_eq_self {t : Text} (h : ∀ c ∈ t.getLast?, isWhitespace c = false) :
    trimRight t = t := by
  refine List.rdropWhile_eq_self_iff.mpr fun hne => ?_
  simp [h _ (List.getLast?_eq_some_getLast hne)]

theorem Trimmed.trim_eq {t : Text} (h : Trimmed t) : trim t = t := by
  unfold trim
  rw [trimLeft_eq_self h.head, trimRight_eq_self h.last]

theorem trimLeft_sublist (t : Text) : (trimLeft t).Sublist t := List.dropWhile_sublist _

theorem trim_sublist (t : Text) : (trim t).Sublist t :=
  (List.rdropWhile_prefix _ _).sublist.trans (trimLeft_sublist t)

theorem trimmed_trim (t : Text) : Trimmed (trim t) := by
  have hleft : ∀ c ∈ (trimLeft t).head?, isWhitespace c = false := by
    intro c hc
    have hnot := List.head?_dropWhile_not isWhitespace t
    unfold trimLeft at hc
    rw [hc] at hnot
    simpa using hnot
  constructor
  · intro c hc
    obtain ⟨more, hmore⟩ : trim t <+: trimLeft t := List.rdropWhile_prefix _ _
    refine hleft c ?_
    rw [← hmore, List.head?_append, hc]
    rfl
  · intro c hc
    have hne : trim t ≠ [] := by
      rintro hnil
      rw [hnil] at hc
      cases hc
    rw [List.getLast?_eq_some_getLast hne] at hc
    rw [← Option.some.inj hc]
    exact Bool.eq_false_iff.mpr (List.rdropWhile_last_not isWhitespace (trimLeft t) hne)

theorem trim_trim (t : Text) : trim (trim t) = trim t := (trimmed_trim t).trim_eq

theorem exists_trim (t : Text) :
    ∃ before after, t = before ++ trim t ++ after ∧ AllBlank before ∧ AllBlank after := by
  have hleft : t.takeWhile isWhitespace ++ trimLeft t = t := List.takeWhile_append_dropWhile
  have hright : trim t ++ (trimLeft t).rtakeWhile isWhitespace = trimLeft t := by
    unfold trim trimRight List.rdropWhile List.rtakeWhile
    rw [← List.reverse_append, List.takeWhile_append_dropWhile, List.reverse_reverse]
  refine ⟨t.takeWhile isWhitespace, (trimLeft t).rtakeWhile isWhitespace, ?_, ?_, ?_⟩
  · rw [List.append_assoc, hright, hleft]
  · exact fun c hc => List.mem_takeWhile_imp hc
  · intro c hc
    unfold List.rtakeWhile at hc
    exact List.mem_takeWhile_imp (List.mem_reverse.mp hc)

end PlugAgente.Dart
