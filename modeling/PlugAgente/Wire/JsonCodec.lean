import PlugAgente.Dart.JsonText
import PlugAgente.Wire.Json

/-!
# The text of a JSON value

`jsonEncode` writes a value without blanks, and `jsonDecode` reads values with blanks between
their parts.  A double is given by the text that stands for it, which is read back as the same
double and is never the text of an integer.

`jsonDecode_jsonEncode` says that a value whose maps have distinct keys is read back from its
text, so that two such values with one text are equal.

Nothing here mentions the agent.
-/

namespace PlugAgente.Wire

open Dart (jsonChar)

/-! ## Writing -/

def isNumeralChar (c : Char) : Bool :=
  c.isDigit || c == '-' || c == '+' || c == '.' || c == 'e' || c == 'E'

/-- The text of an integer. -/
def intText : Int → List Char
  | .ofNat n => Nat.toDigits 10 n
  | .negSucc n => '-' :: Nat.toDigits 10 (n + 1)

/-- Finite doubles, with `toString` and `double.parse`. -/
structure Doubles (V : Type) where
  toText : V → List Char
  parse : List Char → Option V
  parse_toText : ∀ v, parse (toText v) = some v
  nonempty : ∀ v, toText v ≠ []
  numeral : ∀ v, ∀ c ∈ toText v, isNumeralChar c = true
  notInt : ∀ v n, intText n ≠ toText v

variable {V : Type}

def encodeText (t : String) : List Char :=
  '"' :: (t.toList.flatMap jsonChar ++ ['"'])

mutual

/-- The text of a value. -/
def encodeValue (D : Doubles V) : Json V → List Char
  | .null => ['n', 'u', 'l', 'l']
  | .bool true => ['t', 'r', 'u', 'e']
  | .bool false => ['f', 'a', 'l', 's', 'e']
  | .int n => intText n
  | .text t => encodeText t
  | .other v => D.toText v
  | .list [] => ['[', ']']
  | .list (item :: items) => '[' :: (encodeValue D item ++ encodeItems D items)
  | .map [] => ['\x7b', '\x7d']
  | .map ((key, value) :: entries) =>
    '\x7b' :: (encodeText key ++ ':' :: (encodeValue D value ++ encodeEntries D entries))

/-- The items behind another one, and the end of the list. -/
def encodeItems (D : Doubles V) : List (Json V) → List Char
  | [] => [']']
  | item :: items => ',' :: (encodeValue D item ++ encodeItems D items)

/-- The entries behind another one, and the end of the map. -/
def encodeEntries (D : Doubles V) : Entries V → List Char
  | [] => ['\x7d']
  | (key, value) :: entries =>
    ',' :: (encodeText key ++ ':' :: (encodeValue D value ++ encodeEntries D entries))

end

def jsonEncode (D : Doubles V) (value : Json V) : String :=
  String.ofList (encodeValue D value)

/-! ## Reading -/

def isBlank (c : Char) : Bool :=
  c == ' ' || c == '\t' || c == '\n' || c == '\r'

def skipBlanks (cs : List Char) : List Char :=
  cs.dropWhile isBlank

/-- The value of a hexadecimal digit. -/
def hexValue (c : Char) : Option Nat :=
  if c.isDigit then some (c.toNat - 48)
  else if 'a' ≤ c ∧ c ≤ 'f' then some (c.toNat - 87)
  else if 'A' ≤ c ∧ c ≤ 'F' then some (c.toNat - 55)
  else none

/-- A UTF-16 unit in four digits. -/
def readUnit : List Char → Option (Nat × List Char)
  | a :: b :: c :: d :: rest =>
    match hexValue a, hexValue b, hexValue c, hexValue d with
    | some a, some b, some c, some d => some (((a * 16 + b) * 16 + c) * 16 + d, rest)
    | _, _, _, _ => none
  | _ => none

/-- The unit of a surrogate pair that follows the first one. -/
def readLowUnit : List Char → Option (Nat × List Char)
  | '\\' :: 'u' :: rest => readUnit rest
  | _ => none

/-- The character of a letter behind a backslash. -/
def escaped (c : Char) : Option Char :=
  if c = '"' ∨ c = '\\' ∨ c = '/' then some c
  else if c = 'b' then some (Char.ofNat 8)
  else if c = 't' then some (Char.ofNat 9)
  else if c = 'n' then some (Char.ofNat 10)
  else if c = 'f' then some (Char.ofNat 12)
  else if c = 'r' then some (Char.ofNat 13)
  else none

/-- What stands behind a backslash.  A surrogate has to come with its other half. -/
def readEscape : List Char → Option (Char × List Char)
  | [] => none
  | c :: rest =>
    if c = 'u' then
      match readUnit rest with
      | none => none
      | some (unit, rest) =>
        if unit < 0xD800 ∨ 0xDFFF < unit then some (Char.ofNat unit, rest)
        else
          match readLowUnit rest with
          | none => none
          | some (low, rest) =>
            if unit < 0xDC00 ∧ 0xDC00 ≤ low ∧ low ≤ 0xDFFF then
              some (Char.ofNat (0x10000 + (unit - 0xD800) * 0x400 + (low - 0xDC00)), rest)
            else none
    else (escaped c).map fun c => (c, rest)

/-- A string up to its closing quote. -/
def readText : Nat → List Char → Option (List Char × List Char)
  | 0, _ => none
  | _ + 1, [] => none
  | fuel + 1, c :: rest =>
    if c = '"' then some ([], rest)
    else if c = '\\' then
      match readEscape rest with
      | none => none
      | some (c, rest) => (readText fuel rest).map fun p => (c :: p.1, p.2)
    else if c.toNat < 32 then none
    else (readText fuel rest).map fun p => (c :: p.1, p.2)

/-- The integer of a sign and digits. -/
def readInt : List Char → Int
  | '-' :: digits => -(Nat.ofDigitChars 10 digits 0 : Int)
  | digits => (Nat.ofDigitChars 10 digits 0 : Int)

/-- A numeral: an integer where it is the text of one, and else a double. -/
def readNumeral (D : Doubles V) (token : List Char) : Option (Json V) :=
  if intText (readInt token) = token then some (.int (readInt token))
  else (D.parse token).map .other

/-- `null`, `true` and `false`. -/
def readWord : List Char → Option (Json V × List Char)
  | 'n' :: 'u' :: 'l' :: 'l' :: rest => some (.null, rest)
  | 't' :: 'r' :: 'u' :: 'e' :: rest => some (.bool true, rest)
  | 'f' :: 'a' :: 'l' :: 's' :: 'e' :: rest => some (.bool false, rest)
  | _ => none

/-- A key and its colon. -/
def readKey (cs : List Char) : Option (String × List Char) :=
  match skipBlanks cs with
  | '"' :: rest =>
    match readText (rest.length + 1) rest with
    | none => none
    | some (key, rest) =>
      match skipBlanks rest with
      | ':' :: rest => some (String.ofList key, rest)
      | _ => none
  | _ => none

/-- The map of entries that are read one after the other. -/
def collect (entries : Entries V) : Entries V :=
  entries.foldl (fun read entry => put entry.1 entry.2 read) []

mutual

/-- A value, with what is behind it. -/
def readValue (D : Doubles V) : Nat → List Char → Option (Json V × List Char)
  | 0, _ => none
  | fuel + 1, cs =>
    match skipBlanks cs with
    | [] => none
    | c :: rest =>
      if c = '"' then
        (readText (rest.length + 1) rest).map fun p => (.text (String.ofList p.1), p.2)
      else if c = '[' then
        match skipBlanks rest with
        | ']' :: rest => some (.list [], rest)
        | _ =>
          match readValue D fuel rest with
          | none => none
          | some (item, rest) => (readItems D fuel rest).map fun p => (.list (item :: p.1), p.2)
      else if c = '\x7b' then
        match skipBlanks rest with
        | '\x7d' :: rest => some (.map [], rest)
        | _ =>
          match readKey rest with
          | none => none
          | some (key, rest) =>
            match readValue D fuel rest with
            | none => none
            | some (value, rest) =>
              (readEntries D fuel rest).map fun p => (.map (collect ((key, value) :: p.1)), p.2)
      else if isNumeralChar c then
        (readNumeral D ((c :: rest).takeWhile isNumeralChar)).map fun value =>
          (value, (c :: rest).dropWhile isNumeralChar)
      else readWord (c :: rest)

/-- The items behind another one. -/
def readItems (D : Doubles V) : Nat → List Char → Option (List (Json V) × List Char)
  | 0, _ => none
  | fuel + 1, cs =>
    match skipBlanks cs with
    | ']' :: rest => some ([], rest)
    | ',' :: rest =>
      match readValue D fuel rest with
      | none => none
      | some (item, rest) => (readItems D fuel rest).map fun p => (item :: p.1, p.2)
    | _ => none

/-- The entries behind another one. -/
def readEntries (D : Doubles V) : Nat → List Char → Option (Entries V × List Char)
  | 0, _ => none
  | fuel + 1, cs =>
    match skipBlanks cs with
    | '\x7d' :: rest => some ([], rest)
    | ',' :: rest =>
      match readKey rest with
      | none => none
      | some (key, rest) =>
        match readValue D fuel rest with
        | none => none
        | some (value, rest) => (readEntries D fuel rest).map fun p => ((key, value) :: p.1, p.2)
    | _ => none

end

/-- `jsonDecode`, which throws when the text is not that of one value. -/
def jsonDecode (D : Doubles V) (text : String) : Option (Json V) :=
  match readValue D (text.toList.length + 1) text.toList with
  | some (value, rest) => if skipBlanks rest = [] then some value else none
  | none => none

/-! ## Numerals -/

theorem isDigit_toDigits {n : Nat} {c : Char} (h : c ∈ Nat.toDigits 10 n) : c.isDigit = true :=
  Nat.isDigit_of_mem_toDigits (by decide) (by decide) h

theorem readInt_intText (n : Int) : readInt (intText n) = n := by
  have hdigits : ∀ m : Nat, Nat.ofDigitChars 10 (Nat.toDigits 10 m) 0 = m := fun m =>
    Nat.ofDigitChars_toDigits (by decide) (by decide)
  cases n with
  | ofNat n =>
    unfold intText readInt
    split
    · rename_i digits h
      change Nat.toDigits 10 n = '-' :: digits at h
      have hminus := isDigit_toDigits (n := n) (c := '-') (by rw [h]; exact List.mem_cons_self)
      exact absurd hminus (by decide)
    · rw [hdigits]
      rfl
  | negSucc n =>
    show -(Nat.ofDigitChars 10 (Nat.toDigits 10 (n + 1)) 0 : Int) = _
    rw [hdigits]
    rfl

theorem isNumeralChar_intText (n : Int) : ∀ c ∈ intText n, isNumeralChar c = true := by
  have hdigit : ∀ (m : Nat) (c : Char), c ∈ Nat.toDigits 10 m → isNumeralChar c = true := by
    intro m c hc
    unfold isNumeralChar
    rw [isDigit_toDigits hc]
    rfl
  intro c hc
  cases n with
  | ofNat n => exact hdigit n c hc
  | negSucc n =>
    rcases List.mem_cons.mp hc with rfl | hc
    · rfl
    · exact hdigit (n + 1) c hc

theorem intText_ne_nil (n : Int) : intText n ≠ [] := by
  cases n with
  | ofNat n => exact Nat.toDigits_ne_nil
  | negSucc n => exact List.cons_ne_nil _ _

theorem readNumeral_intText (D : Doubles V) (n : Int) :
    readNumeral D (intText n) = some (.int n) := by
  unfold readNumeral
  rw [readInt_intText, if_pos rfl]

theorem readNumeral_toText (D : Doubles V) (v : V) :
    readNumeral D (D.toText v) = some (.other v) := by
  unfold readNumeral
  rw [if_neg (D.notInt v _), D.parse_toText]
  rfl

/-- What is behind a value does not go on with a numeral. -/
def Ends (rest : List Char) : Prop :=
  ∀ c ∈ rest.head?, isNumeralChar c = false

theorem takeWhile_numeral {token rest : List Char} (h : ∀ c ∈ token, isNumeralChar c = true)
    (hrest : Ends rest) : (token ++ rest).takeWhile isNumeralChar = token := by
  rw [List.takeWhile_append_of_pos h]
  cases rest with
  | nil => simp
  | cons c rest =>
    have hc := hrest c rfl
    simp [hc]

theorem dropWhile_numeral {token rest : List Char} (h : ∀ c ∈ token, isNumeralChar c = true)
    (hrest : Ends rest) : (token ++ rest).dropWhile isNumeralChar = rest := by
  rw [List.dropWhile_append_of_pos h]
  cases rest with
  | nil => rfl
  | cons c rest =>
    have hc := hrest c rfl
    simp [hc]

theorem isBlank_of_numeral {c : Char} (h : isNumeralChar c = true) : isBlank c = false := by
  by_contra hblank
  unfold isBlank at hblank
  simp only [Bool.not_eq_false, Bool.or_eq_true, beq_iff_eq] at hblank
  rcases hblank with ((rfl | rfl) | rfl) | rfl <;> exact absurd h (by decide)

/-! ## Strings -/

theorem hexValue_digitChar : ∀ d < 16, hexValue (Nat.digitChar d) = some d := by
  decide

theorem readText_jsonChar (fuel : Nat) (c : Char) (rest : List Char) :
    readText (fuel + 1) (jsonChar c ++ rest) =
      (readText fuel rest).map fun p => (c :: p.1, p.2) := by
  have hc : Char.ofNat c.toNat = c := Char.ofNat_toNat c
  unfold jsonChar
  split
  · rename_i hquoted
    rcases hquoted with rfl | rfl <;> rfl
  rename_i hplain
  split
  · rename_i h
    rw [h] at hc
    rw [← hc]
    rfl
  split
  · rename_i h
    rw [h] at hc
    rw [← hc]
    rfl
  split
  · rename_i h
    rw [h] at hc
    rw [← hc]
    rfl
  split
  · rename_i h
    rw [h] at hc
    rw [← hc]
    rfl
  split
  · rename_i h
    rw [h] at hc
    rw [← hc]
    rfl
  split
  · rename_i h
    have hhigh := hexValue_digitChar (c.toNat / 16) (by omega)
    have hlow := hexValue_digitChar (c.toNat % 16) (by omega)
    have hzero : hexValue '0' = some 0 := by decide
    have hunit : ((0 * 16 + 0) * 16 + c.toNat / 16) * 16 + c.toNat % 16 = c.toNat := by omega
    have hescape : readEscape ('u' :: '0' :: '0' :: Nat.digitChar (c.toNat / 16) ::
        Nat.digitChar (c.toNat % 16) :: rest) = some (c, rest) := by
      simp only [readEscape, if_true, readUnit, hzero, hhigh, hlow, hunit]
      rw [if_pos (by omega), hc]
    show (match readEscape ('u' :: '0' :: '0' :: Nat.digitChar (c.toNat / 16) ::
        Nat.digitChar (c.toNat % 16) :: rest) with
      | none => none
      | some (c, rest) =>
        (readText fuel rest).map fun p : List Char × List Char => (c :: p.1, p.2)) = _
    rw [hescape]
  · rename_i hprintable
    rw [not_or] at hplain
    show readText (fuel + 1) (c :: rest) = _
    rw [readText, if_neg hplain.1, if_neg hplain.2, if_neg hprintable]

theorem jsonChar_ne_nil (c : Char) : jsonChar c ≠ [] := by
  unfold jsonChar
  repeat' split
  all_goals exact List.cons_ne_nil _ _

theorem readText_encode (t : List Char) (fuel : Nat) (h : t.length < fuel) (rest : List Char) :
    readText fuel (t.flatMap jsonChar ++ '"' :: rest) = some (t, rest) := by
  induction t generalizing fuel with
  | nil =>
    obtain ⟨fuel, rfl⟩ := Nat.exists_eq_add_of_lt h
    rfl
  | cons c t ih =>
    obtain ⟨fuel, rfl⟩ : ∃ k, fuel = k + 1 := ⟨fuel - 1, by omega⟩
    rw [List.flatMap_cons, List.append_assoc, readText_jsonChar,
      ih fuel (by simpa using h)]
    rfl

theorem length_le_flatMap (t : List Char) : t.length ≤ (t.flatMap jsonChar).length := by
  induction t with
  | nil => exact Nat.zero_le _
  | cons c t ih =>
    have := List.length_pos_iff.mpr (jsonChar_ne_nil c)
    rw [List.flatMap_cons, List.length_append, List.length_cons]
    omega

theorem readText_quoted (t : String) (rest : List Char) :
    readText ((t.toList.flatMap jsonChar ++ ['"'] ++ rest).length + 1)
      (t.toList.flatMap jsonChar ++ ['"'] ++ rest) = some (t.toList, rest) := by
  have hlength := length_le_flatMap t.toList
  rw [List.append_assoc]
  refine readText_encode t.toList _ ?_ rest
  rw [List.length_append]
  omega

/-! ## Keys -/

theorem skipBlanks_cons {c : Char} (h : isBlank c = false) (rest : List Char) :
    skipBlanks (c :: rest) = c :: rest := by
  unfold skipBlanks
  rw [List.dropWhile_cons, if_neg (by simp [h])]

theorem readKey_encode (key : String) (rest : List Char) :
    readKey (encodeText key ++ ':' :: rest) = some (key, rest) := by
  have hquoted := readText_quoted key (':' :: rest)
  unfold readKey encodeText
  generalize key.toList.flatMap jsonChar = t at hquoted ⊢
  rw [List.cons_append, skipBlanks_cons (by decide)]
  show (match readText ((t ++ ['"'] ++ ':' :: rest).length + 1) (t ++ ['"'] ++ ':' :: rest) with
    | none => none
    | some (key, rest) =>
      match skipBlanks rest with
      | ':' :: rest => some (String.ofList key, rest)
      | _ => none) = _
  rw [hquoted]
  show (match skipBlanks (':' :: rest) with
    | ':' :: rest => some (String.ofList key.toList, rest)
    | _ => none) = _
  rw [skipBlanks_cons (by decide), String.ofList_toList]
  rfl

theorem put_of_notMem {key : String} {value : Json V} {entries : Entries V}
    (h : key ∉ entries.map Prod.fst) : put key value entries = entries ++ [(key, value)] := by
  induction entries with
  | nil => rfl
  | cons entry rest ih =>
    rw [List.map_cons, List.mem_cons, not_or] at h
    unfold put
    rw [if_neg (Ne.symm h.1), ih h.2]
    rfl

theorem collect_eq {entries : Entries V} (h : (entries.map Prod.fst).Nodup) :
    collect entries = entries := by
  have hfold : ∀ (rest before : Entries V), ((before ++ rest).map Prod.fst).Nodup →
      rest.foldl (fun read entry => put entry.1 entry.2 read) before = before ++ rest := by
    intro rest
    induction rest with
    | nil =>
      intro before _
      rw [List.append_nil]
      rfl
    | cons entry rest ih =>
      intro before hnodup
      have hnew : entry.1 ∉ before.map Prod.fst := by
        rw [List.map_append, List.nodup_append] at hnodup
        intro hmem
        exact hnodup.2.2 _ hmem _ (by simp) rfl
      rw [List.foldl_cons, put_of_notMem hnew, ih, List.append_assoc]
      · rfl
      · rwa [List.append_assoc]
  exact hfold entries [] h

/-! ## Values -/

mutual

/-- The maps at every depth of a value have distinct keys. -/
def Json.Distinct : Json V → Prop
  | .map entries => (entries.map Prod.fst).Nodup ∧ DistinctEntries entries
  | .list items => DistinctItems items
  | _ => True

/-- The values of the entries have. -/
def DistinctEntries : Entries V → Prop
  | [] => True
  | (_, value) :: entries => value.Distinct ∧ DistinctEntries entries

def DistinctItems : List (Json V) → Prop
  | [] => True
  | item :: items => item.Distinct ∧ DistinctItems items

end

theorem encodeValue_head (D : Doubles V) (value : Json V) :
    ∃ c rest, encodeValue D value = c :: rest ∧ isBlank c = false ∧ c ≠ ']' := by
  have hnumeral : ∀ token : List Char, token ≠ [] → (∀ c ∈ token, isNumeralChar c = true) →
      ∃ c rest, token = c :: rest ∧ isBlank c = false ∧ c ≠ ']' := by
    intro token hne hchars
    obtain ⟨c, rest, rfl⟩ := List.exists_cons_of_ne_nil hne
    have hc := hchars c List.mem_cons_self
    refine ⟨c, rest, rfl, isBlank_of_numeral hc, ?_⟩
    rintro rfl
    exact absurd hc (by decide)
  cases value with
  | null => exact ⟨'n', _, rfl, by decide, by decide⟩
  | bool b =>
    cases b with
    | true => exact ⟨'t', _, rfl, by decide, by decide⟩
    | false => exact ⟨'f', _, rfl, by decide, by decide⟩
  | int n => exact hnumeral _ (intText_ne_nil n) (isNumeralChar_intText n)
  | text t => exact ⟨'"', _, rfl, by decide, by decide⟩
  | other v => exact hnumeral _ (D.nonempty v) (D.numeral v)
  | list items => cases items <;> exact ⟨'[', _, rfl, by decide, by decide⟩
  | map entries => cases entries <;> exact ⟨'\x7b', _, rfl, by decide, by decide⟩

theorem ends_encodeItems (D : Doubles V) (items : List (Json V)) (rest : List Char) :
    Ends (encodeItems D items ++ rest) := by
  intro c hc
  cases items with
  | nil =>
    obtain rfl : ']' = c := Option.some.inj hc
    decide
  | cons item items =>
    obtain rfl : ',' = c := Option.some.inj hc
    decide

theorem ends_encodeEntries (D : Doubles V) (entries : Entries V) (rest : List Char) :
    Ends (encodeEntries D entries ++ rest) := by
  intro c hc
  cases entries with
  | nil =>
    obtain rfl : '\x7d' = c := Option.some.inj hc
    decide
  | cons entry entries =>
    obtain rfl : ',' = c := Option.some.inj hc
    decide

theorem readValue_numeral (D : Doubles V) {fuel : Nat} {token rest : List Char} {value : Json V}
    (hne : token ≠ []) (hchars : ∀ c ∈ token, isNumeralChar c = true) (hrest : Ends rest)
    (hread : readNumeral D token = some value) :
    readValue D (fuel + 1) (token ++ rest) = some (value, rest) := by
  have htake := takeWhile_numeral hchars hrest
  have hdrop := dropWhile_numeral hchars hrest
  obtain ⟨c, tail, rfl⟩ := List.exists_cons_of_ne_nil hne
  have hc := hchars c List.mem_cons_self
  have hnot : ∀ d : Char, isNumeralChar d = false → c ≠ d := by
    rintro d hd rfl
    rw [hc] at hd
    cases hd
  rw [List.cons_append] at htake hdrop ⊢
  unfold readValue
  rw [skipBlanks_cons (isBlank_of_numeral hc)]
  dsimp only
  rw [if_neg (hnot _ (by decide)), if_neg (hnot _ (by decide)), if_neg (hnot _ (by decide)),
    if_pos hc, htake, hdrop, hread]
  rfl

mutual

theorem readValue_encode (D : Doubles V) : ∀ value : Json V, value.Distinct →
    ∀ (fuel : Nat) (rest : List Char), (encodeValue D value).length ≤ fuel → Ends rest →
      readValue D fuel (encodeValue D value ++ rest) = some (value, rest)
  | .null, _, fuel + 1, rest, _, _ => rfl
  | .bool true, _, fuel + 1, rest, _, _ => rfl
  | .bool false, _, fuel + 1, rest, _, _ => rfl
  | .int n, _, fuel + 1, rest, _, hrest =>
    readValue_numeral D (intText_ne_nil n) (isNumeralChar_intText n) hrest
      (readNumeral_intText D n)
  | .other v, _, fuel + 1, rest, _, hrest =>
    readValue_numeral D (D.nonempty v) (D.numeral v) hrest (readNumeral_toText D v)
  | .text t, _, fuel + 1, rest, _, _ => by
    have hquoted := readText_quoted t rest
    unfold encodeValue encodeText readValue
    rw [List.cons_append, skipBlanks_cons (by decide)]
    dsimp only
    rw [if_pos rfl, hquoted, Option.map_some, String.ofList_toList]
  | .list [], _, fuel + 1, rest, _, _ => rfl
  | .list (item :: items), hdistinct, fuel + 1, rest, hfuel, _ => by
    have hlength : (encodeValue D item).length + (encodeItems D items).length ≤ fuel := by
      simpa [encodeValue] using hfuel
    have hitem := readValue_encode D item hdistinct.1 fuel (encodeItems D items ++ rest)
      (by omega) (ends_encodeItems D items rest)
    have hitems := readItems_encode D items hdistinct.2 fuel rest (by omega)
    obtain ⟨c, tail, hhead, hblank, hclose⟩ := encodeValue_head D item
    unfold encodeValue readValue
    rw [List.cons_append, List.append_assoc, skipBlanks_cons (by decide)]
    dsimp only
    rw [if_neg (by decide), if_pos rfl]
    rw [hhead, List.cons_append] at hitem ⊢
    rw [skipBlanks_cons hblank]
    split
    · rename_i heq
      exact absurd (List.cons.inj heq).1 hclose
    · rw [hitem]
      dsimp only
      rw [hitems]
      rfl
  | .map [], _, fuel + 1, rest, _, _ => rfl
  | .map ((key, value) :: entries), hdistinct, fuel + 1, rest, hfuel, _ => by
    have hlength : (encodeValue D value).length + (encodeEntries D entries).length ≤ fuel := by
      simp only [encodeValue, List.length_cons, List.length_append] at hfuel
      omega
    have hvalue := readValue_encode D value hdistinct.2.1 fuel (encodeEntries D entries ++ rest)
      (by omega) (ends_encodeEntries D entries rest)
    have hentries := readEntries_encode D entries hdistinct.2.2 fuel rest (by omega)
    have hkey := readKey_encode key (encodeValue D value ++ (encodeEntries D entries ++ rest))
    unfold encodeValue readValue
    rw [List.cons_append, List.append_assoc, List.cons_append, List.append_assoc,
      skipBlanks_cons (by decide)]
    dsimp only
    rw [if_neg (by decide), if_neg (by decide), if_pos rfl]
    have hquote : skipBlanks (encodeText key ++ ':' :: (encodeValue D value ++
        (encodeEntries D entries ++ rest))) = encodeText key ++ ':' :: (encodeValue D value ++
        (encodeEntries D entries ++ rest)) := skipBlanks_cons (by decide) _
    rw [hquote]
    split
    · rename_i heq
      exact absurd (List.cons.inj heq).1 (by decide)
    · rw [hkey]
      dsimp only
      rw [hvalue]
      dsimp only
      rw [hentries, Option.map_some, collect_eq hdistinct.1]
  | value, _, 0, rest, hfuel, _ => by
    obtain ⟨c, tail, h, -⟩ := encodeValue_head D value
    rw [h] at hfuel
    cases hfuel

theorem readItems_encode (D : Doubles V) : ∀ items : List (Json V), DistinctItems items →
    ∀ (fuel : Nat) (rest : List Char), (encodeItems D items).length ≤ fuel →
      readItems D fuel (encodeItems D items ++ rest) = some (items, rest)
  | [], _, fuel + 1, rest, _ => rfl
  | item :: items, hdistinct, fuel + 1, rest, hfuel => by
    have hlength : (encodeValue D item).length + (encodeItems D items).length ≤ fuel := by
      simpa [encodeItems] using hfuel
    have hitem := readValue_encode D item hdistinct.1 fuel (encodeItems D items ++ rest)
      (by omega) (ends_encodeItems D items rest)
    have hitems := readItems_encode D items hdistinct.2 fuel rest (by omega)
    unfold encodeItems readItems
    rw [List.cons_append, List.append_assoc, skipBlanks_cons (by decide)]
    show (match readValue D fuel (encodeValue D item ++ (encodeItems D items ++ rest)) with
      | none => none
      | some (item, rest) => (readItems D fuel rest).map fun p : List (Json V) × List Char =>
        (item :: p.1, p.2)) = _
    rw [hitem]
    dsimp only
    rw [hitems]
    rfl
  | items, _, 0, rest, hfuel => by
    cases items with
    | nil => cases hfuel
    | cons => cases hfuel

theorem readEntries_encode (D : Doubles V) : ∀ entries : Entries V, DistinctEntries entries →
    ∀ (fuel : Nat) (rest : List Char), (encodeEntries D entries).length ≤ fuel →
      readEntries D fuel (encodeEntries D entries ++ rest) = some (entries, rest)
  | [], _, fuel + 1, rest, _ => rfl
  | (key, value) :: entries, hdistinct, fuel + 1, rest, hfuel => by
    have hlength : (encodeValue D value).length + (encodeEntries D entries).length ≤ fuel := by
      simp only [encodeEntries, List.length_cons, List.length_append] at hfuel
      omega
    have hvalue := readValue_encode D value hdistinct.1 fuel (encodeEntries D entries ++ rest)
      (by omega) (ends_encodeEntries D entries rest)
    have hentries := readEntries_encode D entries hdistinct.2 fuel rest (by omega)
    have hkey := readKey_encode key (encodeValue D value ++ (encodeEntries D entries ++ rest))
    unfold encodeEntries readEntries
    rw [List.cons_append, List.append_assoc, List.cons_append, List.append_assoc,
      skipBlanks_cons (by decide)]
    show (match readKey (encodeText key ++ ':' :: (encodeValue D value ++
        (encodeEntries D entries ++ rest))) with
      | none => none
      | some (key, rest) =>
        match readValue D fuel rest with
        | none => none
        | some (value, rest) => (readEntries D fuel rest).map fun p : Entries V × List Char =>
          ((key, value) :: p.1, p.2)) = _
    rw [hkey]
    dsimp only
    rw [hvalue]
    dsimp only
    rw [hentries]
    rfl
  | entries, _, 0, rest, hfuel => by
    cases entries with
    | nil => cases hfuel
    | cons => cases hfuel

end

theorem jsonDecode_jsonEncode (D : Doubles V) {value : Json V} (h : value.Distinct) :
    jsonDecode D (jsonEncode D value) = some value := by
  have hread := readValue_encode D value h ((encodeValue D value).length + 1) [] (by omega)
    (by intro c hc; cases hc)
  rw [List.append_nil] at hread
  unfold jsonDecode jsonEncode
  rw [String.toList_ofList, hread]
  rfl

theorem jsonEncode_inj (D : Doubles V) {v w : Json V} (hv : v.Distinct) (hw : w.Distinct) :
    jsonEncode D v = jsonEncode D w ↔ v = w := by
  refine ⟨fun h => ?_, congrArg _⟩
  have hread := jsonDecode_jsonEncode D hv
  rw [h, jsonDecode_jsonEncode D hw] at hread
  exact (Option.some.inj hread).symm

end PlugAgente.Wire
