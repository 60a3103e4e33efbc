import Mathlib.Tactic

/-!
# Arguments of a command line

How a C runtime on Windows splits the command line of a process: the name of the program, then
arguments that blanks and tabs separate, with quotes around what is not to be split and
backslashes in front of quotes.  Runtimes differ in whether a quote that follows the closing one
stands for a quote; `doubled` says that it does.

`parseArguments_join` says how to write a list of arguments so that it is read back: it is enough
that each is written so that it is read back alone, from between two arguments.

Nothing here mentions the agent.
-/

namespace PlugAgente.Windows

/-! ## Reading the arguments -/

/-- What separates two arguments. -/
def isBlank (c : Char) : Bool := c == ' ' || c == '\t'

/-- Where the reader is with respect to the quotes; `closing` is behind a quote that may turn out
to be doubled. -/
inductive Quoting where
  | outside
  | inside
  | closing
  deriving DecidableEq, Repr

/-- An argument that is being read, with the backslashes at its end that were not looked at
yet. -/
structure Argument where
  text : List Char := []
  slashes : Nat := 0
  quoting : Quoting := .outside
  deriving DecidableEq, Repr

namespace Argument

/-- The argument, if it ends here. -/
def value (a : Argument) : List Char := a.text ++ List.replicate a.slashes '\\'

/-- A quote that may have been the first one of two was not. -/
def leave : Quoting → Quoting
  | .closing => .outside
  | quoting => quoting

/-- One more character of an argument. -/
def read (doubled : Bool) (a : Argument) (c : Char) : Argument :=
  if c == '\\' then { a with slashes := a.slashes + 1, quoting := leave a.quoting }
  else if c == '"' then
    if a.quoting = .closing then ⟨a.value ++ ['"'], 0, .inside⟩
    else if a.slashes % 2 = 1 then
      ⟨a.text ++ List.replicate (a.slashes / 2) '\\' ++ ['"'], 0, a.quoting⟩
    else
      ⟨a.text ++ List.replicate (a.slashes / 2) '\\', 0,
        match a.quoting with
        | .inside => if doubled then .closing else .outside
        | _ => .inside⟩
  else ⟨a.value ++ [c], 0, leave a.quoting⟩

end Argument

/-- The arguments that were read, and the one that is being read. -/
structure Argv where
  done : List (List Char) := []
  current : Option Argument := none
  deriving DecidableEq, Repr

namespace Argv

/-- One more character of the command line. -/
def read (doubled : Bool) (s : Argv) (c : Char) : Argv :=
  match s.current with
  | none => if isBlank c then s else { s with current := some (Argument.read doubled {} c) }
  | some a =>
    if isBlank c && a.quoting != .inside then ⟨s.done ++ [a.value], none⟩
    else { s with current := some (a.read doubled c) }

/-- The arguments, if the command line ends here. -/
def arguments (s : Argv) : List (List Char) := s.done ++ (s.current.map Argument.value).toList

end Argv

def parseArguments (doubled : Bool) (line : List Char) : List (List Char) :=
  (line.foldl (Argv.read doubled) {}).arguments

/-! ## The command line -/

def nul : Char := Char.ofNat 0

/-- A string of C ends at the first zero. -/
def cString (line : List Char) : List Char := line.takeWhile fun c => c != nul

/-- The name of the program is what is between two quotes, or what is in front of a blank. -/
def parseProgram : List Char → List Char × List Char
  | [] => ([], [])
  | c :: rest =>
    if c == '"' then
      (rest.takeWhile fun d => d != '"', (rest.dropWhile fun d => d != '"').drop 1)
    else
      ((c :: rest).takeWhile fun d => !isBlank d, (c :: rest).dropWhile fun d => !isBlank d)

/-- The name of the program and its arguments. -/
def parseCommandLine (doubled : Bool) (line : List Char) : List Char × List (List Char) :=
  let (program, rest) := parseProgram (cString line)
  (program, parseArguments doubled rest)

/-! ## Arguments that are read back -/

section Read

variable {doubled : Bool} {done : List (List Char)} {text : List Char} {slashes : Nat}
  {quoting : Quoting} {c : Char}

/-- The arguments are read, and no quote is open. -/
def Argv.Ends (s : Argv) (arguments : List (List Char)) : Prop :=
  s.arguments = arguments ∧ ∀ a, s.current = some a → a.quoting ≠ .inside

/-- What is written is read as one argument, from between two arguments. -/
def Writes (doubled : Bool) (written argument : List Char) : Prop :=
  ∀ done, (written.foldl (Argv.read doubled) ⟨done, none⟩).Ends (done ++ [argument])

theorem Argv.Ends.blank (doubled : Bool) {s : Argv} {arguments : List (List Char)}
    (h : s.Ends arguments) (hc : isBlank c = true) : s.read doubled c = ⟨arguments, none⟩ := by
  obtain ⟨harguments, hclosed⟩ := h
  obtain ⟨done, current⟩ := s
  cases current with
  | none =>
    unfold Argv.read
    simp only [hc, if_true]
    rw [← harguments]
    simp [Argv.arguments]
  | some a =>
    have hne := hclosed a rfl
    unfold Argv.read
    simp only [hc, Bool.true_and, bne_iff_ne, ne_eq, hne, not_false_eq_true, if_true]
    rw [← harguments]
    rfl

theorem foldl_join {written arguments : List (List Char)}
    (h : List.Forall₂ (Writes doubled) written arguments) (hne : written ≠ [])
    (done : List (List Char)) :
    (([' '].intercalate written).foldl (Argv.read doubled) ⟨done, none⟩).Ends
      (done ++ arguments) := by
  induction h generalizing done with
  | nil => exact absurd rfl hne
  | @cons w a ws args hw hrest ih =>
    cases hrest with
    | nil =>
      rw [List.intercalate_singleton]
      exact hw done
    | @cons w' a' ws' args' hw' hrest' =>
      have hblank := Argv.Ends.blank doubled (hw done) (c := ' ') rfl
      have hnext := ih (List.cons_ne_nil w' ws') (done ++ [a])
      rw [List.intercalate_cons_of_ne_nil (List.cons_ne_nil w' ws'), List.foldl_append,
        List.foldl_append, List.foldl_cons, List.foldl_nil, hblank]
      rwa [List.append_assoc] at hnext

theorem parseArguments_join {written arguments : List (List Char)}
    (h : List.Forall₂ (Writes doubled) written arguments) :
    parseArguments doubled ([' '].intercalate written) = arguments := by
  cases h with
  | nil => rfl
  | cons hw hrest => exact (foldl_join (.cons hw hrest) (List.cons_ne_nil _ _) []).1

/-! ## One character at a time -/

theorem read_start (hblank : isBlank c = false) :
    Argv.read doubled ⟨done, none⟩ c = ⟨done, some (Argument.read doubled {} c)⟩ := by
  unfold Argv.read
  simp [hblank]

theorem read_inside (hc : c ≠ '\\') (hquote : c ≠ '"') :
    Argv.read doubled ⟨done, some ⟨text, slashes, .inside⟩⟩ c =
      ⟨done, some ⟨text ++ List.replicate slashes '\\' ++ [c], 0, .inside⟩⟩ := by
  unfold Argv.read Argument.read Argument.value Argument.leave
  simp [hc, hquote]

theorem read_outside (doubled : Bool) (done : List (List Char)) (hblank : isBlank c = false)
    (hquote : c ≠ '"') (a : Argument) (ha : a.quoting = .outside) :
    ∃ b, Argv.read doubled ⟨done, some a⟩ c = ⟨done, some b⟩ ∧ b.quoting = .outside ∧
      b.value = a.value ++ [c] := by
  unfold Argv.read Argument.read
  simp only [hblank, Bool.false_and, Bool.false_eq_true, if_false]
  by_cases hc : c = '\\'
  · refine ⟨_, rfl, ?_, ?_⟩
    · simp [hc, ha, Argument.leave]
    · simp [hc, Argument.value, List.replicate_succ']
  · refine ⟨_, rfl, ?_, ?_⟩
    · simp [hc, hquote, ha, Argument.leave]
    · simp [hc, hquote, Argument.value]

theorem read_slashes (hquoting : quoting ≠ .closing) (count : Nat) :
    (List.replicate count '\\').foldl (Argv.read doubled) ⟨done, some ⟨text, slashes, quoting⟩⟩ =
      ⟨done, some ⟨text, slashes + count, quoting⟩⟩ := by
  induction count generalizing slashes with
  | zero => rfl
  | succ count ih =>
    have hleave : Argument.leave quoting = quoting := by
      cases quoting <;> first | rfl | exact absurd rfl hquoting
    have hread : Argv.read doubled ⟨done, some ⟨text, slashes, quoting⟩⟩ '\\' =
        ⟨done, some ⟨text, slashes + 1, quoting⟩⟩ := by
      unfold Argv.read Argument.read
      simp [isBlank, hleave]
    rw [List.replicate_succ, List.foldl_cons, hread, ih]
    congr 3
    omega

/-- An odd number of backslashes makes a quote a character. -/
theorem read_escaped (count : Nat) :
    Argv.read doubled ⟨done, some ⟨text, 2 * count + 1, .inside⟩⟩ '"' =
      ⟨done, some ⟨text ++ List.replicate count '\\' ++ ['"'], 0, .inside⟩⟩ := by
  have hodd : (2 * count + 1) % 2 = 1 := by omega
  have hhalf : (2 * count + 1) / 2 = count := by omega
  unfold Argv.read Argument.read
  simp [isBlank, hodd, hhalf]

/-- An even number of backslashes leaves it a delimiter. -/
theorem read_closing (count : Nat) :
    Argv.read doubled ⟨done, some ⟨text, 2 * count, .inside⟩⟩ '"' =
      ⟨done, some ⟨text ++ List.replicate count '\\', 0,
        if doubled then .closing else .outside⟩⟩ := by
  have heven : 2 * count % 2 = 0 := by omega
  have hhalf : 2 * count / 2 = count := by omega
  unfold Argv.read Argument.read
  simp [isBlank, heven, hhalf]

theorem writes_self {argument : List Char} (hne : argument ≠ [])
    (hplain : ∀ c ∈ argument, isBlank c = false ∧ c ≠ '"') : Writes doubled argument argument := by
  have hmore : ∀ (rest : List Char) (done : List (List Char)) (a : Argument),
      a.quoting = .outside → (∀ c ∈ rest, isBlank c = false ∧ c ≠ '"') →
      (rest.foldl (Argv.read doubled) ⟨done, some a⟩).Ends (done ++ [a.value ++ rest]) := by
    intro rest done
    induction rest with
    | nil =>
      intro a ha _
      rw [List.append_nil]
      refine ⟨rfl, ?_⟩
      rintro b hb hinside
      cases hb
      rw [ha] at hinside
      cases hinside
    | cons c rest ih =>
      intro a ha hall
      rw [List.forall_mem_cons] at hall
      obtain ⟨b, hread, hb, hvalue⟩ := read_outside doubled done
        hall.1.1 hall.1.2 a ha
      have hrest := ih b hb hall.2
      rw [hvalue, List.append_assoc] at hrest
      rw [List.foldl_cons, hread]
      exact hrest
  intro done
  cases argument with
  | nil => exact absurd rfl hne
  | cons c rest =>
    rw [List.forall_mem_cons] at hplain
    obtain ⟨b, hread, hb, hvalue⟩ := read_outside doubled done
      hplain.1.1 hplain.1.2 {} rfl
    have hstart : Argv.read doubled ⟨done, none⟩ c = ⟨done, some b⟩ := by
      rw [read_start hplain.1.1, ← hread]
      unfold Argv.read
      simp [hplain.1.1]
    have hrest := hmore rest done b hb hplain.2
    rw [hvalue] at hrest
    rw [List.foldl_cons, hstart]
    exact hrest

end Read

end PlugAgente.Windows
