import PlugAgente.Dart.Text

/-!
# Inline commands of PowerShell

`PowerShellCommandLine`: a command is saved in quotes behind the name of a PowerShell, with a
caret in front of quotes and carets, and read back when it is edited.  The pattern of
`tryParseInlineCommand` takes the longest command that a quote and blanks follow.

`parse_wrap` says that what is saved is read back, and `saveAgain_iterate` that a command that was
saved once is never changed by saving it again.
-/

namespace PlugAgente.Windows

open PlugAgente.Dart

structure PowerShellInlineCommand where
  executable : Text
  command : Text
  deriving DecidableEq, Repr

namespace PowerShellCommandLine

def windowsPowerShellExecutable : Text := "powershell.exe".toList

def powerShell7Executable : Text := "pwsh.exe".toList

/-- The executables that the form offers. -/
def supported : List Text := [windowsPowerShellExecutable, powerShell7Executable]

/-! ## Saving a command -/

/-- The loop of `_quoteForCmd`. -/
def escapeForCmd : Text → Text
  | [] => []
  | character :: rest =>
    (if character == '^' then ['^', '^'] else if character == '"' then ['^', '"']
      else [character]) ++ escapeForCmd rest

def quoteForCmd (value : Text) : Text := ['"'] ++ escapeForCmd value ++ ['"']

def wrapInlineCommand (command executable : Text) : Text :=
  executable ++ " -NoProfile -ExecutionPolicy Bypass -Command ".toList ++
    quoteForCmd (trim command)

/-! ## Reading it back -/

def unescapeCmdQuoted : Text → Text
  | '^' :: '^' :: rest => '^' :: unescapeCmdQuoted rest
  | '^' :: '"' :: rest => '"' :: unescapeCmdQuoted rest
  | character :: rest => character :: unescapeCmdQuoted rest
  | [] => []

def isPowerShell7Executable (cm : CaseMap) (executable : Text) : Bool :=
  let normalized :=
    cm.toLowerCase ((trim executable).map fun c => if c == '/' then '\\' else c)
  normalized == "pwsh".toList || normalized == powerShell7Executable ||
    "\\pwsh.exe".toList.isSuffixOf normalized

def normalizeExecutable (cm : CaseMap) (executable : Text) : Text :=
  if isPowerShell7Executable cm executable then powerShell7Executable
  else windowsPowerShellExecutable

/-- The pattern `\s*`, in front of what is no blank. -/
def skipSpaces (s : Text) : Text := s.dropWhile isRegExpWhitespace

/-- The pattern `\s+`, in front of what is no blank. -/
def spaces : Text → Option Text
  | [] => none
  | c :: rest => if isRegExpWhitespace c then some (skipSpaces rest) else none

/-- A word of the pattern, in lower case; capital letters of ASCII match too. -/
def word (w s : Text) : Option Text :=
  if (s.take w.length).map Char.toLower == w then some (s.drop w.length) else none

/-- One of the names in front of the options, and what follows it.  The ending may be left out,
and what follows is a blank. -/
def executableName (s : Text) : Option (Text × Text) := do
  let rest ← word "powershell".toList s <|> word "pwsh".toList s
  let rest := (word ".exe".toList rest).getD rest
  some (s.take (s.length - rest.length), rest)

/-- The pattern `"(.*)"\s*$`, which takes the last quote. -/
def quotedToEnd (s : Text) : Option Text := do
  let s ← word ['"'] s
  let s := s.rdropWhile isRegExpWhitespace
  if s.getLast? == some '"' then some s.dropLast else none

/-- The match of the pattern, with its two groups. -/
def inlineMatch (command : Text) : Option (Text × Text) := do
  let (name, rest) ← executableName (skipSpaces command)
  let rest ← spaces rest
  let rest ← word "-noprofile".toList rest
  let rest ← spaces rest
  let rest ← word "-executionpolicy".toList rest
  let rest ← spaces rest
  let rest ← word "bypass".toList rest
  let rest ← spaces rest
  let rest ← word "-command".toList rest
  let rest ← spaces rest
  let body ← quotedToEnd rest
  some (name, body)

def tryParseInlineCommand (cm : CaseMap) (command : Text) : Option PowerShellInlineCommand :=
  (inlineMatch command).map fun groups =>
    ⟨normalizeExecutable cm groups.1, unescapeCmdQuoted groups.2⟩

/-- A command that is opened in the form and saved as it is. -/
def saveAgain (cm : CaseMap) (line : Text) : Text :=
  match tryParseInlineCommand cm line with
  | some parsed => wrapInlineCommand parsed.command parsed.executable
  | none => line

/-! ## The round trip -/

section RoundTrip

variable {cm : CaseMap}

theorem unescape_escape (value : Text) : unescapeCmdQuoted (escapeForCmd value) = value := by
  induction value with
  | nil => rfl
  | cons character rest ih =>
    unfold escapeForCmd
    by_cases hcaret : character = '^'
    · subst hcaret
      show '^' :: unescapeCmdQuoted (escapeForCmd rest) = _
      rw [ih]
    · by_cases hquote : character = '"'
      · subst hquote
        show '"' :: unescapeCmdQuoted (escapeForCmd rest) = _
        rw [ih]
      · have hplain : ∀ s : Text, unescapeCmdQuoted (character :: s) =
            character :: unescapeCmdQuoted s := by
          intro s
          rw [unescapeCmdQuoted.eq_def]
          split
          · rename_i heq
            cases heq
            exact absurd rfl hcaret
          · rename_i heq
            cases heq
            exact absurd rfl hcaret
          · rename_i heq
            cases heq
            rfl
          · rename_i heq
            cases heq
        rw [if_neg (by simpa using hcaret), if_neg (by simpa using hquote), List.singleton_append,
          hplain, ih]

theorem quotedToEnd_quoteForCmd (value : Text) :
    quotedToEnd (quoteForCmd value) = some (escapeForCmd value) := by
  have hopen : word ['"'] (quoteForCmd value) = some (escapeForCmd value ++ ['"']) := rfl
  have hend : (escapeForCmd value ++ ['"']).rdropWhile isRegExpWhitespace =
      escapeForCmd value ++ ['"'] :=
    List.rdropWhile_concat_neg _ _ _ (by decide)
  unfold quotedToEnd
  rw [hopen, Option.bind_eq_bind, Option.bind_some]
  dsimp only
  rw [hend]
  simp

theorem toLowerCase_ascii {s : Text} (h : ∀ c ∈ s, c.toNat < 128) :
    cm.toLowerCase s = s.map Char.toLower :=
  List.map_congr_left fun c hc => cm.lower_ascii c (h c hc)

theorem normalizeExecutable_supported {executable : Text} (h : executable ∈ supported) :
    normalizeExecutable cm executable = executable := by
  unfold supported at h
  simp only [List.mem_cons, List.not_mem_nil, or_false] at h
  unfold normalizeExecutable isPowerShell7Executable
  rcases h with rfl | rfl
  · rw [toLowerCase_ascii (by decide)]
    rfl
  · rw [toLowerCase_ascii (by decide)]
    rfl

theorem supported_normalizeExecutable (cm : CaseMap) (executable : Text) :
    normalizeExecutable cm executable ∈ supported := by
  unfold normalizeExecutable supported
  split <;> simp

theorem word_append {w t : Text} (h : t.map Char.toLower = w) (rest : Text) :
    word w (t ++ rest) = some rest := by
  have hlength : t.length = w.length := by rw [← h, List.length_map]
  unfold word
  rw [← hlength, List.take_left, List.drop_left, h, beq_self_eq_true, if_pos rfl]

theorem spaces_word {w t : Text} (hne : t ≠ []) (hhead : ∀ c ∈ t, isRegExpWhitespace c = false)
    (h : t.map Char.toLower = w) (rest : Text) :
    (spaces (' ' :: (t ++ rest))).bind (word w) = some rest := by
  have hspaces : spaces (' ' :: (t ++ rest)) = some (t ++ rest) := by
    cases t with
    | nil => exact absurd rfl hne
    | cons c t =>
      show some (skipSpaces (c :: (t ++ rest))) = some (c :: (t ++ rest))
      unfold skipSpaces
      rw [List.dropWhile_cons_of_neg (by simp [hhead c List.mem_cons_self])]
  rw [hspaces, Option.bind_some, word_append h]

/-- The options of a command that was saved, in front of what is in quotes. -/
def options (quoted : Text) : Text :=
  ' ' :: ("-NoProfile".toList ++ ' ' :: ("-ExecutionPolicy".toList ++
    ' ' :: ("Bypass".toList ++ ' ' :: ("-Command".toList ++ ' ' :: quoted))))

theorem executableName_of_word (name : Text) {rest : Text}
    (hword : (word "powershell".toList (name ++ ".exe".toList ++ rest) <|>
      word "pwsh".toList (name ++ ".exe".toList ++ rest)) = some (".exe".toList ++ rest)) :
    executableName (name ++ ".exe".toList ++ rest) = some (name ++ ".exe".toList, rest) := by
  have hending : word ".exe".toList (".exe".toList ++ rest) = some rest :=
    word_append (by decide) rest
  have hlength : (name ++ ".exe".toList ++ rest).length - rest.length =
      (name ++ ".exe".toList).length := by
    rw [List.length_append, Nat.add_sub_cancel]
  unfold executableName
  rw [hword]
  simp only [Option.bind_eq_bind, Option.bind_some, hending, Option.getD_some]
  rw [hlength, List.take_left]

theorem executableName_supported {executable : Text} (h : executable ∈ supported)
    (quoted : Text) :
    executableName (skipSpaces (executable ++ options quoted)) =
      some (executable, options quoted) := by
  unfold supported at h
  simp only [List.mem_cons, List.not_mem_nil, or_false] at h
  rcases h with rfl | rfl
  · exact executableName_of_word "powershell".toList rfl
  · exact executableName_of_word "pwsh".toList rfl

theorem inlineMatch_wrap (command : Text) {executable : Text} (h : executable ∈ supported) :
    inlineMatch (wrapInlineCommand command executable) =
      some (executable, escapeForCmd (trim command)) := by
  have hwrap : wrapInlineCommand command executable =
      executable ++ options (quoteForCmd (trim command)) :=
    List.append_assoc _ _ _
  have hquoted : (spaces (' ' :: quoteForCmd (trim command))).bind quotedToEnd =
      some (escapeForCmd (trim command)) := quotedToEnd_quoteForCmd (trim command)
  unfold inlineMatch
  rw [hwrap, executableName_supported h, options]
  simp only [Option.bind_eq_bind, Option.bind_some]
  rw [← Option.bind_assoc, spaces_word (by decide) (by decide) (by decide), Option.bind_some,
    ← Option.bind_assoc, spaces_word (by decide) (by decide) (by decide), Option.bind_some,
    ← Option.bind_assoc, spaces_word (by decide) (by decide) (by decide), Option.bind_some,
    ← Option.bind_assoc, spaces_word (by decide) (by decide) (by decide), Option.bind_some,
    ← Option.bind_assoc, hquoted, Option.bind_some]

theorem parse_wrap (command : Text) {executable : Text} (h : executable ∈ supported) :
    tryParseInlineCommand cm (wrapInlineCommand command executable) =
      some ⟨executable, trim command⟩ := by
  unfold tryParseInlineCommand
  rw [inlineMatch_wrap command h, Option.map_some, normalizeExecutable_supported h,
    unescape_escape]

theorem supported_of_parse {line : Text} {parsed : PowerShellInlineCommand}
    (h : tryParseInlineCommand cm line = some parsed) : parsed.executable ∈ supported := by
  obtain ⟨groups, -, rfl⟩ := Option.map_eq_some_iff.mp h
  exact supported_normalizeExecutable cm groups.1

theorem saveAgain_wrap (command : Text) {executable : Text} (h : executable ∈ supported) :
    saveAgain cm (wrapInlineCommand command executable) =
      wrapInlineCommand command executable := by
  unfold saveAgain
  rw [parse_wrap command h]
  show wrapInlineCommand (trim command) executable = _
  unfold wrapInlineCommand
  rw [trim_trim]

theorem saveAgain_iterate {line : Text} {parsed : PowerShellInlineCommand}
    (h : tryParseInlineCommand cm line = some parsed) (n : Nat) :
    (saveAgain cm)^[n] (wrapInlineCommand parsed.command parsed.executable) =
      wrapInlineCommand parsed.command parsed.executable :=
  Function.iterate_fixed (saveAgain_wrap parsed.command (supported_of_parse h)) n

/-- A command is read back as it was saved, and saving it again leaves it as it is. -/
theorem inlineCommand_roundTrip (cm : CaseMap) :
    (∀ command executable, trim command ≠ [] → executable ∈ supported →
      tryParseInlineCommand cm (wrapInlineCommand command executable) =
        some ⟨executable, trim command⟩) ∧
    ∀ line parsed, tryParseInlineCommand cm line = some parsed →
      tryParseInlineCommand cm (wrapInlineCommand parsed.command parsed.executable) =
        some ⟨parsed.executable, trim parsed.command⟩ ∧
      ∀ n, (saveAgain cm)^[n] (wrapInlineCommand parsed.command parsed.executable) =
        wrapInlineCommand parsed.command parsed.executable :=
  ⟨fun command _ _ h => parse_wrap command h, fun _ parsed h =>
    ⟨parse_wrap parsed.command (supported_of_parse h), saveAgain_iterate h⟩⟩

end RoundTrip

/-- A command that itself looks like one in quotes. -/
theorem inlineCommand_roundTrip_nested :
    tryParseInlineCommand asciiCase
        (wrapInlineCommand " pwsh -Command \"^\"\" ".toList powerShell7Executable) =
      some ⟨powerShell7Executable, trim " pwsh -Command \"^\"\" ".toList⟩ :=
  (inlineCommand_roundTrip asciiCase).1 _ _ (by decide) (by decide)

end PowerShellCommandLine

end PlugAgente.Windows
