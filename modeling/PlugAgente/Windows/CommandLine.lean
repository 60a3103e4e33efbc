import PlugAgente.Dart.Text
import PlugAgente.Windows.Argv

/-!
# The command line of a process

`WindowsCommandLineQuoter`, and `_commandLine` of the silent process, which quotes fewer
arguments.  `commandLine_roundTrip` says that the runtime of the process reads back the program
and the arguments from what either of them writes.
-/

namespace PlugAgente.Windows

open PlugAgente.Dart

/-! ## The quoter -/

namespace WindowsCommandLineQuoter

def needsQuoting (argument : Text) : Bool :=
  argument.getLast? == some '\\' ||
    argument.any fun codeUnit => codeUnit.toNat ≤ 0x20 || codeUnit == '"'

/-- The loop of `quoteArgument`. -/
def quoteLoop : Text → Text
  | [] => []
  | codeUnit :: rest =>
    if codeUnit != '\\' then
      (if codeUnit == '"' then ['\\', '"'] else [codeUnit]) ++ quoteLoop rest
    else
      let backslashCount := 1 + (rest.takeWhile fun c => c == '\\').length
      match hnext : rest.dropWhile fun c => c == '\\' with
      | [] => List.replicate (backslashCount * 2) '\\'
      | next :: after =>
        if next == '"' then
          List.replicate (backslashCount * 2 + 1) '\\' ++ ['"'] ++ quoteLoop after
        else List.replicate backslashCount '\\' ++ quoteLoop (next :: after)
termination_by s => s.length
decreasing_by
  all_goals
    have hle := (List.dropWhile_sublist (fun c => c == '\\') (l := rest)).length_le
    simp_all
    try omega

def quoteArgument (argument : Text) : Text :=
  if argument.isEmpty then ['"', '"']
  else if !needsQuoting argument then argument
  else ['"'] ++ quoteLoop argument ++ ['"']

def joinArguments (arguments : List Text) : Text :=
  [' '].intercalate (arguments.map quoteArgument)

end WindowsCommandLineQuoter

open WindowsCommandLineQuoter

/-- An argument as `_commandLine` writes it. -/
def writeArgument (argument : Text) : Text :=
  if argument.isEmpty || argument.contains ' ' || argument.contains '\t' ||
      argument.contains '"' then
    quoteArgument argument
  else argument

def commandLine (executable : Text) (arguments : List Text) : Text :=
  [' '].intercalate
    ((if executable.contains ' ' && !executable.contains '"' then ['"'] ++ executable ++ ['"']
      else executable) :: arguments.map writeArgument)

/-! ## Arguments in quotes -/

section Quoted

variable {doubled : Bool} {done : List (List Char)}

theorem slashes_append (rest : Text) :
    '\\' :: rest = List.replicate (1 + (rest.takeWhile fun c => c == '\\').length) '\\' ++
      rest.dropWhile fun c => c == '\\' := by
  have hall : rest.takeWhile (fun c => c == '\\') =
      List.replicate (rest.takeWhile fun c => c == '\\').length '\\' := by
    rw [List.eq_replicate_iff]
    refine ⟨rfl, fun c hc => ?_⟩
    simpa using List.mem_takeWhile_imp hc
  rw [Nat.add_comm, List.replicate_succ, ← hall, List.cons_append, List.takeWhile_append_dropWhile]

/-- What the loop writes is read as the argument, up to the quote that closes it.  Backslashes
that are still to be looked at stand in front of a character that makes nothing of them. -/
theorem read_quoteLoop (argument text : Text) (slashes : Nat)
    (hslashes : slashes = 0 ∨ ∃ c rest, argument = c :: rest ∧ c ≠ '\\' ∧ c ≠ '"') :
    (quoteLoop argument ++ ['"']).foldl (Argv.read doubled)
      ⟨done, some ⟨text, slashes, .inside⟩⟩ =
      ⟨done, some ⟨text ++ List.replicate slashes '\\' ++ argument, 0,
        if doubled then .closing else .outside⟩⟩ := by
  fun_induction quoteLoop argument generalizing text slashes with
  | case1 =>
    obtain rfl : slashes = 0 := by simpa using hslashes
    rw [List.nil_append, List.foldl_cons, List.foldl_nil, List.append_nil]
    exact read_closing 0
  | case2 codeUnit rest hne ih =>
    have hslash : codeUnit ≠ '\\' := by simpa using hne
    by_cases hquote : codeUnit = '"'
    · subst hquote
      obtain rfl : slashes = 0 := by simpa using hslashes
      have hescaped : ['\\', '"'].foldl (Argv.read doubled) ⟨done, some ⟨text, 0, .inside⟩⟩ =
          ⟨done, some ⟨text ++ ['"'], 0, .inside⟩⟩ := by
        have hone : Argv.read doubled ⟨done, some ⟨text, 0, .inside⟩⟩ '\\' =
            ⟨done, some ⟨text, 2 * 0 + 1, .inside⟩⟩ := rfl
        rw [List.foldl_cons, hone, List.foldl_cons, List.foldl_nil, read_escaped]
        simp
      rw [if_pos (by rfl), List.append_assoc, List.foldl_append, hescaped, ih _ 0 (.inl rfl)]
      simp
    · rw [if_neg (by simpa using hquote), List.append_assoc, List.foldl_append, List.foldl_cons,
        List.foldl_nil, read_inside hslash hquote, ih _ 0 (.inl rfl)]
      simp
  | case3 codeUnit rest hne count hnil =>
    obtain rfl : codeUnit = '\\' := by simpa using hne
    obtain rfl : slashes = 0 := by simpa using hslashes
    rw [List.foldl_append, read_slashes (by decide), Nat.zero_add, Nat.mul_comm, List.foldl_cons,
      List.foldl_nil, read_closing, slashes_append rest, hnil]
    simp [count]
  | case4 codeUnit rest hne count next after hnext hquote ih =>
    obtain rfl : codeUnit = '\\' := by simpa using hne
    obtain rfl : slashes = 0 := by simpa using hslashes
    obtain rfl : next = '"' := by simpa using hquote
    rw [List.append_assoc, List.append_assoc, List.foldl_append, read_slashes (by decide),
      Nat.zero_add, Nat.mul_comm count 2, List.foldl_append, List.foldl_cons, List.foldl_nil,
      read_escaped, ih _ 0 (.inl rfl), slashes_append rest, hnext]
    simp [count]
  | case5 codeUnit rest hne count next after hnext hquote ih =>
    obtain rfl : codeUnit = '\\' := by simpa using hne
    obtain rfl : slashes = 0 := by simpa using hslashes
    have hother : next ≠ '\\' := by
      have := List.head_dropWhile_not (fun c => c == '\\') (l := rest) (by simp [hnext])
      simpa [hnext] using this
    rw [List.append_assoc, List.foldl_append, read_slashes (by decide), Nat.zero_add,
      ih _ count (.inr ⟨next, after, rfl, hother, by simpa using hquote⟩), slashes_append rest,
      hnext]
    simp [count]

theorem writes_quoted (argument : Text) :
    Writes doubled (['"'] ++ quoteLoop argument ++ ['"']) argument := by
  intro done
  have hopen : Argv.read doubled ⟨done, none⟩ '"' = ⟨done, some ⟨[], 0, .inside⟩⟩ := rfl
  have hread := @read_quoteLoop doubled done argument [] 0 (.inl rfl)
  rw [List.append_assoc, List.singleton_append, List.foldl_cons, hopen, hread]
  refine ⟨by simp [Argv.arguments, Argument.value], ?_⟩
  intro a ha
  cases ha
  show (if doubled = true then Quoting.closing else Quoting.outside) ≠ .inside
  cases doubled <;> decide

theorem isBlank_eq_false {c : Char} (h : ¬ c.toNat ≤ 0x20) : isBlank c = false := by
  have hspace : c ≠ ' ' := fun heq => h (by rw [heq]; decide)
  have htab : c ≠ '\t' := fun heq => h (by rw [heq]; decide)
  unfold isBlank
  simp [hspace, htab]

theorem writes_quoteArgument (argument : Text) :
    Writes doubled (quoteArgument argument) argument := by
  unfold quoteArgument
  split
  · rename_i hempty
    obtain rfl := List.isEmpty_iff.mp hempty
    have hwrites : Writes doubled (['"'] ++ quoteLoop [] ++ ['"']) [] := writes_quoted []
    rwa [quoteLoop] at hwrites
  · rename_i hne
    split
    · rename_i hplain
      refine writes_self (by simpa using hne) fun c hc => ?_
      simp only [needsQuoting, Bool.not_eq_true', Bool.or_eq_false_iff, List.any_eq_false,
        not_or, Bool.or_eq_true, decide_eq_true_eq, beq_iff_eq] at hplain
      exact ⟨isBlank_eq_false (hplain.2 c hc).1, (hplain.2 c hc).2⟩
    · exact writes_quoted argument

theorem writes_writeArgument (argument : Text) :
    Writes doubled (writeArgument argument) argument := by
  unfold writeArgument
  split
  · exact writes_quoteArgument argument
  · rename_i hplain
    simp only [Bool.or_eq_true, not_or, List.isEmpty_iff, List.contains_iff_mem] at hplain
    obtain ⟨⟨⟨hne, hspace⟩, htab⟩, hquote⟩ := hplain
    refine writes_self hne fun c hc => ⟨?_, fun heq => hquote (heq ▸ hc)⟩
    unfold isBlank
    simp only [Bool.or_eq_false_iff, beq_eq_false_iff_ne, ne_eq]
    exact ⟨fun heq => hspace (heq ▸ hc), fun heq => htab (heq ▸ hc)⟩

end Quoted

/-! ## The command line -/

section CommandLine

variable {doubled : Bool} {executable : Text} {arguments : List Text}

theorem mem_quoteLoop {argument : Text} {c : Char} (h : c ∈ quoteLoop argument) :
    c = '\\' ∨ c = '"' ∨ c ∈ argument := by
  fun_induction quoteLoop argument with
  | case1 => exact absurd h List.not_mem_nil
  | case2 codeUnit rest hne ih =>
    rcases List.mem_append.mp h with h | h
    · by_cases hquote : codeUnit = '"'
      · rw [if_pos (by simpa using hquote)] at h
        simp only [List.mem_cons, List.not_mem_nil, or_false] at h
        exact h.imp_right .inl
      · rw [if_neg (by simpa using hquote), List.mem_singleton] at h
        exact .inr (.inr (h ▸ List.mem_cons_self))
    · exact (ih h).imp_right fun h => h.imp_right (List.mem_cons_of_mem _)
  | case3 codeUnit rest hne count hnil => exact .inl (List.eq_of_mem_replicate h)
  | case4 codeUnit rest hne count next after hnext hquote ih =>
    have hrest : ∀ d ∈ after, d ∈ codeUnit :: rest := fun d hd =>
      List.mem_cons_of_mem _ ((List.dropWhile_sublist _).subset (hnext ▸ List.mem_cons_of_mem _ hd))
    rcases List.mem_append.mp h with h | h
    · rcases List.mem_append.mp h with h | h
      · exact .inl (List.eq_of_mem_replicate h)
      · exact .inr (.inl (List.mem_singleton.mp h))
    · exact (ih h).imp_right fun h => h.imp_right (hrest c)
  | case5 codeUnit rest hne count next after hnext hquote ih =>
    have hrest : ∀ d ∈ next :: after, d ∈ codeUnit :: rest := fun d hd =>
      List.mem_cons_of_mem _ ((List.dropWhile_sublist _).subset (hnext ▸ hd))
    rcases List.mem_append.mp h with h | h
    · exact .inl (List.eq_of_mem_replicate h)
    · exact (ih h).imp_right fun h => h.imp_right (hrest c)

theorem nul_notMem_quoteArgument {argument : Text} (h : nul ∉ argument) :
    nul ∉ quoteArgument argument := by
  unfold quoteArgument
  split
  · decide
  · split
    · exact h
    · intro hmem
      simp only [List.mem_append, List.mem_singleton] at hmem
      rcases hmem with (hmem | hmem) | hmem
      · cases hmem
      · rcases mem_quoteLoop hmem with heq | heq | hin
        · cases heq
        · cases heq
        · exact h hin
      · cases hmem

theorem nul_notMem_writeArgument {argument : Text} (h : nul ∉ argument) :
    nul ∉ writeArgument argument := by
  unfold writeArgument
  split
  · exact nul_notMem_quoteArgument h
  · exact h

theorem nul_notMem_join {written : List Text} (h : ∀ w ∈ written, nul ∉ w) :
    nul ∉ [' '].intercalate written := by
  induction written with
  | nil => exact List.not_mem_nil
  | cons w rest ih =>
    rw [List.forall_mem_cons] at h
    cases rest with
    | nil =>
      rw [List.intercalate_singleton]
      exact h.1
    | cons w' rest' =>
      rw [List.intercalate_cons_of_ne_nil (List.cons_ne_nil w' rest'), List.mem_append,
        List.mem_append]
      rintro ((hmem | hmem) | hmem)
      · exact h.1 hmem
      · cases List.mem_singleton.mp hmem
      · exact ih h.2 hmem

theorem cString_self {line : Text} (h : nul ∉ line) : cString line = line := by
  unfold cString
  rw [List.takeWhile_eq_self_iff]
  intro c hc
  rw [bne_iff_ne]
  exact fun heq => h (heq ▸ hc)

/-- What stands behind the name of the program. -/
def argumentTail (arguments : List Text) : Text :=
  if arguments.isEmpty then [] else ' ' :: [' '].intercalate (arguments.map writeArgument)

theorem forall₂_write {write : Text → Text} (h : ∀ a, Writes doubled (write a) a)
    (arguments : List Text) : List.Forall₂ (Writes doubled) (arguments.map write) arguments := by
  rw [List.forall₂_map_left_iff, List.forall₂_same]
  exact fun a _ => h a

theorem parseArguments_tail (arguments : List Text) :
    parseArguments doubled (argumentTail arguments) = arguments := by
  unfold argumentTail
  split
  · rename_i hempty
    rw [List.isEmpty_iff.mp hempty]
    rfl
  · -- A blank in front of the arguments is skipped.
    exact parseArguments_join (forall₂_write writes_writeArgument arguments)

theorem commandLine_eq (executable : Text) (arguments : List Text) :
    commandLine executable arguments =
      (if executable.contains ' ' && !executable.contains '"' then ['"'] ++ executable ++ ['"']
        else executable) ++ argumentTail arguments := by
  unfold commandLine argumentTail
  cases arguments with
  | nil => simp
  | cons a rest =>
    rw [List.intercalate_cons_of_ne_nil (by simp)]
    simp

theorem parseProgram_commandLine (hne : executable ≠ [])
    (hplain : ∀ c ∈ executable, c ≠ '"' ∧ c ≠ '\t') (arguments : List Text) :
    parseProgram (commandLine executable arguments) = (executable, argumentTail arguments) := by
  have hquote : '"' ∉ executable := fun hmem => (hplain _ hmem).1 rfl
  have htail : ∀ p : Char → Bool, p ' ' = false →
      (argumentTail arguments).takeWhile p = [] ∧
        (argumentTail arguments).dropWhile p = argumentTail arguments := by
    intro p hp
    unfold argumentTail
    split
    · exact ⟨rfl, rfl⟩
    · exact ⟨by simp [hp], by simp [hp]⟩
  rw [commandLine_eq]
  by_cases hspace : ' ' ∈ executable
  · have hskip : ∀ c ∈ executable, (c != '"') = true := fun c hc =>
      bne_iff_ne.mpr (hplain c hc).1
    rw [if_pos (by simp [hspace, hquote])]
    simp only [List.append_assoc, List.cons_append, List.nil_append, parseProgram,
      beq_self_eq_true, if_true]
    rw [List.takeWhile_append_of_pos hskip, List.dropWhile_append_of_pos hskip]
    simp
  · have hskip : ∀ c ∈ executable, (!isBlank c) = true := by
      intro c hc
      have hne : c ≠ ' ' := fun heq => hspace (heq ▸ hc)
      unfold isBlank
      simp [hne, (hplain c hc).2]
    rw [if_neg (by simp [hspace])]
    cases executable with
    | nil => exact absurd rfl hne
    | cons c rest =>
      have hc : (c == '"') = false := beq_eq_false_iff_ne.mpr (hplain c List.mem_cons_self).1
      have hparse : parseProgram (c :: rest ++ argumentTail arguments) =
          ((c :: rest ++ argumentTail arguments).takeWhile fun d => !isBlank d,
            (c :: rest ++ argumentTail arguments).dropWhile fun d => !isBlank d) :=
        if_neg (by simp [hc])
      obtain ⟨htake, hdrop⟩ := htail (fun d => !isBlank d) rfl
      rw [hparse, List.takeWhile_append_of_pos hskip, List.dropWhile_append_of_pos hskip, htake,
        hdrop, List.append_nil]

/-- The program and its arguments are read back from the command line, and the arguments from
`joinArguments`. -/
theorem commandLine_roundTrip (doubled : Bool) (executable : Text) (arguments : List Text)
    (hne : executable ≠ []) (hplain : ∀ c ∈ executable, c ≠ '"' ∧ c ≠ '\t' ∧ c ≠ nul)
    (harguments : ∀ a ∈ arguments, nul ∉ a) :
    parseCommandLine doubled (commandLine executable arguments) = (executable, arguments) ∧
      parseArguments doubled (cString (joinArguments arguments)) = arguments := by
  have hexecutable : nul ∉ executable := fun hmem => (hplain _ hmem).2.2 rfl
  constructor
  · have hnul : nul ∉ commandLine executable arguments := by
      refine nul_notMem_join fun w hw => ?_
      rcases List.mem_cons.mp hw with rfl | hw
      · split
        · simp only [List.mem_append, List.mem_singleton]
          rintro ((hmem | hmem) | hmem)
          · cases hmem
          · exact hexecutable hmem
          · cases hmem
        · exact hexecutable
      · obtain ⟨a, ha, rfl⟩ := List.mem_map.mp hw
        exact nul_notMem_writeArgument (harguments a ha)
    unfold parseCommandLine
    rw [cString_self hnul,
      parseProgram_commandLine hne (fun c hc => ⟨(hplain c hc).1, (hplain c hc).2.1⟩)]
    dsimp only
    rw [parseArguments_tail]
  · have hnul : nul ∉ joinArguments arguments := by
      refine nul_notMem_join fun w hw => ?_
      obtain ⟨a, ha, rfl⟩ := List.mem_map.mp hw
      exact nul_notMem_quoteArgument (harguments a ha)
    rw [cString_self hnul]
    exact parseArguments_join (forall₂_write writes_quoteArgument arguments)

end CommandLine

/-- An argument that ends with a backslash, one with quotes and one with nothing in it. -/
theorem commandLine_roundTrip_job :
    parseCommandLine true
        (commandLine "C:\\My Jobs\\a.exe".toList
          ["C:\\".toList, "say \"hi\\\"".toList, []]) =
      ("C:\\My Jobs\\a.exe".toList, ["C:\\".toList, "say \"hi\\\"".toList, []]) :=
  (commandLine_roundTrip true _ _ (by decide) (by decide) (by decide)).1

end PlugAgente.Windows
