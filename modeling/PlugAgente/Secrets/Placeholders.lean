import PlugAgente.Definition.Domain

/-!
# Secrets in the texts of a definition

`AgentActionSecretPlaceholderScanner` collects the names in the placeholders of a definition, and
`AgentActionSecretPlaceholderResolver` puts their values in before an action is executed.  They
walk the seven kinds of configuration one by one.  What the resolver reads from the store is
logged by `Reading`; `Gives` is its rule of composition.

`preserved_iff` says when the two walks agree: a path with an empty canonical path loses it, and
two arguments of a COM object whose names become equal become one.
-/

namespace PlugAgente.Secrets

open Dart
open Definition (AgentActionConfig AgentActionDefinition AgentActionPathReference JsonMap)
open Wire (Json Entries)

/-! ## Placeholders -/

/-- What a placeholder begins with, in small letters. -/
def opening : Text := "$\x7bsecret:".toList

/-- The group of a match of `placeholderPattern` at the start of a text. -/
def placeholderAt (x : Text) : Option Text :=
  let group := (x.drop opening.length).takeWhile (· != '\x7d')
  -- the group ends at a brace, or the text ends with it
  if (x.take opening.length).map Char.toLower = opening ∧ group ≠ [] ∧
    opening.length + group.length < x.length then some group else none

/-- A character, or a match with its group. -/
inductive Piece where
  | char (c : Char)
  | placeholder (whole group : Text)
  deriving DecidableEq

/-- A text with the matches in it, as `allMatches` has them. -/
def pieces : Text → List Piece
  | [] => []
  | c :: rest =>
    match placeholderAt (c :: rest) with
    | some group =>
      let length := opening.length + group.length + 1
      .placeholder ((c :: rest).take length) group :: pieces ((c :: rest).drop length)
    | none => .char c :: pieces rest
  termination_by x => x.length
  decreasing_by
    · simp only [List.length_drop, List.length_cons]
      omega
    · simp

/-- The name in a placeholder, if it is not blank. -/
def Piece.name : Piece → Option String
  | .char _ => none
  | .placeholder _ group =>
    if (trim group).isEmpty then none else some (String.ofList (trim group))

/-- A piece, with the value of its name for a placeholder. -/
def Piece.replaced (valueOf : String → Option String) : Piece → Text
  | .char c => [c]
  | .placeholder whole group =>
    (((Piece.placeholder whole group).name.bind valueOf).map String.toList).getD whole

/-- `replaceAllMapped`, in one pass. -/
def replacePlaceholders (valueOf : String → Option String) (text : String) : String :=
  String.ofList ((pieces text.toList).flatMap (Piece.replaced valueOf))

/-- The names in a text, in order. -/
def namesIn (text : String) : List String := (pieces text.toList).filterMap Piece.name

def collectFromText (value : String) : LinkedSet String :=
  if (trim value.toList).isEmpty then ⟨[], List.nodup_nil⟩ else LinkedSet.ofList (namesIn value)

/-! ## The scanner -/

def visit (value : String) : List String :=
  if value = "" then [] else (collectFromText value).items

def visitPath (path : AgentActionPathReference) : List String :=
  visit path.originalPath ++
    match path.canonicalPath with
    | some canonicalPath =>
      if canonicalPath ≠ "" ∧ canonicalPath ≠ path.originalPath then visit canonicalPath else []
    | none => []

/-- `visitPath` of a path that may be null. -/
def visitOptionalPath (path : Option AgentActionPathReference) : List String :=
  path.toList.flatMap visitPath

variable {V R : Type}

/-- The names in an argument of a COM object. -/
def visitArgument (entry : String × Json V) : List String :=
  visit entry.1 ++
    match entry.2 with
    | .text value => visit value
    | _ => []

/-- The names in a configuration. -/
def visitConfig : AgentActionConfig V → List String
  | .commandLine command workingDirectory => visit command ++ visitOptionalPath workingDirectory
  | .executable executablePath arguments workingDirectory =>
    visitPath executablePath ++ visitOptionalPath workingDirectory ++ arguments.flatMap visit
  | .script scriptPath interpreterPath arguments workingDirectory =>
    visitPath scriptPath ++ visitOptionalPath interpreterPath ++
      visitOptionalPath workingDirectory ++ arguments.flatMap visit
  | .jar jarPath javaExecutablePath arguments workingDirectory =>
    visitPath jarPath ++ visitOptionalPath javaExecutablePath ++
      visitOptionalPath workingDirectory ++ arguments.flatMap visit
  | .email smtpProfileId from_ to_ cc bcc subjectTemplate bodyTemplate attachmentPaths =>
    visit smtpProfileId ++ visit from_ ++ visit subjectTemplate ++ visit bodyTemplate ++
      (to_ ++ cc ++ bcc).flatMap visit ++ attachmentPaths.flatMap visitPath
  | .comObject progId memberName arguments =>
    visit progId ++ visit memberName ++ arguments.entries.flatMap visitArgument
  | .developer executorPath projectPath data7ConfigPath _ connectionLabel _ =>
    visitPath executorPath ++ visitPath projectPath ++ visitPath data7ConfigPath ++
      visit connectionLabel

def collectFromDefinition (definition : AgentActionDefinition V R) : LinkedSet String :=
  LinkedSet.ofList <|
    visit definition.name ++ definition.description.toList.flatMap visit ++
      (definition.policies.environment.variables_.entries.flatMap fun entry =>
        visit entry.1 ++ visit entry.2) ++
      visitConfig definition.config

/-! ## Failures and reads -/

structure ActionValidationFailure where
  message : String
  code : String
  context : Entries Empty

def secretUnavailableFailure (actionId : String) (missingSecretNames : List String)
    (phase message userMessage : String) : ActionValidationFailure where
  message := message
  code := "ACTION_SECRET_UNAVAILABLE"
  context := [
    ("action_id", .text actionId),
    ("phase", .text phase),
    ("reason", .text "action_secret_unavailable"),
    ("missing_secrets", .list <|
      (ListSort.insertion.sort (fun a b => compareTo a.toList b.toList) missingSecretNames).map
        .text),
    ("user_message", .text userMessage)]

/-- What an operation gives, with the names that it read from the store. -/
structure Reading (α : Type) where
  reads : List String
  result : Except ActionValidationFailure α

instance : Monad Reading where
  pure a := ⟨[], .ok a⟩
  bind r f :=
    match r.result with
    | .error failure => ⟨r.reads, .error failure⟩
    | .ok a => ⟨r.reads ++ (f a).reads, (f a).result⟩

/-- A result that took no reads. -/
def Reading.ofResult {α : Type} (result : Except ActionValidationFailure α) : Reading α :=
  ⟨[], result⟩

/-- The operation gives a value and reads names of a kind only. -/
structure Gives {α : Type} (P : String → Prop) (r : Reading α) (a : α) : Prop where
  result : r.result = .ok a
  reads : ∀ name ∈ r.reads, P name

section Rules

variable {α β : Type} {P : String → Prop}

theorem Gives.pure (a : α) : Gives P (pure a) a :=
  ⟨rfl, fun _ h => absurd h List.not_mem_nil⟩

theorem Gives.bind {r : Reading α} {a : α} {f : α → Reading β} {b : β} (hr : Gives P r a)
    (hf : Gives P (f a) b) : Gives P (r >>= f) b := by
  obtain ⟨reads, result⟩ := r
  obtain rfl : result = .ok a := hr.result
  refine ⟨hf.result, ?_⟩
  intro name hmem
  rcases List.mem_append.mp hmem with hmem | hmem
  · exact hr.reads name hmem
  · exact hf.reads name hmem

end Rules

/-! ## The resolver -/

/-- `IAgentActionSecretStore`, while it is not written to. -/
structure SecretStore where
  isAvailable : Bool
  exists_ : String → Bool
  readSecret : String → Option String

def availableStore (secretStore : Option SecretStore) : Option SecretStore :=
  secretStore.filter (·.isAvailable)

/-- A read that is logged. -/
def SecretStore.read (store : SecretStore) (secretName : String) : Reading (Option String) :=
  ⟨[secretName], .ok (store.readSecret secretName)⟩

/-- `AgentActionCommandLinePolicyValidator.validateDefinition`. -/
def validateDefinition (definition : AgentActionDefinition V R) :
    Except ActionValidationFailure Unit :=
  match definition.config with
  | .commandLine command _ =>
    if (collectFromText command).items.isEmpty then .ok ()
    else
      .error {
        message := "Secret placeholders are not supported in free-form command lines."
        code := "ACTION_COMMAND_LINE_SECRET_PLACEHOLDER_FORBIDDEN"
        context := [
          ("action_id", .text definition.id),
          ("reason", .text "command_secret_placeholder_forbidden"),
          ("user_message", .text <|
            "Segredos nao podem ser usados na linha de comando. Use entrada padrao ou " ++
              "variaveis de ambiente permitidas.")] }
  | _ => .ok ()

def ensureResolvable (secretStore : Option SecretStore) (definition : AgentActionDefinition V R) :
    Except ActionValidationFailure Unit :=
  let referenced := (collectFromDefinition definition).items
  if referenced.isEmpty then .ok ()
  else
    match availableStore secretStore with
    | none =>
      .error <| secretUnavailableFailure definition.id referenced "execution_preflight"
        "Action secret store is not available."
        "Os segredos referenciados pela acao nao estao disponiveis neste agente."
    | some store =>
      let missing := referenced.filter fun secretName => !store.exists_ secretName
      if missing.isEmpty then .ok ()
      else
        .error <| secretUnavailableFailure definition.id missing "execution_preflight"
          "One or more action secrets are missing."
          "Configure os segredos ausentes antes de executar a acao."

/-- The loop of `resolveText` that reads the values. -/
def readValues (store : SecretStore) (actionId phase : String) :
    List String → LinkedMap String String → Reading (LinkedMap String String)
  | [], valuesByName => pure valuesByName
  | secretName :: rest, valuesByName => do
    match (← store.read secretName).filter (· ≠ "") with
    | none =>
      .ofResult <| .error <| secretUnavailableFailure actionId [secretName] phase
        ("Action secret \"" ++ secretName ++ "\" is missing.")
        ("Configure o segredo \"" ++ secretName ++ "\" antes de executar a acao.")
    | some value => readValues store actionId phase rest (valuesByName.put secretName value)

def resolveText (secretStore : Option SecretStore) (text actionId : String)
    (phase : String := "execution_preflight") : Reading String :=
  if text = "" then pure text
  else
    let secretNames := (collectFromText text).items
    if secretNames.isEmpty then pure text
    else
      match availableStore secretStore with
      | none =>
        .ofResult <| .error <| secretUnavailableFailure actionId secretNames phase
          "Action secret store is not available."
          "Os segredos referenciados pela acao nao estao disponiveis neste agente."
      | some store => do
        let valuesByName ← readValues store actionId phase secretNames LinkedMap.empty
        pure (replacePlaceholders valuesByName.get text)

/-- The loops of `_resolveStringList` and `_resolvePathReferenceList`. -/
def resolveEach {α : Type} (resolve : α → Reading α) : List α → Reading (List α)
  | [] => pure []
  | value :: values => do
    let resolved ← resolve value
    return resolved :: (← resolveEach resolve values)

def resolvePathReference (secretStore : Option SecretStore) (actionId : String)
    (path : AgentActionPathReference) : Reading AgentActionPathReference := do
  let originalPath ← resolveText secretStore path.originalPath actionId
  let resolveCanonicalPath : Reading (Option String) :=
    match path.canonicalPath.filter (· ≠ "") with
    | none => pure none
    | some canonicalPath => do return some (← resolveText secretStore canonicalPath actionId)
  let resolvedCanonicalPath ← resolveCanonicalPath
  return { path with originalPath := originalPath, canonicalPath := resolvedCanonicalPath }

def resolveOptionalPathReference (secretStore : Option SecretStore) (actionId : String) :
    Option AgentActionPathReference → Reading (Option AgentActionPathReference)
  | none => pure none
  | some path => do return some (← resolvePathReference secretStore actionId path)

/-- An argument of a COM object. -/
structure ComArgument (V : Type) where
  key : String
  value : Json V
  distinct : value.Distinct

def ComArgument.entry (argument : ComArgument V) : String × Json V := (argument.key, argument.value)

/-- The arguments, in the order of the map. -/
def argumentsOf (arguments : JsonMap V) : List (ComArgument V) :=
  arguments.entries.attach.map fun entry =>
    ⟨entry.1.1, entry.1.2,
      Wire.distinctEntries_iff.mp arguments.distinct.2 entry.1 entry.2⟩

/-- The map that the arguments are written into, one after the other. -/
def ofArguments (arguments : List (ComArgument V)) : JsonMap V where
  entries := (LinkedMap.ofEntries (arguments.map ComArgument.entry)).entries
  distinct := by
    refine ⟨(LinkedMap.ofEntries _).nodup, Wire.distinctEntries_iff.mpr ?_⟩
    intro entry hmem
    obtain ⟨argument, -, rfl⟩ := List.mem_map.mp (LinkedMap.mem_of_mem_ofEntries hmem)
    exact argument.distinct

/-- The resolved name and value of an argument. -/
def resolveArgument (secretStore : Option SecretStore) (actionId : String)
    (argument : ComArgument V) : Reading (ComArgument V) := do
  let key ← resolveText secretStore argument.key actionId
  match argument.value with
  | .text value => do
    return ⟨key, .text (← resolveText secretStore value actionId), trivial⟩
  | _ => return { argument with key := key }

/-- The configuration that `resolveForExecution` rebuilds, with `_resolveEmailDefinition` and
`_resolveComObjectDefinition`. -/
def resolveConfig (secretStore : Option SecretStore) (actionId : String) :
    AgentActionConfig V → Reading (AgentActionConfig V)
  | .commandLine command workingDirectory => do
    let command ← resolveText secretStore command actionId
    let workingDirectory ← resolveOptionalPathReference secretStore actionId workingDirectory
    return .commandLine command workingDirectory
  | .executable executablePath arguments workingDirectory => do
    let executablePath ← resolvePathReference secretStore actionId executablePath
    let workingDirectory ← resolveOptionalPathReference secretStore actionId workingDirectory
    let arguments ← resolveEach (resolveText secretStore · actionId) arguments
    return .executable executablePath arguments workingDirectory
  | .script scriptPath interpreterPath arguments workingDirectory => do
    let scriptPath ← resolvePathReference secretStore actionId scriptPath
    let interpreterPath ← resolveOptionalPathReference secretStore actionId interpreterPath
    let workingDirectory ← resolveOptionalPathReference secretStore actionId workingDirectory
    let arguments ← resolveEach (resolveText secretStore · actionId) arguments
    return .script scriptPath interpreterPath arguments workingDirectory
  | .jar jarPath javaExecutablePath arguments workingDirectory => do
    let jarPath ← resolvePathReference secretStore actionId jarPath
    let javaExecutablePath ← resolveOptionalPathReference secretStore actionId javaExecutablePath
    let workingDirectory ← resolveOptionalPathReference secretStore actionId workingDirectory
    let arguments ← resolveEach (resolveText secretStore · actionId) arguments
    return .jar jarPath javaExecutablePath arguments workingDirectory
  | .email smtpProfileId from_ to_ cc bcc subjectTemplate bodyTemplate attachmentPaths => do
    let smtpProfileId ← resolveText secretStore smtpProfileId actionId
    let from_ ← resolveText secretStore from_ actionId
    let subjectTemplate ← resolveText secretStore subjectTemplate actionId
    let bodyTemplate ← resolveText secretStore bodyTemplate actionId
    let to_ ← resolveEach (resolveText secretStore · actionId) to_
    let cc ← resolveEach (resolveText secretStore · actionId) cc
    let bcc ← resolveEach (resolveText secretStore · actionId) bcc
    let attachmentPaths ← resolveEach (resolvePathReference secretStore actionId) attachmentPaths
    return .email smtpProfileId from_ to_ cc bcc subjectTemplate bodyTemplate attachmentPaths
  | .comObject progId memberName arguments => do
    let progId ← resolveText secretStore progId actionId
    let memberName ← resolveText secretStore memberName actionId
    let resolved ← resolveEach (resolveArgument secretStore actionId) (argumentsOf arguments)
    return .comObject progId memberName (ofArguments resolved)
  | .developer executorPath projectPath data7ConfigPath connectionId connectionLabel
      connectionSnapshotHash => do
    let executorPath ← resolvePathReference secretStore actionId executorPath
    let projectPath ← resolvePathReference secretStore actionId projectPath
    let data7ConfigPath ← resolvePathReference secretStore actionId data7ConfigPath
    let connectionLabel ← resolveText secretStore connectionLabel actionId
    return .developer executorPath projectPath data7ConfigPath connectionId connectionLabel
      connectionSnapshotHash

def resolveForExecution (secretStore : Option SecretStore) (definition : AgentActionDefinition V R) :
    Reading (AgentActionDefinition V R) := do
  Reading.ofResult (validateDefinition definition)
  Reading.ofResult (ensureResolvable secretStore definition)
  if (collectFromDefinition definition).items.isEmpty then return definition
  else
    let config ← resolveConfig secretStore definition.id definition.config
    return { definition with config := config }

/-! ## Substitution -/

/-- A path with its texts substituted. -/
def substitutePath (f : String → String) (path : AgentActionPathReference) :
    AgentActionPathReference :=
  { path with originalPath := f path.originalPath, canonicalPath := path.canonicalPath.map f }

/-- An argument of a COM object with its texts substituted. -/
def substituteEntry (f : String → String) (entry : String × Json V) : String × Json V :=
  (f entry.1,
    match entry.2 with
    | .text value => .text (f value)
    | value => value)

/-- A configuration with each of its visited texts substituted, and all else as it was. -/
@[mk_iff]
inductive Substituted (f : String → String) : AgentActionConfig V → AgentActionConfig V → Prop
  | commandLine (command workingDirectory) :
    Substituted f (.commandLine command workingDirectory)
      (.commandLine (f command) (workingDirectory.map (substitutePath f)))
  | executable (executablePath arguments workingDirectory) :
    Substituted f (.executable executablePath arguments workingDirectory)
      (.executable (substitutePath f executablePath) (arguments.map f)
        (workingDirectory.map (substitutePath f)))
  | script (scriptPath interpreterPath arguments workingDirectory) :
    Substituted f (.script scriptPath interpreterPath arguments workingDirectory)
      (.script (substitutePath f scriptPath) (interpreterPath.map (substitutePath f))
        (arguments.map f) (workingDirectory.map (substitutePath f)))
  | jar (jarPath javaExecutablePath arguments workingDirectory) :
    Substituted f (.jar jarPath javaExecutablePath arguments workingDirectory)
      (.jar (substitutePath f jarPath) (javaExecutablePath.map (substitutePath f))
        (arguments.map f) (workingDirectory.map (substitutePath f)))
  | email (smtpProfileId from_ to_ cc bcc subjectTemplate bodyTemplate attachmentPaths) :
    Substituted f
      (.email smtpProfileId from_ to_ cc bcc subjectTemplate bodyTemplate attachmentPaths)
      (.email (f smtpProfileId) (f from_) (to_.map f) (cc.map f) (bcc.map f) (f subjectTemplate)
        (f bodyTemplate) (attachmentPaths.map (substitutePath f)))
  | comObject (progId memberName) {arguments arguments' : JsonMap V}
      (h : arguments'.entries = arguments.entries.map (substituteEntry f)) :
    Substituted f (.comObject progId memberName arguments)
      (.comObject (f progId) (f memberName) arguments')
  | developer (executorPath projectPath data7ConfigPath connectionId connectionLabel
      connectionSnapshotHash) :
    Substituted f
      (.developer executorPath projectPath data7ConfigPath connectionId connectionLabel
        connectionSnapshotHash)
      (.developer (substitutePath f executorPath) (substitutePath f projectPath)
        (substitutePath f data7ConfigPath) connectionId (f connectionLabel)
        connectionSnapshotHash)

def secretValue (secretStore : Option SecretStore) (secretName : String) : Option String :=
  (availableStore secretStore).bind (·.readSecret secretName)

/-- A text with each placeholder replaced once. -/
def substituteText (secretStore : Option SecretStore) (text : String) : String :=
  replacePlaceholders (secretValue secretStore) text

/-- The store has the secret, with a value that is not empty. -/
def Holds (secretStore : Option SecretStore) (secretName : String) : Prop :=
  ∃ store, availableStore secretStore = some store ∧ store.exists_ secretName = true ∧
    ∃ value, store.readSecret secretName = some value ∧ value ≠ ""

/-- The definition is resolved, its configuration substituted and all else kept, and only
collected secrets are read. -/
structure Preserved (secretStore : Option SecretStore) (definition : AgentActionDefinition V R)
    (resolved : AgentActionDefinition V R) : Prop where
  result : (resolveForExecution secretStore definition).result = .ok resolved
  config : Substituted (substituteText secretStore) definition.config resolved.config
  frame : resolved = { definition with config := resolved.config }
  reads : ∀ secretName ∈ (resolveForExecution secretStore definition).reads,
    secretName ∈ (collectFromDefinition definition).items

/-- No canonical path is empty. -/
def CanonicalNonempty (config : AgentActionConfig V) : Prop :=
  ∀ path ∈ config.paths, path.canonicalPath ≠ some ""

/-- No two arguments of a COM object have one name after the substitution. -/
def DistinctArguments (f : String → String) : AgentActionConfig V → Prop
  | .comObject _ _ arguments => (arguments.entries.map fun entry => f entry.1).Nodup
  | _ => True

/-! ## Texts -/

theorem pieces_nil : pieces [] = [] := by
  rw [pieces]

theorem pieces_of_placeholder {c : Char} {rest group : Text}
    (h : placeholderAt (c :: rest) = some group) :
    pieces (c :: rest) =
      .placeholder ((c :: rest).take (opening.length + group.length + 1)) group ::
        pieces ((c :: rest).drop (opening.length + group.length + 1)) := by
  rw [pieces, h]

theorem pieces_of_char {c : Char} {rest : Text} (h : placeholderAt (c :: rest) = none) :
    pieces (c :: rest) = .char c :: pieces rest := by
  rw [pieces, h]

theorem replacePlaceholders_none (text : String) :
    replacePlaceholders (fun _ => none) text = text := by
  have hpieces : ∀ x : Text, (pieces x).flatMap (Piece.replaced fun _ => none) = x := by
    intro x
    induction x using pieces.induct with
    | case1 => rw [pieces_nil]; rfl
    | case2 c rest group h length ih =>
      rw [pieces_of_placeholder h, List.flatMap_cons, ih]
      simp [Piece.replaced, length]
    | case3 c rest h ih =>
      rw [pieces_of_char h, List.flatMap_cons, ih]
      rfl
  rw [replacePlaceholders, hpieces, String.ofList_toList]

theorem replacePlaceholders_congr {f g : String → Option String} {text : String}
    (h : ∀ name ∈ namesIn text, f name = g name) :
    replacePlaceholders f text = replacePlaceholders g text := by
  unfold replacePlaceholders
  congr 1
  refine List.flatMap_congr fun piece hpiece => ?_
  cases piece with
  | char c => rfl
  | placeholder whole group =>
    rw [Piece.replaced, Piece.replaced]
    cases hname : (Piece.placeholder whole group).name with
    | none => rfl
    | some name =>
      have hmem : name ∈ namesIn text := List.mem_filterMap.mpr ⟨_, hpiece, hname⟩
      rw [Option.bind_some, Option.bind_some, h name hmem]

theorem opens_of_placeholderAt {x group : Text} (h : placeholderAt x = some group) :
    (x.take opening.length).map Char.toLower = opening := by
  unfold placeholderAt at h
  dsimp only at h
  split_ifs at h with hopens
  exact hopens.1

theorem not_blank_of_toLower {c : Char} (h : c.toLower = '$') : isWhitespace c = false := by
  rcases Nat.lt_or_ge c.toNat 128 with hlt | hge
  · exact ascii_cases (P := fun c => c.toLower = '$' → isWhitespace c = false) (by decide +kernel)
      hlt h
  · rw [toLower_of_wide hge] at h
    subst h
    rfl

theorem namesIn_of_blank {text : String} (h : AllBlank text.toList) : namesIn text = [] := by
  have hpieces : ∀ x : Text, AllBlank x → (pieces x).filterMap Piece.name = [] := by
    intro x
    induction x using pieces.induct with
    | case1 => intro _; rw [pieces_nil]; rfl
    | case2 c rest group hat length ih =>
      intro hblank
      have hdollar : c.toLower = '$' := (List.cons.inj (opens_of_placeholderAt hat)).1
      have hc : isWhitespace c = true := hblank c List.mem_cons_self
      rw [not_blank_of_toLower hdollar] at hc
      cases hc
    | case3 c rest hat ih =>
      intro hblank
      rw [pieces_of_char hat]
      exact ih fun c hc => hblank c (List.mem_cons_of_mem _ hc)
  exact hpieces _ h

theorem mem_collectFromText {text name : String} :
    name ∈ (collectFromText text).items ↔ name ∈ namesIn text := by
  unfold collectFromText
  split
  · rename_i hempty
    have hblank : AllBlank text.toList := by
      obtain ⟨before, after, htext, hbefore, hafter⟩ := exists_trim text.toList
      rw [List.isEmpty_iff.mp hempty, List.append_nil] at htext
      rw [htext]
      intro c hc
      exact (List.mem_append.mp hc).elim (hbefore c) (hafter c)
    rw [namesIn_of_blank hblank]
  · rw [LinkedSet.mem_ofList]

theorem visit_eq (text : String) : visit text = (collectFromText text).items := by
  unfold visit
  split
  · rename_i hempty
    subst hempty
    rfl
  · rfl

/-! ## What the resolver gives -/

section Resolver

variable {secretStore : Option SecretStore} {actionId phase : String} {P : String → Prop}

theorem Gives.of_readValues {store : SecretStore} {names : List String}
    (values : LinkedMap String String)
    (h : ∀ name ∈ names, (∃ value, store.readSecret name = some value ∧ value ≠ "") ∧ P name) :
    ∃ valuesByName, Gives P (readValues store actionId phase names values) valuesByName ∧
      ∀ name, valuesByName.get name =
        if name ∈ names then store.readSecret name else values.get name := by
  induction names generalizing values with
  | nil => exact ⟨values, .pure values, fun name => by simp⟩
  | cons first rest ih =>
    obtain ⟨⟨value, hvalue, hne⟩, hP⟩ := h first List.mem_cons_self
    obtain ⟨valuesByName, hrest, hget⟩ :=
      ih (values.put first value) fun name hmem => h name (List.mem_cons_of_mem _ hmem)
    have hread : Gives P (store.read first) (some value) := by
      refine ⟨congrArg Except.ok hvalue, ?_⟩
      intro name hmem
      rwa [List.mem_singleton.mp hmem]
    refine ⟨valuesByName, hread.bind ?_, ?_⟩
    · simp only [Option.filter_some, ne_eq, hne, not_false_eq_true, decide_true, if_true]
      exact hrest
    · intro name
      rw [hget, LinkedMap.get_put]
      by_cases hname : name = first
      · subst hname
        simp [hvalue]
      · simp [hname]

theorem Holds.read {store : SecretStore} {name : String} (h : Holds secretStore name)
    (hstore : availableStore secretStore = some store) :
    ∃ value, store.readSecret name = some value ∧ value ≠ "" := by
  obtain ⟨found, hfound, -, hvalue⟩ := h
  obtain rfl := Option.some.inj (hstore.symm.trans hfound)
  exact hvalue

theorem substituteText_of_empty {text : String} (h : (collectFromText text).items = []) :
    substituteText secretStore text = text := by
  refine (replacePlaceholders_congr ?_).trans (replacePlaceholders_none text)
  intro name hname
  have hmem := mem_collectFromText.mpr hname
  rw [h] at hmem
  exact absurd hmem List.not_mem_nil

theorem Gives.of_resolveText {text : String}
    (h : ∀ name ∈ visit text, Holds secretStore name ∧ P name) :
    Gives P (resolveText secretStore text actionId phase) (substituteText secretStore text) := by
  rw [visit_eq] at h
  unfold resolveText
  split
  · rename_i hempty
    subst hempty
    rw [substituteText_of_empty rfl]
    exact .pure ""
  · dsimp only
    split
    · rename_i hnames
      rw [substituteText_of_empty (List.isEmpty_iff.mp hnames)]
      exact .pure text
    · rename_i hnames
      obtain ⟨first, rest, hfirst⟩ := List.exists_cons_of_ne_nil (mt List.isEmpty_iff.mpr hnames)
      obtain ⟨store, hstore, -⟩ := (h first (hfirst ▸ List.mem_cons_self)).1
      rw [hstore]
      obtain ⟨valuesByName, hvalues, hget⟩ :=
        Gives.of_readValues .empty fun name hmem => ⟨(h name hmem).1.read hstore, (h name hmem).2⟩
      refine hvalues.bind ?_
      have hsame : replacePlaceholders valuesByName.get text =
          substituteText secretStore text := by
        refine replacePlaceholders_congr fun name hname => ?_
        rw [hget, if_pos (mem_collectFromText.mpr hname), secretValue, hstore, Option.bind_some]
      rw [hsame]
      exact .pure _

/-- The path that `_resolvePathReference` builds. -/
def resolvedPath (f : String → String) (path : AgentActionPathReference) :
    AgentActionPathReference :=
  { path with
    originalPath := f path.originalPath
    canonicalPath := (path.canonicalPath.filter (· ≠ "")).map f }

theorem Gives.of_resolvePathReference {path : AgentActionPathReference}
    (h : ∀ name ∈ visitPath path, Holds secretStore name ∧ P name) :
    Gives P (resolvePathReference secretStore actionId path)
      (resolvedPath (substituteText secretStore) path) := by
  unfold resolvePathReference resolvedPath
  refine (Gives.of_resolveText fun name hmem => h name (List.mem_append_left _ hmem)).bind ?_
  cases hcanonical : path.canonicalPath.filter (· ≠ "") with
  | none => exact (Gives.pure none).bind (.pure _)
  | some canonicalPath =>
    have hpath : path.canonicalPath = some canonicalPath ∧ canonicalPath ≠ "" := by
      simpa [Option.filter_eq_some_iff] using hcanonical
    have hnames : ∀ name ∈ visit canonicalPath, Holds secretStore name ∧ P name := by
      intro name hmem
      by_cases hsame : canonicalPath = path.originalPath
      · exact h name (List.mem_append_left _ (hsame ▸ hmem))
      · refine h name (List.mem_append_right _ ?_)
        rw [hpath.1]
        dsimp only
        rwa [if_pos ⟨hpath.2, hsame⟩]
    exact ((Gives.of_resolveText hnames).bind (.pure (some _))).bind (.pure _)

theorem Gives.of_resolveOptionalPathReference {path : Option AgentActionPathReference}
    (h : ∀ name ∈ visitOptionalPath path, Holds secretStore name ∧ P name) :
    Gives P (resolveOptionalPathReference secretStore actionId path)
      (path.map (resolvedPath (substituteText secretStore))) := by
  cases path with
  | none => exact .pure none
  | some path =>
    refine (Gives.of_resolvePathReference fun name hmem => h name ?_).bind (.pure _)
    exact List.mem_flatMap.mpr ⟨path, List.mem_singleton_self path, hmem⟩

theorem Gives.of_resolveEach {α : Type} {resolve : α → Reading α} {g : α → α} {values : List α}
    (h : ∀ value ∈ values, Gives P (resolve value) (g value)) :
    Gives P (resolveEach resolve values) (values.map g) := by
  induction values with
  | nil => exact .pure []
  | cons value values ih =>
    refine (h value List.mem_cons_self).bind ?_
    exact (ih fun other hmem => h other (List.mem_cons_of_mem _ hmem)).bind (.pure _)

/-- An argument with its texts substituted. -/
def ComArgument.substitute (f : String → String) (argument : ComArgument V) : ComArgument V where
  key := f argument.key
  value :=
    match argument.value with
    | .text value => .text (f value)
    | value => value
  distinct := by
    have hdistinct := argument.distinct
    split
    · trivial
    · exact hdistinct

theorem Gives.of_resolveArgument {argument : ComArgument V}
    (h : ∀ name ∈ visitArgument argument.entry, Holds secretStore name ∧ P name) :
    Gives P (resolveArgument secretStore actionId argument)
      (argument.substitute (substituteText secretStore)) := by
  unfold resolveArgument
  refine (Gives.of_resolveText fun name hmem => h name (List.mem_append_left _ hmem)).bind ?_
  obtain ⟨key, value, hdistinct⟩ := argument
  cases value with
  | text value =>
    refine (Gives.of_resolveText fun name hmem => h name ?_).bind (.pure _)
    exact List.mem_append_right _ hmem
  | null => exact .pure _
  | bool b => exact .pure _
  | int n => exact .pure _
  | other v => exact .pure _
  | list items => exact .pure _
  | map entries => exact .pure _

theorem map_entry_argumentsOf (arguments : JsonMap V) :
    (argumentsOf arguments).map ComArgument.entry = arguments.entries := by
  unfold argumentsOf
  rw [List.map_map]
  exact List.attach_map_subtype_val arguments.entries

/-- The configuration that the resolver builds. -/
def resolvedConfig (f : String → String) : AgentActionConfig V → AgentActionConfig V
  | .commandLine command workingDirectory =>
    .commandLine (f command) (workingDirectory.map (resolvedPath f))
  | .executable executablePath arguments workingDirectory =>
    .executable (resolvedPath f executablePath) (arguments.map f)
      (workingDirectory.map (resolvedPath f))
  | .script scriptPath interpreterPath arguments workingDirectory =>
    .script (resolvedPath f scriptPath) (interpreterPath.map (resolvedPath f)) (arguments.map f)
      (workingDirectory.map (resolvedPath f))
  | .jar jarPath javaExecutablePath arguments workingDirectory =>
    .jar (resolvedPath f jarPath) (javaExecutablePath.map (resolvedPath f)) (arguments.map f)
      (workingDirectory.map (resolvedPath f))
  | .email smtpProfileId from_ to_ cc bcc subjectTemplate bodyTemplate attachmentPaths =>
    .email (f smtpProfileId) (f from_) (to_.map f) (cc.map f) (bcc.map f) (f subjectTemplate)
      (f bodyTemplate) (attachmentPaths.map (resolvedPath f))
  | .comObject progId memberName arguments =>
    .comObject (f progId) (f memberName)
      (ofArguments ((argumentsOf arguments).map (ComArgument.substitute f)))
  | .developer executorPath projectPath data7ConfigPath connectionId connectionLabel
      connectionSnapshotHash =>
    .developer (resolvedPath f executorPath) (resolvedPath f projectPath)
      (resolvedPath f data7ConfigPath) connectionId (f connectionLabel) connectionSnapshotHash

theorem Gives.of_resolveConfig {config : AgentActionConfig V}
    (h : ∀ name ∈ visitConfig config, Holds secretStore name ∧ P name) :
    Gives P (resolveConfig secretStore actionId config)
      (resolvedConfig (substituteText secretStore) config) := by
  have htexts : ∀ {texts : List String},
      (∀ name ∈ texts.flatMap visit, Holds secretStore name ∧ P name) →
      Gives P (resolveEach (resolveText secretStore · actionId) texts)
        (texts.map (substituteText secretStore)) := fun hnames =>
    .of_resolveEach fun text hmem => .of_resolveText fun name hname =>
      hnames name (List.mem_flatMap.mpr ⟨text, hmem, hname⟩)
  cases config with
  | commandLine command workingDirectory =>
    simp only [visitConfig, List.forall_mem_append] at h
    obtain ⟨hcommand, hdirectory⟩ := h
    exact (Gives.of_resolveText hcommand).bind
      ((Gives.of_resolveOptionalPathReference hdirectory).bind (.pure _))
  | executable executablePath arguments workingDirectory =>
    simp only [visitConfig, List.forall_mem_append] at h
    obtain ⟨⟨hexecutable, hdirectory⟩, harguments⟩ := h
    exact (Gives.of_resolvePathReference hexecutable).bind
      ((Gives.of_resolveOptionalPathReference hdirectory).bind
        ((htexts harguments).bind (.pure _)))
  | script scriptPath interpreterPath arguments workingDirectory =>
    simp only [visitConfig, List.forall_mem_append] at h
    obtain ⟨⟨⟨hscript, hinterpreter⟩, hdirectory⟩, harguments⟩ := h
    exact (Gives.of_resolvePathReference hscript).bind
      ((Gives.of_resolveOptionalPathReference hinterpreter).bind
        ((Gives.of_resolveOptionalPathReference hdirectory).bind
          ((htexts harguments).bind (.pure _))))
  | jar jarPath javaExecutablePath arguments workingDirectory =>
    simp only [visitConfig, List.forall_mem_append] at h
    obtain ⟨⟨⟨hjar, hjava⟩, hdirectory⟩, harguments⟩ := h
    exact (Gives.of_resolvePathReference hjar).bind
      ((Gives.of_resolveOptionalPathReference hjava).bind
        ((Gives.of_resolveOptionalPathReference hdirectory).bind
          ((htexts harguments).bind (.pure _))))
  | email smtpProfileId from_ to_ cc bcc subjectTemplate bodyTemplate attachmentPaths =>
    simp only [visitConfig, List.forall_mem_append, List.flatMap_append] at h
    obtain ⟨⟨⟨⟨⟨hprofile, hfrom⟩, hsubject⟩, hbody⟩, ⟨hto, hcc⟩, hbcc⟩, hattachments⟩ := h
    have hpaths : Gives P
        (resolveEach (resolvePathReference secretStore actionId) attachmentPaths)
        (attachmentPaths.map (resolvedPath (substituteText secretStore))) :=
      .of_resolveEach fun path hmem => .of_resolvePathReference fun name hname =>
        hattachments name (List.mem_flatMap.mpr ⟨path, hmem, hname⟩)
    exact (Gives.of_resolveText hprofile).bind ((Gives.of_resolveText hfrom).bind
      ((Gives.of_resolveText hsubject).bind ((Gives.of_resolveText hbody).bind
        ((htexts hto).bind ((htexts hcc).bind ((htexts hbcc).bind
          (hpaths.bind (.pure _))))))))
  | comObject progId memberName arguments =>
    simp only [visitConfig, List.forall_mem_append] at h
    obtain ⟨⟨hprog, hmember⟩, harguments⟩ := h
    have heach : Gives P
        (resolveEach (resolveArgument secretStore actionId) (argumentsOf arguments))
        ((argumentsOf arguments).map (.substitute (substituteText secretStore))) := by
      refine .of_resolveEach fun argument hmem => .of_resolveArgument fun name hname => ?_
      have hentry := List.mem_map_of_mem (f := ComArgument.entry) hmem
      rw [map_entry_argumentsOf] at hentry
      exact harguments name (List.mem_flatMap.mpr ⟨_, hentry, hname⟩)
    exact (Gives.of_resolveText hprog).bind
      ((Gives.of_resolveText hmember).bind (heach.bind (.pure _)))
  | developer executorPath projectPath data7ConfigPath connectionId connectionLabel
      connectionSnapshotHash =>
    simp only [visitConfig, List.forall_mem_append] at h
    obtain ⟨⟨⟨hexecutor, hproject⟩, hconfig⟩, hlabel⟩ := h
    exact (Gives.of_resolvePathReference hexecutor).bind
      ((Gives.of_resolvePathReference hproject).bind
        ((Gives.of_resolvePathReference hconfig).bind
          ((Gives.of_resolveText hlabel).bind (.pure _))))

theorem Gives.of_resolveForExecution {definition : AgentActionDefinition V R}
    (hpolicy : validateDefinition definition = .ok ())
    (hstore : ∀ name ∈ (collectFromDefinition definition).items, Holds secretStore name) :
    Gives (· ∈ (collectFromDefinition definition).items)
      (resolveForExecution secretStore definition)
      (if (collectFromDefinition definition).items.isEmpty then definition
        else
          { definition with
            config := resolvedConfig (substituteText secretStore) definition.config }) := by
  have hofResult : ∀ {result : Except ActionValidationFailure Unit}, result = .ok () →
      Gives (· ∈ (collectFromDefinition definition).items) (Reading.ofResult result) () :=
    fun hresult => ⟨hresult, fun _ hmem => absurd hmem List.not_mem_nil⟩
  have hensure : ensureResolvable secretStore definition = .ok () := by
    unfold ensureResolvable
    dsimp only
    split
    · rfl
    · rename_i hnames
      obtain ⟨first, rest, hfirst⟩ := List.exists_cons_of_ne_nil (mt List.isEmpty_iff.mpr hnames)
      obtain ⟨store, havailable, -⟩ := hstore first (hfirst ▸ List.mem_cons_self)
      rw [havailable]
      dsimp only
      rw [if_pos]
      rw [List.isEmpty_iff, List.filter_eq_nil_iff]
      intro name hmem
      obtain ⟨found, hfound, hexists, -⟩ := hstore name hmem
      obtain rfl := Option.some.inj (havailable.symm.trans hfound)
      simp [hexists]
  refine (hofResult hpolicy).bind ((hofResult hensure).bind ?_)
  split
  · exact .pure definition
  · have hconfig : ∀ name ∈ visitConfig definition.config,
        name ∈ (collectFromDefinition definition).items := fun name hmem =>
      LinkedSet.mem_ofList.mpr (List.mem_append_right _ hmem)
    refine (Gives.of_resolveConfig fun name hmem => ?_).bind (.pure _)
    exact ⟨hstore name (hconfig name hmem), hconfig name hmem⟩

end Resolver

/-! ## When all is kept -/

section Kept

variable {f : String → String}

theorem resolvedPath_eq_iff {path : AgentActionPathReference} :
    resolvedPath f path = substitutePath f path ↔ path.canonicalPath ≠ some "" := by
  obtain ⟨originalPath, canonicalPath, existsAtValidation, validatedAt, validationHash,
    pathChangePolicy⟩ := path
  cases canonicalPath with
  | none => simp [resolvedPath, substitutePath]
  | some canonicalPath =>
    by_cases hempty : canonicalPath = ""
    · simp [resolvedPath, substitutePath, hempty]
    · simp [resolvedPath, substitutePath, hempty]

theorem map_resolvedPath_eq_iff {path : Option AgentActionPathReference} :
    path.map (resolvedPath f) = path.map (substitutePath f) ↔
      ∀ p ∈ path.toList, p.canonicalPath ≠ some "" := by
  cases path with
  | none => simp
  | some path => simp [resolvedPath_eq_iff]

theorem entries_ofArguments_iff {arguments : JsonMap V} :
    (ofArguments ((argumentsOf arguments).map (ComArgument.substitute f))).entries =
        arguments.entries.map (substituteEntry f) ↔
      (arguments.entries.map fun entry => f entry.1).Nodup := by
  have hwritten : ((argumentsOf arguments).map (ComArgument.substitute f)).map ComArgument.entry =
      arguments.entries.map (substituteEntry f) := by
    rw [← map_entry_argumentsOf, List.map_map, List.map_map]
    rfl
  have hkeys : (arguments.entries.map fun entry => f entry.1) =
      (arguments.entries.map (substituteEntry f)).map Prod.fst := by
    rw [List.map_map]
    rfl
  have hentries :
      (ofArguments ((argumentsOf arguments).map (ComArgument.substitute f))).entries =
        (LinkedMap.ofEntries (arguments.entries.map (substituteEntry f))).entries := by
    rw [← hwritten]
    rfl
  rw [hentries, hkeys]
  constructor
  · intro h
    rw [← h]
    exact (LinkedMap.ofEntries _).nodup
  · exact LinkedMap.entries_ofEntries

theorem substituted_resolvedConfig_iff {config : AgentActionConfig V} :
    Substituted f config (resolvedConfig f config) ↔
      CanonicalNonempty config ∧ DistinctArguments f config := by
  unfold CanonicalNonempty
  cases config with
  | commandLine command workingDirectory =>
    simp [substituted_iff, resolvedConfig, AgentActionConfig.paths, DistinctArguments,
      map_resolvedPath_eq_iff]
  | executable executablePath arguments workingDirectory =>
    simp [substituted_iff, resolvedConfig, AgentActionConfig.paths, DistinctArguments,
      resolvedPath_eq_iff, map_resolvedPath_eq_iff]
  | script scriptPath interpreterPath arguments workingDirectory =>
    simp [substituted_iff, resolvedConfig, AgentActionConfig.paths, DistinctArguments,
      resolvedPath_eq_iff, map_resolvedPath_eq_iff, or_imp, forall_and]
  | jar jarPath javaExecutablePath arguments workingDirectory =>
    simp [substituted_iff, resolvedConfig, AgentActionConfig.paths, DistinctArguments,
      resolvedPath_eq_iff, map_resolvedPath_eq_iff, or_imp, forall_and]
  | email smtpProfileId from_ to_ cc bcc subjectTemplate bodyTemplate attachmentPaths =>
    simp [substituted_iff, resolvedConfig, AgentActionConfig.paths, DistinctArguments,
      resolvedPath_eq_iff]
  | comObject progId memberName arguments =>
    simp [substituted_iff, resolvedConfig, AgentActionConfig.paths, DistinctArguments,
      entries_ofArguments_iff]
  | developer executorPath projectPath data7ConfigPath connectionId connectionLabel
      connectionSnapshotHash =>
    simp [substituted_iff, resolvedConfig, AgentActionConfig.paths, DistinctArguments,
      resolvedPath_eq_iff]

theorem map_eq_self {texts : List String} (hf : ∀ text, visit text = [] → f text = text)
    (h : texts.flatMap visit = []) : texts.map f = texts := by
  rw [List.flatMap_eq_nil_iff] at h
  exact (List.map_congr_left fun text hmem => hf text (h text hmem)).trans (List.map_id _)

theorem substitutePath_eq_self {path : AgentActionPathReference}
    (hf : ∀ text, visit text = [] → f text = text) (h : visitPath path = []) :
    substitutePath f path = path := by
  obtain ⟨horiginal, hcanonical⟩ := List.append_eq_nil_iff.mp h
  obtain ⟨originalPath, canonicalPath, existsAtValidation, validatedAt, validationHash,
    pathChangePolicy⟩ := path
  have hsame : canonicalPath.map f = canonicalPath := by
    cases canonicalPath with
    | none => rfl
    | some canonicalPath =>
      refine congrArg some (hf canonicalPath ?_)
      by_cases hempty : canonicalPath = ""
      · rw [hempty]
        rfl
      · by_cases heq : canonicalPath = originalPath
        · rw [heq]
          exact horiginal
        · simpa [hempty, heq] using hcanonical
  rw [substitutePath, hf originalPath horiginal, hsame]

theorem substituteOptionalPath_eq_self {path : Option AgentActionPathReference}
    (hf : ∀ text, visit text = [] → f text = text) (h : visitOptionalPath path = []) :
    path.map (substitutePath f) = path := by
  cases path with
  | none => rfl
  | some path =>
    refine congrArg some (substitutePath_eq_self hf ?_)
    exact List.flatMap_eq_nil_iff.mp h path (List.mem_singleton_self path)

theorem substituteEntry_eq_self {entry : String × Json V}
    (hf : ∀ text, visit text = [] → f text = text) (h : visitArgument entry = []) :
    substituteEntry f entry = entry := by
  obtain ⟨hkey, hvalue⟩ := List.append_eq_nil_iff.mp h
  obtain ⟨key, value⟩ := entry
  unfold substituteEntry
  rw [hf key hkey]
  cases value with
  | text value => exact congrArg (fun text => (key, Json.text text)) (hf value hvalue)
  | null => rfl
  | bool b => rfl
  | int n => rfl
  | other v => rfl
  | list items => rfl
  | map entries => rfl

theorem substituted_self {config : AgentActionConfig V}
    (hf : ∀ text, visit text = [] → f text = text) (h : visitConfig config = []) :
    Substituted f config config := by
  cases config with
  | commandLine command workingDirectory =>
    simp only [visitConfig, List.append_eq_nil_iff] at h
    simp [substituted_iff, hf _ h.1, substituteOptionalPath_eq_self hf h.2]
  | executable executablePath arguments workingDirectory =>
    simp only [visitConfig, List.append_eq_nil_iff] at h
    obtain ⟨⟨hexecutable, hdirectory⟩, harguments⟩ := h
    simp [substituted_iff, substitutePath_eq_self hf hexecutable,
      substituteOptionalPath_eq_self hf hdirectory, map_eq_self hf harguments]
  | script scriptPath interpreterPath arguments workingDirectory =>
    simp only [visitConfig, List.append_eq_nil_iff] at h
    obtain ⟨⟨⟨hscript, hinterpreter⟩, hdirectory⟩, harguments⟩ := h
    simp [substituted_iff, substitutePath_eq_self hf hscript,
      substituteOptionalPath_eq_self hf hinterpreter,
      substituteOptionalPath_eq_self hf hdirectory, map_eq_self hf harguments]
  | jar jarPath javaExecutablePath arguments workingDirectory =>
    simp only [visitConfig, List.append_eq_nil_iff] at h
    obtain ⟨⟨⟨hjar, hjava⟩, hdirectory⟩, harguments⟩ := h
    simp [substituted_iff, substitutePath_eq_self hf hjar,
      substituteOptionalPath_eq_self hf hjava,
      substituteOptionalPath_eq_self hf hdirectory, map_eq_self hf harguments]
  | email smtpProfileId from_ to_ cc bcc subjectTemplate bodyTemplate attachmentPaths =>
    simp only [visitConfig, List.append_eq_nil_iff, List.flatMap_append] at h
    obtain ⟨⟨⟨⟨⟨hprofile, hfrom⟩, hsubject⟩, hbody⟩, ⟨hto, hcc⟩, hbcc⟩, hattachments⟩ := h
    have hpaths : attachmentPaths.map (substitutePath f) = attachmentPaths := by
      rw [List.flatMap_eq_nil_iff] at hattachments
      exact (List.map_congr_left fun path hmem =>
        substitutePath_eq_self hf (hattachments path hmem)).trans (List.map_id _)
    simp [substituted_iff, hf _ hprofile, hf _ hfrom, hf _ hsubject, hf _ hbody,
      map_eq_self hf hto, map_eq_self hf hcc, map_eq_self hf hbcc, hpaths]
  | comObject progId memberName arguments =>
    simp only [visitConfig, List.append_eq_nil_iff, List.flatMap_eq_nil_iff] at h
    obtain ⟨⟨hprog, hmember⟩, harguments⟩ := h
    have hentries : arguments.entries.map (substituteEntry f) = arguments.entries :=
      (List.map_congr_left fun entry hmem =>
        substituteEntry_eq_self hf (harguments entry hmem)).trans (List.map_id _)
    simp [substituted_iff, hf _ hprog, hf _ hmember, hentries]
  | developer executorPath projectPath data7ConfigPath connectionId connectionLabel
      connectionSnapshotHash =>
    simp only [visitConfig, List.append_eq_nil_iff] at h
    obtain ⟨⟨⟨hexecutor, hproject⟩, hconfig⟩, hlabel⟩ := h
    simp [substituted_iff, substitutePath_eq_self hf hexecutor,
      substitutePath_eq_self hf hproject, substitutePath_eq_self hf hconfig, hf _ hlabel]

end Kept

/-- The structure is kept exactly when there is no name, or no canonical path is empty and no two
arguments get one name. -/
theorem preserved_iff {secretStore : Option SecretStore} {definition : AgentActionDefinition V R}
    (hpolicy : validateDefinition definition = .ok ())
    (hstore : ∀ name ∈ (collectFromDefinition definition).items, Holds secretStore name) :
    (∃ resolved, Preserved secretStore definition resolved) ↔
      (collectFromDefinition definition).items = [] ∨
        CanonicalNonempty definition.config ∧
          DistinctArguments (substituteText secretStore) definition.config := by
  obtain ⟨hresult, hreads⟩ := Gives.of_resolveForExecution hpolicy hstore
  rw [← List.isEmpty_iff]
  by_cases hempty : (collectFromDefinition definition).items.isEmpty = true
  · simp only [hempty, if_true] at hresult
    refine iff_of_true ⟨definition, hresult, ?_, rfl, hreads⟩ (.inl hempty)
    refine substituted_self ?_ ?_
    · intro text hvisit
      exact substituteText_of_empty (visit_eq text ▸ hvisit)
    · rw [List.eq_nil_iff_forall_not_mem]
      intro name hmem
      have hname : name ∈ (collectFromDefinition definition).items :=
        LinkedSet.mem_ofList.mpr (List.mem_append_right _ hmem)
      rw [List.isEmpty_iff.mp hempty] at hname
      exact List.not_mem_nil hname
  · simp only [hempty] at hresult
    rw [or_iff_right hempty, ← substituted_resolvedConfig_iff]
    constructor
    · rintro ⟨resolved, hresolved⟩
      obtain rfl := Except.ok.inj (hresult.symm.trans hresolved.result)
      exact hresolved.config
    · intro hconfig
      exact ⟨_, hresult, hconfig, rfl, hreads⟩

/-- A store with the secret `field`. -/
def fieldStore : SecretStore where
  isAvailable := true
  exists_ secretName := secretName == "field"
  readSecret secretName := if secretName = "field" then some "Target" else none

def fieldPlaceholder : String := "$\x7bsecret:field\x7d"

def executableDefinition : AgentActionDefinition Empty Unit where
  id := "a"
  name := "run"
  policies := { others := () }
  config := .executable { originalPath := "run.exe" } ["--to", fieldPlaceholder] none

theorem preserved_executable : ∃ resolved, Preserved fieldStore executableDefinition resolved := by
  have hnames : (collectFromDefinition executableDefinition).items = ["field"] := by decide +kernel
  refine (preserved_iff rfl ?_).mpr (.inr ⟨?_, trivial⟩)
  · intro name hmem
    rw [hnames, List.mem_singleton] at hmem
    subst hmem
    exact ⟨fieldStore, rfl, rfl, "Target", rfl, by decide⟩
  · intro path hmem
    obtain rfl : path = { originalPath := "run.exe" } := List.mem_singleton.mp hmem
    simp

/-- The number of arguments of a COM object. -/
def comArgumentCount : AgentActionConfig V → Nat
  | .comObject _ _ arguments => arguments.entries.length
  | _ => 0

def comDefinition : AgentActionDefinition Empty Unit where
  id := "a"
  name := "com"
  policies := { others := () }
  config := .comObject "App" "Send" ⟨[("Target", .int 1), (fieldPlaceholder, .int 2)], by
    refine ⟨?_, trivial, trivial, trivial⟩
    decide⟩

theorem com_argument_lost :
    validateDefinition comDefinition = .ok () ∧
      (∀ name ∈ (collectFromDefinition comDefinition).items, Holds fieldStore name) ∧
      ¬ ∃ resolved, Preserved fieldStore comDefinition resolved := by
  have hnames : (collectFromDefinition comDefinition).items = ["field"] := by decide +kernel
  refine ⟨rfl, ?_, ?_⟩
  · intro name hmem
    rw [hnames, List.mem_singleton] at hmem
    subst hmem
    exact ⟨fieldStore, rfl, rfl, "Target", rfl, by decide⟩
  · rintro ⟨resolved, hresult, hconfig, -, -⟩
    have hone : (resolveForExecution fieldStore comDefinition).result.toOption.map
        (fun resolved => comArgumentCount resolved.config) = some 1 := by
      decide +kernel
    rw [hresult] at hone
    have hcount : comArgumentCount resolved.config = 1 := Option.some.inj hone
    have hkept : comArgumentCount resolved.config = 2 := by
      generalize hto : resolved.config = config at hconfig
      cases hconfig with
      | comObject _ _ hentries =>
        rw [comArgumentCount, hentries, List.length_map]
        rfl
    omega

end PlugAgente.Secrets
