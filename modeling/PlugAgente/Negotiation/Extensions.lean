import PlugAgente.Negotiation.Capabilities

/-!
# The negotiation of extensions

`_negotiateExtensions` of `ProtocolNegotiator`, with a rule for each extension: flags that both
sides set, values that both sides name, lists that are intersected, and numbers of which the
smaller one is taken.

`Negotiated` says what the entries of the outcome can be.
-/

namespace PlugAgente.Negotiation

open Wire Dart

/-! ## Rules -/

/-- `(agent[key] as bool? ?? false) && (server[key] as bool? ?? false)`. -/
def bothSet (agent server : Extensions) (key : String) : Option Bool :=
  match asFlag (agent.lookup key) with
  | some true => asFlag (server.lookup key)
  | outcome => outcome

/-- `(agent[key] as bool? ?? false) || (server[key] as bool? ?? false)`. -/
def eitherSet (agent server : Extensions) (key : String) : Option Bool :=
  match asFlag (agent.lookup key) with
  | some false => asFlag (server.lookup key)
  | outcome => outcome

/-- A value of the agent that is not null and that the server names too. -/
def sameInBoth (agent server : Extensions) (key : String) : Option Value :=
  match agent.lookup key, server.lookup key with
  | some a, some s => if !a.isNull && same a s then some a else none
  | _, _ => none

/-- The units of a string in UTF-16. -/
def codeUnits (t : String) : List Nat :=
  t.toList.flatMap fun c =>
    if c.toNat < 0x10000 then [c.toNat]
    else [0xD800 + (c.toNat - 0x10000) / 0x400, 0xDC00 + (c.toNat - 0x10000) % 0x400]

/-- `whereType<String>()`. -/
def strings (items : List Value) : List String :=
  items.filterMap asString

def intersectStringLists : Option Value → Option Value → List String
  | some (.list a), some (.list b) =>
    ((strings a).eraseDups.filter fun t => (strings b).contains t).insertionSort fun t u =>
      codeUnits t ≤ codeUnits u
  | _, _ => []

def negotiateMinPositiveInt (agentValue serverValue : Option Value) : Option Int :=
  match positiveInt? agentValue, positiveInt? serverValue with
  | none, serverInt => serverInt
  | agentInt, none => agentInt
  | some agentInt, some serverInt =>
    some (if agentInt < serverInt then agentInt else serverInt)

def negotiateCompressionThreshold (agent server : Extensions) : Int :=
  let agentThreshold := (positiveInt? (agent.lookup "compressionThreshold")).getD 4096
  let serverThreshold := (positiveInt? (server.lookup "compressionThreshold")).getD 4096
  if agentThreshold < serverThreshold then agentThreshold else serverThreshold

/-- A ratio that is a number from one on, `toDouble()`. -/
def ratio? : Option Value → Option Double
  | some (.int n) => if 1 ≤ n then some (.ofInt n) else none
  | some (.other d) => if d == .finite 1 || (Double.finite 1).lt d then some d else none
  | _ => none

def negotiateMaxInflationRatio (agent server : Extensions) : Double :=
  let agentRatio := (ratio? (agent.lookup "maxInflationRatio")).getD (.finite 10)
  let serverRatio := (ratio? (server.lookup "maxInflationRatio")).getD (.finite 10)
  if agentRatio.lt serverRatio then agentRatio else serverRatio

def negotiateSignatureRequired (agent server : Extensions) (signatureAlgorithms : List String) :
    Option Bool :=
  (eitherSet agent server "signatureRequired").map fun required =>
    required && !signatureAlgorithms.isEmpty

def negotiateHealthPiggyback : Option Value → Option Value → Option Value
  | some (.map agent), some (.map server) =>
    some (.map [
      ("intervalRequests", .int ((negotiateMinPositiveInt (agent.lookup "intervalRequests")
        (server.lookup "intervalRequests")).getD 50)),
      ("freshnessThresholdMs", .int ((negotiateMinPositiveInt
        (agent.lookup "freshnessThresholdMs") (server.lookup "freshnessThresholdMs")).getD
          5000))])
  | _, _ => none

/-! ## Parallel dispatch -/

/-- `ParallelBatchDispatchNegotiation`. -/
structure ParallelBatchDispatch where
  maxConcurrency : Int := 4
  mixedReadOnlyMethods : Bool := true
  selectOnlySqlExecute : Bool := true
  deriving DecidableEq

namespace ParallelBatchDispatch

/-- `agentAdvertisement`, enabled. -/
def agentAdvertisement (d : ParallelBatchDispatch) : Value :=
  .map [("enabled", .bool true), ("maxConcurrency", .int d.maxConcurrency),
    ("mixedReadOnlyMethods", .bool d.mixedReadOnlyMethods),
    ("selectOnlySqlExecute", .bool d.selectOnlySqlExecute)]

def fromNegotiatedExtensions (negotiatedExtensions : Extensions) :
    Option (Option ParallelBatchDispatch) :=
  match negotiatedExtensions.lookup "parallelBatchDispatch" with
  | some (.bool true) => some (some {})
  | some (.map raw) => do
    let enabled ← asFlag (raw.lookup "enabled")
    if !enabled then return none
    let mixedReadOnlyMethods ← asFlag (raw.lookup "mixedReadOnlyMethods")
    let selectOnlySqlExecute ← asFlag (raw.lookup "selectOnlySqlExecute")
    return some {
      maxConcurrency := (positiveInt? (raw.lookup "maxConcurrency")).getD 4
      mixedReadOnlyMethods := mixedReadOnlyMethods
      selectOnlySqlExecute := selectOnlySqlExecute }
  | _ => some none

/-- `_negotiateParallelBatchDispatch`, for two maps. -/
def negotiateMaps (agent server : Extensions) : Option (Option ParallelBatchDispatch) := do
  let agentEnabled ← asFlag (agent.lookup "enabled")
  let serverEnabled ← asFlag (server.lookup "enabled")
  if !agentEnabled || !serverEnabled then return none
  let mixedReadOnlyMethods ← bothSet agent server "mixedReadOnlyMethods"
  let selectOnlySqlExecute ← bothSet agent server "selectOnlySqlExecute"
  return some {
    maxConcurrency := (negotiateMinPositiveInt (agent.lookup "maxConcurrency")
      (server.lookup "maxConcurrency")).getD 4
    mixedReadOnlyMethods := mixedReadOnlyMethods
    selectOnlySqlExecute := selectOnlySqlExecute }

/-- `_negotiateParallelBatchDispatch`. -/
def negotiate : Option Value → Option Value → Option (Option ParallelBatchDispatch)
  | some (.bool true), some (.bool true) => some (some {})
  | some (.map agent), some (.map server) => negotiateMaps agent server
  | _, _ => some none

end ParallelBatchDispatch

/-! ## SQL operations -/

namespace SqlOperationCapability

def limits : List (String × Int) :=
  [("maxSteps", 32), ("maxAffectedRows", 100000), ("timeoutMs", 300000)]

/-- `supported`, with the entries of the map. -/
def supported : Option Value → Option Extensions
  | some (.map raw) =>
    if isValue (raw.lookup "enabled") (.bool true) && isInt (raw.lookup "version") 1 &&
        isValue (raw.lookup "durableJournal") (.bool true) &&
        isValue (raw.lookup "singleSourceTransaction") (.bool true) &&
        isValue (raw.lookup "automaticReplay") (.bool false) &&
        limits.all fun entry => (positiveInt? (raw.lookup entry.1)).isSome
    then some raw
    else none
  | _ => none

def supportsStructure (raw : Extensions) : Bool :=
  isInt (raw.lookup "structureGuard") 1

/-- The smallest of the two numbers and the limit. -/
def ceiling (a b : Extensions) (entry : String × Int) : Int :=
  let x := (positiveInt? (a.lookup entry.1)).getD entry.2
  let y := (positiveInt? (b.lookup entry.1)).getD entry.2
  let smaller := if x < y then x else y
  if smaller < entry.2 then smaller else entry.2

/-- `SqlOperationCapability.negotiate`. -/
def negotiate (local' remote : Option Value) : Option Value :=
  match supported local', supported remote with
  | some a, some b =>
    some (.map ([("enabled", .bool true), ("version", .int 1), ("durableJournal", .bool true),
      ("singleSourceTransaction", .bool true), ("automaticReplay", .bool false)] ++
      limits.map (fun entry => (entry.1, .int (ceiling a b entry))) ++
      if supportsStructure a && supportsStructure b then [("structureGuard", .int 1)] else []))
  | _, _ => none

end SqlOperationCapability

/-! ## Agent actions -/

namespace ActionIoCapability

def advertisement : Extensions :=
  [("version", .int 1), ("max_block_bytes", .int (64 * 1024)),
    ("max_read_bytes", .int (256 * 1024)), ("max_page_events", .int 256),
    ("max_json_bytes", .int (512 * 1024)), ("max_execution_bytes", .int (64 * 1024 * 1024)),
    ("max_queued_messages", .int 16), ("max_queued_bytes", .int (1024 * 1024)),
    ("max_execution_messages", .int 8192), ("max_execution_events", .int 65536),
    ("max_wait_ms", .int 20000), ("request_timeout_ms", .int 30000),
    ("output_retention_seconds", .int 86400),
    ("deduplication_retention_seconds", .int 259200),
    ("max_readers_per_execution", .int 1), ("max_readers_per_client", .int 8),
    ("max_readers_per_connection", .int 16), ("max_readers_per_agent", .int 32),
    ("supports_interactive_input", .bool true), ("requires_local_credential", .bool true),
    ("automatic_replay", .bool false)]

def supported : Option Value → Bool
  | some (.map value) =>
    value.length == advertisement.length && advertisement.all fun entry =>
      isValue (value.lookup entry.1) entry.2 &&
        (!entry.2.isInt || ((value.lookup entry.1).map Json.isInt).getD false)
  | _ => false

/-- `ActionIoCapability.negotiate`. -/
def negotiate (local' remote : Option Value) : Option Value :=
  if supported local' && supported remote then some (.map advertisement) else none

end ActionIoCapability

/-- `ActionIoLimits.jsonBytes`. -/
def jsonBytes : Int := 512 * 1024

/-- The actions that a side has, enabled, in version 1. -/
def enabledActions : Option Value → Option Extensions
  | some (.map actions) =>
    if isValue (actions.lookup "enabled") (.bool true) && isInt (actions.lookup "version") 1 then
      some actions
    else none
  | _ => none

/-- `negotiatedExtensions['agentActions']`, for two sides that have them. -/
def negotiateActions (agent server : Extensions) : Option Value :=
  (ActionIoCapability.negotiate (agent.lookup "io") (server.lookup "io")).map fun io =>
    .map ([("io", io)] ++
      (["catalogVersion", "deadlineClock"].flatMap fun key =>
        if isValue (agent.lookup key) (.int 1) && isValue (server.lookup key) (.int 1) then
          [(key, .int 1)]
        else []))

/-! ## All extensions -/

/-- `if (condition) negotiated[key] = value`. -/
def only (condition : Bool) (key : String) (value : Value) : Extensions :=
  if condition then [(key, value)] else []

def nonEmpty (items : List String) : Option Value :=
  if items.isEmpty then none else some (.list (items.map .text))

/-- The recommended window, clamped to the largest one. -/
def clampedWindow (recommended maxWindow : Option Int) : Option Int :=
  match recommended, maxWindow with
  | some recommended, some maxWindow =>
    some (if maxWindow < recommended then maxWindow else recommended)
  | recommended, _ => recommended

def sourceExtensions : List String :=
  ["sourceDiscovery", "sourceIdentity", "sourceSchema", "sourceConstraints"]

def negotiateExtensions (agent server : Extensions) : Option Extensions := do
  let orderedBatchResponses ← bothSet agent server "orderedBatchResponses"
  let notificationNullIdCompatibility ← bothSet agent server "notificationNullIdCompatibility"
  let protocolReadyAck ← bothSet agent server "protocolReadyAck"
  let streamingResults ← bothSet agent server "streamingResults"
  let binaryPayload ← bothSet agent server "binaryPayload"
  let shared key := intersectStringLists (agent.lookup key) (server.lookup key)
  let signatureRequired ← negotiateSignatureRequired agent server (shared "signatureAlgorithms")
  let parallelBatchDispatch ← ParallelBatchDispatch.negotiate
    (agent.lookup "parallelBatchDispatch") (server.lookup "parallelBatchDispatch")
  let smallest key := negotiateMinPositiveInt (agent.lookup key) (server.lookup key)
  let recommended := clampedWindow (smallest "recommendedStreamPullWindowSize")
    (smallest "maxStreamPullWindowSize")
  return (
    only orderedBatchResponses "orderedBatchResponses" (.bool true) ++
    only notificationNullIdCompatibility "notificationNullIdCompatibility" (.bool true) ++
    only protocolReadyAck "protocolReadyAck" (.bool true) ++
    [("streamingResults", .bool streamingResults)] ++
    only binaryPayload "binaryPayload" (.bool true) ++
    optional "transportFrame" (sameInBoth agent server "transportFrame") ++
    [("compressionThreshold", .int (negotiateCompressionThreshold agent server))] ++
    [("maxInflationRatio", .other (negotiateMaxInflationRatio agent server))] ++
    optional "signatureAlgorithms" (nonEmpty (shared "signatureAlgorithms")) ++
    optional "signatureScope" (sameInBoth agent server "signatureScope") ++
    [("signatureRequired", .bool signatureRequired)] ++
    optional "paginationModes" (nonEmpty (shared "paginationModes")) ++
    optional "traceContext" (nonEmpty (shared "traceContext")) ++
    optional "errorFormat" (sameInBoth agent server "errorFormat") ++
    optional "plugProfile" (sameInBoth agent server "plugProfile") ++
    optional "parallelBatchDispatch"
      (parallelBatchDispatch.map ParallelBatchDispatch.agentAdvertisement) ++
    optional "maxStreamPullWindowSize" ((smallest "maxStreamPullWindowSize").map .int) ++
    optional "recommendedStreamPullWindowSize" (recommended.map .int) ++
    optional "clientRequestIdEcho" (sameInBoth agent server "clientRequestIdEcho") ++
    optional "agentPhaseTimings" (sameInBoth agent server "agentPhaseTimings") ++
    optional "healthPiggyback" (negotiateHealthPiggyback (agent.lookup "healthPiggyback")
      (server.lookup "healthPiggyback")) ++
    sourceExtensions.flatMap (fun key =>
      only (isValue (agent.lookup key) (.int 1) && isValue (server.lookup key) (.int 1)) key
        (.int 1)) ++
    optional "sqlOperations" (SqlOperationCapability.negotiate (agent.lookup "sqlOperations")
      (server.lookup "sqlOperations")))

/-! ## What the outcome holds -/

def flagExtensions : List String :=
  ["orderedBatchResponses", "notificationNullIdCompatibility", "protocolReadyAck",
    "streamingResults", "binaryPayload"]

def namedExtensions : List String :=
  ["transportFrame", "signatureScope", "errorFormat", "plugProfile", "clientRequestIdEcho",
    "agentPhaseTimings"]

def listExtensions : List String :=
  ["signatureAlgorithms", "paginationModes", "traceContext"]

/-- What an entry of the negotiated extensions comes from. -/
inductive Negotiated (agent server : Extensions) : String → Value → Prop
  | flag {key : String} (hkey : key ∈ flagExtensions)
      (hset : bothSet agent server key = some true) : Negotiated agent server key (.bool true)
  | streamingOff : Negotiated agent server "streamingResults" (.bool false)
  | named {key : String} {value : Value} (hkey : key ∈ namedExtensions)
      (hsame : sameInBoth agent server key = some value) : Negotiated agent server key value
  | list {key : String} {value : Value} (hkey : key ∈ listExtensions)
      (hshared : nonEmpty (intersectStringLists (agent.lookup key) (server.lookup key)) =
        some value) : Negotiated agent server key value
  | compressionThreshold {value : Value} : Negotiated agent server "compressionThreshold" value
  | maxInflationRatio {value : Value} : Negotiated agent server "maxInflationRatio" value
  | signatureRequired {value : Value} : Negotiated agent server "signatureRequired" value
  | parallelBatchDispatch {d : ParallelBatchDispatch}
      (hdispatch : ParallelBatchDispatch.negotiate (agent.lookup "parallelBatchDispatch")
        (server.lookup "parallelBatchDispatch") = some (some d)) :
      Negotiated agent server "parallelBatchDispatch" d.agentAdvertisement
  | maxWindow {n : Int} (hwindow : negotiateMinPositiveInt
      (agent.lookup "maxStreamPullWindowSize") (server.lookup "maxStreamPullWindowSize") =
        some n) : Negotiated agent server "maxStreamPullWindowSize" (.int n)
  | recommendedWindow {n : Int} (hwindow : clampedWindow
      (negotiateMinPositiveInt (agent.lookup "recommendedStreamPullWindowSize")
        (server.lookup "recommendedStreamPullWindowSize"))
      (negotiateMinPositiveInt (agent.lookup "maxStreamPullWindowSize")
        (server.lookup "maxStreamPullWindowSize")) = some n) :
      Negotiated agent server "recommendedStreamPullWindowSize" (.int n)
  | healthPiggyback {value : Value} (hhealth : negotiateHealthPiggyback
      (agent.lookup "healthPiggyback") (server.lookup "healthPiggyback") = some value) :
      Negotiated agent server "healthPiggyback" value
  | source {key : String} (hkey : key ∈ sourceExtensions)
      (hagent : isValue (agent.lookup key) (.int 1) = true)
      (hserver : isValue (server.lookup key) (.int 1) = true) :
      Negotiated agent server key (.int 1)
  | sqlOperations {value : Value} (hsql : SqlOperationCapability.negotiate
      (agent.lookup "sqlOperations") (server.lookup "sqlOperations") = some value) :
      Negotiated agent server "sqlOperations" value
  | agentActions {value : Value} {a s : Extensions}
      (hagent : enabledActions (agent.lookup "agentActions") = some a)
      (hserver : enabledActions (server.lookup "agentActions") = some s)
      (hactions : negotiateActions a s = some value) :
      Negotiated agent server "agentActions" value

theorem mem_only {condition : Bool} {key k : String} {value v : Value}
    (h : (k, v) ∈ only condition key value) : condition = true ∧ k = key ∧ v = value := by
  cases condition with
  | false => simp [only] at h
  | true => simpa [only] using h

theorem mem_optional {key k : String} {value : Option Value} {v : Value}
    (h : (k, v) ∈ optional key value) : k = key ∧ value = some v := by
  cases value with
  | none => simp [Wire.optional] at h
  | some value =>
    obtain ⟨hk, hv⟩ : k = key ∧ v = value := by simpa [Wire.optional] using h
    exact ⟨hk, congrArg some hv.symm⟩

theorem negotiateExtensions_mem {agent server negotiated : Extensions}
    (h : negotiateExtensions agent server = some negotiated) :
    ∀ entry ∈ negotiated, Negotiated agent server entry.1 entry.2 := by
  simp only [negotiateExtensions, Option.bind_eq_bind, Option.bind_eq_some_iff, Option.pure_def,
    Option.some.injEq] at h
  obtain ⟨ordered, hordered, nullId, hnullId, ready, hready, streaming, hstreaming, binary,
    hbinary, required, -, dispatch, hdispatch, rfl⟩ := h
  have flag {key : String} {set : Bool} (hkey : key ∈ flagExtensions)
      (hset : bothSet agent server key = some set) :
      ∀ entry ∈ only set key (.bool true), Negotiated agent server entry.1 entry.2 := by
    rintro ⟨k, v⟩ hentry
    obtain ⟨rfl, rfl, rfl⟩ := mem_only hentry
    exact .flag hkey hset
  have named {key : String} (hkey : key ∈ namedExtensions) :
      ∀ entry ∈ optional key (sameInBoth agent server key),
        Negotiated agent server entry.1 entry.2 := by
    rintro ⟨k, v⟩ hentry
    obtain ⟨rfl, hsame⟩ := mem_optional hentry
    exact .named hkey hsame
  have list {key : String} (hkey : key ∈ listExtensions) :
      ∀ entry ∈ optional key
        (nonEmpty (intersectStringLists (agent.lookup key) (server.lookup key))),
        Negotiated agent server entry.1 entry.2 := by
    rintro ⟨k, v⟩ hentry
    obtain ⟨rfl, hshared⟩ := mem_optional hentry
    exact .list hkey hshared
  have window {key : String} {smallest : Option Int}
      (hwindow : ∀ n, smallest = some n → Negotiated agent server key (.int n)) :
      ∀ entry ∈ optional key (smallest.map .int), Negotiated agent server entry.1 entry.2 := by
    rintro ⟨k, v⟩ hentry
    obtain ⟨rfl, hmap⟩ := mem_optional hentry
    obtain ⟨n, hn, rfl⟩ := Option.map_eq_some_iff.mp hmap
    exact hwindow n hn
  simp only [List.forall_mem_append, List.forall_mem_singleton]
  refine ⟨⟨⟨⟨⟨⟨⟨⟨⟨⟨⟨⟨⟨⟨⟨⟨⟨⟨⟨⟨⟨⟨flag (by decide) hordered, flag (by decide) hnullId⟩,
    flag (by decide) hready⟩, ?_⟩, flag (by decide) hbinary⟩, named (by decide)⟩,
    .compressionThreshold⟩, .maxInflationRatio⟩, list (by decide)⟩, named (by decide)⟩,
    .signatureRequired⟩, list (by decide)⟩, list (by decide)⟩, named (by decide)⟩,
    named (by decide)⟩, ?_⟩, window fun n => .maxWindow⟩, window fun n => .recommendedWindow⟩,
    named (by decide)⟩, named (by decide)⟩, ?_⟩, ?_⟩, ?_⟩
  · cases streaming with
    | false => exact .streamingOff
    | true => exact .flag (by decide) hstreaming
  · rintro ⟨k, v⟩ hentry
    obtain ⟨rfl, hmap⟩ := mem_optional hentry
    obtain ⟨d, rfl, rfl⟩ := Option.map_eq_some_iff.mp hmap
    exact .parallelBatchDispatch hdispatch
  · rintro ⟨k, v⟩ hentry
    obtain ⟨rfl, hhealth⟩ := mem_optional hentry
    exact .healthPiggyback hhealth
  · rintro ⟨k, v⟩ hentry
    obtain ⟨key, hkey, honly⟩ := List.mem_flatMap.mp hentry
    obtain ⟨hboth, rfl, rfl⟩ := mem_only honly
    rw [Bool.and_eq_true] at hboth
    exact .source hkey hboth.1 hboth.2
  · rintro ⟨k, v⟩ hentry
    obtain ⟨rfl, hsql⟩ := mem_optional hentry
    exact .sqlOperations hsql

end PlugAgente.Negotiation
