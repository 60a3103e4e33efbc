import PlugAgente.Negotiation.Entries
import PlugAgente.Negotiation.Protocol

/-!
# Negotiation weakens neither side

The outcome of a successful negotiation requires signatures if a side does, with an algorithm of
both; its bounds are within what each side declares; and an extension is on only if both sides
offer it.

A bound counts as declared when it is well formed: a limit in the first of its fields that the
document has, a window or a concurrency that is a positive integer, a ratio from one on.  Other
values are replaced by a default, and `malformed_bounds_replaced` shows that the outcome may
then be above them.
-/

namespace PlugAgente.Negotiation

open Wire Dart

/-! ## The property -/

/-- The bounds of the outcome are within those that a side declares in its extensions. -/
structure WithinBounds (side : Extensions) (config : ProtocolConfig) : Prop where
  inflation : ∀ ratio, ratio? (side.lookup "maxInflationRatio") = some ratio →
    ratio.lt config.maxInflationRatio = false
  window : ∀ key ∈ windows, ∀ n bound,
    config.negotiatedExtensions.lookup key = some (.int n) →
      positiveInt? (side.lookup key) = some bound → n ≤ bound
  concurrency : ∀ d bound,
    ParallelBatchDispatch.fromNegotiatedExtensions config.negotiatedExtensions =
        some (some d) →
      intIn (side.lookup "parallelBatchDispatch") "maxConcurrency" = some bound →
        d.maxConcurrency ≤ bound
  sqlOperations : ∀ entry ∈ SqlOperationCapability.limits, ∀ n bound,
    intIn (config.negotiatedExtensions.lookup "sqlOperations") entry.1 = some n →
      intIn (side.lookup "sqlOperations") entry.1 = some bound → n ≤ bound

/-- The outcome weakens neither side. -/
structure NeverWeaker (agent server : ProtocolCapabilities) (config : ProtocolConfig) :
    Prop where
  required : (requiresSignature agent.extensions || requiresSignature server.extensions) = true →
    config.signatureRequired = true
  algorithm : config.signatureRequired = true →
    supportedAlgorithm ∈ config.signatureAlgorithms
  algorithms : ∀ algorithm ∈ config.signatureAlgorithms,
    offersAlgorithm agent.extensions algorithm = true ∧
      offersAlgorithm server.extensions algorithm = true
  limits : ∀ l : Limit, l.of config.effectiveLimits ≤ l.of agent.limits ∧
    l.of config.effectiveLimits ≤ l.of server.limits
  agentBounds : WithinBounds agent.extensions config
  serverBounds : WithinBounds server.extensions config
  recommended : ∀ n maxWindow,
    config.negotiatedExtensions.lookup "recommendedStreamPullWindowSize" = some (.int n) →
      config.negotiatedExtensions.lookup "maxStreamPullWindowSize" = some (.int maxWindow) →
        n ≤ maxWindow
  extension : ∀ key value, config.negotiatedExtensions.lookup key = some value →
    isOn value = true → key ∉ settings →
      offers agent.extensions key = true ∧ offers server.extensions key = true
  part : ∀ entry ∈ optionalParts,
    partOn (config.negotiatedExtensions.lookup entry.1) entry.2 = true →
      offersPart agent.extensions entry.1 entry.2 = true ∧
        offersPart server.extensions entry.1 entry.2 = true

/-! ## The outcome -/

/-- What a successful negotiation comes to. -/
structure Outcome (agent server : ProtocolCapabilities) (config : ProtocolConfig) : Prop where
  signatureRequired : negotiateSignatureRequired agent.extensions server.extensions
    config.signatureAlgorithms = some config.signatureRequired
  signatureAlgorithms : config.signatureAlgorithms = intersectStringLists
    (agent.extensions.lookup "signatureAlgorithms")
    (server.extensions.lookup "signatureAlgorithms")
  maxInflationRatio : config.maxInflationRatio =
    negotiateMaxInflationRatio agent.extensions server.extensions
  effectiveLimits : config.effectiveLimits = agent.limits.negotiateWith server.limits
  entries : ∀ entry ∈ config.negotiatedExtensions,
    Negotiated agent.extensions server.extensions entry.1 entry.2

theorem agentActions_negotiated {agent server : ProtocolCapabilities} {protocol encoding : String}
    {limits : TransportLimits} {negotiated : Extensions} {value : Value}
    (h : ProtocolNegotiator.agentActions agent server protocol encoding limits negotiated =
      some value) : Negotiated agent.extensions server.extensions "agentActions" value := by
  unfold ProtocolNegotiator.agentActions at h
  split at h
  · rename_i a s hagent hserver
    split at h
    · exact .agentActions hagent hserver h
    · cases h
  · cases h

theorem negotiate_outcome {agent server : ProtocolCapabilities} {preferJsonRpcV2 : Bool}
    {config : ProtocolConfig}
    (h : ProtocolNegotiator.negotiate agent server preferJsonRpcV2 = some config) :
    Outcome agent server config := by
  simp only [ProtocolNegotiator.negotiate, Option.bind_eq_bind, Option.bind_eq_some_iff,
    Option.pure_def, Option.some.injEq] at h
  obtain ⟨protocols, -, first, -, encodings, -, compressions, -, negotiated, hnegotiated,
    required, hrequired, rfl⟩ := h
  refine ⟨hrequired, rfl, rfl, rfl, ?_⟩
  intro entry hentry
  rcases List.mem_append.mp hentry with hentry | hentry
  · exact negotiateExtensions_mem hnegotiated entry hentry
  · obtain ⟨hkey, hvalue⟩ := mem_optional (k := entry.1) (v := entry.2) hentry
    rw [hkey]
    exact agentActions_negotiated hvalue

theorem handleEnvelope_cases {env : NegotiatorEnv} {decoded : Option Value}
    {config : ProtocolConfig} (h : env.handleEnvelope decoded = some config) :
    ∃ payload document server, decoded = some (.map payload) ∧
      payload.lookup "capabilities" = some (.map document) ∧
      ProtocolCapabilities.fromJson document = some server ∧
      ProtocolNegotiator.negotiate env.localCapabilities server = some config ∧
      env.validateNegotiatedTransportContract config env.localCapabilities server = some () := by
  have asMap_some {value : Option Value} {entries : Extensions} (h : asMap value = some entries) :
      value = some (.map entries) := by
    unfold asMap at h
    split at h
    · rw [Option.some.inj h]
    · cases h
  simp only [NegotiatorEnv.handleEnvelope, Option.bind_eq_bind, Option.bind_eq_some_iff,
    Option.pure_def, Option.some.injEq] at h
  obtain ⟨payload, hpayload, -, -, document, hdocument, server, hserver, config', hnegotiate,
    ⟨⟩, hvalidate, rfl⟩ := h
  exact ⟨payload, document, server, asMap_some hpayload, asMap_some hdocument, hserver,
    hnegotiate, hvalidate⟩

theorem validate_signature {env : NegotiatorEnv} {config : ProtocolConfig}
    {agent server : ProtocolCapabilities}
    (h : env.validateNegotiatedTransportContract config agent server = some ()) :
    ((requiresSignature agent.extensions || requiresSignature server.extensions) = true →
        config.signatureAlgorithms.isEmpty = false) ∧
      (config.signatureRequired = true → supportedAlgorithm ∈ config.signatureAlgorithms) := by
  simp only [NegotiatorEnv.validateNegotiatedTransportContract, Option.bind_eq_bind,
    Option.bind_eq_some_iff, Option.guard_eq_some'] at h
  obtain ⟨-, -, -, -, -, -, -, -, -, -, -, -, -, -, -, -, -, -, -, -, agentRequires, hagent,
    serverRequires, hserver, -, -, -, hshared, -, -, halgorithm⟩ := h
  rw [requiresSignature_iff hagent, requiresSignature_iff hserver]
  constructor
  · intro hrequires
    simpa [hrequires] using hshared
  · intro hrequired
    simpa [hrequired] using halgorithm

theorem within_bounds {agent server : ProtocolCapabilities} {config : ProtocolConfig}
    (h : Outcome agent server config) :
    WithinBounds agent.extensions config ∧ WithinBounds server.extensions config := by
  have hratio := Double.lt_smaller
    ((ratio? (agent.extensions.lookup "maxInflationRatio")).getD (.finite 10))
    ((ratio? (server.extensions.lookup "maxInflationRatio")).getD (.finite 10))
  have hconfig : config.maxInflationRatio = _ := h.maxInflationRatio
  rw [negotiateMaxInflationRatio] at hconfig
  constructor
  · constructor
    · intro ratio hdeclared
      rw [hdeclared] at hconfig hratio
      rw [hconfig]
      exact hratio.1
    · intro key hkey n bound hlookup hbound
      exact ((h.entries _ (mem_of_lookup hlookup)).window_le hkey).1 bound hbound
    · intro d bound hd hbound
      exact (Negotiated.concurrency_le h.entries hd).1 bound hbound
    · intro entry hentry n bound hn hbound
      cases hlookup : config.negotiatedExtensions.lookup "sqlOperations" with
      | none =>
        rw [hlookup] at hn
        cases hn
      | some value =>
        rw [hlookup] at hn
        have hsql := (h.entries _ (mem_of_lookup hlookup)).of_sqlOperations
        exact (Negotiated.ceiling_le hsql hentry hn).1 bound hbound
  · constructor
    · intro ratio hdeclared
      rw [hdeclared] at hconfig hratio
      rw [hconfig]
      exact hratio.2
    · intro key hkey n bound hlookup hbound
      exact ((h.entries _ (mem_of_lookup hlookup)).window_le hkey).2 bound hbound
    · intro d bound hd hbound
      exact (Negotiated.concurrency_le h.entries hd).2 bound hbound
    · intro entry hentry n bound hn hbound
      cases hlookup : config.negotiatedExtensions.lookup "sqlOperations" with
      | none =>
        rw [hlookup] at hn
        cases hn
      | some value =>
        rw [hlookup] at hn
        have hsql := (h.entries _ (mem_of_lookup hlookup)).of_sqlOperations
        exact (Negotiated.ceiling_le hsql hentry hn).2 bound hbound

theorem recommended_le {agent server : ProtocolCapabilities} {config : ProtocolConfig}
    (h : Outcome agent server config) {n maxWindow : Int}
    (hn : config.negotiatedExtensions.lookup "recommendedStreamPullWindowSize" = some (.int n))
    (hmax : config.negotiatedExtensions.lookup "maxStreamPullWindowSize" =
      some (.int maxWindow)) : n ≤ maxWindow := by
  obtain ⟨m, hclamped, hm⟩ := (h.entries _ (mem_of_lookup hn)).of_recommendedWindow
  obtain ⟨k, hmin, hk⟩ := (h.entries _ (mem_of_lookup hmax)).of_maxWindow
  obtain rfl : n = m := Json.int.inj hm
  obtain rfl : maxWindow = k := Json.int.inj hk
  exact (clampedWindow_le hclamped).2 maxWindow hmin

theorem algorithm_offered {agent server : ProtocolCapabilities} {config : ProtocolConfig}
    (h : Outcome agent server config) {algorithm : String}
    (halgorithm : algorithm ∈ config.signatureAlgorithms) :
    offersAlgorithm agent.extensions algorithm = true ∧
      offersAlgorithm server.extensions algorithm = true := by
  rw [h.signatureAlgorithms] at halgorithm
  obtain ⟨⟨a, hagent, ha⟩, ⟨s, hserver, hs⟩⟩ := mem_intersectStringLists halgorithm
  unfold offersAlgorithm
  rw [hagent, hserver]
  exact ⟨List.contains_iff_mem.mpr ha, List.contains_iff_mem.mpr hs⟩

/-- An envelope that is accepted negotiates a protocol that weakens neither side, and its
limits are within those of the document of the server. -/
theorem handleEnvelope_never_weakens {env : NegotiatorEnv} {decoded : Option Value}
    {config : ProtocolConfig} (h : env.handleEnvelope decoded = some config) :
    ∃ payload document server, decoded = some (.map payload) ∧
      payload.lookup "capabilities" = some (.map document) ∧
      ProtocolCapabilities.fromJson document = some server ∧
      NeverWeaker env.localCapabilities server config ∧
      ∀ limits l n, document.lookup "limits" = some (.map limits) →
        declared limits (Limit.fields l) = some (.int n) → l.of config.effectiveLimits ≤ n := by
  obtain ⟨payload, document, server, hpayload, hdocument, hserver, hnegotiate, hvalidate⟩ :=
    handleEnvelope_cases h
  have houtcome := negotiate_outcome hnegotiate
  obtain ⟨hshared, halgorithm⟩ := validate_signature hvalidate
  obtain ⟨hagentBounds, hserverBounds⟩ := within_bounds houtcome
  have hlimits (l : Limit) : l.of config.effectiveLimits ≤ l.of env.localCapabilities.limits ∧
      l.of config.effectiveLimits ≤ l.of server.limits := by
    rw [houtcome.effectiveLimits]
    exact l.of_negotiateWith_le _ _
  refine ⟨payload, document, server, hpayload, hdocument, hserver, ?_, ?_⟩
  · refine ⟨?_, halgorithm, fun _ => algorithm_offered houtcome, hlimits, hagentBounds,
      hserverBounds, fun _ _ => recommended_le houtcome, ?_, ?_⟩
    · intro hrequires
      have hrule := houtcome.signatureRequired
      unfold negotiateSignatureRequired at hrule
      obtain ⟨required, heither, hrequired⟩ := Option.map_eq_some_iff.mp hrule
      rw [← hrequired, eitherSet_requires heither hrequires, hshared hrequires]
      rfl
    · intro key value hlookup hon hkey
      exact (houtcome.entries _ (mem_of_lookup hlookup)).offered hon hkey
    · rintro ⟨key, part⟩ hpart hon
      cases hlookup : config.negotiatedExtensions.lookup key with
      | none =>
        rw [hlookup] at hon
        cases hon
      | some value =>
        rw [hlookup] at hon
        exact (houtcome.entries _ (mem_of_lookup hlookup)).part_offered hpart hon
  · intro limits l n hdoc hdeclared
    have hread : TransportLimits.fromJson limits = some server.limits := by
      simp only [ProtocolCapabilities.fromJson, Option.bind_eq_bind, Option.bind_eq_some_iff,
        Option.pure_def, Option.some.injEq] at hserver
      obtain ⟨-, -, -, -, -, -, -, -, read, hread, rfl⟩ := hserver
      rw [hdoc] at hread
      exact hread
    rw [← TransportLimits.of_fromJson hread hdeclared]
    exact (hlimits l).2

/-! ## Documents -/

/-- The capabilities of the agent, as far as the contract of the transport asks for them. -/
def agentCapabilities : ProtocolCapabilities where
  protocols := [.text "jsonrpc-v2"]
  encodings := [.text "json"]
  compressions := [.text "gzip", .text "none"]
  extensions := [("binaryPayload", .bool true), ("compressionThreshold", .int 4096),
    ("transportFrame", .text "payload-frame/1.0"), ("maxInflationRatio", .other (.finite 10)),
    ("signatureAlgorithms", .list [.text "hmac-sha256"]),
    ("maxStreamPullWindowSize", .int 100),
    ("parallelBatchDispatch", .map [("enabled", .bool true), ("maxConcurrency", .int 4)])]

/-- An envelope of a server with some extensions beside the mandatory ones. -/
def envelopeWith (extensions : Extensions) : Value :=
  .map [("capabilities", .map [("protocols", .list [.text "jsonrpc-v2"]),
    ("encodings", .list [.text "json"]), ("compressions", .list [.text "gzip"]),
    ("limits", .map [("max_rows", .int 100)]),
    ("extensions", .map ([("binaryPayload", .bool true),
      ("transportFrame", .text "payload-frame/1.0"),
      ("signatureAlgorithms", .list [.text "hmac-sha256"])] ++ extensions))])]

def signingEnv : NegotiatorEnv where
  localCapabilities := agentCapabilities
  hasPayloadSigner := true

/-- What is negotiated with such a server. -/
def configWith (extensions : Extensions) : ProtocolConfig :=
  (signingEnv.handleEnvelope (some (envelopeWith extensions))).getD
    { protocol := "", encoding := "", compression := "" }

theorem handleEnvelope_configWith {extensions : Extensions}
    (h : (signingEnv.handleEnvelope (some (envelopeWith extensions))).isSome = true) :
    signingEnv.handleEnvelope (some (envelopeWith extensions)) = some (configWith extensions) := by
  obtain ⟨config, hconfig⟩ := Option.isSome_iff_exists.mp h
  rw [configWith, hconfig, Option.getD_some]

/-- The extensions of a server that requires signatures. -/
def requiring : Extensions := [("signatureRequired", .bool true)]

theorem handleEnvelope_never_weakens_signed :
    (configWith requiring).signatureRequired = true ∧
      (configWith requiring).effectiveLimits.maxRows ≤ 100 := by
  refine ⟨by decide +kernel, ?_⟩
  obtain ⟨payload, document, server, hpayload, hdocument, hserver, -, hlimits⟩ :=
    handleEnvelope_never_weakens
      (show _ = some (configWith requiring) from handleEnvelope_configWith (by decide +kernel))
  obtain rfl := Json.map.inj (Option.some.inj hpayload)
  obtain rfl := Json.map.inj (Option.some.inj hdocument)
  exact hlimits _ .maxRows 100 rfl rfl

/-- The extensions of a server with malformed bounds: a ratio below one, a window that is a
double, and a concurrency of zero. -/
def malformed : Extensions :=
  [("maxInflationRatio", .other (.finite (1 / 2))),
    ("maxStreamPullWindowSize", .other (.finite 2)),
    ("parallelBatchDispatch", .map [("enabled", .bool true), ("maxConcurrency", .int 0)])]

/-- Each of them is replaced by a bound above it. -/
theorem malformed_bounds_replaced :
    signingEnv.handleEnvelope (some (envelopeWith malformed)) = some (configWith malformed) ∧
      (Double.finite (1 / 2)).lt (configWith malformed).maxInflationRatio = true ∧
      positiveInt? ((configWith malformed).negotiatedExtensions.lookup
        "maxStreamPullWindowSize") = some 100 ∧
      ParallelBatchDispatch.fromNegotiatedExtensions
        (configWith malformed).negotiatedExtensions = some (some ⟨4, false, false⟩) :=
  ⟨handleEnvelope_configWith (by decide +kernel), by decide +kernel, by decide +kernel,
    by decide +kernel⟩

end PlugAgente.Negotiation
