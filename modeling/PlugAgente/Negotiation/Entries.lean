import PlugAgente.Negotiation.Extensions

/-!
# What the negotiated extensions say of the two sides

An entry of the outcome that is on stands for something that both sides offer, and its numbers
are within those that they declare.  `Negotiated` says which rule an entry comes from; the
lemmas here read off each rule what it asks of the two documents.
-/

namespace PlugAgente.Negotiation

open Wire Dart

/-! ## What a side offers -/

def requiresSignature (side : Extensions) : Bool :=
  isValue (side.lookup "signatureRequired") (.bool true)

def offersAlgorithm (side : Extensions) (algorithm : String) : Bool :=
  match side.lookup "signatureAlgorithms" with
  | some (.list items) => (strings items).contains algorithm
  | _ => false

/-- A value that switches something on. -/
def isOn : Value → Bool
  | .null | .bool false => false
  | _ => true

/-- The extensions with a switch of their own. -/
def switchedExtensions : List String :=
  ["parallelBatchDispatch", "sqlOperations", "agentActions"]

/-- A side offers an extension: it names it, and has switched it on. -/
def offers (side : Extensions) (key : String) : Bool :=
  match side.lookup key with
  | none => false
  | some (.map entries) =>
    !switchedExtensions.contains key || isValue (entries.lookup "enabled") (.bool true)
  | some value => isOn value

/-- The parts of extensions that are optional themselves. -/
def optionalParts : List (String × String) :=
  [("parallelBatchDispatch", "mixedReadOnlyMethods"),
    ("parallelBatchDispatch", "selectOnlySqlExecute"), ("sqlOperations", "structureGuard"),
    ("agentActions", "catalogVersion"), ("agentActions", "deadlineClock")]

def partOn (value : Option Value) (part : String) : Bool :=
  match value with
  | some (.map entries) => ((entries.lookup part).map isOn).getD false
  | _ => false

/-- A side offers a part of an extension; `true` offers all of them. -/
def offersPart (side : Extensions) (key part : String) : Bool :=
  isValue (side.lookup key) (.bool true) || partOn (side.lookup key) part

/-- The entries that are no extensions but settings of the transport. -/
def settings : List String :=
  ["compressionThreshold", "maxInflationRatio", "signatureRequired", "maxStreamPullWindowSize",
    "recommendedStreamPullWindowSize"]

def windows : List String :=
  ["maxStreamPullWindowSize", "recommendedStreamPullWindowSize"]

/-- An integer in a map. -/
def intIn (value : Option Value) (key : String) : Option Int :=
  match value with
  | some (.map entries) => positiveInt? (entries.lookup key)
  | _ => none

/-! ## The rules -/

theorem mem_of_lookup {entries : Extensions} {key : String} {value : Value}
    (h : entries.lookup key = some value) : (key, value) ∈ entries := by
  obtain ⟨before, after, rfl, -⟩ := List.lookup_eq_some_iff.mp h
  exact List.mem_append_right before List.mem_cons_self

theorem asFlag_true {value : Option Value} (h : asFlag value = some true) :
    value = some (.bool true) := by
  unfold asFlag at h
  split at h
  · simp at h
  · simp at h
  · rw [Option.some.inj h]
  · simp at h

theorem bothSet_true {agent server : Extensions} {key : String}
    (h : bothSet agent server key = some true) :
    agent.lookup key = some (.bool true) ∧ server.lookup key = some (.bool true) := by
  unfold bothSet at h
  split at h
  · rename_i hagent
    exact ⟨asFlag_true hagent, asFlag_true h⟩
  · rename_i hagent
    exact absurd h hagent

theorem requiresSignature_iff {side : Extensions} {required : Bool}
    (h : asFlag (side.lookup "signatureRequired") = some required) :
    requiresSignature side = required := by
  unfold requiresSignature
  unfold asFlag at h
  split at h
  · rename_i hnone
    rw [hnone]
    exact Option.some.inj h
  · rename_i hnull
    rw [hnull]
    exact Option.some.inj h
  · rename_i b hbool
    rw [hbool, ← Option.some.inj h]
    cases b <;> rfl
  · simp at h

theorem eitherSet_requires {agent server : Extensions} {required : Bool}
    (h : eitherSet agent server "signatureRequired" = some required)
    (hrequires : (requiresSignature agent || requiresSignature server) = true) :
    required = true := by
  unfold eitherSet at h
  split at h
  · rename_i hagent
    rw [requiresSignature_iff hagent, requiresSignature_iff h] at hrequires
    exact hrequires
  · rename_i hagent
    cases required with
    | true => rfl
    | false => exact absurd h hagent

theorem negotiateMinPositiveInt_le {a s : Option Value} {n : Int}
    (h : negotiateMinPositiveInt a s = some n) :
    (∀ m, positiveInt? a = some m → n ≤ m) ∧ (∀ m, positiveInt? s = some m → n ≤ m) := by
  unfold negotiateMinPositiveInt at h
  split at h
  · rename_i hagent
    constructor
    · intro m hm
      rw [hagent] at hm
      cases hm
    · intro m hm
      rw [hm] at h
      exact (Option.some.inj h).ge
  · rename_i hserver _
    constructor
    · intro m hm
      rw [hm] at h
      exact (Option.some.inj h).ge
    · intro m hm
      rw [hserver] at hm
      cases hm
  · rename_i agentInt serverInt hagent hserver
    have hn := Option.some.inj h
    rw [hagent, hserver]
    constructor
    · intro m hm
      have hm := Option.some.inj hm
      split at hn <;> omega
    · intro m hm
      have hm := Option.some.inj hm
      split at hn <;> omega

theorem positiveInt?_pos {value : Option Value} {n : Int} (h : positiveInt? value = some n) :
    0 < n := by
  unfold positiveInt? at h
  split at h
  · split at h
    · rename_i hpos
      rwa [← Option.some.inj h]
    · cases h
  · cases h

theorem positiveInt?_eq {m n : Int} (h : positiveInt? (some (.int m)) = some n) : m = n := by
  simp only [positiveInt?] at h
  split at h
  · exact Option.some.inj h
  · cases h

theorem negotiateMinPositiveInt_pos {a s : Option Value} {n : Int}
    (h : negotiateMinPositiveInt a s = some n) : 0 < n := by
  unfold negotiateMinPositiveInt at h
  split at h
  · exact positiveInt?_pos h
  · exact positiveInt?_pos h
  · rename_i agentInt serverInt hagent hserver
    have hn := Option.some.inj h
    have ha := positiveInt?_pos hagent
    have hs := positiveInt?_pos hserver
    split at hn <;> omega

theorem negotiateMinPositiveInt_some {a s : Option Value} {bound : Int}
    (h : positiveInt? a = some bound ∨ positiveInt? s = some bound) :
    ∃ n, negotiateMinPositiveInt a s = some n := by
  unfold negotiateMinPositiveInt
  split
  · rename_i hagent
    rcases h with h | h
    · rw [hagent] at h
      cases h
    · exact ⟨bound, h⟩
  · rename_i hserver _
    rcases h with h | h
    · exact ⟨bound, h⟩
    · rw [hserver] at h
      cases h
  · exact ⟨_, rfl⟩

theorem clampedWindow_le {recommended maxWindow : Option Int} {n : Int}
    (h : clampedWindow recommended maxWindow = some n) :
    (∃ r, recommended = some r ∧ n ≤ r) ∧ ∀ m, maxWindow = some m → n ≤ m := by
  unfold clampedWindow at h
  split at h
  · rename_i r m
    have hn := Option.some.inj h
    constructor
    · refine ⟨r, rfl, ?_⟩
      split at hn <;> omega
    · intro m' hm
      have hm := Option.some.inj hm
      split at hn <;> omega
  · rename_i hnone
    refine ⟨⟨n, h, le_refl n⟩, fun m hm => ?_⟩
    exact absurd hm (hnone n m h)

theorem mem_intersectStringLists {a b : Option Value} {t : String}
    (h : t ∈ intersectStringLists a b) :
    (∃ items, a = some (.list items) ∧ t ∈ strings items) ∧
      (∃ items, b = some (.list items) ∧ t ∈ strings items) := by
  unfold intersectStringLists at h
  split at h
  · rename_i a b
    rw [List.mem_insertionSort, List.mem_filter, List.mem_eraseDups,
      List.contains_iff_mem] at h
    exact ⟨⟨a, rfl, h.1⟩, ⟨b, rfl, h.2⟩⟩
  · cases h

theorem SqlOperationCapability.supported_some {value : Option Value} {raw : Extensions}
    (h : supported value = some raw) :
    value = some (.map raw) ∧ isValue (raw.lookup "enabled") (.bool true) = true := by
  unfold supported at h
  split at h
  · split at h
    · rename_i hsupported
      obtain rfl := Option.some.inj h
      simp only [Bool.and_eq_true] at hsupported
      exact ⟨rfl, hsupported.1.1.1.1.1⟩
    · cases h
  · cases h

theorem enabledActions_some {value : Option Value} {actions : Extensions}
    (h : enabledActions value = some actions) :
    value = some (.map actions) ∧ isValue (actions.lookup "enabled") (.bool true) = true := by
  unfold enabledActions at h
  split at h
  · split at h
    · rename_i henabled
      obtain rfl := Option.some.inj h
      rw [Bool.and_eq_true] at henabled
      exact ⟨rfl, henabled.1⟩
    · cases h
  · cases h

/-! ## The entries -/

namespace Negotiated

variable {agent server : Extensions} {key : String} {value : Value}

theorem offers_of_same (hsame : sameInBoth agent server key = some value)
    (hon : isOn value = true) : offers agent key = true ∧ offers server key = true := by
  unfold sameInBoth at hsame
  split at hsame
  · rename_i a s hagent hserver
    split at hsame
    · rename_i hboth
      obtain rfl := Option.some.inj hsame
      rw [Bool.and_eq_true] at hboth
      unfold offers
      rw [hagent, hserver]
      cases a with
      | null => cases hon
      | map entries => cases s <;> simp [same] at hboth
      | list items => cases s <;> simp [same] at hboth
      | bool b =>
        cases s with
        | bool c =>
          obtain rfl : b = c := by simpa [same] using hboth.2
          exact ⟨hon, hon⟩
        | _ => simp [same] at hboth
      | int n =>
        cases s with
        | int m => exact ⟨rfl, rfl⟩
        | other d => exact ⟨rfl, rfl⟩
        | _ => simp [same] at hboth
      | text t =>
        cases s with
        | text u => exact ⟨rfl, rfl⟩
        | _ => simp [same] at hboth
      | other d =>
        cases s with
        | int m => exact ⟨rfl, rfl⟩
        | other e => exact ⟨rfl, rfl⟩
        | _ => simp [same] at hboth
    · cases hsame
  · cases hsame

theorem offers_of_isValue_int {side : Extensions} {n : Int}
    (h : isValue (side.lookup key) (.int n) = true) : offers side key = true := by
  unfold isValue at h
  unfold offers
  cases hside : side.lookup key with
  | none =>
    rw [hside] at h
    cases h
  | some v =>
    rw [hside] at h
    cases v with
    | int m => rfl
    | other d => rfl
    | _ => simp [same] at h

theorem offers_of_map {side entries : Extensions} (hside : side.lookup key = some (.map entries))
    (henabled : isValue (entries.lookup "enabled") (.bool true) = true) :
    offers side key = true := by
  unfold offers
  rw [hside]
  simp [henabled]

theorem dispatch_offered {d : ParallelBatchDispatch}
    (h : ParallelBatchDispatch.negotiate (agent.lookup "parallelBatchDispatch")
      (server.lookup "parallelBatchDispatch") = some (some d)) :
    (agent.lookup "parallelBatchDispatch" = some (.bool true) ∧
      server.lookup "parallelBatchDispatch" = some (.bool true) ∧ d = {}) ∨
    ∃ a s, agent.lookup "parallelBatchDispatch" = some (.map a) ∧
      server.lookup "parallelBatchDispatch" = some (.map s) ∧
      a.lookup "enabled" = some (.bool true) ∧ s.lookup "enabled" = some (.bool true) ∧
      bothSet a s "mixedReadOnlyMethods" = some d.mixedReadOnlyMethods ∧
      bothSet a s "selectOnlySqlExecute" = some d.selectOnlySqlExecute ∧
      d.maxConcurrency = (negotiateMinPositiveInt (a.lookup "maxConcurrency")
        (s.lookup "maxConcurrency")).getD 4 := by
  unfold ParallelBatchDispatch.negotiate at h
  split at h
  · rename_i hagent hserver
    exact .inl ⟨hagent, hserver, (Option.some.inj (Option.some.inj h)).symm⟩
  · rename_i a s hagent hserver
    simp only [ParallelBatchDispatch.negotiateMaps, Option.bind_eq_bind,
      Option.bind_eq_some_iff] at h
    obtain ⟨agentEnabled, hagentEnabled, serverEnabled, hserverEnabled, h⟩ := h
    split at h
    · cases h
    · rename_i henabled
      simp only [Option.bind_eq_some_iff, Option.pure_def, Option.some.injEq] at h
      obtain ⟨mixed, hmixed, selectOnly, hselectOnly, rfl⟩ := h
      obtain ⟨rfl, rfl⟩ : agentEnabled = true ∧ serverEnabled = true := by
        simpa using henabled
      exact .inr ⟨a, s, hagent, hserver, asFlag_true hagentEnabled, asFlag_true hserverEnabled,
        hmixed, hselectOnly, rfl⟩
  · cases h

theorem offered (h : Negotiated agent server key value) (hon : isOn value = true)
    (hkey : key ∉ settings) : offers agent key = true ∧ offers server key = true := by
  cases h with
  | flag hflag hset =>
    obtain ⟨hagent, hserver⟩ := bothSet_true hset
    unfold offers
    rw [hagent, hserver]
    exact ⟨rfl, rfl⟩
  | streamingOff => cases hon
  | named hnamed hsame => exact offers_of_same hsame hon
  | list hlist hshared =>
    unfold nonEmpty at hshared
    split at hshared
    · cases hshared
    · rename_i hempty
      obtain ⟨t, ht⟩ := List.exists_mem_of_ne_nil _ (by simpa using hempty)
      obtain ⟨⟨a, hagent, -⟩, ⟨s, hserver, -⟩⟩ := mem_intersectStringLists ht
      unfold offers
      rw [hagent, hserver]
      exact ⟨rfl, rfl⟩
  | compressionThreshold => exact absurd (by decide) hkey
  | maxInflationRatio => exact absurd (by decide) hkey
  | signatureRequired => exact absurd (by decide) hkey
  | maxWindow hwindow => exact absurd (by decide) hkey
  | recommendedWindow hwindow => exact absurd (by decide) hkey
  | parallelBatchDispatch hdispatch =>
    rcases dispatch_offered hdispatch with ⟨hagent, hserver, -⟩ |
      ⟨a, s, hagent, hserver, ha, hs, -⟩
    · unfold offers
      rw [hagent, hserver]
      exact ⟨rfl, rfl⟩
    · exact ⟨offers_of_map hagent (by rw [ha]; rfl), offers_of_map hserver (by rw [hs]; rfl)⟩
  | healthPiggyback hhealth =>
    unfold negotiateHealthPiggyback at hhealth
    split at hhealth
    · rename_i a s hagent hserver
      unfold offers
      rw [hagent, hserver]
      exact ⟨rfl, rfl⟩
    · cases hhealth
  | source hsource hagent hserver =>
    exact ⟨offers_of_isValue_int hagent, offers_of_isValue_int hserver⟩
  | sqlOperations hsql =>
    unfold SqlOperationCapability.negotiate at hsql
    split at hsql
    · rename_i a s hagent hserver
      obtain ⟨ha, haEnabled⟩ := SqlOperationCapability.supported_some hagent
      obtain ⟨hs, hsEnabled⟩ := SqlOperationCapability.supported_some hserver
      exact ⟨offers_of_map ha haEnabled, offers_of_map hs hsEnabled⟩
    · cases hsql
  | agentActions hagent hserver hactions =>
    obtain ⟨ha, haEnabled⟩ := enabledActions_some hagent
    obtain ⟨hs, hsEnabled⟩ := enabledActions_some hserver
    exact ⟨offers_of_map ha haEnabled, offers_of_map hs hsEnabled⟩

theorem switched (h : Negotiated agent server key value) (hkey : key ∈ switchedExtensions) :
    (key = "parallelBatchDispatch" ∧ ∃ d, ParallelBatchDispatch.negotiate
        (agent.lookup "parallelBatchDispatch") (server.lookup "parallelBatchDispatch") =
          some (some d) ∧ value = d.agentAdvertisement) ∨
      (key = "sqlOperations" ∧ SqlOperationCapability.negotiate (agent.lookup "sqlOperations")
        (server.lookup "sqlOperations") = some value) ∨
      (key = "agentActions" ∧ ∃ a s, enabledActions (agent.lookup "agentActions") = some a ∧
        enabledActions (server.lookup "agentActions") = some s ∧
        negotiateActions a s = some value) := by
  have hother : ∀ key ∈ switchedExtensions, key ∉ flagExtensions ∧ key ∉ namedExtensions ∧
      key ∉ listExtensions ∧ key ∉ sourceExtensions := by decide
  obtain ⟨hflag, hnamed, hlist, hsource⟩ := hother key hkey
  cases h with
  | parallelBatchDispatch hdispatch => exact .inl ⟨rfl, _, hdispatch, rfl⟩
  | sqlOperations hsql => exact .inr (.inl ⟨rfl, hsql⟩)
  | agentActions hagent hserver hactions =>
    exact .inr (.inr ⟨rfl, _, _, hagent, hserver, hactions⟩)
  | flag hmem hset => exact absurd hmem hflag
  | named hmem hsame => exact absurd hmem hnamed
  | list hmem hshared => exact absurd hmem hlist
  | source hmem hagent hserver => exact absurd hmem hsource
  | streamingOff => exact absurd hkey (by decide)
  | compressionThreshold => exact absurd hkey (by decide)
  | maxInflationRatio => exact absurd hkey (by decide)
  | signatureRequired => exact absurd hkey (by decide)
  | maxWindow hwindow => exact absurd hkey (by decide)
  | recommendedWindow hwindow => exact absurd hkey (by decide)
  | healthPiggyback hhealth => exact absurd hkey (by decide)

theorem of_dispatch (h : Negotiated agent server "parallelBatchDispatch" value) :
    ∃ d, ParallelBatchDispatch.negotiate (agent.lookup "parallelBatchDispatch")
        (server.lookup "parallelBatchDispatch") = some (some d) ∧
      value = d.agentAdvertisement := by
  rcases h.switched (by decide) with ⟨-, hdispatch⟩ | ⟨hkey, -⟩ | ⟨hkey, -⟩
  · exact hdispatch
  · exact absurd hkey (by decide)
  · exact absurd hkey (by decide)

theorem of_sqlOperations (h : Negotiated agent server "sqlOperations" value) :
    SqlOperationCapability.negotiate (agent.lookup "sqlOperations")
      (server.lookup "sqlOperations") = some value := by
  rcases h.switched (by decide) with ⟨hkey, -⟩ | ⟨-, hsql⟩ | ⟨hkey, -⟩
  · exact absurd hkey (by decide)
  · exact hsql
  · exact absurd hkey (by decide)

theorem of_agentActions (h : Negotiated agent server "agentActions" value) :
    ∃ a s, enabledActions (agent.lookup "agentActions") = some a ∧
      enabledActions (server.lookup "agentActions") = some s ∧
      negotiateActions a s = some value := by
  rcases h.switched (by decide) with ⟨hkey, -⟩ | ⟨hkey, -⟩ | ⟨-, hactions⟩
  · exact absurd hkey (by decide)
  · exact absurd hkey (by decide)
  · exact hactions

theorem offersPart_of_true {side : Extensions} (hside : side.lookup key = some (.bool true))
    (part : String) : offersPart side key part = true := by
  unfold offersPart
  rw [hside]
  rfl

theorem offersPart_of_entry {side raw : Extensions} {part : String} {v : Value}
    (hside : side.lookup key = some (.map raw)) (hpart : raw.lookup part = some v)
    (hon : isOn v = true) : offersPart side key part = true := by
  simp [offersPart, partOn, hside, hpart, hon]

theorem offersPart_of_isInt {side raw : Extensions} {part : String}
    (hside : side.lookup key = some (.map raw)) (hpart : isInt (raw.lookup part) 1 = true) :
    offersPart side key part = true := by
  unfold isInt at hpart
  split at hpart
  · rename_i n hn
    exact offersPart_of_entry hside hn rfl
  · cases hpart

theorem offersPart_of_isValue {side raw : Extensions} {part : String}
    (hside : side.lookup key = some (.map raw))
    (hpart : isValue (raw.lookup part) (.int 1) = true) : offersPart side key part = true := by
  cases hraw : raw.lookup part with
  | none =>
    rw [hraw] at hpart
    cases hpart
  | some v =>
    rw [hraw] at hpart
    refine offersPart_of_entry hside hraw ?_
    cases v with
    | int n => rfl
    | other d => rfl
    | _ => simp [isValue, same] at hpart

theorem dispatch_part_offered {part : String} {d : ParallelBatchDispatch}
    (hdispatch : ParallelBatchDispatch.negotiate (agent.lookup "parallelBatchDispatch")
      (server.lookup "parallelBatchDispatch") = some (some d))
    (hpart : ∀ a s, bothSet a s "mixedReadOnlyMethods" = some d.mixedReadOnlyMethods →
      bothSet a s "selectOnlySqlExecute" = some d.selectOnlySqlExecute →
        bothSet a s part = some true) :
    offersPart agent "parallelBatchDispatch" part = true ∧
      offersPart server "parallelBatchDispatch" part = true := by
  rcases dispatch_offered hdispatch with ⟨hagent, hserver, -⟩ |
    ⟨a, s, hagent, hserver, -, -, hmixed, hselectOnly, -⟩
  · exact ⟨offersPart_of_true hagent part, offersPart_of_true hserver part⟩
  · obtain ⟨ha, hs⟩ := bothSet_true (hpart a s hmixed hselectOnly)
    exact ⟨offersPart_of_entry hagent ha rfl, offersPart_of_entry hserver hs rfl⟩

theorem actions_part_offered {part : String} {a s : Extensions}
    (hpart : part = "catalogVersion" ∨ part = "deadlineClock")
    (hagent : enabledActions (agent.lookup "agentActions") = some a)
    (hserver : enabledActions (server.lookup "agentActions") = some s)
    (hactions : negotiateActions a s = some value) (hon : partOn (some value) part = true) :
    offersPart agent "agentActions" part = true ∧
      offersPart server "agentActions" part = true := by
  have ha := (enabledActions_some hagent).1
  have hs := (enabledActions_some hserver).1
  suffices hboth : (isValue (a.lookup part) (.int 1) && isValue (s.lookup part) (.int 1)) =
      true by
    rw [Bool.and_eq_true] at hboth
    exact ⟨offersPart_of_isValue ha hboth.1, offersPart_of_isValue hs hboth.2⟩
  unfold negotiateActions at hactions
  obtain ⟨io, hio, rfl⟩ := Option.map_eq_some_iff.mp hactions
  by_contra hneither
  rcases hpart with rfl | rfl
  · rw [partOn, List.flatMap_cons, if_neg hneither, List.flatMap_cons, List.flatMap_nil] at hon
    split at hon <;> simp [List.lookup_cons] at hon
  · rw [partOn, List.flatMap_cons, List.flatMap_cons, if_neg hneither, List.flatMap_nil] at hon
    split at hon <;> simp [List.lookup_cons] at hon

theorem sql_part_offered (hsql : SqlOperationCapability.negotiate (agent.lookup "sqlOperations")
      (server.lookup "sqlOperations") = some value)
    (hon : partOn (some value) "structureGuard" = true) :
    offersPart agent "sqlOperations" "structureGuard" = true ∧
      offersPart server "sqlOperations" "structureGuard" = true := by
  unfold SqlOperationCapability.negotiate at hsql
  split at hsql
  · rename_i a s hagent hserver
    obtain rfl := Option.some.inj hsql
    have ha := (SqlOperationCapability.supported_some hagent).1
    have hs := (SqlOperationCapability.supported_some hserver).1
    suffices hboth : (SqlOperationCapability.supportsStructure a &&
        SqlOperationCapability.supportsStructure s) = true by
      rw [Bool.and_eq_true] at hboth
      exact ⟨offersPart_of_isInt ha hboth.1, offersPart_of_isInt hs hboth.2⟩
    by_contra hneither
    rw [if_neg hneither] at hon
    simp [partOn, SqlOperationCapability.limits, List.lookup_cons] at hon
  · cases hsql

theorem part_offered {part : String} (h : Negotiated agent server key value)
    (hpart : (key, part) ∈ optionalParts) (hon : partOn (some value) part = true) :
    offersPart agent key part = true ∧ offersPart server key part = true := by
  simp only [optionalParts, List.mem_cons, Prod.mk.injEq, List.not_mem_nil, or_false] at hpart
  rcases hpart with ⟨rfl, rfl⟩ | ⟨rfl, rfl⟩ | ⟨rfl, rfl⟩ | ⟨rfl, rfl⟩ | ⟨rfl, rfl⟩
  · obtain ⟨d, hdispatch, rfl⟩ := h.of_dispatch
    have hset : d.mixedReadOnlyMethods = true := by
      cases hmixed : d.mixedReadOnlyMethods with
      | true => rfl
      | false => simp [partOn, ParallelBatchDispatch.agentAdvertisement, List.lookup_cons,
          hmixed, isOn] at hon
    exact dispatch_part_offered hdispatch fun a s hmixed _ => hset ▸ hmixed
  · obtain ⟨d, hdispatch, rfl⟩ := h.of_dispatch
    have hset : d.selectOnlySqlExecute = true := by
      cases hselectOnly : d.selectOnlySqlExecute with
      | true => rfl
      | false => simp [partOn, ParallelBatchDispatch.agentAdvertisement, List.lookup_cons,
          hselectOnly, isOn] at hon
    exact dispatch_part_offered hdispatch fun a s _ hselectOnly => hset ▸ hselectOnly
  · exact sql_part_offered h.of_sqlOperations hon
  · obtain ⟨a, s, hagent, hserver, hactions⟩ := h.of_agentActions
    exact actions_part_offered (.inl rfl) hagent hserver hactions hon
  · obtain ⟨a, s, hagent, hserver, hactions⟩ := h.of_agentActions
    exact actions_part_offered (.inr rfl) hagent hserver hactions hon

theorem window (h : Negotiated agent server key value) (hkey : key ∈ windows) :
    (key = "maxStreamPullWindowSize" ∧ ∃ n, negotiateMinPositiveInt
        (agent.lookup "maxStreamPullWindowSize") (server.lookup "maxStreamPullWindowSize") =
          some n ∧ value = .int n) ∨
      (key = "recommendedStreamPullWindowSize" ∧ ∃ n, clampedWindow
        (negotiateMinPositiveInt (agent.lookup "recommendedStreamPullWindowSize")
          (server.lookup "recommendedStreamPullWindowSize"))
        (negotiateMinPositiveInt (agent.lookup "maxStreamPullWindowSize")
          (server.lookup "maxStreamPullWindowSize")) = some n ∧ value = .int n) := by
  have hother : ∀ key ∈ windows, key ∉ flagExtensions ∧ key ∉ namedExtensions ∧
      key ∉ listExtensions ∧ key ∉ sourceExtensions := by decide
  obtain ⟨hflag, hnamed, hlist, hsource⟩ := hother key hkey
  cases h with
  | maxWindow hwindow => exact .inl ⟨rfl, _, hwindow, rfl⟩
  | recommendedWindow hwindow => exact .inr ⟨rfl, _, hwindow, rfl⟩
  | flag hmem hset => exact absurd hmem hflag
  | named hmem hsame => exact absurd hmem hnamed
  | list hmem hshared => exact absurd hmem hlist
  | source hmem hagent hserver => exact absurd hmem hsource
  | streamingOff => exact absurd hkey (by decide)
  | compressionThreshold => exact absurd hkey (by decide)
  | maxInflationRatio => exact absurd hkey (by decide)
  | signatureRequired => exact absurd hkey (by decide)
  | parallelBatchDispatch hdispatch => exact absurd hkey (by decide)
  | healthPiggyback hhealth => exact absurd hkey (by decide)
  | sqlOperations hsql => exact absurd hkey (by decide)
  | agentActions hagent hserver hactions => exact absurd hkey (by decide)

theorem of_maxWindow (h : Negotiated agent server "maxStreamPullWindowSize" value) :
    ∃ n, negotiateMinPositiveInt (agent.lookup "maxStreamPullWindowSize")
      (server.lookup "maxStreamPullWindowSize") = some n ∧ value = .int n := by
  rcases h.window (by decide) with ⟨-, hmax⟩ | ⟨hkey, -⟩
  · exact hmax
  · exact absurd hkey (by decide)

theorem of_recommendedWindow
    (h : Negotiated agent server "recommendedStreamPullWindowSize" value) :
    ∃ n, clampedWindow
      (negotiateMinPositiveInt (agent.lookup "recommendedStreamPullWindowSize")
        (server.lookup "recommendedStreamPullWindowSize"))
      (negotiateMinPositiveInt (agent.lookup "maxStreamPullWindowSize")
        (server.lookup "maxStreamPullWindowSize")) = some n ∧ value = .int n := by
  rcases h.window (by decide) with ⟨hkey, -⟩ | ⟨-, hrecommended⟩
  · exact absurd hkey (by decide)
  · exact hrecommended

theorem window_le {n : Int} (h : Negotiated agent server key (.int n)) (hkey : key ∈ windows) :
    (∀ bound, positiveInt? (agent.lookup key) = some bound → n ≤ bound) ∧
      (∀ bound, positiveInt? (server.lookup key) = some bound → n ≤ bound) := by
  rcases h.window hkey with ⟨rfl, m, hmin, hm⟩ | ⟨rfl, m, hclamped, hm⟩
  · obtain rfl : n = m := Json.int.inj hm
    exact negotiateMinPositiveInt_le hmin
  · obtain rfl : n = m := Json.int.inj hm
    obtain ⟨⟨r, hmin, hle⟩, -⟩ := clampedWindow_le hclamped
    obtain ⟨hagent, hserver⟩ := negotiateMinPositiveInt_le hmin
    exact ⟨fun bound hbound => hle.trans (hagent bound hbound),
      fun bound hbound => hle.trans (hserver bound hbound)⟩

theorem fromNegotiatedExtensions_of_lookup {negotiated : Extensions} {e : ParallelBatchDispatch}
    (h : negotiated.lookup "parallelBatchDispatch" = some e.agentAdvertisement) :
    ParallelBatchDispatch.fromNegotiatedExtensions negotiated = some (some { e with
      maxConcurrency := (positiveInt? (some (.int e.maxConcurrency))).getD 4 }) := by
  rw [ParallelBatchDispatch.fromNegotiatedExtensions, h]
  rfl

theorem concurrency_le {d : ParallelBatchDispatch} {negotiated : Extensions}
    (h : ∀ entry ∈ negotiated, Negotiated agent server entry.1 entry.2)
    (hd : ParallelBatchDispatch.fromNegotiatedExtensions negotiated = some (some d)) :
    (∀ bound, intIn (agent.lookup "parallelBatchDispatch") "maxConcurrency" = some bound →
        d.maxConcurrency ≤ bound) ∧
      (∀ bound, intIn (server.lookup "parallelBatchDispatch") "maxConcurrency" = some bound →
        d.maxConcurrency ≤ bound) := by
  cases hlookup : negotiated.lookup "parallelBatchDispatch" with
  | none => simp [ParallelBatchDispatch.fromNegotiatedExtensions, hlookup] at hd
  | some value =>
    obtain ⟨e, hdispatch, rfl⟩ := (h _ (mem_of_lookup hlookup)).of_dispatch
    have hmax : d.maxConcurrency = (positiveInt? (some (.int e.maxConcurrency))).getD 4 := by
      rw [fromNegotiatedExtensions_of_lookup hlookup] at hd
      rw [← Option.some.inj (Option.some.inj hd)]
    rcases dispatch_offered hdispatch with ⟨hagent, hserver, -⟩ |
      ⟨a, s, hagent, hserver, -, -, -, -, he⟩
    · rw [hagent, hserver]
      exact ⟨fun bound hbound => (nomatch hbound), fun bound hbound => (nomatch hbound)⟩
    · rw [hagent, hserver]
      have hle {bound : Int} (hbound : positiveInt? (a.lookup "maxConcurrency") = some bound ∨
          positiveInt? (s.lookup "maxConcurrency") = some bound) : d.maxConcurrency ≤ bound := by
        obtain ⟨n, hn⟩ := negotiateMinPositiveInt_some hbound
        obtain ⟨hleAgent, hleServer⟩ := negotiateMinPositiveInt_le hn
        have hpos := negotiateMinPositiveInt_pos hn
        rw [hn, Option.getD_some] at he
        rw [he, positiveInt?, if_pos hpos, Option.getD_some] at hmax
        rw [hmax]
        rcases hbound with hbound | hbound
        · exact hleAgent bound hbound
        · exact hleServer bound hbound
      exact ⟨fun bound hbound => hle (.inl hbound), fun bound hbound => hle (.inr hbound)⟩

theorem ceiling_le {entry : String × Int} {n : Int}
    (hsql : SqlOperationCapability.negotiate (agent.lookup "sqlOperations")
      (server.lookup "sqlOperations") = some value)
    (hentry : entry ∈ SqlOperationCapability.limits) (hn : intIn (some value) entry.1 = some n) :
    (∀ bound, intIn (agent.lookup "sqlOperations") entry.1 = some bound → n ≤ bound) ∧
      (∀ bound, intIn (server.lookup "sqlOperations") entry.1 = some bound → n ≤ bound) := by
  unfold SqlOperationCapability.negotiate at hsql
  split at hsql
  · rename_i a s hagent hserver
    obtain rfl := Option.some.inj hsql
    rw [(SqlOperationCapability.supported_some hagent).1,
      (SqlOperationCapability.supported_some hserver).1]
    have hceiling : n = SqlOperationCapability.ceiling a s entry := by
      simp only [SqlOperationCapability.limits, List.mem_cons, List.not_mem_nil,
        or_false] at hentry
      rcases hentry with rfl | rfl | rfl
      · exact (positiveInt?_eq hn).symm
      · exact (positiveInt?_eq hn).symm
      · exact (positiveInt?_eq hn).symm
    rw [hceiling]
    constructor
    · intro bound hbound
      unfold SqlOperationCapability.ceiling
      rw [show positiveInt? (a.lookup entry.1) = some bound from hbound, Option.getD_some]
      grind
    · intro bound hbound
      unfold SqlOperationCapability.ceiling
      rw [show positiveInt? (s.lookup entry.1) = some bound from hbound, Option.getD_some]
      grind
  · cases hsql

end Negotiated

end PlugAgente.Negotiation
