import PlugAgente.Authorization.PolicyEquality
import PlugAgente.Authorization.Qualification
import PlugAgente.Wire.Json

/-!
# The JSON form of a policy

`ClientTokenPolicy` is written to a JSON map and read back when the agent restarts.
`roundTrips_iff` says when the policy that is read back decides like the one that was
written: the name of a resource is normalised once when the map is written and once more when
it is read, and the second time changes a name that starts or ends with U+0085.

`StoredPolicy` is `ClientTokenPolicy` with all that its JSON form carries, which leaves the
deadline of the credential out; `toPolicy` forgets what no decision reads.  `DateTimes` is what is known of the instants of the runtime.
-/

namespace PlugAgente.Authorization

open PlugAgente.Dart PlugAgente.Wire

variable {V D : Type}

/-- What a `fromJson` throws. -/
inductive FromJsonError where
  | formatException (message : String)
  | typeError
  deriving Repr, DecidableEq

/-- `json[key]`: a key that is not there reads as null. -/
def valueAt (json : Entries V) (key : String) : Json V := (json.lookup key).getD .null

/-- `value as bool?`. -/
def asBool : Json V → Except FromJsonError (Option Bool)
  | .null => .ok none
  | .bool b => .ok (some b)
  | _ => .error .typeError

/-- `value as String?`. -/
def asText : Json V → Except FromJsonError (Option Text)
  | .null => .ok none
  | .text t => .ok (some t.toList)
  | _ => .error .typeError

/-- `value as List?`. -/
def asList : Json V → Except FromJsonError (Option (List (Json V)))
  | .null => .ok none
  | .list items => .ok (some items)
  | _ => .error .typeError

/-- A text as a JSON value. -/
def jsonText (t : Text) : Json V := .text (String.ofList t)

/-! ## Permission sets -/

namespace ClientPermissionSet

def legacyScopedAccess : ClientPermissionSet where
  canRead := true
  canUpdate := true
  canDelete := true

def fullAccess : ClientPermissionSet where
  canRead := true
  canUpdate := true
  canDelete := true
  canDdl := true

def isFullAccess (p : ClientPermissionSet) : Bool :=
  p.canRead && p.canUpdate && p.canDelete && p.canDdl

def fromJson (json : Entries V) : Except FromJsonError ClientPermissionSet :=
  if ["read", "update", "delete", "ddl"].any fun field =>
      (json.lookup field).any fun value => !value.isBool then
    .error (.formatException "Invalid token permission")
  else do
    let canRead ← asBool (valueAt json "read")
    let canUpdate ← asBool (valueAt json "update")
    let canDelete ← asBool (valueAt json "delete")
    let canDdl ← asBool (valueAt json "ddl")
    return {
      canRead := canRead.getD false
      canUpdate := canUpdate.getD false
      canDelete := canDelete.getD false
      canDdl := canDdl.getD false }

def toJson (p : ClientPermissionSet) : Entries V :=
  [("read", .bool p.canRead), ("update", .bool p.canUpdate), ("delete", .bool p.canDelete),
    ("ddl", .bool p.canDdl)]

end ClientPermissionSet

/-! ## Resources and rules -/

def DatabaseResourceType.name : DatabaseResourceType → String
  | .table => "table"
  | .view => "view"
  | .unknown => "unknown"

def ClientTokenRuleEffect.name : ClientTokenRuleEffect → String
  | .allow => "allow"
  | .deny => "deny"

section Rules

variable (cm : CaseMap)

namespace DatabaseResource

def fromJson (json : Entries V) : Except FromJsonError DatabaseResource := do
  let rawType ← asText (valueAt json "resource_type")
  let typeValue := cm.toLowerCase (rawType.getD "unknown".toList)
  let resourceType :=
    if typeValue = "table".toList then DatabaseResourceType.table
    else if typeValue = "view".toList then .view
    else .unknown
  let resourceName ← asText (valueAt json "resource")
  return { resourceType := resourceType, name := normalizeName cm (resourceName.getD []) }

def toJson (r : DatabaseResource) : Entries V :=
  [("resource_type", .text r.resourceType.name), ("resource", jsonText (r.normalizedName cm))]

end DatabaseResource

namespace ClientTokenRule

/-- The resource types that a rule may name. -/
def resourceTypes : List Text := ["table".toList, "view".toList, "unknown".toList]

def fromJson (json : Entries V) : Except FromJsonError ClientTokenRule :=
  match (json.lookup "effect").getD (.text "allow") with
  | .text rawEffect =>
    let effectValue := cm.toLowerCase (trim rawEffect.toList)
    if effectValue ≠ "allow".toList ∧ effectValue ≠ "deny".toList then
      .error (.formatException "Invalid token rule effect")
    else if !(match valueAt json "resource_type" with
        | .null => true
        | .text resourceType => resourceTypes.contains (cm.toLowerCase resourceType.toList)
        | _ => false) then
      .error (.formatException "Invalid token rule resource type")
    else if !(valueAt json "resource").isNull && !(valueAt json "resource").isText then
      .error (.formatException "Invalid token rule resource")
    else if ["read", "update", "delete", "ddl"].any fun field =>
        !(valueAt json field).isNull && !(valueAt json field).isBool then
      .error (.formatException "Invalid token rule permission")
    else do
      let resource ← DatabaseResource.fromJson cm json
      let permissions ← ClientPermissionSet.fromJson json
      return {
        resource := resource
        permissions := permissions
        effect := if effectValue = "deny".toList then .deny else .allow }
  | _ => .error (.formatException "Invalid token rule effect")

def toJson (rule : ClientTokenRule) : Entries V :=
  rule.resource.toJson cm ++ [("effect", Json.text rule.effect.name)] ++ rule.permissions.toJson

end ClientTokenRule

end Rules

/-! ## Policies -/

/-- What is known of `DateTime`: an instant written by `toUtc().toIso8601String()` is read back
by `tryParse`. -/
structure DateTimes (D : Type) where
  toIso8601String : D → Text
  tryParse : Text → Option D
  tryParse_toIso8601String : ∀ t, tryParse (toIso8601String t) = some t

/-- `ClientTokenPolicy`, with all that its JSON form carries. -/
structure StoredPolicy (V D : Type) where
  clientId : Text
  agentId : Option Text
  payload : Entries V
  allTables : Bool
  allViews : Bool
  globalPermissions : ClientPermissionSet
  rules : List ClientTokenRule
  isRevoked : Bool
  tokenId : Option Text
  issuedAt : Option D
  tokenUpdatedAt : Option D

/-- The arguments of the constructor; `allPermissions` is the one of older callers. -/
structure PolicyArguments (V D : Type) where
  clientId : Text
  allTables : Bool
  allViews : Bool
  rules : List ClientTokenRule
  globalPermissions : Option ClientPermissionSet := none
  allPermissions : Option Bool := none
  agentId : Option Text := none
  payload : Entries V := []
  isRevoked : Bool := false
  tokenId : Option Text := none
  issuedAt : Option D := none
  tokenUpdatedAt : Option D := none

/-- The constructor. -/
def PolicyArguments.build (args : PolicyArguments V D) : StoredPolicy V D :=
  let allPermissions := args.allPermissions.getD false
  { clientId := args.clientId
    agentId := args.agentId
    payload := args.payload
    allTables := args.allTables || allPermissions
    allViews := args.allViews || allPermissions
    globalPermissions :=
      args.globalPermissions.getD
        (if allPermissions then .fullAccess
          else if args.allTables || args.allViews then .legacyScopedAccess else .none)
    rules := args.rules
    isRevoked := args.isRevoked
    tokenId := args.tokenId
    issuedAt := args.issuedAt
    tokenUpdatedAt := args.tokenUpdatedAt }

namespace StoredPolicy

/-- The policy as the decisions see it. -/
def toPolicy (p : StoredPolicy V D) : ClientTokenPolicy where
  clientId := p.clientId
  tokenId := p.tokenId
  allTables := p.allTables
  allViews := p.allViews
  globalPermissions := p.globalPermissions
  rules := p.rules
  isRevoked := p.isRevoked
  database :=
    match valueAt p.payload "database" with
    | .text t => some t.toList
    | _ => none

def allPermissions (p : StoredPolicy V D) : Bool :=
  p.allTables && p.allViews && p.globalPermissions.isFullAccess

variable (cm : CaseMap) (dates : DateTimes D)

def toJson (p : StoredPolicy V D) : Entries V :=
  [("client_id", jsonText p.clientId)] ++ optional "agent_id" (p.agentId.map jsonText) ++
    [("payload", Json.map p.payload), ("all_tables", Json.bool p.allTables),
      ("all_views", Json.bool p.allViews),
      ("global_permissions", Json.map p.globalPermissions.toJson),
      ("all_permissions", Json.bool p.allPermissions), ("is_revoked", Json.bool p.isRevoked),
      ("rules", Json.list (p.rules.map fun rule => Json.map (rule.toJson cm)))] ++
    optional "token_id" (p.tokenId.map jsonText) ++
    optional "issued_at" (p.issuedAt.map fun t => jsonText (dates.toIso8601String t)) ++
    optional "updated_at" (p.tokenUpdatedAt.map fun t => jsonText (dates.toIso8601String t))

def parseDateTimeOrNull : Json V → Option D
  | .text raw => dates.tryParse raw.toList
  | _ => none

def parsePayload : Json V → Entries V
  | .map entries => entries
  | _ => []

def parseGlobalPermissions (source : Entries V) : Except FromJsonError ClientPermissionSet :=
  match valueAt source "global_permissions" with
  | .map entries => ClientPermissionSet.fromJson entries
  | _ => do
    let legacyAllPermissions ← asBool (valueAt source "all_permissions")
    if legacyAllPermissions.getD false then return .fullAccess
    let legacyAllTables ← asBool (valueAt source "all_tables")
    let legacyAllViews ← asBool (valueAt source "all_views")
    if legacyAllTables.getD false || legacyAllViews.getD false then return .legacyScopedAccess
    return .none

/-- The rules of a JSON list: what is no map in it is skipped. -/
def parseRules : List (Json V) → Except FromJsonError (List ClientTokenRule)
  | [] => .ok []
  | .map json :: rest => do
    let rule ← ClientTokenRule.fromJson cm json
    let rules ← parseRules rest
    return rule :: rules
  | _ :: rest => parseRules rest

def fromJson (json : Entries V) : Except FromJsonError (StoredPolicy V D) := do
  let rawRules ← asList (valueAt json "rules")
  let parsedRules ← parseRules cm (rawRules.getD [])
  let legacyAllPermissions ← asBool (valueAt json "all_permissions")
  let clientId ← asText (valueAt json "client_id")
  let agentId ← asText (valueAt json "agent_id")
  let allTables ← asBool (valueAt json "all_tables")
  let allViews ← asBool (valueAt json "all_views")
  let globalPermissions ← parseGlobalPermissions json
  let isRevoked ← asBool (valueAt json "is_revoked")
  let tokenId ← asText (valueAt json "token_id")
  let args : PolicyArguments V D := {
    clientId := clientId.getD []
    agentId := agentId
    payload := parsePayload (valueAt json "payload")
    allTables := allTables.getD (legacyAllPermissions.getD false)
    allViews := allViews.getD (legacyAllPermissions.getD false)
    globalPermissions := some globalPermissions
    allPermissions := some (legacyAllPermissions.getD false)
    isRevoked := isRevoked.getD false
    rules := parsedRules
    tokenId := tokenId
    issuedAt := parseDateTimeOrNull dates (valueAt json "issued_at")
    tokenUpdatedAt := parseDateTimeOrNull dates (valueAt json "updated_at") }
  return args.build

end StoredPolicy

/-! ## Normal forms of names -/

section Names

variable {cm : CaseMap}

theorem collapseDots_sublist (t : Text) : (collapseDots t).Sublist t := by
  induction t with
  | nil => exact .slnil
  | cons c rest ih =>
    cases rest with
    | nil =>
      rw [collapseDots_singleton]
    | cons d rest =>
      rw [collapseDots_cons_cons]
      split
      · exact ih.cons c
      · exact ih.cons_cons c

theorem head?_collapseDots (t : Text) : (collapseDots t).head? = t.head? := by
  induction t with
  | nil => rfl
  | cons c rest ih =>
    cases rest with
    | nil => rw [collapseDots_singleton]
    | cons d rest =>
      rw [collapseDots_cons_cons]
      split
      · rename_i hdots
        rw [Bool.and_eq_true, beq_iff_eq, beq_iff_eq] at hdots
        rw [ih, hdots.1, hdots.2]
        rfl
      · rfl

theorem collapseDots_collapseDots (t : Text) :
    collapseDots (collapseDots t) = collapseDots t := by
  induction t with
  | nil => rfl
  | cons c rest ih =>
    cases rest with
    | nil => rw [collapseDots_singleton, collapseDots_singleton]
    | cons d rest =>
      rw [collapseDots_cons_cons]
      split
      · exact ih
      · rename_i hdots
        have hhead := head?_collapseDots (d :: rest)
        cases hrest : collapseDots (d :: rest) with
        | nil =>
          rw [hrest] at hhead
          cases hhead
        | cons e more =>
          rw [hrest] at hhead ih
          obtain rfl : e = d := Option.some.inj hhead
          rw [collapseDots_cons_cons, if_neg hdots, ih]

theorem mem_normalizeName {s : Text} {c : Char} (h : c ∈ normalizeName cm s) :
    isNameQuote c = false ∧ isRegExpWhitespace c = false ∧ cm.lower c = c := by
  have hmem := (collapseDots_sublist _).subset h
  rw [List.mem_filter, List.mem_filter] at hmem
  obtain ⟨⟨hlower, hquote⟩, hblank⟩ := hmem
  obtain ⟨d, _, rfl⟩ := List.mem_map.mp hlower
  exact ⟨by simpa using hquote, by simpa using hblank, cm.lower_lower d⟩

theorem length_normalizeName_le (cm : CaseMap) (s : Text) :
    (normalizeName cm s).length ≤ (trim s).length := by
  have hcollapsed := (collapseDots_sublist
    (((cm.toLowerCase (trim s)).filter (!isNameQuote ·)).filter (!isRegExpWhitespace ·))).length_le
  have hblanks := List.length_filter_le (!isRegExpWhitespace ·)
    ((cm.toLowerCase (trim s)).filter (!isNameQuote ·))
  have hquotes := List.length_filter_le (!isNameQuote ·) (cm.toLowerCase (trim s))
  have hlower : (cm.toLowerCase (trim s)).length = (trim s).length := List.length_map _
  unfold normalizeName
  omega

theorem normalizeName_normalizeName_iff_trim (s : Text) :
    normalizeName cm (normalizeName cm s) = normalizeName cm s ↔
      trim (normalizeName cm s) = normalizeName cm s := by
  constructor
  · intro h
    have hle := length_normalizeName_le cm (normalizeName cm s)
    rw [h] at hle
    exact (trim_sublist _).eq_of_length_le hle
  · intro h
    have hlower : cm.toLowerCase (normalizeName cm s) = normalizeName cm s :=
      List.map_congr_left (fun c hc => (mem_normalizeName hc).2.2) |>.trans (List.map_id _)
    have hquotes : (normalizeName cm s).filter (!isNameQuote ·) = normalizeName cm s :=
      List.filter_eq_self.mpr fun c hc => by simp [(mem_normalizeName hc).1]
    have hblanks : (normalizeName cm s).filter (!isRegExpWhitespace ·) = normalizeName cm s :=
      List.filter_eq_self.mpr fun c hc => by simp [(mem_normalizeName hc).2.1]
    have hdots : collapseDots (normalizeName cm s) = normalizeName cm s :=
      collapseDots_collapseDots _
    generalize normalizeName cm s = name at h hlower hquotes hblanks hdots
    unfold normalizeName
    rw [h, hlower, hquotes, hblanks, hdots]

theorem trim_eq_self_iff (t : Text) :
    trim t = t ↔ (∀ c, t.head? = some c → isWhitespace c = false) ∧
      ∀ c, t.getLast? = some c → isWhitespace c = false := by
  constructor
  · intro h
    have htrimmed := trimmed_trim t
    rw [h] at htrimmed
    exact ⟨htrimmed.head, htrimmed.last⟩
  · rintro ⟨hhead, hlast⟩
    exact Trimmed.trim_eq ⟨hhead, hlast⟩

/-- The normalised name neither starts nor ends with U+0085, the one blank of `trim` that the
class `\s` leaves out. -/
def SettledName (cm : CaseMap) (name : Text) : Prop :=
  (normalizeName cm name).head? ≠ some '\x85' ∧ (normalizeName cm name).getLast? ≠ some '\x85'

instance (cm : CaseMap) (name : Text) : Decidable (SettledName cm name) :=
  inferInstanceAs (Decidable (_ ∧ _))

theorem normalizeName_normalizeName_iff (name : Text) :
    normalizeName cm (normalizeName cm name) = normalizeName cm name ↔ SettledName cm name := by
  have hblank : ∀ c ∈ normalizeName cm name, isWhitespace c = false ↔ c ≠ '\x85' := by
    intro c hc
    have hregexp := (mem_normalizeName hc).2.1
    unfold isRegExpWhitespace at hregexp
    constructor
    · rintro hwhite rfl
      revert hwhite
      decide
    · intro hne
      have hcode : (c.toNat != 0x85) = true := by
        rw [bne_iff_ne]
        intro hcode
        exact hne (Char.toNat_inj.mp hcode)
      rwa [hcode, Bool.and_true] at hregexp
  rw [normalizeName_normalizeName_iff_trim, trim_eq_self_iff]
  unfold SettledName
  constructor
  · rintro ⟨hhead, hlast⟩
    refine ⟨fun h => ?_, fun h => ?_⟩
    · exact (hblank _ (List.mem_of_head? h)).mp (hhead _ h) rfl
    · exact (hblank _ (List.mem_of_getLast? h)).mp (hlast _ h) rfl
  · rintro ⟨hhead, hlast⟩
    refine ⟨fun c h => ?_, fun c h => ?_⟩
    · refine (hblank c (List.mem_of_head? h)).mpr ?_
      rintro rfl
      exact hhead h
    · refine (hblank c (List.mem_of_getLast? h)).mpr ?_
      rintro rfl
      exact hlast h

theorem settledName_of_normalizeName {name : Text}
    (h : normalizeName cm (normalizeName cm (normalizeName cm name)) = normalizeName cm name) :
    SettledName cm name := by
  rw [← normalizeName_normalizeName_iff, normalizeName_normalizeName_iff_trim]
  have hfirst := length_normalizeName_le cm (normalizeName cm name)
  have hsecond := length_normalizeName_le cm (normalizeName cm (normalizeName cm name))
  have htrim := (trim_sublist (normalizeName cm (normalizeName cm name))).length_le
  rw [h] at hsecond
  exact (trim_sublist _).eq_of_length_le (by omega)

end Names

/-! ## Reading back -/

section ReadingBack

variable {cm : CaseMap} {dates : DateTimes D}

@[simp] theorem asText_jsonText (t : Text) : asText (jsonText t : Json V) = .ok (some t) := by
  show Except.ok (some (String.ofList t).toList) = _
  rw [String.toList_ofList]

theorem ClientPermissionSet.fromJson_toJson (p : ClientPermissionSet) :
    ClientPermissionSet.fromJson (p.toJson : Entries V) = .ok p := by
  rfl

theorem toLowerCase_of_ascii {word : Text} (h : ∀ c ∈ word, c.toNat < 128 ∧ c.toLower = c) :
    cm.toLowerCase word = word :=
  (List.map_congr_left fun c hc => (cm.lower_ascii c (h c hc).1).trans (h c hc).2).trans
    (List.map_id _)

theorem DatabaseResourceType.toLowerCase_name (resourceType : DatabaseResourceType) :
    cm.toLowerCase resourceType.name.toList = resourceType.name.toList := by
  apply toLowerCase_of_ascii
  cases resourceType <;> decide

theorem ClientTokenRuleEffect.toLowerCase_name (effect : ClientTokenRuleEffect) :
    cm.toLowerCase (trim effect.name.toList) = effect.name.toList := by
  have htrim : trim effect.name.toList = effect.name.toList := by cases effect <;> decide
  rw [htrim]
  apply toLowerCase_of_ascii
  cases effect <;> decide

theorem DatabaseResource.fromJson_of_entries {json : Entries V} {r : DatabaseResource}
    (htype : valueAt json "resource_type" = .text r.resourceType.name)
    (hname : valueAt json "resource" = jsonText (r.normalizedName cm)) :
    DatabaseResource.fromJson cm json =
      .ok { r with name := normalizeName cm (r.normalizedName cm) } := by
  have hread : asText (valueAt json "resource_type") = .ok (some r.resourceType.name.toList) := by
    rw [htype]
    rfl
  unfold DatabaseResource.fromJson
  rw [hread, hname, asText_jsonText]
  show Except.ok (DatabaseResource.mk _ _) = _
  rw [Option.getD_some, DatabaseResourceType.toLowerCase_name]
  cases hcase : r.resourceType <;> rfl

theorem ClientTokenRule.fromJson_toJson (rule : ClientTokenRule) :
    ClientTokenRule.fromJson cm (rule.toJson cm : Entries V) =
      .ok { rule with
        resource.name := normalizeName cm (rule.resource.normalizedName cm) } := by
  have heffect : (rule.toJson cm : Entries V).lookup "effect" = some (.text rule.effect.name) :=
    rfl
  have htype : valueAt (rule.toJson cm : Entries V) "resource_type" =
      .text rule.resource.resourceType.name := rfl
  have hname : valueAt (rule.toJson cm : Entries V) "resource" =
      jsonText (rule.resource.normalizedName cm) := rfl
  have hpermissions : ClientPermissionSet.fromJson (rule.toJson cm : Entries V) =
      .ok rule.permissions := rfl
  have hfields : (["read", "update", "delete", "ddl"].any fun field =>
      !(valueAt (rule.toJson cm : Entries V) field).isNull &&
        !(valueAt (rule.toJson cm : Entries V) field).isBool) = false := rfl
  unfold ClientTokenRule.fromJson
  rw [heffect, Option.getD_some]
  dsimp only
  rw [ClientTokenRuleEffect.toLowerCase_name, htype, hname, hfields, hpermissions,
    DatabaseResource.fromJson_of_entries htype hname]
  simp only [DatabaseResourceType.toLowerCase_name]
  cases rule.effect <;> cases rule.resource.resourceType <;> rfl

/-- The policy that is read back: its rules with their names normalised twice. -/
def StoredPolicy.readBack (cm : CaseMap) (p : StoredPolicy V D) : StoredPolicy V D :=
  { p with
    rules := p.rules.map fun rule =>
      { rule with resource.name := normalizeName cm (rule.resource.normalizedName cm) } }

theorem StoredPolicy.parseRules_toJson (rules : List ClientTokenRule) :
    StoredPolicy.parseRules cm
        (rules.map fun rule => Json.map (rule.toJson cm : Entries V)) =
      .ok (rules.map fun rule =>
        { rule with resource.name := normalizeName cm (rule.resource.normalizedName cm) }) := by
  induction rules with
  | nil => rfl
  | cons rule rules ih =>
    rw [List.map_cons, StoredPolicy.parseRules, ClientTokenRule.fromJson_toJson, ih]
    rfl

theorem asText_optional (t : Option Text) :
    asText (((t.map jsonText : Option (Json V))).getD .null) = .ok t := by
  cases t with
  | none => rfl
  | some t => exact asText_jsonText t

theorem StoredPolicy.parseDateTimeOrNull_optional (t : Option D) :
    parseDateTimeOrNull dates
        ((t.map fun t => (jsonText (dates.toIso8601String t) : Json V)).getD .null) = t := by
  cases t with
  | none => rfl
  | some t =>
    show dates.tryParse (String.ofList _).toList = _
    rw [String.toList_ofList, dates.tryParse_toIso8601String]

theorem StoredPolicy.valueAt_toJson {p : StoredPolicy V D} {key : String} {value : Json V}
    (hkey : key ∉ ["agent_id", "token_id", "issued_at", "updated_at"])
    (hlookup : ([("client_id", jsonText p.clientId), ("payload", Json.map p.payload),
      ("all_tables", Json.bool p.allTables), ("all_views", Json.bool p.allViews),
      ("global_permissions", Json.map p.globalPermissions.toJson),
      ("all_permissions", Json.bool p.allPermissions), ("is_revoked", Json.bool p.isRevoked),
      ("rules", Json.list (p.rules.map fun rule => Json.map (rule.toJson cm)))] :
        Entries V).lookup key = some value) :
    valueAt (p.toJson cm dates) key = value := by
  simp only [List.mem_cons, List.not_mem_nil, or_false, not_or] at hkey
  have hskip : ∀ (name : String) (value : Option (Json V)), key ≠ name →
      (optional name value).lookup key = none := by
    intro name value hne
    rw [lookup_optional, if_neg hne]
  rw [List.lookup_cons] at hlookup
  unfold valueAt toJson
  simp only [List.lookup_append, hskip _ _ hkey.1, hskip _ _ hkey.2.1, hskip _ _ hkey.2.2.1,
    hskip _ _ hkey.2.2.2, Option.or_none, List.lookup_cons, List.lookup_nil] at hlookup ⊢
  cases hclient : key == "client_id" with
  | true =>
    rw [hclient] at hlookup
    exact Option.some.inj hlookup
  | false =>
    rw [hclient] at hlookup
    rw [Option.none_or, hlookup]
    rfl

theorem StoredPolicy.fromJson_toJson (p : StoredPolicy V D) :
    fromJson cm dates (p.toJson cm dates) = .ok (p.readBack cm) := by
  have hagent : valueAt (p.toJson cm dates) "agent_id" = (p.agentId.map jsonText).getD .null := by
    simp [valueAt, toJson, List.lookup_append, lookup_optional, List.lookup_cons]
  have htoken : valueAt (p.toJson cm dates) "token_id" = (p.tokenId.map jsonText).getD .null := by
    simp [valueAt, toJson, List.lookup_append, lookup_optional, List.lookup_cons]
  have hissued : valueAt (p.toJson cm dates) "issued_at" =
      (p.issuedAt.map fun t => jsonText (dates.toIso8601String t)).getD .null := by
    simp [valueAt, toJson, List.lookup_append, lookup_optional, List.lookup_cons]
  have hupdated : valueAt (p.toJson cm dates) "updated_at" =
      (p.tokenUpdatedAt.map fun t => jsonText (dates.toIso8601String t)).getD .null := by
    simp [valueAt, toJson, List.lookup_append, lookup_optional, List.lookup_cons]
  have hpermissions : parseGlobalPermissions (p.toJson cm dates) = .ok p.globalPermissions := by
    unfold parseGlobalPermissions
    rw [valueAt_toJson (by decide) rfl]
    exact ClientPermissionSet.fromJson_toJson p.globalPermissions
  have htables : (p.allTables || p.allPermissions) = p.allTables := by
    unfold allPermissions
    cases p.allTables <;> simp
  have hviews : (p.allViews || p.allPermissions) = p.allViews := by
    unfold allPermissions
    cases p.allViews <;> simp
  unfold fromJson
  rw [hagent, htoken, hissued, hupdated, hpermissions, valueAt_toJson (by decide) rfl,
    valueAt_toJson (by decide) rfl, valueAt_toJson (by decide) rfl,
    valueAt_toJson (by decide) rfl, valueAt_toJson (by decide) rfl,
    valueAt_toJson (by decide) rfl, valueAt_toJson (by decide) rfl]
  simp only [asText_jsonText, asText_optional, parseDateTimeOrNull_optional, asList, asBool,
    Option.getD_some, bind, Except.bind, parseRules_toJson]
  show Except.ok (StoredPolicy.mk p.clientId p.agentId p.payload (p.allTables || p.allPermissions)
    (p.allViews || p.allPermissions) p.globalPermissions _ p.isRevoked p.tokenId p.issuedAt
    p.tokenUpdatedAt) = _
  rw [htables, hviews]
  rfl

end ReadingBack

/-! ## The round trip -/

section RoundTrip

variable {cm : CaseMap} {dates : DateTimes D}

/-- A policy stands for another: in every decision, in what is revoked, in its database and in
its JSON form. -/
structure StandsFor (cm : CaseMap) (dates : DateTimes D) (q p : StoredPolicy V D) : Prop where
  decisions : ∀ operation resource exactResource,
    q.toPolicy.isAllowed cm operation resource exactResource =
      p.toPolicy.isAllowed cm operation resource exactResource
  isRevoked : q.isRevoked = p.isRevoked
  database : q.toPolicy.payloadDatabaseConstraint cm = p.toPolicy.payloadDatabaseConstraint cm
  json : q.toJson cm dates = p.toJson cm dates

theorem ClientTokenPolicy.ruleLoop_of_value {operation : SqlOperation}
    {resource : DatabaseResource} {exactResource : Bool} {f : ClientTokenRule → ClientTokenRule}
    (rules : List ClientTokenRule) (h : ∀ rule ∈ rules, (f rule).value cm = rule.value cm)
    (found : Bool) :
    ruleLoop cm operation resource exactResource (rules.map f) found =
      ruleLoop cm operation resource exactResource rules found := by
  induction rules generalizing found with
  | nil => rfl
  | cons rule rules ih =>
    have hrule := h rule List.mem_cons_self
    have heffect : (f rule).effect = rule.effect := congrArg (fun v => v.2.2) hrule
    have hrest := ih fun r hr => h r (List.mem_cons_of_mem _ hr)
    rw [List.map_cons, ruleLoop_cons, ruleLoop_cons, ClientTokenRule.covers_of_value hrule, heffect,
      hrest, hrest]

theorem StoredPolicy.json_readBack_iff (p : StoredPolicy V D) :
    (p.readBack cm).toJson cm dates = p.toJson cm dates ↔
      ∀ rule ∈ p.rules, SettledName cm rule.resource.name := by
  constructor
  · intro h rule hrule
    have hrules := congrArg (fun json => valueAt json "rules") h
    rw [valueAt_toJson (by decide) rfl, valueAt_toJson (by decide) rfl] at hrules
    simp only [Json.list.injEq, readBack, List.map_map] at hrules
    have hsame := List.map_inj_left.mp hrules rule hrule
    have hname := congrArg (fun json => match json with
      | Json.map entries => asText (valueAt entries "resource")
      | _ => .ok none) hsame
    have hresource : ∀ r : ClientTokenRule, asText (valueAt (r.toJson cm : Entries V) "resource") =
        .ok (some (r.resource.normalizedName cm)) :=
      fun r => asText_jsonText (r.resource.normalizedName cm)
    dsimp only [Function.comp] at hname
    rw [hresource, hresource] at hname
    exact settledName_of_normalizeName (Option.some.inj (Except.ok.inj hname))
  · intro h
    have hrules : (p.readBack cm).rules.map (fun rule => Json.map (rule.toJson cm : Entries V)) =
        p.rules.map fun rule => Json.map (rule.toJson cm) := by
      show List.map _ (List.map _ p.rules) = _
      rw [List.map_map]
      refine List.map_congr_left fun rule hrule => ?_
      have hsettled := (normalizeName_normalizeName_iff _).mpr (h rule hrule)
      show Json.map ([_, ("resource", jsonText (normalizeName cm (normalizeName cm
        (normalizeName cm rule.resource.name))))] ++ _ ++ _) = _
      rw [hsettled, hsettled]
      rfl
    unfold toJson
    rw [hrules]
    rfl

theorem StoredPolicy.isAllowed_readBack (p : StoredPolicy V D)
    (h : ∀ rule ∈ p.rules, SettledName cm rule.resource.name) (operation : SqlOperation)
    (resource : DatabaseResource) (exactResource : Bool) :
    (p.readBack cm).toPolicy.isAllowed cm operation resource exactResource =
      p.toPolicy.isAllowed cm operation resource exactResource := by
  have hloop : ClientTokenPolicy.ruleLoop cm operation resource exactResource
      (p.readBack cm).rules false =
        ClientTokenPolicy.ruleLoop cm operation resource exactResource p.rules false := by
    refine ClientTokenPolicy.ruleLoop_of_value p.rules (fun rule hrule => ?_) false
    have hsettled := (normalizeName_normalizeName_iff _).mpr (h rule hrule)
    show ((_, normalizeName cm (normalizeName cm (normalizeName cm rule.resource.name))), _, _) = _
    rw [hsettled, hsettled]
    rfl
  have heffective : ClientTokenPolicy.ruleLoop cm operation resource exactResource
      (p.readBack cm).toPolicy.effectiveRules false =
        ClientTokenPolicy.ruleLoop cm operation resource exactResource
          p.toPolicy.effectiveRules false := by
    show ClientTokenPolicy.ruleLoop _ _ _ _
        (if p.toPolicy.usesGlobalScope then [] else (p.readBack cm).rules) false =
      ClientTokenPolicy.ruleLoop _ _ _ _ (if p.toPolicy.usesGlobalScope then [] else p.rules) false
    cases p.toPolicy.usesGlobalScope with
    | false => exact hloop
    | true => rfl
  unfold ClientTokenPolicy.isAllowed
  rw [heffective]
  rfl

/-- The round trip keeps a policy exactly when its names are settled. -/
theorem roundTrips_iff (cm : CaseMap) (dates : DateTimes D) (args : PolicyArguments V D) :
    (∃ q, StoredPolicy.fromJson cm dates (args.build.toJson cm dates) = .ok q ∧
        StandsFor cm dates q args.build) ↔
      ∀ rule ∈ args.rules, SettledName cm rule.resource.name := by
  rw [StoredPolicy.fromJson_toJson]
  constructor
  · rintro ⟨q, hq, hstands⟩
    obtain rfl := Except.ok.inj hq
    exact (StoredPolicy.json_readBack_iff args.build).mp hstands.json
  · intro h
    refine ⟨args.build.readBack cm, rfl, ?_, rfl, rfl, ?_⟩
    · exact StoredPolicy.isAllowed_readBack args.build h
    · exact (StoredPolicy.json_readBack_iff args.build).mpr h

theorem eq_of_empty (d : Empty) : none = some d := nofun

/-- No instants. -/
def noDates : DateTimes Empty where
  toIso8601String := nofun
  tryParse := fun _ => none
  tryParse_toIso8601String := eq_of_empty

/-- One rule, which allows to read the table `t` written with a blank inside its brackets. -/
def bracketedBlank : PolicyArguments Empty Empty where
  clientId := "client".toList
  allTables := false
  allViews := false
  rules := [{
    resource := { resourceType := .table, name := ['[', '\x85', 't', ']'] }
    permissions := { canRead := true, canUpdate := false, canDelete := false }
    effect := .allow }]

/-- Before the restart the rule does not cover the table `t`, and afterwards it does. -/
theorem bracketedBlank_drifts :
    (¬ ∃ q, StoredPolicy.fromJson asciiCase noDates
        (bracketedBlank.build.toJson asciiCase noDates) = .ok q ∧
      StandsFor asciiCase noDates q bracketedBlank.build) ∧
    bracketedBlank.build.toPolicy.isAllowed asciiCase .read ⟨.table, "t".toList⟩ = false ∧
    (StoredPolicy.fromJson asciiCase noDates
        (bracketedBlank.build.toJson asciiCase noDates)).map
      (fun q => q.toPolicy.isAllowed asciiCase .read ⟨.table, "t".toList⟩) = .ok true := by
  refine ⟨?_, by decide +kernel, ?_⟩
  · rw [roundTrips_iff]
    decide +kernel
  · rw [StoredPolicy.fromJson_toJson]
    show Except.ok _ = Except.ok true
    exact congrArg Except.ok (by decide +kernel)

end RoundTrip

end PlugAgente.Authorization
