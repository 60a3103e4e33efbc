import PlugAgente.Dart.Text
import PlugAgente.Machine.Transition

/-!
# Client token policies

The value objects that an authorization decision reads: the permission set, the
database resource with its name normalisation, the rule, and the policy with
`isAllowed`.

The fields of a policy that no decision reads (`agentId`, `issuedAt`,
`tokenUpdatedAt`, and the payload apart from its `database`) are left out, and
so are the JSON forms.
-/

namespace PlugAgente.Authorization

open PlugAgente.Dart

inductive SqlOperation where
  | read
  | update
  | delete
  | ddl
  deriving Repr, DecidableEq

def SqlOperation.name : SqlOperation → String
  | .read => "read"
  | .update => "update"
  | .delete => "delete"
  | .ddl => "ddl"

structure ClientPermissionSet where
  canRead : Bool
  canUpdate : Bool
  canDelete : Bool
  canDdl : Bool := false
  deriving Repr, DecidableEq

namespace ClientPermissionSet

def allows (p : ClientPermissionSet) : SqlOperation → Bool
  | .read => p.canRead
  | .update => p.canUpdate
  | .delete => p.canDelete
  | .ddl => p.canDdl

end ClientPermissionSet

/-! ## Resources -/

inductive DatabaseResourceType where
  | table
  | view
  | unknown
  deriving Repr, DecidableEq

/-- The quoting characters that `_normalizeName` removes. -/
def isNameQuote (c : Char) : Bool :=
  c == '[' || c == ']' || c == '"' || c == '`' || c == '\''

/-- `replaceAll(RegExp(r'\.+'), '.')`: of a run of dots the last one stays. -/
def collapseDots : Text → Text
  | [] => []
  | c :: rest =>
    match rest with
    | d :: _ => if c == '.' && d == '.' then collapseDots rest else c :: collapseDots rest
    | [] => [c]

structure DatabaseResource where
  resourceType : DatabaseResourceType
  name : Text
  deriving Repr, DecidableEq

section Names

variable (cm : CaseMap)

def normalizeName (value : Text) : Text :=
  collapseDots
    (((cm.toLowerCase (trim value)).filter (!isNameQuote ·)).filter (!isRegExpWhitespace ·))

/-- `_baseName`: the part after the last dot. -/
def baseName (normalized : Text) : Text :=
  ((normalized.splitOn '.').getLast?).getD normalized

def buildCandidates (normalized : Text) : List Text :=
  [normalized, baseName normalized]

namespace DatabaseResource

def normalizedName (r : DatabaseResource) : Text := normalizeName cm r.name

/-- `==`: the type and the normalised name. -/
def sameAs (r s : DatabaseResource) : Bool :=
  r.resourceType == s.resourceType && r.normalizedName cm == s.normalizedName cm

/-- `matches`: the names agree as a whole or by their last part. -/
def matchesName (r : DatabaseResource) (target : Text) : Bool :=
  (buildCandidates (r.normalizedName cm)).any
    fun c => (buildCandidates (normalizeName cm target)).contains c

end DatabaseResource

end Names

/-! ## Rules -/

inductive ClientTokenRuleEffect where
  | allow
  | deny
  deriving Repr, DecidableEq

structure ClientTokenRule where
  resource : DatabaseResource
  permissions : ClientPermissionSet
  effect : ClientTokenRuleEffect
  deriving Repr, DecidableEq

namespace ClientTokenRule

variable (cm : CaseMap)

def appliesTo (rule : ClientTokenRule) (target : DatabaseResource) : Bool :=
  if !rule.resource.matchesName cm target.name then false
  else
    match target.resourceType with
    | .table => rule.resource.resourceType == .table || rule.resource.resourceType == .unknown
    | .view => rule.resource.resourceType == .view || rule.resource.resourceType == .unknown
    | .unknown => true

def affectsOperation (rule : ClientTokenRule) (operation : SqlOperation) : Bool :=
  rule.permissions.allows operation

end ClientTokenRule

/-! ## Policies -/

/-- `ClientTokenPolicy`.  `database` is the text under `payload['database']`,
absent when the payload has none or holds no text there.  Instants are in
microseconds. -/
structure ClientTokenPolicy where
  clientId : Text
  tokenId : Option Text := none
  allTables : Bool
  allViews : Bool
  globalPermissions : ClientPermissionSet
  rules : List ClientTokenRule
  isRevoked : Bool := false
  database : Option Text := none
  credentialExpiresAt : Option Int := none
  deriving Repr, DecidableEq

/-- `_normalizeDatabaseName`, of the policy and of the use case alike: a blank
name is no name. -/
def normalizeDatabaseName (cm : CaseMap) : Option Text → Option Text
  | none => none
  | some raw =>
    let normalized := cm.toLowerCase (trim raw)
    if normalized.isEmpty then none else some normalized

namespace ClientTokenPolicy

def isCredentialExpiredAt (p : ClientTokenPolicy) (now : Int) : Bool :=
  match p.credentialExpiresAt with
  | none => false
  | some expiry => !decide (now < expiry)

def usesGlobalScope (p : ClientTokenPolicy) : Bool := p.allTables || p.allViews

def effectiveRules (p : ClientTokenPolicy) : List ClientTokenRule :=
  if p.usesGlobalScope then [] else p.rules

variable (cm : CaseMap)

def payloadDatabaseConstraint (p : ClientTokenPolicy) : Option Text :=
  normalizeDatabaseName cm p.database

/-- The rule loop of `isAllowed`: `none` when a deny rule ends it, otherwise the
final value of `hasExplicitAllow`. -/
def ruleLoop (operation : SqlOperation) (resource : DatabaseResource) (exactResource : Bool) :
    List ClientTokenRule → Bool → Option Bool
  | [], hasExplicitAllow => some hasExplicitAllow
  | rule :: rules, hasExplicitAllow =>
    if exactResource && rule.resource.normalizedName cm != resource.normalizedName cm then
      ruleLoop operation resource exactResource rules hasExplicitAllow
    else if !rule.appliesTo cm resource then
      ruleLoop operation resource exactResource rules hasExplicitAllow
    else if rule.effect == .deny && rule.affectsOperation operation then none
    else if rule.effect == .allow && rule.affectsOperation operation then
      ruleLoop operation resource exactResource rules true
    else ruleLoop operation resource exactResource rules hasExplicitAllow

/-- The global scope of the policy for a type of resource. -/
def coversType (p : ClientTokenPolicy) : DatabaseResourceType → Bool
  | .table => p.allTables
  | .view => p.allViews
  | .unknown => p.allTables || p.allViews

def isAllowed (p : ClientTokenPolicy) (operation : SqlOperation) (resource : DatabaseResource)
    (exactResource : Bool := false) : Bool :=
  if p.isRevoked then false
  else
    match ruleLoop cm operation resource exactResource p.effectiveRules false with
    | none => false
    | some true => true
    | some false => p.coversType resource.resourceType && p.globalPermissions.allows operation

end ClientTokenPolicy

end PlugAgente.Authorization
