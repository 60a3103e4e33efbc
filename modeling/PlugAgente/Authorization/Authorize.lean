import PlugAgente.Authorization.DecisionCache
import PlugAgente.Sql.Classifier

/-!
# Authorizing a SQL operation

`AuthorizeSqlOperation.call` is one `await` between two synchronous stretches.
`beginCall` is the stretch up to the resolution of the policy: classify, build
the cache keys, read the revision and look the keys up.  `finishCall` is the
stretch after it: compare the revision, decide the accesses that missed and put
the decisions.  `call` runs the two in a row, with nothing in between.

The resolver and SHA-256 are not part of the use case: the answer of the
resolver and the hash function are parameters.  The readings of the clock are
parameters too, one for each place that reads it.
-/

namespace PlugAgente.Authorization

open PlugAgente.Dart PlugAgente.Sql

/-! ## Failures -/

/-- The class of a `domain.Failure`, as far as the use case tells them apart. -/
inductive FailureKind where
  | configuration
  | database
  | network
  | other
  deriving Repr, DecidableEq

/-- A `domain.Failure` with the entries of its context that the use case reads or
writes. -/
structure Failure where
  kind : FailureKind
  message : Text
  isTransient : Bool := false
  code : Option String := none
  authentication : Bool := false
  authorization : Bool := false
  reason : Option String := none
  clientId : Option Text := none
  tokenId : Option Text := none
  operation : Option String := none
  resource : Option Text := none
  deniedResources : List Text := []
  expectedDatabase : Option Text := none
  requestDatabase : Option Text := none
  userMessage : Option Text := none
  classificationReason : Option SqlClassificationReason := none
  deriving Repr, DecidableEq

def tokenRevokedReason : String := "token_revoked"
def unsupportedSqlReason : String := "unsupported_sql"
def tokenExpiredReason : String := "token_expired"
def tokenNotYetValidReason : String := "token_not_yet_valid"
def databaseRequiredReason : String := "database_required"
def databaseMismatchReason : String := "database_mismatch"
def missingPermissionReason : String := "missing_permission"

/-- `String.join` with a separator. -/
def joinText (separator : String) (parts : List Text) : Text :=
  (parts.intersperse separator.toList).flatten

/-- `toSet().toList()..sort()`. -/
def sortedUnique (names : List Text) : List Text :=
  names.dedup.mergeSort fun a b => decide (a ≤ b)

def operationLabel : SqlOperation → String
  | .read => "consultar"
  | .update => "alterar"
  | .delete => "excluir"
  | .ddl => "executar DDL"

def SqlOperation.values : List SqlOperation := [.read, .update, .delete, .ddl]

/-- `_kMaxResourceNamesInTechnicalMessage`. -/
def maxResourceNamesInTechnicalMessage : Nat := 20

section Messages

variable (cm : CaseMap)

def namesOf (accesses : List ClassifiedSqlResource) (operation : SqlOperation) : List Text :=
  sortedUnique
    ((accesses.filter (·.operation == operation)).map (·.resource.normalizedName cm))

def userMessageForMissingPermission (accesses : List ClassifiedSqlResource) : Text :=
  joinText " " (SqlOperation.values.filterMap fun operation =>
    match namesOf cm accesses operation with
    | [] => none
    | unique => some ("Acesso negado para ".toList ++ (operationLabel operation).toList ++
        " nos recursos: ".toList ++ joinText ", " unique ++ ['.']))

def formatTechnicalMessage (accesses : List ClassifiedSqlResource) : Text :=
  if accesses.isEmpty then "Authorization denied".toList
  else
    "Authorization denied for ".toList ++
      joinText "; " (SqlOperation.values.filterMap fun operation =>
        match namesOf cm accesses operation with
        | [] => none
        | unique =>
          let head := unique.take maxResourceNamesInTechnicalMessage
          let rest := unique.length - maxResourceNamesInTechnicalMessage
          let tail := if rest = 0 then [] else s!" (+{rest} more)".toList
          some (operation.name.toList ++ " on ".toList ++ joinText ", " head ++ tail))

/-- `_resolveTopLevelReason`; `policyRevoked` is false when there is no policy. -/
def resolveTopLevelReason (reasonByDeniedName : List (Text × String)) (policyRevoked : Bool) :
    String :=
  if policyRevoked then tokenRevokedReason
  else
    match reasonByDeniedName.find? (fun r => r.2 == tokenRevokedReason ||
        r.2 == databaseRequiredReason || r.2 == databaseMismatchReason) with
    | some r => r.2
    | none => missingPermissionReason

def resolveClientId (policy : Option ClientTokenPolicy) (clientIdFromCache : Option Text) :
    Option Text :=
  match policy with
  | some p => if p.clientId.isEmpty then clientIdFromCache.filter (!·.isEmpty) else some p.clientId
  | none => clientIdFromCache.filter (!·.isEmpty)

/-- The order of the denied accesses: by name, then by operation. -/
def accessLe (a b : ClassifiedSqlResource) : Bool :=
  decide (a.resource.normalizedName cm < b.resource.normalizedName cm) ||
    (a.resource.normalizedName cm == b.resource.normalizedName cm &&
      decide (a.operation.name ≤ b.operation.name))

def buildAuthorizationFailure (classification : SqlOperationClassification)
    (policy : Option ClientTokenPolicy) (deniedAccesses : List ClassifiedSqlResource)
    (reasonByDeniedName : List (Text × String)) (clientIdFromCache : Option Text) : Failure :=
  let sortedAccesses := deniedAccesses.mergeSort (accessLe cm)
  let sortedNames := sortedUnique (sortedAccesses.map (·.resource.normalizedName cm))
  let topReason := resolveTopLevelReason reasonByDeniedName ((policy.map (·.isRevoked)).getD false)
  let resourceList := joinText ", " sortedNames
  let label := (operationLabel classification.operation).toList
  { kind := .configuration
    message := formatTechnicalMessage cm sortedAccesses
    authorization := true
    reason := some topReason
    clientId := resolveClientId policy clientIdFromCache
    operation := sortedAccesses.head?.map (·.operation.name)
    resource := sortedAccesses.head?.map (·.resource.normalizedName cm)
    deniedResources := sortedNames
    userMessage := some <|
      if topReason = tokenRevokedReason then
        "Token revogado. Gere um novo token para continuar. Recursos na consulta: ".toList ++
          resourceList ++ ['.']
      else if topReason = databaseRequiredReason then
        ("Este token exige que a request informe o database configurado no payload antes de ".toList
          ++ label ++ ": ".toList ++ resourceList ++ ['.'])
      else if topReason = databaseMismatchReason then
        ("O database enviado na request nao corresponde ao database configurado no token para ".toList
          ++ label ++ ": ".toList ++ resourceList ++ ['.'])
      else userMessageForMissingPermission cm sortedAccesses }

def userMessageForClassification : SqlClassificationReason → String
  | .emptySql => "Comando SQL vazio. Envie uma consulta valida."
  | .multipleStatements =>
    "Varios comandos SQL na mesma requisicao nao sao suportados para autorizacao. " ++
      "Envie um comando por vez."
  | .unsupportedOperation =>
    "Comando SQL nao suportado para autorizacao. Revise a consulta enviada."
  | .noTargetResources =>
    "Nao foi possivel identificar as tabelas da consulta para autorizacao. " ++
      "Revise a consulta enviada."
  | .nestingLimit =>
    "A consulta tem subconsultas demais para autorizacao. Simplifique o aninhamento."
  | .unclosedConstruct =>
    "A consulta tem aspas ou parenteses sem fechamento. Revise o SQL enviado."

def buildUnsupportedSqlFailure (failure : ClassificationFailure) : Failure :=
  { kind := .configuration
    message := failure.message.toList
    authorization := true
    reason := some unsupportedSqlReason
    userMessage := some (userMessageForClassification failure.reason).toList
    classificationReason := some failure.reason }

/-- `_validateDatabaseConstraint`: the failure, if the database of the request is
not the one the policy asks for. -/
def validateDatabaseConstraint (policy : ClientTokenPolicy) (requestDatabase : Option Text)
    (classification : SqlOperationClassification) : Option Failure :=
  let names := classification.resources.map (·.resource.normalizedName cm)
  let base : Failure :=
    { kind := .configuration
      message := []
      authorization := true
      clientId := some policy.clientId
      operation := some classification.operation.name
      resource := names.head?
      deniedResources := names }
  match policy.payloadDatabaseConstraint cm, requestDatabase with
  | none, _ => none
  | some expected, none =>
    some { base with
      message := ("Authorization denied: database is required and must match token " ++
        "payload.database").toList
      reason := some databaseRequiredReason
      expectedDatabase := some expected
      userMessage := some ("Este token exige que a request informe o database \"".toList ++
        expected ++ "\".".toList) }
  | some expected, some requested =>
    if requested = expected then none
    else
      some { base with
        message := "Authorization denied: request database \"".toList ++ requested ++
          "\" does not match token payload.database \"".toList ++ expected ++ ['"']
        reason := some databaseMismatchReason
        expectedDatabase := some expected
        requestDatabase := some requested
        userMessage := some ("Este token esta restrito ao database \"".toList ++ expected ++
          "\". Database recebido: \"".toList ++ requested ++ "\".".toList) }

end Messages

/-! ## The call -/

/-- The arguments of `call`. -/
structure AuthorizeRequest where
  token : Text
  sql : Text
  requestDatabase : Option Text := none
  requestId : Option Text := none
  method : Option String := none
  preparedSql : Option PreparedSql := none

/-- The readings of the clock in one call: at the lookup of access `i`, in the
validation service, before the decision, and at the put of access `i` by the
use case and by the cache. -/
structure Clock where
  lookup : Nat → Int
  validation : Int
  lifetime : Int
  decision : Nat → Int
  eviction : Nat → Int

/-- The methods that the use case tells apart. -/
def operationMethod : String := "sql.operation.execute"
def verifiedMethod : String := "sql.execute.verified"

def AuthorizeRequest.exactResource (r : AuthorizeRequest) : Bool :=
  r.method == some operationMethod

/-- The method whose calls read no cached decision. -/
def AuthorizeRequest.isVerified (r : AuthorizeRequest) : Bool :=
  r.method == some verifiedMethod

/-- The surroundings of the use case: the case mapping, SHA-256 in hexadecimal
and the lifetime of a cached decision. -/
structure AuthorizeEnv where
  cm : CaseMap
  sha256 : Text → Text
  decisionTtl : Int := 30000000

def normalizeClientCredentialToken (cm : CaseMap) (token : Text) : Text :=
  let value := trim token
  if 7 < value.length && "bearer ".toList.isPrefixOf (cm.toLowerCase value) then
    trim (value.drop 7)
  else value

/-- `hashClientCredentialToken`. -/
def AuthorizeEnv.hashToken (env : AuthorizeEnv) (token : Text) : Text :=
  env.sha256 (normalizeClientCredentialToken env.cm token)

def decisionCacheKey (tokenHash : Text) (operation : SqlOperation) (resource : Text)
    (requestDatabase : Option Text) : Text :=
  match requestDatabase with
  | none => tokenHash ++ '|' :: operation.name.toList ++ '|' :: resource
  | some database =>
    tokenHash ++ '|' :: operation.name.toList ++ "|db:".toList ++ database ++ '|' :: resource

/-- An access of the classification with its index and its cache key. -/
structure KeyedAccess where
  index : Nat
  access : ClassifiedSqlResource
  key : Text

section Call

variable (env : AuthorizeEnv)

def AuthorizeRequest.keyOf (r : AuthorizeRequest) (access : ClassifiedSqlResource) : Text :=
  decisionCacheKey (env.hashToken r.token) access.operation (access.resource.normalizedName env.cm)
    (normalizeDatabaseName env.cm r.requestDatabase)

/-- `resources` with `decisionKeys`. -/
def AuthorizeRequest.keyedAccesses (r : AuthorizeRequest)
    (classification : SqlOperationClassification) : List KeyedAccess :=
  classification.resources.mapIdx fun i access => ⟨i, access, r.keyOf env access⟩

/-- `classify` or `classifyPrepared`. -/
def AuthorizeRequest.classification (r : AuthorizeRequest) :
    Except ClassificationFailure SqlOperationClassification :=
  match r.preparedSql with
  | none => classify env.cm r.sql
  | some prepared => classifyPrepared env.cm prepared

def recordReasonForName (reasons : List (Text × String)) (name : Text) (reason : String) :
    List (Text × String) :=
  match reasons.find? (·.1 == name) with
  | none => reasons ++ [(name, reason)]
  | some existing =>
    if existing.2 == tokenRevokedReason || reason == tokenRevokedReason then
      reasons.map fun r => if r.1 == name then (name, tokenRevokedReason) else r
    else reasons

/-- `deniedAccesses.add`. -/
def addDenied (cm : CaseMap) (denied : List ClassifiedSqlResource)
    (access : ClassifiedSqlResource) : List ClassifiedSqlResource :=
  if denied.any (fun a => a.resource.sameAs cm access.resource && a.operation == access.operation)
  then denied else denied ++ [access]

/-- The variables of the lookup loop. -/
structure Lookups where
  cache : Option DecisionCache
  misses : List KeyedAccess := []
  denied : List ClassifiedSqlResource := []
  reasons : List (Text × String) := []
  clientId : Option Text := none

/-- One round of the lookup loop. -/
def lookupAccess (clock : Clock) (s : Lookups) (k : KeyedAccess) : Lookups :=
  match s.cache with
  | none => { s with misses := s.misses ++ [k] }
  | some cache =>
    let r := cache.get k.key (clock.lookup k.index)
    match r.1 with
    | none => { s with cache := some r.2, misses := s.misses ++ [k] }
    | some entry =>
      if entry.allowed then { s with cache := some r.2 }
      else
        { s with
          cache := some r.2
          denied := addDenied env.cm s.denied k.access
          clientId := s.clientId.or (entry.clientId.filter (!·.isEmpty))
          reasons := recordReasonForName s.reasons (k.access.resource.normalizedName env.cm)
            (entry.reason.getD missingPermissionReason) }

/-- The variables of a call that waits for its policy.  `cacheRevision` is
absent when the call reads no cached decision. -/
structure Pending where
  request : AuthorizeRequest
  classification : SqlOperationClassification
  cacheRevision : Option Nat
  misses : List KeyedAccess
  denied : List ClassifiedSqlResource
  reasons : List (Text × String)
  clientIdFromCache : Option Text

/-- What the first stretch leaves behind. -/
inductive BeginResult where
  | done (result : Except Failure Unit)
  | pending (p : Pending)

/-- Success when nothing was denied. -/
def outcome (classification : SqlOperationClassification) (policy : Option ClientTokenPolicy)
    (denied : List ClassifiedSqlResource) (reasons : List (Text × String))
    (clientIdFromCache : Option Text) : Except Failure Unit :=
  if denied.isEmpty then .ok ()
  else
    .error (buildAuthorizationFailure env.cm classification policy denied reasons
      clientIdFromCache)

/-- The cache that a request reads: none for the verified and for the
operation method. -/
def AuthorizeRequest.readCache (r : AuthorizeRequest) (decisionCache : Option DecisionCache) :
    Option DecisionCache :=
  if r.isVerified || r.exactResource then none else decisionCache

/-- The stretch of `call` before the policy is resolved, and the decision cache
after it. -/
def beginCall (decisionCache : Option DecisionCache) (r : AuthorizeRequest) (clock : Clock) :
    BeginResult × Option DecisionCache :=
  match r.classification env with
  | .error failure => (.done (.error (buildUnsupportedSqlFailure failure)), decisionCache)
  | .ok classification =>
    let cacheRevision := (r.readCache decisionCache).map (·.revision)
    let s := (r.keyedAccesses env classification).foldl (lookupAccess env clock)
      { cache := r.readCache decisionCache }
    let decisionCache := s.cache.or decisionCache
    if s.misses.isEmpty then
      (.done (outcome env classification none s.denied s.reasons s.clientId), decisionCache)
    else
      (.pending ⟨r, classification, cacheRevision, s.misses, s.denied, s.reasons, s.clientId⟩,
        decisionCache)

/-- `ClientTokenLifetimeValidator.validate`. -/
def validateLifetime (policy : ClientTokenPolicy) (now : Int) : Except Failure ClientTokenPolicy :=
  if policy.isCredentialExpiredAt now then
    .error
      { kind := .configuration
        message := "Token has expired".toList
        authentication := true
        reason := some tokenExpiredReason
        clientId := some policy.clientId
        tokenId := policy.tokenId
        userMessage := some "Token expirado. Gere um novo token para continuar.".toList }
  else .ok policy

/-- `ClientTokenValidationService.validate`, given the answer of the resolver. -/
def validateToken (token : Text) (resolved : Except Failure ClientTokenPolicy) (now : Int) :
    Except Failure ClientTokenPolicy :=
  if (trim token).isEmpty then
    .error
      { kind := .configuration, message := "Client token is required".toList,
        authentication := true }
  else
    match resolved with
    | .error failure => .error failure
    | .ok policy => validateLifetime policy now

def canShortCircuitGlobalAllow (policy : ClientTokenPolicy)
    (classification : SqlOperationClassification) : Bool :=
  if policy.isRevoked || !policy.usesGlobalScope then false
  else
    classification.resources.all fun access =>
      policy.globalPermissions.allows access.operation &&
        policy.coversType access.resource.resourceType

def canCacheTokenResolverFailure (failure : Failure) : Bool :=
  if failure.kind == .network || failure.reason == some tokenExpiredReason ||
      failure.reason == some tokenNotYetValidReason then false
  else if failure.authorization then true
  else !failure.isTransient

/-- The decision that a put stores. -/
structure Decision where
  allowed : Bool
  clientId : Option Text := none
  reason : Option String := none
  credentialExpiresAt : Option Int := none

/-- A put into the cache: the key, the entry and the clock of the eviction. -/
structure Put where
  key : Text
  entry : DecisionEntry
  now : Int

/-- `_cacheDecision`: the put it makes, if any.  Nothing reads the cache between
the puts of a call, so the puts are listed first and stored at the end. -/
def cacheDecision (r : AuthorizeRequest) (clock : Clock) (d : Decision) (k : KeyedAccess) :
    Option Put :=
  if r.exactResource then none
  else
    let now := clock.decision k.index
    let expiresAt :=
      match d.credentialExpiresAt with
      | some expiry => if expiry < now + env.decisionTtl then expiry else now + env.decisionTtl
      | none => now + env.decisionTtl
    if !decide (now < expiresAt) then none
    else
      some
        { key := k.key
          entry :=
            { allowed := d.allowed
              expiresAt := expiresAt
              clientId := d.clientId
              reason := d.reason
              requestId := r.requestId
              method := r.method }
          now := clock.eviction k.index }

/-- The puts that store the same decision for every miss. -/
def cacheAll (r : AuthorizeRequest) (clock : Clock) (misses : List KeyedAccess) (d : Decision) :
    List Put :=
  misses.filterMap (cacheDecision env r clock d)

/-- Store the puts of a call; without a decision cache nothing happens. -/
def storePuts (decisionCache : Option DecisionCache) (puts : List Put) : Option DecisionCache :=
  decisionCache.map fun cache => puts.foldl (fun c p => c.put p.key p.entry p.now) cache

/-- The variables of the decision loop. -/
structure Decisions where
  puts : List Put := []
  denied : List ClassifiedSqlResource
  reasons : List (Text × String)

/-- One round of the decision loop. -/
def decideAccess (policy : ClientTokenPolicy) (r : AuthorizeRequest) (clock : Clock)
    (s : Decisions) (k : KeyedAccess) : Decisions :=
  if policy.isAllowed env.cm k.access.operation k.access.resource r.exactResource then
    { s with
      puts := s.puts ++ (cacheDecision env r clock
        { allowed := true
          clientId := some policy.clientId
          credentialExpiresAt := policy.credentialExpiresAt } k).toList }
  else
    let reason := if policy.isRevoked then tokenRevokedReason else missingPermissionReason
    { puts := s.puts ++ (cacheDecision env r clock
        { allowed := false
          clientId := some policy.clientId
          reason := some reason
          credentialExpiresAt := policy.credentialExpiresAt } k).toList
      denied := addDenied env.cm s.denied k.access
      reasons := recordReasonForName s.reasons (k.access.resource.normalizedName env.cm) reason }

/-- The failure of a verified request whose policy is revoked or names no
database. -/
def verifiedSourceFailure : Failure :=
  { kind := .database
    code := some "AUTHORIZATION_DENIED"
    message := "Verified source requires active policy with a mandatory database.".toList }

/-- The stretch of `call` after a policy was resolved, when no invalidation was
noticed: the result and the puts. -/
def decideCall (p : Pending) (clock : Clock) (policy : ClientTokenPolicy) :
    Except Failure Unit × List Put :=
  let r := p.request
  if r.isVerified && (policy.isRevoked || (policy.payloadDatabaseConstraint env.cm).isNone) then
    (.error verifiedSourceFailure, [])
  else
    match validateLifetime policy clock.lifetime with
    | .error failure => (.error failure, [])
    | .ok _ =>
      match validateDatabaseConstraint env.cm policy
          (normalizeDatabaseName env.cm r.requestDatabase) p.classification with
      | some failure =>
        (.error failure,
          cacheAll env r clock p.misses
            { allowed := false
              clientId := some policy.clientId
              reason := failure.reason
              credentialExpiresAt := policy.credentialExpiresAt })
      | none =>
        if canShortCircuitGlobalAllow policy p.classification then
          (outcome env p.classification (some policy) p.denied p.reasons p.clientIdFromCache,
            cacheAll env r clock p.misses
              { allowed := true
                clientId := some policy.clientId
                credentialExpiresAt := policy.credentialExpiresAt })
        else
          let s := p.misses.foldl (decideAccess env policy r clock)
            { denied := p.denied, reasons := p.reasons }
          (outcome env p.classification (some policy) s.denied s.reasons p.clientIdFromCache,
            s.puts)

/-- Fold the result of the resolution. -/
def settleCall (p : Pending) (clock : Clock) (policyResult : Except Failure ClientTokenPolicy) :
    Except Failure Unit × List Put :=
  match policyResult with
  | .ok policy => decideCall env p clock policy
  | .error failure =>
    (.error failure,
      if canCacheTokenResolverFailure failure then
        cacheAll env p.request clock p.misses
          { allowed := false, clientId := failure.clientId, reason := failure.reason }
      else [])

/-- What the second stretch leaves behind: a call that noticed an invalidation
starts over. -/
inductive FinishResult where
  | retry
  | done (result : Except Failure Unit)

/-- Whether the call notices an invalidation: it read a revision, and the cache
has another one now. -/
def noticesInvalidation (decisionCache : Option DecisionCache) (p : Pending) : Bool :=
  match p.cacheRevision, decisionCache with
  | some seen, some cache => cache.revision != seen
  | _, _ => false

/-- The stretch of `call` after the policy is resolved, and the decision cache
after it. -/
def finishCall (decisionCache : Option DecisionCache) (p : Pending) (clock : Clock)
    (policyResult : Except Failure ClientTokenPolicy) : FinishResult × Option DecisionCache :=
  if noticesInvalidation decisionCache p then (.retry, decisionCache)
  else
    let r := settleCall env p clock policyResult
    (.done r.1, storePuts decisionCache r.2)

/-- `call` with nothing between its two stretches: the resolver answers
`resolved`.  No invalidation comes in between, so the comparison of the
revisions finds them equal (`finishCall_of_beginCall`) and is not made again
here. -/
def call (decisionCache : Option DecisionCache) (r : AuthorizeRequest) (clock : Clock)
    (resolved : Except Failure ClientTokenPolicy) :
    Except Failure Unit × Option DecisionCache :=
  match beginCall env decisionCache r clock with
  | (.done result, cache) => (result, cache)
  | (.pending p, cache) =>
    let s := settleCall env p clock (validateToken r.token resolved clock.validation)
    (s.1, storePuts cache s.2)

theorem revision_lookupAccess (clock : Clock) (s : Lookups) (k : KeyedAccess) :
    (lookupAccess env clock s k).cache.map (·.revision) = s.cache.map (·.revision) := by
  unfold lookupAccess
  cases hcache : s.cache with
  | none => simp
  | some cache =>
    dsimp only
    split
    · simp
    · split <;> simp

theorem revision_foldl_lookupAccess (clock : Clock) (ks : List KeyedAccess) (s : Lookups) :
    (ks.foldl (lookupAccess env clock) s).cache.map (·.revision) = s.cache.map (·.revision) := by
  induction ks generalizing s with
  | nil => rfl
  | cons k ks ih => rw [List.foldl_cons, ih, revision_lookupAccess]

theorem revision_beginCall (decisionCache : Option DecisionCache) (r : AuthorizeRequest)
    (clock : Clock) :
    (beginCall env decisionCache r clock).2.map (·.revision) =
      decisionCache.map (·.revision) := by
  have hor : ∀ c : Option DecisionCache,
      c.map (·.revision) = (r.readCache decisionCache).map (·.revision) →
      (c.or decisionCache).map (·.revision) = decisionCache.map (·.revision) := by
    intro c hc
    cases c with
    | none => rfl
    | some c =>
      unfold AuthorizeRequest.readCache at hc
      split at hc
      · simp at hc
      · exact hc
  unfold beginCall
  split
  · rfl
  · dsimp only
    split
    · exact hor _ (revision_foldl_lookupAccess env clock _ _)
    · exact hor _ (revision_foldl_lookupAccess env clock _ _)

theorem beginCall_pending {decisionCache : Option DecisionCache} {r : AuthorizeRequest}
    {clock : Clock} {p : Pending} (hbegin : (beginCall env decisionCache r clock).1 = .pending p) :
    p.request = r ∧ p.cacheRevision = (r.readCache decisionCache).map (·.revision) := by
  unfold beginCall at hbegin
  split at hbegin
  · simp at hbegin
  · dsimp only at hbegin
    split_ifs at hbegin
    rw [BeginResult.pending.injEq] at hbegin
    subst hbegin
    exact ⟨rfl, rfl⟩

/-- Right after the first stretch the second one does not start over. -/
theorem finishCall_of_beginCall {decisionCache : Option DecisionCache}
    {r : AuthorizeRequest} {clock clock' : Clock} {p : Pending}
    {policyResult : Except Failure ClientTokenPolicy}
    (hbegin : (beginCall env decisionCache r clock).1 = .pending p) :
    finishCall env (beginCall env decisionCache r clock).2 p clock' policyResult =
      (.done (settleCall env p clock' policyResult).1,
        storePuts (beginCall env decisionCache r clock).2
          (settleCall env p clock' policyResult).2) := by
  have hsame : noticesInvalidation (beginCall env decisionCache r clock).2 p = false := by
    have hrevision := revision_beginCall env decisionCache r clock
    obtain ⟨-, hseen⟩ := beginCall_pending env hbegin
    unfold noticesInvalidation
    rw [hseen]
    unfold AuthorizeRequest.readCache
    by_cases hskip : r.isVerified || r.exactResource
    · simp [hskip]
    · cases hcache : (beginCall env decisionCache r clock).2 with
      | none => cases decisionCache <;> simp_all
      | some cache => cases decisionCache <;> simp_all
  simp [finishCall, hsame]

end Call

end PlugAgente.Authorization
