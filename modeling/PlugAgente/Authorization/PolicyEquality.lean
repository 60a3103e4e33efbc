import PlugAgente.Authorization.PolicyLaw
import PlugAgente.Dart.ListSort

/-!
# Equality of authorization policies

Two policies are compared to decide whether a token must be rotated.  `==` sorts the rules of both
sides and compares them position by position, but the comparator leaves the permissions out, so
rules for one resource and effect with different permissions stay in the order in which the sort
meets them.  `NoConflict` says that there are no such rules.

The shortcut of `==` for an object and itself is left out: `equal_self` says that it changes
nothing.
-/

namespace PlugAgente.Authorization

open PlugAgente.Dart Std

variable {cm : CaseMap}

/-! ## Runtime restrictions -/

/-- A `Set<String>`: its members in the order of its iterator. -/
structure StringSet where
  members : List Text
  nodup : members.Nodup

namespace StringSet

def empty : StringSet := ⟨[], List.nodup_nil⟩

def setsEqual (left right : StringSet) : Bool :=
  left.members.length == right.members.length && right.members.all (left.members.contains ·)

theorem setsEqual_iff {left right : StringSet} :
    left.setsEqual right = true ↔ left.members.Perm right.members := by
  unfold setsEqual
  rw [Bool.and_eq_true, beq_iff_eq, List.all_eq_true]
  constructor
  · rintro ⟨hlength, hall⟩
    have hsub : right.members ⊆ left.members :=
      fun t ht => List.contains_iff_mem.mp (hall t ht)
    have hsubperm := List.subperm_of_subset right.nodup hsub
    exact (hsubperm.perm_of_length_le hlength.le).symm
  · exact fun h => ⟨h.length_eq, fun t ht => List.contains_iff_mem.mpr (h.symm.subset ht)⟩

end StringSet

structure ClientTokenRuntimeRestrictions where
  declaresAgentActionMetadata : Bool
  agentActionScopes : StringSet
  hasActionIdAllowlist : Bool
  actionIds : StringSet
  database : Option Text := none

namespace ClientTokenRuntimeRestrictions

/-- The restrictions of a policy that is given none. -/
def absent : ClientTokenRuntimeRestrictions where
  declaresAgentActionMetadata := false
  agentActionScopes := .empty
  hasActionIdAllowlist := false
  actionIds := .empty

def normalizedDatabase (cm : CaseMap) (r : ClientTokenRuntimeRestrictions) : Option Text :=
  r.database.map cm.toLowerCase

/-- `==`. -/
def equal (cm : CaseMap) (r other : ClientTokenRuntimeRestrictions) : Bool :=
  other.normalizedDatabase cm == r.normalizedDatabase cm &&
    other.declaresAgentActionMetadata == r.declaresAgentActionMetadata &&
    other.hasActionIdAllowlist == r.hasActionIdAllowlist &&
    other.agentActionScopes.setsEqual r.agentActionScopes &&
    other.actionIds.setsEqual r.actionIds

theorem equal_iff {r other : ClientTokenRuntimeRestrictions} :
    r.equal cm other = true ↔
      other.normalizedDatabase cm = r.normalizedDatabase cm ∧
        other.declaresAgentActionMetadata = r.declaresAgentActionMetadata ∧
        other.hasActionIdAllowlist = r.hasActionIdAllowlist ∧
        other.agentActionScopes.members.Perm r.agentActionScopes.members ∧
        other.actionIds.members.Perm r.actionIds.members := by
  unfold equal
  simp only [Bool.and_eq_true, beq_iff_eq, StringSet.setsEqual_iff, and_assoc]

end ClientTokenRuntimeRestrictions

/-! ## Rules -/

/-- The permissions of no access. -/
def ClientPermissionSet.none : ClientPermissionSet where
  canRead := false
  canUpdate := false
  canDelete := false

namespace ClientTokenRule

/-- `==`. -/
def equal (cm : CaseMap) (rule other : ClientTokenRule) : Bool :=
  other.resource.sameAs cm rule.resource && other.permissions == rule.permissions &&
    other.effect == rule.effect

/-- What a rule says, with the name of its resource in normal form. -/
def value (cm : CaseMap) (rule : ClientTokenRule) :
    (DatabaseResourceType × Text) × ClientPermissionSet × ClientTokenRuleEffect :=
  ((rule.resource.resourceType, rule.resource.normalizedName cm), rule.permissions, rule.effect)

theorem equal_iff {rule other : ClientTokenRule} :
    rule.equal cm other = true ↔ rule.value cm = other.value cm := by
  unfold equal value DatabaseResource.sameAs
  simp only [Bool.and_eq_true, beq_iff_eq, Prod.mk.injEq]
  constructor
  · rintro ⟨⟨⟨htype, hname⟩, hpermissions⟩, heffect⟩
    exact ⟨⟨htype.symm, hname.symm⟩, hpermissions.symm, heffect.symm⟩
  · rintro ⟨⟨htype, hname⟩, hpermissions, heffect⟩
    exact ⟨⟨⟨htype.symm, hname.symm⟩, hpermissions.symm⟩, heffect.symm⟩

theorem covers_of_value {rule other : ClientTokenRule} (h : rule.value cm = other.value cm)
    (operation : SqlOperation) (resource : DatabaseResource) (exactResource : Bool) :
    rule.covers cm operation resource exactResource =
      other.covers cm operation resource exactResource := by
  unfold value at h
  simp only [Prod.mk.injEq] at h
  unfold covers appliesTo affectsOperation DatabaseResource.matchesName
  rw [h.1.1, h.1.2, h.2.1]

end ClientTokenRule

def DatabaseResourceType.index : DatabaseResourceType → Nat
  | .table => 0
  | .view => 1
  | .unknown => 2

def ClientTokenRuleEffect.index : ClientTokenRuleEffect → Nat
  | .allow => 0
  | .deny => 1

def compareRules (cm : CaseMap) : ClientTokenRule → ClientTokenRule → Ordering :=
  compareLex (compareOn fun rule => rule.resource.resourceType.index)
    (compareLex (fun a b => compareTo (a.resource.normalizedName cm) (b.resource.normalizedName cm))
      (compareOn fun rule => rule.effect.index))

theorem compareRules_eq_iff {a b : ClientTokenRule} :
    compareRules cm a b = .eq ↔ a.resource.sameAs cm b.resource = true ∧ a.effect = b.effect := by
  unfold compareRules DatabaseResource.sameAs
  rw [compareLex_eq_eq, compareLex_eq_eq, compareTo_eq_iff, Bool.and_eq_true, beq_iff_eq,
    beq_iff_eq, compareOn, compareOn, LawfulEqCmp.compare_eq_iff_eq,
    LawfulEqCmp.compare_eq_iff_eq, and_assoc]
  have htype : a.resource.resourceType.index = b.resource.resourceType.index ↔
      a.resource.resourceType = b.resource.resourceType := by
    cases a.resource.resourceType <;> cases b.resource.resourceType <;> decide
  have heffect : a.effect.index = b.effect.index ↔ a.effect = b.effect := by
    cases a.effect <;> cases b.effect <;> decide
  rw [htype, heffect]

theorem compareRules_of_value {a a' b b' : ClientTokenRule} (ha : a.value cm = a'.value cm)
    (hb : b.value cm = b'.value cm) : compareRules cm a b = compareRules cm a' b' := by
  unfold ClientTokenRule.value at ha hb
  simp only [Prod.mk.injEq] at ha hb
  simp only [compareRules, compareLex, compareOn, ha, hb]

instance : TransCmp (compareRules cm) := by
  unfold compareRules
  infer_instance

/-! ## Policies -/

structure ClientTokenAuthorizationPolicy where
  allTables : Bool
  allViews : Bool
  globalPermissions : ClientPermissionSet
  rules : List ClientTokenRule
  runtimeRestrictions : ClientTokenRuntimeRestrictions := .absent

/-- The hash functions of the runtime. -/
structure Hashing where
  hash : List Int → Int
  hashAll : List Int → Int
  ofNull : Int
  ofBool : Bool → Int
  ofString : Text → Int
  ofResourceType : DatabaseResourceType → Int
  ofEffect : ClientTokenRuleEffect → Int

section HashCodes

variable (cm : CaseMap) (H : Hashing) (S : ListSort)

/-- `hashCode` of the permission set. -/
def ClientPermissionSet.hashCode (p : ClientPermissionSet) : Int :=
  H.hash [H.ofBool p.canRead, H.ofBool p.canUpdate, H.ofBool p.canDelete, H.ofBool p.canDdl]

/-- `hashCode` of the resource. -/
def DatabaseResource.hashCode (r : DatabaseResource) : Int :=
  H.hash [H.ofResourceType r.resourceType, H.ofString (r.normalizedName cm)]

/-- `hashCode` of the rule. -/
def ClientTokenRule.hashCode (rule : ClientTokenRule) : Int :=
  H.hash [rule.resource.hashCode cm H, rule.permissions.hashCode H, H.ofEffect rule.effect]

/-- `Object.hashAll(set.toList()..sort())`. -/
def StringSet.hashCode (set : StringSet) : Int :=
  H.hashAll ((S.sort compareTo set.members).map H.ofString)

/-- `hashCode` of the restrictions. -/
def ClientTokenRuntimeRestrictions.hashCode (r : ClientTokenRuntimeRestrictions) : Int :=
  H.hash [((r.normalizedDatabase cm).map H.ofString).getD H.ofNull,
    H.ofBool r.declaresAgentActionMetadata, H.ofBool r.hasActionIdAllowlist,
    r.agentActionScopes.hashCode H S, r.actionIds.hashCode H S]

end HashCodes

namespace ClientTokenAuthorizationPolicy

variable {p q r : ClientTokenAuthorizationPolicy} {S : ListSort}

def usesGlobalScope (p : ClientTokenAuthorizationPolicy) : Bool := p.allTables || p.allViews

def effectiveRules (p : ClientTokenAuthorizationPolicy) : List ClientTokenRule :=
  if p.usesGlobalScope then [] else p.rules

def effectiveGlobalPermissions (p : ClientTokenAuthorizationPolicy) : ClientPermissionSet :=
  if p.usesGlobalScope then p.globalPermissions else .none

/-- The effective rules as `==` and `hashCode` sort them. -/
def sortedRules (cm : CaseMap) (S : ListSort) (p : ClientTokenAuthorizationPolicy) :
    List ClientTokenRule :=
  S.sort (compareRules cm) p.effectiveRules

/-- The loop of `==` over the positions of the sorted rules. -/
def sameRules (cm : CaseMap) : List ClientTokenRule → List ClientTokenRule → Bool
  | left :: lefts, right :: rights => left.equal cm right && sameRules cm lefts rights
  | _, _ => true

/-- `==`. -/
def equal (cm : CaseMap) (S : ListSort) (p other : ClientTokenAuthorizationPolicy) : Bool :=
  if other.allTables != p.allTables || other.allViews != p.allViews then false
  else if other.effectiveGlobalPermissions != p.effectiveGlobalPermissions then false
  else if !other.runtimeRestrictions.equal cm p.runtimeRestrictions then false
  else if p.effectiveRules.length != other.effectiveRules.length then false
  else sameRules cm (p.sortedRules cm S) (other.sortedRules cm S)

def hashCode (cm : CaseMap) (H : Hashing) (S : ListSort) (p : ClientTokenAuthorizationPolicy) :
    Int :=
  H.hash [H.ofBool p.allTables, H.ofBool p.allViews, p.effectiveGlobalPermissions.hashCode H,
    H.hashAll ((p.sortedRules cm S).map (·.hashCode cm H)),
    p.runtimeRestrictions.hashCode cm H S]

/-- The policy with other rules. -/
def withRules (p : ClientTokenAuthorizationPolicy) (rules : List ClientTokenRule) :
    ClientTokenAuthorizationPolicy :=
  { p with rules := rules }

/-- A token policy with the scope and the rules of an authorization policy. -/
def applyTo (p : ClientTokenAuthorizationPolicy) (token : ClientTokenPolicy) :
    ClientTokenPolicy :=
  { token with
    allTables := p.allTables
    allViews := p.allViews
    globalPermissions := p.globalPermissions
    rules := p.rules }

/-! ## What `==` compares -/

theorem sameRules_iff {lefts rights : List ClientTokenRule} (h : lefts.length = rights.length) :
    sameRules cm lefts rights = true ↔
      lefts.map (·.value cm) = rights.map (·.value cm) := by
  induction lefts generalizing rights with
  | nil =>
    rw [List.length_nil] at h
    rw [List.length_eq_zero_iff.mp h.symm]
    exact ⟨fun _ => rfl, fun _ => rfl⟩
  | cons left lefts ih =>
    cases rights with
    | nil => simp at h
    | cons right rights =>
      rw [sameRules, Bool.and_eq_true, ih (by simpa using h), ClientTokenRule.equal_iff]
      simp

/-- All that `==` compares apart from the rules. -/
structure SameScope (cm : CaseMap) (p q : ClientTokenAuthorizationPolicy) : Prop where
  allTables : q.allTables = p.allTables
  allViews : q.allViews = p.allViews
  permissions : q.effectiveGlobalPermissions = p.effectiveGlobalPermissions
  restrictions : q.runtimeRestrictions.equal cm p.runtimeRestrictions = true

theorem equal_iff : p.equal cm S q = true ↔
    SameScope cm p q ∧
      (p.sortedRules cm S).map (·.value cm) = (q.sortedRules cm S).map (·.value cm) := by
  have hlength : ∀ r : ClientTokenAuthorizationPolicy,
      (r.sortedRules cm S).length = r.effectiveRules.length :=
    fun r => (S.perm _ _).length_eq
  unfold equal
  constructor
  · intro h
    split_ifs at h with hflags hpermissions hrestrictions hrules
    simp only [Bool.or_eq_true, bne_iff_ne, ne_eq, not_or, not_not] at hflags hpermissions hrules
    refine ⟨⟨hflags.1, hflags.2, hpermissions, by simpa using hrestrictions⟩, ?_⟩
    exact (sameRules_iff (by rw [hlength, hlength, hrules])).mp h
  · rintro ⟨⟨htables, hviews, hpermissions, hrestrictions⟩, hvalues⟩
    have hsame : (p.sortedRules cm S).length = (q.sortedRules cm S).length := by
      simpa using congrArg List.length hvalues
    have hrules := hsame
    rw [hlength, hlength] at hrules
    rw [htables, hviews, hpermissions, hrestrictions, hrules]
    simpa using (sameRules_iff hsame).mpr hvalues

theorem SameScope.refl (p : ClientTokenAuthorizationPolicy) : SameScope cm p p :=
  ⟨rfl, rfl, rfl, ClientTokenRuntimeRestrictions.equal_iff.mpr ⟨rfl, rfl, rfl, .rfl, .rfl⟩⟩

theorem SameScope.symm (h : SameScope cm p q) : SameScope cm q p := by
  refine ⟨h.allTables.symm, h.allViews.symm, h.permissions.symm, ?_⟩
  have hrestrictions := h.restrictions
  rw [ClientTokenRuntimeRestrictions.equal_iff] at hrestrictions ⊢
  obtain ⟨hdatabase, hdeclares, hallowlist, hscopes, hactions⟩ := hrestrictions
  exact ⟨hdatabase.symm, hdeclares.symm, hallowlist.symm, hscopes.symm, hactions.symm⟩

theorem SameScope.trans (h : SameScope cm p q) (h' : SameScope cm q r) : SameScope cm p r := by
  refine ⟨h'.allTables.trans h.allTables, h'.allViews.trans h.allViews,
    h'.permissions.trans h.permissions, ?_⟩
  have hleft := h.restrictions
  have hright := h'.restrictions
  rw [ClientTokenRuntimeRestrictions.equal_iff] at hleft hright ⊢
  obtain ⟨hdatabase, hdeclares, hallowlist, hscopes, hactions⟩ := hleft
  obtain ⟨hdatabase', hdeclares', hallowlist', hscopes', hactions'⟩ := hright
  exact ⟨hdatabase.trans hdatabase', hdeclares.trans hdeclares', hallowlist.trans hallowlist',
    hscopes.trans hscopes', hactions.trans hactions'⟩

theorem SameScope.usesGlobalScope (h : SameScope cm p q) :
    q.usesGlobalScope = p.usesGlobalScope := by
  unfold ClientTokenAuthorizationPolicy.usesGlobalScope
  rw [h.allTables, h.allViews]

theorem equal_self (p : ClientTokenAuthorizationPolicy) : p.equal cm S p = true :=
  equal_iff.mpr ⟨.refl p, rfl⟩

/-! ## Hash codes -/

theorem hashCode_of_value {H : Hashing} {rule other : ClientTokenRule}
    (h : rule.value cm = other.value cm) : rule.hashCode cm H = other.hashCode cm H := by
  unfold ClientTokenRule.value at h
  simp only [Prod.mk.injEq] at h
  unfold ClientTokenRule.hashCode DatabaseResource.hashCode
  rw [h.1.1, h.1.2, h.2.1, h.2.2]

theorem hashCode_of_setsEqual {H : Hashing} {left right : StringSet}
    (h : left.members.Perm right.members) : left.hashCode H S = right.hashCode H S := by
  have : TransCmp compareTo := transCmp_compareTo id
  unfold StringSet.hashCode
  rw [S.sort_eq (fun _ _ => compareTo_eq_iff.mp) h]

theorem hashCode_of_equal {H : Hashing} (h : p.equal cm S q = true) :
    p.hashCode cm H S = q.hashCode cm H S := by
  obtain ⟨hscope, hvalues⟩ := equal_iff.mp h
  have hrules : (p.sortedRules cm S).map (·.hashCode cm H) =
      (q.sortedRules cm S).map (·.hashCode cm H) := by
    apply List.ext_getElem?
    intro i
    have hi := congrArg (fun l => l[i]?) hvalues
    rw [List.getElem?_map, List.getElem?_map] at hi ⊢
    cases hp : (p.sortedRules cm S)[i]? with
    | none =>
      rw [hp, Option.map_none, eq_comm, Option.map_eq_none_iff] at hi
      rw [hi]
    | some rule =>
      rw [hp, Option.map_some, eq_comm, Option.map_eq_some_iff] at hi
      obtain ⟨other, hother, hvalue⟩ := hi
      rw [hother, Option.map_some, Option.map_some, hashCode_of_value hvalue]
  obtain ⟨hdatabase, hdeclares, hallowlist, hscopes, hactions⟩ :=
    ClientTokenRuntimeRestrictions.equal_iff.mp hscope.restrictions
  have hrestrictions : p.runtimeRestrictions.hashCode cm H S =
      q.runtimeRestrictions.hashCode cm H S := by
    unfold ClientTokenRuntimeRestrictions.hashCode
    rw [hdatabase, hdeclares, hallowlist, hashCode_of_setsEqual hscopes,
      hashCode_of_setsEqual hactions]
  unfold ClientTokenAuthorizationPolicy.hashCode
  rw [hrules, hrestrictions, hscope.allTables, hscope.allViews, hscope.permissions]

/-! ## Grants -/

theorem mem_sortedRules {rule : ClientTokenRule} :
    rule ∈ p.sortedRules cm S ↔ rule ∈ p.effectiveRules :=
  (S.perm _ _).mem_iff

theorem exists_value_of_equal (h : p.equal cm S q = true) {rule : ClientTokenRule}
    (hrule : rule ∈ p.effectiveRules) :
    ∃ other ∈ q.effectiveRules, other.value cm = rule.value cm := by
  have hmem : rule.value cm ∈ (q.sortedRules cm S).map (·.value cm) := by
    rw [← (equal_iff.mp h).2]
    exact List.mem_map_of_mem (mem_sortedRules.mpr hrule)
  obtain ⟨other, hother, hvalue⟩ := List.mem_map.mp hmem
  exact ⟨other, mem_sortedRules.mp hother, hvalue⟩

theorem equal_symm (h : p.equal cm S q = true) : q.equal cm S p = true := by
  obtain ⟨hscope, hvalues⟩ := equal_iff.mp h
  exact equal_iff.mpr ⟨hscope.symm, hvalues.symm⟩

theorem equal_trans (h : p.equal cm S q = true) (h' : q.equal cm S r = true) :
    p.equal cm S r = true := by
  obtain ⟨hscope, hvalues⟩ := equal_iff.mp h
  obtain ⟨hscope', hvalues'⟩ := equal_iff.mp h'
  exact equal_iff.mpr ⟨hscope.trans hscope', hvalues.trans hvalues'⟩

theorem granted_of_equal {token : ClientTokenPolicy} {operation : SqlOperation}
    {resource : DatabaseResource} {exactResource : Bool} (h : p.equal cm S q = true)
    (hgranted : (p.applyTo token).Granted cm operation resource exactResource) :
    (q.applyTo token).Granted cm operation resource exactResource := by
  have hscope := (equal_iff.mp h).1
  obtain ⟨hrevoked, hdeny, hallow⟩ := hgranted
  refine ⟨hrevoked, ?_, ?_⟩
  · intro rule hrule hcovers
    obtain ⟨other, hother, hvalue⟩ := exists_value_of_equal (equal_symm h) hrule
    have heffect := hdeny other hother
      (by rw [ClientTokenRule.covers_of_value hvalue]; exact hcovers)
    simp only [ClientTokenRule.value, Prod.mk.injEq] at hvalue
    rw [← hvalue.2.2, heffect]
  · rcases hallow with ⟨rule, hrule, hcovers⟩ | ⟨htype, hglobal⟩
    · obtain ⟨other, hother, hvalue⟩ := exists_value_of_equal h hrule
      refine .inl ⟨other, hother, ?_⟩
      rw [ClientTokenRule.covers_of_value hvalue]
      exact hcovers
    · have hglobalScope : p.usesGlobalScope = true :=
        ClientTokenPolicy.usesGlobalScope_of_coversType htype
      have hpermissions := hscope.permissions
      unfold effectiveGlobalPermissions at hpermissions
      rw [hscope.usesGlobalScope, hglobalScope, if_pos rfl, if_pos rfl] at hpermissions
      refine .inr ⟨?_, ?_⟩
      · unfold ClientTokenPolicy.coversType applyTo at htype ⊢
        rw [hscope.allTables, hscope.allViews]
        exact htype
      · show q.globalPermissions.allows operation = true
        rw [hpermissions]
        exact hglobal

/-! ## The order of the rules -/

/-- No two effective rules for one resource and effect differ in their permissions. -/
def NoConflict (cm : CaseMap) (p : ClientTokenAuthorizationPolicy) : Prop :=
  ∀ a ∈ p.effectiveRules, ∀ b ∈ p.effectiveRules, a.resource.sameAs cm b.resource = true →
    a.effect = b.effect → a.permissions = b.permissions

theorem value_of_tied (h : NoConflict cm p) {a b : ClientTokenRule} (ha : a ∈ p.effectiveRules)
    (hb : b ∈ p.effectiveRules) (htied : compareRules cm a b = .eq) :
    a.value cm = b.value cm := by
  obtain ⟨hresource, heffect⟩ := compareRules_eq_iff.mp htied
  have hpermissions := h a ha b hb hresource heffect
  unfold DatabaseResource.sameAs at hresource
  rw [Bool.and_eq_true, beq_iff_eq, beq_iff_eq] at hresource
  unfold ClientTokenRule.value
  rw [hresource.1, hresource.2, hpermissions, heffect]

theorem equal_iff_perm (h : NoConflict cm p) : p.equal cm S q = true ↔
    SameScope cm p q ∧
      (p.effectiveRules.map (·.value cm)).Perm (q.effectiveRules.map (·.value cm)) := by
  rw [equal_iff]
  refine and_congr_right fun _ => ⟨fun hvalues => ?_, fun hperm => ?_⟩
  · have hsorted : ∀ r : ClientTokenAuthorizationPolicy,
        ((r.sortedRules cm S).map (·.value cm)).Perm (r.effectiveRules.map (·.value cm)) :=
      fun r => (S.perm _ _).map _
    have hsame := hsorted p
    rw [hvalues] at hsame
    exact hsame.symm.trans (hsorted q)
  · exact S.map_sort (fun _ _ _ _ => compareRules_of_value)
      (fun a ha b hb => value_of_tied h ha hb) hperm

theorem effectiveRules_withRules {rules : List ClientTokenRule} (h : rules.Perm p.rules) :
    (p.withRules rules).effectiveRules.Perm p.effectiveRules := by
  unfold effectiveRules
  show (if p.usesGlobalScope then [] else rules).Perm _
  split
  · exact .rfl
  · exact h

theorem SameScope.withRules_left {rules : List ClientTokenRule} :
    SameScope cm (p.withRules rules) q ↔ SameScope cm p q :=
  ⟨fun h => ⟨h.1, h.2, h.3, h.4⟩, fun h => ⟨h.1, h.2, h.3, h.4⟩⟩

theorem SameScope.withRules_right {rules : List ClientTokenRule} :
    SameScope cm p (q.withRules rules) ↔ SameScope cm p q :=
  ⟨fun h => ⟨h.1, h.2, h.3, h.4⟩, fun h => ⟨h.1, h.2, h.3, h.4⟩⟩

theorem NoConflict.withRules (h : NoConflict cm p) {rules : List ClientTokenRule}
    (hperm : rules.Perm p.rules) : NoConflict cm (p.withRules rules) := by
  have hmem := effectiveRules_withRules hperm
  intro a ha b hb
  exact h a (hmem.subset ha) b (hmem.subset hb)

theorem equal_withRules (h : NoConflict cm p) {rules rules' : List ClientTokenRule}
    (hp : rules.Perm p.rules) (hq : rules'.Perm q.rules) :
    (p.withRules rules).equal cm S (q.withRules rules') = p.equal cm S q := by
  have hleft := (effectiveRules_withRules hp).map (·.value cm)
  have hright := (effectiveRules_withRules hq).map (·.value cm)
  rw [Bool.eq_iff_iff, equal_iff_perm (h.withRules hp), equal_iff_perm h,
    SameScope.withRules_left, SameScope.withRules_right]
  refine and_congr_right fun _ => ⟨fun hperm => ?_, fun hperm => ?_⟩
  · exact hleft.symm.trans (hperm.trans hright)
  · exact hleft.trans (hperm.trans hright.symm)

theorem permissions_of_insertion {a b : ClientTokenRule} {left right : List ClientTokenRule}
    (htied : compareRules cm a b = .eq)
    (h : ((ListSort.insertion.sort (compareRules cm) (a :: left)).map (·.value cm)) =
      (ListSort.insertion.sort (compareRules cm) (b :: right)).map (·.value cm)) :
    a.permissions = b.permissions := by
  -- the rules that tie with `a`, by their values
  let tied : (DatabaseResourceType × Text) × ClientPermissionSet × ClientTokenRuleEffect → Bool :=
    fun v => v.1 == (a.value cm).1 && v.2.2 == (a.value cm).2.2
  have hkey : ∀ rule : ClientTokenRule,
      tied (rule.value cm) = true ↔ compareRules cm rule a = .eq := by
    intro rule
    rw [compareRules_eq_iff]
    simp [tied, ClientTokenRule.value, DatabaseResource.sameAs]
  have hsort : ∀ rules : List ClientTokenRule,
      ((ListSort.insertion.sort (compareRules cm) rules).map (·.value cm)).filter tied =
        (rules.filter fun rule => tied (rule.value cm)).map (·.value cm) := by
    intro rules
    rw [List.filter_map]
    congr 1
    refine ListSort.filter_insertion rules fun c d hc hd => ?_
    have hcd : compareRules cm c d = .eq :=
      TransCmp.eq_trans ((hkey c).mp hc) (OrientedCmp.eq_symm ((hkey d).mp hd))
    rw [hcd]
    rfl
  have ha : tied (a.value cm) = true := (hkey a).mpr ReflCmp.compare_self
  have hb : tied (b.value cm) = true := (hkey b).mpr (OrientedCmp.eq_symm htied)
  have hfirst := congrArg (fun values => (values.filter tied).head?) h
  simp only [hsort, List.filter_cons, ha, hb, if_true, List.map_cons, List.head?_cons,
    Option.some.injEq] at hfirst
  exact congrArg (fun v => v.2.1) hfirst

/-- `==` is equality of grants. -/
structure EqualityLaw (cm : CaseMap) (H : Hashing) (S : ListSort)
    (p : ClientTokenAuthorizationPolicy) : Prop where
  refl : p.equal cm S p = true
  symm : ∀ q, p.equal cm S q = true → q.equal cm S p = true
  trans : ∀ q r, p.equal cm S q = true → q.equal cm S r = true → p.equal cm S r = true
  order : ∀ q rules rules', rules.Perm p.rules → rules'.Perm q.rules →
    (p.withRules rules).equal cm S (q.withRules rules') = p.equal cm S q
  hashCode : ∀ q, p.equal cm S q = true → p.hashCode cm H S = q.hashCode cm H S
  grants : ∀ q, p.equal cm S q = true → ∀ token operation resource exactResource,
    (p.applyTo token).isAllowed cm operation resource exactResource =
      (q.applyTo token).isAllowed cm operation resource exactResource

/-- Equality is equality of grants, whatever the sort, just when no two effective rules for one
resource and effect differ in their permissions. -/
theorem equality_law_iff (cm : CaseMap) (H : Hashing) (p : ClientTokenAuthorizationPolicy) :
    (∀ S : ListSort, EqualityLaw cm H S p) ↔ NoConflict cm p := by
  constructor
  · intro h a ha b hb hresource heffect
    have htied := compareRules_eq_iff.mpr ⟨hresource, heffect⟩
    have hglobal : p.usesGlobalScope = false := by
      rw [← Bool.not_eq_true]
      intro hglobal
      simp [effectiveRules, hglobal] at ha
    have heffective : ∀ rules, (p.withRules rules).effectiveRules = rules := by
      intro rules
      show (if p.usesGlobalScope then [] else rules) = rules
      rw [hglobal, if_neg (by decide)]
    have hrules : p.effectiveRules = p.rules := heffective p.rules
    rw [hrules] at ha hb
    classical
    have hequal := (h ListSort.insertion).order p (a :: p.rules.erase a) (b :: p.rules.erase b)
      (List.perm_cons_erase ha).symm (List.perm_cons_erase hb).symm
    rw [(h ListSort.insertion).refl, equal_iff] at hequal
    have hvalues := hequal.2
    unfold sortedRules at hvalues
    rw [heffective, heffective] at hvalues
    exact permissions_of_insertion htied hvalues
  · intro h S
    refine ⟨equal_self p, fun q => equal_symm, fun q r => equal_trans, ?_, ?_, ?_⟩
    · intro q rules rules' hp hq
      exact equal_withRules h hp hq
    · exact fun q => hashCode_of_equal
    · intro q hequal token operation resource exactResource
      rw [Bool.eq_iff_iff, ClientTokenPolicy.isAllowed_iff, ClientTokenPolicy.isAllowed_iff]
      exact ⟨granted_of_equal hequal, granted_of_equal (equal_symm hequal)⟩

/-- A rule that allows reading or updating a table. -/
def allowOn (canUpdate : Bool) : ClientTokenRule where
  resource := ⟨.table, ['t']⟩
  permissions := { canRead := !canUpdate, canUpdate := canUpdate, canDelete := false }
  effect := .allow

/-- Two rules for one table, one to read it and one to update it. -/
def readThenUpdate : ClientTokenAuthorizationPolicy where
  allTables := false
  allViews := false
  globalPermissions := .none
  rules := [allowOn false, allowOn true]

/-- The two rules in the other order make another policy. -/
theorem reordered_not_equal :
    [allowOn true, allowOn false].Perm readThenUpdate.rules ∧
      (readThenUpdate.withRules [allowOn true, allowOn false]).equal asciiCase .insertion
        readThenUpdate = false ∧
      ¬ ∀ (H : Hashing) (S : ListSort) (p : ClientTokenAuthorizationPolicy),
        EqualityLaw asciiCase H S p := by
  have hperm : [allowOn true, allowOn false].Perm readThenUpdate.rules := List.Perm.swap _ _ _
  have hdiffers : (readThenUpdate.withRules [allowOn true, allowOn false]).equal asciiCase
      .insertion readThenUpdate = false := by decide
  refine ⟨hperm, hdiffers, fun h => ?_⟩
  let H : Hashing := ⟨List.sum, List.sum, 0, fun _ => 0, fun _ => 0, fun _ => 0, fun _ => 0⟩
  have hlaw := h H .insertion readThenUpdate
  have hequal : (readThenUpdate.withRules [allowOn true, allowOn false]).equal asciiCase
      .insertion readThenUpdate = readThenUpdate.equal asciiCase .insertion readThenUpdate :=
    hlaw.order readThenUpdate _ _ hperm .rfl
  rw [hdiffers, hlaw.refl] at hequal
  exact absurd hequal (by decide)

end ClientTokenAuthorizationPolicy

end PlugAgente.Authorization
