import PlugAgente.Authorization.Authorize

/-!
# The law of policy evaluation

`isAllowed` is a loop that a deny rule leaves early.  `Granted` says the same without an order:
no rule in force denies, and a rule in force allows or the global scope does.  So the order of the
rules and their number do not matter, a further deny rule only denies and a further allow rule only
allows, and the short circuit of `AuthorizeSqlOperation` agrees.
-/

namespace PlugAgente.Authorization

open PlugAgente.Dart PlugAgente.Sql

variable {cm : CaseMap}

/-- A rule that applies to a resource and covers an operation. -/
def ClientTokenRule.covers (cm : CaseMap) (operation : SqlOperation) (resource : DatabaseResource)
    (exactResource : Bool) (rule : ClientTokenRule) : Bool :=
  (!exactResource || rule.resource.normalizedName cm == resource.normalizedName cm) &&
    rule.appliesTo cm resource && rule.affectsOperation operation

namespace ClientTokenPolicy

variable {p q : ClientTokenPolicy} {operation : SqlOperation} {resource : DatabaseResource}
  {exactResource : Bool}

/-- What a policy grants: it is not revoked, no effective deny rule covers the operation, and an
effective allow rule does or the global scope. -/
def Granted (cm : CaseMap) (p : ClientTokenPolicy) (operation : SqlOperation)
    (resource : DatabaseResource) (exactResource : Bool) : Prop :=
  p.isRevoked = false ∧
    (∀ rule ∈ p.effectiveRules, rule.covers cm operation resource exactResource = true →
      rule.effect = .allow) ∧
    ((∃ rule ∈ p.effectiveRules, rule.covers cm operation resource exactResource = true) ∨
      p.coversType resource.resourceType = true ∧ p.globalPermissions.allows operation = true)

/-! ## The loop -/

/-- One round: a rule that does not cover the operation is passed, and one that does is read by
its effect. -/
theorem ruleLoop_cons (rule : ClientTokenRule) (rules : List ClientTokenRule) (found : Bool) :
    ruleLoop cm operation resource exactResource (rule :: rules) found =
      if rule.covers cm operation resource exactResource then
        match rule.effect with
        | .deny => none
        | .allow => ruleLoop cm operation resource exactResource rules true
      else ruleLoop cm operation resource exactResource rules found := by
  rw [ruleLoop]
  unfold ClientTokenRule.covers
  by_cases hexact : (exactResource &&
      rule.resource.normalizedName cm != resource.normalizedName cm) = true
  · have hname : (!exactResource ||
        rule.resource.normalizedName cm == resource.normalizedName cm) = false := by
      simpa using hexact
    simp [hexact, hname]
  · have hname : (!exactResource ||
        rule.resource.normalizedName cm == resource.normalizedName cm) = true := by
      cases exactResource with
      | false => rfl
      | true => simpa using hexact
    rw [if_neg hexact, hname, Bool.true_and]
    cases rule.appliesTo cm resource with
    | false => rfl
    | true =>
      cases rule.affectsOperation operation with
      | false => simp
      | true => cases rule.effect <;> rfl

theorem ruleLoop_eq (rules : List ClientTokenRule) (found : Bool) :
    ruleLoop cm operation resource exactResource rules found =
      if ∀ rule ∈ rules, rule.covers cm operation resource exactResource = true →
        rule.effect = .allow
      then some (found || rules.any (·.covers cm operation resource exactResource))
      else none := by
  induction rules generalizing found with
  | nil => simp [ruleLoop]
  | cons rule rules ih =>
    rw [ruleLoop_cons]
    cases hcovers : rule.covers cm operation resource exactResource with
    | false => simp [hcovers, ih found]
    | true =>
      cases heffect : rule.effect with
      | deny => simp [hcovers, heffect]
      | allow => simp [hcovers, heffect, ih true]

theorem isAllowed_iff :
    p.isAllowed cm operation resource exactResource = true ↔
      Granted cm p operation resource exactResource := by
  unfold isAllowed Granted
  rw [ruleLoop_eq, Bool.false_or]
  cases p.isRevoked with
  | true => simp
  | false =>
    rw [if_neg (by decide)]
    by_cases hdeny : ∀ rule ∈ p.effectiveRules,
        rule.covers cm operation resource exactResource = true → rule.effect = .allow
    · rw [if_pos hdeny]
      by_cases hallow : ∃ rule ∈ p.effectiveRules,
          rule.covers cm operation resource exactResource = true
      · have hany := List.any_eq_true.mpr hallow
        rw [hany]
        exact ⟨fun _ => ⟨rfl, hdeny, .inl hallow⟩, fun _ => rfl⟩
      · have hany : (p.effectiveRules.any (·.covers cm operation resource exactResource)) =
            false := by
          rw [← Bool.not_eq_true, List.any_eq_true]
          exact hallow
        rw [hany]
        show (_ && _) = true ↔ _
        rw [Bool.and_eq_true]
        constructor
        · exact fun hglobal => ⟨rfl, hdeny, .inr hglobal⟩
        · rintro ⟨-, -, hrule | hglobal⟩
          · exact absurd hrule hallow
          · exact hglobal
    · rw [if_neg hdeny]
      constructor
      · exact fun h => nomatch h
      · exact fun h => absurd h.2.1 hdeny

/-! ## Other rules -/

theorem mem_effectiveRules {rule : ClientTokenRule} :
    rule ∈ p.effectiveRules ↔ p.usesGlobalScope = false ∧ rule ∈ p.rules := by
  unfold effectiveRules
  cases p.usesGlobalScope <;> simp

theorem usesGlobalScope_of_coversType {type : DatabaseResourceType}
    (h : p.coversType type = true) : p.usesGlobalScope = true := by
  unfold usesGlobalScope
  cases type with
  | table => exact (Bool.or_eq_true _ _).mpr (.inl h)
  | view => exact (Bool.or_eq_true _ _).mpr (.inr h)
  | unknown => exact h

/-- The policy with other rules. -/
def withRules (p : ClientTokenPolicy) (rules : List ClientTokenRule) : ClientTokenPolicy :=
  { p with rules := rules }

@[simp] theorem usesGlobalScope_withRules (rules : List ClientTokenRule) :
    (p.withRules rules).usesGlobalScope = p.usesGlobalScope := rfl

theorem mem_effectiveRules_withRules {rule : ClientTokenRule} {rules : List ClientTokenRule} :
    rule ∈ (p.withRules rules).effectiveRules ↔ p.usesGlobalScope = false ∧ rule ∈ rules :=
  mem_effectiveRules

theorem isAllowed_withRules {rules rules' : List ClientTokenRule}
    (h : ∀ rule, rule ∈ rules ↔ rule ∈ rules') :
    (p.withRules rules).isAllowed cm operation resource exactResource =
      (p.withRules rules').isAllowed cm operation resource exactResource := by
  rw [Bool.eq_iff_iff, isAllowed_iff, isAllowed_iff]
  unfold Granted
  simp only [mem_effectiveRules_withRules, h]
  rfl

theorem isAllowed_of_deny {before after : List ClientTokenRule} {rule : ClientTokenRule}
    (hdeny : rule.effect = .deny)
    (h : (p.withRules (before ++ rule :: after)).isAllowed cm operation resource exactResource =
      true) :
    (p.withRules (before ++ after)).isAllowed cm operation resource exactResource = true := by
  rw [isAllowed_iff] at h ⊢
  obtain ⟨hrevoked, hnone, hgrant⟩ := h
  have hkept : ∀ r, r ∈ (p.withRules (before ++ after)).effectiveRules →
      r ∈ (p.withRules (before ++ rule :: after)).effectiveRules := by
    intro r hr
    rw [mem_effectiveRules_withRules] at hr ⊢
    exact ⟨hr.1, by simp only [List.mem_append, List.mem_cons] at hr ⊢; tauto⟩
  refine ⟨hrevoked, fun r hr => hnone r (hkept r hr), ?_⟩
  rcases hgrant with ⟨r, hr, hcovers⟩ | hglobal
  · have hother : r ≠ rule := by
      rintro rfl
      rw [hnone _ hr hcovers] at hdeny
      cases hdeny
    rw [mem_effectiveRules_withRules] at hr
    refine .inl ⟨r, mem_effectiveRules_withRules.mpr ⟨hr.1, ?_⟩, hcovers⟩
    have hmem := hr.2
    simp only [List.mem_append, List.mem_cons] at hmem ⊢
    tauto
  · exact .inr hglobal

theorem isAllowed_allow {before after : List ClientTokenRule} {rule : ClientTokenRule}
    (hallow : rule.effect = .allow)
    (h : (p.withRules (before ++ after)).isAllowed cm operation resource exactResource = true) :
    (p.withRules (before ++ rule :: after)).isAllowed cm operation resource exactResource =
      true := by
  rw [isAllowed_iff] at h ⊢
  obtain ⟨hrevoked, hnone, hgrant⟩ := h
  refine ⟨hrevoked, ?_, ?_⟩
  · intro r hr hcovers
    by_cases heq : r = rule
    · rw [heq, hallow]
    · rw [mem_effectiveRules_withRules] at hr
      refine hnone r (mem_effectiveRules_withRules.mpr ⟨hr.1, ?_⟩) hcovers
      have hmem := hr.2
      simp only [List.mem_append, List.mem_cons] at hmem ⊢
      tauto
  · rcases hgrant with ⟨r, hr, hcovers⟩ | hglobal
    · rw [mem_effectiveRules_withRules] at hr
      refine .inl ⟨r, mem_effectiveRules_withRules.mpr ⟨hr.1, ?_⟩, hcovers⟩
      have hmem := hr.2
      simp only [List.mem_append, List.mem_cons] at hmem ⊢
      tauto
    · exact .inr hglobal

/-! ## The short circuit -/

theorem granted_of_canShortCircuit {classification : SqlOperationClassification}
    (h : canShortCircuitGlobalAllow p classification = true) {access : ClassifiedSqlResource}
    (haccess : access ∈ classification.resources) (exactResource : Bool) :
    Granted cm p access.operation access.resource exactResource := by
  unfold canShortCircuitGlobalAllow at h
  split_ifs at h with hscope
  simp only [Bool.or_eq_true, Bool.not_eq_true', not_or, Bool.not_eq_true,
    Bool.not_eq_false] at hscope
  have hboth := List.all_eq_true.mp h access haccess
  rw [Bool.and_eq_true] at hboth
  refine ⟨hscope.1, ?_, .inr ⟨hboth.2, hboth.1⟩⟩
  intro rule hrule
  rw [mem_effectiveRules, hscope.2] at hrule
  exact absurd hrule.1 (by decide)

structure EvaluationLaw (cm : CaseMap) (p : ClientTokenPolicy) : Prop where
  specified : ∀ operation resource exactResource,
    p.isAllowed cm operation resource exactResource = true ↔
      Granted cm p operation resource exactResource
  order : ∀ rules : List ClientTokenRule, (∀ rule, rule ∈ rules ↔ rule ∈ p.rules) →
    ∀ operation resource exactResource,
      (p.withRules rules).isAllowed cm operation resource exactResource =
        p.isAllowed cm operation resource exactResource
  deny : ∀ before after rule, p.rules = before ++ after → rule.effect = .deny →
    ∀ operation resource exactResource,
      (p.withRules (before ++ rule :: after)).isAllowed cm operation resource exactResource =
          true →
        p.isAllowed cm operation resource exactResource = true
  allow : ∀ before after rule, p.rules = before ++ after → rule.effect = .allow →
    ∀ operation resource exactResource,
      p.isAllowed cm operation resource exactResource = true →
        (p.withRules (before ++ rule :: after)).isAllowed cm operation resource exactResource =
          true
  shortCircuit : ∀ classification, canShortCircuitGlobalAllow p classification = true →
    ∀ access ∈ classification.resources, ∀ exactResource,
      p.isAllowed cm access.operation access.resource exactResource = true

theorem evaluation_law (cm : CaseMap) (p : ClientTokenPolicy) : EvaluationLaw cm p := by
  refine ⟨fun _ _ _ => isAllowed_iff, ?_, ?_, ?_, ?_⟩
  · intro rules hrules operation resource exactResource
    exact isAllowed_withRules (p := p) hrules
  · intro before after rule hsplit hdeny operation resource exactResource h
    have hless := isAllowed_of_deny hdeny h
    rwa [← hsplit] at hless
  · intro before after rule hsplit hallow operation resource exactResource h
    apply isAllowed_allow hallow
    rwa [← hsplit]
  · intro classification hshort access haccess exactResource
    exact isAllowed_iff.mpr (granted_of_canShortCircuit hshort haccess exactResource)

end ClientTokenPolicy

end PlugAgente.Authorization
