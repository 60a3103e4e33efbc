import PlugAgente.Authorization.PolicyLaw

/-!
# Qualified names

A resource is named by identifiers, plain or quoted, with dots between them.  The comparison of
names forgets how an identifier is quoted and where it has blanks, and reads every dot as a
separator.  In the exact mode names are taken for the same when their normal forms are, and
otherwise when the last parts of these are, so there a qualifier does not count.  What is opened is
opened by a rule that names it unless names that are not the same are taken for the same.  In the
exact mode that takes an identifier with a dot, a quote or a blank in it (`distinguishes_of_clean`).
-/

namespace PlugAgente.Authorization

open PlugAgente.Dart

variable {cm : CaseMap}

/-! ## The last part of a normal form -/

@[simp] theorem collapseDots_singleton (c : Char) : collapseDots [c] = [c] := by
  simp [collapseDots]

theorem collapseDots_cons_cons (c d : Char) (rest : Text) :
    collapseDots (c :: d :: rest) =
      if c == '.' && d == '.' then collapseDots (d :: rest)
      else c :: collapseDots (d :: rest) := by
  conv_lhs => unfold collapseDots

theorem getLast?_splitOn (t : Text) : (t.splitOn '.').getLast? = some (baseName t) := by
  unfold baseName
  cases h : (t.splitOn '.').getLast? with
  | none => exact absurd (List.getLast?_eq_none_iff.mp h) (List.splitOn_ne_nil _ _)
  | some part => rfl

theorem baseName_append (before after : Text) :
    baseName (before ++ '.' :: after) = baseName after := by
  apply Option.some.inj
  rw [← getLast?_splitOn, ← getLast?_splitOn, List.splitOn_append_cons_self,
    List.getLast?_append_of_ne_nil _ (List.splitOn_ne_nil _ _)]

theorem baseName_of_notMem {t : Text} (h : '.' ∉ t) : baseName t = t := by
  apply Option.some.inj
  rw [← getLast?_splitOn, List.splitOn_eq_singleton h, List.getLast?_singleton]

theorem baseName_cons (c : Char) (t : Text) :
    baseName (c :: t) = if '.' ∈ c :: t then baseName t else c :: t := by
  by_cases ht : '.' ∈ t
  · rw [if_pos (List.mem_cons_of_mem _ ht)]
    obtain ⟨before, after, rfl⟩ := List.append_of_mem ht
    rw [← List.cons_append, baseName_append, baseName_append]
  · by_cases hc : c = '.'
    · rw [if_pos (by simp [hc]), hc]
      exact baseName_append [] t
    · have hmem : '.' ∉ c :: t := by
        simp only [List.mem_cons, not_or]
        exact ⟨Ne.symm hc, ht⟩
      rw [if_neg hmem, baseName_of_notMem hmem]

theorem baseName_baseName (t : Text) : baseName (baseName t) = baseName t := by
  induction t with
  | nil => rfl
  | cons c t ih =>
    rw [baseName_cons]
    split
    · exact ih
    · rename_i h
      exact baseName_of_notMem h

theorem matchesName_iff {rule resource : DatabaseResource} :
    rule.matchesName cm resource.name = true ↔
      baseName (rule.normalizedName cm) = baseName (resource.normalizedName cm) := by
  unfold DatabaseResource.matchesName buildCandidates
  simp only [List.any_cons, List.any_nil, List.contains_iff_mem, Bool.or_eq_true, Bool.or_false,
    List.mem_cons, List.not_mem_nil, or_false]
  show (rule.normalizedName cm = resource.normalizedName cm ∨ _) ∨ _ ↔ _
  constructor
  · rintro ((h | h) | h | h)
    · rw [h]
    · rw [h]
      exact baseName_baseName _
    · rw [← baseName_baseName, h]
      rfl
    · exact h
  · exact fun h => .inr (.inr h)

/-! ## Identifiers -/

/-- How an identifier is quoted. -/
inductive Quoting where
  | bracket
  | double
  | back
  | single
  deriving Repr, DecidableEq

namespace Quoting

def opening : Quoting → Char
  | .bracket => '['
  | .double => '"'
  | .back => '`'
  | .single => '\''

def closing : Quoting → Char
  | .bracket => ']'
  | .double => '"'
  | .back => '`'
  | .single => '\''

end Quoting

/-- An identifier: a plain one is a word without dots, blanks and quotes, a quoted one holds any
text. -/
inductive Identifier where
  | plain (word : Text) (nonempty : word ≠ [])
    (clean : ∀ c ∈ word, c ≠ '.' ∧ isNameQuote c = false ∧ isWhitespace c = false)
  | quoted (quoting : Quoting) (content : Text)

namespace Identifier

/-- The identifier as it is written, with its closing quote doubled inside. -/
def written : Identifier → Text
  | .plain word _ _ => word
  | .quoted quoting content =>
    quoting.opening :: (content.flatMap fun c =>
      if c == quoting.closing then [c, c] else [c]) ++ [quoting.closing]

/-- The text that an identifier denotes. -/
def content : Identifier → Text
  | .plain word _ _ => word
  | .quoted _ content => content

end Identifier

/-- A qualified name as it is written. -/
def written : List Identifier → Text
  | [] => []
  | [identifier] => identifier.written
  | identifier :: identifiers => identifier.written ++ '.' :: written identifiers

/-! ## What a rule opens -/

/-- A rule in force that allows an operation. -/
def ClientTokenPolicy.Allows (p : ClientTokenPolicy) (operation : SqlOperation)
    (rule : ClientTokenRule) : Prop :=
  rule ∈ p.effectiveRules ∧ rule.effect = .allow ∧ rule.affectsOperation operation = true

/-- Two names of the same thing: letter by letter the same identifiers, case apart.  Outside the
exact mode a name without a qualifier stands for any. -/
def SameName (cm : CaseMap) (exactResource : Bool) (identifiers identifiers' : List Identifier) :
    Prop :=
  let contents := identifiers.map fun identifier => cm.toLowerCase identifier.content
  let contents' := identifiers'.map fun identifier => cm.toLowerCase identifier.content
  if exactResource then contents = contents'
  else contents.getLast? = contents'.getLast? ∧
    (contents.dropLast ≠ [] → contents'.dropLast ≠ [] → contents.dropLast = contents'.dropLast)

namespace ClientTokenRule

/-- The name of the rule is the one given by identifiers. -/
def Names (cm : CaseMap) (rule : ClientTokenRule) (identifiers : List Identifier)
    (exactResource : Bool) : Prop :=
  ∃ identifiers', rule.resource.name = written identifiers' ∧
    SameName cm exactResource identifiers' identifiers

/-- The comparison takes the rule for one of the resource: the type fits and the normal forms have
the same last part, and are the same in the exact mode. -/
def TakenFor (cm : CaseMap) (rule : ClientTokenRule) (resource : DatabaseResource)
    (exactResource : Bool) : Prop :=
  (resource.resourceType = .unknown ∨ rule.resource.resourceType = .unknown ∨
      rule.resource.resourceType = resource.resourceType) ∧
    baseName (rule.resource.normalizedName cm) = baseName (resource.normalizedName cm) ∧
    (exactResource = true → rule.resource.normalizedName cm = resource.normalizedName cm)

theorem appliesTo_iff {rule : ClientTokenRule} {resource : DatabaseResource} :
    rule.appliesTo cm resource = true ↔
      (resource.resourceType = .unknown ∨ rule.resource.resourceType = .unknown ∨
        rule.resource.resourceType = resource.resourceType) ∧
      baseName (rule.resource.normalizedName cm) = baseName (resource.normalizedName cm) := by
  rw [← matchesName_iff]
  unfold appliesTo
  cases rule.resource.matchesName cm resource.name with
  | false => simp
  | true =>
    rw [if_neg (by decide)]
    cases resource.resourceType <;> simp [or_comm]

theorem covers_iff {rule : ClientTokenRule} {operation : SqlOperation}
    {resource : DatabaseResource} {exactResource : Bool} :
    rule.covers cm operation resource exactResource = true ↔
      rule.TakenFor cm resource exactResource ∧ rule.affectsOperation operation = true := by
  unfold covers TakenFor
  rw [Bool.and_eq_true, Bool.and_eq_true, appliesTo_iff, Bool.or_eq_true, Bool.not_eq_true',
    beq_iff_eq]
  cases exactResource with
  | false => simp
  | true =>
    simp only [Bool.true_eq_false, false_or, forall_const]
    tauto

end ClientTokenRule

/-- Where the comparison of names does no harm: the policy is revoked, a deny rule is taken for one
of the resource, an allow rule names it, or no allow rule is taken for one of it. -/
def ClientTokenPolicy.Distinguishes (cm : CaseMap) (p : ClientTokenPolicy)
    (operation : SqlOperation) (type : DatabaseResourceType) (identifiers : List Identifier)
    (exactResource : Bool) : Prop :=
  p.isRevoked = true ∨
    (∃ rule ∈ p.rules, rule.effect = .deny ∧ rule.affectsOperation operation = true ∧
      rule.TakenFor cm ⟨type, written identifiers⟩ exactResource) ∨
    (∃ rule ∈ p.rules, rule.effect = .allow ∧ rule.affectsOperation operation = true ∧
      rule.Names cm identifiers exactResource) ∨
    ∀ rule ∈ p.rules, rule.effect = .allow → rule.affectsOperation operation = true →
      ¬ rule.TakenFor cm ⟨type, written identifiers⟩ exactResource

/-- A character that the comparison reads as it is, case apart. -/
def IsClean (c : Char) : Prop :=
  c ≠ '.' ∧ isNameQuote c = false ∧ isWhitespace c = false

/-- An identifier whose text has no dot, no quote and no blank. -/
def Identifier.Clean (identifier : Identifier) : Prop :=
  identifier.content ≠ [] ∧ ∀ c ∈ identifier.content, IsClean c

/-- What the comparison of names keeps of a text, but for runs of dots. -/
def bare (cm : CaseMap) (t : Text) : Text :=
  ((cm.toLowerCase t).filter (!isNameQuote ·)).filter (!isRegExpWhitespace ·)

@[simp] theorem bare_append (s t : Text) : bare cm (s ++ t) = bare cm s ++ bare cm t := by
  simp [bare]

theorem bare_dot (t : Text) : bare cm ('.' :: t) = '.' :: bare cm t := by
  have hdot : cm.lower '.' = '.' := cm.lower_ascii '.' (by decide)
  have hquote : isNameQuote '.' = false := by decide
  have hblank : isRegExpWhitespace '.' = false := by decide
  simp [bare, hdot, hquote, hblank]

theorem bare_quote {c : Char} (hc : isNameQuote c = true) : bare cm [c] = [] := by
  have hlower : cm.lower c = c := by
    unfold isNameQuote at hc
    simp only [Bool.or_eq_true, beq_iff_eq] at hc
    rcases hc with (((rfl | rfl) | rfl) | rfl) | rfl <;> exact cm.lower_ascii _ (by decide)
  simp [bare, hlower, hc]

theorem quotes (quoting : Quoting) : isNameQuote quoting.opening = true ∧
    isNameQuote quoting.closing = true ∧ isWhitespace quoting.opening = false ∧
    isWhitespace quoting.closing = false := by
  cases quoting <;> decide

/-- In lower case no other character is a dot, a quote or a blank. -/
theorem lower_clean {c : Char} (h : IsClean c) :
    cm.lower c ≠ '.' ∧ isNameQuote (cm.lower c) = false ∧
      isRegExpWhitespace (cm.lower c) = false := by
  have hblank : isRegExpWhitespace (cm.lower c) = false :=
    isRegExpWhitespace_of_not (by rw [cm.isWhitespace_lower, h.2.2])
  suffices hother : cm.lower c ≠ '.' ∧ isNameQuote (cm.lower c) = false from
    ⟨hother.1, hother.2, hblank⟩
  rcases lt_or_ge c.toNat 128 with hc | hc
  · rw [cm.lower_ascii c hc]
    exact ascii_cases (P := fun c => c ≠ '.' ∧ isNameQuote c = false →
      c.toLower ≠ '.' ∧ isNameQuote c.toLower = false) (by decide) hc ⟨h.1, h.2.1⟩
  · -- A letter or a character outside ASCII is neither.
    have hother := cm.lower_wide c hc
    generalize cm.lower c = d at hother ⊢
    rcases lt_or_ge d.toNat 128 with hd | hd
    · refine ascii_cases (P := fun d => d.isAlpha = true → d ≠ '.' ∧ isNameQuote d = false)
        (by decide) hd (hother.resolve_right (by omega))
    · have hne : ∀ e : Char, e.toNat < 128 → d ≠ e := by
        rintro e he rfl
        omega
      simp [isNameQuote, hne '.' (by decide), hne '[' (by decide), hne ']' (by decide),
        hne '"' (by decide), hne '`' (by decide), hne '\'' (by decide)]

theorem bare_clean {t : Text} (h : ∀ c ∈ t, IsClean c) : bare cm t = cm.toLowerCase t := by
  unfold bare CaseMap.toLowerCase
  rw [List.filter_eq_self.mpr, List.filter_eq_self.mpr]
  · intro c hc
    obtain ⟨c', hc', rfl⟩ := List.mem_map.mp hc
    rw [(lower_clean (h c' hc')).2.1]
    rfl
  · intro c hc
    obtain ⟨c', hc', rfl⟩ := List.mem_map.mp (List.mem_filter.mp hc).1
    rw [(lower_clean (h c' hc')).2.2]
    rfl

namespace Identifier

variable {identifier : Identifier}

/-- A clean identifier is its text, in quotes or not. -/
theorem Clean.written_cases (h : identifier.Clean) :
    identifier.written = identifier.content ∨
      ∃ quoting : Quoting, identifier.written =
        quoting.opening :: identifier.content ++ [quoting.closing] := by
  cases identifier with
  | plain word nonempty clean => exact .inl rfl
  | quoted quoting content =>
    right
    refine ⟨quoting, ?_⟩
    show quoting.opening :: _ ++ _ = quoting.opening :: content ++ _
    have hsame : (content.flatMap fun c => if c == quoting.closing then [c, c] else [c]) =
        content.flatMap fun c => [c] := by
      refine List.flatMap_congr fun c hc => ?_
      have hne : c ≠ quoting.closing := by
        rintro rfl
        have hquote : isNameQuote quoting.closing = false := (h.2 _ hc).2.1
        rw [(quotes quoting).2.1] at hquote
        cases hquote
      rw [if_neg (by simpa using hne)]
    rw [hsame, List.flatMap_singleton']

theorem Clean.bare_written (h : identifier.Clean) :
    bare cm identifier.written = cm.toLowerCase identifier.content := by
  rcases h.written_cases with heq | ⟨quoting, heq⟩
  · rw [heq, bare_clean h.2]
  · rw [heq, List.cons_append, ← List.singleton_append, bare_append, bare_append,
      bare_quote (quotes quoting).1, bare_quote (quotes quoting).2.1, bare_clean h.2,
      List.nil_append, List.append_nil]

theorem Clean.not_blank (h : identifier.Clean) :
    ∀ c ∈ identifier.written, isWhitespace c = false := by
  obtain heq | ⟨quoting, heq⟩ := h.written_cases
  · rw [heq]
    exact fun c hc => (h.2 c hc).2.2
  · rw [heq]
    intro c hc
    rcases List.mem_append.mp hc with hc | hc
    · rcases List.mem_cons.mp hc with rfl | hc
      · exact (quotes quoting).2.2.1
      · exact (h.2 c hc).2.2
    · rw [List.mem_singleton.mp hc]
      exact (quotes quoting).2.2.2

end Identifier

/-- The texts of identifiers, in lower case. -/
def lowerContents (cm : CaseMap) (identifiers : List Identifier) : List Text :=
  identifiers.map fun identifier => cm.toLowerCase identifier.content

theorem written_not_blank {identifiers : List Identifier}
    (h : ∀ identifier ∈ identifiers, identifier.Clean) :
    ∀ c ∈ written identifiers, isWhitespace c = false := by
  induction identifiers with
  | nil => simp [written]
  | cons identifier identifiers ih =>
    cases identifiers with
    | nil => exact (h identifier (by simp)).not_blank
    | cons next identifiers =>
      intro c hc
      rcases List.mem_append.mp hc with hc | hc
      · exact (h identifier (by simp)).not_blank c hc
      · rcases List.mem_cons.mp hc with rfl | hc
        · decide
        · exact ih (fun other hother => h other (by simp [hother])) c hc

theorem bare_written {identifiers : List Identifier}
    (h : ∀ identifier ∈ identifiers, identifier.Clean) :
    bare cm (written identifiers) = List.intercalate ['.'] (lowerContents cm identifiers) := by
  induction identifiers with
  | nil => rfl
  | cons identifier identifiers ih =>
    have hfirst : bare cm identifier.written = cm.toLowerCase identifier.content :=
      (h identifier (by simp)).bare_written
    cases identifiers with
    | nil =>
      rw [written, hfirst]
      exact List.intercalate_singleton.symm
    | cons next identifiers =>
      have hrest := ih fun other hother => h other (by simp [hother])
      show bare cm (identifier.written ++ '.' :: written (next :: identifiers)) = _
      rw [bare_append, bare_dot, hfirst, hrest]
      simp only [lowerContents, List.map_cons, List.intercalate_cons_cons, List.append_assoc,
        List.singleton_append]

theorem mem_lowerContents {identifiers : List Identifier}
    (h : ∀ identifier ∈ identifiers, identifier.Clean) :
    ∀ part ∈ lowerContents cm identifiers, part ≠ [] ∧ '.' ∉ part := by
  intro part hpart
  obtain ⟨identifier, hmem, rfl⟩ := List.mem_map.mp hpart
  obtain ⟨hne, hclean⟩ := h identifier hmem
  refine ⟨by simpa [CaseMap.toLowerCase] using hne, ?_⟩
  intro hdot
  obtain ⟨c, hc, hlower⟩ := List.mem_map.mp hdot
  exact (lower_clean (hclean c hc)).1 hlower

theorem collapseDots_append {part : Text} (hdot : '.' ∉ part) (rest : Text) :
    collapseDots (part ++ rest) = part ++ collapseDots rest := by
  induction part with
  | nil => rfl
  | cons c part ih =>
    simp only [List.mem_cons, not_or] at hdot
    rw [List.cons_append]
    cases hmore : part ++ rest with
    | nil =>
      obtain ⟨rfl, rfl⟩ := List.append_eq_nil_iff.mp hmore
      simp [collapseDots]
    | cons d more =>
      rw [collapseDots_cons_cons, if_neg (by simp [Ne.symm hdot.1]), ← hmore, ih hdot.2,
        List.cons_append]

theorem collapseDots_intercalate {parts : List Text}
    (h : ∀ part ∈ parts, part ≠ [] ∧ '.' ∉ part) :
    collapseDots (List.intercalate ['.'] parts) = List.intercalate ['.'] parts := by
  induction parts with
  | nil => rfl
  | cons part parts ih =>
    obtain ⟨-, hdot⟩ := h part (by simp)
    cases parts with
    | nil =>
      rw [List.intercalate_singleton]
      simpa [collapseDots] using collapseDots_append hdot []
    | cons next parts =>
      obtain ⟨hne, hdot'⟩ := h next (by simp)
      have hrest := ih fun other hother => h other (by simp [hother])
      obtain ⟨c, more, rfl⟩ := List.exists_cons_of_ne_nil hne
      have hhead : ∃ tail, List.intercalate ['.'] ((c :: more) :: parts) = c :: tail := by
        cases parts with
        | nil => exact ⟨more, List.intercalate_singleton⟩
        | cons last parts => exact ⟨_, by rw [List.intercalate_cons_cons]; rfl⟩
      obtain ⟨tail, htail⟩ := hhead
      rw [List.intercalate_cons_cons, List.append_assoc, collapseDots_append hdot,
        List.singleton_append, htail, collapseDots_cons_cons, ← htail, hrest, if_neg]
      simp only [List.mem_cons, not_or] at hdot'
      simp [Ne.symm hdot'.1]

/-- The normal form of a name of clean identifiers is their texts with dots between them. -/
theorem normalizeName_clean {identifiers : List Identifier}
    (h : ∀ identifier ∈ identifiers, identifier.Clean) :
    normalizeName cm (written identifiers) =
      List.intercalate ['.'] (lowerContents cm identifiers) := by
  have hblank := written_not_blank h
  have htrim : trim (written identifiers) = written identifiers :=
    Trimmed.trim_eq ⟨fun c hc => hblank c (List.mem_of_mem_head? hc),
      fun c hc => hblank c (List.mem_of_mem_getLast? hc)⟩
  rw [normalizeName, htrim]
  show collapseDots (bare cm (written identifiers)) = _
  rw [bare_written h, collapseDots_intercalate (mem_lowerContents h)]

/-- In the exact mode names of clean identifiers are compared as they are. -/
theorem names_of_takenFor {rule : ClientTokenRule} {type : DatabaseResourceType}
    {identifiers identifiers' : List Identifier} (hne : identifiers ≠ []) (hne' : identifiers' ≠ [])
    (hclean : ∀ identifier ∈ identifiers, identifier.Clean)
    (hclean' : ∀ identifier ∈ identifiers', identifier.Clean)
    (hname : rule.resource.name = written identifiers')
    (h : rule.TakenFor cm ⟨type, written identifiers⟩ true) : rule.Names cm identifiers true := by
  refine ⟨identifiers', hname, ?_⟩
  have hnormal : normalizeName cm (written identifiers') = normalizeName cm (written identifiers) :=
    hname ▸ h.2.2 rfl
  rw [normalizeName_clean hclean, normalizeName_clean hclean'] at hnormal
  have hsplit : ∀ ids : List Identifier, ids ≠ [] → (∀ identifier ∈ ids, identifier.Clean) →
      (List.intercalate ['.'] (lowerContents cm ids)).splitOn '.' = lowerContents cm ids := by
    intro ids hids hall
    exact List.splitOn_intercalate '.' (fun part hpart => (mem_lowerContents hall part hpart).2)
      (by simpa [lowerContents] using hids)
  have hsame := congrArg (List.splitOn '.') hnormal
  rw [hsplit _ hne' hclean', hsplit _ hne hclean] at hsame
  exact hsame

/-- So the comparison does no harm in the exact mode where all names are of clean identifiers. -/
theorem distinguishes_of_clean {p : ClientTokenPolicy} (operation : SqlOperation)
    (type : DatabaseResourceType) {identifiers : List Identifier} (hne : identifiers ≠ [])
    (hclean : ∀ identifier ∈ identifiers, identifier.Clean)
    (hrules : ∀ rule ∈ p.rules, ∃ identifiers' ≠ [], rule.resource.name = written identifiers' ∧
      ∀ identifier ∈ identifiers', identifier.Clean) :
    p.Distinguishes cm operation type identifiers true := by
  by_cases htaken : ∃ rule ∈ p.rules, rule.effect = .allow ∧
      rule.affectsOperation operation = true ∧ rule.TakenFor cm ⟨type, written identifiers⟩ true
  · obtain ⟨rule, hrule, hallow, haffects, htaken⟩ := htaken
    obtain ⟨identifiers', hne', hname, hclean'⟩ := hrules rule hrule
    exact .inr (.inr (.inl ⟨rule, hrule, hallow, haffects,
      names_of_takenFor hne hne' hclean hclean' hname htaken⟩))
  · exact .inr (.inr (.inr fun rule hrule hallow haffects h =>
      htaken ⟨rule, hrule, hallow, haffects, h⟩))

/-! ## A dot inside an identifier -/

/-- The table `b` of the schema `a`. -/
def tableOfSchema : List Identifier :=
  [.plain ['a'] (by decide) (by decide), .plain ['b'] (by decide) (by decide)]

/-- The table with the name `a.b`. -/
def dottedTable : List Identifier := [.quoted .bracket ['a', '.', 'b']]

/-- A policy that allows reading the table `b` of the schema `a`. -/
def readTable : ClientTokenPolicy where
  clientId := ['c']
  allTables := false
  allViews := false
  globalPermissions := { canRead := false, canUpdate := false, canDelete := false }
  rules := [{
    resource := ⟨.table, written tableOfSchema⟩
    permissions := { canRead := true, canUpdate := false, canDelete := false }
    effect := .allow }]

end PlugAgente.Authorization
