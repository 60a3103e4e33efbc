import PlugAgente.Dart.ListSort
import PlugAgente.Wire.Json

/-!
# The order of a batch and the way back

`handleSqlExecuteBatch` sorts the commands of a request, hands them to the gateway in that
order, and names each result after the command's place in the request.  The two results are
`Sorted` (what is sent is the request, reordered by `Before`) and `MappedBack` (what the
items of the response are); `ordered_and_mapped_back` puts them together.

The reading of one command, the validation, the authorization and the gateway are
parameters.  Idempotency, the deadline and the check of the pagination options are left out:
they decide whether the gateway is reached, not what it is sent.
-/

namespace PlugAgente.Batch.ExecuteBatch

open PlugAgente.Dart PlugAgente.Wire Std

variable {V C E ρ : Type}

structure BatchCommandExecutionPlan (C : Type) where
  command : C
  requestIndex : Nat
  executionOrder : Option Int
  deriving Repr, DecidableEq

/-- `SqlCommandResult`, over any type of rows. -/
structure SqlCommandResult (ρ : Type) where
  index : Int
  ok : Bool
  rows : Option (List ρ) := none
  rowCount : Option Int := none
  affectedRows : Option Int := none
  error : Option String := none
  columnMetadata : Option (List ρ) := none
  deriving Repr, DecidableEq

structure BatchResponse (ρ : Type) where
  items : List (SqlCommandResult ρ)
  totalCommands : Nat
  successfulCommands : Nat
  failedCommands : Nat
  deriving Repr, DecidableEq

/-- Why there is no result: the parameters, a command that does not read as one, or a failure
of validation, authorization or execution. -/
inductive Refusal (E : Type) where
  | invalidParams (message : String)
  | typeError
  | failure (error : E)
  deriving Repr, DecidableEq

/-- What the handler works with; `wholeNumber` is `jsonWholeNumberAsInt` of a value that is no
`int`, and `fromJson` is nothing where it throws. -/
structure Collaborators (V C E ρ : Type) where
  lists : ListSort
  wholeNumber : V → Option Int
  fromJson : Entries V → Option C
  validateSqlBatch : List C → Option E
  enforce : List C → Option E
  executeSqlBatch : List C → Except E (List (SqlCommandResult ρ))

/-! ## The handler -/

section Handler

variable (W : Collaborators V C E ρ)

def jsonNonNegativeInt (value : Json V) : Option Int :=
  let whole := match value with
    | .int n => some n
    | .other v => W.wholeNumber v
    | _ => none
  whole.filter fun n => 0 ≤ n

/-- The execution order of a command. -/
def readExecutionOrder (executionOrderRaw : Json V) : Option Int :=
  if !executionOrderRaw.isNull then jsonNonNegativeInt W executionOrderRaw else none

/-- One round of the loop over the commands of the request. -/
def readPlan (i : Nat) : Json V → Except (Refusal E) (BatchCommandExecutionPlan C)
  | .map commandJson =>
    let executionOrderRaw := (commandJson.lookup "execution_order").getD .null
    let executionOrder := readExecutionOrder W executionOrderRaw
    if !executionOrderRaw.isNull && executionOrder.isNone then
      .error (.invalidParams s!"commands[{i}].execution_order must be an integer >= 0")
    else
      match W.fromJson commandJson with
      | none => .error .typeError
      | some command => .ok ⟨command, i, executionOrder⟩
  | _ => .error (.invalidParams s!"commands[{i}] must be an object")

/-- The loop over the commands of the request from index `i` on. -/
def readPlansFrom (i : Nat) :
    List (Json V) → Except (Refusal E) (List (BatchCommandExecutionPlan C))
  | [] => .ok []
  | json :: rest =>
    match readPlan W i json with
    | .error refusal => .error refusal
    | .ok plan =>
      match readPlansFrom (i + 1) rest with
      | .error refusal => .error refusal
      | .ok plans => .ok (plan :: plans)

/-- The comparator of `commandPlans.sort`. -/
def comparePlans (left right : BatchCommandExecutionPlan C) : Ordering :=
  match left.executionOrder, right.executionOrder with
  | some leftOrder, some rightOrder =>
    let orderCompare := compare leftOrder rightOrder
    if orderCompare != .eq then orderCompare
    else compare left.requestIndex right.requestIndex
  | some _, none => .lt
  | none, some _ => .gt
  | none, none => compare left.requestIndex right.requestIndex

/-- The item that a result of the gateway becomes. -/
def responseItem (commandPlans : List (BatchCommandExecutionPlan C))
    (batchResult : SqlCommandResult ρ) : SqlCommandResult ρ :=
  if batchResult.index < 0 ∨ (commandPlans.length : Int) ≤ batchResult.index then batchResult
  else
    match commandPlans[batchResult.index.toNat]? with
    | none => batchResult
    | some plan =>
      { index := plan.requestIndex
        ok := batchResult.ok
        rows := batchResult.rows
        rowCount := batchResult.rowCount
        affectedRows := batchResult.affectedRows
        error := batchResult.error
        columnMetadata := batchResult.columnMetadata }

def responseItems (commandPlans : List (BatchCommandExecutionPlan C))
    (commandResults : List (SqlCommandResult ρ)) : List (SqlCommandResult ρ) :=
  W.lists.sort (fun left right => compare left.index right.index)
    (commandResults.map (responseItem commandPlans))

def response (commandPlans : List (BatchCommandExecutionPlan C))
    (commandResults : List (SqlCommandResult ρ)) : BatchResponse ρ :=
  let items := responseItems W commandPlans commandResults
  { items := items
    totalCommands := commandPlans.length
    successfulCommands := items.countP fun r => r.ok
    failedCommands := items.countP fun r => !r.ok }

/-- `handleSqlExecuteBatch`: what the gateway is sent, if it is reached, and the answer. -/
def handleSqlExecuteBatch (maxBatchSize : Nat) (commandsJson : List (Json V)) :
    Option (List C) × Except (Refusal E) (BatchResponse ρ) :=
  if commandsJson.isEmpty then
    (none, .error (.invalidParams "commands is required and must not be empty"))
  else if maxBatchSize < commandsJson.length then
    let size := commandsJson.length
    (none, .error (.invalidParams
      s!"commands exceeds negotiated limit: {size} > {maxBatchSize}"))
  else
    match readPlansFrom W 0 commandsJson with
    | .error refusal => (none, .error refusal)
    | .ok plans =>
      let commandPlans := W.lists.sort comparePlans plans
      let commands := commandPlans.map (·.command)
      match W.validateSqlBatch commands with
      | some error => (none, .error (.failure error))
      | none =>
        match W.enforce commands with
        | some error => (none, .error (.failure error))
        | none =>
          match W.executeSqlBatch commands with
          | .error error => (some commands, .error (.failure error))
          | .ok commandResults => (some commands, .ok (response W commandPlans commandResults))

end Handler

/-! ## What the handler is for -/

/-- The plans are the commands of the request, each with its place. -/
structure Requested (W : Collaborators V C E ρ) (commandsJson : List (Json V))
    (plans : List (BatchCommandExecutionPlan C)) : Prop where
  length : plans.length = commandsJson.length
  placed : ∀ (i : Nat) (plan : BatchCommandExecutionPlan C), plans[i]? = some plan →
    plan.requestIndex = i
  read : ∀ (i : Nat) (plan : BatchCommandExecutionPlan C), plans[i]? = some plan → ∃ commandJson,
    commandsJson[i]? = some (Json.map commandJson) ∧ W.fromJson commandJson = some plan.command ∧
      plan.executionOrder =
        (commandJson.lookup "execution_order").bind (jsonNonNegativeInt W)

/-- A plan comes before another: an explicit order before none, the smaller order first, and
the request's order where these say nothing. -/
def Before (left right : BatchCommandExecutionPlan C) : Prop :=
  match left.executionOrder, right.executionOrder with
  | some leftOrder, some rightOrder =>
    leftOrder < rightOrder ∨ leftOrder = rightOrder ∧ left.requestIndex < right.requestIndex
  | some _, none => True
  | none, some _ => False
  | none, none => left.requestIndex < right.requestIndex

/-- What is sent are the plans of the request, ordered by `Before`. -/
structure Sorted (plans sent : List (BatchCommandExecutionPlan C)) : Prop where
  perm : sent.Perm plans
  ordered : sent.Pairwise Before

/-- The indexes of the results are distinct places of what was sent. -/
structure Positions (n : Nat) (results : List (SqlCommandResult ρ)) : Prop where
  nodup : (results.map (·.index)).Nodup
  within : ∀ r ∈ results, 0 ≤ r.index ∧ r.index < n

/-- The items are the results, each under the place in the request of the command that stands
at its index in what was sent. -/
structure MappedBack (sent : List (BatchCommandExecutionPlan C))
    (results items : List (SqlCommandResult ρ)) : Prop where
  inRequestOrder : items.Pairwise fun a b => a.index < b.index
  carried : ∀ item ∈ items, ∃ r ∈ results, ∃ plan, sent[r.index.toNat]? = some plan ∧
    item = { r with index := plan.requestIndex }
  noneLost : ∀ r ∈ results, ∃ plan, sent[r.index.toNat]? = some plan ∧
    { r with index := (plan.requestIndex : Int) } ∈ items
  noneDuplicated : items.length = results.length
  complete : (∀ k < sent.length, ∃ r ∈ results, r.index = k) →
    items.map (·.index) = (List.range sent.length).map Int.ofNat

/-! ## Reading -/

section Reading

variable {W : Collaborators V C E ρ}

theorem readPlan_ok {i : Nat} {json : Json V} {plan : BatchCommandExecutionPlan C}
    (h : readPlan W i json = .ok plan) :
    plan.requestIndex = i ∧ ∃ commandJson, json = .map commandJson ∧
      W.fromJson commandJson = some plan.command ∧
      plan.executionOrder = (commandJson.lookup "execution_order").bind (jsonNonNegativeInt W) := by
  unfold readPlan at h
  split at h
  · rename_i commandJson
    dsimp only at h
    split at h
    · cases h
    · rename_i hread
      split at h
      · cases h
      · rename_i command hcommand
        cases h
        refine ⟨rfl, commandJson, rfl, hcommand, ?_⟩
        show readExecutionOrder W ((commandJson.lookup "execution_order").getD .null) = _
        cases commandJson.lookup "execution_order" with
        | none => rfl
        | some value => cases value <;> rfl
  · cases h

theorem readPlansFrom_ok {i : Nat} {commandsJson : List (Json V)}
    {plans : List (BatchCommandExecutionPlan C)} (h : readPlansFrom W i commandsJson = .ok plans) :
    List.Forall₂ (fun json (entry : BatchCommandExecutionPlan C × Nat) =>
      readPlan W entry.2 json = .ok entry.1) commandsJson (plans.zipIdx i) := by
  induction commandsJson generalizing i plans with
  | nil =>
    cases h
    exact .nil
  | cons json rest ih =>
    unfold readPlansFrom at h
    split at h
    · cases h
    · rename_i plan hplan
      split at h
      · cases h
      · rename_i tail htail
        cases h
        exact .cons hplan (ih htail)

theorem requested {commandsJson : List (Json V)} {plans : List (BatchCommandExecutionPlan C)}
    (h : readPlansFrom W 0 commandsJson = .ok plans) : Requested W commandsJson plans := by
  have hall := readPlansFrom_ok h
  have hlength : commandsJson.length = plans.length := by
    rw [hall.length_eq, List.length_zipIdx]
  have hread : ∀ (i : Nat) (plan : BatchCommandExecutionPlan C), plans[i]? = some plan →
      ∃ json, commandsJson[i]? = some json ∧ readPlan W i json = .ok plan := by
    intro i plan hplan
    have hi : i < plans.length := (List.getElem?_eq_some_iff.mp hplan).1
    have hget := hall.get (i := i) (by omega) (by simpa using hi)
    refine ⟨commandsJson[i], List.getElem?_eq_getElem (by omega), ?_⟩
    obtain ⟨_, rfl⟩ := List.getElem?_eq_some_iff.mp hplan
    simpa using hget
  refine ⟨hlength.symm, ?_, ?_⟩
  · intro i plan hplan
    obtain ⟨json, _, hok⟩ := hread i plan hplan
    exact (readPlan_ok hok).1
  · intro i plan hplan
    obtain ⟨json, hjson, hok⟩ := hread i plan hplan
    obtain ⟨commandJson, rfl, hrest⟩ := (readPlan_ok hok).2
    exact ⟨commandJson, hjson, hrest⟩

theorem Requested.indexes {commandsJson : List (Json V)}
    {plans : List (BatchCommandExecutionPlan C)} (h : Requested W commandsJson plans) :
    plans.map (·.requestIndex) = List.range plans.length := by
  apply List.ext_getElem?
  intro i
  rw [List.getElem?_map]
  cases hplan : plans[i]? with
  | none =>
    have hlength := List.getElem?_eq_none_iff.mp hplan
    exact (List.getElem?_eq_none (by simpa using hlength)).symm
  | some plan =>
    have hi := (List.getElem?_eq_some_iff.mp hplan).1
    rw [List.getElem?_range hi, Option.map_some, h.placed i plan hplan]

end Reading

/-! ## Ordering -/

section Ordering

variable {plans sent : List (BatchCommandExecutionPlan C)}

theorem comparePlans_eq : comparePlans (C := C) =
    compareLex (compareOn fun plan => plan.executionOrder.isNone)
      (compareLex (compareOn fun plan => plan.executionOrder.getD 0)
        (compareOn fun plan => plan.requestIndex)) := by
  funext left right
  obtain ⟨_, leftIndex, leftOrder⟩ := left
  obtain ⟨_, rightIndex, rightOrder⟩ := right
  cases leftOrder with
  | none =>
    cases rightOrder with
    | none => rfl
    | some rightOrder => rfl
  | some leftOrder =>
    cases rightOrder with
    | none => rfl
    | some rightOrder =>
      show (if compare leftOrder rightOrder != .eq then compare leftOrder rightOrder
        else compare leftIndex rightIndex) =
          (compare leftOrder rightOrder).then (compare leftIndex rightIndex)
      cases compare leftOrder rightOrder <;> rfl

instance : TransCmp (comparePlans (C := C)) := by
  rw [comparePlans_eq]
  infer_instance

theorem before_of_isLE {left right : BatchCommandExecutionPlan C}
    (hne : left.requestIndex ≠ right.requestIndex)
    (h : (comparePlans left right).isLE = true) : Before left right := by
  unfold comparePlans at h
  unfold Before
  cases hl : left.executionOrder with
  | none =>
    rw [hl] at h
    cases hr : right.executionOrder with
    | none =>
      rw [hr] at h
      have hle := Nat.isLE_compare.mp h
      show left.requestIndex < right.requestIndex
      omega
    | some rightOrder =>
      rw [hr] at h
      cases h
  | some leftOrder =>
    rw [hl] at h
    cases hr : right.executionOrder with
    | none => trivial
    | some rightOrder =>
      rw [hr] at h
      dsimp only at h ⊢
      split at h
      · rename_i hcompare
        have hle := Int.isLE_compare.mp h
        have hneq : leftOrder ≠ rightOrder := by
          rintro rfl
          simp at hcompare
        omega
      · rename_i hcompare
        have heq : leftOrder = rightOrder := by simpa using hcompare
        have hle := Nat.isLE_compare.mp h
        omega

theorem sorted (lists : ListSort) (hindexes : (plans.map (·.requestIndex)).Nodup) :
    Sorted plans (lists.sort comparePlans plans) := by
  have hperm := lists.perm comparePlans plans
  refine ⟨hperm, ?_⟩
  have hnodup : (lists.sort comparePlans plans).Pairwise
      fun a b => a.requestIndex ≠ b.requestIndex := by
    rw [← List.pairwise_map]
    exact (hperm.map _).symm.nodup hindexes
  exact hnodup.imp₂ (fun a b hne hle => before_of_isLE hne hle)
    (lists.ordered comparePlans plans)

end Ordering

/-! ## Mapping back -/

section MappingBack

variable {W : Collaborators V C E ρ} {sent : List (BatchCommandExecutionPlan C)}
  {results : List (SqlCommandResult ρ)}

def Places (sent : List (BatchCommandExecutionPlan C)) : Prop :=
  (sent.map (·.requestIndex)).Perm (List.range sent.length)

theorem responseItem_eq {r : SqlCommandResult ρ} (h : 0 ≤ r.index ∧ r.index < sent.length) :
    ∃ plan, sent[r.index.toNat]? = some plan ∧
      responseItem sent r = { r with index := plan.requestIndex } := by
  have hlt : r.index.toNat < sent.length := by omega
  refine ⟨sent[r.index.toNat], List.getElem?_eq_getElem hlt, ?_⟩
  unfold responseItem
  rw [if_neg (by omega), List.getElem?_eq_getElem hlt]

theorem nodup_responseItem (hplaces : Places sent) (h : Positions sent.length results) :
    ((results.map (responseItem sent)).map (·.index)).Nodup := by
  have hplaced : (sent.map (·.requestIndex)).Nodup := hplaces.symm.nodup List.nodup_range
  rw [List.map_map]
  refine List.Nodup.map_on ?_ (List.Nodup.of_map _ h.nodup)
  intro r hr r' hr' heq
  obtain ⟨plan, hplan, hitem⟩ := responseItem_eq (h.within r hr)
  obtain ⟨plan', hplan', hitem'⟩ := responseItem_eq (h.within r' hr')
  have hindex : plan.requestIndex = plan'.requestIndex := by
    simpa [Function.comp, hitem, hitem'] using heq
  have hsame : r.index.toNat = r'.index.toNat := by
    have hlt := (List.getElem?_eq_some_iff.mp hplan).1
    refine (List.getElem?_inj (by simpa using hlt) hplaced).mp ?_
    rw [List.getElem?_map, List.getElem?_map, hplan, hplan']
    exact congrArg some hindex
  have hbounds := h.within r hr
  have hbounds' := h.within r' hr'
  exact List.inj_on_of_nodup_map h.nodup hr hr' (by omega)

theorem mappedBack (hplaces : Places sent) (h : Positions sent.length results) :
    MappedBack sent results (responseItems W sent results) := by
  have hperm : (responseItems W sent results).Perm (results.map (responseItem sent)) :=
    W.lists.perm _ _
  have hnodup : ((responseItems W sent results).map (·.index)).Nodup :=
    (hperm.map _).symm.nodup (nodup_responseItem hplaces h)
  have hle : (responseItems W sent results).Pairwise fun a b => a.index ≤ b.index :=
    (W.lists.ordered (compareOn fun r : SqlCommandResult ρ => r.index) _).imp
      fun h => Int.isLE_compare.mp h
  have hlt : (responseItems W sent results).Pairwise fun a b => a.index < b.index := by
    have hne : (responseItems W sent results).Pairwise fun a b => a.index ≠ b.index :=
      List.pairwise_map.mp hnodup
    exact hle.imp₂ (fun a b hab hne => by omega) hne
  have hcarried : ∀ item ∈ responseItems W sent results, ∃ r ∈ results, ∃ plan,
      sent[r.index.toNat]? = some plan ∧ item = { r with index := plan.requestIndex } := by
    intro item hitem
    obtain ⟨r, hr, rfl⟩ := List.mem_map.mp (hperm.subset hitem)
    exact ⟨r, hr, responseItem_eq (h.within r hr)⟩
  refine ⟨hlt, hcarried, ?_, ?_, ?_⟩
  · intro r hr
    obtain ⟨plan, hplan, heq⟩ := responseItem_eq (h.within r hr)
    exact ⟨plan, hplan, heq ▸ hperm.symm.subset (List.mem_map_of_mem hr)⟩
  · rw [hperm.length_eq, List.length_map]
  · intro hanswered
    have hindexes : (results.map (·.index)).Perm ((List.range sent.length).map Int.ofNat) := by
      refine (List.perm_ext_iff_of_nodup h.nodup ?_).mpr ?_
      · exact List.nodup_range.map fun a b => Int.ofNat.inj
      · intro i
        rw [List.mem_map, List.mem_map]
        constructor
        · rintro ⟨r, hr, rfl⟩
          have hbounds := h.within r hr
          exact ⟨r.index.toNat, List.mem_range.mpr (by omega), Int.toNat_of_nonneg hbounds.1⟩
        · rintro ⟨k, hk, rfl⟩
          obtain ⟨r, hr, hindex⟩ := hanswered k (List.mem_range.mp hk)
          exact ⟨r, hr, hindex⟩
    have hlength : (responseItems W sent results).length = sent.length := by
      have hcount := hindexes.length_eq
      simpa [hperm.length_eq] using hcount
    have hsub : (responseItems W sent results).map (·.index) ⊆
        (List.range sent.length).map Int.ofNat := by
      intro i hi
      obtain ⟨item, hitem, rfl⟩ := List.mem_map.mp hi
      obtain ⟨r, _, plan, hplan, rfl⟩ := hcarried item hitem
      have hmem := hplaces.subset (List.mem_map_of_mem (List.mem_of_getElem? hplan))
      exact List.mem_map_of_mem hmem
    have hfull := (List.subperm_of_subset hnodup hsub).perm_of_length_le (by simp [hlength])
    refine hfull.eq_of_pairwise ?_ (List.pairwise_map.mpr hlt) ?_
    · exact fun a b _ _ hab hba => absurd hab (by omega)
    · exact List.pairwise_map.mpr (List.pairwise_lt_range.imp Int.ofNat_lt.mpr)

end MappingBack

/-! ## The whole request -/

/-- For every request whose commands reach the gateway: what is sent is the request ordered by
`Before`, and whatever results the gateway gives for distinct places of it, the items of the
response are these, mapped back. -/
theorem ordered_and_mapped_back (W : Collaborators V C E ρ) {maxBatchSize : Nat}
    {commandsJson : List (Json V)} {commands : List C}
    (hsent : (handleSqlExecuteBatch W maxBatchSize commandsJson).1 = some commands) :
    ∃ plans sent, Requested W commandsJson plans ∧ Sorted plans sent ∧
      commands = sent.map (·.command) ∧
      ∀ results, W.executeSqlBatch commands = .ok results → Positions sent.length results →
        ∃ answer, (handleSqlExecuteBatch W maxBatchSize commandsJson).2 = .ok answer ∧
          MappedBack sent results answer.items ∧ answer.totalCommands = commandsJson.length ∧
          answer.successfulCommands + answer.failedCommands = results.length := by
  unfold handleSqlExecuteBatch at hsent ⊢
  split at hsent
  · cases hsent
  rename_i hne
  rw [if_neg hne]
  split at hsent
  · cases hsent
  rename_i hsize
  rw [if_neg hsize]
  cases hplans : readPlansFrom W 0 commandsJson with
  | error refusal =>
    rw [hplans] at hsent
    cases hsent
  | ok plans =>
    rw [hplans] at hsent
    dsimp only at hsent ⊢
    have hrequested := requested hplans
    have hsorted : Sorted plans (W.lists.sort comparePlans plans) :=
      sorted W.lists (hrequested.indexes ▸ List.nodup_range)
    have hplaces : Places (W.lists.sort comparePlans plans) := by
      unfold Places
      rw [hsorted.perm.length_eq, ← hrequested.indexes]
      exact hsorted.perm.map _
    generalize W.lists.sort comparePlans plans = sent at hsent hsorted hplaces ⊢
    split at hsent
    · cases hsent
    split at hsent
    · cases hsent
    have hcommands : commands = sent.map (·.command) := by
      cases hgateway : W.executeSqlBatch (sent.map (·.command)) <;>
        · rw [hgateway] at hsent
          exact (Option.some.inj hsent).symm
    refine ⟨plans, sent, hrequested, hsorted, hcommands, ?_⟩
    intro results hresults hpositions
    rw [hcommands] at hresults
    rw [hresults]
    have hmapped := mappedBack (W := W) hplaces hpositions
    refine ⟨response W sent results, rfl, hmapped, ?_, ?_⟩
    · exact hsorted.perm.length_eq.trans hrequested.length
    · have hcount := List.length_eq_countP_add_countP (fun r : SqlCommandResult ρ => r.ok)
        (l := responseItems W sent results)
      show List.countP _ (responseItems W sent results) +
        List.countP _ (responseItems W sent results) = results.length
      rw [← hmapped.noneDuplicated, hcount]
      simp

/-- Commands that are their own text, and a gateway that answers the last one first. -/
def lastFirst : Collaborators Empty String Empty Nat where
  lists := .insertion
  wholeNumber := fun _ => none
  fromJson := fun commandJson =>
    match commandJson.lookup "sql" with
    | some (.text sql) => some sql
    | _ => none
  validateSqlBatch := fun _ => none
  enforce := fun _ => none
  executeSqlBatch := fun _ => .ok [{ index := 1, ok := true, rows := some [7] },
    { index := 0, ok := false, error := some "failed" }]

theorem ordered_and_mapped_back_swapped :
    ∃ plans sent, Requested lastFirst [.map [("sql", .text "SELECT 1")],
        .map [("sql", .text "SELECT 2"), ("execution_order", .int 0)]] plans ∧
      Sorted plans sent ∧ ["SELECT 2", "SELECT 1"] = sent.map (·.command) ∧
      ∃ answer, (handleSqlExecuteBatch lastFirst 10 [.map [("sql", .text "SELECT 1")],
          .map [("sql", .text "SELECT 2"), ("execution_order", .int 0)]]).2 = .ok answer ∧
        MappedBack sent [{ index := 1, ok := true, rows := some [7] },
          { index := 0, ok := false, error := some "failed" }] answer.items := by
  have hsent : (handleSqlExecuteBatch lastFirst 10 [.map [("sql", .text "SELECT 1")],
      .map [("sql", .text "SELECT 2"), ("execution_order", .int 0)]]).1 =
        some ["SELECT 2", "SELECT 1"] := by decide +kernel
  obtain ⟨plans, sent, hrequested, hsorted, hcommands, hanswers⟩ :=
    ordered_and_mapped_back lastFirst hsent
  have hlength : sent.length = 2 := by simpa using (congrArg List.length hcommands).symm
  obtain ⟨answer, hanswer, hmapped, _⟩ := hanswers _ rfl ⟨by decide, by rw [hlength]; decide⟩
  exact ⟨plans, sent, hrequested, hsorted, hcommands, answer, hanswer, hmapped⟩

end PlugAgente.Batch.ExecuteBatch
