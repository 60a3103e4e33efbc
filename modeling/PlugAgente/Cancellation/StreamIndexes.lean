import PlugAgente.Cancellation.StreamingCoordinator
import PlugAgente.Machine.Ledger

/-!
# The indexes of the streams agree

`Indexed` is the invariant of the three maps: what any of them finds is tracked by its stream id,
and what is tracked is found by its execution id.  Three things break it or the promises to the
callers, and `Honoured` leaves them out:

* a finish that leaves the entry of its own request id, because the id was given with blanks, or
  removes that of another execution, because the two share the id;
* a disconnect that drops executions which were started while it waited for the gateway;
* an execution id that `find` cannot read, which a UUID never is.
-/

namespace PlugAgente.Cancellation

open Dart Authorization

namespace SqlStreamingCoordinator

variable {env : AuthorizeEnv} {c c' : SqlStreamingCoordinator}
  {e other : ActiveSqlStreamExecution}

def Tracked (c : SqlStreamingCoordinator) (e : ActiveSqlStreamExecution) : Prop :=
  c.activeByStreamId.lookup e.streamId = some e

/-- What a finish removes from the request ids is the entry of the execution. -/
def FinishHonoured (c : SqlStreamingCoordinator) (e : ActiveSqlStreamExecution) : Prop :=
  c.Tracked e → ∀ requestId, e.requestId = some requestId →
    (c.activeByRequestId.lookup (trim requestId) = some e → trim requestId = requestId) ∧
      ∀ other, c.activeByRequestId.lookup requestId = some other → other = e

/-- What a map finds is tracked, and what is tracked is found by its execution id. -/
structure Indexed (c : SqlStreamingCoordinator) : Prop where
  stream : ∀ k e, c.activeByStreamId.lookup k = some e → e.streamId = k
  execution : ∀ k e, c.activeByExecutionId.lookup k = some e → e.executionId = k ∧ c.Tracked e
  tracked : ∀ e, c.Tracked e → c.activeByExecutionId.lookup e.executionId = some e
  request : ∀ k e, c.activeByRequestId.lookup k = some e →
    normalized e.requestId = some k ∧ c.Tracked e

/-! ## The ids -/

theorem normalized_eq_some {id : Option Text} {k : Text} (h : normalized id = some k) :
    ∃ raw, id = some raw ∧ trim raw = k := by
  cases id with
  | none => cases h
  | some raw =>
    rw [normalized] at h
    split at h
    · cases h
    · exact ⟨raw, rfl, Option.some.inj h⟩

theorem normalized_of_trimmed {id : Text} (htrim : trim id = id) (hne : id ≠ []) :
    normalized (some id) = some id := by
  rw [normalized]
  simp only [htrim]
  exact if_neg (by simpa using hne)

theorem find_cases {executionId requestId : Option Text}
    (h : c.find executionId requestId = some e) :
    (∃ k, c.activeByExecutionId.lookup k = some e) ∨
      ∃ k, c.activeByRequestId.lookup k = some e := by
  rw [find] at h
  split at h
  · rename_i execution hexecution
    rw [Option.bind_eq_some_iff] at hexecution
    obtain ⟨k, -, hk⟩ := hexecution
    exact Or.inl ⟨k, hk.trans h⟩
  · rw [Option.bind_eq_some_iff] at h
    obtain ⟨k, -, hk⟩ := h
    exact Or.inr ⟨k, hk⟩

theorem find_of_execution {executionId requestId : Option Text} {k : Text}
    (hk : normalized executionId = some k) (h : c.activeByExecutionId.lookup k = some e) :
    c.find executionId requestId = some e := by
  simp [find, hk, h]

theorem find_request {requestId : Option Text} :
    c.find none requestId = (normalized requestId).bind fun id => c.activeByRequestId.lookup id :=
  rfl

/-! ## What the operations do -/

theorem mem_activeExecutions :
    e ∈ c.activeExecutions ↔ ∃ k, c.activeByStreamId.lookup k = some e := by
  simp only [activeExecutions, List.mem_map, ← Option.mem_def, AList.mem_lookup_iff]
  constructor
  · intro h
    obtain ⟨entry, hentry, he⟩ := h
    refine ⟨entry.1, ?_⟩
    rw [← he]
    exact hentry
  · intro h
    obtain ⟨k, hk⟩ := h
    exact ⟨_, hk, rfl⟩

theorem markStarted_ok {object : Nat} {streamId executionId : Text}
    {requestId clientToken : Option Text}
    (h : c.markStarted env object streamId executionId requestId clientToken = .ok (e, c')) :
    e = ⟨object, streamId, executionId, requestId, ownerCredentialHash env clientToken⟩ ∧
      c.activeByStreamId.lookup e.streamId = none ∧
      c.activeByExecutionId.lookup e.executionId = none ∧
      c' = { c with
        activeByStreamId := c.activeByStreamId.insert e.streamId e
        activeByExecutionId := c.activeByExecutionId.insert e.executionId e
        activeByRequestId := c.registerRequest e } := by
  rw [markStarted] at h
  split at h
  · cases h
  · rename_i hstream
    split at h
    · cases h
    · rename_i hexecution
      cases h
      refine ⟨rfl, ?_, ?_, rfl⟩
      · simpa using hstream
      · simpa using hexecution

theorem registerRequest_cases {k : Text} (h : (c.registerRequest e).lookup k = some other) :
    c.activeByRequestId.lookup k = some other ∨ normalized e.requestId = some k ∧ other = e := by
  rw [registerRequest] at h
  split at h
  · rename_i requestId hrequest
    rw [TextMap.putIfAbsent] at h
    split at h
    · exact Or.inl h
    · by_cases hk : k = requestId
      · rw [hk, AList.lookup_insert] at h
        rw [hk]
        exact Or.inr ⟨hrequest, (Option.some.inj h).symm⟩
      · rw [AList.lookup_insert_ne hk] at h
        exact Or.inl h
  · exact Or.inl h

theorem registerRequest_kept {k : Text} (h : c.activeByRequestId.lookup k = some other) :
    (c.registerRequest e).lookup k = some other := by
  rw [registerRequest]
  split
  · rename_i requestId hrequest
    rw [TextMap.putIfAbsent]
    split
    · exact h
    · rename_i hfree
      by_cases hk : k = requestId
      · rw [hk, hfree] at h
        cases h
      · rw [AList.lookup_insert_ne hk]
        exact h
  · exact h

theorem markFinished_of_not (h : ¬ c.Tracked e) : c.markFinished e = c :=
  if_neg h

theorem markFinished_of (h : c.Tracked e) :
    c.markFinished e = { c with
      activeByStreamId := c.activeByStreamId.erase e.streamId
      activeByExecutionId := c.activeByExecutionId.erase e.executionId
      activeByRequestId :=
        match e.requestId with
        | some requestId => c.activeByRequestId.erase requestId
        | none => c.activeByRequestId } :=
  if_pos h

theorem lookup_erase_some {m : TextMap ActiveSqlStreamExecution} {k key : Text}
    (h : (m.erase key).lookup k = some e) : k ≠ key ∧ m.lookup k = some e := by
  by_cases hk : k = key
  · rw [hk, AList.lookup_erase] at h
    cases h
  · rw [AList.lookup_erase_ne hk] at h
    exact ⟨hk, h⟩

theorem tracked_markFinished : (c.markFinished e).Tracked other ↔ c.Tracked other ∧ other ≠ e := by
  by_cases h : c.Tracked e
  · rw [markFinished_of h]
    constructor
    · intro hother
      obtain ⟨hk, hlookup⟩ := lookup_erase_some hother
      refine ⟨hlookup, ?_⟩
      intro heq
      exact hk (congrArg _ heq)
    · intro hother
      have hk : other.streamId ≠ e.streamId := by
        intro hk
        have hlookup := hother.1
        rw [Tracked, hk] at hlookup
        exact hother.2 (Option.some.inj (hlookup.symm.trans h))
      show (c.activeByStreamId.erase e.streamId).lookup other.streamId = some other
      rw [AList.lookup_erase_ne hk]
      exact hother.1
  · rw [markFinished_of_not h]
    constructor
    · intro hother
      refine ⟨hother, ?_⟩
      intro heq
      rw [heq] at hother
      exact h hother
    · intro hother
      exact hother.1

/-! ## The invariant of the maps -/

theorem Indexed.empty : Indexed {} := by
  constructor
  · intro k e h
    rw [AList.lookup_empty] at h
    cases h
  · intro k e h
    rw [AList.lookup_empty] at h
    cases h
  · intro e h
    rw [Tracked, AList.lookup_empty] at h
    cases h
  · intro k e h
    rw [AList.lookup_empty] at h
    cases h

theorem Indexed.clearActive (c : SqlStreamingCoordinator) : Indexed c.clearActive :=
  ⟨Indexed.empty.stream, Indexed.empty.execution, Indexed.empty.tracked, Indexed.empty.request⟩

theorem not_tracked_clearActive : ¬ c.clearActive.Tracked e := by
  intro h
  rw [Tracked, clearActive, AList.lookup_empty] at h
  cases h

theorem find_markStarted {object : Nat} {streamId executionId : Text}
    {requestId clientToken id : Option Text}
    (h : c.markStarted env object streamId executionId requestId clientToken = .ok (e, c'))
    (hfind : c.find none id = some other) : c'.find none id = some other := by
  obtain ⟨-, -, -, hc⟩ := markStarted_ok h
  rw [find_request, Option.bind_eq_some_iff] at hfind ⊢
  obtain ⟨k, hk, hlookup⟩ := hfind
  refine ⟨k, hk, ?_⟩
  rw [hc]
  exact registerRequest_kept hlookup

theorem tracked_markStarted {object : Nat} {streamId executionId : Text}
    {requestId clientToken : Option Text}
    (h : c.markStarted env object streamId executionId requestId clientToken = .ok (e, c')) :
    c'.Tracked other ↔ c.Tracked other ∨ other = e := by
  obtain ⟨-, hstream, -, hc⟩ := markStarted_ok h
  rw [hc]
  show (c.activeByStreamId.insert e.streamId e).lookup other.streamId = some other ↔ _
  by_cases hk : other.streamId = e.streamId
  · rw [hk, AList.lookup_insert, Tracked, hk, hstream]
    simp [eq_comm]
  · rw [AList.lookup_insert_ne hk]
    constructor
    · exact Or.inl
    · intro hother
      rcases hother with hother | heq
      · exact hother
      · exact absurd (congrArg _ heq) hk

theorem Indexed.markStarted (hc : c.Indexed) {object : Nat} {streamId executionId : Text}
    {requestId clientToken : Option Text}
    (h : c.markStarted env object streamId executionId requestId clientToken = .ok (e, c')) :
    c'.Indexed := by
  have htracked (other : ActiveSqlStreamExecution) :
      c'.Tracked other ↔ c.Tracked other ∨ other = e :=
    tracked_markStarted h
  obtain ⟨-, -, hexecution, hc'⟩ := markStarted_ok h
  constructor
  · intro k other hlookup
    rw [hc'] at hlookup
    replace hlookup : (c.activeByStreamId.insert e.streamId e).lookup k = some other := hlookup
    by_cases hk : k = e.streamId
    · rw [hk, AList.lookup_insert] at hlookup
      rw [hk, Option.some.inj hlookup]
    · rw [AList.lookup_insert_ne hk] at hlookup
      exact hc.stream k other hlookup
  · intro k other hlookup
    rw [hc'] at hlookup
    replace hlookup : (c.activeByExecutionId.insert e.executionId e).lookup k = some other :=
      hlookup
    by_cases hk : k = e.executionId
    · rw [hk, AList.lookup_insert] at hlookup
      rw [← Option.some.inj hlookup, hk]
      exact ⟨rfl, (htracked e).mpr (Or.inr rfl)⟩
    · rw [AList.lookup_insert_ne hk] at hlookup
      obtain ⟨hid, hother⟩ := hc.execution k other hlookup
      exact ⟨hid, (htracked other).mpr (Or.inl hother)⟩
  · intro other hother
    have hlookup : (c.activeByExecutionId.insert e.executionId e).lookup other.executionId =
        some other := by
      rcases (htracked other).mp hother with hother | heq
      · have hlookup := hc.tracked other hother
        have hk : other.executionId ≠ e.executionId := by
          intro hk
          rw [hk, hexecution] at hlookup
          cases hlookup
        rw [AList.lookup_insert_ne hk]
        exact hlookup
      · rw [heq, AList.lookup_insert]
    rw [hc']
    exact hlookup
  · intro k other hlookup
    rw [hc'] at hlookup
    rcases registerRequest_cases hlookup with hlookup | hnew
    · obtain ⟨hid, hother⟩ := hc.request k other hlookup
      exact ⟨hid, (htracked other).mpr (Or.inl hother)⟩
    · rw [hnew.2]
      exact ⟨hnew.1, (htracked e).mpr (Or.inr rfl)⟩

theorem markFinished_request {k : Text} (hc : c.Indexed) (hhonoured : c.FinishHonoured e) :
    (c.markFinished e).activeByRequestId.lookup k = some other ↔
      c.activeByRequestId.lookup k = some other ∧ other ≠ e := by
  by_cases h : c.Tracked e
  · rw [markFinished_of h]
    dsimp only
    cases hrequest : e.requestId with
    | none =>
      dsimp only
      constructor
      · intro hlookup
        refine ⟨hlookup, ?_⟩
        intro heq
        obtain ⟨raw, hraw, -⟩ := normalized_eq_some (hc.request k other hlookup).1
        rw [heq, hrequest] at hraw
        cases hraw
      · intro hlookup
        exact hlookup.1
    | some requestId =>
      dsimp only
      obtain ⟨hown, hothers⟩ := hhonoured h requestId hrequest
      constructor
      · intro hlookup
        obtain ⟨hk, hlookup⟩ := lookup_erase_some hlookup
        refine ⟨hlookup, ?_⟩
        intro heq
        obtain ⟨raw, hraw, htrim⟩ := normalized_eq_some (hc.request k other hlookup).1
        rw [heq, hrequest] at hraw
        rw [← Option.some.inj hraw] at htrim
        rw [heq, ← htrim] at hlookup
        exact hk (htrim.symm.trans (hown hlookup))
      · intro hlookup
        have hk : k ≠ requestId := by
          intro hk
          rw [hk] at hlookup
          exact hlookup.2 (hothers other hlookup.1)
        rw [AList.lookup_erase_ne hk]
        exact hlookup.1
  · rw [markFinished_of_not h]
    constructor
    · intro hlookup
      refine ⟨hlookup, ?_⟩
      intro heq
      rw [heq] at hlookup
      exact h (hc.request k e hlookup).2
    · intro hlookup
      exact hlookup.1

theorem Indexed.markFinished (hc : c.Indexed) (hhonoured : c.FinishHonoured e) :
    (c.markFinished e).Indexed := by
  by_cases h : c.Tracked e
  · have hself := markFinished_of h
    constructor
    · intro k other hlookup
      rw [hself] at hlookup
      exact hc.stream k other (lookup_erase_some hlookup).2
    · intro k other hlookup
      rw [hself] at hlookup
      obtain ⟨hk, hlookup⟩ := lookup_erase_some hlookup
      obtain ⟨hid, hother⟩ := hc.execution k other hlookup
      refine ⟨hid, tracked_markFinished.mpr ⟨hother, ?_⟩⟩
      intro heq
      rw [heq] at hid
      exact hk hid.symm
    · intro other hother
      obtain ⟨hother, hne⟩ := tracked_markFinished.mp hother
      have hlookup := hc.tracked other hother
      have hk : other.executionId ≠ e.executionId := by
        intro hk
        rw [hk, hc.tracked e h] at hlookup
        exact hne (Option.some.inj hlookup).symm
      rw [hself]
      show (c.activeByExecutionId.erase e.executionId).lookup other.executionId = some other
      rw [AList.lookup_erase_ne hk]
      exact hlookup
    · intro k other hlookup
      obtain ⟨hlookup, hne⟩ := (markFinished_request hc hhonoured).mp hlookup
      obtain ⟨hid, hother⟩ := hc.request k other hlookup
      exact ⟨hid, tracked_markFinished.mpr ⟨hother, hne⟩⟩
  · rw [markFinished_of_not h]
    exact hc

end SqlStreamingCoordinator

/-! ## The invariant of the runs -/

namespace StreamRun

variable {env : AuthorizeEnv} {s s' : StreamRun} {e : ActiveSqlStreamExecution}

/-- What a step has to respect: an execution starts under an id that `find` reads, a finish removes
the entry of its own request id, and a disconnect drops only executions that it cancelled. -/
def Honoured (s : StreamRun) : StreamAction → Prop
  | .markStarted _ executionId _ _ => trim executionId = executionId ∧ executionId ≠ []
  | .markFinished i => ∀ e, s.started[i]? = some e → s.coordinator.FinishHonoured e
  | .cancel i awaited =>
    awaited = false → ∀ e, s.started[i]? = some e → s.coordinator.FinishHonoured e
  | .cancelReturned i success =>
    success = true → ∀ e, s.cancels[i]? = some e → s.coordinator.FinishHonoured e
  | .disconnect _ => True
  | .disconnectReturned success =>
    success = true → ∀ e, s.coordinator.Tracked e → e ∈ s.cancelled

/-- The maps agree; what is tracked was started and is not finished; what was started, and neither
finished nor cancelled, is tracked; and a registrant that is tracked is found by its request. -/
structure StreamInv (s : StreamRun) : Prop where
  indexed : s.coordinator.Indexed
  object : ∀ e ∈ s.started, e.object < s.started.length
  readable : ∀ e ∈ s.started, SqlStreamingCoordinator.normalized (some e.executionId) =
    some e.executionId
  known : ∀ e, e ∈ s.finished ∨ e ∈ s.cancels ∨ e ∈ s.registrants → e ∈ s.started
  tracked : ∀ e, s.coordinator.Tracked e → e ∈ s.started ∧ e ∉ s.finished
  live : ∀ e ∈ s.started, e ∉ s.finished → e ∉ s.cancelled → s.coordinator.Tracked e
  registrant : ∀ e ∈ s.registrants, s.coordinator.Tracked e →
    s.coordinator.find none e.requestId = some e

/-- What the coordinator promises its callers. -/
structure Agrees (s : StreamRun) : Prop where
  found : ∀ executionId requestId e, s.coordinator.find executionId requestId = some e →
    s.coordinator.Tracked e ∧ e ∉ s.finished
  live : ∀ e ∈ s.started, e ∉ s.finished → e ∉ s.cancelled →
    ∀ requestId, s.coordinator.find (some e.executionId) requestId = some e
  registrant : ∀ e ∈ s.registrants, s.coordinator.Tracked e →
    s.coordinator.find none e.requestId = some e

theorem StreamInv.agrees (h : StreamInv s) : Agrees s := by
  refine ⟨?_, ?_, h.registrant⟩
  · intro executionId requestId e hfind
    have htracked : s.coordinator.Tracked e := by
      rcases SqlStreamingCoordinator.find_cases hfind with ⟨k, hk⟩ | ⟨k, hk⟩
      · exact (h.indexed.execution k e hk).2
      · exact (h.indexed.request k e hk).2
    exact ⟨htracked, (h.tracked e htracked).2⟩
  · intro e he hfinished hcancelled requestId
    exact SqlStreamingCoordinator.find_of_execution (h.readable e he)
      (h.indexed.tracked e (h.live e he hfinished hcancelled))

theorem StreamInv.empty : StreamInv {} := by
  refine ⟨.empty, ?_, ?_, ?_, ?_, ?_, ?_⟩
  · intro e he
    cases he
  · intro e he
    cases he
  · intro e he
    rcases he with he | he | he <;> cases he
  · intro e he
    rw [SqlStreamingCoordinator.Tracked, AList.lookup_empty] at he
    cases he
  · intro e he
    cases he
  · intro e he
    cases he

theorem StreamInv.begin (h : StreamInv s) {streamId executionId : Text}
    {requestId clientToken : Option Text} {coordinator : SqlStreamingCoordinator}
    (hread : trim executionId = executionId ∧ executionId ≠ [])
    (hstart : s.coordinator.markStarted env s.started.length streamId executionId requestId
      clientToken = .ok (e, coordinator)) : StreamInv (s.begin e coordinator) := by
  obtain ⟨he, -, -, -⟩ := SqlStreamingCoordinator.markStarted_ok hstart
  have hnew : e ∉ s.started := by
    intro hmem
    have hobject := h.object e hmem
    rw [he] at hobject
    exact Nat.lt_irrefl _ hobject
  have hmem : ∀ other, other ∈ s.started ++ [e] ↔ other ∈ s.started ∨ other = e := by simp
  have htracked (other : ActiveSqlStreamExecution) :
      coordinator.Tracked other ↔ s.coordinator.Tracked other ∨ other = e :=
    SqlStreamingCoordinator.tracked_markStarted hstart
  refine ⟨h.indexed.markStarted hstart, ?_, ?_, ?_, ?_, ?_, ?_⟩
  · intro other hother
    rw [StreamRun.begin, List.length_append, List.length_singleton]
    rcases (hmem other).mp hother with hother | heq
    · exact Nat.lt_succ_of_lt (h.object other hother)
    · rw [heq, he]
      exact Nat.lt_succ_self _
  · intro other hother
    rcases (hmem other).mp hother with hother | heq
    · exact h.readable other hother
    · rw [heq, he]
      exact SqlStreamingCoordinator.normalized_of_trimmed hread.1 hread.2
  · intro other hother
    apply (hmem other).mpr
    rcases hother with hother | hother | hother
    · exact Or.inl (h.known other (Or.inl hother))
    · exact Or.inl (h.known other (Or.inr (Or.inl hother)))
    · rw [StreamRun.begin] at hother
      dsimp only at hother
      split at hother
      · rcases List.mem_cons.mp hother with heq | hother
        · exact Or.inr heq
        · exact Or.inl (h.known other (Or.inr (Or.inr hother)))
      · exact Or.inl (h.known other (Or.inr (Or.inr hother)))
  · intro other hother
    rcases (htracked other).mp hother with hother | heq
    · obtain ⟨hstarted, hfinished⟩ := h.tracked other hother
      exact ⟨(hmem other).mpr (Or.inl hstarted), hfinished⟩
    · refine ⟨(hmem other).mpr (Or.inr heq), ?_⟩
      intro hfinished
      rw [heq] at hfinished
      exact hnew (h.known e (Or.inl hfinished))
  · intro other hother hfinished hcancelled
    apply (htracked other).mpr
    rcases (hmem other).mp hother with hother | heq
    · exact Or.inl (h.live other hother hfinished hcancelled)
    · exact Or.inr heq
  · have hbefore : ∀ other ∈ s.registrants, coordinator.Tracked other →
        coordinator.find none other.requestId = some other := by
      intro other hother hlive
      rcases (htracked other).mp hlive with hlive | heq
      · exact SqlStreamingCoordinator.find_markStarted hstart (h.registrant other hother hlive)
      · rw [heq] at hother
        exact absurd (h.known e (Or.inr (Or.inr hother))) hnew
    intro other hother hlive
    rw [StreamRun.begin] at hother
    dsimp only at hother
    split at hother
    · rename_i hresolves
      rcases List.mem_cons.mp hother with heq | hother
      · rw [heq]
        exact hresolves
      · exact hbefore other hother hlive
    · exact hbefore other hother hlive

theorem StreamInv.finish (h : StreamInv s) (he : e ∈ s.started)
    (hhonoured : s.coordinator.FinishHonoured e) : StreamInv (s.finish e) := by
  have htracked (other : ActiveSqlStreamExecution) :
      (s.coordinator.markFinished e).Tracked other ↔ s.coordinator.Tracked other ∧ other ≠ e :=
    SqlStreamingCoordinator.tracked_markFinished
  refine ⟨h.indexed.markFinished hhonoured, h.object, h.readable, ?_, ?_, ?_, ?_⟩
  · intro other hother
    rcases hother with hother | hother
    · rcases List.mem_cons.mp hother with heq | hother
      · rw [heq]
        exact he
      · exact h.known other (Or.inl hother)
    · exact h.known other (Or.inr hother)
  · intro other hother
    obtain ⟨hother, hne⟩ := (htracked other).mp hother
    obtain ⟨hstarted, hfinished⟩ := h.tracked other hother
    refine ⟨hstarted, ?_⟩
    intro hmem
    rcases List.mem_cons.mp hmem with heq | hmem
    · exact hne heq
    · exact hfinished hmem
  · intro other hother hfinished hcancelled
    have hfinished : other ≠ e ∧ other ∉ s.finished := by
      refine ⟨?_, ?_⟩
      · intro heq
        exact hfinished (List.mem_cons.mpr (Or.inl heq))
      · intro hmem
        exact hfinished (List.mem_cons.mpr (Or.inr hmem))
    exact (htracked other).mpr ⟨h.live other hother hfinished.2 hcancelled, hfinished.1⟩
  · intro other hother hlive
    obtain ⟨hlive, hne⟩ := (htracked other).mp hlive
    have hfind := h.registrant other hother hlive
    rw [SqlStreamingCoordinator.find_request, Option.bind_eq_some_iff] at hfind ⊢
    obtain ⟨k, hk, hlookup⟩ := hfind
    exact ⟨k, hk, (SqlStreamingCoordinator.markFinished_request h.indexed hhonoured).mpr
      ⟨hlookup, hne⟩⟩

theorem StreamInv.clear (h : StreamInv s)
    (hcancelled : ∀ e, s.coordinator.Tracked e → e ∈ s.cancelled) : StreamInv s.clear := by
  refine ⟨.clearActive _, h.object, h.readable, h.known, ?_, ?_, ?_⟩
  · intro e he
    exact absurd he SqlStreamingCoordinator.not_tracked_clearActive
  · intro e he hfinished hlive
    exact absurd (hcancelled e (h.live e he hfinished hlive)) hlive
  · intro e _ he
    exact absurd he SqlStreamingCoordinator.not_tracked_clearActive

theorem StreamInv.wait (h : StreamInv s) {cancelled cancels : List ActiveSqlStreamExecution}
    {disconnects : Nat} (hcancelled : ∀ e ∈ s.cancelled, e ∈ cancelled)
    (hcancels : ∀ e ∈ cancels, e ∈ s.started) :
    StreamInv { s with
      cancelled := cancelled, cancels := cancels, disconnects := disconnects } := by
  refine ⟨h.indexed, h.object, h.readable, ?_, h.tracked, ?_, h.registrant⟩
  · intro e he
    rcases he with he | he | he
    · exact h.known e (Or.inl he)
    · exact hcancels e he
    · exact h.known e (Or.inr (Or.inr he))
  · intro e he hfinished hlive
    exact h.live e he hfinished fun hmem => hlive (hcancelled e hmem)

theorem StreamInv.disconnect (h : StreamInv s) (awaited : Bool) :
    StreamInv (s.disconnect awaited) := by
  rw [StreamRun.disconnect]
  split
  · exact h
  · have hcancelled : ∀ e ∈ s.cancelled, e ∈ s.coordinator.activeExecutions ++ s.cancelled :=
      fun e he => List.mem_append_right _ he
    have hcancels : ∀ e ∈ s.cancels, e ∈ s.started := fun e he => h.known e (Or.inr (Or.inl he))
    dsimp only
    split
    · exact h.wait hcancelled hcancels
    · apply StreamInv.clear (h.wait hcancelled hcancels)
      intro e he
      apply List.mem_append_left
      exact SqlStreamingCoordinator.mem_activeExecutions.mpr ⟨_, he⟩

theorem StreamInv.step (h : StreamInv s) {a : StreamAction} (hhonoured : s.Honoured a)
    (hstep : s.step env a = some s') : StreamInv s' := by
  have hcancels : ∀ e ∈ s.cancels, e ∈ s.started := fun e he => h.known e (Or.inr (Or.inl he))
  cases a with
  | markStarted streamId executionId requestId clientToken =>
    simp only [StreamRun.step] at hstep
    split at hstep
    · rw [← Option.some.inj hstep]
      exact h
    · rename_i e coordinator hstart
      rw [← Option.some.inj hstep]
      exact h.begin hhonoured hstart
  | markFinished i =>
    simp only [StreamRun.step, Option.map_eq_some_iff] at hstep
    obtain ⟨e, he, hs⟩ := hstep
    rw [← hs]
    exact h.finish (List.mem_of_getElem? he) (hhonoured e he)
  | cancel i awaited =>
    simp only [StreamRun.step, Option.map_eq_some_iff] at hstep
    obtain ⟨e, he, hs⟩ := hstep
    have hmem := List.mem_of_getElem? he
    have hcancelled : ∀ other ∈ s.cancelled, other ∈ e :: s.cancelled :=
      fun other hother => List.mem_cons_of_mem e hother
    rw [← hs, StreamRun.cancel]
    dsimp only
    split
    · apply h.wait hcancelled
      intro other hother
      rcases List.mem_append.mp hother with hother | hother
      · exact hcancels other hother
      · rw [List.mem_singleton.mp hother]
        exact hmem
    · rename_i hawaited
      exact StreamInv.finish (h.wait hcancelled hcancels) hmem
        (hhonoured (Bool.eq_false_of_not_eq_true hawaited) e he)
  | cancelReturned i success =>
    simp only [StreamRun.step, Option.map_eq_some_iff] at hstep
    obtain ⟨e, he, hs⟩ := hstep
    have hwait : StreamInv { s with cancels := s.cancels.eraseIdx i } :=
      h.wait (fun _ hother => hother)
        fun other hother => hcancels other ((List.eraseIdx_sublist _ _).mem hother)
    rw [← hs]
    split
    · rename_i hsuccess
      exact StreamInv.finish hwait (hcancels e (List.mem_of_getElem? he)) (hhonoured hsuccess e he)
    · exact hwait
  | disconnect awaited =>
    rw [← Option.some.inj hstep]
    exact h.disconnect awaited
  | disconnectReturned success =>
    simp only [StreamRun.step] at hstep
    split at hstep
    · cases hstep
    · have hwait : StreamInv { s with disconnects := s.disconnects - 1 } :=
        h.wait (fun _ hother => hother) hcancels
      rw [← Option.some.inj hstep]
      split
      · rename_i hsuccess
        exact StreamInv.clear hwait (hhonoured hsuccess)
      · exact hwait

end StreamRun

/-- In every state that is reached by steps that are honoured, every execution that is found is
tracked by its stream id and not finished, every execution that was started, and neither finished
nor cancelled, is found by its execution id, and a request id resolves to its first registrant
while that is tracked. -/
theorem indexes_agree {env : AuthorizeEnv} {s : StreamRun}
    (h : (streamMachine env).Reach StreamRun.Honoured s) : s.Agrees := by
  have hinv : s.StreamInv := by
    refine Machine.Reach.invariant (I := StreamRun.StreamInv) ?_ ?_ h
    · intro s hstart
      rw [hstart]
      exact .empty
    · intro s a s' hs hhonoured hstep
      exact hs.step hhonoured hstep
  exact hinv.agrees

/-- The case mapping and the hash of the runs below. -/
def plainEnv : AuthorizeEnv := ⟨asciiCase, id, 30000000⟩

/-- The state after some actions, the start if one of them was not enabled. -/
def afterStreams (actions : List StreamAction) : StreamRun :=
  ((streamMachine plainEnv).run {} actions).getD {}

theorem reachable_afterStreams {actions : List StreamAction}
    (h : ((streamMachine plainEnv).run {} actions).isSome) :
    (streamMachine plainEnv).Reachable (afterStreams actions) := by
  obtain ⟨s, hs⟩ := Option.isSome_iff_exists.mp h
  rw [afterStreams, hs]
  exact Machine.reachable_of_run rfl hs

/-- A request id with blanks is finished. -/
def paddedRun : List StreamAction :=
  [.markStarted "a".toList "1".toList (some " r ".toList) none, .markFinished 0]

/-- Two streams share a request id, and the second one is finished. -/
def sharedRun : List StreamAction :=
  [.markStarted "a".toList "1".toList (some "r".toList) none,
    .markStarted "b".toList "2".toList (some "r".toList) none, .markFinished 1]

/-- A stream is started while a disconnect waits for the gateway. -/
def droppedRun : List StreamAction :=
  [.markStarted "a".toList "1".toList (some "r".toList) none, .disconnect true,
    .markStarted "b".toList "2".toList (some "q".toList) none, .disconnectReturned true]

/-- A finished execution is found by its request id; an execution that is neither finished nor
cancelled is not found by its execution id; and a request id does not resolve to the registrant
that is tracked. -/
theorem indexes_disagree :
    (¬ ∀ s, (streamMachine plainEnv).Reachable s → ∀ executionId requestId e,
      s.coordinator.find executionId requestId = some e →
        s.coordinator.Tracked e ∧ e ∉ s.finished) ∧
    (¬ ∀ s, (streamMachine plainEnv).Reachable s → ∀ e ∈ s.started, e ∉ s.finished →
      e ∉ s.cancelled → ∀ requestId,
        s.coordinator.find (some e.executionId) requestId = some e) ∧
    ¬ ∀ s, (streamMachine plainEnv).Reachable s → ∀ e ∈ s.registrants,
      s.coordinator.Tracked e → s.coordinator.find none e.requestId = some e := by
  refine ⟨?_, ?_, ?_⟩
  · intro h
    have hreachable : (streamMachine plainEnv).Reachable (afterStreams paddedRun) :=
      reachable_afterStreams rfl
    have hfound := (h _ hreachable none (some "r".toList)
      ⟨0, "a".toList, "1".toList, some " r ".toList, none⟩ rfl).2
    exact hfound (List.mem_singleton.mpr rfl)
  · intro h
    have hreachable : (streamMachine plainEnv).Reachable (afterStreams droppedRun) :=
      reachable_afterStreams rfl
    have hfound := h _ hreachable ⟨1, "b".toList, "2".toList, some "q".toList, none⟩
      (by decide) (by decide) (by decide) none
    cases hfound
  · intro h
    have hreachable : (streamMachine plainEnv).Reachable (afterStreams sharedRun) :=
      reachable_afterStreams rfl
    have hfound := h _ hreachable ⟨0, "a".toList, "1".toList, some "r".toList, none⟩
      (by decide) rfl
    cases hfound

/-- Two streams of their own requests, and the first one is cancelled. -/
def cancelledRun : List StreamAction :=
  [.markStarted "a".toList "1".toList (some "r".toList) none,
    .markStarted "b".toList "2".toList (some "q".toList) none, .cancel 0 true,
    .cancelReturned 0 true]

/-- The second stream is found after the cancel of the first one. -/
theorem indexes_agree_cancelled :
    (afterStreams cancelledRun).Agrees ∧
      (afterStreams cancelledRun).coordinator.activeExecutions.length = 1 := by
  have hreach : (streamMachine plainEnv).Reach StreamRun.Honoured (afterStreams cancelledRun) := by
    refine Machine.Reach.of_run (.start rfl) cancelledRun ?_ rfl
    refine ⟨⟨rfl, by decide⟩, ⟨rfl, by decide⟩, ?_, ?_, trivial⟩
    · intro hawaited
      cases hawaited
    · intro _ e he _ requestId hrequest
      cases he
      cases hrequest
      refine ⟨fun _ => rfl, ?_⟩
      intro other hother
      cases hother
      rfl
  exact ⟨indexes_agree hreach, rfl⟩

end PlugAgente.Cancellation
