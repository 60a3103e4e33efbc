import PlugAgente.Cancellation.AbortRelease
import PlugAgente.Cancellation.SqlCancel
import PlugAgente.Cancellation.StreamIndexes

/-!
# Only the owner cancels

`Blamed` are the causes of the aborts of a request that are armed or in progress, and `Attributed`
says that they suit the credentials of the executions they reach.  An abort of `sql.cancel` suits
the executions of its request as long as an id is used by one credential at a time: that is
`SameCredential`.
-/

namespace PlugAgente.Cancellation

open Dart Authorization Wire Rows

namespace InFlightAborts

variable {κ : Type} {ttl : Nat} {s s' : InFlightAborts κ} {r k : Text} {causes : List κ}
  {cause : κ} {ok : κ → κ → Prop}

/-! ## The causes of the aborts -/

/-- A cause of an abort of the request, armed or in progress. -/
def Blamed (s : InFlightAborts κ) (r : Text) (cause : κ) : Prop :=
  cause ∈ s.causes r ∨ ∃ call ∈ s.calls, call.requestId = r ∧ cause ∈ call.causes

/-- The causes suit the credentials of the executions that they reach, or have reached. -/
structure Attributed (ok : κ → κ → Prop) (s : InFlightAborts κ) : Prop where
  active : ∀ row ∈ s.active, ∀ cause, s.Blamed row.requestId cause → ok cause row.credential
  calls : ∀ call ∈ s.calls, ∀ row ∈ call.rest, ∀ cause ∈ call.causes, ok cause row.credential
  cancelled : ∀ entry ∈ s.cancelled, ∀ cause ∈ entry.2, ok cause entry.1.credential

theorem notify_causes : (s.notifyPendingAbort r).causes = s.causes := by rw [notify_eq]

theorem mem_update {f : Text → List κ} {l : List κ} (h : cause ∈ Function.update f r l k) :
    k = r ∧ cause ∈ l ∨ cause ∈ f k := by
  by_cases hk : k = r
  · rw [hk, Function.update_self] at h
    exact Or.inl ⟨hk, h⟩
  · rw [Function.update_of_ne hk] at h
    exact Or.inr h

theorem mem_blame (h : cause ∈ (s.blame r causes).causes k) :
    cause ∈ s.causes k ∨ k = r ∧ cause ∈ causes := by
  rcases mem_update h with ⟨hk, h⟩ | h
  · rcases List.mem_append.mp h with h | h
    · exact Or.inl (hk.symm ▸ h)
    · exact Or.inr ⟨hk, h⟩
  · exact Or.inl h

theorem mem_forget (h : cause ∈ (s.forget r).causes k) : cause ∈ s.causes k := by
  rw [forget] at h
  split at h
  · exact h
  · rcases mem_update h with ⟨-, h⟩ | h
    · cases h
    · exact h

theorem mem_markOwnerAbort (h : cause ∈ (s.markOwnerAbort r causes).causes k) :
    cause ∈ s.causes k ∨ k = r ∧ cause ∈ causes := by
  rw [markOwnerAbort] at h
  split at h
  · exact Or.inl h
  · dsimp only at h
    split at h
    · exact mem_blame h
    · rw [notify_causes] at h
      exact mem_blame h

theorem mem_markPendingAbort (h : cause ∈ (s.markPendingAbort ttl r causes).causes k) :
    cause ∈ s.causes k ∨ k = r ∧ cause ∈ causes := by
  rw [markPendingAbort] at h
  split at h
  · exact Or.inl h
  · dsimp only at h
    split at h
    · rw [notify_causes] at h
      exact mem_blame h
    · exact mem_blame h

theorem mem_clearPendingAbort (h : cause ∈ (s.clearPendingAbort r).causes k) :
    cause ∈ s.causes k := by
  rw [clearPendingAbort] at h
  split at h
  · exact h
  · have hkept := mem_forget h
    exact hkept

theorem mem_finishAbort {hasPendingTarget : Bool}
    (h : cause ∈ (s.finishAbort ttl r hasPendingTarget causes).causes k) :
    cause ∈ s.causes k ∨ k = r ∧ cause ∈ causes := by
  rw [finishAbort] at h
  split at h
  · rcases mem_markPendingAbort h with h | h
    · exact mem_markOwnerAbort h
    · exact Or.inr h
  · exact mem_markOwnerAbort (mem_clearPendingAbort h)

theorem blamed_abortHandles (hr : r ≠ []) {rest : List (InFlightRow κ)} {hasPendingTarget : Bool}
    (h : (abortHandles ttl r causes rest hasPendingTarget s).Blamed k cause) :
    s.Blamed k cause ∨ k = r ∧ cause ∈ causes := by
  rcases abortHandles_cases ttl r causes rest hasPendingTarget s with
    hgoes | ⟨discarded, pending, -, hresult⟩
  · obtain ⟨before, next, after, discarded, pending, -, -, hresult⟩ := hgoes
    rw [hresult] at h
    rcases h with h | ⟨call, hcall, hof, hmem⟩
    · exact Or.inl (Or.inl h)
    · rcases List.mem_append.mp hcall with hcall | hcall
      · exact Or.inl (Or.inr ⟨call, hcall, hof, hmem⟩)
      · rw [List.mem_singleton.mp hcall] at hof hmem
        exact Or.inr ⟨hof.symm, hmem⟩
  · obtain ⟨htouch, -⟩ := finishAbort_spec ttl { s with discarded := discarded } causes hr pending
    rw [hresult] at h
    rcases h with h | ⟨call, hcall, hof, hmem⟩
    · rcases mem_finishAbort h with h | h
      · exact Or.inl (Or.inl h)
      · exact Or.inr h
    · rw [htouch.calls] at hcall
      exact Or.inl (Or.inr ⟨call, hcall, hof, hmem⟩)

theorem Attributed.abortHandles (h : Attributed ok s) (hr : r ≠ []) {rest : List (InFlightRow κ)}
    (hrest : ∀ row ∈ rest, ∀ cause ∈ causes, ok cause row.credential)
    (hactive : ∀ row ∈ s.active, row.requestId = r → ∀ cause ∈ causes, ok cause row.credential)
    (hasPendingTarget : Bool) :
    Attributed ok (abortHandles ttl r causes rest hasPendingTarget s) := by
  have hblamed : ∀ row ∈ s.active, ∀ cause,
      (InFlightAborts.abortHandles ttl r causes rest hasPendingTarget s).Blamed row.requestId
        cause → ok cause row.credential := by
    intro row hrow cause hcause
    rcases blamed_abortHandles hr hcause with hcause | ⟨hof, hcause⟩
    · exact h.active row hrow cause hcause
    · exact hactive row hrow hof cause hcause
  rcases abortHandles_cases ttl r causes rest hasPendingTarget s with
    hgoes | ⟨discarded, pending, -, hresult⟩
  · obtain ⟨before, next, after, discarded, pending, heq, -, hresult⟩ := hgoes
    rw [hresult] at hblamed ⊢
    refine ⟨hblamed, ?_, ?_⟩
    · intro call hcall row hrow
      rcases List.mem_append.mp hcall with hcall | hcall
      · exact h.calls call hcall row hrow
      · rw [List.mem_singleton.mp hcall] at hrow ⊢
        exact hrest row (heq ▸ List.mem_append_right _ (List.mem_cons_of_mem _ hrow))
    · intro entry hentry
      rcases List.mem_append.mp hentry with hentry | hentry
      · exact h.cancelled entry hentry
      · rw [List.mem_singleton.mp hentry]
        exact hrest next (heq ▸ List.mem_append_right _ (List.mem_cons_self ..))
  · obtain ⟨htouch, -⟩ := finishAbort_spec ttl { s with discarded := discarded } causes hr pending
    rw [hresult] at hblamed ⊢
    refine ⟨?_, ?_, ?_⟩
    · rw [htouch.active]
      exact hblamed
    · rw [htouch.calls]
      exact h.calls
    · rw [htouch.cancelled]
      exact h.cancelled

theorem Attributed.drop (h : Attributed ok s) (hactive : ∀ row ∈ s'.active, row ∈ s.active)
    (hcauses : ∀ k cause, cause ∈ s'.causes k → cause ∈ s.causes k) (hcalls : s'.calls = s.calls)
    (hcancelled : s'.cancelled = s.cancelled) : Attributed ok s' := by
  refine ⟨?_, ?_, ?_⟩
  · intro row hrow cause hcause
    apply h.active row (hactive row hrow)
    rcases hcause with hcause | ⟨call, hcall, hof, hmem⟩
    · exact Or.inl (hcauses _ _ hcause)
    · rw [hcalls] at hcall
      exact Or.inr ⟨call, hcall, hof, hmem⟩
  · rw [hcalls]
    exact h.calls
  · rw [hcancelled]
    exact h.cancelled

theorem Attributed.places (h : Attributed ok s) {credentials : κ → Prop}
    (hp : Places r credentials s s')
    (hok : ∀ credential, credentials credential → ∀ cause, s.Blamed r cause → ok cause credential) :
    Attributed ok s' := by
  obtain ⟨-, active, registrations, hs, hrows, -⟩ := hp
  have hblamed : ∀ k cause, s'.Blamed k cause → s.Blamed k cause := by
    intro k cause hcause
    rw [hs, Blamed, notify_causes, notify_calls] at hcause
    exact hcause
  refine ⟨?_, ?_, ?_⟩
  · intro row hrow cause hcause
    rw [hs, notify_active] at hrow
    replace hcause := hblamed _ _ hcause
    rcases hrows row hrow with hrow | ⟨hof, hcredential⟩
    · exact h.active row hrow cause hcause
    · rw [hof] at hcause
      exact hok _ hcredential cause hcause
  · rw [hs, notify_calls]
    exact h.calls
  · rw [hs, notify_cancelled]
    exact h.cancelled

/-- What an action has to respect: an execution is registered with a credential that the causes of
its request suit, and an abort suits the executions of its request. -/
def Suits (ok : κ → κ → Prop) (s : InFlightAborts κ) : AbortAction κ → Prop
  | .register requestId _ _ credential => ∀ cause, s.Blamed requestId cause → ok cause credential
  | .abort requestId _ cause =>
    ∀ row ∈ s.active, row.requestId = requestId → ok cause row.credential
  | _ => True

theorem Attributed.step (h : Attributed ok s) (hf : s.Followed) {a : AbortAction κ}
    (hsuits : s.Suits ok a) (hstep : s.step ttl a = some s') : Attributed ok s' := by
  cases a with
  | register r handle executionId credential =>
    rw [← Option.some.inj hstep]
    rcases register_places s r handle executionId credential with heq | hplaces
    · rw [heq]
      exact h
    · apply h.places hplaces
      intro other hother
      rw [hother]
      exact hsuits
  | bindTarget r target executionId =>
    rw [← Option.some.inj hstep]
    rcases bindTarget_places s r target executionId with heq | hplaces
    · rw [heq]
      exact h
    · apply h.places hplaces
      intro credential hcredential cause hcause
      obtain ⟨row, hrow, hof, hsame⟩ := hcredential
      rw [← hsame]
      exact h.active row hrow cause (hof.symm ▸ hcause)
  | unregister r executionId =>
    rw [← Option.some.inj hstep]
    rcases unregister_cases s r executionId with heq | heq | ⟨active, heq, hactive, -, -⟩
    · rw [heq]
      exact h
    · rw [heq]
      refine h.drop (fun row hrow => (List.mem_filter.mp hrow).1) ?_ rfl rfl
      intro k cause hcause
      rcases mem_update hcause with ⟨-, hcause⟩ | hcause
      · cases hcause
      · exact hcause
    · rw [heq]
      exact h.drop hactive (fun _ _ hcause => hcause) rfl rfl
  | abort r armIfMissing cause =>
    rcases step_abort hstep with rfl | ⟨hr, ⟨hnone, rfl⟩ | ⟨-, rfl⟩⟩
    · exact h
    · obtain ⟨htouch, -⟩ := markPendingAbort_spec ttl s [cause] hr
      refine ⟨?_, ?_, ?_⟩
      · intro row hrow other hother
        rw [htouch.active] at hrow
        apply h.active row hrow
        rcases hother with hother | ⟨call, hcall, hof, hmem⟩
        · rcases mem_markPendingAbort hother with hother | ⟨hof, -⟩
          · exact Or.inl hother
          · exact absurd hof (peekAll_isEmpty.mp hnone row hrow)
        · rw [htouch.calls] at hcall
          exact Or.inr ⟨call, hcall, hof, hmem⟩
      · rw [htouch.calls]
        exact h.calls
      · rw [htouch.cancelled]
        exact h.cancelled
    · refine h.abortHandles hr ?_ ?_ false
      · intro row hrow other hother
        rw [List.mem_singleton.mp hother]
        exact hsuits row (mem_peekAll.mp hrow).1 (mem_peekAll.mp hrow).2
      · intro row hrow hof other hother
        rw [List.mem_singleton.mp hother]
        exact hsuits row hrow hof
  | nativeReturned i =>
    obtain ⟨call, hcall, rfl⟩ := step_nativeReturned hstep
    have hmem := List.mem_of_getElem? hcall
    refine Attributed.abortHandles (s := { s with calls := s.calls.eraseIdx i }) ?_
      (hf.calls call hmem).1 (h.calls call hmem) ?_ _
    · refine ⟨?_, ?_, h.cancelled⟩
      · intro row hrow cause hcause
        apply h.active row hrow
        rcases hcause with hcause | ⟨other, hother, hof, hin⟩
        · exact Or.inl hcause
        · exact Or.inr ⟨other, (List.eraseIdx_sublist _ _).mem hother, hof, hin⟩
      · intro other hother
        exact h.calls other ((List.eraseIdx_sublist _ _).mem hother)
    · intro row hrow hof cause hcause
      exact h.active row hrow cause (Or.inr ⟨call, hmem, hof.symm, hcause⟩)
  | microtask =>
    obtain ⟨r, queue, -, hends⟩ := step_microtask hstep
    have hbefore : Attributed ok { s with microtasks := queue } :=
      ⟨h.active, h.calls, h.cancelled⟩
    rcases hends with ⟨-, rfl⟩ | ⟨-, hsome, rfl⟩
    · exact hbefore
    · refine hbefore.abortHandles (hf.ne_of_peekAll hsome) ?_ ?_ false
      · intro row hrow cause hcause
        obtain ⟨hrow, hof⟩ := mem_peekAll.mp hrow
        exact h.active row hrow cause (Or.inl (hof.symm ▸ hcause))
      · intro row hrow hof cause hcause
        exact h.active row hrow cause (Or.inl (hof.symm ▸ hcause))
  | expire r =>
    obtain rfl := step_expire hstep
    apply h.drop
    · intro row hrow
      simpa [expire] using hrow
    · intro k cause hcause
      have hkept := mem_forget hcause
      exact hkept
    · simp [expire]
    · simp [expire]

theorem active_step (hf : s.Followed) {a : AbortAction κ} (hstep : s.step ttl a = some s')
    {row : InFlightRow κ} (hrow : row ∈ s'.active) :
    (∃ old ∈ s.active, old.requestId = row.requestId ∧ old.credential = row.credential) ∨
      ∃ handle executionId, a = .register row.requestId handle executionId row.credential := by
  have hkept : row ∈ s.active →
      ∃ old ∈ s.active, old.requestId = row.requestId ∧ old.credential = row.credential :=
    fun h => ⟨row, h, rfl, rfl⟩
  cases a with
  | register r handle executionId credential =>
    rw [← Option.some.inj hstep] at hrow
    rcases register_places s r handle executionId credential with
      heq | ⟨-, active, _, heq, hrows, -⟩
    · rw [heq] at hrow
      exact Or.inl (hkept hrow)
    · rw [heq, notify_active] at hrow
      rcases hrows row hrow with hrow | ⟨hof, hcredential⟩
      · exact Or.inl (hkept hrow)
      · rw [← hof, ← hcredential]
        exact Or.inr ⟨handle, executionId, rfl⟩
  | bindTarget r target executionId =>
    rw [← Option.some.inj hstep] at hrow
    rcases bindTarget_places s r target executionId with heq | ⟨-, active, _, heq, hrows, -⟩
    · rw [heq] at hrow
      exact Or.inl (hkept hrow)
    · rw [heq, notify_active] at hrow
      rcases hrows row hrow with hrow | ⟨hof, old, hold, holdOf, hcredential⟩
      · exact Or.inl (hkept hrow)
      · exact Or.inl ⟨old, hold, holdOf.trans hof.symm, hcredential⟩
  | unregister r executionId =>
    rw [← Option.some.inj hstep] at hrow
    left
    apply hkept
    rcases unregister_cases s r executionId with heq | heq | ⟨active, heq, hactive, -, -⟩
    · rw [heq] at hrow
      exact hrow
    · rw [heq] at hrow
      exact (List.mem_filter.mp hrow).1
    · rw [heq] at hrow
      exact hactive row hrow
  | abort r armIfMissing cause =>
    left
    apply hkept
    rcases step_abort hstep with rfl | ⟨hr, ⟨-, rfl⟩ | ⟨-, rfl⟩⟩
    · exact hrow
    · rw [(markPendingAbort_spec ttl s [cause] hr).1.active] at hrow
      exact hrow
    · rw [(abortHandles_keeps ttl s [cause] hr _ _).1] at hrow
      exact hrow
  | nativeReturned i =>
    obtain ⟨call, hcall, rfl⟩ := step_nativeReturned hstep
    have hr := (hf.calls call (List.mem_of_getElem? hcall)).1
    rw [(abortHandles_keeps ttl _ call.causes hr _ _).1] at hrow
    exact Or.inl (hkept hrow)
  | microtask =>
    left
    apply hkept
    obtain ⟨r, queue, -, ⟨-, rfl⟩ | ⟨-, hsome, rfl⟩⟩ := step_microtask hstep
    · exact hrow
    · rw [(abortHandles_keeps ttl _ _ (hf.ne_of_peekAll hsome) _ _).1] at hrow
      exact hrow
  | expire r =>
    rw [step_expire hstep, expire, forget_active] at hrow
    exact Or.inl (hkept hrow)

end InFlightAborts

/-! ## The handler -/

section Handler

variable {V : Type} {env : AuthorizeEnv} {config : SqlCancelConfig} {c : SqlStreamingCoordinator}

theorem of_isCancellationAuthorized (hauth : config.enableClientTokenAuthorization = true)
    {params : Entries V} {owner : Option Text}
    (h : isCancellationAuthorized env config params owner = true) :
    ∃ credential, cancelCredential env params = some credential ∧ owner = some credential := by
  have hon : ¬ (!config.enableClientTokenAuthorization) = true := by simp [hauth]
  unfold isCancellationAuthorized at h
  rw [if_neg hon] at h
  split at h
  · rename_i credential owner hcredential
    exact ⟨credential, hcredential, congrArg some (of_decide_eq_true h).symm⟩
  · cases h

theorem trim_of_normalized {id : Option Text} {k : Text}
    (h : SqlStreamingCoordinator.normalized id = some k) : trim k = k := by
  cases id with
  | none => cases h
  | some raw =>
    rw [SqlStreamingCoordinator.normalized] at h
    split at h
    · cases h
    · rw [← Option.some.inj h]
      exact trim_trim raw

theorem trim_of_target {executionId requestId : Option Text} {targetId : Text}
    (h : resolveInFlightAbortTargetId executionId requestId = some targetId) :
    trim targetId = targetId := by
  rw [resolveInFlightAbortTargetId] at h
  split at h
  · rename_i hrequest
    rw [← Option.some.inj h]
    exact trim_of_normalized hrequest
  · exact trim_of_normalized h

/-- What the handler cancels: a stream whose owner it checked, or the executions of an id whose
reservation it checked. -/
theorem handleSqlCancel_cases (env : AuthorizeEnv) (c : SqlStreamingCoordinator)
    (hauth : config.enableClientTokenAuthorization = true) (requestParams : Option (Json V)) :
    (∃ response, handleSqlCancel env config c requestParams = .reply response) ∨
    ∃ credential, (paramsOf requestParams).bind (cancelCredential env) = some credential ∧
      ((∃ execution success, handleSqlCancel env config c requestParams =
          .cancelStream execution success ∧ execution.ownerCredentialHash = some credential) ∨
        ∃ targetId success owner, handleSqlCancel env config c requestParams =
          .abortInFlight targetId success ∧ c.activeRequestOwners.lookup targetId = some owner ∧
          owner.credentialHash = some credential) := by
  rw [handleSqlCancel]
  split
  · exact Or.inl ⟨_, rfl⟩
  · split
    · exact Or.inl ⟨_, rfl⟩
    · rename_i params hparams
      rw [hparams]
      split
      · rw [cancelByIds]
        split
        · exact Or.inl ⟨_, rfl⟩
        · split
          · rename_i execution hfind
            split
            · exact Or.inl ⟨_, rfl⟩
            · split
              · exact Or.inl ⟨_, rfl⟩
              · rename_i hauthorized
                simp only [Bool.not_eq_true', Bool.not_eq_false] at hauthorized
                obtain ⟨credential, hcredential, howner⟩ :=
                  of_isCancellationAuthorized hauth hauthorized
                exact Or.inr ⟨credential, hcredential, Or.inl ⟨_, _, rfl, howner⟩⟩
          · split
            · exact Or.inl ⟨_, rfl⟩
            · rename_i targetId htarget
              split
              · exact Or.inl ⟨_, rfl⟩
              · split
                · exact Or.inl ⟨_, rfl⟩
                · rename_i owner hfound
                  split
                  · exact Or.inl ⟨_, rfl⟩
                  · rename_i hauthorized
                    rw [SqlStreamingCoordinator.findRequestOwner, trim_of_target htarget] at hfound
                    simp only [Bool.not_eq_true', Bool.not_eq_false] at hauthorized
                    obtain ⟨credential, hcredential, howner⟩ :=
                      of_isCancellationAuthorized hauth hauthorized
                    exact Or.inr ⟨credential, hcredential,
                      Or.inr ⟨_, _, owner, rfl, hfound, howner⟩⟩
      · exact Or.inl ⟨_, rfl⟩

end Handler

/-! ## The runs -/

/-- A cause suits a credential: an abort of `sql.cancel` carries the credential of the execution. -/
def OwnedBy (cause credential : Option Text) : Prop :=
  ∀ canceller, cause = some canceller → credential = some canceller

namespace StreamRun

variable {env : AuthorizeEnv} {s s' : StreamRun}

theorem markFinished_owners (c : SqlStreamingCoordinator) (e : ActiveSqlStreamExecution) :
    (c.markFinished e).activeRequestOwners = c.activeRequestOwners := by
  rw [SqlStreamingCoordinator.markFinished]
  split <;> rfl

theorem cancel_owners (s : StreamRun) (e : ActiveSqlStreamExecution) (awaited : Bool) :
    (s.cancel e awaited).coordinator.activeRequestOwners = s.coordinator.activeRequestOwners := by
  rw [cancel]
  dsimp only
  split
  · rfl
  · exact markFinished_owners _ _

theorem step_owners {a : StreamAction} (h : s.step env a = some s') :
    s'.coordinator.activeRequestOwners = s.coordinator.activeRequestOwners := by
  cases a with
  | markStarted streamId executionId requestId clientToken =>
    simp only [step] at h
    split at h
    · rw [← Option.some.inj h]
    · rename_i e coordinator hstart
      obtain ⟨-, -, -, hc⟩ := SqlStreamingCoordinator.markStarted_ok hstart
      rw [← Option.some.inj h, begin, hc]
  | markFinished i =>
    simp only [step, Option.map_eq_some_iff] at h
    obtain ⟨e, -, hs⟩ := h
    rw [← hs]
    exact markFinished_owners _ _
  | cancel i awaited =>
    simp only [step, Option.map_eq_some_iff] at h
    obtain ⟨e, -, hs⟩ := h
    rw [← hs]
    exact cancel_owners s e awaited
  | cancelReturned i success =>
    simp only [step, Option.map_eq_some_iff] at h
    obtain ⟨e, -, hs⟩ := h
    rw [← hs]
    split
    · exact markFinished_owners _ _
    · rfl
  | disconnect awaited =>
    rw [← Option.some.inj h, disconnect]
    split
    · rfl
    · dsimp only
      split <;> rfl
  | disconnectReturned success =>
    simp only [step] at h
    split at h
    · cases h
    · rw [← Option.some.inj h]
      split <;> rfl

end StreamRun

namespace SqlRun

variable {V : Type} {env : AuthorizeEnv} {config : SqlCancelConfig} {ttl : Nat} {s s' : SqlRun}

/-- An id is used by one credential at a time: a request that reserves an id has the credential of
the executions that are registered under it, and an execution that is registered under an id has
the credential of its reservation and of the aborts of `sql.cancel` that are armed or in progress
for it. -/
def SameCredential (env : AuthorizeEnv) (s : SqlRun) : SqlAction V → Prop
  | .dispatch requestId clientToken =>
    s.streams.coordinator.findRequestOwner requestId = none →
      ∀ row ∈ s.aborts.active, row.requestId = trim requestId →
        row.credential = ownerCredentialHash env clientToken
  | .native (.register requestId _ _ credential) =>
    (∀ owner, s.streams.coordinator.activeRequestOwners.lookup requestId = some owner →
      credential = owner.credentialHash) ∧
    ∀ cause, s.aborts.Blamed requestId cause → OwnedBy cause credential
  | _ => True

/-- The aborts suit the executions that they reach, and the executions of a request that is reserved
have the credential of its owner. -/
structure SqlInv (s : SqlRun) : Prop where
  followed : s.aborts.Followed
  attributed : s.aborts.Attributed OwnedBy
  owners : ∀ r owner, s.streams.coordinator.activeRequestOwners.lookup r = some owner →
    ∀ row ∈ s.aborts.active, row.requestId = r → row.credential = owner.credentialHash

theorem SqlInv.empty : SqlInv {} := by
  refine ⟨.empty, ⟨?_, ?_, ?_⟩, ?_⟩
  · intro row hrow
    cases hrow
  · intro call hcall
    cases hcall
  · intro entry hentry
    cases hentry
  · intro r owner _ row hrow
    cases hrow

theorem SqlInv.reserve (h : SqlInv s) {streams : StreamRun} {requests : List Text}
    {cancelled : List (ActiveSqlStreamExecution × Option Text)}
    (howners : ∀ r owner, streams.coordinator.activeRequestOwners.lookup r = some owner →
      s.streams.coordinator.activeRequestOwners.lookup r = some owner ∨
        ∀ row ∈ s.aborts.active, row.requestId = r → row.credential = owner.credentialHash) :
    SqlInv { s with streams := streams, requests := requests, streamsCancelled := cancelled } := by
  refine ⟨h.followed, h.attributed, ?_⟩
  intro r owner howner
  rcases howners r owner howner with howner | hrows
  · exact h.owners r owner howner
  · exact hrows

theorem SqlInv.dispatch (h : SqlInv s) {requestId : Text} {clientToken : Option Text}
    (hsame : s.SameCredential env (.dispatch requestId clientToken : SqlAction V)) :
    SqlInv (s.dispatch env requestId clientToken) := by
  rw [SqlRun.dispatch, SqlStreamingCoordinator.reserveRequestOwner]
  dsimp only
  split
  · exact h
  · rename_i hfree
    simp only [Bool.or_eq_true, not_or, Bool.not_eq_true, Option.isSome_eq_false_iff,
      Option.isNone_iff_eq_none] at hfree
    apply h.reserve
    intro r owner howner
    by_cases hr : r = trim requestId
    · replace howner : (s.streams.coordinator.activeRequestOwners.insert (trim requestId)
          ⟨ownerCredentialHash env clientToken⟩).lookup r = some owner := howner
      rw [hr, AList.lookup_insert] at howner
      rw [← Option.some.inj howner, hr]
      exact Or.inr (hsame hfree.2)
    · left
      exact (AList.lookup_insert_ne hr).symm.trans howner

theorem SqlInv.native (h : SqlInv s) {a : AbortAction (Option Text)}
    {aborts : InFlightAborts (Option Text)} (hstep : s.aborts.step ttl a = some aborts)
    (hsuits : s.aborts.Suits OwnedBy a)
    (hregister : ∀ requestId handle executionId credential,
      a = .register requestId handle executionId credential →
        ∀ owner, s.streams.coordinator.activeRequestOwners.lookup requestId = some owner →
          credential = owner.credentialHash) : SqlInv { s with aborts := aborts } := by
  refine ⟨h.followed.step hstep, h.attributed.step h.followed hsuits hstep, ?_⟩
  intro r owner howner row hrow hof
  rcases InFlightAborts.active_step h.followed hstep hrow with hold | hnew
  · obtain ⟨old, hmem, hold, hcredential⟩ := hold
    rw [← hcredential]
    exact h.owners r owner howner old hmem (hold.trans hof)
  · obtain ⟨handle, executionId, ha⟩ := hnew
    exact hregister _ _ _ _ ha owner (hof.symm ▸ howner)

theorem SqlInv.step (hauth : config.enableClientTokenAuthorization = true) (h : SqlInv s)
    {a : SqlAction V} (hsame : s.SameCredential env a) (hstep : s.step env config ttl a = some s') :
    SqlInv s' := by
  cases a with
  | dispatch requestId clientToken =>
    rw [← Option.some.inj hstep]
    exact h.dispatch hsame
  | dispatched i =>
    simp only [SqlRun.step, Option.map_eq_some_iff] at hstep
    obtain ⟨requestId, -, hs⟩ := hstep
    rw [← hs]
    apply h.reserve
    intro r owner howner
    left
    by_cases hr : r = trim requestId
    · replace howner : (s.streams.coordinator.activeRequestOwners.erase (trim requestId)).lookup r =
        some owner := howner
      rw [hr, AList.lookup_erase] at howner
      cases howner
    · exact (AList.lookup_erase_ne hr).symm.trans howner
  | stream action =>
    simp only [SqlRun.step] at hstep
    split at hstep
    · rw [Option.map_eq_some_iff] at hstep
      obtain ⟨streams, hstreams, hs⟩ := hstep
      rw [← hs]
      apply h.reserve
      intro r owner howner
      rw [StreamRun.step_owners hstreams] at howner
      exact Or.inl howner
    · cases hstep
  | native action =>
    simp only [SqlRun.step] at hstep
    split at hstep
    · rename_i hown
      rw [Option.map_eq_some_iff] at hstep
      obtain ⟨aborts, haborts, hs⟩ := hstep
      rw [← hs]
      cases action with
      | register requestId handle executionId credential =>
        refine h.native haborts hsame.2 ?_
        intro _ _ _ _ heq
        cases heq
        exact hsame.1
      | abort requestId armIfMissing cause =>
        refine h.native haborts ?_ (fun _ _ _ _ heq => by cases heq)
        intro row _ _ canceller hcause
        rw [hcause] at hown
        cases hown
      | bindTarget | unregister | nativeReturned | microtask | expire =>
        exact h.native haborts trivial (fun _ _ _ _ heq => by cases heq)
    · cases hstep
  | sqlCancel requestParams awaited =>
    rw [← Option.some.inj hstep]
    rcases handleSqlCancel_cases env s.streams.coordinator hauth requestParams with
      ⟨response, hreply⟩ | ⟨credential, hcredential, hcancels⟩
    · rw [hreply]
      exact h
    · rw [hcredential]
      rcases hcancels with ⟨execution, success, hverdict, -⟩ | habort
      · rw [hverdict]
        apply h.reserve
        intro r owner howner
        rw [StreamRun.cancel_owners] at howner
        exact Or.inl howner
      · obtain ⟨targetId, success, owner, hverdict, hlookup, howner⟩ := habort
        rw [hverdict]
        have haborts : s.aborts.step ttl (.abort targetId false (some credential)) =
          some (s.aborts.abortInFlightExecution ttl targetId false (some credential)) := rfl
        refine h.native haborts ?_ (fun _ _ _ _ heq => by cases heq)
        intro row hrow hof canceller hcause
        rw [h.owners targetId owner hlookup row hrow hof, howner]
        exact hcause

theorem streams_owned (hauth : config.enableClientTokenAuthorization = true)
    (h : (sqlMachine V env config ttl).Reachable s) :
    ∀ entry ∈ s.streamsCancelled, ∃ credential,
      entry.2 = some credential ∧ entry.1.ownerCredentialHash = some credential := by
  refine Machine.Reach.invariant (I := fun s : SqlRun => ∀ entry ∈ s.streamsCancelled,
    ∃ credential, entry.2 = some credential ∧ entry.1.ownerCredentialHash = some credential) ?_ ?_ h
  · intro s hstart entry hentry
    rw [hstart] at hentry
    cases hentry
  · intro s a s' hs _ hstep
    replace hstep : s.step env config ttl a = some s' := hstep
    cases a with
    | dispatch requestId clientToken =>
      rw [← Option.some.inj hstep, SqlRun.dispatch]
      dsimp only
      split
      · exact hs
      · exact hs
    | dispatched i =>
      simp only [SqlRun.step, Option.map_eq_some_iff] at hstep
      obtain ⟨requestId, -, hs'⟩ := hstep
      rw [← hs']
      exact hs
    | stream action =>
      simp only [SqlRun.step] at hstep
      split at hstep
      · rw [Option.map_eq_some_iff] at hstep
        obtain ⟨streams, -, hs'⟩ := hstep
        rw [← hs']
        exact hs
      · cases hstep
    | native action =>
      simp only [SqlRun.step] at hstep
      split at hstep
      · rw [Option.map_eq_some_iff] at hstep
        obtain ⟨aborts, -, hs'⟩ := hstep
        rw [← hs']
        exact hs
      · cases hstep
    | sqlCancel requestParams awaited =>
      rw [← Option.some.inj hstep]
      rcases handleSqlCancel_cases env s.streams.coordinator hauth requestParams with
        ⟨response, hreply⟩ | ⟨credential, hcredential, hcancels⟩
      · rw [hreply]
        exact hs
      · rw [hcredential]
        rcases hcancels with ⟨execution, success, hverdict, howner⟩ | habort
        · rw [hverdict]
          intro entry hentry
          rcases List.mem_append.mp hentry with hentry | hentry
          · exact hs entry hentry
          · rw [List.mem_singleton.mp hentry]
            exact ⟨credential, rfl, howner⟩
        · obtain ⟨targetId, success, owner, hverdict, -, -⟩ := habort
          rw [hverdict]
          exact hs

end SqlRun

/-- With the authorization on: in every state that is reached, a stream that `sql.cancel` cancelled
has the credential that the cancel carried; and in every state that is reached while an id is used
by one credential at a time, so has every native execution that an abort of `sql.cancel` passed to
the native cancel. -/
theorem only_owner_cancels {V : Type} {env : AuthorizeEnv} {config : SqlCancelConfig} {ttl : Nat}
    (hauth : config.enableClientTokenAuthorization = true) :
    (∀ s, (sqlMachine V env config ttl).Reachable s → ∀ entry ∈ s.streamsCancelled, ∃ credential,
      entry.2 = some credential ∧ entry.1.ownerCredentialHash = some credential) ∧
    ∀ s, (sqlMachine V env config ttl).Reach (SqlRun.SameCredential env) s →
      ∀ entry ∈ s.aborts.cancelled, ∀ credential, some credential ∈ entry.2 →
        entry.1.credential = some credential := by
  constructor
  · intro s hs
    exact SqlRun.streams_owned hauth hs
  · intro s hs entry hentry credential hcause
    have hinv : s.SqlInv := by
      refine Machine.Reach.invariant (I := SqlRun.SqlInv) ?_ ?_ hs
      · intro s hstart
        rw [hstart]
        exact .empty
      · intro s a s' hs hsame hstep
        exact hs.step hauth hsame hstep
    exact hinv.attributed.cancelled entry hentry _ hcause credential rfl

/-- The params of a `sql.cancel` for a request, with a client token. -/
def cancelParams (requestId clientToken : String) : Option (Json Empty) :=
  some (.map [("request_id", .text requestId), ("client_token", .text clientToken)])

/-- The agent with the case mapping and the hash of the runs above. -/
def plainSqlMachine : Machine SqlRun (SqlAction Empty) :=
  sqlMachine Empty plainEnv {} 120000000

/-- The state after some actions, the start if one of them was not enabled. -/
def afterSql (actions : List (SqlAction Empty)) : SqlRun :=
  (plainSqlMachine.run {} actions).getD {}

/-- A request is cancelled by its own credential. -/
def ownCancel : List (SqlAction Empty) :=
  [.dispatch "1".toList (some "a".toList),
    .native (.register "1".toList ⟨"c".toList, some 1, none⟩ none (some "a".toList)),
    .sqlCancel (cancelParams "1" "a") false]

/-- The request of another credential reuses the id of one that ended while its execution still
runs, and is cancelled by its own credential. -/
def foreignCancel : List (SqlAction Empty) :=
  [.dispatch "1".toList (some "a".toList),
    .native (.register "1".toList ⟨"c".toList, some 1, none⟩ none (some "a".toList)),
    .dispatched 0, .dispatch "1".toList (some "b".toList),
    .sqlCancel (cancelParams "1" "b") false]

/-- The execution of the own request was passed to the native cancel. -/
theorem only_owner_cancels_own :
    ∃ entry ∈ (afterSql ownCancel).aborts.cancelled, some "a".toList ∈ entry.2 ∧
      entry.1.credential = some "a".toList := by
  have hreach : plainSqlMachine.Reach (SqlRun.SameCredential plainEnv) (afterSql ownCancel) := by
    refine Machine.Reach.of_run (.start rfl) ownCancel ?_ rfl
    refine ⟨?_, ⟨?_, ?_⟩, trivial, trivial⟩
    · intro _ row hrow
      cases hrow
    · intro owner howner
      cases howner
      rfl
    · intro cause hcause
      rcases hcause with hcause | ⟨call, hcall, -⟩
      · cases hcause
      · cases hcall
  refine ⟨_, List.mem_singleton.mpr rfl, List.mem_singleton.mpr rfl, ?_⟩
  exact (only_owner_cancels rfl).2 _ hreach _ (List.mem_singleton.mpr rfl) _
    (List.mem_singleton.mpr rfl)

/-- The execution of one credential is passed to the native cancel for the `sql.cancel` of
another. -/
theorem foreign_cancels :
    ¬ ∀ s, plainSqlMachine.Reachable s → ∀ entry ∈ s.aborts.cancelled, ∀ credential,
      some credential ∈ entry.2 → entry.1.credential = some credential := by
  intro h
  have hrun : plainSqlMachine.run {} foreignCancel = some (afterSql foreignCancel) := rfl
  have howned := h _ (Machine.reachable_of_run rfl hrun) _ (List.mem_singleton.mpr rfl) "b".toList
    (List.mem_singleton.mpr rfl)
  cases howned

end PlugAgente.Cancellation
