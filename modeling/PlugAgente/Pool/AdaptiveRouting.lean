import PlugAgente.Pool.AdaptivePool
import PlugAgente.Machine.Rows

/-!
# The owners of the adaptive pool

The adaptive pool forgets the owner of an id when the awaited release comes back, and by then the
id may belong to another acquire.  A `closeAll` forgets all owners when both pools have answered,
and a drain recycles its strings one after the other: connections may be handed out in between.

`Apart` keeps a connection from being handed out then.  Under it every connection that is out has
its owner recorded, its releases are sent to the pool that has granted it, the counts are those of
the recorded owners, and nothing is recycled that is out.
-/

namespace PlugAgente.Pool

open Dart

namespace AdaptiveOdbcConnectionPool

variable {cfg : AdaptivePoolConfig} {s s' : AdaptiveOdbcConnectionPool}

/-- A connection is handed out when its id has been forgotten: no owner of it is recorded, and no
release or discard of it is under way.  It is not handed out during a `closeAll`, nor while a drain
has its string still to recycle. -/
structure MayHandOut (s : AdaptiveOdbcConnectionPool) (connectionId connectionString : Text) :
    Prop where
  owners : ∀ c ∈ s.connectionOwners, c.connectionId ≠ connectionId
  returns : ∀ r ∈ s.returns, r.connectionId = connectionId → r.stage = .ended
  closes : ∀ stage ∈ s.closes, stage = .ended
  drains : ∀ steps ∈ s.drains, ∀ p ∈ steps, p.2 ≠ connectionString

/-- Connections are handed out only when they may be. -/
def Apart (s : AdaptiveOdbcConnectionPool) : AdaptivePoolEvent → Prop
  | .handedOut i => ∀ a owner key id, s.acquires[i]? = some a →
    a.stage = .granted owner key id → s.MayHandOut id a.connectionString
  | _ => True

/-! ## The invariant -/

/-- What holds of a release or a discard. -/
def ReturnOk (out : List AdaptiveConnection) (r : AdaptiveReturn) : Prop :=
  match r.stage with
  | .counting => r.connection = none ∧ ∀ c ∈ out, c.connectionId ≠ r.connectionId
  | .waiting target => ∀ c ∈ out, c.connectionId = r.connectionId → c.owner = target
  | .answered true => ∀ c ∈ out, c.connectionId ≠ r.connectionId
  | .answered false | .ended => True

/-- What a `closeAll` has closed is not out. -/
def CloseOk (out : List AdaptiveConnection) : CloseStage → Prop
  | .closingNative | .ended => True
  | .closingLease nativeClosed => nativeClosed = true → ∀ c ∈ out, c.owner ≠ .native
  | .closed nativeClosed leaseClosed =>
    (nativeClosed = true → ∀ c ∈ out, c.owner ≠ .native) ∧
      (leaseClosed = true → ∀ c ∈ out, c.owner ≠ .lease)

/-- What a drain has still to recycle is not out. -/
def DrainOk (out : List AdaptiveConnection) (steps : List (AdaptivePoolOwner × Text)) : Prop :=
  ∀ p ∈ steps, ∀ c ∈ out, c.connectionString ≠ p.2

/-- Connections of a pool among the recorded owners. -/
def countOf (s : AdaptiveOdbcConnectionPool) (owner : AdaptivePoolOwner) : Nat :=
  s.connectionOwners.countP fun c => c.owner = owner

structure Routed (s : AdaptiveOdbcConnectionPool) : Prop where
  ids : (s.connectionOwners.map AdaptiveConnection.connectionId).Nodup
  recorded : ∀ c ∈ s.out, c ∈ s.connectionOwners
  native : s.nativeActiveCount = s.countOf .native
  lease : s.leaseActiveCount = s.countOf .lease
  returns : ∀ r ∈ s.returns, ReturnOk s.out r
  closes : ∀ stage ∈ s.closes, CloseOk s.out stage
  drains : ∀ steps ∈ s.drains, DrainOk s.out steps
  routed : ∀ p ∈ s.routed, p.2 = p.1.owner
  recycled : s.recycledWhileOut = []

theorem ReturnOk.shrink {out out' : List AdaptiveConnection} {r : AdaptiveReturn}
    (h : ReturnOk out r) (hsub : ∀ c ∈ out', c ∈ out) : ReturnOk out' r := by
  unfold ReturnOk at h ⊢
  split at h
  · exact ⟨h.1, fun c hc => h.2 c (hsub c hc)⟩
  · exact fun c hc => h c (hsub c hc)
  · exact fun c hc => h c (hsub c hc)
  · trivial
  · trivial

theorem CloseOk.shrink {out out' : List AdaptiveConnection} {stage : CloseStage}
    (h : CloseOk out stage) (hsub : ∀ c ∈ out', c ∈ out) : CloseOk out' stage := by
  cases stage with
  | closingNative | ended => trivial
  | closingLease nativeClosed => exact fun hclosed c hc => h hclosed c (hsub c hc)
  | closed nativeClosed leaseClosed =>
    exact ⟨fun hclosed c hc => h.1 hclosed c (hsub c hc),
      fun hclosed c hc => h.2 hclosed c (hsub c hc)⟩

theorem DrainOk.shrink {out out' : List AdaptiveConnection}
    {steps : List (AdaptivePoolOwner × Text)} (h : DrainOk out steps)
    (hsub : ∀ c ∈ out', c ∈ out) : DrainOk out' steps :=
  fun p hp c hc => h p hp c (hsub c hc)

/-- The step is about neither the connections nor the calls that give them back. -/
structure SameConnections (s s' : AdaptiveOdbcConnectionPool) : Prop where
  owners : s'.connectionOwners = s.connectionOwners
  leaseActiveCount : s'.leaseActiveCount = s.leaseActiveCount
  nativeActiveCount : s'.nativeActiveCount = s.nativeActiveCount
  returns : s'.returns = s.returns
  closes : s'.closes = s.closes
  drains : s'.drains = s.drains
  out : s'.out = s.out
  routed : s'.routed = s.routed
  recycled : s'.recycledWhileOut = s.recycledWhileOut

theorem Routed.keep (h : s.Routed) (hsame : SameConnections s s') : s'.Routed := by
  refine ⟨?_, ?_, ?_, ?_, ?_, ?_, ?_, ?_, ?_⟩
  · rw [hsame.owners]
    exact h.ids
  · rw [hsame.out, hsame.owners]
    exact h.recorded
  · rw [hsame.nativeActiveCount, countOf, hsame.owners]
    exact h.native
  · rw [hsame.leaseActiveCount, countOf, hsame.owners]
    exact h.lease
  · rw [hsame.returns, hsame.out]
    exact h.returns
  · rw [hsame.closes, hsame.out]
    exact h.closes
  · rw [hsame.drains, hsame.out]
    exact h.drains
  · rw [hsame.routed]
    exact h.routed
  · rw [hsame.recycled]
    exact h.recycled

theorem Routed.takeBack (h : s.Routed) {out : List AdaptiveConnection}
    (hsub : ∀ c ∈ out, c ∈ s.out) : Routed { s with out } :=
  ⟨h.ids, fun c hc => h.recorded c (hsub c hc), h.native, h.lease,
    fun r hr => (h.returns r hr).shrink hsub, fun stage hstage => (h.closes stage hstage).shrink hsub,
    fun steps hsteps => (h.drains steps hsteps).shrink hsub, h.routed, h.recycled⟩

/-! ## Quiet steps -/

theorem sameConnections_setAcquire (i : Nat) (a : AdaptiveAcquire) (stage : AdaptiveAcquireStage) :
    SameConnections s (s.setAcquire i a stage) :=
  ⟨rfl, rfl, rfl, rfl, rfl, rfl, rfl, rfl, rfl⟩

theorem sameConnections_acquire (connectionString : Text) (now : Int) :
    SameConnections s (s.acquire cfg connectionString now) := by
  unfold acquire
  split <;> exact ⟨rfl, rfl, rfl, rfl, rfl, rfl, rfl, rfl, rfl⟩

theorem sameConnections_resolve (now : Int) : SameConnections s (s.resolve cfg now) := by
  unfold resolve
  split <;> exact ⟨rfl, rfl, rfl, rfl, rfl, rfl, rfl, rfl, rfl⟩

theorem sameConnections_loaded (resolved : Option AdaptiveDriverInfo) (now : Int) :
    SameConnections s (s.loaded resolved now) := by
  unfold loaded
  cases resolved with
  | none => exact ⟨rfl, rfl, rfl, rfl, rfl, rfl, rfl, rfl, rfl⟩
  | some info =>
    dsimp only
    split_ifs <;> exact ⟨rfl, rfl, rfl, rfl, rfl, rfl, rfl, rfl, rfl⟩

theorem sameConnections_choose {i : Nat} {now : Int} (h : s.choose cfg i now = some s') :
    SameConnections s s' := by
  unfold choose at h
  split at h
  · split at h
    · dsimp only at h
      split_ifs at h
      all_goals
        rw [← Option.some.inj h]
        exact ⟨rfl, rfl, rfl, rfl, rfl, rfl, rfl, rfl, rfl⟩
    · cases h
  · cases h

theorem sameConnections_granted {i : Nat} {id : Text} (h : s.granted i id = some s') :
    SameConnections s s' := by
  unfold granted at h
  split at h
  · split at h
    · split_ifs at h
      rw [← Option.some.inj h]
      exact sameConnections_setAcquire _ _ _
    · cases h
  · cases h

theorem sameConnections_refused {i : Nat} {fallback : Bool} {now : Int}
    (h : s.refused cfg i fallback now = some s') : SameConnections s s' := by
  unfold refused at h
  split at h
  · split at h
    · split_ifs at h
      all_goals
        rw [← Option.some.inj h]
        exact ⟨rfl, rfl, rfl, rfl, rfl, rfl, rfl, rfl, rfl⟩
    · rw [← Option.some.inj h]
      exact sameConnections_setAcquire _ _ _
    · cases h
  · cases h

/-! ## Handing out -/

theorem withoutOwner_of_unrecorded {id : Text}
    (h : ∀ c ∈ s.connectionOwners, c.connectionId ≠ id) :
    s.withoutOwner id = s.connectionOwners := by
  unfold withoutOwner
  rw [List.filter_eq_self]
  intro c hc
  exact decide_eq_true (h c hc)

theorem record_frame (c : AdaptiveConnection) :
    (s.record c).out = s.out ++ [c] ∧ (s.record c).returns = s.returns ∧
      (s.record c).closes = s.closes ∧ (s.record c).drains = s.drains ∧
      (s.record c).routed = s.routed ∧ (s.record c).recycledWhileOut = s.recycledWhileOut := by
  unfold AdaptiveOdbcConnectionPool.record
  cases c.owner <;> exact ⟨rfl, rfl, rfl, rfl, rfl, rfl⟩

theorem record_owners {c : AdaptiveConnection}
    (h : ∀ d ∈ s.connectionOwners, d.connectionId ≠ c.connectionId) :
    (s.record c).connectionOwners = s.connectionOwners ++ [c] := by
  unfold AdaptiveOdbcConnectionPool.record
  rw [withoutOwner_of_unrecorded h]
  cases c.owner <;> rfl

theorem Routed.record (h : s.Routed) {c : AdaptiveConnection}
    (hmay : s.MayHandOut c.connectionId c.connectionString) : (s.record c).Routed := by
  have howners := record_owners hmay.owners
  obtain ⟨hout, hreturns, hcloses, hdrains, hrouted, hrecycled⟩ := s.record_frame c
  have hcount : ∀ owner, (s.record c).countOf owner =
      s.countOf owner + if c.owner = owner then 1 else 0 := by
    intro owner
    unfold countOf
    rw [howners, List.countP_append, List.countP_singleton]
    simp
  refine ⟨?_, ?_, ?_, ?_, ?_, ?_, ?_, ?_, ?_⟩
  · rw [howners, List.map_append, List.map_singleton]
    refine List.nodup_append.mpr ⟨h.ids, List.nodup_singleton _, ?_⟩
    intro id hid id' hid' heq
    obtain ⟨d, hd, rfl⟩ := List.mem_map.mp hid
    rw [List.mem_singleton] at hid'
    exact hmay.owners d hd (heq.trans hid')
  · rw [hout, howners]
    intro d hd
    rcases List.mem_append.mp hd with hd | hd
    · exact List.mem_append_left _ (h.recorded d hd)
    · exact List.mem_append_right _ hd
  · rw [hcount]
    have hnative := h.native
    unfold AdaptiveOdbcConnectionPool.record
    cases c.owner with
    | lease => simpa using hnative
    | native => simpa using hnative
  · rw [hcount]
    have hlease := h.lease
    unfold AdaptiveOdbcConnectionPool.record
    cases c.owner with
    | lease => simpa using hlease
    | native => simpa using hlease
  · rw [hreturns, hout]
    intro r hr
    have hok := h.returns r hr
    by_cases hid : r.connectionId = c.connectionId
    · unfold ReturnOk
      rw [hmay.returns r hr hid]
      trivial
    · -- a call for another id does not see the new connection
      have hne : ∀ d ∈ s.out ++ [c], d.connectionId = r.connectionId → d ∈ s.out := by
        intro d hd hdr
        rcases List.mem_append.mp hd with hd | hd
        · exact hd
        · rw [List.mem_singleton.mp hd] at hdr
          exact absurd hdr.symm hid
      unfold ReturnOk at hok ⊢
      split at hok
      · exact ⟨hok.1, fun d hd hdr => hok.2 d (hne d hd hdr) hdr⟩
      · exact fun d hd hdr => hok d (hne d hd hdr) hdr
      · exact fun d hd hdr => hok d (hne d hd hdr) hdr
      · trivial
      · trivial
  · rw [hcloses]
    intro stage hstage
    rw [hmay.closes stage hstage]
    trivial
  · rw [hdrains, hout]
    intro steps hsteps p hp d hd
    rcases List.mem_append.mp hd with hd | hd
    · exact h.drains steps hsteps p hp d hd
    · rw [List.mem_singleton.mp hd]
      exact fun heq => hmay.drains steps hsteps p hp heq.symm
  · rw [hrouted]
    exact h.routed
  · rw [hrecycled]
    exact h.recycled

theorem Routed.handedOut (h : s.Routed) {i : Nat} (hapart : s.Apart (.handedOut i))
    (hstep : s.handedOut i = some s') : s'.Routed := by
  unfold AdaptiveOdbcConnectionPool.handedOut at hstep
  split at hstep
  · rename_i a ha
    split at hstep
    · rename_i owner key id hstage
      obtain ⟨howners, hreturns, hcloses, hdrains⟩ := hapart a owner key id ha hstage
      have hended := h.keep (sameConnections_setAcquire i a .ended)
      have hrecorded := hended.record (c := ⟨id, a.connectionString, owner⟩)
        ⟨howners, hreturns, hcloses, hdrains⟩
      cases owner with
      | native =>
        rw [← Option.some.inj hstep]
        exact hrecorded.keep ⟨rfl, rfl, rfl, rfl, rfl, rfl, rfl, rfl, rfl⟩
      | lease =>
        rw [← Option.some.inj hstep]
        exact hrecorded
    · cases hstep
  · cases hstep

/-! ## Giving back -/

theorem mem_ownerOf {id : Text} {c : AdaptiveConnection} (h : s.ownerOf id = some c) :
    c ∈ s.connectionOwners ∧ c.connectionId = id :=
  ⟨List.mem_of_find?_eq_some h, of_decide_eq_true (List.find?_some h :)⟩

theorem Routed.owner_unique (h : s.Routed) {c d : AdaptiveConnection}
    (hc : c ∈ s.connectionOwners) (hd : d ∈ s.connectionOwners)
    (hid : c.connectionId = d.connectionId) : c = d :=
  List.inj_on_of_nodup_map h.ids hc hd hid

theorem Routed.ownerOf_out (h : s.Routed) {c : AdaptiveConnection} (hc : c ∈ s.out) :
    s.ownerOf c.connectionId = some c := by
  cases howner : s.ownerOf c.connectionId with
  | none =>
    have hnone := List.find?_eq_none.mp howner c (h.recorded c hc)
    simp at hnone
  | some d =>
    obtain ⟨hd, hid⟩ := mem_ownerOf howner
    rw [h.owner_unique hd (h.recorded c hc) hid]

theorem find_out {id : Text} {c : AdaptiveConnection}
    (h : (s.out.find? fun c => c.connectionId = id) = some c) : c ∈ s.out ∧ c.connectionId = id :=
  ⟨List.mem_of_find?_eq_some h, of_decide_eq_true (List.find?_some h :)⟩

theorem Routed.call (h : s.Routed) {r : AdaptiveReturn} (hr : ReturnOk s.out r) :
    Routed { s with returns := s.returns ++ [r] } := by
  refine ⟨h.ids, h.recorded, h.native, h.lease, ?_, h.closes, h.drains, h.routed, h.recycled⟩
  intro d hd
  rcases List.mem_append.mp hd with hd | hd
  · exact h.returns d hd
  · rw [List.mem_singleton.mp hd]
    exact hr

theorem Routed.send (h : s.Routed) {connection : Option AdaptiveConnection}
    {target : AdaptivePoolOwner} (htarget : ∀ c, connection = some c → target = c.owner) :
    (s.send connection target).Routed := by
  refine ⟨h.ids, h.recorded, h.native, h.lease, h.returns, h.closes, h.drains, ?_, h.recycled⟩
  intro p hp
  rcases List.mem_append.mp hp with hp | hp
  · exact h.routed p hp
  · cases connection with
    | none => cases hp
    | some c =>
      rw [List.mem_singleton.mp hp]
      exact htarget c rfl

theorem Routed.returnConnection (h : s.Routed) (id : Text) (isDiscard : Bool) :
    (s.returnConnection id isDiscard).Routed := by
  unfold AdaptiveOdbcConnectionPool.returnConnection
  dsimp only
  split
  · rename_i d howner
    obtain ⟨hd, hid⟩ := mem_ownerOf howner
    -- what is out under the id is what the owner is recorded of
    have hsame : ∀ c ∈ s.out, c.connectionId = id → c.owner = d.owner := by
      intro c hc hcid
      rw [h.owner_unique (h.recorded c hc) hd (hcid.trans hid.symm)]
    refine (h.call ?_).send ?_
    · exact hsame
    · intro c hc
      obtain ⟨hmem, hcid⟩ := find_out hc
      exact (hsame c hmem hcid).symm
  · rename_i howner
    have hnotOut : ∀ c ∈ s.out, c.connectionId ≠ id := by
      rintro c hc rfl
      rw [h.ownerOf_out hc] at howner
      cases howner
    have hnone : (s.out.find? fun c => c.connectionId = id) = none := by
      apply List.find?_eq_none.mpr
      intro c hc hcid
      exact hnotOut c hc (of_decide_eq_true hcid)
    by_cases hdiscard : isDiscard = true
    · rw [if_pos hdiscard]
      refine (h.call ?_).send ?_
      · exact fun c hc hcid => absurd hcid (hnotOut c hc)
      · intro c hc
        rw [hnone] at hc
        cases hc
    · rw [if_neg hdiscard]
      refine h.call ?_
      exact ⟨hnone, hnotOut⟩

theorem Routed.setReturn (h : s.Routed) {j : Nat} {r : AdaptiveReturn} {stage : AdaptiveReturnStage}
    (hstage : ReturnOk s.out { r with stage }) : (s.setReturn j r stage).Routed := by
  refine ⟨h.ids, h.recorded, h.native, h.lease, ?_, h.closes, h.drains, h.routed, h.recycled⟩
  intro d hd
  rcases List.mem_or_eq_of_mem_set hd with hd | rfl
  · exact h.returns d hd
  · exact hstage

theorem Routed.counted (h : s.Routed) {j : Nat} {success : Bool}
    (hstep : s.counted j success = some s') : s'.Routed := by
  unfold AdaptiveOdbcConnectionPool.counted at hstep
  split at hstep
  · rename_i r hr
    split at hstep
    · rename_i hstage
      have hok := h.returns r (List.mem_of_getElem? hr)
      unfold ReturnOk at hok
      rw [hstage] at hok
      rw [← Option.some.inj hstep]
      refine (h.setReturn ?_).send ?_
      · exact fun c hc hcid => absurd hcid (hok.2 c hc)
      · intro c hc
        rw [hok.1] at hc
        cases hc
    · cases hstep
  · cases hstep

theorem Routed.answered (h : s.Routed) {j : Nat} {success : Bool}
    (hstep : s.answered j success = some s') : s'.Routed := by
  unfold AdaptiveOdbcConnectionPool.answered at hstep
  split at hstep
  · rename_i r hr
    split at hstep
    · rename_i target hstage
      have hok := h.returns r (List.mem_of_getElem? hr)
      unfold ReturnOk at hok
      rw [hstage] at hok
      rw [← Option.some.inj hstep]
      cases success with
      | false => exact h.setReturn trivial
      | true =>
        have hsub : ∀ c ∈ s.out.filter (fun c =>
            ¬ (c.connectionId = r.connectionId ∧ c.owner = target)), c ∈ s.out :=
          fun c hc => (List.mem_filter.mp hc).1
        refine (h.takeBack hsub).setReturn ?_
        intro c hc hcid
        obtain ⟨hmem, hkept⟩ := List.mem_filter.mp hc
        exact of_decide_eq_true hkept ⟨hcid, hok c hmem hcid⟩
    · cases hstep
  · cases hstep

theorem Routed.forgetOwner (h : s.Routed) {id : Text} (hnot : ∀ c ∈ s.out, c.connectionId ≠ id) :
    (s.forgetOwner id).Routed := by
  unfold AdaptiveOdbcConnectionPool.forgetOwner
  split
  · rename_i d howner
    obtain ⟨hd, hid⟩ := mem_ownerOf howner
    have hids : ((s.withoutOwner id).map AdaptiveConnection.connectionId).Nodup :=
      h.ids.sublist (List.filter_sublist.map _)
    have hrecorded : ∀ c ∈ s.out, c ∈ s.withoutOwner id :=
      fun c hc => List.mem_filter.mpr ⟨h.recorded c hc, decide_eq_true (hnot c hc)⟩
    -- one owner less, of the pool that had granted it
    have hcount : ∀ owner, s.countOf owner =
        (s.withoutOwner id).countP (fun c => c.owner = owner) +
          if d.owner = owner then 1 else 0 := by
      intro owner
      have hperm : s.connectionOwners.Perm (d :: s.withoutOwner id) := by
        have hfilter := Rows.perm_cons_filter h.ids hd
        rw [hid] at hfilter
        exact hfilter
      rw [countOf, hperm.countP_eq, List.countP_cons]
      simp
    have hnative := h.native.trans (hcount .native)
    have hlease := h.lease.trans (hcount .lease)
    cases howner : d.owner with
    | lease =>
      rw [howner] at hnative hlease
      refine ⟨hids, hrecorded, ?_, ?_, h.returns, h.closes, h.drains, h.routed, h.recycled⟩
      · exact hnative
      · show s.leaseActiveCount - 1 = (s.withoutOwner id).countP _
        rw [hlease]
        rfl
    | native =>
      rw [howner] at hnative hlease
      refine ⟨hids, hrecorded, ?_, ?_, h.returns, h.closes, h.drains, h.routed, h.recycled⟩
      · show s.nativeActiveCount - 1 = (s.withoutOwner id).countP _
        rw [hnative]
        rfl
      · exact hlease
  · exact h

theorem Routed.maybeCompleteConfigDrain (h : s.Routed) : s.maybeCompleteConfigDrain.Routed := by
  unfold AdaptiveOdbcConnectionPool.maybeCompleteConfigDrain
  split_ifs with hpending
  · exact h
  · have hnone : s.connectionOwners = [] := by
      by_contra hsome
      exact hpending (.inr hsome)
    refine ⟨h.ids, h.recorded, h.native, h.lease, h.returns, h.closes, ?_, h.routed, h.recycled⟩
    intro steps hsteps
    rcases List.mem_append.mp hsteps with hsteps | hsteps
    · exact h.drains steps hsteps
    · intro p _ c hc
      have := h.recorded c hc
      rw [hnone] at this
      cases this

theorem Routed.returned (h : s.Routed) {j : Nat} (hstep : s.returned j = some s') :
    s'.Routed := by
  unfold AdaptiveOdbcConnectionPool.returned at hstep
  split at hstep
  · rename_i r hr
    split at hstep
    · rename_i success hstage
      have hok := h.returns r (List.mem_of_getElem? hr)
      unfold ReturnOk at hok
      rw [hstage] at hok
      have hended : (s.setReturn j r .ended).Routed := h.setReturn trivial
      rw [← Option.some.inj hstep]
      cases success with
      | false => exact hended.maybeCompleteConfigDrain
      | true => exact (hended.forgetOwner hok).maybeCompleteConfigDrain
    · cases hstep
  · cases hstep

/-! ## Close -/

theorem Routed.setClose (h : s.Routed) {k : Nat} {stage : CloseStage}
    (hstage : CloseOk s.out stage) : Routed { s with closes := s.closes.set k stage } := by
  refine ⟨h.ids, h.recorded, h.native, h.lease, h.returns, ?_, h.drains, h.routed, h.recycled⟩
  intro other hother
  rcases List.mem_or_eq_of_mem_set hother with hother | rfl
  · exact h.closes other hother
  · exact hstage

theorem closedOf_subset (owner : AdaptivePoolOwner) (success : Bool) :
    ∀ c ∈ s.closedOf owner success, c ∈ s.out := by
  intro c hc
  unfold closedOf at hc
  split_ifs at hc
  · exact (List.mem_filter.mp hc).1
  · exact hc

theorem closedOf_owner {owner : AdaptivePoolOwner} {success : Bool} (h : success = true) :
    ∀ c ∈ s.closedOf owner success, c.owner ≠ owner := by
  intro c hc
  unfold closedOf at hc
  rw [if_pos h] at hc
  exact of_decide_eq_true (List.mem_filter.mp hc).2

theorem Routed.poolClosed (h : s.Routed) {k : Nat} {success : Bool}
    (hstep : s.poolClosed k success = some s') : s'.Routed := by
  unfold AdaptiveOdbcConnectionPool.poolClosed at hstep
  split at hstep
  · rw [← Option.some.inj hstep]
    exact (h.takeBack (closedOf_subset .native success)).setClose fun hclosed =>
      closedOf_owner hclosed
  · rename_i nativeClosed hstage
    have hnative := h.closes _ (List.mem_of_getElem? hstage)
    rw [← Option.some.inj hstep]
    refine (h.takeBack (closedOf_subset .lease success)).setClose ⟨?_, ?_⟩
    · intro hclosed c hc
      exact hnative hclosed c (closedOf_subset .lease success c hc)
    · exact fun hclosed => closedOf_owner hclosed
  · cases hstep

theorem Routed.closeReturned (h : s.Routed) {k : Nat} (hstep : s.closeReturned k = some s') :
    s'.Routed := by
  unfold AdaptiveOdbcConnectionPool.closeReturned at hstep
  split at hstep
  · rename_i nativeClosed leaseClosed hstage
    obtain ⟨hnative, hlease⟩ := h.closes _ (List.mem_of_getElem? hstage)
    have hended : Routed { s with closes := s.closes.set k .ended } := h.setClose trivial
    split_ifs at hstep with hboth
    · rw [Bool.and_eq_true] at hboth
      -- both pools are closed, so that nothing is out
      have hout : ∀ c ∈ s.out, False := by
        intro c hc
        cases howner : c.owner with
        | native => exact hnative hboth.1 c hc howner
        | lease => exact hlease hboth.2 c hc howner
      rw [← Option.some.inj hstep]
      exact ⟨List.nodup_nil, fun c hc => (hout c hc).elim, rfl, rfl, hended.returns, hended.closes,
        hended.drains, hended.routed, hended.recycled⟩
    · rw [← Option.some.inj hstep]
      exact hended
  · cases hstep

theorem Routed.recycleNext (h : s.Routed) {d : Nat} (hstep : s.recycleNext d = some s') :
    s'.Routed := by
  unfold AdaptiveOdbcConnectionPool.recycleNext at hstep
  split at hstep
  · rename_i owner connectionString rest hsteps
    have hdrain := h.drains _ (List.mem_of_getElem? hsteps)
    have hnone : s.hasOut connectionString = false := by
      unfold hasOut
      rw [List.any_eq_false]
      intro c hc hcs
      exact hdrain (owner, connectionString) (by simp) c hc (of_decide_eq_true hcs)
    rw [← Option.some.inj hstep, hnone]
    refine ⟨h.ids, h.recorded, h.native, h.lease, h.returns, h.closes, ?_, h.routed, h.recycled⟩
    intro steps hmem
    rcases List.mem_or_eq_of_mem_set hmem with hmem | rfl
    · exact h.drains steps hmem
    · exact fun p hp => hdrain p (List.mem_cons_of_mem _ hp)
  · cases hstep

/-! ## Runs -/

theorem Routed.step (h : s.Routed) {e : AdaptivePoolEvent} (hapart : s.Apart e)
    (hstep : (adaptivePool cfg).step s e = some s') : s'.Routed := by
  cases e with
  | acquire connectionString now =>
    rw [← Option.some.inj hstep]
    exact h.keep (sameConnections_acquire connectionString now)
  | resolve now =>
    rw [← Option.some.inj hstep]
    exact h.keep (sameConnections_resolve now)
  | loaded resolved now =>
    simp only [adaptivePool] at hstep
    split_ifs at hstep
    rw [← Option.some.inj hstep]
    exact h.keep (sameConnections_loaded resolved now)
  | loadThrew =>
    simp only [adaptivePool] at hstep
    split_ifs at hstep
    rw [← Option.some.inj hstep]
    exact h.keep ⟨rfl, rfl, rfl, rfl, rfl, rfl, rfl, rfl, rfl⟩
  | choose i now => exact h.keep (sameConnections_choose hstep)
  | granted i id => exact h.keep (sameConnections_granted hstep)
  | handedOut i => exact h.handedOut hapart hstep
  | refused i fallback now => exact h.keep (sameConnections_refused hstep)
  | release id =>
    rw [← Option.some.inj hstep]
    exact h.returnConnection id false
  | discard id =>
    rw [← Option.some.inj hstep]
    exact h.returnConnection id true
  | counted j success => exact h.counted hstep
  | answered j success => exact h.answered hstep
  | returned j => exact h.returned hstep
  | closeAll =>
    rw [← Option.some.inj hstep]
    refine ⟨h.ids, h.recorded, h.native, h.lease, h.returns, ?_, h.drains, h.routed, h.recycled⟩
    intro stage hstage
    rcases List.mem_append.mp hstage with hstage | hstage
    · exact h.closes stage hstage
    · rw [List.mem_singleton.mp hstage]
      trivial
  | poolClosed k success => exact h.poolClosed hstep
  | closeReturned k => exact h.closeReturned hstep
  | recycleNext d => exact h.recycleNext hstep

theorem routed_of_reach (h : (adaptivePool cfg).Reach Apart s) : s.Routed := by
  refine h.invariant ?_ (fun _ _ _ ih hapart hstep => ih.step hapart hstep)
  rintro s rfl
  exact ⟨List.nodup_nil, by simp, rfl, rfl, by simp, by simp, by simp, by simp, rfl⟩

/-- In every run in which connections are handed out when they may be: a connection that is out has
its owner and its connection string recorded, its releases and discards are sent to the pool that
has granted it, the counts are those of the recorded owners, and no connection string was recycled
by a drain while a connection of it was out. -/
theorem adaptive_routing (cfg : AdaptivePoolConfig) {s : AdaptiveOdbcConnectionPool}
    (h : (adaptivePool cfg).Reach Apart s) :
    (∀ c ∈ s.out, s.ownerOf c.connectionId = some c) ∧
      (∀ p ∈ s.routed, p.2 = p.1.owner) ∧
      s.leaseActiveCount = s.countOf .lease ∧ s.nativeActiveCount = s.countOf .native ∧
      s.recycledWhileOut = [] := by
  have hrouted := routed_of_reach h
  exact ⟨fun c hc => hrouted.ownerOf_out hc, hrouted.routed, hrouted.lease, hrouted.native,
    hrouted.recycled⟩

theorem adaptive_start : (adaptivePool {}).start {} := rfl

/-- The pool with its default settings, after a list of events. -/
def afterAdaptive (events : List AdaptivePoolEvent) : AdaptiveOdbcConnectionPool :=
  ((adaptivePool {}).run {} events).getD {}

/-- An acquire of the connection string `d` that the lease pool grants the id. -/
def leased (i : Nat) (id : Text) : List AdaptivePoolEvent :=
  [.acquire ['d'] 0, .loaded none 0, .choose i 0, .granted i id, .handedOut i]

/-- Two connections, of which the first is released. -/
def releasedOne : List AdaptivePoolEvent :=
  leased 0 ['1'] ++ leased 1 ['2'] ++ [.release ['1'], .answered 0 true, .returned 0]

theorem adaptive_routing_releasedOne :
    (∀ c ∈ (afterAdaptive releasedOne).out,
      (afterAdaptive releasedOne).ownerOf c.connectionId = some c) ∧
      (afterAdaptive releasedOne).leaseActiveCount = 1 := by
  have hreach : (adaptivePool {}).Reach Apart (afterAdaptive releasedOne) := by
    refine Machine.Reach.of_run (.start rfl) releasedOne ?_ rfl
    refine ⟨trivial, trivial, trivial, trivial, ?_, trivial, trivial, trivial, trivial, ?_, trivial,
      trivial, trivial, trivial⟩
    all_goals
      intro a owner key id ha hstage
      cases ha
      cases hstage
      exact ⟨by decide, by decide, by decide, by decide⟩
  obtain ⟨hrecorded, -, hlease, -, -⟩ := adaptive_routing {} hreach
  refine ⟨hrecorded, ?_⟩
  rw [hlease]
  decide

/-- The lease pool has taken a connection back and grants its id again before the release comes
back. -/
def grantedBeforeReturned : List AdaptivePoolEvent :=
  leased 0 ['1'] ++ [.release ['1'], .answered 0 true] ++ leased 1 ['1'] ++ [.returned 0]

/-- The configuration changes while a connection is out, and another one of its string is handed
out when the drain has begun. -/
def handedOutDuringDrain : List AdaptivePoolEvent :=
  [.acquire ['d'] 0, .loaded (some ⟨.sybaseAnywhere, ['x']⟩) 0, .choose 0 0, .granted 0 ['1'],
    .handedOut 0, .resolve 20000, .loaded (some ⟨.sybaseAnywhere, ['y']⟩) 20000,
    .release ['1'], .answered 0 true, .returned 0, .acquire ['d'] 20000, .choose 1 20000,
    .granted 1 ['1'], .handedOut 1, .recycleNext 0]

/-- A connection is out without an owner, and its pool counts it; a connection string is recycled
while a connection of it is out. -/
theorem owner_forgotten_or_recycled :
    (∃ s, (adaptivePool {}).Reachable s ∧ s.leaseActiveCount ≠ s.countOf .lease ∧
      ∃ c ∈ s.out, s.ownerOf c.connectionId = none) ∧
      ∃ s, (adaptivePool {}).Reachable s ∧ s.recycledWhileOut = [['d']] := by
  refine ⟨⟨afterAdaptive grantedBeforeReturned, ?_, by decide, ⟨['1'], ['d'], .lease⟩, by decide,
    by decide⟩, afterAdaptive handedOutDuringDrain, ?_, by decide⟩
  · exact Machine.reachable_of_run adaptive_start
      (show (adaptivePool {}).run _ grantedBeforeReturned =
        some (afterAdaptive grantedBeforeReturned) from rfl)
  · exact Machine.reachable_of_run adaptive_start
      (show (adaptivePool {}).run _ handedOutDuringDrain =
        some (afterAdaptive handedOutDuringDrain) from rfl)

end AdaptiveOdbcConnectionPool

end PlugAgente.Pool
