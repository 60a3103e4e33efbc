import PlugAgente.Pool.Permits

/-!
# The limiter of direct connections

`DirectOdbcConnectionLimiter` as a machine.  A call of `acquire` takes a permit of the class
of its operation, then one of the whole limiter, with one deadline for both; a timeout
behind the first permit gives it back.  The two semaphores are those of `Pool.Semaphore`,
with their timers and their continuations, and a call goes on in a turn of its own once the
call of the semaphore that it awaits has returned or thrown.

Calls are named by their positions in `attempts`, and so are the leases that they return.
The caps stay as they were made: `reconfigureMaxConcurrent` is not one of the events.
-/

namespace PlugAgente.Pool

inductive DirectOdbcOperationClass where
  | streaming
  | bulk
  | batchTransaction
  | general
  deriving DecidableEq, Repr

def DirectOdbcOperationClass.fromOperation (operation : String) : DirectOdbcOperationClass :=
  if operation = "streaming_query" then .streaming
  else if operation = "bulk_insert_direct" then .bulk
  else if operation = "batch_transaction" then .batchTransaction
  else .general

/-- `OdbcConnectionConstants.directOdbcOperationClassCap`. -/
def directOdbcOperationClassCap (operationClass : DirectOdbcOperationClass)
    (globalMaxConcurrent : Nat) : Nat :=
  let effectiveGlobal := if globalMaxConcurrent < 1 then 1 else globalMaxConcurrent
  match operationClass with
  | .streaming => max 1 ((effectiveGlobal + 1) / 2)
  | .bulk => max 1 (effectiveGlobal / 2)
  | .batchTransaction => max 1 (effectiveGlobal / 2)
  | .general => effectiveGlobal

theorem directOdbcOperationClassCap_pos (operationClass : DirectOdbcOperationClass)
    (globalMaxConcurrent : Nat) :
    0 < directOdbcOperationClassCap operationClass globalMaxConcurrent := by
  cases operationClass <;> simp only [directOdbcOperationClassCap] <;> split_ifs <;> omega

/-- Where a call of `acquire` stands, with the calls of the semaphores that are its own. -/
inductive AdmissionStage where
  | inClass (call : Nat)
  | inGlobal (classCall call : Nat)
  /-- It has returned a lease; `released` is the flag of the lease. -/
  | leased (classCall call : Nat) (released : Bool)
  /-- It has returned the failure of a timeout. -/
  | timedOut
  deriving DecidableEq, Repr

/-- A call of `acquire`. -/
structure Admission where
  operation : String
  stage : AdmissionStage
  deriving DecidableEq, Repr

namespace Admission

def operationClass (a : Admission) : DirectOdbcOperationClass :=
  .fromOperation a.operation

/-- The call of the semaphore of the class in which the admission waits, or whose permit it
holds. -/
def classCall? (a : Admission) : Option Nat :=
  match a.stage with
  | .inClass call => some call
  | .inGlobal classCall _ => some classCall
  | .leased classCall _ false => some classCall
  | _ => none

/-- Such a call of one class. -/
def callOf? (operationClass : DirectOdbcOperationClass) (a : Admission) : Option Nat :=
  if a.operationClass = operationClass then a.classCall? else none

/-- Such a call of the semaphore of the whole limiter. -/
def globalCall? (a : Admission) : Option Nat :=
  match a.stage with
  | .inGlobal _ call => some call
  | .leased _ call false => some call
  | _ => none

/-- Its lease is outstanding. -/
def isOutstanding (a : Admission) : Bool :=
  match a.stage with
  | .leased _ _ false => true
  | _ => false

end Admission

structure DirectOdbcConnectionLimiter where
  globalSemaphore : Semaphore
  classSemaphores : DirectOdbcOperationClass → Semaphore
  classActiveCounts : DirectOdbcOperationClass → Nat := fun _ => 0
  activeCount : Nat := 0
  openedTotal : Nat := 0
  closedTotal : Nat := 0
  admissions : List Admission := []

/-- The events; a timer or a continuation of a semaphore names its level, which is a class
or the whole limiter. -/
inductive LimiterEvent where
  | acquire (operation : String)
  | expire (level : Option DirectOdbcOperationClass) (call : Nat)
  | resume (level : Option DirectOdbcOperationClass) (call : Nat)
  /-- `acquire` goes on behind the semaphore of the class; is any of the budget left? -/
  | classReturned (admission : Nat) (budgetLeft : Bool)
  /-- `acquire` goes on behind the semaphore of the limiter. -/
  | globalReturned (admission : Nat)
  /-- The holder of a lease calls `release`. -/
  | release (admission : Nat)
  deriving DecidableEq, Repr

namespace DirectOdbcConnectionLimiter

def maxConcurrent (s : DirectOdbcConnectionLimiter) : Nat :=
  s.globalSemaphore.maxConcurrent

/-- The constructor. -/
def make (maxConcurrent : Nat) : DirectOdbcConnectionLimiter where
  globalSemaphore := { maxConcurrent := maxConcurrent }
  classSemaphores operationClass :=
    { maxConcurrent := directOdbcOperationClassCap operationClass maxConcurrent }

/-- Another state of the semaphore of a class. -/
def withClass (s : DirectOdbcConnectionLimiter) (operationClass : DirectOdbcOperationClass)
    (semaphore : Semaphore) : DirectOdbcConnectionLimiter :=
  { s with classSemaphores := Function.update s.classSemaphores operationClass semaphore }

@[simp] theorem withClass_self (s : DirectOdbcConnectionLimiter)
    (c : DirectOdbcOperationClass) (semaphore : Semaphore) :
    (s.withClass c semaphore).classSemaphores c = semaphore :=
  Function.update_self ..

theorem withClass_of_ne (s : DirectOdbcConnectionLimiter) {c d : DirectOdbcOperationClass}
    (h : d ≠ c) (semaphore : Semaphore) :
    (s.withClass c semaphore).classSemaphores d = s.classSemaphores d :=
  Function.update_of_ne h ..

def setStage (s : DirectOdbcConnectionLimiter) (i : Nat) (a : Admission)
    (stage : AdmissionStage) : DirectOdbcConnectionLimiter :=
  { s with admissions := s.admissions.set i { a with stage := stage } }

/-- `acquire`, up to its first `await`. -/
def acquire (s : DirectOdbcConnectionLimiter) (operation : String) :
    DirectOdbcConnectionLimiter :=
  let operationClass := DirectOdbcOperationClass.fromOperation operation
  let classSemaphore := s.classSemaphores operationClass
  { s.withClass operationClass (classSemaphore.acquire true) with
    admissions := s.admissions ++ [⟨operation, .inClass classSemaphore.calls.length⟩] }

/-- The semaphore of a level takes a turn. -/
def turn (s : DirectOdbcConnectionLimiter) (level : Option DirectOdbcOperationClass)
    (f : Semaphore → Option Semaphore) : Option DirectOdbcConnectionLimiter :=
  match level with
  | none => (f s.globalSemaphore).map fun t => { s with globalSemaphore := t }
  | some c => (f (s.classSemaphores c)).map (s.withClass c)

/-- Behind `await classSemaphore.acquire`: the global permit is asked for with what is left
of the budget, and with none left the permit of the class goes back. -/
def classReturned (s : DirectOdbcConnectionLimiter) (i : Nat) (budgetLeft : Bool) :
    Option DirectOdbcConnectionLimiter :=
  match s.admissions[i]? with
  | some ⟨operation, .inClass call⟩ =>
    let a : Admission := ⟨operation, .inClass call⟩
    let classSemaphore := s.classSemaphores a.operationClass
    if classSemaphore.hasReturned call then
      if budgetLeft then
        some { s.setStage i a (.inGlobal call s.globalSemaphore.calls.length) with
          globalSemaphore := s.globalSemaphore.acquire true }
      else some ((s.setStage i a .timedOut).withClass a.operationClass classSemaphore.release)
    else if classSemaphore.hasThrown call then some (s.setStage i a .timedOut)
    else none
  | _ => none

/-- Behind `await _globalSemaphore.acquire`: the lease is counted and returned, or the permit
of the class goes back. -/
def globalReturned (s : DirectOdbcConnectionLimiter) (i : Nat) :
    Option DirectOdbcConnectionLimiter :=
  match s.admissions[i]? with
  | some ⟨operation, .inGlobal classCall call⟩ =>
    let a : Admission := ⟨operation, .inGlobal classCall call⟩
    let c := a.operationClass
    if s.globalSemaphore.hasReturned call then
      some { s.setStage i a (.leased classCall call false) with
        activeCount := s.activeCount + 1
        classActiveCounts := Function.update s.classActiveCounts c (s.classActiveCounts c + 1)
        openedTotal := s.openedTotal + 1 }
    else if s.globalSemaphore.hasThrown call then
      some ((s.setStage i a .timedOut).withClass c (s.classSemaphores c).release)
    else none
  | _ => none

/-- `DirectOdbcConnectionLease.release`, and the `onRelease` of the lease. -/
def release (s : DirectOdbcConnectionLimiter) (i : Nat) : Option DirectOdbcConnectionLimiter :=
  match s.admissions[i]? with
  | some ⟨_, .leased _ _ true⟩ => some s
  | some ⟨operation, .leased classCall call false⟩ =>
    let a : Admission := ⟨operation, .leased classCall call false⟩
    let c := a.operationClass
    let released :=
      (s.setStage i a (.leased classCall call true)).withClass c (s.classSemaphores c).release
    some { released with
      globalSemaphore := s.globalSemaphore.release
      activeCount := if 0 < s.activeCount then s.activeCount - 1 else s.activeCount
      classActiveCounts :=
        if 0 < s.classActiveCounts c then
          Function.update s.classActiveCounts c (s.classActiveCounts c - 1)
        else s.classActiveCounts
      closedTotal := s.closedTotal + 1 }
  | _ => none

/-- Whether an admission holds a permit of its class. -/
def holdsClass (s : DirectOdbcConnectionLimiter) (a : Admission) : Bool :=
  match a.classCall? with
  | some call => (s.classSemaphores a.operationClass).granted call
  | none => false

/-- Whether an admission holds a permit of the whole limiter. -/
def holdsGlobal (s : DirectOdbcConnectionLimiter) (a : Admission) : Bool :=
  match a.globalCall? with
  | some call => s.globalSemaphore.granted call
  | none => false

end DirectOdbcConnectionLimiter

def directLimiter : Machine DirectOdbcConnectionLimiter LimiterEvent where
  start s := ∃ n, 0 < n ∧ s = .make n
  step s
    | .acquire operation => some (s.acquire operation)
    | .expire level call => s.turn level (·.expire call)
    | .resume level call => s.turn level (·.resume call)
    | .classReturned i budgetLeft => s.classReturned i budgetLeft
    | .globalReturned i => s.globalReturned i
    | .release i => s.release i

/-! ## The slots

`Slots` ties the admissions to the two levels of semaphores: the calls that the admissions
stand for are those that the semaphores know of, and an admission that has passed a level
has its permit.  `Counts` are the counters of the limiter, which look at the leases only. -/

namespace DirectOdbcConnectionLimiter

/-- The permits that an admission relies on. -/
def Behind (s : DirectOdbcConnectionLimiter) (a : Admission) : Prop :=
  match a.stage with
  | .inGlobal classCall _ => (s.classSemaphores a.operationClass).granted classCall = true
  | .leased classCall call false =>
    (s.classSemaphores a.operationClass).granted classCall = true ∧
      s.globalSemaphore.granted call = true
  | _ => True

structure Slots (s : DirectOdbcConnectionLimiter) : Prop where
  global : s.globalSemaphore.Accounts (s.admissions.filterMap Admission.globalCall?)
  classes : ∀ c, (s.classSemaphores c).Accounts (s.admissions.filterMap (Admission.callOf? c))
  caps : ∀ c, (s.classSemaphores c).maxConcurrent =
    directOdbcOperationClassCap c s.maxConcurrent
  behind : ∀ (i : Nat) (a : Admission), s.admissions[i]? = some a → s.Behind a

/-- Later, on both levels. -/
structure Later (s t : DirectOdbcConnectionLimiter) : Prop where
  global : s.globalSemaphore.Later t.globalSemaphore
  classes : ∀ c, (s.classSemaphores c).Later (t.classSemaphores c)

theorem Later.behind {s t : DirectOdbcConnectionLimiter} (h : s.Later t) {a : Admission}
    (ha : s.Behind a) : t.Behind a := by
  obtain ⟨operation, stage⟩ := a
  cases stage with
  | inClass call => trivial
  | inGlobal classCall call => exact (h.classes _).kept _ ha
  | leased classCall call released =>
    cases released with
    | true => trivial
    | false => exact ⟨(h.classes _).kept _ ha.1, h.global.kept _ ha.2⟩
  | timedOut => trivial

theorem Later.caps {s t : DirectOdbcConnectionLimiter} (h : s.Later t)
    (hs : ∀ c, (s.classSemaphores c).maxConcurrent =
      directOdbcOperationClassCap c s.maxConcurrent)
    (c : DirectOdbcOperationClass) :
    (t.classSemaphores c).maxConcurrent = directOdbcOperationClassCap c t.maxConcurrent := by
  rw [(h.classes c).maximum, hs c, maxConcurrent, maxConcurrent, h.global.maximum]

theorem Slots.replace {s t : DirectOdbcConnectionLimiter} (h : s.Slots) {i : Nat}
    {a b : Admission} (hi : s.admissions[i]? = some a)
    (hadmissions : t.admissions = s.admissions.set i b)
    (hoperation : b.operationClass = a.operationClass)
    (hothers : ∀ c, c ≠ a.operationClass → t.classSemaphores c = s.classSemaphores c)
    (hclass : ∀ rest, (s.classSemaphores a.operationClass).Accounts
        (a.classCall?.toList ++ rest) →
      (t.classSemaphores a.operationClass).Accounts (b.classCall?.toList ++ rest) ∧
        (s.classSemaphores a.operationClass).Later (t.classSemaphores a.operationClass))
    (hglobal : ∀ rest, s.globalSemaphore.Accounts (a.globalCall?.toList ++ rest) →
      t.globalSemaphore.Accounts (b.globalCall?.toList ++ rest) ∧
        s.globalSemaphore.Later t.globalSemaphore)
    (hbehind : t.Behind b) : t.Slots := by
  have hsplit := fun (f : Admission → Option Nat) => Ledger.filterMap_split f hi
  have hset := fun (f : Admission → Option Nat) => Ledger.filterMap_set f (b := b) hi
  have hown : ∀ x : Admission, x.operationClass = a.operationClass →
      Admission.callOf? a.operationClass x = x.classCall? := fun x hx => if_pos hx
  obtain ⟨hglobal, hlaterGlobal⟩ := hglobal _ (h.global.perm (hsplit _))
  have hclasses : ∀ c,
      (t.classSemaphores c).Accounts (t.admissions.filterMap (Admission.callOf? c)) ∧
        (s.classSemaphores c).Later (t.classSemaphores c) := by
    intro c
    by_cases hc : c = a.operationClass
    · have haccounts := (h.classes a.operationClass).perm (hsplit _)
      rw [hown a rfl] at haccounts
      obtain ⟨hafter, hlater⟩ := hclass _ haccounts
      have hperm := hset (Admission.callOf? a.operationClass)
      rw [hown b hoperation] at hperm
      rw [hc, hadmissions]
      exact ⟨hafter.perm hperm.symm, hlater⟩
    · have haccounts := (h.classes c).perm (hsplit _)
      have hperm := hset (Admission.callOf? c)
      rw [Admission.callOf?, if_neg (fun he => hc he.symm)] at haccounts
      rw [Admission.callOf?, hoperation, if_neg (fun he => hc he.symm)] at hperm
      rw [hothers c hc, hadmissions]
      exact ⟨haccounts.perm hperm.symm, Semaphore.Later.refl _⟩
  have hlater : s.Later t := ⟨hlaterGlobal, fun c => (hclasses c).2⟩
  refine ⟨?_, fun c => (hclasses c).1, hlater.caps h.caps, ?_⟩
  · rw [hadmissions]
    exact hglobal.perm (hset _).symm
  · rw [hadmissions]
    apply Ledger.forall_set
    · intro n c _ hn
      exact hlater.behind (h.behind n c hn)
    · intro _
      exact hbehind

theorem Slots.turn {s s' : DirectOdbcConnectionLimiter} (h : s.Slots)
    {level : Option DirectOdbcOperationClass} {f : Semaphore → Option Semaphore}
    (hf : ∀ u u' live, u.Accounts live → f u = some u' → u'.Accounts live ∧ u.Later u')
    (hstep : s.turn level f = some s') : s'.Slots := by
  cases level with
  | none =>
    rw [DirectOdbcConnectionLimiter.turn, Option.map_eq_some_iff] at hstep
    obtain ⟨u, hu, heq⟩ := hstep
    obtain ⟨haccounts, hlater⟩ := hf _ _ _ h.global hu
    have hboth : s.Later s' := by
      rw [← heq]
      exact ⟨hlater, fun c => Semaphore.Later.refl _⟩
    rw [← heq] at hboth ⊢
    exact ⟨haccounts, h.classes, hboth.caps h.caps, fun n a hn => hboth.behind (h.behind n a hn)⟩
  | some c =>
    rw [DirectOdbcConnectionLimiter.turn, Option.map_eq_some_iff] at hstep
    obtain ⟨u, hu, heq⟩ := hstep
    obtain ⟨haccounts, hlater⟩ := hf _ _ _ (h.classes c) hu
    have hclasses : ∀ d, ((s.withClass c u).classSemaphores d).Accounts
        (s.admissions.filterMap (Admission.callOf? d)) ∧
          (s.classSemaphores d).Later ((s.withClass c u).classSemaphores d) := by
      intro d
      by_cases hd : d = c
      · rw [hd, withClass_self]
        exact ⟨haccounts, hlater⟩
      · rw [withClass_of_ne s hd]
        exact ⟨h.classes d, Semaphore.Later.refl _⟩
    have hboth : s.Later (s.withClass c u) :=
      ⟨Semaphore.Later.refl _, fun d => (hclasses d).2⟩
    rw [← heq]
    exact ⟨h.global, fun d => (hclasses d).1, hboth.caps h.caps,
      fun n a hn => hboth.behind (h.behind n a hn)⟩

theorem Slots.acquire {s : DirectOdbcConnectionLimiter} (h : s.Slots) (operation : String) :
    (s.acquire operation).Slots := by
  let c := DirectOdbcOperationClass.fromOperation operation
  let a : Admission := ⟨operation, .inClass (s.classSemaphores c).calls.length⟩
  obtain ⟨haccounts, hlater⟩ := (h.classes c).acquire true
  have hclasses : ∀ d, ((s.acquire operation).classSemaphores d).Accounts
      ((s.admissions ++ [a]).filterMap (Admission.callOf? d)) ∧
        (s.classSemaphores d).Later ((s.acquire operation).classSemaphores d) := by
    intro d
    rw [List.filterMap_append]
    by_cases hd : d = c
    · have hadded : [a].filterMap (Admission.callOf? d) =
          [(s.classSemaphores c).calls.length] := by
        rw [hd]
        exact List.filterMap_cons_some (if_pos rfl)
      have hsemaphore : (s.acquire operation).classSemaphores d =
          (s.classSemaphores c).acquire true := by
        rw [hd]
        exact withClass_self ..
      rw [hadded, hsemaphore, hd]
      exact ⟨haccounts.perm (List.perm_append_singleton _ _).symm, hlater⟩
    · have hadded : [a].filterMap (Admission.callOf? d) = [] :=
        List.filterMap_cons_none (if_neg (fun he => hd he.symm))
      have hsemaphore : (s.acquire operation).classSemaphores d = s.classSemaphores d :=
        withClass_of_ne s hd _
      rw [hadded, hsemaphore, List.append_nil]
      exact ⟨h.classes d, Semaphore.Later.refl _⟩
  have hboth : s.Later (s.acquire operation) :=
    ⟨Semaphore.Later.refl _, fun d => (hclasses d).2⟩
  refine ⟨?_, fun d => (hclasses d).1, hboth.caps h.caps, ?_⟩
  · show s.globalSemaphore.Accounts ((s.admissions ++ [a]).filterMap Admission.globalCall?)
    have hadded : [a].filterMap Admission.globalCall? = [] := List.filterMap_cons_none rfl
    rw [List.filterMap_append, hadded, List.append_nil]
    exact h.global
  · show ∀ (i : Nat) (b : Admission), (s.admissions ++ [a])[i]? = some b → _
    apply Ledger.forall_concat
    · intro n b hn
      exact hboth.behind (h.behind n b hn)
    · trivial

theorem Slots.classReturned {s s' : DirectOdbcConnectionLimiter} (h : s.Slots) {i : Nat}
    {budgetLeft : Bool} (hstep : s.classReturned i budgetLeft = some s') : s'.Slots := by
  rw [DirectOdbcConnectionLimiter.classReturned] at hstep
  split at hstep
  · rename_i operation call hi
    dsimp only at hstep
    split_ifs at hstep with hreturned hbudget hthrown
    · have hgranted := Semaphore.granted_of_hasReturned hreturned
      rw [← Option.some.inj hstep]
      refine h.replace hi rfl rfl (fun c _ => rfl) ?_ ?_ hgranted
      · intro rest haccounts
        exact ⟨haccounts, Semaphore.Later.refl _⟩
      · intro rest haccounts
        exact haccounts.acquire true
    · have hgranted := Semaphore.granted_of_hasReturned hreturned
      rw [← Option.some.inj hstep]
      refine h.replace hi rfl rfl (fun c hc => withClass_of_ne _ hc _) ?_ ?_ trivial
      · intro rest haccounts
        rw [withClass_self]
        exact haccounts.release hgranted
      · intro rest haccounts
        exact ⟨haccounts, Semaphore.Later.refl _⟩
    · rw [← Option.some.inj hstep]
      refine h.replace hi rfl rfl (fun c _ => rfl) ?_ ?_ trivial
      · intro rest haccounts
        exact ⟨haccounts.drop hthrown, Semaphore.Later.refl _⟩
      · intro rest haccounts
        exact ⟨haccounts, Semaphore.Later.refl _⟩
  · cases hstep

theorem Slots.globalReturned {s s' : DirectOdbcConnectionLimiter} (h : s.Slots) {i : Nat}
    (hstep : s.globalReturned i = some s') : s'.Slots := by
  rw [DirectOdbcConnectionLimiter.globalReturned] at hstep
  split at hstep
  · rename_i operation classCall call hi
    dsimp only at hstep
    have hbehind := h.behind i _ hi
    split_ifs at hstep with hreturned hthrown
    · have hgranted := Semaphore.granted_of_hasReturned hreturned
      rw [← Option.some.inj hstep]
      refine h.replace hi rfl rfl (fun c _ => rfl) ?_ ?_ ⟨hbehind, hgranted⟩
      · intro rest haccounts
        exact ⟨haccounts, Semaphore.Later.refl _⟩
      · intro rest haccounts
        exact ⟨haccounts, Semaphore.Later.refl _⟩
    · rw [← Option.some.inj hstep]
      refine h.replace hi rfl rfl (fun c hc => withClass_of_ne _ hc _) ?_ ?_ trivial
      · intro rest haccounts
        rw [withClass_self]
        exact haccounts.release hbehind
      · intro rest haccounts
        exact ⟨haccounts.drop hthrown, Semaphore.Later.refl _⟩
  · cases hstep

theorem Slots.release {s s' : DirectOdbcConnectionLimiter} (h : s.Slots) {i : Nat}
    (hstep : s.release i = some s') : s'.Slots := by
  rw [DirectOdbcConnectionLimiter.release] at hstep
  split at hstep
  · rw [← Option.some.inj hstep]
    exact h
  · rename_i operation classCall call hi
    obtain ⟨hclass, hglobal⟩ := h.behind i _ hi
    rw [← Option.some.inj hstep]
    refine h.replace hi rfl rfl (fun c hc => withClass_of_ne _ hc _) ?_ ?_ trivial
    · intro rest haccounts
      dsimp only
      rw [withClass_self]
      exact haccounts.release hclass
    · intro rest haccounts
      exact haccounts.release hglobal
  · cases hstep

/-! ## The counters -/

def leasesOf (s : DirectOdbcConnectionLimiter) (c : DirectOdbcOperationClass) : Nat :=
  s.admissions.countP fun a => a.isOutstanding && a.operationClass = c

def leases (s : DirectOdbcConnectionLimiter) : Nat :=
  s.admissions.countP Admission.isOutstanding

structure Counts (s : DirectOdbcConnectionLimiter) : Prop where
  active : s.activeCount = s.leases
  classActive : ∀ c, s.classActiveCounts c = s.leasesOf c

theorem leases_set {s t : DirectOdbcConnectionLimiter} {i : Nat} {a b : Admission}
    (hi : s.admissions[i]? = some a) (hadmissions : t.admissions = s.admissions.set i b) :
    t.leases + (if a.isOutstanding then 1 else 0) =
      s.leases + (if b.isOutstanding then 1 else 0) := by
  rw [leases, leases, hadmissions]
  exact Ledger.countP_set _ hi

theorem leasesOf_set {s t : DirectOdbcConnectionLimiter} {i : Nat} {a b : Admission}
    (hi : s.admissions[i]? = some a) (hadmissions : t.admissions = s.admissions.set i b)
    (hoperation : b.operationClass = a.operationClass) (c : DirectOdbcOperationClass) :
    t.leasesOf c + (if a.isOutstanding && a.operationClass = c then 1 else 0) =
      s.leasesOf c + (if b.isOutstanding && a.operationClass = c then 1 else 0) := by
  rw [leasesOf, leasesOf, hadmissions, ← hoperation]
  have hset := Ledger.countP_set (fun x => x.isOutstanding && x.operationClass = c) (b := b) hi
  rwa [← hoperation] at hset

theorem Counts.setStage {s t : DirectOdbcConnectionLimiter} (h : s.Counts) {i : Nat}
    {a b : Admission} (hi : s.admissions[i]? = some a)
    (hadmissions : t.admissions = s.admissions.set i b)
    (hoperation : b.operationClass = a.operationClass) (hbefore : a.isOutstanding = false)
    (hafter : b.isOutstanding = false) (hactive : t.activeCount = s.activeCount)
    (hclassActive : t.classActiveCounts = s.classActiveCounts) : t.Counts := by
  constructor
  · have hset := leases_set hi hadmissions
    rw [hbefore, hafter] at hset
    rw [hactive, h.active]
    omega
  · intro c
    have hset := leasesOf_set hi hadmissions hoperation c
    rw [hbefore, hafter] at hset
    rw [hclassActive, h.classActive c]
    omega

theorem Counts.classReturned {s s' : DirectOdbcConnectionLimiter} (h : s.Counts) {i : Nat}
    {budgetLeft : Bool} (hstep : s.classReturned i budgetLeft = some s') : s'.Counts := by
  rw [DirectOdbcConnectionLimiter.classReturned] at hstep
  split at hstep
  · rename_i operation call hi
    dsimp only at hstep
    split_ifs at hstep
    · rw [← Option.some.inj hstep]
      exact h.setStage hi rfl rfl rfl rfl rfl rfl
    · rw [← Option.some.inj hstep]
      exact h.setStage hi rfl rfl rfl rfl rfl rfl
    · rw [← Option.some.inj hstep]
      exact h.setStage hi rfl rfl rfl rfl rfl rfl
  · cases hstep

theorem Counts.globalReturned {s s' : DirectOdbcConnectionLimiter} (h : s.Counts) {i : Nat}
    (hstep : s.globalReturned i = some s') : s'.Counts := by
  rw [DirectOdbcConnectionLimiter.globalReturned] at hstep
  split at hstep
  · rename_i operation classCall call hi
    dsimp only at hstep
    split_ifs at hstep
    · let b : Admission := ⟨operation, .leased classCall call false⟩
      have hadmissions : s'.admissions = s.admissions.set i b := by
        rw [← Option.some.inj hstep]
        rfl
      have hclass : s'.classActiveCounts = Function.update s.classActiveCounts b.operationClass
          (s.classActiveCounts b.operationClass + 1) := by
        rw [← Option.some.inj hstep]
        rfl
      have hactive : s'.activeCount = s.activeCount + 1 := by rw [← Option.some.inj hstep]
      constructor
      · have hset := leases_set hi hadmissions
        simp only [b, Admission.isOutstanding, Bool.false_eq_true, if_false, if_true] at hset
        rw [hactive, h.active]
        omega
      · intro c
        have hset := leasesOf_set hi hadmissions rfl c
        have hwas := h.classActive c
        rw [hclass]
        by_cases hc : b.operationClass = c
        · have hsame : Admission.operationClass ⟨operation, .inGlobal classCall call⟩ = c := hc
          simp only [b, Admission.isOutstanding, hsame, Bool.false_and, Bool.true_and,
            Bool.false_eq_true, if_false, if_true, decide_true] at hset
          rw [hc, Function.update_self]
          omega
        · have hother : ¬ Admission.operationClass ⟨operation, .inGlobal classCall call⟩ = c := hc
          simp only [hother, decide_false, Bool.and_false, Bool.false_eq_true, if_false] at hset
          rw [Function.update_of_ne (fun he => hc he.symm)]
          omega
    · rw [← Option.some.inj hstep]
      exact h.setStage hi rfl rfl rfl rfl rfl rfl
  · cases hstep

theorem Counts.release {s s' : DirectOdbcConnectionLimiter} (h : s.Counts) {i : Nat}
    (hstep : s.release i = some s') : s'.Counts := by
  rw [DirectOdbcConnectionLimiter.release] at hstep
  split at hstep
  · rw [← Option.some.inj hstep]
    exact h
  · rename_i operation classCall call hi
    let b : Admission := ⟨operation, .leased classCall call true⟩
    have hadmissions : s'.admissions = s.admissions.set i b := by
      rw [← Option.some.inj hstep]
      rfl
    have hclass : s'.classActiveCounts = if 0 < s.classActiveCounts b.operationClass then
        Function.update s.classActiveCounts b.operationClass
          (s.classActiveCounts b.operationClass - 1) else s.classActiveCounts := by
      rw [← Option.some.inj hstep]
      rfl
    have hactive : s'.activeCount =
        if 0 < s.activeCount then s.activeCount - 1 else s.activeCount := by
      rw [← Option.some.inj hstep]
    constructor
    · have hset := leases_set hi hadmissions
      have hwas := h.active
      simp only [b, Admission.isOutstanding, Bool.false_eq_true, if_false, if_true] at hset
      rw [hactive]
      split_ifs <;> omega
    · intro c
      have hset := leasesOf_set hi hadmissions rfl c
      have hwas := h.classActive c
      rw [hclass]
      by_cases hc : b.operationClass = c
      · have hsame : Admission.operationClass ⟨operation, .leased classCall call false⟩ = c := hc
        simp only [b, Admission.isOutstanding, hsame, Bool.false_and, Bool.true_and,
          Bool.false_eq_true, if_false, if_true, decide_true] at hset
        rw [hc, if_pos (by omega), Function.update_self]
        omega
      · have hother : ¬ Admission.operationClass ⟨operation, .leased classCall call false⟩ = c :=
          hc
        simp only [hother, decide_false, Bool.and_false, Bool.false_eq_true, if_false] at hset
        split_ifs
        · rw [Function.update_of_ne (fun he => hc he.symm)]
          omega
        · omega
  · cases hstep

theorem Counts.acquire {s : DirectOdbcConnectionLimiter} (h : s.Counts) (operation : String) :
    (s.acquire operation).Counts := by
  constructor
  · show s.activeCount = (s.admissions ++ [_]).countP Admission.isOutstanding
    rw [List.countP_append, h.active]
    rfl
  · intro c
    show s.classActiveCounts c =
      (s.admissions ++ [_]).countP fun a : Admission => a.isOutstanding && a.operationClass = c
    rw [List.countP_append, h.classActive c]
    rfl

theorem Counts.turn {s s' : DirectOdbcConnectionLimiter} (h : s.Counts)
    {level : Option DirectOdbcOperationClass} {f : Semaphore → Option Semaphore}
    (hstep : s.turn level f = some s') : s'.Counts := by
  cases level with
  | none =>
    rw [DirectOdbcConnectionLimiter.turn, Option.map_eq_some_iff] at hstep
    obtain ⟨u, _, heq⟩ := hstep
    rw [← heq]
    exact ⟨h.active, h.classActive⟩
  | some c =>
    rw [DirectOdbcConnectionLimiter.turn, Option.map_eq_some_iff] at hstep
    obtain ⟨u, _, heq⟩ := hstep
    rw [← heq]
    exact ⟨h.active, h.classActive⟩

/-! ## Every reachable state -/

structure Inv (s : DirectOdbcConnectionLimiter) : Prop where
  slots : s.Slots
  counts : s.Counts

theorem Inv.step {s s' : DirectOdbcConnectionLimiter} (h : s.Inv) {e : LimiterEvent}
    (hstep : directLimiter.step s e = some s') : s'.Inv := by
  cases e with
  | acquire operation =>
    rw [← Option.some.inj hstep]
    exact ⟨h.slots.acquire operation, h.counts.acquire operation⟩
  | expire level call =>
    have hturn : s.turn level (·.expire call) = some s' := hstep
    exact ⟨h.slots.turn (fun u u' live hu he => hu.expire he) hturn, h.counts.turn hturn⟩
  | resume level call =>
    have hturn : s.turn level (·.resume call) = some s' := hstep
    exact ⟨h.slots.turn (fun u u' live hu he => hu.resume he) hturn, h.counts.turn hturn⟩
  | classReturned i budgetLeft =>
    exact ⟨h.slots.classReturned hstep, h.counts.classReturned hstep⟩
  | globalReturned i => exact ⟨h.slots.globalReturned hstep, h.counts.globalReturned hstep⟩
  | release i => exact ⟨h.slots.release hstep, h.counts.release hstep⟩

theorem inv_of_reachable {s : DirectOdbcConnectionLimiter} (h : directLimiter.Reachable s) :
    s.Inv := by
  refine h.invariant ?_ fun s e s' hs _ hstep => hs.step hstep
  intro s hstart
  obtain ⟨n, hn, heq⟩ := hstart
  subst heq
  refine ⟨⟨?_, ?_, fun c => rfl, ?_⟩, rfl, fun c => rfl⟩
  · exact Semaphore.accounts_new hn
  · intro c
    exact Semaphore.accounts_new (directOdbcOperationClassCap_pos c n)
  · intro i a hi
    cases hi

theorem Slots.globalActive {s : DirectOdbcConnectionLimiter} (h : s.Slots) :
    s.globalSemaphore.activeCount = s.admissions.countP s.holdsGlobal := by
  rw [h.global.count, List.countP_filterMap]
  apply List.countP_congr
  intro a _
  rw [holdsGlobal]
  cases a.globalCall? <;> rfl

theorem Slots.classActive {s : DirectOdbcConnectionLimiter} (h : s.Slots)
    (c : DirectOdbcOperationClass) :
    (s.classSemaphores c).activeCount =
      s.admissions.countP fun a => a.operationClass = c && s.holdsClass a := by
  rw [(h.classes c).count, List.countP_filterMap]
  apply List.countP_congr
  intro a _
  rw [Admission.callOf?, holdsClass]
  split_ifs with hc
  · rw [hc]
    cases a.classCall? <;> simp
  · simp [hc]

theorem Slots.holds {s : DirectOdbcConnectionLimiter} (h : s.Slots) {a : Admission}
    (ha : a ∈ s.admissions) (hout : a.isOutstanding = true) :
    s.holdsGlobal a = true ∧ s.holdsClass a = true := by
  obtain ⟨i, hi⟩ := List.mem_iff_getElem?.mp ha
  have hbehind := h.behind i a hi
  rw [Admission.isOutstanding] at hout
  split at hout
  · rename_i classCall call hstage
    rw [Behind, hstage] at hbehind
    simp only [holdsGlobal, holdsClass, Admission.globalCall?, Admission.classCall?, hstage]
    exact ⟨hbehind.2, hbehind.1⟩
  · cases hout

theorem Slots.leases_le {s : DirectOdbcConnectionLimiter} (h : s.Slots) :
    s.leases ≤ s.globalSemaphore.activeCount := by
  rw [h.globalActive]
  exact List.countP_mono_left fun a ha hout => (h.holds ha hout).1

theorem Slots.leasesOf_le {s : DirectOdbcConnectionLimiter} (h : s.Slots)
    (c : DirectOdbcOperationClass) : s.leasesOf c ≤ (s.classSemaphores c).activeCount := by
  rw [h.classActive]
  apply List.countP_mono_left
  intro a ha hout
  rw [Bool.and_eq_true] at hout ⊢
  exact ⟨hout.2, (h.holds ha hout.1).2⟩

theorem release_twice {s s' : DirectOdbcConnectionLimiter} {i : Nat}
    (hstep : s.release i = some s') : s'.release i = some s' := by
  rw [release] at hstep
  split at hstep
  · rename_i hi
    rw [← Option.some.inj hstep, release, hi]
  · rename_i operation classCall call hi
    have hlt : i < s.admissions.length := (List.getElem?_eq_some_iff.mp hi).1
    have hreleased : s'.admissions[i]? = some ⟨operation, .leased classCall call true⟩ := by
      rw [← Option.some.inj hstep]
      exact List.getElem?_set_self hlt
    rw [release, hreleased]
  · cases hstep

end DirectOdbcConnectionLimiter

open DirectOdbcConnectionLimiter in
/-- In every reachable state of the limiter: the counters are the numbers of the outstanding
leases, of all and of each class; on both levels the leases are within the permits that are
out, and these within the cap; the permits that are out are those that some admission holds,
and the calls that wait are those of admissions, so that an admission that has timed out
holds and awaits nothing on either level; and releasing a lease once more changes nothing. -/
theorem admissions_counted {s : DirectOdbcConnectionLimiter} (h : directLimiter.Reachable s) :
    (s.activeCount = s.leases ∧ ∀ c, s.classActiveCounts c = s.leasesOf c) ∧
      (s.leases ≤ s.globalSemaphore.activeCount ∧
        s.globalSemaphore.activeCount ≤ s.maxConcurrent) ∧
      (∀ c, s.leasesOf c ≤ (s.classSemaphores c).activeCount ∧
        (s.classSemaphores c).activeCount ≤ directOdbcOperationClassCap c s.maxConcurrent) ∧
      (s.globalSemaphore.activeCount = s.admissions.countP s.holdsGlobal ∧
        ∀ c, (s.classSemaphores c).activeCount =
          s.admissions.countP fun a => a.operationClass = c && s.holdsClass a) ∧
      ((∀ k ∈ s.globalSemaphore.waitQueue, ∃ a ∈ s.admissions, a.globalCall? = some k) ∧
        ∀ c, ∀ k ∈ (s.classSemaphores c).waitQueue,
          ∃ a ∈ s.admissions, a.operationClass = c ∧ a.classCall? = some k) ∧
      (∀ a ∈ s.admissions, a.stage = .timedOut →
        (a.classCall? = none ∧ s.holdsClass a = false) ∧
          a.globalCall? = none ∧ s.holdsGlobal a = false) ∧
      ∀ i s', directLimiter.step s (.release i) = some s' →
        directLimiter.step s' (.release i) = some s' := by
  have hinv := inv_of_reachable h
  have hslots := hinv.slots
  refine ⟨⟨hinv.counts.active, hinv.counts.classActive⟩,
    ⟨hslots.leases_le, hslots.global.room⟩, ?_,
    ⟨hslots.globalActive, hslots.classActive⟩, ⟨?_, ?_⟩, ?_, ?_⟩
  · intro c
    refine ⟨hslots.leasesOf_le c, ?_⟩
    rw [← hslots.caps c]
    exact (hslots.classes c).room
  · intro k hk
    exact List.mem_filterMap.mp (hslots.global.waits k hk)
  · intro c k hk
    obtain ⟨a, ha, hcall⟩ := List.mem_filterMap.mp ((hslots.classes c).waits k hk)
    rw [Admission.callOf?] at hcall
    split_ifs at hcall with hc
    exact ⟨a, ha, hc, hcall⟩
  · intro a _ hstage
    simp [holdsClass, holdsGlobal, Admission.classCall?, Admission.globalCall?, hstage]
  · intro i s' hstep
    exact release_twice hstep

/-- Two bulk inserts on a limiter of two, whose class has room for one: the second is refused
by its timer. -/
def crowdedBulk : List LimiterEvent :=
  [.acquire "bulk_insert_direct", .classReturned 0 true, .globalReturned 0,
    .acquire "bulk_insert_direct", .expire (some .bulk) 1, .resume (some .bulk) 1,
    .classReturned 1 true]

/-- One lease is out, and the admission that has timed out holds nothing. -/
theorem admissions_counted_crowdedBulk :
    ∃ s, directLimiter.run (.make 2) crowdedBulk = some s ∧ s.leases = 1 ∧
      s.activeCount = s.leases := by
  refine ⟨_, rfl, rfl, ?_⟩
  exact (admissions_counted (@Machine.reachable_of_run _ _ directLimiter _ _
    ⟨2, by decide, rfl⟩ crowdedBulk rfl)).1.1

end PlugAgente.Pool
