import PlugAgente.Operation.Session

/-!
# Sessions are serial and single-use

Whatever the caller asks for and whenever the native calls settle, at most one call is
running on the connection, nothing but the disconnect follows a commit or a rollback, and
the lease is released once, after everything has settled (`session_serial`).

The code keeps track of one call that may be running: the connect, the tracked action, the
pending call, or what the cleanup waits for.  `watched` is that call, and `Inv.only` says
that no other call is running.  `Ends` is the part of the invariant that a state has on the
way to its cleanup, when the code has given up the connection and not yet started to
disconnect.
-/

namespace PlugAgente.Operation.Native

namespace State

/-! ## The invariant -/

/-- The call that may still be running, as far as the code knows. -/
def watched (s : State) : Option Nat :=
  match s.cleanup with
  | .lateConnect k | .waiting k | .disconnecting k => some k
  | .done => none
  | .idle =>
    match s.stage with
    | .connecting k => some k
    | .opening awaited => awaited
    | .session => s.pending
    | .acquiring | .refused => none

/-- What was started, and in which order. -/
structure History (s : State) : Prop where
  /-- A call of the session that is awaited is the pending one. -/
  awaited : ∀ (k : Nat) (c : Call), s.calls[k]? = some c → c.kind.inSession = true →
    c.resumed = false → s.pending = some k
  early : s.stage ≠ .session →
    s.closed = false ∧ s.completionStarted = false ∧ ∀ c ∈ s.calls, c.kind.inSession = false
  unleased : s.leased = false → s.stage = .acquiring ∨ s.stage = .refused
  acquiring : s.stage = .acquiring → s.leased = false
  unstarted : s.completionStarted = false → ∀ c ∈ s.calls, c.kind.completes = false
  serial : ∀ (i j : Nat) (c d : Call), i < j → s.calls[i]? = some c → s.calls[j]? = some d →
    c.kind.completes = true → d.kind = .disconnect

/-- No call but `target` is running. -/
structure Runs (calls : List Call) (target : Option Nat) : Prop where
  only : ∀ (k : Nat) (c : Call), calls[k]? = some c → c.settled = false → target = some k
  bound : ∀ k : Nat, target = some k → k < calls.length

/-- What holds of every state. -/
structure Inv (s : State) : Prop where
  history : s.History
  runs : Runs s.calls s.watched
  connecting : s.stage = .acquiring ∨ (∃ k, s.stage = .connecting k) → s.pending = none
  opening : ∀ awaited, s.stage = .opening awaited → s.pending = awaited
  ended : s.cleanup ≠ .idle ↔ s.closed = true ∨ (s.stage = .refused ∧ s.leased = true)
  released : s.released = if s.cleanup = .done then 1 else 0

/-- What holds of a state that has given up its connection. -/
structure Ends (s : State) (target : Option Nat) : Prop where
  history : s.History
  runs : Runs s.calls target
  gone : s.closed = true ∨ (s.stage = .refused ∧ s.leased = true)
  unreleased : s.released = 0

theorem Inv.initial : Inv {} := by
  refine ⟨⟨?_, ?_, ?_, ?_, ?_, ?_⟩, ⟨?_, ?_⟩, ?_, ?_, ?_, ?_⟩ <;> simp [watched]

/-! ## Starting and settling -/

theorem getElem?_start {s : State} {kind : Kind} {k : Nat} {c : Call}
    (h : (s.start kind).calls[k]? = some c) :
    (k < s.calls.length ∧ s.calls[k]? = some c) ∨ (k = s.calls.length ∧ c = { kind := kind }) := by
  rw [start, List.getElem?_append] at h
  split at h
  · exact .inl ⟨by assumption, h⟩
  · obtain ⟨hk, hc⟩ := List.getElem?_eq_some_iff.mp h
    have hk : k - s.calls.length < 1 := by simpa using hk
    refine .inr ⟨by omega, ?_⟩
    simpa using hc.symm

theorem mem_start {s : State} {kind : Kind} {c : Call} (h : c ∈ (s.start kind).calls) :
    c ∈ s.calls ∨ c = { kind := kind } := by
  simpa [start] using h

theorem Runs.isSettled {s : State} {k : Nat} (h : Runs s.calls (some k))
    (hk : s.isSettled k = true) : Runs s.calls none := by
  constructor
  · intro j c hc hsettled
    have hjk : some k = some j := h.only j c hc hsettled
    rw [Option.some.inj hjk, State.isSettled, hc] at hk
    simp [hsettled] at hk
  · intro j hj
    cases hj

theorem Runs.start {s : State} (h : Runs s.calls none) (kind : Kind) :
    Runs (s.start kind).calls (some s.calls.length) := by
  constructor
  · intro k c hc hsettled
    rcases getElem?_start hc with ⟨-, hold⟩ | ⟨hk, -⟩
    · cases h.only k c hold hsettled
    · rw [hk]
  · intro k hk
    rw [← Option.some.inj hk]
    simp [State.start]

theorem Runs.append_settled {calls : List Call} (h : Runs calls none) {c : Call}
    (hc : c.settled = true) : Runs (calls ++ [c]) none := by
  obtain ⟨honly, -⟩ := h
  constructor <;> grind

theorem History.disconnectNow {s : State} (h : s.History) : s.disconnectNow.History := by
  constructor
  · intro k c hc hkind hresumed
    rcases getElem?_start hc with ⟨-, hold⟩ | ⟨-, hnew⟩
    · exact h.awaited k c hold hkind hresumed
    · rw [hnew] at hkind
      cases hkind
  · intro hstage
    obtain ⟨hclosed, hstarted, hcalls⟩ := h.early hstage
    refine ⟨hclosed, hstarted, ?_⟩
    intro c hc
    rcases mem_start hc with hold | hnew
    · exact hcalls c hold
    · rw [hnew]
      rfl
  · exact h.unleased
  · exact h.acquiring
  · intro hstarted c hc
    rcases mem_start hc with hold | hnew
    · exact h.unstarted hstarted c hold
    · rw [hnew]
      rfl
  · intro i j c d hij hc hd hcompletes
    rcases getElem?_start hd with ⟨hj, hold⟩ | ⟨-, hnew⟩
    · rcases getElem?_start hc with ⟨-, hold'⟩ | ⟨hi, -⟩
      · exact h.serial i j c d hij hold' hold hcompletes
      · omega
    · rw [hnew]

theorem History.withCleanup {s : State} (h : s.History) (cleanup : Cleanup) (released : Nat) :
    History { s with cleanup := cleanup, released := released } :=
  ⟨h.awaited, h.early, h.unleased, h.acquiring, h.unstarted, h.serial⟩

/-! ## The cleanup -/

theorem Ends.isSettled {s : State} {k : Nat} (h : s.Ends (some k)) (hk : s.isSettled k = true) :
    s.Ends none :=
  ⟨h.history, h.runs.isSettled hk, h.gone, h.unreleased⟩

theorem Ends.stage {s : State} {target : Option Nat} (h : s.Ends target) :
    s.stage = .session ∨ s.stage = .refused := by
  rcases h.gone with hclosed | ⟨hrefused, -⟩
  · by_contra hne
    have hopen := (h.history.early fun hsession => hne (.inl hsession)).1
    rw [hclosed] at hopen
    cases hopen
  · exact .inr hrefused

theorem Ends.not_opening {s : State} {target : Option Nat} (h : s.Ends target)
    (awaited : Option Nat) : s.stage ≠ .opening awaited := by
  intro hstage
  rcases h.stage with hs | hs <;> simp [hstage] at hs

theorem Ends.not_connecting {s : State} {target : Option Nat} (h : s.Ends target) :
    ¬ (s.stage = .acquiring ∨ ∃ k, s.stage = .connecting k) := by
  rintro (hstage | ⟨k, hstage⟩)
  · rcases h.stage with hs | hs <;> simp [hstage] at hs
  · rcases h.stage with hs | hs <;> simp [hstage] at hs

theorem Ends.disconnectNow {s : State} (h : s.Ends none) : s.disconnectNow.Inv where
  history := h.history.disconnectNow
  runs := h.runs.start .disconnect
  connecting hstage := absurd hstage h.not_connecting
  opening awaited hstage := absurd hstage (h.not_opening awaited)
  ended := ⟨fun _ => h.gone, fun _ => by simp [State.disconnectNow]⟩
  released := h.unreleased

theorem Ends.releaseLease {s : State} (h : s.Ends none) : s.releaseLease.Inv where
  history := h.history.withCleanup _ _
  runs := h.runs
  connecting hstage := absurd hstage h.not_connecting
  opening awaited hstage := absurd hstage (h.not_opening awaited)
  ended := ⟨fun _ => h.gone, fun _ => by simp [State.releaseLease]⟩
  released := by simp [State.releaseLease, h.unreleased]

/-- The disconnect waits for the call that may be running. -/
theorem Ends.waiting {s : State} {k : Nat} (h : s.Ends (some k)) :
    Inv { s with cleanup := .waiting k } where
  history := h.history.withCleanup _ _
  runs := h.runs
  connecting hstage := absurd hstage h.not_connecting
  opening awaited hstage := absurd hstage (h.not_opening awaited)
  ended := ⟨fun _ => h.gone, fun _ => by simp⟩
  released := h.unreleased

theorem Ends.disconnectLater {s : State} (h : s.Ends s.pending) : s.disconnectLater.Inv := by
  rw [State.disconnectLater]
  split
  · rename_i hpending
    rw [hpending] at h
    exact h.disconnectNow
  · rename_i k hpending
    rw [hpending] at h
    exact h.waiting

theorem Inv.ends {s : State} (h : s.Inv) {k : Nat} (hcleanup : s.cleanup = .lateConnect k ∨
    s.cleanup = .waiting k ∨ s.cleanup = .disconnecting k) : s.Ends (some k) where
  history := h.history
  runs := by
    have hruns := h.runs
    rcases hcleanup with hc | hc | hc <;> rwa [watched, hc] at hruns
  gone := h.ended.mp (by rcases hcleanup with hc | hc | hc <;> simp [hc])
  unreleased := by
    rw [h.released]
    rcases hcleanup with hc | hc | hc <;> simp [hc]

theorem Inv.lateConnected {s s' : State} {ok : Bool} (h : s.Inv)
    (he : s.step (.lateConnected ok) = some s') : s'.Inv := by
  rw [step] at he
  split at he
  · rename_i k hcleanup
    split at he
    · rename_i hsettled
      cases he
      have hends := h.ends (.inl hcleanup)
      split
      · exact (hends.isSettled hsettled).disconnectNow
      · exact (hends.isSettled hsettled).releaseLease
    · cases he
  · cases he

theorem Inv.disconnect {s s' : State} (h : s.Inv) (he : s.step .disconnect = some s') :
    s'.Inv := by
  rw [step] at he
  split at he
  · rename_i k hcleanup
    split at he
    · rename_i hsettled
      cases he
      have hends := h.ends (.inr (.inl hcleanup))
      exact (hends.isSettled hsettled).disconnectNow
    · cases he
  · cases he

theorem Inv.release {s s' : State} (h : s.Inv) (he : s.step .release = some s') : s'.Inv := by
  rw [step] at he
  split at he
  · rename_i k hcleanup
    split at he
    · rename_i hsettled
      cases he
      have hends := h.ends (.inr (.inr hcleanup))
      exact (hends.isSettled hsettled).releaseLease
    · cases he
  · cases he

/-! ## Native calls settle -/

theorem History.set {s : State} (h : s.History) {k : Nat} {c c' : Call}
    (hc : s.calls[k]? = some c) (hkind : c'.kind = c.kind)
    (hresumed : c'.resumed = false → c.resumed = false) :
    History { s with calls := s.calls.set k c' } := by
  obtain ⟨hawaited, hearly, hunleased, hacquiring, hunstarted, hserial⟩ := h
  constructor <;> grind

theorem Runs.set {calls : List Call} {target : Option Nat} (h : Runs calls target) {k : Nat}
    {c c' : Call} (hc : calls[k]? = some c) (hsettled : c'.settled = false → c.settled = false) :
    Runs (calls.set k c') target := by
  obtain ⟨honly, hbound⟩ := h
  constructor <;> grind

theorem Inv.set {s : State} (h : s.Inv) {k : Nat} {c c' : Call} (hc : s.calls[k]? = some c)
    (hkind : c'.kind = c.kind) (hresumed : c'.resumed = false → c.resumed = false)
    (hsettled : c'.settled = false → c.settled = false) :
    Inv { s with calls := s.calls.set k c' } where
  history := h.history.set hc hkind hresumed
  runs := h.runs.set hc hsettled
  connecting := h.connecting
  opening := h.opening
  ended := h.ended
  released := h.released

theorem Inv.settle {s s' : State} {k : Nat} (h : s.Inv) (he : s.step (.settle k) = some s') :
    s'.Inv := by
  rw [step] at he
  split at he
  · rename_i c hc
    split at he
    · cases he
    · cases he
      exact h.set hc rfl id fun hsettled => by cases hsettled
  · cases he

theorem Inv.next {s s' : State} {k : Nat} (h : s.Inv) (he : s.step (.next k) = some s') :
    s'.Inv := by
  rw [step] at he
  split at he
  · rename_i c hc
    split at he
    · cases he
    · cases he
      exact h.set hc rfl id id
  · cases he

/-! ## The factory -/

theorem History.ofEarly {s : State} (hcalls : ∀ c ∈ s.calls, c.kind.inSession = false)
    (hclosed : s.closed = false) (hstarted : s.completionStarted = false)
    (hunleased : s.leased = false → s.stage = .acquiring ∨ s.stage = .refused)
    (hacquiring : s.stage = .acquiring → s.leased = false) : s.History := by
  have hcompletes : ∀ c ∈ s.calls, c.kind.completes = false := by
    intro c hc
    have hsession := hcalls c hc
    cases hk : c.kind <;> simp_all [Kind.completes, Kind.inSession]
  refine ⟨?_, fun _ => ⟨hclosed, hstarted, hcalls⟩, hunleased, hacquiring,
    fun _ => hcompletes, ?_⟩
  · intro k c hc hsession
    rw [hcalls c (List.mem_of_getElem? hc)] at hsession
    cases hsession
  · intro i j c d hij hc hd hcompletes'
    rw [hcompletes c (List.mem_of_getElem? hc)] at hcompletes'
    cases hcompletes'

theorem History.toStage {s : State} (h : s.History) (hstage : s.stage ≠ .session)
    (hleased : s.leased = true) {stage : Stage} (hnew : stage ≠ .acquiring) (cleanup : Cleanup)
    (pending : Option Nat) :
    History { s with stage := stage, cleanup := cleanup, pending := pending } := by
  obtain ⟨hclosed, hstarted, hcalls⟩ := h.early hstage
  refine History.ofEarly hcalls hclosed hstarted ?_ ?_
  · intro hfalse
    rw [show s.leased = false from hfalse] at hleased
    cases hleased
  · intro hacquiring
    exact absurd hacquiring hnew

theorem History.startEarly {s : State} (h : s.History) (hstage : s.stage ≠ .session) {kind : Kind}
    (hkind : kind.inSession = false) {stage : Stage} (hnew : stage ≠ .acquiring)
    (pending : Option Nat) :
    History { s.start kind with stage := stage, pending := pending, leased := true } := by
  obtain ⟨hclosed, hstarted, hcalls⟩ := h.early hstage
  refine History.ofEarly ?_ hclosed hstarted ?_ ?_
  · intro c hc
    rcases mem_start hc with hold | hnew
    · exact hcalls c hold
    · rw [hnew]
      exact hkind
  · intro hfalse
    cases hfalse
  · intro hacquiring
    exact absurd hacquiring hnew

theorem Inv.idle {s : State} (h : s.Inv) (hclosed : s.closed = false) (hstage : s.stage ≠ .refused) :
    s.cleanup = .idle := by
  by_contra hne
  rcases h.ended.mp hne with hc | ⟨hc, -⟩
  · rw [hclosed] at hc
    cases hc
  · exact hstage hc

theorem Inv.leased {s : State} (h : s.Inv) (hacquiring : s.stage ≠ .acquiring)
    (hrefused : s.stage ≠ .refused) : s.leased = true := by
  by_contra hne
  rcases h.history.unleased (by simpa using hne) with hc | hc
  · exact hacquiring hc
  · exact hrefused hc

theorem Inv.inOpen {s : State} (h : s.Inv) (hsession : s.stage ≠ .session)
    (hrefused : s.stage ≠ .refused) :
    s.closed = false ∧ s.cleanup = .idle ∧ s.released = 0 := by
  obtain ⟨hclosed, -, -⟩ := h.history.early hsession
  have hidle := h.idle hclosed hrefused
  refine ⟨hclosed, hidle, ?_⟩
  rw [h.released, hidle]
  rfl

theorem Inv.atWork {s : State} (h : s.Inv) {target : Option Nat}
    (hstage : (∃ k, s.stage = .connecting k ∧ target = some k) ∨ s.stage = .opening target) :
    s.stage ≠ .session ∧ s.stage ≠ .refused ∧ s.leased = true ∧ Runs s.calls target := by
  have hsession : s.stage ≠ .session := by
    rcases hstage with ⟨k, hk, -⟩ | hk <;> simp [hk]
  have hrefused : s.stage ≠ .refused := by
    rcases hstage with ⟨k, hk, -⟩ | hk <;> simp [hk]
  have hacquiring : s.stage ≠ .acquiring := by
    rcases hstage with ⟨k, hk, -⟩ | hk <;> simp [hk]
  refine ⟨hsession, hrefused, h.leased hacquiring hrefused, ?_⟩
  have hruns := h.runs
  rw [watched, (h.inOpen hsession hrefused).2.1] at hruns
  rcases hstage with ⟨k, hk, rfl⟩ | hk <;> rwa [hk] at hruns

theorem Inv.refused {s : State} (h : s.Inv) (hsession : s.stage ≠ .session)
    (hrefused : s.stage ≠ .refused) {target : Option Nat} (hruns : Runs s.calls target)
    (pending : Option Nat) (leased : Bool) (hleased : leased = true) :
    Ends { s with stage := .refused, pending := pending, leased := leased } target := by
  obtain ⟨hclosed, hstarted, hcalls⟩ := h.history.early hsession
  refine ⟨?_, hruns, .inr ⟨rfl, hleased⟩, (h.inOpen hsession hrefused).2.2⟩
  refine History.ofEarly hcalls hclosed hstarted (fun _ => .inr rfl) ?_
  intro hacquiring
  cases hacquiring

theorem Inv.toStage {s : State} (h : s.Inv) (hsession : s.stage ≠ .session)
    (hrefused : s.stage ≠ .refused) (hleased : s.leased = true) (hruns : Runs s.calls none)
    {stage : Stage} (hnew : stage = .opening none ∨ stage = .session) :
    Inv { s with stage := stage, pending := none } := by
  obtain ⟨hclosed, hidle, hreleased⟩ := h.inOpen hsession hrefused
  refine ⟨h.history.toStage hsession hleased ?_ _ _, ?_, fun _ => rfl, ?_, ?_, ?_⟩
  · rcases hnew with rfl | rfl <;> simp
  · rcases hnew with rfl | rfl <;> simpa [watched, hidle] using hruns
  · intro awaited hopening
    rcases hnew with rfl | rfl <;> cases hopening
    rfl
  · rcases hnew with rfl | rfl <;> simp [hidle, hclosed]
  · simpa [hidle] using hreleased

theorem Inv.startEarly {s : State} (h : s.Inv) (hsession : s.stage ≠ .session)
    (hrefused : s.stage ≠ .refused) (hruns : Runs s.calls none) {kind : Kind}
    (hkind : kind.inSession = false) {stage : Stage} {pending : Option Nat}
    (hnew : (stage = .connecting s.calls.length ∧ pending = none) ∨
      (stage = .opening (some s.calls.length) ∧ pending = some s.calls.length)) :
    Inv { s.start kind with stage := stage, pending := pending, leased := true } := by
  obtain ⟨hclosed, hidle, hreleased⟩ := h.inOpen hsession hrefused
  refine ⟨h.history.startEarly hsession hkind ?_ _, ?_, ?_, ?_, ?_, ?_⟩
  · rcases hnew with ⟨rfl, -⟩ | ⟨rfl, -⟩ <;> simp
  · have hstart := hruns.start kind
    rcases hnew with ⟨rfl, -⟩ | ⟨rfl, -⟩ <;> simpa [watched, hidle, State.start] using hstart
  · rcases hnew with ⟨rfl, rfl⟩ | ⟨rfl, rfl⟩ <;> simp
  · rcases hnew with ⟨rfl, rfl⟩ | ⟨rfl, rfl⟩ <;> simp
  · rcases hnew with ⟨rfl, -⟩ | ⟨rfl, -⟩ <;> simp [State.start, hidle, hclosed]
  · simpa [State.start, hidle] using hreleased

theorem Inv.acquired {s s' : State} {leased connects : Bool} (h : s.Inv)
    (he : s.step (.acquired leased connects) = some s') : s'.Inv := by
  rw [step] at he
  split at he
  · rename_i hstage
    have hsession : s.stage ≠ .session := by simp [hstage]
    have hrefused : s.stage ≠ .refused := by simp [hstage]
    obtain ⟨hclosed, hidle, hreleased⟩ := h.inOpen hsession hrefused
    have hruns : Runs s.calls none := by
      have hruns := h.runs
      rwa [watched, hidle, hstage] at hruns
    split at he
    · cases he
      obtain ⟨-, hstarted, hcalls⟩ := h.history.early hsession
      have hunleased := h.history.acquiring hstage
      refine ⟨?_, ?_, ?_, ?_, ?_, ?_⟩
      · exact History.ofEarly hcalls hclosed hstarted (fun _ => .inr rfl) fun hc => by cases hc
      · simpa [watched, hidle] using hruns
      · simp
      · intro awaited hopening
        cases hopening
      · simp [hidle, hclosed, hunleased]
      · simpa [hidle] using hreleased
    · split at he
      · cases he
        have hpending := h.connecting (.inl hstage)
        have hin : Kind.connect.inSession = false := rfl
        have hinv := h.startEarly hsession hrefused hruns hin (.inl ⟨rfl, rfl⟩)
        simpa [State.start, hpending] using hinv
      · cases he
        exact (h.refused hsession hrefused hruns _ true rfl).releaseLease
  · cases he

theorem Inv.connected {s s' : State} {ok : Bool} (h : s.Inv)
    (he : s.step (.connected ok) = some s') : s'.Inv := by
  rw [step] at he
  split at he
  · rename_i k hstage
    obtain ⟨hsession, hrefused, hleased, hruns⟩ := h.atWork (.inl ⟨k, hstage, rfl⟩)
    split at he
    · rename_i hsettled
      have hruns := hruns.isSettled hsettled
      split at he
      · cases he
        have hpending := h.connecting (.inr ⟨k, hstage⟩)
        have hinv := h.toStage hsession hrefused hleased hruns (.inl rfl)
        simpa [hpending] using hinv
      · cases he
        exact (h.refused hsession hrefused hruns _ _ hleased).releaseLease
    · cases he
  · cases he

theorem Inv.connectExpired {s s' : State} (h : s.Inv) (he : s.step .connectExpired = some s') :
    s'.Inv := by
  rw [step] at he
  split at he
  · rename_i k hstage
    obtain ⟨hsession, hrefused, hleased, hruns⟩ := h.atWork (.inl ⟨k, hstage, rfl⟩)
    obtain ⟨-, -, hreleased⟩ := h.inOpen hsession hrefused
    cases he
    refine ⟨h.history.toStage hsession hleased (by simp) _ _, hruns, ?_, ?_, ?_, hreleased⟩
    · simp
    · intro awaited hopening
      cases hopening
    · simp [hleased]
  · cases he

theorem Inv.track {s s' : State} {kind : Kind} (h : s.Inv) (he : s.step (.track kind) = some s') :
    s'.Inv := by
  rw [step] at he
  split at he
  · rename_i hguard
    obtain ⟨hstage, hkind⟩ := hguard
    obtain ⟨hsession, hrefused, hleased, hruns⟩ := h.atWork (.inr hstage)
    have hin : kind.inSession = false := by
      rcases hkind with rfl | rfl <;> rfl
    cases he
    have hinv := h.startEarly hsession hrefused hruns hin (.inr ⟨rfl, rfl⟩)
    simpa [State.start, hleased] using hinv
  · cases he

theorem Inv.openFails {s s' : State} (h : s.Inv) (he : s.step .openFails = some s') : s'.Inv := by
  rw [step] at he
  split at he
  · rename_i hstage
    obtain ⟨hsession, hrefused, hleased, hruns⟩ := h.atWork (.inr hstage)
    rw [← h.opening none hstage] at hruns
    cases he
    exact (h.refused hsession hrefused hruns _ _ hleased).disconnectLater
  · cases he

theorem Inv.tracked {s s' : State} {ok : Bool} (h : s.Inv)
    (he : s.step (.tracked ok) = some s') : s'.Inv := by
  rw [step] at he
  split at he
  · rename_i k hstage
    obtain ⟨hsession, hrefused, hleased, hruns⟩ := h.atWork (.inr hstage)
    have hpending := h.opening (some k) hstage
    split at he
    · split at he
      · rename_i hsettled
        have hruns := hruns.isSettled hsettled
        split at he
        · cases he
          exact h.toStage hsession hrefused hleased hruns (.inr rfl)
        · cases he
          have hinv := h.toStage hsession hrefused hleased hruns (.inl rfl)
          simpa [clearPending, hsettled] using hinv
      · cases he
    · cases he
      by_cases hsettled : s.isSettled k = true
      · have hends := h.refused hsession hrefused (hruns.isSettled hsettled) none _ hleased
        have hinv := hends.disconnectLater
        simpa [refuse, clearPending, hsettled] using hinv
      · have hruns : Runs s.calls s.pending := by
          rwa [hpending]
        have hends := h.refused hsession hrefused hruns s.pending _ hleased
        have hinv := hends.disconnectLater
        simpa [refuse, clearPending, hsettled] using hinv
  · cases he

/-! ## The session -/

theorem Inv.inSession {s : State} (h : s.Inv) (hstage : s.stage = .session)
    (hclosed : s.closed = false) :
    s.cleanup = .idle ∧ Runs s.calls s.pending ∧ s.released = 0 := by
  have hidle := h.idle hclosed (by simp [hstage])
  refine ⟨hidle, ?_, ?_⟩
  · have hruns := h.runs
    rwa [watched, hidle, hstage] at hruns
  · rw [h.released, hidle]
    rfl

theorem History.call {s : State} (h : s.History) (hstage : s.stage = .session)
    (hpending : s.pending = none) (hstarted : s.completionStarted = false) (c : Call)
    (pending : Option Nat) (hc : c.resumed = false → pending = some s.calls.length) :
    History { s with
      calls := s.calls ++ [c], pending := pending, completionStarted := c.kind.completes } := by
  have hold := h.unstarted hstarted
  have hresumed := h.awaited
  obtain ⟨-, -, hunleased, hacquiring, -, -⟩ := h
  constructor <;> grind

theorem Inv.call {s s' : State} {kind : Kind} {inTime throws : Bool} (h : s.Inv)
    (he : s.step (.call kind inTime throws) = some s') : s'.Inv := by
  rw [step] at he
  split at he
  · rename_i hguard
    obtain ⟨hstage, -⟩ := hguard
    cases he
    rw [callNative]
    split
    · exact h
    · rename_i hfree
      simp only [Bool.or_eq_true, not_or, Bool.not_eq_true, Option.isSome_eq_false_iff,
        Option.isNone_iff_eq_none] at hfree
      obtain ⟨⟨⟨hclosed, hstarted⟩, hpending⟩, -⟩ := hfree
      obtain ⟨hidle, hruns, hreleased⟩ := h.inSession hstage hclosed
      rw [hpending] at hruns
      dsimp only
      split
      · -- The start throws, so there is nothing to wait for.
        have hhistory := h.history.call hstage hpending hstarted
          { kind := kind, settled := true, resumed := true } none (by simp)
        refine ⟨?_, ?_, fun _ => hpending, ?_, ?_, ?_⟩
        · simpa [hpending] using hhistory
        · have happend := hruns.append_settled
            (c := { kind := kind, settled := true, resumed := true }) rfl
          simpa [watched, hidle, hstage, hpending] using happend
        · intro awaited hopening
          rw [show s.stage = .opening awaited from hopening] at hstage
          cases hstage
        · simp [hidle, hclosed, hstage]
        · simpa [hidle] using hreleased
      · have hhistory := h.history.call hstage hpending hstarted { kind := kind }
          (some s.calls.length) (by simp)
        refine ⟨hhistory, ?_, ?_, ?_, ?_, ?_⟩
        · have hstart := hruns.start kind
          simpa [watched, hidle, hstage, State.start] using hstart
        · simp [State.start, hstage]
        · intro awaited hopening
          rw [show s.stage = .opening awaited from hopening] at hstage
          cases hstage
        · simp [State.start, hidle, hclosed, hstage]
        · simpa [State.start, hidle] using hreleased
  · cases he

theorem Inv.resume {s s' : State} {k : Nat} (h : s.Inv) (he : s.step (.resume k) = some s') :
    s'.Inv := by
  rw [step] at he
  split at he
  · rename_i c hstage hc
    split at he
    · rename_i hguard
      simp only [Bool.and_eq_true, Bool.not_eq_true'] at hguard
      obtain ⟨hkind, hresumed⟩ := hguard
      have hpending := h.history.awaited k c hc hkind hresumed
      have hinv : Inv { s with calls := s.calls.set k { c with resumed := true } } :=
        h.set hc rfl (fun hfalse => by cases hfalse) id
      cases he
      rw [clearPending]
      split
      · rename_i hsettled
        -- The call that was pending has settled, so no call is awaited or running.
        refine ⟨?_, ?_, fun _ => rfl, ?_, hinv.ended, hinv.released⟩
        · have hold := h.history.awaited
          obtain ⟨-, hearly, hunleased, hacquiring, hunstarted, hserial⟩ := hinv.history
          refine ⟨?_, hearly, hunleased, hacquiring, hunstarted, hserial⟩
          grind
        · have hruns := hinv.runs
          cases hcleanup : s.cleanup with
          | idle =>
            have hwatched : State.watched
                { s with calls := s.calls.set k { c with resumed := true } } = some k := by
              simp [watched, hcleanup, hstage, hpending]
            rw [hwatched] at hruns
            simpa [watched, hcleanup, hstage] using hruns.isSettled hsettled
          | lateConnect | waiting | disconnecting | done =>
            simpa [watched, hcleanup] using hruns
        · intro awaited hopening
          rw [show s.stage = .opening awaited from hopening] at hstage
          cases hstage
      · exact hinv
    · cases he
  · cases he

theorem Inv.close {s s' : State} (h : s.Inv) (he : s.step .close = some s') : s'.Inv := by
  rw [step] at he
  split at he
  · rename_i hstage
    cases he
    rw [State.close]
    split
    · exact h
    · rename_i hopen
      have hclosed : s.closed = false := by simpa using hopen
      obtain ⟨-, hruns, hreleased⟩ := h.inSession hstage hclosed
      have hhistory : History { s with closed := true } := by
        refine ⟨h.history.awaited, ?_, h.history.unleased, h.history.acquiring,
          h.history.unstarted, h.history.serial⟩
        intro hne
        exact absurd hstage hne
      have hends : Ends { s with closed := true } s.pending :=
        ⟨hhistory, hruns, .inl rfl, hreleased⟩
      exact hends.disconnectLater
  · cases he

theorem Inv.step {s s' : State} (h : s.Inv) {e : Event} (he : s.step e = some s') : s'.Inv := by
  cases e with
  | acquired leased connects => exact h.acquired he
  | settle k => exact h.settle he
  | next k => exact h.next he
  | connected ok => exact h.connected he
  | connectExpired => exact h.connectExpired he
  | track kind => exact h.track he
  | tracked ok => exact h.tracked he
  | openFails => exact h.openFails he
  | call kind inTime throws => exact h.call he
  | resume k => exact h.resume he
  | close => exact h.close he
  | lateConnected ok => exact h.lateConnected he
  | disconnect => exact h.disconnect he
  | release => exact h.release he

/-! ## Sessions -/

/-- A session is serial, and it is used once. -/
structure Serial (s : State) : Prop where
  /-- At most one call is running on the connection. -/
  one : ∀ (i j : Nat) (c d : Call), s.calls[i]? = some c → s.calls[j]? = some d →
    c.settled = false → d.settled = false → i = j
  /-- Nothing but the disconnect is started after a commit or a rollback. -/
  last : ∀ (i j : Nat) (c d : Call), i < j → s.calls[i]? = some c → s.calls[j]? = some d →
    c.kind.completes = true → d.kind = .disconnect
  commit_once : ∀ (i j : Nat) (c d : Call), s.calls[i]? = some c → s.calls[j]? = some d →
    c.kind = .commit → d.kind = .commit → i = j
  released_once : s.released ≤ 1
  /-- The lease is released after everything has settled. -/
  released_after : 0 < s.released → ∀ c ∈ s.calls, c.settled = true
  /-- A session that is closed, or that `open` has given up, has released its lease once
  everything has settled and the callbacks have run. -/
  released_exactly : s.closed = true ∨ (s.stage = .refused ∧ s.leased = true) →
    (∀ c ∈ s.calls, c.settled = true) →
    (∀ ok, s.step (.lateConnected ok) = none) → s.step .disconnect = none →
    s.step .release = none → s.released = 1

theorem Runs.isSettled_of_all {calls : List Call} {k : Nat} {s : State} (h : Runs calls (some k))
    (hcalls : s.calls = calls) (hall : ∀ c ∈ calls, c.settled = true) : s.isSettled k = true := by
  have hk := h.bound k rfl
  rw [State.isSettled, hcalls, List.getElem?_eq_getElem hk]
  exact hall _ (List.getElem_mem hk)

theorem Inv.released_eq_one {s : State} (h : s.Inv)
    (hended : s.closed = true ∨ (s.stage = .refused ∧ s.leased = true))
    (hall : ∀ c ∈ s.calls, c.settled = true) (hlate : ∀ ok, s.step (.lateConnected ok) = none)
    (hdisconnect : s.step .disconnect = none) (hrelease : s.step .release = none) :
    s.released = 1 := by
  have hruns := h.runs
  cases hcleanup : s.cleanup with
  | idle => exact absurd hcleanup (h.ended.mpr hended)
  | lateConnect k =>
    rw [watched, hcleanup] at hruns
    have hstep := hlate false
    rw [State.step, hcleanup] at hstep
    simp [hruns.isSettled_of_all rfl hall] at hstep
  | waiting k =>
    rw [watched, hcleanup] at hruns
    rw [State.step, hcleanup] at hdisconnect
    simp [hruns.isSettled_of_all rfl hall] at hdisconnect
  | disconnecting k =>
    rw [watched, hcleanup] at hruns
    rw [State.step, hcleanup] at hrelease
    simp [hruns.isSettled_of_all rfl hall] at hrelease
  | done => rw [h.released, if_pos hcleanup]

theorem Inv.serial {s : State} (h : s.Inv) : s.Serial where
  one i j c d hc hd hc' hd' := by
    have hi := h.runs.only i c hc hc'
    have hj := h.runs.only j d hd hd'
    rw [hi] at hj
    exact Option.some.inj hj
  last := h.history.serial
  commit_once i j c d hc hd hc' hd' := by
    rcases Nat.lt_trichotomy i j with hij | hij | hij
    · have hlast := h.history.serial i j c d hij hc hd (by rw [hc']; rfl)
      rw [hd'] at hlast
      cases hlast
    · exact hij
    · have hlast := h.history.serial j i d c hij hd hc (by rw [hd']; rfl)
      rw [hc'] at hlast
      cases hlast
  released_once := by
    rw [h.released]
    split <;> omega
  released_after hreleased c hc := by
    rw [h.released] at hreleased
    split at hreleased
    · rename_i hdone
      obtain ⟨k, hk⟩ := List.mem_iff_getElem?.mp hc
      by_contra hsettled
      have hwatched := h.runs.only k c hk (by simpa using hsettled)
      simp [watched, hdone] at hwatched
    · omega
  released_exactly hended hall hlate hdisconnect hrelease :=
    h.released_eq_one hended hall hlate hdisconnect hrelease

end State

/-- Whatever is asked of a session, and whenever its native calls settle, it is serial and
used once. -/
theorem session_serial {s : State} (h : machine.Reachable s) : s.Serial := by
  apply State.Inv.serial
  refine h.invariant (I := State.Inv) ?_ ?_
  · rintro s rfl
    exact State.Inv.initial
  · intro s e s' hs _ hstep
    exact hs.step hstep

/-- A statement passes its deadline, the rollback is refused, and the session is closed
while the statement is still running. -/
def lateStatement : List Event :=
  [.acquired true true, .settle 0, .connected true, .track .inspect, .next 1, .settle 1,
    .tracked true, .track .begin, .settle 2, .tracked true, .call .statement true false,
    .resume 3, .call .rollback true false, .close, .settle 3, .disconnect, .settle 4, .release]

theorem session_serial_lateStatement :
    ∃ s, machine.run {} lateStatement = some s ∧ s.released = 1 ∧
      s.calls.map (·.kind) = [.connect, .inspect, .begin, .statement, .disconnect] ∧ s.Serial := by
  refine ⟨_, rfl, rfl, rfl, ?_⟩
  have hrun : machine.run {} lateStatement = some _ := rfl
  exact session_serial (Machine.reachable_of_run rfl hrun)

end PlugAgente.Operation.Native
