import PlugAgente.ActionIo.InputQueue

/-!
# Requests that are repeated

A claim is known by its key and an admission by the id of its message.  What was answered
once stays in the tables, `ClaimedAs` and `AdmittedAs`, whatever happens to the session, so
that the same request finds it again and a different one is a conflict.
-/

namespace PlugAgente.ActionIo

open ActionIoJournalDatabase DriftActionIoJournal Execution

/-! ## Requests for what is known -/

namespace DriftActionIoJournal

variable {services : JournalServices} {db : ActionIoJournalDatabase}

theorem admitInput_known (draw : Draw) {r : InputRequest} {session : ActionIoSession}
    {previous : ActionIoMessage} (hvalid : r.isInvalid = false)
    (hsession : db.ownSession? r.executionId r.clientId = some session)
    (hprevious : db.message? r.executionId r.messageId = some previous) :
    admitInput services draw r db =
      if previous.fingerprint = messageFingerprint services r.sequence r.close r.ownedBytes then
        .ok (receipt previous session, db)
      else .error (refusal "ACTION_INPUT_CONFLICT") := by
  rw [admitInput, Atomic.bind_of_ok (Atomic.require_of hvalid _ _),
    Atomic.bind_of_ok (ownSession_eq_ok.mpr ⟨hsession, rfl⟩),
    Atomic.bind_of_ok (Atomic.get_eq_ok.mpr ⟨rfl, rfl⟩), hprevious]
  dsimp only
  split_ifs with hsame
  · rw [Atomic.bind_of_ok (Atomic.require_of hsame _ _)]
    rfl
  · rw [Atomic.bind_of_error (Atomic.require_of_not hsame _ _)]

theorem inputStatus_known {executionId clientId messageId : String} {session : ActionIoSession}
    {m : ActionIoMessage} (hsession : db.session? executionId = some session)
    (hclient : session.key.clientId = clientId)
    (hmessage : db.message? executionId messageId = some m) :
    inputStatus executionId clientId messageId db = .ok (receipt m session, db) := by
  rw [inputStatus, Atomic.bind_of_ok (session_eq_ok.mpr ⟨hsession, rfl⟩),
    Atomic.bind_of_ok (Atomic.require_of hclient _ _),
    Atomic.bind_of_ok (Atomic.get_eq_ok.mpr ⟨rfl, rfl⟩), hmessage]
  rfl

theorem initial_le_of_fingerprint {intent : ActionIoSessionIntent}
    {io : Option ActionIoConfiguration} {fingerprint : String}
    (h : intentFingerprint services intent io = .ok fingerprint) :
    ((((io.bind (·.initialInput)).getD []).length : Nat) : Int) ≤ ActionIoLimits.blockBytes := by
  cases io with
  | none =>
    show (0 : Int) ≤ 64 * 1024
    omega
  | some configuration =>
    rw [intentFingerprint] at h
    split_ifs at h with hlarge
    exact not_lt.mp hlarge

theorem claim_known (draws : ClaimDraws) {intent : ActionIoSessionIntent}
    {io : Option ActionIoConfiguration} {fingerprint : String} {existing : ActionIoSession}
    (hintent : intentFingerprint services intent io = .ok fingerprint)
    (hexisting : db.claimed? intent.key = some existing) :
    claim services draws intent io db =
      if existing.fingerprint = fingerprint then
        .ok (claimResult io existing.executionId false, db)
      else .error (refusal "ACTION_INPUT_CONFLICT") := by
  rw [claim, Atomic.bind_of_ok (Atomic.require_of (initial_le_of_fingerprint hintent) _ _),
    Atomic.bind_of_ok (Atomic.ofExcept_eq_ok.mpr ⟨hintent, rfl⟩),
    Atomic.bind_of_ok (Atomic.get_eq_ok.mpr ⟨rfl, rfl⟩), hexisting]
  dsimp only
  split_ifs with hsame
  · rw [Atomic.bind_of_ok (Atomic.require_of hsame _ _)]
    rfl
  · rw [Atomic.bind_of_error (Atomic.require_of_not hsame _ _)]

end DriftActionIoJournal

/-! ## What stays -/

def ClaimedAs (db : ActionIoJournalDatabase) (key : SessionKey)
    (fingerprint executionId : String) : Prop :=
  ∃ session, db.session? executionId = some session ∧ session.key = key ∧
    session.fingerprint = fingerprint

/-- A message of a client is admitted with a fingerprint. -/
def AdmittedAs (db : ActionIoJournalDatabase) (r : InputRequest) (fingerprint : String)
    (sequence : Int) : Prop :=
  ∃ session m, db.session? r.executionId = some session ∧ session.key.clientId = r.clientId ∧
    db.message? r.executionId r.messageId = some m ∧ m.fingerprint = fingerprint ∧
    m.sequence = sequence

namespace Execution

variable {services : JournalServices} {v w : Execution}

theorem session_move (h : Move services v w) :
    w.session.executionId = v.session.executionId ∧ w.session.key = v.session.key ∧
      w.session.fingerprint = v.session.fingerprint := by
  cases h <;> exact ⟨rfl, rfl, rfl⟩

theorem session_moves (h : Moves services v w) :
    w.session.executionId = v.session.executionId ∧ w.session.key = v.session.key ∧
      w.session.fingerprint = v.session.fingerprint := by
  induction h with
  | refl => exact ⟨rfl, rfl, rfl⟩
  | tail _ hlast ih =>
    obtain ⟨hid, hkey, hfingerprint⟩ := session_move hlast
    exact ⟨hid.trans ih.1, hkey.trans ih.2.1, hfingerprint.trans ih.2.2⟩

/-- The columns of a message that are never written again. -/
def SameMessage (m n : ActionIoMessage) : Prop :=
  n.executionId = m.executionId ∧ n.messageId = m.messageId ∧ n.sequence = m.sequence ∧
    n.fingerprint = m.fingerprint

theorem sameMessage_write {rows : List ActionIoMessage} {p : ActionIoMessage → Bool}
    {f : ActionIoMessage → ActionIoMessage} (hf : ∀ m, SameMessage m (f m)) {m : ActionIoMessage}
    (hm : m ∈ rows) : ∃ n ∈ Rows.write p f rows, SameMessage m n := by
  refine ⟨_, Rows.mem_write.mpr ⟨m, hm, rfl⟩, ?_⟩
  split_ifs
  · exact hf m
  · exact ⟨rfl, rfl, rfl, rfl⟩

theorem sameMessage_asWriting (m : ActionIoMessage) : SameMessage m (asWriting m) :=
  ⟨rfl, rfl, rfl, rfl⟩

theorem sameMessage_withOutcome (state : ActionIoDeliveryState) (confirmedBytes : Option Int)
    (failureCode : Option String) (m : ActionIoMessage) :
    SameMessage m (withOutcome state confirmedBytes failureCode m) :=
  ⟨rfl, rfl, rfl, rfl⟩

theorem sameMessage_abandoned (failureCode : String) (m : ActionIoMessage) :
    SameMessage m (abandoned failureCode m) := by
  rw [abandoned]
  split <;> exact ⟨rfl, rfl, rfl, rfl⟩

theorem message_move (h : Move services v w) {m : ActionIoMessage} (hm : m ∈ v.messages) :
    ∃ n ∈ w.messages, SameMessage m n := by
  have hsame : SameMessage m m := ⟨rfl, rfl, rfl, rfl⟩
  cases h with
  | admitted n _ _ _ _ => exact ⟨m, List.mem_append_left _ hm, hsame⟩
  | starting _ => exact ⟨m, hm, hsame⟩
  | running _ => exact ⟨m, hm, hsame⟩
  | handed n _ _ _ _ => exact sameMessage_write sameMessage_asWriting hm
  | delivered n state confirmedBytes failureCode _ _ _ =>
    exact sameMessage_write (sameMessage_withOutcome state confirmedBytes failureCode) hm
  | interrupted _ => exact ⟨_, List.mem_map_of_mem hm, sameMessage_abandoned _ m⟩
  | appended => exact ⟨m, hm, hsame⟩
  | finished _ _ _ _ => exact ⟨_, List.mem_map_of_mem hm, sameMessage_abandoned _ m⟩
  | expired => exact ⟨m, hm, hsame⟩

theorem message_moves (h : Moves services v w) {m : ActionIoMessage} (hm : m ∈ v.messages) :
    ∃ n ∈ w.messages, SameMessage m n := by
  induction h with
  | refl => exact ⟨m, hm, rfl, rfl, rfl, rfl⟩
  | tail _ hlast ih =>
    obtain ⟨n, hn, hid, hmessage, hsequence, hfingerprint⟩ := ih
    obtain ⟨o, ho, hid', hmessage', hsequence', hfingerprint'⟩ := message_move hlast hn
    exact ⟨o, ho, hid'.trans hid, hmessage'.trans hmessage, hsequence'.trans hsequence,
      hfingerprint'.trans hfingerprint⟩

end Execution

namespace DriftActionIoJournal

variable {db : ActionIoJournalDatabase}

theorem session?_admitted {draw : Draw} {r : InputRequest} {session : ActionIoSession}
    {fingerprint : String} {payload : ActionIoEncryptedPayload}
    (hfound : db.session? r.executionId = some session) :
    (admittedDatabase draw r session fingerprint payload db).session? r.executionId =
      some (admitted session r.sequence r.ownedBytes.length r.close session) := by
  have hid : ∀ row, (admitted session r.sequence r.ownedBytes.length r.close row).executionId =
      row.executionId := fun _ => rfl
  rw [admittedDatabase, session?_updateSession_self _ hid]
  show (db.session? r.executionId).map _ = _
  rw [hfound]
  rfl

theorem message?_admitted {draw : Draw} {r : InputRequest} {session : ActionIoSession}
    {fingerprint : String} {payload : ActionIoEncryptedPayload}
    (hunknown : db.message? r.executionId r.messageId = none) :
    (admittedDatabase draw r session fingerprint payload db).message? r.executionId r.messageId =
      some (admittedMessage r fingerprint draw.payloadId) := by
  show (db.messages ++ [admittedMessage r fingerprint draw.payloadId]).find? _ = _
  rw [List.find?_append, show db.messages.find? _ = none from hunknown]
  simp [admittedMessage]

end DriftActionIoJournal

namespace Journal

variable {services : JournalServices} {s t : Journal}

theorem claimedAs_later (h : s.Sound) (hleads : (journal services).Leads s t) {key : SessionKey}
    {fingerprint executionId : String} (hclaimed : ClaimedAs s.db key fingerprint executionId) :
    ClaimedAs t.db key fingerprint executionId := by
  obtain ⟨session, hsession, hkey, hfingerprint⟩ := hclaimed
  obtain ⟨w, hw, hmoves⟩ := execution_later hleads h (execution_some hsession)
  obtain ⟨-, hkey', hfingerprint'⟩ := session_moves hmoves
  exact ⟨w.session, session_of_execution hw, hkey'.trans hkey, hfingerprint'.trans hfingerprint⟩

theorem admittedAs_later (h : (journal services).Reachable s)
    (hleads : (journal services).Leads s t) {r : InputRequest} {fingerprint : String}
    {sequence : Int} (hadmitted : AdmittedAs s.db r fingerprint sequence) :
    AdmittedAs t.db r fingerprint sequence := by
  obtain ⟨session, m, hsession, hclient, hm, hfingerprint, hsequence⟩ := hadmitted
  obtain ⟨w, hw, hmoves⟩ := execution_later hleads (sound_of_reachable h) (execution_some hsession)
  rw [message?_eq] at hm
  obtain ⟨n, hn, -, hid, hsequence', hfingerprint'⟩ :=
    message_moves hmoves (List.mem_of_find?_eq_some hm)
  have hmessageId : m.messageId = r.messageId := by simpa using List.find?_some hm
  have hfound := Rows.find?_of_nodup (inputKept (hleads.reachable h) hw).ids hn
  rw [hid, hmessageId, messages_of_execution hw, ← message?_eq] at hfound
  refine ⟨w.session, n, session_of_execution hw, ?_, hfound, hfingerprint'.trans hfingerprint,
    hsequence'.trans hsequence⟩
  rw [(session_moves hmoves).2.1]
  exact hclient

/-! ## What an answer establishes -/

theorem admittedAs_of_admitInput (h : s.Sound) {draw : Draw} {r : InputRequest}
    {a : ActionIoMessageReceipt} {db' : ActionIoJournalDatabase}
    (hadmission : admitInput services draw r s.db = .ok (a, db')) :
    AdmittedAs db' r (messageFingerprint services r.sequence r.close r.ownedBytes) a.sequence ∧
      a.executionId = r.executionId ∧ a.messageId = r.messageId := by
  cases (admitInput_ok hadmission).2 with
  | known session previous hsession hprevious hfingerprint hdb hresult =>
    obtain ⟨hfound, hclient⟩ := h.linked.session?_of_ownSession? hsession
    have hids := List.find?_some hprevious
    simp only [Bool.and_eq_true, decide_eq_true_eq] at hids
    subst hdb hresult
    exact ⟨⟨session, previous, hfound, hclient, hprevious, hfingerprint, rfl⟩, hids.1, hids.2⟩
  | fresh session payload hsession hunknown hadmissible hpayload hmessage hdb hresult =>
    obtain ⟨hfound, hclient⟩ := h.linked.session?_of_ownSession? hsession
    subst hdb hresult
    refine ⟨⟨_, _, session?_admitted hfound, hclient, message?_admitted hunknown, rfl, rfl⟩, rfl,
      rfl⟩

theorem admitInput_at_once (h : s.Sound) {draw : Draw} {r : InputRequest}
    {a : ActionIoMessageReceipt} {db' : ActionIoJournalDatabase}
    (hadmission : admitInput services draw r s.db = .ok (a, db')) (draw' : Draw) :
    admitInput services draw' r db' = .ok (a, db') := by
  obtain ⟨hvalid, hadmitted⟩ := admitInput_ok hadmission
  have hlinked : db'.Linked := (simulates_admitInput (s := s) hadmission h).1.linked
  cases hadmitted with
  | known session previous hsession hprevious hfingerprint hdb hresult =>
    subst hdb hresult
    rw [admitInput_known draw' hvalid hsession hprevious, if_pos hfingerprint]
  | fresh session payload hsession hunknown hadmissible hpayload hmessage hdb hresult =>
    obtain ⟨hfound, hclient⟩ := h.linked.session?_of_ownSession? hsession
    subst hdb hresult
    have hown := hlinked.ownSession?_of_session? (session?_admitted hfound)
    rw [show (admitted session r.sequence r.ownedBytes.length r.close session).key.clientId =
      r.clientId from hclient] at hown
    rw [admitInput_known draw' hvalid hown (message?_admitted hunknown)]
    exact if_pos rfl

theorem claimedAs_of_claim (h : s.Sound) {draws : ClaimDraws} {intent : ActionIoSessionIntent}
    {io : Option ActionIoConfiguration} {c : ActionIoSessionClaim} {db' : ActionIoJournalDatabase}
    (hclaim : claim services draws intent io s.db = .ok (c, db')) :
    ∃ fingerprint, intentFingerprint services intent io = .ok fingerprint ∧
      ClaimedAs db' intent.key fingerprint c.executionId := by
  cases claim_ok hclaim with
  | known existing fingerprint hintent hexisting hfingerprint hdb hresult =>
    have hkey : existing.key = intent.key := by simpa using List.find?_some hexisting
    have hfound := h.linked.session?_mem (List.mem_of_find?_eq_some hexisting)
    subst hdb hresult
    exact ⟨fingerprint, hintent, existing, hfound, hkey, hfingerprint⟩
  | fresh fingerprint db₁ hintent hunknown hfresh hinitial hclose hresult =>
    subst hresult
    refine ⟨fingerprint, hintent, ?_⟩
    let db₀ : ActionIoJournalDatabase :=
      { s.db with sessions := s.db.sessions ++ [claimedSession intent fingerprint] }
    have hinsert : Simulates services s { s with db := db₀ } := simulates_insertSession hfresh
    have hsound := (hinsert h).1
    have hfirst : Simulates services { s with db := db₀ } { s with db := db₁ } := simulates_admitted
      ((admitInitial_ok hinitial).imp id fun ⟨r, a, _, hadmission⟩ => ⟨_, r, a, hadmission⟩)
    have hsecond : Simulates services { s with db := db₁ } { s with db := db' } :=
      simulates_admitted
        ((admitClose_ok hclose).imp id fun ⟨r, a, _, hadmission⟩ => ⟨_, r, a, hadmission⟩)
    have hevolves := ((hfirst.trans hsecond) hsound).2 intent.executionId
    have hnew : db₀.session? intent.executionId = some (claimedSession intent fingerprint) :=
      session?_new hfresh
    rw [execution_some (s := { s with db := db₀ }) hnew] at hevolves
    cases hafter : ({ s with db := db' } : Journal).execution intent.executionId with
    | none =>
      rw [hafter] at hevolves
      exact hevolves.elim
    | some w =>
      rw [hafter] at hevolves
      obtain ⟨-, hkey, hfingerprint⟩ := session_moves hevolves
      exact ⟨w.session, session_of_execution hafter, hkey, hfingerprint⟩

/-! ## Repetition -/

/-- Claims and admissions that are repeated after they were answered in `s`, at once or after
whatever happened since.  An admission that is repeated passes the check of its arguments, as
the one that was answered did. -/
structure Idempotent (services : JournalServices) (s : Journal) : Prop where
  oneSession : (s.db.sessions.map (·.key)).Nodup
  claimAgain : ∀ draws intent io c db',
    Atomic.commit (claim services draws intent io) s.db = (.ok c, db') →
    ∀ t, (journal services).Leads { s with db := db' } t →
    ∀ draws' intent' io', intent'.key = intent.key →
    intentFingerprint services intent' io' = intentFingerprint services intent io →
    Atomic.commit (claim services draws' intent' io') t.db =
      (.ok (claimResult io' c.executionId false), t.db)
  claimConflict : ∀ draws intent io c db',
    Atomic.commit (claim services draws intent io) s.db = (.ok c, db') →
    ∀ t, (journal services).Leads { s with db := db' } t →
    ∀ draws' intent' io' fingerprint, intent'.key = intent.key →
    intentFingerprint services intent' io' = .ok fingerprint →
    intentFingerprint services intent io ≠ .ok fingerprint →
    Atomic.commit (claim services draws' intent' io') t.db =
      (.error (refusal "ACTION_INPUT_CONFLICT"), t.db)
  claimRefused : ∀ draws intent io e,
    (Atomic.commit (claim services draws intent io) s.db).1 = .error e →
    (Atomic.commit (claim services draws intent io) s.db).2 = s.db
  admitAtOnce : ∀ draw r a db', Atomic.commit (admitInput services draw r) s.db = (.ok a, db') →
    ∀ draw', Atomic.commit (admitInput services draw' r) db' = (.ok a, db')
  /-- The receipt is that of the message as it is by then. -/
  admitAgain : ∀ draw r a db', Atomic.commit (admitInput services draw r) s.db = (.ok a, db') →
    ∀ t, (journal services).Leads { s with db := db' } t →
    ∀ draw' r', r'.executionId = r.executionId → r'.clientId = r.clientId →
    r'.messageId = r.messageId → r'.isInvalid = false →
    messageFingerprint services r'.sequence r'.close r'.ownedBytes =
      messageFingerprint services r.sequence r.close r.ownedBytes →
    ∃ a', Atomic.commit (admitInput services draw' r') t.db = (.ok a', t.db) ∧
      Atomic.commit (inputStatus r.executionId r.clientId r.messageId) t.db = (.ok a', t.db) ∧
      a'.executionId = a.executionId ∧ a'.messageId = a.messageId ∧ a'.sequence = a.sequence
  admitConflict : ∀ draw r a db', Atomic.commit (admitInput services draw r) s.db = (.ok a, db') →
    ∀ t, (journal services).Leads { s with db := db' } t →
    ∀ draw' r', r'.executionId = r.executionId → r'.clientId = r.clientId →
    r'.messageId = r.messageId → r'.isInvalid = false →
    messageFingerprint services r'.sequence r'.close r'.ownedBytes ≠
      messageFingerprint services r.sequence r.close r.ownedBytes →
    Atomic.commit (admitInput services draw' r') t.db =
      (.error (refusal "ACTION_INPUT_CONFLICT"), t.db)
  admitRefused : ∀ draw r e, (Atomic.commit (admitInput services draw r) s.db).1 = .error e →
    (Atomic.commit (admitInput services draw r) s.db).2 = s.db

theorem claim_claimedAs (h : t.Sound) {key : SessionKey} {fingerprint executionId : String}
    (hclaimed : ClaimedAs t.db key fingerprint executionId) (draws : ClaimDraws)
    {intent : ActionIoSessionIntent} (hkey : intent.key = key) {io : Option ActionIoConfiguration}
    {fingerprint' : String} (hintent : intentFingerprint services intent io = .ok fingerprint') :
    claim services draws intent io t.db =
      if fingerprint = fingerprint' then .ok (claimResult io executionId false, t.db)
      else .error (refusal "ACTION_INPUT_CONFLICT") := by
  obtain ⟨session, hsession, hsame, hfingerprint⟩ := hclaimed
  obtain ⟨hmem, hid⟩ := session?_some hsession
  have hexisting : t.db.claimed? intent.key = some session := by
    rw [hkey, ← hsame]
    exact Rows.find?_of_nodup h.linked.keys hmem
  rw [claim_known draws hintent hexisting, hfingerprint, hid]

theorem admitInput_admittedAs (h : t.Sound) {r r' : InputRequest} {fingerprint : String}
    {sequence : Int} (hadmitted : AdmittedAs t.db r fingerprint sequence) (draw : Draw)
    (hid : r'.executionId = r.executionId) (hclient : r'.clientId = r.clientId)
    (hmessage : r'.messageId = r.messageId) (hvalid : r'.isInvalid = false) :
    ∃ a, a.executionId = r.executionId ∧ a.messageId = r.messageId ∧ a.sequence = sequence ∧
      inputStatus r.executionId r.clientId r.messageId t.db = .ok (a, t.db) ∧
      admitInput services draw r' t.db =
        if fingerprint = messageFingerprint services r'.sequence r'.close r'.ownedBytes then
          .ok (a, t.db)
        else .error (refusal "ACTION_INPUT_CONFLICT") := by
  obtain ⟨session, m, hsession, hown, hm, hfingerprint, hsequence⟩ := hadmitted
  have hids := List.find?_some hm
  simp only [Bool.and_eq_true, decide_eq_true_eq] at hids
  refine ⟨receipt m session, hids.1, hids.2, hsequence, inputStatus_known hsession hown hm, ?_⟩
  have howned : t.db.ownSession? r'.executionId r'.clientId = some session := by
    rw [hid, hclient, ← hown]
    exact h.linked.ownSession?_of_session? hsession
  have hknown : t.db.message? r'.executionId r'.messageId = some m := by rw [hid, hmessage, hm]
  rw [admitInput_known draw hvalid howned hknown, hfingerprint]

theorem sound_of_claim (h : s.Sound) {draws : ClaimDraws} {intent : ActionIoSessionIntent}
    {io : Option ActionIoConfiguration} {c : ActionIoSessionClaim} {db' : ActionIoJournalDatabase}
    (hclaim : claim services draws intent io s.db = .ok (c, db')) :
    ({ s with db := db' } : Journal).Sound :=
  (simulates_claim hclaim h).1

theorem reachable_of_admitInput (h : (journal services).Reachable s) {draw : Draw} {r : InputRequest}
    {a : ActionIoMessageReceipt} {db' : ActionIoJournalDatabase}
    (hadmission : admitInput services draw r s.db = .ok (a, db')) :
    (journal services).Reachable { s with db := db' } := by
  refine h.step (a := .admitInput draw r) trivial ?_
  show some { s with db := (Atomic.commit (admitInput services draw r) s.db).2 } = _
  rw [Atomic.commit_of_ok hadmission]

theorem sound_later (h : s.Sound) (hleads : (journal services).Leads s t) : t.Sound :=
  hleads.keeps (fun _ _ _ hs hstep => (simulates_step hstep hs).1) h

/-- In every state that is reached, claims and admissions are idempotent, and one that is
refused changes nothing. -/
theorem idempotent (h : (journal services).Reachable s) : Idempotent services s := by
  have hsound := sound_of_reachable h
  refine ⟨hsound.linked.keys, ?_, ?_, ?_, ?_, ?_, ?_, ?_⟩
  · intro draws intent io c db' hcommit t hleads draws' intent' io' hkey hsame
    have hclaim := Atomic.commit_eq_ok.mp hcommit
    obtain ⟨fingerprint, hintent, hclaimed⟩ := claimedAs_of_claim hsound hclaim
    have hafter := sound_of_claim hsound hclaim
    apply Atomic.commit_of_ok
    rw [claim_claimedAs (sound_later hafter hleads) (claimedAs_later hafter hleads hclaimed)
      draws' hkey (hsame.trans hintent), if_pos rfl]
  · intro draws intent io c db' hcommit t hleads draws' intent' io' fingerprint' hkey hintent' hne
    have hclaim := Atomic.commit_eq_ok.mp hcommit
    obtain ⟨fingerprint, hintent, hclaimed⟩ := claimedAs_of_claim hsound hclaim
    have hafter := sound_of_claim hsound hclaim
    apply Atomic.commit_of_error
    rw [claim_claimedAs (sound_later hafter hleads) (claimedAs_later hafter hleads hclaimed)
      draws' hkey hintent', if_neg]
    intro heq
    exact hne (heq ▸ hintent)
  · intro draws intent io e herror
    exact Atomic.commit_unchanged herror
  · intro draw r a db' hcommit draw'
    have hadmission := Atomic.commit_eq_ok.mp hcommit
    exact Atomic.commit_of_ok (admitInput_at_once hsound hadmission draw')
  · intro draw r a db' hcommit t hleads draw' r' hid hclient hmessage hvalid hsame
    have hadmission := Atomic.commit_eq_ok.mp hcommit
    obtain ⟨hadmitted, hexecution, hmessageId⟩ := admittedAs_of_admitInput hsound hadmission
    have hafter := reachable_of_admitInput h hadmission
    obtain ⟨a', hid', hmessage', hsequence', hstatus, hagain⟩ :=
      admitInput_admittedAs (sound_of_reachable (hleads.reachable hafter))
        (admittedAs_later hafter hleads hadmitted) draw' hid hclient hmessage hvalid
    rw [if_pos hsame.symm] at hagain
    exact ⟨a', Atomic.commit_of_ok hagain, Atomic.commit_of_ok hstatus,
      hid'.trans hexecution.symm, hmessage'.trans hmessageId.symm, hsequence'⟩
  · intro draw r a db' hcommit t hleads draw' r' hid hclient hmessage hvalid hne
    have hadmission := Atomic.commit_eq_ok.mp hcommit
    obtain ⟨hadmitted, -, -⟩ := admittedAs_of_admitInput hsound hadmission
    have hafter := reachable_of_admitInput h hadmission
    obtain ⟨a', -, -, -, -, hagain⟩ :=
      admitInput_admittedAs (sound_of_reachable (hleads.reachable hafter))
        (admittedAs_later hafter hleads hadmitted) draw' hid hclient hmessage hvalid
    rw [if_neg fun heq => hne heq.symm] at hagain
    exact Atomic.commit_of_error hagain
  · intro draw r e herror
    exact Atomic.commit_unchanged herror

def sampleDraw : Draw where
  payloadId := "message"
  random := List.replicate 12 2

def sampleRequest : InputRequest where
  executionId := "execution"
  clientId := "client"
  messageId := "message"
  sequence := 0
  bytes := [104, 105]

/-- A session that was claimed. -/
def claimedJournal : Journal :=
  ((journal plainServices).run {} [.claim sampleDraws sampleIntent none]).getD {}

/-- Its message was admitted. -/
def admittedJournal : Journal :=
  { claimedJournal with
    db := (Atomic.commit (admitInput plainServices sampleDraw sampleRequest) claimedJournal.db).2 }

/-- And the session has ended. -/
def admittedAndEnded : Journal :=
  admittedJournal.finish "execution" { exitCode := some 0, complete := true, failureCode := none } 5

theorem reachable_claimed : (journal plainServices).Reachable claimedJournal := by
  have hrun : (journal plainServices).run {} [.claim sampleDraws sampleIntent none] =
      some claimedJournal := rfl
  exact Machine.reachable_of_run rfl hrun

/-- After the end of the session, the admission is answered again, for the same message. -/
theorem idempotent_after_end :
    ∃ a, a.messageId = "message" ∧ a.sequence = 0 ∧
      Atomic.commit (admitInput plainServices sampleDraw sampleRequest) admittedAndEnded.db =
        (.ok a, admittedAndEnded.db) := by
  have hanswer : (Atomic.commit (admitInput plainServices sampleDraw sampleRequest)
      claimedJournal.db).1 = .ok
        { executionId := "execution"
          messageId := "message"
          sequence := 0
          state := .accepted
          confirmedBytes := some 0
          nextInputSequence := 1
          stdinState := .pending } := by
    decide +kernel
  have hleads : (journal plainServices).Leads admittedJournal admittedAndEnded :=
    .step .refl (show (journal plainServices).step admittedJournal
      (.finish "execution" { exitCode := some 0, complete := true, failureCode := none } 5) =
        some admittedAndEnded from rfl)
  obtain ⟨a, hagain, -, -, hmessage, hsequence⟩ :=
    (idempotent reachable_claimed).admitAgain sampleDraw sampleRequest _ _ (Prod.ext hanswer rfl)
      _ hleads sampleDraw sampleRequest rfl rfl rfl (by decide +kernel) rfl
  exact ⟨a, hmessage, hsequence, hagain⟩

end Journal

end PlugAgente.ActionIo
