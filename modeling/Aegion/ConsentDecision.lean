/-
Consent decisions on one challenge.  `AcceptConsent` checks that the challenge
is unhandled in one statement and writes its decision in another, and
`RejectConsent` checks nothing, so a decision is final only where the writes
themselves come in turn.
-/
import Aegion.AuthorizationCodeBinding

namespace Aegion.OAuth

open History

/-- The challenge for which the entry creates an authorization code. -/
def createdCodeFor (entry : Event) : Option String :=
  match entry.request, entry.step with
  | .acceptConsent id .., .called ⟨.insertAuthCode _, .ok _⟩ => some id
  | .acceptConsentForIdentity id .., .called ⟨.insertAuthCode _, .ok _⟩ => some id
  | _, _ => none

/-- The challenge whose acceptance the entry records, for an `AcceptConsent`
call. -/
def acceptanceOf (entry : Event) : Option String :=
  match entry.request, entry.step with
  | .acceptConsent .., .called ⟨.updateConsentAccepted id .., .ok (_ + 1)⟩ =>
      some id
  | .acceptConsentForIdentity ..,
      .called ⟨.updateConsentAccepted id .., .ok (_ + 1)⟩ => some id
  | _, _ => none

/-- The challenge whose rejection the entry records. -/
def rejectionOf (entry : Event) : Option String :=
  match entry.step with
  | .called ⟨.updateConsentRejected id .., .ok (_ + 1)⟩ => some id
  | _ => none

def finishes (entry : Event) : Bool :=
  match entry.step with
  | .called _ => false
  | .answered _ => true

/-- An acceptance finds its challenge unhandled, and a rejection finds no
`AcceptConsent` call on the way that has already recorded its acceptance. -/
def DecidedInTurn (db : Database) (past : Trace) (entry : Event) : Prop :=
  (∀ id ∈ acceptanceOf entry,
    ∀ row ∈ (tablesAfter db past).consentChallenges.rows,
      row.id = id → row.handled = false) ∧
  ∀ id ∈ rejectionOf entry, ∀ earlier ∈ past, acceptanceOf earlier = some id →
    ∃ later ∈ past, later.thread = earlier.thread ∧ finishes later = true

instance (db : Database) (past : Trace) (entry : Event) :
    Decidable (DecidedInTurn db past entry) := by
  unfold DecidedInTurn
  infer_instance

section Handled

variable {platform : Platform} {db : Database} {history past later : Trace}
variable {entry : Event} {id : String}

theorem exists_of_acceptanceOf (hid : acceptanceOf entry = some id) :
    ∃ scopes audience remember rememberFor now n, entry.step =
      .called ⟨.updateConsentAccepted id scopes audience remember rememberFor now,
        .ok (n + 1)⟩ := by
  obtain ⟨thread, request, step⟩ := entry
  unfold acceptanceOf at hid
  split at hid
  · rename_i hstep
    cases hid
    exact ⟨_, _, _, _, _, _, hstep⟩
  · rename_i hstep
    cases hid
    exact ⟨_, _, _, _, _, _, hstep⟩
  · cases hid

theorem exists_of_rejectionOf (hid : rejectionOf entry = some id) :
    ∃ errorCode errorDesc now n, entry.step =
      .called ⟨.updateConsentRejected id errorCode errorDesc now,
        .ok (n + 1)⟩ := by
  unfold rejectionOf at hid
  split at hid
  · rename_i hstep
    cases hid
    exact ⟨_, _, _, _, hstep⟩
  · cases hid

theorem exists_of_createdCodeFor (hid : createdCodeFor entry = some id) :
    (∃ row, entry.step = .called ⟨.insertAuthCode row, .ok ()⟩) ∧
      ∃ scopes, Consents entry.request id scopes := by
  unfold createdCodeFor at hid
  split at hid
  · rename_i hrequest hstep
    cases hid
    rw [hrequest]
    exact ⟨⟨_, hstep⟩, _, rfl, rfl⟩
  · rename_i hrequest hstep
    cases hid
    rw [hrequest]
    exact ⟨⟨_, hstep⟩, _, rfl, rfl⟩
  · cases hid

variable (hlaw : Lawful platform db history)

include hlaw

/-- A recorded acceptance found a row and left it handled. -/
theorem Lawful.handled_of_accepted {thread : Nat}
    {request : Request} {scopes audience : List String} {remember : Bool}
    {rememberFor : Option Int} {now : Time} {n : Nat}
    (hentry : ⟨thread, request, .called ⟨.updateConsentAccepted id scopes audience remember
      rememberFor now, .ok (n + 1)⟩⟩ :: past <:+ history) :
    (∃ row ∈ (tablesAfter db past).consentChallenges.rows, row.id = id) ∧
      ∃ row ∈ (tablesAfter db (⟨thread, request, .called ⟨.updateConsentAccepted id scopes
          audience remember rememberFor now, .ok (n + 1)⟩⟩ :: past)).consentChallenges.rows,
        row.id = id ∧ row.handled = true := by
  obtain ⟨choice, hreply⟩ := hlaw.reply hentry
  obtain ⟨old, hold, hselected⟩ := exists_of_update hreply
  have hkey : old.id = id := of_decide_eq_true hselected
  exact ⟨⟨old, hold, hkey⟩, _, List.mem_map.mpr ⟨old, hold, if_pos hselected⟩, hkey, rfl⟩

theorem handled_of_decision (hentry : entry :: past <:+ history)
    (hdecision : acceptanceOf entry = some id ∨ rejectionOf entry = some id) :
    (∃ row ∈ (tablesAfter db past).consentChallenges.rows, row.id = id) ∧
      ∃ row ∈ (tablesAfter db (entry :: past)).consentChallenges.rows,
        row.id = id ∧ row.handled = true := by
  obtain ⟨thread, request, step⟩ := entry
  rcases hdecision with hid | hid
  · obtain ⟨scopes, audience, remember, rememberFor, now, n, hstep⟩ :=
      exists_of_acceptanceOf hid
    cases hstep
    exact hlaw.handled_of_accepted hentry
  · obtain ⟨errorCode, errorDesc, now, n, hstep⟩ := exists_of_rejectionOf hid
    cases hstep
    obtain ⟨choice, hreply⟩ := hlaw.reply hentry
    obtain ⟨old, hold, hselected⟩ := exists_of_update hreply
    have hkey : old.id = id := of_decide_eq_true hselected
    exact ⟨⟨old, hold, hkey⟩, _, List.mem_map.mpr ⟨old, hold, if_pos hselected⟩, hkey, rfl⟩

/-- In turn, no acceptance follows a decision on the same challenge. -/
theorem not_accepted_after
    (hturn : Throughout (DecidedInTurn db) history) {first : Event} {before : Trace}
    (hfirst : first :: before <:+ past) (hentry : entry :: past <:+ history)
    (hdecision : acceptanceOf first = some id ∨ rejectionOf first = some id) :
    acceptanceOf entry ≠ some id := by
  intro haccepts
  have hpast := (List.suffix_cons _ _).trans hentry
  obtain ⟨-, old, hold, holdID, hhandled⟩ :=
    handled_of_decision hlaw (hfirst.trans hpast) hdecision
  obtain ⟨row, hrow, hterms, hstill⟩ :=
    consentChallengeLedger.persists hfirst hold
  have hid : row.id = id := (congrArg ConsentChallenge.id hterms).trans holdID
  have hunhandled := (hturn entry past hentry).1 id haccepts row hrow hid
  rw [hstill hhandled] at hunhandled
  cases hunhandled

/-- A code is created by a call that has recorded its acceptance before. -/
theorem accepted_of_created
    (hentry : entry :: past <:+ history) (hid : createdCodeFor entry = some id) :
    ∃ acceptance before, acceptance :: before <:+ past ∧
      acceptanceOf acceptance = some id ∧ acceptance.thread = entry.thread := by
  obtain ⟨thread, request, step⟩ := entry
  obtain ⟨⟨row, hstep⟩, scopes, hconsents⟩ := exists_of_createdCodeFor hid
  cases hstep
  obtain ⟨-, challengeID, granted, challenge, login, hconsents', hbasis, -⟩ :=
    hlaw.duty hentry
  obtain ⟨audience, remember, rememberFor, now, n, haccepted⟩ := hbasis.accepted
  obtain ⟨before, hbefore⟩ := hlaw.earlier hentry haccepted
  refine ⟨_, before, hbefore, ?_, rfl⟩
  cases request with
  | acceptConsent own _ _ _ => rw [← hconsents.1, hconsents'.1]; rfl
  | acceptConsentForIdentity own _ _ _ _ =>
      rw [← hconsents.1, hconsents'.1]
      rfl
  | _ => exact hconsents.elim

theorem created_once_by_thread {first : Event} {before : Trace}
    (hfirst : first :: before <:+ past) (hentry : entry :: past <:+ history)
    (hcreated : createdCodeFor first = some id)
    (hid : createdCodeFor entry = some id) : first.thread ≠ entry.thread := by
  intro hthread
  obtain ⟨thread, request, step⟩ := entry
  obtain ⟨⟨row, hstep⟩, -⟩ := exists_of_createdCodeFor hid
  cases hstep
  obtain ⟨hnone, -⟩ := hlaw.duty hentry
  obtain ⟨other, request', step'⟩ := first
  obtain ⟨⟨row', hstep'⟩, -⟩ := exists_of_createdCodeFor hcreated
  cases hstep'
  cases hthread
  exact hnone row' _ (mem_own_iff.mpr ⟨request', mem_of_suffix_cons hfirst⟩)

end Handled

/-- Where decisions come in turn they are final: a challenge gets at most one
code, and whatever call created it was over before any rejection. -/
theorem consent_decided_once (platform : Platform) (config : DeviceConfig)
    (db : Database) (actions : Schedule) (hturn : Throughout (DecidedInTurn db)
      (runFrom platform config db actions)) (id : String) :
    (∀ entry entry' past past',
      entry :: past <:+ runFrom platform config db actions →
      entry' :: past' <:+ runFrom platform config db actions →
      createdCodeFor entry = some id → createdCodeFor entry' = some id →
        entry :: past = entry' :: past') ∧
    ∀ entry rejection before,
      entry ∈ runFrom platform config db actions →
      rejection :: before <:+ runFrom platform config db actions →
      createdCodeFor entry = some id → rejectionOf rejection = some id →
        ∃ last ∈ before, last.thread = entry.thread ∧ finishes last = true := by
  have hlaw := lawful_of_run platform config db actions
  constructor
  · intro entry entry' past past' hentry hentry' hcreated hcreated'
    obtain ⟨acceptance, before, hbefore, haccepts, hthread⟩ :=
      accepted_of_created hlaw hentry hcreated
    obtain ⟨acceptance', before', hbefore', haccepts', hthread'⟩ :=
      accepted_of_created hlaw hentry' hcreated'
    have hwhole := hbefore.trans ((List.suffix_cons _ _).trans hentry)
    have hwhole' := hbefore'.trans ((List.suffix_cons _ _).trans hentry')
    -- There is one acceptance, so both codes come from one call.
    have hsame : entry.thread = entry'.thread := by
      rcases entry_trichotomy hwhole hwhole' with heq | hlt | hlt
      · rw [← hthread, ← hthread', (List.cons.inj heq).1]
      · exact absurd haccepts' (not_accepted_after hlaw hturn hlt hwhole' (Or.inl haccepts))
      · exact absurd haccepts (not_accepted_after hlaw hturn hlt hwhole (Or.inl haccepts'))
    rcases entry_trichotomy hentry hentry' with heq | hlt | hlt
    · exact heq
    · exact absurd hsame (created_once_by_thread hlaw hlt hentry' hcreated hcreated')
    · exact absurd hsame.symm (created_once_by_thread hlaw hlt hentry hcreated' hcreated)
  · intro entry rejection before hmem hrejection hcreated hrejects
    obtain ⟨past, hentry⟩ := exists_past_of_mem hmem
    obtain ⟨acceptance, earlier, hearlier, haccepts, hthread⟩ :=
      accepted_of_created hlaw hentry hcreated
    have hwhole := hearlier.trans ((List.suffix_cons _ _).trans hentry)
    rcases entry_trichotomy hwhole hrejection with heq | hlt | hlt
    · obtain ⟨scopes, audience, remember, rememberFor, now, n, hstep⟩ :=
        exists_of_acceptanceOf haccepts
      obtain ⟨errorCode, errorDesc, now', n', hstep'⟩ :=
        exists_of_rejectionOf hrejects
      rw [(List.cons.inj heq).1, hstep'] at hstep
      cases hstep
    · obtain ⟨last, hlast, hsame, hfinishes⟩ :=
        (hturn rejection before hrejection).2 id hrejects acceptance
          (mem_of_suffix_cons hlt) haccepts
      exact ⟨last, hlast, hsame.trans hthread, hfinishes⟩
    · exact absurd haccepts (not_accepted_after hlaw hturn hlt hwhole (Or.inr hrejects))

def sampleConsent : Request :=
  .acceptConsent sampleConsentID ["read", "offline_access"] false none

def sampleRejection : Request :=
  .rejectConsent sampleConsentID "access_denied" "no"

/-- A login, and a consent that is over before the rejection comes. -/
def consentInTurn : Schedule :=
  served 0 (.startAuthorization sampleStart) 1 1 ++
    served 1 (.acceptLogin sampleLoginID "alice" "") 2 2 ++
    served 2 sampleConsent 3 3 ++ served 3 sampleRejection 4 4

theorem consentInTurn_decided_once :
    (sampleRun consentInTurn).filterMap createdCodeFor = [sampleConsentID] ∧
      ∀ entry rejection before,
        entry ∈ sampleRun consentInTurn → rejection :: before <:+ sampleRun consentInTurn →
        createdCodeFor entry = some sampleConsentID → rejectionOf rejection = some sampleConsentID →
          ∃ last ∈ before, last.thread = entry.thread ∧
            finishes last = true := by
  have hturn : Throughout (DecidedInTurn sampleTables) (sampleRun consentInTurn) := by
    decide +kernel
  exact ⟨by decide +kernel, (consent_decided_once samplePlatform sampleConfig
    sampleTables consentInTurn hturn sampleConsentID).2⟩

/-- A consent that has read the challenge when the other decision comes. -/
def consentRace (other : Request) : Schedule :=
  served 0 (.startAuthorization sampleStart) 1 1 ++
    served 1 (.acceptLogin sampleLoginID "alice" "") 2 2 ++
    [Action.start sampleConsent, .step 2 (moment 3 3)] ++ served 3 other 4 4 ++
    List.replicate 30 (Action.step 2 (moment 5 5))

/-- What happened to a challenge: a code was created, or it was rejected. -/
def consentLog (history : Trace) : List (Sum String String) :=
  history.filterMap fun entry =>
    ((createdCodeFor entry).map Sum.inl).or ((rejectionOf entry).map Sum.inr)

/-- Two racing consents create two codes, and a consent that lost the race
against a rejection creates its code all the same. -/
theorem consentRace_creates_codes :
    consentLog (sampleRun (consentRace sampleConsent)) =
      [.inl sampleConsentID, .inl sampleConsentID] ∧
    consentLog (sampleRun (consentRace sampleRejection)) =
      [.inl sampleConsentID, .inr sampleConsentID] := by
  decide +kernel

end Aegion.OAuth
