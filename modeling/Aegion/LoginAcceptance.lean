/-
The end of a login.  `AcceptLogin` records the identity first and then opens a
consent challenge, which it grants at once where consent is not needed.  A challenge
that was granted like this counts as handled, and what was recorded stays recorded when
the rest fails.
-/
import Aegion.ConsentDecision

namespace Aegion.OAuth

open History Service

section Skipped

variable {platform : Platform} {db : Database} {history before later : Trace}
variable {login : Nat} {challengeID identityID sessionID : String}
variable {resp : ConsentChallengeResponse} {row current : ConsentChallenge}

theorem ConsentChallenge.skip_eq_of_terms_eq {row other : ConsentChallenge}
    (hterms : row.terms = other.terms) : row.skip = other.skip :=
  show row.terms.skip = other.terms.skip from congrArg ConsentChallenge.skip hterms

/-- A skipped consent is handled from the end of the login on. -/
theorem Lawful.handled_of_skip (hlaw : Lawful platform db history)
    (hlogin : ⟨login, .acceptLogin challengeID identityID sessionID,
      .answered (.consentChallenge resp)⟩ :: before <:+ history)
    (hrow : row ∈ (tablesAfter db before).consentChallenges.rows)
    (hid : row.id = resp.consentChallenge) (hskip : row.skip = true) (hafter : before <:+ later)
    (hcurrent : current ∈ (tablesAfter db later).consentChallenges.rows)
    (hcurrentID : current.id = resp.consentChallenge) : current.handled = true := by
  obtain ⟨first, hinserted, hfirstID, hgranted⟩ := hlaw.answer hlogin
  obtain ⟨opened, hopened, -⟩ := hlaw.earlier_suffix hlogin hinserted
  have hversion := consentChallengeLedger.later_of_key_eq hlaw.answers hopened
    ((List.suffix_cons _ _).trans hlogin) ⟨_, rfl, rfl⟩ hrow (hid.trans hfirstID.symm)
  have hfirstSkip : first.skip = true :=
    (ConsentChallenge.skip_eq_of_terms_eq hversion.1).symm.trans hskip
  obtain ⟨scopes, audience, now, n, haccepted⟩ := hgranted hfirstSkip
  obtain ⟨earlier, hearlier, hwhole⟩ := hlaw.earlier_suffix hlogin haccepted
  obtain ⟨-, old, hold, holdID, hhandled⟩ := hlaw.handled_of_accepted hwhole
  obtain ⟨still, hstill, hterms, hkept⟩ :=
    consentChallengeLedger.persists (hearlier.trans hafter) hold
  have hstillID : still.id = current.id :=
    (congrArg ConsentChallenge.id hterms).trans (holdID.trans (hfirstID.trans hcurrentID.symm))
  rw [← Table.row_eq_of_key_eq _ hstill hcurrent hstillID]
  exact hkept hhandled

/-- No code is created for a skipped consent by a call that comes after the login. -/
theorem Lawful.no_code_after_skip (hlaw : Lawful platform db history)
    (hlogin : ⟨login, .acceptLogin challengeID identityID sessionID,
      .answered (.consentChallenge resp)⟩ :: before <:+ history)
    (hrow : row ∈ (tablesAfter db before).consentChallenges.rows)
    (hid : row.id = resp.consentChallenge) (hskip : row.skip = true)
    {thread : Nat} {request : Request} {grantedScopes : List String} {code : AuthCode}
    {reply : Except DBError Unit} {past : Trace}
    (hconsents : Consents request resp.consentChallenge grantedScopes)
    (hnew : ∀ entry ∈ before, entry.thread ≠ thread)
    (hentry : ⟨thread, request, .called ⟨.insertAuthCode code, reply⟩⟩ :: past <:+ history) :
    False := by
  obtain ⟨-, consentID, scopes, challenge, loginChallenge, hrequest, hbasis, -⟩ :=
    hlaw.duty hentry
  have hsame : consentID = resp.consentChallenge := by
    cases request with
    | acceptConsent id granted remember rememberFor =>
        exact hrequest.1.symm.trans hconsents.1
    | acceptConsentForIdentity id owner granted remember rememberFor =>
        exact hrequest.1.symm.trans hconsents.1
    | _ => exact hconsents.elim
  subst hsame
  obtain ⟨read, -, hwhole⟩ := hlaw.earlier_suffix hentry hbasis.read
  obtain ⟨choice, hreply⟩ := hlaw.reply hwhole
  obtain ⟨hchallenge, hchallengeID⟩ := mem_of_select hreply
  -- The challenge was read after the login had ended.
  have hafter : before <:+ read := by
    rcases entry_trichotomy hlogin hwhole with heq | hlt | hlt
    · cases heq
    · exact (List.suffix_cons _ _).trans hlt
    · exact absurd rfl (hnew _ (mem_of_suffix_cons hlt))
  have hhandled := hlaw.handled_of_skip hlogin hrow hid hskip hafter hchallenge hchallengeID
  rw [hbasis.unhandled] at hhandled
  cases hhandled

end Skipped

/-- Skipped consent.  In every run, once a login has been answered with a consent
challenge that is to be skipped, no consent call on that challenge creates a code or
succeeds. -/
theorem skipped_consent_never_yields_code (platform : Platform) (config : DeviceConfig)
    (db : Database) (actions : Schedule) {login : Nat}
    {challengeID identityID sessionID : String} {resp : ConsentChallengeResponse}
    {row : ConsentChallenge} {before : Trace}
    (hlogin : ⟨login, .acceptLogin challengeID identityID sessionID,
      .answered (.consentChallenge resp)⟩ :: before <:+ runFrom platform config db actions)
    (hrow : row ∈ (tablesAfter db before).consentChallenges.rows)
    (hid : row.id = resp.consentChallenge) (hskip : row.skip = true) :
    ∀ thread request grantedScopes step past,
      Consents request resp.consentChallenge grantedScopes →
      (∀ entry ∈ before, entry.thread ≠ thread) →
      ⟨thread, request, step⟩ :: past <:+ runFrom platform config db actions →
        (∀ code reply, step ≠ .called ⟨.insertAuthCode code, reply⟩) ∧
          ∀ answer, step ≠ .answered (.authorization answer) := by
  have hlaw := lawful_of_run platform config db actions
  intro thread request grantedScopes step past hconsents hnew hentry
  constructor
  · rintro code reply rfl
    exact hlaw.no_code_after_skip hlogin hrow hid hskip hconsents hnew hentry
  · rintro answer rfl
    obtain ⟨code, hcreated⟩ := hlaw.answer hentry
    obtain ⟨created, -, hwhole⟩ := hlaw.earlier_suffix hentry hcreated
    exact hlaw.no_code_after_skip hlogin hrow hid hskip hconsents hnew hwhole

/-- The consent challenges that logins skipped before the given thread did anything. -/
def skippedBefore (db : Database) (thread : Nat) (history : Trace) : List String :=
  (points history).filterMap fun
    | (⟨_, .acceptLogin .., .answered (.consentChallenge resp)⟩, past) =>
        ((tablesAfter db past).consentChallenges.find? resp.consentChallenge).bind fun row =>
          if row.skip ∧ ∀ entry ∈ past, entry.thread ≠ thread then some row.id else none
    | _ => none

theorem exists_of_mem_skippedBefore {db : Database} {thread : Nat} {history : Trace}
    {id : String} (hmem : id ∈ skippedBefore db thread history) :
    ∃ login challengeID identityID sessionID resp before, ∃ row : ConsentChallenge,
      ⟨login, .acceptLogin challengeID identityID sessionID,
        .answered (.consentChallenge resp)⟩ :: before <:+ history ∧
      row ∈ (tablesAfter db before).consentChallenges.rows ∧
      row.id = resp.consentChallenge ∧ row.skip = true ∧ resp.consentChallenge = id ∧
      ∀ entry ∈ before, entry.thread ≠ thread := by
  obtain ⟨⟨entry, past⟩, hpoint, hskipped⟩ := List.mem_filterMap.mp hmem
  have hentry := suffix_of_mem_points hpoint
  split at hskipped
  · rename_i login challengeID identityID sessionID resp past' heq
    cases heq
    obtain ⟨row, hfound, hrow⟩ := Option.bind_eq_some_iff.mp hskipped
    obtain ⟨hmemRow, hrowID⟩ := (Table.find?_eq_some_iff _ _ row).mp hfound
    split at hrow
    · rename_i hcondition
      cases hrow
      exact ⟨login, challengeID, identityID, sessionID, resp, past, row, hentry, hmemRow,
        hrowID, hcondition.1, hrowID.symm, hcondition.2⟩
    · cases hrow
  · cases hskipped

/-- The public client, as one that needs no consent. -/
def trustedTables : Database :=
  { sampleTables with clients := ⟨[{ publicClient with requireConsent := false }], by decide⟩ }

/-- The consent of the same identity, to all scopes requested. -/
def skippedConsent : Request :=
  .acceptConsentForIdentity sampleConsentID "alice" ["read", "offline_access"] false none

/-- A login that skips consent, and the consent call that follows. -/
def skippedFlow : Schedule :=
  served 0 (.startAuthorization sampleStart) 1 1 ++
    served 1 (.acceptLogin sampleLoginID "alice" "") 2 2 ++ served 2 skippedConsent 3 3

/-- The consent call comes in time, and is refused. -/
theorem skipped_consent_refused :
    sampleConsentID ∈ skippedBefore trustedTables 2
        (runFrom samplePlatform sampleConfig trustedTables skippedFlow) ∧
      (∀ row ∈ (tablesOf samplePlatform sampleConfig trustedTables
        skippedFlow).consentChallenges.rows, (moment 3 3).now < row.expiresAt ∧
          ["read", "offline_access"] ⊆ row.requestedScopes) ∧
      (2, skippedConsent,
        .failed (.authorization (.invalidRequest "consent already handled"))) ∈
        answers (runFrom samplePlatform sampleConfig trustedTables skippedFlow) ∧
      (tablesOf samplePlatform sampleConfig trustedTables skippedFlow).authCodes.rows = [] := by
  decide +kernel

theorem skippedFlow_yields_no_code :
    ∃ past, ∃ step : Step Reply Response,
      ⟨2, skippedConsent, step⟩ :: past <:+
        runFrom samplePlatform sampleConfig trustedTables skippedFlow ∧
      (∀ code reply, step ≠ .called ⟨.insertAuthCode code, reply⟩) ∧
        ∀ answer, step ≠ .answered (.authorization answer) := by
  have hrun : sampleConsentID ∈ skippedBefore trustedTables 2
        (runFrom samplePlatform sampleConfig trustedTables skippedFlow) ∧
      (2, skippedConsent,
        .failed (.authorization (.invalidRequest "consent already handled"))) ∈
        answers (runFrom samplePlatform sampleConfig trustedTables skippedFlow) := by
    decide +kernel
  obtain ⟨hskipped, hanswer⟩ := hrun
  obtain ⟨login, challengeID, identityID, sessionID, resp, before, row, hlogin, hrow, hid,
    hskip, hconsent, hnew⟩ := exists_of_mem_skippedBefore hskipped
  obtain ⟨past, hentry⟩ := exists_past_of_mem (mem_answers_iff.mp hanswer)
  have hconsents : Consents skippedConsent resp.consentChallenge ["read", "offline_access"] :=
    ⟨hconsent.symm, rfl⟩
  exact ⟨past, _, hentry, skipped_consent_never_yields_code samplePlatform sampleConfig
    trustedTables skippedFlow hlogin hrow hid hskip 2 skippedConsent _ _ past hconsents hnew
    hentry⟩

section Failed

variable {challengeID identityID sessionID : String} {db db' : Database}
variable {choices rest : List Choice}

/-- Calls that leave the login challenges alone. -/
def SparesLogins (call : Called Reply) : Prop :=
  ∀ db, (effect call db).loginChallenges = db.loginChallenges

/-- What `AcceptLogin` does once it has recorded the login. -/
def openConsent (challenge : LoginChallenge) (challengeID identityID sessionID : String) :
    Service Reply AuthorizationError ConsentChallengeResponse := do
  let skipConsent ← skipsConsent challenge identityID
  let created ← nowUTC
  let consentChallenge := consentChallengeFor challenge challengeID identityID
    sessionID skipConsent created
  (createConsentChallenge consentChallenge).orReject .store
  if skipConsent then
    (acceptConsentChallenge consentChallenge.id challenge.scopes
      challenge.audience false none).orReject .store
  return ⟨consentChallenge.id,
    "/oauth2/consent?challenge=" ++ consentChallenge.id⟩

theorem acceptLogin_eq :
    acceptLogin challengeID identityID sessionID =
      ((getLoginChallenge challengeID).orReject fun _ =>
        .invalidRequest "login challenge not found").bind fun challenge =>
      nowUTC.bind fun now => (rejectIf (challenge.expiresAt < now)
        (.invalidRequest "login challenge expired")).bind fun _ =>
      ((acceptLoginChallenge challengeID identityID sessionID).orReject .store).bind fun _ =>
        openConsent challenge challengeID identityID sessionID := rfl

theorem openConsent_spares (challenge : LoginChallenge) :
    (openConsent challenge challengeID identityID sessionID).Only SparesLogins := by
  have hclock : ∀ {ε : Type}, (nowUTC : Service Reply ε Time).Only SparesLogins :=
    only_statement fun _ _ => rfl
  have hskips : (skipsConsent challenge identityID).Only SparesLogins := by
    unfold skipsConsent
    split
    · exact only_succeed
    · refine (Only.attempt (only_statement fun _ _ => rfl)).bind fun client => ?_
      split
      · exact only_succeed
      · exact (Only.attempt (only_statement fun _ _ => rfl)).bind fun _ =>
          hclock.bind fun _ => only_succeed
  refine hskips.bind fun skip => hclock.bind fun created => ?_
  refine Only.bind (Only.orReject ?_) fun _ => ?_
  · refine Only.bind ?_ fun id => hclock.bind fun _ => only_statement fun _ _ => rfl
    unfold orGenerate
    split
    · exact only_statement fun _ _ => rfl
    · exact only_succeed
  · split
    · exact (Only.orReject (hclock.bind fun _ => only_statement fun _ _ => rfl)).bind
        fun _ => only_succeed
    · exact only_succeed

/-- When `AcceptLogin` records the login, if it gets there: the challenge was read and has
not expired, and the update went through. -/
def recordsAt (challengeID : String) (db : Database) : List Choice → Option Time
  | read :: clock :: stamp :: write :: _ =>
      (db.loginChallenges.find? challengeID).bind fun challenge =>
        if read.fails ∨ challenge.expiresAt < clock.now ∨ write.fails then none
        else some stamp.now
  | _ => none

theorem recordsAt_of_unread {read : Choice} (hunread : read.fails = true ∨
    db.loginChallenges.find? challengeID = none) (more : List Choice) :
    recordsAt challengeID db (read :: more) = none := by
  rcases more with _ | ⟨clock, _ | ⟨stamp, _ | ⟨write, more⟩⟩⟩
  · rfl
  · rfl
  · rfl
  · rcases hunread with hfails | hmissing
    · simp [recordsAt, hfails]
    · simp [recordsAt, hmissing]

theorem recordsAt_of_expired {read clock : Choice} {challenge : LoginChallenge}
    (hfound : db.loginChallenges.find? challengeID = some challenge)
    (hexpired : challenge.expiresAt < clock.now) (more : List Choice) :
    recordsAt challengeID db (read :: clock :: more) = none := by
  rcases more with _ | ⟨stamp, _ | ⟨write, more⟩⟩
  · rfl
  · rfl
  · simp [recordsAt, hfound, hexpired]

theorem eq_ok_of_mapError_eq_ok {δ ε α : Type} {x : Except δ α} {wrap : δ → ε} {value : α}
    (hmapped : x.mapError wrap = .ok value) : x = .ok value := by
  cases x with
  | error e => cases hmapped
  | ok value' =>
      cases hmapped
      rfl

theorem getLoginChallenge_run {outcome : Except StoreError LoginChallenge}
    (hrun : (getLoginChallenge challengeID).run perform choices db = some (outcome, db', rest)) :
    db' = db ∧ ∃ read, choices = read :: rest ∧
      outcome = scanRow (answer read (db.loginChallenges.find? challengeID)) := by
  obtain ⟨read, rfl, rfl, rfl⟩ := run_statement_eq_some.mp hrun
  exact ⟨rfl, read, rfl, rfl⟩

theorem nowUTC_run {ε : Type} {outcome : Except ε Time}
    (hrun : (nowUTC : Service Reply ε Time).run perform choices db = some (outcome, db', rest)) :
    db' = db ∧ ∃ clock, choices = clock :: rest ∧ outcome = .ok clock.now := by
  obtain ⟨clock, rfl, rfl, rfl⟩ := run_statement_eq_some.mp hrun
  exact ⟨rfl, clock, rfl, rfl⟩

/-- The update of the login challenge either goes through or changes nothing. -/
theorem acceptLoginChallenge_run {outcome : Except StoreError Unit} {challenge : LoginChallenge}
    (hfound : db.loginChallenges.find? challengeID = some challenge)
    (hrun : (acceptLoginChallenge challengeID identityID sessionID).run perform choices db =
      some (outcome, db', rest)) :
    ∃ stamp write, choices = stamp :: write :: rest ∧
      (write.fails = true ∧ db' = db ∨
        write.fails = false ∧ db'.loginChallenges.find? challengeID =
          some (challenge.assignAccepted identityID sessionID stamp.now)) := by
  rcases run_bind_eq_some.mp hrun with ⟨now, db₁, rest₁, hclock, hwrite⟩ | ⟨e, hclock, -⟩
  · obtain ⟨rfl, stamp, rfl, hnow⟩ := nowUTC_run hclock
    cases hnow
    obtain ⟨write, rfl, -, rfl⟩ := run_statement_eq_some.mp hwrite
    refine ⟨stamp, write, rfl, ?_⟩
    cases hfails : write.fails with
    | true =>
        refine Or.inl ⟨rfl, ?_⟩
        change effect ⟨.updateLoginAccepted .., answer write (Table.affected _ _)⟩ db₁ = db₁
        rw [answer_of_fails hfails]
        rfl
    | false =>
        refine Or.inr ⟨rfl, ?_⟩
        have hkey := ((Table.find?_eq_some_iff _ _ challenge).mp hfound).2
        change (effect ⟨.updateLoginAccepted .., answer write (Table.affected _ _)⟩
          db₁).loginChallenges.find? challengeID = _
        rw [answer_of_not_fails hfails]
        refine (Table.find?_updateWhere db₁.loginChallenges _
          (LoginChallenge.assignAccepted identityID sessionID stamp.now) (fun _ => rfl)
          challengeID).trans ?_
        simp [hfound, hkey]
  · obtain ⟨-, stamp, -, hnow⟩ := nowUTC_run hclock
    cases hnow

/-- The end of `AcceptLogin` leaves the login challenge to the update. -/
theorem openConsent_run {challenge : LoginChallenge}
    {outcome : Except AuthorizationError ConsentChallengeResponse}
    (hrun : (((acceptLoginChallenge challengeID identityID sessionID).orReject .store).bind
      fun _ => openConsent challenge challengeID identityID sessionID).run perform choices db =
        some (outcome, db', rest)) :
    ∃ written db₁ rest₁, (acceptLoginChallenge challengeID identityID sessionID).run perform
        choices db = some (written, db₁, rest₁) ∧
      db'.loginChallenges = db₁.loginChallenges := by
  rcases run_bind_eq_some.mp hrun with ⟨value, db₁, rest₁, hwrite, hopen⟩ | ⟨e, hwrite, -⟩
  · obtain ⟨written, hwrite, -⟩ := run_orReject_eq_some.mp hwrite
    refine ⟨written, db₁, rest₁, hwrite, ?_⟩
    exact (openConsent_spares challenge).run_invariant
      (fun after => after.loginChallenges = db₁.loginChallenges)
      (fun _ _ _ hspares hkept => (hspares _).trans hkept) hopen rfl
  · obtain ⟨written, hwrite, -⟩ := run_orReject_eq_some.mp hwrite
    exact ⟨written, db', rest, hwrite, rfl⟩

theorem exists_of_recordsAt {now : Time} (hrecords : recordsAt challengeID db choices = some now) :
    ∃ challenge, db.loginChallenges.find? challengeID = some challenge := by
  unfold recordsAt at hrecords
  split at hrecords
  · obtain ⟨challenge, hfound, -⟩ := Option.bind_eq_some_iff.mp hrecords
    exact ⟨challenge, hfound⟩
  · cases hrecords

theorem assignAccepted_eq_iff {challenge : LoginChallenge} {now : Time} :
    challenge.assignAccepted identityID sessionID now = challenge ↔
      challenge.identityID = some identityID ∧ challenge.sessionID = some sessionID ∧
        challenge.authenticatedAt = some now := by
  cases challenge
  simp only [LoginChallenge.assignAccepted, LoginChallenge.mk.injEq, true_and, and_true]
  tauto

/-- What a call to `AcceptLogin` leaves in the login challenge, whatever it answers. -/
theorem acceptLogin_run {outcome : Except AuthorizationError ConsentChallengeResponse}
    (hrun : (acceptLogin challengeID identityID sessionID).run perform choices db =
      some (outcome, db', rest)) :
    db'.loginChallenges.find? challengeID =
      match recordsAt challengeID db choices with
      | none => db.loginChallenges.find? challengeID
      | some now => (db.loginChallenges.find? challengeID).map
          (LoginChallenge.assignAccepted identityID sessionID now) := by
  rw [acceptLogin_eq] at hrun
  rcases run_bind_eq_some.mp hrun with ⟨challenge, db₁, rest₁, hread, hvalid⟩ | ⟨e, hread, -⟩
  · obtain ⟨found, hread, hmapped⟩ := run_orReject_eq_some.mp hread
    obtain ⟨rfl, read, rfl, rfl⟩ := getLoginChallenge_run hread
    obtain ⟨hreadable, hfound⟩ :=
      scanRow_answer_eq_ok_iff.mp (eq_ok_of_mapError_eq_ok hmapped)
    rcases run_bind_eq_some.mp hvalid with ⟨now, db₂, rest₂, hclock, hvalid⟩ | ⟨e, hclock, -⟩
    · obtain ⟨rfl, clock, rfl, hnow⟩ := nowUTC_run hclock
      cases hnow
      rw [run_bind, run_rejectIf, Option.bind_some] at hvalid
      by_cases hexpired : challenge.expiresAt < clock.now
      · rw [if_pos hexpired, resume_error] at hvalid
        cases hvalid
        rw [recordsAt_of_expired hfound hexpired]
      · rw [if_neg hexpired, resume_ok] at hvalid
        obtain ⟨written, db₃, rest₃, hwrite, hsame⟩ := openConsent_run hvalid
        obtain ⟨stamp, write, rfl, hwritten⟩ := acceptLoginChallenge_run hfound hwrite
        rw [hsame]
        rcases hwritten with ⟨hfails, rfl⟩ | ⟨hfails, hwritten⟩
        · simp [recordsAt, hfound, hfails]
        · simp [recordsAt, hfound, hfails, hreadable, hexpired, hwritten]
    · obtain ⟨-, clock, -, hnow⟩ := nowUTC_run hclock
      cases hnow
  · obtain ⟨missing, hread, hmapped⟩ := run_orReject_eq_some.mp hread
    obtain ⟨rfl, read, rfl, rfl⟩ := getLoginChallenge_run hread
    rw [recordsAt_of_unread]
    by_contra hreadable
    rw [not_or, Bool.not_eq_true, ← ne_eq, Option.ne_none_iff_exists'] at hreadable
    obtain ⟨hfails, challenge, hfound⟩ := hreadable
    rw [scanRow_answer_eq_ok_iff.mpr ⟨hfails, hfound⟩] at hmapped
    cases hmapped

/-- A failed login.  `AcceptLogin` leaves the login challenge as it was exactly if it has
not got to record the login, or the challenge said the same already. -/
theorem failed_acceptLogin_unchanged_iff {e : AuthorizationError}
    (hrun : (acceptLogin challengeID identityID sessionID).run perform choices db =
      some (.error e, db', rest)) :
    db'.loginChallenges.find? challengeID = db.loginChallenges.find? challengeID ↔
      ∀ now, recordsAt challengeID db choices = some now →
        ∃ challenge, db.loginChallenges.find? challengeID = some challenge ∧
          challenge.identityID = some identityID ∧ challenge.sessionID = some sessionID ∧
          challenge.authenticatedAt = some now := by
  rw [acceptLogin_run hrun]
  cases hrecords : recordsAt challengeID db choices with
  | none => simp
  | some now =>
      obtain ⟨challenge, hfound⟩ := exists_of_recordsAt hrecords
      simp only [hfound, Option.map_some, Option.some.injEq, forall_eq', exists_eq_left',
        assignAccepted_eq_iff]

end Failed

/-- The tables after a login by one identity. -/
def loggedInTables : Database :=
  tablesOf samplePlatform sampleConfig sampleTables
    (served 0 (.startAuthorization sampleStart) 1 1 ++
      served 1 (.acceptLogin sampleLoginID "alice" "") 2 2)

/-- The outcome of a second login by another identity, and the identity it leaves. -/
def secondLogin : Option (Bool × Option String) :=
  ((acceptLogin sampleLoginID "mallory" "").run perform (List.replicate 10 (moment 3 3))
    loggedInTables).map fun (outcome, db, _) =>
      (outcome.isOk, (db.loginChallenges.find? sampleLoginID).bind LoginChallenge.identityID)

/-- The second login fails and takes over the challenge. -/
theorem second_login_takes_over :
    (loggedInTables.loginChallenges.find? sampleLoginID).bind LoginChallenge.identityID =
        some "alice" ∧ secondLogin = some (false, some "mallory") := by
  decide +kernel

theorem second_login_changes_challenge :
    ∃ e db' rest, (acceptLogin sampleLoginID "mallory" "").run perform
        (List.replicate 10 (moment 3 3)) loggedInTables = some (.error e, db', rest) ∧
      (db'.loginChallenges.find? sampleLoginID =
          loggedInTables.loginChallenges.find? sampleLoginID ↔
        ∀ now, recordsAt sampleLoginID loggedInTables (List.replicate 10 (moment 3 3)) = some now →
          ∃ challenge, loggedInTables.loginChallenges.find? sampleLoginID = some challenge ∧
            challenge.identityID = some "mallory" ∧ challenge.sessionID = some "" ∧
            challenge.authenticatedAt = some now) := by
  have hfails : secondLogin.map Prod.fst = some false := by
    decide +kernel
  unfold secondLogin at hfails
  cases hrun : (acceptLogin sampleLoginID "mallory" "").run perform
      (List.replicate 10 (moment 3 3)) loggedInTables with
  | none =>
      rw [hrun] at hfails
      cases hfails
  | some result =>
      obtain ⟨outcome, db', rest⟩ := result
      rw [hrun] at hfails
      cases outcome with
      | ok resp => cases hfails
      | error e => exact ⟨e, db', rest, rfl, failed_acceptLogin_unchanged_iff hrun⟩

end Aegion.OAuth
