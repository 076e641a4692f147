/-
Every service keeps its duties, whatever the database replies.
-/
import Aegion.OAuthDuties

namespace Aegion.OAuth

open Service

/-- A scan succeeds on the replies that hold a row. -/
theorem forall_scanRow_iff {α : Type} {P : Except DBError (Option α) → α → Prop} :
    (∀ reply value, scanRow reply = .ok value → P reply value) ↔ ∀ row, P (.ok (some row)) row := by
  constructor
  · intro hall row
    exact hall (.ok (some row)) row rfl
  · rintro hall (e | _ | row) value hvalue
    · cases hvalue
    · cases hvalue
    · cases hvalue
      exact hall row

/-- A checked update succeeds on the replies that count a row. -/
theorem forall_execAffected_iff {missing : StoreError} {P : Except DBError Nat → Unit → Prop} :
    (∀ reply value, execAffected missing reply = .ok value → P reply value) ↔
      ∀ n, P (.ok (n + 1)) () := by
  constructor
  · intro hall n
    exact hall (.ok (n + 1)) () rfl
  · rintro hall (e | _ | n) value hvalue
    · cases hvalue
    · cases hvalue
    · exact hall n

/-- An update that succeeds has touched a row. -/
theorem eq_of_execAffected {missing : StoreError} {reply : Except DBError Nat}
    {value : Unit} (hok : execAffected missing reply = .ok value) : ∃ n, reply = .ok (n + 1) := by
  rcases reply with e | _ | n
  · cases hok
  · cases hok
  · exact ⟨n, rfl⟩

/-- A plain insert succeeds when it is acknowledged. -/
theorem forall_execDone_iff {α : Type} {P : Except DBError α → Unit → Prop} :
    (∀ reply value, execDone reply = .ok value → P reply value) ↔ ∀ n, P (.ok n) () := by
  constructor
  · intro hall n
    exact hall (.ok n) () rfl
  · rintro hall (e | n) value hvalue
    · cases hvalue
    · exact hall n

section Methods

variable {platform : Platform} {request : Request} {past : Past}

attribute [local simp] callDuty

/-- A step that makes only plain calls. -/
theorem yields_plain {ε α : Type} {x : Service Reply ε α}
    {post : α → Past → Prop} (honly : x.Only Plain)
    (hpost : ∀ value later, Extends past later → post value later) :
    x.Yields (callDuty platform request) post past :=
  honly.yields (callDuty_of_plain platform request) fun value _ hplain =>
    hpost value _ (Extends.plain hplain)

@[simp]
theorem yields_nowUTC {ε : Type} {post : Time → Past → Prop} :
    (nowUTC : Service Reply ε Time).Yields (callDuty platform request) post
      past ↔ ∀ now, post now (⟨.clock, now⟩ :: past) := by
  simp [nowUTC]

/-- An identifier that was drawn stands in the past as its bytes. -/
@[simp]
theorem yields_generateID {start : String} {length : Nat} {post : String → Past → Prop} :
    (generateID start length).Yields (callDuty platform request) post past ↔
      ∀ bytes, post (start ++ Base64.encodeRawURL bytes)
        (⟨.randomBytes length, .ok bytes⟩ :: past) := by
  simp only [generateID, yields_statement, callDuty, true_and]
  constructor
  · intro hall bytes
    exact hall (.ok bytes) _ rfl
  · rintro hall (e | bytes) value hvalue
    · cases hvalue
    · cases hvalue
      exact hall bytes

/-- A row that was read stands in the past; so for the reads below. -/
@[simp]
theorem yields_getClient {id : String} {post : Client → Past → Prop} :
    (getClient id).Yields (callDuty platform request) post past ↔
      ∀ client, post client (⟨.selectClient id, .ok (some client)⟩ :: past) := by
  simp only [getClient, yields_statement, callDuty, true_and]
  exact forall_scanRow_iff

@[simp]
theorem yields_getLoginChallenge {id : String} {post : LoginChallenge → Past → Prop} :
    (getLoginChallenge id).Yields (callDuty platform request) post past ↔
      ∀ row, post row (⟨.selectLoginChallenge id, .ok (some row)⟩ :: past) := by
  simp only [getLoginChallenge, yields_statement, callDuty, true_and]
  exact forall_scanRow_iff

@[simp]
theorem yields_getConsentChallenge {id : String} {post : ConsentChallenge → Past → Prop} :
    (getConsentChallenge id).Yields (callDuty platform request) post past ↔
      ∀ row, post row (⟨.selectConsentChallenge id, .ok (some row)⟩ :: past) := by
  simp only [getConsentChallenge, yields_statement, callDuty, true_and]
  exact forall_scanRow_iff

@[simp]
theorem yields_getAuthCode {code : String} {post : AuthCode → Past → Prop} :
    (getAuthCode code).Yields (callDuty platform request) post past ↔
      ∀ row, post row (⟨.selectAuthCode code, .ok (some row)⟩ :: past) := by
  simp only [getAuthCode, yields_statement, callDuty, true_and]
  exact forall_scanRow_iff

theorem yields_getRefreshToken {id : String} {post : RefreshToken → Past → Prop}
    (hduty : ∀ reply, callDuty platform request past ⟨.selectRefreshToken id, reply⟩) :
    (getRefreshToken id).Yields (callDuty platform request) post past ↔
      ∀ row, post row (⟨.selectRefreshToken id, .ok (some row)⟩ :: past) := by
  simp only [getRefreshToken, yields_statement, hduty, true_and]
  exact forall_scanRow_iff

/-- The decision is dated by the clock reading before it. -/
@[simp]
theorem yields_acceptConsentChallenge {id : String}
    {scopes audience : List String} {remember : Bool} {rememberFor : Option Int}
    {post : Unit → Past → Prop} :
    (acceptConsentChallenge id scopes audience remember rememberFor).Yields
        (callDuty platform request) post past ↔
      ∀ now n, post () (⟨.updateConsentAccepted id scopes audience remember
        rememberFor now, .ok (n + 1)⟩ :: ⟨.clock, now⟩ :: past) := by
  simp only [acceptConsentChallenge, bind_eq, yields_bind, yields_nowUTC,
    yields_statement, callDuty, true_and]
  exact forall_congr' fun now => forall_execAffected_iff

@[simp]
theorem yields_markAuthCodeUsed {code : String} {post : Unit → Past → Prop} :
    (markAuthCodeUsed code).Yields (callDuty platform request) post past ↔
      ∀ now n, post () (⟨.updateAuthCodeUsed code now, .ok (n + 1)⟩ :: ⟨.clock, now⟩ :: past) := by
  simp only [markAuthCodeUsed, bind_eq, yields_bind, yields_nowUTC,
    yields_statement, callDuty, true_and]
  exact forall_congr' fun now => forall_execAffected_iff

/-- Append to a nonempty start is nonempty. -/
theorem append_ne_empty {start : String} (hstart : start ≠ "") (rest : String) :
    start ++ rest ≠ "" := by
  intro hempty
  have hlist := congrArg String.toList hempty
  rw [String.toList_append] at hlist
  exact hstart (String.toList_inj.mp (List.append_eq_nil_iff.mp hlist).1)

theorem orGenerate_of_ne {id : String} (hid : id ≠ "")
    (generate : StoreM String) : orGenerate id generate = succeed id := by
  simp [orGenerate, hid]

/-- No id is drawn for a challenge that has one. -/
theorem yields_createLoginChallenge {challenge : LoginChallenge}
    (hid : challenge.id ≠ "") {post : Unit → Past → Prop} :
    (createLoginChallenge challenge).Yields (callDuty platform request) post past ↔
      ∀ now reply, callDuty platform request (⟨.clock, now⟩ :: past)
          ⟨.insertLoginChallenge { challenge with createdAt := now }, reply⟩ ∧
        ∀ value, execDone reply = .ok value → post value
          (⟨.insertLoginChallenge { challenge with createdAt := now }, reply⟩ ::
            ⟨.clock, now⟩ :: past) := by
  simp only [createLoginChallenge, orGenerate_of_ne hid, bind_eq, yields_bind,
    yields_succeed, yields_nowUTC, yields_statement]

theorem yields_createConsentChallenge {challenge : ConsentChallenge}
    (hid : challenge.id ≠ "") {post : Unit → Past → Prop} :
    (createConsentChallenge challenge).Yields (callDuty platform request) post past ↔
      ∀ now reply, callDuty platform request (⟨.clock, now⟩ :: past)
          ⟨.insertConsentChallenge { challenge with createdAt := now }, reply⟩ ∧
        ∀ value, execDone reply = .ok value → post value
          (⟨.insertConsentChallenge { challenge with createdAt := now }, reply⟩ ::
            ⟨.clock, now⟩ :: past) := by
  simp only [createConsentChallenge, orGenerate_of_ne hid, bind_eq, yields_bind,
    yields_succeed, yields_nowUTC, yields_statement]

end Methods

section Quiet

theorem only_nowUTC {ε : Type} : (nowUTC : Service Reply ε Time).Only Plain :=
  only_statement fun _ => rfl

/-- Sixteen bytes are drawn for a token family only. -/
theorem only_generateID {start : String} {length : Nat} (hlength : length ≠ 16) :
    (generateID start length).Only Plain :=
  only_statement fun _ => by simp [Plain, Call.plain, hlength]

theorem only_orGenerate {id : String} {generate : StoreM String} (hgenerate : generate.Only Plain) :
    (orGenerate id generate).Only Plain := by
  unfold orGenerate
  split
  · exact hgenerate
  · exact only_succeed

theorem only_getClient {id : String} : (getClient id).Only Plain :=
  only_statement fun _ => rfl

theorem only_acceptLoginChallenge {id identityID sessionID : String} :
    (acceptLoginChallenge id identityID sessionID).Only Plain :=
  only_nowUTC.bind fun _ => only_statement fun _ => rfl

theorem only_skipsConsent {challenge : LoginChallenge} {identityID : String} :
    (skipsConsent challenge identityID).Only Plain := by
  unfold skipsConsent
  split
  · exact only_succeed
  · refine only_getClient.attempt.bind fun client => ?_
    split
    · exact only_succeed
    · have hsession : (getConsentSession challenge.clientID identityID).Only
          Plain := only_statement fun _ => rfl
      exact hsession.attempt.bind fun _ => only_nowUTC.bind fun _ =>
        only_succeed

theorem only_getSessionAuthContext (sessionID : String) :
    (getSessionAuthContext sessionID).Only Plain :=
  only_rejectIf.bind fun _ => (only_statement fun _ => rfl).bind fun _ =>
    (only_statement fun _ => rfl).bind fun _ => only_succeed

theorem only_resolveAuthContext {tables : Go.CaseTables}
    {login : LoginChallenge} {sessionID : String} :
    (resolveAuthContext tables login sessionID).Only Plain := by
  refine only_nowUTC.bind fun now => ?_
  refine Only.bind ?_ ?_
  · exact Only.attempt (only_getSessionAuthContext sessionID)
  · intro outcome
    split
    · exact only_succeed
    · exact only_succeed
    · exact only_reject

theorem only_rememberConsent {challenge : ConsentChallenge}
    {scopes : List String} {rememberFor : Option Int} :
    (rememberConsent challenge scopes rememberFor).Only Plain := by
  have hgenerate : generateClientID.Only Plain := only_generateID (by decide)
  refine only_nowUTC.bind fun now => hgenerate.orReject.bind fun id => ?_
  refine Only.bind (Only.attempt ?_) fun _ => only_succeed
  exact only_nowUTC.bind fun _ => only_statement fun _ => rfl

end Quiet

section Authorization

variable (platform : Platform) (past : Past)

/-- The login challenge that is stored has the terms of the request and of its client. -/
theorem startAuthorization_yields (req : AuthorizeRequest) :
    (startAuthorization req).Yields (callDuty platform (.startAuthorization req))
      (fun _ _ => True) past := by
  simp only [startAuthorization, generateLoginChallenge, bind_eq, yields_bind,
    yields_ofExcept, yields_orReject, yields_getClient, yields_generateID,
    yields_nowUTC, pure_eq, yields_succeed]
  intro _ _ client _ hclient bytes now
  have hid : (loginChallengeFor req client ("lc_" ++ Base64.encodeRawURL bytes) now).id ≠ "" :=
    append_ne_empty (by decide) _
  rw [yields_createLoginChallenge hid]
  intro created reply
  refine ⟨⟨req, client, rfl, ?_, hclient, _, now, created, rfl⟩, fun _ _ => trivial⟩
  simp

/-- The consent challenge that is stored has the terms of the login challenge read. -/
theorem acceptLogin_yields (challengeID identityID sessionID : String) :
    (acceptLogin challengeID identityID sessionID).Yields
      (callDuty platform (.acceptLogin challengeID identityID sessionID)) ConsentOpened past := by
  simp only [acceptLogin, bind_eq, yields_bind, yields_orReject,
    yields_getLoginChallenge, yields_nowUTC, yields_rejectIf]
  intro login now _
  refine yields_plain only_acceptLoginChallenge fun _ accepted haccepted => ?_
  refine yields_plain only_skipsConsent fun skip decided hdecided => ?_
  intro created
  have hid : (consentChallengeFor login challengeID identityID sessionID skip created).id ≠ "" := by
    intro hempty
    have hlist := congrArg String.toList hempty
    simp [consentChallengeFor] at hlist
  rw [yields_createConsentChallenge hid]
  intro stamped reply
  refine ⟨⟨challengeID, identityID, sessionID, login, rfl, ?_, skip, created, stamped, rfl⟩, ?_⟩
  · have hread := hdecided.mem (haccepted.mem (List.mem_cons_of_mem _
      (List.mem_cons_self (a := (⟨.selectLoginChallenge challengeID,
        .ok (some login)⟩ : Called Reply)) (l := past))))
    exact List.mem_cons_of_mem _ (List.mem_cons_of_mem _ hread)
  · rintro ⟨⟩ hacknowledged
    have hstored : reply = .ok () := by
      rcases reply with e | ⟨⟨⟩⟩
      · cases hacknowledged
      · rfl
    subst hstored
    split
    · simp only [yields_bind, yields_orReject, yields_acceptConsentChallenge, pure_eq,
        yields_succeed]
      intro stamp n
      exact ⟨_, List.mem_cons_of_mem _ (List.mem_cons_of_mem _ List.mem_cons_self), rfl,
        fun _ => ⟨_, _, stamp, n, List.mem_cons_self⟩⟩
    · rename_i hkept
      simp only [pure_eq, yields_succeed]
      exact ⟨_, List.mem_cons_self, rfl, fun hskip => absurd hskip hkept⟩

/-- The code that is stored has the terms of the consent, which was accepted before. -/
theorem issueAuthCode_yields {request : Request} {challengeID : String}
    {grantedScopes : List String} {challenge : ConsentChallenge}
    (hconsents : Consents request challengeID grantedScopes)
    (hread : ⟨.selectConsentChallenge challengeID, .ok (some challenge)⟩ ∈ past)
    (hunhandled : challenge.handled = false) (hsubset : grantedScopes ⊆ challenge.requestedScopes)
    (haccepted : ∃ audience remember rememberFor now n,
      ⟨.updateConsentAccepted challengeID grantedScopes audience remember
        rememberFor now, .ok (n + 1)⟩ ∈ past)
    (hfirst : ∀ row reply, ⟨.insertAuthCode row, reply⟩ ∉ past) :
    (issueAuthCode platform.tables challenge grantedScopes).Yields
      (callDuty platform request) (fun _ => CodeCreated) past := by
  simp only [issueAuthCode, createAuthCode, bind_eq, yields_bind,
    yields_orReject, yields_getLoginChallenge]
  intro login
  refine yields_plain only_resolveAuthContext fun context resolved hresolved => ?_
  refine yields_plain (only_generateID (by decide)) fun value drawn hdrawn => ?_
  simp only [yields_nowUTC]
  intro now
  refine yields_plain (only_orGenerate (only_generateID (by decide))) fun code chosen hchosen => ?_
  simp only [yields_statement]
  intro created reply
  have hextends : Extends (⟨.selectLoginChallenge challenge.loginChallengeID,
      .ok (some login)⟩ :: past) (⟨.clock, created⟩ :: chosen) := by
    have hclock : Extends drawn (⟨.clock, now⟩ :: drawn) :=
      (Extends.refl drawn).consPlain rfl
    exact (((hresolved.trans hdrawn).trans hclock).trans hchosen).consPlain rfl
  obtain ⟨audience, remember, rememberFor, stamp, n, hupdate⟩ := haccepted
  have hbasis : ConsentBasis challengeID grantedScopes
      (⟨.clock, created⟩ :: chosen) challenge login :=
    { read := hextends.mem (List.mem_cons_of_mem _ hread)
      unhandled := hunhandled
      subset := hsubset
      accepted := ⟨audience, remember, rememberFor, stamp, n,
        hextends.mem (List.mem_cons_of_mem _ hupdate)⟩
      readLogin := hextends.mem List.mem_cons_self }
  refine ⟨⟨?_, challengeID, grantedScopes, challenge, login, hconsents, hbasis,
    context, code, now, created, _, rfl⟩, ?_⟩
  · intro other reply' hmem
    rcases List.mem_cons.mp (hextends.codes other reply' hmem) with heq | hpast
    · cases heq
    · exact hfirst other reply' hpast
  · rintro ⟨⟩ hacknowledged
    simp only [pure_eq, yields_succeed]
    rcases reply with e | ⟨⟨⟩⟩
    · cases e <;> cases hacknowledged
    · exact ⟨_, List.mem_cons_self⟩

theorem acceptConsent_yields {request : Request} {challengeID : String}
    {grantedScopes : List String}
    (hconsents : Consents request challengeID grantedScopes) (remember : Bool)
    (rememberFor : Option Int) (hfirst : ∀ row reply, ⟨.insertAuthCode row, reply⟩ ∉ past) :
    (acceptConsent platform.tables challengeID grantedScopes remember
      rememberFor).Yields (callDuty platform request) (fun _ => CodeCreated) past := by
  simp only [acceptConsent, bind_eq, yields_bind, yields_orReject,
    yields_getConsentChallenge, yields_nowUTC, yields_rejectIf,
    yields_acceptConsentChallenge]
  intro challenge now _ hunhandled hsubset stamp n
  have hread : ∀ later, Extends (⟨.updateConsentAccepted challengeID
      grantedScopes challenge.requestedAudience remember rememberFor stamp,
        .ok (n + 1)⟩ :: ⟨.clock, stamp⟩ :: ⟨.clock, now⟩ ::
        ⟨.selectConsentChallenge challengeID, .ok (some challenge)⟩ :: past)
        later → (issueAuthCode platform.tables challenge grantedScopes).Yields
          (callDuty platform request) (fun _ => CodeCreated) later := by
    intro later hlater
    refine issueAuthCode_yields platform later hconsents
      (hlater.mem (by simp)) (Bool.eq_false_iff.mpr hunhandled) ?_
      ⟨_, _, _, _, n, hlater.mem List.mem_cons_self⟩ ?_
    · exact isSubset_iff.mp (Bool.not_eq_false _ ▸ hsubset)
    · intro row reply hmem
      have hpast := hlater.codes row reply hmem
      simp only [List.mem_cons, Sigma.mk.injEq, reduceCtorEq, false_and, false_or] at hpast
      exact hfirst row reply hpast
  split
  · simp only [yields_bind]
    exact yields_plain only_rememberConsent fun _ later hlater =>
      hread later hlater
  · exact hread _ (Extends.refl _)

end Authorization

end Aegion.OAuth
