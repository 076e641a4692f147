/-
Every request keeps its duties, and so every history of the system is lawful:
each thread serves one request, owes and keeps its duties, and sees the replies
of the replayed tables.
-/
import Aegion.OAuthTokenConduct

namespace Aegion

namespace OAuth

open Service

section Plain

variable {platform : Platform} {request : Request} {past : Past}

theorem plainAccessToken_issued (platform : Platform) (client : Client)
    (identityID subject : String) (bytes : List UInt8)
    (scopes audience : List String) (now created : Time) {jwt : String}
    (hsigned : SignedFirst platform jwt
      { plainAccessToken platform client identityID subject
          ("at_" ++ Base64.encodeRawURL bytes) scopes audience now with
        createdAt := created }) :
    IssuedPlain platform client
      { plainAccessToken platform client identityID subject
          ("at_" ++ Base64.encodeRawURL bytes) scopes audience now with
        createdAt := created } jwt where
  jti := ⟨bytes, rfl⟩
  signedFirst := hsigned
  issuer := rfl
  unrevoked := rfl
  signature := rfl
  clientID := rfl

theorem issuePlainToken_yields {client : Client} {identityID subject : String}
    {audienceClaim : Json} {scopes audience : List String}
    (haudience : JWT.normalizeAudienceClaim audienceClaim = .ok (audience.headD ""))
    (hbasis : PlainBasis platform request past client) :
    (issuePlainToken platform client identityID subject audienceClaim scopes
      audience).Yields (callDuty platform request)
      (fun resp later => ∃ row, PlainBasis platform request later client ∧
        ⟨.insertAccessToken row, .ok ()⟩ ∈ later ∧
        IssuedPlain platform client row resp.accessToken) past := by
  simp only [issuePlainToken, generateAccessTokenJTI, bind_eq, yields_bind,
    yields_nowUTC, yields_orReject, yields_generateID]
  intro now bytes
  rw [yields_signClaims (mapClaims_accessClaims haudience)]
  intro nonce
  have hjti : "at_" ++ Base64.encodeRawURL bytes ≠ "" :=
    append_ne_empty (by decide) _
  rw [yields_createAccessToken hjti]
  intro created reply
  have hextends : Extends past (⟨.clock, created⟩ ::
      ⟨.randomBytes 32, .ok nonce⟩ :: ⟨.randomBytes 32, .ok bytes⟩ :: ⟨.clock, now⟩ :: past) := by
    refine Extends.consPlain ?_ rfl
    refine Extends.consPlain ?_ rfl
    refine Extends.consPlain ?_ rfl
    exact (Extends.refl past).consPlain rfl
  refine ⟨Or.inr ⟨client, _, hbasis.extend hextends, plainAccessToken_issued
    platform client identityID subject bytes scopes audience now created
      ⟨unix now, nonce, rfl⟩⟩, ?_⟩
  rintro ⟨⟩ hacknowledged
  simp only [pure_eq, yields_succeed]
  refine ⟨_, hbasis.extend (hextends.cons (by simp) (by simp)), ?_,
    plainAccessToken_issued platform client identityID subject bytes scopes
      audience now created ⟨unix now, nonce, rfl⟩⟩
  rcases reply with e | ⟨⟨⟩⟩
  · cases hacknowledged
  · exact List.mem_cons_self

theorem yields_confidentialClient {clientID clientSecret grantType : String}
    {post : Client → Past → Prop} (hpost : ∀ client later,
      ClientBasis platform later clientID clientSecret client → post client later) :
    (confidentialClient platform clientID clientSecret grantType).Yields
      (callDuty platform request) post past := by
  simp only [confidentialClient, bind_eq, yields_bind, yields_orReject,
    yields_getClient, yields_rejectIf, pure_eq, yields_succeed]
  intro client _ hauthenticated _
  exact hpost client _ ⟨List.mem_cons_self, by simpa using hauthenticated⟩

theorem issueClientCredentials_yields (req : ClientCredentialsRequest) :
    (issueClientCredentials platform req).Yields (callDuty platform (.issueClientCredentials req))
      (fun resp later => ∃ client row,
        PlainBasis platform (.issueClientCredentials req) later client ∧
        ⟨.insertAccessToken row, .ok ()⟩ ∈ later ∧
        IssuedPlain platform client row resp.accessToken) past := by
  simp only [issueClientCredentials, bind_eq, yields_bind, yields_rejectIf]
  intro _
  refine yields_confidentialClient fun client opened hclient => ?_
  intro _
  have hbasis : PlainBasis platform (.issueClientCredentials req) opened client :=
    hclient
  exact (issuePlainToken_yields rfl hbasis).imp fun _ _ _ hissued => ⟨client, hissued⟩

theorem issueJWTBearer_yields (req : JWTBearerRequest) :
    (issueJWTBearer platform req).Yields (callDuty platform (.issueJWTBearer req))
      (fun resp later => ∃ client row,
        PlainBasis platform (.issueJWTBearer req) later client ∧
        ⟨.insertAccessToken row, .ok ()⟩ ∈ later ∧
        IssuedPlain platform client row resp.accessToken) past := by
  simp only [issueJWTBearer, bind_eq, yields_bind, yields_rejectIf, yields_ofExcept]
  intro _
  refine yields_confidentialClient fun client opened hclient => ?_
  intro claims _ _
  have hbasis : PlainBasis platform (.issueJWTBearer req) opened client :=
    hclient
  exact (issuePlainToken_yields rfl hbasis).imp fun _ _ _ hissued => ⟨client, hissued⟩

end Plain

section Quiet

/-- Calls whose duty the request meets whenever they come. -/
def Allowed (platform : Platform) (request : Request) (call : Called Reply) : Prop :=
  ∀ past, callDuty platform request past call

variable {platform : Platform} {request : Request}

theorem only_createClient {client : Client} :
    (createClient client).Only (Allowed platform request) := by
  refine Only.bind ?_ fun _ => only_statement fun _ _ => trivial
  unfold orGenerate
  split
  · exact only_statement fun _ _ => trivial
  · exact only_succeed

theorem only_updateClient {client : Client} :
    (updateClient client).Only (Allowed platform request) :=
  only_statement fun _ _ => trivial

theorem only_checkConsentOwner {challengeID identityID : String} :
    (checkConsentOwner challengeID identityID).Only Plain := by
  have hread : (getConsentChallenge challengeID).Only Plain :=
    only_statement fun _ => rfl
  exact hread.orReject.bind fun _ => only_rejectIf

theorem only_rejectConsent {challengeID errorCode errorDesc : String} :
    (rejectConsent challengeID errorCode errorDesc).Only Plain := by
  have hupdate : (rejectConsentChallenge challengeID errorCode errorDesc).Only
      Plain := only_nowUTC.bind fun _ => only_statement fun _ => rfl
  exact hupdate.orReject

theorem allowed_of_plain (call : Called Reply) (hplain : Plain call) :
    Allowed platform request call :=
  fun past => callDuty_of_plain platform request past call hplain

/-- The calls of a revocation of the presented string. -/
def RevocationCall (token : String) (call : Called Reply) : Prop :=
  match call.1 with
  | .clock => True
  | .selectClient _ => True
  | .updateAccessTokenRevoked jti _ => jti = token
  | .selectRefreshToken _ => True
  | .updateRefreshFamilyInactive _ => True
  | _ => False

theorem allowed_of_revocationCall (req : RevocationRequest) (call : Called Reply)
    (hcall : RevocationCall req.token call) : Allowed platform (.revokeToken req) call := by
  obtain ⟨c, reply⟩ := call
  cases c with
  | clock => exact fun _ => trivial
  | selectClient id => exact fun _ => trivial
  | updateAccessTokenRevoked jti now => exact fun _ => trivial
  | selectRefreshToken id => exact fun _ _ _ hrequest => nomatch hrequest
  | updateRefreshFamilyInactive familyID => exact fun _ => trivial
  | _ => exact hcall.elim

theorem only_revokeAsRefreshToken {req : RevocationRequest} {client : Client} {token : String} :
    (revokeAsRefreshToken req client).Only (RevocationCall token) := by
  have hread : (getRefreshToken req.token).Only (RevocationCall token) :=
    only_statement fun _ => trivial
  unfold revokeAsRefreshToken
  split
  · refine hread.attempt.bind fun found => ?_
    split
    · exact only_succeed
    · rename_i refreshToken
      have hinvalidate : (invalidateRefreshTokenFamily
          refreshToken.familyID).Only (RevocationCall token) :=
        only_statement fun _ => trivial
      split
      · exact only_succeed
      · exact hinvalidate.attempt.bind fun _ => only_succeed
  · exact only_succeed

theorem only_revokeToken {req : RevocationRequest} :
    (revokeToken platform req).Only (RevocationCall req.token) := by
  have hclient : (getClient req.clientID).Only (RevocationCall req.token) :=
    only_statement fun _ => trivial
  have hclock : (nowUTC : StoreM Time).Only
      (RevocationCall req.token) := only_statement fun _ => trivial
  have hrevoke : (revokeAccessToken req.token).Only (RevocationCall req.token) :=
    hclock.bind fun _ => only_statement fun _ => rfl
  refine only_rejectIf.bind fun _ => hclient.orReject.bind fun client =>
    only_rejectIf.bind fun _ => ?_
  split
  · refine hrevoke.attempt.bind fun revoked => ?_
    split
    · exact only_succeed
    · exact only_revokeAsRefreshToken
  · exact only_revokeAsRefreshToken

theorem only_introspectToken {req : IntrospectionRequest} :
    (introspectToken platform req).Only Plain := by
  have hresolve : (resolveAccessTokenForIntrospection platform req.token).Only
      Plain := by
    have hread : (getAccessToken req.token).Only Plain :=
      only_statement fun _ => rfl
    refine hread.attempt.bind fun found => ?_
    split
    · exact only_succeed
    · exact only_statement fun _ => rfl
    · exact only_reject
  refine only_rejectIf.bind fun _ => only_getClient.orReject.bind fun client =>
    only_rejectIf.bind fun _ => only_rejectIf.bind fun _ =>
      only_rejectIf.bind fun _ => hresolve.attempt.bind fun found => ?_
  split
  · exact only_succeed
  · exact only_reject
  · refine only_nowUTC.bind fun now => ?_
    split
    · exact only_succeed
    · exact only_rejectIf.bind fun _ => only_succeed

theorem only_validateAccessToken {token : String} :
    (validateAccessToken platform token).Only Plain := by
  have hverify : ∀ opts, (JWT.verify platform token opts).Only Plain :=
    fun opts => only_rejectIf.bind fun _ => only_ofExcept.bind fun _ =>
      only_nowUTC.bind fun _ => only_ofExcept.bind fun _ => only_succeed
  have hread : ∀ jti, (getAccessToken jti).Only Plain :=
    fun jti => only_statement fun _ => rfl
  exact (hverify _).orReject.bind fun _ => only_rejectIf.bind fun _ =>
    (hread _).orReject.bind fun _ => only_nowUTC.bind fun _ =>
      only_rejectIf.bind fun _ => only_rejectIf.bind fun _ =>
        only_rejectIf.bind fun _ => only_succeed

theorem only_drawUserCode (n : Nat) : (drawUserCode n).Only Plain := by
  induction n with
  | zero => exact only_succeed
  | succ n ih =>
      refine Only.bind ?_ fun _ => ih.bind fun _ => only_succeed
      exact only_statement fun _ => rfl

theorem only_requestDeviceAuthorization {config : DeviceConfig} {clientID scope : String} :
    (requestDeviceAuthorization platform config clientID scope).Only
      (Allowed platform (.requestDeviceAuthorization clientID scope)) := by
  have hplain : ∀ {ε α : Type} {x : Service Reply ε α}, x.Only Plain →
      x.Only (Allowed platform (.requestDeviceAuthorization clientID scope)) :=
    fun honly => honly.mono allowed_of_plain
  have hcode : generateUserCodeFromBytes.Only Plain :=
    only_statement fun _ => rfl
  have hcreate : ∀ dc : DeviceCode, dc.lastPollAt = none → (createDeviceCode dc).Only
      (Allowed platform (.requestDeviceAuthorization clientID scope)) := fun dc hfresh =>
    (hplain (only_orGenerate (only_generateID (by decide)))).bind fun _ =>
      (hplain (only_orGenerate hcode)).bind fun _ =>
        (hplain only_nowUTC).bind fun _ =>
          only_statement fun _ _ => ⟨hfresh, clientID, scope, rfl⟩
  have huser : generateUserCode.Only Plain :=
    (only_drawUserCode 8).bind fun _ => only_succeed
  exact (hplain only_getClient.orReject).bind fun _ =>
    only_ofExcept.bind fun _ =>
      (hplain (only_generateID (by decide)).orReject).bind fun _ =>
        (hplain huser).bind fun _ => (hplain only_nowUTC).bind fun _ =>
          (hcreate _ rfl).orReject.bind fun _ => only_succeed

theorem only_getDeviceCodeByUserCode {userCode : String} :
    (getDeviceCodeByUserCode userCode).Only Plain :=
  only_statement fun _ => rfl

theorem only_getDeviceCodeByDeviceCode {deviceCode : String} :
    (getDeviceCodeByDeviceCode deviceCode).Only Plain :=
  only_statement fun _ => rfl

theorem only_approveDeviceAuthorization {userCode identityID : String} :
    (approveDeviceAuthorization userCode identityID).Only Plain := by
  have happrove : ∀ code, (approveDeviceCode code identityID "").Only Plain :=
    fun code => only_nowUTC.bind fun _ => only_statement fun _ => rfl
  exact only_getDeviceCodeByUserCode.orReject.bind fun _ =>
    only_nowUTC.bind fun _ => only_rejectIf.bind fun _ =>
      only_rejectIf.bind fun _ =>
        only_getDeviceCodeByDeviceCode.orReject.bind fun _ =>
          (happrove _).orReject

theorem only_denyDeviceAuthorization {userCode : String} :
    (denyDeviceAuthorization userCode).Only Plain := by
  have hdeny : ∀ code, (denyDeviceCode code).Only Plain :=
    fun code => only_statement fun _ => rfl
  exact only_getDeviceCodeByUserCode.orReject.bind fun _ =>
    only_getDeviceCodeByDeviceCode.orReject.bind fun _ => (hdeny _).orReject

end Quiet

section Serve

/-- A program keeps the duties of a request. -/
structure Conforms (platform : Platform) (request : Request)
    (p : Program Reply Response) : Prop where
  keeps : p.Keeps (callDuty platform request) (answerDuty platform request) []

variable {platform : Platform} {request : Request} {ε α : Type}
variable {success : α → Response} {failure : ε → Failure}
variable {x : Service Reply ε α}

theorem respond_conforms
    (hkeeps : x.Keeps (callDuty platform request) (fun outcome later =>
      match outcome with
      | .ok value => answerDuty platform request (success value) later
      | .error e => answerDuty platform request (.failed (failure e)) later) []) :
    Conforms platform request (respond success failure x) := by
  constructor
  unfold respond
  let p : Program Reply _ := x
  refine (Program.keeps_bind (p := p)).mpr ?_
  unfold Service.Keeps at hkeeps
  refine hkeeps.imp ?_
  rintro (e | value) later - hpost
  · exact hpost
  · exact hpost

/-- A request whose failures carry no duty. -/
theorem respond_conforms_of_yields
    (hfailure : ∀ e past, answerDuty platform request (.failed (failure e)) past)
    (hyields : x.Yields (callDuty platform request) (fun value later =>
      answerDuty platform request (success value) later) []) :
    Conforms platform request (respond success failure x) := by
  refine respond_conforms ?_
  unfold Service.Yields at hyields
  refine hyields.imp ?_
  rintro (e | value) later - hpost
  · exact hfailure e later
  · exact hpost value rfl

/-- A request none of whose calls or answers carries a duty. -/
theorem respond_conforms_of_only (honly : x.Only (Allowed platform request))
    (hfailure : ∀ e past, answerDuty platform request (.failed (failure e)) past := by
      exact fun _ _ => trivial)
    (hsuccess : ∀ value past, answerDuty platform request (success value) past := by
      exact fun _ _ => trivial) :
    Conforms platform request (respond success failure x) :=
  respond_conforms_of_yields hfailure
    (honly.yields (fun past _ hcall => hcall past) fun _ _ _ => hsuccess _ _)

variable (platform) (config : DeviceConfig)

/-- Every request keeps its duties. -/
theorem serve_conforms (request : Request) :
    Conforms platform request (serve platform config request) := by
  cases request with
  | createClient client =>
      exact respond_conforms_of_only only_createClient
  | updateClient client =>
      exact respond_conforms_of_only only_updateClient
  | startAuthorization req =>
      exact respond_conforms_of_yields (fun _ _ => trivial)
        (startAuthorization_yields platform [] req)
  | acceptLogin challengeID identityID sessionID =>
      exact respond_conforms_of_yields (fun _ _ => trivial)
        (acceptLogin_yields platform [] challengeID identityID sessionID)
  | acceptConsent challengeID grantedScopes remember rememberFor =>
      have hconsents : Consents (.acceptConsent challengeID grantedScopes
          remember rememberFor) challengeID grantedScopes := ⟨rfl, rfl⟩
      exact respond_conforms_of_yields (fun _ _ => trivial)
        (acceptConsent_yields platform [] hconsents remember rememberFor (by simp))
  | acceptConsentForIdentity challengeID identityID grantedScopes remember
      rememberFor =>
      have hconsents : Consents (.acceptConsentForIdentity challengeID identityID
          grantedScopes remember rememberFor) challengeID grantedScopes :=
        ⟨rfl, rfl⟩
      refine respond_conforms_of_yields (fun _ _ => trivial) (yields_bind.mpr ?_)
      refine yields_plain only_checkConsentOwner fun _ later hlater => ?_
      refine acceptConsent_yields platform later hconsents remember rememberFor ?_
      intro row reply hmem
      cases hlater.codes row reply hmem
  | rejectConsent challengeID errorCode errorDesc =>
      exact respond_conforms_of_only (only_rejectConsent.mono allowed_of_plain)
  | rejectConsentForIdentity challengeID identityID errorCode errorDesc =>
      exact respond_conforms_of_only
        ((only_checkConsentOwner.bind fun _ => only_rejectConsent).mono allowed_of_plain)
  | exchangeAuthorizationCode req =>
      refine respond_conforms_of_yields (fun _ _ _ _ hrequest => nomatch hrequest) ?_
      exact (exchangeAuthorizationCode_yields req).imp fun _ _ _ hissued =>
        ⟨hissued, fun _ _ hrequest => nomatch hrequest⟩
  | refreshAccessToken depth req =>
      refine respond_conforms ((refreshAccessToken_keeps depth rfl rfl rfl
        fun _ hnone => by cases hnone).imp ?_)
      rintro (e | resp) later - houtcome
      · rintro _ _ hrequest
        cases hrequest
        exact ⟨houtcome.1, fun hdeep => (houtcome.2 hdeep).trans (Nat.zero_add depth)⟩
      · refine ⟨houtcome.1, ?_⟩
        rintro _ _ hrequest
        cases hrequest
        exact houtcome.2
  | exchangeDeviceCode req =>
      refine respond_conforms_of_yields (fun _ _ _ _ hrequest => nomatch hrequest) ?_
      have hentitled : ∀ later g, Extends [] later → ClientBasis platform later
          req.clientID req.clientSecret g.client →
            g.identityID = req.identityID → g.scopes = req.scopes →
              Basis platform (.exchangeDeviceCode req) later g :=
        fun _ _ _ hclient _ _ => hclient
      exact (exchangeDeviceCode_yields req hentitled).imp
        fun _ _ _ hissued => ⟨hissued, fun _ _ hrequest => nomatch hrequest⟩
  | deviceCodeGrant req =>
      refine respond_conforms_of_yields (fun _ _ => trivial) ?_
      exact (handleDeviceCodeGrant_yields req).imp fun _ _ _ hissued =>
        ⟨hissued, fun _ _ hrequest => nomatch hrequest⟩
  | issueClientCredentials req =>
      exact respond_conforms_of_yields (fun _ _ => trivial) (issueClientCredentials_yields req)
  | issueJWTBearer req =>
      exact respond_conforms_of_yields (fun _ _ => trivial) (issueJWTBearer_yields req)
  | revokeToken req =>
      exact respond_conforms_of_only (only_revokeToken.mono (allowed_of_revocationCall req))
  | introspectToken req =>
      exact respond_conforms_of_only (only_introspectToken.mono allowed_of_plain)
        fun _ _ _ _ hrequest => nomatch hrequest
  | validateAccessToken token =>
      exact respond_conforms_of_only (only_validateAccessToken.mono allowed_of_plain)
  | requestDeviceAuthorization clientID scope =>
      exact respond_conforms_of_only only_requestDeviceAuthorization
  | approveDeviceAuthorization userCode identityID =>
      exact respond_conforms_of_only (only_approveDeviceAuthorization.mono allowed_of_plain)
  | denyDeviceAuthorization userCode =>
      exact respond_conforms_of_only (only_denyDeviceAuthorization.mono allowed_of_plain)

end Serve

open History

/-- What holds of every history of the system that starts from the given
tables. -/
structure Lawful (platform : Platform) (db : Database) (history : Trace) :
    Prop where
  coherent : Throughout Coherent history
  owes : Throughout (Owes (callDuty platform) (answerDuty platform)) history
  answers : Throughout (Answers perform effect db) history

theorem lawful_of_run (platform : Platform) (config : DeviceConfig)
    (db : Database) (actions : Schedule) :
    Lawful platform db (runFrom platform config db actions) where
  coherent := coherent_of_run platform config db actions
  owes := (system platform config).execute_owes
    (fun request => (serve_conforms platform config request).keeps) actions db
  answers := ((system platform config).execute_replay (fun _ _ _ => rfl)
    actions db).2

namespace Lawful

variable {platform : Platform} {db : Database} {history past : Trace}
variable {thread : Nat} {request : Request}

variable (hlaw : Lawful platform db history)

include hlaw

theorem duty {call : Called Reply} (hentry : ⟨thread, request, .called call⟩ :: past <:+ history) :
    callDuty platform request (own thread past) call :=
  hlaw.owes _ past hentry

theorem answer {response : Response}
    (hentry : ⟨thread, request, .answered response⟩ :: past <:+ history) :
    answerDuty platform request response (own thread past) :=
  hlaw.owes _ past hentry

theorem reply {call : Called Reply} (hentry : ⟨thread, request, .called call⟩ :: past <:+ history) :
    ∃ choice, call.2 = reply choice (tablesAfter db past) call.1 :=
  hlaw.answers _ past hentry call rfl

/-- A stretch of what a thread has done so far, placed in the history. -/
theorem stretch {step : Step Reply Response} {call : Called Reply} {before : Past}
    (hentry : ⟨thread, request, step⟩ :: past <:+ history)
    (hcall : call :: before <:+ own thread past) :
    ∃ earlier, ⟨thread, request, .called call⟩ :: earlier <:+ past ∧
      own thread earlier = before := by
  obtain ⟨request', earlier, hearlier, howned⟩ := exists_entry_of_own hcall
  obtain ⟨hsame, -⟩ :=
    hlaw.coherent _ past hentry _ (mem_of_suffix_cons hearlier) rfl
  change request' = request at hsame
  subst hsame
  exact ⟨earlier, hearlier, howned⟩

/-- A call of a thread's own past, placed in the history. -/
theorem earlier {step : Step Reply Response} {call : Called Reply}
    (hentry : ⟨thread, request, step⟩ :: past <:+ history) (hcall : call ∈ own thread past) :
    ∃ before, ⟨thread, request, .called call⟩ :: before <:+ past := by
  obtain ⟨front, back, hsplit⟩ := List.append_of_mem hcall
  have hback : call :: back <:+ own thread past := ⟨front, hsplit.symm⟩
  obtain ⟨before, hbefore, -⟩ := hlaw.stretch hentry hback
  exact ⟨before, hbefore⟩

/-- A thread's calls before an entry, as entries of the whole history. -/
theorem earlier_suffix {step : Step Reply Response} {call : Called Reply}
    (hentry : ⟨thread, request, step⟩ :: past <:+ history) (hcall : call ∈ own thread past) :
    ∃ before, ⟨thread, request, .called call⟩ :: before <:+ past ∧
      ⟨thread, request, .called call⟩ :: before <:+ history := by
  obtain ⟨before, hbefore⟩ := hlaw.earlier hentry hcall
  exact ⟨before, hbefore, hbefore.trans ((List.suffix_cons _ _).trans hentry)⟩

end Lawful

end OAuth

end Aegion
