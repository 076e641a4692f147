/-
The OAuth2 module as one system: every request its services accept, served by
a thread of its own, over one shared database.
-/
import Aegion.OAuthGrants
import Aegion.OAuthDevice

namespace Aegion.OAuth

open Service

inductive Request where
  | createClient (client : Client)
  | updateClient (client : Client)
  | startAuthorization (req : AuthorizeRequest)
  | acceptLogin (challengeID identityID sessionID : String)
  | acceptConsent (challengeID : String) (grantedScopes : List String)
      (remember : Bool) (rememberFor : Option Int)
  | acceptConsentForIdentity (challengeID identityID : String)
      (grantedScopes : List String) (remember : Bool) (rememberFor : Option Int)
  | rejectConsent (challengeID errorCode errorDesc : String)
  | rejectConsentForIdentity (challengeID identityID errorCode errorDesc : String)
  | exchangeAuthorizationCode (req : TokenRequest)
  | refreshAccessToken (depth : Nat) (req : TokenRequest)
  | exchangeDeviceCode (req : DeviceCodeTokenRequest)
  | deviceCodeGrant (req : DeviceTokenRequest)
  | issueClientCredentials (req : ClientCredentialsRequest)
  | issueJWTBearer (req : JWTBearerRequest)
  | revokeToken (req : RevocationRequest)
  | introspectToken (req : IntrospectionRequest)
  | validateAccessToken (token : String)
  | requestDeviceAuthorization (clientID scope : String)
  | approveDeviceAuthorization (userCode identityID : String)
  | denyDeviceAuthorization (userCode : String)
deriving Repr, DecidableEq

inductive Failure where
  | store (e : StoreError)
  | authorization (e : AuthorizationError)
  | token (e : TokenError)
  | grant (e : GrantError)
  | revocation (e : RevocationError)
  | validation (e : ValidationError)
  | device (e : DeviceError)
  | reply (e : ErrorReply)
deriving Repr, DecidableEq

inductive Response where
  | done
  | loginChallenge (resp : LoginChallengeResponse)
  | consentChallenge (resp : ConsentChallengeResponse)
  | authorization (resp : AuthorizationResponse)
  | tokens (resp : TokenResponse)
  | accessToken (resp : ClientCredentialsResponse)
  | introspection (resp : IntrospectionResponse)
  | validated (token : ValidatedToken)
  | deviceAuthorization (resp : DeviceAuthorizationResponse)
  | failed (e : Failure)
deriving Repr, DecidableEq

/-- Turn the outcome of a service into a response. -/
def respond {ε α : Type} (success : α → Response) (failure : ε → Failure)
    (x : Service Reply ε α) : Program Reply Response :=
  Program.bind x fun
    | .ok value => .done (success value)
    | .error e => .done (.failed (failure e))

variable (platform : Platform) (config : DeviceConfig)

def serve : Request → Program Reply Response
  | .createClient client =>
      respond (fun _ => .done) .store (createClient client)
  | .updateClient client =>
      respond (fun _ => .done) .store (updateClient client)
  | .startAuthorization req =>
      respond .loginChallenge .authorization (startAuthorization req)
  | .acceptLogin challengeID identityID sessionID =>
      respond .consentChallenge .authorization
        (acceptLogin challengeID identityID sessionID)
  | .acceptConsent challengeID grantedScopes remember rememberFor =>
      respond .authorization .authorization
        (acceptConsent platform.tables challengeID grantedScopes remember
          rememberFor)
  | .acceptConsentForIdentity challengeID identityID grantedScopes remember
      rememberFor =>
      respond .authorization .authorization
        (acceptConsentForIdentity platform.tables challengeID identityID
          grantedScopes remember rememberFor)
  | .rejectConsent challengeID errorCode errorDesc =>
      respond (fun _ => .done) .authorization
        (rejectConsent challengeID errorCode errorDesc)
  | .rejectConsentForIdentity challengeID identityID errorCode errorDesc =>
      respond (fun _ => .done) .authorization
        (rejectConsentForIdentity challengeID identityID errorCode errorDesc)
  | .exchangeAuthorizationCode req =>
      respond .tokens .token (exchangeAuthorizationCode platform req)
  | .refreshAccessToken depth req =>
      respond .tokens .token (refreshAccessToken platform depth req)
  | .exchangeDeviceCode req =>
      respond .tokens .token (exchangeDeviceCode platform req)
  | .deviceCodeGrant req =>
      respond .tokens .reply (handleDeviceCodeGrant platform req)
  | .issueClientCredentials req =>
      respond .accessToken .grant (issueClientCredentials platform req)
  | .issueJWTBearer req =>
      respond .accessToken .grant (issueJWTBearer platform req)
  | .revokeToken req =>
      respond (fun _ => .done) .revocation (revokeToken platform req)
  | .introspectToken req =>
      respond .introspection .token (introspectToken platform req)
  | .validateAccessToken token =>
      respond .validated .validation (validateAccessToken platform token)
  | .requestDeviceAuthorization clientID scope =>
      respond .deviceAuthorization .device
        (requestDeviceAuthorization platform config clientID scope)
  | .approveDeviceAuthorization userCode identityID =>
      respond (fun _ => .done) .device
        (approveDeviceAuthorization userCode identityID)
  | .denyDeviceAuthorization userCode =>
      respond (fun _ => .done) .device (denyDeviceAuthorization userCode)

/-- Any number of concurrent requests over one database. -/
def system : System Request Reply Response Database Choice where
  serve := serve platform config
  perform := perform

/-- The history of a run of the system from the given tables. -/
abbrev Trace := History Request Reply Response

abbrev Event := Entry Request Reply Response

abbrev Schedule := List (Action Request Choice)

/-- The tables after the calls of a history. -/
def tablesAfter (db : Database) (history : Trace) : Database :=
  History.replay effect db history

/-- The history of the run that a scheduler's actions make of the system. -/
def runFrom (db : Database) (actions : Schedule) : Trace :=
  ((system platform config).execute actions (System.initial db)).history

/-- The tables that run ends in. -/
def tablesOf (db : Database) (actions : Schedule) : Database :=
  ((system platform config).execute actions (System.initial db)).store

theorem tablesOf_eq (db : Database) (actions : Schedule) :
    tablesOf platform config db actions = tablesAfter db (runFrom platform config db actions) :=
  ((system platform config).execute_replay (fun _ _ _ => rfl) actions db).1

theorem coherent_of_run (db : Database) (actions : Schedule) :
    History.Throughout History.Coherent (runFrom platform config db actions) :=
  (system platform config).execute_coherent actions db

/-- The answers given in a history, newest first. -/
def answers (history : Trace) : List (Nat × Request × Response) :=
  history.filterMap fun entry =>
    match entry.step with
    | .answered response => some (entry.thread, entry.request, response)
    | .called _ => none

theorem mem_answers_iff {history : Trace} {thread : Nat} {request : Request} {response : Response} :
    (thread, request, response) ∈ answers history ↔
      ⟨thread, request, .answered response⟩ ∈ history := by
  simp only [answers, List.mem_filterMap]
  constructor
  · rintro ⟨⟨t, r, step⟩, hmem, hstep⟩
    cases step with
    | called call => cases hstep
    | answered other =>
        cases hstep
        exact hmem
  · intro hmem
    exact ⟨_, hmem, rfl⟩

/-- The requests that were answered with a token set. -/
def tokenAnswers (history : Trace) : List (Nat × Request) :=
  (answers history).filterMap fun
    | (thread, request, .tokens _) => some (thread, request)
    | _ => none

theorem mem_tokenAnswers_iff {history : Trace} {thread : Nat} {request : Request} :
    (thread, request) ∈ tokenAnswers history ↔
      ∃ resp, ⟨thread, request, .answered (.tokens resp)⟩ ∈ history := by
  simp only [tokenAnswers, List.mem_filterMap]
  constructor
  · rintro ⟨⟨t, r, response⟩, hmem, heq⟩
    cases response with
    | tokens resp =>
        cases heq
        exact ⟨resp, mem_answers_iff.mp hmem⟩
    | _ => cases heq
  · rintro ⟨resp, hmem⟩
    exact ⟨_, mem_answers_iff.mpr hmem, rfl⟩

end Aegion.OAuth
