/-
The authorization-code flow up to the code: login challenge, consent
challenge, consent decision, and the PKCE check the token endpoint makes later.
-/
import Aegion.OAuthStore

namespace Aegion.OAuth

open Go Service

inductive AuthorizationError where
  | invalidRequest (detail : String)
  | unauthorizedClient (detail : String)
  | unsupportedResponseType (detail : String)
  | invalidScope (detail : String)
  | serverError (detail : String)
  | pkceRequired (detail : String)
  | invalidPKCE (detail : String)
  | store (cause : StoreError)
deriving Repr, DecidableEq

structure AuthorizeRequest where
  clientID : String
  redirectURI : String
  requestURL : String
  responseType : String
  scope : String
  state : String
  nonce : String
  codeChallenge : String
  codeChallengeMethod : String
  audience : List String
  acrValues : List String
deriving Repr, DecidableEq

structure LoginChallengeResponse where
  loginChallenge : String
  redirectTo : String
deriving Repr, DecidableEq

structure ConsentChallengeResponse where
  consentChallenge : String
  redirectTo : String
deriving Repr, DecidableEq

structure AuthorizationResponse where
  code : String
  state : String
deriving Repr, DecidableEq

/-- The scopes of an authorization request; none means `openid`. -/
def requestedScopes (req : AuthorizeRequest) : List String :=
  if parseScopes req.scope = [] then ["openid"] else parseScopes req.scope

/-- What `StartAuthorization` checks about the request alone. -/
def checkAuthorizeRequest (req : AuthorizeRequest) : Except AuthorizationError Unit :=
  if blank req.clientID then .error (.invalidRequest "client_id is required")
  else if blank req.redirectURI then
    .error (.invalidRequest "redirect_uri is required")
  else if blank req.responseType then
    .error (.invalidRequest "response_type is required")
  else .ok ()

/-- What `StartAuthorization` checks against the client. -/
def checkAuthorizeClient (req : AuthorizeRequest) (client : Client) :
    Except AuthorizationError Unit :=
  if client.grantTypes ≠ [] ∧ client.hasGrantType "authorization_code" = false then
    .error (.unauthorizedClient "client does not allow authorization_code")
  else if client.validateRedirectURI req.redirectURI = false then
    .error (.invalidRequest "redirect_uri not registered")
  else if req.responseType ≠ "code" then
    .error (.unsupportedResponseType "only 'code' is supported")
  else if client.responseTypes ≠ [] ∧
      client.responseTypes.contains req.responseType = false then
    .error (.unauthorizedClient
      ("response_type '" ++ req.responseType ++ "' not allowed"))
  else
    match (requestedScopes req).find? fun scope => !client.hasScope scope with
    | some scope => .error (.invalidScope ("scope '" ++ scope ++ "' not allowed"))
    | none =>
        if client.requirePKCE ∧ req.codeChallenge = "" then
          .error (.pkceRequired "client requires PKCE")
        else if client.requirePKCE ∧ req.codeChallengeMethod ≠ "S256" ∧
            req.codeChallengeMethod ≠ "plain" then
          .error (.invalidPKCE "invalid code_challenge_method")
        else .ok ()

/-- The login challenge `StartAuthorization` writes. -/
def loginChallengeFor (req : AuthorizeRequest) (client : Client) (id : String)
    (now : Time) : LoginChallenge where
  id := id
  clientID := client.id
  requestURL :=
    if blank req.requestURL then req.redirectURI else trimSpace req.requestURL
  redirectURI := req.redirectURI
  scopes := requestedScopes req
  audience := req.audience
  acrValues := req.acrValues
  state := some req.state
  codeChallenge := some req.codeChallenge
  codeChallengeMethod := some req.codeChallengeMethod
  nonce := some req.nonce
  skip := false
  identityID := none
  sessionID := none
  authenticatedAt := none
  expiresAt := now + minutes 10
  createdAt := zeroTime

def startAuthorization (req : AuthorizeRequest) :
    Service Reply AuthorizationError LoginChallengeResponse := do
  ofExcept (checkAuthorizeRequest req)
  let client ← (getClient req.clientID).orReject fun _ =>
    .unauthorizedClient "client not found"
  ofExcept (checkAuthorizeClient req client)
  let challengeID ← generateLoginChallenge.orReject fun _ =>
    .serverError "failed to generate login challenge"
  let now ← nowUTC
  (createLoginChallenge (loginChallengeFor req client challengeID now)).orReject
    fun _ => .serverError "failed to create login challenge"
  return ⟨challengeID, "/oauth2/login?challenge=" ++ challengeID⟩

/-- A remembered consent covers the challenge at the given time. -/
def consentCovers (challenge : LoginChallenge) (consent : ConsentSession) (now : Time) : Bool :=
  consent.remember &&
    (match consent.expiresAt with
      | none => true
      | some expiresAt => now < expiresAt) &&
    isSubset challenge.scopes consent.scopes &&
    isSubset challenge.audience consent.audience

/-- The consent decision of `AcceptLogin`. -/
def skipsConsent (challenge : LoginChallenge) (identityID : String) :
    Service Reply AuthorizationError Bool :=
  if challenge.skip then return false
  else do
    let client ← attempt (getClient challenge.clientID)
    if (client.toOption.any fun c => !c.requireConsent) then return true
    else
      let consent ← attempt (getConsentSession challenge.clientID identityID)
      let now ← nowUTC
      return consent.toOption.any fun c => consentCovers challenge c now

/-- The consent challenge `AcceptLogin` writes. -/
def consentChallengeFor (challenge : LoginChallenge)
    (challengeID identityID sessionID : String) (skip : Bool) (now : Time) : ConsentChallenge where
  id := challengeID ++ "_consent"
  loginChallengeID := challengeID
  clientID := challenge.clientID
  identityID := identityID
  sessionID := sessionID
  requestURL := challenge.requestURL
  redirectURI := challenge.redirectURI
  requestedScopes := challenge.scopes
  requestedAudience := challenge.audience
  skip := skip
  grantedScopes := []
  grantedAudience := []
  remember := none
  rememberFor := none
  handled := false
  handledAt := none
  rejected := false
  error := none
  errorDescription := none
  expiresAt := now + minutes 10
  createdAt := zeroTime

def acceptLogin (challengeID identityID sessionID : String) :
    Service Reply AuthorizationError ConsentChallengeResponse := do
  let challenge ← (getLoginChallenge challengeID).orReject fun _ =>
    .invalidRequest "login challenge not found"
  let now ← nowUTC
  rejectIf (challenge.expiresAt < now) (.invalidRequest "login challenge expired")
  (acceptLoginChallenge challengeID identityID sessionID).orReject .store
  let skipConsent ← skipsConsent challenge identityID
  let created ← nowUTC
  let consentChallenge := consentChallengeFor challenge challengeID identityID
    sessionID skipConsent created
  (createConsentChallenge consentChallenge).orReject .store
  if skipConsent then
    (acceptConsentChallenge consentChallenge.id challenge.scopes
      challenge.audience false none).orReject .store
  return ⟨consentChallenge.id,
    "/oauth2/consent?challenge=" ++ consentChallenge.id⟩

def normalizeACR (tables : CaseTables) (aal : String) : String :=
  let value := tables.toLower (trimSpace aal)
  if value ∈ ["aal0", "aal1", "aal2"] then value else ""

def mapMethodToAMR (tables : CaseTables) (method : String) : String :=
  let value := tables.toLower (trimSpace method)
  if value = "password" then "pwd"
  else if value ∈ ["totp", "magic_link", "sms", "backup_code"] then "otp"
  else if value ∈ ["webauthn", "passkey"] then "hwk"
  else if value ∈ ["social", "saml"] then "federated"
  else ""

/-- The first occurrence of every mapped method. -/
def dedupeAMR (tables : CaseTables) (methods : List String) : List String :=
  methods.foldl (fun amr method =>
    let value := mapMethodToAMR tables method
    if value = "" ∨ value ∈ amr then amr else amr ++ [value]) []

/-- `acr`, `amr` and `auth_time`. -/
abbrev AuthContext := String × List String × Time

/-- `deriveAuthContext` at the given clock reading. -/
def deriveAuthContext (loginChallenge : LoginChallenge) (now : Time) : AuthContext :=
  ("aal1", ["pwd"], loginChallenge.authenticatedAt.getD now)

def deriveAuthContextFromSession (tables : CaseTables)
    (session : SessionAuthContext) (fallback : Time) : AuthContext :=
  let acr := normalizeACR tables session.aal
  let amr := dedupeAMR tables session.methods
  (if acr = "" then "aal1" else acr, if amr = [] then ["pwd"] else amr,
    if session.authenticatedAt = zeroTime then fallback
    else session.authenticatedAt)

/-- The session's context if there is one, else the login challenge's. -/
def resolveAuthContext (tables : CaseTables) (loginChallenge : LoginChallenge)
    (sessionID : String) : Service Reply AuthorizationError AuthContext := do
  let now ← nowUTC
  let derived := deriveAuthContext loginChallenge now
  let session ← attempt (getSessionAuthContext sessionID)
  match session with
  | .ok context =>
      return deriveAuthContextFromSession tables context derived.2.2
  | .error .notFound => return derived
  | .error _ => reject (.serverError "failed to resolve session auth context")

/-- The remembered consent `AcceptConsent` writes when asked to. -/
def rememberConsent (challenge : ConsentChallenge) (grantedScopes : List String)
    (rememberFor : Option Int) : Service Reply AuthorizationError Unit := do
  let now ← nowUTC
  let expiresAt := (rememberFor.filter (0 < ·)).map fun n => now + seconds n
  let consentID ← generateClientID.orReject fun _ =>
    .serverError "failed to generate consent ID"
  let _ ← attempt (createConsentSession
    { id := consentID
      clientID := challenge.clientID
      identityID := challenge.identityID
      scopes := grantedScopes
      audience := challenge.requestedAudience
      remember := true
      rememberFor := rememberFor
      handled := false
      grantedAt := none
      expiresAt := expiresAt
      createdAt := zeroTime
      updatedAt := zeroTime })
  return ()

/-- The authorization code `AcceptConsent` writes. -/
def authCodeFor (challenge : ConsentChallenge) (loginChallenge : LoginChallenge)
    (grantedScopes : List String) (context : AuthContext) (value : String)
    (now : Time) : AuthCode where
  code := value
  clientID := challenge.clientID
  identityID := challenge.identityID
  sessionID := challenge.sessionID
  redirectURI := challenge.redirectURI
  scopes := grantedScopes
  audience := challenge.requestedAudience
  codeChallenge := loginChallenge.codeChallenge
  codeChallengeMethod := loginChallenge.codeChallengeMethod
  nonce := loginChallenge.nonce
  state := loginChallenge.state
  acr := context.1
  amr := context.2.1
  authTime := context.2.2
  used := false
  usedAt := none
  expiresAt := now + minutes 10
  createdAt := zeroTime

/-- The end of `AcceptConsent`, once the consent has been recorded. -/
def issueAuthCode (tables : CaseTables) (challenge : ConsentChallenge)
    (grantedScopes : List String) : Service Reply AuthorizationError AuthorizationResponse := do
  let loginChallenge ←
    (getLoginChallenge challenge.loginChallengeID).orReject .store
  let context ← resolveAuthContext tables loginChallenge challenge.sessionID
  let value ← generateAuthCode.orReject fun _ =>
    .serverError "failed to generate auth code"
  let now ← nowUTC
  (createAuthCode (authCodeFor challenge loginChallenge grantedScopes context
    value now)).orReject fun _ =>
      .serverError "failed to create authorization code"
  return ⟨value, loginChallenge.state.getD ""⟩

def acceptConsent (tables : CaseTables) (challengeID : String)
    (grantedScopes : List String) (remember : Bool) (rememberFor : Option Int) :
    Service Reply AuthorizationError AuthorizationResponse := do
  let challenge ← (getConsentChallenge challengeID).orReject fun _ =>
    .invalidRequest "consent challenge not found"
  let now ← nowUTC
  rejectIf (challenge.expiresAt < now)
    (.invalidRequest "consent challenge expired")
  rejectIf (challenge.handled = true) (.invalidRequest "consent already handled")
  rejectIf (isSubset grantedScopes challenge.requestedScopes = false)
    (.invalidScope "granted scopes exceed requested scopes")
  (acceptConsentChallenge challengeID grantedScopes challenge.requestedAudience
    remember rememberFor).orReject .store
  if remember then rememberConsent challenge grantedScopes rememberFor
  issueAuthCode tables challenge grantedScopes

/-- The ownership check of the two `ForIdentity` variants. -/
def checkConsentOwner (challengeID identityID : String) :
    Service Reply AuthorizationError Unit := do
  let challenge ← (getConsentChallenge challengeID).orReject fun _ =>
    .invalidRequest "consent challenge not found"
  rejectIf (challenge.identityID ≠ identityID)
    (.invalidRequest "consent challenge belongs to another identity")

def acceptConsentForIdentity (tables : CaseTables)
    (challengeID identityID : String) (grantedScopes : List String)
    (remember : Bool) (rememberFor : Option Int) :
    Service Reply AuthorizationError AuthorizationResponse := do
  checkConsentOwner challengeID identityID
  acceptConsent tables challengeID grantedScopes remember rememberFor

def rejectConsent (challengeID errorCode errorDesc : String) :
    Service Reply AuthorizationError Unit :=
  (rejectConsentChallenge challengeID errorCode errorDesc).orReject .store

def rejectConsentForIdentity (challengeID identityID errorCode errorDesc : String) :
    Service Reply AuthorizationError Unit := do
  checkConsentOwner challengeID identityID
  rejectConsent challengeID errorCode errorDesc

def normalizePKCEMethod (tables : CaseTables) (method : String) : String :=
  if blank method || tables.equalFold method "plain" then "plain"
  else if tables.equalFold method "s256" then "S256"
  else method

/-- `PKCEChallenge`; `none` is `ErrPKCEFailed`. -/
def pkceChallenge (platform : Platform) (verifier method : String) : Option String :=
  let normalized := normalizePKCEMethod platform.tables method
  if normalized = "plain" then some verifier
  else if normalized = "S256" then
    some (Base64.encodeRawURL (platform.sha256 (bytesOf verifier)))
  else none

inductive PKCEError where
  /-- `unsupported code_challenge_method: <method>` -/
  | unsupportedMethod (method : String)
  | mismatch
deriving Repr, DecidableEq

def verifyPKCE (platform : Platform)
    (codeVerifier codeChallenge method : String) : Except PKCEError Unit :=
  match pkceChallenge platform codeVerifier method with
  | none => .error (.unsupportedMethod method)
  | some computed =>
      if bytesOf computed = bytesOf codeChallenge then .ok ()
      else .error .mismatch

end Aegion.OAuth
