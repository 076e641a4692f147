/-
The login handlers of the server, with the flow service and the session manager
they call: password and magic-link submissions, magic links, social and SAML
completions, passkeys, and the submission of a second factor to a flow that
waits for one.  The MFA service runs inside, call by call.
-/
import Aegion.LoginDatabase
import Aegion.MFAService

namespace Aegion.Login

open Go Service
open OAuth (Time DBError)

/-- The UUID package, the case tables, and what the MFA service needs. -/
structure Platform where
  tables : CaseTables
  mfa : MFA.Platform
  uuidString : UUID → String
  parseUUID : String → Option UUID
  parse_uuidString : ∀ id, parseUUID (trimSpace (uuidString id)) = some id
  /-- `Format(time.RFC3339)` of a time in UTC. -/
  formatTime : Time → String

/-- Which services the server has, and their settings. -/
structure Config where
  passwordAuth : Bool
  magicLinkAuth : Bool
  passkeyAuth : Bool
  mfaAuth : Bool
  loginTTL : Time
  sessionLifespan : Time
  mfa : MFA.Config
deriving Repr, DecidableEq

/-- A `flowHTTPError`, or an error that is not meant for the client. -/
inductive ServerError where
  | http (status : Nat) (message : String)
  | internal
deriving Repr, DecidableEq

def now {ε : Type} : Service Reply ε Time := statement .clock .ok

def newUUID {ε : Type} : Service Reply ε UUID := statement .newUUID .ok

/-- Thirty-two random bytes in base64. -/
def randomToken {ε : Type} (e : ε) : Service Reply ε String :=
  statement (.randomBytes 32) fun
    | .ok bytes => .ok (Base64.encodeRawURL bytes)
    | .error _ => .error e

abbrev ServerM := Service Reply ServerError

/-- A statement whose result is not looked at. -/
def acknowledged {α : Type} : Except DBError α → Except ServerError Unit
  | .ok _ => .ok ()
  | .error _ => .error .internal

section Flows

inductive FlowError where
  | notFound
  | expired
  | completed
  | failed
  | invalidCSRF
  | internal
deriving Repr, DecidableEq

def Flow.addContext (flow : Flow) (key : String) (value : ContextValue) : Flow :=
  { flow with context := (key, value) :: flow.context.filter (·.1 ≠ key) }

def Flow.getContext (flow : Flow) (key : String) : Option ContextValue :=
  flow.context.lookup key

/-- `delete(flow.Context, key)`. -/
def Flow.deleteContext (flow : Flow) (key : String) : Flow :=
  { flow with context := flow.context.filter (·.1 ≠ key) }

def Flow.isExpired (flow : Flow) (current : Time) : Bool := flow.expiresAt < current

def Flow.complete (flow : Flow) : Except FlowError Flow :=
  if flow.state.isTerminal then .error .completed
  else .ok { flow with state := .completed }

def defaultTTL : Time := 15 * 60 * 1000000000

def newFlow (type : FlowType) (requestURL : String) (ttl : Time) :
    Service Reply FlowError Flow := do
  let csrf ← randomToken .internal
  let current ← now
  let id ← newUUID
  pure
    { id := id
      type := type
      state := .active
      identityID := none
      sessionID := none
      requestURL := requestURL
      context := []
      expiresAt := current + if ttl ≤ 0 then defaultTTL else ttl
      csrfToken := csrf }

def createLoginFlow (cfg : Config) (requestURL : String) : Service Reply FlowError Flow := do
  let flow ← newFlow .login requestURL cfg.loginTTL
  statement (.insertFlow flow) fun
    | .ok _ => .ok ()
    | .error _ => .error .internal
  pure flow

/-- The flow store's `Get`. -/
def getFlow (id : UUID) : Service Reply FlowError Flow :=
  statement (.selectFlow id) fun
    | .ok (some flow) => .ok flow
    | .ok none => .error .notFound
    | .error _ => .error .internal

def updateFlow (flow : Flow) : Service Reply FlowError Unit :=
  statement (.updateFlow flow) fun
    | .ok 0 => .error .notFound
    | .ok (_ + 1) => .ok ()
    | .error _ => .error .internal

def checkFlowState (flow : Flow) (current : Time) : Except FlowError Unit :=
  if flow.isExpired current then .error .expired
  else
    match flow.state with
    | .completed => .error .completed
    | .failed => .error .failed
    | .expired => .error .expired
    | .active => .ok ()

def validateCSRFToken (expected actual : String) : Bool :=
  expected ≠ "" && actual ≠ "" && expected = actual

def validateFlow (id : UUID) (csrfToken : String) : Service Reply FlowError Flow := do
  let flow ← getFlow id
  let current ← now
  ofExcept (checkFlowState flow current)
  rejectIf (validateCSRFToken flow.csrfToken csrfToken = false) .invalidCSRF
  pure flow

def completeFlow (id : UUID) : Service Reply FlowError Unit := do
  let flow ← getFlow id
  let flow ← ofExcept flow.complete
  updateFlow flow

end Flows

section Sessions

/-- A session in the hands of the request that creates it. -/
structure Session where
  id : UUID
  token : String
  identityID : UUID
  aal : AAL
  authenticatedAt : Time
  authMethods : List AuthMethod
deriving Repr, DecidableEq

variable (platform : Platform) (cfg : Config)

/-- `Manager.Create`. -/
def create (identityID : UUID) (method : AuthMethod) : ServerM Session := do
  let current ← now
  let token ← randomToken .internal
  let logoutToken ← randomToken .internal
  let id ← newUUID
  let methodAAL := methodToAAL method
  let initialAAL := if methodAAL = .aal2 then .aal1 else methodAAL
  statement (.insertSession
    { id := id
      tokenHash := platform.mfa.hashToken token
      tokenPrefix := platform.mfa.tokenPrefix token
      identityID := identityID
      aal := initialAAL
      issuedAt := current
      expiresAt := current + cfg.sessionLifespan
      authenticatedAt := current
      logoutTokenHash := platform.mfa.hashToken logoutToken
      logoutTokenPrefix := platform.mfa.tokenPrefix logoutToken
      active := true
      createdAt := current
      updatedAt := current }) acknowledged
  statement (.insertSessionMethod
    { sessionID := id
      method := method
      aal := methodAAL
      completedAt := current }) acknowledged
  pure
    { id := id
      token := token
      identityID := identityID
      aal := initialAAL
      authenticatedAt := current
      authMethods := [method] }

def createSession (identityID : UUID) (method : AuthMethod) : ServerM Session := do
  let session ← create platform cfg identityID method
  statement (.setSessionCookie session.token) fun _ => .ok ()
  pure session

def addAuthMethod (sessionID : UUID) (method : AuthMethod) : ServerM Unit := do
  let current ← now
  statement (.addAuthMethod
    { sessionID := sessionID
      method := method
      aal := methodToAAL method
      completedAt := current }) acknowledged

/-- The methods that lift a session in memory to the second level. -/
def AuthMethod.second : AuthMethod → Bool
  | .totp => true
  | .webAuthn => true
  | .sms => true
  | .backup => true
  | _ => false

def applySessionAuthMethod (session : Session) (method : AuthMethod) : ServerM Session :=
  if method ∈ session.authMethods then pure session
  else do
    let current ← now
    let extended := { session with authMethods := session.authMethods ++ [method] }
    pure (if method.second then
      { extended with aal := .aal2, authenticatedAt := current } else extended)

def authMethodToAMR : AuthMethod → String
  | .password => "pwd"
  | .totp => "otp"
  | .magicLink => "otp"
  | .sms => "otp"
  | .backup => "otp"
  | .webAuthn => "hwk"
  | .passkey => "hwk"
  | .social => "federated"
  | .saml => "federated"
  | .other _ => ""

def sessionAMRValues (methods : List AuthMethod) : List String :=
  ((methods.map authMethodToAMR).filter (· ≠ "")).dedup.insertionSort (· ≤ ·)

def AAL.text : AAL → String
  | .aal0 => "aal0"
  | .aal1 => "aal1"
  | .aal2 => "aal2"

/-- `time.Time{}`, in nanoseconds of Unix time. -/
def zeroTime : Time := -62135596800 * 1000000000

def authTime (session : Session) : ServerM Time :=
  if session.authenticatedAt = zeroTime then now else pure session.authenticatedAt

def authContextOf (session : Session) (trustedDevice : Bool) (time : Time) :
    List (String × String) :=
  [("auth_time", platform.formatTime time),
    ("acr", session.aal.text),
    ("aal", session.aal.text),
    ("amr", join (sessionAMRValues session.authMethods) " "),
    ("sid", platform.uuidString session.id),
    ("trusted_device", toString trustedDevice),
    ("reauth_required", "false")]

def authCompletionContext (session : Session) (trustedDevice : Bool) :
    ServerM (List (String × String)) := do
  let time ← authTime session
  pure (authContextOf platform session trustedDevice time)

/-- The flow that `applyAuthContextToFlow` stores. -/
def Flow.withAuthContext (flow : Flow) (session : Session)
    (authContext : List (String × String)) : Flow :=
  (authContext.foldl
    (fun stored entry => Flow.addContext stored entry.1 (.text entry.2))
    { flow with
      identityID := some session.identityID
      sessionID := some session.id }).addContext
    "amr_values" (.texts (sessionAMRValues session.authMethods))

def applyAuthContextToFlow (flow : Option Flow) (session : Session)
    (authContext : List (String × String)) : ServerM Unit :=
  match flow with
  | none => pure ()
  | some flow =>
      (updateFlow (flow.withAuthContext session authContext)).orReject
        fun _ => .internal

end Sessions

section Values

/-- The values of a submitted form. -/
abbrev Values := List (String × String)

/-- `values[key]`. -/
def valueOf (values : Values) (key : String) : String :=
  (values.lookup key).getD ""

def normalizedFlowValue (values : Values) : List String → String
  | [] => ""
  | key :: rest =>
      let value := trimSpace (valueOf values key)
      if value ≠ "" then value else normalizedFlowValue values rest

variable (platform : Platform)

def normalizedEmailValue (values : Values) (keys : List String) : String :=
  platform.tables.toLower (normalizedFlowValue values keys)

def rememberDevice (values : Values) : Bool :=
  let value := normalizedFlowValue values ["remember_device"]
  platform.tables.equalFold value "true" || platform.tables.equalFold value "on" ||
    value = "1"

end Values

/-- The parts of an HTTP request besides its form. -/
structure Client where
  /-- The cookie that names a trusted device. -/
  trustedDevice : Option String
  userAgent : String
  requestURL : String
  acceptsJSON : Bool
deriving Repr, DecidableEq

structure FlowSubmitInput where
  flowID : UUID
  csrfToken : String
  values : Values
deriving Repr, DecidableEq

/-- `flowExecutionResult`. -/
structure Result where
  status : String
  message : String
  keepFlowActive : Bool
  flowPayload : Option Flow
  authContext : List (String × String)
deriving Repr, DecidableEq

def authenticated (authContext : List (String × String)) : Result where
  status := "authenticated"
  message := "login successful"
  keepFlowActive := false
  flowPayload := none
  authContext := authContext

section Pending

variable (platform : Platform)

def pendingMFALoginIdentity (flow : Flow) : Option UUID :=
  match flow.getContext "pending_login_identity_id" with
  | some (.text value) => platform.parseUUID (trimSpace value)
  | _ => none

def pendingMFALoginMethod (flow : Flow) : Option AuthMethod :=
  match flow.getContext "pending_login_method" with
  | some (.text value) =>
      if trimSpace value = "" then none else some (.ofText (trimSpace value))
  | _ => none

def pendingMFALogin (flow : Flow) : Option (UUID × AuthMethod) :=
  (pendingMFALoginIdentity platform flow).bind fun identityID =>
    (pendingMFALoginMethod flow).map fun method => (identityID, method)

def clearPendingMFALogin (flow : Flow) : Flow :=
  ((flow.deleteContext "pending_login_identity_id").deleteContext
    "pending_login_method").deleteContext "pending_login_identifier"

/-- The flow that `prepareMFALoginFlow` stores. -/
def Flow.withPendingLogin (flow : Flow) (identityID : UUID) (identifier : String)
    (primaryMethod : AuthMethod) : Flow :=
  ((flow.addContext "pending_login_identity_id"
      (.text (platform.uuidString identityID))).addContext
    "pending_login_method" (.text primaryMethod.text)).addContext
    "pending_login_identifier" (.text (trimSpace identifier))

def prepareMFALoginFlow (flow : Flow) (identityID : UUID) (identifier : String)
    (primaryMethod : AuthMethod) : ServerM Flow := do
  let flow := flow.withPendingLogin platform identityID identifier primaryMethod
  (updateFlow flow).orReject fun _ => .internal
  pure flow

end Pending

section Authentication

variable (platform : Platform) (cfg : Config)

/-- A call of the MFA service whose error is passed on. -/
def mfaService {α : Type} (x : Service MFA.Reply MFA.MFAError α) : ServerM α :=
  (x.embed mfaCalls).orReject fun _ => .internal

def identityIsActive (identityID : UUID) : ServerM Bool :=
  if identityID = 0 then pure false
  else statement (.selectIdentityActive identityID) fun
    | .ok active => .ok active
    | .error _ => .error .internal

def readMFATrustedDeviceCookie (client : Client) : String :=
  trimSpace (client.trustedDevice.getD "")

def validateTrustedDevice (client : Client) (identityID : UUID) : ServerM Bool :=
  if readMFATrustedDeviceCookie client = "" then pure false
  else mfaService (MFA.validateTrustedDevice platform.mfa
    (platform.uuidString identityID) (readMFATrustedDeviceCookie client))

/-- The flow to wait in: the given one, or a new login flow. -/
def flowOrNew (client : Client) : Option Flow → ServerM Flow
  | some flow => pure flow
  | none => (createLoginFlow cfg client.requestURL).orReject fun _ => .internal

/-- Whether a trusted device stands in for the second factor, and the flow that
waits for one. -/
def ensureSecondFactorOrTrustedDevice (client : Client) (flow : Option Flow)
    (identityID : UUID) (identifier : String) (primaryMethod : AuthMethod) :
    ServerM (Bool × Option Flow) :=
  if cfg.mfaAuth = false then pure (false, none)
  else do
    let enrolled ← mfaService
      (MFA.hasEnrolledFactor (platform.uuidString identityID))
    if enrolled = false then pure (false, none)
    else do
      let trusted ← validateTrustedDevice platform client identityID
      if trusted then pure (true, none)
      else do
        let waiting ← flowOrNew cfg client flow
        let pending ← prepareMFALoginFlow platform waiting identityID identifier
          primaryMethod
        pure (false, some pending)

/-- The part of `finishPrimaryAuthentication` after the second factor. -/
def grantSession (flow : Option Flow) (identityID : UUID) (method : AuthMethod)
    (trustedDevice : Bool) : ServerM Result := do
  let session ← createSession platform cfg identityID method
  let session ←
    if trustedDevice then do
      addAuthMethod session.id .totp
      applySessionAuthMethod session .totp
    else pure session
  let authContext ← authCompletionContext platform session trustedDevice
  applyAuthContextToFlow flow session authContext
  pure (authenticated authContext)

def finishPrimaryAuthentication (client : Client) (flow : Option Flow)
    (identityID : UUID) (identifier : String) (method : AuthMethod) : ServerM Result := do
  let active ← identityIsActive identityID
  rejectIf (active = false) (.http 401 "invalid credentials")
  let second ← ensureSecondFactorOrTrustedDevice platform cfg client flow
    identityID identifier method
  match second with
  | (_, some pending) =>
      pure
        { status := "mfa_required"
          message := "multi-factor authentication required"
          keepFlowActive := true
          flowPayload := some pending
          authContext := [] }
  | (trusted, none) => grantSession platform cfg flow identityID method trusted

def verifySecondFactor (identityID : UUID) (totpCode backupCode : String) : ServerM AuthMethod :=
  if totpCode ≠ "" then do
    ((MFA.verifyTOTP platform.mfa (MFA.new cfg.mfa)
      (platform.uuidString identityID) totpCode).embed mfaCalls).orReject
      fun _ => .http 401 "invalid totp code"
    pure .totp
  else do
    ((MFA.verifyBackupCode platform.mfa
      (platform.uuidString identityID) backupCode).embed mfaCalls).orReject
      fun _ => .http 401 "invalid backup code"
    pure .backup

def rememberTrustedDevice (client : Client) (identityID : UUID) : ServerM Unit := do
  let device ← mfaService (MFA.rememberTrustedDevice platform.mfa
    (MFA.new cfg.mfa) (platform.uuidString identityID) client.userAgent)
  -- A blank token is not written to the response.
  if trimSpace device.1 = "" then pure ()
  else
    statement (.setTrustedDeviceCookie (trimSpace device.1) device.2) fun _ => .ok ()

def completePendingMFALogin (client : Client) (flow : Flow) (values : Values)
    (identityID : UUID) (primaryMethod : AuthMethod) : ServerM Result := do
  rejectIf (cfg.mfaAuth = false)
    (.http 503 "multi-factor authentication is not enabled")
  let totpCode := normalizedFlowValue values ["totp_code", "code"]
  let backupCode := normalizedFlowValue values ["backup_code"]
  rejectIf (totpCode = "" ∧ backupCode = "")
    (.http 400 "totp_code or backup_code is required")
  let secondFactorMethod ← verifySecondFactor platform cfg identityID totpCode
    backupCode
  let session ← createSession platform cfg identityID primaryMethod
  addAuthMethod session.id secondFactorMethod
  let session ← applySessionAuthMethod session secondFactorMethod
  if rememberDevice platform values then
    rememberTrustedDevice platform cfg client identityID
  else pure ()
  let authContext ← authCompletionContext platform session false
  applyAuthContextToFlow (some (clearPendingMFALogin flow)) session authContext
  pure (authenticated authContext)

def passwordError : PasswordError → ServerError
  | .invalidCredentials => .http 401 "invalid credentials"
  | .internal => .internal

def mapMagicLinkError : MagicLinkError → ServerError
  | .invalidCode => .http 400 "invalid or expired code"
  | .rateLimited => .http 429 "too many attempts, try again later"
  | .recipientEmpty => .http 400 "email is required"
  | .internal => .internal

/-- The password branch of `executeLoginFlow`. -/
def passwordLogin (client : Client) (flow : Flow) (identifier password : String) :
    ServerM Result := do
  rejectIf (cfg.passwordAuth = false)
    (.http 503 "password authentication is not enabled")
  rejectIf (identifier = "") (.http 400 "identifier is required")
  let identityID ← statement (.verifyPassword identifier password) fun
    | .ok identityID => .ok identityID
    | .error e => .error (passwordError e)
  finishPrimaryAuthentication platform cfg client (some flow) identityID identifier
    .password

/-- The branch of `executeLoginFlow` that sends a magic link. -/
def magicLinkChallenge (identifier : String) : ServerM Result := do
  rejectIf (cfg.magicLinkAuth = false) (.http 400 "password is required")
  rejectIf (identifier = "") (.http 400 "identifier is required")
  statement (.sendLoginCode identifier) fun
    | .ok _ => .ok ()
    | .error e => .error (mapMagicLinkError e)
  pure
    { status := "challenge_sent"
      message := "If an account exists, a sign-in link has been sent."
      keepFlowActive := false
      flowPayload := none
      authContext := [] }

def executeLoginFlow (client : Client) (flow : Flow) (values : Values) : ServerM Result :=
  match pendingMFALogin platform flow with
  | some (identityID, primaryMethod) =>
      completePendingMFALogin platform cfg client flow values identityID
        primaryMethod
  | none =>
      let identifier := normalizedEmailValue platform values ["identifier", "email"]
      let password := trimSpace (valueOf values "password")
      if password ≠ "" then
        passwordLogin platform cfg client flow identifier password
      else magicLinkChallenge cfg identifier

end Authentication

section External

variable (platform : Platform)

structure ExternalLoginResolution where
  identityID : UUID
  identifier : String
  method : AuthMethod
deriving Repr, DecidableEq

/-- `lookupIdentityByEmailWithState`. -/
def lookupIdentityByEmail (email : String) (onlyActive : Bool) : ServerM (Option UUID) :=
  let email := platform.tables.toLower (trimSpace email)
  if email = "" then pure none
  else statement (.selectIdentityByEmail email onlyActive) fun
    | .ok found => .ok found
    | .error _ => .error .internal

def createIdentity (email : String) : ServerM UUID := do
  let id ← newUUID
  let addressID ← newUUID
  statement (.createIdentity id addressID email) acknowledged
  pure id

def markEmailVerified (identityID : UUID) (email : String) : ServerM Unit :=
  statement (.updateEmailVerified identityID
    (platform.tables.toLower (trimSpace email))) acknowledged

def mapExternalCallbackStatus (status : Nat) : ServerError :=
  if status = 400 ∨ status = 401 ∨ status = 403 ∨ status = 404 then
    .http 401 "invalid external authentication callback"
  else if status = 503 then
    .http 503 "external authentication is currently unavailable"
  else if 500 ≤ status then .http 502 "external authentication upstream failed"
  else .http 502 "failed to verify external authentication callback"

/-- The answer of a callback, with the messages for no endpoint and no answer. -/
def callbackBody {α : Type} (unavailable failed : String) :
    Fetched α → Except ServerError α
  | .unavailable => .error (.http 503 unavailable)
  | .failed => .error (.http 502 failed)
  | .answered status body =>
      if status < 200 ∨ 300 ≤ status then .error (mapExternalCallbackStatus status)
      else .ok body

def parseExternalAuthMethod (raw : String) : Except ServerError AuthMethod :=
  match platform.tables.toLower (trimSpace raw) with
  | "" => .ok .social
  | "social" => .ok .social
  | "saml" => .ok .saml
  | "sso" => .ok .saml
  | _ => .error (.http 400 "unsupported external auth method")

def resolveExternalAuthMethod (values : Values) : Except ServerError AuthMethod :=
  let methodValue := normalizedFlowValue values ["method", "auth_method"]
  if methodValue ≠ "" then parseExternalAuthMethod platform methodValue
  else if normalizedFlowValue values ["saml_response", "SAMLResponse",
      "relay_state", "RelayState", "connection", "sso_connection"] ≠ "" then
    .ok .saml
  else .ok .social

def resolveExternalSocialLogin (values : Values) : ServerM ExternalLoginResolution := do
  let provider := normalizedFlowValue values ["provider", "social_provider"]
  let state := normalizedFlowValue values ["state"]
  let code := normalizedFlowValue values ["code"]
  rejectIf (provider = "" ∨ state = "" ∨ code = "") (.http 400
    "provider, state, and code are required for social login completion")
  let callback ← statement (.fetchSocial provider state code)
    (callbackBody "social authentication is not available"
      "failed to verify social login callback")
  let identityID ← ofExcept ((platform.parseUUID (trimSpace callback.identityID)).elim
    (.error (.http 502 "social callback did not return a valid identity")) .ok)
  pure
    { identityID := identityID
      identifier := platform.tables.toLower (trimSpace callback.email)
      method := .social }

/-- The identity of an SSO login: the one with the email, or a new one. -/
def provisionedIdentity (callback : SSOCallback) (email : String) : ServerM UUID := do
  let found ← lookupIdentityByEmail platform email false
  match found with
  | some identityID => pure identityID
  | none => do
      rejectIf (callback.jitProvision = false)
        (.http 401 "sso account is not linked")
      createIdentity email

def resolveExternalSAMLLogin (values : Values) : ServerM ExternalLoginResolution := do
  let connection :=
    normalizedFlowValue values ["connection", "sso_connection", "provider"]
  let relayState := normalizedFlowValue values ["relay_state", "RelayState", "state"]
  let samlResponse := normalizedFlowValue values ["saml_response", "SAMLResponse"]
  rejectIf (connection = "" ∨ relayState = "" ∨ samlResponse = "") (.http 400
    "connection, relay_state, and saml_response are required for SSO login completion")
  let callback ← statement (.fetchSSO connection relayState samlResponse)
    (callbackBody "sso authentication is not available"
      "failed to verify sso login callback")
  let email := platform.tables.toLower (trimSpace callback.email)
  rejectIf (email = "") (.http 401 "sso callback did not provide an email address")
  let identityID ← provisionedIdentity platform callback email
  markEmailVerified platform identityID email
  pure { identityID := identityID, identifier := email, method := .saml }

def resolveExternalLogin (values : Values) : ServerM ExternalLoginResolution := do
  rejectIf (trimSpace (normalizedFlowValue values ["identity_id"]) ≠ "") (.http 400
    "identity_id is not accepted for external login completion")
  let method ← ofExcept (resolveExternalAuthMethod platform values)
  match method with
  | .social => resolveExternalSocialLogin platform values
  | .saml => resolveExternalSAMLLogin platform values
  | _ => reject (.http 400 "unsupported external auth method")

end External

section Handlers

variable (platform : Platform) (cfg : Config)

/-- The JSON body of an answered login. -/
structure Payload where
  status : String
  message : String
  flowID : Option UUID
  flowType : Option FlowType
  flow : Option Flow
  context : List (String × String)
deriving Repr, DecidableEq

inductive Response where
  | flow (flow : Flow)
  | ok (payload : Payload)
  | redirect (url : String)
  | done
  | mfa (response : MFA.Response)
  | error (status : Nat) (message : String)
deriving Repr, DecidableEq

/-- `mergeAuthContext`: blank values are left out. -/
def mergeAuthContext (authContext : List (String × String)) : List (String × String) :=
  authContext.filter fun (_, value) => trimSpace value ≠ ""

def flowValidationError : FlowError → ServerError
  | .notFound => .http 404 "flow not found"
  | .invalidCSRF => .http 403 "invalid csrf token"
  | .expired => .http 410 "flow has expired"
  | .completed => .http 409 "flow is no longer active"
  | .failed => .http 409 "flow is no longer active"
  | .internal => .http 500 "failed to validate flow"

/-- The answer to a result on a flow: a flow that stays active is shown, any
other is completed first. -/
def answerOnFlow (flowID : UUID) (flowType : Option FlowType) (result : Result) :
    ServerM Response := do
  if result.keepFlowActive then pure ()
  else (completeFlow flowID).orReject fun _ => .http 500 "failed to complete flow"
  pure (.ok
    { status := result.status
      message := result.message
      flowID := flowType.map fun _ => flowID
      flowType := flowType
      flow := result.flowPayload
      context := mergeAuthContext result.authContext })

/-- `handleFlowSubmit` for login flows. -/
def handleFlowSubmit (client : Client) (input : FlowSubmitInput) : ServerM Response := do
  let flow ← (validateFlow input.flowID input.csrfToken).orReject flowValidationError
  rejectIf (flow.type ≠ .login)
    (.http 400 "flow type mismatch for submission endpoint")
  let result ← executeLoginFlow platform cfg client flow input.values
  answerOnFlow input.flowID (some .login) result

def handleCompleteExternalLogin (client : Client) (input : FlowSubmitInput) : ServerM Response := do
  let flow ← (validateFlow input.flowID input.csrfToken).orReject flowValidationError
  rejectIf (flow.type ≠ .login)
    (.http 400 "flow type mismatch for external login completion")
  let resolution ← resolveExternalLogin platform input.values
  let result ← finishPrimaryAuthentication platform cfg client (some flow)
    resolution.identityID resolution.identifier resolution.method
  answerOnFlow input.flowID (some .login) result

/-- The identity of a magic link: its own, or the one with the address. -/
def magicLinkIdentity (recipient : String) :
    Option UUID → ServerM (Option UUID)
  | some identityID => pure (some identityID)
  | none => (lookupIdentityByEmail platform recipient true).orReject
      fun _ => .http 500 "failed to resolve login identity"

def respondMagicLinkVerification (client : Client) (result : Result) : Response :=
  if client.acceptsJSON then
    .ok
      { status := result.status
        message := result.message
        flowID := none
        flowType := none
        flow := result.flowPayload
        context := mergeAuthContext result.authContext }
  else
    match result.flowPayload with
    | some flow =>
        .redirect ("/ui/login?flow=" ++ platform.uuidString flow.id ++ "&mfa=1")
    | none => .redirect "/"

/-- `handleMagicLinkVerify` for login links. -/
def handleMagicLinkVerify (client : Client) (token : String) : ServerM Response := do
  rejectIf (cfg.magicLinkAuth = false)
    (.http 503 "magic link authentication is not enabled")
  rejectIf (trimSpace token = "") (.http 400 "missing token")
  let verified ← statement (.verifyMagicLink (trimSpace token)) fun
    | .ok verified => .ok verified
    | .error e => .error (mapMagicLinkError e)
  let resolved ← magicLinkIdentity platform verified.1 verified.2
  let identityID ← ofExcept (resolved.elim
    (.error (.http 400 "login link is invalid")) .ok)
  let result ← finishPrimaryAuthentication platform cfg client none identityID
    verified.1 .magicLink
  pure (respondMagicLinkVerification platform client result)

structure PasskeyInput where
  flowID : String
  csrfToken : String
  identifier : String
  challenge : String
  credentialID : String
  signature : String
  signCount : UInt32
deriving Repr, DecidableEq

/-- The flow may be of any type. -/
def handleFinishLoginPasskey (client : Client) (input : PasskeyInput) : ServerM Response := do
  rejectIf (cfg.passkeyAuth = false) (.http 503 "passkeys are not enabled")
  let flowID ← ofExcept ((platform.parseUUID (trimSpace input.flowID)).elim
    (.error (.http 400 "invalid flow id")) .ok)
  let flow ← (validateFlow flowID (trimSpace input.csrfToken)).orReject
    flowValidationError
  let identifier := platform.tables.toLower (trimSpace input.identifier)
  let found ← (lookupIdentityByEmail platform identifier true).orReject
    fun _ => .http 500 "failed to resolve passkey identity"
  let identityID ← ofExcept (found.elim
    (.error (.http 401 "invalid passkey assertion")) .ok)
  statement (.finishPasskey (platform.uuidString identityID) input.challenge
    input.credentialID input.signature input.signCount) fun
      | .ok _ => .ok ()
      | .error _ => .error (.http 401 "invalid passkey assertion")
  let result ← finishPrimaryAuthentication platform cfg client (some flow) identityID
    identifier .passkey
  answerOnFlow flow.id none result

/-- `handleAdminUpdateIdentity`, as far as it changes the state. -/
def handleAdminUpdateIdentity (id : UUID) (state : IdentityState) : ServerM Response :=
  statement (.updateIdentityState id state) fun
    | .ok 0 => .error (.http 404 "identity not found")
    | .ok (_ + 1) => .ok .done
    | .error _ => .error (.http 500 "failed to update identity")

def handleAdminDeleteIdentity (id : UUID) : ServerM Response :=
  statement (.softDeleteIdentity id) fun
    | .ok none => .error (.http 404 "identity not found")
    | .ok (some _) => .ok .done
    | .error _ => .error (.http 500 "failed to delete identity")

def handleInitLogin (requestURL : String) : ServerM Response := do
  let flow ← (createLoginFlow cfg requestURL).orReject
    fun _ => .http 500 "failed to create login flow"
  pure (.flow flow)

inductive Request where
  | initLogin (requestURL : String)
  | submitLogin (client : Client) (input : FlowSubmitInput)
  | verifyMagicLink (client : Client) (token : String)
  | completeExternalLogin (client : Client) (input : FlowSubmitInput)
  | finishLoginPasskey (client : Client) (input : PasskeyInput)
  | updateIdentity (id : UUID) (state : IdentityState)
  | deleteIdentity (id : UUID)
  /-- A request to the MFA service, such as an enrolment in the settings. -/
  | mfa (request : MFA.Request)
deriving Repr, DecidableEq

/-- `writeFlowExecutionError`. -/
def failure : ServerError → Response
  | .http status message => .error status message
  | .internal => .error 500 "failed to execute self-service flow"

def serve : Request → Program Reply Response
  | .initLogin requestURL => (handleInitLogin cfg requestURL).finish id failure
  | .submitLogin client input =>
      (handleFlowSubmit platform cfg client input).finish id failure
  | .verifyMagicLink client token =>
      (handleMagicLinkVerify platform cfg client token).finish id failure
  | .completeExternalLogin client input =>
      (handleCompleteExternalLogin platform cfg client input).finish id failure
  | .finishLoginPasskey client input =>
      (handleFinishLoginPasskey platform cfg client input).finish id failure
  | .updateIdentity identityID state =>
      (handleAdminUpdateIdentity identityID state).finish id failure
  | .deleteIdentity identityID =>
      (handleAdminDeleteIdentity identityID).finish id failure
  | .mfa request =>
      ((MFA.serve platform.mfa (MFA.new cfg.mfa) request).embed mfaCalls).bind
        fun response => .done (.mfa response)

/-- Any number of concurrent requests over one database. -/
def system : System Request Reply Response Database Choice where
  serve := serve platform cfg
  perform := perform

abbrev Trace := History Request Reply Response

abbrev Event := Entry Request Reply Response

abbrev Schedule := List (Action Request Choice)

/-- The history of the run that a scheduler's actions make of the system. -/
def runFrom (db : Database) (actions : Schedule) : Trace :=
  ((system platform cfg).execute actions (System.initial db)).history

end Handlers

end Aegion.Login
