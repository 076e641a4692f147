/-
The device authorization grant: the device service over the server's store
adapter, and the token endpoint's handler, which polls, consumes and issues.
-/
import Aegion.OAuthTokenService

namespace Aegion.OAuth

open Go Service

inductive DeviceError where
  | slowDown
  | authorizationPending
  | expiredToken
  | accessDenied
  | invalidClient
  | invalidScope (detail : String)
  | invalidGrant
  /-- `failed to generate <what>` -/
  | generate (what : String)
  | store (cause : StoreError)
deriving Repr, DecidableEq

structure DeviceTokenRequest where
  deviceCode : String
  clientID : String
  clientSecret : String
deriving Repr, DecidableEq

structure DeviceAuthorizationResponse where
  deviceCode : String
  userCode : String
  verificationURI : String
  verificationURIComplete : String
  expiresIn : Int
  interval : Int
deriving Repr, DecidableEq

/-- Configuration of the device service, `deviceCodeTTL` in nanoseconds. -/
structure DeviceConfig where
  deviceCodeTTL : Int
  verificationURI : String

/-- Draw `n` letters of the user-code alphabet. -/
def drawUserCode : Nat → Service Reply DeviceError (List Char)
  | 0 => return []
  | n + 1 => do
      let charset := "BCDFGHJKLMNPQRSTVWXYZ".toList
      let index ← statement (.randomIntN charset.length) fun
        | .ok index => Except.ok index
        | .error _ => Except.error (DeviceError.generate "user code")
      let rest ← drawUserCode n
      return charset.getD index 'B' :: rest

/-- `generateUserCode`: eight consonants as `XXXX-XXXX`. -/
def generateUserCode : Service Reply DeviceError String := do
  let code ← drawUserCode 8
  return String.ofList (code.take 4) ++ "-" ++ String.ofList (code.drop 4)

def requestDeviceAuthorization (platform : Platform) (config : DeviceConfig)
    (clientID scope : String) : Service Reply DeviceError DeviceAuthorizationResponse := do
  let client ← (getClient clientID).orReject fun _ => .invalidClient
  let scopes := parseScopes scope
  ofExcept (match scopes.find? fun s => !client.hasScope s with
    | some s => Except.error
        (DeviceError.invalidScope ("scope '" ++ s ++ "' not allowed for client"))
    | none => Except.ok ())
  let deviceCode ← generateDeviceCode.orReject fun _ => .generate "device code"
  let userCode ← generateUserCode
  let now ← nowUTC
  (createDeviceCode
    { deviceCode := deviceCode
      userCode := userCode
      clientID := client.id
      scopes := scopes
      audience := []
      interval := platform.pollingInterval
      identityID := none
      sessionID := none
      status := ""
      approvedAt := none
      expiresAt := now + config.deviceCodeTTL
      lastPollAt := none
      createdAt := zeroTime }).orReject .store
  return { deviceCode := deviceCode
           userCode := userCode
           verificationURI := config.verificationURI
           verificationURIComplete :=
             config.verificationURI ++ "?user_code=" ++ userCode
           expiresIn := config.deviceCodeTTL / 1000000000
           interval := platform.pollingInterval }

/-- What `PollDeviceToken` decides about a stored device code. -/
def pollOutcome (platform : Platform) (clientID : String) (dc : DeviceCode)
    (now : Time) : Except DeviceError String :=
  if dc.clientID ≠ clientID then .error .invalidClient
  else if dc.expiresAt < now then .error .expiredToken
  else if dc.status = "denied" then .error .accessDenied
  else if dc.status ≠ "approved" then
    match dc.lastPollAt with
    | none => .error .authorizationPending
    | some lastPollAt =>
        let interval :=
          if dc.interval ≠ 0 then dc.interval else platform.pollingInterval
        if now - lastPollAt < seconds interval then .error .slowDown
        else .error .authorizationPending
  else
    match dc.identityID with
    | none => .error .invalidGrant
    | some identityID => .ok identityID

/-- `PollDeviceToken`: the approved code and the identity that approved it. -/
def pollDeviceToken (platform : Platform) (req : DeviceTokenRequest) :
    Service Reply DeviceError (DeviceCode × String) := do
  let dc ← (getDeviceCodeByDeviceCode req.deviceCode).orReject fun _ =>
    .invalidGrant
  let now ← nowUTC
  let identityID ← ofExcept (pollOutcome platform req.clientID dc now)
  return (dc, identityID)

/-- `ApproveDeviceAuthorization` over `deviceStoreAdapter`, which drops the
approved scopes and has no session. -/
def approveDeviceAuthorization (userCode identityID : String) : Service Reply DeviceError Unit := do
  let dc ← (getDeviceCodeByUserCode userCode).orReject .store
  let now ← nowUTC
  rejectIf (dc.expiresAt < now) .expiredToken
  rejectIf (dc.status ≠ "pending") .invalidGrant
  let stored ← (getDeviceCodeByDeviceCode dc.deviceCode).orReject .store
  (approveDeviceCode stored.userCode identityID "").orReject .store

def denyDeviceAuthorization (userCode : String) : Service Reply DeviceError Unit := do
  let dc ← (getDeviceCodeByUserCode userCode).orReject .store
  let stored ← (getDeviceCodeByDeviceCode dc.deviceCode).orReject .store
  (denyDeviceCode stored.userCode).orReject .store

/-- `ConsumeDeviceCode` over `deviceStoreAdapter.MarkDeviceCodeUsed`. -/
def consumeDeviceCode (deviceCode : String) : StoreM Unit :=
  deleteDeviceCode deviceCode

/-- An error body of the token endpoint. -/
structure ErrorReply where
  code : String
  description : String
  status : Nat
deriving Repr, DecidableEq

/-- `err.Error()` of the poll errors the handler passes on. -/
def DeviceError.text : DeviceError → String
  | .invalidClient => "invalid_client"
  | .invalidGrant => "invalid_grant"
  | _ => "error"

/-- The switch on poll errors in `handleDeviceCodeGrant`. -/
def pollErrorReply : DeviceError → ErrorReply
  | .authorizationPending =>
      ⟨"authorization_pending", "User has not yet authorized", 400⟩
  | .slowDown => ⟨"slow_down", "Polling too fast", 400⟩
  | .expiredToken => ⟨"expired_token", "Device code expired", 400⟩
  | .accessDenied => ⟨"access_denied", "User denied authorization", 400⟩
  | e => ⟨"invalid_grant", e.text, 400⟩

def mapTokenGrantError : TokenError → ErrorReply
  | .invalidClient => ⟨"invalid_client", "Client authentication failed", 401⟩
  | .unauthorizedClient =>
      ⟨"unauthorized_client", "Client is not authorized for this grant type", 400⟩
  | .invalidScope _ => ⟨"invalid_scope", "Requested scope is invalid", 400⟩
  | .invalidRequest => ⟨"invalid_request", "Invalid token request", 400⟩
  | .invalidGrant => ⟨"invalid_grant", "Invalid grant", 400⟩
  | .store .pkceRequired _ => ⟨"invalid_grant", "Invalid grant", 400⟩
  | .pkce .mismatch => ⟨"invalid_grant", "Invalid grant", 400⟩
  | .store .pkceMismatch _ => ⟨"invalid_grant", "Invalid grant", 400⟩
  | .store .familyInvalidated _ => ⟨"invalid_grant", "Invalid grant", 400⟩
  | _ => ⟨"server_error", "Internal server error", 500⟩

/-- The token request a redeemed device code stands for. -/
def deviceTokenRequest (req : DeviceTokenRequest) (dc : DeviceCode)
    (identityID : String) : DeviceCodeTokenRequest where
  clientID := req.clientID
  clientSecret := req.clientSecret
  identityID := identityID
  sessionID := dc.sessionID.getD ""
  scopes := dc.scopes
  audience := dc.audience
  authTime := dc.approvedAt.getD zeroTime

def handleDeviceCodeGrant (platform : Platform) (req : DeviceTokenRequest) :
    Service Reply ErrorReply TokenResponse := do
  let (dc, identityID) ← (pollDeviceToken platform req).orReject pollErrorReply
  (consumeDeviceCode dc.deviceCode).orReject fun _ =>
    ⟨"server_error", "Failed to finalize device code", 500⟩
  (exchangeDeviceCode platform (deviceTokenRequest req dc identityID)).orReject
    mapTokenGrantError

end Aegion.OAuth
