/-
The grants that issue an access token alone (client credentials and JWT
bearer), token revocation, and the validator of the user-info endpoint.
-/
import Aegion.OAuthTokenService

namespace Aegion.OAuth

open Go Service

inductive GrantError where
  | invalidClient
  | invalidScope
  | unauthorizedClient
  | assertion
  /-- `failed to generate access token JTI` -/
  | generate
  | signer (cause : JWT.Error)
  | store (cause : StoreError)
deriving Repr, DecidableEq

structure ClientCredentialsRequest where
  clientID : String
  clientSecret : String
  scope : String
deriving Repr, DecidableEq

structure JWTBearerRequest where
  assertion : String
  scope : String
  clientID : String
  clientSecret : String
deriving Repr, DecidableEq

structure ClientCredentialsResponse where
  accessToken : String
  tokenType : String
  expiresIn : Int
  scope : String
deriving Repr, DecidableEq

section Grants

variable (platform : Platform)

/-- The client checks of both grants, which turn public clients away. -/
def confidentialClient (clientID clientSecret grantType : String) :
    Service Reply GrantError Client := do
  let client ← (getClient clientID).orReject fun _ => .invalidClient
  rejectIf (client.tokenEndpointAuthMethod = "" ∨
    client.tokenEndpointAuthMethod = "none") .invalidClient
  rejectIf (authenticateClient platform client clientSecret = false)
    .invalidClient
  rejectIf (client.hasGrantType grantType = false) .unauthorizedClient
  return client

/-- The access-token row of both grants; it has no fingerprint. -/
def plainAccessToken (client : Client) (identityID subject jti : String)
    (scopes audience : List String) (now : Time) : AccessToken where
  jti := jti
  signature := none
  clientID := client.id
  identityID := identityID
  sessionID := ""
  scopes := scopes
  audience := audience
  issuer := platform.issuer
  subject := subject
  revoked := false
  revokedAt := none
  expiresAt := now + seconds client.accessTokenTTL
  createdAt := zeroTime

/-- Sign and store the access token of both grants. -/
def issuePlainToken (client : Client) (identityID subject : String)
    (audienceClaim : Json) (scopes audience : List String) :
    Service Reply GrantError ClientCredentialsResponse := do
  let now ← nowUTC
  let jti ← generateAccessTokenJTI.orReject fun _ => .generate
  let jwt ← (JWT.signClaims platform (accessClaims platform client subject
    audienceClaim scopes jti now
    (now + seconds client.accessTokenTTL))).orReject .signer
  (createAccessToken (plainAccessToken platform client identityID subject jti
    scopes audience now)).orReject .store
  return ⟨jwt, "Bearer", client.accessTokenTTL, join scopes " "⟩

def issueClientCredentials (req : ClientCredentialsRequest) :
    Service Reply GrantError ClientCredentialsResponse := do
  rejectIf (blank req.clientID = true) .invalidClient
  let client ← confidentialClient platform req.clientID req.clientSecret
    "client_credentials"
  let scopes := parseScopes req.scope
  rejectIf (isSubset scopes client.scopes = false) .invalidScope
  issuePlainToken platform client "" client.id (.string client.id) scopes
    [client.id]

def issueJWTBearer (req : JWTBearerRequest) :
    Service Reply GrantError ClientCredentialsResponse := do
  rejectIf (blank req.clientID || blank req.assertion) .invalidClient
  let client ← confidentialClient platform req.clientID req.clientSecret
    "urn:ietf:params:oauth:grant-type:jwt-bearer"
  let claims ← ofExcept
    (match platform.validateJWTAssertion req.assertion req.clientID with
      | some claims => Except.ok claims
      | none => Except.error GrantError.assertion)
  let scopes := if req.scope = "" then claims.scopes else parseScopes req.scope
  rejectIf (isSubset scopes client.scopes = false) .invalidScope
  issuePlainToken platform client claims.subject claims.subject
    (.strings claims.audience) scopes claims.audience

end Grants

inductive RevocationError where
  | invalidClient
deriving Repr, DecidableEq

structure RevocationRequest where
  token : String
  tokenTypeHint : String
  clientID : String
  clientSecret : String
deriving Repr, DecidableEq

section Revocation

variable (platform : Platform)

/-- A hash starting with `$` is a password hash, anything else is compared as
it stands. -/
def authenticateClientSecret (hashedSecret plainSecret : String) : Bool :=
  if hasPrefix hashedSecret "$" then
    platform.verifyPassword plainSecret hashedSecret = some true
  else bytesOf hashedSecret = bytesOf plainSecret

/-- The authentication switch of `RevokeToken`. -/
def revocationAuthenticates (client : Client) (clientSecret : String) : Bool :=
  if client.tokenEndpointAuthMethod = "" ∨
      client.tokenEndpointAuthMethod = "none" then true
  else if client.tokenEndpointAuthMethod = "client_secret_basic" ∨
      client.tokenEndpointAuthMethod = "client_secret_post" then
    clientSecret ≠ "" && (client.secretHash.any fun secretHash =>
      authenticateClientSecret platform secretHash clientSecret)
  else false

def revokeAsRefreshToken (req : RevocationRequest) (client : Client) :
    Service Reply RevocationError Unit :=
  if req.tokenTypeHint = "" ∨ req.tokenTypeHint = "refresh_token" then do
    let found ← attempt (getRefreshToken req.token)
    match found with
    | .error _ => return ()
    | .ok refreshToken =>
        if refreshToken.clientID ≠ client.id then return ()
        else
          let _ ← attempt (invalidateRefreshTokenFamily refreshToken.familyID)
          return ()
  else return ()

/-- `RevokeToken`; an unknown token is a success. -/
def revokeToken (req : RevocationRequest) : Service Reply RevocationError Unit := do
  rejectIf (req.clientID = "") .invalidClient
  let client ← (getClient req.clientID).orReject fun _ => .invalidClient
  rejectIf (revocationAuthenticates platform client req.clientSecret = false)
    .invalidClient
  if req.tokenTypeHint = "" ∨ req.tokenTypeHint = "access_token" then
    let revoked ← attempt (revokeAccessToken req.token)
    match revoked with
    | .ok _ => return ()
    | .error _ => revokeAsRefreshToken req client
  else revokeAsRefreshToken req client

end Revocation

inductive ValidationError where
  | jwt (cause : JWT.Error)
  /-- `token is missing jti` -/
  | missingJTI
  | store (cause : StoreError)
  /-- `token is inactive` -/
  | inactive
  /-- `token subject mismatch` -/
  | subjectMismatch
  /-- `token issuer mismatch` -/
  | issuerMismatch
deriving Repr, DecidableEq

/-- What the user-info endpoint learns about a valid access token. -/
structure ValidatedToken where
  jti : String
  identityID : String
  clientID : String
  scopes : List String
  expiresAt : Time
deriving Repr, DecidableEq

def accessTokenVerifierLeeway : Int := 30 * 1000000000

def validateAccessToken (platform : Platform) (token : String) :
    Service Reply ValidationError ValidatedToken := do
  let result ← (JWT.verify platform token
    ⟨platform.issuer, "", accessTokenVerifierLeeway⟩).orReject .jwt
  let jti := trimSpace result.claims.jwtID
  rejectIf (jti = "") .missingJTI
  let row ← (getAccessToken jti).orReject .store
  let now ← nowUTC
  rejectIf (row.revoked || row.expiresAt < now) .inactive
  rejectIf (result.claims.subject ≠ "" ∧ row.subject ≠ "" ∧
    result.claims.subject ≠ row.subject) .subjectMismatch
  rejectIf (result.claims.issuer ≠ "" ∧ row.issuer ≠ "" ∧
    result.claims.issuer ≠ row.issuer) .issuerMismatch
  return ⟨row.jti, row.identityID, row.clientID, row.scopes, row.expiresAt⟩

end Aegion.OAuth
