/-
The records of the OAuth2 module and the pure helpers its services share.
Times are nanoseconds since the Unix epoch; Go's nil and empty slices are both
the empty list, since no service distinguishes them.
-/
import Aegion.GoText

namespace Aegion

namespace OAuth

open Go

/-- Nanoseconds since the Unix epoch. -/
abbrev Time := Int

/-- The zero `time.Time`, midnight of 1 January of year 1. -/
def zeroTime : Time := -62135596800 * 1000000000

def unix (t : Time) : Int := t / 1000000000

/-- `time.Duration(n) * time.Second`, which wraps around. -/
def seconds (n : Int) : Int := Int.bmod (n * 1000000000) (2 ^ 64)

def minutes (n : Int) : Int := n * 60 * 1000000000

inductive StoreError where
  | notFound
  | alreadyExists
  | codeExpired
  | codeUsed
  | tokenRevoked
  | tokenExpired
  | tokenInactive
  | familyInvalidated
  | pkceRequired
  | pkceMismatch
  /-- `failed to generate random bytes`. -/
  | random
  /-- Any other error of the database driver. -/
  | database
deriving Repr, DecidableEq

/-- An OAuth2 client, with the columns the services read. -/
structure Client where
  id : String
  secretHash : Option String
  redirectURIs : List String
  grantTypes : List String
  responseTypes : List String
  scopes : List String
  tokenEndpointAuthMethod : String
  sectorIdentifierURI : Option String
  subjectType : String
  accessTokenTTL : Int
  refreshTokenTTL : Int
  idTokenTTL : Int
  requirePKCE : Bool
  requireConsent : Bool
  allowOfflineAccess : Bool
  metadata : List (String × String)
deriving Repr, DecidableEq

namespace Client

def validateRedirectURI (c : Client) (uri : String) : Bool :=
  c.redirectURIs.contains uri

def hasGrantType (c : Client) (grantType : String) : Bool :=
  c.grantTypes.contains grantType

def hasScope (c : Client) (scope : String) : Bool := c.scopes.contains scope

def metadataValue (c : Client) (key : String) : String :=
  (c.metadata.lookup key).getD ""

end Client

structure LoginChallenge where
  id : String
  clientID : String
  requestURL : String
  redirectURI : String
  scopes : List String
  audience : List String
  acrValues : List String
  state : Option String
  codeChallenge : Option String
  codeChallengeMethod : Option String
  nonce : Option String
  skip : Bool
  identityID : Option String
  sessionID : Option String
  authenticatedAt : Option Time
  expiresAt : Time
  createdAt : Time
deriving Repr, DecidableEq

/-- A pending consent decision. -/
structure ConsentChallenge where
  id : String
  loginChallengeID : String
  clientID : String
  identityID : String
  sessionID : String
  requestURL : String
  redirectURI : String
  requestedScopes : List String
  requestedAudience : List String
  skip : Bool
  grantedScopes : List String
  grantedAudience : List String
  remember : Option Bool
  rememberFor : Option Int
  handled : Bool
  handledAt : Option Time
  rejected : Bool
  error : Option String
  errorDescription : Option String
  expiresAt : Time
  createdAt : Time
deriving Repr, DecidableEq

structure ConsentSession where
  id : String
  clientID : String
  identityID : String
  scopes : List String
  audience : List String
  remember : Bool
  rememberFor : Option Int
  handled : Bool
  grantedAt : Option Time
  expiresAt : Option Time
  createdAt : Time
  updatedAt : Time
deriving Repr, DecidableEq

/-- What the core session store knows about a session. -/
structure SessionAuthContext where
  aal : String
  authenticatedAt : Time
  methods : List String
deriving Repr, DecidableEq

structure AuthCode where
  code : String
  clientID : String
  identityID : String
  sessionID : String
  redirectURI : String
  scopes : List String
  audience : List String
  codeChallenge : Option String
  codeChallengeMethod : Option String
  nonce : Option String
  state : Option String
  acr : String
  amr : List String
  authTime : Time
  used : Bool
  usedAt : Option Time
  expiresAt : Time
  createdAt : Time
deriving Repr, DecidableEq

/-- `(*AuthCode).IsValid` at the given clock reading. -/
def AuthCode.isValid (ac : AuthCode) (now : Time) : Except StoreError Unit :=
  if ac.used then .error .codeUsed
  else if ac.expiresAt < now then .error .codeExpired
  else .ok ()

structure AccessToken where
  jti : String
  signature : Option String
  clientID : String
  identityID : String
  sessionID : String
  scopes : List String
  audience : List String
  issuer : String
  subject : String
  revoked : Bool
  revokedAt : Option Time
  expiresAt : Time
  createdAt : Time
deriving Repr, DecidableEq

structure RefreshToken where
  id : String
  familyID : String
  clientID : String
  identityID : String
  sessionID : String
  scopes : List String
  audience : List String
  active : Bool
  used : Bool
  usedAt : Option Time
  successorID : Option String
  gracePeriodExpiresAt : Option Time
  firstUsedAt : Option Time
  accessTokenJTI : Option String
  expiresAt : Time
  createdAt : Time
deriving Repr, DecidableEq

/-- `(*RefreshToken).IsValid` at the given clock reading. -/
def RefreshToken.isValid (t : RefreshToken) (now : Time) : Except StoreError Unit :=
  if t.active = false then .error .tokenInactive
  else if t.used then .error .tokenInactive
  else if t.expiresAt < now then .error .tokenExpired
  else .ok ()

structure IDToken where
  jti : String
  clientID : String
  identityID : String
  sessionID : String
  nonce : Option String
  atHash : Option String
  acr : String
  amr : List String
  authTime : Time
  revoked : Bool
  expiresAt : Time
  createdAt : Time
deriving Repr, DecidableEq

/-- A device authorization grant; `status` is pending, approved or denied. -/
structure DeviceCode where
  deviceCode : String
  userCode : String
  clientID : String
  scopes : List String
  audience : List String
  interval : Int
  identityID : Option String
  sessionID : Option String
  status : String
  approvedAt : Option Time
  expiresAt : Time
  lastPollAt : Option Time
  createdAt : Time
deriving Repr, DecidableEq

/-- A JSON value of a token claim. -/
inductive Json where
  | string (value : String)
  | number (value : Int)
  | strings (values : List String)
deriving Repr, DecidableEq

structure JWTAssertionClaims where
  subject : String
  audience : List String
  scopes : List String
deriving Repr, DecidableEq

/-- What the module takes from its platform and its configuration.  `marshal`
and `unmarshal` are the JSON codec on objects, `signBytes` signs a message with
the server's key and the given randomness. -/
structure Platform where
  tables : CaseTables
  sha256 : List UInt8 → List UInt8
  /-- `VerifyPassword(password, hash)`; `none` is its error. -/
  verifyPassword : String → String → Option Bool
  /-- `url.Parse(raw)` and then `Hostname()`; `none` is a parse error. -/
  urlHostname : String → Option String
  marshal : List (String × Json) → List UInt8
  unmarshal : List UInt8 → Option (List (String × Json))
  signBytes : List UInt8 → List UInt8 → List UInt8
  verifyBytes : List UInt8 → List UInt8 → Bool
  /-- `ValidateJWTAssertion(assertion, clientID)`; `none` is its error. -/
  validateJWTAssertion : String → String → Option JWTAssertionClaims
  algorithm : String
  keyID : String
  issuer : String
  pollingInterval : Int

/-- `parseScopes`, which every service package has a copy of. -/
def parseScopes (scope : String) : List String :=
  if scope = "" then []
  else ((split scope ' ').map trimSpace).filter (· ≠ "")

def isSubset (values allowed : List String) : Bool :=
  values.all allowed.contains

theorem isSubset_iff {values allowed : List String} :
    isSubset values allowed = true ↔ values ⊆ allowed := by
  simp [isSubset, List.subset_def]

/-- `authenticateClient` of the token and grant services: public clients pass,
confidential clients need their secret. -/
def authenticateClient (platform : Platform) (client : Client) (clientSecret : String) : Bool :=
  if client.tokenEndpointAuthMethod = "" ∨
      client.tokenEndpointAuthMethod = "none" then true
  else if client.tokenEndpointAuthMethod ≠ "client_secret_basic" ∧
      client.tokenEndpointAuthMethod ≠ "client_secret_post" then false
  else
    match client.secretHash with
    | none => false
    | some secretHash =>
        if blank secretHash || blank clientSecret then false
        else platform.verifyPassword clientSecret secretHash = some true

end OAuth

end Aegion
