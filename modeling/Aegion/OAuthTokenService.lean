/-
The token service: the three grants that end in `issueTokens`, refresh-token
rotation with its replay detection, and introspection.
-/
import Aegion.JsonWebToken
import Aegion.OAuthAuthorization

namespace Aegion.OAuth

open Go Service

inductive TokenError where
  | invalidGrant
  | invalidClient
  | invalidRequest
  | unauthorizedClient
  | invalidScope (detail : String)
  | store (cause : StoreError) (detail : String)
  | pkce (cause : PKCEError)
  /-- `failed to generate <what>` -/
  | generate (what : String)
  /-- `failed to sign <what>` -/
  | sign (what : String)
  /-- The goroutine's stack is exhausted by the successor recursion. -/
  | stackOverflow
deriving Repr, DecidableEq

structure TokenRequest where
  code : String
  redirectURI : String
  clientID : String
  clientSecret : String
  codeVerifier : String
  refreshToken : String
  scope : String
deriving Repr, DecidableEq

structure DeviceCodeTokenRequest where
  clientID : String
  clientSecret : String
  identityID : String
  sessionID : String
  scopes : List String
  audience : List String
  authTime : Time
deriving Repr, DecidableEq

structure TokenResponse where
  accessToken : String
  tokenType : String
  expiresIn : Int
  refreshToken : Option String
  idToken : Option String
  scope : String
deriving Repr, DecidableEq

structure IntrospectionRequest where
  token : String
  clientID : String
  clientSecret : String
deriving Repr, DecidableEq

structure IntrospectionResponse where
  active : Bool
  clientID : String
  subject : String
  scope : String
  expiresAt : Int
  issuer : String
  audience : List String
  tokenType : String
deriving Repr, DecidableEq

/-- `IntrospectionResponse{Active: false}`. -/
def IntrospectionResponse.inactive : IntrospectionResponse :=
  ⟨false, "", "", "", 0, "", [], ""⟩

section Subject

variable (platform : Platform)

def normalizeSectorIdentifier (raw : String) : String :=
  let trimmed := trimSpace raw
  if trimmed = "" then ""
  else
    match platform.urlHostname trimmed with
    | none => platform.tables.toLower trimmed
    | some host =>
        if blank host then platform.tables.toLower trimmed
        else platform.tables.toLower (trimSpace host)

/-- The sector identifier URI if it is usable, else the first usable redirect
URI. -/
def resolvePairwiseSector (client : Client) : String :=
  let candidates := client.sectorIdentifierURI.toList ++ client.redirectURIs
  ((candidates.map (normalizeSectorIdentifier platform)).find? (· ≠ "")).getD ""

def computePairwiseSubject (identityID issuer sector : String) : String :=
  Base64.encodeRawURL
    (platform.sha256 (bytesOf (join [issuer, sector, identityID] "|")))

def resolveTokenSubject (client : Client) (identityID : String) : Except TokenError String :=
  let identityID := trimSpace identityID
  if identityID = "" then .error .invalidRequest
  else
    let subjectType := platform.tables.toLower (trimSpace client.subjectType)
    if subjectType = "" ∨ subjectType = "public" then .ok identityID
    else if subjectType = "pairwise" then
      let sector := resolvePairwiseSector platform client
      if sector = "" then .error .invalidClient
      else .ok (computePairwiseSubject platform identityID
        (trimSpace platform.issuer) sector)
    else .error .invalidClient

def accessTokenSignature (token : String) : String :=
  Base64.encodeRawURL (platform.sha256 (bytesOf token))

def computeATHash (accessToken : String) : String :=
  let h := platform.sha256 (bytesOf accessToken)
  Base64.encodeRawURL (h.take (h.length / 2))

end Subject

def refreshTokenGracePeriod (client : Client) : Except TokenError Int :=
  let first := trimSpace (client.metadataValue "refresh_token_grace_seconds")
  let raw :=
    if first = "" then
      trimSpace (client.metadataValue "refresh_token_grace_period_seconds")
    else first
  if raw = "" then .ok 0
  else
    match atoi raw with
    | none => .error .invalidClient
    | some n => if n < 0 then .error .invalidClient else .ok (seconds n)

/-- On whose behalf and for what a token set is issued. -/
structure Grant where
  client : Client
  identityID : String
  sessionID : String
  scopes : List String
  audience : List String
  nonce : Option String
  acr : String
  amr : List String
  authTime : Time
deriving Repr, DecidableEq

section Issue

variable (platform : Platform)

/-- The claims of an access token. -/
def accessClaims (client : Client) (subject : String) (audience : Json)
    (scopes : List String) (jti : String) (now expiresAt : Time) : List (String × Json) :=
  [("iss", .string platform.issuer), ("sub", .string subject),
    ("aud", audience), ("iat", .number (unix now)),
    ("exp", .number (unix expiresAt)), ("jti", .string jti),
    ("client_id", .string client.id), ("scope", .string (join scopes " "))]

/-- The access-token row `issueTokens` writes. -/
def accessTokenFor (g : Grant) (subject jti jwt : String) (now : Time) : AccessToken where
  jti := jti
  signature := some (accessTokenSignature platform jwt)
  clientID := g.client.id
  identityID := g.identityID
  sessionID := g.sessionID
  scopes := g.scopes
  audience := g.audience
  issuer := platform.issuer
  subject := subject
  revoked := false
  revokedAt := none
  expiresAt := now + seconds g.client.accessTokenTTL
  createdAt := zeroTime

/-- The refresh-token row `issueTokens` writes. -/
def refreshTokenFor (g : Grant) (id familyID jti : String) (now : Time) : RefreshToken where
  id := id
  familyID := familyID
  clientID := g.client.id
  identityID := g.identityID
  sessionID := g.sessionID
  scopes := g.scopes
  audience := g.audience
  active := true
  used := false
  usedAt := none
  successorID := none
  gracePeriodExpiresAt := none
  firstUsedAt := none
  accessTokenJTI := some jti
  expiresAt := now + seconds g.client.refreshTokenTTL
  createdAt := zeroTime

/-- Sign and store the access token; the result is its JTI and its JWT. -/
def issueAccessToken (g : Grant) (now : Time) : Service Reply TokenError (String × String) := do
  let subject ← ofExcept (resolveTokenSubject platform g.client g.identityID)
  let jti ← generateAccessTokenJTI.orReject fun _ => .generate "access token JTI"
  let jwt ← (JWT.signClaims platform (accessClaims platform g.client subject
    (.strings g.audience) g.scopes jti now
    (now + seconds g.client.accessTokenTTL))).orReject fun _ =>
      .sign "access token"
  (createAccessToken (accessTokenFor platform g subject jti jwt now)).orReject
    (.store · "")
  return (jti, jwt)

/-- A refresh token, with a family of its own, if offline access is granted. -/
def issueRefreshToken (g : Grant) (jti : String) (now : Time) :
    Service Reply TokenError (Option String) :=
  if g.client.allowOfflineAccess && g.scopes.contains "offline_access" then do
    let id ← generateRefreshToken.orReject fun _ => .generate "refresh token"
    let familyID ← generateRefreshTokenFamily.orReject fun _ =>
      .generate "refresh token family"
    (createRefreshToken (refreshTokenFor g id familyID jti now)).orReject
      (.store · "")
    return some id
  else return none

/-- An ID token if `openid` is granted. -/
def issueIDToken (g : Grant) (jwt : String) (now : Time) :
    Service Reply TokenError (Option String) :=
  if g.scopes.contains "openid" then do
    let subject ← ofExcept (resolveTokenSubject platform g.client g.identityID)
    let jti ← generateIDTokenJTI.orReject fun _ => .generate "ID token JTI"
    let expiresAt := now + seconds g.client.idTokenTTL
    let atHash := computeATHash platform jwt
    let nonceClaim : List (String × Json) := match g.nonce with
      | some nonce => if nonce = "" then [] else [("nonce", .string nonce)]
      | none => []
    let idJWT ← (JWT.signClaims platform
      ([("iss", Json.string platform.issuer), ("sub", .string subject),
        ("aud", .string g.client.id), ("iat", .number (unix now)),
        ("exp", .number (unix expiresAt)),
        ("auth_time", .number (unix g.authTime)), ("jti", .string jti),
        ("acr", .string g.acr), ("amr", .strings g.amr),
        ("at_hash", .string atHash)] ++ nonceClaim)).orReject fun _ =>
          .sign "ID token"
    (createIDToken
      { jti := jti
        clientID := g.client.id
        identityID := g.identityID
        sessionID := g.sessionID
        nonce := g.nonce
        atHash := some atHash
        acr := g.acr
        amr := g.amr
        authTime := g.authTime
        revoked := false
        expiresAt := expiresAt
        createdAt := zeroTime }).orReject (.store · "")
    return some idJWT
  else return none

/-- `issueTokens`: a complete token set. -/
def issueTokens (g : Grant) : Service Reply TokenError TokenResponse := do
  let now ← nowUTC
  let (jti, jwt) ← issueAccessToken platform g now
  let refreshToken ← issueRefreshToken g jti now
  let idToken ← issueIDToken platform g jwt now
  return ⟨jwt, "Bearer", g.client.accessTokenTTL, refreshToken, idToken,
    join g.scopes " "⟩

end Issue

section Grants

variable (platform : Platform)

/-- `len(client.GrantTypes) > 0 && !client.HasGrantType(...)` for all of the
given names. -/
def lacksGrant (client : Client) (names : List String) : Bool :=
  client.grantTypes ≠ [] && names.all fun name => !client.hasGrantType name

/-- The client checks that open each of the three grants. -/
def authenticatedClient (clientID clientSecret : String)
    (grantTypes : List String) : Service Reply TokenError Client := do
  let client ← (getClient clientID).orReject fun _ => .invalidClient
  rejectIf (authenticateClient platform client clientSecret = false)
    .invalidClient
  rejectIf (lacksGrant client grantTypes = true) .unauthorizedClient
  return client

/-- The PKCE check of `ExchangeAuthorizationCode`. -/
def checkVerifier (req : TokenRequest) (authCode : AuthCode) : Except TokenError Unit :=
  match authCode.codeChallenge with
  | none => .ok ()
  | some codeChallenge =>
      if codeChallenge = "" then .ok ()
      else if req.codeVerifier = "" then
        .error (.store .pkceRequired "code_verifier required")
      else
        match verifyPKCE platform req.codeVerifier codeChallenge
            (authCode.codeChallengeMethod.getD "S256") with
        | .ok () => .ok ()
        | .error cause => .error (.pkce cause)

def exchangeAuthorizationCode (req : TokenRequest) : Service Reply TokenError TokenResponse := do
  rejectIf (blank req.clientID || blank req.code || blank req.redirectURI)
    .invalidRequest
  let client ← authenticatedClient platform req.clientID req.clientSecret
    ["authorization_code"]
  let authCode ← (getAuthCode req.code).orReject fun _ => .invalidGrant
  let now ← nowUTC
  rejectIf (authCode.isValid now ≠ .ok ()) .invalidGrant
  rejectIf (authCode.clientID ≠ client.id) .invalidGrant
  rejectIf (authCode.redirectURI ≠ req.redirectURI) .invalidGrant
  ofExcept (checkVerifier platform req authCode)
  (markAuthCodeUsed req.code).orReject fun _ => .invalidGrant
  issueTokens platform
    { client := client
      identityID := authCode.identityID
      sessionID := authCode.sessionID
      scopes := authCode.scopes
      audience := authCode.audience
      nonce := authCode.nonce
      acr := authCode.acr
      amr := authCode.amr
      authTime := authCode.authTime }

/-- The scopes of a refresh: the original ones, or a requested part of them. -/
def refreshScopes (req : TokenRequest) (refreshToken : RefreshToken) :
    Except TokenError (List String) :=
  if req.scope = "" then .ok refreshToken.scopes
  else
    match (parseScopes req.scope).find? fun scope =>
        !refreshToken.scopes.contains scope with
    | some scope =>
        .error (.invalidScope ("scope '" ++ scope ++ "' not in original grant"))
    | none => .ok (parseScopes req.scope)

/-- Used, and the grace period is over at the given time. -/
def graceOver (refreshToken : RefreshToken) (now : Time) : Bool :=
  match refreshToken.gracePeriodExpiresAt with
  | none => true
  | some expiresAt => !decide (now < expiresAt)

/-- The rest of `RefreshAccessToken` once the token counts as presented for the
first time. -/
def rotate (req : TokenRequest) (client : Client) (refreshToken : RefreshToken) :
    Service Reply TokenError TokenResponse := do
  let now ← nowUTC
  rejectIf (refreshToken.isValid now ≠ .ok ()) .invalidGrant
  rejectIf (refreshToken.clientID ≠ client.id) .invalidGrant
  let scopes ← ofExcept (refreshScopes req refreshToken)
  let authTime ← nowUTC
  let resp ← issueTokens platform
    { client := client
      identityID := refreshToken.identityID
      sessionID := refreshToken.sessionID
      scopes := scopes
      audience := refreshToken.audience
      nonce := none
      acr := "aal1"
      amr := ["pwd"]
      authTime := authTime }
  let successor := resp.refreshToken.getD ""
  rejectIf (blank successor = true)
    (.invalidScope "refreshed token set did not include a refresh token")
  let gracePeriod ← ofExcept (refreshTokenGracePeriod client)
  (markRefreshTokenUsed req.refreshToken successor gracePeriod).orReject
    (.store · "")
  return resp

/-- `RefreshAccessToken`.  A used token within its grace period is exchanged
for its successor by a recursive call, whose depth is bounded by the stack. -/
def refreshAccessToken : Nat → TokenRequest →
    Service Reply TokenError TokenResponse
  | 0, _ => reject .stackOverflow
  | depth + 1, req => do
      rejectIf (blank req.clientID || blank req.refreshToken) .invalidRequest
      let client ← authenticatedClient platform req.clientID req.clientSecret
        ["refresh_token"]
      let refreshToken ← (getRefreshToken req.refreshToken).orReject fun _ =>
        .invalidGrant
      if refreshToken.used then
        let now ← nowUTC
        if graceOver refreshToken now then
          let _ ← attempt (invalidateRefreshTokenFamily refreshToken.familyID)
          reject (.store .familyInvalidated "token replay detected")
        else
          match refreshToken.successorID with
          | some successorID =>
              refreshAccessToken depth
                { req with
                  code := ""
                  redirectURI := ""
                  codeVerifier := ""
                  refreshToken := successorID
                  scope := "" }
          | none => rotate platform req client refreshToken
      else rotate platform req client refreshToken

def exchangeDeviceCode (req : DeviceCodeTokenRequest) : Service Reply TokenError TokenResponse := do
  rejectIf (blank req.clientID || blank req.identityID) .invalidRequest
  let client ← authenticatedClient platform req.clientID req.clientSecret
    ["urn:ietf:params:oauth:grant-type:device_code", "device_code"]
  rejectIf (isSubset req.scopes client.scopes = false) (.invalidScope "")
  let now ← nowUTC
  issueTokens platform
    { client := client
      identityID := req.identityID
      sessionID := req.sessionID
      scopes := req.scopes
      audience := req.audience
      nonce := none
      acr := "aal1"
      amr := ["pwd"]
      authTime := if req.authTime = zeroTime then now else req.authTime }

/-- Look the token up as a JTI first, then by its fingerprint. -/
def resolveAccessTokenForIntrospection (token : String) : StoreM AccessToken := do
  let byJTI ← attempt (getAccessToken token)
  match byJTI with
  | .ok accessToken => return accessToken
  | .error .notFound =>
      getAccessTokenBySignature (accessTokenSignature platform token)
  | .error e => reject e

def introspectToken (req : IntrospectionRequest) :
    Service Reply TokenError IntrospectionResponse := do
  rejectIf (blank req.token || blank req.clientID) .invalidRequest
  let client ← (getClient req.clientID).orReject fun _ => .invalidClient
  rejectIf (blank client.tokenEndpointAuthMethod ||
    client.tokenEndpointAuthMethod = "none") .unauthorizedClient
  rejectIf (authenticateClient platform client req.clientSecret = false)
    .invalidClient
  rejectIf (client.tokenEndpointAuthMethod = "" ∨
    client.tokenEndpointAuthMethod = "none") .unauthorizedClient
  let found ← attempt (resolveAccessTokenForIntrospection platform req.token)
  match found with
  | .error .notFound => return .inactive
  | .error e => reject (.store e "")
  | .ok accessToken =>
      let now ← nowUTC
      if accessToken.revoked || accessToken.expiresAt < now then
        return .inactive
      else
        rejectIf (accessToken.clientID ≠ client.id) .unauthorizedClient
        return { active := true
                 clientID := accessToken.clientID
                 subject := accessToken.subject
                 scope := join accessToken.scopes " "
                 expiresAt := unix accessToken.expiresAt
                 issuer := accessToken.issuer
                 audience := accessToken.audience
                 tokenType := "Bearer" }

end Grants

end Aegion.OAuth
