/-
What a thread must have seen and done before it writes.  Each duty speaks of
the thread's own earlier calls only, so it is proved service by service, with
no regard to what other threads do in between.
-/
import Aegion.OAuthTables

namespace Aegion.OAuth

open Service

/-- The calls one thread has made, newest first. -/
abbrev Past := List (Called Reply)

/-- The refresh token most recently read: the one a refresh is about. -/
def redeemed : Past → Option RefreshToken
  | [] => none
  | ⟨.selectRefreshToken _, .ok (some token)⟩ :: _ => some token
  | _ :: past => redeemed past

/-- The refresh token that a call has found. -/
def found? : Called Reply → Option RefreshToken
  | ⟨.selectRefreshToken _, .ok (some token)⟩ => some token
  | _ => none

/-- The refresh tokens found so far, newest first. -/
def reads (past : Past) : List RefreshToken := past.filterMap found?

theorem reads_cons_read (id : String) (token : RefreshToken) (past : Past) :
    reads (⟨.selectRefreshToken id, .ok (some token)⟩ :: past) = token :: reads past := rfl

theorem redeemed_eq_head? (past : Past) : redeemed past = (reads past).head? := by
  fun_induction redeemed past with
  | case1 => rfl
  | case2 id token past => rfl
  | case3 call past hother ih =>
      have hnone : found? call = none := by
        unfold found?
        split
        · rename_i id token
          exact absurd rfl (hother id token)
        · rfl
      rw [reads, List.filterMap_cons_none hnone, ih, reads]

/-- The bytes most recently drawn for a token family. -/
def familyBytes : Past → Option (List UInt8)
  | [] => none
  | ⟨.randomBytes 16, .ok bytes⟩ :: _ => some bytes
  | _ :: past => familyBytes past

/-- The claims of the token that a row stands for. -/
def AccessToken.claims (row : AccessToken) (audience : String) (issuedAt : Int) : JWT.Claims where
  issuer := row.issuer
  subject := row.subject
  audience := audience
  expiresAt := unix row.expiresAt
  notBefore := 0
  issuedAt := issuedAt
  jwtID := row.jti
  sessionID := ""
  custom := [("client_id", .string row.clientID),
    ("scope", .string (Go.join row.scopes " "))]

/-- The token is signed over claims that agree with its row. -/
def SignedFor (platform : Platform) (jwt : String) (row : AccessToken) : Prop :=
  ∃ audience issuedAt nonce,
    jwt = JWT.compact platform (row.claims audience issuedAt) nonce

/-- The token is signed over the claims of its row, of whose audience it has the first. -/
def SignedFirst (platform : Platform) (jwt : String) (row : AccessToken) : Prop :=
  ∃ issuedAt nonce,
    jwt = JWT.compact platform (row.claims (row.audience.headD "") issuedAt) nonce

/-- An access-token row as the grants write it, next to its token. -/
structure Minted (platform : Platform) (row : AccessToken) (jwt : String) :
    Prop where
  jti : ∃ bytes, row.jti = "at_" ++ Base64.encodeRawURL bytes
  signedFirst : SignedFirst platform jwt row
  issuer : row.issuer = platform.issuer
  unrevoked : row.revoked = false

theorem Minted.signed {platform : Platform} {row : AccessToken} {jwt : String}
    (hminted : Minted platform row jwt) : SignedFor platform jwt row := by
  obtain ⟨issuedAt, nonce, hjwt⟩ := hminted.signedFirst
  exact ⟨_, issuedAt, nonce, hjwt⟩

/-- The row `issueTokens` writes for a grant. -/
structure IssuedFor (platform : Platform) (g : Grant) (row : AccessToken)
    (jwt : String) : Prop extends Minted platform row jwt where
  signature : row.signature = some (accessTokenSignature platform jwt)
  clientID : row.clientID = g.client.id
  identityID : row.identityID = g.identityID
  scopes : row.scopes = g.scopes
  subject : resolveTokenSubject platform g.client g.identityID = .ok row.subject

/-- The row of a grant that leaves no fingerprint. -/
structure IssuedPlain (platform : Platform) (client : Client)
    (row : AccessToken) (jwt : String) : Prop
    extends Minted platform row jwt where
  signature : row.signature = none
  clientID : row.clientID = client.id

/-- The client was read and has authenticated. -/
structure ClientBasis (platform : Platform) (past : Past)
    (clientID clientSecret : String) (client : Client) : Prop where
  read : ⟨.selectClient clientID, .ok (some client)⟩ ∈ past
  authenticated : authenticateClient platform client clientSecret = true

/-- The authentication that a token set states, a code records, and an ID token row has. -/
def Grant.context (g : Grant) : AuthContext := (g.acr, g.amr, g.authTime)

def AuthCode.context (row : AuthCode) : AuthContext := (row.acr, row.amr, row.authTime)

def IDToken.context (row : IDToken) : AuthContext := (row.acr, row.amr, row.authTime)

/-- The claims state this authentication. -/
def ClaimsState (claims : JWT.Claims) (context : AuthContext) : Prop :=
  claims.custom.lookup "acr" = some (.string context.1) ∧
    claims.custom.lookup "amr" = some (.strings context.2.1) ∧
    claims.custom.lookup "auth_time" = some (.number (unix context.2.2))

/-- The token is signed over claims that state this authentication. -/
def States (platform : Platform) (jwt : String) (context : AuthContext) : Prop :=
  ∃ claims nonce, jwt = JWT.compact platform claims nonce ∧ ClaimsState claims context

/-- An ID token with its row: for the client, about the identity and its authentication. -/
structure Identifies (platform : Platform) (g : Grant) (row : IDToken) (jwt : String) :
    Prop where
  clientID : row.clientID = g.client.id
  identityID : row.identityID = g.identityID
  context : row.context = g.context
  signed : ∃ claims nonce, jwt = JWT.compact platform claims nonce ∧
    claims.audience = g.client.id ∧
    resolveTokenSubject platform g.client g.identityID = .ok claims.subject ∧
    ClaimsState claims g.context

theorem Identifies.states {platform : Platform} {g : Grant} {row : IDToken} {jwt : String}
    (hfor : Identifies platform g row jwt) : States platform jwt g.context := by
  obtain ⟨claims, nonce, hjwt, -, -, hstated⟩ := hfor.signed
  exact ⟨claims, nonce, hjwt, hstated⟩

/-- What entitles an authorization-code exchange to issue tokens. -/
structure CodeBasis (platform : Platform) (req : TokenRequest) (past : Past)
    (g : Grant) (authCode : AuthCode) : Prop where
  client : ClientBasis platform past req.clientID req.clientSecret g.client
  read : ⟨.selectAuthCode req.code, .ok (some authCode)⟩ ∈ past
  sameClient : authCode.clientID = g.client.id
  redirect : authCode.redirectURI = req.redirectURI
  verifier : checkVerifier platform req authCode = .ok ()
  marked : ∃ now n, ⟨.updateAuthCodeUsed req.code now, .ok (n + 1)⟩ ∈ past
  identityID : g.identityID = authCode.identityID
  scopes : g.scopes = authCode.scopes
  context : g.context = authCode.context

/-- The scope parameter that is in effect: a successor's scopes are not narrowed. -/
def effectiveScope (req : TokenRequest) (past : Past) : String :=
  if (reads past).length = 1 then req.scope else ""

/-- What entitles a refresh to issue tokens. -/
structure RefreshBasis (platform : Platform) (req : TokenRequest) (past : Past)
    (g : Grant) (token : RefreshToken) : Prop where
  redeemed : redeemed past = some token
  client : ClientBasis platform past req.clientID req.clientSecret g.client
  sameClient : token.clientID = g.client.id
  active : token.active = true
  unused : token.used = false
  identityID : g.identityID = token.identityID
  scopes : refreshScopes { req with scope := effectiveScope req past } token = .ok g.scopes
  context : ∃ now, ⟨.clock, now⟩ ∈ past ∧ g.context = ("aal1", ["pwd"], now)

structure DeviceBasis (platform : Platform) (req : DeviceTokenRequest)
    (past : Past) (g : Grant) (dc : DeviceCode) : Prop where
  client : ClientBasis platform past req.clientID req.clientSecret g.client
  read : ⟨.selectDeviceCode req.deviceCode, .ok (some dc)⟩ ∈ past
  consumed : ∃ n, ⟨.deleteDeviceCode dc.deviceCode, .ok n⟩ ∈ past
  identityID : dc.identityID = some g.identityID
  scopes : g.scopes = dc.scopes

/-- What entitles a request to a token set. -/
def Basis (platform : Platform) (request : Request) (past : Past) (g : Grant) : Prop :=
  match request with
  | .exchangeAuthorizationCode req =>
      ∃ authCode, CodeBasis platform req past g authCode
  | .refreshAccessToken _ req => ∃ token, RefreshBasis platform req past g token
  | .deviceCodeGrant req => ∃ dc, DeviceBasis platform req past g dc
  | .exchangeDeviceCode req =>
      ClientBasis platform past req.clientID req.clientSecret g.client
  | _ => False

def PlainBasis (platform : Platform) (request : Request) (past : Past) (client : Client) : Prop :=
  match request with
  | .issueClientCredentials req =>
      ClientBasis platform past req.clientID req.clientSecret client
  | .issueJWTBearer req =>
      ClientBasis platform past req.clientID req.clientSecret client
  | _ => False

/-- The request grants consent to the challenge with the given scopes. -/
def Consents (request : Request) (challengeID : String) (grantedScopes : List String) : Prop :=
  match request with
  | .acceptConsent id scopes _ _ => id = challengeID ∧ scopes = grantedScopes
  | .acceptConsentForIdentity id _ scopes _ _ =>
      id = challengeID ∧ scopes = grantedScopes
  | _ => False

/-- What a consent has read and written before it creates a code. -/
structure ConsentBasis (challengeID : String) (grantedScopes : List String)
    (past : Past) (challenge : ConsentChallenge) (login : LoginChallenge) :
    Prop where
  read : ⟨.selectConsentChallenge challengeID, .ok (some challenge)⟩ ∈ past
  unhandled : challenge.handled = false
  subset : grantedScopes ⊆ challenge.requestedScopes
  accepted : ∃ audience remember rememberFor now n,
    ⟨.updateConsentAccepted challengeID grantedScopes audience remember
      rememberFor now, .ok (n + 1)⟩ ∈ past
  readLogin : ⟨.selectLoginChallenge challenge.loginChallengeID,
    .ok (some login)⟩ ∈ past

/-- What a refresh has done before it marks its token used. -/
structure MarkBasis (platform : Platform) (req : TokenRequest) (past : Past)
    (id : String) (now : Time) (successorID : String)
    (gracePeriodExpires : Option Time) (token : RefreshToken) : Prop where
  redeemed : redeemed past = some token
  read : ⟨.selectRefreshToken id, .ok (some token)⟩ ∈ past
  child : ∃ row before, ⟨.insertRefreshToken row, .ok ()⟩ :: before <:+ past ∧
    OAuth.redeemed before = some token ∧ row.id = successorID
  grace : ∃ client gracePeriod,
    ClientBasis platform past req.clientID req.clientSecret client ∧
      token.clientID = client.id ∧
      refreshTokenGracePeriod client = .ok gracePeriod ∧
      gracePeriodExpires =
        if 0 < gracePeriod then some (now + gracePeriod) else none

/-- The duty of a call, given the request and the thread's earlier calls. -/
def callDuty (platform : Platform) (request : Request) (past : Past) (call : Called Reply) : Prop :=
  match call with
  | ⟨.insertLoginChallenge row, _⟩ =>
      ∃ req client, request = .startAuthorization req ∧
        ⟨.selectClient req.clientID, .ok (some client)⟩ ∈ past ∧
        checkAuthorizeClient req client = .ok () ∧
        ∃ id now created, row =
          { loginChallengeFor req client id now with createdAt := created }
  | ⟨.insertConsentChallenge row, _⟩ =>
      ∃ challengeID identityID sessionID login,
        request = .acceptLogin challengeID identityID sessionID ∧
        ⟨.selectLoginChallenge challengeID, .ok (some login)⟩ ∈ past ∧
        ∃ skip now created, row =
          { consentChallengeFor login challengeID identityID sessionID skip now
            with createdAt := created }
  | ⟨.insertAuthCode row, _⟩ =>
      (∀ other reply, ⟨.insertAuthCode other, reply⟩ ∉ past) ∧
      ∃ challengeID grantedScopes challenge login,
        Consents request challengeID grantedScopes ∧
        ConsentBasis challengeID grantedScopes past challenge login ∧
        ∃ context value now created authTime, row =
          { authCodeFor challenge login grantedScopes context value now with
            createdAt := created, authTime := authTime }
  | ⟨.insertAccessToken row, _⟩ =>
      (∃ g jwt, Basis platform request past g ∧ IssuedFor platform g row jwt) ∨
        ∃ client jwt, PlainBasis platform request past client ∧
          IssuedPlain platform client row jwt
  | ⟨.insertRefreshToken row, _⟩ =>
      ∃ g bytes family, Basis platform request past g ∧
        familyBytes past = some family ∧
        row.id = "rt_" ++ Base64.encodeRawURL bytes ∧
        row.familyID = "rtf_" ++ Base64.encodeRawURL family ∧
        row.clientID = g.client.id ∧ row.identityID = g.identityID ∧
        row.scopes = g.scopes ∧ row.active = true ∧ row.used = false ∧
        row.successorID = none ∧ row.gracePeriodExpiresAt = none
  | ⟨.insertIDToken row, _⟩ =>
      ∃ g jwt, Basis platform request past g ∧ Identifies platform g row jwt
  | ⟨.selectRefreshToken id, _⟩ =>
      ∀ depth req, request = .refreshAccessToken depth req →
        ∀ token, redeemed past = some token → token.successorID = some id
  | ⟨.updateRefreshTokenUsed id now successorID gracePeriodExpires, _⟩ =>
      ∃ depth req token, request = .refreshAccessToken depth req ∧
        MarkBasis platform req past id now successorID gracePeriodExpires token
  | ⟨.insertDeviceCode row, _⟩ =>
      row.lastPollAt = none ∧
        ∃ clientID scope, request = .requestDeviceAuthorization clientID scope
  | _ => True

/-- The error a detected replay is answered with. -/
def replayError : TokenError :=
  .store .familyInvalidated "token replay detected"

/-- A complete token set was issued for a grant. -/
structure Issued (platform : Platform) (request : Request) (g : Grant)
    (resp : TokenResponse) (past : Past) : Prop where
  basis : Basis platform request past g
  row : ∃ row, ⟨.insertAccessToken row, .ok ()⟩ ∈ past ∧
    IssuedFor platform g row resp.accessToken
  scope : resp.scope = Go.join g.scopes " "
  idToken : ∀ jwt, resp.idToken = some jwt →
    ∃ row, ⟨.insertIDToken row, .ok ()⟩ ∈ past ∧ Identifies platform g row jwt

/-- Reading the token with the given id and then its successors, as long as the
grace period lasts, has led to the given token, which was then marked used. -/
inductive Leads (past : Past) : String → RefreshToken → Prop where
  | read {id : String} {token : RefreshToken}
      (hread : ⟨.selectRefreshToken id, .ok (some token)⟩ ∈ past)
      (hmarked : ∃ now successorID gracePeriodExpires n,
        ⟨.updateRefreshTokenUsed id now successorID gracePeriodExpires,
          .ok (n + 1)⟩ ∈ past) :
      Leads past id token
  | successor {id successorID : String} {token last : RefreshToken} {now : Time}
      (hread : ⟨.selectRefreshToken id, .ok (some token)⟩ ∈ past)
      (hgrace : graceOver token now = false)
      (hsuccessor : token.successorID = some successorID)
      (hrest : Leads past successorID last) : Leads past id last

def CodeCreated (past : Past) : Prop := ∃ row, ⟨.insertAuthCode row, .ok ()⟩ ∈ past

/-- The consent challenge of the response was stored, and granted at once if it was to be
skipped. -/
def ConsentOpened (resp : ConsentChallengeResponse) (past : Past) : Prop :=
  ∃ row, ⟨.insertConsentChallenge row, .ok ()⟩ ∈ past ∧ row.id = resp.consentChallenge ∧
    (row.skip = true → ∃ scopes audience now n,
      ⟨.updateConsentAccepted row.id scopes audience false none now, .ok (n + 1)⟩ ∈ past)

/-- The duty of an answer, given the request and all of the thread's calls. -/
def answerDuty (platform : Platform) (request : Request) (response : Response)
    (past : Past) : Prop :=
  match response with
  | .consentChallenge resp => ConsentOpened resp past
  | .authorization _ => CodeCreated past
  | .tokens resp =>
      (∃ g, Issued platform request g resp past) ∧
        ∀ depth req, request = .refreshAccessToken depth req →
          ∃ token, redeemed past = some token ∧
            Leads past req.refreshToken token
  | .accessToken resp =>
      ∃ client row, PlainBasis platform request past client ∧
        ⟨.insertAccessToken row, .ok ()⟩ ∈ past ∧
        IssuedPlain platform client row resp.accessToken
  | .failed (.token e) =>
      ∀ depth req, request = .refreshAccessToken depth req →
        (e = replayError →
          ∃ token reply before, redeemed past = some token ∧ token.used = true ∧
            ⟨.updateRefreshFamilyInactive token.familyID, reply⟩ :: before <:+
              past ∧ redeemed before = some token) ∧
        (e = .stackOverflow → (reads past).length = depth)
  | _ => True

/-- Calls that carry no duty and leave `reads` and `familyBytes` alone. -/
def Call.plain : Call → Bool
  | .insertLoginChallenge _ => false
  | .insertConsentChallenge _ => false
  | .insertAuthCode _ => false
  | .insertAccessToken _ => false
  | .insertRefreshToken _ => false
  | .insertIDToken _ => false
  | .selectRefreshToken _ => false
  | .updateRefreshTokenUsed .. => false
  | .insertDeviceCode _ => false
  | .randomBytes length => length ≠ 16
  | _ => true

/-- `Call.plain` of an executed call. -/
def Plain (call : Called Reply) : Prop := call.1.plain = true

theorem callDuty_of_plain (platform : Platform) (request : Request)
    (past : Past) (call : Called Reply) (hplain : Plain call) :
    callDuty platform request past call := by
  obtain ⟨c, reply⟩ := call
  cases c <;> trivial

theorem reads_cons {call : Called Reply} {past : Past}
    (hother : ∀ id reply, call ≠ ⟨.selectRefreshToken id, reply⟩) :
    reads (call :: past) = reads past := by
  obtain ⟨c, reply⟩ := call
  cases c with
  | selectRefreshToken id => exact absurd rfl (hother id reply)
  | _ => rfl

/-- The past has grown, but neither by a refresh token read nor by a code. -/
structure Extends (past later : Past) : Prop where
  suffix : past <:+ later
  reads : reads later = reads past
  codes : ∀ row reply, ⟨.insertAuthCode row, reply⟩ ∈ later →
    ⟨.insertAuthCode row, reply⟩ ∈ past

theorem Extends.redeemed {past later : Past} (hextends : Extends past later) :
    redeemed later = redeemed past := by
  rw [redeemed_eq_head?, redeemed_eq_head?, hextends.reads]

theorem Extends.refl (past : Past) : Extends past past :=
  ⟨List.suffix_rfl, rfl, fun _ _ hmem => hmem⟩

theorem Extends.trans {past middle later : Past} (hfirst : Extends past middle)
    (hsecond : Extends middle later) : Extends past later :=
  ⟨hfirst.suffix.trans hsecond.suffix, hsecond.reads.trans hfirst.reads,
    fun row reply hmem => hfirst.codes row reply (hsecond.codes row reply hmem)⟩

theorem Extends.cons {past later : Past} (hextends : Extends past later) {call : Called Reply}
    (hselect : ∀ id reply, call ≠ ⟨.selectRefreshToken id, reply⟩)
    (hcode : ∀ row reply, call ≠ ⟨.insertAuthCode row, reply⟩) : Extends past (call :: later) where
  suffix := hextends.suffix.trans (List.suffix_cons _ _)
  reads := (reads_cons hselect).trans hextends.reads
  codes := by
    intro row reply hmem
    rcases List.mem_cons.mp hmem with heq | hlater
    · exact absurd heq.symm (hcode row reply)
    · exact hextends.codes row reply hlater

theorem Extends.mem {past later : Past} (hextends : Extends past later)
    {call : Called Reply} (hcall : call ∈ past) : call ∈ later :=
  hextends.suffix.subset hcall

theorem Extends.consPlain {past later : Past} (hextends : Extends past later)
    {call : Called Reply} (hplain : Plain call) : Extends past (call :: later) := by
  apply hextends.cons
  · rintro id reply rfl
    cases hplain
  · rintro row reply rfl
    cases hplain

theorem Extends.plain {past added : Past} (hplain : ∀ call ∈ added, Plain call) :
    Extends past (added ++ past) := by
  induction added with
  | nil => exact Extends.refl past
  | cons call rest ih =>
      have hrest := ih fun other hother =>
        hplain other (List.mem_cons_of_mem call hother)
      exact hrest.consPlain (hplain call List.mem_cons_self)

theorem ClientBasis.extend {platform : Platform} {past later : Past}
    {clientID clientSecret : String} {client : Client}
    (hbasis : ClientBasis platform past clientID clientSecret client)
    (hextends : Extends past later) : ClientBasis platform later clientID clientSecret client :=
  ⟨hextends.mem hbasis.read, hbasis.authenticated⟩

/-- An entitlement outlives further calls. -/
theorem Basis.extend {platform : Platform} {request : Request}
    {past later : Past} {g : Grant} (hbasis : Basis platform request past g)
    (hextends : Extends past later) : Basis platform request later g := by
  cases request with
  | exchangeAuthorizationCode req =>
      obtain ⟨authCode, hcode⟩ := hbasis
      obtain ⟨now, n, hmarked⟩ := hcode.marked
      exact ⟨authCode, { hcode with
        client := hcode.client.extend hextends
        read := hextends.mem hcode.read
        marked := ⟨now, n, hextends.mem hmarked⟩ }⟩
  | refreshAccessToken depth req =>
      obtain ⟨token, htoken⟩ := hbasis
      obtain ⟨now, hnow, hcontext⟩ := htoken.context
      have hscope : effectiveScope req later = effectiveScope req past := by
        rw [effectiveScope, effectiveScope, hextends.reads]
      exact ⟨token, { htoken with
        redeemed := hextends.redeemed.trans htoken.redeemed
        client := htoken.client.extend hextends
        scopes := hscope ▸ htoken.scopes
        context := ⟨now, hextends.mem hnow, hcontext⟩ }⟩
  | deviceCodeGrant req =>
      obtain ⟨dc, hdevice⟩ := hbasis
      obtain ⟨n, hconsumed⟩ := hdevice.consumed
      exact ⟨dc, { hdevice with
        client := hdevice.client.extend hextends
        read := hextends.mem hdevice.read
        consumed := ⟨n, hextends.mem hconsumed⟩ }⟩
  | exchangeDeviceCode req => exact ClientBasis.extend hbasis hextends
  | _ => exact hbasis

theorem Issued.extend {platform : Platform} {request : Request} {g : Grant}
    {resp : TokenResponse} {past later : Past} (hissued : Issued platform request g resp past)
    (hextends : Extends past later) : Issued platform request g resp later := by
  obtain ⟨row, hrow, hfor⟩ := hissued.row
  refine ⟨hissued.basis.extend hextends, ⟨row, hextends.mem hrow, hfor⟩, hissued.scope, ?_⟩
  intro jwt hjwt
  obtain ⟨other, hother, hfor⟩ := hissued.idToken jwt hjwt
  exact ⟨other, hextends.mem hother, hfor⟩

theorem PlainBasis.extend {platform : Platform} {request : Request}
    {past later : Past} {client : Client} (hbasis : PlainBasis platform request past client)
    (hextends : Extends past later) : PlainBasis platform request later client := by
  cases request with
  | issueClientCredentials req => exact ClientBasis.extend hbasis hextends
  | issueJWTBearer req => exact ClientBasis.extend hbasis hextends
  | _ => exact hbasis

end Aegion.OAuth
