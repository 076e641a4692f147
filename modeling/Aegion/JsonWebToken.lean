/-
Signing and verification of JSON web tokens, with the claim mapping of the
OAuth2 server.  The JSON codec and the signature scheme are the platform's.
-/
import Aegion.OAuthStore

namespace Aegion

namespace OAuth

open Go Service

namespace JWT

inductive Error where
  | signingFailed
  | verifyFailed
  | invalidToken
  | invalidAlg
  | invalidLeeway
  | tokenExpired
  | tokenNotYetValid
  /-- `invalid <name> claim type`. -/
  | invalidClaimType (name : String)
deriving Repr, DecidableEq

def reservedClaimNames : List String :=
  ["iss", "sub", "aud", "exp", "nbf", "iat", "jti", "sid"]

structure Claims where
  issuer : String
  subject : String
  audience : String
  expiresAt : Int
  notBefore : Int
  issuedAt : Int
  jwtID : String
  sessionID : String
  custom : List (String × Json)
deriving Repr, DecidableEq

def Claims.empty : Claims := ⟨"", "", "", 0, 0, 0, "", "", []⟩

/-- A member unless the value is empty. -/
def textMember (name value : String) : List (String × Json) :=
  if value ≠ "" then [(name, .string value)] else []

/-- A member unless the value is zero. -/
def numberMember (name : String) (value : Int) : List (String × Json) :=
  if value ≠ 0 then [(name, .number value)] else []

/-- `Claims.MarshalJSON`, up to the codec. -/
def Claims.members (c : Claims) : List (String × Json) :=
  textMember "iss" c.issuer ++ textMember "sub" c.subject ++
    textMember "aud" c.audience ++ numberMember "exp" c.expiresAt ++
    numberMember "nbf" c.notBefore ++ numberMember "iat" c.issuedAt ++
    textMember "jti" c.jwtID ++ textMember "sid" c.sessionID ++
    c.custom.filter fun member => member.1 ∉ reservedClaimNames

/-- `v.(string)`, with its zero value when the assertion fails. -/
def textOf : Option Json → String
  | some (.string value) => value
  | _ => ""

def numberToInt64 : Option Json → Int
  | some (.number value) => value
  | _ => 0

/-- `Claims.UnmarshalJSON`, after the codec. -/
def Claims.ofMembers (members : List (String × Json)) : Claims where
  issuer := textOf (members.lookup "iss")
  subject := textOf (members.lookup "sub")
  audience := textOf (members.lookup "aud")
  expiresAt := numberToInt64 (members.lookup "exp")
  notBefore := numberToInt64 (members.lookup "nbf")
  issuedAt := numberToInt64 (members.lookup "iat")
  jwtID := textOf (members.lookup "jti")
  sessionID := textOf (members.lookup "sid")
  custom := members.filter fun member => member.1 ∉ reservedClaimNames

/-- The members of `jwtHeader`. -/
def headerMembers (algorithm keyID : String) : List (String × Json) :=
  [("alg", .string algorithm), ("typ", .string "JWT")] ++ textMember "kid" keyID

structure VerifyOptions where
  issuer : String
  audience : String
  leeway : Int

structure VerifyResult where
  claims : Claims
  keyID : String

variable (platform : Platform)

/-- `header.payload`. -/
def signingInput (claims : Claims) : String :=
  Base64.encodeRawURL (platform.marshal
      (headerMembers platform.algorithm platform.keyID)) ++ "." ++
    Base64.encodeRawURL (platform.marshal claims.members)

/-- The compact serialization signed with the given randomness. -/
def compact (claims : Claims) (nonce : List UInt8) : String :=
  signingInput platform claims ++ "." ++
    Base64.encodeRawURL
      (platform.signBytes nonce (bytesOf (signingInput platform claims)))

/-- `Sign`: the signature scheme draws randomness. -/
def sign (claims : Claims) : Service Reply Error String :=
  statement (.randomBytes 32) fun
    | .ok nonce => .ok (compact platform claims nonce)
    | .error _ => .error .signingFailed

def validateClaims (claims : Claims) (opts : VerifyOptions) (now : Time) : Except Error Unit :=
  let now := unix now
  let leeway := opts.leeway / 1000000000
  if leeway < 0 then .error .invalidLeeway
  else if claims.expiresAt = 0 then .error .verifyFailed
  else if claims.expiresAt + leeway < now then .error .tokenExpired
  else if claims.notBefore ≠ 0 ∧ now + leeway < claims.notBefore then
    .error .tokenNotYetValid
  else if opts.issuer ≠ "" ∧ claims.issuer ≠ opts.issuer then
    .error .verifyFailed
  else if opts.audience ≠ "" ∧ claims.audience ≠ opts.audience then
    .error .verifyFailed
  else .ok ()

/-- The part of `Verify` before the claims are validated. -/
def readToken (token : String) : Except Error VerifyResult :=
  match split token '.' with
  | [header, payload, signature] =>
      match (Base64.decodeRawURL header).bind platform.unmarshal with
      | none => .error .verifyFailed
      | some headerMembers =>
          if textOf (headerMembers.lookup "alg") ≠ platform.algorithm then
            .error .invalidAlg
          else
            match Base64.decodeRawURL signature with
            | none => .error .verifyFailed
            | some signatureBytes =>
                if platform.verifyBytes (bytesOf (header ++ "." ++ payload))
                    signatureBytes = false then
                  .error .verifyFailed
                else
                  match (Base64.decodeRawURL payload).bind platform.unmarshal with
                  | none => .error .verifyFailed
                  | some members =>
                      .ok ⟨Claims.ofMembers members,
                        textOf (headerMembers.lookup "kid")⟩
  | _ => .error .invalidToken

/-- `Verify` with the server's own key. -/
def verify (token : String) (opts : VerifyOptions) : Service Reply Error VerifyResult := do
  rejectIf (opts.leeway < 0) .invalidLeeway
  let result ← ofExcept (readToken platform token)
  let now ← nowUTC
  ofExcept (validateClaims result.claims opts now)
  return result

/-- `normalizeAudienceClaim`. -/
def normalizeAudienceClaim : Json → Except Error String
  | .string value => .ok value
  | .strings values => .ok (values.headD "")
  | .number _ => .error (.invalidClaimType "aud")

def textClaim (name : String) : Json → Except Error String
  | .string value => .ok value
  | _ => .error (.invalidClaimType name)

/-- `normalizeUnixClaim`. -/
def normalizeUnixClaim (name : String) : Json → Except Error Int
  | .number value => .ok value
  | _ => .error (.invalidClaimType name)

/-- One round of the loop in `mapClaimsToJWTClaims`. -/
def assignClaim (claims : Claims) (key : String) (value : Json) : Except Error Claims :=
  if key = "iss" then
    (textClaim "iss" value).map fun v => { claims with issuer := v }
  else if key = "sub" then
    (textClaim "sub" value).map fun v => { claims with subject := v }
  else if key = "aud" then
    (normalizeAudienceClaim value).map fun v => { claims with audience := v }
  else if key = "exp" then
    (normalizeUnixClaim "exp" value).map fun v => { claims with expiresAt := v }
  else if key = "nbf" then
    (normalizeUnixClaim "nbf" value).map fun v => { claims with notBefore := v }
  else if key = "iat" then
    (normalizeUnixClaim "iat" value).map fun v => { claims with issuedAt := v }
  else if key = "jti" then
    (textClaim "jti" value).map fun v => { claims with jwtID := v }
  else if key = "sid" then
    (textClaim "sid" value).map fun v => { claims with sessionID := v }
  else .ok { claims with custom := claims.custom ++ [(key, value)] }

def mapClaimsFrom (claims : Claims) : List (String × Json) → Except Error Claims
  | [] => .ok claims
  | (key, value) :: rest =>
      match assignClaim claims key value with
      | .error e => .error e
      | .ok next => mapClaimsFrom next rest

def mapClaimsToJWTClaims (rawClaims : List (String × Json)) : Except Error Claims :=
  mapClaimsFrom Claims.empty rawClaims

/-- `oauth2JWTSigner.sign`. -/
def signClaims (rawClaims : List (String × Json)) : Service Reply Error String := do
  let claims ← ofExcept (mapClaimsToJWTClaims rawClaims)
  sign platform claims

end JWT

end OAuth

end Aegion
