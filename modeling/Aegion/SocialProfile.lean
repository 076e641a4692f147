/-
Profiles of social providers: the JSON a provider returns, how Go decodes it into
a map of claims, and what the claim mapping takes from that map.  Numbers are
decoded into `float64`; those that are not written as integers are left to
parameters.
-/
import Aegion.GoText
import Aegion.Binary64

namespace Aegion.Social

open Go

/-- A JSON text.  Integers are told apart from numbers with a fraction or an
exponent. -/
inductive Json where
  | null
  | bool (b : Bool)
  | string (s : String)
  | integer (n : Int)
  | number (literal : String)
  | array (items : List Json)
  | object (members : List (String × Json))

/-- A `float64`: an integer that it represents, or the bits of another number. -/
inductive Float64 where
  | integral (n : Int)
  | bits (b : UInt64)
deriving Repr, DecidableEq

/-- What `encoding/json` makes of a text under an empty interface. -/
inductive Value where
  | null
  | bool (b : Bool)
  | string (s : String)
  | float (x : Float64)
  | array (items : List Value)
  | object (members : List (String × Value))

/-- A `map[string]interface{}`; the last entry of a key counts. -/
abbrev Claims := List (String × Value)

structure Platform where
  tables : CaseTables
  /-- `strconv.ParseFloat` on a number that is not written as an integer. -/
  parseFloat : String → Option UInt64
  /-- `fmt.Sprintf("%.0f", x)` for such a number. -/
  formatFloat : UInt64 → String
  formatFloat_not_blank : ∀ b, trimSpace (formatFloat b) ≠ ""

inductive ClaimSource where
  | userInfo
  | idToken
  | githubUser
deriving Repr, DecidableEq

structure ClaimMapping where
  subject : String
  email : String
  emailVerified : String
  name : String
  picture : String
deriving Repr, DecidableEq

structure Provider where
  slug : String
  claimMapping : ClaimMapping
  claimSource : ClaimSource
  trustEmailVerified : Bool
deriving Repr, DecidableEq

structure SocialProfile where
  provider : String
  providerUser : String
  email : String
  emailVerified : Bool
  name : String
  pictureURL : String
  rawClaims : Claims

inductive ProfileError where
  | decode
  | nonceMismatch
deriving Repr, DecidableEq

section Decoding

variable (platform : Platform)

mutual

/-- `json.Unmarshal`; `none` if some number is out of range. -/
def Json.decode : Json → Option Value
  | .null => some .null
  | .bool b => some (.bool b)
  | .string s => some (.string s)
  | .integer n => (Binary64.ofInt n).map fun m => .float (.integral m)
  | .number literal => (platform.parseFloat literal).map fun b => .float (.bits b)
  | .array items => (decodeItems items).map .array
  | .object members => (decodeMembers members).map .object

def decodeItems : List Json → Option (List Value)
  | [] => some []
  | item :: rest =>
      item.decode.bind fun value => (decodeItems rest).map (value :: ·)

def decodeMembers : List (String × Json) → Option Claims
  | [] => some []
  | (key, item) :: rest =>
      item.decode.bind fun value => (decodeMembers rest).map ((key, value) :: ·)

end

/-- Decoding into a `map[string]interface{}`, where `null` leaves the nil map. -/
def decodeClaims : Json → Option Claims
  | .object members => decodeMembers platform members
  | .null => some []
  | _ => none

/-- The last member of a name. -/
def lookup {α : Type} : List (String × α) → String → Option α
  | [], _ => none
  | (key, value) :: rest, name =>
      (lookup rest name).orElse fun _ => if key = name then some value else none

end Decoding

section Mapping

variable (platform : Platform)

/-- `fmt.Sprintf("%.0f", x)`. -/
def Float64.format : Float64 → String
  | .integral n => n.repr
  | .bits b => platform.formatFloat b

/-- The text of a claim that has one. -/
def claimText : Value → Option String
  | .string s => if trimSpace s ≠ "" then some (trimSpace s) else none
  | .float x => some (trimSpace (x.format platform))
  | _ => none

/-- The alternatives that a mapping names. -/
def mappingKeys (mapping : String) : List String :=
  ((split mapping '|').map trimSpace).filter (· ≠ "")

/-- The loop of `claimValue`. -/
def claimAmong (claims : Claims) : List String → String
  | [] => ""
  | key :: rest =>
      match (lookup claims key).bind (claimText platform) with
      | some text => text
      | none => claimAmong claims rest

def claimValue (claims : Claims) (mapping : String) : String :=
  claimAmong platform claims (mappingKeys mapping)

/-- The loop of `claimBool`. -/
def claimBoolAmong (claims : Claims) : List String → Bool
  | [] => false
  | key :: rest =>
      match lookup claims key with
      | some (.bool b) => b
      | some (.string s) =>
          if platform.tables.toLower (trimSpace s) ∈ ["true", "1", "yes"] then true
          else claimBoolAmong claims rest
      | _ => claimBoolAmong claims rest

def claimBool (claims : Claims) (mapping : String) : Bool :=
  claimBoolAmong platform claims (mappingKeys mapping)

def claimsToProfile (provider : Provider) (claims : Claims) : SocialProfile :=
  let user := claimValue platform claims provider.claimMapping.subject
  let email := platform.tables.toLower
    (claimValue platform claims provider.claimMapping.email)
  let verified := claimBool platform claims provider.claimMapping.emailVerified
  { provider := provider.slug
    providerUser := if user = "" then claimValue platform claims "sub|id" else user
    email := email
    emailVerified := verified ||
      (trimSpace email ≠ "" && provider.claimSource = .githubUser)
    name := claimValue platform claims provider.claimMapping.name
    pictureURL := claimValue platform claims provider.claimMapping.picture
    rawClaims := claims }

end Mapping

section Sources

variable (platform : Platform) (provider : Provider)

def profileFromUserInfo (document : Json) : Except ProfileError SocialProfile :=
  match decodeClaims platform document with
  | none => .error .decode
  | some claims => .ok (claimsToProfile platform provider claims)

/-- After the signature of the token has been verified. -/
def profileFromIDToken (nonce : String) (payload : Json) : Except ProfileError SocialProfile :=
  match decodeClaims platform payload with
  | none => .error .decode
  | some claims =>
      if trimSpace nonce ≠ "" ∧
          trimSpace (claimValue platform claims "nonce") ≠ trimSpace nonce then
        .error .nonceMismatch
      else .ok (claimsToProfile platform provider claims)

/-- The string under a key, empty for anything else. -/
def stringAt (claims : Claims) (key : String) : String :=
  match lookup claims key with
  | some (.string s) => s
  | _ => ""

/-- A boolean under a key, false for anything else. -/
def boolAt (claims : Claims) (key : String) : Bool :=
  match lookup claims key with
  | some (.bool b) => b
  | _ => false

/-- The address list of the GitHub API, if it could be fetched and decoded. -/
def decodeEmails : Option Json → List Claims
  | some (.array items) => (items.mapM (decodeClaims platform)).getD []
  | _ => []

/-- `claims["email"] = email; claims["email_verified"] = true`. -/
def Claims.withEmail (claims : Claims) (email : String) : Claims :=
  claims ++ [("email", .string email), ("email_verified", .bool true)]

def profileFromGitHub (document : Json) (emails : Option Json) :
    Except ProfileError SocialProfile :=
  match decodeClaims platform document with
  | none => .error .decode
  | some claims =>
      let noEmail (claims : Claims) : Bool :=
        trimSpace (claimValue platform claims provider.claimMapping.email) = ""
      let chosen (claims : Claims) (p : Claims → Bool) : Claims :=
        match (decodeEmails platform emails).find? p with
        | some item => claims.withEmail (stringAt item "email")
        | none => claims
      let claims := if noEmail claims then
          chosen claims fun item => boolAt item "verified" &&
            boolAt item "primary" && stringAt item "email" ≠ ""
        else claims
      let claims := if noEmail claims then
          chosen claims fun item => boolAt item "verified" &&
            stringAt item "email" ≠ ""
        else claims
      .ok (claimsToProfile platform provider claims)

/-- What the provider has returned: the user document or the verified payload of
the ID token, and the addresses where they were asked for. -/
structure Fetched where
  document : Json
  nonce : String
  emails : Option Json

def fetchProfile (fetched : Fetched) : Except ProfileError SocialProfile :=
  match provider.claimSource with
  | .idToken => profileFromIDToken platform provider fetched.nonce fetched.document
  | .githubUser => profileFromGitHub platform provider fetched.document fetched.emails
  | .userInfo => profileFromUserInfo platform provider fetched.document

end Sources

end Aegion.Social
