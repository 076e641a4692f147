/-
Module credentials and the tokens that modules get for them.  A token is a signed
list of claims; its validation reads the credential again.  Argon2id, HMAC-SHA256 and
the JSON codec are parameters.
-/
import Aegion.CryptoSigning
import Aegion.OAuthDatabase
import Aegion.HistoryLaws

namespace Aegion.ModuleAuth

open Go Service
open Crypto (Hmac dot cHMACSHA256Hex)
open OAuth (Time DBError unix minutes drawBytes inserted updated)

/-- A row of `core_module_credentials`. -/
structure Credential where
  id : String
  moduleID : String
  secretHash : String
  permissions : List String
  audiences : List String
  enabled : Bool
  expiresAt : Option Time
deriving Repr, DecidableEq

structure Claims where
  version : Int
  tokenID : String
  credentialID : String
  moduleID : String
  audience : String
  permissions : List String
  issuedAt : Int
  expiresAt : Int
deriving Repr, DecidableEq

/-- `module_id` is unique. -/
structure Database where
  credentials : Table Credential.moduleID

inductive Call where
  | clock
  | randomBytes (length : Nat)
  | newUUID
  | selectCredential (moduleID : String)
  | insertCredential (row : Credential)
  | updateRotated (moduleID secretHash : String) (expiresAt : Option Time)
  | updateRevoked (moduleID : String)
  | updateGrants (moduleID : String) (permissions audiences : List String)
deriving Repr, DecidableEq

abbrev Reply : Call → Type
  | .clock => Time
  | .randomBytes _ => Except Unit (List UInt8)
  | .newUUID => String
  | .selectCredential _ => Except DBError (Option Credential)
  | .insertCredential _ => Except DBError Unit
  | .updateRotated .. => Except DBError Nat
  | .updateRevoked _ => Except DBError Nat
  | .updateGrants .. => Except DBError Nat

/-- What the table leaves open: the clock, random values, and failures. -/
structure Choice where
  now : Time
  entropy : Option (List UInt8)
  uuid : String
  fails : Bool

/-- `SET` clause of `Rotate`. -/
def Credential.assignRotated (secretHash : String) (expiresAt : Option Time)
    (row : Credential) : Credential :=
  { row with secretHash := secretHash, enabled := true, expiresAt := expiresAt }

/-- `SET` clause of `Revoke`. -/
def Credential.assignRevoked (row : Credential) : Credential :=
  { row with enabled := false }

def Credential.assignGrants (permissions audiences : List String) (row : Credential) : Credential :=
  { row with permissions := permissions, audiences := audiences }

theorem Credential.moduleID_assignRotated (secretHash : String)
    (expiresAt : Option Time) (row : Credential) :
    (row.assignRotated secretHash expiresAt).moduleID = row.moduleID := rfl

theorem Credential.moduleID_assignRevoked (row : Credential) :
    row.assignRevoked.moduleID = row.moduleID := rfl

theorem Credential.moduleID_assignGrants (permissions audiences : List String) (row : Credential) :
    (row.assignGrants permissions audiences).moduleID = row.moduleID := rfl

section Reply

variable (choice : Choice) (db : Database)

/-- A statement's answer unless the connection fails. -/
def answer {α : Type} (value : α) : Except DBError α :=
  if choice.fails then .error .failed else .ok value

/-- The same for a statement under constraints.  Nobody tells a violation from
another failure. -/
def checked {α : Type} (valid : Bool) (value : α) : Except DBError α :=
  if choice.fails || !valid then .error .failed else .ok value

def reply : (c : Call) → Reply c
  | .clock => choice.now
  | .randomBytes length =>
      match choice.entropy with
      | none => .error ()
      | some bytes => .ok (drawBytes length bytes)
  | .newUUID => choice.uuid
  | .selectCredential moduleID => answer choice (db.credentials.find? moduleID)
  | .insertCredential row =>
      checked choice ((db.credentials.insert? row).isSome &&
        db.credentials.rows.all (·.id ≠ row.id) && row.permissions ≠ [] &&
          row.audiences ≠ []) ()
  | .updateRotated moduleID _ _ =>
      answer choice (db.credentials.affected (·.moduleID = moduleID))
  | .updateRevoked moduleID =>
      answer choice (db.credentials.affected (·.moduleID = moduleID))
  | .updateGrants moduleID permissions audiences =>
      checked choice (permissions ≠ [] && audiences ≠ [])
        (db.credentials.affected (·.moduleID = moduleID))

end Reply

/-- What an acknowledged call does to the table. -/
def effect (call : Called Reply) (db : Database) : Database :=
  match call with
  | ⟨.insertCredential row, reply⟩ =>
      { credentials := inserted reply db.credentials row }
  | ⟨.updateRotated moduleID secretHash expiresAt, reply⟩ =>
      { credentials := updated reply db.credentials (·.moduleID = moduleID)
          (Credential.assignRotated secretHash expiresAt)
          (Credential.moduleID_assignRotated secretHash expiresAt) }
  | ⟨.updateRevoked moduleID, reply⟩ =>
      { credentials := updated reply db.credentials (·.moduleID = moduleID)
          Credential.assignRevoked Credential.moduleID_assignRevoked }
  | ⟨.updateGrants moduleID permissions audiences, reply⟩ =>
      { credentials := updated reply db.credentials (·.moduleID = moduleID)
          (Credential.assignGrants permissions audiences)
          (Credential.moduleID_assignGrants permissions audiences) }
  | _ => db

/-- Execute one call. -/
def perform (choice : Choice) (c : Call) (db : Database) : Reply c × Database :=
  (reply choice db c, effect ⟨c, reply choice db c⟩ db)

structure Platform where
  hmac : Hmac
  /-- `VerifyPassword` of the crypto package. -/
  verifyPassword : String → String → Option Bool
  /-- `json.Marshal` of claims, and a decoder that rejects unknown fields. -/
  marshal : Claims → Bytes
  decode : Bytes → Option Claims
  decode_marshal : ∀ claims, decode (marshal claims) = some claims

structure Manager where
  key : Bytes
  ttl : Time

inductive Error where
  | credentialInvalid
  | credentialRevoked
  | tokenInvalid
  | tokenExpired
  | tokenDenied
  | loadCredential
  | randomValue
  | incomplete
  | notFound
  | database (e : DBError)
deriving Repr, DecidableEq

section Store

def credential (moduleID : String) : Service Reply Error Credential :=
  statement (.selectCredential (trimSpace moduleID)) fun
    | .ok (some row) => .ok row
    | .ok none => .error .loadCredential
    | .error _ => .error .loadCredential

def create (new : Credential) : Service Reply Error Unit := do
  let id ← if trimSpace new.id = "" then statement .newUUID .ok else succeed new.id
  rejectIf (trimSpace new.moduleID = "" ∨ trimSpace new.secretHash = "" ∨
    new.permissions = [] ∨ new.audiences = []) .incomplete
  statement (.insertCredential { new with id := id }) (·.mapError .database)

/-- What `Rotate` and `Revoke` make of their row count. -/
def affectedOne : Except DBError Nat → Except Error Unit
  | .ok 1 => .ok ()
  | .ok _ => .error .notFound
  | .error e => .error (.database e)

def rotate (moduleID secretHash : String) (expiresAt : Option Time) : Service Reply Error Unit := do
  rejectIf (trimSpace moduleID = "" ∨ trimSpace secretHash = "") .incomplete
  statement (.updateRotated (trimSpace moduleID) secretHash expiresAt) affectedOne

def revoke (moduleID : String) : Service Reply Error Unit :=
  statement (.updateRevoked (trimSpace moduleID)) affectedOne

/-- An operator's change of what a credential grants; no code makes it. -/
def changeGrants (moduleID : String) (permissions audiences : List String) :
    Service Reply Error Unit :=
  statement (.updateGrants moduleID permissions audiences) affectedOne

end Store

section Tokens

variable (platform : Platform) (manager : Manager)

def signature (payload : Bytes) : Option Bytes :=
  match cHMACSHA256Hex platform.hmac manager.key payload with
  | .ok hexSignature => decodeHex hexSignature
  | .error _ => none

def tokenVersion : Int := 2

def tokenText (payload tag : Bytes) : Bytes :=
  [dot].intercalate [bytesOf "v2", encodeRawURL payload, encodeRawURL tag]

/-- The payload and the signature that a token carries. -/
def tokenParts (token : Bytes) : Option (Bytes × Bytes) :=
  match token.splitOn dot with
  | [version, payloadText, tagText] =>
      if version = bytesOf "v2" then
        (decodeRawURL payloadText).bind fun payload =>
          (decodeRawURL tagText).map fun tag => (payload, tag)
      else none
  | _ => none

def Claims.complete (claims : Claims) : Bool :=
  claims.version = tokenVersion && claims.tokenID ≠ "" && claims.credentialID ≠ "" &&
    claims.moduleID ≠ "" && claims.audience ≠ "" && claims.permissions ≠ []

/-- The checks of `parse` before it looks at the clock. -/
def decodeToken (token : Bytes) : Except Error Claims :=
  match tokenParts token with
  | none => .error .tokenInvalid
  | some (payload, tag) =>
      if signature platform manager payload ≠ some tag then .error .tokenInvalid
      else
        match platform.decode payload with
        | some claims => if claims.complete then .ok claims else .error .tokenInvalid
        | none => .error .tokenInvalid

end Tokens

section Methods

variable (platform : Platform) (manager : Manager)

def now {ε : Type} : Service Reply ε Time := statement .clock .ok

def randomValue (size : Nat) : Service Reply Error String :=
  statement (.randomBytes size) fun
    | .ok bytes => .ok (Base64.encodeRawURL bytes)
    | .error _ => .error .randomValue

def usableCredential (moduleID : String) : Service Reply Error Credential := do
  let row ← credential moduleID
  rejectIf (row.enabled = false) .credentialRevoked
  match row.expiresAt with
  | none => succeed row
  | some expiresAt => do
      let current ← now
      rejectIf (expiresAt ≤ current) .credentialRevoked
      return row

def subset (values allowed : List String) : Bool := values.all fun value => value ∈ allowed

def issue (row : Credential) (audience : String) (permissions : List String) :
    Service Reply Error (Bytes × Claims) := do
  let issuedAt ← now
  let tokenID ← randomValue 16
  let claims : Claims :=
    { version := tokenVersion
      tokenID := tokenID
      credentialID := row.id
      moduleID := row.moduleID
      audience := audience
      permissions := permissions
      issuedAt := unix issuedAt
      expiresAt := unix (issuedAt + manager.ttl) }
  let payload := platform.marshal claims
  let tag ← ofExcept ((signature platform manager payload).elim
    (.error .tokenInvalid) .ok)
  return (tokenText payload tag, claims)

def exchange (moduleID rawCredential audience : String) (permissions : List String) :
    Service Reply Error (Bytes × Claims) := do
  rejectIf (trimSpace moduleID = "" ∨ rawCredential = "" ∨ trimSpace audience = "")
    .credentialInvalid
  let row ← usableCredential (trimSpace moduleID)
  rejectIf (platform.verifyPassword rawCredential row.secretHash ≠ some true)
    .credentialInvalid
  let granted := if permissions = [] then row.permissions else permissions
  rejectIf (trimSpace audience ∉ row.audiences ∨ subset granted row.permissions = false)
    .tokenDenied
  issue platform manager row (trimSpace audience) granted

def parse (token : Bytes) : Service Reply Error Claims := do
  let claims ← ofExcept (decodeToken platform manager token)
  let current ← now
  rejectIf (claims.expiresAt ≤ unix current) .tokenExpired
  rejectIf (unix current + 60 < claims.issuedAt) .tokenInvalid
  return claims

def validate (token : Bytes) (audience permission : String) : Service Reply Error Claims := do
  let claims ← parse platform manager token
  rejectIf (claims.audience ≠ trimSpace audience ∨ permission ∉ claims.permissions)
    .tokenDenied
  let row ← usableCredential claims.moduleID
  rejectIf (row.id ≠ claims.credentialID ∨ claims.audience ∉ row.audiences ∨
    subset claims.permissions row.permissions = false) .tokenDenied
  return claims

end Methods

inductive Request where
  | create (new : Credential)
  | rotate (moduleID secretHash : String) (expiresAt : Option Time)
  | revoke (moduleID : String)
  | changeGrants (moduleID : String) (permissions audiences : List String)
  | exchange (moduleID rawCredential audience : String) (permissions : List String)
  | validate (token : Bytes) (audience permission : String)
deriving Repr, DecidableEq

inductive Response where
  | done
  | issued (token : Bytes) (claims : Claims)
  | valid (claims : Claims)
  | failed (e : Error)
deriving Repr, DecidableEq

def serve (platform : Platform) (manager : Manager) :
    Request → Program Reply Response
  | .create new => (create new).finish (fun _ => .done) .failed
  | .rotate moduleID secretHash expiresAt =>
      (rotate moduleID secretHash expiresAt).finish (fun _ => .done) .failed
  | .revoke moduleID => (revoke moduleID).finish (fun _ => .done) .failed
  | .changeGrants moduleID permissions audiences =>
      (changeGrants moduleID permissions audiences).finish (fun _ => .done) .failed
  | .exchange moduleID rawCredential audience permissions =>
      (exchange platform manager moduleID rawCredential audience permissions).finish
        (fun (token, claims) => .issued token claims) .failed
  | .validate token audience permission =>
      (validate platform manager token audience permission).finish .valid .failed

def system (platform : Platform) (manager : Manager) :
    System Request Reply Response Database Choice :=
  ⟨serve platform manager, perform⟩

abbrev Trace := History Request Reply Response

abbrev Event := Entry Request Reply Response

abbrev Schedule := List (Action Request Choice)

/-- Everything that happens when the scheduler's decisions are carried out. -/
def runFrom (platform : Platform) (manager : Manager) (db : Database)
    (actions : Schedule) : Trace :=
  ((system platform manager).execute actions (System.initial db)).history

end Aegion.ModuleAuth
