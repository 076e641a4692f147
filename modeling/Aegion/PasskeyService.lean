/-
Passkeys: challenges and credentials, registration and authentication.  A
challenge is consumed in a transaction that reads it and deletes it; what the
transaction deletes is carried by its owner until the commit.  The PEM and X.509
packages, ECDSA and SHA-256 are parameters.
-/
import Aegion.GoText
import Aegion.MFADatabase
import Aegion.HistoryLaws

namespace Aegion.Passkey

open Go Service
open OAuth (Time DBError drawBytes inserted updated minutes)
open MFA (upserted)

inductive Purpose where
  | registration
  | authentication
deriving Repr, DecidableEq

/-- A row of `passkey_challenges`. -/
structure Challenge where
  id : String
  identityID : String
  purpose : Purpose
  expiresAt : Time
deriving Repr, DecidableEq

/-- A row of `passkey_credentials`; the counter is a `BIGINT`. -/
structure CredentialRow where
  id : String
  identityID : String
  publicKey : String
  signCount : Int
  createdAt : Time
deriving Repr, DecidableEq

/-- A credential as the store returns it. -/
structure Credential where
  id : String
  identityID : String
  publicKey : String
  signCount : UInt32
  createdAt : Time
deriving Repr, DecidableEq

structure Database where
  challenges : Table Challenge.id
  credentials : Table CredentialRow.id

inductive Call where
  | clock
  | randomBytes (length : Nat)
  | upsertChallenge (row : Challenge)
  | beginTx
  | selectChallenge (id : String)
  | deleteChallengeInTx (id : String)
  | commit (removed : List String)
  | insertCredential (row : CredentialRow)
  | selectCredential (id : String)
  | selectCredentials (identityID : String)
  | updateSignCount (id : String) (signCount : Int)
deriving Repr, DecidableEq

/-- A DELETE inside a transaction answers with the keys it has found. -/
abbrev Reply : Call → Type
  | .clock => Time
  | .randomBytes _ => Except Unit (List UInt8)
  | .upsertChallenge _ => Except DBError Unit
  | .beginTx => Except DBError Unit
  | .selectChallenge _ => Except DBError (Option Challenge)
  | .deleteChallengeInTx _ => Except DBError (List String)
  | .commit _ => Except DBError Unit
  | .insertCredential _ => Except DBError Unit
  | .selectCredential _ => Except DBError (Option CredentialRow)
  | .selectCredentials _ => Except DBError (List CredentialRow)
  | .updateSignCount .. => Except DBError Nat

/-- What the tables leave open: the clock, the random source, the order of rows
that compare equal, and failures. -/
structure Choice where
  now : Time
  entropy : Option (List UInt8)
  tiebreak : String → Nat
  fails : Bool

/-- `DO UPDATE SET` clause of `SaveChallenge`. -/
def Challenge.assign (new row : Challenge) : Challenge :=
  { row with
    identityID := new.identityID
    purpose := new.purpose
    expiresAt := new.expiresAt }

theorem Challenge.id_assign (new row : Challenge) : (new.assign row).id = row.id := rfl

/-- `SET` clause of `UpdateCredentialSignCount`. -/
def CredentialRow.assignCount (signCount : Int) (row : CredentialRow) : CredentialRow :=
  { row with signCount := signCount }

theorem CredentialRow.id_assignCount (signCount : Int) (row : CredentialRow) :
    (row.assignCount signCount).id = row.id := rfl

section Reply

variable (choice : Choice) (db : Database)

/-- A statement's answer unless the connection fails. -/
def answer {α : Type} (value : α) : Except DBError α :=
  if choice.fails then .error .failed else .ok value

/-- `ORDER BY created_at ASC`. -/
def listedCredentials (identityID : String) : List CredentialRow :=
  (db.credentials.rows.filter (·.identityID = identityID)).insertionSort
    fun a b => a.createdAt < b.createdAt ∨ a.createdAt = b.createdAt ∧
      choice.tiebreak a.id ≤ choice.tiebreak b.id

def reply : (c : Call) → Reply c
  | .clock => choice.now
  | .randomBytes length =>
      match choice.entropy with
      | none => .error ()
      | some bytes => .ok (drawBytes length bytes)
  | .upsertChallenge _ => answer choice ()
  | .beginTx => answer choice ()
  | .selectChallenge id => answer choice (db.challenges.find? id)
  | .deleteChallengeInTx id =>
      answer choice ((db.challenges.rows.filter (·.id = id)).map (·.id))
  | .commit _ => answer choice ()
  | .insertCredential row =>
      if choice.fails then .error .failed
      else if (db.credentials.insert? row).isSome then .ok ()
      else .error .uniqueViolation
  | .selectCredential id => answer choice (db.credentials.find? id)
  | .selectCredentials identityID =>
      answer choice (listedCredentials choice db identityID)
  | .updateSignCount id _ => answer choice (db.credentials.affected (·.id = id))

end Reply

/-- What an acknowledged call does to the tables. -/
def effect (call : Called Reply) (db : Database) : Database :=
  match call with
  | ⟨.upsertChallenge row, .ok _⟩ =>
      { db with
        challenges := upserted db.challenges row row.assign row.id_assign }
  | ⟨.commit removed, .ok _⟩ =>
      { db with challenges := db.challenges.deleteWhere (removed.contains ·.id) }
  | ⟨.insertCredential row, reply⟩ =>
      { db with credentials := inserted reply db.credentials row }
  | ⟨.updateSignCount id signCount, reply⟩ =>
      { db with
        credentials := updated reply db.credentials (·.id = id)
          (CredentialRow.assignCount signCount)
          (CredentialRow.id_assignCount signCount) }
  | _ => db

/-- Execute one call. -/
def perform (choice : Choice) (c : Call) (db : Database) : Reply c × Database :=
  (reply choice db c, effect ⟨c, reply choice db c⟩ db)

abbrev PublicKey := List UInt8

structure Platform where
  pemDecode : String → Option (List UInt8)
  /-- `x509.ParsePKIXPublicKey`, for ECDSA keys. -/
  parsePKIX : List UInt8 → Option PublicKey
  sha256 : List UInt8 → List UInt8
  verifyASN1 : PublicKey → List UInt8 → List UInt8 → Bool
  /-- `base64.StdEncoding.DecodeString`. -/
  decodeStd : String → Option (List UInt8)
  /-- `url.Parse` and `Hostname`. -/
  hostname : String → Option String

structure Config where
  rpID : String
  rpOrigin : String
  challengeTTL : Time
  allowedCredentials : Int
deriving Repr, DecidableEq

inductive StoreError where
  | credentialNotFound
  | credentialExists
  | challengeNotFound
  | challengeExpired
  | scan
  | database (e : DBError)
deriving Repr, DecidableEq

inductive Error where
  | invalidIdentity
  | invalidChallenge
  | invalidCredential
  | invalidSignature
  | signCountReplay
  | random
  | store (e : StoreError)
deriving Repr, DecidableEq

section Defaults

variable (platform : Platform)

def deriveRPID (origin : String) : String :=
  if trimSpace origin = "" then ""
  else ((platform.hostname (trimSpace origin)).map trimSpace).getD ""

def deriveRPOrigin (rpID : String) : String :=
  if trimSpace rpID = "" then "" else "https://" ++ trimSpace rpID

/-- The settings as `New` completes them. -/
def Config.withDefaults (config : Config) : Config :=
  let origin := trimSpace config.rpOrigin
  let id := trimSpace config.rpID
  let id := if id = "" then deriveRPID platform origin else id
  let origin := if origin = "" then deriveRPOrigin id else origin
  { rpID := if id = "" then "localhost" else id
    rpOrigin := if origin = "" then "http://localhost" else origin
    challengeTTL :=
      if config.challengeTTL ≤ 0 then minutes 5 else config.challengeTTL
    allowedCredentials :=
      if config.allowedCredentials ≤ 0 then 20 else config.allowedCredentials }

end Defaults

section Store

def now {ε : Type} : Service Reply ε Time := statement .clock .ok

/-- `SaveChallenge` ignores failures. -/
def saveChallenge (row : Challenge) : Service Reply Error Unit :=
  statement (.upsertChallenge row) fun _ => .ok ()

def consumeChallenge (challengeID : String) : Service Reply StoreError Challenge := do
  statement .beginTx (·.mapError .database)
  let challenge ← statement (.selectChallenge challengeID) fun
    | .ok (some row) => .ok row
    | .ok none => .error StoreError.challengeNotFound
    | .error e => .error (.database e)
  let removed ← statement (.deleteChallengeInTx challengeID)
    (·.mapError .database)
  statement (.commit removed) (·.mapError .database)
  let current ← now
  rejectIf (challenge.expiresAt < current) .challengeExpired
  return challenge

def createCredential (row : CredentialRow) : Service Reply StoreError Unit :=
  statement (.insertCredential row) fun
    | .ok _ => .ok ()
    | .error .uniqueViolation => .error .credentialExists
    | .error e => .error (.database e)

/-- A column value that fits into `uint32`. -/
def scanCount (value : Int) : Option UInt32 :=
  if 0 ≤ value ∧ value < 4294967296 then some (UInt32.ofNat value.toNat) else none

/-- `Scan` of a credential row. -/
def CredentialRow.scan (row : CredentialRow) : Option Credential :=
  (scanCount row.signCount).map fun signCount =>
    ⟨row.id, row.identityID, row.publicKey, signCount, row.createdAt⟩

def getCredential (credentialID : String) : Service Reply StoreError Credential :=
  statement (.selectCredential credentialID) fun
    | .ok (some row) => row.scan.elim (.error .scan) .ok
    | .ok none => .error .credentialNotFound
    | .error e => .error (.database e)

/-- `ListCredentialsByIdentity`, which is empty on any failure. -/
def listCredentialsByIdentity (identityID : String) : Service Reply Error (List Credential) :=
  statement (.selectCredentials identityID) fun
    | .ok rows => .ok ((rows.mapM CredentialRow.scan).getD [])
    | .error _ => .ok []

def updateCredentialSignCount (credentialID : String) (signCount : UInt32) :
    Service Reply StoreError Unit :=
  statement (.updateSignCount credentialID signCount.toNat) fun
    | .ok 0 => .error .credentialNotFound
    | .ok _ => .ok ()
    | .error e => .error (.database e)

end Store

structure RegistrationFinish where
  identityID : String
  challenge : String
  credentialID : String
  publicKey : String
deriving Repr, DecidableEq

structure AuthenticationFinish where
  identityID : String
  challenge : String
  credentialID : String
  signature : String
  signCount : UInt32
deriving Repr, DecidableEq

section Methods

variable (platform : Platform) (config : Config)

def randomChallenge : Service Reply Error String :=
  statement (.randomBytes 32) fun
    | .ok bytes => .ok (Base64.encodeRawURL bytes)
    | .error _ => .error .random

def parseCredentialPublicKey (pemEncoded : String) : Option PublicKey :=
  (platform.pemDecode (trimSpace pemEncoded)).bind platform.parsePKIX

/-- The text an assertion signs. -/
def assertionMessage (identityID credentialID challenge : String) : String :=
  trimSpace identityID ++ ":" ++ trimSpace credentialID ++ ":" ++
    trimSpace challenge

def decodeSignature (signature : String) : Option (List UInt8) :=
  (Base64.decodeRawURL (trimSpace signature)).orElse fun _ =>
    platform.decodeStd (trimSpace signature)

def verifyAssertionSignature (key : PublicKey)
    (identityID credentialID challenge signature : String) : Except Error Unit :=
  match decodeSignature platform signature with
  | none => .error .invalidSignature
  | some bytes =>
      let message := assertionMessage identityID credentialID challenge
      if platform.verifyASN1 key (platform.sha256 (bytesOf message)) bytes then
        .ok ()
      else .error .invalidSignature

/-- The common part of both `Begin` methods: a stored challenge. -/
def newChallenge (identityID : String) (purpose : Purpose) : Service Reply Error String := do
  rejectIf (trimSpace identityID = "") .invalidIdentity
  let challenge ← randomChallenge
  let current ← now
  saveChallenge
    ⟨challenge, trimSpace identityID, purpose, current + config.challengeTTL⟩
  return challenge

def beginRegistration (identityID : String) : Service Reply Error String :=
  newChallenge config identityID .registration

/-- Newest first, then by id. -/
def Credential.before (a b : Credential) : Bool :=
  if a.createdAt = b.createdAt then decide (a.id ≤ b.id)
  else decide (b.createdAt < a.createdAt)

def beginAuthentication (identityID : String) : Service Reply Error (String × List String) := do
  let challenge ← newChallenge config identityID .authentication
  let credentials ← listCredentialsByIdentity (trimSpace identityID)
  let sorted := credentials.insertionSort fun a b => a.before b = true
  return (challenge, (sorted.take config.allowedCredentials.toNat).map (·.id))

def finishRegistration (req : RegistrationFinish) : Service Reply Error Unit := do
  rejectIf (trimSpace req.identityID = "") .invalidIdentity
  rejectIf (trimSpace req.challenge = "" ∨ trimSpace req.credentialID = "" ∨
    trimSpace req.publicKey = "") .invalidCredential
  rejectIf (parseCredentialPublicKey platform req.publicKey = none)
    .invalidCredential
  let challenge ← (consumeChallenge req.challenge).orReject
    fun _ => .invalidChallenge
  rejectIf (challenge.purpose ≠ .registration ∨
    challenge.identityID ≠ req.identityID) .invalidChallenge
  let current ← now
  (createCredential ⟨req.credentialID, req.identityID, req.publicKey, 0,
    current⟩).orReject fun _ => .invalidCredential

def finishAuthentication (req : AuthenticationFinish) : Service Reply Error Unit := do
  rejectIf (trimSpace req.identityID = "") .invalidIdentity
  rejectIf (trimSpace req.credentialID = "" ∨ trimSpace req.challenge = "" ∨
    trimSpace req.signature = "") .invalidCredential
  let challenge ← (consumeChallenge req.challenge).orReject
    fun _ => .invalidChallenge
  rejectIf (challenge.purpose ≠ .authentication ∨
    challenge.identityID ≠ req.identityID) .invalidChallenge
  let credential ← (getCredential req.credentialID).orReject
    fun _ => .invalidCredential
  rejectIf (credential.identityID ≠ req.identityID) .invalidCredential
  rejectIf (req.signCount ≠ credential.signCount + 1) .signCountReplay
  let key ← ofExcept ((parseCredentialPublicKey platform
    credential.publicKey).elim (.error .invalidCredential) .ok)
  ofExcept (verifyAssertionSignature platform key req.identityID
    req.credentialID req.challenge req.signature)
  (updateCredentialSignCount req.credentialID req.signCount).orReject .store

end Methods

inductive Request where
  | beginRegistration (identityID : String)
  | finishRegistration (req : RegistrationFinish)
  | beginAuthentication (identityID : String)
  | finishAuthentication (req : AuthenticationFinish)
deriving Repr, DecidableEq

inductive Response where
  | registrationStarted (challenge rpID rpOrigin : String) (expiresIn : Int)
  | registered
  | authenticationStarted (challenge : String) (allowed : List String)
      (expiresIn : Int)
  | authenticated
  | failed (e : Error)
deriving Repr, DecidableEq

/-- A lifetime in whole seconds. -/
def Config.expiresIn (config : Config) : Int := config.challengeTTL / 1000000000

def serve (platform : Platform) (config : Config) :
    Request → Program Reply Response
  | .beginRegistration identityID =>
      (beginRegistration config identityID).finish
        (fun challenge => .registrationStarted challenge config.rpID
          config.rpOrigin config.expiresIn) .failed
  | .finishRegistration req =>
      (finishRegistration platform req).finish (fun _ => .registered) .failed
  | .beginAuthentication identityID =>
      (beginAuthentication config identityID).finish
        (fun (challenge, allowed) => .authenticationStarted challenge allowed
          config.expiresIn) .failed
  | .finishAuthentication req =>
      (finishAuthentication platform req).finish (fun _ => .authenticated) .failed

/-- The service that `New` sets up. -/
def system (platform : Platform) (config : Config) :
    System Request Reply Response Database Choice :=
  ⟨serve platform (config.withDefaults platform), perform⟩

abbrev Trace := History Request Reply Response

abbrev Event := Entry Request Reply Response

abbrev Schedule := List (Action Request Choice)

/-- Everything that happens when the scheduler's decisions are carried out. -/
def runFrom (platform : Platform) (config : Config) (db : Database) (actions : Schedule) : Trace :=
  ((system platform config).execute actions (System.initial db)).history

end Aegion.Passkey
