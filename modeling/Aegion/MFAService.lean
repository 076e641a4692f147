/-
The MFA service: one-time passwords, backup codes, trusted devices, and before
them Go's `base32.StdEncoding` without padding.  Encryption, password hashing,
HMAC-SHA1 and the URL escapes are parameters.
-/
import Aegion.MFADatabase

namespace Aegion

namespace Base32

def encodeDigit (n : Nat) : Char :=
  if n < 26 then Char.ofNat (65 + n) else Char.ofNat (50 + (n - 26))

def decodeDigit (c : Char) : Option Nat :=
  let n := c.toNat
  if 65 ≤ n ∧ n ≤ 90 then some (n - 65)
  else if 50 ≤ n ∧ n ≤ 55 then some (n - 50 + 26)
  else none

/-- The value of `width` digits; missing ones count as zero. -/
def wordOf (base width : Nat) (digits : List Nat) : Nat :=
  (digits ++ List.replicate (width - digits.length) 0).foldl
    (fun n digit => n * base + digit) 0

def digitsOf (base width word : Nat) : List Nat :=
  (List.range width).map fun i => word / base ^ (width - 1 - i) % base

/-- Up to five bytes. -/
def encodeGroup (bytes : List UInt8) : List Char :=
  let digits := digitsOf 32 8 (wordOf 256 5 (bytes.map UInt8.toNat))
  (digits.map encodeDigit).take
    (match bytes.length with
      | 5 => 8
      | 4 => 7
      | 3 => 5
      | 2 => 4
      | 1 => 2
      | _ => 0)

def encodeChars : List UInt8 → List Char
  | a :: b :: c :: d :: e :: rest => encodeGroup [a, b, c, d, e] ++ encodeChars rest
  | short => encodeGroup short

def encodeToString (bytes : List UInt8) : String :=
  String.ofList (encodeChars bytes)

/-- Up to eight digits; a group of one, three or six digits gives no byte. -/
def decodeGroup (digits : List Nat) : List UInt8 :=
  ((digitsOf 256 5 (wordOf 32 8 digits)).map UInt8.ofNat).take
    (match digits.length with
      | 8 => 5
      | 7 => 4
      | 5 => 3
      | 4 => 2
      | 2 => 1
      | _ => 0)

def decodeDigits : List Nat → List UInt8
  | a :: b :: c :: d :: e :: f :: g :: h :: rest =>
      decodeGroup [a, b, c, d, e, f, g, h] ++ decodeDigits rest
  | short => decodeGroup short

/-- `DecodeString`, which skips line breaks. -/
def decodeString (s : String) : Option (List UInt8) :=
  ((s.toList.filter fun c => c ≠ '\n' ∧ c ≠ '\r').mapM decodeDigit).map
    decodeDigits

end Base32

namespace MFA

open Go Service
open OAuth (Time DBError)

inductive StoreError where
  | enrollmentNotFound
  | totpFactorNotFound
  | backupCodeNotFound
  | trustedDeviceNotFound
  | database
deriving Repr, DecidableEq

inductive MFAError where
  | invalidIdentity
  | invalidEnrollment
  | invalidTOTPCode
  | invalidBackupCode
  | cipherKeyRequired
  | trustedDeviceToken
  | trustedDeviceEntropy
  | secretEntropy
  /-- An error of the crypto package. -/
  | crypto
  /-- A division by zero. -/
  | runtime
  | store (e : StoreError)
deriving Repr, DecidableEq

structure Config where
  issuer : String
  enrollmentTTL : Time
  totpPeriod : Time
  totpDigits : Int
  totpAllowedTimeWindows : Int
  backupCodeCount : Int
  trustedDeviceTTL : Time
  cipherKey : List UInt8
deriving Repr, DecidableEq

/-- A setting, or its default where it is not positive. -/
def orDefault (value default : Int) : Int := if value ≤ 0 then default else value

/-- `New`: the settings the service works with. -/
def new (cfg : Config) : Config where
  issuer := if cfg.issuer = "" then "Aegion" else cfg.issuer
  enrollmentTTL := orDefault cfg.enrollmentTTL (10 * 60 * 1000000000)
  totpPeriod := orDefault cfg.totpPeriod (30 * 1000000000)
  totpDigits := orDefault cfg.totpDigits 6
  totpAllowedTimeWindows := orDefault cfg.totpAllowedTimeWindows 1
  backupCodeCount := orDefault cfg.backupCodeCount 12
  trustedDeviceTTL := orDefault cfg.trustedDeviceTTL (30 * 24 * 3600 * 1000000000)
  cipherKey := cfg.cipherKey

structure Platform where
  /-- `unicode.ToUpper` beyond ASCII. -/
  upper : Char → Char
  hmacSHA1 : List UInt8 → List UInt8 → Vector UInt8 20
  /-- `EncryptField`, given the nonce. -/
  encryptField : List UInt8 → List UInt8 → String → String → Option String
  decryptField : List UInt8 → String → String → Option String
  /-- `HashPassword`, given the salt. -/
  hashPassword : List UInt8 → String → Option String
  verifyPassword : String → String → Option Bool
  /-- `secrettoken.Hash` and `secrettoken.Prefix` with twelve characters. -/
  hashToken : String → String
  tokenPrefix : String → String
  pathEscape : String → String
  encodeQuery : List (String × String) → String

section OneTimePassword

def normalizeTOTPCode (code : String) : String :=
  removeAll (removeAll (trimSpace code) ' ') '-'

/-- `binary.BigEndian.PutUint64(msg, uint64(counter))`. -/
def counterBytes (counter : Int) : List UInt8 :=
  (Base32.digitsOf 256 8 (BitVec.ofInt 64 counter).toNat).map UInt8.ofNat

/-- Ten to the number of digits, as a 64-bit integer. -/
def modulus (digits : Nat) : Int := ((10 : Int) ^ digits).bmod (2 ^ 64)

/-- `fmt.Sprintf("%0*d", digits, n)`. -/
def zeroPadded (digits n : Nat) : String :=
  String.ofList (List.replicate (digits - (toString n).length) '0') ++ toString n

variable (platform : Platform) (cfg : Config)

/-- `strings.ToUpper`. -/
def toUpper (s : String) : String :=
  String.ofList (s.toList.map fun c =>
    if c.val < 0x80 then c.toUpper else platform.upper c)

def normalizeBackupCode (code : String) : String :=
  removeAll (removeAll (toUpper platform (trimSpace code)) ' ') '-'

/-- The dynamic truncation of RFC 4226. -/
def binaryCode (sum : Vector UInt8 20) : Nat :=
  let byte (i : Nat) : Nat := (sum.toList.getD i 0).toNat
  let offset := byte 19 % 16
  byte offset % 128 * 2 ^ 24 + byte (offset + 1) * 2 ^ 16 +
    byte (offset + 2) * 2 ^ 8 + byte (offset + 3)

def generateTOTPCode (secret : List UInt8) (counter : Int) (digits : Nat) : String :=
  zeroPadded digits
    (Int.tmod (binaryCode (platform.hmacSHA1 secret (counterBytes counter)))
      (modulus digits)).toNat

/-- `int64(s.cfg.TOTPPeriod.Seconds())`. -/
def totpStep : Int := cfg.totpPeriod / 1000000000

/-- The number of the time step a time falls into. -/
def totpCounter (now : Time) : Int := (OAuth.unix now).tdiv (totpStep cfg)

/-- The secret as the code generator takes it. -/
def decodeSecret (secret : String) : Option (List UInt8) :=
  Base32.decodeString (toUpper platform (trimSpace secret))

/-- The time steps whose code is accepted, in the order they are tried. -/
def allowedCounters (now : Time) : List Int :=
  (List.range (2 * cfg.totpAllowedTimeWindows.toNat + 1)).map fun i : Nat =>
    totpCounter cfg now - cfg.totpAllowedTimeWindows + i

/-- The unexported `verifyTOTP`; `none` is a division by zero. -/
def checkTOTP (secret code : String) (now : Time) : Option Bool :=
  let code := normalizeTOTPCode code
  if (code.utf8ByteSize : Int) ≠ cfg.totpDigits then some false
  else
    match decodeSecret platform secret with
    | none => some false
    | some decoded =>
        if totpStep cfg = 0 ∨ modulus cfg.totpDigits.toNat = 0 then none
        else some ((allowedCounters cfg now).any fun counter =>
          generateTOTPCode platform decoded counter cfg.totpDigits.toNat = code)

end OneTimePassword

section Store

def now {ε : Type} : Service Reply ε Time := statement .clock .ok

def newString {ε : Type} : Service Reply ε String := statement .newUUID .ok

abbrev StoreM := Service Reply StoreError

abbrev ServiceM := Service Reply MFAError

def randomBytes (length : Nat) (e : MFAError) : ServiceM (List UInt8) :=
  statement (.randomBytes length) fun
    | .ok bytes => .ok bytes
    | .error _ => .error e

/-- `QueryRow(...).Scan(...)`: no row is the error `missing`. -/
def scanRow {α : Type} (missing : StoreError) :
    Except DBError (Option α) → Except StoreError α
  | .ok (some row) => .ok row
  | .ok none => .error missing
  | .error _ => .error .database

/-- `Exec(...)` whose row count is not looked at. -/
def execAny {α : Type} : Except DBError α → Except StoreError Unit
  | .ok _ => .ok ()
  | .error _ => .error .database

/-- `Exec(...)` that must touch a row. -/
def execSome (missing : StoreError) : Except DBError Nat → Except StoreError Unit
  | .ok 0 => .error missing
  | .ok (_ + 1) => .ok ()
  | .error _ => .error .database

/-- A query whose error is passed on. -/
def scanAll {α : Type} : Except DBError α → Except StoreError α
  | .ok rows => .ok rows
  | .error _ => .error .database

def saveEnrollment (enrollment : Enrollment) : StoreM Unit :=
  statement (.upsertEnrollment enrollment) execAny

def getEnrollment (id : String) : StoreM Enrollment :=
  statement (.selectEnrollment id) (scanRow .enrollmentNotFound)

def deleteEnrollment (id : String) : StoreM Unit :=
  statement (.deleteEnrollment id) execAny

def upsertTOTPFactor (factor : TOTPFactor) : StoreM Unit :=
  statement (.upsertTOTPFactor factor) execAny

def getTOTPFactor (identityID : String) : StoreM TOTPFactor :=
  statement (.selectTOTPFactor identityID) (scanRow .totpFactorNotFound)

def updateTOTPLastUsed (identityID : String) (usedAt : Time) : StoreM Unit :=
  statement (.updateTOTPLastUsed identityID usedAt) (execSome .totpFactorNotFound)

def deleteInTx (tx : Tx) (relation : Relation) (identityID : String) : StoreM Tx :=
  statement (.deleteInTx relation identityID) fun reply =>
    (scanAll reply).map (tx.remove relation)

/-- The loop of inserts of `ReplaceBackupCodes`. -/
def insertCodes (tx : Tx) : List BackupCode → StoreM Tx
  | [] => succeed tx
  | row :: rest => do
      statement (.insertCodeInTx tx row) execAny
      insertCodes (tx.insert row) rest

/-- `defer tx.Rollback`: it is issued whatever happened, and its error is
dropped. -/
def withRollback (body : StoreM Unit) : StoreM Unit := do
  let outcome ← attempt body
  statement .rollback fun _ => .ok ()
  ofExcept outcome

def replaceBackupCodes (identityID : String) (codes : List BackupCode) : StoreM Unit := do
  statement .beginTx execAny
  withRollback do
    let tx ← deleteInTx .empty .backupCodes identityID
    let tx ← insertCodes tx codes
    statement (.commit tx) execAny

def listBackupCodes (identityID : String) : StoreM (List BackupCode) :=
  statement (.selectBackupCodes identityID) scanAll

def markBackupCodeUsed (identityID codeID : String) (usedAt : Time) : StoreM Unit :=
  statement (.updateBackupCodeUsed identityID codeID usedAt)
    (execSome .backupCodeNotFound)

def saveTrustedDevice (device : TrustedDevice) : StoreM Unit :=
  statement (.insertTrustedDevice device) execAny

def getTrustedDevice (identityID tokenHash tokenPrefix : String) : StoreM TrustedDevice :=
  statement (.selectTrustedDevice identityID tokenHash tokenPrefix)
    (scanRow .trustedDeviceNotFound)

def touchTrustedDevice (identityID deviceID : String) (touchedAt : Time) : StoreM Unit :=
  statement (.updateDeviceTouched identityID deviceID touchedAt)
    (execSome .trustedDeviceNotFound)

def deleteTrustedDevice (identityID deviceID : String) (revokedAt : Time) : StoreM Unit :=
  statement (.updateDeviceRevoked identityID deviceID revokedAt)
    (execSome .trustedDeviceNotFound)

def deleteAllIdentityData (identityID : String) : StoreM Unit := do
  statement .beginTx execAny
  withRollback do
    let tx ← deleteInTx .empty .enrollments identityID
    let tx ← deleteInTx tx .backupCodes identityID
    let tx ← deleteInTx tx .totpFactors identityID
    let tx ← deleteInTx tx .trustedDevices identityID
    statement (.commit tx) execAny

def listFactorsByIdentity (identityID : String) : StoreM (List TOTPFactor) :=
  statement (.selectFactors identityID) scanAll

end Store

structure EnrollmentStart where
  enrollmentID : String
  secret : String
  otpAuthURL : String
  expiresIn : Int
deriving Repr, DecidableEq

variable (platform : Platform) (cfg : Config)

def orCrypto {α : Type} (x : Option α) : Except MFAError α :=
  x.elim (.error .crypto) .ok

def encryptField (plaintext aad : String) : ServiceM String := do
  let nonce ← randomBytes 24 .crypto
  ofExcept (orCrypto (platform.encryptField nonce cfg.cipherKey plaintext aad))

def generateTOTPSecret : ServiceM String := do
  let buf ← randomBytes 20 .secretEntropy
  pure (Base32.encodeToString buf)

def buildOTPAuthURL (issuer accountName secret : String) (digits period : Int) : String :=
  let label := platform.pathEscape (trimSpace issuer ++ ":" ++ trimSpace accountName)
  "otpauth://totp/" ++ label ++ "?" ++ platform.encodeQuery
    [("secret", secret), ("issuer", trimSpace issuer), ("algorithm", "SHA1"),
      ("digits", toString digits), ("period", toString period)]

def startTOTPEnrollment (identityID accountName : String) : ServiceM EnrollmentStart := do
  let identityID := trimSpace identityID
  rejectIf (identityID = "") .invalidIdentity
  rejectIf (cfg.cipherKey.length ≠ 32) .cipherKeyRequired
  let secret ← generateTOTPSecret
  let enrollmentID ← newString
  let ciphertext ← encryptField platform cfg secret ("mfa-enrollment:" ++ enrollmentID)
  let current ← now
  (saveEnrollment
    { id := enrollmentID
      identityID := identityID
      secretCiphertext := ciphertext
      expiresAt := current + cfg.enrollmentTTL
      createdAt := current }).orReject .store
  let accountName :=
    if trimSpace accountName = "" then identityID else trimSpace accountName
  pure
    { enrollmentID := enrollmentID
      secret := secret
      otpAuthURL := buildOTPAuthURL platform cfg.issuer accountName secret
        cfg.totpDigits (totpStep cfg)
      expiresIn := cfg.enrollmentTTL / 1000000000 }

def generateBackupCode : ServiceM String := do
  let buf ← randomBytes 8 .crypto
  let encoded := (toUpper platform (Base32.encodeToString buf)).toList
  if encoded.length < 12 then pure (String.ofList encoded)
  else
    pure (String.ofList (encoded.take 4 ++ '-' :: (encoded.drop 4).take 4 ++
      '-' :: (encoded.drop 8).take 4))

def hashPassword (password : String) : ServiceM String := do
  let salt ← randomBytes 16 .crypto
  ofExcept (orCrypto (platform.hashPassword salt password))

/-- The loop of `generateAndStoreBackupCodes`: each code with its row. -/
def generateCodes (identityID batchID : String) (current : Time) :
    Nat → ServiceM (List (String × BackupCode))
  | 0 => succeed []
  | n + 1 => do
      let plain ← generateBackupCode platform
      let hash ← hashPassword platform (normalizeBackupCode platform plain)
      let id ← newString
      let rest ← generateCodes identityID batchID current n
      pure ((plain,
        { id := id
          identityID := identityID
          codeHash := hash
          batchID := batchID
          usedAt := none
          createdAt := current }) :: rest)

def generateAndStoreBackupCodes (identityID : String) : ServiceM (List String) := do
  let batchID ← newString
  let current ← now
  let codes ← generateCodes platform identityID batchID current
    cfg.backupCodeCount.toNat
  (replaceBackupCodes identityID (codes.map Prod.snd)).orReject .store
  pure (codes.map Prod.fst)

def completeTOTPEnrollment (identityID enrollmentID code : String) : ServiceM (List String) := do
  rejectIf (trimSpace identityID = "") .invalidIdentity
  rejectIf (cfg.cipherKey.length ≠ 32) .cipherKeyRequired
  let enrollment ← (getEnrollment (trimSpace enrollmentID)).orReject
    fun _ => .invalidEnrollment
  let received ← now
  rejectIf (enrollment.identityID ≠ trimSpace identityID ∨
    enrollment.expiresAt < received) .invalidEnrollment
  let secret ← ofExcept (orCrypto (platform.decryptField cfg.cipherKey
    enrollment.secretCiphertext ("mfa-enrollment:" ++ enrollment.id)))
  let checked ← now
  let ok ← ofExcept ((checkTOTP platform cfg secret code checked).elim
    (.error .runtime) .ok)
  rejectIf (ok = false) .invalidTOTPCode
  let current ← now
  let ciphertext ← encryptField platform cfg secret
    ("mfa-totp:" ++ enrollment.identityID)
  (upsertTOTPFactor
    { identityID := enrollment.identityID
      secretCiphertext := ciphertext
      enrolledAt := current
      lastUsedAt := some current
      createdAt := current
      updatedAt := current }).orReject .store
  (deleteEnrollment enrollment.id).orReject .store
  generateAndStoreBackupCodes platform cfg enrollment.identityID

def verifyTOTP (identityID code : String) : ServiceM Unit := do
  let identityID := trimSpace identityID
  rejectIf (identityID = "") .invalidIdentity
  let factor ← (getTOTPFactor identityID).orReject fun _ => .invalidTOTPCode
  let secret ← ofExcept (orCrypto (platform.decryptField cfg.cipherKey
    factor.secretCiphertext ("mfa-totp:" ++ identityID)))
  let current ← now
  let ok ← ofExcept ((checkTOTP platform cfg secret code current).elim
    (.error .runtime) .ok)
  rejectIf (ok = false) .invalidTOTPCode
  (updateTOTPLastUsed identityID current).orReject .store

/-- The loop of `VerifyBackupCode`: the first unused code that matches. -/
def matchBackupCode (code : String) :
    List BackupCode → Except MFAError (Option BackupCode)
  | [] => .ok none
  | candidate :: rest =>
      if candidate.usedAt.isSome then matchBackupCode code rest
      else
        match platform.verifyPassword (normalizeBackupCode platform code)
            candidate.codeHash with
        | none => .error .crypto
        | some true => .ok (some candidate)
        | some false => matchBackupCode code rest

def verifyBackupCode (identityID code : String) : ServiceM Unit := do
  let identityID := trimSpace identityID
  rejectIf (identityID = "") .invalidIdentity
  let codes ← (listBackupCodes identityID).orReject .store
  let current ← now
  let found ← ofExcept (matchBackupCode platform code codes)
  let candidate ← ofExcept (found.elim (.error .invalidBackupCode) .ok)
  (markBackupCodeUsed identityID candidate.id current).orReject .store

def hasEnrolledFactor (identityID : String) : ServiceM Bool := do
  let factors ← (listFactorsByIdentity (trimSpace identityID)).orReject .store
  pure (!factors.isEmpty)

def regenerateBackupCodes (identityID : String) : ServiceM (List String) := do
  let identityID := trimSpace identityID
  rejectIf (identityID = "") .invalidIdentity
  let _ ← (getTOTPFactor identityID).orReject fun _ => .invalidIdentity
  generateAndStoreBackupCodes platform cfg identityID

def rememberTrustedDevice (identityID label : String) : ServiceM (String × Time) := do
  let identityID := trimSpace identityID
  rejectIf (identityID = "") .invalidIdentity
  let buf ← randomBytes 32 .trustedDeviceEntropy
  let token := Base64.encodeRawURL buf
  let current ← now
  let id ← newString
  (saveTrustedDevice
    { id := id
      identityID := identityID
      tokenHash := platform.hashToken token
      tokenPrefix := platform.tokenPrefix token
      label := trimSpace label
      expiresAt := current + cfg.trustedDeviceTTL
      lastUsedAt := none
      createdAt := current
      revokedAt := none }).orReject .store
  pure (token, current + cfg.trustedDeviceTTL)

/-- The part of `ValidateTrustedDevice` that follows a row that was found. -/
def admitDevice (identityID : String) (device : TrustedDevice) : ServiceM Bool := do
  let checked ← now
  if device.revokedAt.isSome ∨ device.expiresAt < checked then pure false
  else do
    let current ← now
    (touchTrustedDevice identityID device.id current).orReject .store
    pure true

def validateTrustedDevice (identityID token : String) : ServiceM Bool := do
  let identityID := trimSpace identityID
  let token := trimSpace token
  if identityID = "" ∨ token = "" then pure false
  else do
    let found ← attempt (getTrustedDevice identityID (platform.hashToken token)
      (platform.tokenPrefix token))
    match found with
    | .ok device => admitDevice identityID device
    | .error .trustedDeviceNotFound => pure false
    | .error e => reject (.store e)

def revokeTrustedDevice (identityID token : String) : ServiceM Unit := do
  let identityID := trimSpace identityID
  let token := trimSpace token
  rejectIf (identityID = "" ∨ token = "") .trustedDeviceToken
  let device ← (getTrustedDevice identityID (platform.hashToken token)
    (platform.tokenPrefix token)).orReject fun _ => .trustedDeviceToken
  let current ← now
  (deleteTrustedDevice identityID device.id current).orReject .store

def resetIdentity (identityID : String) : ServiceM Unit := do
  let identityID := trimSpace identityID
  rejectIf (identityID = "") .invalidIdentity
  (deleteAllIdentityData identityID).orReject .store

inductive Request where
  | startTOTPEnrollment (identityID accountName : String)
  | completeTOTPEnrollment (identityID enrollmentID code : String)
  | verifyTOTP (identityID code : String)
  | verifyBackupCode (identityID code : String)
  | hasEnrolledFactor (identityID : String)
  | regenerateBackupCodes (identityID : String)
  | rememberTrustedDevice (identityID label : String)
  | validateTrustedDevice (identityID token : String)
  | revokeTrustedDevice (identityID token : String)
  | resetIdentity (identityID : String)
deriving Repr, DecidableEq

inductive Response where
  | done
  | enrollment (start : EnrollmentStart)
  | codes (plaintext : List String)
  | flag (value : Bool)
  | device (token : String) (expiresAt : Time)
  | failed (e : MFAError)
deriving Repr, DecidableEq

def serve : Request → Program Reply Response
  | .startTOTPEnrollment identityID accountName =>
      (startTOTPEnrollment platform cfg identityID accountName).finish
        .enrollment .failed
  | .completeTOTPEnrollment identityID enrollmentID code =>
      (completeTOTPEnrollment platform cfg identityID enrollmentID code).finish
        .codes .failed
  | .verifyTOTP identityID code =>
      (verifyTOTP platform cfg identityID code).finish (fun _ => .done) .failed
  | .verifyBackupCode identityID code =>
      (verifyBackupCode platform identityID code).finish (fun _ => .done) .failed
  | .hasEnrolledFactor identityID =>
      (hasEnrolledFactor identityID).finish .flag .failed
  | .regenerateBackupCodes identityID =>
      (regenerateBackupCodes platform cfg identityID).finish .codes .failed
  | .rememberTrustedDevice identityID label =>
      (rememberTrustedDevice platform cfg identityID label).finish
        (fun (token, expiresAt) => .device token expiresAt) .failed
  | .validateTrustedDevice identityID token =>
      (validateTrustedDevice platform identityID token).finish .flag .failed
  | .revokeTrustedDevice identityID token =>
      (revokeTrustedDevice platform identityID token).finish (fun _ => .done)
        .failed
  | .resetIdentity identityID =>
      (resetIdentity identityID).finish (fun _ => .done) .failed

/-- Any number of concurrent requests over one database. -/
def system : System Request Reply Response Database Choice where
  serve := serve platform (new cfg)
  perform := perform

abbrev Trace := History Request Reply Response

abbrev Event := Entry Request Reply Response

abbrev Schedule := List (Action Request Choice)

/-- The history of the run that a scheduler's actions make of the system. -/
def runFrom (db : Database) (actions : Schedule) : Trace :=
  ((system platform cfg).execute actions (System.initial db)).history

end MFA

end Aegion
