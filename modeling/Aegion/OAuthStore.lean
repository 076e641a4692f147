/-
The methods of the OAuth2 store, each the statements it issues.
-/
import Aegion.OAuthDatabase

namespace Aegion.OAuth

open Go Service

/-- A method of the store. -/
abbrev StoreM := Service Reply StoreError

/-- `QueryRow(...).Scan(...)`: no row is `ErrNotFound`. -/
def scanRow {α : Type} : Except DBError (Option α) → Except StoreError α
  | .ok (some row) => .ok row
  | .ok none => .error .notFound
  | .error _ => .error .database

/-- `_, err := Exec(...)`. -/
def execDone {α : Type} : Except DBError α → Except StoreError Unit
  | .ok _ => .ok ()
  | .error _ => .error .database

/-- `Exec(...)` with `isDuplicateKeyError` told apart. -/
def execUnique {α : Type} : Except DBError α → Except StoreError Unit
  | .ok _ => .ok ()
  | .error .uniqueViolation => .error .alreadyExists
  | .error .failed => .error .database

/-- `Exec(...)` where touching no row is the error `missing`. -/
def execAffected (missing : StoreError) :
    Except DBError Nat → Except StoreError Unit
  | .ok 0 => .error missing
  | .ok (_ + 1) => .ok ()
  | .error _ => .error .database

/-- `Exec(...)` that returns the number of rows. -/
def execCount : Except DBError Nat → Except StoreError Nat
  | .ok n => .ok n
  | .error _ => .error .database

/-- `nowUTC()`. -/
def nowUTC {ε : Type} : Service Reply ε Time := statement .clock .ok

/-- `generateID`. -/
def generateID (start : String) (length : Nat) : StoreM String :=
  statement (.randomBytes length) fun
    | .ok bytes => .ok (start ++ Base64.encodeRawURL bytes)
    | .error _ => .error .random

def generateClientID : StoreM String := generateID "oa2_" 24

def generateAuthCode : StoreM String := generateID "" 32

def generateAccessTokenJTI : StoreM String := generateID "at_" 32

def generateRefreshToken : StoreM String := generateID "rt_" 32

/-- The only identifier of sixteen bytes. -/
def generateRefreshTokenFamily : StoreM String := generateID "rtf_" 16

def generateIDTokenJTI : StoreM String := generateID "idt_" 32

def generateLoginChallenge : StoreM String := generateID "lc_" 24

def generateConsentChallenge : StoreM String := generateID "cc_" 24

def generateDeviceCode : StoreM String := generateID "dc_" 32

/-- An identifier the caller left empty is generated. -/
def orGenerate (id : String) (generate : StoreM String) : StoreM String :=
  if id = "" then generate else succeed id

/-- A client without an id gets one, as do the records below. -/
def createClient (client : Client) : StoreM Unit := do
  let id ← orGenerate client.id generateClientID
  statement (.insertClient { client with id := id }) execUnique

def getClient (id : String) : StoreM Client :=
  statement (.selectClient id) scanRow

def updateClient (client : Client) : StoreM Unit :=
  statement (.updateClient client) (execAffected .notFound)

def createLoginChallenge (challenge : LoginChallenge) : StoreM Unit := do
  let id ← orGenerate challenge.id generateLoginChallenge
  let now ← nowUTC
  statement (.insertLoginChallenge { challenge with id := id, createdAt := now })
    execDone

def getLoginChallenge (id : String) : StoreM LoginChallenge :=
  statement (.selectLoginChallenge id) scanRow

/-- A challenge can be accepted again. -/
def acceptLoginChallenge (id identityID sessionID : String) : StoreM Unit := do
  let now ← nowUTC
  statement (.updateLoginAccepted id identityID sessionID now)
    (execAffected .notFound)

def createConsentChallenge (challenge : ConsentChallenge) : StoreM Unit := do
  let id ← orGenerate challenge.id generateConsentChallenge
  let now ← nowUTC
  statement
    (.insertConsentChallenge { challenge with id := id, createdAt := now })
    execDone

def getConsentChallenge (id : String) : StoreM ConsentChallenge :=
  statement (.selectConsentChallenge id) scanRow

def acceptConsentChallenge (id : String)
    (grantedScopes grantedAudience : List String) (remember : Bool)
    (rememberFor : Option Int) : StoreM Unit := do
  let now ← nowUTC
  statement (.updateConsentAccepted id grantedScopes grantedAudience remember
    rememberFor now) (execAffected .notFound)

def rejectConsentChallenge (id errorCode errorDesc : String) : StoreM Unit := do
  let now ← nowUTC
  statement (.updateConsentRejected id errorCode errorDesc now)
    (execAffected .notFound)

/-- A consent that was remembered before is overwritten. -/
def createConsentSession (consent : ConsentSession) : StoreM Unit := do
  let now ← nowUTC
  statement
    (.upsertConsentSession { consent with createdAt := now, updatedAt := now })
    execDone

def getConsentSession (clientID identityID : String) : StoreM ConsentSession :=
  statement (.selectConsentSession clientID identityID) scanRow

def getSessionAuthContext (sessionID : String) : StoreM SessionAuthContext := do
  rejectIf (blank sessionID) .notFound
  let (aal, authenticatedAt) ← statement (.selectSession sessionID) scanRow
  let methods ← statement (.selectSessionMethods sessionID) fun
    | .ok methods => .ok methods
    | .error _ => .error StoreError.database
  return ⟨aal, authenticatedAt, methods⟩

/-- Without a time of authentication it is that of the code. -/
def createAuthCode (code : AuthCode) : StoreM Unit := do
  let value ← orGenerate code.code generateAuthCode
  let now ← nowUTC
  let authTime := if code.authTime = zeroTime then now else code.authTime
  statement (.insertAuthCode
    { code with code := value, createdAt := now, authTime := authTime })
    execUnique

def getAuthCode (code : String) : StoreM AuthCode :=
  statement (.selectAuthCode code) scanRow

/-- Only a code that is not used yet is marked. -/
def markAuthCodeUsed (code : String) : StoreM Unit := do
  let now ← nowUTC
  statement (.updateAuthCodeUsed code now) (execAffected .codeUsed)

def createAccessToken (token : AccessToken) : StoreM Unit := do
  let jti ← orGenerate token.jti generateAccessTokenJTI
  let now ← nowUTC
  statement (.insertAccessToken { token with jti := jti, createdAt := now })
    execDone

def getAccessToken (jti : String) : StoreM AccessToken :=
  statement (.selectAccessToken jti) scanRow

def getAccessTokenBySignature (signature : String) : StoreM AccessToken :=
  statement (.selectAccessTokenBySignature signature) scanRow

def revokeAccessToken (jti : String) : StoreM Unit := do
  let now ← nowUTC
  statement (.updateAccessTokenRevoked jti now) (execAffected .notFound)

def createRefreshToken (token : RefreshToken) : StoreM Unit := do
  let id ← orGenerate token.id generateRefreshToken
  let familyID ← orGenerate token.familyID generateRefreshTokenFamily
  let now ← nowUTC
  statement (.insertRefreshToken
    { token with id := id, familyID := familyID, createdAt := now }) execDone

def getRefreshToken (id : String) : StoreM RefreshToken :=
  statement (.selectRefreshToken id) scanRow

/-- A token that is used or inactive is not marked. Without a grace period there is no
deadline. -/
def markRefreshTokenUsed (id successorID : String) (gracePeriod : Int) : StoreM Unit := do
  let now ← nowUTC
  let gracePeriodExpires := if 0 < gracePeriod then some (now + gracePeriod) else none
  statement (.updateRefreshTokenUsed id now successorID gracePeriodExpires)
    (execAffected .tokenInactive)

/-- A family without active tokens is no error. -/
def invalidateRefreshTokenFamily (familyID : String) : StoreM Nat :=
  statement (.updateRefreshFamilyInactive familyID) execCount

def createIDToken (token : IDToken) : StoreM Unit := do
  let jti ← orGenerate token.jti generateIDTokenJTI
  let now ← nowUTC
  statement (.insertIDToken { token with jti := jti, createdAt := now }) execDone

/-- `GenerateUserCode` of the store, for a record without a user code. -/
def generateUserCodeFromBytes : StoreM String :=
  statement (.randomBytes 8) fun
    | .ok bytes =>
        let charset := "BCDFGHJKLMNPQRSTVWXZ".toList
        let code := bytes.map fun b => charset.getD (b.toNat % charset.length) 'B'
        .ok (String.ofList (code.take 4) ++ "-" ++ String.ofList (code.drop 4))
    | .error _ => .error .random

/-- A new code is pending and polled every five seconds, unless the caller says otherwise. -/
def createDeviceCode (dc : DeviceCode) : StoreM Unit := do
  let deviceCode ← orGenerate dc.deviceCode generateDeviceCode
  let userCode ← orGenerate dc.userCode generateUserCodeFromBytes
  let now ← nowUTC
  statement (.insertDeviceCode
    { dc with
      deviceCode := deviceCode
      userCode := userCode
      createdAt := now
      status := if dc.status = "" then "pending" else dc.status
      interval := if dc.interval = 0 then 5 else dc.interval }) execUnique

def getDeviceCodeByDeviceCode (deviceCode : String) : StoreM DeviceCode :=
  statement (.selectDeviceCode deviceCode) scanRow

def getDeviceCodeByUserCode (userCode : String) : StoreM DeviceCode :=
  statement (.selectDeviceCodeByUserCode userCode) scanRow

def approveDeviceCode (userCode identityID sessionID : String) : StoreM Unit := do
  let now ← nowUTC
  statement (.updateDeviceApproved userCode identityID sessionID now)
    (execAffected .notFound)

def denyDeviceCode (userCode : String) : StoreM Unit :=
  statement (.updateDeviceDenied userCode) (execAffected .notFound)

/-- The number of deleted rows is not looked at. -/
def deleteDeviceCode (deviceCode : String) : StoreM Unit :=
  statement (.deleteDeviceCode deviceCode) execDone

section Run

variable {choice : Choice} {rest : List Choice} {db : Database}

theorem answer_of_fails {α : Type} (hfails : choice.fails = true) (value : α) :
    answer choice value = .error .failed :=
  if_pos hfails

theorem answer_of_not_fails {α : Type} (hfails : choice.fails = false)
    (value : α) : answer choice value = .ok value :=
  if_neg (by simp [hfails])

/-- A row is read if it is there and the statement does not fail. -/
theorem scanRow_answer_eq_ok_iff {α : Type} {found : Option α} {row : α} :
    scanRow (answer choice found) = .ok row ↔ choice.fails = false ∧ found = some row := by
  cases hfails : choice.fails with
  | true => simp [answer_of_fails hfails, scanRow]
  | false => cases found <;> simp [answer_of_not_fails hfails, scanRow]

/-- A read that goes through and returns no row has found none. -/
theorem key_ne_of_scanRow_error {α κ : Type} [DecidableEq κ] {key : α → κ}
    {table : Table key} {k : κ} {e : StoreError}
    (hread : scanRow (answer choice (table.find? k)) = .error e)
    (hfails : choice.fails = false) {row : α} (hrow : row ∈ table.rows) : key row ≠ k := by
  intro hkey
  have hfound := (Table.find?_eq_some_iff ..).mpr ⟨hrow, hkey⟩
  rw [scanRow_answer_eq_ok_iff.mpr ⟨hfails, hfound⟩] at hread
  cases hread

/-- An update succeeds if it goes through and finds a row. -/
theorem execAffected_answer {α κ : Type} {key : α → κ} (choice : Choice)
    (missing : StoreError) (table : Table key) (p : α → Bool) :
    execAffected missing (answer choice (table.affected p)) = .ok () ↔
      choice.fails = false ∧ ∃ row ∈ table.rows, p row = true := by
  rw [← Table.affected_pos_iff]
  cases hfails : choice.fails with
  | true => simp [answer_of_fails hfails, execAffected]
  | false =>
      rw [answer_of_not_fails hfails]
      cases table.affected p <;> simp [execAffected]

/-- An update that fails or finds no row does nothing. -/
theorem updated_of_miss {α κ : Type} {key : α → κ} {choice : Choice}
    (table : Table key) (p : α → Bool) (assign : α → α) (hkey : ∀ row, key (assign row) = key row)
    (hmiss : ¬ (choice.fails = false ∧ ∃ row ∈ table.rows, p row = true)) :
    updated (answer choice (table.affected p)) table p assign hkey = table := by
  rw [← Table.affected_pos_iff] at hmiss
  cases hfails : choice.fails with
  | true => rw [answer_of_fails hfails, updated]
  | false =>
      rw [answer_of_not_fails hfails, updated]
      apply Table.updateWhere_of_affected_eq_zero
      by_contra hzero
      exact hmiss ⟨hfails, Nat.pos_of_ne_zero hzero⟩

/-- The methods on one choice for each statement. -/
@[simp]
theorem run_nowUTC {ε : Type} :
    (nowUTC : Service Reply ε Time).run perform (choice :: rest) db =
      some (.ok choice.now, db, rest) :=
  run_statement_cons ..

@[simp]
theorem run_getClient {id : String} :
    (getClient id).run perform (choice :: rest) db =
      some (scanRow (answer choice (db.clients.find? id)), db, rest) :=
  run_statement_cons ..

@[simp]
theorem run_getAccessToken {jti : String} :
    (getAccessToken jti).run perform (choice :: rest) db =
      some (scanRow (answer choice (db.accessTokens.find? jti)), db, rest) :=
  run_statement_cons ..

@[simp]
theorem run_getAccessTokenBySignature {signature : String} :
    (getAccessTokenBySignature signature).run perform (choice :: rest) db =
      some (scanRow (answer choice (db.accessTokens.rows.find?
        (·.signature = some signature))), db, rest) :=
  run_statement_cons ..

@[simp]
theorem run_getRefreshToken {id : String} :
    (getRefreshToken id).run perform (choice :: rest) db =
      some (scanRow (answer choice (db.refreshTokens.find? id)), db, rest) :=
  run_statement_cons ..

@[simp]
theorem run_getDeviceCodeByDeviceCode {deviceCode : String} :
    (getDeviceCodeByDeviceCode deviceCode).run perform (choice :: rest) db =
      some (scanRow (answer choice (db.deviceCodes.find? deviceCode)), db,
        rest) :=
  run_statement_cons ..

end Run

end Aegion.OAuth
