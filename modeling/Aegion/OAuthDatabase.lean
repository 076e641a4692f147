/-
The database of the OAuth2 module, one SQL statement at a time, together with
the clock and the random source.  A statement's reply determines its effect, so
the tables are a function of the calls made so far.
-/
import Aegion.OAuthRecords
import Aegion.KeyedTable
import Aegion.HistoryLaws

namespace Aegion.OAuth

inductive DBError where
  /-- PostgreSQL's `23505`. -/
  | uniqueViolation
  | failed
deriving Repr, DecidableEq

/-- The atomic calls of the services.  The two `selectSession` statements read
tables that belong to the core module. -/
inductive Call where
  | clock
  | randomBytes (length : Nat)
  | randomIntN (bound : Nat)
  | selectClient (id : String)
  | insertClient (row : Client)
  | updateClient (row : Client)
  | insertLoginChallenge (row : LoginChallenge)
  | selectLoginChallenge (id : String)
  | updateLoginAccepted (id identityID sessionID : String) (now : Time)
  | insertConsentChallenge (row : ConsentChallenge)
  | selectConsentChallenge (id : String)
  | updateConsentAccepted (id : String) (grantedScopes grantedAudience : List String)
      (remember : Bool) (rememberFor : Option Int) (now : Time)
  | updateConsentRejected (id errorCode errorDesc : String) (now : Time)
  | upsertConsentSession (row : ConsentSession)
  | selectConsentSession (clientID identityID : String)
  | selectSession (id : String)
  | selectSessionMethods (id : String)
  | insertAuthCode (row : AuthCode)
  | selectAuthCode (code : String)
  | updateAuthCodeUsed (code : String) (now : Time)
  | insertAccessToken (row : AccessToken)
  | selectAccessToken (jti : String)
  | selectAccessTokenBySignature (signature : String)
  | updateAccessTokenRevoked (jti : String) (now : Time)
  | insertRefreshToken (row : RefreshToken)
  | selectRefreshToken (id : String)
  | updateRefreshTokenUsed (id : String) (now : Time) (successorID : String)
      (gracePeriodExpires : Option Time)
  | updateRefreshFamilyInactive (familyID : String)
  | insertIDToken (row : IDToken)
  | insertDeviceCode (row : DeviceCode)
  | selectDeviceCode (deviceCode : String)
  | selectDeviceCodeByUserCode (userCode : String)
  | updateDeviceApproved (userCode identityID sessionID : String) (now : Time)
  | updateDeviceDenied (userCode : String)
  | deleteDeviceCode (deviceCode : String)
deriving Repr, DecidableEq

/-- A query answers with a row if there is one, an update with the number of
rows it touched. -/
abbrev Reply : Call → Type
  | .clock => Time
  | .randomBytes _ => Except Unit (List UInt8)
  | .randomIntN _ => Except Unit Nat
  | .selectClient _ => Except DBError (Option Client)
  | .insertClient _ => Except DBError Unit
  | .updateClient _ => Except DBError Nat
  | .insertLoginChallenge _ => Except DBError Unit
  | .selectLoginChallenge _ => Except DBError (Option LoginChallenge)
  | .updateLoginAccepted .. => Except DBError Nat
  | .insertConsentChallenge _ => Except DBError Unit
  | .selectConsentChallenge _ => Except DBError (Option ConsentChallenge)
  | .updateConsentAccepted .. => Except DBError Nat
  | .updateConsentRejected .. => Except DBError Nat
  | .upsertConsentSession _ => Except DBError Unit
  | .selectConsentSession .. => Except DBError (Option ConsentSession)
  | .selectSession _ => Except DBError (Option (String × Time))
  | .selectSessionMethods _ => Except DBError (List String)
  | .insertAuthCode _ => Except DBError Unit
  | .selectAuthCode _ => Except DBError (Option AuthCode)
  | .updateAuthCodeUsed .. => Except DBError Nat
  | .insertAccessToken _ => Except DBError Unit
  | .selectAccessToken _ => Except DBError (Option AccessToken)
  | .selectAccessTokenBySignature _ => Except DBError (Option AccessToken)
  | .updateAccessTokenRevoked .. => Except DBError Nat
  | .insertRefreshToken _ => Except DBError Unit
  | .selectRefreshToken _ => Except DBError (Option RefreshToken)
  | .updateRefreshTokenUsed .. => Except DBError Nat
  | .updateRefreshFamilyInactive _ => Except DBError Nat
  | .insertIDToken _ => Except DBError Unit
  | .insertDeviceCode _ => Except DBError Unit
  | .selectDeviceCode _ => Except DBError (Option DeviceCode)
  | .selectDeviceCodeByUserCode _ => Except DBError (Option DeviceCode)
  | .updateDeviceApproved .. => Except DBError Nat
  | .updateDeviceDenied _ => Except DBError Nat
  | .deleteDeviceCode _ => Except DBError Nat

structure Database where
  clients : Table Client.id
  loginChallenges : Table LoginChallenge.id
  consentChallenges : Table ConsentChallenge.id
  consentSessions : Table fun row : ConsentSession => (row.clientID, row.identityID)
  authCodes : Table AuthCode.code
  accessTokens : Table AccessToken.jti
  refreshTokens : Table RefreshToken.id
  idTokens : Table IDToken.jti
  deviceCodes : Table DeviceCode.deviceCode

/-- What the tables leave open: the clock, the random source (`none` when it
fails), the core module's session tables, and whether the statement fails. -/
structure Choice where
  now : Time
  entropy : Option (List UInt8)
  session : Option (String × Time)
  methods : List String
  fails : Bool

/-- Exactly `length` bytes of the given entropy. -/
def drawBytes (length : Nat) (entropy : List UInt8) : List UInt8 :=
  entropy.take length ++ List.replicate (length - entropy.length) 0

/-- A statement's answer unless the connection fails. -/
def answer {α : Type} (choice : Choice) (value : α) : Except DBError α :=
  if choice.fails then .error .failed else .ok value

section Statements

variable {α κ : Type} {key : α → κ}

def answerInsert [DecidableEq κ] (choice : Choice) (table : Table key)
    (row : α) : Except DBError Unit :=
  if choice.fails then .error .failed
  else if (table.insert? row).isSome then .ok ()
  else .error .uniqueViolation

/-- An insert that was acknowledged. -/
def inserted [DecidableEq κ] (reply : Except DBError Unit)
    (table : Table key) (row : α) : Table key :=
  match reply with
  | .ok _ => (table.insert? row).getD table
  | .error _ => table

def updated {β : Type} (reply : Except DBError β) (table : Table key)
    (p : α → Bool) (assign : α → α) (hkey : ∀ row, key (assign row) = key row) : Table key :=
  match reply with
  | .ok _ => table.updateWhere p assign hkey
  | .error _ => table

def deleted {β : Type} (reply : Except DBError β) (table : Table key) (p : α → Bool) : Table key :=
  match reply with
  | .ok _ => table.deleteWhere p
  | .error _ => table

end Statements

/-- `SET` clause of `UpdateClient`, every column but the id and the secret; below, those of the
other updates. -/
def Client.assignUpdate (new row : Client) : Client :=
  { new with id := row.id, secretHash := row.secretHash }

def LoginChallenge.assignAccepted (identityID sessionID : String) (now : Time)
    (row : LoginChallenge) : LoginChallenge :=
  { row with
    identityID := some identityID
    sessionID := some sessionID
    authenticatedAt := some now }

def ConsentChallenge.assignAccepted (grantedScopes grantedAudience : List String)
    (remember : Bool) (rememberFor : Option Int) (now : Time)
    (row : ConsentChallenge) : ConsentChallenge :=
  { row with
    grantedScopes := grantedScopes
    grantedAudience := grantedAudience
    remember := some remember
    rememberFor := rememberFor
    handled := true
    handledAt := some now }

def ConsentChallenge.assignRejected (errorCode errorDesc : String) (now : Time)
    (row : ConsentChallenge) : ConsentChallenge :=
  { row with
    rejected := true
    error := some errorCode
    errorDescription := some errorDesc
    handled := true
    handledAt := some now }

/-- `DO UPDATE SET` clause of `CreateConsentSession`. -/
def ConsentSession.assignUpsert (new row : ConsentSession) : ConsentSession :=
  { new with
    id := row.id
    clientID := row.clientID
    identityID := row.identityID
    handled := row.handled
    createdAt := row.createdAt }

def AuthCode.assignUsed (now : Time) (row : AuthCode) : AuthCode :=
  { row with used := true, usedAt := some now }

def AccessToken.assignRevoked (now : Time) (row : AccessToken) : AccessToken :=
  { row with revoked := true, revokedAt := some now }

def RefreshToken.assignUsed (now : Time) (successorID : String)
    (gracePeriodExpires : Option Time) (row : RefreshToken) : RefreshToken :=
  { row with
    used := true
    usedAt := some now
    successorID := some successorID
    gracePeriodExpiresAt := gracePeriodExpires
    firstUsedAt := some (row.firstUsedAt.getD now) }

def RefreshToken.assignInactive (row : RefreshToken) : RefreshToken :=
  { row with active := false }

theorem RefreshToken.id_assignInactive (row : RefreshToken) : row.assignInactive.id = row.id := rfl

def DeviceCode.assignApproved (identityID sessionID : String) (now : Time)
    (row : DeviceCode) : DeviceCode :=
  { row with
    identityID := some identityID
    sessionID := some sessionID
    status := "approved"
    approvedAt := some now }

def DeviceCode.assignDenied (row : DeviceCode) : DeviceCode :=
  { row with status := "denied" }

/-- The reply to a call, given the tables. -/
def reply (choice : Choice) (db : Database) : (c : Call) → Reply c
  | .clock => choice.now
  | .randomBytes length =>
      match choice.entropy with
      | none => .error ()
      | some bytes => .ok (drawBytes length bytes)
  | .randomIntN bound =>
      match choice.entropy with
      | none => .error ()
      | some bytes => .ok ((bytes.headD 0).toNat % bound)
  | .selectClient id => answer choice (db.clients.find? id)
  | .insertClient row => answerInsert choice db.clients row
  | .updateClient row => answer choice (db.clients.affected (·.id = row.id))
  | .insertLoginChallenge row => answerInsert choice db.loginChallenges row
  | .selectLoginChallenge id => answer choice (db.loginChallenges.find? id)
  | .updateLoginAccepted id .. =>
      answer choice (db.loginChallenges.affected (·.id = id))
  | .insertConsentChallenge row => answerInsert choice db.consentChallenges row
  | .selectConsentChallenge id => answer choice (db.consentChallenges.find? id)
  | .updateConsentAccepted id .. =>
      answer choice (db.consentChallenges.affected (·.id = id))
  | .updateConsentRejected id .. =>
      answer choice (db.consentChallenges.affected (·.id = id))
  | .upsertConsentSession row =>
      -- Only a foreign row with the same id can violate the primary key.
      if choice.fails then .error .failed
      else if (db.consentSessions.find? (row.clientID, row.identityID)).isNone ∧
          db.consentSessions.rows.any (·.id = row.id) then
        .error .uniqueViolation
      else .ok ()
  | .selectConsentSession clientID identityID =>
      answer choice (db.consentSessions.find? (clientID, identityID))
  | .selectSession _ => answer choice choice.session
  | .selectSessionMethods _ => answer choice choice.methods
  | .insertAuthCode row => answerInsert choice db.authCodes row
  | .selectAuthCode code => answer choice (db.authCodes.find? code)
  | .updateAuthCodeUsed code _ =>
      answer choice (db.authCodes.affected fun row =>
        row.code = code ∧ row.used = false)
  | .insertAccessToken row => answerInsert choice db.accessTokens row
  | .selectAccessToken jti => answer choice (db.accessTokens.find? jti)
  | .selectAccessTokenBySignature signature =>
      answer choice (db.accessTokens.rows.find? (·.signature = some signature))
  | .updateAccessTokenRevoked jti _ =>
      answer choice (db.accessTokens.affected (·.jti = jti))
  | .insertRefreshToken row => answerInsert choice db.refreshTokens row
  | .selectRefreshToken id => answer choice (db.refreshTokens.find? id)
  | .updateRefreshTokenUsed id .. =>
      answer choice (db.refreshTokens.affected fun row =>
        row.id = id ∧ row.active = true ∧ row.used = false)
  | .updateRefreshFamilyInactive familyID =>
      answer choice (db.refreshTokens.affected fun row =>
        row.familyID = familyID ∧ row.active = true)
  | .insertIDToken row => answerInsert choice db.idTokens row
  | .insertDeviceCode row =>
      -- `user_code` is a second unique column.
      if choice.fails then .error .failed
      else if db.deviceCodes.rows.any (·.userCode = row.userCode) then
        .error .uniqueViolation
      else answerInsert choice db.deviceCodes row
  | .selectDeviceCode deviceCode => answer choice (db.deviceCodes.find? deviceCode)
  | .selectDeviceCodeByUserCode userCode =>
      answer choice (db.deviceCodes.rows.find? (·.userCode = userCode))
  | .updateDeviceApproved userCode .. =>
      answer choice (db.deviceCodes.affected fun row =>
        row.userCode = userCode ∧ row.status = "pending")
  | .updateDeviceDenied userCode =>
      answer choice (db.deviceCodes.affected fun row =>
        row.userCode = userCode ∧ row.status = "pending")
  | .deleteDeviceCode deviceCode =>
      answer choice (db.deviceCodes.affected (·.deviceCode = deviceCode))

/-- What an acknowledged call does to the tables. -/
def effect (call : Called Reply) (db : Database) : Database :=
  match call with
  | ⟨.insertClient row, reply⟩ =>
      { db with clients := inserted reply db.clients row }
  | ⟨.updateClient row, reply⟩ =>
      { db with
        clients := updated reply db.clients (·.id = row.id) row.assignUpdate
          fun _ => rfl }
  | ⟨.insertLoginChallenge row, reply⟩ =>
      { db with loginChallenges := inserted reply db.loginChallenges row }
  | ⟨.updateLoginAccepted id identityID sessionID now, reply⟩ =>
      { db with
        loginChallenges := updated reply db.loginChallenges (·.id = id)
          (LoginChallenge.assignAccepted identityID sessionID now)
          fun _ => rfl }
  | ⟨.insertConsentChallenge row, reply⟩ =>
      { db with consentChallenges := inserted reply db.consentChallenges row }
  | ⟨.updateConsentAccepted id scopes audience remember rememberFor now, reply⟩ =>
      { db with
        consentChallenges := updated reply db.consentChallenges (·.id = id)
          (ConsentChallenge.assignAccepted scopes audience remember
            rememberFor now) fun _ => rfl }
  | ⟨.updateConsentRejected id errorCode errorDesc now, reply⟩ =>
      { db with
        consentChallenges := updated reply db.consentChallenges (·.id = id)
          (ConsentChallenge.assignRejected errorCode errorDesc now)
          fun _ => rfl }
  | ⟨.upsertConsentSession row, reply⟩ =>
      { db with
        consentSessions :=
          if (db.consentSessions.find?
              (row.clientID, row.identityID)).isSome then
            updated reply db.consentSessions
              (fun old => (old.clientID, old.identityID) =
                (row.clientID, row.identityID))
              row.assignUpsert fun _ => rfl
          else inserted reply db.consentSessions row }
  | ⟨.insertAuthCode row, reply⟩ =>
      { db with authCodes := inserted reply db.authCodes row }
  | ⟨.updateAuthCodeUsed code now, reply⟩ =>
      { db with
        authCodes := updated reply db.authCodes
          (fun row => row.code = code ∧ row.used = false)
          (AuthCode.assignUsed now) fun _ => rfl }
  | ⟨.insertAccessToken row, reply⟩ =>
      { db with accessTokens := inserted reply db.accessTokens row }
  | ⟨.updateAccessTokenRevoked jti now, reply⟩ =>
      { db with
        accessTokens := updated reply db.accessTokens (·.jti = jti)
          (AccessToken.assignRevoked now) fun _ => rfl }
  | ⟨.insertRefreshToken row, reply⟩ =>
      { db with refreshTokens := inserted reply db.refreshTokens row }
  | ⟨.updateRefreshTokenUsed id now successorID gracePeriodExpires, reply⟩ =>
      { db with
        refreshTokens := updated reply db.refreshTokens
          (fun row => row.id = id ∧ row.active = true ∧ row.used = false)
          (RefreshToken.assignUsed now successorID gracePeriodExpires)
          fun _ => rfl }
  | ⟨.updateRefreshFamilyInactive familyID, reply⟩ =>
      { db with
        refreshTokens := updated reply db.refreshTokens
          (fun row => row.familyID = familyID ∧ row.active = true)
          RefreshToken.assignInactive RefreshToken.id_assignInactive }
  | ⟨.insertIDToken row, reply⟩ =>
      { db with idTokens := inserted reply db.idTokens row }
  | ⟨.insertDeviceCode row, reply⟩ =>
      { db with deviceCodes := inserted reply db.deviceCodes row }
  | ⟨.updateDeviceApproved userCode identityID sessionID now, reply⟩ =>
      { db with
        deviceCodes := updated reply db.deviceCodes
          (fun row => row.userCode = userCode ∧ row.status = "pending")
          (DeviceCode.assignApproved identityID sessionID now) fun _ => rfl }
  | ⟨.updateDeviceDenied userCode, reply⟩ =>
      { db with
        deviceCodes := updated reply db.deviceCodes
          (fun row => row.userCode = userCode ∧ row.status = "pending")
          DeviceCode.assignDenied fun _ => rfl }
  | ⟨.deleteDeviceCode deviceCode, reply⟩ =>
      { db with
        deviceCodes := deleted reply db.deviceCodes (·.deviceCode = deviceCode) }
  | _ => db

def perform (choice : Choice) (c : Call) (db : Database) : Reply c × Database :=
  (reply choice db c, effect ⟨c, reply choice db c⟩ db)

end Aegion.OAuth
