/-
What a login works on: the flow, identity and session tables of the core, the
tables of the MFA module, and the services that check a first factor.  The
password, magic-link, passkey, social and SSO services are outside: they answer
as they like.  A reply tells the time at which the database wrote a row.
-/
import Aegion.CallEmbedding
import Aegion.MFADatabase

namespace Aegion.Login

open Go
open OAuth (Time DBError drawBytes inserted updated)

inductive FlowType where
  | login
  | registration
  | recovery
  | settings
  | verification
deriving Repr, DecidableEq

inductive FlowState where
  | active
  | completed
  | failed
  | expired
deriving Repr, DecidableEq

def FlowState.isTerminal : FlowState → Bool
  | .active => false
  | .completed => true
  | .failed => true
  | .expired => true

/-- `core_flows_state_check`, which allows `active`, `complete` and `failed`. -/
def FlowState.storable : FlowState → Bool
  | .active => true
  | .completed => false
  | .failed => true
  | .expired => false

/-- A value in a flow's context. -/
inductive ContextValue where
  | text (value : String)
  | texts (values : List String)
  | flag (value : Bool)
deriving Repr, DecidableEq

/-- A row of `core_flows`. -/
structure Flow where
  id : UUID
  type : FlowType
  state : FlowState
  identityID : Option UUID
  sessionID : Option UUID
  requestURL : String
  context : List (String × ContextValue)
  expiresAt : Time
  csrfToken : String
deriving Repr, DecidableEq

inductive IdentityState where
  | active
  | inactive
  | banned
deriving Repr, DecidableEq

/-- A row of `core_identities`. -/
structure Identity where
  id : UUID
  state : IdentityState
  deletedAt : Option Time
deriving Repr, DecidableEq

/-- A row of `core_identity_addresses` of type `email`. -/
structure Address where
  id : UUID
  identityID : UUID
  value : String
  isPrimary : Bool
  verified : Bool
  createdAt : Time
deriving Repr, DecidableEq

inductive AAL where
  | aal0
  | aal1
  | aal2
deriving Repr, DecidableEq

/-- `AuthMethod` is a string type; the names that no constant has are `other`. -/
inductive AuthMethod where
  | password
  | totp
  | webAuthn
  | magicLink
  | social
  | saml
  | passkey
  | sms
  | backup
  | other (name : String)
deriving Repr, DecidableEq

def AuthMethod.text : AuthMethod → String
  | .password => "password"
  | .totp => "totp"
  | .webAuthn => "webauthn"
  | .magicLink => "magic_link"
  | .social => "social"
  | .saml => "saml"
  | .passkey => "passkey"
  | .sms => "sms"
  | .backup => "backup_code"
  | .other name => name

def AuthMethod.ofText : String → AuthMethod
  | "password" => .password
  | "totp" => .totp
  | "webauthn" => .webAuthn
  | "magic_link" => .magicLink
  | "social" => .social
  | "saml" => .saml
  | "passkey" => .passkey
  | "sms" => .sms
  | "backup_code" => .backup
  | name => .other name

def methodToAAL : AuthMethod → AAL
  | .password => .aal1
  | .magicLink => .aal1
  | .social => .aal1
  | .saml => .aal1
  | .passkey => .aal1
  | .totp => .aal2
  | .webAuthn => .aal2
  | .sms => .aal2
  | .backup => .aal2
  | .other _ => .aal0

def computeAAL (current contrib : AAL) : AAL :=
  if current = .aal1 ∧ contrib = .aal2 then .aal2
  else if current = .aal0 then contrib
  else current

/-- A row of `core_sessions`. -/
structure SessionRow where
  id : UUID
  tokenHash : String
  tokenPrefix : String
  identityID : UUID
  aal : AAL
  issuedAt : Time
  expiresAt : Time
  authenticatedAt : Time
  logoutTokenHash : String
  logoutTokenPrefix : String
  active : Bool
  createdAt : Time
  updatedAt : Time
deriving Repr, DecidableEq

/-- A row of `core_session_auth_methods`. -/
structure SessionMethod where
  sessionID : UUID
  method : AuthMethod
  aal : AAL
  completedAt : Time
deriving Repr, DecidableEq

/-- `core_session_auth_methods_method_check` and `..._aal_check`. -/
def SessionMethod.storable (row : SessionMethod) : Bool :=
  row.aal = .aal1 || row.aal = .aal2

structure Database where
  flows : Table Flow.id
  identities : Table Identity.id
  addresses : Table Address.id
  sessions : Table SessionRow.id
  sessionMethods : List SessionMethod
  mfa : MFA.Database
  /-- `LOWER` in the collation of the database. -/
  lower : String → String

inductive PasswordError where
  | invalidCredentials
  | internal
deriving Repr, DecidableEq

inductive MagicLinkError where
  | invalidCode
  | rateLimited
  | recipientEmpty
  | internal
deriving Repr, DecidableEq

/-- The answer of a module's callback endpoint. -/
inductive Fetched (α : Type) where
  /-- The registry has no usable endpoint. -/
  | unavailable
  | failed
  | answered (status : Nat) (body : α)
deriving Repr, DecidableEq

structure SocialCallback where
  identityID : String
  email : String
deriving Repr, DecidableEq

structure SSOCallback where
  email : String
  jitProvision : Bool
deriving Repr, DecidableEq

inductive Call where
  | clock
  | randomBytes (length : Nat)
  | newUUID
  | insertFlow (row : Flow)
  | selectFlow (id : UUID)
  | updateFlow (row : Flow)
  | selectIdentityActive (id : UUID)
  | selectIdentityByEmail (email : String) (onlyActive : Bool)
  | createIdentity (id addressID : UUID) (email : String)
  | updateEmailVerified (identityID : UUID) (email : String)
  | updateIdentityState (id : UUID) (state : IdentityState)
  | softDeleteIdentity (id : UUID)
  | insertSession (row : SessionRow)
  | insertSessionMethod (row : SessionMethod)
  | addAuthMethod (row : SessionMethod)
  | setSessionCookie (token : String)
  | setTrustedDeviceCookie (token : String) (expiresAt : Time)
  | verifyPassword (identifier password : String)
  | sendLoginCode (identifier : String)
  | verifyMagicLink (token : String)
  | finishPasskey (identityID challenge credentialID signature : String)
      (signCount : UInt32)
  | fetchSocial (provider state code : String)
  | fetchSSO (connection relayState samlResponse : String)
  | mfa (c : MFA.Call)
deriving Repr, DecidableEq

abbrev Reply : Call → Type
  | .clock => Time
  | .randomBytes _ => Except Unit (List UInt8)
  | .newUUID => UUID
  | .insertFlow _ => Except DBError Unit
  | .selectFlow _ => Except DBError (Option Flow)
  | .updateFlow _ => Except DBError Nat
  | .selectIdentityActive _ => Except DBError Bool
  | .selectIdentityByEmail .. => Except DBError (Option UUID)
  | .createIdentity .. => Except DBError Time
  | .updateEmailVerified .. => Except DBError Nat
  | .updateIdentityState .. => Except DBError Nat
  | .softDeleteIdentity _ => Except DBError (Option Time)
  | .insertSession _ => Except DBError Unit
  | .insertSessionMethod _ => Except DBError Unit
  | .addAuthMethod _ => Except DBError Time
  | .setSessionCookie _ => Unit
  | .setTrustedDeviceCookie .. => Unit
  | .verifyPassword .. => Except PasswordError UUID
  | .sendLoginCode _ => Except MagicLinkError Unit
  | .verifyMagicLink _ => Except MagicLinkError (String × Option UUID)
  | .finishPasskey .. => Except Unit Unit
  | .fetchSocial .. => Fetched SocialCallback
  | .fetchSSO .. => Fetched SSOCallback
  | .mfa c => MFA.Reply c

/-- The MFA module's calls among those of a login. -/
def mfaCalls : Embedding MFA.Reply Reply where
  lift := .mfa
  back _ reply := reply
  view
    | ⟨.mfa c, reply⟩ => some ⟨c, reply⟩
    | _ => none
  view_lift _ _ := rfl

/-- What the tables leave open, and the answers of the services outside. -/
structure Choice where
  now : Time
  entropy : Option (List UInt8)
  uuid : UUID
  tiebreak : UUID → Nat
  fails : Bool
  mfa : MFA.Choice
  password : Except PasswordError UUID
  loginCode : Except MagicLinkError Unit
  magicLink : Except MagicLinkError (String × Option UUID)
  passkey : Except Unit Unit
  social : Fetched SocialCallback
  sso : Fetched SSOCallback

/-- `SET` clause of the flow store's `Update`: the CSRF token stays. -/
def Flow.assign (new row : Flow) : Flow :=
  { new with id := row.id, csrfToken := row.csrfToken }

def Identity.assignState (state : IdentityState) (row : Identity) : Identity :=
  { row with state := state }

def Identity.assignDeleted (deletedAt : Time) (row : Identity) : Identity :=
  { row with state := .inactive, deletedAt := some deletedAt }

def Address.assignVerified (row : Address) : Address := { row with verified := true }

/-- The update of `AddAuthMethod`, made only where it changes the level. -/
def SessionRow.assignAAL (new : SessionMethod) (writtenAt : Time) (row : SessionRow) : SessionRow :=
  if computeAAL row.aal new.aal ≠ row.aal then
    { row with
      aal := computeAAL row.aal new.aal
      authenticatedAt := new.completedAt
      updatedAt := writtenAt }
  else row

def SessionRow.assignInactive (writtenAt : Time) (row : SessionRow) : SessionRow :=
  { row with active := false, updatedAt := writtenAt }

section Keys

theorem Flow.id_assign (new row : Flow) : (new.assign row).id = row.id := rfl

theorem Identity.id_assignState (state : IdentityState) (row : Identity) :
    (row.assignState state).id = row.id := rfl

theorem Identity.id_assignDeleted (deletedAt : Time) (row : Identity) :
    (row.assignDeleted deletedAt).id = row.id := rfl

theorem Address.id_assignVerified (row : Address) : row.assignVerified.id = row.id := rfl

theorem SessionRow.id_assignAAL (new : SessionMethod) (writtenAt : Time)
    (row : SessionRow) : (row.assignAAL new writtenAt).id = row.id := by
  by_cases hraised : computeAAL row.aal new.aal ≠ row.aal
  · rw [assignAAL, if_pos hraised]
  · rw [assignAAL, if_neg hraised]

theorem SessionRow.id_assignInactive (writtenAt : Time) (row : SessionRow) :
    (row.assignInactive writtenAt).id = row.id := rfl

end Keys

/-- `WHERE` clause of the administrator's updates of an identity. -/
def Identity.selected (id : UUID) (row : Identity) : Bool :=
  row.id = id && row.deletedAt.isNone

/-- `WHERE` clause of `markEmailVerified`. -/
def Address.selected (lower : String → String) (identityID : UUID) (email : String)
    (row : Address) : Bool :=
  row.identityID = identityID && lower row.value = lower email

/-- The query of `identityIsActive`. -/
def Database.identityActive (db : Database) (id : UUID) : Bool :=
  db.identities.rows.any fun row =>
    row.id = id && row.state = .active && row.deletedAt.isNone

/-- `verified DESC, is_primary DESC`. -/
def Address.rank (row : Address) : Nat :=
  (if row.verified then 0 else 2) + if row.isPrimary then 0 else 1

section Reply

variable (choice : Choice) (db : Database)

/-- A statement's answer unless the connection fails. -/
def answer {α : Type} (value : α) : Except DBError α :=
  if choice.fails then .error .failed else .ok value

/-- The same for a statement under constraints.  Nobody tells a violation from
another failure. -/
def checked {α : Type} (valid : Bool) (value : α) : Except DBError α :=
  if choice.fails || !valid then .error .failed else .ok value

/-- The query of `lookupIdentityByEmailWithState`. -/
def emailOwner (email : String) (onlyActive : Bool) : Option UUID :=
  ((db.addresses.rows.filter fun address =>
    db.lower address.value = db.lower email && db.identities.rows.any fun row =>
      row.id = address.identityID && row.deletedAt.isNone &&
        (!onlyActive || row.state = .active)).insertionSort
    fun a b => a.rank < b.rank ∨ a.rank = b.rank ∧ (b.createdAt < a.createdAt ∨
      a.createdAt = b.createdAt ∧ choice.tiebreak a.id ≤ choice.tiebreak b.id)).head?.map
    (·.identityID)

/-- The addresses after `markEmailVerified`. -/
def Database.verified (identityID : UUID) (email : String) : Table Address.id :=
  db.addresses.updateWhere (Address.selected db.lower identityID email)
    Address.assignVerified Address.id_assignVerified

/-- `idx_core_addr_value_type`: a verified address belongs to one row. -/
def verifiedOnce (addresses : Table Address.id) : Bool :=
  decide ((addresses.rows.filter (·.verified)).map (·.value)).Nodup

/-- The unique indexes of `core_sessions` besides its key. -/
def Database.freshTokens (row : SessionRow) : Bool :=
  db.sessions.rows.all fun old =>
    old.tokenHash ≠ row.tokenHash && old.logoutTokenHash ≠ row.logoutTokenHash

def reply : (c : Call) → Reply c
  | .clock => choice.now
  | .randomBytes length =>
      match choice.entropy with
      | none => .error ()
      | some bytes => .ok (drawBytes length bytes)
  | .newUUID => choice.uuid
  | .insertFlow row =>
      checked choice (row.state.storable && (db.flows.insert? row).isSome) ()
  | .selectFlow id => answer choice (db.flows.find? id)
  | .updateFlow row =>
      -- The constraint is checked on the rows that the update touches.
      checked choice (row.state.storable || db.flows.affected (·.id = row.id) = 0)
        (db.flows.affected (·.id = row.id))
  | .selectIdentityActive id => answer choice (db.identityActive id)
  | .selectIdentityByEmail email onlyActive =>
      answer choice (emailOwner choice db email onlyActive)
  | .createIdentity id addressID email =>
      checked choice ((db.identities.insert? ⟨id, .active, none⟩).isSome &&
        (db.addresses.insert? ⟨addressID, id, email, true, false, choice.now⟩).isSome)
        choice.now
  | .updateEmailVerified identityID email =>
      checked choice (verifiedOnce (db.verified identityID email))
        (db.addresses.affected (Address.selected db.lower identityID email))
  | .updateIdentityState id _ =>
      answer choice (db.identities.affected (Identity.selected id))
  | .softDeleteIdentity id =>
      answer choice (if db.identities.affected (Identity.selected id) = 0 then none
        else some choice.now)
  | .insertSession row =>
      checked choice ((db.sessions.insert? row).isSome && db.freshTokens row) ()
  | .insertSessionMethod row => checked choice row.storable ()
  | .addAuthMethod row =>
      checked choice (row.storable && (db.sessions.find? row.sessionID).isSome)
        choice.now
  | .setSessionCookie _ => ()
  | .setTrustedDeviceCookie .. => ()
  | .verifyPassword .. => choice.password
  | .sendLoginCode _ => choice.loginCode
  | .verifyMagicLink _ => choice.magicLink
  | .finishPasskey .. => choice.passkey
  | .fetchSocial .. => choice.social
  | .fetchSSO .. => choice.sso
  | .mfa c => MFA.reply choice.mfa db.mfa c

end Reply

/-- What an acknowledged call does to the tables. -/
def effect (call : Called Reply) (db : Database) : Database :=
  match call with
  | ⟨.insertFlow row, reply⟩ => { db with flows := inserted reply db.flows row }
  | ⟨.updateFlow row, reply⟩ =>
      { db with
        flows := updated reply db.flows (·.id = row.id) row.assign row.id_assign }
  | ⟨.createIdentity id addressID email, .ok writtenAt⟩ =>
      { db with
        identities := inserted (.ok ()) db.identities ⟨id, .active, none⟩
        addresses := inserted (.ok ()) db.addresses
          ⟨addressID, id, email, true, false, writtenAt⟩ }
  | ⟨.updateEmailVerified identityID email, .ok _⟩ =>
      { db with addresses := db.verified identityID email }
  | ⟨.updateIdentityState id state, reply⟩ =>
      { db with
        identities := updated reply db.identities (Identity.selected id)
          (Identity.assignState state) (Identity.id_assignState state) }
  | ⟨.softDeleteIdentity id, .ok (some writtenAt)⟩ =>
      { db with
        identities := db.identities.updateWhere (Identity.selected id)
          (Identity.assignDeleted writtenAt) (Identity.id_assignDeleted writtenAt)
        sessions := db.sessions.updateWhere
          (fun row => row.identityID = id && row.active)
          (SessionRow.assignInactive writtenAt)
          (SessionRow.id_assignInactive writtenAt) }
  | ⟨.insertSession row, reply⟩ =>
      { db with sessions := inserted reply db.sessions row }
  | ⟨.insertSessionMethod row, .ok _⟩ =>
      { db with sessionMethods := db.sessionMethods ++ [row] }
  | ⟨.addAuthMethod row, .ok writtenAt⟩ =>
      { db with
        sessionMethods := db.sessionMethods ++ [row]
        sessions := db.sessions.updateWhere (·.id = row.sessionID)
          (SessionRow.assignAAL row writtenAt)
          (SessionRow.id_assignAAL row writtenAt) }
  | ⟨.mfa c, reply⟩ => { db with mfa := MFA.effect ⟨c, reply⟩ db.mfa }
  | _ => db

/-- Execute one call. -/
def perform (choice : Choice) (c : Call) (db : Database) : Reply c × Database :=
  (reply choice db c, effect ⟨c, reply choice db c⟩ db)

end Aegion.Login
