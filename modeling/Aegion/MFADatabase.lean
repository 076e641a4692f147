/-
The database of the MFA module, one SQL statement at a time.  A transaction is
a value that its owner carries: what its DELETE statements have seen and the
rows it has inserted.  Nothing of it is visible to others before the commit,
as under READ COMMITTED; a row lock can only delay a statement, and the delayed
schedules are among those considered.
-/
import Aegion.GoText
import Aegion.OAuthDatabase
import Mathlib.Data.List.Sort

namespace Aegion.MFA

open Go
open OAuth (Time DBError drawBytes inserted updated deleted)

/-- A row of `mfa_enrollments`. -/
structure Enrollment where
  id : String
  identityID : String
  secretCiphertext : String
  expiresAt : Time
  createdAt : Time
deriving Repr, DecidableEq

/-- A row of `mfa_totp_factors`. -/
structure TOTPFactor where
  identityID : String
  secretCiphertext : String
  enrolledAt : Time
  lastUsedAt : Option Time
  createdAt : Time
  updatedAt : Time
deriving Repr, DecidableEq

/-- A row of `mfa_backup_codes`. -/
structure BackupCode where
  id : String
  identityID : String
  codeHash : String
  batchID : String
  usedAt : Option Time
  createdAt : Time
deriving Repr, DecidableEq

/-- A row of `mfa_trusted_devices`. -/
structure TrustedDevice where
  id : String
  identityID : String
  tokenHash : String
  tokenPrefix : String
  label : String
  expiresAt : Time
  lastUsedAt : Option Time
  createdAt : Time
  revokedAt : Option Time
deriving Repr, DecidableEq

structure Database where
  enrollments : Table Enrollment.id
  totpFactors : Table TOTPFactor.identityID
  backupCodes : Table BackupCode.id
  trustedDevices : Table TrustedDevice.id

/-- The tables a transaction deletes from. -/
inductive Relation where
  | enrollments
  | backupCodes
  | totpFactors
  | trustedDevices
deriving Repr, DecidableEq

/-- The keys of the rows that `DELETE ... WHERE identity_id = $1` finds. -/
def Database.keysOf (db : Database) (identityID : String) :
    Relation → List String
  | .enrollments =>
      (db.enrollments.rows.filter (·.identityID = identityID)).map (·.id)
  | .backupCodes =>
      (db.backupCodes.rows.filter (·.identityID = identityID)).map (·.id)
  | .totpFactors =>
      (db.totpFactors.rows.filter (·.identityID = identityID)).map (·.identityID)
  | .trustedDevices =>
      (db.trustedDevices.rows.filter (·.identityID = identityID)).map (·.id)

/-- A transaction: the keys it deletes and the codes it inserts. -/
structure Tx where
  removed : List (Relation × String)
  codes : List BackupCode
deriving Repr, DecidableEq

def Tx.empty : Tx := ⟨[], []⟩

/-- The transaction after a DELETE that found these keys. -/
def Tx.remove (tx : Tx) (relation : Relation) (keys : List String) : Tx :=
  { tx with removed := tx.removed ++ keys.map (relation, ·) }

def Tx.insert (tx : Tx) (row : BackupCode) : Tx :=
  { tx with codes := tx.codes ++ [row] }

def Tx.removes (tx : Tx) (relation : Relation) (key : String) : Bool :=
  tx.removed.contains (relation, key)

/-- Several inserts; `none` if one of them violates the key. -/
def insertAll {α κ : Type} {key : α → κ} [DecidableEq κ] (table : Table key) :
    List α → Option (Table key)
  | [] => some table
  | row :: rest => (table.insert? row).bind fun next => insertAll next rest

/-- The codes as the transaction sees and leaves them. -/
def Tx.codesAfter (tx : Tx) (db : Database) : Option (Table BackupCode.id) :=
  insertAll (db.backupCodes.deleteWhere fun row => tx.removes .backupCodes row.id)
    tx.codes

def Tx.apply (tx : Tx) (db : Database) : Option Database :=
  (tx.codesAfter db).map fun codes =>
    { enrollments :=
        db.enrollments.deleteWhere fun row => tx.removes .enrollments row.id
      totpFactors :=
        db.totpFactors.deleteWhere fun row => tx.removes .totpFactors row.identityID
      backupCodes := codes
      trustedDevices :=
        db.trustedDevices.deleteWhere fun row => tx.removes .trustedDevices row.id }

inductive Call where
  | clock
  | randomBytes (length : Nat)
  | newUUID
  | upsertEnrollment (row : Enrollment)
  | selectEnrollment (id : String)
  | deleteEnrollment (id : String)
  | upsertTOTPFactor (row : TOTPFactor)
  | selectTOTPFactor (identityID : String)
  | updateTOTPLastUsed (identityID : String) (usedAt : Time)
  | beginTx
  | deleteInTx (relation : Relation) (identityID : String)
  | insertCodeInTx (tx : Tx) (row : BackupCode)
  | commit (tx : Tx)
  | rollback
  | selectBackupCodes (identityID : String)
  | updateBackupCodeUsed (identityID id : String) (usedAt : Time)
  | insertTrustedDevice (row : TrustedDevice)
  | selectTrustedDevice (identityID tokenHash tokenPrefix : String)
  | updateDeviceTouched (identityID id : String) (touchedAt : Time)
  | updateDeviceRevoked (identityID id : String) (revokedAt : Time)
  | selectFactors (identityID : String)
deriving Repr, DecidableEq

/-- A DELETE inside a transaction answers with the keys it has found. -/
abbrev Reply : Call → Type
  | .clock => Time
  | .randomBytes _ => Except Unit (List UInt8)
  | .newUUID => String
  | .upsertEnrollment _ => Except DBError Unit
  | .selectEnrollment _ => Except DBError (Option Enrollment)
  | .deleteEnrollment _ => Except DBError Nat
  | .upsertTOTPFactor _ => Except DBError Unit
  | .selectTOTPFactor _ => Except DBError (Option TOTPFactor)
  | .updateTOTPLastUsed .. => Except DBError Nat
  | .beginTx => Except DBError Unit
  | .deleteInTx .. => Except DBError (List String)
  | .insertCodeInTx .. => Except DBError Unit
  | .commit _ => Except DBError Unit
  | .rollback => Except DBError Unit
  | .selectBackupCodes _ => Except DBError (List BackupCode)
  | .updateBackupCodeUsed .. => Except DBError Nat
  | .insertTrustedDevice _ => Except DBError Unit
  | .selectTrustedDevice .. => Except DBError (Option TrustedDevice)
  | .updateDeviceTouched .. => Except DBError Nat
  | .updateDeviceRevoked .. => Except DBError Nat
  | .selectFactors _ => Except DBError (List TOTPFactor)

/-- What the tables leave open: the clock, random bytes, new UUIDs, the order of
rows that compare equal, and whether a statement fails. -/
structure Choice where
  now : Time
  entropy : Option (List UInt8)
  uuid : String
  tiebreak : String → Nat
  fails : Bool

/-- `DO UPDATE SET` clause of `SaveEnrollment`. -/
def Enrollment.assign (new row : Enrollment) : Enrollment :=
  { row with
    identityID := new.identityID
    secretCiphertext := new.secretCiphertext
    expiresAt := new.expiresAt }

/-- `DO UPDATE SET` clause of `UpsertTOTPFactor`. -/
def TOTPFactor.assign (new row : TOTPFactor) : TOTPFactor :=
  { row with
    secretCiphertext := new.secretCiphertext
    enrolledAt := new.enrolledAt
    lastUsedAt := new.lastUsedAt
    updatedAt := new.updatedAt }

def TOTPFactor.assignUsed (usedAt : Time) (row : TOTPFactor) : TOTPFactor :=
  { row with lastUsedAt := some usedAt, updatedAt := usedAt }

def BackupCode.assignUsed (usedAt : Time) (row : BackupCode) : BackupCode :=
  { row with usedAt := some usedAt }

def TrustedDevice.assignTouched (touchedAt : Time) (row : TrustedDevice) : TrustedDevice :=
  { row with lastUsedAt := some touchedAt }

def TrustedDevice.assignRevoked (revokedAt : Time) (row : TrustedDevice) : TrustedDevice :=
  { row with revokedAt := some revokedAt }

section Keys

theorem Enrollment.id_assign (new row : Enrollment) : (new.assign row).id = row.id := rfl

theorem TOTPFactor.identityID_assign (new row : TOTPFactor) :
    (new.assign row).identityID = row.identityID := rfl

theorem TOTPFactor.identityID_assignUsed (usedAt : Time) (row : TOTPFactor) :
    (row.assignUsed usedAt).identityID = row.identityID := rfl

theorem BackupCode.id_assignUsed (usedAt : Time) (row : BackupCode) :
    (row.assignUsed usedAt).id = row.id := rfl

theorem TrustedDevice.id_assignTouched (touchedAt : Time) (row : TrustedDevice) :
    (row.assignTouched touchedAt).id = row.id := rfl

theorem TrustedDevice.id_assignRevoked (revokedAt : Time) (row : TrustedDevice) :
    (row.assignRevoked revokedAt).id = row.id := rfl

end Keys

/-- `WHERE` clause of `MarkBackupCodeUsed`. -/
def BackupCode.markable (identityID id : String) (row : BackupCode) : Bool :=
  row.identityID = identityID && row.id = id && row.usedAt.isNone

/-- `WHERE` clause of the updates of one device. -/
def TrustedDevice.selected (identityID id : String) (row : TrustedDevice) : Bool :=
  row.identityID = identityID && row.id = id && row.revokedAt.isNone

/-- `INSERT ... ON CONFLICT (key) DO UPDATE SET ...`. -/
def upserted {α κ : Type} {key : α → κ} [DecidableEq κ] (table : Table key)
    (row : α) (assign : α → α) (hkey : ∀ old, key (assign old) = key old) : Table key :=
  (table.insert? row).getD
    (table.updateWhere (fun old => key old = key row) assign hkey)

/-- A row after an upsert: untouched under another key, new where the key was
free, or the assigned version of the row that had the key. -/
theorem mem_upserted {α κ : Type} {key : α → κ} [DecidableEq κ] {table : Table key}
    {new : α} {assign : α → α} {hkey : ∀ old, key (assign old) = key old} {row : α}
    (hrow : row ∈ (upserted table new assign hkey).rows) :
    (row ∈ table.rows ∧ key row ≠ key new) ∨
      (row = new ∧ ∀ old ∈ table.rows, key old ≠ key new) ∨
        ∃ old ∈ table.rows, key old = key new ∧ row = assign old := by
  unfold upserted at hrow
  cases hinsert : table.insert? new with
  | some next =>
      obtain ⟨hfree, hrows⟩ := (table.insert?_eq_some_iff next new).mp hinsert
      rw [hinsert, Option.getD_some, hrows, List.mem_append, List.mem_singleton] at hrow
      rcases hrow with hold | rfl
      · exact Or.inl ⟨hold, hfree row hold⟩
      · exact Or.inr (Or.inl ⟨rfl, hfree⟩)
  | none =>
      rw [hinsert, Option.getD_none, Table.updateWhere_rows, List.mem_map] at hrow
      obtain ⟨old, hold, rfl⟩ := hrow
      by_cases hsame : key old = key new
      · rw [if_pos (decide_eq_true hsame)]
        exact Or.inr (Or.inr ⟨old, hold, hsame, rfl⟩)
      · rw [if_neg (by simpa using hsame)]
        exact Or.inl ⟨hold, hsame⟩

section Reply

variable (choice : Choice) (db : Database)

/-- A statement's answer unless the connection fails. -/
def answer {α : Type} (value : α) : Except DBError α :=
  if choice.fails then .error .failed else .ok value

/-- `ORDER BY created_at ASC`. -/
def listedBackupCodes (identityID : String) : List BackupCode :=
  (db.backupCodes.rows.filter (·.identityID = identityID)).insertionSort
    fun a b => a.createdAt < b.createdAt ∨ a.createdAt = b.createdAt ∧
      choice.tiebreak a.id ≤ choice.tiebreak b.id

/-- `ORDER BY created_at DESC LIMIT 1`. -/
def latestDevice (identityID tokenHash tokenPrefix : String) : Option TrustedDevice :=
  ((db.trustedDevices.rows.filter fun row =>
    row.identityID = identityID && row.tokenHash = tokenHash &&
      row.tokenPrefix = tokenPrefix && row.revokedAt.isNone).insertionSort
    fun a b => b.createdAt < a.createdAt ∨ a.createdAt = b.createdAt ∧
      choice.tiebreak a.id ≤ choice.tiebreak b.id).head?

def reply : (c : Call) → Reply c
  | .clock => choice.now
  | .randomBytes length =>
      match choice.entropy with
      | none => .error ()
      | some bytes => .ok (drawBytes length bytes)
  | .newUUID => choice.uuid
  | .upsertEnrollment _ => answer choice ()
  | .selectEnrollment id => answer choice (db.enrollments.find? id)
  | .deleteEnrollment id => answer choice (db.enrollments.affected (·.id = id))
  | .upsertTOTPFactor _ => answer choice ()
  | .selectTOTPFactor identityID =>
      answer choice (db.totpFactors.find? identityID)
  | .updateTOTPLastUsed identityID _ =>
      answer choice (db.totpFactors.affected (·.identityID = identityID))
  | .beginTx => answer choice ()
  | .deleteInTx relation identityID =>
      answer choice (db.keysOf identityID relation)
  | .insertCodeInTx tx row =>
      if choice.fails then .error .failed
      else if ((tx.insert row).codesAfter db).isSome then .ok ()
      else .error .uniqueViolation
  | .commit tx =>
      -- A code that someone else has inserted since is found at the latest here.
      if choice.fails then .error .failed
      else if (tx.apply db).isSome then .ok ()
      else .error .uniqueViolation
  | .rollback => answer choice ()
  | .selectBackupCodes identityID =>
      answer choice (listedBackupCodes choice db identityID)
  | .updateBackupCodeUsed identityID id _ =>
      answer choice (db.backupCodes.affected (BackupCode.markable identityID id))
  | .insertTrustedDevice row =>
      if choice.fails then .error .failed
      else if (db.trustedDevices.insert? row).isSome then .ok ()
      else .error .uniqueViolation
  | .selectTrustedDevice identityID tokenHash tokenPrefix =>
      answer choice (latestDevice choice db identityID tokenHash tokenPrefix)
  | .updateDeviceTouched identityID id _ =>
      answer choice
        (db.trustedDevices.affected (TrustedDevice.selected identityID id))
  | .updateDeviceRevoked identityID id _ =>
      answer choice
        (db.trustedDevices.affected (TrustedDevice.selected identityID id))
  | .selectFactors identityID =>
      answer choice (db.totpFactors.rows.filter (·.identityID = identityID))

end Reply

/-- What an acknowledged call does to the tables. -/
def effect (call : Called Reply) (db : Database) : Database :=
  match call with
  | ⟨.upsertEnrollment row, .ok _⟩ =>
      { db with
        enrollments := upserted db.enrollments row row.assign row.id_assign }
  | ⟨.deleteEnrollment id, reply⟩ =>
      { db with enrollments := deleted reply db.enrollments (·.id = id) }
  | ⟨.upsertTOTPFactor row, .ok _⟩ =>
      { db with
        totpFactors :=
          upserted db.totpFactors row row.assign row.identityID_assign }
  | ⟨.updateTOTPLastUsed identityID usedAt, reply⟩ =>
      { db with
        totpFactors := updated reply db.totpFactors (·.identityID = identityID)
          (TOTPFactor.assignUsed usedAt) (TOTPFactor.identityID_assignUsed usedAt) }
  | ⟨.commit tx, .ok _⟩ => (tx.apply db).getD db
  | ⟨.updateBackupCodeUsed identityID id usedAt, reply⟩ =>
      { db with
        backupCodes := updated reply db.backupCodes
          (BackupCode.markable identityID id) (BackupCode.assignUsed usedAt)
          (BackupCode.id_assignUsed usedAt) }
  | ⟨.insertTrustedDevice row, reply⟩ =>
      { db with trustedDevices := inserted reply db.trustedDevices row }
  | ⟨.updateDeviceTouched identityID id touchedAt, reply⟩ =>
      { db with
        trustedDevices := updated reply db.trustedDevices
          (TrustedDevice.selected identityID id)
          (TrustedDevice.assignTouched touchedAt)
          (TrustedDevice.id_assignTouched touchedAt) }
  | ⟨.updateDeviceRevoked identityID id revokedAt, reply⟩ =>
      { db with
        trustedDevices := updated reply db.trustedDevices
          (TrustedDevice.selected identityID id)
          (TrustedDevice.assignRevoked revokedAt)
          (TrustedDevice.id_assignRevoked revokedAt) }
  | _ => db

def perform (choice : Choice) (c : Call) (db : Database) : Reply c × Database :=
  (reply choice db c, effect ⟨c, reply choice db c⟩ db)

end Aegion.MFA
