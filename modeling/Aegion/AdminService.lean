/-
Operators and roles of the admin module: the two tables, the store's
statements, and the service methods that create and change operators and roles.
-/
import Aegion.AdminCapability
import Aegion.OAuthDatabase

namespace Aegion.Admin

open Go Service
open OAuth (Time DBError)

/-- A row of `adm_operators`. -/
structure Operator where
  id : UUID
  identityID : UUID
  role : String
  permissions : Overrides
  createdAt : Time
  updatedAt : Time

/-- A row of `adm_roles`. -/
structure Role where
  id : UUID
  name : String
  description : String
  permissions : List String
  isSystem : Bool
  createdAt : Time
  updatedAt : Time

structure Database where
  operators : Table Operator.id
  roles : Table Role.id

/-- What an audit entry says about a change; nothing reads it back. -/
structure AuditEntry where
  operatorID : UUID
  action : String
  resourceType : String
  resourceID : UUID
deriving Repr, DecidableEq

inductive Call where
  | clock
  | newUUID
  | selectOperator (id : UUID)
  | insertOperator (row : Operator)
  | updateOperator (id : UUID) (role : String) (permissions : Overrides)
  | selectRoleByName (name : String)
  | insertRole (row : Role)
  | selectRoleIsSystem (id : UUID)
  | updateRole (row : Role)
  | insertAuditLog (entry : AuditEntry)

abbrev Reply : Call → Type
  | .clock => Time
  | .newUUID => UUID
  | .selectOperator _ => Except DBError (Option Operator)
  | .insertOperator _ => Except DBError Unit
  | .updateOperator .. => Except DBError Nat
  | .selectRoleByName _ => Except DBError (Option Role)
  | .insertRole _ => Except DBError Unit
  | .selectRoleIsSystem _ => Except DBError (Option Bool)
  | .updateRole _ => Except DBError Nat
  | .insertAuditLog _ => Except DBError Unit

/-- What the tables leave open. -/
structure Choice where
  now : Time
  uuid : UUID
  fails : Bool

/-- `SET` clause of `UpdateOperator`. -/
def Operator.assign (role : String) (permissions : Overrides) (now : Time)
    (row : Operator) : Operator :=
  { row with role := role, permissions := permissions, updatedAt := now }

theorem Operator.id_assign (role : String) (permissions : Overrides) (now : Time) (row : Operator) :
    (row.assign role permissions now).id = row.id := rfl

/-- `SET` clause of `UpdateRole`. -/
def Role.assign (new : Role) (now : Time) (row : Role) : Role :=
  { row with
    name := new.name
    description := new.description
    permissions := new.permissions
    updatedAt := now }

theorem Role.id_assign (new : Role) (now : Time) (row : Role) :
    (new.assign now row).id = row.id := rfl

/-- `SELECT ... FROM adm_roles WHERE name = $1`. -/
def Database.roleByName (db : Database) (name : String) : Option Role :=
  db.roles.rows.find? fun row => decide (row.name = name)

/-- An insert into a table with a second unique column. -/
def insertUnique {α κ : Type} {key : α → κ} [DecidableEq κ] (table : Table key)
    (clash : α → Bool) (row : α) : Option (Table key) :=
  if table.rows.any clash then none else table.insert? row

/-- Execute one call. -/
def perform (choice : Choice) : (c : Call) → Database → Reply c × Database
  | .clock, db => (choice.now, db)
  | .newUUID, db => (choice.uuid, db)
  | .selectOperator id, db =>
      if choice.fails then (.error .failed, db)
      else (.ok (db.operators.find? id), db)
  | .insertOperator row, db =>
      if choice.fails then (.error .failed, db)
      else
        match insertUnique db.operators (·.identityID = row.identityID) row with
        | none => (.error .uniqueViolation, db)
        | some operators => (.ok (), { db with operators := operators })
  | .updateOperator id role permissions, db =>
      if choice.fails then (.error .failed, db)
      else
        (.ok (db.operators.affected (·.id = id)),
          { db with
            operators := db.operators.updateWhere (·.id = id)
              (Operator.assign role permissions choice.now)
              (Operator.id_assign role permissions choice.now) })
  | .selectRoleByName name, db =>
      if choice.fails then (.error .failed, db) else (.ok (db.roleByName name), db)
  | .insertRole row, db =>
      if choice.fails then (.error .failed, db)
      else
        match insertUnique db.roles (·.name = row.name) row with
        | none => (.error .uniqueViolation, db)
        | some roles => (.ok (), { db with roles := roles })
  | .selectRoleIsSystem id, db =>
      if choice.fails then (.error .failed, db)
      else (.ok ((db.roles.find? id).map (·.isSystem)), db)
  | .updateRole new, db =>
      if choice.fails then (.error .failed, db)
      -- The new name may belong to another row.
      else if db.roles.rows.any fun row => row.name = new.name && row.id ≠ new.id
      then (.error .uniqueViolation, db)
      else
        (.ok (db.roles.affected fun row => row.id = new.id && !row.isSystem),
          { db with
            roles := db.roles.updateWhere
              (fun row => row.id = new.id && !row.isSystem)
              (new.assign choice.now) (Role.id_assign new choice.now) })
  | .insertAuditLog _, db =>
      if choice.fails then (.error .failed, db) else (.ok (), db)

inductive StoreError where
  | operatorNotFound
  | roleNotFound
  | duplicateOperator
  | duplicateRole
  | systemRole
  | database
deriving Repr, DecidableEq

inductive AdminError where
  | unauthorized
  | permissionDenied
  | invalidRole
  | invalidRoleName
  | invalidPermission
  | selfDemotion
  | store (e : StoreError)
deriving Repr, DecidableEq

/-- `QueryRow(...).Scan(...)`: no row is the error `missing`. -/
def scanRow {α : Type} (missing : StoreError) :
    Except DBError (Option α) → Except StoreError α
  | .ok (some row) => .ok row
  | .ok none => .error missing
  | .error _ => .error .database

/-- `Exec(...)` with `isDuplicateKeyError` told apart. -/
def execUnique (duplicate : StoreError) :
    Except DBError Unit → Except StoreError Unit
  | .ok _ => .ok ()
  | .error .uniqueViolation => .error duplicate
  | .error .failed => .error .database

def getOperator (id : UUID) : Service Reply StoreError Operator :=
  statement (.selectOperator id) (scanRow .operatorNotFound)

def storeCreateOperator (op : Operator) : Service Reply StoreError Unit :=
  statement (.insertOperator op) (execUnique .duplicateOperator)

def storeUpdateOperator (op : Operator) : Service Reply StoreError Unit :=
  statement (.updateOperator op.id op.role op.permissions) fun
    | .ok 0 => .error .operatorNotFound
    | .ok (_ + 1) => .ok ()
    | .error _ => .error .database

def getRoleByName (name : String) : Service Reply StoreError Role :=
  statement (.selectRoleByName name) (scanRow .roleNotFound)

def storeCreateRole (role : Role) : Service Reply StoreError Unit :=
  statement (.insertRole role) (execUnique .duplicateRole)

def storeUpdateRole (role : Role) : Service Reply StoreError Unit := do
  let isSystem ← statement (.selectRoleIsSystem role.id) (scanRow .roleNotFound)
  rejectIf (isSystem = true) .systemRole
  statement (.updateRole role) fun
    | .ok 0 => .error .roleNotFound
    | .ok (_ + 1) => .ok ()
    | .error .uniqueViolation => .error .duplicateRole
    | .error .failed => .error .database

def now {ε : Type} : Service Reply ε Time := statement .clock .ok

def newUUID {ε : Type} : Service Reply ε UUID := statement .newUUID .ok

/-- `logAction` is best-effort: its error is dropped. -/
def logAction (operatorID : UUID) (action resourceType : String)
    (resourceID : UUID) : Service Reply AdminError Unit :=
  statement (.insertAuditLog ⟨operatorID, action, resourceType, resourceID⟩)
    fun _ => .ok ()

/-- `^[a-z][a-z0-9_]{2,31}$`. -/
def roleNamePattern (name : String) : Bool :=
  match name.toList with
  | [] => false
  | first :: rest =>
      first.isLower && 2 ≤ rest.length && rest.length ≤ 31 &&
        rest.all fun c => c.isLower || c.isDigit || c = '_'

/-- `SystemRoles`. -/
def systemRoles : List String := ["super_admin", "admin", "operator", "viewer"]

variable (tables : CaseTables)

/-- `strings.TrimSpace(strings.ToLower(name))`. -/
def roleName (name : String) : String := trimSpace (tables.toLower name)

def normalizeRoleName (name : String) : Except AdminError String :=
  if roleNamePattern (roleName tables name) then .ok (roleName tables name)
  else .error .invalidRoleName

/-- The loop of `normalizePermissions`; `out` also serves as `seen`. -/
def collectPermissions (out : List String) :
    List String → Except AdminError (List String)
  | [] => .ok out
  | permission :: rest =>
      let p := trimSpace permission
      if !isValidPermission p then .error .invalidPermission
      else if p ∈ out then collectPermissions out rest
      else collectPermissions (out ++ [p]) rest

def normalizePermissions (permissions : List String) : Except AdminError (List String) :=
  (collectPermissions [] permissions).map fun out =>
    out.mergeSort fun a b => decide (a ≤ b)

def validatePermissionOverrides (overrides : Overrides) : Except AdminError Unit :=
  if overrides.rows.all fun entry =>
      isValidPermission entry.1 && entry.2 ≠ .other then .ok ()
  else .error .invalidPermission

def requireExistingRole (role : String) : Service Reply AdminError String := do
  let normalizedRole ← ofExcept (normalizeRoleName tables role)
  let _ ← (getRoleByName normalizedRole).orReject fun
    | .roleNotFound => .invalidRole
    | e => .store e
  pure normalizedRole

/-- `hasPermission`: the role is read only if the overrides leave it open, and
an error of that read falls back to the default permissions. -/
def hasPermission (role : String) (overrides : Overrides)
    (permission : String) : Service Reply AdminError Bool :=
  match overrideDecision overrides permission with
  | some granted => pure granted
  | none => do
      let stored ← attempt (getRoleByName role)
      let rolePerms := match stored with
        | .ok row => row.permissions
        | .error _ => defaultRolePermissions role
      pure (grantedBy rolePerms overrides permission)

def evaluateCapability (operatorID : UUID) (permission : String) :
    Service Reply AdminError Unit := do
  let op ← (getOperator operatorID).orReject fun _ => .unauthorized
  let granted ← hasPermission op.role op.permissions permission
  rejectIf (granted = false) .permissionDenied

/-- `actor.Role != "super_admin"` is a refusal. -/
def requireSuperAdmin (actorID : UUID) : Service Reply AdminError Unit := do
  let actor ← (getOperator actorID).orReject .store
  rejectIf (actor.role ≠ "super_admin") .permissionDenied

/-- `if c { body }`. -/
def when {ε : Type} (c : Prop) [Decidable c] (body : Service Reply ε Unit) : Service Reply ε Unit :=
  if c then body else pure ()

def createOperator (actorID identityID : UUID) (role : String)
    (permissions : Option Overrides) : Service Reply AdminError Operator := do
  let normalizedRole ←
    (requireExistingRole tables role).orReject fun _ => .invalidRole
  evaluateCapability actorID permOperatorsCreate
  when (normalizedRole = "super_admin") (requireSuperAdmin actorID)
  let permissions := permissions.getD Table.empty
  ofExcept (validatePermissionOverrides permissions)
  let id ← newUUID
  let createdAt ← now
  let updatedAt ← now
  let op : Operator :=
    { id := id
      identityID := identityID
      role := normalizedRole
      permissions := permissions
      createdAt := createdAt
      updatedAt := updatedAt }
  (storeCreateOperator op).orReject .store
  logAction actorID "create" "operator" op.id
  pure op

/-- `normalizedRole` of `UpdateOperator`: no role is the empty string. -/
def requestedRole (role : String) : Service Reply AdminError String :=
  if role = "" then pure ""
  else (requireExistingRole tables role).orReject fun _ => .invalidRole

def updateOperator (actorID operatorID : UUID) (role : String)
    (permissions : Option Overrides) : Service Reply AdminError Operator := do
  evaluateCapability actorID permOperatorsUpdate
  let normalizedRole ← requestedRole tables role
  when (actorID = operatorID ∧ normalizedRole ≠ "") do
    let actor ← (getOperator actorID).orReject .store
    rejectIf (actor.role = "super_admin" ∧ normalizedRole ≠ "super_admin")
      .selfDemotion
  ofExcept (permissions.elim (.ok ()) validatePermissionOverrides)
  let op ← (getOperator operatorID).orReject .store
  when (op.role = "super_admin" ∨ normalizedRole = "super_admin")
    (requireSuperAdmin actorID)
  let updatedAt ← now
  let op : Operator :=
    { op with
      role := if normalizedRole = "" then op.role else normalizedRole
      permissions := permissions.getD op.permissions
      updatedAt := updatedAt }
  (storeUpdateOperator op).orReject .store
  logAction actorID "update" "operator" op.id
  pure op

def createRole (actorID : UUID) (name description : String)
    (permissions : List String) : Service Reply AdminError Role := do
  evaluateCapability actorID permRolesCreate
  let normalizedName ← ofExcept (normalizeRoleName tables name)
  rejectIf (normalizedName ∈ systemRoles) .permissionDenied
  let normalizedPerms ← ofExcept (normalizePermissions permissions)
  let id ← newUUID
  let createdAt ← now
  let updatedAt ← now
  let role : Role :=
    { id := id
      name := normalizedName
      description := trimSpace description
      permissions := normalizedPerms
      isSystem := false
      createdAt := createdAt
      updatedAt := updatedAt }
  (storeCreateRole role).orReject .store
  logAction actorID "create" "role" role.id
  pure role

def updateRole (actorID : UUID) (name : String) (description : Option String)
    (permissions : Option (List String)) : Service Reply AdminError Role := do
  evaluateCapability actorID permRolesUpdate
  let normalizedName ← ofExcept (normalizeRoleName tables name)
  let role ← (getRoleByName normalizedName).orReject .store
  rejectIf (role.isSystem = true) .permissionDenied
  let rolePerms ←
    ofExcept (permissions.elim (.ok role.permissions) normalizePermissions)
  let updatedAt ← now
  let role : Role :=
    { role with
      description := (description.map trimSpace).getD role.description
      permissions := rolePerms
      updatedAt := updatedAt }
  (storeUpdateRole role).orReject fun
    | .systemRole => .permissionDenied
    | e => .store e
  logAction actorID "update" "role" role.id
  pure role

/-- The calls that hand out permissions. -/
inductive Request where
  | createOperator (actorID identityID : UUID) (role : String)
      (permissions : Option Overrides)
  | updateOperator (actorID operatorID : UUID) (role : String)
      (permissions : Option Overrides)
  | createRole (actorID : UUID) (name description : String)
      (permissions : List String)
  | updateRole (actorID : UUID) (name : String) (description : Option String)
      (permissions : Option (List String))

def Request.actorID : Request → UUID
  | .createOperator actorID .. => actorID
  | .updateOperator actorID .. => actorID
  | .createRole actorID .. => actorID
  | .updateRole actorID .. => actorID

inductive Response where
  | operator (op : Operator)
  | role (role : Role)

def serve : Request → Service Reply AdminError Response
  | .createOperator actorID identityID role permissions => do
      let op ← createOperator tables actorID identityID role permissions
      pure (.operator op)
  | .updateOperator actorID operatorID role permissions => do
      let op ← updateOperator tables actorID operatorID role permissions
      pure (.operator op)
  | .createRole actorID name description permissions => do
      let role ← createRole tables actorID name description permissions
      pure (.role role)
  | .updateRole actorID name description permissions => do
      let role ← updateRole tables actorID name description permissions
      pure (.role role)

end Aegion.Admin
