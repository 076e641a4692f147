/-
What the admin calls that hand out permissions really hand out.  Neither the
overrides nor the role of a request are compared with the actor's own
permissions, so a call spreads no new permission exactly where the request
happens to stay within them.
-/
import Aegion.AdminService
import Aegion.CallTriples

namespace Aegion.Admin

open Go Service

/-- The permissions `hasPermission` finds for a role name. -/
def rolePermissions (db : Database) (role : String) : List String :=
  match db.roleByName role with
  | some row => row.permissions
  | none => defaultRolePermissions role

/-- The operator holds the permission in these tables. -/
def holds (db : Database) (op : Operator) (permission : String) : Bool :=
  permits (rolePermissions db op.role) op.permissions permission

/-- Every permission held after the call was held by the same operator before
it, or is held by the actor. -/
def NothingGained (db db' : Database) (actor : Operator) : Prop :=
  ∀ row ∈ db'.operators.rows, ∀ p, holds db' row p = true →
    (∃ old ∈ db.operators.rows, old.id = row.id ∧ holds db old p = true) ∨
      holds db actor p = true

/-- The role and the overrides the request names confer nothing beyond what
the operators concerned or the actor have. -/
def Covered (tables : CaseTables) (db : Database) (actor : Operator) :
    Request → Prop
  | .createOperator _ _ role permissions =>
      ∀ p, permits (rolePermissions db (roleName tables role))
        (permissions.getD Table.empty) p = true → holds db actor p = true
  | .updateOperator _ operatorID role permissions =>
      ∀ target, db.operators.find? operatorID = some target → ∀ p,
        permits (rolePermissions db
            (if role = "" then target.role else roleName tables role))
          (permissions.getD target.permissions) p = true →
        holds db target p = true ∨ holds db actor p = true
  | .createRole _ name _ permissions
  | .updateRole _ name _ (some permissions) =>
      ∀ op ∈ db.operators.rows, op.role = roleName tables name → ∀ p,
        permits (permissions.map trimSpace) op.permissions p = true →
          holds db op p = true ∨ holds db actor p = true
  | .updateRole _ _ _ none => True

section Reads

/-- Calls that leave the tables alone. -/
def Reads (call : Called Reply) : Prop :=
  match call.1 with
  | .insertOperator _ => False
  | .updateOperator .. => False
  | .insertRole _ => False
  | .updateRole _ => False
  | _ => True

theorem perform_of_reads (choice : Choice) (c : Call) (db : Database)
    (hreads : Reads ⟨c, (perform choice c db).1⟩) : (perform choice c db).2 = db := by
  cases c with
  | insertOperator row => exact hreads.elim
  | updateOperator id role permissions => exact hreads.elim
  | insertRole row => exact hreads.elim
  | updateRole row => exact hreads.elim
  | clock => rfl
  | newUUID => rfl
  | selectOperator id =>
      simp only [perform]
      split <;> rfl
  | selectRoleByName name =>
      simp only [perform]
      split <;> rfl
  | selectRoleIsSystem id =>
      simp only [perform]
      split <;> rfl
  | insertAuditLog entry =>
      simp only [perform]
      split <;> rfl

variable {tables : CaseTables} {db : Database}

theorem only_getOperator {id : UUID} : (getOperator id).Only Reads :=
  only_statement fun _ => trivial

theorem only_getRoleByName {name : String} : (getRoleByName name).Only Reads :=
  only_statement fun _ => trivial

theorem only_hasPermission {role : String} {overrides : Overrides} {permission : String} :
    (hasPermission role overrides permission).Only Reads := by
  unfold hasPermission
  split
  · exact only_succeed
  · exact only_getRoleByName.attempt.bind fun _ => only_succeed

theorem only_evaluateCapability {operatorID : UUID} {permission : String} :
    (evaluateCapability operatorID permission).Only Reads :=
  only_getOperator.orReject.bind fun _ =>
    only_hasPermission.bind fun _ => only_rejectIf

theorem only_requireExistingRole {role : String} :
    (requireExistingRole tables role).Only Reads := by
  unfold requireExistingRole
  simp only [bind_eq, pure_eq]
  refine only_ofExcept.bind fun _ => ?_
  exact only_getRoleByName.orReject.bind fun _ => only_succeed

theorem only_requireSuperAdmin {actorID : UUID} : (requireSuperAdmin actorID).Only Reads :=
  only_getOperator.orReject.bind fun _ => only_rejectIf

theorem only_when {c : Prop} [Decidable c] {body : Service Reply AdminError Unit}
    (hbody : body.Only Reads) : (when c body).Only Reads := by
  unfold when
  split
  · exact hbody
  · exact only_succeed

theorem ensures_of_reads {α ε : Type} {x : Service Reply ε α}
    {post : α → Database → Prop} (honly : x.Only Reads)
    (hpost : ∀ value, post value db) : x.Ensures perform post db :=
  honly.ensures_unchanged perform_of_reads hpost

theorem ensures_getOperator {id : UUID} {post : Operator → Database → Prop}
    (hpost : ∀ op, db.operators.find? id = some op → post op db) :
    (getOperator id).Ensures perform post db := by
  rw [getOperator, ensures_statement]
  intro choice op hread
  rw [perform_of_reads choice (.selectOperator id) db trivial]
  refine hpost op ?_
  by_cases hfails : choice.fails = true
  · simp [perform, hfails, scanRow] at hread
  · cases hfind : db.operators.find? id with
    | none => simp [perform, hfails, hfind, scanRow] at hread
    | some row =>
        simp only [perform, hfails, hfind, scanRow] at hread
        simpa using hread

theorem ensures_getRoleByName {name : String} {post : Role → Database → Prop}
    (hpost : ∀ role, db.roleByName name = some role → post role db) :
    (getRoleByName name).Ensures perform post db := by
  rw [getRoleByName, ensures_statement]
  intro choice role hread
  rw [perform_of_reads choice (.selectRoleByName name) db trivial]
  refine hpost role ?_
  by_cases hfails : choice.fails = true
  · simp [perform, hfails, scanRow] at hread
  · cases hfind : db.roleByName name with
    | none => simp [perform, hfails, hfind, scanRow] at hread
    | some row =>
        simp only [perform, hfails, hfind, scanRow] at hread
        simpa using hread

theorem normalizeRoleName_eq_ok {name normalized : String}
    (hname : normalizeRoleName tables name = .ok normalized) :
    roleName tables name = normalized ∧ normalized ≠ "" := by
  unfold normalizeRoleName at hname
  split at hname
  · rename_i hpattern
    have heq := Except.ok.inj hname
    refine ⟨heq, fun hempty => ?_⟩
    rw [heq, hempty] at hpattern
    cases hpattern
  · exact nomatch hname

theorem ensures_requireExistingRole {role : String} {post : String → Database → Prop}
    (hpost : roleName tables role ≠ "" → post (roleName tables role) db) :
    (requireExistingRole tables role).Ensures perform post db := by
  simp only [requireExistingRole, bind_eq, ensures_bind, ensures_ofExcept, ensures_orReject]
  intro name hname
  refine ensures_of_reads only_getRoleByName fun _ => ?_
  simp only [pure_eq, ensures_succeed]
  obtain ⟨heq, hne⟩ := normalizeRoleName_eq_ok hname
  rw [← heq] at hne ⊢
  exact hpost hne

end Reads

section Permissions

/-- The loop keeps what it has and adds the trimmed permissions. -/
theorem mem_collectPermissions {permissions : List String} {out result : List String}
    (hcollect : collectPermissions out permissions = .ok result) (p : String) :
    p ∈ result ↔ p ∈ out ∨ p ∈ permissions.map trimSpace := by
  induction permissions generalizing out with
  | nil =>
      cases hcollect
      simp
  | cons permission rest ih =>
      simp only [collectPermissions] at hcollect
      split at hcollect
      · cases hcollect
      · split at hcollect
        · rename_i hseen
          rw [ih hcollect, List.map_cons, List.mem_cons]
          constructor
          · rintro (hout | hrest)
            · exact Or.inl hout
            · exact Or.inr (Or.inr hrest)
          · rintro (hout | rfl | hrest)
            · exact Or.inl hout
            · exact Or.inl hseen
            · exact Or.inr hrest
        · rw [ih hcollect]
          simp [or_assoc]

theorem mem_normalizePermissions {permissions result : List String}
    (hnormalize : normalizePermissions permissions = .ok result) (p : String) :
    p ∈ result ↔ p ∈ permissions.map trimSpace := by
  unfold normalizePermissions at hnormalize
  cases hcollect : collectPermissions [] permissions with
  | error e =>
      rw [hcollect] at hnormalize
      cases hnormalize
  | ok out =>
      rw [hcollect] at hnormalize
      rw [← Except.ok.inj hnormalize, List.mem_mergeSort, mem_collectPermissions hcollect]
      simp

end Permissions

section Gain

variable {db db' : Database} {actor : Operator}

theorem rolePermissions_congr (hroles : db'.roles = db.roles) (role : String) :
    rolePermissions db' role = rolePermissions db role := by
  simp only [rolePermissions, Database.roleByName, hroles]

/-- The one row with a given id. -/
theorem exists_held_iff {op : Operator} (hop : op ∈ db.operators.rows) {p : String} :
    (∃ old ∈ db.operators.rows, old.id = op.id ∧ holds db old p = true) ↔ holds db op p = true := by
  constructor
  · rintro ⟨old, hold, hid, hheld⟩
    rwa [db.operators.row_eq_of_key_eq hold hop hid] at hheld
  · intro hheld
    exact ⟨op, hop, rfl, hheld⟩

/-- A new operator gains what its role and overrides confer. -/
theorem nothingGained_added_iff {new : Operator} (hroles : db'.roles = db.roles)
    (hfresh : ∀ old ∈ db.operators.rows, old.id ≠ new.id)
    (hrows : db'.operators.rows = db.operators.rows ++ [new]) :
    NothingGained db db' actor ↔
      ∀ p, permits (rolePermissions db new.role) new.permissions p = true →
        holds db actor p = true := by
  have hsame : ∀ row p, holds db' row p = holds db row p := by
    intro row p
    simp only [holds, rolePermissions_congr hroles]
  simp only [NothingGained, hsame, hrows, List.mem_append, List.mem_singleton]
  constructor
  · intro hnothing p hpermits
    rcases hnothing new (Or.inr rfl) p hpermits with ⟨old, hold, hid, -⟩ | hactor
    · exact absurd hid (hfresh old hold)
    · exact hactor
  · rintro hcovered row (hold | rfl) p hheld
    · exact Or.inl ⟨row, hold, rfl, hheld⟩
    · exact Or.inr (hcovered p hheld)

/-- An updated operator gains what its new role and overrides confer. -/
theorem nothingGained_updated_iff {target : Operator} {role : String}
    {permissions : Overrides} {now : OAuth.Time}
    (hroles : db'.roles = db.roles) (htarget : target ∈ db.operators.rows)
    (hrows : db'.operators.rows = db.operators.rows.map fun row =>
      if row.id = target.id then row.assign role permissions now else row) :
    NothingGained db db' actor ↔
      ∀ p, permits (rolePermissions db role) permissions p = true →
        holds db target p = true ∨ holds db actor p = true := by
  have hsame : ∀ row p, holds db' row p = holds db row p := by
    intro row p
    simp only [holds, rolePermissions_congr hroles]
  simp only [NothingGained, hsame, hrows, List.mem_map, forall_exists_index,
    and_imp, forall_apply_eq_imp_iff₂]
  constructor
  · intro hnothing p hpermits
    have hrow := hnothing target htarget p
    simp only [↓reduceIte] at hrow
    rw [← exists_held_iff htarget]
    exact hrow hpermits
  · intro hcovered row hrow p hheld
    by_cases hid : row.id = target.id
    · rw [if_pos hid] at hheld ⊢
      rcases hcovered p hheld with hbefore | hactor
      · exact Or.inl ⟨target, htarget, hid.symm, hbefore⟩
      · exact Or.inr hactor
    · rw [if_neg hid] at hheld ⊢
      exact Or.inl ⟨row, hrow, rfl, hheld⟩

/-- The operators of a changed role gain what its permissions confer. -/
theorem nothingGained_role_iff {name : String} {permissions : List String}
    (hoperators : db'.operators = db.operators) (hnamed : rolePermissions db' name = permissions)
    (hother : ∀ role, role ≠ name → rolePermissions db' role = rolePermissions db role) :
    NothingGained db db' actor ↔
      ∀ op ∈ db.operators.rows, op.role = name → ∀ p,
        permits permissions op.permissions p = true →
          holds db op p = true ∨ holds db actor p = true := by
  simp only [NothingGained, hoperators]
  constructor
  · rintro hnothing op hop rfl p hpermits
    rw [← exists_held_iff hop]
    refine hnothing op hop p ?_
    rw [holds, hnamed]
    exact hpermits
  · intro hcovered op hop p hheld
    rw [exists_held_iff hop]
    by_cases hrole : op.role = name
    · refine hcovered op hop hrole p ?_
      rwa [holds, hrole, hnamed] at hheld
    · rw [holds, hother op.role hrole] at hheld
      exact Or.inl hheld

theorem nothingGained_of_same (hoperators : db'.operators = db.operators)
    (hroles : ∀ role, rolePermissions db' role = rolePermissions db role) :
    NothingGained db db' actor := by
  intro row hrow p hheld
  rw [hoperators] at hrow
  rw [holds, hroles] at hheld
  exact Or.inl ⟨row, hrow, rfl, hheld⟩

end Gain

section Writes

variable {tables : CaseTables} {db : Database}

theorem insertUnique_eq_some {α κ : Type} {key : α → κ} [DecidableEq κ]
    {table next : Table key} {clash : α → Bool} {row : α}
    (hinsert : insertUnique table clash row = some next) :
    (∀ old ∈ table.rows, clash old = false) ∧
      (∀ old ∈ table.rows, key old ≠ key row) ∧
        next.rows = table.rows ++ [row] := by
  unfold insertUnique at hinsert
  split at hinsert
  · cases hinsert
  · rename_i hclash
    have hnone : ∀ old ∈ table.rows, clash old = false := by simpa using hclash
    exact ⟨hnone, (table.insert?_eq_some_iff next row).mp hinsert⟩

/-- A stored operator is the last row of its table. -/
theorem ensures_storeCreateOperator {op : Operator} {post : Unit → Database → Prop}
    (hpost : ∀ db' : Database, db'.roles = db.roles → (∀ old ∈ db.operators.rows, old.id ≠ op.id) →
        db'.operators.rows = db.operators.rows ++ [op] → post () db') :
    (storeCreateOperator op).Ensures perform post db := by
  rw [storeCreateOperator, ensures_statement]
  intro choice _ hexec
  by_cases hfails : choice.fails = true
  · simp [perform, hfails, execUnique] at hexec
  · cases hinsert : insertUnique db.operators (·.identityID = op.identityID) op with
    | none => simp [perform, hfails, hinsert, execUnique] at hexec
    | some operators =>
        obtain ⟨-, hfresh, hrows⟩ := insertUnique_eq_some hinsert
        simp only [perform, hfails, hinsert, Bool.false_eq_true, ↓reduceIte]
        exact hpost { db with operators := operators } rfl hfresh hrows

theorem ensures_storeUpdateOperator {op : Operator} {post : Unit → Database → Prop}
    (hpost : ∀ (db' : Database) (now : OAuth.Time), db'.roles = db.roles →
      db'.operators.rows = (db.operators.rows.map fun row =>
        if row.id = op.id then row.assign op.role op.permissions now else row) →
          post () db') :
    (storeUpdateOperator op).Ensures perform post db := by
  rw [storeUpdateOperator, ensures_statement]
  intro choice _ hexec
  by_cases hfails : choice.fails = true
  · simp [perform, hfails] at hexec
  · simp only [perform, hfails, Bool.false_eq_true, ↓reduceIte]
    refine hpost _ choice.now rfl ?_
    simp only [Table.updateWhere_rows, decide_eq_true_eq]

/-- A stored role has a new name and answers to it. -/
theorem ensures_storeCreateRole {role : Role} {post : Unit → Database → Prop}
    (hpost : ∀ db' : Database, db'.operators = db.operators →
      rolePermissions db' role.name = role.permissions → (∀ name, name ≠ role.name →
          rolePermissions db' name = rolePermissions db name) → post () db') :
    (storeCreateRole role).Ensures perform post db := by
  rw [storeCreateRole, ensures_statement]
  intro choice _ hexec
  by_cases hfails : choice.fails = true
  · simp [perform, hfails, execUnique] at hexec
  · cases hinsert : insertUnique db.roles (·.name = role.name) role with
    | none => simp [perform, hfails, hinsert, execUnique] at hexec
    | some roles =>
        obtain ⟨hname, -, hrows⟩ := insertUnique_eq_some hinsert
        have hnone : db.roles.rows.find? (fun row => row.name = role.name) =
            none := by
          rw [List.find?_eq_none]
          intro old hold
          simpa using hname old hold
        simp only [perform, hfails, hinsert, Bool.false_eq_true, ↓reduceIte]
        refine hpost { db with roles := roles } rfl ?_ ?_
        · simp [rolePermissions, Database.roleByName, hrows, hnone]
        · intro name hne
          simp [rolePermissions, Database.roleByName, hrows, Ne.symm hne]

/-- An assignment that keeps the names keeps every other lookup by name. -/
theorem find?_assigned {rows : List Role} {p : Role → Bool} {assign : Role → Role}
    (hname : ∀ row ∈ rows, p row = true → (assign row).name = row.name) (name : String) :
    (rows.map fun row => if p row then assign row else row).find? (fun row => row.name = name) =
      (rows.find? fun row => row.name = name).map fun row => if p row then assign row else row := by
  induction rows with
  | nil => rfl
  | cons row rest ih =>
      have hhead : (if p row then assign row else row).name = row.name := by
        by_cases hp : p row = true
        · rw [if_pos hp]
          exact hname row List.mem_cons_self hp
        · rw [if_neg hp]
      have htail := ih fun other hother =>
        hname other (List.mem_cons_of_mem row hother)
      by_cases hrow : row.name = name
      · simp [hhead, hrow]
      · simpa [List.find?_cons, hhead, hrow] using htail

theorem Database.roleByName_updateWhere (db : Database) (p : Role → Bool)
    (assign : Role → Role) (hkey : ∀ row, (assign row).id = row.id)
    (hname : ∀ row ∈ db.roles.rows, p row = true →
      (assign row).name = row.name) (name : String) :
    ({ db with roles := db.roles.updateWhere p assign hkey } :
        Database).roleByName name =
      (db.roleByName name).map fun row => if p row then assign row else row :=
  find?_assigned hname name

/-- An updated role answers to its name with the new permissions. -/
theorem ensures_storeUpdateRole {role new : Role} {post : Unit → Database → Prop}
    (hrole : db.roleByName role.name = some role)
    (hsystem : role.isSystem = false) (hid : new.id = role.id) (hname : new.name = role.name)
    (hpost : ∀ db' : Database, db'.operators = db.operators →
      rolePermissions db' role.name = new.permissions → (∀ name, name ≠ role.name →
          rolePermissions db' name = rolePermissions db name) → post () db') :
    (storeUpdateRole new).Ensures perform post db := by
  have hmem : role ∈ db.roles.rows := List.mem_of_find?_eq_some hrole
  have hselected : ∀ row ∈ db.roles.rows,
      (row.id = new.id && !row.isSystem) = true → row = role := by
    intro row hrow hp
    simp only [Bool.and_eq_true, decide_eq_true_eq, hid] at hp
    exact db.roles.row_eq_of_key_eq hrow hmem hp.1
  simp only [storeUpdateRole, bind_eq, ensures_bind, ensures_rejectIf]
  refine ensures_of_reads (only_statement fun _ => trivial) fun _ _ => ?_
  rw [ensures_statement]
  intro choice _ hexec
  by_cases hfails : choice.fails = true
  · simp [perform, hfails] at hexec
  · by_cases hclash : (db.roles.rows.any fun row =>
        row.name = new.name && row.id ≠ new.id) = true
    · simp only [perform, hfails, hclash, Bool.false_eq_true, ↓reduceIte] at hexec
      cases hexec
    · simp only [perform, hfails, hclash, Bool.false_eq_true, ↓reduceIte]
      have hfind := db.roleByName_updateWhere
        (fun row => row.id = new.id && !row.isSystem) (new.assign choice.now)
        (Role.id_assign new choice.now) fun row hrow hp => by
          rw [hselected row hrow hp]
          exact hname
      refine hpost _ rfl ?_ ?_
      · rw [rolePermissions, hfind, hrole]
        simp [hid, hsystem, Role.assign]
      · intro name hne
        rw [rolePermissions, hfind, rolePermissions]
        cases hother : db.roleByName name with
        | none => rfl
        | some row =>
            have hrow := List.mem_of_find?_eq_some hother
            have hrowName : row.name = name := by
              simpa using List.find?_some hother
            have hp : ¬ (row.id = new.id && !row.isSystem) = true := by
              intro hp
              rw [hselected row hrow hp] at hrowName
              exact hne hrowName.symm
            simp only [Option.map_some, if_neg hp]

end Writes

section Requests

variable {tables : CaseTables} {db : Database} {actor : Operator}
variable {actorID : UUID}

theorem only_logAction {action resourceType : String} {resourceID : UUID} :
    (logAction actorID action resourceType resourceID).Only Reads :=
  only_statement fun _ => trivial

theorem only_newUUID {ε : Type} : (newUUID : Service Reply ε UUID).Only Reads :=
  only_statement fun _ => trivial

theorem only_now {ε : Type} : (now : Service Reply ε OAuth.Time).Only Reads :=
  only_statement fun _ => trivial

theorem createOperator_ensures (actorID identityID : UUID) (role : String)
    (permissions : Option Overrides) :
    (createOperator tables actorID identityID role permissions).Ensures perform
      (fun _ db' => NothingGained db db' actor ↔ Covered tables db actor
        (.createOperator actorID identityID role permissions)) db := by
  simp only [createOperator, bind_eq, pure_eq, ensures_bind, ensures_orReject,
    ensures_ofExcept, ensures_succeed]
  refine ensures_requireExistingRole fun _ => ?_
  refine ensures_of_reads only_evaluateCapability fun _ => ?_
  refine ensures_of_reads (only_when only_requireSuperAdmin) fun _ => ?_
  intro _ _
  refine ensures_of_reads only_newUUID fun _ => ?_
  refine ensures_of_reads only_now fun _ => ?_
  refine ensures_of_reads only_now fun _ => ?_
  refine ensures_storeCreateOperator fun db' hroles hfresh hrows => ?_
  refine ensures_of_reads only_logAction fun _ => ?_
  rw [nothingGained_added_iff hroles hfresh hrows, Covered]

/-- The role that `UpdateOperator` settles on, whatever the current one is. -/
theorem ensures_requestedRole {role : String} {post : String → Database → Prop}
    (hpost : ∀ requested, (∀ current : String,
      (if requested = "" then current else requested) =
        if role = "" then current else roleName tables role) → post requested db) :
    (requestedRole tables role).Ensures perform post db := by
  unfold requestedRole
  by_cases hrole : role = ""
  · rw [if_pos hrole]
    refine ensures_succeed.mpr (hpost "" fun current => ?_)
    rw [if_pos rfl, if_pos hrole]
  · rw [if_neg hrole]
    refine ensures_orReject.mpr (ensures_requireExistingRole fun hne => ?_)
    refine hpost _ fun current => ?_
    rw [if_neg hne, if_neg hrole]

theorem updateOperator_ensures (actorID operatorID : UUID) (role : String)
    (permissions : Option Overrides) :
    (updateOperator tables actorID operatorID role permissions).Ensures perform
      (fun _ db' => NothingGained db db' actor ↔ Covered tables db actor
        (.updateOperator actorID operatorID role permissions)) db := by
  simp only [updateOperator, bind_eq, pure_eq, ensures_bind, ensures_orReject,
    ensures_ofExcept, ensures_succeed]
  refine ensures_of_reads only_evaluateCapability fun _ => ?_
  refine ensures_requestedRole fun requested hrequested => ?_
  refine ensures_of_reads (only_when (only_getOperator.orReject.bind fun _ =>
    only_rejectIf)) fun _ => ?_
  intro _ _
  refine ensures_getOperator fun target htarget => ?_
  refine ensures_of_reads (only_when only_requireSuperAdmin) fun _ => ?_
  refine ensures_of_reads only_now fun _ => ?_
  refine ensures_storeUpdateOperator fun db' now hroles hrows => ?_
  refine ensures_of_reads only_logAction fun _ => ?_
  have hmem := ((db.operators.find?_eq_some_iff _ _).mp htarget).1
  rw [nothingGained_updated_iff hroles hmem hrows, Covered, htarget, hrequested]
  simp only [Option.some.injEq, forall_eq']

theorem createRole_ensures (actorID : UUID) (name description : String)
    (permissions : List String) :
    (createRole tables actorID name description permissions).Ensures perform
      (fun _ db' => NothingGained db db' actor ↔ Covered tables db actor
        (.createRole actorID name description permissions)) db := by
  simp only [createRole, bind_eq, pure_eq, ensures_bind, ensures_orReject,
    ensures_ofExcept, ensures_rejectIf, ensures_succeed]
  refine ensures_of_reads only_evaluateCapability fun _ => ?_
  intro normalizedName hname _ normalizedPerms hperms
  obtain ⟨rfl, -⟩ := normalizeRoleName_eq_ok hname
  refine ensures_of_reads only_newUUID fun _ => ?_
  refine ensures_of_reads only_now fun _ => ?_
  refine ensures_of_reads only_now fun _ => ?_
  refine ensures_storeCreateRole fun db' hoperators hnamed hother => ?_
  refine ensures_of_reads only_logAction fun _ => ?_
  rw [nothingGained_role_iff hoperators hnamed hother, Covered]
  simp only [permits_congr (mem_normalizePermissions hperms)]

theorem updateRole_ensures (actorID : UUID) (name : String)
    (description : Option String) (permissions : Option (List String)) :
    (updateRole tables actorID name description permissions).Ensures perform
      (fun _ db' => NothingGained db db' actor ↔ Covered tables db actor
        (.updateRole actorID name description permissions)) db := by
  simp only [updateRole, bind_eq, pure_eq, ensures_bind, ensures_orReject,
    ensures_ofExcept, ensures_rejectIf, ensures_succeed]
  refine ensures_of_reads only_evaluateCapability fun _ => ?_
  intro normalizedName hname
  obtain ⟨rfl, -⟩ := normalizeRoleName_eq_ok hname
  refine ensures_getRoleByName fun role hrole hsystem rolePerms hperms => ?_
  have hroleName : role.name = roleName tables name := by
    simpa using List.find?_some hrole
  rw [← hroleName] at hrole
  refine ensures_of_reads only_now fun _ => ?_
  refine ensures_storeUpdateRole hrole (by simpa using hsystem) rfl rfl
    fun db' hoperators hnamed hother => ?_
  refine ensures_of_reads only_logAction fun _ => ?_
  cases permissions with
  | none =>
      have hkept : rolePerms = role.permissions := (Except.ok.inj hperms).symm
      refine iff_of_true (nothingGained_of_same hoperators fun other => ?_) trivial
      by_cases heq : other = role.name
      · rw [heq, hnamed, rolePermissions, hrole]
        exact hkept
      · exact hother other heq
  | some requested =>
      rw [nothingGained_role_iff hoperators hnamed hother, Covered, hroleName]
      simp only [permits_congr (mem_normalizePermissions hperms)]

end Requests

/-- A successful call spreads no permission the actor lacks if and only if its
request is covered; the guard for `super_admin` makes no difference to this. -/
theorem nothingGained_iff_covered (tables : CaseTables) (db db' : Database)
    (request : Request) (actor : Operator) (response : Response) (choices rest : List Choice)
    (hactor : db.operators.find? request.actorID = some actor)
    (hrun : (serve tables request).run perform choices db = some (.ok response, db', rest)) :
    NothingGained db db' actor ↔ Covered tables db actor request := by
  have hensures : (serve tables request).Ensures perform (fun _ db' =>
      NothingGained db db' actor ↔ Covered tables db actor request) db := by
    cases request with
    | createOperator actorID identityID role permissions =>
        simp only [serve, bind_eq, pure_eq, ensures_bind, ensures_succeed]
        exact createOperator_ensures actorID identityID role permissions
    | updateOperator actorID operatorID role permissions =>
        simp only [serve, bind_eq, pure_eq, ensures_bind, ensures_succeed]
        exact updateOperator_ensures actorID operatorID role permissions
    | createRole actorID name description permissions =>
        simp only [serve, bind_eq, pure_eq, ensures_bind, ensures_succeed]
        exact createRole_ensures actorID name description permissions
    | updateRole actorID name description permissions =>
        simp only [serve, bind_eq, pure_eq, ensures_bind, ensures_succeed]
        exact updateRole_ensures actorID name description permissions
  exact hensures.run hrun

section Sample

def plainTables : CaseTables := ⟨id, id⟩

/-- Lets its operators create operators and read the audit log. -/
def managerRole : Role :=
  { id := 1
    name := "manager"
    description := ""
    permissions := ["audit:read", "operators:create"]
    isSystem := false
    createdAt := 0
    updatedAt := 0 }

def manager : Operator :=
  { id := 7
    identityID := 8
    role := "manager"
    permissions := Table.empty
    createdAt := 0
    updatedAt := 0 }

def managedDatabase : Database :=
  { operators := ⟨[manager], by decide⟩
    roles := ⟨[managerRole], by decide⟩ }

/-- A new operator in the actor's own role, with or without overrides. -/
def hire (permissions : Option Overrides) : Request :=
  .createOperator 7 9 "manager" permissions

def hireRun (permissions : Option Overrides) :
    Option (Except AdminError Response × Database × List Choice) :=
  (serve plainTables (hire permissions)).run perform
    (List.replicate 8 ⟨0, 10, false⟩) managedDatabase

def allGranted : Overrides := ⟨[(permAll, .bool true)], by decide⟩

/-- Hiring works, and the new operator holds this permission. -/
def hired (permissions : Option Overrides) (permission : String) : Bool :=
  match hireRun permissions with
  | some (.ok _, db', _) => db'.operators.rows.any fun row =>
      row.id = 10 && holds db' row permission
  | _ => false

theorem exists_of_hired {permissions : Option Overrides} {permission : String}
    (hhired : hired permissions permission = true) :
    ∃ response db' rest, hireRun permissions = some (.ok response, db', rest) ∧
      ∃ row ∈ db'.operators.rows, row.id = 10 ∧
        holds db' row permission = true := by
  unfold hired at hhired
  split at hhired
  · rename_i response db' rest hrun
    refine ⟨response, db', rest, hrun, ?_⟩
    simpa using hhired
  · cases hhired

/-- Without overrides the new operator can do what the actor can. -/
theorem hire_covered : ∃ response db' rest,
    hireRun none = some (.ok response, db', rest) ∧
      NothingGained managedDatabase db' manager := by
  have hhired : hired none "audit:read" = true := by decide +kernel
  obtain ⟨response, db', rest, hrun, -⟩ := exists_of_hired hhired
  refine ⟨response, db', rest, hrun, ?_⟩
  have hactor : managedDatabase.operators.find? (hire none).actorID = some manager :=
    (Table.find?_eq_some_iff ..).mpr ⟨List.mem_singleton.mpr rfl, rfl⟩
  refine (nothingGained_iff_covered plainTables managedDatabase db' (hire none)
    manager response _ rest hactor hrun).mpr ?_
  have hname : roleName plainTables "manager" = "manager" := by decide
  intro p hpermits
  rw [hname] at hpermits
  exact hpermits

/-- With the wildcard as an override it can do what the actor cannot. -/
theorem hire_escalates : ∃ response db' rest,
    hireRun (some allGranted) = some (.ok response, db', rest) ∧
      manager.role ≠ "super_admin" ∧
        ¬ NothingGained managedDatabase db' manager := by
  have hhired : hired (some allGranted) "identities:delete" = true := by
    decide +kernel
  obtain ⟨response, db', rest, hrun, row, hrow, hid, hheld⟩ :=
    exists_of_hired hhired
  refine ⟨response, db', rest, hrun, by decide, fun hnothing => ?_⟩
  rcases hnothing row hrow _ hheld with ⟨old, hold, hold', -⟩ | hactor
  · rw [List.mem_singleton.mp hold, hid] at hold'
    revert hold'
    decide
  · revert hactor
    decide

end Sample

end Aegion.Admin
