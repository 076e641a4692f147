/-
The permissions of an operator, as they are enforced and as they are listed.  The check weighs the
overrides that match the permission asked for; an entry for that very permission decides alone,
also where a wildcard denies it.  The list edits the role's patterns by name, so a denial leaves
every wider pattern in place.
-/
import Aegion.AdminService
import Aegion.CallTriples
import Mathlib.Data.List.Dedup

namespace Aegion.Admin

open Go Service

section Listing

/-- One override, on the set of permissions collected so far. -/
def applyOverride (perms : List String) (entry : String × OverrideValue) : List String :=
  match entry.2 with
  | .bool true => if entry.1 ∈ perms then perms else perms ++ [entry.1]
  | .bool false => perms.filter (· ≠ entry.1)
  | .other => perms

def effectivePermissions (rolePerms : List String) (overrides : Overrides) : List String :=
  overrides.rows.foldl applyOverride rolePerms.dedup

def getEffectivePermissions (operatorID : UUID) : Service Reply AdminError (List String) := do
  let op ← (getOperator operatorID).orReject .store
  let stored ← attempt (getRoleByName op.role)
  let rolePerms := match stored with
    | .ok row => row.permissions
    | .error _ => defaultRolePermissions op.role
  pure (effectivePermissions rolePerms op.permissions)

theorem mem_applyOverride (perms : List String) (entry : String × OverrideValue) (p : String) :
    p ∈ applyOverride perms entry ↔
      entry = (p, .bool true) ∨ p ∈ perms ∧ entry ≠ (p, .bool false) := by
  obtain ⟨name, value⟩ := entry
  cases value with
  | other => simp [applyOverride]
  | bool granted =>
      cases granted with
      | false =>
          simp only [applyOverride, List.mem_filter, decide_eq_true_eq, Prod.mk.injEq,
            OverrideValue.bool.injEq, Bool.false_eq_true, and_false, false_or, and_true, ne_eq]
          rw [eq_comm]
      | true =>
          by_cases hname : name ∈ perms
          · simp only [applyOverride, if_pos hname]
            constructor
            · exact fun hp => Or.inr ⟨hp, by simp⟩
            · rintro (heq | ⟨hp, -⟩)
              · cases heq
                exact hname
              · exact hp
          · simp only [applyOverride, if_neg hname, List.mem_append, List.mem_singleton,
              Prod.mk.injEq, OverrideValue.bool.injEq, and_true, Bool.true_eq_false, and_false,
              ne_eq, not_false_eq_true]
            rw [or_comm, eq_comm]

theorem mem_foldl_applyOverride {entries : List (String × OverrideValue)}
    (hkeys : (entries.map Prod.fst).Nodup) (perms : List String) (p : String) :
    p ∈ entries.foldl applyOverride perms ↔
      (p, .bool true) ∈ entries ∨ p ∈ perms ∧ (p, .bool false) ∉ entries := by
  induction entries generalizing perms with
  | nil => simp
  | cons entry entries ih =>
      rw [List.map_cons, List.nodup_cons] at hkeys
      have hfresh : ∀ value, entry.1 = p → (p, value) ∉ entries := by
        rintro value rfl hmem
        exact hkeys.1 (List.mem_map.mpr ⟨_, hmem, rfl⟩)
      rw [List.foldl_cons, ih hkeys.2, mem_applyOverride, List.mem_cons, List.mem_cons]
      constructor
      · rintro (hgranted | ⟨rfl | ⟨hperms, hentry⟩, hkept⟩)
        · exact Or.inl (Or.inr hgranted)
        · exact Or.inl (Or.inl rfl)
        · exact Or.inr ⟨hperms, not_or.mpr ⟨fun h => hentry h.symm, hkept⟩⟩
      · rintro ((rfl | hgranted) | ⟨hperms, hkept⟩)
        · exact Or.inr ⟨Or.inl rfl, hfresh _ rfl⟩
        · exact Or.inl hgranted
        · obtain ⟨hentry, hrest⟩ := not_or.mp hkept
          exact Or.inr ⟨Or.inr ⟨hperms, fun h => hentry h.symm⟩, hrest⟩

/-- The list has what is granted by name, and what the role has and is not denied by name. -/
theorem mem_effectivePermissions (rolePerms : List String) (overrides : Overrides) (p : String) :
    p ∈ effectivePermissions rolePerms overrides ↔
      (p, .bool true) ∈ overrides.rows ∨ p ∈ rolePerms ∧ (p, .bool false) ∉ overrides.rows := by
  rw [effectivePermissions, mem_foldl_applyOverride overrides.keysNodup, List.mem_dedup]

end Listing

section Denials

variable {overrides : Overrides} {rolePerms : List String} {permission : String}

/-- Some override denies the permission, by name or by a wildcard. -/
def Denied (overrides : Overrides) (permission : String) : Prop :=
  ∃ denial, (denial, .bool false) ∈ overrides.rows ∧ matchPermission denial permission = true

theorem matchPermission_self (permission : String) :
    matchPermission permission permission = true := by
  simp [matchPermission]

theorem denied_iff_any : Denied overrides permission ↔
    (overrides.rows.any fun entry =>
      entry.2 = .bool false && matchPermission entry.1 permission) = true := by
  simp only [Denied, List.any_eq_true, Bool.and_eq_true, decide_eq_true_eq, Prod.exists]
  constructor
  · rintro ⟨denial, hmem, hmatch⟩
    exact ⟨denial, _, hmem, rfl, hmatch⟩
  · rintro ⟨denial, _, hmem, rfl, hmatch⟩
    exact ⟨denial, hmem, hmatch⟩

theorem overrideDecision_of_open (hopen : ∀ granted, (permission, .bool granted) ∉ overrides.rows) :
    overrideDecision overrides permission =
      if overrides.rows.any fun entry =>
          entry.2 = .bool false && matchPermission entry.1 permission then some false
      else none := by
  unfold overrideDecision
  split
  · rename_i name granted hfind
    obtain ⟨hmem, hname⟩ := (Table.find?_eq_some_iff ..).mp hfind
    cases hname
    exact absurd hmem (hopen granted)
  · rfl

/-- The entry for the permission itself decides, then any denial. -/
theorem overrideDecision_cases (overrides : Overrides) (permission : String) :
    (permission, .bool true) ∈ overrides.rows ∧
        overrideDecision overrides permission = some true ∨
      (permission, .bool true) ∉ overrides.rows ∧ Denied overrides permission ∧
        overrideDecision overrides permission = some false ∨
      (permission, .bool true) ∉ overrides.rows ∧ ¬Denied overrides permission ∧
        overrideDecision overrides permission = none := by
  have hown : ∀ granted, (permission, .bool granted) ∈ overrides.rows →
      overrideDecision overrides permission = some granted := by
    intro granted hmem
    have hfind := (Table.find?_eq_some_iff overrides permission _).mpr ⟨hmem, rfl⟩
    rw [overrideDecision, hfind]
  by_cases htrue : (permission, .bool true) ∈ overrides.rows
  · exact Or.inl ⟨htrue, hown true htrue⟩
  by_cases hfalse : (permission, .bool false) ∈ overrides.rows
  · exact Or.inr (Or.inl
      ⟨htrue, ⟨permission, hfalse, matchPermission_self permission⟩, hown false hfalse⟩)
  have hneither : ∀ granted, (permission, .bool granted) ∉ overrides.rows := by
    intro granted
    cases granted with
    | false => exact hfalse
    | true => exact htrue
  have hopen := overrideDecision_of_open hneither
  by_cases hdenied : Denied overrides permission
  · exact Or.inr (Or.inl ⟨htrue, hdenied, hopen.trans (if_pos (denied_iff_any.mp hdenied))⟩)
  · exact Or.inr (Or.inr
      ⟨htrue, hdenied, hopen.trans (if_neg fun hany => hdenied (denied_iff_any.mpr hany))⟩)

/-- Where some override denies the permission, the check refuses it if and only if the permission
is not granted by its own name. -/
theorem hasPermission_denied_iff (hdenied : Denied overrides permission) (role : String) :
    hasPermission role overrides permission = pure false ↔
      (permission, .bool true) ∉ overrides.rows := by
  unfold hasPermission
  rcases overrideDecision_cases overrides permission with
    ⟨hown, hdecision⟩ | ⟨hown, -, hdecision⟩ | ⟨-, hnot, -⟩
  · rw [hdecision]
    refine iff_of_false (fun hpure => ?_) (not_not_intro hown)
    cases Except.ok.inj (Program.done.inj hpure)
  · rw [hdecision]
    exact iff_of_true rfl hown
  · exact absurd hdenied hnot

/-- A grant by name and a wildcard that denies it. -/
def exactGrant : Overrides :=
  ⟨[("identities:read", .bool true), ("identities:*", .bool false)], by decide⟩

theorem wildcard_denial_refuses : Denied exactGrant "identities:write" ∧
    hasPermission "viewer" exactGrant "identities:write" = pure false := by
  have hdenied : Denied exactGrant "identities:write" := ⟨"identities:*", by decide, by decide⟩
  exact ⟨hdenied, (hasPermission_denied_iff hdenied "viewer").mpr (by decide)⟩

theorem exact_grant_beats_denial : Denied exactGrant "identities:read" ∧
    hasPermission "viewer" exactGrant "identities:read" = pure true :=
  ⟨⟨"identities:*", by decide, by decide⟩, rfl⟩

end Denials

section Comparison

variable {overrides : Overrides} {rolePerms : List String} {permission : String}

/-- The list shows the permission. -/
def Listed (perms : List String) (permission : String) : Prop :=
  ∃ p ∈ perms, matchPermission p permission = true

/-- Where a denial matches the permission, the patterns that would grant it are themselves denied,
each by its own name. -/
def DeniedByName (rolePerms : List String) (overrides : Overrides) (permission : String) : Prop :=
  Denied overrides permission → (permission, .bool true) ∉ overrides.rows →
    (∀ p ∈ rolePerms, matchPermission p permission = true → (p, .bool false) ∈ overrides.rows) ∧
      ∀ p, (p, .bool true) ∈ overrides.rows → matchPermission p permission = false

theorem grantedBy_iff : grantedBy rolePerms overrides permission = true ↔
    ∃ p, matchPermission p permission = true ∧
      (p ∈ rolePerms ∨ (p, .bool true) ∈ overrides.rows) := by
  simp only [grantedBy, Bool.or_eq_true, List.any_eq_true, Bool.and_eq_true, decide_eq_true_eq,
    Prod.exists]
  constructor
  · rintro (⟨p, hp, hmatch⟩ | ⟨p, _, hmem, rfl, hmatch⟩)
    · exact ⟨p, hmatch, Or.inl hp⟩
    · exact ⟨p, hmatch, Or.inr hmem⟩
  · rintro ⟨p, hmatch, hp | hmem⟩
    · exact Or.inl ⟨p, hp, hmatch⟩
    · exact Or.inr ⟨p, _, hmem, rfl, hmatch⟩

theorem listed_iff : Listed (effectivePermissions rolePerms overrides) permission ↔
    ∃ p, matchPermission p permission = true ∧ ((p, .bool true) ∈ overrides.rows ∨
      p ∈ rolePerms ∧ (p, .bool false) ∉ overrides.rows) := by
  simp only [Listed, mem_effectivePermissions]
  exact exists_congr fun p => and_comm

/-- Without a matching denial, both go by the same patterns. -/
theorem grantedBy_iff_listed (hdenied : ¬Denied overrides permission) :
    grantedBy rolePerms overrides permission = true ↔
      Listed (effectivePermissions rolePerms overrides) permission := by
  rw [grantedBy_iff, listed_iff]
  refine exists_congr fun p => and_congr_right fun hmatch => ?_
  have hkept : (p, .bool false) ∉ overrides.rows := fun hmem => hdenied ⟨p, hmem, hmatch⟩
  rw [and_iff_left hkept, or_comm]

theorem permits_iff_listed_iff :
    (permits rolePerms overrides permission = true ↔
      Listed (effectivePermissions rolePerms overrides) permission) ↔
      DeniedByName rolePerms overrides permission := by
  unfold permits
  rcases overrideDecision_cases overrides permission with
    ⟨hown, hdecision⟩ | ⟨hown, hdenied, hdecision⟩ | ⟨hown, hnot, hdecision⟩
  · rw [hdecision]
    refine iff_of_true (iff_of_true rfl ?_) fun _ hnone => absurd hown hnone
    exact listed_iff.mpr ⟨permission, matchPermission_self permission, Or.inl hown⟩
  · rw [hdecision, Option.getD_some]
    constructor
    · intro hsame _ _
      have hnone : ¬Listed (effectivePermissions rolePerms overrides) permission :=
        fun hlisted => Bool.false_ne_true (hsame.mpr hlisted)
      rw [listed_iff] at hnone
      constructor
      · intro p hp hmatch
        by_contra hkept
        exact hnone ⟨p, hmatch, Or.inr ⟨hp, hkept⟩⟩
      · intro p hp
        by_contra hmatch
        exact hnone ⟨p, by simpa using hmatch, Or.inl hp⟩
    · intro hnamed
      obtain ⟨hrole, hgrants⟩ := hnamed hdenied hown
      refine iff_of_false Bool.false_ne_true fun hlisted => ?_
      obtain ⟨p, hmatch, hgranted | ⟨hp, hkept⟩⟩ := listed_iff.mp hlisted
      · rw [hgrants p hgranted] at hmatch
        cases hmatch
      · exact hkept (hrole p hp hmatch)
  · rw [hdecision, Option.getD_none]
    exact iff_of_true (grantedBy_iff_listed hnot) fun hdenied => absurd hdenied hnot

end Comparison

section Service

variable {db : Database} {op : Operator}

/-- The permissions found for a role; a read that fails falls back to the defaults. -/
def readRolePermissions (db : Database) (role : String) (read : Choice) : List String :=
  match if read.fails then none else db.roleByName role with
  | some row => row.permissions
  | none => defaultRolePermissions role

theorem getRoleByName_result (db : Database) (role : String) (read : Choice) (rest : List Choice) :
    (∃ row, (getRoleByName role).run perform (read :: rest) db = some (.ok row, db, rest) ∧
        readRolePermissions db role read = row.permissions) ∨
      ∃ e, (getRoleByName role).run perform (read :: rest) db = some (.error e, db, rest) ∧
        readRolePermissions db role read = defaultRolePermissions role := by
  rw [getRoleByName, run_statement_cons]
  unfold readRolePermissions
  cases hfails : read.fails with
  | true => exact Or.inr ⟨.database, by simp [perform, hfails, scanRow]⟩
  | false =>
      cases hrole : db.roleByName role with
      | none => exact Or.inr ⟨.roleNotFound, by simp [perform, hfails, hrole, scanRow]⟩
      | some row => exact Or.inl ⟨row, by simp [perform, hfails, hrole, scanRow]⟩

theorem hasPermission_result (role : String) (overrides : Overrides) (permission : String)
    (read : Choice) : ∃ rest, (hasPermission role overrides permission).run perform [read] db =
      some (.ok (permits (readRolePermissions db role read) overrides permission), db, rest) := by
  unfold hasPermission permits
  cases hdecision : overrideDecision overrides permission with
  | some granted => exact ⟨[read], run_succeed ..⟩
  | none =>
      refine ⟨[], ?_⟩
      rcases getRoleByName_result db role read [] with ⟨row, hrun, hperms⟩ | ⟨e, hrun, hperms⟩
      · simp [bind_eq, pure_eq, run_bind, run_attempt, hrun, hperms]
      · simp [bind_eq, pure_eq, run_bind, run_attempt, hrun, hperms]

theorem getEffectivePermissions_result (hop : db.operators.find? op.id = some op)
    {found : Choice} (hfound : found.fails = false) (read : Choice) :
    (getEffectivePermissions op.id).run perform [found, read] db =
      some (.ok (effectivePermissions (readRolePermissions db op.role read) op.permissions),
        db, []) := by
  have hoperator : (getOperator op.id).run perform [found, read] db =
      some (.ok op, db, [read]) := by
    rw [getOperator, run_statement_cons]
    simp [perform, hfound, hop, scanRow]
  unfold getEffectivePermissions
  rcases getRoleByName_result db op.role read [] with ⟨row, hrun, hperms⟩ | ⟨e, hrun, hperms⟩
  · simp [bind_eq, pure_eq, run_bind, run_orReject, run_attempt, hoperator, hrun, hperms,
      Except.mapError]
  · simp [bind_eq, pure_eq, run_bind, run_orReject, run_attempt, hoperator, hrun, hperms,
      Except.mapError]

/-- For an operator, what is listed is what is enforced if and only if the denials that match the
permission name every pattern that grants it. -/
theorem effective_permissions_enforced_iff (hop : db.operators.find? op.id = some op)
    {found : Choice} (hfound : found.fails = false) (read : Choice) (permission : String) :
    (∃ granted rest listed,
      (hasPermission op.role op.permissions permission).run perform [read] db =
        some (.ok granted, db, rest) ∧
      (getEffectivePermissions op.id).run perform [found, read] db = some (.ok listed, db, []) ∧
      (granted = true ↔ Listed listed permission)) ↔
      DeniedByName (readRolePermissions db op.role read) op.permissions permission := by
  rw [← permits_iff_listed_iff]
  obtain ⟨left, hchecked⟩ := hasPermission_result op.role op.permissions permission read
  have hlisted := getEffectivePermissions_result hop hfound read
  constructor
  · rintro ⟨granted, rest, listed, hrun, hrun', hsame⟩
    rw [hchecked] at hrun
    rw [hlisted] at hrun'
    cases hrun
    cases hrun'
    exact hsame
  · intro hsame
    exact ⟨_, left, _, hchecked, hlisted, hsame⟩

def operatorWith (permissions : Overrides) : Operator := ⟨1, 2, "support", permissions, 0, 0⟩

/-- An operator whose role covers all identities. -/
def supportDatabase (permissions : Overrides) : Database :=
  ⟨Table.single (operatorWith permissions),
    Table.single ⟨3, "support", "", ["identities:*"], false, 0, 0⟩⟩

def answered : Choice := ⟨0, 0, false⟩

theorem operatorWith_found (permissions : Overrides) :
    (supportDatabase permissions).operators.find? (operatorWith permissions).id =
      some (operatorWith permissions) := rfl

theorem support_listed : ∃ granted rest listed,
    (hasPermission "support" Table.empty "identities:read").run perform [answered]
        (supportDatabase Table.empty) = some (.ok granted, supportDatabase Table.empty, rest) ∧
      (getEffectivePermissions 1).run perform [answered, answered]
        (supportDatabase Table.empty) = some (.ok listed, supportDatabase Table.empty, []) ∧
      (granted = true ↔ Listed listed "identities:read") := by
  refine (effective_permissions_enforced_iff (operatorWith_found Table.empty)
    (show answered.fails = false from rfl) answered "identities:read").mpr ?_
  rintro ⟨denial, hdenial, -⟩
  cases hdenial

def readDenied : Overrides := Table.single ("identities:read", .bool false)

/-- The denial of one permission is enforced, and the wildcard that covers it is listed. -/
theorem denial_not_listed :
    isValidPermission "identities:read" = true ∧
      (hasPermission "support" readDenied "identities:read").run perform [answered]
        (supportDatabase readDenied) = some (.ok false, supportDatabase readDenied, [answered]) ∧
      (getEffectivePermissions 1).run perform [answered, answered] (supportDatabase readDenied) =
        some (.ok ["identities:*"], supportDatabase readDenied, []) ∧
      Listed ["identities:*"] "identities:read" := by
  have hlisted : effectivePermissions
      (readRolePermissions (supportDatabase readDenied) "support" answered) readDenied =
        ["identities:*"] := by
    decide +kernel
  have hdecision : overrideDecision readDenied "identities:read" = some false := by decide +kernel
  refine ⟨by decide, ?_, ?_, "identities:*", by decide, by decide⟩
  · rw [hasPermission, hdecision]
    exact run_succeed ..
  · rw [← hlisted]
    exact getEffectivePermissions_result (operatorWith_found readDenied) rfl answered

end Service

end Aegion.Admin
