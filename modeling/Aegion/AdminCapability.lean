/-
Permissions of the admin module: the catalog, the wildcard match, and the
decision that combines an operator's overrides with the permissions of a role.
-/
import Aegion.GoText
import Aegion.KeyedTable

namespace Aegion.Admin

open Go

def permAll : String := "*"

def permOperatorsCreate : String := "operators:create"

def permOperatorsUpdate : String := "operators:update"

def permRolesCreate : String := "roles:create"

def permRolesUpdate : String := "roles:update"

def permissionCatalog : List String :=
  [permAll,
    "identities:read", "identities:write", "identities:create",
    "identities:update", "identities:delete", "identities:*",
    "sessions:read", "sessions:revoke", "sessions:delete", "sessions:*",
    "config:read", "config:write", "config:update", "config:*",
    "operators:read", permOperatorsCreate, permOperatorsUpdate,
    "operators:delete", "operators:*",
    "roles:read", permRolesCreate, permRolesUpdate, "roles:delete", "roles:*",
    "api_keys:read", "api_keys:create", "api_keys:delete", "api_keys:*",
    "audit:read", "audit:*",
    "schemas:read", "schemas:create", "schemas:update", "schemas:delete",
    "schemas:*",
    "flows:read", "flows:create", "flows:update", "flows:delete", "flows:*",
    "oauth2:clients:read", "oauth2:clients:manage", "oauth2:tokens:read",
    "oauth2:tokens:revoke", "oauth2:*",
    "security:read", "security:create", "security:update", "security:delete",
    "security:*"]

/-- `DefaultRolePermissions`; a missing key reads as the empty slice. -/
def defaultRolePermissions (role : String) : List String :=
  if role = "super_admin" then [permAll]
  else if role = "admin" then
    ["identities:*", "sessions:*", "config:read", "config:update",
      "audit:read", "oauth2:*", "operators:read", "roles:read", "security:*"]
  else if role = "operator" then
    ["identities:read", "identities:update", "sessions:read",
      "sessions:delete", "audit:read", "oauth2:clients:read",
      "oauth2:tokens:read", "security:read"]
  else if role = "viewer" then
    ["identities:read", "sessions:read", "config:read", "audit:read"]
  else []

/-- `IsValidPermission`. -/
def isValidPermission (permission : String) : Bool :=
  trimSpace permission ≠ "" && permissionCatalog.contains (trimSpace permission)

/-- `matchPermission`: equality, the global wildcard, a category wildcard. -/
def matchPermission (granted required : String) : Bool :=
  granted = required || granted = permAll ||
    (hasSuffix granted ":*" && hasPrefix required (trimSuffix granted "*"))

/-- A value of the `permissions` map; only booleans mean anything. -/
inductive OverrideValue where
  | bool (granted : Bool)
  | other
deriving Repr, DecidableEq

/-- The map from permission to override. -/
abbrev Overrides := Table fun entry : String × OverrideValue => entry.1

/-- The override decides on its own: the entry of the very permission, or else
a denial that matches it. -/
def overrideDecision (overrides : Overrides) (permission : String) : Option Bool :=
  match overrides.find? permission with
  | some (_, .bool granted) => some granted
  | _ =>
      if overrides.rows.any fun entry =>
          entry.2 = .bool false && matchPermission entry.1 permission then
        some false
      else none

/-- Some permission of the role or some granting override matches. -/
def grantedBy (rolePerms : List String) (overrides : Overrides) (permission : String) : Bool :=
  rolePerms.any (matchPermission · permission) ||
    overrides.rows.any fun entry =>
      entry.2 = .bool true && matchPermission entry.1 permission

/-- The decision of `hasPermission`, given the permissions of the role. -/
def permits (rolePerms : List String) (overrides : Overrides) (permission : String) : Bool :=
  (overrideDecision overrides permission).getD
    (grantedBy rolePerms overrides permission)

/-- Only the set of a role's permissions matters. -/
theorem permits_congr {left right : List String}
    (hmem : ∀ p, p ∈ left ↔ p ∈ right) (overrides : Overrides) (permission : String) :
    permits left overrides permission = permits right overrides permission := by
  have hany : left.any (matchPermission · permission) =
      right.any (matchPermission · permission) := by
    rw [Bool.eq_iff_iff]
    simp only [List.any_eq_true, hmem]
  simp only [permits, grantedBy, hany]

end Aegion.Admin
