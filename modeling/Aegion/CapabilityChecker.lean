/-
The capability checker of the admin module.  The check compares patterns with the capability asked
for and lets a denial win; the list expands the wildcards of whole domains.  The two differ for a
global wildcard that is held together with a denial, and for wildcards within a domain, which are
matched and not expanded.
-/
import Aegion.GoText
import Mathlib.Data.List.Basic

namespace Aegion.Capability

open Go

section Checker

def capAll : String := "*"

/-- `AllCapabilities`, by domain. -/
def allCapabilities : List (String × List String) :=
  [("users", ["users.read", "users.create", "users.update", "users.delete", "users.suspend",
      "users.*"]),
    ("sessions", ["sessions.read", "sessions.revoke", "sessions.*"]),
    ("mfa", ["mfa.read", "mfa.manage", "mfa.*"]),
    ("oauth2", ["oauth2.clients.read", "oauth2.clients.manage", "oauth2.tokens.read",
      "oauth2.tokens.revoke", "oauth2.*"]),
    ("policy", ["policy.read", "policy.manage", "policy.*"]),
    ("system", ["system.config", "system.audit", "system.health", "system.*"]),
    ("admin_team", ["admin_team.read", "admin_team.manage", "admin_team.*"]),
    ("scim", ["scim.users.read", "scim.users.write", "scim.groups.read", "scim.groups.write",
      "scim.tokens.manage", "scim.*"]),
    ("global", [capAll])]

/-- The keys of `AllCapabilityInfo` with their `IsWildcard`. -/
def allCapabilityInfo : List (String × Bool) :=
  [("users.read", false), ("users.create", false), ("users.update", false),
    ("users.delete", false), ("users.suspend", false), ("users.*", true),
    ("sessions.read", false), ("sessions.revoke", false), ("sessions.*", true),
    ("mfa.read", false), ("mfa.manage", false), ("mfa.*", true),
    ("oauth2.clients.read", false), ("oauth2.clients.manage", false),
    ("oauth2.tokens.read", false), ("oauth2.tokens.revoke", false), ("oauth2.*", true),
    ("policy.read", false), ("policy.manage", false), ("policy.*", true),
    ("system.config", false), ("system.audit", false), ("system.health", false),
    ("system.*", true), ("admin_team.read", false), ("admin_team.manage", false),
    ("admin_team.*", true), ("scim.users.read", false), ("scim.users.write", false),
    ("scim.groups.read", false), ("scim.groups.write", false), ("scim.tokens.manage", false),
    ("scim.*", true), (capAll, true)]

structure Role where
  id : String
  capabilities : List String
deriving Repr, DecidableEq

structure AdminIdentity where
  roles : List String
  grants : List String
  denies : List String
deriving Repr, DecidableEq

/-- The two reads of the store that the checker makes. -/
structure Store (ID Error : Type) where
  getAdminIdentity : ID → Except Error AdminIdentity
  getRoles : List String → Except Error (List Role)

def matchesCapability (granted required : String) : Bool :=
  granted = required || granted = capAll ||
    (hasSuffix granted ".*" && hasPrefix required (trimSuffix granted "*"))

variable {ID Error : Type} (store : Store ID Error)

def hasRoleCapability (roleIDs : List String) (cap : String) : Bool :=
  match store.getRoles roleIDs with
  | .error _ => false
  | .ok roles => roles.any fun role => role.capabilities.any (matchesCapability · cap)

def evaluateCapability (admin : AdminIdentity) (cap : String) : Bool :=
  if admin.denies.any (matchesCapability · cap) then false
  else if admin.grants.any (matchesCapability · cap) then true
  else hasRoleCapability store admin.roles cap

def hasCapability (identityID : ID) (cap : String) : Bool :=
  match store.getAdminIdentity identityID with
  | .error _ => false
  | .ok admin => evaluateCapability store admin cap

def domainCapabilities (cap : String) : List String :=
  (allCapabilities.lookup (trimSuffix cap ".*")).getD []

/-- What a capability of a role or a grant puts into the set. -/
def expand (cap : String) : List String :=
  if hasSuffix cap ".*" then (domainCapabilities cap).filter fun c => !hasSuffix c ".*"
  else [cap]

/-- What a denial takes out. -/
def removed (deny : String) : List String :=
  if hasSuffix deny ".*" then domainCapabilities deny else [deny]

/-- The loops over the roles and the grants; a global wildcard ends them. -/
def collect (set : List String) : List String → Option (List String)
  | [] => some set
  | cap :: rest => if cap = capAll then none else collect (set ∪ expand cap) rest

def removeDenied (set : List String) : List String → List String
  | [] => set
  | deny :: rest =>
      if deny = capAll then [] else removeDenied (set.filter (· ∉ removed deny)) rest

def getEffectiveCapabilities (identityID : ID) : Except Error (List String) :=
  match store.getAdminIdentity identityID with
  | .error e => .error e
  | .ok admin =>
      match store.getRoles admin.roles with
      | .error e => .error e
      | .ok roles =>
          match (collect [] (roles.flatMap Role.capabilities)).bind (collect · admin.grants) with
          | none => .ok (allCapabilityInfo.map Prod.fst)
          | some set => .ok (removeDenied set admin.denies)

end Checker

section Expansion

/-- A defined capability that is no wildcard. -/
def Defined (c : String) : Prop := (c, false) ∈ allCapabilityInfo

instance instDecidableDefined (c : String) : Decidable (Defined c) :=
  inferInstanceAs (Decidable (_ ∈ _))

variable {c x : String}

theorem Defined.no_wildcard (hc : Defined c) : c ≠ capAll ∧ hasSuffix c ".*" = false := by
  have htable : ∀ entry ∈ allCapabilityInfo, entry.2 = false →
      entry.1 ≠ capAll ∧ hasSuffix entry.1 ".*" = false := by
    decide
  exact htable _ hc rfl

theorem mem_removed_iff (hc : Defined c) : c ∈ removed x ↔ c ∈ expand x := by
  unfold removed expand
  split
  · simp [hc.no_wildcard.2]
  · rfl

/-- The pattern of a domain without its star is the domain with a dot. -/
theorem trimSuffix_star (hsuffix : hasSuffix x ".*" = true) :
    trimSuffix x "*" = trimSuffix x ".*" ++ "." := by
  obtain ⟨start, hstart⟩ := List.isSuffixOf_iff_suffix.mp hsuffix
  have hdot : ".*".toList = ['.', '*'] := rfl
  have hstar : "*".toList = ['*'] := rfl
  rw [hdot] at hstart
  have hends : hasSuffix x "*" = true := by
    refine List.isSuffixOf_iff_suffix.mpr ⟨start ++ ['.'], ?_⟩
    rw [← hstart, hstar, List.append_assoc]
    rfl
  rw [trimSuffix, trimSuffix, if_pos hends, if_pos hsuffix, ← hstart, hdot, hstar]
  apply String.toList_inj.mp
  simp [List.take_append, List.take_of_length_le]

/-- A domain's capabilities begin with its name. -/
theorem hasPrefix_of_mem_domain (hc : Defined c) (hsuffix : hasSuffix x ".*" = true)
    (hmem : c ∈ domainCapabilities x) : hasPrefix c (trimSuffix x "*") = true := by
  have htable : ∀ entry ∈ allCapabilities, ∀ cap ∈ entry.2,
      cap = capAll ∨ hasPrefix cap (entry.1 ++ ".") = true := by
    decide
  unfold domainCapabilities at hmem
  cases hlookup : allCapabilities.lookup (trimSuffix x ".*") with
  | none => simp [hlookup] at hmem
  | some caps =>
      obtain ⟨before, after, hentries, -⟩ := List.lookup_eq_some_iff.mp hlookup
      have hentry : (trimSuffix x ".*", caps) ∈ allCapabilities := by
        rw [hentries]
        exact List.mem_append_right before List.mem_cons_self
      rw [hlookup, Option.getD_some] at hmem
      rw [trimSuffix_star hsuffix]
      exact (htable _ hentry c hmem).resolve_left hc.no_wildcard.1

theorem matches_of_mem_expand (hc : Defined c) (hmem : c ∈ expand x) :
    matchesCapability x c = true := by
  unfold expand at hmem
  split at hmem
  · rename_i hsuffix
    have hstart := hasPrefix_of_mem_domain hc hsuffix (List.mem_filter.mp hmem).1
    simp [matchesCapability, hsuffix, hstart]
  · simp [matchesCapability, List.mem_singleton.mp hmem]

/-- A pattern that the check follows and the list does not expand: a wildcard within a domain. -/
def Narrow (x c : String) : Prop :=
  matchesCapability x c = true ∧ x ≠ capAll ∧ c ∉ expand x

instance instDecidableNarrow (x c : String) : Decidable (Narrow x c) :=
  inferInstanceAs (Decidable (_ ∧ _ ∧ _))

theorem matches_iff (hc : Defined c) :
    matchesCapability x c = true ↔ x = capAll ∨ c ∈ expand x ∨ Narrow x c := by
  constructor
  · intro hmatch
    by_cases hall : x = capAll
    · exact Or.inl hall
    by_cases hmem : c ∈ expand x
    · exact Or.inr (Or.inl hmem)
    · exact Or.inr (Or.inr ⟨hmatch, hall, hmem⟩)
  · rintro (rfl | hmem | hnarrow)
    · simp [matchesCapability]
    · exact matches_of_mem_expand hc hmem
    · exact hnarrow.1

end Expansion

section Listing

variable {c : String}

theorem collect_eq_none_iff (set caps : List String) : collect set caps = none ↔ capAll ∈ caps := by
  induction caps generalizing set with
  | nil => simp [collect]
  | cons cap caps ih =>
      unfold collect
      split
      · rename_i hall
        simp [hall]
      · rename_i hnot
        rw [ih, List.mem_cons, or_iff_right fun h => hnot h.symm]

theorem mem_of_collect {set caps result : List String} (hcollect : collect set caps = some result) :
    c ∈ result ↔ c ∈ set ∨ ∃ x ∈ caps, c ∈ expand x := by
  induction caps generalizing set with
  | nil =>
      cases hcollect
      simp
  | cons cap caps ih =>
      unfold collect at hcollect
      split at hcollect
      · cases hcollect
      · rw [ih hcollect, List.mem_union_iff, or_assoc, List.exists_mem_cons_iff]

theorem mem_removeDenied (hc : Defined c) (set denies : List String) :
    c ∈ removeDenied set denies ↔ c ∈ set ∧ ¬∃ deny ∈ denies, deny = capAll ∨ c ∈ expand deny := by
  induction denies generalizing set with
  | nil => simp [removeDenied]
  | cons deny denies ih =>
      unfold removeDenied
      split
      · rename_i hall
        simp [hall]
      · rename_i hnot
        rw [ih, List.mem_filter, decide_eq_true_eq, mem_removed_iff hc,
          List.exists_mem_cons_iff, or_iff_right hnot, not_or, and_assoc]

end Listing

section Agreement

variable {ID Error : Type} {store : Store ID Error} {identityID : ID} {admin : AdminIdentity}
  {roles : List Role} {c : String}

/-- What the identity holds, by its roles and by grants. -/
def held (admin : AdminIdentity) (roles : List Role) : List String :=
  roles.flatMap Role.capabilities ++ admin.grants

/-- With a global wildcard nothing may be denied.  Otherwise the denials take the capability out by
its domain or name, or the wildcards within a domain have no say in it: none denies what is
listed, and what only they grant, they deny. -/
def Settled (admin : AdminIdentity) (roles : List Role) (c : String) : Prop :=
  (capAll ∈ held admin roles → ∀ deny ∈ admin.denies, matchesCapability deny c = false) ∧
    (capAll ∉ held admin roles →
      (∃ deny ∈ admin.denies, deny = capAll ∨ c ∈ expand deny) ∨
      ((∃ x ∈ held admin roles, c ∈ expand x) → ∀ deny ∈ admin.denies, ¬Narrow deny c) ∧
      ((∀ x ∈ held admin roles, c ∉ expand x) → (∃ x ∈ held admin roles, Narrow x c) →
        ∃ deny ∈ admin.denies, Narrow deny c))

theorem hasCapability_iff (hadmin : store.getAdminIdentity identityID = .ok admin)
    (hroles : store.getRoles admin.roles = .ok roles) :
    hasCapability store identityID c = true ↔
      (∀ deny ∈ admin.denies, matchesCapability deny c = false) ∧
        ∃ x ∈ held admin roles, matchesCapability x c = true := by
  have hany : (admin.denies.any (matchesCapability · c) = false) ↔
      ∀ deny ∈ admin.denies, matchesCapability deny c = false := by
    simp
  have hheld : (∃ x ∈ held admin roles, matchesCapability x c = true) ↔
      admin.grants.any (matchesCapability · c) = true ∨
        hasRoleCapability store admin.roles c = true := by
    simp only [held, hasRoleCapability, hroles, List.any_eq_true, List.mem_append, List.mem_flatMap]
    constructor
    · rintro ⟨x, ⟨role, hrole, hx⟩ | hx, hmatch⟩
      · exact Or.inr ⟨role, hrole, x, hx, hmatch⟩
      · exact Or.inl ⟨x, hx, hmatch⟩
    · rintro (⟨x, hx, hmatch⟩ | ⟨role, hrole, x, hx, hmatch⟩)
      · exact ⟨x, Or.inr hx, hmatch⟩
      · exact ⟨x, Or.inl ⟨role, hrole, hx⟩, hmatch⟩
  rw [← hany, hheld, hasCapability, hadmin]
  dsimp only
  unfold evaluateCapability
  generalize admin.denies.any (matchesCapability · c) = denied
  generalize admin.grants.any (matchesCapability · c) = granted
  cases denied <;> cases granted <;> simp

theorem getEffectiveCapabilities_eq (hadmin : store.getAdminIdentity identityID = .ok admin)
    (hroles : store.getRoles admin.roles = .ok roles) (hc : Defined c) :
    ∃ listed, getEffectiveCapabilities store identityID = .ok listed ∧
      (c ∈ listed ↔ capAll ∈ held admin roles ∨
        (∃ x ∈ held admin roles, c ∈ expand x) ∧
          ¬∃ deny ∈ admin.denies, deny = capAll ∨ c ∈ expand deny) := by
  unfold getEffectiveCapabilities
  rw [hadmin]
  dsimp only
  rw [hroles]
  dsimp only
  have hall : c ∈ allCapabilityInfo.map Prod.fst := List.mem_map.mpr ⟨_, hc, rfl⟩
  cases hfirst : collect [] (roles.flatMap Role.capabilities) with
  | none =>
      have hstar := (collect_eq_none_iff _ _).mp hfirst
      exact ⟨_, rfl, iff_of_true hall (Or.inl (List.mem_append_left _ hstar))⟩
  | some set =>
      have hroleStar := mt (collect_eq_none_iff [] (roles.flatMap Role.capabilities)).mpr
        (by simp [hfirst])
      rw [Option.bind_some]
      cases hsecond : collect set admin.grants with
      | none =>
          have hstar := (collect_eq_none_iff _ _).mp hsecond
          exact ⟨_, rfl, iff_of_true hall (Or.inl (List.mem_append_right _ hstar))⟩
      | some set' =>
          have hgrantStar := mt (collect_eq_none_iff set admin.grants).mpr (by simp [hsecond])
          have hnone : capAll ∉ held admin roles := fun hmem =>
            (List.mem_append.mp hmem).elim hroleStar hgrantStar
          refine ⟨_, rfl, ?_⟩
          rw [mem_removeDenied hc, or_iff_right hnone, mem_of_collect hsecond,
            mem_of_collect hfirst, held, or_iff_right List.not_mem_nil]
          refine and_congr_left fun _ => ?_
          simp only [List.mem_append, or_and_right, exists_or]

/-- No denial matches: none takes the capability out, and none is a wildcard within a domain. -/
theorem not_denied_iff (hc : Defined c) :
    (∀ deny ∈ admin.denies, matchesCapability deny c = false) ↔
      (¬∃ deny ∈ admin.denies, deny = capAll ∨ c ∈ expand deny) ∧
        ¬∃ deny ∈ admin.denies, Narrow deny c := by
  constructor
  · intro hnone
    constructor
    · rintro ⟨deny, hdeny, htaken⟩
      have hmatch := (matches_iff hc).mpr (htaken.imp_right Or.inl)
      rw [hnone deny hdeny] at hmatch
      cases hmatch
    · rintro ⟨deny, hdeny, hnarrow⟩
      cases (hnone deny hdeny).symm.trans hnarrow.1
  · rintro ⟨htaken, hnarrow⟩ deny hdeny
    rw [Bool.eq_false_iff]
    intro hmatch
    rcases (matches_iff hc).mp hmatch with hall | hmem | hwithin
    · exact htaken ⟨deny, hdeny, Or.inl hall⟩
    · exact htaken ⟨deny, hdeny, Or.inr hmem⟩
    · exact hnarrow ⟨deny, hdeny, hwithin⟩

theorem granted_iff (hc : Defined c) (hstar : capAll ∉ held admin roles) :
    (∃ x ∈ held admin roles, matchesCapability x c = true) ↔
      (∃ x ∈ held admin roles, c ∈ expand x) ∨ ∃ x ∈ held admin roles, Narrow x c := by
  constructor
  · rintro ⟨x, hx, hmatch⟩
    rcases (matches_iff hc).mp hmatch with rfl | hmem | hnarrow
    · exact absurd hx hstar
    · exact Or.inl ⟨x, hx, hmem⟩
    · exact Or.inr ⟨x, hx, hnarrow⟩
  · rintro (⟨x, hx, hmem⟩ | ⟨x, hx, hnarrow⟩)
    · exact ⟨x, hx, matches_of_mem_expand hc hmem⟩
    · exact ⟨x, hx, hnarrow.1⟩

/-- Listed is enforced if and only if the wildcards and denials of the identity are settled. -/
theorem listed_iff_enforced_iff (hadmin : store.getAdminIdentity identityID = .ok admin)
    (hroles : store.getRoles admin.roles = .ok roles) (hc : Defined c) :
    (∃ listed, getEffectiveCapabilities store identityID = .ok listed ∧
      (c ∈ listed ↔ hasCapability store identityID c = true)) ↔ Settled admin roles c := by
  obtain ⟨listed, hlisted, hmem⟩ := getEffectiveCapabilities_eq hadmin hroles hc
  have hsame : (∃ listed, getEffectiveCapabilities store identityID = .ok listed ∧
      (c ∈ listed ↔ hasCapability store identityID c = true)) ↔
        (c ∈ listed ↔ hasCapability store identityID c = true) := by
    constructor
    · rintro ⟨other, hother, hiff⟩
      rw [hlisted] at hother
      cases hother
      exact hiff
    · exact fun hiff => ⟨listed, hlisted, hiff⟩
  rw [hsame, hmem, hasCapability_iff hadmin hroles]
  unfold Settled
  by_cases hstar : capAll ∈ held admin roles
  · have hgranted : ∃ x ∈ held admin roles, matchesCapability x c = true :=
      ⟨capAll, hstar, by simp [matchesCapability]⟩
    rw [and_iff_left hgranted, iff_true_left (Or.inl hstar)]
    exact ⟨fun hnone => ⟨fun _ => hnone, fun hno => absurd hstar hno⟩, fun hboth => hboth.1 hstar⟩
  · rw [not_denied_iff hc, granted_iff hc hstar, or_iff_right hstar]
    have hunlisted : (∀ x ∈ held admin roles, c ∉ expand x) ↔
        ¬∃ x ∈ held admin roles, c ∈ expand x := by
      simp
    have hopen : (∀ deny ∈ admin.denies, ¬Narrow deny c) ↔
        ¬∃ deny ∈ admin.denies, Narrow deny c := by
      simp
    rw [hunlisted, hopen]
    by_cases htaken : ∃ deny ∈ admin.denies, deny = capAll ∨ c ∈ expand deny
    · simp [htaken, hstar]
    · simp only [htaken, hstar, not_false_eq_true, and_true, true_and, false_or, forall_const,
        false_imp_iff]
      by_cases hmem : ∃ x ∈ held admin roles, c ∈ expand x
      · simp [hmem]
      · simp only [hmem]
        by_cases hdenied : ∃ deny ∈ admin.denies, Narrow deny c
        · simp [hdenied]
        · simp [hdenied]

/-- A store with one identity and one role. -/
def sampleStore (capabilities : List String) (admin : AdminIdentity) : Store Unit Unit :=
  ⟨fun _ => .ok admin, fun _ => .ok [⟨"support", capabilities⟩]⟩

def supportIdentity (denies : List String) : AdminIdentity := ⟨["support"], ["mfa.read"], denies⟩

theorem support_settled : ∃ listed,
    getEffectiveCapabilities (sampleStore ["users.*"] (supportIdentity ["users.delete"])) () =
        .ok listed ∧
      ("users.delete" ∈ listed ↔
        hasCapability (sampleStore ["users.*"] (supportIdentity ["users.delete"])) ()
          "users.delete" = true) := by
  refine (listed_iff_enforced_iff rfl rfl (by decide)).mpr ⟨?_, fun _ => Or.inl ?_⟩
  · intro hstar
    revert hstar
    decide
  · exact ⟨"users.delete", by decide, Or.inr (by decide)⟩

/-- Everything is listed for a global wildcard, also what is denied. -/
theorem denied_capability_listed : Defined "users.delete" ∧
    (∃ listed, getEffectiveCapabilities
        (sampleStore [capAll] (supportIdentity ["users.delete"])) () = .ok listed ∧
      "users.delete" ∈ listed) ∧
    hasCapability (sampleStore [capAll] (supportIdentity ["users.delete"])) () "users.delete" =
      false :=
  ⟨by decide, ⟨_, rfl, by decide⟩, by decide⟩

end Agreement

end Aegion.Capability
