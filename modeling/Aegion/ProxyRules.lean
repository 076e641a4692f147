/-
The access rules of the proxy.  A rule is matched by method and path, it may demand a session,
an assurance level and capabilities, and it may rewrite the path.  What a rule demands is
enforced exactly if the rule also demands authentication.
-/
import Aegion.GoText
import Mathlib.Data.List.Perm.Basic

namespace Aegion.ProxyRules

open Go

section Rules

/-- Unicode's case tables and the package `path`, whose `Match` answers `none` where the pattern
is malformed. -/
structure Platform where
  tables : CaseTables
  /-- `unicode.ToUpper` beyond ASCII. -/
  upper : Char → Char
  clean : String → String
  pathMatch : String → String → Option Bool

structure RewriteConfig where
  stripPrefix : String
  addPrefix : String
deriving Repr, DecidableEq

structure Rule where
  id : String
  path : String
  methods : List String
  requireAuth : Bool
  requiredAAL : String
  capabilities : List String
  target : String
  priority : Int
  rewrite : Option RewriteConfig
  enabled : Bool
deriving Repr, DecidableEq

/-- The fields of a session that the rules read. -/
structure Session where
  aal : String
  active : Bool
  isImpersonation : Bool
  authMethods : List String
deriving Repr, DecidableEq

structure Request where
  method : String
  path : String
deriving Repr, DecidableEq

inductive AccessError where
  | authenticationRequired
  | insufficientPrivileges
deriving Repr, DecidableEq

variable (platform : Platform)

def Platform.upperRune (c : Char) : Char :=
  if c.val < 0x80 then c.toUpper else platform.upper c

/-- `strings.ToUpper`. -/
def Platform.toUpper (s : String) : String :=
  String.ofList (s.toList.map platform.upperRune)

def Rule.matchesMethod (rule : Rule) (method : String) : Bool :=
  rule.methods.isEmpty ||
    rule.methods.any fun allowed => platform.toUpper allowed = platform.toUpper method

/-- The recursive patterns that end in `/*`. -/
def matchesBelow (urlPath pattern : String) : Bool :=
  let p := platform.clean ("/" ++ urlPath)
  let p := if hasSuffix p "/" then p else p ++ "/"
  hasSuffix pattern "/*" && hasPrefix p ("/" ++ trimPrefix (trimSuffix pattern "*") "/")

def matchesPattern (urlPath pattern : String) : Bool :=
  matchesBelow platform urlPath pattern ||
    let urlPath := platform.clean ("/" ++ urlPath)
    let pattern := platform.clean ("/" ++ pattern)
    (platform.pathMatch pattern urlPath).getD (urlPath = pattern)

def Rule.applies (rule : Rule) (r : Request) : Bool :=
  rule.enabled && matchesPattern platform r.path rule.path &&
    rule.matchesMethod platform r.method

/-- `Match`. -/
def matchRule (rules : List Rule) (r : Request) : Option Rule :=
  rules.find? fun rule => rule.applies platform r

def normalizeCapability (capability : String) : String :=
  platform.tables.toLower (trimSpace capability)

def sessionCapabilities (sess : Session) : List String :=
  let aal := normalizeCapability platform sess.aal
  let names := sess.authMethods.map (normalizeCapability platform)
  ["authenticated"] ++ (if sess.active then ["session:active"] else []) ++
    (if sess.isImpersonation then ["session:impersonation"] else []) ++
    (if aal ≠ "" then [aal, "session:" ++ aal] else []) ++
    (names.filter (· ≠ "")).map ("auth:" ++ ·)

def checkCapabilities (sess : Session) (requiredCaps : List String) : Except AccessError Unit :=
  let available := sessionCapabilities platform sess
  if requiredCaps.all fun rawCap =>
      normalizeCapability platform rawCap = "" || normalizeCapability platform rawCap ∈ available
  then .ok ()
  else .error .insufficientPrivileges

def checkAccess (_ : Request) (rule : Rule) (sess : Option Session) : Except AccessError Unit :=
  if rule.requireAuth = false then .ok ()
  else
    match sess with
    | none => .error .authenticationRequired
    | some sess =>
        if rule.requiredAAL ≠ "" ∧ sess.aal < rule.requiredAAL then
          .error .insufficientPrivileges
        else checkCapabilities platform sess rule.capabilities

def stripPath (stripPrefix path : String) : String :=
  if stripPrefix ≠ "" ∧ hasPrefix path stripPrefix then
    let path := trimPrefix path stripPrefix
    if hasPrefix path "/" then path else "/" ++ path
  else path

def addPath (addPrefix path : String) : String :=
  if addPrefix ≠ "" then
    let start := if hasPrefix addPrefix "/" then addPrefix else "/" ++ addPrefix
    let start := if hasSuffix start "/" ∧ path ≠ "/" ∧ path ≠ "" then trimSuffix start "/"
      else start
    start ++ path
  else path

def Rule.applyRewrite (rule : Rule) (path : String) : String :=
  match rule.rewrite with
  | none => path
  | some rewrite => addPath rewrite.addPrefix (stripPath rewrite.stripPrefix path)

/-- `Validate`, with the texts of its errors. -/
def Rule.validate (rule : Rule) : Except String Unit :=
  if rule.id = "" then .error "rule ID cannot be empty"
  else if rule.path = "" then .error "rule path cannot be empty"
  else if rule.target = "" then .error "rule target cannot be empty"
  else if (platform.pathMatch rule.path "test").isNone then
    .error "invalid glob pattern in path: syntax error in pattern"
  else if rule.requiredAAL ∉ ["", "aal0", "aal1", "aal2"] then
    .error ("invalid required AAL: " ++ rule.requiredAAL)
  else .ok ()

end Rules

section Engine

/-- One round of the sort: the rule in hand changes places with every later rule of a higher
priority. -/
def exchange : Rule → List Rule → Rule × List Rule
  | rule, [] => (rule, [])
  | rule, other :: rest =>
      if rule.priority < other.priority then
        ((exchange other rest).1, rule :: (exchange other rest).2)
      else ((exchange rule rest).1, other :: (exchange rule rest).2)

def exchangeRounds : Nat → List Rule → List Rule
  | 0, rules => rules
  | _ + 1, [] => []
  | n + 1, rule :: rest =>
      (exchange rule rest).1 :: exchangeRounds n (exchange rule rest).2

/-- `NewRuleEngine`. -/
def newRuleEngine (rules : List Rule) : List Rule := exchangeRounds rules.length rules

theorem perm_exchange (rule : Rule) (rest : List Rule) :
    ((exchange rule rest).1 :: (exchange rule rest).2).Perm (rule :: rest) := by
  induction rest generalizing rule with
  | nil => exact List.Perm.refl _
  | cons other rest ih =>
      unfold exchange
      split
      · exact ((List.Perm.swap _ _ _).trans ((ih other).cons rule))
      · exact (List.Perm.swap _ _ _).trans (((ih rule).cons other).trans (List.Perm.swap _ _ _))

theorem perm_exchangeRounds (n : Nat) (rules : List Rule) :
    (exchangeRounds n rules).Perm rules := by
  induction n generalizing rules with
  | zero => exact List.Perm.refl _
  | succ n ih =>
      cases rules with
      | nil => exact List.Perm.refl _
      | cons rule rest => exact ((ih _).cons _).trans (perm_exchange rule rest)

end Engine

section Enforcement

/-- The assurance levels that the table of sessions admits. -/
inductive Level where
  | aal0
  | aal1
  | aal2
deriving Repr, DecidableEq

def Level.rank : Level → Nat
  | .aal0 => 0
  | .aal1 => 1
  | .aal2 => 2

def Level.text : Level → String
  | .aal0 => "aal0"
  | .aal1 => "aal1"
  | .aal2 => "aal2"

/-- A session as it is stored. -/
structure StoredSession where
  level : Level
  active : Bool
  isImpersonation : Bool
  authMethods : List String
deriving Repr, DecidableEq

def StoredSession.toSession (sess : StoredSession) : Session :=
  ⟨sess.level.text, sess.active, sess.isImpersonation, sess.authMethods⟩

variable {platform : Platform} {rule : Rule}

/-- The level reaches the one that the text names; the empty text names none. -/
def Level.reaches (level : Level) (requiredAAL : String) : Prop :=
  requiredAAL = "" ∨ ∃ required : Level, required.text = requiredAAL ∧ required.rank ≤ level.rank

/-- The capabilities that a rule lists. -/
def Rule.demanded (platform : Platform) (rule : Rule) : List String :=
  (rule.capabilities.map (normalizeCapability platform)).filter (· ≠ "")

/-- The session has what the rule demands; a missing session has nothing. -/
def Satisfies (platform : Platform) (rule : Rule) : Option StoredSession → Prop
  | none => rule.requiredAAL = "" ∧ rule.demanded platform = []
  | some sess => sess.level.reaches rule.requiredAAL ∧
      ∀ capability ∈ rule.demanded platform,
        capability ∈ sessionCapabilities platform sess.toSession

/-- A valid rule names no level or one of the three. -/
theorem Rule.requiredAAL_of_validate (hvalid : rule.validate platform = .ok ()) :
    rule.requiredAAL = "" ∨ ∃ level : Level, level.text = rule.requiredAAL := by
  unfold Rule.validate at hvalid
  split at hvalid
  · cases hvalid
  split at hvalid
  · cases hvalid
  split at hvalid
  · cases hvalid
  split at hvalid
  · cases hvalid
  split at hvalid
  · cases hvalid
  rename_i hknown
  rw [Decidable.not_not] at hknown
  simp only [List.mem_cons, List.not_mem_nil, or_false] at hknown
  rcases hknown with hempty | h0 | h1 | h2
  · exact Or.inl hempty
  · exact Or.inr ⟨.aal0, h0.symm⟩
  · exact Or.inr ⟨.aal1, h1.symm⟩
  · exact Or.inr ⟨.aal2, h2.symm⟩

/-- The comparison of texts is the comparison of levels. -/
theorem Level.text_lt_iff (level required : Level) :
    level.text < required.text ↔ level.rank < required.rank := by
  cases level <;> cases required <;> decide

theorem Level.reaches_iff (level : Level) {requiredAAL : String}
    (hknown : requiredAAL = "" ∨ ∃ required : Level, required.text = requiredAAL) :
    level.reaches requiredAAL ↔ ¬(requiredAAL ≠ "" ∧ level.text < requiredAAL) := by
  rcases hknown with rfl | ⟨required, rfl⟩
  · simp [Level.reaches]
  · have hnonempty : required.text ≠ "" := by cases required <;> decide
    have hinjective : ∀ other : Level, other.text = required.text → other = required := by
      intro other
      cases other <;> cases required <;> decide
    rw [Level.text_lt_iff, not_and, Nat.not_lt]
    constructor
    · rintro (hempty | ⟨other, hother, hle⟩) _
      · exact absurd hempty hnonempty
      · rwa [hinjective other hother] at hle
    · intro hle
      exact Or.inr ⟨required, rfl, hle hnonempty⟩

theorem checkCapabilities_eq_ok_iff (sess : Session) :
    checkCapabilities platform sess rule.capabilities = .ok () ↔
      ∀ capability ∈ rule.demanded platform, capability ∈ sessionCapabilities platform sess := by
  have hall : (rule.capabilities.all fun rawCap =>
      normalizeCapability platform rawCap = "" ||
        normalizeCapability platform rawCap ∈ sessionCapabilities platform sess) = true ↔
      ∀ capability ∈ rule.demanded platform,
        capability ∈ sessionCapabilities platform sess := by
    simp only [Rule.demanded, List.all_eq_true, List.mem_filter, List.mem_map, Bool.or_eq_true,
      decide_eq_true_eq]
    constructor
    · rintro hall _ ⟨⟨rawCap, hraw, rfl⟩, hnonempty⟩
      exact (hall rawCap hraw).resolve_left hnonempty
    · intro hall rawCap hraw
      by_cases hempty : normalizeCapability platform rawCap = ""
      · exact Or.inl hempty
      · exact Or.inr (hall _ ⟨⟨rawCap, hraw, rfl⟩, hempty⟩)
  unfold checkCapabilities
  dsimp only
  rw [← hall]
  split
  · rename_i hyes
    simp [hyes]
  · rename_i hno
    simp [hno]

/-- What a rule with authentication grants. -/
theorem checkAccess_eq_ok_iff (hauth : rule.requireAuth = true) (r : Request) (sess : Session) :
    checkAccess platform r rule (some sess) = .ok () ↔
      ¬(rule.requiredAAL ≠ "" ∧ sess.aal < rule.requiredAAL) ∧
        ∀ capability ∈ rule.demanded platform,
          capability ∈ sessionCapabilities platform sess := by
  unfold checkAccess
  rw [if_neg (by simp [hauth])]
  dsimp only
  split
  · rename_i hlow
    simp [hlow]
  · rename_i hhigh
    rw [checkCapabilities_eq_ok_iff]
    exact (and_iff_right hhigh).symm

/-- A valid rule is enforced against every session if and only if it demands authentication or
nothing at all. -/
theorem rule_enforced_iff (hvalid : rule.validate platform = .ok ()) (r : Request) :
    (∀ sess : Option StoredSession,
      checkAccess platform r rule (sess.map StoredSession.toSession) = .ok () →
        Satisfies platform rule sess) ↔
      rule.requireAuth = true ∨ (rule.requiredAAL = "" ∧ rule.demanded platform = []) := by
  constructor
  · intro henforced
    by_cases hauth : rule.requireAuth = true
    · exact Or.inl hauth
    · have hopen : checkAccess platform r rule none = .ok () := by
        unfold checkAccess
        rw [if_pos (by simpa using hauth)]
      exact Or.inr (henforced none hopen)
  · rintro (hauth | ⟨hlevel, hnone⟩) sess hgranted
    · cases sess with
      | none =>
          simp [checkAccess, hauth] at hgranted
      | some sess =>
          obtain ⟨hreached, hcapabilities⟩ := (checkAccess_eq_ok_iff hauth r _).mp hgranted
          exact ⟨(sess.level.reaches_iff (Rule.requiredAAL_of_validate hvalid)).mpr hreached,
            hcapabilities⟩
    · cases sess with
      | none => exact ⟨hlevel, hnone⟩
      | some sess =>
          refine ⟨Or.inl hlevel, ?_⟩
          rw [hnone]
          intro capability hcapability
          cases hcapability

def samplePlatform : Platform where
  tables := ⟨id, id⟩
  upper := id
  clean := id
  pathMatch := fun pattern name => some (decide (pattern = name))

/-- A rule for administrators, with or without authentication. -/
def adminRule (requireAuth : Bool) : Rule :=
  ⟨"admin", "/admin/*", [], requireAuth, "aal2", ["Session:Active"], "api", 0, none, true⟩

theorem adminRule_enforced : (adminRule true).validate samplePlatform = .ok () ∧
    ∀ sess : Option StoredSession,
      checkAccess samplePlatform ⟨"GET", "/admin/x"⟩ (adminRule true)
          (sess.map StoredSession.toSession) = .ok () →
        Satisfies samplePlatform (adminRule true) sess :=
  ⟨by decide +kernel, (rule_enforced_iff (by decide +kernel) _).mpr (Or.inl rfl)⟩

/-- Without authentication nothing else is looked at. -/
theorem adminRule_open : (adminRule false).validate samplePlatform = .ok () ∧
    checkAccess samplePlatform ⟨"GET", "/admin/x"⟩ (adminRule false) none = .ok () ∧
    ¬Satisfies samplePlatform (adminRule false) none := by
  refine ⟨by decide +kernel, rfl, ?_⟩
  rintro ⟨hlevel, -⟩
  exact absurd hlevel (by decide)

end Enforcement

end Aegion.ProxyRules
