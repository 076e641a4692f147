/-
The policy engine's decision procedure: RBAC lookup, ABAC rules in list order,
breadth-first expansion of ReBAC tuples, and the `Check` dispatcher that
combines them.
-/
import Aegion.GoText

namespace Aegion.Policy

open Go

/-- An RBAC permission. -/
structure Permission where
  resourceType : String
  action : String
deriving Repr, DecidableEq

/-- An enabled ABAC rule, as `ListABACRules` returns it. -/
structure ABACRule where
  name : String
  expression : String
  priority : Int
  effect : String
deriving Repr, DecidableEq

/-- A relationship tuple. -/
structure ReBACTuple where
  «namespace» : String
  objectID : String
  relation : String
  subjectID : String
deriving Repr, DecidableEq

structure RequestContext where
  ip : String
  tenantID : String
  extra : List (String × String)
deriving Repr, DecidableEq

structure CheckRequest where
  subject : String
  resource : String
  resourceType : String
  action : String
  model : String
  context : Option RequestContext
deriving Repr, DecidableEq

structure CheckResponse where
  allowed : Bool
  modelUsed : String
  denyReason : String
  evalPath : List String
deriving Repr, DecidableEq

inductive PolicyError where
  /-- `<field> is required` -/
  | required (field : String)
  /-- `unsupported model "<model>"` -/
  | unsupportedModel (model : String)
  /-- An error of the policy store, passed on unchanged. -/
  | store (message : String)
  /-- `evaluate ABAC rule "<name>": <cause>` -/
  | evaluateRule (name cause : String)
deriving Repr, DecidableEq

/-- The queries the engine asks its store. -/
structure PolicyStore where
  listRoleIDsByIdentity : String → Except String (List String)
  listPermissionsByRoleIDs : List String → Except String (List Permission)
  listABACRules : Except String (List ABACRule)
  listReBACTuples : String → String → String → Except String (List ReBACTuple)

/-- The variables a CEL expression sees. -/
structure Activation where
  subjectID : String
  subjectRoles : List String
  resourceID : String
  resourceType : String
  action : String
  ip : String
  tenantID : String
  extra : List (String × String)
deriving Repr, DecidableEq

/-- The server: its store, the CEL compiler and evaluator, the case tables, and
the client address found in the call's context. -/
structure Server where
  store : PolicyStore
  evaluateCEL : String → Activation → Except String Bool
  tables : CaseTables
  contextIP : String

variable (server : Server)

def normalizeModel (tables : CaseTables) (model : String) : String :=
  tables.toLower (trimSpace model)

def normalizePermissionToken (tables : CaseTables) (value : String) : String :=
  tables.toLower (trimSpace value)

def normalizeSubject (subject : String) : String :=
  let subject := trimSpace subject
  if hasPrefix subject "user:" then trimPrefix subject "user:" else subject

def isRBACIdentity (tables : CaseTables) (identityID : String) : Bool :=
  let identityID := trimSpace identityID
  identityID ≠ "" && !tables.equalFold identityID "anonymous"

/-- Exact match first, then action, resource and full wildcards. -/
def hasPermission (tables : CaseTables) (perms : List Permission)
    (resourceType action : String) : Bool :=
  let resourceType := normalizePermissionToken tables resourceType
  let action := normalizePermissionToken tables action
  let grants (wantedType wantedAction : String) : Bool := perms.any fun p =>
    normalizePermissionToken tables p.resourceType = wantedType &&
      normalizePermissionToken tables p.action = wantedAction
  grants resourceType action || grants resourceType "*" ||
    grants "*" action || grants "*" "*"

def rbacMiss : CheckResponse :=
  ⟨false, "rbac", "rbac_no_matching_permission", ["rbac:miss"]⟩

def evaluateRBAC (req : CheckRequest) : Except PolicyError CheckResponse :=
  let identityID := normalizeSubject req.subject
  if isRBACIdentity server.tables identityID = false then .ok rbacMiss
  else
    match server.store.listRoleIDsByIdentity identityID with
    | .error message => .error (.store message)
    | .ok [] => .ok rbacMiss
    | .ok (role :: roles) =>
        match server.store.listPermissionsByRoleIDs (role :: roles) with
        | .error message => .error (.store message)
        | .ok permissions =>
            if hasPermission server.tables permissions req.resourceType
                req.action then
              .ok ⟨true, "rbac", "", ["rbac:allow"]⟩
            else .ok rbacMiss

def buildABACActivation (req : CheckRequest) : Activation :=
  let ip := match req.context with
    | some context => trimSpace context.ip
    | none => ""
  { subjectID := normalizeSubject req.subject
    subjectRoles := []
    resourceID := trimSpace req.resource
    resourceType := trimSpace req.resourceType
    action := trimSpace req.action
    ip := if ip = "" then server.contextIP else ip
    tenantID := match req.context with
      | some context => trimSpace context.tenantID
      | none => ""
    extra := match req.context with
      | some context => context.extra
      | none => [] }

def evaluateABACExpression (req : CheckRequest) (expression : String) : Except String Bool :=
  let expression := trimSpace expression
  if expression = "" then .error "empty ABAC expression"
  else server.evaluateCEL expression (buildABACActivation server req)

/-- Scan the rules of one effect in list order; an evaluation error stops the
scan. -/
def firstMatchedABACRule (req : CheckRequest) (effect : String) :
    List ABACRule → Except PolicyError (Option String)
  | [] => .ok none
  | rule :: rest =>
      if normalizeModel server.tables rule.effect ≠
          normalizeModel server.tables effect then
        firstMatchedABACRule req effect rest
      else
        match evaluateABACExpression server req rule.expression with
        | .error cause => .error (.evaluateRule rule.name cause)
        | .ok true => .ok (some rule.name)
        | .ok false => firstMatchedABACRule req effect rest

def abacDenied (ruleName : String) : CheckResponse :=
  ⟨false, "abac", "abac_deny_rule_matched", ["abac:deny:" ++ ruleName]⟩

def evaluateABACOnly (req : CheckRequest) (rules : List ABACRule) :
    Except PolicyError CheckResponse :=
  match firstMatchedABACRule server req "deny" rules with
  | .error e => .error e
  | .ok (some ruleName) => .ok (abacDenied ruleName)
  | .ok none =>
      match firstMatchedABACRule server req "allow" rules with
      | .error e => .error e
      | .ok (some ruleName) =>
          .ok ⟨true, "abac", "", ["abac:deny_miss", "abac:allow:" ++ ruleName]⟩
      | .ok none =>
          .ok ⟨false, "abac", "abac_no_matching_rule",
            ["abac:deny_miss", "abac:allow_miss"]⟩

/-- `namespace:object`, or the resource type as namespace. -/
def parseNamespaceAndObject (resource resourceType : String) : String × String :=
  let resource := trimSpace resource
  let resourceType := trimSpace resourceType
  let before := resource.toList.takeWhile (· ≠ ':')
  let after := (resource.toList.dropWhile (· ≠ ':')).drop 1
  if before ≠ [] ∧ after ≠ [] then
    (trimSpace (String.ofList before), trimSpace (String.ofList after))
  else if resourceType ≠ "" ∧ resource ≠ "" then (resourceType, resource)
  else ("", "")

def actionToRelation (tables : CaseTables) (action : String) : String :=
  let action := normalizeModel tables action
  if action ∈ ["read", "view", "get", "list"] then "viewer"
  else if action ∈ ["write", "update", "edit", "patch"] then "editor"
  else if action ∈ ["delete", "remove"] then "owner"
  else if action = "owner" then "owner"
  else action

/-- `object#relation`. -/
def parseSubjectSet (subjectID : String) : Option (String × String) :=
  match split subjectID '#' with
  | [left, rel] =>
      let left := trimSpace left
      let rel := trimSpace rel
      if left = "" ∨ rel = "" then none else some (left, rel)
  | _ => none

inductive ExpandError where
  | maxDepthExceeded
  | traversalLimitExceeded
  | store (message : String)
deriving Repr, DecidableEq

/-- A queued object relation with its distance from the start. -/
structure ReBACNode where
  objectID : String
  relation : String
  depth : Nat
deriving Repr, DecidableEq

def rebacMaxVisitedNodes : Nat := 1000

/-- The body of the tuple loop: `none` when the subject was found, otherwise
the subject sets to enqueue. -/
def scanTuples (tables : CaseTables) (subject : String) (depth : Nat) :
    List ReBACTuple → Option (List ReBACNode)
  | [] => some []
  | tuple :: rest =>
      let subjectID := trimSpace tuple.subjectID
      if subjectID = "" then scanTuples tables subject depth rest
      else if tables.equalFold subjectID subject ||
          tables.equalFold subjectID ("user:" ++ subject) then none
      else
        match parseSubjectSet subjectID with
        | none => scanTuples tables subject depth rest
        | some (object, relation) =>
            (scanTuples tables subject depth rest).map
              (⟨object, relation, depth + 1⟩ :: ·)

/-- The breadth-first loop over the queue and the visited keys. -/
def expandLoop (list : String → String → Except String (List ReBACTuple))
    (tables : CaseTables) (space subject : String) (maxDepth : Nat)
    (queue : List ReBACNode) (visited : List String) : Except ExpandError Bool :=
  match queue with
  | [] => .ok false
  | current :: rest =>
      if maxDepth < current.depth then .error .maxDepthExceeded
      else
        let key := space ++ "|" ++ current.objectID ++ "|" ++ current.relation
        if key ∈ visited then
          expandLoop list tables space subject maxDepth rest visited
        else if rebacMaxVisitedNodes < visited.length + 1 then
          .error .traversalLimitExceeded
        else
          match list current.objectID current.relation with
          | .error message => .error (.store message)
          | .ok tuples =>
              match scanTuples tables subject current.depth tuples with
              | none => .ok true
              | some pushed =>
                  expandLoop list tables space subject maxDepth
                    (rest ++ pushed) (key :: visited)
termination_by (rebacMaxVisitedNodes - visited.length, queue.length)

def expandReBAC (space objectID relation subject : String) (maxDepth : Nat) :
    Except ExpandError Bool :=
  expandLoop (server.store.listReBACTuples space) server.tables space subject
    maxDepth [⟨objectID, relation, 0⟩] []

def evaluateReBAC (req : CheckRequest) : Except PolicyError CheckResponse :=
  let (space, objectID) := parseNamespaceAndObject req.resource req.resourceType
  let relation := actionToRelation server.tables req.action
  if space = "" ∨ objectID = "" ∨ relation = "" then
    .ok ⟨false, "rebac", "rebac_invalid_resource", ["rebac:invalid_resource"]⟩
  else
    match expandReBAC server space objectID relation
        (normalizeSubject req.subject) 20 with
    | .error .maxDepthExceeded =>
        .ok ⟨false, "rebac", "max_depth_exceeded", ["rebac:max_depth_exceeded"]⟩
    | .error .traversalLimitExceeded =>
        .ok ⟨false, "rebac", "traversal_limit_exceeded",
          ["rebac:traversal_limit_exceeded"]⟩
    | .error (.store message) => .error (.store message)
    | .ok true => .ok ⟨true, "rebac", "", ["rebac:allow"]⟩
    | .ok false =>
        .ok ⟨false, "rebac", "rebac_no_matching_tuple", ["rebac:miss"]⟩

/-- The default model after the ABAC deny rules have missed. -/
def evaluateDefault (req : CheckRequest) (rules : List ABACRule) :
    Except PolicyError CheckResponse :=
  match evaluateRBAC server req with
  | .error e => .error e
  | .ok rbac =>
      if rbac.allowed then
        .ok ⟨true, "rbac", "", ["abac:deny_miss", "rbac:allow"]⟩
      else
        match firstMatchedABACRule server req "allow" rules with
        | .error e => .error e
        | .ok (some ruleName) =>
            .ok ⟨true, "abac", "",
              ["abac:deny_miss", "rbac:miss", "abac:allow:" ++ ruleName]⟩
        | .ok none =>
            match evaluateReBAC server req with
            | .error e => .error e
            | .ok rebac =>
                if rebac.denyReason = "max_depth_exceeded" then
                  .ok ⟨false, "rebac", "max_depth_exceeded",
                    ["abac:deny_miss", "rbac:miss", "abac:allow_miss",
                      "rebac:max_depth_exceeded"]⟩
                else if rebac.allowed then
                  .ok ⟨true, "rebac", "",
                    ["abac:deny_miss", "rbac:miss", "abac:allow_miss",
                      "rebac:allow"]⟩
                else
                  .ok ⟨false, "default", "default_deny",
                    ["abac:deny_miss", "rbac:miss", "abac:allow_miss",
                      "rebac:miss", "default:deny"]⟩

/-- The empty model name means `default`. -/
def modelOf (tables : CaseTables) (req : CheckRequest) : String :=
  let model := normalizeModel tables req.model
  if model = "" then "default" else model

def check (req : CheckRequest) : Except PolicyError CheckResponse :=
  if blank req.subject then .error (.required "subject")
  else if blank req.resourceType then .error (.required "resource_type")
  else if blank req.action then .error (.required "action")
  else
    let model := modelOf server.tables req
    if model ≠ "default" ∧ model ≠ "rbac" ∧ model ≠ "abac" ∧
        model ≠ "rebac" then
      .error (.unsupportedModel req.model)
    else if model = "rebac" then evaluateReBAC server req
    else
      match server.store.listABACRules with
      | .error message => .error (.store message)
      | .ok rules =>
          if model = "abac" then evaluateABACOnly server req rules
          else
            match firstMatchedABACRule server req "deny" rules with
            | .error e => .error e
            | .ok (some ruleName) => .ok (abacDenied ruleName)
            | .ok none =>
                if model = "rbac" then evaluateRBAC server req
                else evaluateDefault server req rules

end Aegion.Policy
