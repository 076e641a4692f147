/-
Which requests the ABAC deny rules protect.  Three of the four decision paths
of `check` consult the deny rules before anything can allow; the path taken by
the model name `rebac` consults the relationship tuples alone.
-/
import Aegion.PolicyCheck

namespace Aegion.Policy

open Go

variable (server : Server) (req : CheckRequest)

/-- The listed rules deny the request: one with effect `deny` evaluates to
true, and no rule fails to evaluate. -/
structure Denied (rules : List ABACRule) : Prop where
  listed : server.store.listABACRules = .ok rules
  matched : ∃ rule ∈ rules,
    normalizeModel server.tables rule.effect = "deny" ∧
      evaluateABACExpression server req rule.expression = .ok true
  evaluates : ∀ rule ∈ rules, ∃ verdict,
    evaluateABACExpression server req rule.expression = .ok verdict

/-- `check` answers with an allowing response. -/
def Allows : Prop :=
  ∃ response, check server req = .ok response ∧ response.allowed = true

/-- The request carries the fields `check` requires. -/
def Complete : Prop :=
  blank req.subject = false ∧ blank req.resourceType = false ∧
    blank req.action = false

/-- The request names an object and a relation for the tuple lookup. -/
def NamesObject (tables : CaseTables) : Prop :=
  (parseNamespaceAndObject req.resource req.resourceType).1 ≠ "" ∧
    (parseNamespaceAndObject req.resource req.resourceType).2 ≠ "" ∧
    actionToRelation tables req.action ≠ ""

/-- The tuples relate the subject to the object the request names. -/
def TuplesGrant : Prop :=
  NamesObject req server.tables ∧
    expandReBAC server (parseNamespaceAndObject req.resource req.resourceType).1
      (parseNamespaceAndObject req.resource req.resourceType).2
      (actionToRelation server.tables req.action)
      (normalizeSubject req.subject) 20 = .ok true

theorem normalizeModel_deny (tables : CaseTables) : normalizeModel tables "deny" = "deny" := by
  rfl

/-- The scan for an effect stops at a matching rule when every rule evaluates
and one with that effect holds. -/
theorem firstMatchedABACRule_of_matched {effect : String} {rules : List ABACRule}
    (hmatched : ∃ rule ∈ rules,
      normalizeModel server.tables rule.effect = normalizeModel server.tables effect ∧
        evaluateABACExpression server req rule.expression = .ok true)
    (hevaluates : ∀ rule ∈ rules, ∃ verdict,
      evaluateABACExpression server req rule.expression = .ok verdict) :
    ∃ ruleName,
      firstMatchedABACRule server req effect rules = .ok (some ruleName) := by
  induction rules with
  | nil => simp at hmatched
  | cons head rest ih =>
      have hrest : ∀ rule ∈ rest, ∃ verdict,
          evaluateABACExpression server req rule.expression = .ok verdict :=
        fun rule hrule => hevaluates rule (List.mem_cons_of_mem head hrule)
      obtain ⟨verdict, hverdict⟩ := hevaluates head List.mem_cons_self
      by_cases heffect : normalizeModel server.tables head.effect =
          normalizeModel server.tables effect
      · cases verdict with
        | true => exact ⟨head.name, by simp [firstMatchedABACRule, heffect, hverdict]⟩
        | false =>
            have hlater : ∃ rule ∈ rest,
                normalizeModel server.tables rule.effect = normalizeModel server.tables effect ∧
                  evaluateABACExpression server req rule.expression = .ok true := by
              obtain ⟨rule, hrule, hkind, htrue⟩ := hmatched
              rcases List.mem_cons.mp hrule with rfl | hrule
              · rw [hverdict] at htrue
                cases htrue
              · exact ⟨rule, hrule, hkind, htrue⟩
            obtain ⟨ruleName, hfirst⟩ := ih hlater hrest
            exact ⟨ruleName, by
              simp [firstMatchedABACRule, heffect, hverdict, hfirst]⟩
      · have hlater : ∃ rule ∈ rest,
            normalizeModel server.tables rule.effect = normalizeModel server.tables effect ∧
              evaluateABACExpression server req rule.expression = .ok true := by
          obtain ⟨rule, hrule, hkind, htrue⟩ := hmatched
          rcases List.mem_cons.mp hrule with rfl | hrule
          · exact absurd hkind heffect
          · exact ⟨rule, hrule, hkind, htrue⟩
        obtain ⟨ruleName, hfirst⟩ := ih hlater hrest
        exact ⟨ruleName, by simp [firstMatchedABACRule, heffect, hfirst]⟩

theorem Denied.firstMatched {rules : List ABACRule} (hdenied : Denied server req rules) :
    ∃ ruleName,
      firstMatchedABACRule server req "deny" rules = .ok (some ruleName) := by
  apply firstMatchedABACRule_of_matched server req _ hdenied.evaluates
  rw [normalizeModel_deny]
  exact hdenied.matched

/-- Off the `rebac` path a denied request that is answered at all is answered
with the deny rule. -/
theorem check_of_denied {rules : List ABACRule} (hdenied : Denied server req rules)
    (hmodel : modelOf server.tables req ≠ "rebac") {response : CheckResponse}
    (hcheck : check server req = .ok response) : ∃ ruleName, response = abacDenied ruleName := by
  obtain ⟨ruleName, hfirst⟩ := hdenied.firstMatched
  refine ⟨ruleName, ?_⟩
  simp only [check, hdenied.listed, hmodel, ↓reduceIte, evaluateABACOnly, hfirst] at hcheck
  split_ifs at hcheck <;> exact (Except.ok.inj hcheck).symm

theorem evaluateReBAC_of_grant (hgrant : TuplesGrant server req) :
    evaluateReBAC server req = .ok ⟨true, "rebac", "", ["rebac:allow"]⟩ := by
  obtain ⟨⟨hspace, hobject, hrelation⟩, hexpand⟩ := hgrant
  simp only [evaluateReBAC, hspace, hobject, hrelation, or_self, ↓reduceIte, hexpand]

/-- The tuple evaluator allows exactly when the tuples grant. -/
theorem evaluateReBAC_allowed_iff :
    (∃ response, evaluateReBAC server req = .ok response ∧
      response.allowed = true) ↔ TuplesGrant server req := by
  constructor
  · rintro ⟨response, hresponse, hallowed⟩
    unfold evaluateReBAC at hresponse
    simp only at hresponse
    split_ifs at hresponse with hnames
    · cases hresponse
      cases hallowed
    · push Not at hnames
      refine ⟨hnames, ?_⟩
      split at hresponse <;> cases hresponse <;> first
        | assumption
        | cases hallowed
  · intro hgrant
    exact ⟨_, evaluateReBAC_of_grant server req hgrant, rfl⟩

/-- On the `rebac` path the deny rules play no part. -/
theorem check_rebac (hmodel : modelOf server.tables req = "rebac") (hcomplete : Complete req) :
    check server req = evaluateReBAC server req := by
  obtain ⟨hsubject, htype, haction⟩ := hcomplete
  simp [check, hsubject, htype, haction, hmodel]

/-- Only complete requests are answered. -/
theorem complete_of_check {response : CheckResponse}
    (hcheck : check server req = .ok response) : Complete req := by
  unfold check at hcheck
  split_ifs at hcheck with hsubject htype haction
  all_goals exact ⟨by simpa using hsubject, by simpa using htype, by simpa using haction⟩

theorem allows_rebac_iff (hmodel : modelOf server.tables req = "rebac") :
    Allows server req ↔ Complete req ∧ TuplesGrant server req := by
  rw [← evaluateReBAC_allowed_iff]
  constructor
  · rintro ⟨response, hcheck, hallowed⟩
    have hcomplete := complete_of_check server req hcheck
    rw [check_rebac server req hmodel hcomplete] at hcheck
    exact ⟨hcomplete, response, hcheck, hallowed⟩
  · rintro ⟨hcomplete, response, hresponse, hallowed⟩
    exact ⟨response, by rw [check_rebac server req hmodel hcomplete, hresponse], hallowed⟩

theorem allows_iff_of_denied {rules : List ABACRule} (hdenied : Denied server req rules) :
    Allows server req ↔
      modelOf server.tables req = "rebac" ∧ Complete req ∧
        TuplesGrant server req := by
  by_cases hmodel : modelOf server.tables req = "rebac"
  · rw [allows_rebac_iff server req hmodel]
    exact ⟨fun hgrant => ⟨hmodel, hgrant⟩, fun hgrant => hgrant.2⟩
  · constructor
    · rintro ⟨response, hcheck, hallowed⟩
      obtain ⟨ruleName, rfl⟩ := check_of_denied server req hdenied hmodel hcheck
      cases hallowed
    · exact fun hgrant => absurd hgrant.1 hmodel

/-- A store with one matching deny rule in which every object is related to
the subject of the request. -/
def grantingServer (tables : CaseTables) : Server where
  store :=
    { listRoleIDsByIdentity := fun _ => .ok []
      listPermissionsByRoleIDs := fun _ => .ok []
      listABACRules := .ok [⟨"deny-all", "true", 0, "deny"⟩]
      listReBACTuples := fun space objectID relation =>
        .ok [⟨space, objectID, relation, req.subject⟩] }
  evaluateCEL := fun _ _ => .ok true
  tables := tables
  contextIP := ""

theorem grantingServer_denied (tables : CaseTables) :
    Denied (grantingServer req tables) req [⟨"deny-all", "true", 0, "deny"⟩] where
  listed := rfl
  matched := ⟨_, List.mem_singleton_self _, rfl, rfl⟩
  evaluates := by
    intro rule hrule
    rw [List.mem_singleton.mp hrule]
    exact ⟨true, rfl⟩

theorem equalFold_refl (tables : CaseTables) (s : String) : tables.equalFold s s = true := by
  simp [CaseTables.equalFold]

/-- The trimmed subject is the normalized one, with or without its `user:`
qualifier. -/
theorem trimSpace_subject_cases (subject : String) :
    trimSpace subject = normalizeSubject subject ∨
      trimSpace subject = "user:" ++ normalizeSubject subject := by
  unfold normalizeSubject
  by_cases huser : hasPrefix (trimSpace subject) "user:" = true
  · right
    simp only [huser, ↓reduceIte]
    exact (append_trimPrefix huser).symm
  · left
    simp [huser]

theorem grantingServer_grants (tables : CaseTables)
    (hsubject : blank req.subject = false) (hnames : NamesObject req tables) :
    TuplesGrant (grantingServer req tables) req := by
  refine ⟨hnames, ?_⟩
  have hfilled : trimSpace req.subject ≠ "" := by simpa [blank] using hsubject
  have hfound : (tables.equalFold (trimSpace req.subject)
      (normalizeSubject req.subject) || tables.equalFold
        (trimSpace req.subject) ("user:" ++ normalizeSubject req.subject)) =
      true := by
    rcases trimSpace_subject_cases req.subject with hsame | hsame
    · rw [← hsame, equalFold_refl, Bool.true_or]
    · rw [← hsame, equalFold_refl, Bool.or_true]
  unfold expandReBAC expandLoop
  simp [grantingServer, rebacMaxVisitedNodes, scanTuples, hfilled, hfound]

/-- The deny rules protect a request against every store exactly when the
request does not reach the tuple lookup by the model name `rebac`.  In a given
store a denied request is allowed exactly when the tuples then grant it. -/
theorem check_denyOverride_iff (req : CheckRequest) :
    (∀ tables : CaseTables,
      (∀ server rules, server.tables = tables → Denied server req rules →
        ∀ response, check server req = .ok response → response.allowed = false) ↔
        ¬ (modelOf tables req = "rebac" ∧ Complete req ∧
          NamesObject req tables)) ∧
    (∀ server rules, Denied server req rules → ((∀ response, check server req = .ok response →
          response.allowed = false) ↔
        ¬ (modelOf server.tables req = "rebac" ∧ Complete req ∧
          TuplesGrant server req))) := by
  have hnever : ∀ server, (∀ response, check server req = .ok response →
      response.allowed = false) ↔ ¬ Allows server req := by
    intro server
    simp [Allows]
  constructor
  · intro tables
    constructor
    · rintro hsafe ⟨hmodel, hcomplete, hnames⟩
      have hdenied := grantingServer_denied req tables
      have hgrants := grantingServer_grants req tables hcomplete.1 hnames
      refine (hnever _).mp (hsafe (grantingServer req tables) _ rfl hdenied) ?_
      exact (allows_iff_of_denied _ req hdenied).mpr ⟨hmodel, hcomplete, hgrants⟩
    · rintro hoff server rules rfl hdenied
      rw [hnever, allows_iff_of_denied server req hdenied]
      exact fun hon => hoff ⟨hon.1, hon.2.1, hon.2.2.1⟩
  · intro server rules hdenied
    rw [hnever, allows_iff_of_denied server req hdenied]

/-- A viewer tuple for `alice` outweighs a deny rule that matches `alice`. -/
theorem check_rebac_allows_denied :
    let req : CheckRequest := ⟨"user:alice", "doc:1", "doc", "read", "rebac", none⟩
    let server := grantingServer req ⟨id, id⟩
    Denied server req [⟨"deny-all", "true", 0, "deny"⟩] ∧
      check server req = .ok ⟨true, "rebac", "", ["rebac:allow"]⟩ := by
  intro req server
  have hcomplete : Complete req := by refine ⟨?_, ?_, ?_⟩ <;> decide
  have hmodel : modelOf server.tables req = "rebac" := by decide
  have hnames : NamesObject req ⟨id, id⟩ := by refine ⟨?_, ?_, ?_⟩ <;> decide
  have hgrant := grantingServer_grants req ⟨id, id⟩ hcomplete.1 hnames
  refine ⟨grantingServer_denied req ⟨id, id⟩, ?_⟩
  rw [check_rebac server req hmodel hcomplete, evaluateReBAC_of_grant server req hgrant]

end Aegion.Policy
