/-
What a login has done when it creates a session or stores a flow.  A session
needs evidence of a first factor of its identity, in this request or, for a flow
that waits, in whatever has stored the flow; and a flow is stored with a pending
login only by a request that has checked a first factor or has read it so.
-/
import Aegion.LoginService
import Aegion.MFAConduct

namespace Aegion.Login

open Go Service History
open OAuth (Time DBError)

abbrev Past := List (Called Reply)

section Context

variable {platform : Platform} {flow : Flow} {key key' : String}
  {value : ContextValue}

theorem lookup_filter_of_ne {entries : List (String × ContextValue)} (hne : key' ≠ key) :
    (entries.filter (·.1 ≠ key)).lookup key' = entries.lookup key' := by
  induction entries with
  | nil => rfl
  | cons entry rest ih =>
      obtain ⟨name, stored⟩ := entry
      by_cases hname : name = key
      · have hother : (key' == key) = false := by simpa using hne
        simpa [hname, List.lookup_cons, hother] using ih
      · simp only [List.filter_cons, ne_eq, hname, not_false_eq_true, decide_true,
          ↓reduceIte, List.lookup_cons]
        rw [ih]

theorem lookup_filter_self {entries : List (String × ContextValue)} :
    (entries.filter (·.1 ≠ key)).lookup key = none := by
  induction entries with
  | nil => rfl
  | cons entry rest ih =>
      obtain ⟨name, stored⟩ := entry
      by_cases hname : name = key
      · simpa [hname] using ih
      · have hother : (key == name) = false := by
          simpa using fun heq : key = name => hname heq.symm
        simpa [hname, List.lookup_cons, hother] using ih

@[simp]
theorem getContext_addContext_self : (flow.addContext key value).getContext key = some value := by
  simp [Flow.addContext, Flow.getContext]

theorem getContext_addContext_of_ne (hne : key' ≠ key) :
    (flow.addContext key value).getContext key' = flow.getContext key' := by
  have hother : (key' == key) = false := by simpa using hne
  simp only [Flow.addContext, Flow.getContext, List.lookup_cons, hother]
  exact lookup_filter_of_ne hne

theorem getContext_deleteContext_self :
    (flow.deleteContext key).getContext key = none := lookup_filter_self

theorem getContext_deleteContext_of_ne (hne : key' ≠ key) :
    (flow.deleteContext key).getContext key' = flow.getContext key' :=
  lookup_filter_of_ne hne

theorem getContext_foldl_addContext {entries : List (String × String)}
    (hkeys : ∀ entry ∈ entries, entry.1 ≠ key) :
    (entries.foldl (fun stored entry => Flow.addContext stored entry.1
      (.text entry.2)) flow).getContext key = flow.getContext key := by
  induction entries generalizing flow with
  | nil => rfl
  | cons entry rest ih =>
      rw [List.foldl_cons, ih fun other hother =>
        hkeys other (List.mem_cons_of_mem entry hother)]
      exact getContext_addContext_of_ne (hkeys entry List.mem_cons_self).symm

theorem id_foldl_addContext (entries : List (String × String)) :
    (entries.foldl (fun stored entry => Flow.addContext stored entry.1
      (.text entry.2)) flow).id = flow.id := by
  induction entries generalizing flow with
  | nil => rfl
  | cons entry rest ih => exact ih

/-- A pending login is read from two keys. -/
theorem pendingMFALogin_congr {other : Flow}
    (hidentity : flow.getContext "pending_login_identity_id" =
      other.getContext "pending_login_identity_id")
    (hmethod : flow.getContext "pending_login_method" = other.getContext "pending_login_method") :
    pendingMFALogin platform flow = pendingMFALogin platform other := by
  rw [pendingMFALogin, pendingMFALogin, pendingMFALoginIdentity,
    pendingMFALoginIdentity, pendingMFALoginMethod, pendingMFALoginMethod,
    hidentity, hmethod]

/-- No other identity is pending than the one that was stored. -/
theorem pending_withPendingLogin {identityID other : UUID} {identifier : String}
    {primaryMethod method : AuthMethod}
    (hpending : pendingMFALogin platform (flow.withPendingLogin platform identityID
      identifier primaryMethod) = some (other, method)) : other = identityID := by
  have hstored : pendingMFALoginIdentity platform (flow.withPendingLogin platform
      identityID identifier primaryMethod) = some identityID := by
    rw [pendingMFALoginIdentity, Flow.withPendingLogin,
      getContext_addContext_of_ne (by decide),
      getContext_addContext_of_ne (by decide), getContext_addContext_self]
    exact platform.parse_uuidString identityID
  rw [pendingMFALogin, hstored] at hpending
  obtain ⟨found, -, heq⟩ := Option.map_eq_some_iff.mp hpending
  exact (Prod.mk.inj heq).1.symm

theorem pending_clearPendingMFALogin :
    pendingMFALogin platform (clearPendingMFALogin flow) = none := by
  have hcleared : pendingMFALoginIdentity platform (clearPendingMFALogin flow) = none := by
    rw [pendingMFALoginIdentity, clearPendingMFALogin,
      getContext_deleteContext_of_ne (by decide),
      getContext_deleteContext_of_ne (by decide), getContext_deleteContext_self]
  rw [pendingMFALogin, hcleared]
  rfl

/-- The keys of an authentication context. -/
theorem key_authContextOf {session : Session} {trusted : Bool} {time : Time}
    {entry : String × String} (hentry : entry ∈ authContextOf platform session trusted time) :
    entry.1 ≠ "pending_login_identity_id" ∧ entry.1 ≠ "pending_login_method" := by
  simp only [authContextOf, List.mem_cons, List.not_mem_nil, or_false] at hentry
  rcases hentry with rfl | rfl | rfl | rfl | rfl | rfl | rfl
  all_goals exact ⟨by simp, by simp⟩

theorem pending_withAuthContext {session : Session} {trusted : Bool} {time : Time} :
    pendingMFALogin platform (flow.withAuthContext session
      (authContextOf platform session trusted time)) = pendingMFALogin platform flow := by
  refine pendingMFALogin_congr ?_ ?_
  · rw [Flow.withAuthContext, getContext_addContext_of_ne (by decide),
      getContext_foldl_addContext fun entry hentry => (key_authContextOf hentry).1]
    rfl
  · rw [Flow.withAuthContext, getContext_addContext_of_ne (by decide),
      getContext_foldl_addContext fun entry hentry => (key_authContextOf hentry).2]
    rfl

theorem id_withAuthContext {session : Session} {authContext : List (String × String)} :
    (flow.withAuthContext session authContext).id = flow.id :=
  id_foldl_addContext authContext

theorem complete_eq_ok {done : Flow} (hdone : flow.complete = .ok done) :
    done = { flow with state := .completed } := by
  by_cases hterminal : flow.state.isTerminal = true
  · rw [Flow.complete, if_pos hterminal] at hdone
    cases hdone
  · rw [Flow.complete, if_neg hterminal] at hdone
    exact (Except.ok.inj hdone).symm

end Context

section Evidence

variable (platform : Platform) (cfg : Config)

/-- An email as it is looked up. -/
def normalEmail (email : String) : String := platform.tables.toLower (trimSpace email)

/-- The callback of an SSO sign-on, with what was submitted. -/
def ssoCallback (values : Values) : Call :=
  .fetchSSO (normalizedFlowValue values ["connection", "sso_connection", "provider"])
    (normalizedFlowValue values ["relay_state", "RelayState", "state"])
    (normalizedFlowValue values ["saml_response", "SAMLResponse"])

/-- A first factor of the identity succeeded with what the request brings: its
password, a magic link for it or for its address, an account of a social provider,
an SSO sign-on with its address (or the one it was provisioned for), or a passkey. -/
inductive FirstFactor (past : Past) (identityID : UUID) : Request → Prop where
  | password {client : Client} {input : FlowSubmitInput}
      (verified : ⟨.verifyPassword
        (normalizedEmailValue platform input.values ["identifier", "email"])
        (trimSpace (valueOf input.values "password")), .ok identityID⟩ ∈ past) :
      FirstFactor past identityID (.submitLogin client input)
  | magicLink {client : Client} {token recipient : String}
      (verified : ⟨.verifyMagicLink (trimSpace token),
        .ok (recipient, some identityID)⟩ ∈ past) :
      FirstFactor past identityID (.verifyMagicLink client token)
  | magicLinkAddress {client : Client} {token recipient : String}
      (verified : ⟨.verifyMagicLink (trimSpace token), .ok (recipient, none)⟩ ∈ past)
      (owner : ⟨.selectIdentityByEmail (normalEmail platform recipient) true,
        .ok (some identityID)⟩ ∈ past) :
      FirstFactor past identityID (.verifyMagicLink client token)
  | social {client : Client} {input : FlowSubmitInput} {status : Nat}
      {body : SocialCallback}
      (answered : ⟨.fetchSocial
        (normalizedFlowValue input.values ["provider", "social_provider"])
        (normalizedFlowValue input.values ["state"])
        (normalizedFlowValue input.values ["code"]), .answered status body⟩ ∈ past)
      (success : 200 ≤ status ∧ status < 300)
      (account : platform.parseUUID (trimSpace body.identityID) = some identityID) :
      FirstFactor past identityID (.completeExternalLogin client input)
  | saml {client : Client} {input : FlowSubmitInput} {status : Nat} {body : SSOCallback}
      (answered : ⟨ssoCallback input.values, .answered status body⟩ ∈ past)
      (success : 200 ≤ status ∧ status < 300)
      (owner : ⟨.selectIdentityByEmail
        (normalEmail platform (normalEmail platform body.email)) false,
        .ok (some identityID)⟩ ∈ past) :
      FirstFactor past identityID (.completeExternalLogin client input)
  | samlProvisioned {client : Client} {input : FlowSubmitInput} {status : Nat}
      {body : SSOCallback} {addressID : UUID} {createdAt : Time}
      (answered : ⟨ssoCallback input.values, .answered status body⟩ ∈ past)
      (success : 200 ≤ status ∧ status < 300)
      (provisions : body.jitProvision = true)
      (created : ⟨.createIdentity identityID addressID
        (normalEmail platform body.email), .ok createdAt⟩ ∈ past) :
      FirstFactor past identityID (.completeExternalLogin client input)
  | passkey {client : Client} {input : PasskeyInput}
      (owner : ⟨.selectIdentityByEmail
        (normalEmail platform (normalEmail platform input.identifier)) true,
        .ok (some identityID)⟩ ∈ past)
      (finished : ⟨.finishPasskey (platform.uuidString identityID) input.challenge
        input.credentialID input.signature input.signCount, .ok ()⟩ ∈ past) :
      FirstFactor past identityID (.finishLoginPasskey client input)

/-- The identity as the MFA service knows it. -/
def mfaIdentity (identityID : UUID) : String :=
  trimSpace (platform.uuidString identityID)

/-- The client of a login. -/
def Request.client? : Request → Option Client
  | .submitLogin client _ => some client
  | .verifyMagicLink client _ => some client
  | .completeExternalLogin client _ => some client
  | .finishLoginPasskey client _ => some client
  | _ => none

/-- A second factor of the identity was verified with what the request brings: a code
in its form, or the token in its cookie. -/
inductive SecondFactor (past : Past) (identityID : UUID) : Request → Prop where
  | totp {client : Client} {input : FlowSubmitInput} {secret : String} {usedAt : Time}
      (verified : MFA.TOTPProof platform.mfa (MFA.new cfg.mfa) (mfaCalls.share past)
        (mfaIdentity platform identityID)
        (normalizedFlowValue input.values ["totp_code", "code"]) secret usedAt) :
      SecondFactor past identityID (.submitLogin client input)
  | backupCode {client : Client} {input : FlowSubmitInput} {row : MFA.BackupCode}
      (verified : MFA.BackupCodeProof platform.mfa (mfaCalls.share past)
        (mfaIdentity platform identityID)
        (normalizedFlowValue input.values ["backup_code"]) row) :
      SecondFactor past identityID (.submitLogin client input)
  | trustedDevice {request : Request} {client : Client} {device : MFA.TrustedDevice}
      (sent : request.client? = some client)
      (verified : MFA.DeviceProof platform.mfa (mfaCalls.share past)
        (mfaIdentity platform identityID) (readMFATrustedDeviceCookie client) device) :
      SecondFactor past identityID request

/-- No second factor is needed, or one was verified. -/
inductive Cleared (request : Request) (past : Past) (identityID : UUID) : Prop where
  | disabled (disabled : cfg.mfaAuth = false)
  | unenrolled (listed : ⟨.mfa (.selectFactors (mfaIdentity platform identityID)),
      .ok []⟩ ∈ past)
  | verified (verified : SecondFactor platform cfg past identityID request)

/-- The identity was found active. -/
def CheckedActive (past : Past) (identityID : UUID) : Prop :=
  identityID ≠ 0 ∧
    (⟨.selectIdentityActive identityID, .ok true⟩ : Called Reply) ∈ past

/-- The two ways to a session.  In the second the request began with reading the
flow. -/
inductive Granted (request : Request) (past : Past) (identityID : UUID) : Prop where
  | primary (firstFactor : FirstFactor platform past identityID request)
      (active : CheckedActive past identityID)
      (cleared : Cleared platform cfg request past identityID)
  | pending {client : Client} {input : FlowSubmitInput} {flow : Flow}
      {method : AuthMethod} (serves : request = .submitLogin client input)
      (read : [⟨.selectFlow input.flowID, .ok (some flow)⟩] <:+ past)
      (waits : pendingMFALogin platform flow = some (identityID, method))
      (secondFactor : SecondFactor platform cfg past identityID request)

/-- Whose login is pending in the flow has shown a first factor to this request,
or was pending when this request read the flow. -/
def Stores (request : Request) (past : Past) (row : Flow) : Prop :=
  ∀ identityID method, pendingMFALogin platform row = some (identityID, method) →
    FirstFactor platform past identityID request ∨
      ∃ id old, (⟨.selectFlow id, .ok (some old)⟩ : Called Reply) ∈ past ∧
        old.id = row.id ∧
          pendingMFALogin platform old = some (identityID, method)

/-- What a request owes. -/
def callDuty (request : Request) (past : Past) : Called Reply → Prop
  | ⟨.insertFlow row, _⟩ => pendingMFALogin platform row = none
  | ⟨.updateFlow row, _⟩ => Stores platform request past row
  | ⟨.insertSession row, _⟩ =>
      request.client? ≠ none ∧ Granted platform cfg request past row.identityID
  | ⟨.mfa (.upsertTOTPFactor _), _⟩ => ∃ other, request = .mfa other
  | _ => True

variable {platform cfg} {request : Request} {past later : Past} {identityID : UUID}
variable (hsub : past ⊆ later)

include hsub

theorem FirstFactor.mono (hfactor : FirstFactor platform past identityID request) :
    FirstFactor platform later identityID request := by
  cases hfactor with
  | password verified => exact .password (hsub verified)
  | magicLink verified => exact .magicLink (hsub verified)
  | magicLinkAddress verified owner =>
      exact .magicLinkAddress (hsub verified) (hsub owner)
  | social answered success account => exact .social (hsub answered) success account
  | saml answered success owner => exact .saml (hsub answered) success (hsub owner)
  | samlProvisioned answered success provisions created =>
      exact .samlProvisioned (hsub answered) success provisions (hsub created)
  | passkey owner finished => exact .passkey (hsub owner) (hsub finished)

theorem SecondFactor.mono (hfactor : SecondFactor platform cfg past identityID request) :
    SecondFactor platform cfg later identityID request := by
  have hshare : mfaCalls.share past ⊆ mfaCalls.share later :=
    List.filterMap_subset _ hsub
  cases hfactor with
  | totp verified => exact .totp (verified.mono hshare)
  | backupCode verified => exact .backupCode (verified.mono hshare)
  | trustedDevice sent verified => exact .trustedDevice sent (verified.mono hshare)

theorem Cleared.mono (hcleared : Cleared platform cfg request past identityID) :
    Cleared platform cfg request later identityID := by
  cases hcleared with
  | disabled disabled => exact .disabled disabled
  | unenrolled listed => exact .unenrolled (hsub listed)
  | verified verified => exact .verified (verified.mono hsub)

theorem CheckedActive.mono (hactive : CheckedActive past identityID) :
    CheckedActive later identityID :=
  ⟨hactive.1, hsub hactive.2⟩

omit hsub in
theorem Granted.mono (hsuffix : past <:+ later)
    (hgranted : Granted platform cfg request past identityID) :
    Granted platform cfg request later identityID := by
  have hsub := hsuffix.subset
  cases hgranted with
  | primary firstFactor active cleared =>
      exact .primary (firstFactor.mono hsub) (active.mono hsub) (cleared.mono hsub)
  | pending serves read waits secondFactor =>
      exact .pending serves (read.trans hsuffix) waits (secondFactor.mono hsub)

end Evidence

/-- Calls that every request may make. -/
def Plain (call : Called Reply) : Prop :=
  match call.1 with
  | .insertFlow _ => False
  | .updateFlow _ => False
  | .insertSession _ => False
  | .mfa (.upsertTOTPFactor _) => False
  | _ => True

theorem callDuty_of_plain {platform : Platform} {cfg : Config} {request : Request}
    (past : Past) (call : Called Reply) (hplain : Plain call) :
    callDuty platform cfg request past call := by
  obtain ⟨c, reply⟩ := call
  cases c with
  | mfa c => cases c <;> trivial
  | _ => trivial

section Plain

theorem only_now {ε : Type} : (now : Service Reply ε Time).Only Plain :=
  only_statement fun _ => trivial

theorem only_newUUID {ε : Type} : (newUUID : Service Reply ε UUID).Only Plain :=
  only_statement fun _ => trivial

theorem only_randomToken {ε : Type} (e : ε) : (randomToken e).Only Plain :=
  only_statement fun _ => trivial

theorem only_addAuthMethod (sessionID : UUID) (method : AuthMethod) :
    (addAuthMethod sessionID method).Only Plain := by
  unfold addAuthMethod
  simp only [bind_eq]
  exact only_now.bind fun _ => only_statement fun _ => trivial

theorem only_applySessionAuthMethod (session : Session) (method : AuthMethod) :
    (applySessionAuthMethod session method).Only Plain := by
  unfold applySessionAuthMethod
  by_cases hmem : method ∈ session.authMethods
  · rw [if_pos hmem]
    exact only_succeed
  · rw [if_neg hmem]
    simp only [bind_eq, pure_eq]
    exact only_now.bind fun _ => only_succeed

theorem only_authTime (session : Session) : (authTime session).Only Plain := by
  unfold authTime
  by_cases hzero : session.authenticatedAt = zeroTime
  · rw [if_pos hzero]
    exact only_now
  · rw [if_neg hzero]
    exact only_succeed

/-- An MFA program that enrols nothing. -/
theorem only_embed {ε α : Type} {x : Service MFA.Reply ε α}
    (hquiet : x.Only MFA.Quiet) : (x.embed mfaCalls).Only Plain := by
  refine hquiet.embed fun c reply hc => ?_
  cases c with
  | upsertTOTPFactor row => exact hc
  | _ => trivial

theorem only_mfaService {α : Type} {x : Service MFA.Reply MFA.MFAError α}
    (hquiet : x.Only MFA.Quiet) : (mfaService x).Only Plain :=
  (only_embed hquiet).orReject

theorem only_rememberTrustedDevice (platform : Platform) (cfg : Config)
    (client : Client) (identityID : UUID) :
    (rememberTrustedDevice platform cfg client identityID).Only Plain := by
  unfold rememberTrustedDevice
  simp only [bind_eq]
  refine (only_mfaService (MFA.quiet_rememberTrustedDevice _ _)).bind fun device => ?_
  by_cases hblank : trimSpace device.1 = ""
  · rw [if_pos hblank]
    exact only_succeed
  · rw [if_neg hblank]
    exact only_statement fun _ => trivial

theorem only_markEmailVerified (platform : Platform) (identityID : UUID)
    (email : String) : (markEmailVerified platform identityID email).Only Plain :=
  only_statement fun _ => trivial

end Plain

section Programs

variable {platform : Platform} {cfg : Config} {request : Request} {past : Past}

/-- A step of plain calls only extends the past. -/
theorem yields_plain {ε α : Type} {x : Service Reply ε α} {post : α → Past → Prop}
    (honly : x.Only Plain) (hpost : ∀ value later, past <:+ later → post value later) :
    x.Yields (callDuty platform cfg request) post past :=
  honly.yields callDuty_of_plain fun value added _ =>
    hpost value _ (List.suffix_append added past)

/-- One plain statement. -/
theorem yields_plain_statement {ε α : Type} {c : Call}
    {outcome : Reply c → Except ε α} {post : α → Past → Prop} (hplain : ∀ reply, Plain ⟨c, reply⟩)
    (hpost : ∀ reply value, outcome reply = .ok value → post value (⟨c, reply⟩ :: past)) :
    (statement c outcome).Yields (callDuty platform cfg request) post past := by
  rw [yields_statement]
  exact fun reply => ⟨callDuty_of_plain _ _ (hplain reply), hpost reply⟩

/-- An MFA program that enrols nothing, with what it yields alone. -/
theorem yields_embed {ε α : Type} {x : Service MFA.Reply ε α}
    {post : α → MFA.Past → Prop} (hquiet : x.Only MFA.Quiet)
    (hyields : x.Yields (fun _ _ => True) post (mfaCalls.share past)) :
    (x.embed mfaCalls).Yields (callDuty platform cfg request)
      (fun value later => post value (mfaCalls.share later)) past := by
  have hembed : (x.embed mfaCalls).Yields (fun _ _ => True)
      (fun value later => post value (mfaCalls.share later)) past :=
    hyields.embed fun _ _ _ _ => trivial
  exact (only_embed hquiet).yields_of callDuty_of_plain hembed

theorem getFlow_yields (id : UUID) :
    (getFlow id).Yields (callDuty platform cfg request)
      (fun flow later => ⟨.selectFlow id, .ok (some flow)⟩ :: past <:+ later) past := by
  refine yields_plain_statement (fun _ => trivial) ?_
  rintro (e | _ | flow) value hvalue
  · cases hvalue
  · cases hvalue
  · cases hvalue
    exact List.suffix_rfl

theorem validateFlow_yields (id : UUID) (csrfToken : String) :
    (validateFlow id csrfToken).Yields (callDuty platform cfg request)
      (fun flow later => ⟨.selectFlow id, .ok (some flow)⟩ :: past <:+ later) past := by
  unfold validateFlow
  simp only [bind_eq, pure_eq, yields_bind]
  refine (getFlow_yields id).imp fun flow later _ hread => ?_
  refine yields_plain only_now fun current final hfinal => ?_
  simp only [yields_ofExcept, yields_rejectIf, yields_succeed]
  exact fun _ _ _ => hread.trans hfinal

theorem updateFlow_yields {row : Flow} (hstores : Stores platform request past row) :
    (updateFlow row).Yields (callDuty platform cfg request) (fun _ _ => True) past := by
  rw [updateFlow, yields_statement]
  exact fun reply => ⟨hstores, fun _ _ => trivial⟩

theorem createLoginFlow_yields (requestURL : String) :
    (createLoginFlow cfg requestURL).Yields (callDuty platform cfg request)
      (fun _ _ => True) past := by
  unfold createLoginFlow newFlow
  simp only [bind_eq, pure_eq, yields_bind, yields_succeed]
  refine yields_plain (only_randomToken _) fun csrf later _ => ?_
  refine yields_plain only_now fun current later _ => ?_
  refine yields_plain only_newUUID fun id later _ => ?_
  rw [yields_statement]
  exact fun reply => ⟨rfl, fun _ _ => trivial⟩

/-- A flow goes back to the store as it was read but for its state. -/
theorem completeFlow_yields (id : UUID) :
    (completeFlow id).Yields (callDuty platform cfg request) (fun _ _ => True) past := by
  unfold completeFlow
  simp only [bind_eq, yields_bind, yields_ofExcept]
  refine (getFlow_yields id).imp fun flow later _ hread done hdone => ?_
  rw [complete_eq_ok hdone]
  exact updateFlow_yields fun identityID method hpending =>
    Or.inr ⟨id, flow, hread.subset List.mem_cons_self, rfl, hpending⟩

theorem create_yields {identityID : UUID} (method : AuthMethod) (hlogin : request.client? ≠ none)
    (hgranted : Granted platform cfg request past identityID) :
    (createSession platform cfg identityID method).Yields
      (callDuty platform cfg request) (fun _ _ => True) past := by
  unfold createSession create
  simp only [bind_eq, pure_eq, yields_bind, yields_succeed]
  refine yields_plain only_now fun current later hlater => ?_
  have hgranted := hgranted.mono hlater
  refine yields_plain (only_randomToken _) fun token later hlater => ?_
  have hgranted := hgranted.mono hlater
  refine yields_plain (only_randomToken _) fun logoutToken later hlater => ?_
  have hgranted := hgranted.mono hlater
  refine yields_plain only_newUUID fun id later hlater => ?_
  have hgranted := hgranted.mono hlater
  rw [yields_statement]
  refine fun reply => ⟨⟨hlogin, hgranted⟩, fun _ _ => ?_⟩
  refine yields_plain_statement (fun _ => trivial) fun _ _ _ => ?_
  exact yields_plain_statement (fun _ => trivial) fun _ _ _ => trivial

/-- A flow of the request is one that it has read. -/
def Read (past : Past) (flow : Flow) : Prop :=
  ∃ id, (⟨.selectFlow id, .ok (some flow)⟩ : Called Reply) ∈ past

theorem applyAuthContextToFlow_yields {flow : Option Flow} {session : Session}
    {trusted : Bool} {time : Time}
    (hstores : ∀ row, flow = some row → Stores platform request past row) :
    (applyAuthContextToFlow flow session (authContextOf platform session trusted time)).Yields
      (callDuty platform cfg request) (fun _ _ => True) past := by
  cases flow with
  | none => simp [applyAuthContextToFlow]
  | some row =>
      rw [applyAuthContextToFlow, yields_orReject]
      refine updateFlow_yields ?_
      intro identityID method hpending
      rw [pending_withAuthContext] at hpending
      rw [id_withAuthContext]
      exact hstores row rfl identityID method hpending

/-- The last part of a login: the context goes into the flow. -/
theorem authenticated_yields {flow : Option Flow} {session : Session} {trusted : Bool}
    (hstores : ∀ later, past <:+ later → ∀ row, flow = some row →
      Stores platform request later row) :
    ((authCompletionContext platform session trusted).bind fun authContext =>
      (applyAuthContextToFlow flow session authContext).bind fun _ =>
        succeed (authenticated authContext)).Yields
      (callDuty platform cfg request) (fun _ _ => True) past := by
  unfold authCompletionContext
  simp only [bind_eq, pure_eq, yields_bind, yields_succeed]
  refine yields_plain (only_authTime session) fun time later hlater => ?_
  exact applyAuthContextToFlow_yields (hstores later hlater)

theorem stores_of_read {flow : Flow} (hread : Read past flow) :
    Stores platform request past flow := by
  obtain ⟨id, hread⟩ := hread
  exact fun identityID method hpending => Or.inr ⟨id, flow, hread, rfl, hpending⟩

theorem Read.mono {later : Past} {flow : Flow} (hsub : past ⊆ later)
    (hread : Read past flow) : Read later flow := by
  obtain ⟨id, hread⟩ := hread
  exact ⟨id, hsub hread⟩

theorem grantSession_yields {flow : Option Flow} {identityID : UUID}
    (method : AuthMethod) (trusted : Bool) (hlogin : request.client? ≠ none)
    (hread : ∀ row, flow = some row → Read past row)
    (hgranted : Granted platform cfg request past identityID) :
    (grantSession platform cfg flow identityID method trusted).Yields
      (callDuty platform cfg request) (fun _ _ => True) past := by
  unfold grantSession
  simp only [bind_eq, pure_eq]
  rw [yields_bind]
  refine (create_yields method hlogin hgranted).imp fun session later hsuffix _ => ?_
  have hstores : ∀ last, later <:+ last → ∀ row, flow = some row →
      Stores platform request last row := fun last hlast row hrow =>
    stores_of_read ((hread row hrow).mono (hsuffix.trans hlast).subset)
  cases trusted with
  | false =>
      rw [if_neg Bool.false_ne_true, yields_bind, yields_succeed]
      exact authenticated_yields hstores
  | true =>
      rw [if_pos rfl, yields_bind]
      refine yields_plain (only_addAuthMethod _ _) fun _ next hnext => ?_
      rw [yields_bind]
      refine yields_plain (only_applySessionAuthMethod _ _) fun _ final hfinal => ?_
      exact authenticated_yields fun last hlast =>
        hstores last ((hnext.trans hfinal).trans hlast)

theorem identityIsActive_yields (identityID : UUID) :
    (identityIsActive identityID).Yields (callDuty platform cfg request)
      (fun active later => active = true → CheckedActive later identityID) past := by
  unfold identityIsActive
  by_cases hnil : identityID = 0
  · rw [if_pos hnil]
    simp
  · rw [if_neg hnil]
    refine yields_plain_statement (fun _ => trivial) ?_
    rintro (e | active) value hvalue hactive
    · cases hvalue
    · cases hvalue
      subst hactive
      exact ⟨hnil, List.mem_cons_self⟩

theorem hasEnrolledFactor_yields (identityID : String) (past : MFA.Past) :
    (MFA.hasEnrolledFactor identityID).Yields (fun _ _ => True)
      (fun enrolled later => enrolled = false →
        (⟨.selectFactors (trimSpace identityID), .ok []⟩ : Called MFA.Reply) ∈ later)
      past := by
  unfold MFA.hasEnrolledFactor MFA.listFactorsByIdentity
  simp only [bind_eq, pure_eq, yields_bind, yields_orReject, yields_statement,
    yields_succeed, true_and]
  rintro (e | factors) value hvalue henrolled
  · cases hvalue
  · cases hvalue
    have hnone : factors = [] := by simpa using henrolled
    rw [hnone]
    exact List.mem_cons_self

theorem mem_of_mem_share {c : MFA.Call} {reply : MFA.Reply c} {past : Past}
    (hmem : (⟨c, reply⟩ : Called MFA.Reply) ∈ mfaCalls.share past) :
    (⟨.mfa c, reply⟩ : Called Reply) ∈ past := by
  obtain ⟨⟨c', reply'⟩, hcall, hview⟩ := List.mem_filterMap.mp hmem
  cases c' with
  | mfa c' =>
      cases hview
      exact hcall
  | _ => cases hview

theorem validateTrustedDevice_yields {client : Client}
    (hclient : request.client? = some client) (identityID : UUID) :
    (validateTrustedDevice platform client identityID).Yields (callDuty platform cfg request)
      (fun trusted later => trusted = true →
        SecondFactor platform cfg later identityID request) past := by
  unfold validateTrustedDevice
  by_cases hblank : readMFATrustedDeviceCookie client = ""
  · rw [if_pos hblank]
    simp
  · rw [if_neg hblank, mfaService, yields_orReject]
    refine (yields_embed (MFA.quiet_validateTrustedDevice _ _)
      (MFA.validateTrustedDevice_yields (fun _ _ _ => trivial) _ _ _)).imp ?_
    intro trusted later _ hproof htrusted
    obtain ⟨device, hdevice⟩ := hproof htrusted
    rw [readMFATrustedDeviceCookie, trimSpace_trimSpace] at hdevice
    exact .trustedDevice hclient hdevice

theorem flowOrNew_yields (client : Client) (flow : Option Flow) :
    (flowOrNew cfg client flow).Yields (callDuty platform cfg request) (fun _ _ => True) past := by
  cases flow with
  | none =>
      rw [flowOrNew, yields_orReject]
      exact createLoginFlow_yields client.requestURL
  | some row =>
      rw [flowOrNew]
      simp

/-- Either the flow waits now, or nothing more is needed. -/
theorem ensureSecondFactor_yields {client : Client}
    (hclient : request.client? = some client) (flow : Option Flow) {identityID : UUID}
    (identifier : String) (method : AuthMethod)
    (hfactor : FirstFactor platform past identityID request) :
    (ensureSecondFactorOrTrustedDevice platform cfg client flow identityID
      identifier method).Yields (callDuty platform cfg request)
      (fun second later => second.2 = none →
        Cleared platform cfg request later identityID) past := by
  unfold ensureSecondFactorOrTrustedDevice
  by_cases hmfa : cfg.mfaAuth = false
  · rw [if_pos hmfa]
    simp only [pure_eq, yields_succeed]
    exact fun _ => .disabled hmfa
  · rw [if_neg hmfa]
    simp only [bind_eq, pure_eq]
    rw [yields_bind, mfaService, yields_orReject]
    refine (yields_embed (MFA.quiet_hasEnrolledFactor _)
      (hasEnrolledFactor_yields _ _)).imp fun enrolled later hsuffix hnone => ?_
    by_cases henrolled : enrolled = false
    · rw [if_pos henrolled, yields_succeed]
      exact fun _ => .unenrolled (mem_of_mem_share (hnone henrolled))
    · rw [if_neg henrolled, yields_bind]
      refine (validateTrustedDevice_yields hclient identityID).imp
        fun trusted next hnext hproof => ?_
      by_cases htrusted : trusted = true
      · rw [if_pos htrusted, yields_succeed]
        exact fun _ => .verified (hproof htrusted)
      · rw [if_neg htrusted, yields_bind]
        refine (flowOrNew_yields client flow).imp fun waiting last hlast _ => ?_
        have hfirst := hfactor.mono ((hsuffix.trans hnext).trans hlast).subset
        unfold prepareMFALoginFlow
        simp only [bind_eq, pure_eq, yields_bind, yields_orReject, yields_succeed]
        refine (updateFlow_yields ?_).imp fun _ _ _ _ hpending => (by cases hpending)
        intro other otherMethod hpending
        rw [pending_withPendingLogin hpending]
        exact Or.inl hfirst

theorem finishPrimaryAuthentication_yields {client : Client}
    (hclient : request.client? = some client) {flow : Option Flow} {identityID : UUID}
    (identifier : String) (method : AuthMethod) (hread : ∀ row, flow = some row → Read past row)
    (hfactor : FirstFactor platform past identityID request) :
    (finishPrimaryAuthentication platform cfg client flow identityID identifier
      method).Yields (callDuty platform cfg request) (fun _ _ => True) past := by
  unfold finishPrimaryAuthentication
  simp only [bind_eq, pure_eq, yields_bind, yields_rejectIf]
  refine (identityIsActive_yields identityID).imp fun active later hsuffix hchecked hactive => ?_
  have hchecked := hchecked (Bool.not_eq_false _ ▸ hactive)
  refine (ensureSecondFactor_yields hclient flow identifier method
    (hfactor.mono hsuffix.subset)).imp fun second final hfinal hcleared => ?_
  have hsub := hsuffix.trans hfinal
  obtain ⟨trusted, pending⟩ := second
  cases pending with
  | some waiting => simp
  | none =>
      refine grantSession_yields method trusted (by simp [hclient])
        (fun row hrow => (hread row hrow).mono hsub.subset) ?_
      exact .primary (hfactor.mono hsub.subset) (hchecked.mono hfinal.subset) (hcleared rfl)

theorem verifySecondFactor_yields (identityID : UUID) (client : Client) (input : FlowSubmitInput) :
    (verifySecondFactor platform cfg identityID
      (normalizedFlowValue input.values ["totp_code", "code"])
      (normalizedFlowValue input.values ["backup_code"])).Yields
      (callDuty platform cfg request) (fun _ later =>
        SecondFactor platform cfg later identityID (.submitLogin client input)) past := by
  unfold verifySecondFactor
  by_cases htotp : normalizedFlowValue input.values ["totp_code", "code"] ≠ ""
  · rw [if_pos htotp]
    simp only [bind_eq, pure_eq, yields_bind, yields_orReject, yields_succeed]
    refine (yields_embed (MFA.quiet_verifyTOTP _ _)
      (MFA.verifyTOTP_yields (fun _ _ _ => trivial) _ _ _ _)).imp ?_
    rintro _ later - ⟨secret, usedAt, hproof⟩
    exact .totp hproof
  · rw [if_neg htotp]
    simp only [bind_eq, pure_eq, yields_bind, yields_orReject, yields_succeed]
    refine (yields_embed (MFA.quiet_verifyBackupCode _ _)
      (MFA.verifyBackupCode_yields (fun _ _ _ => trivial) _ _ _)).imp ?_
    rintro _ later - ⟨row, hproof⟩
    exact .backupCode hproof

theorem completePendingMFALogin_yields {client : Client} {input : FlowSubmitInput}
    {flow : Flow} {identityID : UUID} {method : AuthMethod}
    (hread : [⟨.selectFlow input.flowID, .ok (some flow)⟩] <:+ past)
    (hwaits : pendingMFALogin platform flow = some (identityID, method)) :
    (completePendingMFALogin platform cfg client flow input.values identityID
      method).Yields (callDuty platform cfg (.submitLogin client input))
      (fun _ _ => True) past := by
  unfold completePendingMFALogin
  simp only [bind_eq, pure_eq]
  rw [yields_bind, yields_rejectIf]
  intro _
  rw [yields_bind, yields_rejectIf]
  intro _
  rw [yields_bind]
  refine (verifySecondFactor_yields identityID client input).imp
    fun second later hsuffix hsecond => ?_
  rw [yields_bind]
  refine (create_yields method (by simp [Request.client?])
    (.pending rfl (hread.trans hsuffix) hwaits hsecond)).imp ?_
  intro session later _ _
  rw [yields_bind]
  refine yields_plain (only_addAuthMethod _ _) fun _ later _ => ?_
  rw [yields_bind]
  refine yields_plain (only_applySessionAuthMethod _ _) fun session later _ => ?_
  have hstores : ∀ last, later <:+ last → ∀ row, some (clearPendingMFALogin flow) = some row →
        Stores platform (.submitLogin client input) last row := by
    intro last _ row hrow other otherMethod hpending
    obtain rfl := Option.some.inj hrow
    rw [pending_clearPendingMFALogin] at hpending
    cases hpending
  by_cases hremember : rememberDevice platform input.values = true
  · rw [if_pos hremember, yields_bind]
    refine yields_plain (only_rememberTrustedDevice _ _ _ _) fun _ final hfinal => ?_
    exact authenticated_yields fun last hlast =>
      hstores last (hfinal.trans hlast)
  · rw [if_neg hremember]
    exact authenticated_yields hstores

theorem executeLoginFlow_yields {client : Client} {input : FlowSubmitInput}
    {flow : Flow} (hread : [⟨.selectFlow input.flowID, .ok (some flow)⟩] <:+ past) :
    (executeLoginFlow platform cfg client flow input.values).Yields
      (callDuty platform cfg (.submitLogin client input)) (fun _ _ => True) past := by
  unfold executeLoginFlow
  cases hpending : pendingMFALogin platform flow with
  | some pending =>
      obtain ⟨identityID, method⟩ := pending
      exact completePendingMFALogin_yields hread hpending
  | none =>
      by_cases hpassword : trimSpace (valueOf input.values "password") ≠ ""
      · simp only [if_pos hpassword]
        unfold passwordLogin
        simp only [bind_eq, yields_bind, yields_rejectIf]
        intro _ _
        refine yields_plain_statement (fun _ => trivial) ?_
        rintro (e | identityID) value hvalue
        · cases hvalue
        · cases hvalue
          refine finishPrimaryAuthentication_yields rfl _ _ ?_ (.password List.mem_cons_self)
          rintro row hrow
          obtain rfl := Option.some.inj hrow
          exact ⟨input.flowID, List.mem_cons_of_mem _ (hread.subset (List.mem_singleton_self _))⟩
      · simp only [if_neg hpassword]
        unfold magicLinkChallenge
        simp only [bind_eq, pure_eq, yields_bind, yields_rejectIf, yields_succeed]
        intro _ _
        exact yields_plain_statement (fun _ => trivial) fun _ _ _ => trivial

theorem answerOnFlow_yields (flowID : UUID) (flowType : Option FlowType) (result : Result) :
    (answerOnFlow flowID flowType result).Yields (callDuty platform cfg request)
      (fun _ _ => True) past := by
  unfold answerOnFlow
  simp only [bind_eq, pure_eq]
  by_cases hkeep : result.keepFlowActive = true
  · rw [if_pos hkeep]
    simp
  · rw [if_neg hkeep, yields_bind, yields_orReject]
    refine (completeFlow_yields flowID).imp fun _ _ _ _ => ?_
    simp

theorem lookupIdentityByEmail_yields (email : String) (onlyActive : Bool) :
    (lookupIdentityByEmail platform email onlyActive).Yields (callDuty platform cfg request)
      (fun found later => ∀ identityID, found = some identityID →
        (⟨.selectIdentityByEmail (normalEmail platform email) onlyActive,
          .ok (some identityID)⟩ : Called Reply) ∈ later) past := by
  unfold lookupIdentityByEmail
  by_cases hblank : platform.tables.toLower (trimSpace email) = ""
  · simp only [hblank, ↓reduceIte, pure_eq, yields_succeed]
    exact fun _ hfound => (by cases hfound)
  · simp only [hblank, ↓reduceIte]
    refine yields_plain_statement (fun _ => trivial) ?_
    rintro (e | found) value hvalue identityID hfound
    · cases hvalue
    · cases hvalue
      rw [hfound]
      exact List.mem_cons_self

theorem callbackBody_eq_ok {α : Type} {unavailable failed : String} {reply : Fetched α} {body : α}
    (hbody : callbackBody unavailable failed reply = .ok body) :
    ∃ status, reply = .answered status body ∧ 200 ≤ status ∧ status < 300 := by
  cases reply with
  | unavailable => cases hbody
  | failed => cases hbody
  | answered status found =>
      rw [callbackBody] at hbody
      split_ifs at hbody with houtside
      cases hbody
      exact ⟨status, rfl, by omega⟩

theorem resolveExternalSocialLogin_yields (client : Client) (input : FlowSubmitInput) :
    (resolveExternalSocialLogin platform input.values).Yields
      (callDuty platform cfg request) (fun resolution later => FirstFactor platform later
        resolution.identityID (.completeExternalLogin client input)) past := by
  unfold resolveExternalSocialLogin
  simp only [bind_eq, pure_eq, yields_bind, yields_rejectIf, yields_ofExcept, yields_succeed]
  intro _
  refine yields_plain_statement (fun _ => trivial) ?_
  intro reply body hbody identityID hparsed
  obtain ⟨status, rfl, hstatus⟩ := callbackBody_eq_ok hbody
  exact .social List.mem_cons_self hstatus (MFA.elim_eq_ok.mp hparsed)

theorem createIdentity_yields (email : String) :
    (createIdentity email).Yields (callDuty platform cfg request)
      (fun identityID later => ∃ addressID createdAt,
        (⟨.createIdentity identityID addressID email, .ok createdAt⟩ :
          Called Reply) ∈ later) past := by
  unfold createIdentity
  simp only [bind_eq, pure_eq, yields_bind, yields_succeed]
  refine yields_plain only_newUUID fun id later _ => ?_
  refine yields_plain only_newUUID fun addressID later _ => ?_
  refine yields_plain_statement (fun _ => trivial) ?_
  rintro (e | createdAt) value hvalue
  · cases hvalue
  · exact ⟨addressID, createdAt, List.mem_cons_self⟩

/-- The identity of an SSO login, given the callback that named its address. -/
theorem provisionedIdentity_yields (client : Client) {input : FlowSubmitInput}
    {status : Nat} {body : SSOCallback}
    (hanswered : ⟨ssoCallback input.values, .answered status body⟩ ∈ past)
    (hstatus : 200 ≤ status ∧ status < 300) :
    (provisionedIdentity platform body (normalEmail platform body.email)).Yields
      (callDuty platform cfg request) (fun identityID later => FirstFactor platform later
        identityID (.completeExternalLogin client input)) past := by
  unfold provisionedIdentity
  simp only [bind_eq, pure_eq, yields_bind]
  refine (lookupIdentityByEmail_yields _ false).imp fun found later hsuffix howner => ?_
  cases found with
  | some identityID =>
      simp only [yields_succeed]
      exact .saml (hsuffix.subset hanswered) hstatus (howner identityID rfl)
  | none =>
      simp only [yields_bind, yields_rejectIf]
      intro hprovisions
      refine (createIdentity_yields _).imp ?_
      rintro identityID final hfinal ⟨addressID, createdAt, hcreated⟩
      exact .samlProvisioned ((hsuffix.trans hfinal).subset hanswered) hstatus
        (Bool.not_eq_false _ ▸ hprovisions) hcreated

theorem resolveExternalSAMLLogin_yields (client : Client) (input : FlowSubmitInput) :
    (resolveExternalSAMLLogin platform input.values).Yields
      (callDuty platform cfg request) (fun resolution later => FirstFactor platform later
        resolution.identityID (.completeExternalLogin client input)) past := by
  unfold resolveExternalSAMLLogin
  simp only [bind_eq, pure_eq, yields_bind, yields_rejectIf, yields_succeed]
  intro _
  refine yields_plain_statement (fun _ => trivial) ?_
  intro reply body hbody _
  obtain ⟨status, rfl, hstatus⟩ := callbackBody_eq_ok hbody
  refine (provisionedIdentity_yields client List.mem_cons_self hstatus).imp ?_
  intro identityID later _ hfactor
  exact yields_plain (only_markEmailVerified _ _ _) fun _ _ hlater =>
    hfactor.mono hlater.subset

theorem resolveExternalLogin_yields (client : Client) (input : FlowSubmitInput) :
    (resolveExternalLogin platform input.values).Yields
      (callDuty platform cfg request) (fun resolution later => FirstFactor platform later
        resolution.identityID (.completeExternalLogin client input)) past := by
  unfold resolveExternalLogin
  simp only [bind_eq, yields_bind, yields_rejectIf, yields_ofExcept]
  intro _ method _
  cases method with
  | social => exact resolveExternalSocialLogin_yields client input
  | saml => exact resolveExternalSAMLLogin_yields client input
  | _ => simp

end Programs

section Serve

variable {platform : Platform} {cfg : Config}

theorem handleFlowSubmit_yields (client : Client) (input : FlowSubmitInput) :
    (handleFlowSubmit platform cfg client input).Yields
      (callDuty platform cfg (.submitLogin client input)) (fun _ _ => True) [] := by
  unfold handleFlowSubmit
  simp only [bind_eq, yields_bind, yields_orReject, yields_rejectIf]
  refine (validateFlow_yields _ _).imp fun flow later _ hread _ => ?_
  refine (executeLoginFlow_yields hread).imp fun result _ _ _ => ?_
  exact answerOnFlow_yields _ _ result

theorem handleCompleteExternalLogin_yields (client : Client) (input : FlowSubmitInput) :
    (handleCompleteExternalLogin platform cfg client input).Yields
      (callDuty platform cfg (.completeExternalLogin client input)) (fun _ _ => True) [] := by
  unfold handleCompleteExternalLogin
  simp only [bind_eq, yields_bind, yields_orReject, yields_rejectIf]
  refine (validateFlow_yields _ _).imp fun flow later _ hread _ => ?_
  refine (resolveExternalLogin_yields client input).imp fun resolution final hfinal hfactor => ?_
  refine (finishPrimaryAuthentication_yields rfl _ _ ?_ hfactor).imp fun result _ _ _ => ?_
  · intro row hrow
    obtain rfl := Option.some.inj hrow
    exact ⟨input.flowID, (hread.trans hfinal).subset List.mem_cons_self⟩
  · exact answerOnFlow_yields _ _ result

theorem handleMagicLinkVerify_yields (client : Client) (token : String) :
    (handleMagicLinkVerify platform cfg client token).Yields
      (callDuty platform cfg (.verifyMagicLink client token)) (fun _ _ => True) [] := by
  unfold handleMagicLinkVerify
  simp only [bind_eq, pure_eq, yields_bind, yields_rejectIf, yields_ofExcept, yields_succeed]
  intro _ _
  refine yields_plain_statement (fun _ => trivial) ?_
  rintro (e | ⟨recipient, own⟩) value hvalue
  · cases hvalue
  · cases hvalue
    have hfinish : ∀ {identityID : UUID} {later : Past},
        FirstFactor platform later identityID (.verifyMagicLink client token) →
          (finishPrimaryAuthentication platform cfg client none identityID recipient
            .magicLink).Yields
            (callDuty platform cfg (.verifyMagicLink client token))
            (fun _ _ => True) later := fun hfactor =>
      finishPrimaryAuthentication_yields rfl _ _ (fun _ hrow => (by cases hrow)) hfactor
    cases own with
    | some identityID =>
        simp only [magicLinkIdentity, pure_eq, yields_succeed]
        intro found hfound
        rw [MFA.elim_eq_ok] at hfound
        cases hfound
        exact hfinish (.magicLink List.mem_cons_self)
    | none =>
        simp only [magicLinkIdentity, yields_orReject]
        refine (lookupIdentityByEmail_yields _ true).imp
          fun resolved later hsuffix howner identityID hfound => ?_
        rw [MFA.elim_eq_ok] at hfound
        exact hfinish (.magicLinkAddress (hsuffix.subset List.mem_cons_self)
          (howner identityID hfound))

theorem handleFinishLoginPasskey_yields (client : Client) (input : PasskeyInput) :
    (handleFinishLoginPasskey platform cfg client input).Yields
      (callDuty platform cfg (.finishLoginPasskey client input)) (fun _ _ => True) [] := by
  unfold handleFinishLoginPasskey
  simp only [bind_eq, yields_bind, yields_orReject, yields_rejectIf, yields_ofExcept]
  intro _ flowID _
  refine (validateFlow_yields _ _).imp fun flow later _ hread => ?_
  refine (lookupIdentityByEmail_yields _ true).imp
    fun found next hnext howner identityID hfound => ?_
  rw [MFA.elim_eq_ok] at hfound
  refine yields_plain_statement (fun _ => trivial) ?_
  rintro (e | ⟨⟩) value hvalue
  · cases hvalue
  · refine (finishPrimaryAuthentication_yields rfl _ _ ?_
      (.passkey (List.mem_cons_of_mem _ (howner identityID hfound))
        List.mem_cons_self)).imp fun result _ _ _ => answerOnFlow_yields _ _ result
    intro row hrow
    obtain rfl := Option.some.inj hrow
    exact ⟨flowID, List.mem_cons_of_mem _ ((hread.trans hnext).subset List.mem_cons_self)⟩

theorem handleInitLogin_yields (requestURL : String) :
    (handleInitLogin cfg requestURL).Yields
      (callDuty platform cfg (.initLogin requestURL)) (fun _ _ => True) [] := by
  unfold handleInitLogin
  simp only [bind_eq, pure_eq, yields_bind, yields_orReject, yields_succeed]
  exact createLoginFlow_yields requestURL

theorem handleAdminUpdateIdentity_yields (identityID : UUID) (state : IdentityState) :
    (handleAdminUpdateIdentity identityID state).Yields
      (callDuty platform cfg (.updateIdentity identityID state)) (fun _ _ => True) [] :=
  yields_plain_statement (fun _ => trivial) fun _ _ _ => trivial

theorem handleAdminDeleteIdentity_yields (identityID : UUID) :
    (handleAdminDeleteIdentity identityID).Yields
      (callDuty platform cfg (.deleteIdentity identityID)) (fun _ _ => True) [] :=
  yields_plain_statement (fun _ => trivial) fun _ _ _ => trivial

theorem keeps_serve (request : Request) :
    (serve platform cfg request).Keeps (callDuty platform cfg request) (fun _ _ => True) [] := by
  cases request with
  | initLogin requestURL =>
      rw [serve]
      exact (handleInitLogin_yields requestURL).finish_plain
  | submitLogin client input =>
      rw [serve]
      exact (handleFlowSubmit_yields client input).finish_plain
  | verifyMagicLink client token =>
      rw [serve]
      exact (handleMagicLinkVerify_yields client token).finish_plain
  | completeExternalLogin client input =>
      rw [serve]
      exact (handleCompleteExternalLogin_yields client input).finish_plain
  | finishLoginPasskey client input =>
      rw [serve]
      exact (handleFinishLoginPasskey_yields client input).finish_plain
  | updateIdentity identityID state =>
      rw [serve]
      exact (handleAdminUpdateIdentity_yields identityID state).finish_plain
  | deleteIdentity identityID =>
      rw [serve]
      exact (handleAdminDeleteIdentity_yields identityID).finish_plain
  | mfa inner =>
      rw [serve, Program.keeps_bind]
      refine Program.Keeps.embed (Program.keeps_trivial _ _) ?_
      intro past c reply _
      cases c with
      | upsertTOTPFactor row => exact ⟨inner, rfl⟩
      | _ => trivial

end Serve

section Runs

variable {platform : Platform} {cfg : Config} {db : Database}
  {actions : Schedule}

theorem owes_of_run :
    Throughout (Owes (callDuty platform cfg) fun _ _ _ => True) (runFrom platform cfg db actions) :=
  (system platform cfg).execute_owes keeps_serve actions db

theorem answers_of_run : Throughout (Answers perform effect db) (runFrom platform cfg db actions) :=
  ((system platform cfg).execute_replay (fun _ _ _ => rfl) actions db).2

theorem coherent_of_run : Throughout Coherent (runFrom platform cfg db actions) :=
  (system platform cfg).execute_coherent actions db

end Runs

section Sample

instance (c : Call) : DecidableEq (Reply c) := by
  cases c <;> infer_instance

/-- UUIDs in unary. -/
def samplePlatform : Platform where
  tables := ⟨id, id⟩
  mfa := MFA.samplePlatform
  uuidString id := String.ofList (List.replicate id.toNat 'x')
  parseUUID text := some (BitVec.ofNat 128 text.toList.length)
  parse_uuidString id := by
    rw [trimSpace_eq_self]
    · simp
    · intro c hc
      rw [String.toList_ofList] at hc
      rw [List.eq_of_mem_replicate hc]
      decide
  formatTime _ := "now"

def sampleConfig : Config := ⟨true, true, true, true, 0, 0, MFA.sampleConfig⟩

/-- A choice at the epoch, with this UUID and these random bytes. -/
def sampleChoice (uuid : UUID) (entropy : List UInt8) : Choice where
  now := 0
  entropy := some entropy
  uuid := uuid
  tiebreak _ := 0
  fails := false
  mfa := MFA.sampleChoice 0 [] ""
  password := .ok 1
  loginCode := .ok ()
  magicLink := .error .invalidCode
  passkey := .error ()
  social := .failed
  sso := .failed

def sampleFlow : Flow := ⟨7, .login, .active, none, none, "", [], 10, "csrf"⟩

/-- One flow, and one active identity with a one-time password. -/
def sampleDatabase : Database where
  flows := ⟨[sampleFlow], by simp⟩
  identities := ⟨[⟨1, .active, none⟩], by simp⟩
  addresses := .empty
  sessions := .empty
  sessionMethods := []
  mfa := ⟨.empty, ⟨[{ MFA.sampleFactor with identityID := "x" }], by simp⟩,
    .empty, .empty⟩
  lower := id

def sampleClient : Client := ⟨none, "", "", true⟩

/-- The password is submitted, and then the code of the first time step. -/
def submitPassword : Request :=
  .submitLogin sampleClient ⟨7, "csrf", [("identifier", "a"), ("password", "b")]⟩

def submitCode : Request :=
  .submitLogin sampleClient ⟨7, "csrf", [("totp_code", "000000")]⟩

end Sample

end Aegion.Login
