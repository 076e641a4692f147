/-
Where an authorization code comes from.  Binding data is copied from the
authorization request to the login challenge, from there to the consent
challenge and from there to the code, by three threads that need not know of
each other; in every history the three copies belong together.
-/
import Aegion.OAuthLaws

namespace Aegion.OAuth

open History

/-- The tables hold no authorization flow yet. -/
structure Unstarted (db : Database) : Prop where
  loginChallenges : db.loginChallenges.rows = []
  consentChallenges : db.consentChallenges.rows = []
  authCodes : db.authCodes.rows = []

/-- `StartAuthorization` read the client and then created the login challenge. -/
def StartsLogin (db : Database) (history : Trace) (start : AuthorizeRequest)
    (client : Client) (login : LoginChallenge) : Prop :=
  ∃ thread past before,
    ⟨thread, .startAuthorization start,
      .called ⟨.insertLoginChallenge login, .ok ()⟩⟩ :: past <:+ history ∧
    ⟨thread, .startAuthorization start,
      .called ⟨.selectClient start.clientID, .ok (some client)⟩⟩ :: before <:+ past ∧
    (tablesAfter db before).clients.find? start.clientID = some client

/-- `AcceptLogin` of the login challenge, by the given identity, created the
consent challenge. -/
def AcceptsLogin (history : Trace) (login : LoginChallenge) (identityID : String)
    (consent : ConsentChallenge) : Prop :=
  ∃ thread sessionID past, ⟨thread, .acceptLogin login.id identityID sessionID,
    .called ⟨.insertConsentChallenge consent, .ok ()⟩⟩ :: past <:+ history

/-- `AcceptConsent` of the consent challenge, with the given scopes, created the
code. -/
def GrantsConsent (history : Trace) (consent : ConsentChallenge)
    (grantedScopes : List String) (code : AuthCode) : Prop :=
  ∃ thread request past, Consents request consent.id grantedScopes ∧
    ⟨thread, request, .called ⟨.insertAuthCode code, .ok ()⟩⟩ :: past <:+ history

/-- The code descends from the authorization request. -/
def Descends (db : Database) (history : Trace) (start : AuthorizeRequest)
    (client : Client) (identityID : String) (grantedScopes : List String)
    (code : AuthCode) : Prop :=
  ∃ login consent, StartsLogin db history start client login ∧
    AcceptsLogin history login identityID consent ∧
    GrantsConsent history consent grantedScopes code

/-- What the code has from its ancestors. -/
structure Copies (start : AuthorizeRequest) (client : Client)
    (identityID : String) (grantedScopes : List String) (code : AuthCode) :
    Prop where
  clientID : code.clientID = start.clientID
  redirectURI : code.redirectURI = start.redirectURI
  codeChallenge : code.codeChallenge = some start.codeChallenge
  codeChallengeMethod :
    code.codeChallengeMethod = some start.codeChallengeMethod
  identityID : code.identityID = identityID
  scopes : code.scopes = grantedScopes
  granted : grantedScopes ⊆ requestedScopes start
  requested : requestedScopes start ⊆ client.scopes
  pkce : client.requirePKCE = true → start.codeChallenge ≠ ""

theorem Copies.of_terms_eq {start : AuthorizeRequest} {client : Client}
    {identityID : String} {grantedScopes : List String} {code other : AuthCode}
    (hcopies : Copies start client identityID grantedScopes other)
    (heq : code.terms = other.terms) : Copies start client identityID grantedScopes code where
  clientID := (congrArg AuthCode.clientID heq).trans hcopies.clientID
  redirectURI := (congrArg AuthCode.redirectURI heq).trans hcopies.redirectURI
  codeChallenge :=
    (congrArg AuthCode.codeChallenge heq).trans hcopies.codeChallenge
  codeChallengeMethod := (congrArg AuthCode.codeChallengeMethod heq).trans
    hcopies.codeChallengeMethod
  identityID := (congrArg AuthCode.identityID heq).trans hcopies.identityID
  scopes := (congrArg AuthCode.scopes heq).trans hcopies.scopes
  granted := hcopies.granted
  requested := hcopies.requested
  pkce := hcopies.pkce

theorem checkAuthorizeClient_eq_ok {req : AuthorizeRequest} {client : Client}
    (hok : checkAuthorizeClient req client = .ok ()) :
    requestedScopes req ⊆ client.scopes ∧
      (client.requirePKCE = true → req.codeChallenge ≠ "") := by
  unfold checkAuthorizeClient at hok
  split at hok
  · cases hok
  · split at hok
    · cases hok
    · split at hok
      · cases hok
      · split at hok
        · cases hok
        · split at hok
          · cases hok
          · rename_i hnone
            split at hok
            · cases hok
            · rename_i hpkce
              refine ⟨?_, fun hrequire hempty => hpkce ⟨hrequire, hempty⟩⟩
              intro scope hscope
              simpa [Client.hasScope] using List.find?_eq_none.mp hnone scope hscope

/-- The terms a login challenge has from its authorization request. -/
structure LoginTerms (start : AuthorizeRequest) (login : LoginChallenge) :
    Prop where
  clientID : login.clientID = start.clientID
  redirectURI : login.redirectURI = start.redirectURI
  scopes : login.scopes = requestedScopes start
  codeChallenge : login.codeChallenge = some start.codeChallenge
  codeChallengeMethod :
    login.codeChallengeMethod = some start.codeChallengeMethod

theorem LoginTerms.of_terms_eq {start : AuthorizeRequest}
    {login other : LoginChallenge} (hterms : LoginTerms start other)
    (heq : login.terms = other.terms) : LoginTerms start login where
  clientID := (congrArg LoginChallenge.clientID heq).trans hterms.clientID
  redirectURI :=
    (congrArg LoginChallenge.redirectURI heq).trans hterms.redirectURI
  scopes := (congrArg LoginChallenge.scopes heq).trans hterms.scopes
  codeChallenge :=
    (congrArg LoginChallenge.codeChallenge heq).trans hterms.codeChallenge
  codeChallengeMethod := (congrArg LoginChallenge.codeChallengeMethod heq).trans
    hterms.codeChallengeMethod

/-- The terms a consent challenge has from its login challenge. -/
structure ConsentTerms (login : LoginChallenge) (identityID : String)
    (consent : ConsentChallenge) : Prop where
  loginChallengeID : consent.loginChallengeID = login.id
  clientID : consent.clientID = login.clientID
  identityID : consent.identityID = identityID
  redirectURI : consent.redirectURI = login.redirectURI
  requestedScopes : consent.requestedScopes = login.scopes

theorem ConsentTerms.of_terms_eq {login : LoginChallenge} {identityID : String}
    {consent other : ConsentChallenge} (hterms : ConsentTerms login identityID other)
    (heq : consent.terms = other.terms) : ConsentTerms login identityID consent where
  loginChallengeID := (congrArg ConsentChallenge.loginChallengeID heq).trans
    hterms.loginChallengeID
  clientID := (congrArg ConsentChallenge.clientID heq).trans hterms.clientID
  identityID := (congrArg ConsentChallenge.identityID heq).trans hterms.identityID
  redirectURI :=
    (congrArg ConsentChallenge.redirectURI heq).trans hterms.redirectURI
  requestedScopes := (congrArg ConsentChallenge.requestedScopes heq).trans
    hterms.requestedScopes

section Origin

variable {platform : Platform} {db : Database} {history later : Trace}

theorem loginChallenge_terms_eq {earlier : Trace} {login other : LoginChallenge}
    (hlater : later <:+ history) (hearlier : earlier <:+ history)
    (hlogin : login ∈ (tablesAfter db later).loginChallenges.rows)
    (hother : other ∈ (tablesAfter db earlier).loginChallenges.rows)
    (hid : login.id = other.id) : login.terms = other.terms := by
  rcases loginChallengeLedger.later_or_later hlater hearlier hlogin hother hid with hterms | hterms
  · exact Eq.symm hterms
  · exact hterms

variable (hlaw : Lawful platform db history)

include hlaw

/-- A login challenge goes back to the request that started it. -/
theorem loginChallenge_origin
    (hdb : Unstarted db) (hlater : later <:+ history) {login : LoginChallenge}
    (hrow : login ∈ (tablesAfter db later).loginChallenges.rows) :
    ∃ start client first, StartsLogin db history start client first ∧
      first.id = login.id ∧ checkAuthorizeClient start client = .ok () ∧
      LoginTerms start login := by
  obtain ⟨thread, request, _, past, first, hentry, rfl, hterms⟩ :=
    loginChallengeLedger.origin_of_empty hdb.loginChallenges hrow
  have hwhole := hentry.trans hlater
  obtain ⟨start, client, rfl, hread, hcheck, id, now, created, hfirst⟩ :=
    hlaw.duty hwhole
  obtain ⟨before, hbefore, hbeforeWhole⟩ := hlaw.earlier_suffix hwhole hread
  obtain ⟨choice, hreply⟩ := hlaw.reply hbeforeWhole
  have hfind := (answer_eq_ok_iff.mp hreply.symm).2
  have hclient := ((Table.find?_eq_some_iff _ _ _).mp hfind).2
  have hfirstTerms : LoginTerms start first := by
    subst hfirst
    exact ⟨hclient, rfl, rfl, rfl, rfl⟩
  exact ⟨start, client, first, ⟨thread, past, before, hwhole, hbefore, hfind⟩,
    (congrArg LoginChallenge.id hterms).symm, hcheck,
    hfirstTerms.of_terms_eq hterms⟩

theorem mem_of_readLogin {thread : Nat}
    {request : Request} {id : String} {login : LoginChallenge} {past : Trace}
    (hread : ⟨thread, request, .called ⟨.selectLoginChallenge id,
      .ok (some login)⟩⟩ :: past <:+ history) :
    login ∈ (tablesAfter db past).loginChallenges.rows ∧ login.id = id := by
  obtain ⟨choice, hreply⟩ := hlaw.reply hread
  exact mem_of_select hreply

/-- A consent challenge goes back to the acceptance of a login challenge. -/
theorem consentChallenge_origin
    (hdb : Unstarted db) (hlater : later <:+ history) {consent : ConsentChallenge}
    (hrow : consent ∈ (tablesAfter db later).consentChallenges.rows) :
    ∃ identityID login first read, AcceptsLogin history login identityID first ∧
      first.id = consent.id ∧ read <:+ history ∧
      login ∈ (tablesAfter db read).loginChallenges.rows ∧
      ConsentTerms login identityID consent := by
  obtain ⟨thread, request, _, past, first, hentry, rfl, hterms, -⟩ :=
    consentChallengeLedger.origin_of_empty hdb.consentChallenges hrow
  have hwhole := hentry.trans hlater
  obtain ⟨challengeID, identityID, sessionID, login, rfl, hread, skip, now,
    created, hfirst⟩ := hlaw.duty hwhole
  obtain ⟨read, -, hreadWhole⟩ := hlaw.earlier_suffix hwhole hread
  obtain ⟨hlogin, hloginID⟩ := mem_of_readLogin hlaw hreadWhole
  subst hloginID
  have hfirstTerms : ConsentTerms login identityID first := by
    subst hfirst
    exact ⟨rfl, rfl, rfl, rfl, rfl⟩
  exact ⟨identityID, login, first, read, ⟨thread, sessionID, past, hwhole⟩,
    (congrArg ConsentChallenge.id hterms).symm,
    (List.suffix_cons _ _).trans hreadWhole, hlogin,
    hfirstTerms.of_terms_eq hterms⟩

/-- Every code descends from an authorization request and copies its terms. -/
theorem authCode_descends
    (hdb : Unstarted db) {thread : Nat} {request : Request} {code : AuthCode} {past : Trace}
    (hentry : ⟨thread, request, .called ⟨.insertAuthCode code, .ok ()⟩⟩ :: past <:+ history) :
    ∃ start client identityID grantedScopes,
      Descends db history start client identityID grantedScopes code ∧
        Copies start client identityID grantedScopes code := by
  obtain ⟨-, challengeID, grantedScopes, challenge, login, hconsents, hbasis,
    context, value, now, created, authTime, hcode⟩ := hlaw.duty hentry
  -- The consent challenge the thread read, and the acceptance it goes back to.
  obtain ⟨readConsent, -, hreadConsent⟩ :=
    hlaw.earlier_suffix hentry hbasis.read
  obtain ⟨choice, hreply⟩ := hlaw.reply hreadConsent
  obtain ⟨hchallenge, rfl⟩ := mem_of_select hreply
  obtain ⟨identityID, accepted, consent, acceptRead, haccept, hconsentID,
    hacceptRead, haccepted, hconsentTerms⟩ := consentChallenge_origin hlaw hdb
      ((List.suffix_cons _ _).trans hreadConsent) hchallenge
  -- Both threads read the same login challenge.
  obtain ⟨loginRead, -, hloginRead⟩ :=
    hlaw.earlier_suffix hentry hbasis.readLogin
  obtain ⟨hlogin, hloginID⟩ := mem_of_readLogin hlaw hloginRead
  have hsame : login.terms = accepted.terms :=
    loginChallenge_terms_eq ((List.suffix_cons _ _).trans hloginRead)
      hacceptRead hlogin haccepted
      (hloginID.trans hconsentTerms.loginChallengeID)
  -- The authorization request it goes back to.
  obtain ⟨start, client, first, hstart, hfirstID, hcheck, hterms⟩ :=
    loginChallenge_origin hlaw hdb hacceptRead haccepted
  obtain ⟨hrequested, hpkce⟩ := checkAuthorizeClient_eq_ok hcheck
  have hloginTerms := hterms.of_terms_eq hsame
  refine ⟨start, client, identityID, grantedScopes,
    ⟨first, consent, hstart, ?_, thread, request, past, ?_, hentry⟩, ?_⟩
  · unfold AcceptsLogin at haccept ⊢
    rwa [hfirstID]
  · rwa [hconsentID]
  · subst hcode
    exact
      { clientID := hconsentTerms.clientID.trans hterms.clientID
        redirectURI := hconsentTerms.redirectURI.trans hterms.redirectURI
        codeChallenge := hloginTerms.codeChallenge
        codeChallengeMethod := hloginTerms.codeChallengeMethod
        identityID := hconsentTerms.identityID
        scopes := rfl
        granted := by
          have hsubset := hbasis.subset
          rwa [hconsentTerms.requestedScopes, hterms.scopes] at hsubset
        requested := hrequested
        pkce := hpkce }

end Origin

end Aegion.OAuth
