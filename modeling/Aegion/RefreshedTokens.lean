/-
What a refresh issues.  The scopes are the requested ones as long as no successor
is followed, and the ID token states a password login at the time of the refresh,
whatever the authorization code has recorded.
-/
import Aegion.RefreshLineage
import Aegion.TokenIdentity

namespace Aegion.OAuth

open Go History

/-- The two lists name the same scopes. -/
def SameScopes (left right : List String) : Prop := left ⊆ right ∧ right ⊆ left

instance decidableSameScopes (left right : List String) : Decidable (SameScopes left right) :=
  inferInstanceAs (Decidable (left ⊆ right ∧ right ⊆ left))

/-- The token sets that refreshes were answered with, each with its request and
the token it was issued on. -/
def refreshAnswers (history : Trace) : List (TokenRequest × RefreshToken × TokenResponse) :=
  (points history).filterMap fun
    | (⟨thread, .refreshAccessToken _ req, .answered (.tokens resp)⟩, past) =>
        (redeemed (own thread past)).map fun token => (req, token, resp)
    | _ => none

theorem exists_of_mem_refreshAnswers {history : Trace} {req : TokenRequest}
    {token : RefreshToken} {resp : TokenResponse}
    (hmem : (req, token, resp) ∈ refreshAnswers history) :
    ∃ thread depth past,
      ⟨thread, .refreshAccessToken depth req, .answered (.tokens resp)⟩ :: past <:+ history ∧
        redeemed (own thread past) = some token := by
  obtain ⟨⟨entry, past⟩, hpoint, hanswer⟩ := List.mem_filterMap.mp hmem
  have hentry := suffix_of_mem_points hpoint
  split at hanswer
  · rename_i thread depth req' resp' past' heq
    cases heq
    obtain ⟨token', hredeemed, htriple⟩ := Option.map_eq_some_iff.mp hanswer
    cases htriple
    exact ⟨thread, depth, past, hentry, hredeemed⟩
  · cases hanswer

theorem AccessToken.scopes_eq_of_terms_eq {row other : AccessToken}
    (hterms : row.terms = other.terms) : row.scopes = other.scopes :=
  show row.terms.scopes = other.terms.scopes from congrArg AccessToken.scopes hterms

theorem refreshScopes_eq {req : TokenRequest} {token : RefreshToken} {scopes : List String}
    (hscopes : refreshScopes req token = .ok scopes) :
    scopes = if req.scope = "" then token.scopes else parseScopes req.scope := by
  unfold refreshScopes at hscopes
  split at hscopes
  · rename_i hempty
    rw [if_pos hempty]
    exact (Except.ok.inj hscopes).symm
  · rename_i hgiven
    rw [if_neg hgiven]
    split at hscopes
    · cases hscopes
    · exact (Except.ok.inj hscopes).symm

/-- The scopes of a refresh, by whether a successor was followed. -/
theorem RefreshBasis.scopes_eq {platform : Platform} {req : TokenRequest} {past : Past}
    {g : Grant} {token : RefreshToken} (hbasis : RefreshBasis platform req past g token)
    (hscope : req.scope ≠ "") :
    g.scopes = if (reads past).length = 1 then parseScopes req.scope else token.scopes := by
  have hscopes := refreshScopes_eq hbasis.scopes
  simp only [effectiveScope] at hscopes
  by_cases hdirect : (reads past).length = 1
  · simpa only [hdirect, if_true, hscope, if_false] using hscopes
  · simpa only [hdirect, if_false, if_true] using hscopes

section Answers

variable {platform : Platform} {db : Database} {history past : Trace}
variable {thread depth : Nat} {req : TokenRequest} {resp : TokenResponse}

/-- The access token of a refresh is stored with the requested scopes, or with those of
the successor that was followed. -/
theorem Lawful.refreshed_scopes (hlaw : Lawful platform db history)
    (hanswer : ⟨thread, .refreshAccessToken depth req, .answered (.tokens resp)⟩ ::
      past <:+ history) (hscope : req.scope ≠ "") :
    ∃ last, ∃ row ∈ (tablesAfter db past).accessTokens.rows,
      redeemed (own thread past) = some last ∧ SignedFor platform resp.accessToken row ∧
      resp.scope = join row.scopes " " ∧
      row.scopes =
        if (reads (own thread past)).length = 1 then parseScopes req.scope else last.scopes := by
  obtain ⟨⟨g, hissued⟩, -⟩ := hlaw.answer hanswer
  obtain ⟨last, hbasis⟩ := hissued.basis
  obtain ⟨first, hinserted, hfor⟩ := hissued.row
  obtain ⟨before, hbefore, -⟩ := hlaw.earlier_suffix hanswer hinserted
  obtain ⟨row, hrow, hlater⟩ := accessTokenLedger.insert_persists hlaw.answers hbefore
    ((List.suffix_cons _ _).trans hanswer) ⟨_, rfl, rfl⟩
  have hscopes : row.scopes = g.scopes :=
    (AccessToken.scopes_eq_of_terms_eq hlater.1).trans hfor.scopes
  refine ⟨last, row, hrow, hbasis.redeemed, hfor.signed.of_terms_eq hlater.1, ?_, ?_⟩
  · rw [hissued.scope, hscopes]
  · rw [hscopes, hbasis.scopes_eq hscope]

/-- The ID token of a refresh states a password login at the time of the refresh. -/
theorem Lawful.refreshed_context (hlaw : Lawful platform db history) {jwt : String}
    (hanswer : ⟨thread, .refreshAccessToken depth req, .answered (.tokens resp)⟩ ::
      past <:+ history)
    (hjwt : resp.idToken = some jwt) :
    ∃ now claims nonce, ⟨.clock, now⟩ ∈ own thread past ∧
      jwt = JWT.compact platform claims nonce ∧ ClaimsState claims ("aal1", ["pwd"], now) := by
  obtain ⟨⟨g, hissued⟩, -⟩ := hlaw.answer hanswer
  obtain ⟨token, hbasis⟩ := hissued.basis
  obtain ⟨now, hclock, hcontext⟩ := hbasis.context
  obtain ⟨row, -, hfor⟩ := hissued.idToken jwt hjwt
  obtain ⟨claims, nonce, hcompact, hstated⟩ := hfor.states
  rw [hcontext] at hstated
  exact ⟨now, claims, nonce, hclock, hcompact, hstated⟩

/-- A code as seen at two times records the same authentication. -/
theorem authCode_context_eq {earlier later : Trace} {row other : AuthCode}
    (hlater : later <:+ history) (hearlier : earlier <:+ history)
    (hrow : row ∈ (tablesAfter db later).authCodes.rows)
    (hother : other ∈ (tablesAfter db earlier).authCodes.rows)
    (hcode : row.code = other.code) : row.context = other.context := by
  have hterms : row.terms = other.terms := by
    rcases authCodeLedger.later_or_later hlater hearlier hrow hother hcode with hnext | hnext
    · exact hnext.1.symm
    · exact hnext.1
  exact show row.terms.context = other.terms.context from congrArg AuthCode.context hterms

/-- Claims state one authentication only, to the second. -/
theorem ClaimsState.iff_eq {claims : JWT.Claims} {context : AuthContext}
    (hstated : ClaimsState claims context) (other : AuthContext) :
    ClaimsState claims other ↔
      other.1 = context.1 ∧ other.2.1 = context.2.1 ∧ unix other.2.2 = unix context.2.2 := by
  unfold ClaimsState
  rw [hstated.1, hstated.2.1, hstated.2.2]
  simp only [Option.some.injEq, Json.string.injEq, Json.strings.injEq, Json.number.injEq, eq_comm]

end Answers

/-- The scope parameter of a refresh.  In every run, the access token that a
refresh returns is stored with the requested scopes exactly if no successor was
followed, or the successor has those scopes anyway. -/
theorem refreshed_scopes_iff (platform : Platform) (config : DeviceConfig) (db : Database)
    (actions : Schedule) {thread depth : Nat} {req : TokenRequest}
    {resp : TokenResponse} {past : Trace}
    (hanswer : ⟨thread, .refreshAccessToken depth req, .answered (.tokens resp)⟩ ::
      past <:+ runFrom platform config db actions)
    (hscope : req.scope ≠ "") :
    ∃ last row, redeemed (own thread past) = some last ∧
      row ∈ (tablesAfter db past).accessTokens.rows ∧
      SignedFor platform resp.accessToken row ∧ resp.scope = join row.scopes " " ∧
      (SameScopes row.scopes (parseScopes req.scope) ↔
        (reads (own thread past)).length = 1 ∨
          SameScopes last.scopes (parseScopes req.scope)) := by
  obtain ⟨last, row, hrow, hlast, hsigned, hreturned, hscopes⟩ :=
    (lawful_of_run platform config db actions).refreshed_scopes hanswer hscope
  refine ⟨last, row, hlast, hrow, hsigned, hreturned, ?_⟩
  rw [hscopes]
  by_cases hdirect : (reads (own thread past)).length = 1
  · rw [if_pos hdirect]
    exact iff_of_true ⟨List.Subset.refl _, List.Subset.refl _⟩ (.inl hdirect)
  · rw [if_neg hdirect]
    exact ⟨.inr, fun hsame => hsame.resolve_left hdirect⟩

/-- A client whose refresh tokens have a grace period, for OpenID logins. -/
def graceClient : Client :=
  { publicClient with
    scopes := ["openid", "offline_access"]
    metadata := [("refresh_token_grace_seconds", "60")] }

def graceTables : Database :=
  { sampleTables with clients := ⟨[graceClient], by decide⟩ }

/-- The clock at three seconds; the session has used a second factor at two. -/
def stepUp : Choice :=
  { moment 3 3 with session := some ("aal2", 2000000000), methods := ["totp"] }

/-- A login with a second factor, the exchange of its code, and two refreshes of the
same token; the second one asks for less. -/
def graceFlow : Schedule :=
  served 0 (.startAuthorization { sampleStart with scope := "openid offline_access" }) 1 1 ++
    served 1 (.acceptLogin sampleLoginID "alice" "session") 2 2 ++
    Action.start (Request.acceptConsentForIdentity sampleConsentID "alice"
      ["openid", "offline_access"] false none) :: List.replicate 30 (.step 2 stepUp) ++
    served 3 (.exchangeAuthorizationCode sampleExchange) 4 4 ++
    served 4 (.refreshAccessToken 3 (sampleRefresh (sampleRefreshID 4))) 5 5 ++
    served 5 (.refreshAccessToken 3
      { sampleRefresh (sampleRefreshID 4) with scope := "offline_access" }) 6 6

abbrev graceRun : Trace := runFrom samplePlatform sampleConfig graceTables graceFlow

/-- What the flow leads to: an answer to each refresh, and the code of the login. -/
theorem graceFlow_run :
    (∃ answer ∈ refreshAnswers graceRun, answer.1.scope = "offline_access" ∧
      answer.2.2.scope = "openid offline_access" ∧
      answer.2.1.scopes = ["openid", "offline_access"]) ∧
    (∃ answer ∈ refreshAnswers graceRun,
      answer.2.1.id = sampleRefreshID 4 ∧ answer.2.2.idToken.isSome = true) ∧
    (∃ authCode ∈ (tablesOf samplePlatform sampleConfig graceTables graceFlow).authCodes.rows,
      authCode.code = sampleCode ∧ authCode.acr = "aal2") ∧
    (sampleCode, sampleRefreshID 4) ∈ exchanged graceRun := by
  decide +kernel

/-- The second refresh is answered with all scopes of the successor. -/
theorem grace_hop_ignores_scope :
    ∃ thread depth req resp past, ∃ row : AccessToken,
      ⟨thread, .refreshAccessToken depth req, .answered (.tokens resp)⟩ :: past <:+ graceRun ∧
      req.scope = "offline_access" ∧
      row ∈ (tablesAfter graceTables past).accessTokens.rows ∧
      SignedFor samplePlatform resp.accessToken row ∧ resp.scope = "openid offline_access" ∧
      ¬ SameScopes row.scopes (parseScopes req.scope) := by
  obtain ⟨⟨⟨req, token, resp⟩, hmem, hscope, hreturned, hscopes⟩, -⟩ := graceFlow_run
  change req.scope = "offline_access" at hscope
  change resp.scope = "openid offline_access" at hreturned
  change token.scopes = _ at hscopes
  obtain ⟨thread, depth, past, hanswer, htoken⟩ := exists_of_mem_refreshAnswers hmem
  obtain ⟨last, row, hrow, hlast, hsigned, hjoined, hrowScopes⟩ :=
    (lawful_of_run samplePlatform sampleConfig graceTables graceFlow).refreshed_scopes hanswer
      (by rw [hscope]; decide)
  refine ⟨thread, depth, req, resp, past, row, hanswer, hscope, hrow, hsigned, hreturned, ?_⟩
  cases htoken.symm.trans hlast
  rw [hscope] at hrowScopes ⊢
  split at hrowScopes
  · rw [hreturned, hrowScopes] at hjoined
    exact absurd hjoined (by decide)
  · rw [hrowScopes, hscopes]
    decide

theorem graceFlow_scopes :
    ∃ thread depth req resp past, ∃ last : RefreshToken, ∃ row : AccessToken,
      ⟨thread, .refreshAccessToken depth req, .answered (.tokens resp)⟩ :: past <:+ graceRun ∧
      req.scope ≠ "" ∧ redeemed (own thread past) = some last ∧
      row ∈ (tablesAfter graceTables past).accessTokens.rows ∧
      SignedFor samplePlatform resp.accessToken row ∧
      (SameScopes row.scopes (parseScopes req.scope) ↔
        (reads (own thread past)).length = 1 ∨
          SameScopes last.scopes (parseScopes req.scope)) := by
  obtain ⟨⟨⟨req, token, resp⟩, hmem, hvalue, -⟩, -⟩ := graceFlow_run
  obtain ⟨thread, depth, past, hanswer, -⟩ := exists_of_mem_refreshAnswers hmem
  have hscope : req.scope ≠ "" := by
    rw [show req.scope = "offline_access" from hvalue]
    decide
  obtain ⟨last, row, hlast, hrow, hsigned, -, hiff⟩ := refreshed_scopes_iff samplePlatform
    sampleConfig graceTables graceFlow hanswer hscope
  exact ⟨thread, depth, req, resp, past, last, row, hanswer, hscope, hlast, hrow, hsigned, hiff⟩

/-- The authentication that ID tokens state.  In every run, the ID token of an
exchange states what its code has recorded, and the one of a refresh, anywhere on
the chain of the code, does so exactly if the code was granted for a password login
at the very second of the refresh. -/
theorem idToken_context_iff (platform : Platform) (config : DeviceConfig) (db : Database)
    (actions : Schedule) {authCode : AuthCode}
    (hcode : authCode ∈ (tablesOf platform config db actions).authCodes.rows) :
    (∀ thread req resp past jwt,
      ⟨thread, .exchangeAuthorizationCode req, .answered (.tokens resp)⟩ ::
        past <:+ runFrom platform config db actions →
      req.code = authCode.code → resp.idToken = some jwt → States platform jwt authCode.context) ∧
    ∀ thread depth req resp past jwt token,
      ⟨thread, .refreshAccessToken depth req, .answered (.tokens resp)⟩ ::
        past <:+ runFrom platform config db actions →
      redeemed (own thread past) = some token →
      ChainFrom (runFrom platform config db actions) authCode.code token.id →
      resp.idToken = some jwt → ∃ now claims nonce, ⟨.clock, now⟩ ∈ own thread past ∧
          jwt = JWT.compact platform claims nonce ∧
          (ClaimsState claims authCode.context ↔ authCode.acr = "aal1" ∧
            authCode.amr = ["pwd"] ∧ unix authCode.authTime = unix now) := by
  have hlaw := lawful_of_run platform config db actions
  rw [tablesOf_eq] at hcode
  constructor
  · intro thread req resp past jwt hanswer hreq hjwt
    obtain ⟨⟨g, hissued⟩, -⟩ := hlaw.answer hanswer
    obtain ⟨read, hbasis⟩ := hissued.basis
    obtain ⟨before, -, hwhole⟩ := hlaw.earlier_suffix hanswer hbasis.read
    obtain ⟨choice, hreply⟩ := hlaw.reply hwhole
    obtain ⟨hread, hkey⟩ := mem_of_select hreply
    have hcontext : authCode.context = read.context :=
      authCode_context_eq List.suffix_rfl ((List.suffix_cons _ _).trans hwhole) hcode hread
        (hreq.symm.trans hkey.symm)
    rw [hcontext, ← hbasis.context]
    obtain ⟨row, -, hfor⟩ := hissued.idToken jwt hjwt
    exact hfor.states
  · intro thread depth req resp past jwt token hanswer _ _ hjwt
    obtain ⟨now, claims, nonce, hclock, hcompact, hstated⟩ :=
      hlaw.refreshed_context hanswer hjwt
    exact ⟨now, claims, nonce, hclock, hcompact, hstated.iff_eq authCode.context⟩

/-- The code of the login above, and a refresh on its chain that issued an ID token. -/
theorem graceFlow_refreshed :
    ∃ authCode ∈ (tablesOf samplePlatform sampleConfig graceTables graceFlow).authCodes.rows,
      authCode.acr = "aal2" ∧ ∃ thread depth req resp past token jwt,
        ⟨thread, .refreshAccessToken depth req, .answered (.tokens resp)⟩ :: past <:+ graceRun ∧
        redeemed (own thread past) = some token ∧
        ChainFrom graceRun authCode.code token.id ∧ resp.idToken = some jwt := by
  obtain ⟨-, ⟨⟨req, token, resp⟩, hmem, hid, hissued⟩, ⟨authCode, hcode, hvalue, hacr⟩,
    hexchanged⟩ := graceFlow_run
  obtain ⟨thread, depth, past, hanswer, htoken⟩ := exists_of_mem_refreshAnswers hmem
  obtain ⟨jwt, hjwt⟩ := Option.isSome_iff_exists.mp hissued
  have hchain : ChainFrom graceRun authCode.code token.id := by
    rw [hvalue, show token.id = sampleRefreshID 4 from hid]
    exact chainFrom_of_mem hexchanged
  exact ⟨authCode, hcode, hacr, thread, depth, req, resp, past, token, jwt, hanswer, htoken,
    hchain, hjwt⟩

/-- After a login with a second factor, the refreshed ID token states none. -/
theorem refresh_forgets_second_factor :
    ∃ authCode ∈ (tablesOf samplePlatform sampleConfig graceTables graceFlow).authCodes.rows,
      ∃ thread depth req resp past token jwt claims nonce,
        ⟨thread, .refreshAccessToken depth req, .answered (.tokens resp)⟩ :: past <:+ graceRun ∧
        redeemed (own thread past) = some token ∧
        ChainFrom graceRun authCode.code token.id ∧
        resp.idToken = some jwt ∧ jwt = JWT.compact samplePlatform claims nonce ∧
        authCode.acr = "aal2" ∧ claims.custom.lookup "acr" = some (.string "aal1") ∧
        ¬ ClaimsState claims authCode.context := by
  obtain ⟨authCode, hcode, hacr, thread, depth, req, resp, past, token, jwt, hanswer, htoken,
    hchain, hjwt⟩ := graceFlow_refreshed
  obtain ⟨now, claims, nonce, -, hcompact, hstated⟩ :=
    (lawful_of_run samplePlatform sampleConfig graceTables graceFlow).refreshed_context hanswer hjwt
  refine ⟨authCode, hcode, thread, depth, req, resp, past, token, jwt, claims, nonce, hanswer,
    htoken, hchain, hjwt, hcompact, hacr, hstated.1, ?_⟩
  rw [hstated.iff_eq]
  rintro ⟨hsame, -⟩
  have hwrong : "aal2" = "aal1" := hacr.symm.trans hsame
  exact absurd hwrong (by decide)

theorem graceFlow_context :
    ∃ authCode ∈ (tablesOf samplePlatform sampleConfig graceTables graceFlow).authCodes.rows,
      ∃ thread depth req resp past token jwt claims nonce now,
        ⟨thread, .refreshAccessToken depth req, .answered (.tokens resp)⟩ :: past <:+ graceRun ∧
        redeemed (own thread past) = some token ∧
        ChainFrom graceRun authCode.code token.id ∧
        resp.idToken = some jwt ∧ jwt = JWT.compact samplePlatform claims nonce ∧
        (ClaimsState claims authCode.context ↔ authCode.acr = "aal1" ∧
          authCode.amr = ["pwd"] ∧ unix authCode.authTime = unix now) := by
  obtain ⟨authCode, hcode, -, thread, depth, req, resp, past, token, jwt, hanswer, htoken,
    hchain, hjwt⟩ := graceFlow_refreshed
  obtain ⟨now, claims, nonce, -, hcompact, hiff⟩ := (idToken_context_iff samplePlatform
    sampleConfig graceTables graceFlow hcode).2 thread depth req resp past jwt token hanswer
      htoken hchain hjwt
  exact ⟨authCode, hcode, thread, depth, req, resp, past, token, jwt, claims, nonce, now,
    hanswer, htoken, hchain, hjwt, hcompact, hiff⟩

end Aegion.OAuth
