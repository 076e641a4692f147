/-
Where a refresh token comes from.  A refresh reads one token and inserts
another; the pairs form the chains along which scopes are handed down from the
consent that a code was granted on.
-/
import Aegion.AuthorizationCodeBinding

namespace Aegion.OAuth

open History Relation

theorem mem_of_redeemed {past : Past} {token : RefreshToken}
    (hredeemed : redeemed past = some token) :
    ∃ id, ⟨.selectRefreshToken id, .ok (some token)⟩ ∈ past := by
  fun_induction redeemed past with
  | case1 => cases hredeemed
  | case2 id read past =>
      cases hredeemed
      exact ⟨id, List.mem_cons_self⟩
  | case3 call past _ ih =>
      obtain ⟨id, hmem⟩ := ih hredeemed
      exact ⟨id, List.mem_cons_of_mem call hmem⟩

/-- A refresh of the token `parent` created the token `child`. -/
def Rotates (history : Trace) (parent child : String) : Prop :=
  ∃ thread depth req row past token,
    ⟨thread, .refreshAccessToken depth req,
      .called ⟨.insertRefreshToken row, .ok ()⟩⟩ :: past <:+ history ∧
    row.id = child ∧ redeemed (own thread past) = some token ∧
    token.id = parent

/-- The rotations of a history, as pairs of parent and child. -/
def rotations (history : Trace) : List (String × String) :=
  (points history).filterMap fun
    | (⟨thread, .refreshAccessToken _ _,
        .called ⟨.insertRefreshToken row, .ok ()⟩⟩, past) =>
        (redeemed (own thread past)).map fun token => (token.id, row.id)
    | _ => none

/-- The refresh tokens created at exchanges, with the codes exchanged. -/
def exchanged (history : Trace) : List (String × String) :=
  (points history).filterMap fun
    | (⟨_, .exchangeAuthorizationCode req,
        .called ⟨.insertRefreshToken row, .ok ()⟩⟩, _) => some (req.code, row.id)
    | _ => none

theorem rotates_of_mem {history : Trace} {parent child : String}
    (hmem : (parent, child) ∈ rotations history) : Rotates history parent child := by
  obtain ⟨⟨entry, past⟩, hpoint, hrotation⟩ := List.mem_filterMap.mp hmem
  have hentry := suffix_of_mem_points hpoint
  split at hrotation
  · rename_i thread depth req row past' heq
    cases heq
    obtain ⟨token, hredeemed, hpair⟩ := Option.map_eq_some_iff.mp hrotation
    cases hpair
    exact ⟨thread, depth, req, row, past, token, hentry, rfl, hredeemed, rfl⟩
  · cases hrotation

/-- The token was created for the authorization code, at the exchange or by
refreshing a token that was. -/
inductive ChainFrom (history : Trace) (code : String) : String → Prop where
  | exchanged {thread : Nat} {req : TokenRequest} {row : RefreshToken}
      {past : Trace}
      (hentry : ⟨thread, .exchangeAuthorizationCode req,
        .called ⟨.insertRefreshToken row, .ok ()⟩⟩ :: past <:+ history)
      (hcode : req.code = code) : ChainFrom history code row.id
  | rotated {parent child : String} (hparent : ChainFrom history code parent)
      (hrotates : Rotates history parent child) : ChainFrom history code child

theorem chainFrom_of_mem {history : Trace} {code id : String}
    (hmem : (code, id) ∈ exchanged history) : ChainFrom history code id := by
  obtain ⟨⟨entry, past⟩, hpoint, hexchange⟩ := List.mem_filterMap.mp hmem
  have hentry := suffix_of_mem_points hpoint
  split at hexchange
  · rename_i thread req row past' heq
    cases heq
    cases hexchange
    exact ChainFrom.exchanged hentry rfl
  · cases hexchange

/-- The access token was stored by the exchange of the code, or by the refresh
of a token of its chain. -/
def StoredFor (history : Trace) (code : String) (row : AccessToken) : Prop :=
  (∃ thread req past, ⟨thread, .exchangeAuthorizationCode req,
      .called ⟨.insertAccessToken row, .ok ()⟩⟩ :: past <:+ history ∧
        req.code = code) ∨
    ∃ thread depth req past token, ⟨thread, .refreshAccessToken depth req,
        .called ⟨.insertAccessToken row, .ok ()⟩⟩ :: past <:+ history ∧
      redeemed (own thread past) = some token ∧
        ChainFrom history code token.id

/-- The code was granted at a consent to scopes that were requested, and that
the client had when they were, and the given scopes are among them. -/
def WithinConsent (db : Database) (history : Trace) (code : String) (scopes : List String) : Prop :=
  ∃ authCode start client identityID grantedScopes, authCode.code = code ∧
    Descends db history start client identityID grantedScopes authCode ∧
    scopes ⊆ grantedScopes ∧ grantedScopes ⊆ requestedScopes start ∧
    requestedScopes start ⊆ client.scopes

theorem WithinConsent.subset {db : Database} {history : Trace} {code : String}
    {scopes narrower : List String} (hwithin : WithinConsent db history code scopes)
    (hsubset : narrower ⊆ scopes) : WithinConsent db history code narrower := by
  obtain ⟨authCode, start, client, identityID, grantedScopes, hcode, hdescends,
    hscopes, hgranted⟩ := hwithin
  exact ⟨authCode, start, client, identityID, grantedScopes, hcode, hdescends,
    List.Subset.trans hsubset hscopes, hgranted⟩

section Rows

variable {platform : Platform} {db : Database} {history : Trace}

/-- The token a refresh is about was in the table when it was read. -/
theorem Lawful.redeemed_mem (hlaw : Lawful platform db history) {thread : Nat}
    {request : Request} {step : Step Reply Response} {past : Trace} {token : RefreshToken}
    (hentry : ⟨thread, request, step⟩ :: past <:+ history)
    (hredeemed : redeemed (own thread past) = some token) :
    ∃ read, ⟨thread, request, .called ⟨.selectRefreshToken token.id,
        .ok (some token)⟩⟩ :: read <:+ past ∧ read <:+ history ∧
      token ∈ (tablesAfter db read).refreshTokens.rows := by
  obtain ⟨id, hmem⟩ := mem_of_redeemed hredeemed
  obtain ⟨read, hread, hwhole⟩ := hlaw.earlier_suffix hentry hmem
  obtain ⟨choice, hreply⟩ := hlaw.reply hwhole
  obtain ⟨hrow, hid⟩ := mem_of_select hreply
  subst hid
  exact ⟨read, hread, (List.suffix_cons _ _).trans hwhole, hrow⟩

theorem RefreshToken.scopes_eq_of_terms_eq {row other : RefreshToken}
    (hterms : row.terms = other.terms) : row.scopes = other.scopes :=
  show row.terms.scopes = other.terms.scopes from
    congrArg RefreshToken.scopes hterms

theorem RefreshToken.familyID_eq_of_terms_eq {row other : RefreshToken}
    (hterms : row.terms = other.terms) : row.familyID = other.familyID :=
  show row.terms.familyID = other.terms.familyID from
    congrArg RefreshToken.familyID hterms

theorem refreshToken_terms_eq {earlier later : Trace} {row other : RefreshToken}
    (hlater : later <:+ history) (hearlier : earlier <:+ history)
    (hrow : row ∈ (tablesAfter db later).refreshTokens.rows)
    (hother : other ∈ (tablesAfter db earlier).refreshTokens.rows)
    (hid : row.id = other.id) : row.terms = other.terms := by
  rcases refreshTokenLedger.later_or_later hlater hearlier hrow hother hid with hnext | hnext
  · exact hnext.1.symm
  · exact hnext.1

theorem Lawful.mem_of_insertRefreshToken (hlaw : Lawful platform db history)
    {thread : Nat} {request : Request} {row : RefreshToken} {past : Trace}
    (hentry : ⟨thread, request, .called ⟨.insertRefreshToken row, .ok ()⟩⟩ :: past <:+ history) :
    row ∈ (tablesAfter db (⟨thread, request,
      .called ⟨.insertRefreshToken row, .ok ()⟩⟩ :: past)).refreshTokens.rows :=
  (refreshTokenLedger.insert_fresh hlaw.answers hentry ⟨_, rfl, rfl⟩).2

/-- The grant of a refresh takes its scopes from the token it redeems. -/
theorem RefreshBasis.scopes_subset {req : TokenRequest} {past : Past} {g : Grant}
    {token other : RefreshToken} (hbasis : RefreshBasis platform req past g token)
    (hother : OAuth.redeemed past = some other) : g.scopes ⊆ other.scopes := by
  have hsame := hbasis.redeemed.symm.trans hother
  cases hsame
  exact refreshScopes_subset hbasis.scopes

variable (hlaw : Lawful platform db history)

include hlaw

/-- A rotation narrows the scopes, whenever the two tokens are looked at. -/
theorem rotates_scopes_subset {parent child : String} (hrotates : Rotates history parent child)
    {later earlier : Trace} {row old : RefreshToken}
    (hlater : later <:+ history) (hearlier : earlier <:+ history)
    (hrow : row ∈ (tablesAfter db later).refreshTokens.rows) (hrowID : row.id = child)
    (hold : old ∈ (tablesAfter db earlier).refreshTokens.rows)
    (holdID : old.id = parent) : row.scopes ⊆ old.scopes := by
  obtain ⟨thread, depth, req, first, past, token, hentry, rfl, hredeemed, rfl⟩ := hrotates
  obtain ⟨g, bytes, family, ⟨redeemedToken, hbasis⟩, -, -, -, -, -, hscopes, -⟩ :=
    hlaw.duty hentry
  obtain ⟨read, -, hwhole, htoken⟩ := hlaw.redeemed_mem hentry hredeemed
  have hfirst := hlaw.mem_of_insertRefreshToken hentry
  have hchild : row.scopes = first.scopes := RefreshToken.scopes_eq_of_terms_eq
    (refreshToken_terms_eq hlater hentry hrow hfirst hrowID)
  have hparent : old.scopes = token.scopes := RefreshToken.scopes_eq_of_terms_eq
    (refreshToken_terms_eq hearlier hwhole hold htoken holdID)
  rw [hchild, hparent, hscopes]
  exact hbasis.scopes_subset hredeemed

/-- The grant of an exchange has the scopes of a consent. -/
theorem withinConsent_of_exchange (hdb : Unstarted db) {thread : Nat} {req : TokenRequest}
    {step : Step Reply Response} {past : Trace} {g : Grant}
    (hentry : ⟨thread, .exchangeAuthorizationCode req, step⟩ :: past <:+ history)
    (hbasis : Basis platform (.exchangeAuthorizationCode req) (own thread past)
      g) : WithinConsent db history req.code g.scopes := by
  obtain ⟨authCode, hcodeBasis⟩ := hbasis
  obtain ⟨creator, request, before, code, hcreated, hcode, hterms⟩ :=
    authCode_origin hlaw hdb hentry hcodeBasis.read
  obtain ⟨start, client, identityID, grantedScopes, hdescends, hcopies⟩ :=
    authCode_descends hlaw hdb hcreated
  have hscopes := (hcopies.of_terms_eq hterms).scopes
  refine ⟨code, start, client, identityID, grantedScopes, hcode, hdescends, ?_,
    hcopies.granted, hcopies.requested⟩
  rw [hcodeBasis.scopes, hscopes]
  exact List.Subset.refl _

/-- Every token of a chain stays within the consent, at every time. -/
theorem withinConsent_of_chain (hdb : Unstarted db) {code id : String}
    (hchain : ChainFrom history code id) {later : Trace} {row : RefreshToken}
    (hlater : later <:+ history) (hrow : row ∈ (tablesAfter db later).refreshTokens.rows)
    (hid : row.id = id) : WithinConsent db history code row.scopes := by
  induction hchain generalizing later row with
  | exchanged hentry hcode =>
      subst hcode
      obtain ⟨g, bytes, family, hbasis, -, -, -, -, -, hscopes, -⟩ :=
        hlaw.duty hentry
      have hsame : row.scopes = g.scopes :=
        (RefreshToken.scopes_eq_of_terms_eq (refreshToken_terms_eq hlater hentry
          hrow (hlaw.mem_of_insertRefreshToken hentry) hid)).trans hscopes
      rw [hsame]
      exact withinConsent_of_exchange hlaw hdb hentry hbasis
  | rotated hparent hrotates ih =>
      have hrotation := hrotates
      obtain ⟨thread, depth, req, first, past, token, hentry, -, hredeemed, htokenID⟩ := hrotation
      obtain ⟨read, -, hwhole, htoken⟩ := hlaw.redeemed_mem hentry hredeemed
      exact (ih hwhole htoken htokenID).subset
        (rotates_scopes_subset hlaw hrotates hlater hwhole hrow hid htoken htokenID)

theorem withinConsent_of_storedFor (hdb : Unstarted db) {code : String} {first row : AccessToken}
    (hstored : StoredFor history code first)
    (hrow : row ∈ (tablesAfter db history).accessTokens.rows)
    (hjti : row.jti = first.jti) : WithinConsent db history code row.scopes := by
  have hterms : ∀ {thread : Nat} {request : Request} {past : Trace},
      ⟨thread, request, .called ⟨.insertAccessToken first, .ok ()⟩⟩ ::
        past <:+ history → row.scopes = first.scopes := by
    intro thread request past hentry
    have hlater := accessTokenLedger.later_of_key_eq hlaw.answers hentry
      List.suffix_rfl ⟨_, rfl, rfl⟩ hrow hjti
    exact show row.terms.scopes = first.terms.scopes from
      congrArg AccessToken.scopes hlater.1
  rcases hstored with ⟨thread, req, past, hentry, rfl⟩ |
      ⟨thread, depth, req, past, token, hentry, hredeemed, hchain⟩
  · rcases hlaw.duty hentry with ⟨g, jwt, hbasis, hfor⟩ | ⟨client, jwt, hplain, -⟩
    · rw [hterms hentry, hfor.scopes]
      exact withinConsent_of_exchange hlaw hdb hentry hbasis
    · cases hplain
  · rcases hlaw.duty hentry with ⟨g, jwt, ⟨other, hbasis⟩, hfor⟩ | ⟨client, jwt, hplain, -⟩
    · obtain ⟨read, -, hwhole, htoken⟩ := hlaw.redeemed_mem hentry hredeemed
      rw [hterms hentry, hfor.scopes]
      exact (withinConsent_of_chain hlaw hdb hchain hwhole htoken rfl).subset
        (hbasis.scopes_subset hredeemed)
    · cases hplain

/-- Scopes never grow along a chain of refreshes. -/
theorem scopes_subset_of_rotations {parent child : String}
    (hchain : ReflTransGen (Rotates history) parent child) {old row : RefreshToken}
    (hold : old ∈ (tablesAfter db history).refreshTokens.rows) (holdID : old.id = parent)
    (hrow : row ∈ (tablesAfter db history).refreshTokens.rows)
    (hrowID : row.id = child) : row.scopes ⊆ old.scopes := by
  induction hchain generalizing row with
  | refl =>
      have hsame := Table.row_eq_of_key_eq _ hrow hold (hrowID.trans holdID.symm)
      rw [hsame]
      exact List.Subset.refl _
  | tail _ hrotates ih =>
      have hrotation := hrotates
      obtain ⟨thread, depth, req, first, past, token, hentry, -, hredeemed, htokenID⟩ := hrotation
      obtain ⟨read, -, hwhole, htoken⟩ := hlaw.redeemed_mem hentry hredeemed
      obtain ⟨middle, hmiddle, hlater⟩ :=
        refreshTokenLedger.persists hwhole htoken
      have hmiddleID := (refreshTokenLedger.key_eq hlater).trans htokenID
      exact List.Subset.trans (rotates_scopes_subset hlaw hrotates
        List.suffix_rfl List.suffix_rfl hrow hrowID hmiddle hmiddleID)
        (ih hmiddle hmiddleID)

end Rows

/-- Scopes stay within the consent.  In every state the system can reach, the
tokens that an authorization code has led to have scopes that were granted at
its consent, those were requested, and the client had them when they were; and
no refresh adds a scope. -/
theorem scopes_within_consent (platform : Platform) (config : DeviceConfig)
    (db : Database) (hdb : Unstarted db) (actions : Schedule) :
    (∀ code id row, ChainFrom (runFrom platform config db actions) code id →
      row ∈ (tablesOf platform config db actions).refreshTokens.rows → row.id = id →
        WithinConsent db (runFrom platform config db actions) code row.scopes) ∧
    (∀ code first row,
      StoredFor (runFrom platform config db actions) code first →
      row ∈ (tablesOf platform config db actions).accessTokens.rows → row.jti = first.jti →
        WithinConsent db (runFrom platform config db actions) code row.scopes) ∧
    ∀ parent child old row,
      ReflTransGen (Rotates (runFrom platform config db actions)) parent child →
      old ∈ (tablesOf platform config db actions).refreshTokens.rows → old.id = parent →
      row ∈ (tablesOf platform config db actions).refreshTokens.rows →
      row.id = child → row.scopes ⊆ old.scopes := by
  have hlaw := lawful_of_run platform config db actions
  rw [tablesOf_eq]
  refine ⟨?_, ?_, ?_⟩
  · intro code id row hchain hrow hid
    exact withinConsent_of_chain hlaw hdb hchain List.suffix_rfl hrow hid
  · intro code first row hstored hrow hjti
    exact withinConsent_of_storedFor hlaw hdb hstored hrow hjti
  · intro parent child old row hchain hold holdID hrow hrowID
    exact scopes_subset_of_rotations hlaw hchain hold holdID hrow hrowID

/-- The refresh token drawn from the given byte. -/
def sampleRefreshID (entropy : UInt8) : String :=
  "rt_" ++ Base64.encodeRawURL (drawBytes 32 [entropy])

/-- The public client presents a refresh token. -/
def sampleRefresh (refreshToken : String) : TokenRequest where
  code := ""
  redirectURI := ""
  clientID := "app"
  clientSecret := ""
  codeVerifier := ""
  refreshToken := refreshToken
  scope := ""

def refreshFlow : Schedule :=
  sampleFlow ++
    served 4 (.refreshAccessToken 3 (sampleRefresh (sampleRefreshID 4))) 5 5

theorem refreshFlow_within_consent :
    Unstarted sampleTables ∧
      ChainFrom (sampleRun refreshFlow) sampleCode (sampleRefreshID 5) ∧
      ∃ row ∈ (tablesOf samplePlatform sampleConfig sampleTables refreshFlow).refreshTokens.rows,
        row.id = sampleRefreshID 5 ∧
        WithinConsent sampleTables (sampleRun refreshFlow) sampleCode row.scopes := by
  have hdb : Unstarted sampleTables := ⟨rfl, rfl, rfl⟩
  have hrun : (sampleCode, sampleRefreshID 4) ∈ exchanged (sampleRun refreshFlow) ∧
      (sampleRefreshID 4, sampleRefreshID 5) ∈ rotations (sampleRun refreshFlow) ∧
      sampleRefreshID 5 ∈ (tablesOf samplePlatform sampleConfig sampleTables
        refreshFlow).refreshTokens.rows.map RefreshToken.id := by
    decide +kernel
  obtain ⟨hexchanged, hrotated, hpresent⟩ := hrun
  have hchain := (chainFrom_of_mem hexchanged).rotated (rotates_of_mem hrotated)
  obtain ⟨row, hrow, hid⟩ := List.mem_map.mp hpresent
  exact ⟨hdb, hchain, row, hrow, hid, (scopes_within_consent samplePlatform
    sampleConfig sampleTables hdb refreshFlow).1 _ _ row hchain hrow hid⟩

end Aegion.OAuth
