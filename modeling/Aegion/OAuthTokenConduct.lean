/-
The token services keep their duties: what a token set is issued on, what the
rows say about it, and how a refresh finds the token it redeems.
-/
import Aegion.OAuthConduct

namespace Aegion.OAuth

open Service

/-- The claims every access token is signed over. -/
theorem mapClaims_accessClaims {platform : Platform} {client : Client}
    {subject jti aud : String} {audience : Json} {scopes : List String}
    {now expiresAt : Time}
    (haudience : JWT.normalizeAudienceClaim audience = .ok aud) :
    JWT.mapClaimsToJWTClaims (accessClaims platform client subject audience
      scopes jti now expiresAt) = .ok
        { issuer := platform.issuer
          subject := subject
          audience := aud
          expiresAt := unix expiresAt
          notBefore := 0
          issuedAt := unix now
          jwtID := jti
          sessionID := ""
          custom := [("client_id", .string client.id),
            ("scope", .string (Go.join scopes " "))] } := by
  simp [JWT.mapClaimsToJWTClaims, accessClaims, JWT.mapClaimsFrom,
    JWT.assignClaim, JWT.textClaim, JWT.normalizeUnixClaim, haudience,
    Except.map, JWT.Claims.empty]

/-- The claims an ID token is signed over. -/
theorem mapClaims_idClaims (issuer subject aud jti acr atHash : String) (amr : List String)
    (iat exp authTime : Int) (nonce : Option String) :
    ∃ claims, JWT.mapClaimsToJWTClaims
      ([("iss", Json.string issuer), ("sub", .string subject), ("aud", .string aud),
        ("iat", .number iat), ("exp", .number exp), ("auth_time", .number authTime),
        ("jti", .string jti), ("acr", .string acr), ("amr", .strings amr),
        ("at_hash", .string atHash)] ++
          match nonce with
          | some nonce => if nonce = "" then [] else [("nonce", .string nonce)]
          | none => []) = .ok claims ∧
      claims.audience = aud ∧ claims.subject = subject ∧
      claims.custom.lookup "acr" = some (.string acr) ∧
      claims.custom.lookup "amr" = some (.strings amr) ∧
      claims.custom.lookup "auth_time" = some (.number authTime) := by
  cases nonce with
  | none => exact ⟨_, rfl, rfl, rfl, rfl, rfl, rfl⟩
  | some value =>
      by_cases hempty : value = ""
      · subst hempty
        exact ⟨_, rfl, rfl, rfl, rfl, rfl, rfl⟩
      · simp only [hempty, if_false]
        exact ⟨_, rfl, rfl, rfl, rfl, rfl, rfl⟩

section Methods

variable {platform : Platform} {request : Request} {past : Past}

theorem yields_signClaims {rawClaims : List (String × Json)}
    {claims : JWT.Claims} (hclaims : JWT.mapClaimsToJWTClaims rawClaims = .ok claims)
    {post : String → Past → Prop} :
    (JWT.signClaims platform rawClaims).Yields (callDuty platform request) post past ↔
      ∀ nonce, post (JWT.compact platform claims nonce) (⟨.randomBytes 32, .ok nonce⟩ :: past) := by
  simp only [JWT.signClaims, JWT.sign, bind_eq, yields_bind, yields_ofExcept,
    hclaims, Except.ok.injEq, forall_eq', yields_statement, callDuty, true_and]
  constructor
  · intro hall nonce
    exact hall (.ok nonce) _ rfl
  · rintro hall (e | nonce) value hvalue
    · cases hvalue
    · cases hvalue
      exact hall nonce

theorem yields_createAccessToken {token : AccessToken} (hjti : token.jti ≠ "")
    {post : Unit → Past → Prop} :
    (createAccessToken token).Yields (callDuty platform request) post past ↔
      ∀ now reply, callDuty platform request (⟨.clock, now⟩ :: past)
          ⟨.insertAccessToken { token with createdAt := now }, reply⟩ ∧
        ∀ value, execDone reply = .ok value → post value
          (⟨.insertAccessToken { token with createdAt := now }, reply⟩ ::
            ⟨.clock, now⟩ :: past) := by
  simp only [createAccessToken, orGenerate_of_ne hjti, bind_eq, yields_bind,
    yields_succeed, yields_nowUTC, yields_statement]

theorem yields_createRefreshToken {token : RefreshToken} (hid : token.id ≠ "")
    (hfamily : token.familyID ≠ "") {post : Unit → Past → Prop} :
    (createRefreshToken token).Yields (callDuty platform request) post past ↔
      ∀ now reply, callDuty platform request (⟨.clock, now⟩ :: past)
          ⟨.insertRefreshToken { token with createdAt := now }, reply⟩ ∧
        ∀ value, execDone reply = .ok value → post value
          (⟨.insertRefreshToken { token with createdAt := now }, reply⟩ ::
            ⟨.clock, now⟩ :: past) := by
  simp only [createRefreshToken, orGenerate_of_ne hid,
    orGenerate_of_ne hfamily, bind_eq, yields_bind, yields_succeed,
    yields_nowUTC, yields_statement]

/-- A client comes out of the opening checks read and authenticated. -/
theorem yields_authenticatedClient {clientID clientSecret : String}
    {grantTypes : List String} {post : Client → Past → Prop}
    (hpost : ∀ client later, Extends past later →
      ClientBasis platform later clientID clientSecret client → post client later) :
    (authenticatedClient platform clientID clientSecret grantTypes).Yields
      (callDuty platform request) post past := by
  simp only [authenticatedClient, bind_eq, yields_bind, yields_orReject,
    yields_getClient, yields_rejectIf, pure_eq, yields_succeed]
  intro client hauthenticated _
  refine hpost client _ ((Extends.refl past).consPlain rfl) ?_
  exact ⟨List.mem_cons_self, by simpa using hauthenticated⟩

end Methods

theorem accessTokenFor_issued (platform : Platform) (g : Grant) {subject : String}
    (hsubject : resolveTokenSubject platform g.client g.identityID = .ok subject)
    (bytes : List UInt8) (now created : Time) {jwt : String}
    (hsigned : SignedFirst platform jwt
      { accessTokenFor platform g subject ("at_" ++ Base64.encodeRawURL bytes)
          jwt now with createdAt := created }) :
    IssuedFor platform g
      { accessTokenFor platform g subject ("at_" ++ Base64.encodeRawURL bytes)
          jwt now with createdAt := created } jwt where
  jti := ⟨bytes, rfl⟩
  signedFirst := hsigned
  issuer := rfl
  unrevoked := rfl
  signature := rfl
  clientID := rfl
  identityID := rfl
  scopes := rfl
  subject := hsubject

section Issue

variable {platform : Platform} {request : Request} {past : Past} {g : Grant}

/-- The access token of a token set: one insert, by a row that fits the JWT. -/
theorem issueAccessToken_yields (hbasis : Basis platform request past g) (now : Time) :
    (issueAccessToken platform g now).Yields (callDuty platform request)
      (fun issued later => Extends past later ∧
        ∃ row, ⟨.insertAccessToken row, .ok ()⟩ ∈ later ∧
          IssuedFor platform g row issued.2) past := by
  simp only [issueAccessToken, generateAccessTokenJTI, bind_eq, yields_bind,
    yields_ofExcept, yields_orReject, yields_generateID]
  intro subject hsubject bytes
  rw [yields_signClaims (mapClaims_accessClaims rfl)]
  intro nonce
  have hjti : "at_" ++ Base64.encodeRawURL bytes ≠ "" :=
    append_ne_empty (by decide) _
  rw [yields_createAccessToken hjti]
  intro created reply
  have hextends : Extends past (⟨.clock, created⟩ ::
      ⟨.randomBytes 32, .ok nonce⟩ :: ⟨.randomBytes 32, .ok bytes⟩ :: past) := by
    refine Extends.consPlain ?_ rfl
    refine Extends.consPlain ?_ rfl
    exact (Extends.refl past).consPlain rfl
  refine ⟨Or.inl ⟨g, _, hbasis.extend hextends, accessTokenFor_issued platform g
    hsubject bytes now created ⟨_, nonce, rfl⟩⟩, ?_⟩
  rintro ⟨⟩ hacknowledged
  simp only [pure_eq, yields_succeed]
  refine ⟨hextends.cons (by simp) (by simp), _, ?_, accessTokenFor_issued
    platform g hsubject bytes now created ⟨_, nonce, rfl⟩⟩
  rcases reply with e | ⟨⟨⟩⟩
  · cases hacknowledged
  · exact List.mem_cons_self

/-- The refresh token of a token set, in the family drawn last. -/
theorem issueRefreshToken_yields (hbasis : Basis platform request past g)
    (jti : String) (now : Time) :
    (issueRefreshToken g jti now).Yields (callDuty platform request)
      (fun issued later => Extends past later ∧ ∀ id, issued = some id →
        ∃ row before, ⟨.insertRefreshToken row, .ok ()⟩ :: before <:+ later ∧
          Extends past before ∧ row.id = id) past := by
  unfold issueRefreshToken
  split
  · simp only [generateRefreshToken, generateRefreshTokenFamily, bind_eq,
      yields_bind, yields_orReject, yields_generateID]
    intro bytes family
    have hid : "rt_" ++ Base64.encodeRawURL bytes ≠ "" :=
      append_ne_empty (by decide) _
    have hfamily : "rtf_" ++ Base64.encodeRawURL family ≠ "" :=
      append_ne_empty (by decide) _
    rw [yields_createRefreshToken hid hfamily]
    intro created reply
    have hextends : Extends past (⟨.clock, created⟩ ::
        ⟨.randomBytes 16, .ok family⟩ :: ⟨.randomBytes 32, .ok bytes⟩ :: past) := by
      refine Extends.consPlain ?_ rfl
      refine Extends.cons ?_ (by simp) (by simp)
      exact (Extends.refl past).consPlain rfl
    refine ⟨⟨g, bytes, family, hbasis.extend hextends, rfl, rfl, rfl, rfl, rfl,
      rfl, rfl, rfl, rfl, rfl⟩, ?_⟩
    rintro ⟨⟩ hacknowledged
    simp only [pure_eq, yields_succeed, Option.some.injEq]
    refine ⟨hextends.cons (by simp) (by simp), ?_⟩
    rintro _ rfl
    rcases reply with e | ⟨⟨⟩⟩
    · cases hacknowledged
    · exact ⟨_, _, List.suffix_rfl, hextends, rfl⟩
  · simp only [pure_eq, yields_succeed, reduceCtorEq, false_implies, implies_true, and_true]
    exact Extends.refl past

theorem yields_createIDToken {token : IDToken} (hjti : token.jti ≠ "")
    {post : Unit → Past → Prop} :
    (createIDToken token).Yields (callDuty platform request) post past ↔
      ∀ now reply, callDuty platform request (⟨.clock, now⟩ :: past)
          ⟨.insertIDToken { token with createdAt := now }, reply⟩ ∧
        ∀ value, execDone reply = .ok value → post value
          (⟨.insertIDToken { token with createdAt := now }, reply⟩ ::
            ⟨.clock, now⟩ :: past) := by
  simp only [createIDToken, orGenerate_of_ne hjti, bind_eq, yields_bind,
    yields_succeed, yields_nowUTC, yields_statement]

/-- The ID token of a token set: one insert, by a row that fits the JWT. -/
theorem issueIDToken_yields (hbasis : Basis platform request past g) (jwt : String) (now : Time) :
    (issueIDToken platform g jwt now).Yields (callDuty platform request)
      (fun issued later => Extends past later ∧ ∀ idJWT, issued = some idJWT →
        ∃ row, ⟨.insertIDToken row, .ok ()⟩ ∈ later ∧ Identifies platform g row idJWT)
      past := by
  unfold issueIDToken
  split
  · simp only [generateIDTokenJTI, bind_eq, yields_bind, yields_ofExcept, yields_orReject,
      yields_generateID]
    intro subject hsubject bytes
    obtain ⟨claims, hclaims, haudience, rfl, hstated⟩ := mapClaims_idClaims platform.issuer
      subject g.client.id ("idt_" ++ Base64.encodeRawURL bytes) g.acr
      (computeATHash platform jwt) g.amr (unix now)
      (unix (now + seconds g.client.idTokenTTL)) (unix g.authTime) g.nonce
    refine (yields_signClaims hclaims).mpr fun nonce => ?_
    have hjti : "idt_" ++ Base64.encodeRawURL bytes ≠ "" := append_ne_empty (by decide) _
    rw [yields_createIDToken hjti]
    intro created reply
    have hextends : Extends past (⟨.clock, created⟩ ::
        ⟨.randomBytes 32, .ok nonce⟩ :: ⟨.randomBytes 32, .ok bytes⟩ :: past) := by
      refine Extends.consPlain ?_ rfl
      refine Extends.consPlain ?_ rfl
      exact (Extends.refl past).consPlain rfl
    refine ⟨⟨g, _, hbasis.extend hextends, rfl, rfl, rfl, claims, nonce, rfl, haudience,
      hsubject, hstated⟩, ?_⟩
    rintro ⟨⟩ hacknowledged
    simp only [pure_eq, yields_succeed, Option.some.injEq]
    refine ⟨hextends.cons (by simp) (by simp), ?_⟩
    rintro _ rfl
    rcases reply with e | ⟨⟨⟩⟩
    · cases hacknowledged
    · exact ⟨_, List.mem_cons_self, rfl, rfl, rfl, claims, nonce, rfl, haudience, hsubject, hstated⟩
  · simp only [pure_eq, yields_succeed, reduceCtorEq, false_implies, implies_true, and_true]
    exact Extends.refl past

/-- A token set keeps the entitlement it was issued on. -/
theorem issueTokens_yields (hbasis : Basis platform request past g) :
    (issueTokens platform g).Yields (callDuty platform request)
      (fun resp later => Issued platform request g resp later ∧
        Extends past later ∧ ∀ id, resp.refreshToken = some id →
          ∃ row before, ⟨.insertRefreshToken row, .ok ()⟩ :: before <:+ later ∧
            Extends past before ∧ row.id = id) past := by
  simp only [issueTokens, bind_eq, yields_bind, yields_nowUTC]
  intro now
  have hclock : Extends past (⟨.clock, now⟩ :: past) :=
    (Extends.refl past).consPlain rfl
  refine (issueAccessToken_yields (hbasis.extend hclock) now).imp ?_
  rintro ⟨jti, jwt⟩ minted - ⟨hminted, row, hrow, hissued⟩
  have hbefore : Extends past minted := hclock.trans hminted
  refine (issueRefreshToken_yields (hbasis.extend hbefore) jti now).imp ?_
  rintro refreshToken refreshed - ⟨hrefreshed, hrefresh⟩
  refine (issueIDToken_yields (hbasis.extend (hbefore.trans hrefreshed)) jwt now).imp ?_
  rintro idToken later - ⟨hlater, hidToken⟩
  simp only [pure_eq, yields_succeed]
  have hextends : Extends past later := (hbefore.trans hrefreshed).trans hlater
  refine ⟨⟨hbasis.extend hextends,
    ⟨row, hlater.mem (hrefreshed.mem hrow), hissued⟩, rfl, hidToken⟩, hextends, ?_⟩
  intro id hid
  obtain ⟨child, before, hchild, hpast, heq⟩ := hrefresh id hid
  exact ⟨child, before, hchild.trans hlater.suffix, hbefore.trans hpast, heq⟩

end Issue

section Grants

variable {platform : Platform} {request : Request} {past : Past}

theorem exchangeAuthorizationCode_yields (req : TokenRequest) :
    (exchangeAuthorizationCode platform req).Yields
      (callDuty platform (.exchangeAuthorizationCode req)) (fun resp later => ∃ g,
        Issued platform (.exchangeAuthorizationCode req) g resp later) past := by
  simp only [exchangeAuthorizationCode, bind_eq, yields_bind, yields_rejectIf]
  intro _
  refine yields_authenticatedClient fun client opened _ hclient => ?_
  simp only [yields_orReject, yields_getAuthCode, yields_nowUTC,
    yields_ofExcept, yields_markAuthCodeUsed]
  intro authCode now _ hsame hredirect _ hverifier stamp n
  have hextends : Extends opened
      (⟨.updateAuthCodeUsed req.code stamp, .ok (n + 1)⟩ :: ⟨.clock, stamp⟩ ::
        ⟨.clock, now⟩ :: ⟨.selectAuthCode req.code, .ok (some authCode)⟩ ::
        opened) := by
    refine Extends.consPlain ?_ rfl
    refine Extends.consPlain ?_ rfl
    refine Extends.consPlain ?_ rfl
    exact (Extends.refl opened).consPlain rfl
  refine Yields.imp (issueTokens_yields ?_) fun _ _ _ hissued => ⟨_, hissued.1⟩
  refine ⟨authCode, ?_⟩
  exact
    { client := hclient.extend hextends
      read := by simp
      sameClient := not_not.mp hsame
      redirect := not_not.mp hredirect
      verifier := hverifier
      marked := ⟨stamp, n, List.mem_cons_self⟩
      identityID := rfl
      scopes := rfl
      context := rfl }

/-- A device-code token request, whatever entitles it. -/
theorem exchangeDeviceCode_yields (req : DeviceCodeTokenRequest)
    (hentitled : ∀ later g, Extends past later →
      ClientBasis platform later req.clientID req.clientSecret g.client →
        g.identityID = req.identityID → g.scopes = req.scopes → Basis platform request later g) :
    (exchangeDeviceCode platform req).Yields (callDuty platform request)
      (fun resp later => ∃ g, Issued platform request g resp later) past := by
  simp only [exchangeDeviceCode, bind_eq, yields_bind, yields_rejectIf]
  intro _
  refine yields_authenticatedClient fun client opened hopened hclient => ?_
  simp only [yields_nowUTC]
  intro _ now
  have hclock : Extends opened (⟨.clock, now⟩ :: opened) :=
    (Extends.refl opened).consPlain rfl
  have hbasis := hentitled _
    { client := client
      identityID := req.identityID
      sessionID := req.sessionID
      scopes := req.scopes
      audience := req.audience
      nonce := none
      acr := "aal1"
      amr := ["pwd"]
      authTime := if req.authTime = zeroTime then now else req.authTime }
    (hopened.trans hclock) (hclient.extend hclock) rfl rfl
  exact (issueTokens_yields hbasis).imp fun _ _ _ hissued => ⟨_, hissued.1⟩

/-- A poll succeeds on the client's own approved and unexpired code. -/
theorem pollOutcome_eq_ok_iff {clientID identityID : String} {dc : DeviceCode} {now : Time} :
    pollOutcome platform clientID dc now = .ok identityID ↔
      dc.clientID = clientID ∧ ¬ dc.expiresAt < now ∧ dc.status = "approved" ∧
        dc.identityID = some identityID := by
  unfold pollOutcome
  by_cases hclient : dc.clientID = clientID
  · by_cases hexpired : dc.expiresAt < now
    · simp [hclient, hexpired]
    · by_cases happroved : dc.status = "approved"
      · cases hidentity : dc.identityID <;> simp [hclient, hexpired, happroved]
      · by_cases hdenied : dc.status = "denied"
        · simp [hclient, hexpired, hdenied]
        · simp only [hclient, ne_eq, not_true_eq_false, ↓reduceIte, hexpired,
            hdenied, happroved, not_false_eq_true, false_and, and_false,
            iff_false]
          cases dc.lastPollAt with
          | none => simp
          | some lastPollAt =>
              dsimp only
              split <;> split <;> simp
  · simp [hclient]

theorem handleDeviceCodeGrant_yields (req : DeviceTokenRequest) :
    (handleDeviceCodeGrant platform req).Yields (callDuty platform (.deviceCodeGrant req))
      (fun resp later => ∃ g,
        Issued platform (.deviceCodeGrant req) g resp later) past := by
  simp only [handleDeviceCodeGrant, pollDeviceToken, getDeviceCodeByDeviceCode,
    consumeDeviceCode, deleteDeviceCode, bind_eq, yields_bind, yields_orReject,
    yields_statement, callDuty, true_and, yields_nowUTC, yields_ofExcept,
    pure_eq, yields_succeed, forall_scanRow_iff, forall_execDone_iff]
  intro dc now identityID hpoll n
  refine exchangeDeviceCode_yields _ fun later g hlater hclient hidentity hscopes => ⟨dc, ?_⟩
  exact
    { client := hclient
      read := hlater.mem (by simp)
      consumed := ⟨n, hlater.mem List.mem_cons_self⟩
      identityID := (pollOutcome_eq_ok_iff.mp hpoll).2.2.2.trans (congrArg some hidentity.symm)
      scopes := hscopes }

end Grants

section Refresh

variable {platform : Platform} {request : Request} {past : Past}

theorem avoids_nowUTC {ε : Type} {bad : ε → Prop} : (nowUTC : Service Reply ε Time).Avoids bad :=
  avoids_statement fun _ _ hok => by cases hok

/-- The error is one that only `RefreshAccessToken` itself answers with. -/
def IsOwn (e : TokenError) : Prop := e = replayError ∨ e = .stackOverflow

theorem not_isOwn_store (e : StoreError) : ¬ IsOwn (TokenError.store e "") := by
  simp [IsOwn, replayError]

theorem avoids_resolveTokenSubject {client : Client} {identityID : String} :
    (ofExcept (resolveTokenSubject platform client identityID) :
      Service Reply TokenError String).Avoids IsOwn := by
  refine avoids_ofExcept fun e herror => ?_
  unfold resolveTokenSubject at herror
  dsimp only at herror
  split at herror
  · cases herror
    simp [IsOwn, replayError]
  · split at herror
    · cases herror
    · split at herror
      · split at herror
        · cases herror
          simp [IsOwn, replayError]
        · cases herror
      · cases herror
        simp [IsOwn, replayError]

theorem avoids_issueTokens {g : Grant} : (issueTokens platform g).Avoids IsOwn := by
  have hstore := not_isOwn_store
  have hsign : ∀ what, ¬ IsOwn (TokenError.sign what) := by
    simp [IsOwn, replayError]
  have hgenerate : ∀ what, ¬ IsOwn (TokenError.generate what) := by
    simp [IsOwn, replayError]
  have haccess : ∀ now, (issueAccessToken platform g now).Avoids IsOwn := fun now =>
    avoids_resolveTokenSubject.bind fun _ =>
      (avoids_orReject fun _ => hgenerate _).bind fun _ =>
        (avoids_orReject fun _ => hsign _).bind fun _ =>
          (avoids_orReject fun _ => hstore _).bind fun _ => avoids_succeed
  have hrefresh : ∀ jti now, (issueRefreshToken g jti now).Avoids IsOwn := by
    intro jti now
    unfold issueRefreshToken
    split
    · exact (avoids_orReject fun _ => hgenerate _).bind fun _ =>
        (avoids_orReject fun _ => hgenerate _).bind fun _ =>
          (avoids_orReject fun _ => hstore _).bind fun _ => avoids_succeed
    · exact avoids_succeed
  have hid : ∀ jwt now, (issueIDToken platform g jwt now).Avoids IsOwn := by
    intro jwt now
    unfold issueIDToken
    split
    · exact avoids_resolveTokenSubject.bind fun _ =>
        (avoids_orReject fun _ => hgenerate _).bind fun _ =>
          (avoids_orReject fun _ => hsign _).bind fun _ =>
            (avoids_orReject fun _ => hstore _).bind fun _ => avoids_succeed
    · exact avoids_succeed
  exact avoids_nowUTC.bind fun now => (haccess now).bind fun issued =>
    (hrefresh issued.1 now).bind fun _ => (hid issued.2 now).bind fun _ =>
      avoids_succeed

theorem avoids_rotate {req : TokenRequest} {client : Client} {token : RefreshToken} :
    (rotate platform req client token).Avoids IsOwn := by
  have hscopes : ∀ e, refreshScopes req token = .error e → ¬ IsOwn e := by
    intro e herror
    unfold refreshScopes at herror
    split at herror
    · cases herror
    · split at herror
      · cases herror
        simp [IsOwn, replayError]
      · cases herror
  have hgrace : ∀ e, refreshTokenGracePeriod client = .error e → ¬ IsOwn e := by
    intro e herror
    have hinvalid : e = .invalidClient := by
      unfold refreshTokenGracePeriod at herror
      grind
    simp [hinvalid, IsOwn, replayError]
  have hgrant : ¬ IsOwn TokenError.invalidGrant := by
    simp [IsOwn, replayError]
  have hscope : ¬ IsOwn (TokenError.invalidScope
      "refreshed token set did not include a refresh token") := by
    simp [IsOwn, replayError]
  exact avoids_nowUTC.bind fun _ => (avoids_rejectIf hgrant).bind fun _ =>
    (avoids_rejectIf hgrant).bind fun _ =>
      (avoids_ofExcept hscopes).bind fun _ => avoids_nowUTC.bind fun _ =>
        avoids_issueTokens.bind fun _ => (avoids_rejectIf hscope).bind fun _ =>
          (avoids_ofExcept hgrace).bind fun _ =>
            (avoids_orReject not_isOwn_store).bind fun _ => avoids_succeed

theorem avoids_authenticatedClient {clientID clientSecret : String} {grantTypes : List String} :
    (authenticatedClient platform clientID clientSecret grantTypes).Avoids IsOwn := by
  have hclient : ¬ IsOwn TokenError.invalidClient := by
    simp [IsOwn, replayError]
  have hgrant : ¬ IsOwn TokenError.unauthorizedClient := by
    simp [IsOwn, replayError]
  exact (avoids_orReject fun _ => hclient).bind fun _ =>
    (avoids_rejectIf hclient).bind fun _ =>
      (avoids_rejectIf hgrant).bind fun _ => avoids_succeed

theorem isValid_eq_ok_iff {token : RefreshToken} {now : Time} :
    token.isValid now = .ok () ↔
      token.active = true ∧ token.used = false ∧ ¬ token.expiresAt < now := by
  unfold RefreshToken.isValid
  cases token.active <;> cases token.used <;> simp

theorem refreshScopes_subset {req : TokenRequest} {token : RefreshToken}
    {scopes : List String} (hscopes : refreshScopes req token = .ok scopes) :
    scopes ⊆ token.scopes := by
  unfold refreshScopes at hscopes
  split at hscopes
  · cases hscopes
    exact List.Subset.refl _
  · split at hscopes
    · cases hscopes
    · rename_i hnone
      cases hscopes
      intro scope hscope
      simpa using List.find?_eq_none.mp hnone scope hscope

/-- A rotation issues on the token it redeems and marks it with its child. -/
theorem rotate_yields {depth : Nat} {original req : TokenRequest}
    {client : Client} {token : RefreshToken} (hclient : ClientBasis platform past original.clientID
      original.clientSecret client)
    (hread : ⟨.selectRefreshToken req.refreshToken, .ok (some token)⟩ ∈ past)
    (hredeemed : redeemed past = some token) (hscope : req.scope = effectiveScope original past) :
    (rotate platform req client token).Yields
      (callDuty platform (.refreshAccessToken depth original)) (fun resp later =>
        (∃ g, Issued platform (.refreshAccessToken depth original) g resp later) ∧
          Extends past later ∧ Leads later req.refreshToken token) past := by
  simp only [rotate, bind_eq, yields_bind, yields_nowUTC, yields_rejectIf, yields_ofExcept]
  intro now hvalid hsame scopes hscopes authTime
  obtain ⟨hactive, hunused, -⟩ := isValid_eq_ok_iff.mp (not_not.mp hvalid)
  have hclock : Extends past (⟨.clock, authTime⟩ :: ⟨.clock, now⟩ :: past) := by
    refine Extends.consPlain ?_ rfl
    exact (Extends.refl past).consPlain rfl
  have heffective : effectiveScope original (⟨.clock, authTime⟩ :: ⟨.clock, now⟩ :: past) =
      req.scope := by
    rw [hscope, effectiveScope, effectiveScope, hclock.reads]
  refine Yields.imp (issueTokens_yields ?_) ?_
  · exact ⟨token,
      { redeemed := hclock.redeemed.trans hredeemed
        client := hclient.extend hclock
        sameClient := not_not.mp hsame
        active := hactive
        unused := hunused
        identityID := rfl
        scopes := by
          rw [heffective]
          exact hscopes
        context := ⟨authTime, List.mem_cons_self, rfl⟩ }⟩
  · rintro resp issued - ⟨hissued, hextends, hrefresh⟩
    simp only [yields_orReject, markRefreshTokenUsed, bind_eq, yields_bind,
      yields_nowUTC, yields_statement, pure_eq, yields_succeed]
    intro hsuccessor gracePeriod hgrace stamp reply
    have hpast : Extends past (⟨.clock, stamp⟩ :: issued) :=
      (hclock.trans hextends).consPlain rfl
    obtain ⟨id, hid⟩ : ∃ id, resp.refreshToken = some id := by
      cases hnone : resp.refreshToken with
      | none => simp [hnone, Go.blank_empty] at hsuccessor
      | some id => exact ⟨id, rfl⟩
    obtain ⟨row, before, hrow, hbefore, heq⟩ := hrefresh id hid
    refine ⟨⟨depth, original, token, rfl,
      { redeemed := hpast.redeemed.trans hredeemed
        read := hpast.mem hread
        child := ⟨row, before, hrow.trans (List.suffix_cons _ _),
          (hbefore.redeemed.trans hclock.redeemed).trans hredeemed, ?_⟩
        grace := ⟨client, gracePeriod, hclient.extend hpast, not_not.mp hsame, hgrace, rfl⟩ }⟩, ?_⟩
    · rw [hid]
      exact heq
    · intro _ hmarked
      have hafter : Extends issued
          (⟨.updateRefreshTokenUsed req.refreshToken stamp
            (resp.refreshToken.getD "") _, reply⟩ :: ⟨.clock, stamp⟩ :: issued) := by
        refine Extends.cons ?_ (by simp) (by simp)
        exact (Extends.refl issued).consPlain rfl
      have hwhole := (hclock.trans hextends).trans hafter
      obtain ⟨n, rfl⟩ := eq_of_execAffected hmarked
      exact ⟨⟨_, hissued.extend hafter⟩, hwhole, Leads.read (hwhole.mem hread)
        ⟨stamp, _, _, n, List.mem_cons_self⟩⟩

/-- What a refresh of the given token comes to. -/
def RefreshOutcome (platform : Platform) (request : Request) (id : String) (lookups : Nat) :
    Except TokenError TokenResponse → Past → Prop
  | .ok resp, later =>
      (∃ g, Issued platform request g resp later) ∧
        ∃ token, redeemed later = some token ∧ Leads later id token
  | .error e, later =>
      (e = replayError → ∃ token reply before,
        redeemed later = some token ∧ token.used = true ∧
          ⟨.updateRefreshFamilyInactive token.familyID, reply⟩ :: before <:+
            later ∧ redeemed before = some token) ∧
        (e = .stackOverflow → (reads later).length = lookups)

/-- A refresh that passes through a used token to its successor. -/
theorem RefreshOutcome.successor {id successorID : String} {lookups : Nat} {later : Past}
    {token : RefreshToken} {outcome : Except TokenError TokenResponse}
    (hread : ⟨.selectRefreshToken id, .ok (some token)⟩ ∈ later) {now : Time}
    (hgrace : graceOver token now = false) (hsuccessor : token.successorID = some successorID)
    (houtcome : RefreshOutcome platform request successorID lookups outcome later) :
    RefreshOutcome platform request id lookups outcome later := by
  cases outcome with
  | error e => exact houtcome
  | ok resp =>
      obtain ⟨hissued, last, hlast, hleads⟩ := houtcome
      exact ⟨hissued, last, hlast, Leads.successor hread hgrace hsuccessor hleads⟩

/-- Errors that other services answer with say nothing about the refresh. -/
theorem RefreshOutcome.of_not_isOwn {id : String} {lookups : Nat} {e : TokenError}
    {later : Past} (hother : ¬ IsOwn e) :
    RefreshOutcome platform request id lookups (.error e) later :=
  ⟨fun hreplay => absurd (.inl hreplay) hother, fun hdeep => absurd (.inr hdeep) hother⟩

/-- A refresh that ends in a rotation of the token it has read last. -/
theorem rotate_keeps {original req : TokenRequest} {start lookups : Nat}
    {client : Client} {token : RefreshToken}
    (hbasis : ClientBasis platform past original.clientID original.clientSecret client)
    (hread : ⟨.selectRefreshToken req.refreshToken, .ok (some token)⟩ ∈ past)
    (hredeemed : redeemed past = some token) (hscope : req.scope = effectiveScope original past) :
    (rotate platform req client token).Keeps
      (callDuty platform (.refreshAccessToken start original))
      (RefreshOutcome platform (.refreshAccessToken start original)
        req.refreshToken lookups) past := by
  refine Avoids.keeps avoids_rotate (fun _ _ => .of_not_isOwn)
    (Yields.imp (rotate_yields hbasis hread hredeemed hscope) ?_)
  rintro resp last - ⟨hissued, hextends, hleads⟩
  exact ⟨hissued, token, hextends.redeemed.trans hredeemed, hleads⟩

theorem refreshAccessToken_keeps {original : TokenRequest} {start : Nat}
    (depth : Nat) {req : TokenRequest} (hclientID : req.clientID = original.clientID)
    (hsecret : req.clientSecret = original.clientSecret)
    (hscope : req.scope = if reads past = [] then original.scope else "")
    (hnext : ∀ token, redeemed past = some token → token.successorID = some req.refreshToken) :
    (refreshAccessToken platform depth req).Keeps
      (callDuty platform (.refreshAccessToken start original))
      (RefreshOutcome platform (.refreshAccessToken start original)
        req.refreshToken ((reads past).length + depth)) past := by
  -- Induction on the recursion depth; the past grows from call to call.
  induction depth generalizing req past with
  | zero =>
      simp only [refreshAccessToken, keeps_reject]
      exact ⟨fun hreplay => by simp [replayError] at hreplay, fun _ => rfl⟩
  | succ depth ih =>
      simp only [refreshAccessToken, bind_eq]
      refine Avoids.keeps_bind (avoids_rejectIf (by simp [IsOwn, replayError]))
        (fun _ _ => .of_not_isOwn) (yields_rejectIf.mpr fun _ => ?_)
      refine Avoids.keeps_bind avoids_authenticatedClient (fun _ _ => .of_not_isOwn)
        (yields_authenticatedClient fun client opened hopened hclient => ?_)
      rw [hclientID, hsecret] at hclient
      refine Avoids.keeps_bind
        (avoids_orReject fun _ => by simp [IsOwn, replayError]) (fun _ _ => .of_not_isOwn)
        (yields_orReject.mpr ((yields_getRefreshToken fun _ _ _ _ last hlast => ?_).mpr
          fun token => ?_))
      · exact hnext last (hopened.redeemed.symm.trans hlast)
      have hbasis : ClientBasis platform (⟨.selectRefreshToken req.refreshToken,
          .ok (some token)⟩ :: opened) original.clientID original.clientSecret
          client :=
        ⟨List.mem_cons_of_mem _ hclient.read, hclient.authenticated⟩
      have hreads : reads (⟨.selectRefreshToken req.refreshToken,
          .ok (some token)⟩ :: opened) = token :: reads past := by
        rw [reads_cons_read, hopened.reads]
      have hrotate : ∀ later, Extends (⟨.selectRefreshToken req.refreshToken,
          .ok (some token)⟩ :: opened) later →
          (rotate platform req client token).Keeps
            (callDuty platform (.refreshAccessToken start original))
            (RefreshOutcome platform (.refreshAccessToken start original)
              req.refreshToken ((reads past).length + (depth + 1))) later := by
        intro later hlater
        have heffective : req.scope = effectiveScope original later := by
          simp only [hscope, effectiveScope, hlater.reads, hreads, List.length_cons,
            Nat.add_eq_right, List.length_eq_zero_iff]
        exact rotate_keeps (hbasis.extend hlater) (hlater.mem List.mem_cons_self)
          hlater.redeemed heffective
      split
      · refine Avoids.keeps_bind avoids_nowUTC (fun _ _ => .of_not_isOwn)
          (yields_nowUTC.mpr fun now => ?_)
        split
        · rename_i hused _
          refine Avoids.keeps_bind avoids_attempt (fun _ _ => .of_not_isOwn) (yields_attempt.mpr ?_)
          simp only [invalidateRefreshTokenFamily, keeps_statement, keeps_reject]
          intro reply
          exact ⟨trivial, fun _ => ⟨token, reply, _, rfl, hused,
            List.suffix_rfl, rfl⟩, fun hdeep => by cases hdeep⟩
        · split
          · rename_i hgrace _ successorID hsuccessor
            have hclock : reads (⟨.clock, now⟩ :: ⟨.selectRefreshToken req.refreshToken,
                .ok (some token)⟩ :: opened) = token :: reads past := hreads
            refine Keeps.imp (ih hclientID hsecret ?_ ?_) ?_
            · rw [hclock, if_neg (List.cons_ne_nil token _)]
            · intro last hlast
              rw [redeemed_eq_head?, hclock, List.head?_cons] at hlast
              cases hlast
              exact hsuccessor
            · intro outcome later hlater houtcome
              rw [hclock, List.length_cons, Nat.add_right_comm] at houtcome
              exact RefreshOutcome.successor (hlater.subset (by simp))
                (Bool.eq_false_iff.mpr hgrace) hsuccessor houtcome
          · exact hrotate _ ((Extends.refl _).consPlain rfl)
      · exact hrotate _ (Extends.refl _)

end Refresh

end Aegion.OAuth
