/-
Introspection of granted tokens.  A token is looked up as a JTI, which it never
is, and then by its fingerprint, which only `issueTokens` stores.
-/
import Aegion.AuthorizationCodeBinding
import Aegion.TokenIdentity

namespace Aegion

namespace OAuth

open Go Service History

/-- Every statement goes through, and the clock stands at `now`. -/
def Healthy (now : Time) (choices : List Choice) : Prop :=
  ∀ choice ∈ choices, choice.now = now ∧ choice.fails = false

/-- The request authenticates as the given confidential client. -/
structure IntrospectsAs (platform : Platform) (db : Database)
    (req : IntrospectionRequest) (client : Client) : Prop where
  named : blank req.clientID = false
  found : db.clients.find? req.clientID = some client
  method : blank client.tokenEndpointAuthMethod = false
  confidential : client.tokenEndpointAuthMethod ≠ "none"
  authenticated : authenticateClient platform client req.clientSecret = true

theorem IntrospectsAs.of_clients_eq {platform : Platform} {db db' : Database}
    {req : IntrospectionRequest} {client : Client} (hauth : IntrospectsAs platform db req client)
    (hclients : db'.clients = db.clients) : IntrospectsAs platform db' req client :=
  { hauth with found := hclients ▸ hauth.found }

/-- What introspection makes of the row it found. -/
def introspectionOf (row : AccessToken) (client : Client) (now : Time) :
    Except TokenError IntrospectionResponse :=
  if row.revoked || row.expiresAt < now then .ok .inactive
  else if row.clientID ≠ client.id then .error .unauthorizedClient
  else .ok { active := true
             clientID := row.clientID
             subject := row.subject
             scope := join row.scopes " "
             expiresAt := unix row.expiresAt
             issuer := row.issuer
             audience := row.audience
             tokenType := "Bearer" }

section Lookup

variable {platform : Platform} {db : Database} {req : IntrospectionRequest}
variable {client : Client} {now : Time} {choices : List Choice}

/-- A token that is no JTI is looked up by its fingerprint. -/
theorem resolveAccessToken_run {c₁ c₂ : Choice} {token : String}
    (h₁ : c₁.fails = false) (h₂ : c₂.fails = false) (hnone : db.accessTokens.find? token = none) :
    (resolveAccessTokenForIntrospection platform token).run perform (c₁ :: c₂ :: choices) db =
      some (scanRow (.ok (db.accessTokens.rows.find?
        (·.signature = some (accessTokenSignature platform token)))), db,
          choices) := by
  simp [resolveAccessTokenForIntrospection, hnone, answer_of_not_fails h₁,
    answer_of_not_fails h₂, scanRow]

theorem introspectToken_run (hauth : IntrospectsAs platform db req client)
    (htoken : blank req.token = false)
    (hnone : db.accessTokens.find? req.token = none)
    (hhealthy : Healthy now choices) (hlength : 4 ≤ choices.length) :
    ∃ rest, (introspectToken platform req).run perform choices db =
      some (match db.accessTokens.rows.find?
          (·.signature = some (accessTokenSignature platform req.token)) with
        | none => .ok .inactive
        | some row => introspectionOf row client now, db, rest) := by
  match choices, hlength with
  | c₁ :: c₂ :: c₃ :: c₄ :: rest, _ =>
      obtain ⟨-, h₁⟩ := hhealthy c₁ (by simp)
      obtain ⟨-, h₂⟩ := hhealthy c₂ (by simp)
      obtain ⟨-, h₃⟩ := hhealthy c₃ (by simp)
      obtain ⟨hnow, -⟩ := hhealthy c₄ (by simp)
      have hmethod : client.tokenEndpointAuthMethod ≠ "" := by
        intro hempty
        have hblank := hauth.method
        rw [hempty, blank_empty] at hblank
        cases hblank
      simp only [introspectToken, htoken, hauth.named, Bool.or_self,
        Bool.false_eq_true, Bool.or_eq_true, decide_eq_true_eq, pure_eq, ne_eq,
        bind_eq, run_bind, run_rejectIf, ↓reduceIte, Option.bind_some, resume_ok,
        run_orReject, Except.mapError, Prod.mk.eta, run_getClient, scanRow,
        hauth.found, answer_of_not_fails h₁, Option.map_some, hauth.method,
        hauth.confidential, or_self, hauth.authenticated, Bool.true_eq_false,
        hmethod, run_attempt, resolveAccessToken_run h₂ h₃ hnone]
      cases db.accessTokens.rows.find?
          (·.signature = some (accessTokenSignature platform req.token)) with
      | none => exact ⟨c₄ :: rest, by simp⟩
      | some row =>
          refine ⟨rest, ?_⟩
          by_cases hdead : row.revoked = true ∨ row.expiresAt < now
          · simp [hnow, introspectionOf, hdead]
          · by_cases howner : row.clientID = client.id <;>
              simp [hnow, introspectionOf, hdead, howner]

end Lookup

section Complete

variable {platform : Platform} {db : Database} {history : Trace}

/-- The fingerprint of a token leads to no other token's row.  The platform's
hash function decides whether this is so. -/
def FingerprintOwn (platform : Platform) (db : Database) (jwt : String) : Prop :=
  ∀ row ∈ db.accessTokens.rows,
    row.signature = some (accessTokenSignature platform jwt) →
      SignedFor platform jwt row

/-- A token alone in the table has no one to share its fingerprint with. -/
theorem fingerprintOwn_of_sole {jwt : String} {row : AccessToken}
    (hlength : db.accessTokens.rows.length = 1)
    (hrow : row ∈ db.accessTokens.rows) (hsigned : SignedFor platform jwt row) :
    FingerprintOwn platform db jwt := by
  obtain ⟨only, honly⟩ := List.length_eq_one_iff.mp hlength
  rw [honly, List.mem_singleton] at hrow
  intro other hother _
  rw [honly, List.mem_singleton] at hother
  rw [hother, ← hrow]
  exact hsigned

/-- The row a token's fingerprint leads to is the token's own, if it has left
one. -/
theorem find_fingerprint (hsound : platform.Sound) {jwt scope : String}
    {request : Request} {row : AccessToken}
    (hown : FingerprintOwn platform db jwt) (hrow : row ∈ db.accessTokens.rows)
    (hrecorded : Recorded platform request jwt scope row) :
    db.accessTokens.rows.find? (·.signature = some (accessTokenSignature platform jwt)) =
      if request.storesFingerprint then some row else none := by
  have hsame : ∀ other ∈ db.accessTokens.rows,
      other.signature = some (accessTokenSignature platform jwt) →
        other = row := by
    intro other hother hsignature
    exact Table.row_eq_of_key_eq _ hother hrow
      ((hown other hother hsignature).jti_eq hrecorded.signed hsound)
  have hsignature := hrecorded.signature
  cases hfound : db.accessTokens.rows.find?
      (·.signature = some (accessTokenSignature platform jwt)) with
  | none =>
      have hnone := List.find?_eq_none.mp hfound row hrow
      cases hstores : request.storesFingerprint with
      | false => rfl
      | true => simp [hsignature, hstores] at hnone
  | some other =>
      have hother := List.mem_of_find?_eq_some hfound
      have hmatches : other.signature = some (accessTokenSignature platform jwt) := by
        simpa using List.find?_some hfound
      obtain rfl := hsame other hother hmatches
      cases hstores : request.storesFingerprint with
      | false => simp [hsignature, hstores] at hmatches
      | true => rfl

/-- Introspection of a token whose row is in the table. -/
theorem introspection_of_recorded (hsound : platform.Sound)
    (hjtis : ∀ other ∈ db.accessTokens.rows, IsJTI other.jti)
    {jwt scope : String} {request : Request} {row : AccessToken}
    (hown : FingerprintOwn platform db jwt) (hrow : row ∈ db.accessTokens.rows)
    (hrecorded : Recorded platform request jwt scope row)
    {req : IntrospectionRequest} {client : Client} {now : Time}
    {choices : List Choice} (htoken : req.token = jwt)
    (hauth : IntrospectsAs platform db req client)
    (hhealthy : Healthy now choices) (hlength : 4 ≤ choices.length) :
    ∃ rest, (introspectToken platform req).run perform choices db =
      some (if request.storesFingerprint then introspectionOf row client now
        else .ok .inactive, db, rest) := by
  subst htoken
  have hnone : db.accessTokens.find? req.token = none := by
    rw [Table.find?_eq_none_iff]
    intro other hother
    exact (hjtis other hother).ne_token hrecorded.signed
  obtain ⟨rest, hrun⟩ := introspectToken_run hauth hrecorded.signed.not_blank hnone hhealthy hlength
  refine ⟨rest, hrun.trans ?_⟩
  rw [find_fingerprint hsound hown hrow hrecorded]
  cases request.storesFingerprint <;> rfl

/-- Where a token was granted, introspection by its confidential owner finds it
active as long as its row is neither revoked nor expired, exactly if the grant
was one that stores fingerprints. -/
theorem introspection_active_iff (platform : Platform) (hsound : platform.Sound)
    (config : DeviceConfig) (db : Database) (actions : Schedule)
    (hempty : db.accessTokens.rows = []) (thread : Nat) (request : Request)
    (response : Response) (jwt scope : String) (hanswer : (thread, request, response) ∈
      answers (runFrom platform config db actions))
    (hgrant : response.grant = some (jwt, scope))
    (hown : FingerprintOwn platform (tablesOf platform config db actions) jwt) :
    ∃ row ∈ (tablesOf platform config db actions).accessTokens.rows,
      SignedFor platform jwt row ∧
      ∀ req client now choices, row.revoked = false → ¬ row.expiresAt < now →
        req.token = jwt → client.id = row.clientID →
        IntrospectsAs platform (tablesOf platform config db actions) req client →
        Healthy now choices → 4 ≤ choices.length →
        ((∃ resp rest, (introspectToken platform req).run perform choices
            (tablesOf platform config db actions) =
              some (.ok resp, tablesOf platform config db actions, rest) ∧
            resp.active = true ∧ resp.scope = scope ∧
            resp.subject = row.subject ∧ resp.clientID = row.clientID) ↔
          request.storesFingerprint = true) := by
  have hlaw := lawful_of_run platform config db actions
  rw [tablesOf_eq] at hown ⊢
  obtain ⟨row, hrow, hrecorded⟩ := recorded_of_grant hlaw hanswer hgrant
  refine ⟨row, hrow, hrecorded.signed, ?_⟩
  intro req client now choices hrevoked hexpires htoken howner hauth hhealthy hlength
  obtain ⟨rest, hrun⟩ := introspection_of_recorded hsound
    (fun _ hother => (minted_of_row hlaw hempty hother).1) hown hrow hrecorded
    htoken hauth hhealthy hlength
  rw [hrun]
  cases hstores : request.storesFingerprint with
  | false => simp [IntrospectionResponse.inactive]
  | true =>
      simp [introspectionOf, hrevoked, hexpires, howner, hrecorded.scope hstores]

end Complete

theorem samplePlatform_sound : samplePlatform.Sound where
  unmarshal_marshal := fun members _ =>
    ⟨members, objectCodec.ofBytes_toBytes members, fun _ => rfl⟩
  verify_sign := fun _ _ => rfl

/-- A token set of the client with a secret. -/
def sampleDeviceGrant : DeviceCodeTokenRequest where
  clientID := "svc"
  clientSecret := "pw"
  identityID := "alice"
  sessionID := ""
  scopes := ["read"]
  audience := ["api"]
  authTime := 0

/-- A request that is served alone; its answer, the token in it, and the tables
it leaves follow. -/
def grantActions (request : Request) : Schedule :=
  served 0 request 1 1

def soleResponse (request : Request) : Response :=
  ((answers (sampleRun
    (grantActions request))).head?.map (·.2.2)).getD .done

def soleToken (request : Request) : String :=
  ((soleResponse request).grant.getD ("", "")).1

def soleTables (request : Request) : Database :=
  tablesOf samplePlatform sampleConfig sampleTables (grantActions request)

theorem soleTables_eq (request : Request) :
    soleTables request =
      tablesOf samplePlatform sampleConfig sampleTables (grantActions request) := rfl

theorem isJTI_of_soleTables {request : Request} {row : AccessToken}
    (hrow : row ∈ (soleTables request).accessTokens.rows) : IsJTI row.jti := by
  rw [soleTables_eq, tablesOf_eq] at hrow
  exact (minted_of_row (lawful_of_run samplePlatform sampleConfig sampleTables _) rfl hrow).1

/-- The request was answered with a token, whose row is the only one. -/
structure SoleGrant (request : Request) (scope : String) : Prop where
  answered : (answers (sampleRun
    (grantActions request))).head?.map (fun a => (a.1, a.2.1)) =
      some (0, request)
  scope : (soleResponse request).grant.map (·.2) = some scope
  length : (soleTables request).accessTokens.rows.length = 1
  client : (soleTables request).clients.find? "svc" = some secretClient

namespace SoleGrant

variable {request : Request} {scope : String} (hsole : SoleGrant request scope)

include hsole

theorem mem : (0, request, soleResponse request) ∈ answers (sampleRun (grantActions request)) := by
  obtain ⟨⟨thread, other, response⟩, hhead, hsame⟩ :=
    Option.map_eq_some_iff.mp hsole.answered
  obtain ⟨rfl, rfl⟩ := Prod.mk.inj hsame
  have hresponse : soleResponse other = response := by
    simp [soleResponse, hhead]
  rw [hresponse]
  exact List.mem_of_head? hhead

theorem grant : (soleResponse request).grant = some (soleToken request, scope) := by
  obtain ⟨⟨jwt, other⟩, hgrant, rfl⟩ := Option.map_eq_some_iff.mp hsole.scope
  simp [soleToken, hgrant]

theorem recorded : ∃ row ∈ (soleTables request).accessTokens.rows,
    Recorded samplePlatform request (soleToken request) scope row := by
  rw [soleTables_eq, tablesOf_eq]
  exact recorded_of_grant
    (lawful_of_run samplePlatform sampleConfig sampleTables _) hsole.mem
    hsole.grant

theorem own : FingerprintOwn samplePlatform (soleTables request) (soleToken request) := by
  obtain ⟨row, hrow, hrecorded⟩ := hsole.recorded
  exact fingerprintOwn_of_sole hsole.length hrow hrecorded.signed

theorem introspectsAs : IntrospectsAs samplePlatform (soleTables request)
    ⟨soleToken request, "svc", "pw"⟩ secretClient where
  named := show blank "svc" = false by decide
  found := hsole.client
  method := by decide
  confidential := by decide
  authenticated := show authenticateClient samplePlatform secretClient "pw" = true
    by decide

end SoleGrant

theorem healthy_moment (n : Nat) (entropy : UInt8) :
    Healthy 2000000000 (List.replicate n (moment 2 entropy)) := by
  intro choice hchoice
  rw [List.eq_of_mem_replicate hchoice]
  simp [moment]

theorem sampleDeviceGrant_sole : SoleGrant (.exchangeDeviceCode sampleDeviceGrant) "read" :=
  ⟨by decide +kernel, by decide +kernel, by decide +kernel, by decide +kernel⟩

theorem sampleDeviceGrant_live :
    ∀ row ∈ (soleTables (.exchangeDeviceCode sampleDeviceGrant)).accessTokens.rows,
      row.revoked = false ∧ ¬ row.expiresAt < 2000000000 ∧
        row.clientID = secretClient.id ∧ row.issuer = samplePlatform.issuer := by
  decide +kernel

theorem deviceGrant_introspected :
    ∃ resp rest, (introspectToken samplePlatform
        ⟨soleToken (.exchangeDeviceCode sampleDeviceGrant), "svc", "pw"⟩).run
        perform (List.replicate 4 (moment 2 2))
        (soleTables (.exchangeDeviceCode sampleDeviceGrant)) =
          some (.ok resp, soleTables (.exchangeDeviceCode sampleDeviceGrant),
            rest) ∧
      resp.active = true ∧ resp.scope = "read" ∧ resp.clientID = "svc" := by
  have hsole := sampleDeviceGrant_sole
  obtain ⟨row, hrow, -, hintrospect⟩ := introspection_active_iff samplePlatform
    samplePlatform_sound sampleConfig sampleTables
    (grantActions (.exchangeDeviceCode sampleDeviceGrant)) rfl 0 _ _ _ _
    hsole.mem hsole.grant hsole.own
  rw [← soleTables_eq] at hrow hintrospect
  obtain ⟨hrevoked, hexpires, howner, -⟩ := sampleDeviceGrant_live row hrow
  obtain ⟨resp, rest, hrun, hactive, hscope, -, hclient⟩ :=
    (hintrospect ⟨soleToken (.exchangeDeviceCode sampleDeviceGrant), "svc", "pw"⟩
      secretClient 2000000000 _ hrevoked hexpires (by dsimp only) howner.symm
      hsole.introspectsAs (healthy_moment 4 2) (by simp)).mpr rfl
  exact ⟨resp, rest, hrun, hactive, hscope, hclient.trans howner⟩

/-- A token of the client-credentials grant: its row is neither revoked nor
expired, and yet introspection reports it as inactive. -/
theorem clientCredentials_introspected_inactive :
    (soleResponse (.issueClientCredentials ⟨"svc", "pw", "read"⟩)).grant =
      some (soleToken (.issueClientCredentials ⟨"svc", "pw", "read"⟩), "read") ∧
    (∀ row ∈ (soleTables (.issueClientCredentials ⟨"svc", "pw", "read"⟩)).accessTokens.rows,
      row.revoked = false ∧ ¬ row.expiresAt < 2000000000 ∧
        row.clientID = "svc") ∧
    ∃ rest, (introspectToken samplePlatform
        ⟨soleToken (.issueClientCredentials ⟨"svc", "pw", "read"⟩), "svc",
          "pw"⟩).run perform (List.replicate 4 (moment 2 2))
        (soleTables (.issueClientCredentials ⟨"svc", "pw", "read"⟩)) =
      some (.ok .inactive,
        soleTables (.issueClientCredentials ⟨"svc", "pw", "read"⟩), rest) := by
  have hsole : SoleGrant (.issueClientCredentials ⟨"svc", "pw", "read"⟩) "read" :=
    ⟨by decide, by decide, by decide, by decide⟩
  refine ⟨hsole.grant, by decide, ?_⟩
  obtain ⟨row, hrow, hrecorded⟩ := hsole.recorded
  exact introspection_of_recorded samplePlatform_sound
    (fun _ => isJTI_of_soleTables) hsole.own hrow hrecorded (by dsimp only)
    hsole.introspectsAs (healthy_moment 4 2) (by simp)

end OAuth

end Aegion
