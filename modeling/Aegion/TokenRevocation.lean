/-
Token revocation.  The presented string is taken for a JTI, without asking whose
token it is, and then for a refresh token, whose family is invalidated.
-/
import Aegion.TokenIntrospection

namespace Aegion.OAuth

open Go Service History

/-- The hint allows for an access token. -/
def asksAccess (req : RevocationRequest) : Prop :=
  req.tokenTypeHint = "" ∨ req.tokenTypeHint = "access_token"

def asksRefresh (req : RevocationRequest) : Prop :=
  req.tokenTypeHint = "" ∨ req.tokenTypeHint = "refresh_token"

instance (req : RevocationRequest) : Decidable (asksAccess req) := by
  unfold asksAccess
  infer_instance

/-- The presented string is the JTI of a row, and the update goes through. -/
def HitsAccess (db : Database) (req : RevocationRequest) (update : Choice) : Prop :=
  update.fails = false ∧ ∃ row ∈ db.accessTokens.rows, row.jti = req.token

/-- The presented string is a refresh token of the client, and an active token of
its family belongs to somebody else; the choices are those of reading the token
and of invalidating its family. -/
def HitsForeignFamily (db : Database) (req : RevocationRequest) :
    List Choice → Prop
  | select :: update :: _ =>
      asksRefresh req ∧ select.fails = false ∧ update.fails = false ∧
        ∃ token ∈ db.refreshTokens.rows, token.id = req.token ∧
          token.clientID = req.clientID ∧
          ∃ row ∈ db.refreshTokens.rows, row.familyID = token.familyID ∧
            row.active = true ∧ row.clientID ≠ req.clientID
  | _ => False

/-- The access tokens of other clients. -/
def foreignAccess (db : Database) (id : String) : List AccessToken :=
  db.accessTokens.rows.filter (·.clientID ≠ id)

def foreignRefresh (db : Database) (id : String) : List RefreshToken :=
  db.refreshTokens.rows.filter (·.clientID ≠ id)

section Halves

variable {platform : Platform} {db db' : Database} {req : RevocationRequest}
variable {choices rest : List Choice} {client : Client}

/-- The access-token half reads the clock and updates. -/
theorem revokeAccessToken_run {outcome : Except StoreError Unit}
    (hrun : (revokeAccessToken req.token).run perform choices db = some (outcome, db', rest)) :
    ∃ clock update, choices = clock :: update :: rest ∧
      (HitsAccess db req update ∧ outcome = .ok () ∧
          db' = { db with
            accessTokens := db.accessTokens.updateWhere (·.jti = req.token)
              (AccessToken.assignRevoked clock.now) fun _ => rfl } ∨
        ¬ HitsAccess db req update ∧ (∃ e, outcome = .error e) ∧ db' = db) := by
  simp only [revokeAccessToken, nowUTC, bind_eq, run_bind_eq_some, run_statement_eq_some] at hrun
  rcases hrun with ⟨now, db₁, rest₁, ⟨clock, rfl, hnow, hdb⟩, update, rfl,
      houtcome, hstore⟩ | ⟨e, ⟨clock, -, hnow, -⟩, -⟩
  · cases hnow
    cases hdb
    refine ⟨clock, update, rfl, ?_⟩
    have hok := execAffected_answer update .notFound db.accessTokens (·.jti = req.token)
    simp only [decide_eq_true_eq] at hok
    by_cases hhit : HitsAccess db req update
    · refine Or.inl ⟨hhit, houtcome.symm.trans (hok.mpr hhit), hstore.symm.trans ?_⟩
      simp [perform, reply, effect, updated, answer_of_not_fails hhit.1]
    · refine Or.inr ⟨hhit, ?_, hstore.symm.trans ?_⟩
      · cases outcome with
        | error e => exact ⟨e, rfl⟩
        | ok value => exact absurd (hok.mp houtcome) hhit
      · have hmiss : ¬ (update.fails = false ∧ ∃ row ∈ db.accessTokens.rows,
            decide (row.jti = req.token) = true) := by
          simpa [HitsAccess] using hhit
        simp [perform, reply, effect, updated_of_miss _ _ _ _ hmiss]
  · cases hnow

def invalidated (db : Database) (familyID : String) : Database :=
  { db with
    refreshTokens := db.refreshTokens.updateWhere
      (fun row => row.familyID = familyID ∧ row.active = true)
      RefreshToken.assignInactive RefreshToken.id_assignInactive }

theorem invalidateRefreshTokenFamily_run (db : Database) (update : Choice)
    (choices : List Choice) (familyID : String) :
    ∃ outcome, (invalidateRefreshTokenFamily familyID).run perform
      (update :: choices) db = some (outcome,
        if update.fails then db else invalidated db familyID, choices) := by
  cases hfails : update.fails with
  | true =>
      simp [invalidateRefreshTokenFamily, perform, reply, effect, updated, answer_of_fails hfails]
  | false =>
      simp [invalidateRefreshTokenFamily, perform, reply, effect, updated,
        answer_of_not_fails hfails, invalidated]

/-- Invalidating a family touches its active tokens. -/
theorem foreignRefresh_invalidated_iff (familyID id : String) :
    foreignRefresh (invalidated db familyID) id = foreignRefresh db id ↔
      ¬ ∃ row ∈ db.refreshTokens.rows, row.familyID = familyID ∧
        row.active = true ∧ row.clientID ≠ id := by
  refine (Table.filter_updateWhere_eq_iff db.refreshTokens _ _
    RefreshToken.assignInactive (fun _ => rfl) fun _ => rfl).trans ?_
  constructor
  · rintro hkept ⟨row, hrow, hfamily, hactive, hclient⟩
    have hsame := hkept row hrow (by simp [hfamily, hactive]) (by simpa)
    rw [← hsame] at hactive
    cases hactive
  · intro hnone row hrow hselected hforeign
    simp only [decide_eq_true_eq] at hselected
    exact absurd ⟨row, hrow, hselected.1, hselected.2, by simpa using hforeign⟩ hnone

theorem not_hitsForeignFamily {select : Choice}
    (hmiss : select.fails = false → ∀ token ∈ db.refreshTokens.rows,
      token.id = req.token → token.clientID ≠ req.clientID) :
    ¬ HitsForeignFamily db req (select :: choices) := by
  cases choices with
  | nil => exact id
  | cons update rest =>
      rintro ⟨-, hselect, -, token, htoken, hid, hclient, -⟩
      exact hmiss hselect token htoken hid hclient

theorem hitsForeignFamily_iff {select update : Choice} {token : RefreshToken}
    (hasks : asksRefresh req) (hselect : select.fails = false)
    (hfound : db.refreshTokens.find? req.token = some token)
    (howned : token.clientID = req.clientID) :
    HitsForeignFamily db req (select :: update :: choices) ↔
      update.fails = false ∧ ∃ row ∈ db.refreshTokens.rows,
        row.familyID = token.familyID ∧ row.active = true ∧
          row.clientID ≠ req.clientID := by
  obtain ⟨htoken, hid⟩ := (Table.find?_eq_some_iff ..).mp hfound
  constructor
  · rintro ⟨-, -, hupdate, other, hother, hotherID, -, hhit⟩
    have hsame : other = token :=
      Table.row_eq_of_key_eq _ hother htoken (hotherID.trans hid.symm)
    rw [hsame] at hhit
    exact ⟨hupdate, hhit⟩
  · rintro ⟨hupdate, hhit⟩
    exact ⟨hasks, hselect, hupdate, token, htoken, hid, howned, hhit⟩

/-- The refresh-token half leaves the access tokens alone. -/
theorem revokeAsRefreshToken_run {outcome : Except RevocationError Unit}
    (hclient : client.id = req.clientID)
    (hrun : (revokeAsRefreshToken req client).run perform choices db = some (outcome, db', rest)) :
    db'.accessTokens = db.accessTokens ∧
      (foreignRefresh db' req.clientID = foreignRefresh db req.clientID ↔
        ¬ HitsForeignFamily db req choices) := by
  unfold revokeAsRefreshToken at hrun
  split at hrun
  · rename_i hasks
    cases choices with
    | nil => simp [getRefreshToken] at hrun
    | cons select choices =>
        simp only [bind_eq, run_bind, run_attempt, run_getRefreshToken,
          Option.map_some, Option.bind_some, resume_ok] at hrun
        cases hread : scanRow (answer select (db.refreshTokens.find? req.token)) with
        | error e =>
            simp only [hread, pure_eq, run_succeed, Option.some.injEq, Prod.mk.injEq] at hrun
            obtain ⟨-, rfl, -⟩ := hrun
            refine ⟨rfl, iff_of_true rfl (not_hitsForeignFamily ?_)⟩
            intro hselect token htoken hid
            exact absurd hid (key_ne_of_scanRow_error hread hselect htoken)
        | ok token =>
            obtain ⟨hselect, hfound⟩ := scanRow_answer_eq_ok_iff.mp hread
            obtain ⟨htoken, hid⟩ := (Table.find?_eq_some_iff ..).mp hfound
            simp only [hread, pure_eq] at hrun
            split at hrun
            · rename_i hforeign
              simp only [run_succeed, Option.some.injEq, Prod.mk.injEq] at hrun
              obtain ⟨-, rfl, -⟩ := hrun
              refine ⟨rfl, iff_of_true rfl (not_hitsForeignFamily ?_)⟩
              intro _ other hother hid'
              rw [Table.row_eq_of_key_eq _ hother htoken (hid'.trans hid.symm), ← hclient]
              exact hforeign
            · rename_i howned
              cases choices with
              | nil => simp [invalidateRefreshTokenFamily] at hrun
              | cons update choices =>
                  obtain ⟨counted, hinvalidate⟩ :=
                    invalidateRefreshTokenFamily_run db update choices token.familyID
                  simp only [hinvalidate, run_bind, run_attempt,
                    Option.map_some, Option.bind_some, resume_ok, run_succeed,
                    Option.some.injEq, Prod.mk.injEq] at hrun
                  obtain ⟨-, rfl, -⟩ := hrun
                  rw [hitsForeignFamily_iff hasks hselect hfound
                    ((not_not.mp howned).trans hclient)]
                  cases hupdate : update.fails with
                  | true => exact ⟨rfl, by simp⟩
                  | false =>
                      rw [eq_self_iff_true, true_and]
                      exact ⟨rfl, foreignRefresh_invalidated_iff _ _⟩
  · rename_i hasks
    simp only [pure_eq, run_succeed, Option.some.injEq, Prod.mk.injEq] at hrun
    obtain ⟨-, rfl, -⟩ := hrun
    refine ⟨rfl, iff_of_true rfl ?_⟩
    intro hhit
    unfold HitsForeignFamily at hhit
    split at hhit
    · exact hasks hhit.1
    · exact hhit

end Halves

/-- A row of another client is hit once the client is authenticated; the choices
are those of the access-token half, if it is tried, and of the other one. -/
def HitsForeignRow (db : Database) (req : RevocationRequest) (choices : List Choice) : Prop :=
  if asksAccess req then
    match choices with
    | clock :: update :: rest =>
        (update.fails = false ∧ ∃ row ∈ db.accessTokens.rows,
          row.jti = req.token ∧ row.clientID ≠ req.clientID ∧
            row.assignRevoked clock.now ≠ row) ∨
          ¬ HitsAccess db req update ∧ HitsForeignFamily db req rest
    | _ => False
  else HitsForeignFamily db req choices

/-- The client authenticates, and a row of another client is hit. -/
def HitsForeign (platform : Platform) (db : Database) (req : RevocationRequest) :
    List Choice → Prop
  | read :: choices =>
      req.clientID ≠ "" ∧ read.fails = false ∧
        (∃ client ∈ db.clients.rows, client.id = req.clientID ∧
          revocationAuthenticates platform client req.clientSecret = true) ∧
        HitsForeignRow db req choices
  | [] => False

section Ownership

variable {platform : Platform} {db db' : Database} {req : RevocationRequest}
variable {choices rest : List Choice}

/-- Other clients' tokens are as they were. -/
def ForeignKept (db db' : Database) (id : String) : Prop :=
  foreignAccess db' id = foreignAccess db id ∧
    foreignRefresh db' id = foreignRefresh db id

theorem ForeignKept.refl (db : Database) (id : String) : ForeignKept db db id :=
  ⟨rfl, rfl⟩

/-- Revoking by JTI touches the row whose JTI it is. -/
theorem foreignAccess_revoked_iff (jti id : String) (now : Time) :
    foreignAccess { db with
        accessTokens := db.accessTokens.updateWhere (·.jti = jti)
          (AccessToken.assignRevoked now) fun _ => rfl } id =
        foreignAccess db id ↔
      ¬ ∃ row ∈ db.accessTokens.rows, row.jti = jti ∧ row.clientID ≠ id ∧
        row.assignRevoked now ≠ row := by
  refine (Table.filter_updateWhere_eq_iff db.accessTokens _ _
    (AccessToken.assignRevoked now) (fun _ => rfl) fun _ => rfl).trans ?_
  constructor
  · rintro hkept ⟨row, hrow, hjti, hclient, hchanged⟩
    exact hchanged (hkept row hrow (by simpa) (by simpa))
  · intro hnone row hrow hjti hforeign
    by_contra hchanged
    exact hnone ⟨row, hrow, by simpa using hjti, by simpa using hforeign, hchanged⟩

theorem foreignKept_of_refreshHalf {client : Client}
    {outcome : Except RevocationError Unit} (hclient : client.id = req.clientID)
    (hrun : (revokeAsRefreshToken req client).run perform choices db = some (outcome, db', rest)) :
    ForeignKept db db' req.clientID ↔ ¬ HitsForeignFamily db req choices := by
  obtain ⟨haccess, hfamily⟩ := revokeAsRefreshToken_run hclient hrun
  rw [← hfamily]
  refine and_iff_right ?_
  unfold foreignAccess
  rw [haccess]

/-- What an authenticated revocation does to other clients' tokens. -/
theorem foreignKept_of_authenticated {client : Client}
    {outcome : Except RevocationError Unit} (hclient : client.id = req.clientID)
    (hrun : (if req.tokenTypeHint = "" ∨ req.tokenTypeHint = "access_token" then
        (attempt (revokeAccessToken req.token)).bind fun revoked =>
          match revoked with
          | .ok _ => succeed ()
          | .error _ => revokeAsRefreshToken req client
      else revokeAsRefreshToken req client : Service Reply RevocationError
        Unit).run perform choices db = some (outcome, db', rest)) :
    ForeignKept db db' req.clientID ↔ ¬ HitsForeignRow db req choices := by
  unfold HitsForeignRow
  by_cases hasks : asksAccess req
  · rw [if_pos hasks]
    unfold asksAccess at hasks
    rw [if_pos hasks, run_bind, run_attempt] at hrun
    cases haccess : (revokeAccessToken req.token).run perform choices db with
    | none => simp [haccess] at hrun
    | some result =>
        obtain ⟨tried, db₁, rest₁⟩ := result
        obtain ⟨clock, update, rfl, ⟨hhit, rfl, rfl⟩ | ⟨hmiss, ⟨e, rfl⟩, rfl⟩⟩ :=
          revokeAccessToken_run haccess
        · simp only [haccess, Option.map_some, Option.bind_some, resume_ok,
            run_succeed, Option.some.injEq, Prod.mk.injEq] at hrun
          obtain ⟨-, rfl, -⟩ := hrun
          simp only [hhit, not_true_eq_false, false_and, or_false, hhit.1, true_and]
          rw [← foreignAccess_revoked_iff]
          exact and_iff_left rfl
        · simp only [haccess, Option.map_some, Option.bind_some, resume_ok] at hrun
          have hnone : ¬ (update.fails = false ∧ ∃ row ∈ db₁.accessTokens.rows,
              row.jti = req.token ∧ row.clientID ≠ req.clientID ∧
                row.assignRevoked clock.now ≠ row) := by
            rintro ⟨hupdate, row, hrow, hjti, -⟩
            exact hmiss ⟨hupdate, row, hrow, hjti⟩
          simp only [hnone, hmiss, not_false_eq_true, true_and, false_or]
          exact foreignKept_of_refreshHalf hclient hrun
  · rw [if_neg hasks]
    unfold asksAccess at hasks
    rw [if_neg hasks] at hrun
    exact foreignKept_of_refreshHalf hclient hrun

/-- A revocation leaves the tokens of other clients alone exactly if it hits none
of their rows. -/
theorem revocation_foreignKept_iff (platform : Platform)
    (req : RevocationRequest) (choices rest : List Choice) (db db' : Database)
    (outcome : Except RevocationError Unit)
    (hrun : (revokeToken platform req).run perform choices db = some (outcome, db', rest)) :
    ForeignKept db db' req.clientID ↔ ¬ HitsForeign platform db req choices := by
  unfold revokeToken at hrun
  by_cases hid : req.clientID = ""
  · simp only [hid, bind_eq, run_bind, run_rejectIf, ↓reduceIte,
      Option.bind_some, resume_error, Option.some.injEq, Prod.mk.injEq] at hrun
    obtain ⟨-, rfl, -⟩ := hrun
    refine iff_of_true (ForeignKept.refl _ _) ?_
    cases choices with
    | nil => exact id
    | cons read choices => exact fun hhit => hhit.1 hid
  · simp only [hid, bind_eq, pure_eq, run_bind, run_rejectIf, ↓reduceIte,
      Option.bind_some, resume_ok, run_orReject] at hrun
    cases choices with
    | nil => simp [getClient] at hrun
    | cons read choices =>
        simp only [run_getClient, Option.map_some, Option.bind_some] at hrun
        cases hread : scanRow (answer read (db.clients.find? req.clientID)) with
        | error e =>
            simp only [hread, Except.mapError, resume_error, Option.some.injEq,
              Prod.mk.injEq] at hrun
            obtain ⟨-, rfl, -⟩ := hrun
            refine iff_of_true (ForeignKept.refl _ _) ?_
            rintro ⟨-, hfails, ⟨client, hclient, hclientID, -⟩, -⟩
            exact key_ne_of_scanRow_error hread hfails hclient hclientID
        | ok client =>
            obtain ⟨hfails, hfound⟩ := scanRow_answer_eq_ok_iff.mp hread
            obtain ⟨hclient, hclientID⟩ := (Table.find?_eq_some_iff ..).mp hfound
            simp only [hread, Except.mapError, resume_ok, run_bind, run_rejectIf,
              Option.bind_some] at hrun
            cases hauth : revocationAuthenticates platform client req.clientSecret with
            | false =>
                simp only [hauth, ↓reduceIte, resume_error, Option.some.injEq,
                  Prod.mk.injEq] at hrun
                obtain ⟨-, rfl, -⟩ := hrun
                refine iff_of_true (ForeignKept.refl _ _) ?_
                rintro ⟨-, -, ⟨other, hother, hotherID, hpasses⟩, -⟩
                have hsame := Table.row_eq_of_key_eq _ hother hclient
                  (hotherID.trans hclientID.symm)
                rw [hsame, hauth] at hpasses
                cases hpasses
            | true =>
                simp only [hauth, Bool.true_eq_false, ↓reduceIte, resume_ok] at hrun
                have hadmits : HitsForeign platform db req (read :: choices) ↔
                    HitsForeignRow db req choices := by
                  constructor
                  · exact fun hhit => hhit.2.2.2
                  · exact fun hhit => ⟨hid, hfails, ⟨client, hclient, hclientID, hauth⟩, hhit⟩
                rw [hadmits]
                exact foreignKept_of_authenticated hclientID hrun

end Ownership

/-- A token of the public client and one of the other. -/
def ownedTokens : List AccessToken :=
  [⟨"at_1", none, "app", "alice", "", ["read"], ["api"], "https://id", "alice",
      false, none, minutes 10, 0⟩,
    ⟨"at_2", none, "svc", "alice", "", ["read"], ["api"], "https://id", "alice",
      false, none, minutes 10, 0⟩]

def ownedTables : Database :=
  { sampleTables with accessTokens := ⟨ownedTokens, by decide⟩ }

theorem ownToken_foreignKept :
    ∃ outcome db' rest, (revokeToken samplePlatform
        ⟨"at_1", "", "app", ""⟩).run perform (List.replicate 3 (moment 1 1))
        ownedTables = some (outcome, db', rest) ∧
      ForeignKept ownedTables db' "app" := by
  have hrun : ((revokeToken samplePlatform ⟨"at_1", "", "app", ""⟩).run perform
      (List.replicate 3 (moment 1 1)) ownedTables).isSome = true := by
    unfold Service.run
    decide
  obtain ⟨⟨outcome, db', rest⟩, hrun⟩ := Option.isSome_iff_exists.mp hrun
  refine ⟨outcome, db', rest, hrun, ?_⟩
  refine (revocation_foreignKept_iff samplePlatform ⟨"at_1", "", "app", ""⟩ _ _
    ownedTables db' outcome hrun).mpr ?_
  simp [List.replicate, HitsForeign, HitsForeignRow, asksAccess, HitsAccess,
    ownedTables, ownedTokens, moment]

/-- The public client revokes the other client's token, by its JTI. -/
theorem foreignToken_revoked :
    ((revokeToken samplePlatform ⟨"at_2", "", "app", ""⟩).run perform
      (List.replicate 3 (moment 1 1)) ownedTables).map (fun (outcome, db', _) =>
          (outcome, (foreignAccess db' "app").map fun row => (row.clientID, row.revoked))) =
      some (.ok (), [("svc", true)]) ∧
    (foreignAccess ownedTables "app").map (fun row => (row.clientID, row.revoked)) =
      [("svc", false)] := by
  unfold Service.run
  decide

section Effective

variable {platform : Platform} {db db' : Database} {req : RevocationRequest}
variable {choices rest : List Choice} {row : AccessToken} {jwt : String}
variable {now : Time}

/-- A string that is nobody's JTI revokes no access token, and clients are left
alone anyway. -/
theorem revokeToken_keeps {outcome : Except RevocationError Unit}
    (hmiss : ∀ row ∈ db.accessTokens.rows, row.jti ≠ req.token)
    (hrun : (revokeToken platform req).run perform choices db = some (outcome, db', rest)) :
    db'.accessTokens = db.accessTokens ∧ db'.clients = db.clients := by
  refine only_revokeToken.run_invariant
    (fun s => s.accessTokens = db.accessTokens ∧ s.clients = db.clients) ?_ hrun
    ⟨rfl, rfl⟩
  intro choice c s hcall hkept
  cases c with
  | updateAccessTokenRevoked jti now =>
      cases hcall
      refine ⟨Eq.trans ?_ hkept.1, hkept.2⟩
      rw [← hkept.1] at hmiss
      apply updated_of_miss
      rintro ⟨-, row, hrow, hjti⟩
      exact hmiss row hrow (of_decide_eq_true hjti)
  | clock => exact hkept
  | selectClient id => exact hkept
  | selectRefreshToken id => exact hkept
  | updateRefreshFamilyInactive familyID => exact hkept
  | _ => exact hcall.elim

/-- The validator accepts a token within its time unless its row is revoked. -/
theorem validateAccessToken_run (hsound : platform.Sound)
    (hrow : row ∈ db.accessTokens.rows) (hsigned : SignedFor platform jwt row)
    (hjti : IsJTI row.jti) (hissuer : row.issuer = platform.issuer)
    (hnow : 0 < unix now) (hexpires : ¬ row.expiresAt < now)
    (hhealthy : Healthy now choices) (hlength : 3 ≤ choices.length) :
    ∃ rest, (validateAccessToken platform jwt).run perform choices db =
      some (if row.revoked then .error .inactive else .ok ⟨row.jti,
        row.identityID, row.clientID, row.scopes, row.expiresAt⟩, db, rest) := by
  match choices, hlength with
  | c₁ :: c₂ :: c₃ :: rest, _ =>
      obtain ⟨hnow₁, -⟩ := hhealthy c₁ (by simp)
      obtain ⟨-, h₂⟩ := hhealthy c₂ (by simp)
      obtain ⟨hnow₃, -⟩ := hhealthy c₃ (by simp)
      obtain ⟨result, hread, hiss, hsub, hexp, hnbf, hid⟩ := hsigned.read hsound
      have hfound : db.accessTokens.find? row.jti = some row :=
        (Table.find?_eq_some_iff ..).mpr ⟨hrow, rfl⟩
      have hlater : unix now ≤ unix row.expiresAt :=
        Int.ediv_le_ediv (by decide) (Int.not_lt.mp hexpires)
      have hclaims : JWT.validateClaims result.claims
          ⟨platform.issuer, "", accessTokenVerifierLeeway⟩ now = .ok () := by
        have hleeway : accessTokenVerifierLeeway / 1000000000 = 30 := by decide
        simp only [JWT.validateClaims, hleeway, hexp, hnbf, hiss, hissuer]
        rw [if_neg (by decide), if_neg (by omega), if_neg (by omega),
          if_neg (by simp), if_neg (by simp), if_neg (by simp)]
      refine ⟨rest, ?_⟩
      have hleeway : ¬ accessTokenVerifierLeeway < 0 := by decide
      cases hrevoked : row.revoked <;>
        simp [validateAccessToken, JWT.verify, hleeway, hread, hnow₁, hclaims, hid,
          hjti.trimSpace_eq, hjti.1, hfound, answer_of_not_fails h₂, scanRow,
          Except.mapError, hnow₃, hexpires, hsub, hiss, hrevoked]

/-- At the given time, introspection by whoever may introspect reports the token
as inactive, and the validator rejects it. -/
def Dead (platform : Platform) (db : Database) (jwt : String) (now : Time) : Prop :=
  (∀ req client choices, req.token = jwt → IntrospectsAs platform db req client →
    Healthy now choices → 4 ≤ choices.length →
      ∃ rest, (introspectToken platform req).run perform choices db =
        some (.ok .inactive, db, rest)) ∧
  ∀ choices, Healthy now choices → 3 ≤ choices.length →
    ∃ e rest, (validateAccessToken platform jwt).run perform choices db =
      some (.error e, db, rest)

/-- A choice that keeps a run healthy at the given time. -/
def calm (now : Time) : Choice := ⟨now, none, none, [], false⟩

/-- A recorded token is dead within its time exactly if its row is revoked. -/
theorem dead_iff (hsound : platform.Sound) (hjtis : ∀ other ∈ db.accessTokens.rows, IsJTI other.jti)
    {scope : String} {request : Request} (hown : FingerprintOwn platform db jwt)
    (hrow : row ∈ db.accessTokens.rows) (hrecorded : Recorded platform request jwt scope row)
    (hissuer : row.issuer = platform.issuer) (hnow : 0 < unix now)
    (hexpires : ¬ row.expiresAt < now) : Dead platform db jwt now ↔ row.revoked = true := by
  have hvalidate := fun choices (hhealthy : Healthy now choices) =>
    validateAccessToken_run hsound hrow hrecorded.signed (hjtis row hrow) hissuer
      hnow hexpires hhealthy
  constructor
  · rintro ⟨-, hrejects⟩
    have hhealthy : Healthy now (List.replicate 3 (calm now)) := by
      intro choice hchoice
      rw [List.eq_of_mem_replicate hchoice]
      exact ⟨rfl, rfl⟩
    obtain ⟨rest, haccepts⟩ := hvalidate _ hhealthy (by simp)
    obtain ⟨e, rest', herror⟩ := hrejects _ hhealthy (by simp)
    rw [herror] at haccepts
    cases hrevoked : row.revoked with
    | true => rfl
    | false => simp [hrevoked] at haccepts
  · intro hrevoked
    refine ⟨?_, ?_⟩
    · intro req client choices htoken hauth hhealthy hlength
      obtain ⟨rest, hrun⟩ := introspection_of_recorded hsound hjtis hown hrow
        hrecorded htoken hauth hhealthy hlength
      refine ⟨rest, hrun.trans ?_⟩
      simp [introspectionOf, hrevoked]
    · intro choices hhealthy hlength
      obtain ⟨rest, hrun⟩ := hvalidate choices hhealthy hlength
      rw [hrevoked] at hrun
      exact ⟨_, rest, hrun⟩

/-- After a revocation by the token itself, the token is dead exactly if its row
was revoked before. -/
theorem revocation_effective_iff (platform : Platform)
    (hsound : platform.Sound) (config : DeviceConfig) (db : Database) (actions : Schedule)
    (hempty : db.accessTokens.rows = []) (thread : Nat) (request : Request)
    (response : Response) (jwt scope : String) (hanswer : (thread, request, response) ∈
      answers (runFrom platform config db actions))
    (hgrant : response.grant = some (jwt, scope))
    (hown : FingerprintOwn platform (tablesOf platform config db actions) jwt)
    (req : RevocationRequest) (htoken : req.token = jwt)
    (choices rest : List Choice) (after : Database)
    (hrevoke : (revokeToken platform req).run perform choices
      (tablesOf platform config db actions) = some (.ok (), after, rest)) :
    ∃ row ∈ (tablesOf platform config db actions).accessTokens.rows,
      SignedFor platform jwt row ∧
      ∀ now, 0 < unix now → ¬ row.expiresAt < now →
        (Dead platform after jwt now ↔ row.revoked = true) := by
  have hlaw := lawful_of_run platform config db actions
  rw [tablesOf_eq] at hown hrevoke ⊢
  obtain ⟨row, hrow, hrecorded⟩ := recorded_of_grant hlaw hanswer hgrant
  have hminted : ∀ other ∈ (tablesAfter db (runFrom platform config db actions)).accessTokens.rows,
      IsJTI other.jti ∧ other.issuer = platform.issuer :=
    fun other hother => minted_of_row hlaw hempty hother
  obtain ⟨haccess, -⟩ := revokeToken_keeps (fun other hother =>
    htoken ▸ (hminted other hother).1.ne_token hrecorded.signed) hrevoke
  refine ⟨row, hrow, hrecorded.signed, fun now hnow hexpires => ?_⟩
  have hissuer := (hminted row hrow).2
  unfold FingerprintOwn at hown
  rw [← haccess] at hrow hminted hown
  exact dead_iff hsound (fun other hother => (hminted other hother).1) hown hrow
    hrecorded hissuer hnow hexpires

end Effective

def sampleRevocation : RevocationRequest :=
  ⟨soleToken (.exchangeDeviceCode sampleDeviceGrant), "", "svc", "pw"⟩

theorem sampleRevocation_succeeds :
    ∃ after rest, (revokeToken samplePlatform sampleRevocation).run perform
      (List.replicate 4 (moment 2 2)) (soleTables (.exchangeDeviceCode sampleDeviceGrant)) =
        some (.ok (), after, rest) := by
  have hrun : ((revokeToken samplePlatform sampleRevocation).run perform
      (List.replicate 4 (moment 2 2))
      (soleTables (.exchangeDeviceCode sampleDeviceGrant))).map (·.1) = some (.ok ()) := by
    unfold Service.run
    decide +kernel
  obtain ⟨⟨outcome, after, rest⟩, hrun, rfl⟩ := Option.map_eq_some_iff.mp hrun
  exact ⟨after, rest, hrun⟩

theorem sampleRevocation_not_dead :
    ∃ after rest, (revokeToken samplePlatform sampleRevocation).run perform
        (List.replicate 4 (moment 2 2)) (soleTables (.exchangeDeviceCode sampleDeviceGrant)) =
          some (.ok (), after, rest) ∧
      ¬ Dead samplePlatform after
        (soleToken (.exchangeDeviceCode sampleDeviceGrant)) 2000000000 := by
  have hsole := sampleDeviceGrant_sole
  obtain ⟨after, rest, hrevoke⟩ := sampleRevocation_succeeds
  refine ⟨after, rest, hrevoke, ?_⟩
  obtain ⟨row, hrow, -, hdead⟩ := revocation_effective_iff samplePlatform
    samplePlatform_sound sampleConfig sampleTables
    (grantActions (.exchangeDeviceCode sampleDeviceGrant)) rfl 0 _ _ _ _
    hsole.mem hsole.grant hsole.own sampleRevocation (by dsimp only
      [sampleRevocation]) _ rest after hrevoke
  rw [← soleTables_eq] at hrow
  obtain ⟨hlive, hexpires, -⟩ := sampleDeviceGrant_live row hrow
  intro hdead'
  rw [(hdead 2000000000 (by decide) hexpires).mp hdead'] at hlive
  cases hlive

/-- The revocation succeeds, and afterwards the token is still valid and
active. -/
theorem sampleRevocation_without_effect :
    ∃ after rest, (revokeToken samplePlatform sampleRevocation).run perform
        (List.replicate 4 (moment 2 2)) (soleTables (.exchangeDeviceCode sampleDeviceGrant)) =
          some (.ok (), after, rest) ∧
      (∃ valid rest', (validateAccessToken samplePlatform
          (soleToken (.exchangeDeviceCode sampleDeviceGrant))).run perform
          (List.replicate 3 (moment 2 2)) after = some (.ok valid, after, rest')) ∧
      ∃ resp rest', (introspectToken samplePlatform
          ⟨soleToken (.exchangeDeviceCode sampleDeviceGrant), "svc", "pw"⟩).run
          perform (List.replicate 4 (moment 2 2)) after =
            some (.ok resp, after, rest') ∧ resp.active = true := by
  have hsole := sampleDeviceGrant_sole
  obtain ⟨after, rest, hrevoke⟩ := sampleRevocation_succeeds
  refine ⟨after, rest, hrevoke, ?_⟩
  obtain ⟨row, hrow, hrecorded⟩ := hsole.recorded
  obtain ⟨hlive, hexpires, hclient, hissuer⟩ := sampleDeviceGrant_live row hrow
  have htoken : sampleRevocation.token = soleToken (.exchangeDeviceCode sampleDeviceGrant) := by
    dsimp only [sampleRevocation]
  obtain ⟨haccess, hclients⟩ := revokeToken_keeps (fun other hother =>
    htoken ▸ (isJTI_of_soleTables hother).ne_token hrecorded.signed) hrevoke
  have hjtis : ∀ other ∈ after.accessTokens.rows, IsJTI other.jti := by
    rw [haccess]
    exact fun other => isJTI_of_soleTables
  have hown := hsole.own
  have hauth := hsole.introspectsAs.of_clients_eq hclients
  unfold FingerprintOwn at hown
  rw [← haccess] at hrow hown
  constructor
  · obtain ⟨rest', hrun⟩ := validateAccessToken_run samplePlatform_sound hrow
      hrecorded.signed (hjtis row hrow) hissuer (by decide) hexpires
      (healthy_moment 3 2) (by simp)
    rw [hlive] at hrun
    exact ⟨_, rest', hrun⟩
  · obtain ⟨rest', hrun⟩ := introspection_of_recorded samplePlatform_sound hjtis
      hown hrow hrecorded (by dsimp only) hauth (healthy_moment 4 2) (by simp)
    have hstores : (Request.exchangeDeviceCode sampleDeviceGrant).storesFingerprint = true := rfl
    simp only [hstores, ↓reduceIte, introspectionOf, hlive, hexpires, hclient,
      decide_false, Bool.or_self, Bool.false_eq_true, ne_eq,
      not_true_eq_false] at hrun
    exact ⟨_, rest', hrun, rfl⟩

end Aegion.OAuth
