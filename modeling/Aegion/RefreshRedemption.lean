/-
A refresh token without a grace period is redeemed at most once.  Every refresh
that is answered has marked a token used by an update that only one of them can
win; and without a grace period a used token leads nowhere.
-/
import Aegion.OAuthLaws
import Aegion.RefreshLineage

namespace Aegion.OAuth

open History

/-- The owner's refresh tokens have no grace period, as the tables stand. -/
def NoGrace (db : Database) (owner : String) (past : Trace) (_ : Event) : Prop :=
  ∀ client ∈ (tablesAfter db past).clients.rows, client.id = owner →
    refreshTokenGracePeriod client = .ok 0

instance (db : Database) (owner : String) (past : Trace) (entry : Event) :
    Decidable (NoGrace db owner past entry) := by
  unfold NoGrace
  infer_instance

section Redeemed

variable {platform : Platform} {db : Database} {history : Trace}

theorem RefreshToken.clientID_eq_of_terms_eq {row other : RefreshToken}
    (hterms : row.terms = other.terms) : row.clientID = other.clientID :=
  show row.terms.clientID = other.terms.clientID from
    congrArg RefreshToken.clientID hterms

variable (hlaw : Lawful platform db history)

include hlaw

theorem gracePeriodExpires_eq_none {owner : String} (hgrace : Throughout (NoGrace db owner) history)
    {thread : Nat} {request : Request} {id successorID : String} {now : Time}
    {gracePeriodExpires : Option Time} {reply : Except DBError Nat} {past : Trace}
    (hentry : ⟨thread, request, .called ⟨.updateRefreshTokenUsed id now
      successorID gracePeriodExpires, reply⟩⟩ :: past <:+ history)
    (howner : ∀ token read, read <:+ history →
      token ∈ (tablesAfter db read).refreshTokens.rows → token.id = id → token.clientID = owner) :
    gracePeriodExpires = none := by
  obtain ⟨depth, req, token, rfl, hmark⟩ := hlaw.duty hentry
  obtain ⟨client, gracePeriod, hclient, hsame, hperiod, hexpires⟩ := hmark.grace
  obtain ⟨read, -, hread⟩ := hlaw.earlier_suffix hentry hmark.read
  obtain ⟨choice, hreply⟩ := hlaw.reply hread
  obtain ⟨htoken, hid⟩ := mem_of_select hreply
  obtain ⟨clientRead, -, hclientRead⟩ := hlaw.earlier_suffix hentry hclient.read
  obtain ⟨choice', hreply'⟩ := hlaw.reply hclientRead
  have hzero := hgrace _ clientRead hclientRead client
    (mem_of_select hreply').1 (hsame.symm.trans (howner token read
      ((List.suffix_cons _ _).trans hread) htoken hid))
  rw [hperiod] at hzero
  cases hzero
  exact hexpires

/-- Without a grace period the row of a token never carries a deadline. -/
theorem gracePeriodExpiresAt_eq_none
    {owner id : String} (hgrace : Throughout (NoGrace db owner) history)
    (hnew : ∀ row ∈ db.refreshTokens.rows, row.id ≠ id) (howner : ∀ token read, read <:+ history →
      token ∈ (tablesAfter db read).refreshTokens.rows → token.id = id →
        token.clientID = owner) {later : Trace} (hlater : later <:+ history)
    {row : RefreshToken} (hrow : row ∈ (tablesAfter db later).refreshTokens.rows)
    (hid : row.id = id) : row.gracePeriodExpiresAt = none := by
  induction later generalizing row with
  | nil => exact (hnew row hrow hid).elim
  | cons entry past ih =>
      have hbefore : ∀ old ∈ (tablesAfter db past).refreshTokens.rows,
          old.id = id → old.gracePeriodExpiresAt = none := fun old hold holdID =>
        ih ((List.suffix_cons _ _).trans hlater) hold holdID
      obtain ⟨thread, request, step⟩ := entry
      cases step with
      | answered answer => exact hbefore row hrow hid
      | called call =>
          obtain ⟨c, reply⟩ := call
          cases c with
          | insertRefreshToken new =>
              rcases mem_inserted hrow with hold | ⟨rfl, rfl⟩
              · exact hbefore row hold hid
              · obtain ⟨g, bytes, family, -, -, -, -, -, -, -, -, -, -, hnone⟩ :=
                  hlaw.duty hlater
                exact hnone
          | updateRefreshTokenUsed other now successorID gracePeriodExpires =>
              obtain ⟨old, hold, rfl | ⟨hselected, rfl⟩⟩ :=
                mem_updated_selected hrow
              · exact hbefore row hold hid
              · have hother : old.id = other := (of_decide_eq_true hselected).1
                have hsame : other = id := hother.symm.trans hid
                subst hsame
                exact gracePeriodExpires_eq_none hlaw hgrace hlater howner
          | updateRefreshFamilyInactive familyID =>
              obtain ⟨old, hold, rfl | rfl⟩ := mem_updated hrow
              · exact hbefore row hold hid
              · exact hbefore old hold hid
          | _ => exact hbefore row hrow hid

/-- A refresh that is answered has marked the very token presented. -/
theorem marked_of_answer {owner id : String} (hgrace : Throughout (NoGrace db owner) history)
    (hnew : ∀ row ∈ db.refreshTokens.rows, row.id ≠ id) (howner : ∀ token read, read <:+ history →
      token ∈ (tablesAfter db read).refreshTokens.rows → token.id = id →
        token.clientID = owner) {thread depth : Nat} {req : TokenRequest}
    (hanswered : (thread, .refreshAccessToken depth req) ∈ tokenAnswers history)
    (hid : req.refreshToken = id) :
    ∃ request call past, ⟨thread, request, .called call⟩ :: past <:+ history ∧
      refreshTokenUsed.Raises call id := by
  obtain ⟨resp, hresp⟩ := mem_tokenAnswers_iff.mp hanswered
  obtain ⟨past, hentry⟩ := exists_past_of_mem hresp
  obtain ⟨-, hrefresh⟩ := hlaw.answer hentry
  obtain ⟨last, -, hleads⟩ := hrefresh _ _ rfl
  rw [hid] at hleads
  cases hleads with
  | read _ hmarked =>
      obtain ⟨now, successorID, gracePeriodExpires, n, hmark⟩ := hmarked
      obtain ⟨before, -, hbefore⟩ := hlaw.earlier_suffix hentry hmark
      exact ⟨_, _, before, hbefore, now, successorID, gracePeriodExpires, n, rfl⟩
  | successor hread hperiod _ _ =>
      -- Following the successor takes a deadline, which the row never had.
      obtain ⟨read, -, hwhole⟩ := hlaw.earlier_suffix hentry hread
      obtain ⟨choice, hreply⟩ := hlaw.reply hwhole
      obtain ⟨hrow, hrowID⟩ := mem_of_select hreply
      have hnone := gracePeriodExpiresAt_eq_none hlaw hgrace hnew howner
        ((List.suffix_cons _ _).trans hwhole) hrow hrowID
      simp [graceOver, hnone] at hperiod

end Redeemed

/-- A refresh token whose client grants no grace period is redeemed at most
once, in every interleaving and over the whole life of the token. -/
theorem refreshToken_redeemed_once (platform : Platform) (config : DeviceConfig)
    (db : Database) (id owner : String) (hnew : ∀ row ∈ db.refreshTokens.rows, row.id ≠ id)
    (actions : Schedule) (howner : ∀ row ∈ (tablesOf platform config db actions).refreshTokens.rows,
      row.id = id → row.clientID = owner)
    (hgrace : Throughout (NoGrace db owner) (runFrom platform config db actions)) :
    ∀ thread thread' depth depth' req req',
      (thread, .refreshAccessToken depth req) ∈ tokenAnswers (runFrom platform config db actions) →
      (thread', .refreshAccessToken depth' req') ∈
        tokenAnswers (runFrom platform config db actions) →
      req.refreshToken = id → req'.refreshToken = id → thread = thread' := by
  have hlaw := lawful_of_run platform config db actions
  rw [tablesOf_eq] at howner
  have howned : ∀ token read, read <:+ runFrom platform config db actions →
      token ∈ (tablesAfter db read).refreshTokens.rows → token.id = id →
        token.clientID = owner := by
    intro token read hread htoken hid
    obtain ⟨row, hrow, hlater⟩ := refreshTokenLedger.persists hread htoken
    have hsame := RefreshToken.clientID_eq_of_terms_eq hlater.1
    rw [← hsame]
    exact howner row hrow ((refreshTokenLedger.key_eq hlater).trans hid)
  intro thread thread' depth depth' req req' hanswered hanswered' hid hid'
  obtain ⟨request, call, past, hmark, hraises⟩ :=
    marked_of_answer hlaw hgrace hnew howned hanswered hid
  obtain ⟨request', call', past', hmark', hraises'⟩ :=
    marked_of_answer hlaw hgrace hnew howned hanswered' hid'
  have hsame := refreshTokenUsed.raise_unique hlaw.answers hmark hmark' hraises hraises'
  cases hsame
  rfl

/-- Two refreshes of one token that both read it before either marks it. -/
def refreshRace : Schedule :=
  sampleFlow ++
    Action.start (Request.refreshAccessToken 3 (sampleRefresh (sampleRefreshID 4))) ::
    .start (.refreshAccessToken 3 (sampleRefresh (sampleRefreshID 4))) ::
    (List.replicate 30
      [.step 4 (moment 5 5), .step 5 (moment 5 6)]).flatten

theorem refreshRace_redeemed_once :
    (4, .refreshAccessToken 3 (sampleRefresh (sampleRefreshID 4))) ∈ tokenAnswers
          (sampleRun refreshRace) ∧
      ∀ thread depth req, (thread, .refreshAccessToken depth req) ∈ tokenAnswers
            (sampleRun refreshRace) →
        req.refreshToken = sampleRefreshID 4 → thread = 4 := by
  have hrun : (4, .refreshAccessToken 3 (sampleRefresh (sampleRefreshID 4))) ∈
        tokenAnswers (sampleRun refreshRace) ∧
      (∀ row ∈ (tablesOf samplePlatform sampleConfig sampleTables refreshRace).refreshTokens.rows,
        row.id = sampleRefreshID 4 → row.clientID = "app") ∧
      Throughout (NoGrace sampleTables "app") (sampleRun refreshRace) := by
    decide +kernel
  obtain ⟨hanswered, howner, hgrace⟩ := hrun
  refine ⟨hanswered, fun thread depth req hother hid => ?_⟩
  exact refreshToken_redeemed_once samplePlatform sampleConfig sampleTables
    (sampleRefreshID 4) "app" (by simp [sampleTables, Table.empty]) refreshRace
    howner hgrace thread 4 depth 3 req _ hother hanswered hid rfl

end Aegion.OAuth
