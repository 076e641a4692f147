/-
Redeeming a device code.  The token endpoint polls, deletes the code and then
issues; the delete does not report whether it found the code, and it comes
before the client is authenticated.
-/
import Aegion.AuthorizationCodeBinding

namespace Aegion.OAuth

open History Service

/-- The device code an entry deletes. -/
def deletionOf (entry : Event) : Option String :=
  match entry.step with
  | .called ⟨.deleteDeviceCode code, .ok _⟩ => some code
  | _ => none

/-- A delete finds the code it is to delete. -/
def DeletesPresent (db : Database) (past : Trace) (entry : Event) : Prop :=
  ∀ code ∈ deletionOf entry,
    ∃ row ∈ (tablesAfter db past).deviceCodes.rows, row.deviceCode = code

instance (db : Database) (past : Trace) (entry : Event) :
    Decidable (DeletesPresent db past entry) := by
  unfold DeletesPresent
  infer_instance

/-- The entry belongs to a token request of grant type `device_code`. -/
def isDeviceCodeGrant (entry : Event) : Bool :=
  match entry.request with
  | .deviceCodeGrant _ => true
  | _ => false

section Deleted

variable {platform : Platform} {db : Database} {history past later : Trace}

/-- A device code appears by an insert only, and no call records a poll. -/
theorem mem_deviceCodes_effect {call : Called Reply} {row : DeviceCode}
    (hrow : row ∈ (effect call db).deviceCodes.rows) :
    (∃ old ∈ db.deviceCodes.rows, old.deviceCode = row.deviceCode ∧
        old.lastPollAt = row.lastPollAt) ∨
      ∃ reply, call = ⟨.insertDeviceCode row, reply⟩ := by
  obtain ⟨c, reply⟩ := call
  cases c with
  | insertDeviceCode new =>
      rcases mem_inserted hrow with hold | ⟨-, rfl⟩
      · exact Or.inl ⟨row, hold, rfl, rfl⟩
      · exact Or.inr ⟨reply, rfl⟩
  | updateDeviceApproved userCode identityID sessionID now =>
      obtain ⟨old, hold, rfl | rfl⟩ := mem_updated hrow
      · exact Or.inl ⟨row, hold, rfl, rfl⟩
      · exact Or.inl ⟨old, hold, rfl, rfl⟩
  | updateDeviceDenied userCode =>
      obtain ⟨old, hold, rfl | rfl⟩ := mem_updated hrow
      · exact Or.inl ⟨row, hold, rfl, rfl⟩
      · exact Or.inl ⟨old, hold, rfl, rfl⟩
  | deleteDeviceCode code =>
      cases reply with
      | error e => exact Or.inl ⟨row, hrow, rfl, rfl⟩
      | ok n => exact Or.inl ⟨row, (List.mem_filter.mp hrow).1, rfl, rfl⟩
  | _ => exact Or.inl ⟨row, hrow, rfl, rfl⟩

theorem deletionOf_eq_some {entry : Event} {code : String}
    (hdeletes : deletionOf entry = some code) :
    ∃ n, entry.step = .called ⟨.deleteDeviceCode code, .ok n⟩ := by
  unfold deletionOf at hdeletes
  split at hdeletes
  · rename_i hstep
    cases hdeletes
    exact ⟨_, hstep⟩
  · cases hdeletes

/-- A deleted code stays away while only token requests are served. -/
theorem deviceCode_gone (hlaw : Lawful platform db history)
    (hgrants : ∀ entry ∈ history, isDeviceCodeGrant entry = true)
    (hlater : later <:+ history) {entry : Event}
    {code : String} (hentry : entry :: past <:+ later) (hdeletes : deletionOf entry = some code) :
    ∀ row ∈ (tablesAfter db later).deviceCodes.rows, row.deviceCode ≠ code := by
  induction later with
  | nil => simp at hentry
  | cons last rest ih =>
      intro row hrow hcode
      rcases List.suffix_cons_iff.mp hentry with heq | hrest
      · cases heq
        obtain ⟨n, hstep⟩ := deletionOf_eq_some hdeletes
        obtain ⟨thread, request, step⟩ := entry
        cases hstep
        have hkept := (List.mem_filter.mp hrow).2
        simp [hcode] at hkept
      · have hbefore := ih ((List.suffix_cons _ _).trans hlater) hrest
        obtain ⟨thread, request, step⟩ := last
        cases step with
        | answered answer => exact hbefore row hrow hcode
        | called call =>
            rcases mem_deviceCodes_effect hrow with ⟨old, hold, hsame, -⟩ | ⟨reply, rfl⟩
            · exact hbefore old hold (hsame.trans hcode)
            · obtain ⟨-, clientID, scope, rfl⟩ := hlaw.duty hlater
              cases hgrants _ (mem_of_suffix_cons hlater)

/-- A token set for a device code comes after a delete of that code. -/
theorem deleted_of_answer (hlaw : Lawful platform db history) {thread : Nat}
    {req : DeviceTokenRequest} {resp : TokenResponse}
    (hanswer : ⟨thread, .deviceCodeGrant req, .answered (.tokens resp)⟩ ∈ history) :
    ∃ entry past, entry :: past <:+ history ∧ entry.thread = thread ∧
      deletionOf entry = some req.deviceCode := by
  obtain ⟨past, hentry⟩ := exists_past_of_mem hanswer
  obtain ⟨⟨g, hissued⟩, -⟩ := hlaw.answer hentry
  obtain ⟨dc, hbasis⟩ := hissued.basis
  obtain ⟨read, -, hread⟩ := hlaw.earlier_suffix hentry hbasis.read
  obtain ⟨choice, hreply⟩ := hlaw.reply hread
  have hcode : dc.deviceCode = req.deviceCode := (mem_of_select hreply).2
  obtain ⟨n, hconsumed⟩ := hbasis.consumed
  obtain ⟨before, -, hbefore⟩ := hlaw.earlier_suffix hentry hconsumed
  exact ⟨_, before, hbefore, rfl, congrArg some hcode⟩

end Deleted

/-- Where every delete finds its code, a device code is redeemed at most
once. -/
theorem deviceCode_redeemed_once (platform : Platform) (config : DeviceConfig)
    (db : Database) (actions : Schedule) (hgrants : ∀ entry ∈ runFrom platform config db actions,
      isDeviceCodeGrant entry = true)
    (hpresent : Throughout (DeletesPresent db) (runFrom platform config db actions))
    (thread : Nat) (req : DeviceTokenRequest) (hanswer : (thread, .deviceCodeGrant req) ∈
      tokenAnswers (runFrom platform config db actions)) :
    ∀ thread' req', (thread', .deviceCodeGrant req') ∈
        tokenAnswers (runFrom platform config db actions) →
      req'.deviceCode = req.deviceCode → thread' = thread := by
  intro thread' req' hanswer' hcode
  have hlaw := lawful_of_run platform config db actions
  obtain ⟨resp, hresp⟩ := mem_tokenAnswers_iff.mp hanswer
  obtain ⟨resp', hresp'⟩ := mem_tokenAnswers_iff.mp hanswer'
  obtain ⟨entry, past, hentry, rfl, hdeletes⟩ := deleted_of_answer hlaw hresp
  obtain ⟨entry', past', hentry', rfl, hdeletes'⟩ :=
    deleted_of_answer hlaw hresp'
  rw [hcode] at hdeletes'
  rcases entry_trichotomy hentry hentry' with heq | hlt | hlt
  · rw [(List.cons.inj heq).1]
  · obtain ⟨row, hrow, hfound⟩ := hpresent entry' past' hentry' _ hdeletes'
    exact absurd hfound (deviceCode_gone hlaw hgrants
      ((List.suffix_cons _ _).trans hentry') hlt hdeletes row hrow)
  · obtain ⟨row, hrow, hfound⟩ := hpresent entry past hentry _ hdeletes
    exact absurd hfound (deviceCode_gone hlaw hgrants
      ((List.suffix_cons _ _).trans hentry) hlt hdeletes' row hrow)

/-- An approved code of the client with a secret. -/
def sampleDeviceCode : DeviceCode where
  deviceCode := "dc"
  userCode := "BCDF-GHJK"
  clientID := "svc"
  scopes := ["read"]
  audience := ["api"]
  interval := 5
  identityID := some "alice"
  sessionID := some ""
  status := "approved"
  approvedAt := some 0
  expiresAt := minutes 10
  lastPollAt := none
  createdAt := 0

def deviceTables : Database :=
  { sampleTables with deviceCodes := ⟨[sampleDeviceCode], by decide⟩ }

def sampleDeviceRequest : DeviceTokenRequest := ⟨"dc", "svc", "pw"⟩

/-- The second request comes when the first is answered. -/
def deviceInTurn : Schedule :=
  served 0 (.deviceCodeGrant sampleDeviceRequest) 1 1 ++
    served 1 (.deviceCodeGrant sampleDeviceRequest) 2 2

theorem deviceInTurn_redeemed_once :
    tokenAnswers (runFrom samplePlatform sampleConfig deviceTables
        deviceInTurn) = [(0, .deviceCodeGrant sampleDeviceRequest)] ∧
      ∀ thread req, (thread, .deviceCodeGrant req) ∈ tokenAnswers
          (runFrom samplePlatform sampleConfig deviceTables deviceInTurn) →
        req.deviceCode = "dc" → thread = 0 := by
  have hanswers : tokenAnswers (runFrom samplePlatform sampleConfig deviceTables
      deviceInTurn) = [(0, .deviceCodeGrant sampleDeviceRequest)] := by
    decide +kernel
  exact ⟨hanswers, deviceCode_redeemed_once samplePlatform sampleConfig
    deviceTables deviceInTurn (by decide +kernel) (by decide +kernel) 0
    sampleDeviceRequest (hanswers ▸ List.mem_cons_self)⟩

/-- Two requests that poll before either of them deletes. -/
def deviceRace : Schedule :=
  [Action.start (Request.deviceCodeGrant sampleDeviceRequest),
    .start (.deviceCodeGrant sampleDeviceRequest), .step 0 (moment 1 1),
    .step 1 (moment 1 2)] ++
    List.replicate 30 (Action.step 0 (moment 2 1)) ++
    List.replicate 30 (Action.step 1 (moment 2 2))

theorem deviceRace_redeems_twice :
    tokenAnswers (runFrom samplePlatform sampleConfig deviceTables deviceRace) =
      [(1, .deviceCodeGrant sampleDeviceRequest),
        (0, .deviceCodeGrant sampleDeviceRequest)] := by
  decide +kernel

/-- The client's own code, approved and not yet expired at the given time. -/
def ApprovedAt (db : Database) (req : DeviceTokenRequest) (now : Time) : Prop :=
  ∃ dc ∈ db.deviceCodes.rows, dc.deviceCode = req.deviceCode ∧
    dc.clientID = req.clientID ∧ ¬ dc.expiresAt < now ∧
      dc.status = "approved" ∧ dc.identityID.isSome = true

/-- The poll and the delete that follows it both go through: the choices are
those of reading the code, of the clock and of the delete. -/
def Consumes (db : Database) (req : DeviceTokenRequest) : List Choice → Prop
  | read :: clock :: delete :: _ =>
      read.fails = false ∧ ApprovedAt db req clock.now ∧ delete.fails = false
  | _ => False

section Failed

variable {platform : Platform} {db db' : Database} {req : DeviceTokenRequest}
variable {choices rest : List Choice}

theorem approvedAt_iff (platform : Platform) {now : Time} :
    ApprovedAt db req now ↔ ∃ dc identityID,
      db.deviceCodes.find? req.deviceCode = some dc ∧
        pollOutcome platform req.clientID dc now = .ok identityID := by
  simp only [ApprovedAt, Table.find?_eq_some_iff, pollOutcome_eq_ok_iff, Option.isSome_iff_exists]
  constructor
  · rintro ⟨dc, hdc, hcode, hclient, hexpires, hstatus, identityID, hidentity⟩
    exact ⟨dc, identityID, ⟨hdc, hcode⟩, hclient, hexpires, hstatus, hidentity⟩
  · rintro ⟨dc, identityID, ⟨hdc, hcode⟩, hclient, hexpires, hstatus, hidentity⟩
    exact ⟨dc, hdc, hcode, hclient, hexpires, hstatus, identityID, hidentity⟩

/-- A poll reads the code, then the clock. -/
theorem pollDeviceToken_run {outcome : Except DeviceError (DeviceCode × String)}
    (hrun : (pollDeviceToken platform req).run perform choices db = some (outcome, db', rest)) :
    db' = db ∧ ((∃ e, outcome = .error e) ∨
      ∃ read clock dc identityID, choices = read :: clock :: rest ∧
        outcome = .ok (dc, identityID) ∧ read.fails = false ∧
          db.deviceCodes.find? req.deviceCode = some dc ∧
            pollOutcome platform req.clientID dc clock.now = .ok identityID) := by
  cases choices with
  | nil => simp [pollDeviceToken, getDeviceCodeByDeviceCode] at hrun
  | cons read choices =>
      simp only [pollDeviceToken, bind_eq, pure_eq, run_bind, run_orReject,
        run_getDeviceCodeByDeviceCode, Option.map_some, Option.bind_some] at hrun
      cases hread : scanRow (answer read (db.deviceCodes.find? req.deviceCode)) with
      | error e =>
          simp only [hread, Except.mapError, resume_error, Option.some.injEq, Prod.mk.injEq] at hrun
          exact ⟨hrun.2.1.symm, Or.inl ⟨_, hrun.1.symm⟩⟩
      | ok dc =>
          cases choices with
          | nil => simp [hread, Except.mapError, nowUTC] at hrun
          | cons clock choices =>
              cases hpoll : pollOutcome platform req.clientID dc clock.now with
              | error e =>
                  simp [hread, Except.mapError, hpoll] at hrun
                  exact ⟨hrun.2.1.symm, Or.inl ⟨_, hrun.1.symm⟩⟩
              | ok identityID =>
                  simp [hread, Except.mapError, hpoll] at hrun
                  obtain ⟨hfails, hfound⟩ := scanRow_answer_eq_ok_iff.mp hread
                  obtain ⟨rfl, rfl, rfl⟩ := hrun
                  exact ⟨rfl, Or.inr ⟨read, clock, dc, identityID, rfl, rfl, hfails, hfound, hpoll⟩⟩

/-- The delete succeeds, whether it finds the code or not, unless the statement
fails. -/
theorem consumeDeviceCode_run {code : String} {outcome : Except StoreError Unit}
    (hrun : (consumeDeviceCode code).run perform choices db = some (outcome, db', rest)) :
    ∃ delete, choices = delete :: rest ∧
      (delete.fails = true ∧ outcome = .error .database ∧ db' = db ∨
        delete.fails = false ∧ outcome = .ok ()) := by
  simp only [consumeDeviceCode, deleteDeviceCode, run_statement_eq_some] at hrun
  obtain ⟨delete, rfl, houtcome, hstore⟩ := hrun
  refine ⟨delete, rfl, ?_⟩
  subst houtcome hstore
  cases hfails : delete.fails with
  | true => simp [perform, reply, answer, hfails, effect, deleted, execDone]
  | false => simp [perform, reply, answer, hfails, execDone]

/-- A request that does not get to delete its code changes nothing. -/
theorem deviceCodeGrant_unchanged {outcome : Except ErrorReply TokenResponse}
    (hrun : (handleDeviceCodeGrant platform req).run perform choices db =
      some (outcome, db', rest)) (hconsumes : ¬ Consumes db req choices) :
    db' = db := by
  simp only [handleDeviceCodeGrant, bind_eq, run_bind_eq_some, run_orReject_eq_some] at hrun
  rcases hrun with ⟨pair, db₁, rest₁, ⟨polled, hpolled, hok⟩, hrun⟩ | ⟨e, ⟨polled, hpolled, -⟩, -⟩
  · obtain ⟨rfl, ⟨e, rfl⟩ | ⟨read, clock, dc, identityID, rfl, rfl, hread,
      hfound, hpoll⟩⟩ := pollDeviceToken_run hpolled
    · cases hok
    · cases hok
      have happroved : ApprovedAt db₁ req clock.now :=
        (approvedAt_iff platform).mpr ⟨dc, identityID, hfound, hpoll⟩
      rcases hrun with ⟨_, db₂, rest₂, ⟨consumed, hconsumed, hok⟩, -⟩ |
          ⟨e, ⟨consumed, hconsumed, herror⟩, -⟩
      · obtain ⟨delete, rfl, ⟨-, rfl, -⟩ | ⟨hfails, -⟩⟩ :=
          consumeDeviceCode_run hconsumed
        · cases hok
        · exact absurd ⟨hread, happroved, hfails⟩ hconsumes
      · obtain ⟨delete, rfl, ⟨-, -, rfl⟩ | ⟨-, rfl⟩⟩ :=
          consumeDeviceCode_run hconsumed
        · rfl
        · cases herror
  · exact (pollDeviceToken_run hpolled).1

theorem deviceCodeGrant_run_consumed {read clock delete : Choice}
    {dc : DeviceCode} {identityID : String} (hread : read.fails = false)
    (hdelete : delete.fails = false)
    (hfound : db.deviceCodes.find? req.deviceCode = some dc)
    (hpoll : pollOutcome platform req.clientID dc clock.now = .ok identityID) :
    (handleDeviceCodeGrant platform req).run perform
        (read :: clock :: delete :: rest) db =
      ((exchangeDeviceCode platform (deviceTokenRequest req dc identityID)).orReject
        mapTokenGrantError).run perform rest
          { db with
            deviceCodes :=
              db.deviceCodes.deleteWhere (·.deviceCode = dc.deviceCode) } := by
  simp [handleDeviceCodeGrant, pollDeviceToken, consumeDeviceCode,
    deleteDeviceCode, answer_of_not_fails hread, hfound, hpoll, scanRow,
    Except.mapError, perform, reply, answer_of_not_fails hdelete, effect,
    deleted, execDone]

/-- The exchange that follows brings no device code back. -/
theorem deviceCode_gone_after_exchange {code : String} {exchange : DeviceCodeTokenRequest}
    {outcome : Except TokenError TokenResponse}
    (hrun : (exchangeDeviceCode platform exchange).run perform choices db =
      some (outcome, db', rest))
    (hgone : ∀ row ∈ db.deviceCodes.rows, row.deviceCode ≠ code) :
    ∀ row ∈ db'.deviceCodes.rows, row.deviceCode ≠ code := by
  have hyields : (exchangeDeviceCode platform exchange).Yields
      (callDuty platform (.exchangeDeviceCode exchange)) _ [] :=
    exchangeDeviceCode_yields exchange fun _ _ _ hclient _ _ => hclient
  refine hyields.run_invariant
    (fun db => ∀ row ∈ db.deviceCodes.rows, row.deviceCode ≠ code) ?_ hrun hgone
  intro past choice c db hduty hgone row hrow
  rcases mem_deviceCodes_effect hrow with ⟨old, hold, hsame, -⟩ | ⟨reply, hcall⟩
  · exact hsame ▸ hgone old hold
  · cases hcall
    obtain ⟨-, clientID, scope, hrequest⟩ := hduty
    cases hrequest

theorem deviceCodes_changed {outcome : Except ErrorReply TokenResponse}
    (hrun : (handleDeviceCodeGrant platform req).run perform choices db =
      some (outcome, db', rest)) (hconsumes : Consumes db req choices) :
    db'.deviceCodes ≠ db.deviceCodes := by
  match choices, hconsumes with
  | read :: clock :: delete :: _, ⟨hread, happroved, hdelete⟩ =>
      obtain ⟨dc, identityID, hfound, hpoll⟩ :=
        (approvedAt_iff platform).mp happroved
      rw [deviceCodeGrant_run_consumed hread hdelete hfound hpoll, run_orReject_eq_some] at hrun
      obtain ⟨inner, hrun, -⟩ := hrun
      obtain ⟨hdc, hcode⟩ := (Table.find?_eq_some_iff ..).mp hfound
      intro heq
      refine deviceCode_gone_after_exchange hrun ?_ dc (heq ▸ hdc) rfl
      intro row hrow hsame
      have hkept := (List.mem_filter.mp hrow).2
      simp [hsame] at hkept

end Failed

/-- A device-code request that fails leaves the device codes and the tokens as
they were exactly if it did not get to delete its code. -/
theorem failed_deviceCodeGrant_harmless_iff (platform : Platform)
    (req : DeviceTokenRequest) (choices rest : List Choice) (db db' : Database) (e : ErrorReply)
    (hrun : (handleDeviceCodeGrant platform req).run perform choices db =
      some (.error e, db', rest)) :
    (db'.deviceCodes = db.deviceCodes ∧ db'.accessTokens = db.accessTokens ∧
      db'.refreshTokens = db.refreshTokens ∧ db'.idTokens = db.idTokens) ↔
      ¬ Consumes db req choices := by
  constructor
  · rintro ⟨hsame, -⟩ hconsumes
    exact deviceCodes_changed hrun hconsumes hsame
  · intro hconsumes
    rw [deviceCodeGrant_unchanged hrun hconsumes]
    exact ⟨rfl, rfl, rfl, rfl⟩

theorem expired_deviceCodeGrant_harmless :
    ∃ e db' rest, (handleDeviceCodeGrant samplePlatform
        sampleDeviceRequest).run perform (List.replicate 3 (moment 601 1))
        deviceTables = some (.error e, db', rest) ∧
      db'.deviceCodes = deviceTables.deviceCodes ∧
      db'.accessTokens = deviceTables.accessTokens ∧
      db'.refreshTokens = deviceTables.refreshTokens ∧
      db'.idTokens = deviceTables.idTokens := by
  have hrun : (handleDeviceCodeGrant samplePlatform sampleDeviceRequest).run
      perform (List.replicate 3 (moment 601 1)) deviceTables =
        some (.error ⟨"expired_token", "Device code expired", 400⟩, deviceTables,
          [moment 601 1]) := by
    unfold Service.run
    rfl
  have hunused : ¬ Consumes deviceTables sampleDeviceRequest (List.replicate 3 (moment 601 1)) := by
    simp [Consumes, ApprovedAt, deviceTables, sampleDeviceCode, moment, minutes, List.replicate]
  exact ⟨_, _, _, hrun, (failed_deviceCodeGrant_harmless_iff samplePlatform
    sampleDeviceRequest _ _ deviceTables _ _ hrun).mpr hunused⟩

/-- With the wrong secret, the request fails and the code is gone. -/
theorem wrongSecret_deletes_deviceCode :
    ((handleDeviceCodeGrant samplePlatform
      { sampleDeviceRequest with clientSecret := "wrong" }).run perform
      (List.replicate 8 (moment 1 1)) deviceTables).map
        (fun (outcome, db', _) => (outcome, db'.deviceCodes.rows)) =
      some (.error ⟨"invalid_client", "Client authentication failed", 401⟩, []) ∧
    deviceTables.deviceCodes.rows = [sampleDeviceCode] := by
  unfold Service.run
  decide

end Aegion.OAuth
