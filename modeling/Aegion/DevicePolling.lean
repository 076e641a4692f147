/-
Polling a device code.  The decision to slow a device down reads `last_poll_at`, and
no request writes that column: it stays what the code was inserted with.
-/
import Aegion.DeviceCodeRedemption

namespace Aegion.OAuth

open History Service

/-- The seconds a device has to wait between two polls. -/
def pollInterval (platform : Platform) (dc : DeviceCode) : Int :=
  if dc.interval ≠ 0 then dc.interval else platform.pollingInterval

/-- The client's own code, neither expired nor decided on. -/
structure AwaitsUser (req : DeviceTokenRequest) (dc : DeviceCode) (now : Time) : Prop where
  client : dc.clientID = req.clientID
  unexpired : ¬ dc.expiresAt < now
  status : dc.status = "pending"

/-- The code was polled too recently, as far as its row tells. -/
def PolledWithin (platform : Platform) (dc : DeviceCode) (now : Time) : Prop :=
  ∃ last, dc.lastPollAt = some last ∧ now - last < seconds (pollInterval platform dc)

/-- The row and the time a poll has decided on: its first two calls. -/
def polled (past : Past) : Option (DeviceCode × Time) :=
  match past.reverse with
  | ⟨.selectDeviceCode _, .ok (some dc)⟩ :: ⟨.clock, now⟩ :: _ => some (dc, now)
  | _ => none

/-- The polls of a history: request, row read, time and answer. -/
def polls (history : Trace) : List (DeviceTokenRequest × DeviceCode × Time × Response) :=
  (points history).filterMap fun
    | (⟨thread, .deviceCodeGrant req, .answered response⟩, past) =>
        (polled (own thread past)).map fun (dc, now) => (req, dc, now, response)
    | _ => none

section Polls

variable {platform : Platform} {req : DeviceTokenRequest} {dc : DeviceCode} {now : Time}

theorem exists_of_mem_polls {history : Trace} {response : Response}
    (hmem : (req, dc, now, response) ∈ polls history) :
    ∃ thread past,
      ⟨thread, .deviceCodeGrant req, .answered response⟩ :: past <:+ history ∧
        polled (own thread past) = some (dc, now) := by
  obtain ⟨⟨entry, past⟩, hpoint, hanswer⟩ := List.mem_filterMap.mp hmem
  have hentry := suffix_of_mem_points hpoint
  split at hanswer
  · rename_i thread req' response' past' heq
    cases heq
    obtain ⟨read, hpolled, hpoll⟩ := Option.map_eq_some_iff.mp hanswer
    cases hpoll
    exact ⟨thread, past, hentry, hpolled⟩
  · cases hanswer

theorem polled_of_suffix {code : String} {later : Past}
    (hsuffix : [⟨.clock, now⟩, ⟨.selectDeviceCode code, .ok (some dc)⟩] <:+ later) :
    polled later = some (dc, now) := by
  obtain ⟨added, rfl⟩ := hsuffix
  simp [polled]

theorem mem_of_polled {past : Past} (hpolled : polled past = some (dc, now)) :
    ∃ code, ⟨.selectDeviceCode code, .ok (some dc)⟩ ∈ past := by
  unfold polled at hpolled
  split at hpolled
  · rename_i code dc' now' rest heq
    cases hpolled
    have hmem : ⟨.selectDeviceCode code, .ok (some dc)⟩ ∈ past.reverse := by
      rw [heq]
      exact List.mem_cons_self
    exact ⟨code, List.mem_reverse.mp hmem⟩
  · cases hpolled

/-- While the user has not decided, a poll only looks at the time of the last one. -/
theorem pollOutcome_of_awaits (hawaits : AwaitsUser req dc now) :
    (PolledWithin platform dc now ∧
        pollOutcome platform req.clientID dc now = .error .slowDown) ∨
      (¬ PolledWithin platform dc now ∧
        pollOutcome platform req.clientID dc now = .error .authorizationPending) := by
  have hdenied : dc.status ≠ "denied" := by
    rw [hawaits.status]
    decide
  have happroved : dc.status ≠ "approved" := by
    rw [hawaits.status]
    decide
  unfold pollOutcome
  rw [if_neg (not_not.mpr hawaits.client), if_neg hawaits.unexpired, if_neg hdenied,
    if_pos happroved]
  cases hlast : dc.lastPollAt with
  | none => exact Or.inr ⟨by simp [PolledWithin, hlast], rfl⟩
  | some last =>
      by_cases hclose : now - last < seconds (pollInterval platform dc)
      · exact Or.inl ⟨⟨last, hlast, hclose⟩, if_pos hclose⟩
      · exact Or.inr ⟨by simpa [PolledWithin, hlast] using hclose, if_neg hclose⟩

/-- A poll has succeeded. -/
def Passed (platform : Platform) (req : DeviceTokenRequest) (past : Past) : Prop :=
  ∃ code dc now identityID,
    [⟨.clock, now⟩, ⟨.selectDeviceCode code, .ok (some dc)⟩] <:+ past ∧
      pollOutcome platform req.clientID dc now = .ok identityID

/-- What a request owes with its answer: a poll that was decided against is answered
with the error it was decided on. -/
def pollDuty (platform : Platform) (request : Request) (response : Response) (past : Past) : Prop :=
  ∀ req dc now e, request = .deviceCodeGrant req → polled past = some (dc, now) →
    pollOutcome platform req.clientID dc now = .error e →
      response = .failed (.reply (pollErrorReply e))

/-- What a poll has come to: a failure is the one that was decided on. -/
def Reported {α : Type} (platform : Platform) (req : DeviceTokenRequest) (past : Past) :
    Except DeviceError α → Prop
  | .ok _ => Passed platform req past
  | .error e => ∀ dc now d, polled past = some (dc, now) →
      pollOutcome platform req.clientID dc now = .error d → e = d

theorem pollDeviceToken_keeps :
    (pollDeviceToken platform req).Keeps (fun _ _ => True)
      (fun outcome later => Reported platform req later outcome) [] := by
  simp only [pollDeviceToken, getDeviceCodeByDeviceCode, nowUTC, bind_eq, pure_eq,
    keeps_bind, keeps_orReject, keeps_statement, keeps_ofExcept, keeps_succeed, true_and]
  rintro (e | _ | dc)
  · simp [scanRow, Except.mapError, Reported, polled]
  · simp [scanRow, Except.mapError, Reported, polled]
  · refine ⟨?_, by simp [scanRow, Except.mapError]⟩
    rintro _ ⟨⟩ now
    refine ⟨?_, fun e hfailed => by cases hfailed⟩
    rintro _ ⟨⟩
    constructor
    · intro identityID hpoll
      exact ⟨_, dc, now, identityID, List.suffix_rfl, hpoll⟩
    · rintro e hpoll _ _ d ⟨⟩ hdecided
      exact Except.error.inj (hpoll.symm.trans hdecided)

/-- Whatever comes after a successful poll, it was not decided against. -/
theorem Passed.not_error {past later : Past} (hpassed : Passed platform req past)
    (hlater : past <:+ later) {e : DeviceError} (hpolled : polled later = some (dc, now)) :
    pollOutcome platform req.clientID dc now ≠ .error e := by
  obtain ⟨code, dc', now', identityID, hsuffix, hpoll⟩ := hpassed
  have hsame := (polled_of_suffix (hsuffix.trans hlater)).symm.trans hpolled
  cases hsame
  rw [hpoll]
  nofun

theorem handleDeviceCodeGrant_keeps :
    (handleDeviceCodeGrant platform req).Keeps (fun _ _ => True)
      (fun outcome later => ∀ dc now e, polled later = some (dc, now) →
        pollOutcome platform req.clientID dc now = .error e →
          outcome = .error (pollErrorReply e)) [] := by
  unfold handleDeviceCodeGrant
  rw [bind_eq, keeps_bind, keeps_orReject]
  refine pollDeviceToken_keeps.imp ?_
  rintro (e | value) later - hreported
  · constructor
    · intro value hok
      cases hok
    · rintro _ ⟨⟩ dc now d hpolled hdecided
      rw [hreported dc now d hpolled hdecided]
  · refine ⟨fun value _ => ?_, fun _ hfailed => by cases hfailed⟩
    unfold Service.Keeps
    refine (Program.keeps_trivial _ later).imp ?_
    intro outcome further hfurther _ dc now d hpolled hdecided
    exact absurd hdecided (hreported.not_error hfurther hpolled)

/-- Every request keeps the duty of polls. -/
theorem serve_pollDuty (config : DeviceConfig) (request : Request) :
    (serve platform config request).Keeps (fun _ _ => True) (pollDuty platform request) [] := by
  by_cases hgrant : ∃ req, request = .deviceCodeGrant req
  · obtain ⟨req, rfl⟩ := hgrant
    have hgrant : (handleDeviceCodeGrant platform req).Keeps _ _ [] :=
      handleDeviceCodeGrant_keeps
    unfold Service.Keeps at hgrant
    refine Program.keeps_bind.mpr (hgrant.imp ?_)
    rintro (e | resp) later - hpost req' dc now d ⟨⟩ hpolled hdecided
    · cases hpost dc now d hpolled hdecided
      rfl
    · cases hpost dc now d hpolled hdecided
  · refine Program.Keeps.imp (Program.keeps_trivial _ _) ?_
    intro response later _ _ req dc now e hrequest
    exact absurd ⟨req, hrequest⟩ hgrant

/-- A row with a recorded poll is one of the tables the run began with. -/
theorem lastPollAt_of_run {db : Database} {history later : Trace}
    (hlaw : Lawful platform db history) (hlater : later <:+ history) {last : Time} :
    ∀ row ∈ (tablesAfter db later).deviceCodes.rows, row.lastPollAt = some last →
      ∃ old ∈ db.deviceCodes.rows, old.deviceCode = row.deviceCode ∧
        old.lastPollAt = some last := by
  induction later with
  | nil => exact fun row hrow hlast => ⟨row, hrow, rfl, hlast⟩
  | cons entry rest ih =>
      intro row hrow hlast
      have hbefore := ih ((List.suffix_cons _ _).trans hlater)
      obtain ⟨thread, request, step⟩ := entry
      cases step with
      | answered answer => exact hbefore row hrow hlast
      | called call =>
          rcases mem_deviceCodes_effect hrow with ⟨old, hold, hcode, hsame⟩ | ⟨reply, rfl⟩
          · obtain ⟨first, hfirst, hkey, hrecorded⟩ := hbefore old hold (hsame.trans hlast)
            exact ⟨first, hfirst, hkey.trans hcode, hrecorded⟩
          · obtain ⟨hfresh, -⟩ := hlaw.duty hlater
            rw [hfresh] at hlast
            cases hlast

end Polls

/-- When a poll is slowed down.  In every run, a poll of a code that awaits the user's
decision is answered `slow_down` exactly if the row it has read records a poll within
the interval, and such a record is older than the run: whether the code was polled a
moment before makes no difference. -/
theorem poll_slowed_iff (platform : Platform) (config : DeviceConfig) (db : Database)
    (actions : Schedule) {req : DeviceTokenRequest} {dc : DeviceCode}
    {now : Time} {response : Response}
    (hpoll : (req, dc, now, response) ∈ polls (runFrom platform config db actions))
    (hawaits : AwaitsUser req dc now) :
    response = .failed (.reply (pollErrorReply .slowDown)) ↔
      ∃ old ∈ db.deviceCodes.rows, old.deviceCode = dc.deviceCode ∧
        old.lastPollAt = dc.lastPollAt ∧ PolledWithin platform dc now := by
  have hlaw := lawful_of_run platform config db actions
  obtain ⟨thread, past, hentry, hpolled⟩ := exists_of_mem_polls hpoll
  have hduty := (system platform config).execute_owes
    (fun request => serve_pollDuty config request) actions db _ past hentry req dc now
  have hanswer : ∀ e, pollOutcome platform req.clientID dc now = .error e →
      response = .failed (.reply (pollErrorReply e)) := fun e hdecided =>
    hduty e rfl hpolled hdecided
  rcases pollOutcome_of_awaits hawaits with ⟨hwithin, hslow⟩ | ⟨hnot, hpending⟩
  · refine iff_of_true (hanswer _ hslow) ?_
    obtain ⟨code, hread⟩ := mem_of_polled hpolled
    obtain ⟨before, -, hbefore⟩ := hlaw.earlier_suffix hentry hread
    obtain ⟨choice, hreply⟩ := hlaw.reply hbefore
    obtain ⟨last, hlast, hclose⟩ := hwithin
    obtain ⟨old, hold, hkey, hrecorded⟩ := lastPollAt_of_run hlaw
      ((List.suffix_cons _ _).trans hbefore) dc (mem_of_select hreply).1 hlast
    exact ⟨old, hold, hkey, hrecorded.trans hlast.symm, last, hlast, hclose⟩
  · rw [hanswer _ hpending]
    refine iff_of_false (by decide) ?_
    rintro ⟨_, _, _, _, hwithin⟩
    exact hnot hwithin

/-- A code the user has not decided on yet. -/
def pendingDeviceCode : DeviceCode :=
  { sampleDeviceCode with
    identityID := none
    sessionID := none
    status := "pending"
    approvedAt := none }

def pendingTables : Database :=
  { sampleTables with deviceCodes := ⟨[pendingDeviceCode], by decide⟩ }

/-- Two polls, one second apart. -/
def eagerDevice : Schedule :=
  served 0 (.deviceCodeGrant sampleDeviceRequest) 1 1 ++
    served 1 (.deviceCodeGrant sampleDeviceRequest) 2 2

theorem eagerDevice_polls :
    polls (runFrom samplePlatform sampleConfig pendingTables eagerDevice) =
      [(sampleDeviceRequest, pendingDeviceCode, seconds 2,
          .failed (.reply (pollErrorReply .authorizationPending))),
        (sampleDeviceRequest, pendingDeviceCode, seconds 1,
          .failed (.reply (pollErrorReply .authorizationPending)))] := by
  decide +kernel

/-- The second poll comes within the interval and is not slowed down. -/
theorem eager_poll_not_slowed :
    ∃ first, (sampleDeviceRequest, pendingDeviceCode, seconds 1, first) ∈
        polls (runFrom samplePlatform sampleConfig pendingTables eagerDevice) ∧
      (sampleDeviceRequest, pendingDeviceCode, seconds 2,
          .failed (.reply (pollErrorReply .authorizationPending))) ∈
        polls (runFrom samplePlatform sampleConfig pendingTables eagerDevice) ∧
      AwaitsUser sampleDeviceRequest pendingDeviceCode (seconds 2) ∧
      seconds 2 - seconds 1 < seconds (pollInterval samplePlatform pendingDeviceCode) := by
  rw [eagerDevice_polls]
  exact ⟨_, List.mem_cons_of_mem _ List.mem_cons_self, List.mem_cons_self,
    ⟨rfl, by decide, rfl⟩, by decide⟩

theorem eagerDevice_iff :
    (Response.failed (.reply (pollErrorReply .authorizationPending)) =
        .failed (.reply (pollErrorReply .slowDown))) ↔
      ∃ old ∈ pendingTables.deviceCodes.rows,
        old.deviceCode = pendingDeviceCode.deviceCode ∧
        old.lastPollAt = pendingDeviceCode.lastPollAt ∧
          PolledWithin samplePlatform pendingDeviceCode (seconds 2) :=
  poll_slowed_iff samplePlatform sampleConfig pendingTables eagerDevice
    (by rw [eagerDevice_polls]; exact List.mem_cons_self) ⟨rfl, by decide, rfl⟩

end Aegion.OAuth
