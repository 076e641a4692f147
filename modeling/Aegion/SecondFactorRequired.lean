/-
The second factor is not skipped.  A flow waits for a second factor only after a
first factor of the same identity, so whoever completes it has shown both; and a
login that asks for no second factor has found none enrolled, which stays so
while nobody enrols one in the middle of it.
-/
import Aegion.LoginConduct
import Aegion.OAuthTables

namespace Aegion

namespace MFA

open OAuth (mem_updated)

/-- A commit only removes factors. -/
theorem mem_totpFactors_apply {tx : Tx} {db next : Database}
    (happly : tx.apply db = some next) {row : TOTPFactor}
    (hrow : row ∈ next.totpFactors.rows) : row ∈ db.totpFactors.rows := by
  obtain ⟨codes, -, rfl⟩ := Option.map_eq_some_iff.mp happly
  rw [Table.deleteWhere_rows] at hrow
  exact List.mem_of_mem_filter hrow

/-- Only an enrolment brings a factor for a new identity. -/
theorem totpFactors_effect (call : Called Reply) (db : Database) (row : TOTPFactor)
    (hrow : row ∈ (effect call db).totpFactors.rows) :
    (∃ old ∈ db.totpFactors.rows, row.identityID = old.identityID) ∨
      ∃ new reply, call = ⟨.upsertTOTPFactor new, reply⟩ := by
  have hkept : row ∈ db.totpFactors.rows →
      (∃ old ∈ db.totpFactors.rows, row.identityID = old.identityID) ∨
        ∃ new reply, call = ⟨.upsertTOTPFactor new, reply⟩ :=
    fun hmem => Or.inl ⟨row, hmem, rfl⟩
  obtain ⟨c, reply⟩ := call
  cases c with
  | upsertTOTPFactor new => exact Or.inr ⟨new, reply, rfl⟩
  | updateTOTPLastUsed identityID usedAt =>
      obtain ⟨old, hold, rfl | rfl⟩ := mem_updated hrow
      · exact hkept hold
      · exact Or.inl ⟨old, hold, old.identityID_assignUsed usedAt⟩
  | commit tx =>
      rcases reply with e | ⟨⟩
      · exact hkept hrow
      · simp only [effect] at hrow
        cases happly : tx.apply db with
        | none =>
            rw [happly] at hrow
            exact hkept hrow
        | some next =>
            rw [happly, Option.getD_some] at hrow
            exact hkept (mem_totpFactors_apply happly hrow)
  | upsertEnrollment _ =>
      rcases reply with e | ⟨⟩ <;> exact hkept hrow
  | _ => exact hkept hrow

end MFA

namespace Login

open Go Service History
open OAuth (Time DBError mem_inserted mem_updated_selected)

section Tables

variable {db : Database}

theorem flows_effect {call : Called Reply} {row : Flow} (hrow : row ∈ (effect call db).flows.rows) :
    row ∈ db.flows.rows ∨ (∃ reply, call = ⟨.insertFlow row, reply⟩) ∨
      ∃ new old reply, call = ⟨.updateFlow new, reply⟩ ∧ old.id = new.id ∧
        row = new.assign old := by
  obtain ⟨c, reply⟩ := call
  cases c with
  | insertFlow new =>
      rcases mem_inserted hrow with hold | ⟨-, rfl⟩
      · exact Or.inl hold
      · exact Or.inr (Or.inl ⟨reply, rfl⟩)
  | updateFlow new =>
      obtain ⟨old, hold, rfl | ⟨hselected, rfl⟩⟩ := mem_updated_selected hrow
      · exact Or.inl hold
      · exact Or.inr (Or.inr ⟨new, old, reply, rfl, by simpa using hselected, rfl⟩)
  | softDeleteIdentity _ =>
      rcases reply with e | _ | writtenAt <;> exact Or.inl hrow
  | createIdentity _ _ _ | updateEmailVerified _ _ | insertSessionMethod _
  | addAuthMethod _ =>
      rcases reply with e | written <;> exact Or.inl hrow
  | _ => exact Or.inl hrow

/-- The MFA tables change by the MFA module's own calls. -/
theorem mfa_effect (call : Called Reply) :
    (effect call db).mfa = db.mfa ∨ ∃ c reply, call = ⟨.mfa c, reply⟩ ∧
      (effect call db).mfa = MFA.effect ⟨c, reply⟩ db.mfa := by
  obtain ⟨c, reply⟩ := call
  cases c with
  | mfa c => exact Or.inr ⟨c, reply, rfl, rfl⟩
  | softDeleteIdentity _ =>
      rcases reply with e | _ | writtenAt <;> exact Or.inl rfl
  | createIdentity _ _ _ | updateEmailVerified _ _ | insertSessionMethod _
  | addAuthMethod _ =>
      rcases reply with e | written <;> exact Or.inl rfl
  | _ => exact Or.inl rfl

/-- Factors by identity: an enrolment is the only insert. -/
def factorTurnover : Turnover effect MFA.TOTPFactor.identityID where
  table db := db.mfa.totpFactors
  Inserts call _ _ := ∃ new reply, call = ⟨.mfa (.upsertTOTPFactor new), reply⟩
  Later old row := row.identityID = old.identityID
  refl _ := rfl
  trans hlater hlater' := Eq.trans hlater' hlater
  key_eq hlater := hlater
  backward call db row hrow := by
    rcases mfa_effect call with heq | ⟨c, reply, rfl, heq⟩
    · rw [heq] at hrow
      exact Or.inl ⟨row, hrow, rfl⟩
    · rw [heq] at hrow
      rcases MFA.totpFactors_effect _ _ row hrow with hold | ⟨new, reply', hcall⟩
      · exact Or.inl hold
      · cases hcall
        exact Or.inr ⟨new, _, rfl⟩

theorem mem_of_selectFlow {choice : Choice} {id : UUID} {flow : Flow}
    (hreply : .ok (some flow) = reply choice db (.selectFlow id)) :
    flow ∈ db.flows.rows ∧ flow.id = id := by
  simp only [reply, answer] at hreply
  split at hreply
  · cases hreply
  · exact (db.flows.find?_eq_some_iff id flow).mp (Except.ok.inj hreply).symm

theorem unenrolled_of_selectFactors {choice : Choice} {identityID : String}
    (hreply : .ok [] = reply choice db (.mfa (.selectFactors identityID))) :
    ∀ row ∈ db.mfa.totpFactors.rows, row.identityID ≠ identityID := by
  simp only [reply, MFA.reply, MFA.answer] at hreply
  split at hreply
  · cases hreply
  · intro row hrow heq
    have hlisted := List.filter_eq_nil_iff.mp (Except.ok.inj hreply).symm row hrow
    exact hlisted (by simpa using heq)

end Tables

/-- A first factor of the identity succeeded in a request that then stored the
flow. -/
def FirstFactorInFlow (platform : Platform) (history : Trace) (flowID identityID : UUID) : Prop :=
  ∃ thread request row reply past,
    (⟨thread, request, .called ⟨.updateFlow row, reply⟩⟩ :
      Event) :: past <:+ history ∧
    row.id = flowID ∧ FirstFactor platform (own thread past) identityID request

theorem FirstFactorInFlow.mono {platform : Platform} {past history : Trace}
    {flowID identityID : UUID} (hsuffix : past <:+ history)
    (hfactor : FirstFactorInFlow platform past flowID identityID) :
    FirstFactorInFlow platform history flowID identityID := by
  obtain ⟨thread, request, row, reply, before, hentry, hid, hfirst⟩ := hfactor
  exact ⟨thread, request, row, reply, before, hentry.trans hsuffix, hid, hfirst⟩

def Enrolled (platform : Platform) (db : Database) (identityID : UUID) : Prop :=
  ∃ row ∈ db.mfa.totpFactors.rows, row.identityID = mfaIdentity platform identityID

/-- No login is under way when a factor is enrolled. -/
def EnrolsBetween (past : Trace) (entry : Event) : Prop :=
  match entry.request, entry.step with
  | .mfa _, .called ⟨.mfa (.upsertTOTPFactor _), _⟩ =>
      ∀ earlier ∈ past, earlier.request.client? ≠ none →
        ∃ later ∈ past, later.thread = earlier.thread ∧
          ∃ response, later.step = .answered response
  | _, _ => True

section Runs

variable {platform : Platform} {cfg : Config} {db : Database} {history : Trace}

/-- A call of a thread's own past, at the point where it was made. -/
theorem exists_point_of_own {thread : Nat} {call : Called Reply} {past : Trace}
    (hcall : call ∈ own thread past) :
    ∃ request before, (⟨thread, request, .called call⟩ : Event) :: before <:+ past := by
  obtain ⟨request, hmem⟩ := mem_own_iff.mp hcall
  obtain ⟨before, hbefore⟩ := exists_past_of_mem hmem
  exact ⟨request, before, hbefore⟩

/-- A flow that a thread has read was stored at that point. -/
theorem stored_of_read (hanswers : Throughout (Answers perform effect db) history)
    {thread : Nat} {id : UUID} {flow : Flow} {past : Trace} (hpast : past <:+ history)
    (hread : ⟨.selectFlow id, .ok (some flow)⟩ ∈ own thread past) :
    ∃ before, before <:+ past ∧ flow ∈ (replay effect db before).flows.rows ∧ flow.id = id := by
  obtain ⟨request, before, hbefore⟩ := exists_point_of_own hread
  obtain ⟨choice, hreply⟩ := hanswers _ before (hbefore.trans hpast) _ rfl
  exact ⟨before, (List.suffix_cons _ _).trans hbefore, mem_of_selectFlow hreply⟩

/-- A login pends in a stored flow only after a first factor of its identity in
the same flow. -/
theorem pending_origin (hstart : ∀ flow ∈ db.flows.rows, pendingMFALogin platform flow = none)
    (howes : Throughout (Owes (callDuty platform cfg) fun _ _ _ => True) history)
    (hanswers : Throughout (Answers perform effect db) history)
    {past : Trace} (hpast : past <:+ history) {flow : Flow} {identityID : UUID}
    {method : AuthMethod} (hflow : flow ∈ (replay effect db past).flows.rows)
    (hpending : pendingMFALogin platform flow = some (identityID, method)) :
    FirstFactorInFlow platform past flow.id identityID := by
  induction history generalizing past flow identityID method with
  | nil =>
      rw [List.suffix_nil.mp hpast] at hflow
      rw [hstart flow hflow] at hpending
      cases hpending
  | cons entry rest ih =>
      have hrest : rest <:+ entry :: rest := List.suffix_cons _ _
      have hearlier {before : Trace} (hbefore : before <:+ rest) {row : Flow} {id : UUID}
          {m : AuthMethod} (hrow : row ∈ (replay effect db before).flows.rows)
          (hwaits : pendingMFALogin platform row = some (id, m)) :=
        ih (howes.suffix hrest) (hanswers.suffix hrest) hbefore hrow hwaits
      rcases List.suffix_cons_iff.mp hpast with rfl | hbefore
      · obtain ⟨thread, request, step⟩ := entry
        cases step with
        | answered response =>
            exact (hearlier List.suffix_rfl hflow hpending).mono hrest
        | called call =>
            have hduty := howes _ rest List.suffix_rfl
            rcases flows_effect hflow with hold | ⟨reply, rfl⟩ | ⟨new, old, reply, rfl, hid, rfl⟩
            · exact (hearlier List.suffix_rfl hold hpending).mono hrest
            · have hnone : pendingMFALogin platform flow = none := hduty
              rw [hnone] at hpending
              cases hpending
            · -- The stored flow is the request's: fresh, or as it was read.
              rcases hduty identityID method hpending with hfirst | ⟨id, read, hread, hsame, hwaits⟩
              · exact ⟨thread, request, new, reply, rest, List.suffix_rfl, hid.symm, hfirst⟩
              · obtain ⟨before, hsuffix, hmem, -⟩ := stored_of_read hanswers hrest hread
                have horigin := hearlier hsuffix hmem hwaits
                rw [hsame, ← hid] at horigin
                exact horigin.mono (hsuffix.trans hrest)
      · exact hearlier hbefore hflow hpending

/-- A login that found no factor enrolled sees none until it ends. -/
theorem not_enrolled_of_listed
    (howes : Throughout (Owes (callDuty platform cfg) fun _ _ _ => True) history)
    (hanswers : Throughout (Answers perform effect db) history)
    (hcoherent : Throughout Coherent history) (hsettled : Throughout EnrolsBetween history)
    {thread : Nat} {request : Request} {step : Step Reply Response} {past : Trace}
    (hentry : ⟨thread, request, step⟩ :: past <:+ history)
    (hlogin : request.client? ≠ none) {identityID : UUID}
    (hlisted : ⟨.mfa (.selectFactors (mfaIdentity platform identityID)), .ok []⟩ ∈
      own thread past) : ¬ Enrolled platform (replay effect db past) identityID := by
  rintro ⟨row, hrow, hidentity⟩
  have hpast : past <:+ history := (List.suffix_cons _ _).trans hentry
  obtain ⟨request', before, hbefore⟩ := exists_point_of_own hlisted
  obtain ⟨choice, hreply⟩ := hanswers _ before (hbefore.trans hpast) _ rfl
  have hnone := unenrolled_of_selectFactors hreply
  rcases factorTurnover.origin_since hbefore hrow with ⟨old, hold, hlater⟩ |
      ⟨⟨other, enrolling, enrols⟩, between, first, hbetween, henrolled,
        ⟨call, hcall, new, answer, rfl⟩, -⟩
  · exact hnone old hold (hlater.symm.trans hidentity)
  · cases hcall
    obtain ⟨inner, rfl⟩ : ∃ inner, enrolling = .mfa inner :=
      howes _ between (henrolled.trans hpast)
    have hmem := mem_of_suffix_cons hbetween
    have hserves : request' = request :=
      (hcoherent _ past hentry _ (mem_of_suffix_cons hbefore) rfl).1
    have hended := hsettled _ between (henrolled.trans hpast)
    obtain ⟨later, hanswered, hthread, response, hresponse⟩ :=
      hended _ hmem (hserves ▸ hlogin)
    have hinside := ((List.suffix_cons _ _).trans henrolled).subset hanswered
    obtain ⟨-, call, hcalled⟩ := hcoherent _ past hentry later hinside hthread
    rw [hresponse] at hcalled
    cases hcalled

end Runs

/-- A second factor of the identity was verified by the request, after a first factor in the
same request or earlier in the same flow. -/
structure BothFactors (platform : Platform) (cfg : Config) (thread : Nat)
    (request : Request) (past : Trace) (identityID : UUID) : Prop where
  second : SecondFactor platform cfg (own thread past) identityID request
  first : FirstFactor platform (own thread past) identityID request ∨
    ∃ client input, request = .submitLogin client input ∧
      FirstFactorInFlow platform past input.flowID identityID

/-- A run without requests to the MFA service itself enrols nothing. -/
theorem enrolsBetween_of_logins {history : Trace}
    (hlogins : ∀ entry ∈ history, ∀ inner, entry.request ≠ .mfa inner) :
    Throughout EnrolsBetween history := by
  rintro ⟨thread, request, step⟩ past hentry
  have hlogin := hlogins _ (mem_of_suffix_cons hentry)
  cases request with
  | mfa inner => exact absurd rfl (hlogin inner)
  | _ => trivial

section Settled

variable {platform : Platform} {cfg : Config} {db : Database} {actions : Schedule} {thread : Nat}
  {request : Request} {row : SessionRow} {past : Trace} (hmfa : cfg.mfaAuth = true)
  (hstart : ∀ flow ∈ db.flows.rows, pendingMFALogin platform flow = none)
  (hcreated : ⟨thread, request, .called ⟨.insertSession row, .ok ()⟩⟩ :: past <:+
    runFrom platform cfg db actions)
  (henrolled : Enrolled platform (replay effect db past) row.identityID)

include hmfa hstart hcreated henrolled

theorem bothFactors_of_settled
    (hsettled : Throughout EnrolsBetween (runFrom platform cfg db actions)) :
    BothFactors platform cfg thread request past row.identityID := by
  obtain ⟨hlogin, hgranted⟩ := owes_of_run _ past hcreated
  have hpast := (List.suffix_cons _ _).trans hcreated
  cases hgranted with
  | primary hfirst _ hcleared =>
      cases hcleared with
      | disabled hdisabled =>
          rw [hmfa] at hdisabled
          cases hdisabled
      | unenrolled hlisted =>
          exact absurd henrolled (not_enrolled_of_listed owes_of_run answers_of_run
            coherent_of_run hsettled hcreated hlogin hlisted)
      | verified hsecond => exact ⟨hsecond, Or.inl hfirst⟩
  | pending hserves hread hwaits hsecond =>
      refine ⟨hsecond, Or.inr ⟨_, _, hserves, ?_⟩⟩
      obtain ⟨before, hsuffix, hmem, hid⟩ := stored_of_read answers_of_run hpast
        (hread.subset (List.mem_singleton_self _))
      have horigin := pending_origin hstart owes_of_run answers_of_run
        (hsuffix.trans hpast) hmem hwaits
      rw [hid] at horigin
      exact horigin.mono hsuffix

/-- Every run of logins needs both factors of the enrolled. -/
theorem login_runs_need_both_factors
    (hlogins : ∀ entry ∈ runFrom platform cfg db actions, ∀ inner, entry.request ≠ .mfa inner) :
    BothFactors platform cfg thread request past row.identityID :=
  bothFactors_of_settled hmfa hstart hcreated henrolled (enrolsBetween_of_logins hlogins)

end Settled

/-- A session for an identity with an enrolled factor is created by a request that
verified a second factor of that identity, after a first factor. -/
theorem session_needs_both_factors (platform : Platform) (cfg : Config)
    (hmfa : cfg.mfaAuth = true) (db : Database)
    (hstart : ∀ flow ∈ db.flows.rows, pendingMFALogin platform flow = none) (actions : Schedule)
    (hsettled : Throughout EnrolsBetween (runFrom platform cfg db actions))
    (thread : Nat) (request : Request) (row : SessionRow) (past : Trace)
    (hcreated : ⟨thread, request, .called ⟨.insertSession row, .ok ()⟩⟩ :: past <:+
      runFrom platform cfg db actions)
    (henrolled : Enrolled platform (replay effect db past) row.identityID) :
    BothFactors platform cfg thread request past row.identityID :=
  bothFactors_of_settled hmfa hstart hcreated henrolled hsettled

section Sample

/-- The password first, then the code, up to the insert of the session. -/
def twoSubmissions : Schedule :=
  Action.start submitPassword ::
    List.replicate 7 (.step 0 (sampleChoice 2 [])) ++
  Action.start submitCode ::
    List.replicate 10 (.step 1 (sampleChoice 2 [1]))

def runOfTwo : Trace :=
  runFrom samplePlatform sampleConfig sampleDatabase twoSubmissions

def sampleSession : SessionRow where
  id := 2
  tokenHash := "AQAAAAAAAAAAAAAAAAAAAAAAAAAAAAAAAAAAAAAAAAA"
  tokenPrefix := "AQAAAAAAAAAAAAAAAAAAAAAAAAAAAAAAAAAAAAAAAAA"
  identityID := 1
  aal := .aal1
  issuedAt := 0
  expiresAt := 0
  authenticatedAt := 0
  logoutTokenHash := "AQAAAAAAAAAAAAAAAAAAAAAAAAAAAAAAAAAAAAAAAAA"
  logoutTokenPrefix := "AQAAAAAAAAAAAAAAAAAAAAAAAAAAAAAAAAAAAAAAAAA"
  active := true
  createdAt := 0
  updatedAt := 0

theorem password_then_code :
    BothFactors samplePlatform sampleConfig 1 submitCode runOfTwo.tail 1 := by
  have hrun : runOfTwo = ⟨1, submitCode,
        .called ⟨.insertSession sampleSession, .ok ()⟩⟩ :: runOfTwo.tail ∧
      (∀ entry ∈ runOfTwo, entry.request = submitPassword ∨ entry.request = submitCode) ∧
      ∃ row ∈ (replay effect sampleDatabase runOfTwo.tail).mfa.totpFactors.rows,
        row.identityID = mfaIdentity samplePlatform 1 := by
    decide +kernel
  obtain ⟨hlast, hlogins, henrolled⟩ := hrun
  refine session_needs_both_factors samplePlatform sampleConfig rfl sampleDatabase
    (by decide) twoSubmissions (enrolsBetween_of_logins ?_) 1 submitCode
    sampleSession runOfTwo.tail ?_ ?_
  · intro entry hentry inner hinner
    rcases hlogins entry hentry with heq | heq
    · cases heq.symm.trans hinner
    · cases heq.symm.trans hinner
  · rw [← hlast]
    exact List.suffix_rfl
  · exact henrolled

end Sample

end Login

end Aegion
