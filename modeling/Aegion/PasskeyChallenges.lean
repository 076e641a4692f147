/-
Challenges and counters over whole runs.  A challenge is read before it is
deleted, and a counter before it is overwritten, without a lock or a guard; so
each is used once as long as what was read is still there when it is replaced.
-/
import Aegion.PasskeyConduct

namespace Aegion.Passkey

open Go Service History
open OAuth (Time DBError mem_inserted_of_mem)
open MFA (mem_upserted)

section Rows

theorem answer_eq_ok {α : Type} {choice : Choice} {value value' : α}
    (hanswer : answer choice value = .ok value') : value = value' := by
  unfold answer at hanswer
  split at hanswer
  · cases hanswer
  · exact Except.ok.inj hanswer

theorem challenges_effect (call : Called Reply) (db : Database) (row : Challenge)
    (hrow : row ∈ (effect call db).challenges.rows) :
    (∃ old ∈ db.challenges.rows, row.id = old.id) ∨
      call = ⟨.upsertChallenge row, .ok ()⟩ := by
  have hkept : row ∈ db.challenges.rows →
      (∃ old ∈ db.challenges.rows, row.id = old.id) ∨
        call = ⟨.upsertChallenge row, .ok ()⟩ := fun hmem =>
    Or.inl ⟨row, hmem, rfl⟩
  obtain ⟨c, reply⟩ := call
  cases c with
  | clock | randomBytes _ | beginTx | selectChallenge _ | deleteChallengeInTx _
  | insertCredential _ | selectCredential _ | selectCredentials _
  | updateSignCount _ _ => exact hkept hrow
  | upsertChallenge new =>
      rcases reply with e | ⟨⟩
      · exact hkept hrow
      · rcases mem_upserted hrow with ⟨hold, -⟩ | ⟨rfl, -⟩ | ⟨old, hold, -, rfl⟩
        · exact hkept hold
        · exact Or.inr rfl
        · exact Or.inl ⟨old, hold, rfl⟩
  | commit removed =>
      rcases reply with e | ⟨⟩
      · exact hkept hrow
      · exact hkept (List.mem_of_mem_filter hrow)

def challengeTurnover : Turnover effect Challenge.id where
  table := Database.challenges
  Inserts call _ row := call = ⟨.upsertChallenge row, .ok ()⟩
  Later old row := row.id = old.id
  refl _ := rfl
  trans hfirst hsecond := hsecond.trans hfirst
  key_eq hlater := hlater
  backward := challenges_effect

/-- A transaction that has removed a key leaves no row of that key. -/
theorem id_ne_of_commit {db : Database} {removed : List String} {id : String}
    (hremoved : id ∈ removed) {row : Challenge}
    (hrow : row ∈ (effect ⟨.commit removed, .ok ()⟩ db).challenges.rows) : row.id ≠ id := by
  rintro rfl
  simp only [effect, Table.deleteWhere_rows, List.mem_filter, Bool.not_eq_true'] at hrow
  rw [List.contains_iff_mem.mpr hremoved] at hrow
  exact absurd hrow.2 (by decide)

theorem toNat_add_one {n : UInt32} (hmax : n.toNat ≠ 4294967295) : (n + 1).toNat = n.toNat + 1 := by
  have hlt := n.toNat_lt
  rw [UInt32.toNat_add]
  exact Nat.mod_eq_of_lt (by simp; omega)

theorem signCount_of_scan {row : CredentialRow} {credential : Credential}
    (hscan : row.scan = some credential) : row.signCount = credential.signCount.toNat := by
  unfold CredentialRow.scan scanCount at hscan
  split at hscan
  case isTrue hrange =>
    cases hscan
    simp only [UInt32.toNat_ofNat']
    omega
  case isFalse => cases hscan

end Rows

section Condition

/-- The challenge a query has shown. -/
def shownChallenge : Called Reply → Option Challenge
  | ⟨.selectChallenge _, .ok found⟩ => found
  | _ => none

/-- The credential a query has shown. -/
def shownCredential : Called Reply → Option CredentialRow
  | ⟨.selectCredential _, .ok found⟩ => found
  | _ => none

/-- What a thread has read is still so when it acts on it: the challenge is stored
when the transaction deletes it and when it commits, and the credential is
unchanged when its counter is overwritten.  The counter is not at its maximum. -/
def Undisturbed (db : Database) (past : Trace) (entry : Event) : Prop :=
  match entry.step with
  | .called ⟨.deleteChallengeInTx _, _⟩ =>
      ∀ row ∈ (own entry.thread past).filterMap shownChallenge,
        row ∈ (replay effect db past).challenges.rows
  | .called ⟨.commit _, _⟩ =>
      ∀ row ∈ (own entry.thread past).filterMap shownChallenge,
        row ∈ (replay effect db past).challenges.rows
  | .called ⟨.updateSignCount _ _, _⟩ =>
      ∀ row ∈ (own entry.thread past).filterMap shownCredential,
        row ∈ (replay effect db past).credentials.rows ∧
          row.signCount ≠ 4294967295
  | _ => True

instance (db : Database) (past : Trace) (entry : Event) :
    Decidable (Undisturbed db past entry) := by
  unfold Undisturbed
  split <;> infer_instance

def Response.finished : Response → Bool
  | .registered => true
  | .authenticated => true
  | _ => false

/-- The thread's request with this challenge succeeds, and its transaction has
committed at this point. -/
def FinishedAt (history : Trace) (thread : Nat) (challengeID : String) (past : Trace) : Prop :=
  ∃ request removed answer,
    ⟨thread, request, .called ⟨.commit removed, .ok ()⟩⟩ :: past <:+ history ∧
    ⟨thread, request, .answered answer⟩ ∈ history ∧ answer.finished = true ∧
    request.challenge = some challengeID

end Condition

section Runs

variable {platform : Platform} {config : Config} {db : Database}
  {actions : Schedule}

theorem finishedAt_of_finished {thread : Nat} {request : Request} {answer : Response}
    (hanswer : ⟨thread, request, .answered answer⟩ ∈ runFrom platform config db actions)
    (hfinished : answer.finished = true) :
    ∃ challengeID past, FinishedAt (runFrom platform config db actions) thread
      challengeID past := by
  obtain ⟨past, hentry⟩ := exists_past_of_mem hanswer
  have hpast : past <:+ runFrom platform config db actions :=
    (List.suffix_cons _ _).trans hentry
  have hduty : answerDuty request answer (own thread past) :=
    owes_of_run _ past hentry
  have hconsumed : ∃ challengeID, request.challenge = some challengeID ∧
      Consumed challengeID (own thread past) := by
    cases answer with
    | registered =>
        obtain ⟨req, rfl, hconsumed⟩ := hduty
        exact ⟨req.challenge, rfl, hconsumed⟩
    | authenticated =>
        obtain ⟨req, n, before, rfl, -, hconsumed⟩ := hduty
        exact ⟨req.challenge, rfl, hconsumed⟩
    | registrationStarted _ _ _ _ | authenticationStarted _ _ _ | failed _ =>
        cases hfinished
  obtain ⟨challengeID, hchallenge, row, removed, time, hcalls⟩ := hconsumed
  obtain ⟨request', before, hcommit, -⟩ :=
    exists_entry_of_own ((List.suffix_cons _ _).trans hcalls)
  have hrequest : request' = request := (coherent_of_run _ past hentry _
    (mem_of_suffix_cons hcommit) rfl).1
  subst hrequest
  exact ⟨challengeID, before, request', removed, answer, hcommit.trans hpast,
    hanswer, hfinished, hchallenge⟩

variable (hundisturbed :
  Throughout (Undisturbed db) (runFrom platform config db actions))

include hundisturbed

/-- A transaction that commits has found its challenge and removes it. -/
theorem removes_of_commit {thread : Nat} {request : Request}
    {removed : List String} {challengeID : String} {past : Trace}
    (hentry : ⟨thread, request, .called ⟨.commit removed, .ok ()⟩⟩ :: past <:+
      runFrom platform config db actions)
    (hchallenge : request.challenge = some challengeID) :
    challengeID ∈ removed ∧
      ∃ row ∈ (replay effect db past).challenges.rows, row.id = challengeID := by
  have hpast : past <:+ runFrom platform config db actions :=
    (List.suffix_cons _ _).trans hentry
  obtain ⟨id, row, hid, hcalls⟩ : callDuty platform request (own thread past)
      ⟨.commit removed, .ok ()⟩ := owes_of_run _ past hentry
  cases hid.symm.trans hchallenge
  obtain ⟨r₁, before₁, hdelete, hown₁⟩ := exists_last_entry hcalls
  obtain ⟨r₂, before₂, hselect, -⟩ := exists_last_entry hown₁
  obtain ⟨choice, hreply⟩ := answers_of_run _ before₁ (hdelete.trans hpast) _ rfl
  obtain ⟨choice', hreply'⟩ := answers_of_run _ before₂ (hselect.trans
    (((List.suffix_cons _ _).trans hdelete).trans hpast)) _ rfl
  have hkey : row.id = challengeID := ((Table.find?_eq_some_iff _ _ _).mp
    (answer_eq_ok hreply'.symm)).2
  -- Both later steps come after the query that has shown the row.
  have hshown : ∀ calls : Past,
      ⟨.selectChallenge challengeID, .ok (some row)⟩ ∈ calls →
        row ∈ calls.filterMap shownChallenge := fun calls hmem =>
    List.mem_filterMap.mpr ⟨_, hmem, rfl⟩
  constructor
  · have hstored : row ∈ (replay effect db before₁).challenges.rows :=
      hundisturbed _ before₁ (hdelete.trans hpast) row
        (hshown _ (by rw [hown₁]; exact List.mem_cons_self))
    rw [← answer_eq_ok hreply.symm]
    exact List.mem_map.mpr ⟨row, List.mem_filter.mpr ⟨hstored, decide_eq_true hkey⟩, hkey⟩
  · refine ⟨row, hundisturbed _ past hentry row (hshown _ ?_), hkey⟩
    rw [hcalls]
    exact List.mem_cons_of_mem _ List.mem_cons_self

/-- Between two successes with one challenge the challenge is stored anew. -/
theorem stored_between {thread thread' : Nat} {challengeID : String}
    {past past' : Trace} (hne : thread ≠ thread')
    (hfinished : FinishedAt (runFrom platform config db actions) thread challengeID past)
    (hfinished' : FinishedAt (runFrom platform config db actions) thread'
      challengeID past') (hlt : past <:+ past') :
    ∃ storer request row between,
      ⟨storer, request, .called ⟨.upsertChallenge row, .ok ()⟩⟩ :: between <:+
        past' ∧ past <:+ between ∧ row.id = challengeID := by
  obtain ⟨request, removed, answer, hentry, -, -, hchallenge⟩ := hfinished
  obtain ⟨request', removed', answer', hentry', -, -, hchallenge'⟩ := hfinished'
  have hafter : ⟨thread, request, .called ⟨.commit removed, .ok ()⟩⟩ :: past <:+ past' := by
    rcases entry_trichotomy hentry hentry' with heq | hbefore | hbehind
    · cases heq
      exact absurd rfl hne
    · exact hbefore
    · exact absurd (hbehind.trans hlt).length_le (by simp)
  obtain ⟨hremoved, -⟩ := removes_of_commit hundisturbed hentry hchallenge
  obtain ⟨-, row, hrow, hid⟩ := removes_of_commit hundisturbed hentry' hchallenge'
  rcases challengeTurnover.origin_since hafter hrow with ⟨old, hold, hlater⟩ |
      ⟨⟨storer, storing, step⟩, between, first, hbetween, hstored, ⟨call, hstep, rfl⟩, hlater⟩
  · exact absurd (hlater.symm.trans hid) (id_ne_of_commit hremoved hold)
  · cases hstep
    exact ⟨storer, storing, first, between, hstored,
      (List.suffix_cons _ _).trans hbetween, hlater.symm.trans hid⟩

/-- An update raises the counter of the stored row by one. -/
theorem raises_of_update {thread : Nat} {request : Request} {id : String}
    {signCount : Int} {reply : Except DBError Nat} {past : Trace}
    (hentry : ⟨thread, request, .called ⟨.updateSignCount id signCount, reply⟩⟩ ::
      past <:+ runFrom platform config db actions) :
    ∃ row ∈ (replay effect db past).credentials.rows, row.id = id ∧
      signCount = row.signCount + 1 := by
  have hpast : past <:+ runFrom platform config db actions :=
    (List.suffix_cons _ _).trans hentry
  obtain ⟨req, row, credential, key, rest, -, rfl, rfl, hcalls, hchecked⟩ :
      callDuty platform request (own thread past)
        ⟨.updateSignCount id signCount, reply⟩ := owes_of_run _ past hentry
  obtain ⟨_, before, hselect, -⟩ := exists_last_entry hcalls
  obtain ⟨choice, hreply⟩ := answers_of_run _ before (hselect.trans hpast) _ rfl
  have hkey : row.id = req.credentialID := ((Table.find?_eq_some_iff _ _ _).mp
    (answer_eq_ok hreply.symm)).2
  obtain ⟨hstored, hmax⟩ : row ∈ (replay effect db past).credentials.rows ∧
      row.signCount ≠ 4294967295 := by
    refine hundisturbed _ past hentry row (List.mem_filterMap.mpr
      ⟨⟨.selectCredential req.credentialID, .ok (some row)⟩, ?_, rfl⟩)
    rw [hcalls]
    exact List.mem_cons_self
  refine ⟨row, hstored, hkey, ?_⟩
  have hcount := signCount_of_scan hchecked.scan
  rw [hchecked.count, toNat_add_one (by omega), hcount]
  rfl

/-- No entry lowers a counter. -/
theorem counter_step {entry : Event} {past : Trace}
    (hentry : entry :: past <:+ runFrom platform config db actions) {row : CredentialRow}
    (hrow : row ∈ (replay effect db past).credentials.rows) :
    ∃ next ∈ (replay effect db (entry :: past)).credentials.rows,
      next.id = row.id ∧ row.signCount ≤ next.signCount := by
  obtain ⟨thread, request, step⟩ := entry
  cases step with
  | answered answer => exact ⟨row, hrow, rfl, le_rfl⟩
  | called call =>
      obtain ⟨c, reply⟩ := call
      cases c with
      | clock | randomBytes _ | beginTx | selectChallenge _
      | deleteChallengeInTx _ | selectCredential _ | selectCredentials _ =>
          exact ⟨row, hrow, rfl, le_rfl⟩
      | upsertChallenge _ | commit _ =>
          rcases reply with e | ⟨⟩
          · exact ⟨row, hrow, rfl, le_rfl⟩
          · exact ⟨row, hrow, rfl, le_rfl⟩
      | insertCredential new =>
          exact ⟨row, mem_inserted_of_mem hrow, rfl, le_rfl⟩
      | updateSignCount id signCount =>
          rcases reply with e | n
          · exact ⟨row, hrow, rfl, le_rfl⟩
          · obtain ⟨read, hread, hid, hcount⟩ :=
              raises_of_update hundisturbed hentry
            refine ⟨_, List.mem_map.mpr ⟨row, hrow, rfl⟩, ?_⟩
            by_cases hsame : row.id = id
            · rw [if_pos (decide_eq_true hsame)]
              have heq : read = row := Table.row_eq_of_key_eq _ hread hrow (hid.trans hsame.symm)
              subst heq
              refine ⟨rfl, ?_⟩
              change read.signCount ≤ signCount
              omega
            · rw [if_neg (by simpa using hsame)]
              exact ⟨rfl, le_rfl⟩

theorem counter_mono {past later : Trace} (hpast : past <:+ later)
    (hlater : later <:+ runFrom platform config db actions) {row : CredentialRow}
    (hrow : row ∈ (replay effect db past).credentials.rows) :
    ∃ next ∈ (replay effect db later).credentials.rows,
      next.id = row.id ∧ row.signCount ≤ next.signCount := by
  refine suffix_induction (motive := fun later =>
    ∃ next ∈ (replay effect db later).credentials.rows,
      next.id = row.id ∧ row.signCount ≤ next.signCount) ?_ ?_ hpast hlater
  · exact ⟨row, hrow, rfl, le_rfl⟩
  · rintro entry before - hentry ⟨next, hnext, hid, hle⟩
    obtain ⟨last, hlast, hid', hle'⟩ := counter_step hundisturbed hentry hnext
    exact ⟨last, hlast, hid'.trans hid, hle.trans hle'⟩

/-- An accepted assertion ends with an update that raises the stored counter. -/
theorem raises_of_authenticated {thread : Nat} {req : AuthenticationFinish} {past : Trace}
    (hentry : ⟨thread, .finishAuthentication req, .answered .authenticated⟩ ::
      past <:+ runFrom platform config db actions) :
    ∃ (row : CredentialRow) (n : Nat) (before : Trace),
      ⟨thread, .finishAuthentication req, .called ⟨.updateSignCount
        req.credentialID req.signCount.toNat, .ok (n + 1)⟩⟩ :: before <:+ past ∧
      row ∈ (replay effect db before).credentials.rows ∧
      row.id = req.credentialID ∧ row.signCount < req.signCount.toNat := by
  have hpast : past <:+ runFrom platform config db actions :=
    (List.suffix_cons _ _).trans hentry
  obtain ⟨req', n, calls, hreq, hcalls, -⟩ :
      answerDuty (.finishAuthentication req) .authenticated (own thread past) :=
    owes_of_run _ past hentry
  cases hreq
  obtain ⟨request, before, hupdate, -⟩ := exists_last_entry hcalls
  have hrequest : request = .finishAuthentication req :=
    (coherent_of_run _ past hentry _ (mem_of_suffix_cons hupdate) rfl).1
  subst hrequest
  obtain ⟨row, hrow, hid, hcount⟩ :=
    raises_of_update hundisturbed (hupdate.trans hpast)
  exact ⟨row, n, before, hupdate, hrow, hid, by omega⟩

end Runs

/-- In a run where what was read is still there when it is replaced, each stored
challenge leads to one success: every success has committed its transaction, and
between the commits of two successes with one challenge the challenge is stored
anew.  Every accepted assertion raises the stored counter, and no counter ever
goes down. -/
theorem challenges_and_counters_linear (platform : Platform) (config : Config)
    (db : Database) (actions : Schedule) (hundisturbed :
      Throughout (Undisturbed db) (runFrom platform config db actions)) :
    (∀ thread request answer, ⟨thread, request, .answered answer⟩ ∈
        runFrom platform config db actions → answer.finished = true →
      ∃ challengeID past, FinishedAt (runFrom platform config db actions) thread challengeID past) ∧
    (∀ thread thread' challengeID past past', thread ≠ thread' →
      FinishedAt (runFrom platform config db actions) thread challengeID past →
      FinishedAt (runFrom platform config db actions) thread' challengeID past' → past <:+ past' →
      ∃ storer request row between,
        ⟨storer, request, .called ⟨.upsertChallenge row, .ok ()⟩⟩ :: between <:+
          past' ∧ past <:+ between ∧ row.id = challengeID) ∧
    (∀ thread req past,
      ⟨thread, .finishAuthentication req, .answered .authenticated⟩ :: past <:+
        runFrom platform config db actions →
      ∃ (row : CredentialRow) (n : Nat) (before : Trace),
        ⟨thread, .finishAuthentication req, .called ⟨.updateSignCount
          req.credentialID req.signCount.toNat, .ok (n + 1)⟩⟩ :: before <:+ past ∧
        row ∈ (replay effect db before).credentials.rows ∧
        row.id = req.credentialID ∧ row.signCount < req.signCount.toNat) ∧
    ∀ past later row, past <:+ later → later <:+ runFrom platform config db actions →
      row ∈ (replay effect db past).credentials.rows →
      ∃ next ∈ (replay effect db later).credentials.rows,
        next.id = row.id ∧ row.signCount ≤ next.signCount := by
  refine ⟨?_, ?_, ?_, ?_⟩
  · intro thread request answer hanswer hfinished
    exact finishedAt_of_finished hanswer hfinished
  · intro thread thread' challengeID past past' hne hfinished hfinished' hlt
    exact stored_between hundisturbed hne hfinished hfinished' hlt
  · intro thread req past hentry
    exact raises_of_authenticated hundisturbed hentry
  · intro past later row hpast hlater hrow
    exact counter_mono hundisturbed hpast hlater hrow

section Sample

/-- Two authentications with one challenge, each of which reads the challenge and
the credential before the other replaces them. -/
def racingHistory : Trace :=
  runFrom samplePlatform sampleConfig (sampleDatabase 0)
    (.start (.finishAuthentication (sampleFinish 1)) ::
      .start (.finishAuthentication (sampleFinish 1)) ::
      (steps 0 2 ++ steps 1 2 ++ steps 0 4 ++ steps 1 4 ++ steps 0 2 ++ steps 1 2))

/-- The uninterrupted authentication raises the counter. -/
theorem alone_raises : Throughout (Undisturbed (sampleDatabase 0)) (aloneHistory 0 1) ∧
    ∃ (row : CredentialRow) (n : Nat) (before : Trace),
      ⟨0, .finishAuthentication (sampleFinish 1), .called
        ⟨.updateSignCount "k1" 1, .ok (n + 1)⟩⟩ :: before <:+ aloneHistory 0 1 ∧
      row.signCount < 1 := by
  have hundisturbed : Throughout (Undisturbed (sampleDatabase 0))
      (aloneHistory 0 1) := by decide +kernel
  have hlast : ⟨0, .finishAuthentication (sampleFinish 1),
      .answered .authenticated⟩ :: (aloneHistory 0 1).tail = aloneHistory 0 1 := by
    decide +kernel
  have hentry : ⟨0, .finishAuthentication (sampleFinish 1),
      .answered .authenticated⟩ :: (aloneHistory 0 1).tail <:+ aloneHistory 0 1 := by
    rw [hlast]
  obtain ⟨row, n, before, hupdate, -, -, hcount⟩ :=
    (challenges_and_counters_linear samplePlatform sampleConfig (sampleDatabase 0)
      (.start (.finishAuthentication (sampleFinish 1)) :: steps 0 8)
      hundisturbed).2.2.1 0 (sampleFinish 1) _ hentry
  exact ⟨hundisturbed, row, n, before, hupdate.trans (List.tail_suffix _), hcount⟩

/-- Both succeed with the one challenge, which nobody has stored again, and the
same counter is accepted twice; at the maximum the counter falls to zero. -/
theorem challenge_used_twice :
    ⟨0, .finishAuthentication (sampleFinish 1), .answered .authenticated⟩ ∈ racingHistory ∧
      ⟨1, .finishAuthentication (sampleFinish 1), .answered .authenticated⟩ ∈ racingHistory ∧
      (replay effect (sampleDatabase 0) racingHistory).credentials.rows = [sampleCredential 1] ∧
      ⟨0, .finishAuthentication (sampleFinish 0), .answered .authenticated⟩ ∈
        aloneHistory 4294967295 0 ∧
      (replay effect (sampleDatabase 4294967295)
        (aloneHistory 4294967295 0)).credentials.rows = [sampleCredential 0] := by
  decide +kernel

end Sample

end Aegion.Passkey
