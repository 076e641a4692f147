/-
What the programs of the passkey service have done when they update a counter and
when they report success.
-/
import Aegion.PasskeyService
import Aegion.OAuthTables

namespace Aegion.Passkey

open Go Service History
open OAuth (Time DBError)

abbrev Past := List (Called Reply)

/-- The calls of `ConsumeChallenge` when it returns this row, newest first. -/
def consumption (challengeID : String) (row : Challenge) (removed : List String)
    (time : Time) : Past :=
  [⟨.clock, time⟩, ⟨.commit removed, .ok ()⟩,
    ⟨.deleteChallengeInTx challengeID, .ok removed⟩,
    ⟨.selectChallenge challengeID, .ok (some row)⟩, ⟨.beginTx, .ok ()⟩]

/-- The challenge a request submits. -/
def Request.challenge : Request → Option String
  | .finishRegistration req => some req.challenge
  | .finishAuthentication req => some req.challenge
  | _ => none

/-- The past begins with the consumption of this challenge. -/
def Consumed (challengeID : String) (past : Past) : Prop :=
  ∃ row removed time, consumption challengeID row removed time <:+ past

/-- What is checked before the counter is updated: the credential that was read
belongs to the identity, its counter is one less, and its key has signed. -/
structure Checked (platform : Platform) (req : AuthenticationFinish)
    (row : CredentialRow) (credential : Credential) (key : PublicKey) : Prop where
  scan : row.scan = some credential
  identity : credential.identityID = req.identityID
  count : req.signCount = credential.signCount + 1
  parsed : parseCredentialPublicKey platform credential.publicKey = some key
  verified : verifyAssertionSignature platform key req.identityID req.credentialID
    req.challenge req.signature = .ok ()

section Duties

variable (platform : Platform)

def callDuty (request : Request) (past : Past) : Called Reply → Prop
  | ⟨.updateSignCount id signCount, _⟩ => ∃ req row credential key rest,
      request = .finishAuthentication req ∧ id = req.credentialID ∧
      signCount = (req.signCount.toNat : Int) ∧
      past = ⟨.selectCredential req.credentialID, .ok (some row)⟩ :: rest ∧
      Checked platform req row credential key
  | ⟨.commit removed, _⟩ => ∃ challengeID row,
      request.challenge = some challengeID ∧
      past = [⟨.deleteChallengeInTx challengeID, .ok removed⟩,
        ⟨.selectChallenge challengeID, .ok (some row)⟩, ⟨.beginTx, .ok ()⟩]
  | _ => True

/-- A success has consumed its challenge, and an authentication ends with the
update of the counter. -/
def answerDuty (request : Request) (answer : Response) (past : Past) : Prop :=
  match answer with
  | .registered => ∃ req, request = .finishRegistration req ∧
      Consumed req.challenge past
  | .authenticated => ∃ req n before, request = .finishAuthentication req ∧
      past = ⟨.updateSignCount req.credentialID req.signCount.toNat,
        .ok (n + 1)⟩ :: before ∧ Consumed req.challenge past
  | _ => True

/-- Calls without a duty. -/
def Plain (call : Called Reply) : Prop :=
  match call.1 with
  | .updateSignCount .. => False
  | .commit _ => False
  | _ => True

end Duties

section Programs

variable {platform : Platform} {config : Config} {request : Request} {past : Past}

theorem callDuty_of_plain (past : Past) (call : Called Reply)
    (hplain : Plain call) : callDuty platform request past call := by
  obtain ⟨c, reply⟩ := call
  cases c <;> trivial

theorem Consumed.mono {challengeID : String} {later : Past}
    (hconsumed : Consumed challengeID past) (hsuffix : past <:+ later) :
    Consumed challengeID later := by
  obtain ⟨row, removed, time, hcalls⟩ := hconsumed
  exact ⟨row, removed, time, hcalls.trans hsuffix⟩

theorem yields_consumeChallenge {challengeID : String} {post : Challenge → Past → Prop}
    (hrequest : request.challenge = some challengeID) (hpost : ∀ row removed time,
      post row (consumption challengeID row removed time)) :
    (consumeChallenge challengeID).Yields (callDuty platform request) post [] := by
  unfold consumeChallenge
  simp only [bind_eq, pure_eq, yields_bind, now, yields_statement, callDuty,
    true_and, yields_rejectIf, yields_succeed]
  rintro (e | ⟨⟩) _ hbegin
  · cases hbegin
  rintro (e | _ | row) found hfound
  · cases hfound
  · cases hfound
  cases hfound
  rintro (e | removed) gone hgone
  · cases hgone
  cases hgone
  intro reply
  refine ⟨⟨challengeID, row, hrequest, rfl⟩, ?_⟩
  rcases reply with e | ⟨⟩
  · exact fun _ hvalue => (by cases hvalue)
  · intro _ _ time _ _ _
    exact hpost row removed time

theorem only_newChallenge (identityID : String) (purpose : Purpose) :
    (newChallenge config identityID purpose).Only Plain := by
  unfold newChallenge randomChallenge saveChallenge now
  simp only [bind_eq, pure_eq]
  exact only_rejectIf.bind fun _ => (only_statement fun _ => trivial).bind fun _ =>
    (only_statement fun _ => trivial).bind fun _ =>
      (only_statement fun _ => trivial).bind fun _ => only_succeed

theorem only_beginAuthentication (identityID : String) :
    (beginAuthentication config identityID).Only Plain := by
  unfold beginAuthentication listCredentialsByIdentity
  simp only [bind_eq, pure_eq]
  exact (only_newChallenge _ _).bind fun _ =>
    (only_statement fun _ => trivial).bind fun _ => only_succeed

theorem yields_finishRegistration (req : RegistrationFinish) :
    (finishRegistration platform req).Yields (callDuty platform (.finishRegistration req))
      (fun _ later => Consumed req.challenge later) [] := by
  unfold finishRegistration createCredential
  simp only [bind_eq, yields_bind, yields_rejectIf, yields_orReject]
  intro _ _ _
  refine yields_consumeChallenge rfl fun row removed time _ => ?_
  simp only [now, yields_statement, callDuty, true_and]
  intro current _ _ reply _ _
  have hcalls : Consumed req.challenge (consumption req.challenge row removed time) :=
    ⟨row, removed, time, List.suffix_rfl⟩
  exact hcalls.mono ((List.suffix_cons _ _).trans (List.suffix_cons _ _))

theorem yields_finishAuthentication (req : AuthenticationFinish) :
    (finishAuthentication platform req).Yields (callDuty platform (.finishAuthentication req))
      (fun _ later => ∃ n before,
        later = ⟨.updateSignCount req.credentialID req.signCount.toNat,
          .ok (n + 1)⟩ :: before ∧ Consumed req.challenge later) [] := by
  unfold finishAuthentication getCredential updateCredentialSignCount
  simp only [bind_eq, yields_bind, yields_rejectIf, yields_orReject, yields_ofExcept]
  intro _ _
  refine yields_consumeChallenge rfl fun challenge removed time _ => ?_
  simp only [yields_statement, callDuty, true_and]
  rintro (e | _ | row) credential hread howner hcount key hkey _ hverified
  · cases hread
  · cases hread
  · have hscan : row.scan = some credential := by
      cases hscan : row.scan <;> simp_all
    have hparsed : parseCredentialPublicKey platform credential.publicKey = some key := by
      cases hparsed : parseCredentialPublicKey platform credential.publicKey <;> simp_all
    have hchecked : Checked platform req row credential key :=
      ⟨hscan, not_not.mp howner, not_not.mp hcount, hparsed, hverified⟩
    intro reply
    refine ⟨⟨req, row, credential, key, _, rfl, rfl, rfl, rfl, hchecked⟩, ?_⟩
    rcases reply with e | _ | n
    · exact fun _ hvalue => (by cases hvalue)
    · exact fun _ hvalue => (by cases hvalue)
    · intro _ _
      have hcalls : Consumed req.challenge (consumption req.challenge challenge removed time) :=
        ⟨challenge, removed, time, List.suffix_rfl⟩
      exact ⟨n, _, rfl, hcalls.mono ((List.suffix_cons _ _).trans (List.suffix_cons _ _))⟩

theorem keeps_serve (request : Request) :
    (serve platform config request).Keeps (callDuty platform request) (answerDuty request) [] := by
  cases request with
  | beginRegistration identityID =>
      have hyields : (beginRegistration config identityID).Yields
          (callDuty platform (.beginRegistration identityID))
          (fun _ _ => True) [] :=
        (only_newChallenge _ _).yields callDuty_of_plain fun _ _ _ => trivial
      exact hyields.finish_plain
  | finishRegistration req =>
      exact (yields_finishRegistration req).finish
        (fun _ _ hconsumed => ⟨req, rfl, hconsumed⟩) fun _ _ => trivial
  | beginAuthentication identityID =>
      have hyields : (beginAuthentication config identityID).Yields
          (callDuty platform (.beginAuthentication identityID))
          (fun _ _ => True) [] :=
        (only_beginAuthentication _).yields callDuty_of_plain fun _ _ _ => trivial
      exact hyields.finish_plain
  | finishAuthentication req =>
      exact (yields_finishAuthentication req).finish
        (fun _ _ ⟨n, before, hcalls, hconsumed⟩ =>
          ⟨req, n, before, rfl, hcalls, hconsumed⟩) fun _ _ => trivial

end Programs

section Runs

variable {platform : Platform} {config : Config} {db : Database}
  {actions : Schedule}

theorem owes_of_run : Throughout (Owes (callDuty platform) answerDuty)
    (runFrom platform config db actions) :=
  (system platform config).execute_owes keeps_serve actions db

theorem answers_of_run :
    Throughout (Answers perform effect db) (runFrom platform config db actions) :=
  ((system platform config).execute_replay (fun _ _ _ => rfl) actions db).2

theorem coherent_of_run : Throughout Coherent (runFrom platform config db actions) :=
  (system platform config).execute_coherent actions db

end Runs

section Sample

/-- A platform that reads keys as they are; one signature exists, on one text. -/
def samplePlatform : Platform where
  pemDecode text := some (bytesOf text)
  parsePKIX := some
  sha256 bytes := bytes
  verifyASN1 _ digest signature :=
    digest = bytesOf (assertionMessage "u1" "k1" "ch") ∧ signature = digest
  decodeStd _ := none
  hostname _ := none

def sampleConfig : Config := ⟨"", "", 0, 0⟩

def sampleChallenge : Challenge := ⟨"ch", "u1", .authentication, 10⟩

def sampleCredential (signCount : Int) : CredentialRow :=
  ⟨"k1", "u1", "key", signCount, 0⟩

def sampleDatabase (signCount : Int) : Database :=
  ⟨⟨[sampleChallenge], by simp⟩, ⟨[sampleCredential signCount], by simp⟩⟩

def sampleChoice : Choice := ⟨0, some [], fun _ => 0, false⟩

/-- An authentication that reports this counter. -/
def sampleFinish (signCount : UInt32) : AuthenticationFinish :=
  ⟨"u1", "ch", "k1",
    Base64.encodeRawURL (bytesOf (assertionMessage "u1" "k1" "ch")), signCount⟩

/-- As many steps of one thread. -/
def steps (thread n : Nat) : Schedule :=
  List.replicate n (.step thread sampleChoice)

/-- One authentication, uninterrupted. -/
def aloneHistory (stored : Int) (sent : UInt32) : Trace :=
  runFrom samplePlatform sampleConfig (sampleDatabase stored)
    (.start (.finishAuthentication (sampleFinish sent)) :: steps 0 8)

instance (c : Call) : DecidableEq (Reply c) := by
  cases c <;> infer_instance

end Sample

end Aegion.Passkey
