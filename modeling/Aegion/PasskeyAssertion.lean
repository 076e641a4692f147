/-
What an accepted assertion says about the holder of the key.  The signed text
covers the identity, the credential and the challenge.  The counter is not part of
it: the one that is sent only has to follow the stored one.
-/
import Aegion.PasskeyConduct
import Aegion.Delimited

namespace Aegion.Passkey

open Go Service History
open OAuth (Time DBError)

/-- What a holder asserts with a signature. -/
structure Assertion where
  identityID : String
  credentialID : String
  challenge : String
  signCount : UInt32
deriving Repr, DecidableEq

def Assertion.message (a : Assertion) : String :=
  assertionMessage a.identityID a.credentialID a.challenge

def AuthenticationFinish.assertion (req : AuthenticationFinish) : Assertion :=
  ⟨req.identityID, req.credentialID, req.challenge, req.signCount⟩

/-- The two agree in all but the counter. -/
def Assertion.SameIDs (a b : Assertion) : Prop :=
  a.identityID = b.identityID ∧ a.credentialID = b.credentialID ∧
    a.challenge = b.challenge

/-- The fields stand in the signed text as they are and can be told apart. -/
structure Assertion.Plain (a : Assertion) : Prop where
  identity : trimSpace a.identityID = a.identityID ∧ ':' ∉ a.identityID.toList
  credential : trimSpace a.credentialID = a.credentialID ∧
    ':' ∉ a.credentialID.toList
  challenge : trimSpace a.challenge = a.challenge

/-- A signature that verifies was made by the holder of the key, for an assertion
with the verified text.  `signedFor` is the assertion that a signature was made
for. -/
def Unforgeable (platform : Platform)
    (signedFor : PublicKey → List UInt8 → Option Assertion) : Prop :=
  ∀ key message signature,
    platform.verifyASN1 key (platform.sha256 (bytesOf message)) signature = true →
    ∃ a, signedFor key signature = some a ∧ a.message = message

theorem Assertion.Plain.toList_message {a : Assertion} (hplain : a.Plain) :
    a.message.toList = a.identityID.toList ++
      ':' :: (a.credentialID.toList ++ ':' :: a.challenge.toList) := by
  simp only [Assertion.message, assertionMessage, hplain.identity.1,
    hplain.credential.1, hplain.challenge, String.toList_append]
  simp

theorem Assertion.Plain.sameIDs {a b : Assertion} (ha : a.Plain) (hb : b.Plain)
    (hmessage : a.message = b.message) : a.SameIDs b := by
  have hlists := congrArg String.toList hmessage
  rw [ha.toList_message, hb.toList_message,
    Delimited.append_cons_inj ha.identity.2 hb.identity.2,
    Delimited.append_cons_inj ha.credential.2 hb.credential.2] at hlists
  obtain ⟨hidentity, hcredential, hchallenge⟩ := hlists
  exact ⟨String.toList_inj.mp hidentity, String.toList_inj.mp hcredential,
    String.toList_inj.mp hchallenge⟩

theorem Assertion.eq_iff (a b : Assertion) : a = b ↔ a.SameIDs b ∧ a.signCount = b.signCount := by
  cases a
  cases b
  simp [Assertion.SameIDs, and_assoc]

/-- A signature that passes was made for an assertion with the text of the
request. -/
theorem signed_of_verified {platform : Platform}
    {signedFor : PublicKey → List UInt8 → Option Assertion}
    (hunforgeable : Unforgeable platform signedFor) {key : PublicKey} {req : AuthenticationFinish}
    (hverified : verifyAssertionSignature platform key req.identityID
      req.credentialID req.challenge req.signature = .ok ()) :
    ∃ signature a, decodeSignature platform req.signature = some signature ∧
      signedFor key signature = some a ∧
      a.message = req.assertion.message := by
  unfold verifyAssertionSignature at hverified
  split at hverified
  case h_1 => cases hverified
  case h_2 signature hdecoded =>
    dsimp only at hverified
    split at hverified
    case isTrue hvalid =>
      obtain ⟨a, hsigned, hmessage⟩ := hunforgeable key _ signature hvalid
      exact ⟨signature, a, hdecoded, hsigned, hmessage⟩
    case isFalse => cases hverified

section Runs

variable {platform : Platform} {config : Config} {db : Database}
  {actions : Schedule}

/-- What an accepted assertion was checked against. -/
theorem checked_of_authenticated {thread : Nat} {req : AuthenticationFinish} {past : Trace}
    (hentry : ⟨thread, .finishAuthentication req, .answered .authenticated⟩ ::
      past <:+ runFrom platform config db actions) :
    ∃ row credential key,
      ⟨.selectCredential req.credentialID, .ok (some row)⟩ ∈ own thread past ∧
      Checked platform req row credential key := by
  have hpast : past <:+ runFrom platform config db actions :=
    (List.suffix_cons _ _).trans hentry
  obtain ⟨req', n, calls, hreq, hcalls, -⟩ :
      answerDuty (.finishAuthentication req) .authenticated (own thread past) :=
    owes_of_run _ past hentry
  cases hreq
  obtain ⟨request, before, hupdate, hown⟩ := exists_last_entry hcalls
  have hrequest : request = .finishAuthentication req :=
    (coherent_of_run _ past hentry _ (mem_of_suffix_cons hupdate) rfl).1
  subst hrequest
  obtain ⟨req', row, credential, key, rest, hreq, -, -, hread, hchecked⟩ :
      callDuty platform (.finishAuthentication req) (own thread before)
        ⟨.updateSignCount req.credentialID req.signCount.toNat, .ok (n + 1)⟩ :=
    owes_of_run _ before (hupdate.trans hpast)
  cases hreq
  refine ⟨row, credential, key, ?_, hchecked⟩
  rw [hcalls, ← hown, hread]
  exact List.mem_cons_of_mem _ List.mem_cons_self

end Runs

/-- In every run, an accepted tuple is the one that its signature was made for
exactly if the asserted counter is the stored one plus one, and the ids are those
of the request.  Where the ids are free of separators, the latter is always so. -/
theorem assertion_signed_iff (platform : Platform) (config : Config)
    (db : Database) (actions : Schedule) (signedFor : PublicKey → List UInt8 → Option Assertion)
    (hunforgeable : Unforgeable platform signedFor) (thread : Nat)
    (req : AuthenticationFinish) (past : Trace)
    (hentry : ⟨thread, .finishAuthentication req, .answered .authenticated⟩ ::
      past <:+ runFrom platform config db actions) :
    ∃ row credential key signature a,
      ⟨.selectCredential req.credentialID, .ok (some row)⟩ ∈ own thread past ∧
      row.scan = some credential ∧
      parseCredentialPublicKey platform credential.publicKey = some key ∧
      decodeSignature platform req.signature = some signature ∧
      signedFor key signature = some a ∧
      (a = req.assertion ↔
        a.SameIDs req.assertion ∧ a.signCount = credential.signCount + 1) ∧
      (a.Plain → req.assertion.Plain → a.SameIDs req.assertion) := by
  obtain ⟨row, credential, key, hread, hchecked⟩ :=
    checked_of_authenticated hentry
  obtain ⟨signature, a, hdecoded, hsigned, hmessage⟩ :=
    signed_of_verified hunforgeable hchecked.verified
  refine ⟨row, credential, key, signature, a, hread, hchecked.scan,
    hchecked.parsed, hdecoded, hsigned, ?_, ?_⟩
  · rw [a.eq_iff, ← hchecked.count]
    rfl
  · exact fun ha hreq => ha.sameIDs hreq hmessage

section Sample

/-- The one signature was made for an assertion with this counter. -/
def sampleSignedFor (signCount : UInt32) : PublicKey → List UInt8 → Option Assertion :=
  fun _ _ => some ⟨"u1", "k1", "ch", signCount⟩

theorem unforgeable_sample (signCount : UInt32) :
    Unforgeable samplePlatform (sampleSignedFor signCount) := by
  intro key message signature hverified
  refine ⟨_, rfl, ?_⟩
  have hfields := of_decide_eq_true hverified
  exact (bytesOf_injective hfields.1).symm

/-- The holder has asserted the next counter. -/
theorem sample_signed :
    ⟨0, .finishAuthentication (sampleFinish 1), .answered .authenticated⟩ ∈ aloneHistory 0 1 ∧
      ∃ a key signature, sampleSignedFor 1 key signature = some a ∧
        a = (sampleFinish 1).assertion := by
  have hlast : ⟨0, .finishAuthentication (sampleFinish 1),
      .answered .authenticated⟩ :: (aloneHistory 0 1).tail = aloneHistory 0 1 := by
    decide +kernel
  have hentry : ⟨0, .finishAuthentication (sampleFinish 1),
      .answered .authenticated⟩ :: (aloneHistory 0 1).tail <:+ aloneHistory 0 1 := by
    rw [hlast]
  obtain ⟨row, credential, key, signature, a, -, -, -, -, hsigned, -⟩ :=
    assertion_signed_iff samplePlatform sampleConfig (sampleDatabase 0)
      (.start (.finishAuthentication (sampleFinish 1)) :: steps 0 8)
      (sampleSignedFor 1) (unforgeable_sample 1) 0 (sampleFinish 1) _ hentry
  exact ⟨mem_of_suffix_cons hentry, a, key, signature, hsigned, (Option.some.inj hsigned).symm⟩

/-- The holder has asserted counter 5 and nothing else; the request is accepted
with counter 1, and with the asserted counter it is not. -/
theorem unsigned_counter_accepted :
    Unforgeable samplePlatform (sampleSignedFor 5) ∧
      ⟨0, .finishAuthentication (sampleFinish 1), .answered .authenticated⟩ ∈ aloneHistory 0 1 ∧
      (∀ key signature a, sampleSignedFor 5 key signature = some a →
        a ≠ (sampleFinish 1).assertion) ∧
      ⟨0, .finishAuthentication (sampleFinish 5),
        .answered (.failed .signCountReplay)⟩ ∈ aloneHistory 0 5 := by
  refine ⟨unforgeable_sample 5, by decide +kernel, ?_, by decide +kernel⟩
  rintro key signature a ⟨⟩
  decide

end Sample

end Aegion.Passkey
