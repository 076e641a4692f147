/-
Whether a new session belongs to an active identity.  A login that shows a first
factor asks for it; the submission of a second factor does not, and takes the
identity from the flow as it finds it.
-/
import Aegion.SecondFactorRequired

namespace Aegion.Login

open Go Service History

/-- What `identityIsActive` answers on these tables. -/
def Active (db : Database) (identityID : UUID) : Prop :=
  identityID ≠ 0 ∧ db.identityActive identityID = true

instance (db : Database) (identityID : UUID) : Decidable (Active db identityID) := by
  unfold Active
  infer_instance

/-- A submission that begins by reading a flow finds the identity that waits in
it active. -/
def ResumesActive (platform : Platform) (db : Database) (past : Trace) (entry : Event) : Prop :=
  match entry with
  | ⟨thread, .submitLogin _ _, .called ⟨.selectFlow id, _⟩⟩ =>
      own thread past = [] →
        ∀ flow ∈ (replay effect db past).flows.rows, flow.id = id →
          ∀ pending ∈ pendingMFALogin platform flow,
            Active (replay effect db past) pending.1
  | _ => True

instance (platform : Platform) (db : Database) (past : Trace)
    (entry : Event) : Decidable (ResumesActive platform db past entry) := by
  unfold ResumesActive
  split <;> infer_instance

theorem active_of_selectIdentityActive {choice : Choice} {db : Database} {identityID : UUID}
    (hreply : .ok true = reply choice db (.selectIdentityActive identityID)) :
    db.identityActive identityID = true := by
  simp only [reply, answer] at hreply
  split at hreply
  · cases hreply
  · exact (Except.ok.inj hreply).symm

/-- Where no submission resumes the login of an identity that is not active, the
identity of every session was active at some point of the request. -/
theorem session_of_active_identity (platform : Platform) (cfg : Config)
    (db : Database) (actions : Schedule)
    (hresumes : Throughout (ResumesActive platform db) (runFrom platform cfg db actions))
    (thread : Nat) (request : Request) (row : SessionRow) (past : Trace)
    (hcreated : ⟨thread, request, .called ⟨.insertSession row, .ok ()⟩⟩ :: past <:+
      runFrom platform cfg db actions) :
    ∃ step before, (⟨thread, request, step⟩ : Event) ::
      before <:+ past ∧ Active (replay effect db before) row.identityID := by
  obtain ⟨-, hgranted⟩ := owes_of_run _ past hcreated
  have hpast := (List.suffix_cons _ _).trans hcreated
  have hserves : ∀ {request' call before},
      (⟨thread, request', .called call⟩ : Event) :: before <:+
        past → request' = request := fun hbefore =>
    (coherent_of_run _ past hcreated _ (mem_of_suffix_cons hbefore) rfl).1
  cases hgranted with
  | primary _ hactive _ =>
      obtain ⟨hnil, hchecked⟩ := hactive
      obtain ⟨request', before, hbefore⟩ := exists_point_of_own hchecked
      obtain ⟨choice, hreply⟩ := answers_of_run _ before (hbefore.trans hpast) _ rfl
      obtain rfl := hserves hbefore
      exact ⟨_, before, hbefore, hnil, active_of_selectIdentityActive hreply⟩
  | pending hsubmits hread hwaits _ =>
      obtain ⟨request', before, hbefore, hfirst⟩ := exists_entry_of_own hread
      obtain ⟨choice, hreply⟩ := answers_of_run _ before (hbefore.trans hpast) _ rfl
      obtain ⟨hmem, hid⟩ := mem_of_selectFlow hreply
      obtain rfl := hserves hbefore
      subst hsubmits
      have hactive := hresumes _ before (hbefore.trans hpast) hfirst _ hmem hid _ hwaits
      exact ⟨_, before, hbefore, hactive⟩

section Sample

theorem active_when_resumed :
    ∃ step before, (⟨1, submitCode, step⟩ : Event) ::
      before <:+ runOfTwo.tail ∧ Active (replay effect sampleDatabase before) 1 := by
  have hrun : runOfTwo = ⟨1, submitCode,
        .called ⟨.insertSession sampleSession, .ok ()⟩⟩ :: runOfTwo.tail ∧
      Throughout (ResumesActive samplePlatform sampleDatabase) runOfTwo := by
    decide +kernel
  obtain ⟨hlast, hresumes⟩ := hrun
  refine session_of_active_identity samplePlatform sampleConfig sampleDatabase
    twoSubmissions hresumes 1 submitCode sampleSession runOfTwo.tail ?_
  rw [← hlast]
  exact List.suffix_rfl

/-- The identity is banned between the password and the code. -/
def bannedBetween : Schedule :=
  Action.start submitPassword ::
    List.replicate 7 (.step 0 (sampleChoice 2 [])) ++
  Action.start (Request.updateIdentity 1 .banned) ::
    List.replicate 2 (.step 1 (sampleChoice 2 [])) ++
  Action.start submitCode ::
    List.replicate 10 (.step 2 (sampleChoice 2 [1]))

def runOfBanned : Trace :=
  runFrom samplePlatform sampleConfig sampleDatabase bannedBetween

/-- The code still buys a session, and the identity is active at no point of the
request that creates it. -/
theorem banned_identity_gets_session :
    ⟨2, submitCode, .called ⟨.insertSession sampleSession, .ok ()⟩⟩ ∈ runOfBanned ∧
      Throughout (fun past entry => entry.thread = 2 →
        ¬ Active (replay effect sampleDatabase past) 1) runOfBanned := by
  decide +kernel

end Sample

end Aegion.Login
