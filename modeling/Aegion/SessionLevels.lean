/-
The level of a session and the methods recorded for it.  A session that was created by a
second factor starts at the first level, and the next second factor lifts it to the
second one although no first factor is recorded.
-/
import Aegion.LoginConduct

namespace Aegion.Login

open Go Service

/-- The methods recorded for a session. -/
def Database.methodsOf (db : Database) (sessionID : UUID) : List AuthMethod :=
  (db.sessionMethods.filter fun row => row.sessionID = sessionID).map (·.method)

def AuthMethod.first : AuthMethod → Bool
  | .password => true
  | .magicLink => true
  | .social => true
  | .saml => true
  | .passkey => true
  | _ => false

/-- If the stored level is the second one, then methods of both kinds are recorded. -/
def TwoFactors (db : Database) (sessionID : UUID) : Prop :=
  ∀ row, db.sessions.find? sessionID = some row → row.aal = .aal2 →
    (∃ method ∈ db.methodsOf sessionID, method.first = true) ∧
      ∃ method ∈ db.methodsOf sessionID, method.second = true

/-- One call of `AddAuthMethod`, with the database it found. -/
structure Addition where
  before : Database
  method : AuthMethod
  acknowledged : Bool

/-- Calls of `AddAuthMethod` for one session, one after the other. -/
inductive Additions (sessionID : UUID) : Database → List Addition → Database → Prop
  | none (db : Database) : Additions sessionID db [] db
  | add {db after last : Database} {method : AuthMethod} {choices rest : List Choice}
      {outcome : Except ServerError Unit} {more : List Addition}
      (hrun : (addAuthMethod sessionID method).run perform choices db =
        some (outcome, after, rest))
      (hmore : Additions sessionID after more last) :
      Additions sessionID db (⟨db, method, outcome.isOk⟩ :: more) last

section Levels

theorem methodToAAL_eq_aal2_iff (method : AuthMethod) :
    methodToAAL method = .aal2 ↔ method.second = true := by
  cases method <;> simp [methodToAAL, AuthMethod.second]

theorem first_eq_false_of_second {method : AuthMethod} (hsecond : method.second = true) :
    method.first = false := by
  cases method <;> simp_all [AuthMethod.first, AuthMethod.second]

end Levels

section Step

variable {sessionID : UUID} {db after : Database} {method : AuthMethod}
  {choices rest : List Choice}

/-- The session is there, at the first level or at the second one. -/
def Levelled (db : Database) (sessionID : UUID) : Prop :=
  ∃ row, db.sessions.find? sessionID = some row ∧ row.aal ≠ .aal0

/-- A call fails and writes nothing, or records a method that the table accepts. -/
theorem addAuthMethod_cases {outcome : Except ServerError Unit}
    (hrun : (addAuthMethod sessionID method).run perform choices db = some (outcome, after, rest)) :
    outcome.isOk = false ∧ after = db ∨
      outcome.isOk = true ∧ ∃ completedAt writtenAt,
        methodToAAL method ≠ .aal0 ∧
          after = effect ⟨.addAuthMethod ⟨sessionID, method, methodToAAL method,
            completedAt⟩, .ok writtenAt⟩ db := by
  simp only [addAuthMethod, now, bind_eq, run_bind_eq_some, run_statement_eq_some] at hrun
  rcases hrun with ⟨completedAt, _, _, ⟨w, -, -, rfl⟩, w', -, houtcome, hafter⟩ |
    ⟨_, ⟨w, -, herror, -⟩, -⟩
  · change acknowledged (reply w' db (.addAuthMethod _)) = outcome at houtcome
    change effect ⟨_, reply w' db _⟩ db = after at hafter
    cases hreply : reply w' db (.addAuthMethod
        ⟨sessionID, method, methodToAAL method, completedAt⟩) with
    | error e =>
        rw [hreply] at houtcome hafter
        exact .inl ⟨houtcome ▸ rfl, hafter.symm⟩
    | ok writtenAt =>
        rw [hreply] at houtcome hafter
        refine .inr ⟨houtcome ▸ rfl, completedAt, writtenAt, ?_, hafter.symm⟩
        intro hlevel
        change checked w' _ _ = _ at hreply
        simp [checked, SessionMethod.storable, hlevel] at hreply
  · cases herror

theorem methodsOf_added (completedAt writtenAt : OAuth.Time) :
    (effect ⟨.addAuthMethod ⟨sessionID, method, methodToAAL method, completedAt⟩,
      .ok writtenAt⟩ db).methodsOf sessionID = db.methodsOf sessionID ++ [method] := by
  simp [effect, Database.methodsOf, List.filter_append]

theorem find?_added {row : SessionRow} (hrow : db.sessions.find? sessionID = some row)
    (completedAt writtenAt : OAuth.Time) :
    ∃ row', (effect ⟨.addAuthMethod ⟨sessionID, method, methodToAAL method, completedAt⟩,
        .ok writtenAt⟩ db).sessions.find? sessionID = some row' ∧
      row'.aal = computeAAL row.aal (methodToAAL method) := by
  obtain ⟨hmem, hid⟩ := (Table.find?_eq_some_iff _ _ _).mp hrow
  refine ⟨row.assignAAL ⟨sessionID, method, methodToAAL method, completedAt⟩ writtenAt,
    (Table.find?_eq_some_iff _ _ _).mpr ⟨?_, ?_⟩, ?_⟩
  · refine List.mem_map.mpr ⟨row, hmem, ?_⟩
    rw [if_pos (by simpa using hid)]
  · rw [SessionRow.id_assignAAL, hid]
  · unfold SessionRow.assignAAL
    split
    · rfl
    · rename_i hsame
      exact (not_not.mp hsame).symm

theorem aal_of_second {current : AAL} (hcurrent : current ≠ .aal0)
    (hsecond : method.second = true) : computeAAL current (methodToAAL method) = .aal2 := by
  rw [(methodToAAL_eq_aal2_iff method).mpr hsecond]
  cases current with
  | aal0 => exact absurd rfl hcurrent
  | aal1 => rfl
  | aal2 => rfl

theorem second_of_aal {current : AAL} (hcurrent : current ≠ .aal2)
    (haal : computeAAL current (methodToAAL method) = .aal2) : method.second = true := by
  rw [← methodToAAL_eq_aal2_iff]
  unfold computeAAL at haal
  split at haal
  · rename_i hboth
    exact hboth.2
  · split at haal
    · exact haal
    · exact absurd haal hcurrent

theorem computeAAL_ne_aal0 {current contrib : AAL} (hcurrent : current ≠ .aal0) :
    computeAAL current contrib ≠ .aal0 := by
  unfold computeAAL
  split
  · decide
  · exact hcurrent

end Step

section Runs

variable {sessionID : UUID} {db after last : Database} {steps : List Addition}

/-- A first factor is recorded before a second one is added. -/
def FirstBefore (sessionID : UUID) (steps : List Addition) : Prop :=
  ∀ step ∈ steps, step.acknowledged = true → step.method.second = true →
    ∃ method ∈ step.before.methodsOf sessionID, method.first = true

/-- The level is right at every point of the run. -/
def AlwaysTwoFactors (sessionID : UUID) (steps : List Addition) (last : Database) : Prop :=
  (∀ step ∈ steps, TwoFactors step.before sessionID) ∧ TwoFactors last sessionID

theorem AlwaysTwoFactors.start (hadds : Additions sessionID db steps last)
    (halways : AlwaysTwoFactors sessionID steps last) : TwoFactors db sessionID := by
  cases hadds with
  | none => exact halways.2
  | add hrun hmore => exact halways.1 _ List.mem_cons_self

theorem Levelled.add {method : AuthMethod} {choices rest : List Choice}
    {outcome : Except ServerError Unit} (hlevel : Levelled db sessionID)
    (hrun : (addAuthMethod sessionID method).run perform choices db =
      some (outcome, after, rest)) : Levelled after sessionID := by
  obtain ⟨row, hrow, haal⟩ := hlevel
  rcases addAuthMethod_cases hrun with ⟨-, rfl⟩ | ⟨-, completedAt, writtenAt, -, rfl⟩
  · exact ⟨row, hrow, haal⟩
  · obtain ⟨row', hrow', haal'⟩ := find?_added hrow completedAt writtenAt
    exact ⟨row', hrow', haal' ▸ computeAAL_ne_aal0 haal⟩

/-- One call keeps the level right exactly if a first factor is recorded before an
acknowledged second one. -/
theorem twoFactors_add_iff {method : AuthMethod} {choices rest : List Choice}
    {outcome : Except ServerError Unit} (hlevel : Levelled db sessionID)
    (htwo : TwoFactors db sessionID)
    (hrun : (addAuthMethod sessionID method).run perform choices db = some (outcome, after, rest)) :
    TwoFactors after sessionID ↔
      (outcome.isOk = true → method.second = true →
        ∃ method ∈ db.methodsOf sessionID, method.first = true) := by
  obtain ⟨row, hrow, haal⟩ := hlevel
  rcases addAuthMethod_cases hrun with ⟨hfailed, rfl⟩ | ⟨hdone, completedAt, writtenAt, -, rfl⟩
  · simp only [hfailed, htwo, Bool.false_eq_true, false_imp_iff]
  · obtain ⟨row', hrow', haal'⟩ := find?_added hrow completedAt writtenAt
    unfold TwoFactors
    rw [methodsOf_added]
    constructor
    · intro hafter _ hsecond
      obtain ⟨⟨found, hfound, hfirst⟩, -⟩ := hafter row' hrow'
        (haal'.trans (aal_of_second haal hsecond))
      rcases List.mem_append.mp hfound with hold | hnew
      · exact ⟨found, hold, hfirst⟩
      · rw [List.mem_singleton.mp hnew, first_eq_false_of_second hsecond] at hfirst
        cases hfirst
    · intro hbefore found hfound haal2
      cases hrow'.symm.trans hfound
      by_cases hold : row.aal = .aal2
      · obtain ⟨⟨m, hm, hfirst⟩, m', hm', hsecond⟩ := htwo row hrow hold
        exact ⟨⟨m, List.mem_append_left _ hm, hfirst⟩, m', List.mem_append_left _ hm', hsecond⟩
      · have hsecond := second_of_aal hold (haal'.symm.trans haal2)
        obtain ⟨m, hm, hfirst⟩ := hbefore hdone hsecond
        exact ⟨⟨m, List.mem_append_left _ hm, hfirst⟩,
          method, List.mem_append_right _ List.mem_cons_self, hsecond⟩

theorem alwaysTwoFactors_iff (hadds : Additions sessionID db steps last)
    (hlevel : Levelled db sessionID) (htwo : TwoFactors db sessionID) :
    AlwaysTwoFactors sessionID steps last ↔ FirstBefore sessionID steps := by
  induction hadds with
  | none db =>
      exact ⟨fun _ step hstep => absurd hstep List.not_mem_nil,
        fun _ => ⟨fun step hstep => absurd hstep List.not_mem_nil, htwo⟩⟩
  | add hrun hmore ih =>
      have hstep := twoFactors_add_iff hlevel htwo hrun
      unfold FirstBefore AlwaysTwoFactors at *
      rw [List.forall_mem_cons, List.forall_mem_cons]
      constructor
      · rintro ⟨⟨-, hbefore⟩, hlast⟩
        have hafter := AlwaysTwoFactors.start hmore ⟨hbefore, hlast⟩
        exact ⟨hstep.mp hafter, (ih (hlevel.add hrun) hafter).mp ⟨hbefore, hlast⟩⟩
      · rintro ⟨hfirst, hothers⟩
        obtain ⟨hbefore, hlast⟩ :=
          (ih (hlevel.add hrun) (hstep.mpr hfirst)).mpr hothers
        exact ⟨⟨htwo, hbefore⟩, hlast⟩

end Runs

section Creation

variable {platform : Platform} {cfg : Config} {identityID : UUID} {method : AuthMethod}
  {choices rest : List Choice} {db after : Database} {session : Session}

theorem find?_insertSession {w : Choice} {row : SessionRow} {value : Unit}
    (hinsert : acknowledged (perform w (.insertSession row) db).1 = .ok value) :
    (perform w (.insertSession row) db).2.sessions.find? row.id = some row := by
  change acknowledged (reply w db (.insertSession row)) = _ at hinsert
  change (effect ⟨_, reply w db _⟩ db).sessions.find? row.id = _
  cases hreply : reply w db (.insertSession row) with
  | error e =>
      rw [hreply] at hinsert
      cases hinsert
  | ok done =>
      change checked w _ _ = _ at hreply
      change ((db.sessions.insert? row).getD db.sessions).find? row.id = _
      cases hnext : db.sessions.insert? row with
      | none => simp [checked, hnext] at hreply
      | some next =>
          have hrows := ((Table.insert?_eq_some_iff _ _ _).mp hnext).2
          refine (Table.find?_eq_some_iff _ _ _).mpr ⟨?_, rfl⟩
          rw [Option.getD_some, hrows]
          exact List.mem_append_right _ List.mem_cons_self

theorem storable_of_insertSessionMethod {w : Choice} {row : SessionMethod} {value : Unit}
    (hinsert : acknowledged (perform w (.insertSessionMethod row) db).1 = .ok value) :
    row.storable = true ∧
      (perform w (.insertSessionMethod row) db).2.sessions = db.sessions := by
  change acknowledged (reply w db (.insertSessionMethod row)) = _ at hinsert
  change _ ∧ (effect ⟨_, reply w db _⟩ db).sessions = _
  cases hreply : reply w db (.insertSessionMethod row) with
  | error e =>
      rw [hreply] at hinsert
      cases hinsert
  | ok done =>
      change checked w _ _ = _ at hreply
      cases hstorable : row.storable with
      | false => simp [checked, hstorable] at hreply
      | true => exact ⟨rfl, rfl⟩

/-- A new session is at the first level, since its method is one that is recorded. -/
theorem aal_of_created (hrun : (create platform cfg identityID method).run perform choices db =
      some (.ok session, after, rest)) :
    ∃ row, after.sessions.find? session.id = some row ∧ row.aal = .aal1 := by
  simp only [create, now, randomToken, newUUID, bind_eq, pure_eq, run_bind_eq_ok,
    run_statement_eq_some] at hrun
  obtain ⟨current, _, _, ⟨_, -, -, rfl⟩, token, _, _, ⟨_, -, -, rfl⟩, logout, _, _,
    ⟨_, -, -, rfl⟩, id, _, _, ⟨_, -, -, rfl⟩, _, _, _, ⟨_, -, hinsert, rfl⟩, _, _, _,
    ⟨_, -, hmethod, rfl⟩, hdone⟩ := hrun
  obtain ⟨hstorable, hsame⟩ := storable_of_insertSessionMethod hmethod
  rw [run_succeed] at hdone
  cases hdone
  refine ⟨_, (congrArg (Table.find? · _) hsame).trans (find?_insertSession hinsert), ?_⟩
  simp only [SessionMethod.storable, Bool.or_eq_true, decide_eq_true_eq] at hstorable
  dsimp only
  split
  · rfl
  · rename_i hfirst
    exact hstorable.resolve_right hfirst

end Creation

/-- After `Create` the level of the session is right at every point of every sequence of
calls exactly if a first factor is recorded before each second one that is added. -/
theorem second_level_iff_first_recorded (platform : Platform) (cfg : Config)
    (identityID : UUID) (method : AuthMethod) (choices rest : List Choice)
    (db created last : Database) (session : Session) (steps : List Addition)
    (hcreate : (create platform cfg identityID method).run perform choices db =
      some (.ok session, created, rest))
    (hadds : Additions session.id created steps last) :
    AlwaysTwoFactors session.id steps last ↔ FirstBefore session.id steps := by
  obtain ⟨row, hrow, haal⟩ := aal_of_created hcreate
  refine alwaysTwoFactors_iff hadds ⟨row, hrow, by rw [haal]; decide⟩ ?_
  intro found hfound hsecond
  cases hrow.symm.trans hfound
  rw [haal] at hsecond
  cases hsecond

section Sample

/-- A session by one method and another method for it, all acknowledged. -/
def twoMethods (m0 m1 : AuthMethod) : Option (Session × Database × Database) :=
  match (create samplePlatform sampleConfig 1 m0).run perform
      (List.replicate 6 (sampleChoice 2 [])) sampleDatabase with
  | some (.ok session, created, _) =>
      match (addAuthMethod session.id m1).run perform
          (List.replicate 2 (sampleChoice 2 [])) created with
      | some (.ok _, last, _) => some (session, created, last)
      | _ => none
  | _ => none

theorem runs_of_twoMethods {m0 m1 : AuthMethod} {session : Session}
    {created last : Database} (hrun : twoMethods m0 m1 = some (session, created, last)) :
    ∃ rest, (create samplePlatform sampleConfig 1 m0).run perform
        (List.replicate 6 (sampleChoice 2 [])) sampleDatabase = some (.ok session, created, rest) ∧
      Additions session.id created [⟨created, m1, true⟩] last := by
  unfold twoMethods at hrun
  split at hrun
  · rename_i hcreate
    split at hrun
    · rename_i hadd
      cases hrun
      exact ⟨_, hcreate, .add hadd (.none last)⟩
    · cases hrun
  · cases hrun

/-- A one-time password after a password. -/
theorem password_then_totp :
    ∃ session created last, twoMethods .password .totp = some (session, created, last) ∧
      AlwaysTwoFactors session.id [⟨created, .totp, true⟩] last := by
  have htest : (twoMethods .password .totp).any fun (session, created, _) =>
      created.methodsOf session.id = [.password] := by
    decide +kernel
  obtain ⟨⟨session, created, last⟩, hrun, hmethods⟩ := (Option.any_eq_true _ _).mp htest
  obtain ⟨rest, hcreate, hadds⟩ := runs_of_twoMethods hrun
  refine ⟨session, created, last, hrun,
    (second_level_iff_first_recorded samplePlatform sampleConfig 1 .password _ rest
      sampleDatabase created last session _ hcreate hadds).mpr ?_⟩
  intro step hstep _ _
  rw [List.mem_singleton.mp hstep]
  refine ⟨.password, ?_, rfl⟩
  rw [of_decide_eq_true hmethods]
  exact List.mem_cons_self

/-- Two one-time passwords make a session of the second level. -/
theorem totp_twice_is_second_level :
    ∃ session created last rest,
      (create samplePlatform sampleConfig 1 .totp).run perform
        (List.replicate 6 (sampleChoice 2 [])) sampleDatabase = some (.ok session, created, rest) ∧
      Additions session.id created [⟨created, .totp, true⟩] last ∧
      last.methodsOf session.id = [.totp, .totp] ∧ ¬ TwoFactors last session.id := by
  have htest : (twoMethods .totp .totp).any fun (session, _, last) =>
      (last.sessions.find? session.id).any (·.aal = .aal2) ∧
        last.methodsOf session.id = [.totp, .totp] := by
    decide +kernel
  obtain ⟨⟨session, created, last⟩, hrun, hlast⟩ := (Option.any_eq_true _ _).mp htest
  obtain ⟨rest, hcreate, hadds⟩ := runs_of_twoMethods hrun
  simp only [decide_eq_true_eq, Option.any_eq_true] at hlast
  obtain ⟨⟨row, hrow, haal⟩, hmethods⟩ := hlast
  refine ⟨session, created, last, rest, hcreate, hadds, hmethods, fun htwo => ?_⟩
  obtain ⟨⟨method, hmethod, hfirst⟩, -⟩ := htwo row hrow haal
  rw [hmethods] at hmethod
  simp only [List.mem_cons, List.not_mem_nil, or_false, or_self] at hmethod
  rw [hmethod] at hfirst
  cases hfirst

end Sample

end Aegion.Login
