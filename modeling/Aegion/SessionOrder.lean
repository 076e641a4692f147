/-
The level of a session and the order of its methods.  Whatever method creates a session, it
starts at the first level, so a second factor counts only if it is not the first method.
-/
import Aegion.SessionLevels

namespace Aegion.Login

open Go Service

/-- The level stored for a session. -/
def Database.levelOf (db : Database) (sessionID : UUID) : Option AAL :=
  (db.sessions.find? sessionID).map (·.aal)

/-- The calls all succeeded, but for methods that the table does not take. -/
def Answered (steps : List Addition) : Prop :=
  ∀ step ∈ steps, step.acknowledged = true ∨ methodToAAL step.method = .aal0

/-- A session created with the first of the methods and extended with the others can end
with this level. -/
def EndsAt (platform : Platform) (cfg : Config) : List AuthMethod → AAL → Prop
  | [], _ => False
  | method :: methods, level =>
      ∃ identityID choices db session created rest steps last,
        (create platform cfg identityID method).run perform choices db =
            some (.ok session, created, rest) ∧
          Additions session.id created steps last ∧
          steps.map (·.method) = methods ∧ Answered steps ∧
          last.levelOf session.id = some level

section Levels

variable {sessionID : UUID} {db after last : Database} {method : AuthMethod} {aal : AAL}

/-- A recorded method that is no second factor leaves the level alone. -/
theorem computeAAL_of_not_second (haal : aal ≠ .aal0) (hsecond : method.second = false) :
    computeAAL aal (methodToAAL method) = aal := by
  have hne : methodToAAL method ≠ .aal2 := by
    rw [Ne, methodToAAL_eq_aal2_iff, hsecond]
    exact Bool.false_ne_true
  rw [computeAAL, if_neg fun hboth => hne hboth.2, if_neg haal]

theorem levelOf_add {choices rest : List Choice} {outcome : Except ServerError Unit}
    (haal : aal ≠ .aal0) (hlevel : db.levelOf sessionID = some aal)
    (hrun : (addAuthMethod sessionID method).run perform choices db =
      some (outcome, after, rest))
    (hanswered : outcome.isOk = true ∨ methodToAAL method = .aal0) :
    after.levelOf sessionID = some (if method.second then .aal2 else aal) := by
  obtain ⟨row, hrow, rfl⟩ := Option.map_eq_some_iff.mp hlevel
  rcases addAuthMethod_cases hrun with ⟨hfailed, rfl⟩ | ⟨-, completedAt, writtenAt, -, rfl⟩
  · have hnone : method.second = false := by
      rw [Bool.eq_false_iff, Ne, ← methodToAAL_eq_aal2_iff,
        hanswered.resolve_left (by simp [hfailed])]
      decide
    rw [hlevel, hnone, if_neg Bool.false_ne_true]
  · obtain ⟨row', hrow', haal'⟩ := @find?_added _ _ method _ hrow completedAt writtenAt
    rw [Database.levelOf, hrow', Option.map_some, haal']
    cases hsecond : method.second with
    | true => rw [aal_of_second haal hsecond, if_pos rfl]
    | false => rw [computeAAL_of_not_second haal hsecond, if_neg Bool.false_ne_true]

/-- The level after a run of calls: the second one if a second factor is among them. -/
theorem levelOf_additions {steps : List Addition}
    (hadds : Additions sessionID db steps last) (hanswered : Answered steps)
    (haal : aal ≠ .aal0) (hlevel : db.levelOf sessionID = some aal) :
    last.levelOf sessionID =
      some (if (steps.map (·.method)).any AuthMethod.second then .aal2 else aal) := by
  induction hadds generalizing aal with
  | none db => exact hlevel
  | add hrun hmore ih =>
      have hstep := levelOf_add haal hlevel hrun (hanswered _ List.mem_cons_self)
      have hrest := ih (fun step hstep => hanswered step (List.mem_cons_of_mem _ hstep))
        (by split <;> simp [haal]) hstep
      rw [hrest, List.map_cons, List.any_cons]
      congr 1
      grind

end Levels

/-- The level depends on the methods after the first one only. -/
theorem EndsAt.level_eq {platform : Platform} {cfg : Config} {method : AuthMethod}
    {methods : List AuthMethod} {level : AAL}
    (hends : EndsAt platform cfg (method :: methods) level) :
    level = if methods.any AuthMethod.second then .aal2 else .aal1 := by
  obtain ⟨_, _, _, session, created, _, steps, last, hcreate, hadds, rfl, hanswered,
    hlevel⟩ := hends
  obtain ⟨row, hrow, haal⟩ := aal_of_created hcreate
  have hcreated : created.levelOf session.id = some .aal1 := by
    rw [Database.levelOf, hrow, Option.map_some, haal]
  rw [levelOf_additions hadds hanswered (by decide) hcreated] at hlevel
  exact (Option.some.inj hlevel).symm

theorem levels_eq_iff {p q : Prop} [Decidable p] [Decidable q] :
    (if p then AAL.aal2 else .aal1) = (if q then .aal2 else .aal1) ↔ (p ↔ q) := by
  by_cases hp : p <;> by_cases hq : q <;> simp [hp, hq]

theorem pos_iff_pos_iff {n n' : Nat} {x x' : Bool}
    (hcount : n + (if x = true then 1 else 0) = n' + if x' = true then 1 else 0) :
    (0 < n ↔ 0 < n') ↔ ¬ (n + (if x = true then 1 else 0) = 1 ∧ x ≠ x') := by
  cases x <;> cases x' <;> simp at hcount ⊢ <;> omega

/-- Two orders of the same methods end with the same level exactly if there is not a
single second factor among them that comes first in one order only. -/
theorem same_level_iff (platform : Platform) (cfg : Config)
    (left right : List AuthMethod) (hperm : left.Perm right) (l r : AAL)
    (hleft : EndsAt platform cfg left l) (hright : EndsAt platform cfg right r) :
    l = r ↔ ¬ (left.countP AuthMethod.second = 1 ∧
      left.head?.any AuthMethod.second ≠ right.head?.any AuthMethod.second) := by
  cases left with
  | nil => exact hleft.elim
  | cons m ms =>
      cases right with
      | nil => exact hright.elim
      | cons m' ms' =>
          have hcount := hperm.countP_eq AuthMethod.second
          have hany : ∀ methods : List AuthMethod,
              methods.any AuthMethod.second = decide (0 < methods.countP AuthMethod.second) := by
            intro methods
            rw [Bool.eq_iff_iff, List.any_eq_true, decide_eq_true_eq, List.countP_pos_iff]
          rw [hleft.level_eq, hright.level_eq, hany, hany, levels_eq_iff]
          simp only [List.countP_cons, decide_eq_true_eq, List.head?_cons,
            Option.any_some] at hcount ⊢
          exact pos_iff_pos_iff hcount

section Sample

theorem endsAt_of_twoMethods {m0 m1 : AuthMethod} {session : Session}
    {created last : Database} (hrun : twoMethods m0 m1 = some (session, created, last)) :
    EndsAt samplePlatform sampleConfig [m0, m1] (if m1.second then .aal2 else .aal1) := by
  obtain ⟨rest, hcreate, hadds⟩ := runs_of_twoMethods hrun
  obtain ⟨row, hrow, haal⟩ := aal_of_created hcreate
  have hanswered : Answered [⟨created, m1, true⟩] := by
    intro step hstep
    rw [List.mem_singleton.mp hstep]
    exact .inl rfl
  refine ⟨_, _, _, _, _, _, _, _, hcreate, hadds, rfl, hanswered, ?_⟩
  rw [levelOf_additions hadds hanswered (by decide)
    (show created.levelOf session.id = some .aal1 by
      rw [Database.levelOf, hrow, Option.map_some, haal])]
  simp

theorem twoMethods_isSome :
    (twoMethods .totp .sms).isSome ∧ (twoMethods .sms .totp).isSome ∧
      (twoMethods .totp .password).isSome ∧ (twoMethods .password .totp).isSome := by
  decide +kernel

/-- Two second factors in either order. -/
theorem two_second_factors_commute :
    ∃ l r, EndsAt samplePlatform sampleConfig [.totp, .sms] l ∧
      EndsAt samplePlatform sampleConfig [.sms, .totp] r ∧ l = r := by
  obtain ⟨_, hleft⟩ := Option.isSome_iff_exists.mp twoMethods_isSome.1
  obtain ⟨_, hright⟩ := Option.isSome_iff_exists.mp twoMethods_isSome.2.1
  refine ⟨_, _, endsAt_of_twoMethods hleft, endsAt_of_twoMethods hright, ?_⟩
  exact (same_level_iff samplePlatform sampleConfig [.totp, .sms] [.sms, .totp]
    (List.Perm.swap _ _ _) _ _ (endsAt_of_twoMethods hleft)
    (endsAt_of_twoMethods hright)).mpr (by decide)

/-- A password after a one-time password leaves the session at the first level. -/
theorem password_and_totp_differ :
    [AuthMethod.totp, .password].Perm [.password, .totp] ∧
      EndsAt samplePlatform sampleConfig [.totp, .password] .aal1 ∧
      EndsAt samplePlatform sampleConfig [.password, .totp] .aal2 := by
  obtain ⟨_, hleft⟩ := Option.isSome_iff_exists.mp twoMethods_isSome.2.2.1
  obtain ⟨_, hright⟩ := Option.isSome_iff_exists.mp twoMethods_isSome.2.2.2
  exact ⟨List.Perm.swap _ _ _, endsAt_of_twoMethods hleft, endsAt_of_twoMethods hright⟩

end Sample

end Aegion.Login
