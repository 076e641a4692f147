/-
Operators that change and delete each other.  `UpdateOperator` and `DeleteOperator` check
the roles of actor and target in rows that they have read before; the write does not look
at them again.  If the roles read are still those stored, a super admin remains.
-/
import Aegion.AdminEscalation
import Aegion.CallEmbedding

namespace Aegion.Admin

open Go Service History
open OAuth (Time DBError)

section Model

/-- The calls of the admin service, and the one that only `DeleteOperator` makes. -/
inductive RosterCall where
  | admin (c : Call)
  | deleteOperator (id : UUID)

/-- A reply of the other calls comes with what the environment has chosen. -/
abbrev RosterReply : RosterCall → Type
  | .admin c => Reply c × Choice
  | .deleteOperator _ => Except DBError Nat

def adminCalls : Embedding Reply RosterReply where
  lift := .admin
  back _ reply := reply.1
  view
    | ⟨.admin c, reply⟩ => some ⟨c, reply.1⟩
    | ⟨.deleteOperator _, _⟩ => none
  view_lift _ _ := rfl

/-- `DELETE FROM adm_operators WHERE id = $1`. -/
def Database.deleteOperator (db : Database) (id : UUID) : Database :=
  { db with operators := db.operators.deleteWhere (·.id = id) }

def performRoster (choice : Choice) : (c : RosterCall) → Database → RosterReply c × Database
  | .admin c, db => (((perform choice c db).1, choice), (perform choice c db).2)
  | .deleteOperator id, db =>
      if choice.fails then (.error .failed, db)
      else (.ok (db.operators.affected (·.id = id)), db.deleteOperator id)

def rosterEffect (call : Called RosterReply) (db : Database) : Database :=
  match call with
  | ⟨.admin c, (_, choice)⟩ => (perform choice c db).2
  | ⟨.deleteOperator id, .ok _⟩ => db.deleteOperator id
  | ⟨.deleteOperator _, .error _⟩ => db

def permOperatorsDelete : String := "operators:delete"

inductive RemovalError where
  | selfDeletion
  | admin (e : AdminError)
deriving Repr, DecidableEq

def storeDeleteOperator (id : UUID) : Service RosterReply StoreError Unit :=
  statement (.deleteOperator id) fun
    | .ok 0 => .error .operatorNotFound
    | .ok (_ + 1) => .ok ()
    | .error _ => .error .database

def deleteOperator (actorID operatorID : UUID) : Service RosterReply RemovalError Unit := do
  rejectIf (actorID = operatorID) .selfDeletion
  ((evaluateCapability actorID permOperatorsDelete).embed adminCalls).orReject .admin
  let op ← ((getOperator operatorID).embed adminCalls).orReject fun e => .admin (.store e)
  ((when (op.role = "super_admin") (requireSuperAdmin actorID)).embed adminCalls).orReject
    .admin
  (storeDeleteOperator operatorID).orReject fun e => .admin (.store e)
  ((logAction actorID "delete" "operator" operatorID).embed adminCalls).orReject .admin

inductive RosterRequest where
  | updateOperator (actorID operatorID : UUID) (role : String)
      (permissions : Option Overrides)
  | deleteOperator (actorID operatorID : UUID)

inductive RosterResponse where
  | updated (op : Operator)
  | deleted
  | refused (e : RemovalError)

variable (tables : CaseTables)

def serveRoster : RosterRequest → Program RosterReply RosterResponse
  | .updateOperator actorID operatorID role permissions =>
      ((updateOperator tables actorID operatorID role permissions).embed adminCalls).finish
        .updated fun e => .refused (.admin e)
  | .deleteOperator actorID operatorID =>
      (deleteOperator actorID operatorID).finish (fun _ => .deleted) .refused

def rosterSystem : System RosterRequest RosterReply RosterResponse Database Choice :=
  ⟨serveRoster tables, performRoster⟩

abbrev RosterTrace := History RosterRequest RosterReply RosterResponse

def runRoster (db : Database) (actions : List (Action RosterRequest Choice)) : RosterTrace :=
  ((rosterSystem tables).execute actions (System.initial db)).history

end Model

section Conduct

/-- The call has read the operator. -/
def Saw (past : List (Called Reply)) (id : UUID) (op : Operator) : Prop :=
  ⟨.selectOperator id, .ok (some op)⟩ ∈ past

/-- It has read an operator of this id with a role of this kind. -/
def SawRole (past : List (Called Reply)) (id : UUID) (kind : String → Prop) : Prop :=
  ∃ op, Saw past id op ∧ kind op.role

/-- What is known when the role of an operator is about to be written. -/
def UpdateDuty (actorID operatorID : UUID) (past : List (Called Reply)) (id : UUID)
    (role : String) : Prop :=
  ∃ op, Saw past operatorID op ∧ op.id = id ∧
    (op.role = "super_admin" → role ≠ "super_admin" →
      SawRole past actorID (· = "super_admin") ∧
        (actorID = operatorID → SawRole past actorID (· ≠ "super_admin")))

def updateDuty (actorID operatorID : UUID) (past : List (Called Reply))
    (call : Called Reply) : Prop :=
  match call.1 with
  | .updateOperator id role _ => UpdateDuty actorID operatorID past id role
  | _ => Reads call

/-- What is known when an operator is about to be deleted. -/
structure DeleteDuty (actorID operatorID : UUID) (past : List (Called Reply))
    (id : UUID) : Prop where
  id_eq : id = operatorID
  other : actorID ≠ operatorID
  seen : ∃ op, Saw past operatorID op ∧
    (op.role = "super_admin" → SawRole past actorID (· = "super_admin"))

def rosterDuty (request : RosterRequest) (past : List (Called RosterReply))
    (call : Called RosterReply) : Prop :=
  match request, call with
  | .updateOperator actorID operatorID _ _, ⟨.admin c, reply⟩ =>
      updateDuty actorID operatorID (adminCalls.share past) ⟨c, reply.1⟩
  | .updateOperator .., ⟨.deleteOperator _, _⟩ => False
  | .deleteOperator .., ⟨.admin c, reply⟩ => Reads ⟨c, reply.1⟩
  | .deleteOperator actorID operatorID, ⟨.deleteOperator id, _⟩ =>
      DeleteDuty actorID operatorID (adminCalls.share past) id

variable {actorID operatorID : UUID} {past : List (Called Reply)}
  {duty : List (Called Reply) → Called Reply → Prop}

theorem Saw.later {later : List (Called Reply)} {id : UUID} {op : Operator}
    (hsaw : Saw past id op) (hsuffix : past <:+ later) : Saw later id op :=
  hsuffix.subset hsaw

theorem SawRole.later {later : List (Called Reply)} {id : UUID} {kind : String → Prop}
    (hsaw : SawRole past id kind) (hsuffix : past <:+ later) : SawRole later id kind := by
  obtain ⟨op, hop, hkind⟩ := hsaw
  exact ⟨op, hop.later hsuffix, hkind⟩

theorem yields_when {c : Prop} [Decidable c] {body : Service Reply AdminError Unit}
    {post : Unit → List (Called Reply) → Prop}
    (hbody : c → body.Yields duty post past) (hskip : ¬ c → post () past) :
    (when c body).Yields duty post past := by
  unfold when
  split
  · rename_i hc
    exact hbody hc
  · rename_i hc
    rw [pure_eq, yields_succeed]
    exact hskip hc

theorem yields_getOperator {δ : Type} {wrap : StoreError → δ} {id : UUID}
    {post : Operator → List (Called Reply) → Prop}
    (hduty : ∀ reply, duty past ⟨.selectOperator id, reply⟩)
    (hpost : ∀ op, post op (⟨.selectOperator id, .ok (some op)⟩ :: past)) :
    ((getOperator id).orReject wrap).Yields duty post past := by
  rw [yields_orReject, getOperator, yields_statement]
  rintro (e | _ | op)
  · exact ⟨hduty _, fun _ hvalue => by cases hvalue⟩
  · exact ⟨hduty _, fun _ hvalue => by cases hvalue⟩
  · refine ⟨hduty _, fun value hvalue => ?_⟩
    cases hvalue
    exact hpost op

theorem yields_requireSuperAdmin {post : Unit → List (Called Reply) → Prop}
    (hduty : ∀ reply, duty past ⟨.selectOperator actorID, reply⟩)
    (hpost : ∀ actor : Operator, actor.role = "super_admin" →
      post () (⟨.selectOperator actorID, .ok (some actor)⟩ :: past)) :
    (requireSuperAdmin actorID).Yields duty post past := by
  unfold requireSuperAdmin
  simp only [bind_eq, yields_bind]
  refine yields_getOperator hduty fun actor => ?_
  rw [yields_rejectIf]
  exact fun hrole => hpost actor (not_not.mp hrole)

theorem updateDuty_of_reads {call : Called Reply} (hreads : Reads call) :
    updateDuty actorID operatorID past call := by
  obtain ⟨c, reply⟩ := call
  cases c with
  | updateOperator id role permissions => exact hreads.elim
  | _ => exact hreads

theorem only_requestedRole {tables : CaseTables} {role : String} :
    (requestedRole tables role).Only Reads := by
  unfold requestedRole
  split
  · exact only_succeed
  · exact only_requireExistingRole.orReject

/-- The check of `UpdateOperator` against demoting oneself. -/
theorem yields_selfDemotion {normalizedRole : String} :
    (when (actorID = operatorID ∧ normalizedRole ≠ "") do
      let actor ← (getOperator actorID).orReject AdminError.store
      rejectIf (actor.role = "super_admin" ∧ normalizedRole ≠ "super_admin")
        .selfDemotion).Yields (updateDuty actorID operatorID)
      (fun _ later => actorID = operatorID → normalizedRole ≠ "" →
        normalizedRole ≠ "super_admin" →
          SawRole later actorID (· ≠ "super_admin")) past := by
  refine yields_when (fun _ => ?_) fun hskip hself hrole _ => absurd ⟨hself, hrole⟩ hskip
  simp only [bind_eq, yields_bind]
  refine yields_getOperator (fun _ => updateDuty_of_reads trivial) fun actor => ?_
  rw [yields_rejectIf]
  intro hkept _ _ hrole
  exact ⟨actor, List.mem_cons_self, fun hsuper => hkept ⟨hsuper, hrole⟩⟩

/-- The check that the actor is a super admin, where one is needed. -/
theorem yields_vetting {needed : Prop} [Decidable needed]
    (hduty : ∀ reply, duty past ⟨.selectOperator actorID, reply⟩) :
    (when needed (requireSuperAdmin actorID)).Yields duty
      (fun _ later => past <:+ later ∧ (needed → SawRole later actorID (· = "super_admin")))
      past := by
  refine yields_when (fun _ => ?_) fun hskip =>
    ⟨List.suffix_rfl, fun hneeded => absurd hneeded hskip⟩
  refine yields_requireSuperAdmin hduty fun actor hsuper => ⟨List.suffix_cons _ _, ?_⟩
  exact fun _ => ⟨actor, List.mem_cons_self, hsuper⟩

theorem yields_updateOperator (tables : CaseTables) (role : String)
    (permissions : Option Overrides) :
    (updateOperator tables actorID operatorID role permissions).Yields
      (updateDuty actorID operatorID) (fun _ _ => True) past := by
  unfold updateOperator now
  simp only [bind_eq, pure_eq, yields_bind]
  refine only_evaluateCapability.yields (fun _ _ => updateDuty_of_reads) fun _ _ _ => ?_
  refine only_requestedRole.yields (fun _ _ => updateDuty_of_reads) fun normalizedRole _ _ => ?_
  refine yields_selfDemotion.imp fun _ checked _ hself => ?_
  rw [yields_ofExcept]
  intro _ _
  refine yields_getOperator (fun _ => updateDuty_of_reads trivial) fun op => ?_
  refine (yields_vetting fun _ => updateDuty_of_reads trivial).imp fun _ vetted _ hvetted => ?_
  obtain ⟨hsuffix, hactor⟩ := hvetted
  rw [yields_statement]
  refine fun current => ⟨updateDuty_of_reads trivial, fun updatedAt _ => ?_⟩
  rw [yields_orReject, storeUpdateOperator, yields_statement]
  refine fun reply => ⟨⟨op, ?_, rfl, fun hsuper hrole => ?_⟩, fun _ _ => ?_⟩
  · exact List.mem_cons_of_mem _ (hsuffix.subset List.mem_cons_self)
  · have hrequested : normalizedRole ≠ "" := by
      rintro rfl
      exact hrole hsuper
    rw [if_neg hrequested] at hrole
    refine ⟨(hactor (Or.inl hsuper)).later (List.suffix_cons _ _), fun heq => ?_⟩
    refine (hself heq hrequested hrole).later ?_
    exact ((List.suffix_cons _ _).trans hsuffix).trans (List.suffix_cons _ _)
  · refine only_logAction.yields (fun _ _ => updateDuty_of_reads) fun _ _ _ => ?_
    rw [yields_succeed]
    trivial

/-- A step of `DeleteOperator` that only reads. -/
theorem yields_reading {α δ : Type} {x : Service Reply δ α} {wrap : δ → RemovalError}
    {post : α → List (Called Reply) → Prop} {past : List (Called RosterReply)}
    (hyields : x.Yields (fun _ => Reads) post (adminCalls.share past)) :
    ((x.embed adminCalls).orReject wrap).Yields (rosterDuty (.deleteOperator actorID operatorID))
      (fun value later => post value (adminCalls.share later)) past := by
  rw [yields_orReject]
  exact hyields.embed fun _ _ _ hreads => hreads

theorem yields_deleteOperator {past : List (Called RosterReply)} :
    (deleteOperator actorID operatorID).Yields
      (rosterDuty (.deleteOperator actorID operatorID)) (fun _ _ => True) past := by
  unfold deleteOperator
  simp only [bind_eq, yields_bind]
  rw [yields_rejectIf]
  intro hother
  have hcapable : (evaluateCapability actorID permOperatorsDelete).Yields (fun _ => Reads)
      (fun _ _ => True) (adminCalls.share past) :=
    only_evaluateCapability.yields (fun _ _ hreads => hreads) fun _ _ _ => trivial
  refine (yields_reading hcapable).imp fun _ evaluated _ _ => ?_
  have hread : (getOperator operatorID).Yields (fun _ => Reads)
      (fun op later => Saw later operatorID op) (adminCalls.share evaluated) := by
    have hseen : ((getOperator operatorID).orReject id).Yields (fun _ => Reads)
        (fun op later => Saw later operatorID op) (adminCalls.share evaluated) :=
      yields_getOperator (fun _ => trivial) fun op => List.mem_cons_self
    rwa [yields_orReject] at hseen
  refine (yields_reading hread).imp fun op found _ hseen => ?_
  have hvetting : (when (op.role = "super_admin") (requireSuperAdmin actorID)).Yields
      (fun _ => Reads) (fun _ later => adminCalls.share found <:+ later ∧
        (op.role = "super_admin" → SawRole later actorID (· = "super_admin")))
      (adminCalls.share found) :=
    yields_vetting fun _ => trivial
  refine (yields_reading hvetting).imp fun _ vetted _ hvetted => ?_
  rw [yields_orReject, storeDeleteOperator, yields_statement]
  refine fun reply =>
    ⟨⟨rfl, hother, op, hseen.later hvetted.1, hvetted.2⟩, fun _ _ => ?_⟩
  have hlogged : (logAction actorID "delete" "operator" operatorID).Yields
      (fun _ => Reads) (fun _ _ => True)
      (adminCalls.share (⟨.deleteOperator operatorID, reply⟩ :: vetted)) :=
    only_logAction.yields (fun _ _ hreads => hreads) fun _ _ _ => trivial
  exact yields_reading hlogged

theorem keeps_serveRoster (tables : CaseTables) (request : RosterRequest) :
    (serveRoster tables request).Keeps (rosterDuty request) (fun _ _ => True) [] := by
  cases request with
  | updateOperator actorID operatorID role permissions =>
      have hyields : (updateOperator tables actorID operatorID role permissions).Yields
          (updateDuty actorID operatorID) (fun _ _ => True) (adminCalls.share []) :=
        yields_updateOperator tables role permissions
      have hembedded : ((updateOperator tables actorID operatorID role permissions).embed
          adminCalls).Yields (rosterDuty (.updateOperator actorID operatorID role permissions))
            (fun _ _ => True) [] :=
        hyields.embed fun _ _ _ hduty => hduty
      exact hembedded.finish_plain
  | deleteOperator actorID operatorID =>
      exact yields_deleteOperator.finish_plain

end Conduct

section Runs

variable {tables : CaseTables} {db : Database}
  {actions : List (Action RosterRequest Choice)}

theorem roster_owes : Throughout (Owes rosterDuty fun _ _ _ => True)
    (runRoster tables db actions) :=
  (rosterSystem tables).execute_owes (keeps_serveRoster tables) actions db

theorem rosterEffect_perform (choice : Choice) (c : RosterCall) (db : Database) :
    (performRoster choice c db).2 = rosterEffect ⟨c, (performRoster choice c db).1⟩ db := by
  cases c with
  | admin c => rfl
  | deleteOperator id =>
      unfold performRoster
      split <;> rfl

theorem roster_answers :
    Throughout (Answers performRoster rosterEffect db) (runRoster tables db actions) :=
  ((rosterSystem tables).execute_replay rosterEffect_perform actions db).2

/-- Some operator is a super admin. -/
def HasSuperAdmin (db : Database) : Prop :=
  ∃ op ∈ db.operators.rows, op.role = "super_admin"

/-- The role of the operator is stored as it was read. -/
def upToDate (db : Database) : Called Reply → Bool
  | ⟨.selectOperator id, .ok (some op)⟩ =>
      (db.operators.find? id).map Operator.role = some op.role
  | _ => true

/-- The call writes the roster. -/
def writesRoster : Called RosterReply → Bool
  | ⟨.admin (.updateOperator ..), _⟩ => true
  | ⟨.deleteOperator _, _⟩ => true
  | _ => false

/-- A write is made while the roles that its request has read are those stored. -/
def Undisturbed (db : Database) (past : RosterTrace)
    (entry : Entry RosterRequest RosterReply RosterResponse) : Prop :=
  match entry.step with
  | .called call => writesRoster call = true →
      ∀ read ∈ adminCalls.share (own entry.thread past),
        upToDate (replay rosterEffect db past) read = true
  | .answered _ => True

instance decidableUndisturbed (db : Database) (past : RosterTrace)
    (entry : Entry RosterRequest RosterReply RosterResponse) :
    Decidable (Undisturbed db past entry) := by
  unfold Undisturbed
  split <;> infer_instance

/-- Another super admin makes up for the one that is changed. -/
theorem HasSuperAdmin.update {choice : Choice} {id : UUID} {role : String}
    {permissions : Overrides} (hsome : HasSuperAdmin db)
    (hanother : ∀ row ∈ db.operators.rows, row.id = id → row.role = "super_admin" →
      role ≠ "super_admin" →
        ∃ other ∈ db.operators.rows, other.id ≠ id ∧ other.role = "super_admin") :
    HasSuperAdmin (perform choice (.updateOperator id role permissions) db).2 := by
  have hkeep : ∀ row ∈ db.operators.rows, row.id ≠ id → row.role = "super_admin" →
      HasSuperAdmin { db with
        operators := db.operators.updateWhere (·.id = id)
          (Operator.assign role permissions choice.now)
          (Operator.id_assign role permissions choice.now) } := by
    intro row hrow hid hrole
    refine ⟨row, List.mem_map.mpr ⟨row, hrow, ?_⟩, hrole⟩
    exact if_neg (by simpa using hid)
  unfold perform
  dsimp only
  split
  · exact hsome
  · obtain ⟨row, hrow, hsuper⟩ := hsome
    by_cases hid : row.id = id
    · by_cases hrole : role = "super_admin"
      · refine ⟨row.assign role permissions choice.now, List.mem_map.mpr ⟨row, hrow, ?_⟩, hrole⟩
        exact if_pos (by simpa using hid)
      · obtain ⟨other, hother, hne, hadmin⟩ := hanother row hrow hid hsuper hrole
        exact hkeep other hother hne hadmin
    · exact hkeep row hrow hid hsuper

theorem HasSuperAdmin.delete {id : UUID} (hsome : HasSuperAdmin db)
    (hanother : ∀ row ∈ db.operators.rows, row.id = id → row.role = "super_admin" →
      ∃ other ∈ db.operators.rows, other.id ≠ id ∧ other.role = "super_admin") :
    HasSuperAdmin (db.deleteOperator id) := by
  have hkeep : ∀ row ∈ db.operators.rows, row.id ≠ id → row.role = "super_admin" →
      HasSuperAdmin (db.deleteOperator id) := by
    intro row hrow hid hrole
    exact ⟨row, List.mem_filter.mpr ⟨hrow, by simpa using hid⟩, hrole⟩
  obtain ⟨row, hrow, hsuper⟩ := hsome
  by_cases hid : row.id = id
  · obtain ⟨other, hother, hne, hadmin⟩ := hanother row hrow hid hsuper
    exact hkeep other hother hne hadmin
  · exact hkeep row hrow hid hsuper

variable {past : List (Called Reply)} {id : UUID}

/-- A stored operator still has the role in which it was seen. -/
theorem role_eq_of_upToDate {op row : Operator} (hcurrent : ∀ read ∈ past, upToDate db read = true)
    (hsaw : Saw past id op) (hrow : row ∈ db.operators.rows) (hid : row.id = id) :
    row.role = op.role := by
  have hstored : (db.operators.find? id).map Operator.role = some op.role :=
    of_decide_eq_true (hcurrent _ hsaw)
  rw [(Table.find?_eq_some_iff _ _ _).mpr ⟨hrow, hid⟩] at hstored
  exact Option.some.inj hstored

theorem exists_of_sawRole {kind : String → Prop}
    (hcurrent : ∀ read ∈ past, upToDate db read = true) (hsaw : SawRole past id kind) :
    ∃ row ∈ db.operators.rows, row.id = id ∧ kind row.role := by
  obtain ⟨op, hop, hkind⟩ := hsaw
  obtain ⟨row, hfind, hrole⟩ := Option.map_eq_some_iff.mp (of_decide_eq_true (hcurrent _ hop))
  obtain ⟨hmem, hid⟩ := (Table.find?_eq_some_iff _ _ _).mp hfind
  exact ⟨row, hmem, hid, hrole ▸ hkind⟩

/-- What the checks before a write of a role are worth, if nothing has changed. -/
theorem another_of_update {actorID operatorID : UUID} {role : String}
    (hcurrent : ∀ read ∈ past, upToDate db read = true)
    (hduty : UpdateDuty actorID operatorID past id role)
    (hread : ∀ op, Saw past operatorID op → op.id = operatorID) :
    ∀ row ∈ db.operators.rows, row.id = id → row.role = "super_admin" → role ≠ "super_admin" →
        ∃ other ∈ db.operators.rows, other.id ≠ id ∧ other.role = "super_admin" := by
  intro row hrow hid hsuper hrole
  obtain ⟨op, hop, rfl, hchecked⟩ := hduty
  have hopID := hread op hop
  have hopRole : op.role = "super_admin" :=
    (role_eq_of_upToDate hcurrent hop hrow (hid.trans hopID)).symm.trans hsuper
  obtain ⟨hactor, hself⟩ := hchecked hopRole hrole
  obtain ⟨actor, hmem, hactorID, hadmin⟩ := exists_of_sawRole hcurrent hactor
  refine ⟨actor, hmem, fun heq => ?_, hadmin⟩
  obtain ⟨seen, hseen, hdemoted⟩ := hself (hactorID.symm.trans (heq.trans hopID))
  exact hdemoted ((role_eq_of_upToDate hcurrent hseen hmem hactorID).symm.trans hadmin)

theorem another_of_delete {actorID operatorID : UUID}
    (hcurrent : ∀ read ∈ past, upToDate db read = true)
    (hduty : DeleteDuty actorID operatorID past id) :
    ∀ row ∈ db.operators.rows, row.id = id → row.role = "super_admin" →
      ∃ other ∈ db.operators.rows, other.id ≠ id ∧ other.role = "super_admin" := by
  intro row hrow hid hsuper
  obtain ⟨rfl, hother, op, hop, hchecked⟩ := hduty
  have hopRole : op.role = "super_admin" :=
    (role_eq_of_upToDate hcurrent hop hrow hid).symm.trans hsuper
  obtain ⟨actor, hmem, hactorID, hadmin⟩ :=
    exists_of_sawRole hcurrent (hchecked hopRole)
  exact ⟨actor, hmem, fun heq => hother (hactorID.symm.trans heq), hadmin⟩

/-- What is read under an id has it. -/
theorem id_of_saw {history : RosterTrace} {thread : Nat} {op : Operator}
    (hhistory : history <:+ runRoster tables db actions)
    (hsaw : Saw (adminCalls.share (own thread history)) id op) : op.id = id := by
  obtain ⟨⟨c, reply⟩, hcall, hview⟩ := List.mem_filterMap.mp hsaw
  cases c with
  | deleteOperator other => cases hview
  | admin c =>
      obtain ⟨reply, choice⟩ := reply
      cases hview
      obtain ⟨request, hmem⟩ := mem_own_iff.mp hcall
      obtain ⟨past, hpast⟩ := exists_past_of_mem hmem
      obtain ⟨chosen, hreply⟩ := roster_answers _ past (hpast.trans hhistory) _ rfl
      have hfound : Except.ok (some op) =
          (perform chosen (.selectOperator id) (replay rosterEffect db past)).1 :=
        congrArg Prod.fst hreply
      simp only [perform] at hfound
      split at hfound
      · cases hfound
      · exact ((Table.find?_eq_some_iff _ _ _).mp (Except.ok.inj hfound).symm).2

theorem hasSuperAdmin_cons {entry : Entry RosterRequest RosterReply RosterResponse}
    {past : RosterTrace} (hentry : entry :: past <:+ runRoster tables db actions)
    (hundisturbed : Undisturbed db past entry)
    (hsome : HasSuperAdmin (replay rosterEffect db past)) :
    HasSuperAdmin (replay rosterEffect db (entry :: past)) := by
  have howes := roster_owes entry past hentry
  have hpast : past <:+ runRoster tables db actions := (List.suffix_cons _ _).trans hentry
  obtain ⟨thread, request, step⟩ := entry
  cases step with
  | answered response => exact hsome
  | called call =>
      obtain ⟨c, reply⟩ := call
      cases c with
      | deleteOperator id =>
          rcases reply with e | n
          · exact hsome
          · cases request with
            | updateOperator => exact howes.elim
            | deleteOperator actorID operatorID =>
                exact hsome.delete (another_of_delete (hundisturbed rfl) howes)
      | admin c =>
          have hunchanged : Reads ⟨c, reply.1⟩ → HasSuperAdmin
              (perform reply.2 c (replay rosterEffect db past)).2 := by
            intro hreads
            have hreads' : Reads ⟨c, (perform reply.2 c (replay rosterEffect db past)).1⟩ :=
              hreads
            rwa [perform_of_reads _ _ _ hreads']
          cases request with
          | deleteOperator => exact hunchanged howes
          | updateOperator actorID operatorID =>
              cases c with
              | updateOperator id role permissions =>
                  exact hsome.update (another_of_update (hundisturbed rfl) howes
                    fun op hop => id_of_saw hpast hop)
              | _ => exact hunchanged howes

/-- As long as every write is made while the roles that its request has read are those
stored, there is a super admin at every point after one at which there is one. -/
theorem super_admin_remains (tables : CaseTables) (db : Database)
    (actions : List (Action RosterRequest Choice))
    (hundisturbed : Throughout (Undisturbed db) (runRoster tables db actions))
    (earlier later : RosterTrace) (hbetween : earlier <:+ later)
    (hlater : later <:+ runRoster tables db actions)
    (hsome : HasSuperAdmin (replay rosterEffect db earlier)) :
    HasSuperAdmin (replay rosterEffect db later) := by
  refine suffix_induction (motive := fun point =>
    HasSuperAdmin (replay rosterEffect db point)) hsome ?_ hbetween hlater
  intro entry past _ hentry hbefore
  exact hasSuperAdmin_cons hentry (hundisturbed entry past hentry) hbefore

end Runs

section Sample

/-- An operator with a role and no overrides. -/
def sampleOperator (id : UUID) (role : String) : Operator :=
  ⟨id, id, role, Table.empty, 0, 0⟩

def superAdminRole : Table Role.id :=
  Table.single ⟨0, "super_admin", "", [permAll], true, 0, 0⟩

def twoSuperAdmins : Database where
  operators := ⟨[sampleOperator 1 "super_admin", sampleOperator 2 "super_admin"], by decide⟩
  roles := superAdminRole

def working : Choice := ⟨0, 0, false⟩

def failing : Choice := ⟨0, 0, true⟩

/-- The first operator deletes the second, step by step. -/
def oneDeletion : List (Action RosterRequest Choice) :=
  .start (.deleteOperator 1 2) :: List.replicate 7 (.step 0 working)

theorem oneDeletion_leaves_one :
    HasSuperAdmin (replay rosterEffect twoSuperAdmins
      (runRoster plainTables twoSuperAdmins oneDeletion)) := by
  refine super_admin_remains plainTables twoSuperAdmins oneDeletion ?_ [] _
    List.nil_suffix List.suffix_rfl ?_
  · decide +kernel
  · exact ⟨sampleOperator 1 "super_admin", List.mem_cons_self, rfl⟩

/-- Each of two super admins has passed the checks of deleting the other before either
is deleted.  The audit log then refuses both entries, as their operators are gone. -/
def mutualDeletion : List (Action RosterRequest Choice) :=
  .start (.deleteOperator 1 2) :: .start (.deleteOperator 2 1) ::
    (List.replicate 4 (Action.step 0 working) ++ List.replicate 5 (Action.step 1 working) ++
      [.step 0 working, .step 0 failing, .step 1 failing, .step 0 working, .step 1 working])

theorem mutualDeletion_leaves_none :
    HasSuperAdmin twoSuperAdmins ∧
      ¬ HasSuperAdmin (replay rosterEffect twoSuperAdmins
        (runRoster plainTables twoSuperAdmins mutualDeletion)) := by
  have hnone : ∀ op ∈ (replay rosterEffect twoSuperAdmins
      (runRoster plainTables twoSuperAdmins mutualDeletion)).operators.rows,
        op.role ≠ "super_admin" := by
    decide +kernel
  refine ⟨⟨sampleOperator 1 "super_admin", List.mem_cons_self, rfl⟩, ?_⟩
  rintro ⟨op, hop, hrole⟩
  exact hnone op hop hrole

end Sample

end Aegion.Admin
