/-
`Bootstrap` makes the first super admin.  It looks whether there are operators and inserts
one later; the table admits one operator for each identity, but not one operator only.  If
the table is still as it was found, at most one `Bootstrap` succeeds.
-/
import Aegion.SuperAdmins

namespace Aegion.Admin

open Go Service History
open OAuth (Time DBError)

section Model

/-- The calls of the operations on operators, and the ones that only read operators. -/
inductive BoardCall where
  | roster (c : RosterCall)
  | listOperators (limit offset : Int)
  | selectOperatorByIdentity (identityID : UUID)

abbrev BoardReply : BoardCall → Type
  | .roster c => RosterReply c
  | .listOperators _ _ => Except DBError (List Operator × Nat)
  | .selectOperatorByIdentity _ => Except DBError (Option Operator)

def rosterCalls : Embedding RosterReply BoardReply where
  lift := .roster
  back _ reply := reply
  view
    | ⟨.roster c, reply⟩ => some ⟨c, reply⟩
    | _ => none
  view_lift _ _ := rfl

def boardCalls : Embedding Reply BoardReply where
  lift c := .roster (.admin c)
  back _ reply := reply.1
  view
    | ⟨.roster (.admin c), reply⟩ => some ⟨c, reply.1⟩
    | _ => none
  view_lift _ _ := rfl

/-- `ORDER BY created_at DESC LIMIT $1 OFFSET $2`. -/
def Database.page (db : Database) (limit offset : Nat) : List Operator :=
  ((db.operators.rows.mergeSort fun a b => b.createdAt ≤ a.createdAt).drop offset).take limit

def boardReply (choice : Choice) (db : Database) : (c : BoardCall) → BoardReply c
  | .roster c => (performRoster choice c db).1
  | .listOperators limit offset =>
      if choice.fails ∨ limit < 0 ∨ offset < 0 then .error .failed
      else .ok (db.page limit.toNat offset.toNat, db.operators.rows.length)
  | .selectOperatorByIdentity identityID =>
      if choice.fails then .error .failed
      else .ok (db.operators.rows.find? (·.identityID = identityID))

def boardEffect (call : Called BoardReply) (db : Database) : Database :=
  match call with
  | ⟨.roster c, reply⟩ => rosterEffect ⟨c, reply⟩ db
  | _ => db

/-- Execute one call. -/
def performBoard (choice : Choice) (c : BoardCall) (db : Database) : BoardReply c × Database :=
  (boardReply choice db c, boardEffect ⟨c, boardReply choice db c⟩ db)

inductive BoardError where
  | bootstrapNotAllowed
  | removal (e : RemovalError)
deriving Repr, DecidableEq

def BoardError.admin (e : AdminError) : BoardError := .removal (.admin e)

def BoardError.store (e : StoreError) : BoardError := .admin (.store e)

/-- `store.ListOperators`, in the order of both of its callers. -/
def storeListOperators (limit offset : Int) : Service BoardReply StoreError (List Operator × Nat) :=
  statement (.listOperators (if limit ≤ 0 then 10 else limit) offset)
    (·.mapError fun _ => .database)

variable (bootstrapEnabled : Bool)

def canBootstrap : Service BoardReply StoreError Bool := do
  let (operators, _) ← storeListOperators 1 0
  succeed (operators.length = 0 && bootstrapEnabled)

def bootstrap (identityID : UUID) : Service BoardReply BoardError Operator := do
  let allowed ← (canBootstrap bootstrapEnabled).orReject .store
  rejectIf (allowed = false) .bootstrapNotAllowed
  let id ← newUUID.embed boardCalls
  let createdAt ← now.embed boardCalls
  let updatedAt ← now.embed boardCalls
  let op : Operator :=
    { id := id
      identityID := identityID
      role := "super_admin"
      permissions := Table.empty
      createdAt := createdAt
      updatedAt := updatedAt }
  ((storeCreateOperator op).embed boardCalls).orReject .store
  ((logAction op.id "create" "operator" op.id).embed boardCalls).orReject .admin
  succeed op

def permOperatorsRead : String := "operators:read"

def readOperator (actorID operatorID : UUID) : Service BoardReply BoardError Operator := do
  ((evaluateCapability actorID permOperatorsRead).embed boardCalls).orReject .admin
  ((getOperator operatorID).embed boardCalls).orReject .store

def getOperatorByIdentityID (identityID : UUID) : Service BoardReply BoardError Operator :=
  (statement (.selectOperatorByIdentity identityID) (scanRow .operatorNotFound)).orReject .store

def listOperators (actorID : UUID) (limit offset : Int) :
    Service BoardReply BoardError (List Operator × Nat) := do
  ((evaluateCapability actorID permOperatorsRead).embed boardCalls).orReject .admin
  let limit := if limit ≤ 0 then 20 else limit
  (storeListOperators (if 100 < limit then 100 else limit) offset).orReject .store

/-- `Bootstrap` and the other operations on operators and roles. -/
inductive BoardRequest where
  | bootstrap (identityID : UUID)
  | admin (request : Request)
  | deleteOperator (actorID operatorID : UUID)
  | readOperator (actorID operatorID : UUID)
  | getOperatorByIdentityID (identityID : UUID)
  | listOperators (actorID : UUID) (limit offset : Int)

inductive BoardResponse where
  | founded (op : Operator)
  | admin (response : Response)
  | deleted
  | operator (op : Operator)
  | listed (operators : List Operator) (total : Nat)
  | refused (e : BoardError)

variable (tables : CaseTables)

def serveBoard : BoardRequest → Program BoardReply BoardResponse
  | .bootstrap identityID => (bootstrap bootstrapEnabled identityID).finish .founded .refused
  | .admin request =>
      ((serve tables request).embed boardCalls).finish .admin fun e => .refused (.admin e)
  | .deleteOperator actorID operatorID =>
      ((deleteOperator actorID operatorID).embed rosterCalls).finish (fun _ => .deleted)
        fun e => .refused (.removal e)
  | .readOperator actorID operatorID =>
      (readOperator actorID operatorID).finish .operator .refused
  | .getOperatorByIdentityID identityID =>
      (getOperatorByIdentityID identityID).finish .operator .refused
  | .listOperators actorID limit offset =>
      (listOperators actorID limit offset).finish (fun page => .listed page.1 page.2) .refused

def boardSystem : System BoardRequest BoardReply BoardResponse Database Choice :=
  ⟨serveBoard bootstrapEnabled tables, performBoard⟩

abbrev BoardTrace := History BoardRequest BoardReply BoardResponse

def runBoard (db : Database) (actions : List (Action BoardRequest Choice)) : BoardTrace :=
  ((boardSystem bootstrapEnabled tables).execute actions (System.initial db)).history

end Model

section Conduct

/-- Nobody deletes oneself, and `Bootstrap` inserts an operator of its identity. -/
def boardDuty (request : BoardRequest) (_past : List (Called BoardReply)) :
    Called BoardReply → Prop
  | ⟨.roster (.deleteOperator id), _⟩ =>
      ∃ actorID, request = .deleteOperator actorID id ∧ actorID ≠ id
  | ⟨.roster (.admin (.insertOperator row)), _⟩ =>
      ∀ identityID, request = .bootstrap identityID → row.identityID = identityID
  | _ => True

/-- Whoever is told so has inserted an operator. -/
def boardPromise (response : BoardResponse) (past : List (Called BoardReply)) : Prop :=
  match response with
  | .founded _ => ∃ row choice, ⟨.roster (.admin (.insertOperator row)), (.ok (), choice)⟩ ∈ past
  | _ => True

/-- The call changes no operator. -/
def Harmless : Called BoardReply → Prop
  | ⟨.roster (.deleteOperator _), _⟩ => False
  | ⟨.roster (.admin (.insertOperator _)), _⟩ => False
  | _ => True

variable {request : BoardRequest} {past : List (Called BoardReply)}

theorem boardDuty_of_harmless {call : Called BoardReply} (hharmless : Harmless call) :
    boardDuty request past call := by
  obtain ⟨c, reply⟩ := call
  cases c with
  | roster c =>
      cases c with
      | deleteOperator id => exact hharmless.elim
      | admin c =>
          cases c with
          | insertOperator row => exact hharmless.elim
          | _ => trivial
  | _ => trivial

theorem harmless_of_reads {c : Call} {reply : BoardReply (boardCalls.lift c)}
    (hreads : Reads ⟨c, boardCalls.back c reply⟩) : Harmless ⟨boardCalls.lift c, reply⟩ := by
  cases c with
  | insertOperator row => exact hreads.elim
  | _ => trivial

theorem only_reading {ε α : Type} {x : Service Reply ε α} (honly : x.Only Reads) :
    (x.embed boardCalls).Only Harmless :=
  honly.embed fun _ _ hreads => harmless_of_reads hreads

theorem only_storeListOperators {limit offset : Int} :
    (storeListOperators limit offset).Only Harmless :=
  only_statement fun _ => trivial

theorem only_canBootstrap {enabled : Bool} : (canBootstrap enabled).Only Harmless :=
  only_storeListOperators.bind fun _ => only_succeed

theorem only_readOperator {actorID operatorID : UUID} :
    (readOperator actorID operatorID).Only Harmless :=
  (only_reading only_evaluateCapability).orReject.bind fun _ =>
    (only_reading only_getOperator).orReject

theorem only_listOperators {actorID : UUID} {limit offset : Int} :
    (listOperators actorID limit offset).Only Harmless :=
  (only_reading only_evaluateCapability).orReject.bind fun _ =>
    only_storeListOperators.orReject

/-- A step before or after the insert. -/
theorem yields_of_harmless {ε α : Type} {x : Service BoardReply ε α}
    {post : α → List (Called BoardReply) → Prop} (honly : x.Only Harmless)
    (hpost : ∀ value later, past <:+ later → post value later) :
    x.Yields (boardDuty request) post past :=
  honly.yields (fun _ _ => boardDuty_of_harmless) fun value _ _ =>
    hpost value _ (List.suffix_append _ _)

theorem yields_bootstrap {enabled : Bool} {identityID : UUID} :
    (bootstrap enabled identityID).Yields (boardDuty (.bootstrap identityID))
      (fun op => boardPromise (.founded op)) past := by
  unfold bootstrap
  simp only [bind_eq, yields_bind]
  refine yields_of_harmless only_canBootstrap.orReject fun allowed _ _ => ?_
  rw [yields_rejectIf]
  intro _
  refine yields_of_harmless (only_reading only_newUUID) fun id _ _ => ?_
  refine yields_of_harmless (only_reading only_now) fun createdAt _ _ => ?_
  refine yields_of_harmless (only_reading only_now) fun updatedAt before _ => ?_
  rw [yields_orReject]
  have hstored : (storeCreateOperator ⟨id, identityID, "super_admin", Table.empty, createdAt,
      updatedAt⟩).Yields (fun _ call => ∃ reply, call = ⟨.insertOperator ⟨id, identityID,
        "super_admin", Table.empty, createdAt, updatedAt⟩, reply⟩)
      (fun _ later => ⟨.insertOperator ⟨id, identityID, "super_admin", Table.empty, createdAt,
        updatedAt⟩, .ok ()⟩ ∈ later) (boardCalls.share before) := by
    rw [storeCreateOperator, yields_statement]
    refine fun reply => ⟨⟨reply, rfl⟩, fun _ hstored => ?_⟩
    rcases reply with (_ | _) | _
    · cases hstored
    · cases hstored
    · exact List.mem_cons_self
  refine (hstored.embed ?_).imp fun _ stored _ hinsert => ?_
  · rintro past c reply ⟨reply', hcall⟩
    cases hcall
    exact fun _ hrequest => (BoardRequest.bootstrap.inj hrequest)
  · refine yields_of_harmless (only_reading only_logAction).orReject fun _ later hlater => ?_
    rw [yields_succeed]
    obtain ⟨⟨c, reply⟩, hcall, hview⟩ := List.mem_filterMap.mp hinsert
    rcases c with (c | id) | _ | _
    · obtain ⟨reply, choice⟩ := reply
      cases hview
      exact ⟨_, choice, hlater.subset hcall⟩
    all_goals cases hview

theorem keeps_of_harmless {α : Type} {x : Service BoardReply BoardError α}
    {success : α → BoardResponse} (honly : x.Only Harmless)
    (hsuccess : ∀ value later, boardPromise (success value) later) :
    (x.finish success .refused).Keeps (boardDuty request) boardPromise [] :=
  (yields_of_harmless honly fun value later _ => hsuccess value later).finish
    (fun _ _ hpromise => hpromise) fun _ _ => trivial

theorem keeps_serveBoard {enabled : Bool} (tables : CaseTables) (request : BoardRequest) :
    (serveBoard enabled tables request).Keeps (boardDuty request) boardPromise [] := by
  cases request with
  | bootstrap identityID =>
      exact yields_bootstrap.finish (fun _ _ hpromise => hpromise) fun _ _ => trivial
  | admin request =>
      have hyields : ((serve tables request).embed boardCalls).Yields
          (boardDuty (.admin request)) (fun _ _ => True) [] := by
        refine (only_embed _).yields (fun _ call hlifted => ?_) fun _ _ _ => trivial
        obtain ⟨c, reply, rfl⟩ := hlifted
        cases c with
        | insertOperator row => exact fun _ hrequest => by cases hrequest
        | _ => trivial
      exact hyields.finish_plain
  | deleteOperator actorID operatorID =>
      have hyields : ((deleteOperator actorID operatorID).embed rosterCalls).Yields
          (boardDuty (.deleteOperator actorID operatorID)) (fun _ _ => True) [] := by
        refine yields_deleteOperator.embed fun past c reply hduty => ?_
        cases c with
        | deleteOperator id => exact ⟨actorID, by rw [hduty.id_eq], by
            rw [hduty.id_eq]
            exact hduty.other⟩
        | admin c => exact boardDuty_of_harmless (harmless_of_reads hduty)
      exact hyields.finish_plain
  | readOperator actorID operatorID =>
      exact keeps_of_harmless only_readOperator fun _ _ => trivial
  | getOperatorByIdentityID identityID =>
      exact keeps_of_harmless (only_statement fun _ => trivial).orReject fun _ _ => trivial
  | listOperators actorID limit offset =>
      exact keeps_of_harmless only_listOperators fun _ _ => trivial

end Conduct

section Runs

variable {enabled : Bool} {tables : CaseTables} {db : Database}
  {actions : List (Action BoardRequest Choice)} {past : BoardTrace}

theorem board_owes : Throughout (Owes boardDuty fun _ => boardPromise)
    (runBoard enabled tables db actions) :=
  (boardSystem enabled tables).execute_owes (keeps_serveBoard tables) actions db

theorem board_answers :
    Throughout (Answers performBoard boardEffect db) (runBoard enabled tables db actions) :=
  ((boardSystem enabled tables).execute_replay (fun _ _ _ => rfl) actions db).2

/-- `Bootstrap` inserts into an empty table, or its identity is that of an operator; and an
operator is deleted while the one who deletes it is stored. -/
def Unraced (db : Database) (past : BoardTrace)
    (entry : Entry BoardRequest BoardReply BoardResponse) : Prop :=
  match entry.request, entry.step with
  | .bootstrap identityID, .called ⟨.roster (.admin (.insertOperator _)), _⟩ =>
      (replay boardEffect db past).operators.rows = [] ∨
        ∃ op ∈ (replay boardEffect db past).operators.rows, op.identityID = identityID
  | .deleteOperator actorID _, .called ⟨.roster (.deleteOperator _), _⟩ =>
      ∃ op ∈ (replay boardEffect db past).operators.rows, op.id = actorID
  | _, _ => True

instance decidableUnraced (db : Database) (past : BoardTrace)
    (entry : Entry BoardRequest BoardReply BoardResponse) : Decidable (Unraced db past entry) := by
  unfold Unraced
  split <;> infer_instance

/-- There is an operator. -/
def Occupied (db : Database) : Prop := db.operators.rows ≠ []

theorem occupied_perform (choice : Choice) (c : Call) (hsome : Occupied db) :
    Occupied (perform choice c db).2 := by
  cases c with
  | insertOperator row =>
      simp only [perform]
      split
      · exact hsome
      · cases hinsert : insertUnique db.operators (·.identityID = row.identityID) row with
        | none => exact hsome
        | some operators =>
            obtain ⟨-, -, hrows⟩ := insertUnique_eq_some hinsert
            change operators.rows ≠ []
            rw [hrows]
            exact List.append_ne_nil_of_right_ne_nil _ (List.cons_ne_nil _ _)
  | updateOperator id role permissions =>
      simp only [perform]
      split
      · exact hsome
      · exact fun hnone => hsome (List.map_eq_nil_iff.mp hnone)
  | _ =>
      simp only [perform]
      repeat' split
      all_goals exact hsome

/-- Who deletes an operator remains. -/
theorem occupied_delete {actorID id : UUID} (hother : actorID ≠ id)
    (hactor : ∃ op ∈ db.operators.rows, op.id = actorID) : Occupied (db.deleteOperator id) := by
  obtain ⟨op, hop, rfl⟩ := hactor
  have hkept : op ∈ (db.deleteOperator id).operators.rows :=
    List.mem_filter.mpr ⟨hop, by simpa using hother⟩
  exact List.ne_nil_of_mem hkept

theorem occupied_cons {entry : Entry BoardRequest BoardReply BoardResponse}
    (hentry : entry :: past <:+ runBoard enabled tables db actions)
    (hunraced : Unraced db past entry) (hsome : Occupied (replay boardEffect db past)) :
    Occupied (replay boardEffect db (entry :: past)) := by
  have howes := board_owes entry past hentry
  obtain ⟨thread, request, step⟩ := entry
  cases step with
  | answered response => exact hsome
  | called call =>
      obtain ⟨c, reply⟩ := call
      cases c with
      | roster c =>
          cases c with
          | admin c => exact occupied_perform reply.2 c hsome
          | deleteOperator id =>
              cases reply with
              | error e => exact hsome
              | ok n =>
                  obtain ⟨actorID, rfl, hother⟩ := howes
                  exact occupied_delete hother hunraced
      | _ => exact hsome

theorem insert_of_ok {choice : Choice} {row : Operator}
    (hok : .ok () = (perform choice (.insertOperator row) db).1) :
    (∀ old ∈ db.operators.rows, old.identityID ≠ row.identityID) ∧
      Occupied (perform choice (.insertOperator row) db).2 := by
  simp only [perform] at hok ⊢
  split at hok
  · cases hok
  · rename_i hworks
    rw [if_neg hworks]
    cases hinsert : insertUnique db.operators (·.identityID = row.identityID) row with
    | none =>
        rw [hinsert] at hok
        cases hok
    | some operators =>
        obtain ⟨hclash, -, hrows⟩ := insertUnique_eq_some hinsert
        refine ⟨fun old hold => of_decide_eq_false (hclash old hold), ?_⟩
        change operators.rows ≠ []
        rw [hrows]
        exact List.append_ne_nil_of_right_ne_nil _ (List.cons_ne_nil _ _)

/-- A `Bootstrap` has inserted its operator at this point. -/
def InsertsFirst (entry : Entry BoardRequest BoardReply BoardResponse) : Prop :=
  ∃ thread identityID row choice, entry = ⟨thread, .bootstrap identityID,
    .called ⟨.roster (.admin (.insertOperator row)), (.ok (), choice)⟩⟩

/-- Such an insert finds the table empty, and leaves an operator. -/
theorem InsertsFirst.occupies {entry : Entry BoardRequest BoardReply BoardResponse}
    (hinserts : InsertsFirst entry) (hentry : entry :: past <:+ runBoard enabled tables db actions)
    (hunraced : Unraced db past entry) :
    ¬ Occupied (replay boardEffect db past) ∧
      Occupied (replay boardEffect db (entry :: past)) := by
  obtain ⟨thread, identityID, row, choice, rfl⟩ := hinserts
  have hidentity : row.identityID = identityID := board_owes _ past hentry identityID rfl
  obtain ⟨chosen, hreply⟩ := board_answers _ past hentry _ rfl
  obtain ⟨hok, rfl⟩ := Prod.mk.inj hreply
  obtain ⟨hfresh, hoccupied⟩ := insert_of_ok hok
  refine ⟨fun hsome => ?_, hoccupied⟩
  rcases hunraced with hnone | ⟨op, hop, hclash⟩
  · exact hsome hnone
  · exact hfresh op hop (hclash.trans hidentity.symm)

/-- The insert of a `Bootstrap` that has succeeded. -/
theorem exists_insertsFirst {thread : Nat} {identityID : UUID} {op : Operator}
    (hfounded : ⟨thread, .bootstrap identityID, .answered (.founded op)⟩ ∈
      runBoard enabled tables db actions) :
    ∃ entry past, entry :: past <:+ runBoard enabled tables db actions ∧
      entry.thread = thread ∧ InsertsFirst entry := by
  obtain ⟨before, hbefore⟩ := exists_past_of_mem hfounded
  obtain ⟨row, choice, hinsert⟩ := board_owes _ before hbefore
  have hcoherent := (boardSystem enabled tables).execute_coherent actions db
  have hcall := mem_of_mem_own hcoherent hfounded
    ((own_suffix ((List.suffix_cons _ _).trans hbefore)).subset hinsert)
  obtain ⟨past, hpast⟩ := exists_past_of_mem hcall
  exact ⟨_, past, hpast, rfl, thread, identityID, row, choice, rfl⟩

/-- Once an operator is inserted, no `Bootstrap` inserts another. -/
theorem not_insertsFirst_after
    (hunraced : Throughout (Unraced db) (runBoard enabled tables db actions))
    {entry entry' : Entry BoardRequest BoardReply BoardResponse} {past past' : BoardTrace}
    (hentry : entry :: past <:+ runBoard enabled tables db actions)
    (hentry' : entry' :: past' <:+ runBoard enabled tables db actions)
    (hinserts : InsertsFirst entry) (hinserts' : InsertsFirst entry') :
    ¬ entry :: past <:+ past' := by
  intro hbetween
  have hoccupied := (hinserts.occupies hentry (hunraced entry past hentry)).2
  have hempty := (hinserts'.occupies hentry' (hunraced entry' past' hentry')).1
  refine hempty (suffix_induction (motive := fun point =>
    Occupied (replay boardEffect db point)) hoccupied ?_ hbetween
      ((List.suffix_cons _ _).trans hentry'))
  intro later before _ hlater hbefore
  exact occupied_cons hlater (hunraced later before hlater) hbefore

/-- If every `Bootstrap` inserts its operator into the table that it has found empty, and every
operator is deleted by one that is stored, all successful calls of `Bootstrap` are one call. -/
theorem bootstrap_once (enabled : Bool) (tables : CaseTables) (db : Database)
    (actions : List (Action BoardRequest Choice))
    (hunraced : Throughout (Unraced db) (runBoard enabled tables db actions)) :
    ∀ thread thread' identityID identityID' op op',
      ⟨thread, .bootstrap identityID, .answered (.founded op)⟩ ∈
        runBoard enabled tables db actions →
      ⟨thread', .bootstrap identityID', .answered (.founded op')⟩ ∈
        runBoard enabled tables db actions → thread = thread' := by
  intro thread thread' identityID identityID' op op' hfounded hfounded'
  obtain ⟨entry, past, hentry, rfl, hinserts⟩ := exists_insertsFirst hfounded
  obtain ⟨entry', past', hentry', rfl, hinserts'⟩ := exists_insertsFirst hfounded'
  rcases entry_trichotomy hentry hentry' with heq | hlt | hlt
  · exact congrArg Entry.thread (List.cons.inj heq).1
  · exact absurd hlt (not_insertsFirst_after hunraced hentry hentry' hinserts hinserts')
  · exact absurd hlt (not_insertsFirst_after hunraced hentry' hentry hinserts' hinserts)

end Runs

section Sample

/-- The tables after the migrations, as far as the founder's role goes. -/
def noOperators : Database := ⟨Table.empty, superAdminRole⟩

/-- The identities with which `Bootstrap` has succeeded, newest first. -/
def founders (history : BoardTrace) : List UUID :=
  history.filterMap fun entry =>
    match entry.step with
    | .answered (.founded op) => some op.identityID
    | _ => none

def drawing (id : UUID) : Choice := ⟨0, id, false⟩

/-- The second `Bootstrap` starts after the first. -/
def successiveBootstraps : List (Action BoardRequest Choice) :=
  Action.start (BoardRequest.bootstrap 11) :: List.replicate 7 (.step 0 (drawing 1)) ++
    Action.start (BoardRequest.bootstrap 12) :: List.replicate 7 (.step 1 (drawing 2))

theorem successiveBootstraps_once :
    founders (runBoard true plainTables noOperators successiveBootstraps) = [11] ∧
    ∀ thread thread' identityID identityID' op op',
      ⟨thread, .bootstrap identityID, .answered (.founded op)⟩ ∈
        runBoard true plainTables noOperators successiveBootstraps →
      ⟨thread', .bootstrap identityID', .answered (.founded op')⟩ ∈
        runBoard true plainTables noOperators successiveBootstraps → thread = thread' := by
  refine ⟨by decide +kernel, bootstrap_once true plainTables noOperators successiveBootstraps ?_⟩
  decide +kernel

/-- Both look for operators before either inserts one. -/
def concurrentBootstraps : List (Action BoardRequest Choice) :=
  Action.start (BoardRequest.bootstrap 11) :: .start (.bootstrap 12) :: .step 0 (drawing 1) ::
    List.replicate 7 (.step 1 (drawing 2)) ++ List.replicate 6 (Action.step 0 (drawing 1))

theorem bootstraps_twice :
    founders (runBoard true plainTables noOperators concurrentBootstraps) = [11, 12] := by
  decide +kernel

end Sample

end Aegion.Admin
