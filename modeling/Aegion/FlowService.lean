/-
Self-service flows and their service.  Every operation that changes a flow loads
the row and later stores it again as a whole; nothing between the two statements
keeps other operations from storing theirs.
-/
import Aegion.LoginService

namespace Aegion.Flows

open Go Service
open OAuth (Time DBError updated deleted)
open Login (FlowType FlowState FlowError ContextValue)

inductive MsgType where
  | info
  | error
  | success
  | warning
deriving Repr, DecidableEq

structure Msg where
  id : String
  type : MsgType
  text : String
  context : Option ContextValue
deriving Repr, DecidableEq

structure UIState where
  action : String
  method : String
  messages : List Msg
deriving Repr, DecidableEq

/-- A flow with what a login does not look at. -/
structure Flow extends Login.Flow where
  returnTo : String
  ui : Option UIState
deriving Repr, DecidableEq

/-- A row of `core_flows`, under `core_flows_state_check`. -/
structure Row where
  flow : Flow
  storable : flow.state.storable = true
deriving DecidableEq

def Row.id (row : Row) : UUID := row.flow.id

structure Database where
  flows : Table Row.id

inductive Call where
  | clock
  | selectFlow (id : UUID)
  | selectFlowByCSRF (csrfToken : String)
  | updateFlow (flow : Flow)
  | deleteExpired
deriving Repr, DecidableEq

/-- A deletion answers with its `NOW()` too. -/
abbrev Reply : Call → Type
  | .clock => Time
  | .selectFlow _ => Except DBError (Option Flow)
  | .selectFlowByCSRF _ => Except DBError (Option Flow)
  | .updateFlow _ => Except DBError Nat
  | .deleteExpired => Except DBError (Time × Nat)

/-- What the table leaves open: the clock, the order of rows, and failures. -/
structure Choice where
  now : Time
  order : UUID → Nat
  fails : Bool

/-- `SET` clause of `Update`: the CSRF token stays. -/
def Row.assign (flow : Flow) (hstorable : flow.state.storable = true) (row : Row) : Row :=
  ⟨{ flow with toFlow := flow.toFlow.assign row.flow.toFlow }, hstorable⟩

theorem Row.id_assign (flow : Flow) (hstorable : flow.state.storable = true)
    (row : Row) : (row.assign flow hstorable).id = row.id := rfl

/-- `WHERE` clause of `DeleteExpired`. -/
def Row.removable (current : Time) (row : Row) : Bool :=
  row.flow.expiresAt < current || row.flow.state.isTerminal

section Reply

variable (choice : Choice) (db : Database)

/-- A statement's answer unless the connection fails. -/
def answer {α : Type} (value : α) : Except DBError α :=
  if choice.fails then .error .failed else .ok value

/-- `WHERE csrf_token = $1 AND state = 'active'`; the token is not unique. -/
def activeByCSRF (csrfToken : String) : Option Row :=
  ((db.flows.rows.filter fun row =>
    row.flow.csrfToken = csrfToken && row.flow.state = .active).insertionSort
      fun a b => choice.order a.id ≤ choice.order b.id).head?

def reply : (c : Call) → Reply c
  | .clock => choice.now
  | .selectFlow id => answer choice ((db.flows.find? id).map Row.flow)
  | .selectFlowByCSRF csrfToken =>
      answer choice ((activeByCSRF choice db csrfToken).map Row.flow)
  | .updateFlow flow =>
      -- The constraint is checked on the row that the update touches.
      if flow.state.storable = true ∨ db.flows.affected (·.id = flow.id) = 0 then
        answer choice (db.flows.affected (·.id = flow.id))
      else .error .failed
  | .deleteExpired =>
      answer choice (choice.now, db.flows.affected (Row.removable choice.now))

end Reply

/-- What an acknowledged call does to the table. -/
def effect (call : Called Reply) (db : Database) : Database :=
  match call with
  | ⟨.updateFlow flow, reply⟩ =>
      if hstorable : flow.state.storable = true then
        { flows := updated reply db.flows (·.id = flow.id)
            (Row.assign flow hstorable) (Row.id_assign flow hstorable) }
      else db
  | ⟨.deleteExpired, .ok (current, _)⟩ =>
      { flows := db.flows.deleteWhere (Row.removable current) }
  | _ => db

/-- Execute one call. -/
def perform (choice : Choice) (c : Call) (db : Database) : Reply c × Database :=
  (reply choice db c, effect ⟨c, reply choice db c⟩ db)

/-- An error of the package, or a method called on a `nil` UI. -/
inductive Error where
  | flow (e : FlowError)
  | nilDereference
deriving Repr, DecidableEq

section Store

/-- What `Get` and `GetByCSRF` make of their query. -/
def scanned : Except DBError (Option Flow) → Except Error Flow
  | .ok (some flow) => .ok flow
  | .ok none => .error (.flow .notFound)
  | .error _ => .error (.flow .internal)

def get (id : UUID) : Service Reply Error Flow :=
  statement (.selectFlow id) scanned

def getByCSRF (csrfToken : String) : Service Reply Error Flow :=
  statement (.selectFlowByCSRF csrfToken) scanned

def update (flow : Flow) : Service Reply Error Unit :=
  statement (.updateFlow flow) fun
    | .ok 0 => .error (.flow .notFound)
    | .ok (_ + 1) => .ok ()
    | .error _ => .error (.flow .internal)

def deleteExpired : Service Reply Error Nat :=
  statement .deleteExpired fun
    | .ok (_, removed) => .ok removed
    | .error _ => .error (.flow .internal)

end Store

section Flow

variable (flow : Flow)

def Flow.complete : Except Error Flow :=
  match flow.toFlow.complete with
  | .ok done => .ok { flow with toFlow := done }
  | .error e => .error (.flow e)

def Flow.fail : Flow :=
  if flow.state.isTerminal then flow else { flow with state := .failed }

/-- `append` to the messages of the UI, which may be `nil`. -/
def Flow.addMessage (msg : Msg) : Except Error Flow :=
  match flow.ui with
  | some ui => .ok { flow with ui := some { ui with messages := ui.messages ++ [msg] } }
  | none => .error .nilDereference

/-- What a caller changes in a flow before it hands it to `UpdateFlow`. -/
inductive Edit where
  | setIdentity (identityID : UUID)
  | setSession (sessionID : UUID)
  | setReturnTo (returnTo : String)
  | addContext (key : String) (value : ContextValue)
  | deleteContext (key : String)
  | setUI (ui : UIState)
deriving Repr, DecidableEq

def Edit.apply : Edit → Flow
  | .setIdentity identityID => { flow with identityID := some identityID }
  | .setSession sessionID => { flow with sessionID := some sessionID }
  | .setReturnTo returnTo => { flow with returnTo := returnTo }
  | .addContext key value => { flow with toFlow := flow.toFlow.addContext key value }
  | .deleteContext key => { flow with toFlow := flow.toFlow.deleteContext key }
  | .setUI ui => { flow with ui := some ui }

def Flow.edited (edits : List Edit) : Flow := edits.foldl Edit.apply flow

end Flow

section Methods

def now {ε : Type} : Service Reply ε Time := statement .clock .ok

def checkFlowState (flow : Flow) (current : Time) : Except Error Unit :=
  (Login.checkFlowState flow.toFlow current).mapError .flow

def getFlow (id : UUID) : Service Reply Error Flow := do
  let flow ← get id
  let current ← now
  ofExcept (checkFlowState flow current)
  return flow

def validateFlow (id : UUID) (csrfToken : String) : Service Reply Error Flow := do
  let flow ← get id
  let current ← now
  ofExcept (checkFlowState flow current)
  rejectIf (Login.validateCSRFToken flow.csrfToken csrfToken = false)
    (.flow .invalidCSRF)
  return flow

def validateFlowByCSRF (csrfToken : String) : Service Reply Error Flow := do
  let flow ← getByCSRF csrfToken
  let current ← now
  ofExcept (checkFlowState flow current)
  return flow

def completeFlow (id : UUID) : Service Reply Error Unit := do
  let flow ← get id
  let done ← ofExcept flow.complete
  update done

def failFlow (id : UUID) (errMsg : String) : Service Reply Error Unit := do
  let flow ← get id
  let failed := flow.fail
  let failed ← ofExcept (if errMsg ≠ "" then
    failed.addMessage ⟨"flow_error", .error, errMsg, none⟩ else .ok failed)
  update failed

def updateFlowUI (id : UUID) (ui : Option UIState) : Service Reply Error Unit := do
  let flow ← get id
  update { flow with ui := ui }

def addFlowMessage (id : UUID) (msg : Msg) : Service Reply Error Unit := do
  let flow ← get id
  let extended ← ofExcept (flow.addMessage msg)
  update extended

def updateFlow : Option Flow → Service Reply Error Unit
  | none => reject (.flow .notFound)
  | some flow => update flow

/-- How a caller comes by the flow that it hands to `UpdateFlow`. -/
inductive Load where
  | get (id : UUID)
  | getFlow (id : UUID)
  | validateFlow (id : UUID) (csrfToken : String)
  | validateFlowByCSRF (csrfToken : String)
deriving Repr, DecidableEq

def Load.run : Load → Service Reply Error Flow
  | .get id => Flows.get id
  | .getFlow id => Flows.getFlow id
  | .validateFlow id csrfToken => Flows.validateFlow id csrfToken
  | .validateFlowByCSRF csrfToken => Flows.validateFlowByCSRF csrfToken

/-- A caller that loads a flow, changes it and stores it. -/
def loadAndUpdate (load : Load) (edits : List Edit) : Service Reply Error Unit := do
  let flow ← load.run
  updateFlow (some (flow.edited edits))

end Methods

inductive Request where
  | getFlow (id : UUID)
  | validateFlow (id : UUID) (csrfToken : String)
  | validateFlowByCSRF (csrfToken : String)
  | completeFlow (id : UUID)
  | failFlow (id : UUID) (errMsg : String)
  | updateFlowUI (id : UUID) (ui : Option UIState)
  | addFlowMessage (id : UUID) (msg : Msg)
  | updateFlow (load : Load) (edits : List Edit)
  | cleanup
deriving Repr, DecidableEq

inductive Response where
  | flow (flow : Flow)
  | done
  | cleaned (removed : Nat)
  | failed (e : Error)
deriving Repr, DecidableEq

def serve : Request → Program Reply Response
  | .getFlow id => (getFlow id).finish .flow .failed
  | .validateFlow id csrfToken => (validateFlow id csrfToken).finish .flow .failed
  | .validateFlowByCSRF csrfToken =>
      (validateFlowByCSRF csrfToken).finish .flow .failed
  | .completeFlow id => (completeFlow id).finish (fun _ => .done) .failed
  | .failFlow id errMsg => (failFlow id errMsg).finish (fun _ => .done) .failed
  | .updateFlowUI id ui => (updateFlowUI id ui).finish (fun _ => .done) .failed
  | .addFlowMessage id msg => (addFlowMessage id msg).finish (fun _ => .done) .failed
  | .updateFlow load edits => (loadAndUpdate load edits).finish (fun _ => .done) .failed
  | .cleanup => deleteExpired.finish .cleaned .failed

def system : System Request Reply Response Database Choice := ⟨serve, perform⟩

abbrev Trace := History Request Reply Response

abbrev Event := Entry Request Reply Response

abbrev Schedule := List (Action Request Choice)

/-- Everything that happens when the scheduler's decisions are carried out. -/
def runFrom (db : Database) (actions : Schedule) : Trace :=
  (system.execute actions (System.initial db)).history

end Aegion.Flows
