/-
The state of a flow over interleaved operations.  A failed flow stays failed as
long as nobody stores a copy that was loaded before the failure.  The state that
`CompleteFlow` stores is one that the table's constraint refuses, so that no flow
is ever completed.
-/
import Aegion.FlowService
import Aegion.HistoryLaws

namespace Aegion.Flows

open Go Service History
open OAuth (Time DBError updated)
open Login (FlowState)

abbrev Past := List (Called Reply)

/-- The flow that a thread has loaded. -/
def loaded : Past → Option Flow
  | [] => none
  | ⟨.selectFlow _, .ok (some flow)⟩ :: _ => some flow
  | ⟨.selectFlowByCSRF _, .ok (some flow)⟩ :: _ => some flow
  | _ :: past => loaded past

/-- The state that a request stores for the one that it has loaded. -/
def Request.stores : Request → FlowState → FlowState
  | .completeFlow _, _ => .completed
  | .failFlow .., state => if state.isTerminal then state else .failed
  | _, state => state

section Duties

def callDuty (request : Request) (past : Past) : Called Reply → Prop
  | ⟨.updateFlow flow, _⟩ => ∃ old, loaded past = some old ∧ flow.id = old.id ∧
      flow.state = request.stores old.state
  | _ => True

/-- A flow that was accepted has been read and checked, and a completion has been
stored. -/
def answerDuty (request : Request) (response : Response) (past : Past) : Prop :=
  match request, response with
  | .validateFlow id _, .flow flow => ∃ current,
      past = [⟨.clock, current⟩, ⟨.selectFlow id, .ok (some flow)⟩] ∧
        checkFlowState flow current = .ok ()
  | .completeFlow _, .done => ∃ flow n before,
      past = ⟨.updateFlow flow, .ok (n + 1)⟩ :: before
  | _, _ => True

end Duties

section Operations

variable {flow done : Flow}

theorem complete_eq_ok (hdone : flow.complete = .ok done) :
    done.id = flow.id ∧ done.state = .completed := by
  unfold Flow.complete Login.Flow.complete at hdone
  by_cases hterminal : flow.state.isTerminal = true
  · rw [if_pos hterminal] at hdone
    cases hdone
  · rw [if_neg hterminal] at hdone
    cases hdone
    exact ⟨rfl, rfl⟩

theorem id_fail : flow.fail.id = flow.id := by
  unfold Flow.fail
  split_ifs
  · rfl
  · rfl

theorem state_fail : flow.fail.state = if flow.state.isTerminal then flow.state else .failed := by
  unfold Flow.fail
  split_ifs
  · rfl
  · rfl

theorem addMessage_eq_ok {msg : Msg} (hdone : flow.addMessage msg = .ok done) :
    done.id = flow.id ∧ done.state = flow.state := by
  unfold Flow.addMessage at hdone
  split at hdone
  · cases hdone
    exact ⟨rfl, rfl⟩
  · cases hdone

theorem apply_frame (edit : Edit) (flow : Flow) :
    (edit.apply flow).id = flow.id ∧ (edit.apply flow).state = flow.state := by
  cases edit <;> exact ⟨rfl, rfl⟩

theorem edited_frame (edits : List Edit) (flow : Flow) :
    (flow.edited edits).id = flow.id ∧ (flow.edited edits).state = flow.state := by
  induction edits generalizing flow with
  | nil => exact ⟨rfl, rfl⟩
  | cons edit rest ih =>
      have hrest := ih (edit.apply flow)
      have hedit := apply_frame edit flow
      exact ⟨hrest.1.trans hedit.1, hrest.2.trans hedit.2⟩

end Operations

section Programs

variable {request : Request} {past : Past}

theorem yields_get {id : UUID} {post : Flow → Past → Prop}
    (hpost : ∀ flow, post flow (⟨.selectFlow id, .ok (some flow)⟩ :: past)) :
    (get id).Yields (callDuty request) post past := by
  rw [get, yields_statement]
  rintro (e | _ | flow)
  · exact ⟨trivial, fun _ hvalue => by cases hvalue⟩
  · exact ⟨trivial, fun _ hvalue => by cases hvalue⟩
  · refine ⟨trivial, fun value hvalue => ?_⟩
    cases hvalue
    exact hpost flow

theorem yields_update (request : Request) (old : Flow) {flow : Flow} (hold : loaded past = some old)
    (hid : flow.id = old.id) (hstate : flow.state = request.stores old.state) :
    (update flow).Yields (callDuty request)
      (fun _ later => ∃ n, later = ⟨.updateFlow flow, .ok (n + 1)⟩ :: past) past := by
  rw [update, yields_statement]
  intro reply
  refine ⟨⟨old, hold, hid, hstate⟩, ?_⟩
  rcases reply with e | _ | n
  · exact fun _ hvalue => by cases hvalue
  · exact fun _ hvalue => by cases hvalue
  · exact fun _ _ => ⟨n, rfl⟩

theorem yields_validateFlow (id : UUID) (csrfToken : String) :
    (validateFlow id csrfToken).Yields (callDuty request) (fun flow later => ∃ current,
        later = ⟨.clock, current⟩ :: ⟨.selectFlow id, .ok (some flow)⟩ :: past ∧
          checkFlowState flow current = .ok ()) past := by
  unfold validateFlow now
  simp only [bind_eq, pure_eq, yields_bind]
  refine yields_get fun flow => ?_
  simp only [yields_statement, yields_ofExcept, yields_rejectIf, yields_succeed]
  refine fun current => ⟨trivial, fun value hvalue _ hchecked _ => ?_⟩
  cases hvalue
  exact ⟨current, rfl, hchecked⟩

/-- However a caller comes by a flow, it has loaded it. -/
theorem yields_load (load : Load) :
    load.run.Yields (callDuty request) (fun flow later => loaded later = some flow) past := by
  cases load with
  | get id => exact yields_get fun _ => rfl
  | getFlow id =>
      simp only [Load.run, getFlow, bind_eq, pure_eq, yields_bind]
      refine yields_get fun flow => ?_
      simp only [now, yields_statement, yields_ofExcept, yields_succeed]
      exact fun _ => ⟨trivial, fun _ _ _ _ => rfl⟩
  | validateFlow id csrfToken =>
      refine (yields_validateFlow id csrfToken).imp ?_
      rintro flow later - ⟨current, rfl, -⟩
      rfl
  | validateFlowByCSRF csrfToken =>
      simp only [Load.run, validateFlowByCSRF, getByCSRF, bind_eq, pure_eq,
        yields_bind, now, yields_statement, yields_ofExcept, yields_succeed]
      rintro (e | _ | flow)
      · exact ⟨trivial, fun _ hvalue => by cases hvalue⟩
      · exact ⟨trivial, fun _ hvalue => by cases hvalue⟩
      · refine ⟨trivial, fun value hvalue _ => ⟨trivial, fun _ _ _ _ => ?_⟩⟩
        cases hvalue
        rfl

theorem yields_completeFlow (id : UUID) :
    (completeFlow id).Yields (callDuty (.completeFlow id)) (fun _ later => ∃ flow n before,
        later = ⟨.updateFlow flow, .ok (n + 1)⟩ :: before) past := by
  unfold completeFlow
  simp only [bind_eq, yields_bind]
  refine yields_get fun flow => ?_
  rw [yields_ofExcept]
  intro done hdone
  obtain ⟨hid, hstate⟩ := complete_eq_ok hdone
  refine (yields_update (.completeFlow id) flow rfl hid hstate).imp ?_
  rintro _ later - ⟨n, rfl⟩
  exact ⟨done, n, _, rfl⟩

theorem yields_failFlow (id : UUID) (errMsg : String) :
    (failFlow id errMsg).Yields (callDuty (.failFlow id errMsg)) (fun _ _ => True) past := by
  unfold failFlow
  simp only [bind_eq, yields_bind]
  refine yields_get fun flow => ?_
  rw [yields_ofExcept]
  intro failed hfailed
  have hframe : failed.id = flow.fail.id ∧ failed.state = flow.fail.state := by
    by_cases hmsg : errMsg ≠ ""
    · rw [if_pos hmsg] at hfailed
      exact addMessage_eq_ok hfailed
    · rw [if_neg hmsg] at hfailed
      cases hfailed
      exact ⟨rfl, rfl⟩
  refine (yields_update (.failFlow id errMsg) flow rfl (hframe.1.trans id_fail)
    (hframe.2.trans state_fail)).imp ?_
  exact fun _ _ _ _ => trivial

theorem keeps_serve (request : Request) :
    (serve request).Keeps (callDuty request) (answerDuty request) [] := by
  cases request with
  | getFlow id =>
      exact (yields_load (.getFlow id)).finish_plain
  | validateFlow id csrfToken =>
      exact (yields_validateFlow id csrfToken).finish (fun _ _ haccepted => haccepted)
        fun _ _ => trivial
  | validateFlowByCSRF csrfToken =>
      exact (yields_load (.validateFlowByCSRF csrfToken)).finish_plain
  | completeFlow id =>
      exact (yields_completeFlow id).finish (fun _ _ hdone => hdone) fun _ _ => trivial
  | failFlow id errMsg =>
      exact (yields_failFlow id errMsg).finish_plain
  | updateFlowUI id ui =>
      have hyields : (updateFlowUI id ui).Yields (callDuty (.updateFlowUI id ui))
          (fun _ _ => True) [] := by
        unfold updateFlowUI
        simp only [bind_eq, yields_bind]
        refine yields_get fun flow => ?_
        have hloaded : loaded [⟨.selectFlow id, .ok (some flow)⟩] = some flow := rfl
        have hframe : ({ flow with ui := ui } : Flow).id = flow.id ∧
            ({ flow with ui := ui } : Flow).state = flow.state := ⟨rfl, rfl⟩
        exact (yields_update (.updateFlowUI id ui) flow hloaded hframe.1
          hframe.2).imp fun _ _ _ _ => trivial
      exact hyields.finish_plain
  | addFlowMessage id msg =>
      have hyields : (addFlowMessage id msg).Yields
          (callDuty (.addFlowMessage id msg)) (fun _ _ => True) [] := by
        unfold addFlowMessage
        simp only [bind_eq, yields_bind]
        refine yields_get fun flow => ?_
        rw [yields_ofExcept]
        intro extended hextended
        obtain ⟨hid, hstate⟩ := addMessage_eq_ok hextended
        exact (yields_update (.addFlowMessage id msg) flow rfl hid hstate).imp
          fun _ _ _ _ => trivial
      exact hyields.finish_plain
  | updateFlow load edits =>
      have hyields : (loadAndUpdate load edits).Yields
          (callDuty (.updateFlow load edits)) (fun _ _ => True) [] := by
        unfold loadAndUpdate updateFlow
        simp only [bind_eq, yields_bind]
        refine (yields_load load).imp fun flow later _ hloaded => ?_
        obtain ⟨hid, hstate⟩ := edited_frame edits flow
        exact (yields_update (.updateFlow load edits) flow hloaded hid hstate).imp
          fun _ _ _ _ => trivial
      exact hyields.finish_plain
  | cleanup =>
      have hyields : deleteExpired.Yields (callDuty .cleanup) (fun _ _ => True) [] := by
        rw [deleteExpired, yields_statement]
        exact fun _ => ⟨trivial, fun _ _ => trivial⟩
      exact hyields.finish_plain

end Programs

section Table

variable {db : Database} {id : UUID} {state : FlowState}

/-- The state that is stored under an id. -/
def stateOf (db : Database) (id : UUID) : Option FlowState :=
  (db.flows.find? id).map (·.flow.state)

theorem storable_of_stateOf (hstate : stateOf db id = some state) : state.storable = true := by
  obtain ⟨row, -, rfl⟩ := Option.map_eq_some_iff.mp hstate
  exact row.storable

/-- The constraint leaves one terminal state. -/
theorem eq_failed (hstorable : state.storable = true)
    (hterminal : state.isTerminal = true) : state = .failed := by
  cases state with
  | active => cases hterminal
  | completed => cases hstorable
  | failed => rfl
  | expired => cases hstorable

theorem eq_active (hstorable : state.storable = true)
    (hopen : state.isTerminal = false) : state = .active := by
  cases state with
  | active => rfl
  | completed => cases hstorable
  | failed => cases hopen
  | expired => cases hstorable

/-- An update that goes through stores the state it carries. -/
theorem stateOf_update {flow : Flow} {n : Nat} (hid : flow.id = id)
    (hstorable : flow.state.storable = true) :
    stateOf (effect ⟨.updateFlow flow, .ok n⟩ db) id = (stateOf db id).map fun _ => flow.state := by
  subst hid
  simp only [effect, hstorable, ↓reduceDIte, updated, stateOf,
    Table.find?_updateWhere, Option.map_map]
  cases hfind : db.flows.find? flow.id with
  | none => rfl
  | some row =>
      have hkey := ((db.flows.find?_eq_some_iff _ row).mp hfind).2
      simp [hkey, Row.assign, Login.Flow.assign]

/-- What a call can do to the state of a flow: nothing, store the state that an
update carries, or remove the row. -/
theorem stateOf_effect (call : Called Reply) (db : Database) (id : UUID) :
    stateOf (effect call db) id = stateOf db id ∨
      stateOf (effect call db) id = none ∨
      ∃ flow n, call = ⟨.updateFlow flow, .ok n⟩ ∧ flow.id = id ∧
        flow.state.storable = true ∧ stateOf db id ≠ none ∧
        stateOf (effect call db) id = some flow.state := by
  obtain ⟨c, reply⟩ := call
  cases c with
  | clock => exact Or.inl rfl
  | selectFlow _ => exact Or.inl rfl
  | selectFlowByCSRF _ => exact Or.inl rfl
  | deleteExpired =>
      rcases reply with e | ⟨current, removed⟩
      · exact Or.inl rfl
      · simp only [effect, stateOf, Table.find?_deleteWhere]
        cases db.flows.find? id with
        | none => exact Or.inl rfl
        | some row =>
            rw [Option.filter_some]
            split_ifs
            · exact Or.inl rfl
            · exact Or.inr (Or.inl rfl)
  | updateFlow flow =>
      by_cases hstorable : flow.state.storable = true
      · rcases reply with e | n
        · left
          simp only [effect, hstorable, ↓reduceDIte, updated]
        · by_cases hid : flow.id = id
          · rw [stateOf_update hid hstorable]
            cases hstate : stateOf db id with
            | none => exact Or.inl rfl
            | some state =>
                exact Or.inr (Or.inr ⟨flow, n, rfl, hid, hstorable, by simp, rfl⟩)
          · left
            simp only [effect, hstorable, ↓reduceDIte, updated, stateOf, Table.find?_updateWhere]
            cases hfind : db.flows.find? id with
            | none => rfl
            | some row =>
                have hkey := ((db.flows.find?_eq_some_iff _ row).mp hfind).2
                have hother : row.id ≠ flow.id := fun heq =>
                  hid (heq.symm.trans hkey)
                simp [hother]
      · left
        simp only [effect, hstorable, Bool.false_eq_true, ↓reduceDIte]

/-- A query that answers with a flow has found its row. -/
theorem exists_row_of_answer {choice : Choice} {found : Option Row} {flow : Flow}
    (hreply : answer choice (found.map Row.flow) = .ok (some flow)) :
    ∃ row, found = some row ∧ row.flow = flow := by
  unfold answer at hreply
  split_ifs at hreply
  exact Option.map_eq_some_iff.mp (Except.ok.inj hreply)

end Table

section Runs

variable {db : Database} {actions : Schedule}

theorem owes_of_run : Throughout (Owes callDuty answerDuty) (runFrom db actions) :=
  system.execute_owes keeps_serve actions db

theorem answers_of_run : Throughout (Answers perform effect db) (runFrom db actions) :=
  (system.execute_replay (fun _ _ _ => rfl) actions db).2

theorem coherent_of_run : Throughout Coherent (runFrom db actions) :=
  system.execute_coherent actions db

/-- The state of a flow after the calls of a history. -/
def stateAfter (db : Database) (id : UUID) (history : Trace) : Option FlowState :=
  stateOf (replay effect db history) id

/-- The query by which a thread has loaded its flow. -/
theorem exists_select_of_loaded {past : Past} {flow : Flow} (hloaded : loaded past = some flow) :
    (∃ id, (⟨.selectFlow id, .ok (some flow)⟩ : Called Reply) ∈ past) ∨
      ∃ csrfToken, (⟨.selectFlowByCSRF csrfToken, .ok (some flow)⟩ : Called Reply) ∈ past := by
  induction past using loaded.induct with
  | case1 => cases hloaded
  | case2 id found rest =>
      cases hloaded
      exact Or.inl ⟨id, List.mem_cons_self⟩
  | case3 csrfToken found rest =>
      cases hloaded
      exact Or.inr ⟨csrfToken, List.mem_cons_self⟩
  | case4 rest call hfirst hsecond ih =>
      rw [loaded] at hloaded
      · rcases ih hloaded with ⟨id, hmem⟩ | ⟨csrfToken, hmem⟩
        · exact Or.inl ⟨id, List.mem_cons_of_mem _ hmem⟩
        · exact Or.inr ⟨csrfToken, List.mem_cons_of_mem _ hmem⟩
      · exact hfirst
      · exact hsecond

/-- A thread's own call was answered from the tables of its time. -/
theorem exists_reply_of_own {past : Trace} {thread : Nat} {call : Called Reply}
    (hpast : past <:+ runFrom db actions) (hcall : call ∈ own thread past) :
    ∃ before : Trace, ∃ choice,
      call.2 = (perform choice call.1 (replay effect db before)).1 := by
  obtain ⟨request, hentry⟩ := mem_own_iff.mp hcall
  obtain ⟨before, hbefore⟩ := exists_past_of_mem hentry
  exact ⟨before, answers_of_run _ before (hbefore.trans hpast) _ rfl⟩

/-- A loaded flow carries a state that the table can hold. -/
theorem storable_of_loaded {past : Trace} {thread : Nat} {flow : Flow}
    (hpast : past <:+ runFrom db actions) (hloaded : loaded (own thread past) = some flow) :
    flow.state.storable = true := by
  rcases exists_select_of_loaded hloaded with ⟨id, hmem⟩ | ⟨csrfToken, hmem⟩
  · obtain ⟨before, choice, hreply⟩ := exists_reply_of_own hpast hmem
    obtain ⟨row, -, rfl⟩ := exists_row_of_answer hreply.symm
    exact row.storable
  · obtain ⟨before, choice, hreply⟩ := exists_reply_of_own hpast hmem
    obtain ⟨row, -, rfl⟩ := exists_row_of_answer hreply.symm
    exact row.storable

end Runs

section Terminal

/-- The requests that store a flow in the state in which they have loaded it. -/
def Request.keepsState : Request → Bool
  | .completeFlow _ => false
  | .failFlow .. => false
  | _ => true

/-- The update of a flow in the state of an active copy, when the flow has become
terminal since the copy was loaded. -/
def Stale (db : Database) (id : UUID) (past : Trace) (entry : Event) : Prop :=
  ∃ flow n old state, entry.step = .called ⟨.updateFlow flow, .ok n⟩ ∧
    entry.request.keepsState = true ∧
    loaded (own entry.thread past) = some old ∧ old.id = id ∧
    old.state = .active ∧
    stateAfter db id past = some state ∧ state.isTerminal = true

/-- A terminal state stays for as long as the row does, and no `ValidateFlow` that
reads the flow from then on accepts it. -/
structure Absorbing (db : Database) (id : UUID) (history : Trace) : Prop where
  kept : ∀ before after state, before <:+ after → after <:+ history →
    stateAfter db id before = some state → state.isTerminal = true →
      stateAfter db id after = none ∨ stateAfter db id after = some state
  refused : ∀ before past state thread csrfToken reply flow, before <:+ past →
    ⟨thread, .validateFlow id csrfToken, .called ⟨.selectFlow id, reply⟩⟩ :: past <:+ history →
    stateAfter db id before = some state → state.isTerminal = true →
      ⟨thread, .validateFlow id csrfToken, .answered (.flow flow)⟩ ∉ history

variable {db : Database} {actions : Schedule} {id : UUID}

/-- One step from a terminal state. -/
theorem kept_of_not_stale {entry : Event} {past : Trace}
    {state : FlowState} (hentry : entry :: past <:+ runFrom db actions)
    (hfresh : ¬ Stale db id past entry) (hstate : stateAfter db id past = some state)
    (hterminal : state.isTerminal = true) :
    stateAfter db id (entry :: past) = none ∨
      stateAfter db id (entry :: past) = some state := by
  obtain ⟨thread, request, step⟩ := entry
  cases step with
  | answered answer => exact Or.inr hstate
  | called call =>
      change stateOf (effect call (replay effect db past)) id = none ∨
        stateOf (effect call (replay effect db past)) id = some state
      rcases stateOf_effect call (replay effect db past) id with
        hsame | hgone | ⟨flow, n, rfl, hid, hstorable, -, hnew⟩
      · exact Or.inr (hsame.trans hstate)
      · exact Or.inl hgone
      · right
        obtain ⟨old, hloaded, hold, hstores⟩ := owes_of_run _ past hentry
        have hfailed := eq_failed (storable_of_stateOf hstate) hterminal
        have hpast := (List.suffix_cons _ _).trans hentry
        have hloadable := storable_of_loaded hpast hloaded
        rw [hnew, hfailed, Option.some.injEq]
        by_cases hkeeps : request.keepsState = true
        · -- A copy that is not active is failed, like the stored flow.
          have hsame : flow.state = old.state := by
            cases request <;> first | exact hstores | cases hkeeps
          rw [hsame]
          refine eq_failed hloadable ?_
          by_contra hopen
          refine hfresh ⟨flow, n, old, state, rfl, hkeeps, hloaded,
            hold.symm.trans hid, ?_, hstate, hterminal⟩
          exact eq_active hloadable (Bool.not_eq_true _ ▸ hopen)
        · cases request with
          | completeFlow id' =>
              rw [hstores] at hstorable
              cases hstorable
          | failFlow id' errMsg =>
              rw [hstores]
              by_cases hopen : old.state.isTerminal = true
              · rw [Request.stores, if_pos hopen]
                exact eq_failed hloadable hopen
              · rw [Request.stores, if_neg hopen]
          | _ => exact absurd rfl hkeeps

/-- Nothing brings a removed flow back. -/
theorem gone_of_gone (entry : Event) {past : Trace}
    (hgone : stateAfter db id past = none) : stateAfter db id (entry :: past) = none := by
  obtain ⟨thread, request, step⟩ := entry
  cases step with
  | answered answer => exact hgone
  | called call =>
      change stateOf (effect call (replay effect db past)) id = none
      rcases stateOf_effect call (replay effect db past) id with
        hsame | hnone | ⟨-, -, -, -, -, hthere, -⟩
      · exact hsame.trans hgone
      · exact hnone
      · exact absurd hgone hthere

/-- A run of such steps. -/
theorem kept_of_fresh (hfresh : ∀ entry past, entry :: past <:+ runFrom db actions →
      ¬ Stale db id past entry)
    {before after : Trace} {state : FlowState} (hbefore : before <:+ after)
    (hafter : after <:+ runFrom db actions) (hstate : stateAfter db id before = some state)
    (hterminal : state.isTerminal = true) :
    stateAfter db id after = none ∨ stateAfter db id after = some state := by
  refine suffix_induction (motive := fun later =>
    stateAfter db id later = none ∨ stateAfter db id later = some state)
    (Or.inr hstate) ?_ hbefore hafter
  rintro entry past - hentry (hgone | hsame)
  · exact Or.inl (gone_of_gone entry hgone)
  · exact kept_of_not_stale hentry (hfresh entry past hentry) hsame hterminal

/-- An accepted flow was active when it was read. -/
theorem active_of_accepted {past : Trace} {thread : Nat} {csrfToken : String}
    {reply : Except DBError (Option Flow)} {flow : Flow}
    (hread : ⟨thread, .validateFlow id csrfToken,
      .called ⟨.selectFlow id, reply⟩⟩ :: past <:+ runFrom db actions)
    (haccepted : ⟨thread, .validateFlow id csrfToken, .answered (.flow flow)⟩ ∈
      runFrom db actions) :
    stateAfter db id past = some .active := by
  obtain ⟨before, hbefore⟩ := exists_past_of_mem haccepted
  obtain ⟨current, hcalls, hchecked⟩ := owes_of_run _ before hbefore
  have hactive : flow.state = .active := by
    unfold checkFlowState Login.checkFlowState at hchecked
    split at hchecked
    · cases hchecked
    · cases hstate : flow.state <;> rw [hstate] at hchecked <;> first | rfl | cases hchecked
  have hearlier := call_before_answer coherent_of_run hread hbefore
  have hmem : (⟨.selectFlow id, reply⟩ : Called Reply) ∈ own thread before :=
    mem_own_iff.mpr ⟨_, mem_of_suffix_cons hearlier⟩
  have hreply : reply = .ok (some flow) := by
    change own thread before = _ at hcalls
    rw [hcalls] at hmem
    simpa using hmem
  subst hreply
  obtain ⟨choice, hanswer⟩ := answers_of_run _ past hread _ rfl
  obtain ⟨row, hrow, rfl⟩ := exists_row_of_answer hanswer.symm
  rw [stateAfter, stateOf, hrow, Option.map_some, hactive]

/-- Terminal states are absorbing in exactly the runs without a stale update. -/
theorem terminal_absorbing_iff (db : Database) (id : UUID) (actions : Schedule) :
    Absorbing db id (runFrom db actions) ↔
      ∀ entry past, entry :: past <:+ runFrom db actions → ¬ Stale db id past entry := by
  constructor
  · rintro habsorbing ⟨thread, request, step⟩ past hentry ⟨flow, n, old, state,
      hstep, hkeeps, hloaded, hid, hactive, hstate, hterminal⟩
    cases hstep
    obtain ⟨old', hloaded', hold, hstores⟩ := owes_of_run _ past hentry
    cases hloaded.symm.trans hloaded'
    have hnew : flow.state = .active := by
      cases request <;> first | exact hstores.trans hactive | cases hkeeps
    have hafter : stateAfter db id
        (⟨thread, request, .called ⟨.updateFlow flow, .ok n⟩⟩ :: past) = some .active := by
      change stateOf (effect ⟨.updateFlow flow, .ok n⟩ (replay effect db past)) id =
        some .active
      rw [stateOf_update (hold.trans hid) (by rw [hnew]; rfl), hnew]
      change (stateAfter db id past).map _ = _
      rw [hstate]
      rfl
    rcases habsorbing.kept past _ state (List.suffix_cons _ _) hentry hstate
      hterminal with hgone | hsame
    · rw [hafter] at hgone
      cases hgone
    · rw [hafter, Option.some.injEq] at hsame
      rw [← hsame] at hterminal
      cases hterminal
  · intro hfresh
    constructor
    · intro before after state hbefore hafter hstate hterminal
      exact kept_of_fresh hfresh hbefore hafter hstate hterminal
    · intro before past state thread csrfToken reply flow hbefore hread hstate hterminal haccepted
      have hactive := active_of_accepted hread haccepted
      rcases kept_of_fresh hfresh hbefore ((List.suffix_cons _ _).trans hread) hstate
        hterminal with hgone | hsame
      · rw [hactive] at hgone
        cases hgone
      · rw [hactive, Option.some.injEq] at hsame
        rw [← hsame] at hterminal
        cases hterminal

end Terminal

section Sample

def sampleFlow : Flow where
  id := 1
  type := .login
  state := .active
  identityID := none
  sessionID := none
  requestURL := "/login"
  context := []
  expiresAt := 10
  csrfToken := "token"
  returnTo := ""
  ui := some ⟨"/login", "POST", []⟩

def sampleDatabase : Database := ⟨Table.single ⟨sampleFlow, rfl⟩⟩

def sampleChoice : Choice := ⟨0, fun _ => 0, false⟩

/-- As many steps of one thread. -/
def steps (thread n : Nat) : Schedule :=
  List.replicate n (.step thread sampleChoice)

/-- `UpdateFlowUI` loads the flow, `FailFlow` runs, `UpdateFlowUI` stores its copy,
and `ValidateFlow` runs. -/
def staleHistory : Trace :=
  runFrom sampleDatabase
    (.start (.updateFlowUI 1 none) :: .start (.failFlow 1 "") ::
      .start (.validateFlow 1 "token") ::
      (steps 0 1 ++ steps 1 3 ++ steps 0 2 ++ steps 2 3))

instance (c : Call) : DecidableEq (Reply c) := by
  cases c <;> infer_instance

/-- A failed flow becomes active again and is accepted. -/
theorem updateFlowUI_revives_failed :
    stateAfter sampleDatabase 1 (staleHistory.drop 5) = some .failed ∧
      stateAfter sampleDatabase 1 staleHistory = some .active ∧
      ⟨2, .validateFlow 1 "token", .answered (.flow { sampleFlow with ui := none })⟩ ∈
        staleHistory ∧
      ¬ Absorbing sampleDatabase 1 staleHistory := by
  have hrun : stateAfter sampleDatabase 1 (staleHistory.drop 5) = some .failed ∧
      stateAfter sampleDatabase 1 staleHistory = some .active ∧
      ⟨2, .validateFlow 1 "token", .answered (.flow { sampleFlow with ui := none })⟩ ∈
        staleHistory := by
    decide +kernel
  obtain ⟨hfailed, hactive, haccepted⟩ := hrun
  refine ⟨hfailed, hactive, haccepted, fun habsorbing => ?_⟩
  rcases habsorbing.kept _ staleHistory .failed (List.drop_suffix 5 _)
    List.suffix_rfl hfailed rfl with hgone | hsame
  · rw [hactive] at hgone
    cases hgone
  · rw [hactive] at hsame
    cases hsame

end Sample

section Completion

/-- How many `CompleteFlow` calls on a flow have returned `nil`. -/
def completions (id : UUID) (history : Trace) : Nat :=
  history.countP fun entry =>
    entry.request = .completeFlow id && entry.step = .answered .done

/-- No completion is ever stored, whatever is stored and whoever calls what. -/
theorem completions_eq_zero (db : Database) (id : UUID) (actions : Schedule) :
    completions id (runFrom db actions) = 0 := by
  refine List.countP_eq_zero.mpr ?_
  rintro ⟨thread, request, step⟩ hmem hdone
  simp only [Bool.and_eq_true, decide_eq_true_eq] at hdone
  obtain ⟨rfl, rfl⟩ := hdone
  obtain ⟨past, hanswered⟩ := exists_past_of_mem hmem
  obtain ⟨flow, n, before, hcalls⟩ := owes_of_run _ past hanswered
  obtain ⟨request, earlier, hupdate, -⟩ := exists_last_entry hcalls
  have hupdated := hupdate.trans ((List.suffix_cons _ _).trans hanswered)
  have hsame : request = .completeFlow id :=
    request_eq coherent_of_run (mem_of_suffix_cons hupdated) hmem rfl
  subst hsame
  obtain ⟨old, -, -, hcompleted⟩ := owes_of_run _ earlier hupdated
  obtain ⟨choice, hreply⟩ := answers_of_run _ earlier hupdated _ rfl
  -- The row is there, so that its constraint is checked.
  simp only [perform, reply] at hreply
  split_ifs at hreply with hvalid
  · unfold answer at hreply
    split_ifs at hreply
    rcases hvalid with hstorable | hnone
    · rw [hcompleted] at hstorable
      cases hstorable
    · rw [hnone] at hreply
      cases hreply

/-- A stored, active, unexpired flow: its only completion fails. -/
theorem only_completion_fails :
    stateOf sampleDatabase 1 = some .active ∧
      sampleFlow.toFlow.isExpired sampleChoice.now = false ∧
      ⟨0, .completeFlow 1, .answered (.failed (.flow .internal))⟩ ∈
        runFrom sampleDatabase (.start (.completeFlow 1) :: steps 0 3) ∧
      completions 1 (runFrom sampleDatabase (.start (.completeFlow 1) :: steps 0 3)) ≠ 1 := by
  decide +kernel

end Completion

end Aegion.Flows
