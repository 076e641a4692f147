/-
Three laws of interleaved runs.  Histories are coherent (a thread serves one
request and is silent once it has answered); a local duty of the programs holds
at every entry; and where a reply determines what its call did to the store,
the store is the replay of the history.
-/
import Aegion.CallHistory

namespace Aegion

variable {Call : Type} {Reply : Call → Type} {σ ω Req Answer : Type}

namespace History

/-- Earlier entries of the same thread serve the same request and are calls. -/
def Coherent (past : History Req Reply Answer) (entry : Entry Req Reply Answer) : Prop :=
  ∀ earlier ∈ past, earlier.thread = entry.thread →
    earlier.request = entry.request ∧ ∃ call, earlier.step = .called call

/-- The duty an entry owes, judged by its own thread's earlier calls. -/
def Owes (callDuty : Req → List (Called Reply) → Called Reply → Prop)
    (answerDuty : Req → Answer → List (Called Reply) → Prop)
    (past : History Req Reply Answer) (entry : Entry Req Reply Answer) : Prop :=
  match entry.step with
  | .called call => callDuty entry.request (own entry.thread past) call
  | .answered answer => answerDuty entry.request answer (own entry.thread past)

/-- The store after the calls of a history, each changing it by its effect. -/
def replay (effect : Called Reply → σ → σ) (store : σ) :
    History Req Reply Answer → σ
  | [] => store
  | entry :: past =>
      match entry.step with
      | .called call => effect call (replay effect store past)
      | .answered _ => replay effect store past

/-- A recorded reply is one the replayed store can give. -/
def Answers (perform : ω → (c : Call) → σ → Reply c × σ) (effect : Called Reply → σ → σ) (store : σ)
    (past : History Req Reply Answer) (entry : Entry Req Reply Answer) : Prop :=
  ∀ call, entry.step = .called call →
    ∃ choice, call.2 = (perform choice call.1 (replay effect store past)).1

theorem own_cons_self (thread : Nat) (request : Req) (call : Called Reply)
    (past : History Req Reply Answer) :
    own thread (⟨thread, request, .called call⟩ :: past) = call :: own thread past := by
  simp [own]

theorem own_cons_of_ne {thread other : Nat} (hne : other ≠ thread)
    (request : Req) (step : Step Reply Answer) (past : History Req Reply Answer) :
    own thread (⟨other, request, step⟩ :: past) = own thread past := by
  simp [own, hne]

theorem own_cons_answered (thread other : Nat) (request : Req) (answer : Answer)
    (past : History Req Reply Answer) :
    own thread (⟨other, request, .answered answer⟩ :: past) = own thread past := by
  by_cases hthread : other = thread <;> simp [own, hthread]

theorem own_eq_nil {thread : Nat} {history : History Req Reply Answer}
    (hnone : ∀ entry ∈ history, entry.thread ≠ thread) : own thread history = [] := by
  induction history with
  | nil => rfl
  | cons entry past ih =>
      have hhead := hnone entry List.mem_cons_self
      have htail := ih fun earlier hmem =>
        hnone earlier (List.mem_cons_of_mem entry hmem)
      simp [own, hhead, htail]

theorem own_suffix {thread : Nat} {past history : History Req Reply Answer}
    (hsuffix : past <:+ history) : own thread past <:+ own thread history := by
  induction history with
  | nil =>
      rw [List.suffix_nil.mp hsuffix]
  | cons entry rest ih =>
      rcases List.suffix_cons_iff.mp hsuffix with rfl | hrest
      · exact List.suffix_rfl
      · refine (ih hrest).trans ?_
        by_cases ht : entry.thread = thread
        · cases hstep : entry.step with
          | called call =>
              simp only [own, ht, ↓reduceIte, hstep]
              exact List.suffix_cons _ _
          | answered answer => simp [own, ht, hstep]
        · simp [own, ht]

/-- All entries of a thread serve one request. -/
theorem request_eq {history : History Req Reply Answer}
    (hcoherent : Throughout Coherent history) {entry entry' : Entry Req Reply Answer}
    (hentry : entry ∈ history) (hentry' : entry' ∈ history)
    (hthread : entry.thread = entry'.thread) : entry.request = entry'.request := by
  obtain ⟨past, hpast⟩ := exists_past_of_mem hentry
  obtain ⟨past', hpast'⟩ := exists_past_of_mem hentry'
  rcases entry_trichotomy hpast hpast' with heq | hlt | hlt
  · cases heq
    rfl
  · exact (hcoherent entry' past' hpast' entry (mem_of_suffix_cons hlt) hthread).1
  · exact (hcoherent entry past hpast entry' (mem_of_suffix_cons hlt) hthread.symm).1.symm

/-- The calls of a thread come before its answer. -/
theorem call_before_answer {history past before : History Req Reply Answer}
    (hcoherent : Throughout Coherent history) {thread : Nat} {request request' : Req}
    {call : Called Reply} {answer : Answer}
    (hcall : ⟨thread, request, .called call⟩ :: past <:+ history)
    (hanswer : ⟨thread, request', .answered answer⟩ :: before <:+ history) :
    ⟨thread, request, .called call⟩ :: past <:+ before := by
  rcases entry_trichotomy hcall hanswer with heq | hlt | hlt
  · cases heq
  · exact hlt
  · obtain ⟨-, earlier, hearlier⟩ := hcoherent _ past hcall _ (mem_of_suffix_cons hlt) rfl
    cases hearlier

/-- A thread's own calls are entries for the request it serves. -/
theorem mem_of_mem_own {history : History Req Reply Answer}
    (hcoherent : Throughout Coherent history) {thread : Nat} {request : Req}
    {step : Step Reply Answer} {call : Called Reply} (hentry : ⟨thread, request, step⟩ ∈ history)
    (hcall : call ∈ own thread history) : ⟨thread, request, .called call⟩ ∈ history := by
  obtain ⟨request', hmem⟩ := mem_own_iff.mp hcall
  have hsame : request' = request := request_eq hcoherent hmem hentry rfl
  rwa [hsame] at hmem

/-- A stretch of a thread's own past is a stretch of the history. -/
theorem exists_entry_of_own {thread : Nat} {call : Called Reply}
    {before : List (Called Reply)} {history : History Req Reply Answer}
    (hsuffix : call :: before <:+ own thread history) :
    ∃ request past, (⟨thread, request, .called call⟩ : Entry Req Reply Answer) ::
      past <:+ history ∧ own thread past = before := by
  induction history with
  | nil => simp [own] at hsuffix
  | cons entry rest ih =>
      obtain ⟨t, request, step⟩ := entry
      have hwiden : call :: before <:+ own thread rest →
          ∃ request' past, (⟨thread, request', .called call⟩ :
            Entry Req Reply Answer) :: past <:+ ⟨t, request, step⟩ :: rest ∧
              own thread past = before := by
        intro hrest
        obtain ⟨request', past, hpast, howned⟩ := ih hrest
        exact ⟨request', past, hpast.trans (List.suffix_cons _ _), howned⟩
      by_cases ht : t = thread
      · subst ht
        cases step with
        | answered answer => exact hwiden (by simpa [own] using hsuffix)
        | called other =>
            rw [own_cons_self] at hsuffix
            rcases List.suffix_cons_iff.mp hsuffix with heq | hrest
            · cases heq
              exact ⟨request, rest, List.suffix_rfl, rfl⟩
            · exact hwiden hrest
      · rw [own_cons_of_ne ht] at hsuffix
        exact hwiden hsuffix

/-- The newest of a thread's own calls, as an entry of the history. -/
theorem exists_last_entry {thread : Nat} {call : Called Reply}
    {before : List (Called Reply)} {history : History Req Reply Answer}
    (howned : own thread history = call :: before) :
    ∃ request past, (⟨thread, request, .called call⟩ : Entry Req Reply Answer) ::
      past <:+ history ∧ own thread past = before :=
  exists_entry_of_own (by rw [howned])

end History

open History

namespace System

variable (system : System Req Reply Answer σ ω)

/-- Entries belong to threads that exist, and an answered thread is over. -/
structure Traced (config : Config Req Reply Answer σ) : Prop where
  thread : ∀ entry ∈ config.history, ∃ residual,
    config.threads[entry.thread]? = some ⟨entry.request, residual⟩ ∧
      (residual ≠ none → ∃ call, entry.step = .called call)
  coherent : Throughout Coherent config.history

theorem traced_initial (store : σ) : Traced (System.initial store : Config Req Reply Answer σ) where
  thread := by simp [System.initial]
  coherent := throughout_nil

/-- One more entry by a live thread, whatever becomes of its residual. -/
theorem Traced.extend {config : Config Req Reply Answer σ}
    (htraced : Traced config) {thread : Nat} {request : Req}
    {live : Program Reply Answer} {after : Option (Program Reply Answer)}
    {step : Step Reply Answer} (store : σ)
    (hlive : config.threads[thread]? = some ⟨request, some live⟩)
    (hafter : after ≠ none → ∃ call, step = .called call) :
    Traced (⟨store, ⟨thread, request, step⟩ :: config.history,
      config.threads.set thread ⟨request, after⟩⟩ : Config Req Reply Answer σ) := by
  obtain ⟨hlt, -⟩ := List.getElem?_eq_some_iff.mp hlive
  have hset : (config.threads.set thread ⟨request, after⟩)[thread]? = some ⟨request, after⟩ := by
    simp [hlt]
  constructor
  · intro entry hentry
    rcases List.mem_cons.mp hentry with rfl | hold
    · exact ⟨after, hset, hafter⟩
    · obtain ⟨residual, hthread, hcalled⟩ := htraced.thread entry hold
      by_cases heq : entry.thread = thread
      · rw [heq, hlive] at hthread
        simp only [Option.some.injEq, Thread.mk.injEq] at hthread
        refine ⟨after, ?_, fun _ => hcalled ?_⟩
        · rw [heq, hset, hthread.1]
        · rw [← hthread.2]
          simp
      · refine ⟨residual, ?_, hcalled⟩
        simpa [List.getElem?_set_ne (Ne.symm heq)] using hthread
  · refine throughout_cons.mpr ⟨?_, htraced.coherent⟩
    intro earlier hearlier heq
    obtain ⟨residual, hthread, hcalled⟩ := htraced.thread earlier hearlier
    change earlier.thread = thread at heq
    rw [heq, hlive] at hthread
    simp only [Option.some.injEq, Thread.mk.injEq] at hthread
    refine ⟨hthread.1.symm, hcalled ?_⟩
    rw [← hthread.2]
    simp

theorem traced_next (action : Action Req ω)
    {config : Config Req Reply Answer σ} (htraced : Traced config) :
    Traced (system.next action config) := by
  rcases system.next_cases action config with
    ⟨request, -, heq⟩ | ⟨thread, request, answer, hlive, heq⟩ |
      ⟨thread, request, c, after, choice, hlive, heq⟩ | heq
  · rw [heq]
    refine ⟨?_, htraced.coherent⟩
    intro entry hentry
    obtain ⟨residual, hthread, hcalled⟩ := htraced.thread entry hentry
    obtain ⟨hlt, -⟩ := List.getElem?_eq_some_iff.mp hthread
    refine ⟨residual, ?_, hcalled⟩
    rw [← hthread]
    exact List.getElem?_append_left hlt
  · rw [heq]
    exact htraced.extend config.store hlive (by simp)
  · rw [heq]
    exact htraced.extend _ hlive fun _ => ⟨_, rfl⟩
  · rw [heq]
    exact htraced

/-- A thread serves one request and never acts after its answer. -/
theorem execute_coherent (actions : List (Action Req ω)) (store : σ) :
    Throughout Coherent (system.execute actions (System.initial store)).history := by
  have htraced := system.execute_invariant Traced
    (fun action config htraced => system.traced_next action htraced)
    actions (System.initial store) (traced_initial store)
  exact htraced.coherent

section Duty

variable (callDuty : Req → List (Called Reply) → Called Reply → Prop)
variable (answerDuty : Req → Answer → List (Called Reply) → Prop)

/-- Every live residual still keeps its duty from where the thread stands. -/
structure OnDuty (config : Config Req Reply Answer σ) : Prop where
  traced : Traced config
  history : Throughout (Owes callDuty answerDuty) config.history
  residuals : ∀ thread request (residual : Program Reply Answer),
    config.threads[thread]? = some ⟨request, some residual⟩ →
      residual.Keeps (callDuty request) (answerDuty request)
        (own thread config.history)

variable {callDuty answerDuty}

theorem onDuty_next (hserve : ∀ request, (system.serve request).Keeps (callDuty request)
      (answerDuty request) [])
    (action : Action Req ω) {config : Config Req Reply Answer σ}
    (hduty : OnDuty callDuty answerDuty config) :
    OnDuty callDuty answerDuty (system.next action config) := by
  have htraced := system.traced_next action hduty.traced
  rcases system.next_cases action config with
    ⟨request, -, heq⟩ | ⟨thread, request, answer, hlive, heq⟩ |
      ⟨thread, request, c, after, choice, hlive, heq⟩ | heq
  · rw [heq] at htraced ⊢
    refine ⟨htraced, hduty.history, ?_⟩
    intro thread request' residual hthread
    by_cases hlt : thread < config.threads.length
    · rw [List.getElem?_append_left hlt] at hthread
      exact hduty.residuals thread request' residual hthread
    · have hnew : own thread config.history = [] := by
        apply own_eq_nil
        intro entry hentry heq'
        obtain ⟨residual', hthread', -⟩ := hduty.traced.thread entry hentry
        obtain ⟨hlt', -⟩ := List.getElem?_eq_some_iff.mp hthread'
        exact hlt (heq' ▸ hlt')
      rw [List.getElem?_append_right (Nat.le_of_not_lt hlt)] at hthread
      rw [List.getElem?_singleton] at hthread
      split at hthread
      · simp only [Option.some.injEq, Thread.mk.injEq] at hthread
        obtain ⟨rfl, rfl⟩ := hthread
        rw [hnew]
        exact hserve request
      · simp at hthread
  · rw [heq] at htraced ⊢
    refine ⟨htraced, throughout_cons.mpr
      ⟨hduty.residuals thread request _ hlive, hduty.history⟩, ?_⟩
    intro other request' residual hother
    have hne : thread ≠ other := by
      rintro rfl
      obtain ⟨hlt, -⟩ := List.getElem?_eq_some_iff.mp hlive
      simp [hlt] at hother
    change residual.Keeps _ _ (own other (_ :: config.history))
    rw [own_cons_of_ne hne]
    rw [List.getElem?_set_ne hne] at hother
    exact hduty.residuals other request' residual hother
  · rw [heq] at htraced ⊢
    have hkeeps := hduty.residuals thread request _ hlive (system.perform choice c config.store).1
    refine ⟨htraced, throughout_cons.mpr ⟨hkeeps.1, hduty.history⟩, ?_⟩
    intro other request' residual hother
    by_cases hne : thread = other
    · subst hne
      obtain ⟨hlt, -⟩ := List.getElem?_eq_some_iff.mp hlive
      simp only [List.getElem?_set_self, hlt, Option.some.injEq, Thread.mk.injEq] at hother
      obtain ⟨rfl, rfl⟩ := hother
      change (after _).Keeps _ _ (own thread (_ :: config.history))
      rw [own_cons_self]
      exact hkeeps.2
    · change residual.Keeps _ _ (own other (_ :: config.history))
      rw [own_cons_of_ne hne]
      rw [List.getElem?_set_ne hne] at hother
      exact hduty.residuals other request' residual hother
  · rw [heq] at htraced ⊢
    exact hduty

/-- Local duties of the programs hold at every entry of every history. -/
theorem execute_owes (hserve : ∀ request, (system.serve request).Keeps (callDuty request)
      (answerDuty request) [])
    (actions : List (Action Req ω)) (store : σ) :
    Throughout (Owes callDuty answerDuty)
      (system.execute actions (System.initial store)).history := by
  have hinit : OnDuty callDuty answerDuty (System.initial store : Config Req Reply Answer σ) :=
    ⟨traced_initial store, throughout_nil, by simp [System.initial]⟩
  exact (system.execute_invariant (OnDuty callDuty answerDuty)
    (fun action config hduty => system.onDuty_next hserve action hduty)
    actions _ hinit).history

end Duty

section Replay

variable {effect : Called Reply → σ → σ}

/-- When replies determine effects, the history determines the store: it is the
replay of the calls made, and every reply was given by the store replayed up to
that point. -/
theorem execute_replay (heffect : ∀ choice c store, (system.perform choice c store).2 =
      effect ⟨c, (system.perform choice c store).1⟩ store)
    (actions : List (Action Req ω)) (store : σ) :
    (system.execute actions (System.initial store)).store =
        replay effect store (system.execute actions (System.initial store)).history ∧
      Throughout (Answers system.perform effect store)
        (system.execute actions (System.initial store)).history := by
  refine system.execute_invariant
    (fun config => config.store = replay effect store config.history ∧
      Throughout (Answers system.perform effect store) config.history)
    ?_ actions _ ⟨rfl, throughout_nil⟩
  rintro action config ⟨hstore, hanswers⟩
  rcases system.next_cases action config with
    ⟨request, -, heq⟩ | ⟨thread, request, answer, hlive, heq⟩ |
      ⟨thread, request, c, after, choice, hlive, heq⟩ | heq
  · rw [heq]
    exact ⟨hstore, hanswers⟩
  · rw [heq]
    refine ⟨hstore, throughout_cons.mpr ⟨?_, hanswers⟩⟩
    intro call hcalled
    cases hcalled
  · rw [heq]
    refine ⟨?_, throughout_cons.mpr ⟨?_, hanswers⟩⟩
    · change (system.perform choice c config.store).2 = effect _ (replay _ _ _)
      rw [heffect, hstore]
    · intro call hcalled
      cases hcalled
      exact ⟨choice, by rw [hstore]⟩
  · rw [heq]
    exact ⟨hstore, hanswers⟩

end Replay

section Continuation

variable {system : System Req Reply Answer σ ω}

theorem execute_append (actions more : List (Action Req ω)) (config : Config Req Reply Answer σ) :
    system.execute (actions ++ more) config =
      system.execute more (system.execute actions config) := by
  induction actions generalizing config with
  | nil => rfl
  | cons action rest ih => exact ih (system.next action config)

end Continuation

section Progress

variable {system : System Req Reply Answer σ ω}

/-- A thread waits while others act. -/
theorem thread_next_of_ne {thread : Nat} {config : Config Req Reply Answer σ}
    {waiting : Thread Req Reply Answer} (hwaiting : config.threads[thread]? = some waiting)
    {action : Action Req ω} (hother : ∀ choice, action ≠ .step thread choice) :
    (system.next action config).threads[thread]? = some waiting := by
  rcases action with request | ⟨other, choice⟩
  · obtain ⟨hlt, -⟩ := List.getElem?_eq_some_iff.mp hwaiting
    rw [← hwaiting]
    exact List.getElem?_append_left hlt
  · have hne : other ≠ thread := by
      rintro rfl
      exact hother choice rfl
    simp only [next]
    split
    · exact (List.getElem?_set_ne hne).trans hwaiting
    · exact (List.getElem?_set_ne hne).trans hwaiting
    · exact hwaiting

variable (system) in
/-- The first steps of an endless schedule. -/
def upTo (schedule : Nat → Action Req ω) (store : σ) (n : Nat) : Config Req Reply Answer σ :=
  system.execute ((List.range n).map schedule) (System.initial store)

theorem upTo_succ (schedule : Nat → Action Req ω) (store : σ) (n : Nat) :
    system.upTo schedule store (n + 1) =
      system.next (schedule n) (system.upTo schedule store n) := by
  rw [upTo, List.range_succ, List.map_append, execute_append]
  rfl

variable {schedule : Nat → Action Req ω} {store : σ} {thread : Nat} {request : Req}

/-- A thread that has a turn to come waits for it. -/
theorem exists_turn {residual : Program Reply Answer} {n : Nat} {choice : ω} (k : Nat)
    (hturn : schedule (n + k) = .step thread choice)
    (hlive : (system.upTo schedule store n).threads[thread]? = some ⟨request, some residual⟩) :
    ∃ m choice, schedule m = .step thread choice ∧
      (system.upTo schedule store m).threads[thread]? = some ⟨request, some residual⟩ := by
  induction k generalizing n with
  | zero => exact ⟨n, choice, hturn, hlive⟩
  | succ k ih =>
      by_cases hnow : ∃ choice, schedule n = .step thread choice
      · obtain ⟨choice, hnow⟩ := hnow
        exact ⟨n, choice, hnow, hlive⟩
      · apply ih (n := n + 1)
        · rw [Nat.add_right_comm]
          exact hturn
        · rw [upTo_succ]
          exact thread_next_of_ne hlive (not_exists.mp hnow)

/-- A thread that gets turn after turn answers. -/
theorem answered_of_turns (hturns : ∀ n, ∃ k choice, schedule (n + k) = .step thread choice)
    {residual : Program Reply Answer} {n : Nat}
    (hlive : (system.upTo schedule store n).threads[thread]? = some ⟨request, some residual⟩) :
    ∃ m answer, ⟨thread, request, .answered answer⟩ ∈ (system.upTo schedule store m).history := by
  -- The residual gets smaller with every turn.
  induction residual generalizing n with
  | done answer =>
      obtain ⟨k, choice, hturn⟩ := hturns n
      obtain ⟨m, choice, hnow, hready⟩ := exists_turn k hturn hlive
      refine ⟨m + 1, answer, ?_⟩
      rw [upTo_succ, hnow]
      simp only [next, hready, List.mem_cons_self]
  | call c after ih =>
      obtain ⟨k, choice, hturn⟩ := hturns n
      obtain ⟨m, choice, hnow, hready⟩ := exists_turn k hturn hlive
      obtain ⟨hlt, -⟩ := List.getElem?_eq_some_iff.mp hready
      apply ih (system.perform choice c (system.upTo schedule store m).store).1 (n := m + 1)
      rw [upTo_succ, hnow]
      simp only [next, hready]
      exact List.getElem?_set_self hlt

end Progress

end System

end Aegion
