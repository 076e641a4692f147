/-
The circuit breaker of an upstream.  Requests that were let through before the breaker opened
finish later, and their results are recorded in the open state.  A late failure changes nothing, a
late success opens the way again, so the breaker refuses for its whole timeout exactly if no late
success arrives.
-/
import Mathlib.Data.List.Basic
import Mathlib.Data.Option.Basic

namespace Aegion.Circuit

section Breaker

inductive State where
  | closed
  | opened
  | halfOpen
deriving Repr, DecidableEq

/-- `CircuitBreakerConfig`; the timeout is in nanoseconds, as every time here. -/
structure Config where
  failureThreshold : Int64
  successThreshold : Int64
  timeout : Int
deriving Repr, DecidableEq

structure Breaker where
  state : State
  failures : Int64
  successes : Int64
  lastStateTime : Int
deriving Repr, DecidableEq

def newCircuitBreaker (now : Int) : Breaker := ⟨.closed, 0, 0, now⟩

def Breaker.setState (cb : Breaker) (newState : State) (now : Int) : Breaker :=
  if cb.state = newState then cb
  else
    match newState with
    | .closed => ⟨.closed, 0, 0, now⟩
    | .halfOpen => ⟨.halfOpen, cb.failures, 0, now⟩
    | .opened => ⟨.opened, cb.failures, cb.successes, now⟩

variable (config : Config)

def Breaker.allow (cb : Breaker) (now : Int) : Bool × Breaker :=
  match cb.state with
  | .closed => (true, cb)
  | .opened =>
      if now - cb.lastStateTime ≥ config.timeout then (true, cb.setState .halfOpen now)
      else (false, cb)
  | .halfOpen => (true, cb)

def Breaker.recordSuccess (cb : Breaker) (now : Int) : Breaker :=
  match cb.state with
  | .closed => { cb with failures := 0 }
  | .halfOpen =>
      let cb := { cb with successes := cb.successes + 1, failures := 0 }
      if cb.successes ≥ config.successThreshold then cb.setState .closed now else cb
  | .opened => { cb with successes := 1, failures := 0 }.setState .halfOpen now

def Breaker.recordFailure (cb : Breaker) (now : Int) : Breaker :=
  let cb := { cb with failures := cb.failures + 1, successes := 0 }
  if cb.failures ≥ config.failureThreshold ∧ (cb.state = .closed ∨ cb.state = .halfOpen) then
    cb.setState .opened now
  else cb

end Breaker

section Runs

inductive Event where
  | allow
  | recordSuccess
  | recordFailure
deriving Repr, DecidableEq

/-- The breaker and the number of requests that were let through and have no result yet. -/
structure World where
  breaker : Breaker
  inFlight : Nat
deriving Repr, DecidableEq

variable (config : Config)

/-- One call at its time.  A result is recorded for a request in flight. -/
def World.step (world : World) (call : Int × Event) : Option World :=
  match call.2 with
  | .allow =>
      let answer := world.breaker.allow config call.1
      some ⟨answer.2, if answer.1 then world.inFlight + 1 else world.inFlight⟩
  | .recordSuccess =>
      if world.inFlight = 0 then none
      else some ⟨world.breaker.recordSuccess config call.1, world.inFlight - 1⟩
  | .recordFailure =>
      if world.inFlight = 0 then none
      else some ⟨world.breaker.recordFailure config call.1, world.inFlight - 1⟩

def World.run (world : World) (calls : List (Int × Event)) : Option World :=
  calls.foldlM (World.step config) world

/-- The breaker opened at that time and has not changed since. -/
def Breaker.OpenSince (cb : Breaker) (opening : Int) : Prop :=
  cb.state = .opened ∧ cb.lastStateTime = opening

variable {config} {world next : World} {cb : Breaker} {opening now : Int}

theorem Breaker.OpenSince.allow_eq (hopen : cb.OpenSince opening)
    (hwithin : now < opening + config.timeout) : cb.allow config now = (false, cb) := by
  have hearly : ¬now - cb.lastStateTime ≥ config.timeout := by
    rw [hopen.2]
    omega
  unfold Breaker.allow
  rw [hopen.1]
  exact if_neg hearly

theorem Breaker.OpenSince.recordFailure (hopen : cb.OpenSince opening) :
    (cb.recordFailure config now).OpenSince opening := by
  unfold Breaker.recordFailure
  rw [if_neg (by simp [hopen.1])]
  exact hopen

/-- A success in the open state is taken for one of the half-open state. -/
theorem Breaker.OpenSince.recordSuccess (hopen : cb.OpenSince opening) :
    (cb.recordSuccess config now).state = .halfOpen := by
  unfold Breaker.recordSuccess
  rw [hopen.1]
  simp [Breaker.setState]

theorem Breaker.allow_not_opened (hbefore : cb.state ≠ .opened) :
    (cb.allow config now).2.state ≠ .opened := by
  unfold Breaker.allow
  split
  · exact hbefore
  · rename_i hopened
    exact absurd hopened hbefore
  · exact hbefore

theorem Breaker.recordSuccess_not_opened : (cb.recordSuccess config now).state ≠ .opened := by
  unfold Breaker.recordSuccess
  split
  · rename_i hclosed
    simp [hclosed]
  · rename_i hhalf
    dsimp only
    split <;> simp [Breaker.setState, hhalf]
  · rename_i hopened
    simp [Breaker.setState, hopened]

/-- Only a failure opens the breaker, and the time is noted. -/
theorem Breaker.openSince_of_recordFailure (hbefore : cb.state ≠ .opened)
    (hafter : (cb.recordFailure config now).state = .opened) :
    (cb.recordFailure config now).OpenSince now := by
  unfold Breaker.recordFailure at hafter ⊢
  dsimp only at hafter ⊢
  split
  · simp [Breaker.OpenSince, Breaker.setState, hbefore]
  · rename_i hkept
    rw [if_neg hkept] at hafter
    exact absurd hafter hbefore

theorem World.openSince_of_step {call : Int × Event} (hstep : world.step config call = some next)
    (hbefore : world.breaker.state ≠ .opened) (hafter : next.breaker.state = .opened) :
    next.breaker.OpenSince call.1 := by
  obtain ⟨time, event⟩ := call
  cases event with
  | allow =>
      cases hstep
      exact absurd hafter (Breaker.allow_not_opened hbefore)
  | recordSuccess =>
      obtain ⟨-, hnext⟩ := Option.ite_none_left_eq_some.mp hstep
      cases hnext
      exact absurd hafter Breaker.recordSuccess_not_opened
  | recordFailure =>
      obtain ⟨-, hnext⟩ := Option.ite_none_left_eq_some.mp hstep
      cases hnext
      exact Breaker.openSince_of_recordFailure hbefore hafter

/-- One call within the timeout that records no success. -/
theorem World.openSince_step {call : Int × Event} (hopen : world.breaker.OpenSince opening)
    (hwithin : call.1 < opening + config.timeout) (hlate : call.2 ≠ .recordSuccess)
    (hstep : world.step config call = some next) : next.breaker.OpenSince opening := by
  obtain ⟨time, event⟩ := call
  cases event with
  | allow =>
      cases hstep
      rw [hopen.allow_eq hwithin]
      exact hopen
  | recordSuccess => exact absurd rfl hlate
  | recordFailure =>
      obtain ⟨-, hnext⟩ := Option.ite_none_left_eq_some.mp hstep
      cases hnext
      exact hopen.recordFailure

theorem World.run_cons {call : Int × Event} {calls : List (Int × Event)} :
    world.run config (call :: calls) = (world.step config call).bind fun next =>
      next.run config calls := rfl

theorem World.run_append {done rest : List (Int × Event)} :
    world.run config (done ++ rest) = (world.run config done).bind fun next =>
      next.run config rest :=
  List.foldlM_append

theorem World.openSince_run {calls : List (Int × Event)} (hopen : world.breaker.OpenSince opening)
    (hwithin : ∀ call ∈ calls, call.1 < opening + config.timeout)
    (hlate : ∀ call ∈ calls, call.2 ≠ .recordSuccess) (hrun : world.run config calls = some next) :
    next.breaker.OpenSince opening := by
  induction calls generalizing world with
  | nil =>
      cases hrun
      exact hopen
  | cons call calls ih =>
      rw [List.forall_mem_cons] at hwithin hlate
      rw [World.run_cons, Option.bind_eq_some_iff] at hrun
      obtain ⟨middle, hstep, hrest⟩ := hrun
      exact ih (World.openSince_step hopen hwithin.1 hlate.1 hstep) hwithin.2 hlate.2 hrest

end Runs

section Refusal

/-- At every point of the calls, a request within the timeout is refused. -/
def World.Refuses (config : Config) (world : World) (opening : Int) (calls : List (Int × Event)) :
    Prop :=
  ∀ done, done <+: calls → ∀ last, world.run config done = some last →
    ∀ now, opening ≤ now → (∀ call ∈ done, call.1 ≤ now) → now < opening + config.timeout →
      (last.breaker.allow config now).1 = false

variable {config : Config} {world next : World} {opening : Int} {event : Event}
  {calls : List (Int × Event)}

/-- The first success that is recorded late, and what was done before. -/
theorem exists_first_success (hlate : ¬∀ call ∈ calls, call.2 ≠ .recordSuccess) :
    ∃ before time after, calls = before ++ (time, .recordSuccess) :: after ∧
      ∀ call ∈ before, call.2 ≠ .recordSuccess := by
  cases hfound : calls.find? fun call => call.2 = .recordSuccess with
  | none =>
      refine absurd (fun call hcall => ?_) hlate
      simpa using List.find?_eq_none.mp hfound call hcall
  | some late =>
      obtain ⟨hevent, before, after, rfl, hbefore⟩ := List.find?_eq_some_iff_append.mp hfound
      obtain ⟨time, event⟩ := late
      cases of_decide_eq_true hevent
      exact ⟨before, time, after, rfl, fun call hcall => by simpa using hbefore call hcall⟩

/-- A success recorded in the open state lets the next request through. -/
theorem World.allow_of_late_success {time : Int} (hopen : world.breaker.OpenSince opening)
    (hstep : world.step config (time, .recordSuccess) = some next) (now : Int) :
    (next.breaker.allow config now).1 = true := by
  obtain ⟨-, hnext⟩ := Option.ite_none_left_eq_some.mp hstep
  cases hnext
  unfold Breaker.allow
  rw [hopen.recordSuccess]

/-- The run up to the first late success, after which a request is let through. -/
theorem World.readmits {before after : List (Int × Event)} {time : Int}
    (hopen : world.breaker.OpenSince opening)
    (hwithin : ∀ call ∈ before, call.1 < opening + config.timeout)
    (hearlier : ∀ call ∈ before, call.2 ≠ .recordSuccess)
    (hrun : (world.run config (before ++ (time, .recordSuccess) :: after)).isSome = true) :
    ∃ last, world.run config (before ++ [(time, .recordSuccess)]) = some last ∧
      ∀ now, (last.breaker.allow config now).1 = true := by
  rw [List.append_cons, World.run_append, Option.isSome_bind] at hrun
  cases hdone : world.run config (before ++ [(time, .recordSuccess)]) with
  | none => simp [hdone] at hrun
  | some last =>
      rw [World.run_append, Option.bind_eq_some_iff] at hdone
      obtain ⟨middle, hmiddle, hsuccess⟩ := hdone
      rw [World.run_cons, Option.bind_eq_some_iff] at hsuccess
      obtain ⟨final, hfinal, hlast⟩ := hsuccess
      cases hlast
      have hsince := World.openSince_run hopen hwithin hearlier hmiddle
      exact ⟨_, rfl, World.allow_of_late_success hsince hfinal⟩

/-- A breaker that opens refuses for its timeout if and only if no success is recorded meanwhile. -/
theorem opened_refuses_iff (hbefore : world.breaker.state ≠ .opened)
    (hstep : world.step config (opening, event) = some next)
    (hopened : next.breaker.state = .opened) (hrun : (next.run config calls).isSome = true)
    (hordered : ((opening, event) :: calls).Pairwise fun earlier later => earlier.1 ≤ later.1)
    (hwithin : ∀ call ∈ calls, call.1 < opening + config.timeout) :
    next.Refuses config opening calls ↔ ∀ call ∈ calls, call.2 ≠ .recordSuccess := by
  have hopen := World.openSince_of_step hstep hbefore hopened
  constructor
  · intro hrefuses
    by_contra hlate
    obtain ⟨before, time, after, rfl, hearlier⟩ := exists_first_success hlate
    obtain ⟨last, hdone, hadmitted⟩ := World.readmits hopen
      (fun call hcall => hwithin call (List.mem_append_left _ hcall)) hearlier hrun
    rw [List.pairwise_cons, List.pairwise_append] at hordered
    have hmem : (time, Event.recordSuccess) ∈ (time, Event.recordSuccess) :: after :=
      List.mem_cons_self
    have hpast : ∀ call ∈ before ++ [(time, .recordSuccess)], call.1 ≤ time := by
      intro call hcall
      rcases List.mem_append.mp hcall with hcall | hcall
      · exact hordered.2.2.2 call hcall _ hmem
      · cases List.mem_singleton.mp hcall
        exact Int.le_refl time
    have hrefused := hrefuses _ ⟨after, List.append_cons .. |>.symm⟩ last hdone time
      (hordered.1 _ (List.mem_append_right _ hmem)) hpast
      (hwithin _ (List.mem_append_right _ hmem))
    rw [hadmitted] at hrefused
    cases hrefused
  · intro hlate done hdone last hlast now _ _ hnow
    have hsince : last.breaker.OpenSince opening := World.openSince_run hopen
      (fun call hcall => hwithin call (hdone.subset hcall))
      (fun call hcall => hlate call (hdone.subset hcall)) hlast
    rw [hsince.allow_eq hnow]

def quickConfig : Config := ⟨1, 1, 30⟩

def twoInFlight : World := ⟨newCircuitBreaker 0, 2⟩

theorem twoInFlight_refuses : World.Refuses quickConfig
    ⟨⟨.opened, 1, 0, 1⟩, 1⟩ 1 [(2, .allow), (3, .recordFailure)] :=
  (opened_refuses_iff (by decide)
    (by decide : twoInFlight.step quickConfig (1, .recordFailure) = some ⟨⟨.opened, 1, 0, 1⟩, 1⟩)
    (by decide) (by decide) (by decide) (by decide)).mpr (by decide)

/-- Two requests are let through.  The first fails and opens the breaker, the second succeeds, and
the next request within the timeout is let through. -/
theorem late_success_readmits : ∃ opened late : World,
    (World.mk (newCircuitBreaker 0) 0).run quickConfig [(0, .allow), (0, .allow)] =
        some twoInFlight ∧
      twoInFlight.step quickConfig (1, .recordFailure) = some opened ∧
      opened.breaker.state = .opened ∧ opened.run quickConfig [(2, .recordSuccess)] = some late ∧
      3 < 1 + quickConfig.timeout ∧ (late.breaker.allow quickConfig 3).1 = true :=
  ⟨⟨⟨.opened, 1, 0, 1⟩, 1⟩, ⟨⟨.halfOpen, 0, 0, 2⟩, 0⟩, by decide, by decide, by decide, by decide,
    by decide, by decide⟩

end Refusal

section Failures

/-- The breaker after a call, whether or not a request is in flight. -/
def Breaker.after (config : Config) (cb : Breaker) (call : Int × Event) : Breaker :=
  match call.2 with
  | .allow => (cb.allow config call.1).2
  | .recordSuccess => cb.recordSuccess config call.1
  | .recordFailure => cb.recordFailure config call.1

/-- The failures since the last success. -/
def Event.count (failures : Nat) : Event → Nat
  | .allow => failures
  | .recordSuccess => 0
  | .recordFailure => failures + 1

/-- These are the failures counted, too few for a closed breaker and enough for an open one. -/
structure Breaker.Counts (config : Config) (cb : Breaker) (failures : Nat) : Prop where
  counted : cb.failures.toInt = failures
  closed : cb.state = .closed → failures = 0 ∨ failures < config.failureThreshold.toInt
  opened : cb.state = .opened → config.failureThreshold.toInt ≤ failures

variable {config : Config} {cb : Breaker} {failures : Nat} {now : Int}

theorem Breaker.Counts.allow (hcounts : cb.Counts config failures) :
    (cb.allow config now).2.Counts config failures := by
  unfold Breaker.allow
  split
  · exact hcounts
  · rename_i hopened
    split
    · simp only [Breaker.setState, hopened, reduceCtorEq, ↓reduceIte]
      exact ⟨hcounts.counted, by simp, by simp⟩
    · exact hcounts
  · exact hcounts

/-- Whatever it counted, after a success the breaker is not open and counts no failure. -/
theorem Breaker.counts_recordSuccess : (cb.recordSuccess config now).Counts config 0 := by
  refine ⟨?_, fun _ => Or.inl rfl, fun hopened => absurd hopened recordSuccess_not_opened⟩
  unfold Breaker.recordSuccess
  split
  · rfl
  · rename_i hhalf
    dsimp only
    split <;> simp [Breaker.setState, hhalf]
  · rename_i hopened
    simp [Breaker.setState, hopened]

theorem Breaker.Counts.recordFailure (hcounts : cb.Counts config failures)
    (hroom : failures + 1 < 9223372036854775808) :
    (cb.recordFailure config now).Counts config (failures + 1) := by
  -- The counter does not wrap, so it reaches the threshold when the failures do.
  have hcounted : (cb.failures + 1).toInt = (failures + 1 : Nat) := by
    rw [Int64.toInt_add, hcounts.counted, Int64.toInt_one]
    exact Int.bmod_eq_of_le (by omega) (by omega)
  have hreach : cb.failures + 1 ≥ config.failureThreshold ↔
      config.failureThreshold.toInt ≤ (failures + 1 : Nat) := by
    rw [ge_iff_le, Int64.le_iff_toInt_le, hcounted]
  unfold Breaker.recordFailure
  dsimp only
  split
  · rename_i hopens
    have hstate : cb.state ≠ .opened := by
      rcases hopens.2 with hstate | hstate <;> simp [hstate]
    simp only [Breaker.setState, hstate, ↓reduceIte]
    exact ⟨hcounted, by simp, fun _ => hreach.mp hopens.1⟩
  · rename_i hkept
    refine ⟨hcounted, fun hclosed => Or.inr ?_, fun hopened => ?_⟩
    · exact Int.not_le.mp fun hle => hkept ⟨hreach.mpr hle, Or.inl hclosed⟩
    · exact Int.le_trans (hcounts.opened hopened) (by omega)

theorem Breaker.Counts.after (hcounts : cb.Counts config failures)
    (hroom : failures + 1 < 9223372036854775808) (call : Int × Event) :
    (cb.after config call).Counts config (call.2.count failures) := by
  obtain ⟨time, event⟩ := call
  cases event with
  | allow => exact hcounts.allow
  | recordSuccess => exact counts_recordSuccess
  | recordFailure => exact hcounts.recordFailure hroom

theorem Event.count_le (failures : Nat) (event : Event) : event.count failures ≤ failures + 1 := by
  cases event <;> simp [Event.count]

theorem Breaker.Counts.run {calls : List (Int × Event)} (hcounts : cb.Counts config failures)
    (hroom : failures + calls.length < 9223372036854775808) :
    (calls.foldl (Breaker.after config) cb).Counts config
      ((calls.map Prod.snd).foldl Event.count failures) := by
  induction calls generalizing cb failures with
  | nil => exact hcounts
  | cons call calls ih =>
      have hcount := call.2.count_le failures
      rw [List.length_cons] at hroom
      exact ih (hcounts.after (by omega) call) (by omega)

/-- After any calls to a new breaker, as many as Go's `int` counts, it is open only if the failures
since the last success reach the threshold, and closed only if there are none or they do not. -/
theorem newCircuitBreaker_counts (config : Config) (now : Int) (calls : List (Int × Event))
    (hroom : calls.length < 9223372036854775808) :
    (calls.foldl (Breaker.after config) (newCircuitBreaker now)).Counts config
      ((calls.map Prod.snd).foldl Event.count 0) := by
  refine Breaker.Counts.run ⟨rfl, fun _ => Or.inl rfl, ?_⟩ (by omega)
  intro hopened
  cases hopened

/-- A failure without a request opens the breaker, a success closes it and two failures open it
again. -/
theorem quickConfig_counts :
    (Breaker.mk .opened 2 0 5).Counts quickConfig 2 ∧
      [(1, Event.recordFailure), (2, .recordSuccess), (3, .recordSuccess), (5, .recordFailure),
        (6, .recordFailure)].foldl (Breaker.after quickConfig) (newCircuitBreaker 0) =
          ⟨.opened, 2, 0, 5⟩ :=
  ⟨newCircuitBreaker_counts quickConfig 0 [(1, .recordFailure), (2, .recordSuccess),
    (3, .recordSuccess), (5, .recordFailure), (6, .recordFailure)] (by decide), by decide⟩

end Failures

end Aegion.Circuit
