/-
Interleaved execution of programs over atomic calls, and the history it leaves
behind.  A history entry is one executed call or one final answer, tagged with
the thread that produced it; claims about a run are claims about its history.
-/
import Aegion.CallProgram
import Mathlib.Data.List.Infix

namespace Aegion

variable {Call : Type} {Reply : Call → Type} {α β δ ε σ ω : Type}
variable {Req Answer : Type}

namespace Program

/-- Whatever replies the program sees, every call it issues meets `duty`, which
may look at the program's own earlier calls (newest first), and the final
value meets `post`. -/
def Keeps (duty : List (Called Reply) → Called Reply → Prop)
    (post : α → List (Called Reply) → Prop) :
    Program Reply α → List (Called Reply) → Prop
  | .done value, past => post value past
  | .call request next, past => ∀ reply : Reply request,
      duty past ⟨request, reply⟩ ∧
        (next reply).Keeps duty post (⟨request, reply⟩ :: past)

variable {duty : List (Called Reply) → Called Reply → Prop}
variable {post : α → List (Called Reply) → Prop} {p : Program Reply α} {past : List (Called Reply)}

@[simp]
theorem keeps_done {value : α} :
    (Program.done value : Program Reply α).Keeps duty post past ↔ post value past := Iff.rfl

@[simp]
theorem keeps_call {request : Call} {next : Reply request → Program Reply α} :
    (Program.call request next).Keeps duty post past ↔
      ∀ reply, duty past ⟨request, reply⟩ ∧
        (next reply).Keeps duty post (⟨request, reply⟩ :: past) := Iff.rfl

theorem keeps_bind {f : α → Program Reply β} {post : β → List (Called Reply) → Prop} :
    (p.bind f).Keeps duty post past ↔
      p.Keeps duty (fun value later => (f value).Keeps duty post later) past := by
  induction p generalizing past with
  | done value => rfl
  | call request next ih => simp only [call_bind, keeps_call, ih]

/-- Weaken the postcondition, keeping track of how far the past has grown. -/
theorem Keeps.imp {post post' : α → List (Called Reply) → Prop} (hkeeps : p.Keeps duty post past)
    (himp : ∀ value later, past <:+ later → post value later → post' value later) :
    p.Keeps duty post' past := by
  induction p generalizing past with
  | done value => exact himp value past List.suffix_rfl hkeeps
  | call request next ih =>
      intro reply
      refine ⟨(hkeeps reply).1, ih reply (hkeeps reply).2 ?_⟩
      intro value later hlater hpost
      exact himp value later ((List.suffix_cons _ _).trans hlater) hpost

theorem keeps_trivial (p : Program Reply α) (past : List (Called Reply)) :
    p.Keeps (fun _ _ => True) (fun _ _ => True) past := by
  induction p generalizing past with
  | done value => trivial
  | call request next ih => exact fun reply => ⟨trivial, ih reply _⟩

/-- Two properties of the same program hold together. -/
theorem Keeps.and {duty' : List (Called Reply) → Called Reply → Prop}
    {post post' : α → List (Called Reply) → Prop} (hleft : p.Keeps duty post past)
    (hright : p.Keeps duty' post' past) :
    p.Keeps duty (fun value later => post value later ∧ post' value later) past := by
  induction p generalizing past with
  | done value => exact ⟨hleft, hright⟩
  | call request next ih =>
      intro reply
      exact ⟨(hleft reply).1, ih reply (hleft reply).2 (hright reply).2⟩

/-- Whatever replies the program sees, it issues only calls that `P` allows. -/
def Only (P : Called Reply → Prop) : Program Reply α → Prop
  | .done _ => True
  | .call request next => ∀ reply : Reply request,
      P ⟨request, reply⟩ ∧ (next reply).Only P

theorem only_bind {P : Called Reply → Prop}
    {f : α → Program Reply β} (hp : p.Only P) (hf : ∀ value, (f value).Only P) :
    (p.bind f).Only P := by
  induction p with
  | done value => exact hf value
  | call request next ih =>
      exact fun reply => ⟨(hp reply).1, ih reply (hp reply).2⟩

theorem Only.mono {P Q : Called Reply → Prop}
    (honly : p.Only P) (himp : ∀ call, P call → Q call) : p.Only Q := by
  induction p with
  | done value => trivial
  | call request next ih =>
      intro reply
      exact ⟨himp _ (honly reply).1, ih reply (honly reply).2⟩

/-- A program that issues only undemanding calls keeps its duty, and its past
grows by such calls only. -/
theorem Only.keeps {P : Called Reply → Prop}
    (honly : p.Only P) (hduty : ∀ past call, P call → duty past call)
    (hpost : ∀ value added, (∀ call ∈ added, P call) →
      post value (added ++ past)) : p.Keeps duty post past := by
  induction p generalizing past with
  | done value => exact hpost value [] (by simp)
  | call request next ih =>
      intro reply
      refine ⟨hduty past _ (honly reply).1, ih reply (honly reply).2 ?_⟩
      intro value added hadded
      have hmore : ∀ call ∈ added ++ [⟨request, reply⟩], P call := by
        intro call hcall
        rcases List.mem_append.mp hcall with hcall | hcall
        · exact hadded call hcall
        · rw [List.mem_singleton.mp hcall]
          exact (honly reply).1
      rw [List.append_cons]
      exact hpost value (added ++ [⟨request, reply⟩]) hmore

/-- An uninterrupted run keeps what every call that meets its duty keeps. -/
theorem Keeps.run_invariant {perform : ω → (c : Call) → σ → Reply c × σ}
    (hkeeps : p.Keeps duty post past) (inv : σ → Prop)
    (hstep : ∀ past w c s, duty past ⟨c, (perform w c s).1⟩ → inv s → inv (perform w c s).2)
    {choices rest : List ω} {s s' : σ} {value : α}
    (hrun : p.run perform choices s = some (value, s', rest)) (hs : inv s) : inv s' := by
  induction p generalizing past choices s with
  | done result =>
      cases hrun
      exact hs
  | call request next ih =>
      cases choices with
      | nil => cases hrun
      | cons w choices =>
          exact ih _ (hkeeps _).2 hrun (hstep past w request s (hkeeps _).1 hs)

end Program

namespace Service

variable {duty : List (Called Reply) → Called Reply → Prop}

/-- `Program.Keeps` for a service, whose value is an outcome. -/
def Keeps (duty : List (Called Reply) → Called Reply → Prop)
    (post : Except ε α → List (Called Reply) → Prop)
    (x : Service Reply ε α) (past : List (Called Reply)) : Prop :=
  Program.Keeps duty post x past

section Keeps

variable {post : Except ε β → List (Called Reply) → Prop}
variable {past : List (Called Reply)}

@[simp]
theorem keeps_succeed {value : β} :
    (succeed value : Service Reply ε β).Keeps duty post past ↔ post (.ok value) past := Iff.rfl

@[simp]
theorem keeps_reject {e : ε} :
    (reject e : Service Reply ε β).Keeps duty post past ↔ post (.error e) past := Iff.rfl

@[simp]
theorem keeps_statement {c : Call} {outcome : Reply c → Except ε β} :
    (statement c outcome).Keeps duty post past ↔ ∀ reply,
      duty past ⟨c, reply⟩ ∧ post (outcome reply) (⟨c, reply⟩ :: past) := Iff.rfl

@[simp]
theorem keeps_ofExcept {x : Except ε β} :
    (ofExcept x : Service Reply ε β).Keeps duty post past ↔ post x past :=
  Iff.rfl

@[simp]
theorem keeps_bind {x : Service Reply ε α} {f : α → Service Reply ε β} :
    (x.bind f).Keeps duty post past ↔
      x.Keeps duty (fun outcome later =>
        (∀ value, outcome = .ok value → (f value).Keeps duty post later) ∧
          ∀ e, outcome = .error e → post (.error e) later) past := by
  let p : Program Reply _ := x
  refine (Program.keeps_bind (p := p)).trans ?_
  refine iff_of_eq (congrArg (fun post' => x.Keeps duty post' past) ?_)
  funext outcome later
  cases outcome with
  | ok value =>
      change (f value).Keeps duty post later = _
      simp
  | error e =>
      change post (.error e) later = _
      simp

@[simp]
theorem keeps_rejectIf {c : Prop} [Decidable c] {e : ε}
    {post : Except ε Unit → List (Called Reply) → Prop} :
    (rejectIf c e : Service Reply ε Unit).Keeps duty post past ↔
      (c → post (.error e) past) ∧ (¬c → post (.ok ()) past) := by
  by_cases hc : c
  · simp [rejectIf, hc]
  · simp [rejectIf, hc]

end Keeps

/-- Every call meets `duty`, and a success meets `post`. -/
def Yields (duty : List (Called Reply) → Called Reply → Prop)
    (post : α → List (Called Reply) → Prop) (x : Service Reply ε α)
    (past : List (Called Reply)) : Prop :=
  x.Keeps duty (fun outcome later => ∀ value, outcome = .ok value →
    post value later) past

section Yields

variable {post : β → List (Called Reply) → Prop} {past : List (Called Reply)}
variable {x : Service Reply ε β}

@[simp]
theorem yields_succeed {value : β} :
    (succeed value : Service Reply ε β).Yields duty post past ↔ post value past := by
  simp [Yields]

@[simp]
theorem yields_reject {e : ε} : (reject e : Service Reply ε β).Yields duty post past ↔ True := by
  simp [Yields]

@[simp]
theorem yields_statement {c : Call} {outcome : Reply c → Except ε β} :
    (statement c outcome).Yields duty post past ↔ ∀ reply,
      duty past ⟨c, reply⟩ ∧ ∀ value, outcome reply = .ok value →
        post value (⟨c, reply⟩ :: past) := by
  simp [Yields]

@[simp]
theorem yields_ofExcept {x : Except ε β} :
    (ofExcept x : Service Reply ε β).Yields duty post past ↔
      ∀ value, x = .ok value → post value past := by
  simp [Yields]

@[simp]
theorem yields_bind {x : Service Reply ε α} {f : α → Service Reply ε β} :
    (x.bind f).Yields duty post past ↔
      x.Yields duty (fun value later => (f value).Yields duty post later) past := by
  simp [Yields]

@[simp]
theorem yields_rejectIf {c : Prop} [Decidable c] {e : ε}
    {post : Unit → List (Called Reply) → Prop} :
    (rejectIf c e : Service Reply ε Unit).Yields duty post past ↔ (¬c → post () past) := by
  by_cases hc : c
  · simp [Yields, hc]
  · simp only [Yields, keeps_rejectIf, hc, not_false_eq_true, forall_const,
      IsEmpty.forall_iff, true_and]
    exact ⟨fun hpost => hpost (), fun hpost _ => hpost⟩

@[simp]
theorem yields_orReject {x : Service Reply δ β} {wrap : δ → ε} :
    (x.orReject wrap).Yields duty post past ↔ x.Yields duty post past := by
  let p : Program Reply _ := x
  refine (Program.keeps_bind (p := p)).trans ?_
  refine iff_of_eq (congrArg (fun post' => x.Keeps duty post' past) ?_)
  funext outcome later
  cases outcome with
  | ok value =>
      change (succeed value : Service Reply ε β).Yields duty post later = _
      simp
  | error e =>
      change (reject (wrap e) : Service Reply ε β).Yields duty post later = _
      simp

/-- Both outcomes of an attempt are successes. -/
@[simp]
theorem yields_attempt {x : Service Reply δ α} {post : Except δ α → List (Called Reply) → Prop} :
    (attempt x : Service Reply ε (Except δ α)).Yields duty post past ↔ x.Keeps duty post past := by
  let p : Program Reply _ := x
  refine (Program.keeps_bind (p := p)).trans ?_
  refine iff_of_eq (congrArg (fun post' => x.Keeps duty post' past) ?_)
  funext outcome later
  change (succeed outcome : Service Reply ε _).Yields duty post later = _
  simp

theorem Yields.imp {post' : β → List (Called Reply) → Prop} (hyields : x.Yields duty post past)
    (himp : ∀ value later, past <:+ later → post value later →
      post' value later) : x.Yields duty post' past :=
  Program.Keeps.imp hyields fun _ later hlater hpost value hvalue =>
    himp value later hlater (hpost value hvalue)

theorem Yields.run_invariant {perform : ω → (c : Call) → σ → Reply c × σ}
    (hyields : x.Yields duty post past) (inv : σ → Prop)
    (hstep : ∀ past w c s, duty past ⟨c, (perform w c s).1⟩ → inv s → inv (perform w c s).2)
    {choices rest : List ω} {s s' : σ} {outcome : Except ε β}
    (hrun : x.run perform choices s = some (outcome, s', rest)) (hs : inv s) : inv s' := by
  unfold Service.run at hrun
  exact Program.Keeps.run_invariant hyields inv hstep hrun hs

/-- Where failures promise nothing, a promise of successes is a promise. -/
theorem Yields.keeps {post' : Except ε β → List (Called Reply) → Prop}
    (hyields : x.Yields duty post past)
    (himp : ∀ outcome later, (∀ value, outcome = .ok value → post value later) →
      post' outcome later) : x.Keeps duty post' past :=
  Program.Keeps.imp hyields fun outcome later _ hpost =>
    himp outcome later hpost

/-- Turn the outcome into an answer. -/
def finish {Answer : Type} (success : α → Answer) (failure : ε → Answer)
    (x : Service Reply ε α) : Program Reply Answer :=
  Program.bind x fun
    | .ok value => .done (success value)
    | .error e => .done (failure e)

/-- An answer is as promised if successes are, and failures promise nothing. -/
theorem Yields.finish {Answer : Type} {success : β → Answer} {failure : ε → Answer}
    {promise : Answer → List (Called Reply) → Prop} (hyields : x.Yields duty post past)
    (hsuccess : ∀ value later, post value later → promise (success value) later)
    (hfailure : ∀ e later, promise (failure e) later) :
    (x.finish success failure).Keeps duty promise past := by
  refine Program.keeps_bind.mpr (Program.Keeps.imp hyields ?_)
  rintro (e | value) later - hpost
  · exact hfailure e later
  · exact hsuccess value later (hpost value rfl)

/-- Where the successes promise nothing either. -/
theorem Yields.finish_plain {Answer : Type} {success : β → Answer} {failure : ε → Answer}
    {promise : Answer → List (Called Reply) → Prop}
    (hyields : x.Yields duty post past)
    (hplain : (∀ value later, promise (success value) later) ∧
      ∀ e later, promise (failure e) later := by exact ⟨fun _ _ => trivial, fun _ _ => trivial⟩) :
    (x.finish success failure).Keeps duty promise past :=
  hyields.finish (fun value later _ => hplain.1 value later) hplain.2

end Yields

/-- `Program.Only` for a service. -/
def Only (P : Called Reply → Prop) (x : Service Reply ε α) : Prop :=
  Program.Only P x

section Only

variable {P : Called Reply → Prop}
variable {x : Service Reply ε β} {post : β → List (Called Reply) → Prop}
  {past : List (Called Reply)}

theorem only_succeed {value : β} : (succeed value : Service Reply ε β).Only P :=
  trivial

theorem only_reject {e : ε} : (reject e : Service Reply ε β).Only P := trivial

theorem only_ofExcept {x : Except ε β} : (ofExcept x : Service Reply ε β).Only P := trivial

theorem only_rejectIf {c : Prop} [Decidable c] {e : ε} :
    (rejectIf c e : Service Reply ε Unit).Only P := by
  by_cases hc : c
  · simp only [rejectIf, hc, ↓reduceIte]
    exact only_reject
  · simp only [rejectIf, hc, ↓reduceIte]
    exact only_succeed

theorem only_statement {c : Call} {outcome : Reply c → Except ε β}
    (hcall : ∀ reply, P ⟨c, reply⟩) : (statement c outcome).Only P :=
  fun reply => ⟨hcall reply, trivial⟩

theorem Only.bind {x : Service Reply ε α} {f : α → Service Reply ε β}
    (hx : x.Only P) (hf : ∀ value, (f value).Only P) : (x.bind f).Only P := by
  refine Program.only_bind hx fun outcome => ?_
  cases outcome with
  | ok value => exact hf value
  | error e => trivial

theorem Only.orReject {x : Service Reply δ β} {wrap : δ → ε} (hx : x.Only P) :
    (x.orReject wrap).Only P := by
  refine Program.only_bind hx fun outcome => ?_
  cases outcome <;> trivial

theorem Only.attempt {x : Service Reply δ β} (hx : x.Only P) :
    (attempt x : Service Reply ε (Except δ β)).Only P :=
  Program.only_bind hx fun _ => trivial

theorem Only.mono {Q : Called Reply → Prop}
    (honly : x.Only P) (himp : ∀ call, P call → Q call) : x.Only Q :=
  Program.Only.mono honly himp

/-- A step that issues only undemanding calls, whatever it returns. -/
theorem Only.yields (honly : x.Only P) (hduty : ∀ past call, P call → duty past call)
    (hpost : ∀ value added, (∀ call ∈ added, P call) →
      post value (added ++ past)) : x.Yields duty post past :=
  Program.Only.keeps honly hduty fun _ added hadded value _ =>
    hpost value added hadded

/-- What a step yields without a duty it yields under any duty that its calls
meet whatever came before. -/
theorem Only.yields_of {duty' : List (Called Reply) → Called Reply → Prop}
    (honly : x.Only P) (hduty : ∀ past call, P call → duty past call)
    (hyields : x.Yields duty' post past) : x.Yields duty post past := by
  have hkeeps : x.Yields duty (fun _ _ => True) past :=
    honly.yields hduty fun _ _ _ => trivial
  refine Program.Keeps.imp (Program.Keeps.and hkeeps hyields) ?_
  rintro outcome later - ⟨-, hpost⟩
  exact hpost

theorem Only.run_invariant {perform : ω → (c : Call) → σ → Reply c × σ}
    (honly : x.Only P) (inv : σ → Prop)
    (hstep : ∀ w c s, P ⟨c, (perform w c s).1⟩ → inv s → inv (perform w c s).2)
    {choices rest : List ω} {s s' : σ} {outcome : Except ε β}
    (hrun : x.run perform choices s = some (outcome, s', rest)) (hs : inv s) : inv s' := by
  have hyields : x.Yields (fun _ call => P call) (fun _ _ => True) [] :=
    honly.yields (fun _ _ hcall => hcall) fun _ _ _ => trivial
  exact hyields.run_invariant inv (fun _ => hstep) hrun hs

end Only

/-- The service never fails with an error that `bad` describes. -/
def Avoids (bad : ε → Prop) (x : Service Reply ε α) : Prop :=
  ∀ past, x.Keeps (fun _ _ => True)
    (fun outcome _ => ∀ e, outcome = .error e → ¬ bad e) past

section Avoids

variable {bad : ε → Prop}
variable {x : Service Reply ε α} {post : Except ε α → List (Called Reply) → Prop}
  {past : List (Called Reply)}

theorem avoids_succeed {value : β} : (succeed value : Service Reply ε β).Avoids bad := by
  simp [Avoids]

theorem avoids_reject {e : ε} (hgood : ¬ bad e) : (reject e : Service Reply ε β).Avoids bad := by
  simpa [Avoids] using hgood

theorem avoids_ofExcept {x : Except ε β} (hgood : ∀ e, x = .error e → ¬ bad e) :
    (ofExcept x : Service Reply ε β).Avoids bad := by
  simpa [Avoids] using hgood

theorem avoids_statement {c : Call} {outcome : Reply c → Except ε β}
    (hgood : ∀ reply e, outcome reply = .error e → ¬ bad e) : (statement c outcome).Avoids bad := by
  simpa [Avoids] using hgood

theorem avoids_rejectIf {c : Prop} [Decidable c] {e : ε} (hgood : ¬ bad e) :
    (rejectIf c e : Service Reply ε Unit).Avoids bad := by
  simp [Avoids, hgood]

theorem Avoids.bind {f : α → Service Reply ε β}
    (hx : x.Avoids bad) (hf : ∀ value, (f value).Avoids bad) : (x.bind f).Avoids bad := by
  intro past
  rw [keeps_bind]
  refine Program.Keeps.imp (hx past) fun _ later _ hgood => ⟨?_, ?_⟩
  · intro value _
    exact hf value later
  · rintro e rfl e' heq
    cases heq
    exact hgood e rfl

theorem avoids_orReject {x : Service Reply δ β} {wrap : δ → ε}
    (hgood : ∀ e, ¬ bad (wrap e)) : (x.orReject wrap).Avoids bad := by
  intro past
  let p : Program Reply _ := x
  refine (Program.keeps_bind (p := p)).mpr ?_
  refine (Program.keeps_trivial p past).imp ?_
  rintro (e | value) later _ _
  · exact avoids_reject (hgood e) later
  · exact avoids_succeed later

theorem avoids_attempt {x : Service Reply δ β} :
    (attempt x : Service Reply ε (Except δ β)).Avoids bad := by
  intro past
  let p : Program Reply _ := x
  refine (Program.keeps_bind (p := p)).mpr ?_
  refine (Program.keeps_trivial p past).imp ?_
  intro outcome later _ _
  exact avoids_succeed later

/-- A step that fails well, inside a longer one. -/
theorem Avoids.keeps_bind {f : α → Service Reply ε β}
    {post : Except ε β → List (Called Reply) → Prop}
    (havoids : x.Avoids bad) (hfail : ∀ e later, ¬ bad e → post (.error e) later)
    (hyields : x.Yields duty (fun value later => (f value).Keeps duty post later) past) :
    (x.bind f).Keeps duty post past := by
  rw [Service.keeps_bind]
  refine Program.Keeps.imp (Program.Keeps.and hyields (havoids past)) ?_
  rintro outcome later - ⟨hsuccess, hgood⟩
  exact ⟨fun value heq => hsuccess value heq, fun e heq => hfail e later (hgood e heq)⟩

theorem Avoids.keeps (havoids : x.Avoids bad) (hfail : ∀ e later, ¬ bad e → post (.error e) later)
    (hyields : x.Yields duty (fun value later => post (.ok value) later) past) :
    x.Keeps duty post past := by
  refine Program.Keeps.imp (Program.Keeps.and hyields (havoids past)) ?_
  rintro (e | value) later - ⟨hsuccess, hgood⟩
  · exact hfail e later (hgood e rfl)
  · exact hsuccess value rfl

theorem Keeps.imp {post post' : Except ε α → List (Called Reply) → Prop}
    (hkeeps : x.Keeps duty post past) (himp : ∀ outcome later, past <:+ later → post outcome later →
      post' outcome later) : x.Keeps duty post' past :=
  Program.Keeps.imp hkeeps himp

theorem keeps_orReject {x : Service Reply δ α} {wrap : δ → ε} :
    (x.orReject wrap).Keeps duty post past ↔
      x.Keeps duty (fun outcome later => post (outcome.mapError wrap) later) past := by
  let p : Program Reply _ := x
  refine (Program.keeps_bind (p := p)).trans ?_
  refine iff_of_eq (congrArg (fun post' => x.Keeps duty post' past) ?_)
  funext outcome later
  cases outcome <;> rfl

end Avoids

-- From here on the rules above are the only way to reason about services;
-- without this, elaboration tries to execute them.
attribute [irreducible] finish Keeps Yields Only Avoids

end Service

/-- What one history entry records. -/
inductive Step (Reply : Call → Type) (Answer : Type) where
  | called (call : Called Reply)
  | answered (answer : Answer)

instance [DecidableEq (Called Reply)] [DecidableEq Answer] :
    DecidableEq (Step Reply Answer)
  | .called call, .called call' => decidable_of_iff (call = call') (by simp)
  | .answered answer, .answered answer' =>
      decidable_of_iff (answer = answer') (by simp)
  | .called _, .answered _ => isFalse (by simp)
  | .answered _, .called _ => isFalse (by simp)

/-- One entry: the thread, the request it serves, and what it did. -/
structure Entry (Req : Type) (Reply : Call → Type) (Answer : Type) where
  thread : Nat
  request : Req
  step : Step Reply Answer

instance [DecidableEq Req] [DecidableEq (Called Reply)] [DecidableEq Answer] :
    DecidableEq (Entry Req Reply Answer) := fun entry entry' =>
  decidable_of_iff (entry.thread = entry'.thread ∧
      entry.request = entry'.request ∧ entry.step = entry'.step) (by
    cases entry
    cases entry'
    simp)

/-- Entries, newest first. -/
abbrev History (Req : Type) (Reply : Call → Type) (Answer : Type) :=
  List (Entry Req Reply Answer)

namespace History

/-- The calls one thread has made, newest first. -/
def own (thread : Nat) : History Req Reply Answer → List (Called Reply)
  | [] => []
  | entry :: past =>
      if entry.thread = thread then
        match entry.step with
        | .called call => call :: own thread past
        | .answered _ => own thread past
      else own thread past

/-- `P` holds of every entry together with everything before it. -/
def Throughout (P : History Req Reply Answer → Entry Req Reply Answer → Prop)
    (history : History Req Reply Answer) : Prop :=
  ∀ entry past, entry :: past <:+ history → P past entry

variable {P Q : History Req Reply Answer → Entry Req Reply Answer → Prop}
variable {entry : Entry Req Reply Answer} {history past : History Req Reply Answer}

@[simp]
theorem throughout_nil : Throughout P [] := by
  intro entry past hsuffix
  simp at hsuffix

theorem throughout_cons :
    Throughout P (entry :: history) ↔ P history entry ∧ Throughout P history := by
  constructor
  · intro hall
    refine ⟨hall entry history List.suffix_rfl, ?_⟩
    intro earlier past hsuffix
    exact hall earlier past (hsuffix.trans (List.suffix_cons _ _))
  · rintro ⟨hhead, htail⟩ earlier past hsuffix
    rcases List.suffix_cons_iff.mp hsuffix with heq | hrest
    · cases heq
      exact hhead
    · exact htail earlier past hrest

instance decidableThroughout [∀ past entry, Decidable (P past entry)] :
    (history : History Req Reply Answer) → Decidable (Throughout P history)
  | [] => isTrue throughout_nil
  | entry :: past =>
      have := decidableThroughout past
      decidable_of_iff (P past entry ∧ Throughout P past) throughout_cons.symm

/-- The entries of a history, each with its past. -/
def points : History Req Reply Answer →
    List (Entry Req Reply Answer × History Req Reply Answer)
  | [] => []
  | entry :: past => (entry, past) :: points past

theorem mem_points_iff : (entry, past) ∈ points history ↔ entry :: past <:+ history := by
  induction history with
  | nil => simp [points]
  | cons last rest ih =>
      rw [points, List.mem_cons, List.suffix_cons_iff, ih, Prod.mk.injEq, List.cons.injEq]

theorem suffix_of_mem_points (hmem : (entry, past) ∈ points history) : entry :: past <:+ history :=
  mem_points_iff.mp hmem

/-- What holds at some point of a history and outlives every later entry holds
at every later point. -/
theorem suffix_induction {motive : History Req Reply Answer → Prop}
    {base history : History Req Reply Answer} (hbase : motive base)
    (hstep : ∀ entry past, base <:+ past → entry :: past <:+ history →
      motive past → motive (entry :: past))
    {later : History Req Reply Answer} (hfrom : base <:+ later)
    (hlater : later <:+ history) : motive later := by
  induction later with
  | nil =>
      rw [List.suffix_nil.mp hfrom] at hbase
      exact hbase
  | cons entry past ih =>
      rcases List.suffix_cons_iff.mp hfrom with heq | hpast
      · rwa [heq] at hbase
      · exact hstep entry past hpast hlater (ih hpast ((List.suffix_cons _ _).trans hlater))

theorem Throughout.suffix
    (hall : Throughout P history) (hsuffix : past <:+ history) : Throughout P past :=
  fun entry earlier hearlier => hall entry earlier (hearlier.trans hsuffix)

/-- Every entry of a history has a past. -/
theorem exists_past_of_mem (hmem : entry ∈ history) : ∃ past, entry :: past <:+ history := by
  obtain ⟨later, past, rfl⟩ := List.append_of_mem hmem
  exact ⟨past, List.suffix_append later (entry :: past)⟩

theorem mem_of_suffix_cons (hsuffix : entry :: past <:+ history) : entry ∈ history :=
  hsuffix.subset List.mem_cons_self

/-- Two entries of a history are one, or the one comes before the other. -/
theorem entry_trichotomy {history past past' : History Req Reply Answer}
    {entry entry' : Entry Req Reply Answer} (hentry : entry :: past <:+ history)
    (hentry' : entry' :: past' <:+ history) :
    entry :: past = entry' :: past' ∨ entry :: past <:+ past' ∨
      entry' :: past' <:+ past := by
  rcases List.suffix_or_suffix_of_suffix hentry hentry' with hle | hle
  · rcases List.suffix_cons_iff.mp hle with heq | hlt
    · exact Or.inl heq
    · exact Or.inr (Or.inl hlt)
  · rcases List.suffix_cons_iff.mp hle with heq | hlt
    · exact Or.inl heq.symm
    · exact Or.inr (Or.inr hlt)

/-- A thread's own calls are exactly its entries in the history. -/
theorem mem_own_iff {thread : Nat} {call : Called Reply} :
    call ∈ own thread history ↔
      ∃ request, (⟨thread, request, .called call⟩ : Entry Req Reply Answer) ∈ history := by
  induction history with
  | nil => simp [own]
  | cons entry past ih =>
      obtain ⟨t, request, step⟩ := entry
      by_cases ht : t = thread
      · subst ht
        cases step with
        | called other =>
            simp only [own, ↓reduceIte, List.mem_cons, ih, Entry.mk.injEq,
              true_and, Step.called.injEq]
            constructor
            · rintro (rfl | ⟨request', hmem⟩)
              · exact ⟨request, Or.inl ⟨rfl, rfl⟩⟩
              · exact ⟨request', Or.inr hmem⟩
            · rintro ⟨request', ⟨-, rfl⟩ | hmem⟩
              · exact Or.inl rfl
              · exact Or.inr ⟨request', hmem⟩
        | answered answer => simp [own, ih]
      · have hne : thread ≠ t := fun heq => ht heq.symm
        simp [own, ht, hne, ih]

end History

/-- A thread serving one request; it has no residual once it has answered. -/
structure Thread (Req : Type) (Reply : Call → Type) (Answer : Type) where
  request : Req
  residual : Option (Program Reply Answer)

/-- The shared store, the history so far, and all threads ever started. -/
structure Config (Req : Type) (Reply : Call → Type) (Answer σ : Type) where
  store : σ
  history : History Req Reply Answer
  threads : List (Thread Req Reply Answer)

/-- A scheduler decision: accept a new request, or let one thread take its
next step with the given choice. -/
inductive Action (Req ω : Type) where
  | start (request : Req)
  | step (thread : Nat) (choice : ω)

/-- The programs that serve requests and the store that executes calls. -/
structure System (Req : Type) (Reply : Call → Type) (Answer σ ω : Type) where
  serve : Req → Program Reply Answer
  perform : ω → (c : Call) → σ → Reply c × σ

namespace System

variable (system : System Req Reply Answer σ ω)

def initial (store : σ) : Config Req Reply Answer σ := ⟨store, [], []⟩

def next : Action Req ω → Config Req Reply Answer σ → Config Req Reply Answer σ
  | .start request, config =>
      { config with
        threads := config.threads ++ [⟨request, some (system.serve request)⟩] }
  | .step thread choice, config =>
      match config.threads[thread]? with
      | some ⟨request, some (.done answer)⟩ =>
          { config with
            history := ⟨thread, request, .answered answer⟩ :: config.history
            threads := config.threads.set thread ⟨request, none⟩ }
      | some ⟨request, some (.call c after)⟩ =>
          let result := system.perform choice c config.store
          { store := result.2
            history := ⟨thread, request, .called ⟨c, result.1⟩⟩ :: config.history
            threads := config.threads.set thread ⟨request, some (after result.1)⟩ }
      | _ => config

def execute : List (Action Req ω) → Config Req Reply Answer σ →
    Config Req Reply Answer σ
  | [], config => config
  | action :: rest, config => execute rest (system.next action config)

/-- The shape of one scheduler step. -/
theorem next_cases (action : Action Req ω) (config : Config Req Reply Answer σ) :
    (∃ request, action = .start request ∧
      system.next action config = { config with
        threads := config.threads ++ [⟨request, some (system.serve request)⟩] }) ∨
    (∃ thread request answer,
      config.threads[thread]? = some ⟨request, some (.done answer)⟩ ∧
      system.next action config = { config with
        history := ⟨thread, request, .answered answer⟩ :: config.history
        threads := config.threads.set thread ⟨request, none⟩ }) ∨
    (∃ thread request c after choice,
      config.threads[thread]? = some ⟨request, some (.call c after)⟩ ∧
      system.next action config = ⟨(system.perform choice c config.store).2,
          ⟨thread, request, .called ⟨c, (system.perform choice c config.store).1⟩⟩
            :: config.history,
          config.threads.set thread
            ⟨request, some (after (system.perform choice c config.store).1)⟩⟩) ∨
    system.next action config = config := by
  cases action with
  | start request => exact Or.inl ⟨request, rfl, rfl⟩
  | step thread choice =>
      rcases hthread : config.threads[thread]? with _ | ⟨request, residual⟩
      · exact Or.inr (Or.inr (Or.inr (by simp [next, hthread])))
      · rcases residual with _ | (answer | ⟨c, after⟩)
        · exact Or.inr (Or.inr (Or.inr (by simp [next, hthread])))
        · exact Or.inr (Or.inl ⟨thread, request, answer, hthread, by simp [next, hthread]⟩)
        · exact Or.inr (Or.inr (Or.inl ⟨thread, request, c, after, choice,
            hthread, by simp [next, hthread]⟩))

/-- An invariant of one step is an invariant of every run. -/
theorem execute_invariant (I : Config Req Reply Answer σ → Prop)
    (hstep : ∀ action config, I config → I (system.next action config))
    (actions : List (Action Req ω)) (config : Config Req Reply Answer σ)
    (hinit : I config) : I (system.execute actions config) := by
  induction actions generalizing config with
  | nil => exact hinit
  | cons action rest ih =>
      exact ih (system.next action config) (hstep action config hinit)

end System

end Aegion
