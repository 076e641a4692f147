/-
Programs over atomic calls.  A program either is done or issues one call and
continues with the reply, so the same definition is executed alone by `run`
and call by call by an interleaving scheduler.
-/
import Mathlib.Data.List.Basic

namespace Aegion

variable {Call : Type} {Reply : Call → Type} {α β δ ε σ ω : Type}

/-- A finite program whose effects are calls; `Reply c` is what call `c`
answers. -/
inductive Program (Reply : Call → Type) (α : Type) where
  | done (value : α)
  | call (request : Call) (next : Reply request → Program Reply α)

/-- One executed call together with its reply. -/
abbrev Called (Reply : Call → Type) := (c : Call) × Reply c

namespace Program

def bind : Program Reply α → (α → Program Reply β) → Program Reply β
  | .done value, f => f value
  | .call request next, f => .call request fun reply => (next reply).bind f

instance : Monad (Program Reply) where
  pure := .done
  bind := bind

@[simp]
theorem pure_eq (value : α) : (pure value : Program Reply α) = .done value :=
  rfl

@[simp]
theorem bind_eq (p : Program Reply α) (f : α → Program Reply β) : p >>= f = p.bind f := rfl

@[simp]
theorem done_bind (value : α) (f : α → Program Reply β) :
    (Program.done value).bind f = f value := rfl

@[simp]
theorem call_bind (request : Call) (next : Reply request → Program Reply α)
    (f : α → Program Reply β) :
    (Program.call request next).bind f = .call request fun reply => (next reply).bind f := rfl

/-- Uninterrupted execution against a store.  A choice fixes what the store
leaves open (the clock, random bytes, a failing connection); the result is
`none` when the choices run out, and otherwise names those not used. -/
def run (perform : ω → (c : Call) → σ → Reply c × σ) :
    Program Reply α → List ω → σ → Option (α × σ × List ω)
  | .done value, choices, s => some (value, s, choices)
  | .call _ _, [], _ => none
  | .call request next, w :: choices, s =>
      (next (perform w request s).1).run perform choices (perform w request s).2

theorem run_bind (perform : ω → (c : Call) → σ → Reply c × σ)
    (p : Program Reply α) (f : α → Program Reply β) (choices : List ω) (s : σ) :
    (p.bind f).run perform choices s =
      (p.run perform choices s).bind fun (value, s', rest) => (f value).run perform rest s' := by
  induction p generalizing choices s with
  | done value => rfl
  | call request next ih =>
      cases choices with
      | nil => rfl
      | cons w choices => exact ih _ choices _

end Program

/-- A program that may stop early with a failure. -/
def Service (Reply : Call → Type) (ε α : Type) :=
  Program Reply (Except ε α)

namespace Service

/-- Continue after success, stop at the first failure. -/
def bind (x : Service Reply ε α) (f : α → Service Reply ε β) : Service Reply ε β :=
  Program.bind x fun
    | .ok value => f value
    | .error e => .done (.error e)

def succeed (value : α) : Service Reply ε α := Program.done (.ok value)

instance : Monad (Service Reply ε) where
  pure := succeed
  bind := bind

/-- `return nil, err`. -/
def reject (e : ε) : Service Reply ε α := Program.done (.error e)

/-- `if c { return nil, err }`. -/
def rejectIf (c : Prop) [Decidable c] (e : ε) : Service Reply ε Unit :=
  if c then reject e else succeed ()

/-- `x, err := p; if err != nil { return nil, wrap(err) }`. -/
def orReject (x : Service Reply δ α) (wrap : δ → ε) : Service Reply ε α :=
  Program.bind x fun
    | .ok value => succeed value
    | .error e => reject (wrap e)

/-- `x, err := p`, with both outcomes kept for the code that follows. -/
def attempt (x : Service Reply δ α) : Service Reply ε (Except δ α) :=
  Program.bind x succeed

/-- One call, its reply read as an outcome. -/
def statement (c : Call) (outcome : Reply c → Except ε α) : Service Reply ε α :=
  Program.call c fun reply => .done (outcome reply)

/-- `value, err := f(...); if err != nil { return nil, err }` for a pure `f`. -/
def ofExcept (x : Except ε α) : Service Reply ε α := Program.done x

@[simp]
theorem pure_eq (value : α) : (pure value : Service Reply ε α) = succeed value := rfl

@[simp]
theorem bind_eq (x : Service Reply ε α) (f : α → Service Reply ε β) : x >>= f = x.bind f := rfl

@[simp]
theorem succeed_bind (value : α) (f : α → Service Reply ε β) :
    (succeed value : Service Reply ε α).bind f = f value := rfl

@[simp]
theorem reject_bind (e : ε) (f : α → Service Reply ε β) :
    (reject e : Service Reply ε α).bind f = reject e := rfl

section Run

/-- `Program.run` for a service, whose value is an outcome. -/
def run (perform : ω → (c : Call) → σ → Reply c × σ) (x : Service Reply ε α)
    (choices : List ω) (s : σ) : Option (Except ε α × σ × List ω) :=
  Program.run perform x choices s

variable (perform : ω → (c : Call) → σ → Reply c × σ) (choices : List ω) (s : σ)

@[simp]
theorem run_succeed (value : α) :
    (succeed value : Service Reply ε α).run perform choices s = some (.ok value, s, choices) := rfl

@[simp]
theorem run_ofExcept (x : Except ε α) :
    (ofExcept x : Service Reply ε α).run perform choices s = some (x, s, choices) := rfl

@[simp]
theorem run_statement_nil (c : Call) (outcome : Reply c → Except ε α) :
    (statement c outcome).run perform [] s = none := rfl

@[simp]
theorem run_statement_cons (w : ω) (c : Call) (outcome : Reply c → Except ε α) :
    (statement c outcome).run perform (w :: choices) s =
      some (outcome (perform w c s).1, (perform w c s).2, choices) := rfl

@[simp]
theorem run_rejectIf (c : Prop) [Decidable c] (e : ε) :
    (rejectIf c e : Service Reply ε Unit).run perform choices s =
      some (if c then .error e else .ok (), s, choices) := by
  unfold rejectIf
  split <;> rfl

/-- Continue a run after success. -/
def resume (f : α → Service Reply ε β) :
    Except ε α × σ × List ω → Option (Except ε β × σ × List ω)
  | (.ok value, s, choices) => (f value).run perform choices s
  | (.error e, s, choices) => some (.error e, s, choices)

@[simp]
theorem resume_ok (f : α → Service Reply ε β) (value : α) :
    resume perform f (.ok value, s, choices) = (f value).run perform choices s := rfl

@[simp]
theorem resume_error (f : α → Service Reply ε β) (e : ε) :
    resume perform f (.error e, s, choices) = some (.error e, s, choices) := rfl

@[simp]
theorem run_bind (x : Service Reply ε α) (f : α → Service Reply ε β) :
    (x.bind f).run perform choices s = (x.run perform choices s).bind (resume perform f) := by
  let p : Program Reply (Except ε α) := x
  refine (Program.run_bind perform p _ choices s).trans ?_
  change (x.run perform choices s).bind _ = _
  congr 1
  funext result
  obtain ⟨outcome, s', rest⟩ := result
  cases outcome <;> rfl

/-- `orReject` only renames the error. -/
@[simp]
theorem run_orReject (x : Service Reply δ α) (wrap : δ → ε) :
    (x.orReject wrap).run perform choices s =
      (x.run perform choices s).map fun (outcome, s', rest) =>
        (outcome.mapError wrap, s', rest) := by
  let p : Program Reply (Except δ α) := x
  refine (Program.run_bind perform p _ choices s).trans ?_
  change (x.run perform choices s).bind _ = _
  cases x.run perform choices s with
  | none => rfl
  | some result =>
      obtain ⟨outcome, s', rest⟩ := result
      cases outcome <;> rfl

@[simp]
theorem run_attempt (x : Service Reply δ α) :
    (attempt x : Service Reply ε (Except δ α)).run perform choices s =
      (x.run perform choices s).map fun (outcome, s', rest) => (.ok outcome, s', rest) := by
  let p : Program Reply (Except δ α) := x
  refine (Program.run_bind perform p _ choices s).trans ?_
  change (x.run perform choices s).bind _ = _
  cases x.run perform choices s with
  | none => rfl
  | some result => rfl

section Returned

variable {perform choices s} {s' : σ} {rest : List ω}

/-- A sequence returns from its second half, or from its first with an error. -/
theorem run_bind_eq_some {x : Service Reply ε α} {f : α → Service Reply ε β}
    {outcome : Except ε β} :
    (x.bind f).run perform choices s = some (outcome, s', rest) ↔
      (∃ value s₁ rest₁, x.run perform choices s = some (.ok value, s₁, rest₁) ∧
        (f value).run perform rest₁ s₁ = some (outcome, s', rest)) ∨
      ∃ e, x.run perform choices s = some (.error e, s', rest) ∧
        outcome = .error e := by
  rw [run_bind]
  cases x.run perform choices s with
  | none => simp
  | some result =>
      obtain ⟨first, s₁, rest₁⟩ := result
      cases first with
      | ok value => simp
      | error e => simp [eq_comm, and_comm, and_assoc]

theorem run_bind_eq_ok {x : Service Reply ε α} {f : α → Service Reply ε β} {result : β} :
    (x.bind f).run perform choices s = some (.ok result, s', rest) ↔
      ∃ value s₁ rest₁, x.run perform choices s = some (.ok value, s₁, rest₁) ∧
        (f value).run perform rest₁ s₁ = some (.ok result, s', rest) := by
  rw [run_bind_eq_some]
  simp

theorem run_orReject_eq_some {x : Service Reply δ α} {wrap : δ → ε} {outcome : Except ε α} :
    (x.orReject wrap).run perform choices s = some (outcome, s', rest) ↔
      ∃ inner, x.run perform choices s = some (inner, s', rest) ∧
        inner.mapError wrap = outcome := by
  rw [run_orReject]
  cases x.run perform choices s with
  | none => simp
  | some result => simp [Prod.ext_iff, and_comm, and_assoc]

theorem run_statement_eq_some {c : Call} {read : Reply c → Except ε α} {outcome : Except ε α} :
    (statement c read).run perform choices s = some (outcome, s', rest) ↔
      ∃ w, choices = w :: rest ∧ read (perform w c s).1 = outcome ∧
        (perform w c s).2 = s' := by
  cases choices with
  | nil => simp
  | cons w choices =>
      simp only [run_statement_cons, Option.some.injEq, Prod.mk.injEq, List.cons.injEq]
      constructor
      · rintro ⟨hread, hstore, hrest⟩
        exact ⟨w, ⟨rfl, hrest⟩, hread, hstore⟩
      · rintro ⟨w, ⟨rfl, hrest⟩, hread, hstore⟩
        exact ⟨hread, hstore, hrest⟩

end Returned

attribute [irreducible] run

end Run

end Service

end Aegion
