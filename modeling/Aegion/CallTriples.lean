/-
Postconditions of programs that run alone against a store.  `Ensures` follows
the program call by call through every choice the store may make, so a service
is specified by rewriting with one rule per construct, and a returned run meets
the specification.
-/
import Aegion.CallHistory

namespace Aegion

variable {Call : Type} {Reply : Call → Type} {α β δ ε σ ω : Type}

namespace Program

/-- Whatever the store chooses, the value returned and the store it is returned
in meet `post`. -/
def Ensures (perform : ω → (c : Call) → σ → Reply c × σ)
    (post : α → σ → Prop) : Program Reply α → σ → Prop
  | .done value, s => post value s
  | .call request next, s => ∀ w,
      (next (perform w request s).1).Ensures perform post (perform w request s).2

variable {perform : ω → (c : Call) → σ → Reply c × σ}

theorem ensures_bind {p : Program Reply α} {f : α → Program Reply β} {post : β → σ → Prop} {s : σ} :
    (p.bind f).Ensures perform post s ↔
      p.Ensures perform (fun value s' => (f value).Ensures perform post s') s := by
  induction p generalizing s with
  | done value => rfl
  | call request next ih =>
      exact forall_congr' fun w => ih (perform w request s).1

/-- A run that returns meets the postcondition. -/
theorem Ensures.run {post : α → σ → Prop} {p : Program Reply α} {s s' : σ}
    (hensures : p.Ensures perform post s) {choices rest : List ω} {value : α}
    (hrun : p.run perform choices s = some (value, s', rest)) : post value s' := by
  induction p generalizing choices s with
  | done result =>
      cases hrun
      exact hensures
  | call request next ih =>
      cases choices with
      | nil => cases hrun
      | cons w choices => exact ih _ (hensures w) hrun

/-- A program whose calls leave the store alone leaves the store alone. -/
theorem Only.ensures_unchanged {P : Called Reply → Prop} {p : Program Reply α} (honly : p.Only P)
    (hread : ∀ w c s, P ⟨c, (perform w c s).1⟩ → (perform w c s).2 = s)
    {post : α → σ → Prop} {s : σ} (hpost : ∀ value, post value s) : p.Ensures perform post s := by
  induction p with
  | done value => exact hpost value
  | call request next ih =>
      intro w
      have hcall := honly (perform w request s).1
      rw [hread w request s hcall.1]
      exact ih _ hcall.2

end Program

namespace Service

variable {perform : ω → (c : Call) → σ → Reply c × σ}

/-- `Program.Ensures` of both outcomes of a service. -/
def Settles (perform : ω → (c : Call) → σ → Reply c × σ)
    (post : Except ε α → σ → Prop) (x : Service Reply ε α) (s : σ) : Prop :=
  Program.Ensures perform post x s

/-- A success meets `post`. -/
def Ensures (perform : ω → (c : Call) → σ → Reply c × σ)
    (post : α → σ → Prop) (x : Service Reply ε α) (s : σ) : Prop :=
  x.Settles perform (fun outcome s' => ∀ value, outcome = .ok value →
    post value s') s

section Rules

variable {post : β → σ → Prop} {s : σ}

@[simp]
theorem ensures_succeed {value : β} :
    (succeed value : Service Reply ε β).Ensures perform post s ↔ post value s := by
  change (∀ value', Except.ok value = .ok value' → post value' s) ↔ _
  simp

@[simp]
theorem ensures_reject {e : ε} : (reject e : Service Reply ε β).Ensures perform post s ↔ True := by
  change (∀ value', Except.error e = .ok value' → post value' s) ↔ _
  simp

@[simp]
theorem ensures_statement {c : Call} {read : Reply c → Except ε β} :
    (statement c read).Ensures perform post s ↔
      ∀ w value, read (perform w c s).1 = .ok value →
        post value (perform w c s).2 := Iff.rfl

@[simp]
theorem ensures_ofExcept {x : Except ε β} :
    (ofExcept x : Service Reply ε β).Ensures perform post s ↔
      ∀ value, x = .ok value → post value s := Iff.rfl

@[simp]
theorem ensures_bind {x : Service Reply ε α} {f : α → Service Reply ε β} :
    (x.bind f).Ensures perform post s ↔
      x.Ensures perform (fun value s' => (f value).Ensures perform post s') s := by
  let p : Program Reply (Except ε α) := x
  refine (Program.ensures_bind (p := p)).trans ?_
  refine iff_of_eq (congrArg (fun post' => x.Settles perform post' s) ?_)
  funext outcome s'
  cases outcome with
  | ok value =>
      change (f value).Ensures perform post s' = _
      simp
  | error e =>
      change (reject e : Service Reply ε β).Ensures perform post s' = _
      simp

@[simp]
theorem ensures_rejectIf {c : Prop} [Decidable c] {e : ε} {post : Unit → σ → Prop} :
    (rejectIf c e : Service Reply ε Unit).Ensures perform post s ↔ (¬c → post () s) := by
  by_cases hc : c
  · simp [rejectIf, hc]
  · simp [rejectIf, hc]

@[simp]
theorem ensures_orReject {x : Service Reply δ β} {wrap : δ → ε} :
    (x.orReject wrap).Ensures perform post s ↔ x.Ensures perform post s := by
  let p : Program Reply (Except δ β) := x
  refine (Program.ensures_bind (p := p)).trans ?_
  refine iff_of_eq (congrArg (fun post' => x.Settles perform post' s) ?_)
  funext outcome s'
  cases outcome with
  | ok value =>
      change (succeed value : Service Reply ε β).Ensures perform post s' = _
      simp
  | error e =>
      change (reject (wrap e) : Service Reply ε β).Ensures perform post s' = _
      simp

theorem Ensures.run {x : Service Reply ε β}
    (hensures : x.Ensures perform post s) {choices rest : List ω} {s' : σ} {value : β}
    (hrun : x.run perform choices s = some (.ok value, s', rest)) : post value s' := by
  unfold Service.run at hrun
  exact Program.Ensures.run hensures hrun value rfl

theorem Only.ensures_unchanged {P : Called Reply → Prop} {x : Service Reply ε β} (honly : x.Only P)
    (hread : ∀ w c s, P ⟨c, (perform w c s).1⟩ → (perform w c s).2 = s)
    (hpost : ∀ value, post value s) : x.Ensures perform post s := by
  unfold Service.Only at honly
  exact Program.Only.ensures_unchanged honly hread fun _ value _ => hpost value

end Rules

attribute [irreducible] Settles Ensures

end Service

end Aegion
