/-
A component inside a larger system.  The component's programs run unchanged with
each of their calls lifted to a call of the system, and what they keep holds of
the component's calls among those that the system records.
-/
import Aegion.HistoryLaws

namespace Aegion

variable {Call : Type} {Reply : Call → Type} {Call' : Type} {Reply' : Call' → Type}
variable {α β δ ε : Type}

/-- How the calls of a component appear among those of a system: `view` finds
the component's call in a lifted one. -/
structure Embedding (Reply : Call → Type) (Reply' : Call' → Type) where
  lift : Call → Call'
  back : (c : Call) → Reply' (lift c) → Reply c
  view : Called Reply' → Option (Called Reply)
  view_lift : ∀ c reply, view ⟨lift c, reply⟩ = some ⟨c, back c reply⟩

namespace Embedding

variable (embedding : Embedding Reply Reply')

/-- The component's share of a past. -/
def share (past : List (Called Reply')) : List (Called Reply) :=
  past.filterMap embedding.view

@[simp]
theorem share_cons_lift (c : Call) (reply : Reply' (embedding.lift c))
    (past : List (Called Reply')) :
    embedding.share (⟨embedding.lift c, reply⟩ :: past) =
      ⟨c, embedding.back c reply⟩ :: embedding.share past :=
  List.filterMap_cons_some (embedding.view_lift c reply)

end Embedding

namespace Program

/-- Run a program of the component as one of the system. -/
def embed (embedding : Embedding Reply Reply') : Program Reply α → Program Reply' α
  | .done value => .done value
  | .call c next => .call (embedding.lift c) fun reply =>
      (next (embedding.back c reply)).embed embedding

variable {embedding : Embedding Reply Reply'}
variable {duty : List (Called Reply) → Called Reply → Prop}
variable {duty' : List (Called Reply') → Called Reply' → Prop}

/-- What a program keeps holds of its image, on the component's share. -/
theorem Keeps.embed {post : α → List (Called Reply) → Prop} {p : Program Reply α}
    {past : List (Called Reply')} (hkeeps : p.Keeps duty post (embedding.share past))
    (hduty : ∀ past c reply, duty (embedding.share past) ⟨c, embedding.back c reply⟩ →
      duty' past ⟨embedding.lift c, reply⟩) :
    (p.embed embedding).Keeps duty'
      (fun value later => post value (embedding.share later)) past := by
  induction p generalizing past with
  | done value => exact hkeeps
  | call c next ih =>
      intro reply
      obtain ⟨hcall, hnext⟩ := hkeeps (embedding.back c reply)
      refine ⟨hduty past c reply hcall, ih _ ?_⟩
      rw [embedding.share_cons_lift]
      exact hnext

/-- An image issues only images. -/
theorem Only.embed {P : Called Reply → Prop} {P' : Called Reply' → Prop}
    {p : Program Reply α} (honly : p.Only P) (himp : ∀ c reply, P ⟨c, embedding.back c reply⟩ →
      P' ⟨embedding.lift c, reply⟩) :
    (p.embed embedding).Only P' := by
  induction p with
  | done value => trivial
  | call c next ih =>
      intro reply
      obtain ⟨hcall, hnext⟩ := honly (embedding.back c reply)
      exact ⟨himp c reply hcall, ih _ hnext⟩

theorem only_embed (p : Program Reply α) :
    (p.embed embedding).Only fun call => ∃ c reply, call = ⟨embedding.lift c, reply⟩ := by
  induction p with
  | done value => trivial
  | call c next ih => exact fun reply => ⟨⟨c, reply, rfl⟩, ih _⟩

end Program

namespace Service

/-- `Program.embed` for a service. -/
def embed (embedding : Embedding Reply Reply') (x : Service Reply ε α) : Service Reply' ε α :=
  Program.embed embedding x

variable {embedding : Embedding Reply Reply'}

theorem Yields.embed {duty : List (Called Reply) → Called Reply → Prop}
    {duty' : List (Called Reply') → Called Reply' → Prop}
    {post : α → List (Called Reply) → Prop} {x : Service Reply ε α} {past : List (Called Reply')}
    (hyields : x.Yields duty post (embedding.share past))
    (hduty : ∀ past c reply, duty (embedding.share past) ⟨c, embedding.back c reply⟩ →
      duty' past ⟨embedding.lift c, reply⟩) :
    (x.embed embedding).Yields duty'
      (fun value later => post value (embedding.share later)) past := by
  unfold Yields Keeps at hyields ⊢
  exact Program.Keeps.embed hyields hduty

theorem Only.embed {P : Called Reply → Prop} {P' : Called Reply' → Prop}
    {x : Service Reply ε α} (honly : x.Only P) (himp : ∀ c reply, P ⟨c, embedding.back c reply⟩ →
      P' ⟨embedding.lift c, reply⟩) :
    (x.embed embedding).Only P' := by
  unfold Only at honly ⊢
  exact Program.Only.embed honly himp

theorem only_embed (x : Service Reply ε α) :
    (x.embed embedding).Only fun call => ∃ c reply, call = ⟨embedding.lift c, reply⟩ := by
  unfold Only
  exact Program.only_embed x

end Service

end Aegion
