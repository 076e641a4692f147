/-
Texts put together with a separator.  A field that does not contain the separator
ends where the separator first occurs, or begins where it last occurs, so the fields can
be told apart again.
-/
import Mathlib.Data.List.Basic

namespace Aegion.Delimited

variable {α : Type} {c : α} {xs xs' ys ys' : List α}

theorem append_cons_inj (hxs : c ∉ xs) (hxs' : c ∉ xs') :
    xs ++ c :: ys = xs' ++ c :: ys' ↔ xs = xs' ∧ ys = ys' := by
  refine ⟨fun heq => ?_, fun ⟨hfirst, hrest⟩ => by rw [hfirst, hrest]⟩
  induction xs generalizing xs' with
  | nil =>
      cases xs' with
      | nil => exact ⟨rfl, (List.cons.inj heq).2⟩
      | cons d rest' =>
          cases (List.cons.inj heq).1
          exact absurd List.mem_cons_self hxs'
  | cons d rest ih =>
      cases xs' with
      | nil =>
          cases (List.cons.inj heq).1
          exact absurd List.mem_cons_self hxs
      | cons d' rest' =>
          obtain ⟨rfl, htail⟩ := List.cons.inj heq
          obtain ⟨rfl, hys⟩ := ih (List.not_mem_of_not_mem_cons hxs)
            (List.not_mem_of_not_mem_cons hxs') htail
          exact ⟨rfl, hys⟩

/-- A last field without the separator begins where the separator last occurs. -/
theorem append_cons_inj_of_last (hys : c ∉ ys) (hys' : c ∉ ys') :
    xs ++ c :: ys = xs' ++ c :: ys' ↔ xs = xs' ∧ ys = ys' := by
  have hreversed := @append_cons_inj α c ys.reverse ys'.reverse xs.reverse xs'.reverse
    (by simpa using hys) (by simpa using hys')
  rw [List.reverse_inj, List.reverse_inj] at hreversed
  rw [← List.reverse_inj, and_comm, ← hreversed]
  simp only [List.reverse_append, List.reverse_cons, List.append_assoc, List.singleton_append]

/-- Moving the separator between the first two fields to the right gives the others. -/
def Shifts (c : α) (xs ys xs' ys' : List α) : Prop :=
  ∃ middle, xs' = xs ++ c :: middle ∧ ys = middle ++ c :: ys'

theorem Shifts.ne (hshifts : Shifts c xs ys xs' ys') : xs ≠ xs' := by
  obtain ⟨middle, rfl, -⟩ := hshifts
  intro heq
  have hlength := congrArg List.length heq
  rw [List.length_append, List.length_cons] at hlength
  omega

/-- Two texts are the same if their fields are, or the separator has been moved. -/
theorem append_cons_eq_iff :
    xs ++ c :: ys = xs' ++ c :: ys' ↔
      (xs = xs' ∧ ys = ys') ∨ Shifts c xs ys xs' ys' ∨ Shifts c xs' ys' xs ys := by
  constructor
  · intro heq
    rcases List.append_eq_append_iff.mp heq with
      ⟨middle, hfirst, hrest⟩ | ⟨middle, hfirst, hrest⟩
    · cases middle with
      | nil =>
          rw [List.append_nil] at hfirst
          exact Or.inl ⟨hfirst.symm, (List.cons.inj hrest).2⟩
      | cons d middle =>
          obtain ⟨rfl, hys⟩ := List.cons.inj hrest
          exact Or.inr (Or.inl ⟨middle, hfirst, hys⟩)
    · cases middle with
      | nil =>
          rw [List.append_nil] at hfirst
          exact Or.inl ⟨hfirst, (List.cons.inj hrest).2.symm⟩
      | cons d middle =>
          obtain ⟨rfl, hys⟩ := List.cons.inj hrest
          exact Or.inr (Or.inr ⟨middle, hfirst, hys⟩)
  · rintro (⟨rfl, rfl⟩ | ⟨middle, rfl, rfl⟩ | ⟨middle, rfl, rfl⟩)
    · rfl
    · simp only [List.append_assoc, List.cons_append]
    · simp only [List.append_assoc, List.cons_append]

end Aegion.Delimited
