/-
Doubly linked lists as two functions on addresses.  A list of addresses is linked if each
one points to the next and the next one back; unlinking an address and inserting one are
sequences of single assignments.
-/
import Mathlib.Data.List.Chain
import Mathlib.Data.List.Nodup
import Mathlib.Logic.Function.Basic

namespace Aegion

/-- The pointers of the nodes of doubly linked lists. -/
structure Links (α : Type) where
  prev : α → α
  next : α → α

namespace Links

variable {α : Type} [DecidableEq α] (links : Links α)

def setPrev (x y : α) : Links α := { links with prev := Function.update links.prev x y }

def setNext (x y : α) : Links α := { links with next := Function.update links.next x y }

/-- `x.prev.next = x.next; x.next.prev = x.prev`. -/
def remove (x : α) : Links α :=
  let links := links.setNext (links.prev x) (links.next x)
  links.setPrev (links.next x) (links.prev x)

/-- `x.prev = head; x.next = head.next; head.next.prev = x; head.next = x`. -/
def insertAfter (head x : α) : Links α :=
  let links := links.setPrev x head
  let links := links.setNext x (links.next head)
  let links := links.setPrev (links.next head) x
  links.setNext head x

omit [DecidableEq α] in
/-- The second address follows the first. -/
def Adjacent (x y : α) : Prop := links.next x = y ∧ links.prev y = x

omit [DecidableEq α] in
/-- Each address of the list is followed by the next one. -/
def Linked (addresses : List α) : Prop := addresses.IsChain links.Adjacent

variable {links} {front back : List α} {x head : α}

/-- Unlinking an address that has one before it and one behind it. -/
theorem Linked.remove (hlinked : links.Linked (front ++ x :: back))
    (hfront : front ≠ []) (hback : back ≠ []) (hx : x ∉ front ++ back) :
    (links.remove x).Linked (front ++ back) := by
  obtain ⟨front, before, rfl⟩ := (List.eq_nil_or_concat front).resolve_left hfront
  obtain ⟨after, back, rfl⟩ := List.exists_cons_of_ne_nil hback
  rw [List.concat_eq_append] at hlinked hx ⊢
  rw [List.append_assoc, List.singleton_append] at hlinked ⊢
  obtain ⟨hxfront, hxback⟩ := not_or.mp (List.mem_append.not.mp hx)
  obtain ⟨hfrontLinked, hbefore, hrest⟩ := List.isChain_append_cons_cons.mp hlinked
  obtain ⟨hafter, hbackLinked⟩ := List.isChain_cons_cons.mp hrest
  have hne : x ≠ before := by
    rintro rfl
    exact hxfront (List.mem_append_right front List.mem_cons_self)
  have hremove : links.remove x =
      { prev := Function.update links.prev after before
        next := Function.update links.next before after } := by
    simp [Links.remove, setNext, setPrev, hbefore.2, hafter.1, Function.update_of_ne hne]
  have hframe : ∀ addresses : List α, x ∉ addresses → links.Linked addresses →
      (links.remove x).Linked addresses := by
    intro addresses hnotMem haddresses
    refine haddresses.imp_of_mem_imp fun a b ha hb hab => ?_
    -- Only `x` follows `before`, and only `x` precedes `after`.
    have hfirst : a ≠ before := by
      rintro rfl
      exact hnotMem (hab.1.symm.trans hbefore.1 ▸ hb)
    have hsecond : b ≠ after := by
      rintro rfl
      exact hnotMem (hab.2.symm.trans hafter.2 ▸ ha)
    rw [hremove]
    exact ⟨(Function.update_of_ne hfirst _ _).trans hab.1,
      (Function.update_of_ne hsecond _ _).trans hab.2⟩
  refine List.isChain_append_cons_cons.mpr
    ⟨hframe _ hxfront hfrontLinked, ?_, hframe _ hxback hbackLinked⟩
  rw [hremove]
  exact ⟨Function.update_self .., Function.update_self ..⟩

/-- Inserting a new address behind the first one. -/
theorem Linked.insertAfter (hlinked : links.Linked (head :: back)) (hback : back ≠ [])
    (hhead : head ∉ back) (hx : x ∉ head :: back) :
    (links.insertAfter head x).Linked (head :: x :: back) := by
  obtain ⟨after, back, rfl⟩ := List.exists_cons_of_ne_nil hback
  obtain ⟨hafter, hbackLinked⟩ := List.isChain_cons_cons.mp hlinked
  obtain ⟨hxhead, hxback⟩ := not_or.mp (List.mem_cons.not.mp hx)
  have hxafter : x ≠ after := fun heq => hxback (heq ▸ List.mem_cons_self)
  have hinsert : links.insertAfter head x =
      { prev := Function.update (Function.update links.prev x head) after x
        next := Function.update (Function.update links.next x after) head x } := by
    simp [Links.insertAfter, setNext, setPrev, hafter.1, Function.update_of_ne (Ne.symm hxhead)]
  rw [hinsert]
  refine List.isChain_cons_cons.mpr ⟨⟨Function.update_self .., ?_⟩,
    List.isChain_cons_cons.mpr ⟨⟨?_, Function.update_self ..⟩, ?_⟩⟩
  · exact (Function.update_of_ne hxafter _ _).trans (Function.update_self ..)
  · exact (Function.update_of_ne hxhead _ _).trans (Function.update_self ..)
  · refine hbackLinked.imp_of_mem_imp fun a b ha hb hab => ?_
    have hahead : a ≠ head := fun heq => hhead (heq ▸ ha)
    have hax : a ≠ x := fun heq => hxback (heq ▸ ha)
    have hbx : b ≠ x := fun heq => hxback (heq ▸ hb)
    have hbafter : b ≠ after := by
      rintro rfl
      exact hahead (hab.2.symm.trans hafter.2)
    constructor
    · exact (Function.update_of_ne hahead _ _).trans ((Function.update_of_ne hax _ _).trans hab.1)
    · exact (Function.update_of_ne hbafter _ _).trans ((Function.update_of_ne hbx _ _).trans hab.2)

end Links

end Aegion
