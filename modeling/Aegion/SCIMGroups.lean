/-
Patches of SCIM groups.  The operations of a patch are folded over the group in their order, and
the result is stored.  An addition of members replaces the members instead of joining them, so a
patch has the effect its operations describe exactly if the last additions happen to repeat
everybody who is to stay.
-/
import Aegion.GoText
import Aegion.KeyedTable
import Mathlib.Data.List.Induction

namespace Aegion.SCIM

open Go

section Store

structure Member where
  value : String
  ref : String
  type : String
  display : String
deriving Repr, DecidableEq

/-- A row of `adm_scim_groups`; the members are a JSON list. -/
structure Group where
  id : String
  externalID : Option String
  displayName : String
  members : List Member
deriving Repr, DecidableEq

structure PatchOperation (Value : Type) where
  op : String
  path : String
  value : Value
deriving Repr, DecidableEq

/-- What the code reads in a JSON value: the text, if it is one, and the list of members, if it can
be decoded as one. -/
structure Decoder (Value : Type) where
  asString : Value → Option String
  asMembers : Value → Option (List Member)

inductive PatchError where
  | notFound
  | invalidOperation
  | database
deriving Repr, DecidableEq

abbrev Groups := Table Group.id

/-- `nullableString`. -/
def nullableString (value : String) : Option String :=
  if trimSpace value = "" then none else some (trimSpace value)

def derefString (value : Option String) : String := trimSpace (value.getD "")

def getGroupByID (groups : Groups) (id : String) : Option Group := groups.find? (trimSpace id)

/-- The columns that `UpdateGroup` sets. -/
def Group.assign (group : Group) (row : Group) : Group :=
  ⟨row.id, nullableString (derefString group.externalID), group.displayName, group.members⟩

theorem Group.id_assign (group row : Group) : (group.assign row).id = row.id := by
  rw [Group.assign]

/-- `UpdateGroup`; the display name is unique. -/
def updateGroup (groups : Groups) (group : Group) : Except PatchError Groups :=
  if groups.rows.any fun row => row.displayName = group.displayName && row.id ≠ group.id then
    .error .database
  else if groups.affected (·.id = group.id) = 0 then .error .notFound
  else .ok (groups.updateWhere (·.id = group.id) group.assign group.id_assign)

variable {Value : Type} (tables : CaseTables) (decoder : Decoder Value)

def applyOperation (group : Group) (op : PatchOperation Value) : Except PatchError Group :=
  let action := tables.toLower (trimSpace op.op)
  if action = "replace" ∨ action = "add" then
    let path := tables.toLower (trimSpace op.path)
    if path = "displayname" then
      match decoder.asString op.value with
      | some value => .ok { group with displayName := trimSpace value }
      | none => .ok group
    else if path = "members" then
      match decoder.asMembers op.value with
      | some members => .ok { group with members := members }
      | none => .error .invalidOperation
    else .ok group
  else if action = "remove" then
    if tables.equalFold (trimSpace op.path) "members" then .ok { group with members := [] }
    else .error .invalidOperation
  else .error .invalidOperation

def patchGroup (groups : Groups) (id : String) (operations : List (PatchOperation Value)) :
    Except PatchError (Group × Groups) := do
  let group ← (getGroupByID groups id).elim (.error .notFound) .ok
  let patched ← operations.foldlM (applyOperation tables decoder) group
  let stored ← updateGroup groups patched
  let result ← (getGroupByID stored id).elim (.error .notFound) .ok
  pure (result, stored)

end Store

section Specification

variable {Value : Type} (tables : CaseTables) (decoder : Decoder Value)

def PatchOperation.adds (op : PatchOperation Value) (path : String) : Bool :=
  tables.toLower (trimSpace op.op) = "add" && tables.toLower (trimSpace op.path) = path

def PatchOperation.replaces (op : PatchOperation Value) (path : String) : Bool :=
  tables.toLower (trimSpace op.op) = "replace" && tables.toLower (trimSpace op.path) = path

def PatchOperation.clears (op : PatchOperation Value) : Bool :=
  tables.toLower (trimSpace op.op) = "remove" && tables.equalFold (trimSpace op.path) "members"

/-- The operations on the members. -/
def PatchOperation.onMembers (op : PatchOperation Value) : Bool :=
  op.adds tables "members" || op.replaces tables "members" || op.clears tables

def PatchOperation.onDisplayName (op : PatchOperation Value) : Bool :=
  op.adds tables "displayname" || op.replaces tables "displayname"

/-- The meaning of an operation for the members: an addition joins them. -/
def specMembers (current : List Member) (op : PatchOperation Value) : List Member :=
  if op.adds tables "members" then current ∪ (decoder.asMembers op.value).getD []
  else if op.replaces tables "members" then (decoder.asMembers op.value).getD []
  else if op.clears tables then []
  else current

/-- The last element with a property, and what stands before it. -/
def IsLast {α : Type} (p : α → Bool) (list before : List α) (last : α) : Prop :=
  p last = true ∧ ∃ after, list = before ++ last :: after ∧ ∀ later ∈ after, p later = false

/-- The members are those of the folded operations, and the display name is the value of the last
operation on it. -/
def FollowsOperations (group : Group) (operations : List (PatchOperation Value))
    (result : Group) : Prop :=
  (∀ member, member ∈ result.members ↔
    member ∈ operations.foldl (specMembers tables decoder) group.members) ∧
  ((∀ op ∈ operations, op.onDisplayName tables = false) →
    result.displayName = group.displayName) ∧
  ∀ before op, IsLast (·.onDisplayName tables) operations before op →
    decoder.asString op.value = some result.displayName

/-- The last operation on the members, if it adds, repeats all that should be there before it; the
last display name is a text without blanks around it. -/
def Repeats (group : Group) (operations : List (PatchOperation Value)) : Prop :=
  (∀ before op, IsLast (·.onMembers tables) operations before op →
    op.adds tables "members" = true →
    ∀ member ∈ before.foldl (specMembers tables decoder) group.members,
      member ∈ (decoder.asMembers op.value).getD []) ∧
  ∀ before op, IsLast (·.onDisplayName tables) operations before op →
    ∃ value, decoder.asString op.value = some value ∧ trimSpace value = value

end Specification

section Folding

theorem not_isLast_nil {α : Type} {p : α → Bool} {before : List α} {last : α} :
    ¬IsLast p [] before last := by
  rintro ⟨-, after, hsplit, -⟩
  simp at hsplit

theorem isLast_concat {α : Type} {p : α → Bool} {init before : List α} {x last : α} :
    IsLast p (init ++ [x]) before last ↔
      p x = true ∧ before = init ∧ last = x ∨ p x = false ∧ IsLast p init before last := by
  constructor
  · rintro ⟨hlast, after, hsplit, hlater⟩
    rcases List.eq_nil_or_concat after with rfl | ⟨after, final, rfl⟩
    · obtain ⟨rfl, hx⟩ := List.append_inj' hsplit rfl
      cases hx
      exact Or.inl ⟨hlast, rfl, rfl⟩
    · rw [List.concat_eq_append, ← List.cons_append, ← List.append_assoc] at hsplit
      obtain ⟨rfl, hx⟩ := List.append_inj' hsplit rfl
      cases hx
      rw [List.concat_eq_append, List.forall_mem_append] at hlater
      exact Or.inr ⟨hlater.2 x List.mem_cons_self, hlast, after, rfl, hlater.1⟩
  · rintro (⟨hx, rfl, rfl⟩ | ⟨hx, hlast, after, rfl, hlater⟩)
    · exact ⟨hx, [], rfl, List.forall_mem_nil _⟩
    · refine ⟨hlast, after ++ [x], by simp, ?_⟩
      rw [List.forall_mem_append, List.forall_mem_singleton]
      exact ⟨hlater, hx⟩

theorem foldlM_concat_eq_ok {α β ε : Type} {f : β → α → Except ε β} {list : List α} {x : α}
    {first last : β} (hfold : (list ++ [x]).foldlM f first = .ok last) :
    ∃ middle, list.foldlM f first = .ok middle ∧ f middle x = .ok last := by
  rw [List.foldlM_append] at hfold
  cases hmiddle : list.foldlM f first with
  | error e =>
      rw [hmiddle] at hfold
      cases hfold
  | ok middle =>
      rw [hmiddle] at hfold
      simp only [List.foldlM_cons, List.foldlM_nil, bind_pure] at hfold
      exact ⟨middle, rfl, hfold⟩

variable {Value : Type} {tables : CaseTables} {decoder : Decoder Value}
  {group next : Group} {op : PatchOperation Value}

/-- The branches of an accepted operation. -/
theorem applyOperation_cases (hstep : applyOperation tables decoder group op = .ok next) :
    op.onDisplayName tables = true ∧ op.onMembers tables = false ∧
        next = { group with
          displayName := ((decoder.asString op.value).map trimSpace).getD group.displayName } ∨
      op.onDisplayName tables = false ∧ op.onMembers tables = true ∧ op.clears tables = false ∧
        next = { group with members := (decoder.asMembers op.value).getD [] } ∨
      op.onDisplayName tables = false ∧ op.clears tables = true ∧
        op.adds tables "members" = false ∧ op.replaces tables "members" = false ∧
        next = { group with members := [] } ∨
      op.onDisplayName tables = false ∧ op.onMembers tables = false ∧ next = group := by
  unfold applyOperation at hstep
  simp only [PatchOperation.onDisplayName, PatchOperation.onMembers, PatchOperation.adds,
    PatchOperation.replaces, PatchOperation.clears]
  generalize tables.toLower (trimSpace op.op) = action at *
  generalize tables.toLower (trimSpace op.path) = path at *
  dsimp only at hstep
  split at hstep
  · rename_i haction
    have hkept : ¬action = "remove" := by
      rcases haction with rfl | rfl <;> decide
    split at hstep
    · rename_i hpath
      subst hpath
      refine Or.inl ⟨?_, by simp [hkept], ?_⟩
      · rcases haction with rfl | rfl <;> decide
      · cases hvalue : decoder.asString op.value with
        | none => simpa [hvalue] using hstep.symm
        | some value => simpa [hvalue] using hstep.symm
    split at hstep
    · rename_i hpath
      subst hpath
      cases hvalue : decoder.asMembers op.value with
      | none => simp [hvalue] at hstep
      | some members =>
          refine Or.inr (Or.inl ⟨by simp, ?_, by simp [hkept], by simpa [hvalue] using hstep.symm⟩)
          rcases haction with rfl | rfl <;> simp
    · rename_i hname hmembers
      cases hstep
      exact Or.inr (Or.inr (Or.inr ⟨by simp [hname], by simp [hmembers, hkept], rfl⟩))
  split at hstep
  · rename_i hremove
    subst hremove
    split at hstep
    · rename_i hfold
      cases hstep
      exact Or.inr (Or.inr (Or.inl ⟨by simp, by simp [hfold], by simp, by simp, rfl⟩))
    · cases hstep
  · cases hstep

theorem foldlM_id {operations : List (PatchOperation Value)}
    (hfold : operations.foldlM (applyOperation tables decoder) group = .ok next) :
    next.id = group.id := by
  induction operations using List.reverseRecOn generalizing next with
  | nil =>
      cases hfold
      rfl
  | append_singleton operations op ih =>
      obtain ⟨middle, hmiddle, hstep⟩ := foldlM_concat_eq_ok hfold
      rw [← ih hmiddle]
      rcases applyOperation_cases hstep with ⟨-, -, rfl⟩ | ⟨-, -, -, rfl⟩ | ⟨-, -, -, -, rfl⟩ |
        ⟨-, -, rfl⟩ <;> rfl

/-- What an accepted operation does to the members, and what it should do. -/
theorem applyOperation_members (hstep : applyOperation tables decoder group op = .ok next) :
    op.onMembers tables = false ∧ next.members = group.members ∧
        (∀ current, specMembers tables decoder current op = current) ∨
      op.onMembers tables = true ∧ op.adds tables "members" = true ∧
        next.members = (decoder.asMembers op.value).getD [] ∧
        (∀ current, specMembers tables decoder current op = current ∪ next.members) ∨
      op.onMembers tables = true ∧ op.adds tables "members" = false ∧
        ∀ current, specMembers tables decoder current op = next.members := by
  have hnone : op.onMembers tables = false → ∀ current,
      specMembers tables decoder current op = current := by
    intro hother current
    simp only [PatchOperation.onMembers, Bool.or_eq_false_iff] at hother
    simp [specMembers, hother]
  rcases applyOperation_cases hstep with ⟨-, hother, rfl⟩ | ⟨-, hmembers, hclears, rfl⟩ |
    ⟨-, hclears, hadds, hreplaces, rfl⟩ | ⟨-, hother, rfl⟩
  · exact Or.inl ⟨hother, rfl, hnone hother⟩
  · cases hadds : op.adds tables "members" with
    | true => exact Or.inr (Or.inl ⟨hmembers, rfl, rfl, fun _ => by simp [specMembers, hadds]⟩)
    | false =>
        have hreplaces : op.replaces tables "members" = true := by
          simpa [PatchOperation.onMembers, hadds, hclears] using hmembers
        exact Or.inr (Or.inr ⟨hmembers, rfl, fun _ => by simp [specMembers, hadds, hreplaces]⟩)
  · refine Or.inr (Or.inr ⟨by simp [PatchOperation.onMembers, hclears], hadds, fun _ => ?_⟩)
    simp [specMembers, hadds, hreplaces, hclears]
  · exact Or.inl ⟨hother, rfl, hnone hother⟩

/-- By induction from the last operation back: only the last one on the members counts. -/
theorem foldlM_members {operations : List (PatchOperation Value)}
    (hfold : operations.foldlM (applyOperation tables decoder) group = .ok next) :
    (∀ member, member ∈ next.members ↔
      member ∈ operations.foldl (specMembers tables decoder) group.members) ↔
      ∀ before op, IsLast (·.onMembers tables) operations before op →
        op.adds tables "members" = true →
        ∀ member ∈ before.foldl (specMembers tables decoder) group.members,
          member ∈ (decoder.asMembers op.value).getD [] := by
  induction operations using List.reverseRecOn generalizing next with
  | nil =>
      cases hfold
      exact iff_of_true (fun _ => Iff.rfl) fun before op hlast => absurd hlast not_isLast_nil
  | append_singleton operations op ih =>
      obtain ⟨middle, hmiddle, hstep⟩ := foldlM_concat_eq_ok hfold
      rw [List.foldl_append, List.foldl_cons, List.foldl_nil]
      simp only [isLast_concat]
      rcases applyOperation_members hstep with ⟨hother, hsame, hspec⟩ |
        ⟨hmembers, hadds, hgiven, hspec⟩ | ⟨hmembers, hadds, hspec⟩
      · rw [hspec, hsame, ih hmiddle]
        simp [hother]
      · rw [hspec, hgiven]
        simp only [hmembers, List.mem_union_iff]
        constructor
        · rintro hsame before last (⟨-, rfl, rfl⟩ | ⟨hfalse, -⟩) - member hmember
          · exact (hsame member).mpr (Or.inl hmember)
          · cases hfalse
        · intro hrepeated member
          refine ⟨Or.inr, fun hmember => hmember.elim (fun hbefore => ?_) id⟩
          exact hrepeated operations op (Or.inl ⟨trivial, rfl, rfl⟩) hadds member hbefore
      · rw [hspec]
        refine iff_of_true (fun _ => Iff.rfl) ?_
        rintro before last (⟨-, rfl, rfl⟩ | ⟨hfalse, -⟩) hlast
        · rw [hadds] at hlast
          cases hlast
        · rw [hmembers] at hfalse
          cases hfalse

theorem applyOperation_displayName (hstep : applyOperation tables decoder group op = .ok next) :
    op.onDisplayName tables = false ∧ next.displayName = group.displayName ∨
      op.onDisplayName tables = true ∧
        next.displayName = ((decoder.asString op.value).map trimSpace).getD group.displayName := by
  rcases applyOperation_cases hstep with ⟨hname, -, rfl⟩ | ⟨hname, -, -, rfl⟩ |
    ⟨hname, -, -, -, rfl⟩ | ⟨hname, -, rfl⟩
  · exact Or.inr ⟨hname, rfl⟩
  · exact Or.inl ⟨hname, rfl⟩
  · exact Or.inl ⟨hname, rfl⟩
  · exact Or.inl ⟨hname, rfl⟩

/-- A text is what its trimming leaves. -/
theorem eq_trimmed_iff {text : Option String} {default : String} :
    text = some ((text.map trimSpace).getD default) ↔
      ∃ value, text = some value ∧ trimSpace value = value := by
  cases text with
  | none => simp
  | some value => simp [eq_comm]

theorem foldlM_displayName {operations : List (PatchOperation Value)}
    (hfold : operations.foldlM (applyOperation tables decoder) group = .ok next) :
    (((∀ op ∈ operations, op.onDisplayName tables = false) → next.displayName = group.displayName) ∧
      ∀ before op, IsLast (·.onDisplayName tables) operations before op →
        decoder.asString op.value = some next.displayName) ↔
      ∀ before op, IsLast (·.onDisplayName tables) operations before op →
        ∃ value, decoder.asString op.value = some value ∧ trimSpace value = value := by
  induction operations using List.reverseRecOn generalizing next with
  | nil =>
      cases hfold
      exact iff_of_true ⟨fun _ => rfl, fun before op hlast => absurd hlast not_isLast_nil⟩
        fun before op hlast => absurd hlast not_isLast_nil
  | append_singleton operations op ih =>
      obtain ⟨middle, hmiddle, hstep⟩ := foldlM_concat_eq_ok hfold
      simp only [isLast_concat, List.forall_mem_append, List.forall_mem_singleton]
      rcases applyOperation_displayName hstep with ⟨hother, hsame⟩ | ⟨hname, hvalue⟩
      · rw [hsame]
        simpa [hother] using ih hmiddle
      · simp only [hname, Bool.true_eq_false, and_false, false_imp_iff, true_and, false_and,
          or_false]
        rw [hvalue]
        constructor
        · rintro hlast before last ⟨rfl, rfl⟩
          exact eq_trimmed_iff.mp (hlast before last ⟨rfl, rfl⟩)
        · rintro hlast before last ⟨rfl, rfl⟩
          exact eq_trimmed_iff.mpr (hlast before last ⟨rfl, rfl⟩)

end Folding

section Patching

variable {Value : Type} {tables : CaseTables} {decoder : Decoder Value} {groups stored : Groups}
  {group result : Group} {id : String} {operations : List (PatchOperation Value)}

theorem exists_of_bind_eq_ok {α β ε : Type} {x : Except ε α} {f : α → Except ε β} {value : β}
    (hbind : x >>= f = .ok value) : ∃ first, x = .ok first ∧ f first = .ok value := by
  cases x with
  | error e => cases hbind
  | ok first => exact ⟨first, rfl, hbind⟩

theorem eq_some_of_elim {α ε : Type} {x : Option α} {e : ε} {value : α}
    (helim : x.elim (.error e) Except.ok = .ok value) : x = some value := by
  cases x with
  | none => cases helim
  | some first => rw [Except.ok.inj helim]

/-- What an accepted patch stores under the identifier. -/
theorem patchGroup_stores (hgroup : getGroupByID groups id = some group)
    (haccepted : patchGroup tables decoder groups id operations = .ok (result, stored)) :
    getGroupByID stored id = some result ∧
      ∃ patched, operations.foldlM (applyOperation tables decoder) group = .ok patched ∧
        result.members = patched.members ∧ result.displayName = patched.displayName := by
  unfold patchGroup at haccepted
  obtain ⟨found, hfound, haccepted⟩ := exists_of_bind_eq_ok haccepted
  cases hgroup.symm.trans (eq_some_of_elim hfound)
  obtain ⟨patched, hfold, haccepted⟩ := exists_of_bind_eq_ok haccepted
  obtain ⟨updated, hupdate, haccepted⟩ := exists_of_bind_eq_ok haccepted
  obtain ⟨final, hfinal, hpair⟩ := exists_of_bind_eq_ok haccepted
  obtain ⟨rfl, rfl⟩ := Prod.mk.inj (Except.ok.inj hpair)
  have hresult := eq_some_of_elim hfinal
  refine ⟨hresult, patched, hfold, ?_⟩
  unfold updateGroup at hupdate
  split at hupdate
  · cases hupdate
  split at hupdate
  · cases hupdate
  cases hupdate
  rw [getGroupByID, Table.find?_updateWhere, ← getGroupByID, hgroup] at hresult
  have hassigned := Option.some.inj hresult
  dsimp only at hassigned
  rw [if_pos (decide_eq_true (foldlM_id hfold).symm)] at hassigned
  rw [← hassigned, Group.assign]
  exact ⟨rfl, rfl⟩

/-- An accepted patch follows its operations if and only if the last additions repeat what they
should keep. -/
theorem patchGroup_follows_iff (hgroup : getGroupByID groups id = some group)
    (haccepted : patchGroup tables decoder groups id operations = .ok (result, stored)) :
    (getGroupByID stored id = some result ∧
      FollowsOperations tables decoder group operations result) ↔
      Repeats tables decoder group operations := by
  obtain ⟨hstored, patched, hfold, hmembers, hname⟩ := patchGroup_stores hgroup haccepted
  rw [and_iff_right hstored, FollowsOperations, Repeats, hmembers, hname, foldlM_members hfold,
    foldlM_displayName hfold]

end Patching

section Sample

/-- JSON values for a display name and for members. -/
inductive SampleValue where
  | text (value : String)
  | members (values : List Member)
deriving Repr, DecidableEq

def sampleDecoder : Decoder SampleValue where
  asString
    | .text value => some value
    | .members _ => none
  asMembers
    | .text _ => none
    | .members values => some values

def personMember (name : String) : Member := ⟨name, "", "", ""⟩

def staffGroups : Groups := Table.single ⟨"g1", none, "Staff", [personMember "ann"]⟩

def memberOperation (op : String) (names : List String) : PatchOperation SampleValue :=
  ⟨op, "members", .members (names.map personMember)⟩

def patchStaff (operation : PatchOperation SampleValue) : Except PatchError (Group × Groups) :=
  patchGroup ⟨id, id⟩ sampleDecoder staffGroups "g1" [operation]

theorem patchStaff_ok {operation : PatchOperation SampleValue} {result : Group}
    (hresult : (patchStaff operation).toOption.map Prod.fst = some result) :
    ∃ stored, patchStaff operation = .ok (result, stored) := by
  cases hpatched : patchStaff operation with
  | error e =>
      rw [hpatched] at hresult
      cases hresult
  | ok pair =>
      rw [hpatched] at hresult
      cases hresult
      exact ⟨pair.2, rfl⟩

theorem staff_replaced : ∃ result stored,
    patchStaff (memberOperation "replace" ["bob"]) = .ok (result, stored) ∧
      getGroupByID stored "g1" = some result ∧
        FollowsOperations ⟨id, id⟩ sampleDecoder ⟨"g1", none, "Staff", [personMember "ann"]⟩
          [memberOperation "replace" ["bob"]] result := by
  have hresult : (patchStaff (memberOperation "replace" ["bob"])).toOption.map Prod.fst =
      some ⟨"g1", none, "Staff", [personMember "bob"]⟩ := by
    decide +kernel
  obtain ⟨stored, hstored⟩ := patchStaff_ok hresult
  have honly : ∀ {p : PatchOperation SampleValue → Bool} {before op},
      IsLast p [memberOperation "replace" ["bob"]] before op →
        p op = true ∧ op = memberOperation "replace" ["bob"] := by
    rintro p before op ⟨hp, after, hsplit, -⟩
    exact ⟨hp, List.mem_singleton.mp (hsplit ▸ List.mem_append_right before List.mem_cons_self)⟩
  refine ⟨_, stored, hstored, (patchGroup_follows_iff (by decide +kernel) hstored).mpr ⟨?_, ?_⟩⟩
  · rintro before op hlast hadds
    obtain ⟨-, rfl⟩ := honly hlast
    exact absurd hadds (by decide +kernel)
  · intro before op hlast
    obtain ⟨hname, rfl⟩ := honly hlast
    exact absurd hname (by decide +kernel)

/-- Adding Bob to a group of Ann leaves Bob alone. -/
theorem staff_addition_loses :
    (∃ stored, patchStaff (memberOperation "add" ["bob"]) =
        .ok (⟨"g1", none, "Staff", [personMember "bob"]⟩, stored)) ∧
      personMember "ann" ∈ [memberOperation "add" ["bob"]].foldl
        (specMembers ⟨id, id⟩ sampleDecoder) [personMember "ann"] :=
  ⟨patchStaff_ok (by decide +kernel), by decide +kernel⟩

end Sample

end Aegion.SCIM
