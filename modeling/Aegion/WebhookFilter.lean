/-
Custom filters of webhooks.  `evaluateFilter` walks through the entries of a map in no
particular order and returns at the first logical operator, so what it returns depends on
the order; what it can return is computed here without one.
-/
import Mathlib.Data.List.Infix
import Mathlib.Data.List.Perm.Basic

namespace Aegion.Webhooks

/-- A JSON value; event data may also hold an `int`. -/
inductive Value (F : Type) where
  | null
  | bool (b : Bool)
  | int (n : Int)
  | float (x : F)
  | string (s : String)
  | array (items : List (Value F))
  | object (members : List (String × Value F))

abbrev Entries (F : Type) := List (String × Value F)

/-- The matcher, with `==` on `float64`, the conversion of an `int`, and
`fmt.Sprintf("%v", v)`, which prints maps in the order of their keys. -/
structure Matcher (F : Type) where
  maxCustomFilterDepth : Nat
  sameFloat : F → F → Bool
  ofInt : Int → F
  sprint : Value F → String

variable {F : Type} (m : Matcher F)

section Fields

def deepEqual : Value F → Value F → Bool
  | .null, .null => true
  | .null, _ => false
  | _, .null => false
  | .string a, .string b => a = b
  | .float a, .float b => m.sameFloat a b
  | .float a, .int b => m.sameFloat a (m.ofInt b)
  | .int a, .int b => a = b
  | .int a, .float b => m.sameFloat (m.ofInt a) b
  | .bool a, .bool b => a = b
  | a, b => m.sprint a = m.sprint b

def isNull : Value F → Bool
  | .null => true
  | _ => false

/-- The loop of `$in`; any other operand is no condition. -/
def matchesIn (value : Value F) : Value F → Bool
  | .array items => items.any (deepEqual m value)
  | _ => true

def matchesContains : Value F → Value F → Bool
  | .string s, .string operand => operand.toList <:+: s.toList
  | _, _ => true

def matchesExists (value : Value F) : Value F → Bool
  | .bool expected => expected = !isNull value
  | _ => true

def matchesOperator (value : Value F) (op : String × Value F) : Bool :=
  if op.1 = "$eq" then deepEqual m value op.2
  else if op.1 = "$ne" then !deepEqual m value op.2
  else if op.1 = "$in" then matchesIn m value op.2
  else if op.1 = "$contains" then matchesContains value op.2
  else if op.1 = "$exists" then matchesExists value op.2
  else false

def matchesOperators (value : Value F) (ops : Entries F) : Bool :=
  ops.all (matchesOperator m value)

def matchesField (data : Entries F) (key : String) (expected : Value F) : Bool :=
  match data.lookup key with
  | none => false
  | some actual =>
      match expected with
      | .object ops => matchesOperators m actual ops
      | _ => deepEqual m actual expected

end Fields

section Evaluation

inductive Logical where
  | and
  | or
  | not
deriving Repr, DecidableEq

def logical? (key : String) : Option Logical :=
  if key = "$and" then some .and
  else if key = "$or" then some .or
  else if key = "$not" then some .not
  else none

variable (data : Entries F)

mutual

/-- What the branch of a logical operator returns; with an operand of another kind the loop
goes on. -/
def branch (depth : Nat) (op : Logical) : Value F → Option Bool
  | .array conditions =>
      match op with
      | .and => some (allMatch (depth + 1) conditions)
      | .or => some (anyMatch (depth + 1) conditions)
      | .not => none
  | .object condition =>
      match op with
      | .not => some (!(depth + 1 ≤ m.maxCustomFilterDepth && scan (depth + 1) condition))
      | _ => none
  | _ => none

/-- The loop of `$and`. -/
def allMatch (depth : Nat) : List (Value F) → Bool
  | [] => true
  | .object condition :: rest =>
      (depth ≤ m.maxCustomFilterDepth && scan depth condition) && allMatch depth rest
  | _ :: rest => allMatch depth rest

/-- The loop of `$or`. -/
def anyMatch (depth : Nat) : List (Value F) → Bool
  | [] => false
  | .object condition :: rest =>
      (depth ≤ m.maxCustomFilterDepth && scan depth condition) || anyMatch depth rest
  | _ :: rest => anyMatch depth rest

/-- The loop over the entries of a filter, in the order in which they come. -/
def scan (depth : Nat) : Entries F → Bool
  | [] => true
  | (key, value) :: rest =>
      match logical? key with
      | some op =>
          match branch depth op value with
          | some result => result
          | none => scan depth rest
      | none => matchesField m data key value && scan depth rest

end

def evaluateFilter (filter : Entries F) (depth : Nat) : Bool :=
  depth ≤ m.maxCustomFilterDepth && scan m data depth filter

end Evaluation

section Meaning

/-! What a filter says, whatever the order of its entries and however deep it is. -/

variable (data : Entries F)

/-- An operator tests the value of a field, and `$exists` its presence. -/
def operatorMeaning (actual : Option (Value F)) (op : String × Value F) : Bool :=
  if op.1 = "$exists" then
    match op.2 with
    | .bool expected => expected = actual.isSome
    | _ => actual.isSome
  else actual.any fun value => matchesOperator m value op

def fieldMeaning (key : String) (expected : Value F) : Bool :=
  match expected with
  | .object [] => (data.lookup key).isSome
  | .object ops => ops.all (operatorMeaning m (data.lookup key))
  | _ => (data.lookup key).any fun actual => deepEqual m actual expected

mutual

/-- The Boolean meaning of a logical operator over its sub-filters; an operand of another
kind is no condition. -/
def logicalMeaning (op : Logical) : Value F → Bool
  | .array conditions =>
      match op with
      | .and => allMean conditions
      | .or => anyMean conditions
      | .not => true
  | .object condition =>
      match op with
      | .not => !meaning condition
      | _ => true
  | _ => true

def allMean : List (Value F) → Bool
  | [] => true
  | .object condition :: rest => meaning condition && allMean rest
  | _ :: rest => allMean rest

def anyMean : List (Value F) → Bool
  | [] => false
  | .object condition :: rest => meaning condition || anyMean rest
  | _ :: rest => anyMean rest

/-- The conjunction of the meanings of all entries. -/
def meaning : Entries F → Bool
  | [] => true
  | (key, value) :: rest =>
      (match logical? key with
        | some op => logicalMeaning op value
        | none => fieldMeaning m data key value) && meaning rest

end

end Meaning

section Orders

mutual

/-- The operand of a logical operator with its maps in other orders. -/
inductive Reordered : Value F → Value F → Prop where
  | refl (value : Value F) : Reordered value value
  | array {conditions conditions' : List (Value F)} : ListReordered conditions conditions' →
      Reordered (.array conditions) (.array conditions')
  | object {condition condition' : Entries F} : FilterReordered condition condition' →
      Reordered (.object condition) (.object condition')

inductive ListReordered : List (Value F) → List (Value F) → Prop where
  | nil : ListReordered [] []
  | cons {value value' : Value F} {rest rest' : List (Value F)} : Reordered value value' →
      ListReordered rest rest' → ListReordered (value :: rest) (value' :: rest')

/-- The same filter with its maps, those of its sub-filters and those of its operators in
other orders. -/
inductive FilterReordered : Entries F → Entries F → Prop where
  | perm {entries entries' : Entries F} : entries.Perm entries' →
      FilterReordered entries entries'
  | logical {key : String} {op : Logical} {value value' : Value F} {rest : Entries F} :
      logical? key = some op → Reordered value value' →
      FilterReordered ((key, value) :: rest) ((key, value') :: rest)
  | field {key : String} {ops ops' rest : Entries F} : logical? key = none → ops.Perm ops' →
      FilterReordered ((key, .object ops) :: rest) ((key, .object ops') :: rest)
  | trans {first second third : Entries F} : FilterReordered first second →
      FilterReordered second third → FilterReordered first third

end

end Orders

section Outcomes

variable (data : Entries F)

/-- The branch of the operator returns with an operand of this kind. -/
def returns : Logical → Value F → Bool
  | .not, .object _ => true
  | .and, .array _ => true
  | .or, .array _ => true
  | _, _ => false

/-- An entry at which the loop returns. -/
def isBranch (entry : String × Value F) : Bool :=
  (logical? entry.1).any fun op => returns op entry.2

/-- A field that does not match. -/
def fails (entry : String × Value F) : Bool :=
  logical? entry.1 = none && !matchesField m data entry.1 entry.2

/-- Whether a filter can come out as `b`, given whether one of its branches can. -/
def outcome (depth : Nat) (b : Bool) (filter : Entries F) (branches : Bool) : Bool :=
  if b then depth ≤ m.maxCustomFilterDepth &&
    if filter.any isBranch then branches else !filter.any (fails m data)
  else !(depth ≤ m.maxCustomFilterDepth) || filter.any (fails m data) || branches

mutual

def branchCan (depth : Nat) (b : Bool) (op : Logical) : Value F → Bool
  | .array conditions =>
      match op with
      | .and => if b then allCan (depth + 1) true conditions
          else anyCan (depth + 1) false conditions
      | .or => if b then anyCan (depth + 1) true conditions
          else allCan (depth + 1) false conditions
      | .not => false
  | .object condition =>
      match op with
      | .not => outcome m data (depth + 1) (!b) condition
          (someBranchCan (depth + 1) (!b) condition)
      | _ => false
  | _ => false

def allCan (depth : Nat) (b : Bool) : List (Value F) → Bool
  | [] => true
  | .object condition :: rest =>
      outcome m data depth b condition (someBranchCan depth b condition) &&
        allCan depth b rest
  | _ :: rest => allCan depth b rest

def anyCan (depth : Nat) (b : Bool) : List (Value F) → Bool
  | [] => false
  | .object condition :: rest =>
      outcome m data depth b condition (someBranchCan depth b condition) ||
        anyCan depth b rest
  | _ :: rest => anyCan depth b rest

def someBranchCan (depth : Nat) (b : Bool) : Entries F → Bool
  | [] => false
  | (key, value) :: rest =>
      (match logical? key with
        | some op => branchCan depth b op value
        | none => false) || someBranchCan depth b rest

end

/-- The filter can come out as `b`.  It is accepted by one of its branches, or, without a
branch, if no field fails; and it is rejected by one of its branches or by a field. -/
def can (depth : Nat) (b : Bool) (filter : Entries F) : Bool :=
  outcome m data depth b filter
    (someBranchCan m data depth b filter)

end Outcomes

section Equations

variable (data : Entries F) (depth : Nat) (b : Bool)

/-- A condition of `$and` or `$or`; one that is no map is passed over. -/
def conditionMatches (skipped : Bool) : Value F → Bool
  | .object condition => evaluateFilter m data condition depth
  | _ => skipped

def conditionCan (skipped : Bool) : Value F → Bool
  | .object condition => can m data depth b condition
  | _ => skipped

theorem allMatch_cons (value : Value F) (rest : List (Value F)) :
    allMatch m data depth (value :: rest) =
      (conditionMatches m data depth true value && allMatch m data depth rest) := by
  cases value <;> rfl

theorem anyMatch_cons (value : Value F) (rest : List (Value F)) :
    anyMatch m data depth (value :: rest) =
      (conditionMatches m data depth false value || anyMatch m data depth rest) := by
  cases value <;> rfl

theorem allCan_cons (value : Value F) (rest : List (Value F)) :
    allCan m data depth b (value :: rest) =
      (conditionCan m data depth b true value && allCan m data depth b rest) := by
  cases value <;> rfl

theorem anyCan_cons (value : Value F) (rest : List (Value F)) :
    anyCan m data depth b (value :: rest) =
      (conditionCan m data depth b false value || anyCan m data depth b rest) := by
  cases value <;> rfl

/-- The entry is a branch that can return `b`. -/
def entryCan (entry : String × Value F) : Bool :=
  (logical? entry.1).any fun op => branchCan m data depth b op entry.2

theorem someBranchCan_eq_any (filter : Entries F) :
    someBranchCan m data depth b filter = filter.any (entryCan m data depth b) := by
  induction filter with
  | nil => rfl
  | cons entry rest ih =>
      rw [List.any_cons, ← ih, entryCan, someBranchCan]
      cases logical? entry.1 <;> rfl

theorem isSome_branch (op : Logical) (value : Value F) :
    (branch m data depth op value).isSome = returns op value := by
  cases op <;> cases value <;> rfl

/-- How the loop goes on after an entry. -/
theorem scan_cons (entry : String × Value F) (rest : Entries F) :
    scan m data depth (entry :: rest) =
      match (logical? entry.1).bind fun op => branch m data depth op entry.2 with
      | some result => result
      | none => !fails m data entry && scan m data depth rest := by
  obtain ⟨key, value⟩ := entry
  rw [scan, fails]
  cases logical? key with
  | none => simp
  | some op => simp

end Equations

section Sound

variable {m} {data : Entries F} {depth : Nat} {b : Bool} {entry : String × Value F}
  {rest filter : Entries F}

theorem can_true_iff : can m data depth true filter = true ↔ depth ≤ m.maxCustomFilterDepth ∧
    if filter.any isBranch then filter.any (entryCan m data depth true) = true
    else filter.any (fails m data) = false := by
  rw [can, outcome, someBranchCan_eq_any]
  by_cases hbranch : filter.any isBranch = true
  · simp [hbranch]
  · simp [hbranch]

theorem can_false_iff : can m data depth false filter = true ↔
    ¬ depth ≤ m.maxCustomFilterDepth ∨ filter.any (fails m data) = true ∨
      filter.any (entryCan m data depth false) = true := by
  rw [can, outcome, someBranchCan_eq_any]
  simp [or_assoc]

/-- An entry that the loop passes over. -/
theorem can_cons (hbranch : isBranch entry = false) (hfails : fails m data entry = false)
    (hcan : can m data depth b rest = true) : can m data depth b (entry :: rest) = true := by
  cases b with
  | true =>
      rw [can_true_iff] at hcan ⊢
      refine ⟨hcan.1, ?_⟩
      simp only [List.any_cons, hbranch, hfails, Bool.false_or]
      split
      · rename_i hsome
        rw [if_pos hsome] at hcan
        rw [hcan.2, Bool.or_true]
      · rename_i hnone
        rw [if_neg hnone] at hcan
        exact hcan.2
  | false =>
      rw [can_false_iff] at hcan ⊢
      rw [List.any_cons, List.any_cons]
      rcases hcan with hdeep | hfield | hsome
      · exact .inl hdeep
      · exact .inr (.inl (by rw [hfield, Bool.or_true]))
      · exact .inr (.inr (by rw [hsome, Bool.or_true]))

theorem isBranch_of_entryCan (hcan : entryCan m data depth b entry = true) :
    isBranch entry = true := by
  obtain ⟨key, value⟩ := entry
  rw [entryCan] at hcan
  rw [isBranch]
  cases hkey : logical? key with
  | none =>
      rw [hkey] at hcan
      cases hcan
  | some op =>
      rw [hkey] at hcan
      cases op <;> cases value <;> first | rfl | cases hcan

/-- A branch decides alone. -/
theorem can_of_entryCan (hdepth : depth ≤ m.maxCustomFilterDepth)
    (hcan : filter.any (entryCan m data depth b) = true) : can m data depth b filter = true := by
  cases b with
  | true =>
      obtain ⟨entry, hmem, hentry⟩ := List.any_eq_true.mp hcan
      have hbranch : filter.any isBranch = true :=
        List.any_eq_true.mpr ⟨entry, hmem, isBranch_of_entryCan hentry⟩
      exact can_true_iff.mpr ⟨hdepth, by rwa [if_pos hbranch]⟩
  | false => exact can_false_iff.mpr (.inr (.inr hcan))

theorem evaluateFilter_can_of (hscan : depth ≤ m.maxCustomFilterDepth →
      can m data depth (scan m data depth filter) filter = true) :
    can m data depth (evaluateFilter m data filter depth) filter = true := by
  by_cases hdepth : depth ≤ m.maxCustomFilterDepth
  · rw [evaluateFilter, decide_eq_true hdepth, Bool.true_and]
    exact hscan hdepth
  · rw [evaluateFilter, decide_eq_false hdepth, Bool.false_and]
    exact can_false_iff.mpr (.inl hdepth)

theorem can_nil (hdepth : depth ≤ m.maxCustomFilterDepth) : can m data depth true [] = true :=
  can_true_iff.mpr ⟨hdepth, rfl⟩

/-- What the loop returns after an entry can come out. -/
theorem scan_cons_can (hdepth : depth ≤ m.maxCustomFilterDepth)
    (hbranch : ∀ op result, branch m data depth op entry.2 = some result →
      branchCan m data depth result op entry.2 = true)
    (hrest : can m data depth (scan m data depth rest) rest = true) :
    can m data depth (scan m data depth (entry :: rest)) (entry :: rest) = true := by
  rw [scan_cons]
  cases hkey : logical? entry.1 with
  | none =>
      have hquiet : isBranch entry = false := by simp [isBranch, hkey]
      rw [Option.bind_none]
      cases hfails : fails m data entry with
      | true => exact can_false_iff.mpr (.inr (.inl (by rw [List.any_cons, hfails, Bool.true_or])))
      | false => exact can_cons hquiet hfails hrest
  | some op =>
      have hfails : fails m data entry = false := by simp [fails, hkey]
      rw [Option.bind_some]
      cases hresult : branch m data depth op entry.2 with
      | none =>
          have hquiet : isBranch entry = false := by
            rw [isBranch, hkey, Option.any_some, ← isSome_branch m data depth, hresult]
            rfl
          simp only [hfails]
          exact can_cons hquiet hfails hrest
      | some result =>
          have hentry : entryCan m data depth result entry = true := by
            rw [entryCan, hkey]
            exact hbranch op result hresult
          exact can_of_entryCan hdepth (by rw [List.any_cons, hentry, Bool.true_or])

mutual

theorem branch_can (depth : Nat) (op : Logical) (result : Bool) : ∀ value : Value F,
    branch m data depth op value = some result → branchCan m data depth result op value = true
  | .array conditions, hresult => by
      cases op with
      | and =>
          obtain rfl := Option.some.inj hresult
          have hall := allMatch_can (depth + 1) conditions
          cases hmatch : allMatch m data (depth + 1) conditions with
          | true => exact hall.1 hmatch
          | false => exact hall.2 hmatch
      | or =>
          obtain rfl := Option.some.inj hresult
          have hany := anyMatch_can (depth + 1) conditions
          cases hmatch : anyMatch m data (depth + 1) conditions with
          | true => exact hany.1 hmatch
          | false => exact hany.2 hmatch
      | not => cases hresult
  | .object condition, hresult => by
      cases op with
      | not =>
          have hcan := evaluateFilter_can_of (scan_can (depth + 1) condition)
          have heq : (!evaluateFilter m data condition (depth + 1)) = result :=
            Option.some.inj hresult
          have heq : evaluateFilter m data condition (depth + 1) = !result := by
            rw [← heq, Bool.not_not]
          rwa [heq] at hcan
      | _ => cases hresult
  | .null, hresult | .bool _, hresult | .int _, hresult | .float _, hresult
  | .string _, hresult => by cases hresult

theorem condition_can (depth : Nat) (skipped : Bool) : ∀ value : Value F,
    conditionCan m data depth (conditionMatches m data depth skipped value)
      (skipped == conditionMatches m data depth skipped value) value = true
  | .object condition => evaluateFilter_can_of (scan_can depth condition)
  | .null | .bool _ | .int _ | .float _ | .string _ | .array _ => by
      simp [conditionCan, conditionMatches]

theorem allMatch_can (depth : Nat) : ∀ conditions : List (Value F),
    (allMatch m data depth conditions = true → allCan m data depth true conditions = true) ∧
      (allMatch m data depth conditions = false → anyCan m data depth false conditions = true)
  | [] => ⟨fun _ => rfl, fun hfalse => absurd hfalse.symm Bool.false_ne_true⟩
  | value :: rest => by
      have hvalue := condition_can depth true value
      have hrest := allMatch_can depth rest
      rw [allMatch_cons, allCan_cons, anyCan_cons]
      cases hmatch : conditionMatches m data depth true value with
      | true =>
          rw [hmatch] at hvalue
          refine ⟨fun htrue => ?_, fun hfalse => ?_⟩
          · exact Bool.and_eq_true_iff.mpr ⟨hvalue, hrest.1 htrue⟩
          · rw [hrest.2 hfalse, Bool.or_true]
      | false =>
          rw [hmatch] at hvalue
          refine ⟨fun htrue => absurd htrue Bool.false_ne_true, fun _ => ?_⟩
          exact Bool.or_eq_true_iff.mpr (.inl hvalue)

theorem anyMatch_can (depth : Nat) : ∀ conditions : List (Value F),
    (anyMatch m data depth conditions = true → anyCan m data depth true conditions = true) ∧
      (anyMatch m data depth conditions = false → allCan m data depth false conditions = true)
  | [] => ⟨fun htrue => absurd htrue Bool.false_ne_true, fun _ => rfl⟩
  | value :: rest => by
      have hvalue := condition_can depth false value
      have hrest := anyMatch_can depth rest
      rw [anyMatch_cons, allCan_cons, anyCan_cons]
      cases hmatch : conditionMatches m data depth false value with
      | true =>
          rw [hmatch] at hvalue
          refine ⟨fun _ => ?_, fun hfalse => absurd hfalse.symm Bool.false_ne_true⟩
          exact Bool.or_eq_true_iff.mpr (.inl hvalue)
      | false =>
          rw [hmatch] at hvalue
          refine ⟨fun htrue => ?_, fun hfalse => ?_⟩
          · rw [hrest.1 htrue, Bool.or_true]
          · exact Bool.and_eq_true_iff.mpr ⟨hvalue, hrest.2 hfalse⟩

theorem scan_can (depth : Nat) : ∀ filter : Entries F, depth ≤ m.maxCustomFilterDepth →
    can m data depth (scan m data depth filter) filter = true
  | [], hdepth => can_nil hdepth
  | (_, value) :: rest, hdepth =>
      scan_cons_can hdepth (fun op result => branch_can depth op result value)
        (scan_can depth rest hdepth)

end

/-- What a filter comes out as is among what it can come out as. -/
theorem evaluateFilter_can (m : Matcher F) (data filter : Entries F) (depth : Nat) :
    can m data depth (evaluateFilter m data filter depth) filter = true :=
  evaluateFilter_can_of (scan_can depth filter)

end Sound

section Complete

variable {m} {data : Entries F} {depth : Nat} {b : Bool} {filter : Entries F}

/-- Without a branch the loop accepts if no field fails. -/
theorem scan_of_quiet (hbranch : filter.any isBranch = false)
    (hfails : filter.any (fails m data) = false) : scan m data depth filter = true := by
  induction filter with
  | nil => rfl
  | cons entry rest ih =>
      rw [List.any_cons, Bool.or_eq_false_iff] at hbranch hfails
      have hnone : ((logical? entry.1).bind fun op => branch m data depth op entry.2) = none := by
        have hquiet := hbranch.1
        rw [isBranch] at hquiet
        cases hkey : logical? entry.1 with
        | none => rfl
        | some op =>
            rw [hkey, Option.any_some, ← isSome_branch m data depth] at hquiet
            exact Option.isSome_eq_false_iff.mp hquiet |> Option.isNone_iff_eq_none.mp
      rw [scan_cons, hnone]
      simp only [hfails.1, ih hbranch.2 hfails.2, Bool.not_false, Bool.and_self]

/-- A branch that can return `b`, with the order of its operand in which it does. -/
def Realized (m : Matcher F) (data : Entries F) (depth : Nat) (b : Bool) (filter : Entries F) :
    Prop :=
  ∃ key op value value' rest, filter.Perm ((key, value) :: rest) ∧ logical? key = some op ∧
    Reordered value value' ∧ branch m data depth op value' = some b

/-- A filter that can come out as `b` does so in some order. -/
theorem exists_order_of (hrealized : filter.any (entryCan m data depth b) = true →
      Realized m data depth b filter) (hcan : can m data depth b filter = true) :
    ∃ filter', FilterReordered filter filter' ∧ evaluateFilter m data filter' depth = b := by
  have hbranch : ∀ result, depth ≤ m.maxCustomFilterDepth → Realized m data depth result filter →
      ∃ filter', FilterReordered filter filter' ∧
        evaluateFilter m data filter' depth = result := by
    rintro result hdepth ⟨key, op, value, value', rest, hperm, hkey, hvalue, hresult⟩
    refine ⟨(key, value') :: rest, .trans (.perm hperm) (.logical hkey hvalue), ?_⟩
    simp [evaluateFilter, hdepth, scan_cons, hkey, hresult]
  cases b with
  | true =>
      obtain ⟨hdepth, hcan⟩ := can_true_iff.mp hcan
      split at hcan
      · exact hbranch true hdepth (hrealized hcan)
      · rename_i hnone
        refine ⟨filter, .perm (.refl filter), ?_⟩
        rw [evaluateFilter, decide_eq_true hdepth, Bool.true_and]
        exact scan_of_quiet (Bool.eq_false_iff.mpr hnone) hcan
  | false =>
      by_cases hdepth : depth ≤ m.maxCustomFilterDepth
      · rcases can_false_iff.mp hcan with hdeep | hfield | hsome
        · exact absurd hdepth hdeep
        · obtain ⟨entry, hmem, hfails⟩ := List.any_eq_true.mp hfield
          obtain ⟨before, after, rfl⟩ := List.append_of_mem hmem
          refine ⟨entry :: (before ++ after), .perm List.perm_middle, ?_⟩
          have hkey : logical? entry.1 = none := by
            rw [fails, Bool.and_eq_true] at hfails
            exact of_decide_eq_true hfails.1
          simp [evaluateFilter, scan_cons, hkey, hfails]
        · exact hbranch false hdepth (hrealized hsome)
      · refine ⟨filter, .perm (.refl filter), ?_⟩
        rw [evaluateFilter, decide_eq_false hdepth, Bool.false_and]

theorem listReordered_refl (conditions : List (Value F)) : ListReordered conditions conditions := by
  induction conditions with
  | nil => exact .nil
  | cons value rest ih => exact .cons (.refl value) ih

theorem realized_cons {entry : String × Value F} {rest : Entries F}
    (hrest : Realized m data depth b rest) : Realized m data depth b (entry :: rest) := by
  obtain ⟨key, op, value, value', others, hperm, hrealized⟩ := hrest
  refine ⟨key, op, value, value', entry :: others, ?_, hrealized⟩
  exact (hperm.cons entry).trans (.swap _ _ _)

mutual

theorem exists_branch (depth : Nat) (b : Bool) (op : Logical) : ∀ value : Value F,
    branchCan m data depth b op value = true →
      ∃ value', Reordered value value' ∧ branch m data depth op value' = some b
  | .array conditions, hcan => by
      cases op with
      | and =>
          cases b with
          | true =>
              obtain ⟨_, hreordered, hall⟩ := exists_all (depth + 1) true conditions hcan
              exact ⟨_, .array hreordered, congrArg some hall⟩
          | false =>
              obtain ⟨_, hreordered, hany⟩ := exists_any (depth + 1) false conditions hcan
              exact ⟨_, .array hreordered, congrArg some hany⟩
      | or =>
          cases b with
          | true =>
              obtain ⟨_, hreordered, hany⟩ := exists_any (depth + 1) true conditions hcan
              exact ⟨_, .array hreordered, congrArg some hany⟩
          | false =>
              obtain ⟨_, hreordered, hall⟩ := exists_all (depth + 1) false conditions hcan
              exact ⟨_, .array hreordered, congrArg some hall⟩
      | not => cases hcan
  | .object condition, hcan => by
      cases op with
      | not =>
          obtain ⟨condition', hreordered, hresult⟩ :=
            exists_order_of (exists_realized (depth + 1) (!b) condition) hcan
          refine ⟨_, .object hreordered, congrArg some ?_⟩
          change (!evaluateFilter m data condition' (depth + 1)) = b
          rw [hresult, Bool.not_not]
      | _ => cases hcan
  | .null, hcan | .bool _, hcan | .int _, hcan | .float _, hcan | .string _, hcan => by
      cases hcan

theorem exists_condition (depth : Nat) (b skipped : Bool) : ∀ value : Value F,
    conditionCan m data depth b skipped value = true → ∃ value', Reordered value value' ∧
      ∀ skipped', (skipped = true → skipped' = b) →
        conditionMatches m data depth skipped' value' = b
  | .object condition, hcan => by
      obtain ⟨condition', hreordered, hresult⟩ :=
        exists_order_of (exists_realized depth b condition) hcan
      exact ⟨_, .object hreordered, fun _ _ => hresult⟩
  | .null, hcan | .bool _, hcan | .int _, hcan | .float _, hcan | .string _, hcan
  | .array _, hcan => ⟨_, .refl _, fun _ hskipped => hskipped hcan⟩

/-- All conditions come out as `b`: those of `$and` are true, or those of `$or` false. -/
theorem exists_all (depth : Nat) (b : Bool) : ∀ conditions : List (Value F),
    allCan m data depth b conditions = true → ∃ conditions', ListReordered conditions conditions' ∧
      (if b then allMatch m data depth conditions' else anyMatch m data depth conditions') = b
  | [], _ => ⟨[], .nil, by cases b <;> rfl⟩
  | value :: rest, hcan => by
      rw [allCan_cons, Bool.and_eq_true] at hcan
      obtain ⟨value', hvalue, hmatches⟩ := exists_condition depth b true value hcan.1
      obtain ⟨rest', hrest, hall⟩ := exists_all depth b rest hcan.2
      refine ⟨value' :: rest', .cons hvalue hrest, ?_⟩
      have hmatches := hmatches b fun _ => rfl
      cases b with
      | true =>
          rw [if_pos rfl] at hall ⊢
          rw [allMatch_cons, hmatches, hall]
          rfl
      | false =>
          rw [if_neg Bool.false_ne_true] at hall ⊢
          rw [anyMatch_cons, hmatches, hall]
          rfl

/-- One condition comes out as `b`. -/
theorem exists_any (depth : Nat) (b : Bool) : ∀ conditions : List (Value F),
    anyCan m data depth b conditions = true → ∃ conditions', ListReordered conditions conditions' ∧
      (if b then anyMatch m data depth conditions' else allMatch m data depth conditions') = b
  | [], hcan => by cases hcan
  | value :: rest, hcan => by
      rw [anyCan_cons, Bool.or_eq_true] at hcan
      rcases hcan with hhead | htail
      · obtain ⟨value', hvalue, hmatches⟩ := exists_condition depth b false value hhead
        have hmatches := fun skipped => hmatches skipped fun hfalse =>
          absurd hfalse Bool.false_ne_true
        refine ⟨value' :: rest, .cons hvalue (listReordered_refl rest), ?_⟩
        cases b with
        | true => rw [if_pos rfl, anyMatch_cons, hmatches, Bool.true_or]
        | false => rw [if_neg Bool.false_ne_true, allMatch_cons, hmatches, Bool.false_and]
      · obtain ⟨rest', hrest, hany⟩ := exists_any depth b rest htail
        refine ⟨value :: rest', .cons (.refl value) hrest, ?_⟩
        cases b with
        | true =>
            rw [if_pos rfl] at hany ⊢
            rw [anyMatch_cons, hany, Bool.or_true]
        | false =>
            rw [if_neg Bool.false_ne_true] at hany ⊢
            rw [allMatch_cons, hany, Bool.and_false]

theorem exists_realized (depth : Nat) (b : Bool) : ∀ filter : Entries F,
    filter.any (entryCan m data depth b) = true → Realized m data depth b filter
  | [], hcan => by cases hcan
  | (key, value) :: rest, hcan => by
      rcases Bool.or_eq_true_iff.mp hcan with hhead | htail
      · rw [entryCan] at hhead
        cases hkey : logical? key with
        | none =>
            rw [hkey] at hhead
            cases hhead
        | some op =>
            rw [hkey] at hhead
            obtain ⟨value', hvalue, hresult⟩ := exists_branch depth b op value hhead
            exact ⟨key, op, value, value', rest, .refl _, hkey, hvalue, hresult⟩
      · exact realized_cons (exists_realized depth b rest htail)

end

end Complete

section Invariance

variable {m} {data : Entries F}

/-- Two filters have the same outcomes if they agree on their branches and fields. -/
def Alike (m : Matcher F) (data filter filter' : Entries F) : Prop :=
  (∀ depth b, filter.any (entryCan m data depth b) = filter'.any (entryCan m data depth b)) ∧
    filter.any isBranch = filter'.any isBranch ∧
    filter.any (fails m data) = filter'.any (fails m data)

theorem Alike.can_eq {filter filter' : Entries F} (halike : Alike m data filter filter')
    (depth : Nat) (b : Bool) : can m data depth b filter = can m data depth b filter' := by
  rw [can, can, outcome, outcome, someBranchCan_eq_any, someBranchCan_eq_any, halike.1,
    halike.2.1, halike.2.2]

theorem alike_perm {filter filter' : Entries F} (hperm : filter.Perm filter') :
    Alike m data filter filter' :=
  ⟨fun _ _ => hperm.any_eq, hperm.any_eq, hperm.any_eq⟩

/-- Only the first entry is another one. -/
theorem alike_head {entry entry' : String × Value F} (rest : Entries F)
    (hcan : ∀ depth b, entryCan m data depth b entry = entryCan m data depth b entry')
    (hbranch : isBranch entry = isBranch entry')
    (hfails : fails m data entry = fails m data entry') :
    Alike m data (entry :: rest) (entry' :: rest) := by
  refine ⟨fun depth b => ?_, ?_, ?_⟩
  · rw [List.any_cons, List.any_cons, hcan]
  · rw [List.any_cons, List.any_cons, hbranch]
  · rw [List.any_cons, List.any_cons, hfails]

theorem matchesField_perm {ops ops' : Entries F} (hperm : ops.Perm ops') (key : String) :
    matchesField m data key (.object ops) = matchesField m data key (.object ops') := by
  rw [matchesField, matchesField]
  cases data.lookup key with
  | none => rfl
  | some actual => exact hperm.all_eq

mutual

theorem branchCan_reordered {value value' : Value F} : Reordered value value' →
    (∀ depth b op, branchCan m data depth b op value = branchCan m data depth b op value') ∧
      (∀ op, returns op value = returns op value') ∧
      ∀ depth b skipped, conditionCan m data depth b skipped value =
        conditionCan m data depth b skipped value'
  | .refl _ => ⟨fun _ _ _ => rfl, fun _ => rfl, fun _ _ _ => rfl⟩
  | .array hconditions => by
      have hlist := listCan_reordered hconditions
      refine ⟨fun depth b op => ?_, fun op => ?_, fun _ _ _ => rfl⟩
      · cases op with
        | not => rfl
        | and | or => cases b <;> simp [branchCan, hlist]
      · cases op <;> rfl
  | .object hcondition => by
      have halike := alike_reordered hcondition
      refine ⟨fun depth b op => ?_, fun op => ?_, fun depth b _ => halike.can_eq depth b⟩
      · cases op with
        | not => exact halike.can_eq (depth + 1) (!b)
        | _ => rfl
      · cases op <;> rfl

theorem listCan_reordered {conditions conditions' : List (Value F)} :
    ListReordered conditions conditions' → ∀ depth b,
      allCan m data depth b conditions = allCan m data depth b conditions' ∧
        anyCan m data depth b conditions = anyCan m data depth b conditions'
  | .nil, _, _ => ⟨rfl, rfl⟩
  | .cons hvalue hrest, depth, b => by
      obtain ⟨-, -, hcondition⟩ := branchCan_reordered hvalue
      obtain ⟨hall, hany⟩ := listCan_reordered hrest depth b
      simp only [allCan_cons, anyCan_cons, hcondition, hall, hany, and_self]

theorem alike_reordered {filter filter' : Entries F} : FilterReordered filter filter' →
    Alike m data filter filter'
  | .perm hperm => alike_perm hperm
  | .logical hkey hvalue => by
      obtain ⟨hcan, hreturns, -⟩ := branchCan_reordered hvalue
      refine alike_head _ (fun depth b => ?_) ?_ ?_
      · simp [entryCan, hkey, hcan]
      · simp [isBranch, hkey, hreturns]
      · simp [fails, hkey]
  | .field hkey hperm => by
      refine alike_head _ (fun depth b => ?_) ?_ ?_
      · simp [entryCan, hkey]
      · simp [isBranch, hkey]
      · simp [fails, hkey, matchesField_perm hperm]
  | .trans hfirst hsecond =>
      have hleft := alike_reordered hfirst
      have hright := alike_reordered hsecond
      ⟨fun depth b => (hleft.1 depth b).trans (hright.1 depth b),
        hleft.2.1.trans hright.2.1, hleft.2.2.trans hright.2.2⟩

end

end Invariance

theorem evaluateFilter_of_cannot {m : Matcher F} {data filter filter' : Entries F}
    (hcannot : can m data 0 (!meaning m data filter) filter = false)
    (hreordered : FilterReordered filter filter') :
    evaluateFilter m data filter' 0 = meaning m data filter := by
  have hcan := evaluateFilter_can m data filter' 0
  rw [← (alike_reordered hreordered).can_eq] at hcan
  by_contra hne
  rw [Bool.eq_not.mpr hne, hcannot] at hcan
  cases hcan

/-- A filter means what it says, in whatever order its maps are walked through, exactly if it
cannot come out as the opposite. -/
theorem evaluateFilter_eq_meaning_iff (m : Matcher F) (data filter : Entries F) :
    (∀ filter', FilterReordered filter filter' →
      evaluateFilter m data filter' 0 = meaning m data filter) ↔
      can m data 0 (!meaning m data filter) filter = false := by
  constructor
  · intro hmeaning
    rw [← Bool.not_eq_true]
    intro hcan
    obtain ⟨filter', hreordered, hresult⟩ := exists_order_of (exists_realized 0 _ filter) hcan
    rw [hmeaning filter' hreordered] at hresult
    exact (Bool.eq_not_self _).mp hresult
  · exact fun hcannot filter' => evaluateFilter_of_cannot hcannot

section Plain

variable (data : Entries F)

/-- A condition on a field; the presence of a field is tested only where it has a value. -/
def PlainField (entry : String × Value F) : Prop :=
  logical? entry.1 = none ∧ ∀ ops, entry.2 = .object ops →
    ops.any (·.1 = "$exists") → ∃ value, data.lookup entry.1 = some value ∧ isNull value = false

/-- Every level, the deepest within the limit, has only fields or a single logical operator. -/
inductive Plain : Nat → Entries F → Prop where
  | fields {depth : Nat} {filter : Entries F} : depth ≤ m.maxCustomFilterDepth →
      (∀ entry ∈ filter, PlainField data entry) → Plain depth filter
  | list {depth : Nat} {key : String} {op : Logical} {conditions : List (Entries F)} :
      depth ≤ m.maxCustomFilterDepth → logical? key = some op → op ≠ .not →
      (∀ condition ∈ conditions, Plain (depth + 1) condition) →
      Plain depth [(key, .array (conditions.map .object))]
  | not {depth : Nat} {key : String} {condition : Entries F} :
      depth ≤ m.maxCustomFilterDepth → logical? key = some .not → Plain (depth + 1) condition →
      Plain depth [(key, .object condition)]

variable {m data}

theorem matchesOperator_eq_meaning {value : Value F} {op : String × Value F}
    (hvalue : op.1 = "$exists" → isNull value = false) :
    matchesOperator m value op = operatorMeaning m (some value) op := by
  rw [operatorMeaning]
  split
  · rename_i hexists
    rw [matchesOperator, hexists]
    cases op.2 <;> simp [matchesExists, hvalue hexists]
  · rfl

variable {key : String} {ops : Entries F}

theorem PlainField.present {op : String × Value F}
    (hplain : PlainField data (key, .object ops)) (hmem : op ∈ ops) (hexists : op.1 = "$exists") :
    ∃ value, data.lookup key = some value ∧ isNull value = false :=
  hplain.2 ops rfl (List.any_eq_true.mpr ⟨op, hmem, decide_eq_true hexists⟩)

theorem PlainField.operators_eq {value : Value F}
    (hplain : PlainField data (key, .object ops)) (hlookup : data.lookup key = some value) :
    ops.all (matchesOperator m value) = ops.all (operatorMeaning m (some value)) := by
  rw [Bool.eq_iff_iff, List.all_eq_true, List.all_eq_true]
  refine forall₂_congr fun op hmem => ?_
  rw [matchesOperator_eq_meaning]
  intro hexists
  obtain ⟨value', hvalue, hnull⟩ := hplain.present hmem hexists
  cases hlookup.symm.trans hvalue
  exact hnull

theorem PlainField.fails_eq {entry : String × Value F} (hplain : PlainField data entry) :
    fails m data entry = !fieldMeaning m data entry.1 entry.2 := by
  obtain ⟨key, expected⟩ := entry
  simp only [fails, hplain.1, decide_true, Bool.true_and, matchesField]
  congr 1
  cases hlookup : data.lookup key with
  | none =>
      cases expected with
      | object ops =>
          cases ops with
          | nil => simp [fieldMeaning, hlookup]
          | cons op rest =>
              -- An absent field passes no test but that for its absence.
              have hop : op.1 ≠ "$exists" := by
                intro hexists
                obtain ⟨value, hvalue, -⟩ := hplain.present List.mem_cons_self hexists
                cases hlookup.symm.trans hvalue
              simp [fieldMeaning, hlookup, operatorMeaning, hop]
      | _ => simp [fieldMeaning, hlookup]
  | some value =>
      cases expected with
      | object ops =>
          have hops := hplain.operators_eq (m := m) hlookup
          cases ops with
          | nil => simp [fieldMeaning, hlookup, matchesOperators]
          | cons op rest => simpa [fieldMeaning, hlookup, matchesOperators] using hops
      | _ => simp [fieldMeaning, hlookup]

theorem meaning_of_fields {filter : Entries F} (hfields : ∀ entry ∈ filter, PlainField data entry) :
    meaning m data filter = !filter.any (fails m data) := by
  induction filter with
  | nil => rfl
  | cons entry rest ih =>
      obtain ⟨hentry, hrest⟩ := List.forall_mem_cons.mp hfields
      rw [meaning, hentry.1, ih hrest, List.any_cons, hentry.fails_eq]
      simp

/-- A list of sub-filters. -/
theorem conditions_eq (conditions : List (Entries F)) :
    (∀ depth b, allCan m data depth b (conditions.map .object) =
        conditions.all (can m data depth b) ∧
      anyCan m data depth b (conditions.map .object) = conditions.any (can m data depth b)) ∧
    allMean m data (conditions.map .object) = conditions.all (meaning m data) ∧
    anyMean m data (conditions.map .object) = conditions.any (meaning m data) := by
  induction conditions with
  | nil => exact ⟨fun _ _ => ⟨rfl, rfl⟩, rfl, rfl⟩
  | cons condition rest ih =>
      simp [allCan_cons, anyCan_cons, conditionCan, allMean, anyMean, ih]

theorem can_single {depth : Nat} {b : Bool} {key : String} {op : Logical} {value : Value F}
    (hdepth : depth ≤ m.maxCustomFilterDepth) (hop : logical? key = some op)
    (hreturns : returns op value = true) :
    can m data depth b [(key, value)] = branchCan m data depth b op value := by
  cases b <;> simp [can, outcome, someBranchCan, isBranch, fails, hdepth, hop, hreturns]

theorem Plain.can_eq {depth : Nat} {filter : Entries F} (hplain : Plain m data depth filter)
    (b : Bool) : can m data depth b filter = (meaning m data filter == b) := by
  induction hplain generalizing b with
  | @fields depth filter hdepth hfields =>
      have hbranch : filter.any isBranch = false :=
        List.any_eq_false.mpr fun entry hmem => by simp [isBranch, (hfields entry hmem).1]
      have hcan : filter.any (entryCan m data depth b) = false :=
        List.any_eq_false.mpr fun entry hmem => by simp [entryCan, (hfields entry hmem).1]
      rw [can, outcome, someBranchCan_eq_any, hbranch, hcan, meaning_of_fields hfields]
      cases b <;> simp [hdepth]
  | @list depth key op conditions hdepth hop hlist hconditions ih =>
      have hall (b : Bool) : conditions.all (can m data (depth + 1) b) = true ↔
          ∀ condition ∈ conditions, meaning m data condition = b := by
        rw [List.all_eq_true]
        exact forall₂_congr fun condition hmem => by rw [ih condition hmem, beq_iff_eq]
      have hany (b : Bool) : conditions.any (can m data (depth + 1) b) = true ↔
          ∃ condition ∈ conditions, meaning m data condition = b := by
        rw [List.any_eq_true]
        exact exists_congr fun condition => and_congr_right fun hmem => by
          rw [ih condition hmem, beq_iff_eq]
      rw [Bool.eq_iff_iff]
      cases op with
      | not => cases hlist rfl
      | and | or =>
          rw [can_single hdepth hop rfl]
          cases b <;> simp [branchCan, meaning, hop, logicalMeaning, conditions_eq, hall, hany]
  | @not depth key condition hdepth hop hcondition ih =>
      have hcan := ih (!b)
      rw [can] at hcan
      rw [can_single hdepth hop rfl, branchCan, hcan]
      cases b <;> simp [meaning, hop, logicalMeaning]

/-- A filter with only fields or a single logical operator on every level means what it
says. -/
theorem Plain.evaluateFilter_eq {filter filter' : Entries F} (hplain : Plain m data 0 filter)
    (hreordered : FilterReordered filter filter') :
    evaluateFilter m data filter' 0 = meaning m data filter := by
  refine evaluateFilter_of_cannot ?_ hreordered
  rw [hplain.can_eq, Bool.beq_not_self]

end Plain

section Sample

def sampleMatcher : Matcher Unit := ⟨10, fun _ _ => true, fun _ => (), fun _ => ""⟩

/-- The status is closed, and all of no conditions hold. -/
def closedFilter : Entries Unit := [("$and", .array []), ("status", .string "closed")]

def openEvent : Entries Unit := [("status", .string "open")]

/-- One of two statuses: a filter with a single entry on each level. -/
def eitherFilter : Entries Unit :=
  [("$or", .array [.object [("status", .string "open")], .object [("status", .string "new")]])]

theorem eitherFilter_meaning : meaning sampleMatcher openEvent eitherFilter = true ∧
    ∀ filter', FilterReordered eitherFilter filter' →
      evaluateFilter sampleMatcher openEvent filter' 0 =
        meaning sampleMatcher openEvent eitherFilter :=
  ⟨by decide,
    (evaluateFilter_eq_meaning_iff sampleMatcher openEvent eitherFilter).mpr (by decide)⟩

/-- With `$and` first the filter accepts an event whose status is another one; and a field
that is absent does not pass the test for its absence. -/
theorem closedFilter_accepts_open :
    evaluateFilter sampleMatcher openEvent closedFilter 0 = true ∧
    FilterReordered closedFilter closedFilter.reverse ∧
    evaluateFilter sampleMatcher openEvent closedFilter.reverse 0 = false ∧
    meaning sampleMatcher openEvent closedFilter = false ∧
    evaluateFilter sampleMatcher openEvent
      [("deleted", .object [("$exists", .bool false)])] 0 = false ∧
    meaning sampleMatcher openEvent [("deleted", .object [("$exists", .bool false)])] = true :=
  ⟨by decide, .perm closedFilter.reverse_perm.symm, by decide, by decide, by decide, by decide⟩

end Sample

end Aegion.Webhooks
