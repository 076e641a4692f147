/-
The rule engine over its life.  Rules are added, removed and replaced one at a time, and three
hand-written loops keep them in order: the exchange sort of a new engine, an insertion from the
end, and the exchange sort again after an update.  Whatever the calls, the engine holds the live
rules in descending priority, so the first rule that applies has the highest one.
-/
import Aegion.ProxyRules
import Mathlib.Data.List.Sort
import Mathlib.Data.Multiset.AddSub

namespace Aegion.ProxyRules

section Calls

/-- The loop of `AddRule`, with the rules before the new one listed from the last. -/
def settle (rule : Rule) : List Rule → List Rule
  | [] => [rule]
  | last :: before =>
      if rule.priority > last.priority then last :: settle rule before
      else rule :: last :: before

def addRule (rules : List Rule) (rule : Rule) : List Rule :=
  (settle rule rules.reverse).reverse

def removeRule (rules : List Rule) (id : String) : Bool × List Rule :=
  match rules.findIdx? fun rule => rule.id = id with
  | some i => (true, rules.eraseIdx i)
  | none => (false, rules)

def sortRules (rules : List Rule) : List Rule := exchangeRounds rules.length rules

def updateRule (rules : List Rule) (rule : Rule) : Bool × List Rule :=
  match rules.findIdx? fun other => other.id = rule.id with
  | some i => (true, sortRules (rules.set i rule))
  | none => (false, rules)

inductive EngineCall where
  | addRule (rule : Rule)
  | removeRule (id : String)
  | updateRule (rule : Rule)
deriving Repr, DecidableEq

def EngineCall.perform (rules : List Rule) : EngineCall → List Rule
  | .addRule rule => ProxyRules.addRule rules rule
  | .removeRule id => (ProxyRules.removeRule rules id).2
  | .updateRule rule => (ProxyRules.updateRule rules rule).2

/-- An engine and the calls it has received. -/
def engineAfter (rules : List Rule) (calls : List EngineCall) : List Rule :=
  calls.foldl EngineCall.perform (newRuleEngine rules)

/-- What a call means for the live rules, in no order.  A call that names an identifier affects
one rule of that identifier, or none if there is none. -/
inductive LiveStep : Multiset Rule → EngineCall → Multiset Rule → Prop where
  | added (live : Multiset Rule) (rule : Rule) : LiveStep live (.addRule rule) (rule ::ₘ live)
  | removed (live : Multiset Rule) (old : Rule) : LiveStep (old ::ₘ live) (.removeRule old.id) live
  | absent (live : Multiset Rule) (id : String) (habsent : ∀ rule ∈ live, rule.id ≠ id) :
      LiveStep live (.removeRule id) live
  | updated (live : Multiset Rule) (old rule : Rule) (hid : old.id = rule.id) :
      LiveStep (old ::ₘ live) (.updateRule rule) (rule ::ₘ live)
  | unknown (live : Multiset Rule) (rule : Rule) (habsent : ∀ old ∈ live, old.id ≠ rule.id) :
      LiveStep live (.updateRule rule) live

inductive LiveRun : Multiset Rule → List EngineCall → Multiset Rule → Prop where
  | nil (live : Multiset Rule) : LiveRun live [] live
  | cons {live next last : Multiset Rule} {call : EngineCall} {calls : List EngineCall} :
      LiveStep live call next → LiveRun next calls last → LiveRun live (call :: calls) last

def InOrder (rules : List Rule) : Prop :=
  rules.Pairwise fun earlier later => later.priority ≤ earlier.priority

end Calls

section Sorting

/-- A round leaves in hand a rule of the highest priority. -/
theorem priority_le_exchange (rule : Rule) (rest : List Rule) :
    ∀ other ∈ rule :: rest, other.priority ≤ (exchange rule rest).1.priority := by
  induction rest generalizing rule with
  | nil =>
      intro other hother
      rw [List.mem_singleton.mp hother]
      exact Int.le_refl _
  | cons next rest ih =>
      intro other hother
      unfold exchange
      split
      · rename_i hlt
        rcases List.mem_cons.mp hother with rfl | hrest
        · exact Int.le_trans (Int.le_of_lt hlt) (ih next next List.mem_cons_self)
        · exact ih next other hrest
      · rename_i hge
        rcases List.mem_cons.mp hother with rfl | hrest
        · exact ih other other List.mem_cons_self
        · rcases List.mem_cons.mp hrest with rfl | hlater
          · exact Int.le_trans (Int.not_lt.mp hge) (ih rule rule List.mem_cons_self)
          · exact ih rule other (List.mem_cons_of_mem rule hlater)

theorem length_exchange (rule : Rule) (rest : List Rule) :
    (exchange rule rest).2.length = rest.length :=
  Nat.succ.inj (perm_exchange rule rest).length_eq

theorem inOrder_exchangeRounds (n : Nat) (rules : List Rule) (hlength : rules.length ≤ n) :
    InOrder (exchangeRounds n rules) := by
  induction n generalizing rules with
  | zero =>
      rw [List.eq_nil_of_length_eq_zero (Nat.le_zero.mp hlength)]
      exact List.Pairwise.nil
  | succ n ih =>
      cases rules with
      | nil => exact List.Pairwise.nil
      | cons rule rest =>
          apply List.Pairwise.cons
          · intro other hother
            apply priority_le_exchange rule rest
            apply (perm_exchange rule rest).mem_iff.mp
            exact List.mem_cons_of_mem _ ((perm_exchangeRounds n _).mem_iff.mp hother)
          · apply ih
            rw [length_exchange]
            exact Nat.le_of_succ_le_succ hlength

theorem inOrder_sortRules (rules : List Rule) : InOrder (sortRules rules) :=
  inOrder_exchangeRounds rules.length rules (Nat.le_refl _)

theorem settle_eq_orderedInsert (rule : Rule) (before : List Rule) :
    settle rule before =
      before.orderedInsert (fun one other => one.priority ≤ other.priority) rule := by
  induction before with
  | nil => rfl
  | cons last before ih =>
      rw [List.orderedInsert_cons, settle, ih]
      by_cases hle : rule.priority ≤ last.priority
      · rw [if_neg (Int.not_lt.mpr hle), if_pos hle]
      · rw [if_pos (Int.not_le.mp hle), if_neg hle]

theorem perm_addRule (rules : List Rule) (rule : Rule) :
    (addRule rules rule).Perm (rule :: rules) := by
  unfold addRule
  rw [settle_eq_orderedInsert]
  exact (List.reverse_perm _).trans
    ((List.perm_orderedInsert _ _ _).trans ((List.reverse_perm _).cons rule))

/-- Seen from the end the engine ascends, and `AddRule` inserts into that. -/
theorem inOrder_addRule {rules : List Rule} (hrules : InOrder rules) (rule : Rule) :
    InOrder (addRule rules rule) := by
  have hordered : (settle rule rules.reverse).Pairwise
      (fun one other => one.priority ≤ other.priority) := by
    rw [settle_eq_orderedInsert]
    have : Std.Total fun one other : Rule => one.priority ≤ other.priority :=
      ⟨fun one other => Int.le_total one.priority other.priority⟩
    have : IsTrans Rule fun one other => one.priority ≤ other.priority :=
      ⟨fun _ _ _ => Int.le_trans⟩
    exact List.Pairwise.orderedInsert rule _ (List.pairwise_reverse.mpr hrules)
  exact List.pairwise_reverse.mpr hordered

end Sorting

section Runs

/-- The rule that `RemoveRule` and `UpdateRule` stop at. -/
theorem exists_of_findIdx?_id {rules : List Rule} {id : String} {i : Nat}
    (hfound : (rules.findIdx? fun rule => rule.id = id) = some i) :
    ∃ before old after, rules = before ++ old :: after ∧ before.length = i ∧ old.id = id := by
  obtain ⟨hi, hid, -⟩ := List.findIdx?_eq_some_iff_getElem.mp hfound
  refine ⟨rules.take i, rules[i], rules.drop (i + 1), ?_, ?_, of_decide_eq_true hid⟩
  · rw [List.getElem_cons_drop, List.take_append_drop]
  · exact List.length_take_of_le (Nat.le_of_lt hi)

theorem id_ne_of_findIdx?_eq_none {rules : List Rule} {id : String}
    (hnone : (rules.findIdx? fun rule => rule.id = id) = none) :
    ∀ rule ∈ (rules : Multiset Rule), rule.id ≠ id := by
  intro rule hrule
  exact of_decide_eq_false (List.findIdx?_eq_none_iff.mp hnone rule (Multiset.mem_coe.mp hrule))

theorem coe_middle (before : List Rule) (old : Rule) (after : List Rule) :
    ((before ++ old :: after : List Rule) : Multiset Rule) = old ::ₘ ↑(before ++ after) :=
  Multiset.coe_eq_coe.mpr List.perm_middle

theorem liveStep_removeRule (rules : List Rule) (id : String) :
    LiveStep rules (.removeRule id) (removeRule rules id).2 := by
  unfold removeRule
  split
  · rename_i i hfound
    obtain ⟨before, old, after, rfl, rfl, rfl⟩ := exists_of_findIdx?_id hfound
    rw [List.eraseIdx_append_of_length_le (Nat.le_refl _), Nat.sub_self, List.eraseIdx_cons_zero,
      coe_middle]
    exact LiveStep.removed _ old
  · rename_i hnone
    exact LiveStep.absent _ id (id_ne_of_findIdx?_eq_none hnone)

theorem liveStep_updateRule (rules : List Rule) (rule : Rule) :
    LiveStep rules (.updateRule rule) (updateRule rules rule).2 := by
  unfold updateRule
  split
  · rename_i i hfound
    obtain ⟨before, old, after, rfl, rfl, hid⟩ := exists_of_findIdx?_id hfound
    have hsorted : ((sortRules ((before ++ old :: after).set before.length rule) : List Rule) :
        Multiset Rule) = rule ::ₘ ↑(before ++ after) := by
      rw [List.set_append_right _ _ (Nat.le_refl _), Nat.sub_self, List.set_cons_zero]
      exact (Multiset.coe_eq_coe.mpr (perm_exchangeRounds _ _)).trans (coe_middle before rule after)
    rw [hsorted, coe_middle]
    exact LiveStep.updated _ old rule hid
  · rename_i hnone
    exact LiveStep.unknown _ rule (id_ne_of_findIdx?_eq_none hnone)

theorem liveStep_perform (rules : List Rule) (call : EngineCall) :
    LiveStep rules call (call.perform rules) := by
  cases call with
  | addRule rule =>
      have hadded : ((addRule rules rule : List Rule) : Multiset Rule) = rule ::ₘ ↑rules :=
        Multiset.coe_eq_coe.mpr (perm_addRule rules rule)
      rw [EngineCall.perform, hadded]
      exact LiveStep.added _ rule
  | removeRule id => exact liveStep_removeRule rules id
  | updateRule rule => exact liveStep_updateRule rules rule

theorem inOrder_perform {rules : List Rule} (hrules : InOrder rules) (call : EngineCall) :
    InOrder (call.perform rules) := by
  cases call with
  | addRule rule => exact inOrder_addRule hrules rule
  | removeRule id =>
      change InOrder (removeRule rules id).2
      unfold removeRule
      split
      · exact hrules.sublist (List.eraseIdx_sublist _ _)
      · exact hrules
  | updateRule rule =>
      change InOrder (updateRule rules rule).2
      unfold updateRule
      split
      · exact inOrder_sortRules _
      · exact hrules

/-- From any engine in order, by induction on the calls. -/
theorem liveRun_foldl (calls : List EngineCall) {rules : List Rule} (hrules : InOrder rules) :
    LiveRun rules calls (calls.foldl EngineCall.perform rules : List Rule) ∧
      InOrder (calls.foldl EngineCall.perform rules) := by
  induction calls generalizing rules with
  | nil => exact ⟨LiveRun.nil _, hrules⟩
  | cons call calls ih =>
      obtain ⟨hrun, hordered⟩ := ih (inOrder_perform hrules call)
      exact ⟨LiveRun.cons (liveStep_perform rules call) hrun, hordered⟩

/-- The first rule that applies in an ordered list has the highest priority. -/
theorem priority_le_of_find? {rules : List Rule} (hrules : InOrder rules) {p : Rule → Bool}
    {found : Rule} (hfound : rules.find? p = some found) :
    ∀ rule ∈ rules, p rule = true → rule.priority ≤ found.priority := by
  obtain ⟨-, before, after, rfl, hbefore⟩ := List.find?_eq_some_iff_append.mp hfound
  intro rule hrule hp
  rcases List.mem_append.mp hrule with hearlier | hlater
  · have hmissed := hbefore rule hearlier
    rw [hp] at hmissed
    cases hmissed
  · have hsuffix := (List.pairwise_append.mp hrules).2.1
    rcases List.mem_cons.mp hlater with rfl | hafter
    · exact Int.le_refl _
    · exact List.rel_of_pairwise_cons hsuffix hafter

/-- The engine holds the live rules by descending priority, and `Match` answers with an applying
rule of the highest priority among them. -/
theorem engineAfter_matches_by_priority (platform : Platform) (rules : List Rule)
    (calls : List EngineCall) :
    LiveRun rules calls (engineAfter rules calls) ∧ InOrder (engineAfter rules calls) ∧
      ∀ r : Request,
        match matchRule platform (engineAfter rules calls) r with
        | some rule => rule ∈ engineAfter rules calls ∧ rule.enabled = true ∧
            matchesPattern platform r.path rule.path = true ∧
            rule.matchesMethod platform r.method = true ∧
            ∀ other ∈ engineAfter rules calls, other.applies platform r = true →
              other.priority ≤ rule.priority
        | none => ∀ rule ∈ engineAfter rules calls, rule.applies platform r = false := by
  have hnew : InOrder (newRuleEngine rules) := inOrder_sortRules rules
  obtain ⟨hrun, hordered⟩ := liveRun_foldl calls hnew
  have hsame : ((newRuleEngine rules : List Rule) : Multiset Rule) = rules :=
    Multiset.coe_eq_coe.mpr (perm_exchangeRounds _ _)
  rw [hsame] at hrun
  refine ⟨hrun, hordered, fun r => ?_⟩
  split
  · rename_i rule hmatch
    unfold matchRule at hmatch
    have happlies := List.find?_some hmatch
    simp only [Rule.applies, Bool.and_eq_true] at happlies
    exact ⟨List.mem_of_find?_eq_some hmatch, happlies.1.1, happlies.1.2, happlies.2,
      priority_le_of_find? hordered hmatch⟩
  · rename_i hmatch
    intro rule hrule
    exact Bool.eq_false_of_not_eq_true (List.find?_eq_none.mp hmatch rule hrule)

end Runs

end Aegion.ProxyRules
