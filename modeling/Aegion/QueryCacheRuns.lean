/-
Runs of the LRU cache of query results.  Over every sequence of calls the list is in the
order of the last use of its keys, what goes in a full cache was used longest ago, and a
`Get` finds what the latest `Set` of its key stored and nothing took away since.
-/
import Aegion.QueryCache

namespace Aegion

namespace QueryCache

variable {V : Type}

structure Call (V : Type) where
  now : Int
  action : Action V

/-- A call that was made, with its reply and the map before and after it. -/
structure Step (V : Type) where
  call : Call V
  reply : Reply V
  before : AList fun _ : String => Nat
  after : AList fun _ : String => Nat

def LRUQueryCache.stepOf (c : LRUQueryCache V) (call : Call V) : Step V where
  call := call
  reply := (c.perform call.now call.action).2
  before := c.cache
  after := (c.perform call.now call.action).1.cache

/-- The cache and what happened to it, after the calls; both lists are latest first. -/
def run (config : QueryCacheConfig) : List (Call V) → LRUQueryCache V × List (Step V)
  | [] => (newLRUQueryCache config, [])
  | call :: earlier =>
    let (c, history) := run config earlier
    ((c.perform call.now call.action).1, c.stepOf call :: history)

namespace Step

variable (step : Step V)

/-- What a `Set` without an error stored. -/
def stored (config : QueryCacheConfig) : Option (CacheNode V) :=
  match step.call.action, step.reply with
  | .set _ key value ttl, .done none =>
    some ⟨key, value, step.call.now + if ttl = 0 then config.ttl else ttl⟩
  | _, _ => none

/-- A `Get` that hit the key or a `Set` of it. -/
def uses (key : String) : Bool :=
  match step.call.action, step.reply with
  | .get _ other, .got _ true _ => other = key
  | .set _ other _ _, .done none => other = key
  | _, _ => false

/-- A `Set` that took the key out of the map. -/
def evicts (key : String) : Bool :=
  match step.call.action with
  | .set .. => (step.before.lookup key).isSome && (step.after.lookup key).isNone
  | _ => false

/-- The key was deleted, cleared, invalidated or evicted. -/
def removes (key : String) : Bool :=
  match step.call.action, step.reply with
  | .set .., _ => step.evicts key
  | .delete _ other, .done none => other = key
  | .clear _, .done none => true
  | .invalidatePattern _ pattern _, .done none => matchesPattern key pattern
  | _, _ => false

end Step

/-- The number of the last step that used the key; steps are numbered from one. -/
def lastUse : List (Step V) → String → Nat
  | [], _ => 0
  | step :: earlier, key =>
    if step.uses key then earlier.length + 1 else lastUse earlier key

/-- What the latest `Set` of the key stored, unless the key was removed since. -/
def current (config : QueryCacheConfig) : List (Step V) → String → Option (CacheNode V)
  | [], _ => none
  | step :: earlier, key =>
    match (step.stored config).filter fun e => e.key = key with
    | some e => some e
    | none => if step.removes key then none else current config earlier key

/-- The reply to a `Get`: the current entry, unless it has expired. -/
def expected (config : QueryCacheConfig) (history : List (Step V)) (now : Int) (key : String) :
    Reply V :=
  match current config history key with
  | some e => if e.expiresAt < now then .miss else .hit e.value
  | none => .miss

/-- Between the sentinels stand the nodes of the map, each in one place, the later used
before the earlier used. -/
def InOrder (c : LRUQueryCache V) (history : List (Step V)) : Prop :=
  ∃ addresses : List Nat,
    c.links.Linked (head :: (addresses ++ [tail])) ∧
    (null :: head :: (addresses ++ [tail])).Nodup ∧
    c.cache.entries.Perm (addresses.map fun a => ⟨(c.nodes a).key, a⟩) ∧
    addresses.Pairwise fun a b =>
      lastUse history (c.nodes b).key < lastUse history (c.nodes a).key

section Histories

variable {config : QueryCacheConfig} {history : List (Step V)} {step : Step V} {key : String}
  {e : CacheNode V}

theorem lastUse_le_length (history : List (Step V)) (key : String) :
    lastUse history key ≤ history.length := by
  induction history with
  | nil => exact Nat.le_refl 0
  | cons step earlier ih =>
      rw [lastUse]
      split
      · exact Nat.le_refl _
      · exact Nat.le_succ_of_le ih

theorem lastUse_of_uses (huses : step.uses key = true) :
    lastUse (step :: history) key = history.length + 1 := if_pos huses

theorem lastUse_of_not_uses (huses : step.uses key = false) :
    lastUse (step :: history) key = lastUse history key := by
  rw [lastUse, huses]
  rfl

theorem current_of_stored (hstored : step.stored config = some e) :
    current config (step :: history) e.key = some e := by
  simp [current, hstored, Option.filter]

theorem current_of_not_stored (hstored : ∀ s, step.stored config = some s → s.key ≠ key) :
    current config (step :: history) key =
      if step.removes key then none else current config history key := by
  have hfilter : ((step.stored config).filter fun e => e.key = key) = none := by
    simpa [Option.filter_eq_none_iff] using hstored
  rw [current, hfilter]

theorem current_key (hcurrent : current config history key = some e) : e.key = key := by
  induction history with
  | nil => cases hcurrent
  | cons step earlier ih =>
      by_cases hstored : ∃ s, step.stored config = some s ∧ s.key = key
      · obtain ⟨s, hs, rfl⟩ := hstored
        rw [current_of_stored hs] at hcurrent
        exact Option.some.inj hcurrent ▸ rfl
      · rw [current_of_not_stored fun s hs hkey => hstored ⟨s, hs, hkey⟩] at hcurrent
        split at hcurrent
        · cases hcurrent
        · exact ih hcurrent

end Histories

section Steps

variable {config : QueryCacheConfig} {history : List (Step V)} {step : Step V}
  {entries entries' : Recency V}

def Unique (entries : Recency V) : Prop :=
  ∀ e ∈ entries, ∀ e' ∈ entries, e.key = e'.key → e = e'

/-- The step made the second list of entries of the first. -/
structure Follows (config : QueryCacheConfig) (entries entries' : Recency V) (step : Step V) :
    Prop where
  outcome : entries.perform config step.call.now step.call.action = (entries', step.reply)
  before : ∀ key, (step.before.lookup key).isSome ↔ ∃ e ∈ entries, e.key = key
  after : ∀ key, (step.after.lookup key).isSome ↔ ∃ e ∈ entries', e.key = key

/-- What a step can do to the entries. -/
inductive Change (config : QueryCacheConfig) (entries : Recency V) (step : Step V) :
    Recency V → Prop where
  | filtered (stays : CacheNode V → Bool) (huses : ∀ key, step.uses key = false)
      (hstored : step.stored config = none)
      (hgone : ∀ e ∈ entries, stays e = false →
        step.removes e.key = true ∨ e.expiresAt < step.call.now)
      (hstays : ∀ e ∈ entries, stays e = true → step.removes e.key = false) :
      Change config entries step (entries.filter stays)
  | touched (e : CacheNode V) (he : e ∈ entries)
      (huses : ∀ key, step.uses key = decide (e.key = key))
      (hstored : step.stored config = none) (hremoves : ∀ key, step.removes key = false) :
      Change config entries step (e :: entries.without e.key)
  | put (e : CacheNode V) (huses : ∀ key, step.uses key = decide (e.key = key))
      (hstored : step.stored config = some e)
      (hremoves : ∀ key, step.removes key = step.evicts key) :
      Change config entries step ((e :: entries.without e.key).take config.maxSize.toNat)

theorem Change.kept (huses : ∀ key, step.uses key = false)
    (hstored : step.stored config = none) (hremoves : ∀ key, step.removes key = false) :
    Change config entries step entries := by
  have hfiltered : Change config entries step (entries.filter fun _ => true) :=
    .filtered _ huses hstored (fun e _ h => by cases h) fun e _ _ => hremoves e.key
  rwa [List.filter_true] at hfiltered

theorem Follows.evicts_eq_false (hfollows : Follows config entries entries step) (key : String) :
    step.evicts key = false := by
  have hiff := (hfollows.before key).trans (hfollows.after key).symm
  unfold Step.evicts
  split
  · cases hafter : (step.after.lookup key).isSome <;> simp_all
  · rfl

/-- A `Get` either leaves the entries, drops an expired one or brings one to the front. -/
theorem Follows.change_get {ctx : Context} {key : String}
    (hfollows : Follows config entries entries' step) (hunique : Unique entries)
    (haction : step.call.action = .get ctx key) : Change config entries step entries' := by
  obtain ⟨⟨now, action⟩, reply, before, after⟩ := step
  have houtcome := hfollows.outcome
  subst haction
  simp only [Recency.perform] at houtcome
  split at houtcome
  · cases houtcome
    exact .kept (fun _ => rfl) rfl fun _ => rfl
  · split at houtcome
    · cases houtcome
      exact .kept (fun _ => rfl) rfl fun _ => rfl
    · rename_i e hfind
      have he := List.mem_of_find?_eq_some hfind
      have heKey : e.key = key := by simpa using List.find?_some hfind
      split at houtcome
      · cases houtcome
        refine .filtered _ (fun _ => rfl) rfl (fun e' he' hgone => .inr ?_) fun _ _ _ => rfl
        have he'Key : e'.key = key := by simpa using hgone
        rw [hunique e' he' e he (he'Key.trans heKey.symm)]
        assumption
      · cases houtcome
        subst heKey
        exact .touched e he (fun _ => rfl) rfl fun _ => rfl

/-- A `Set` either fails or puts an entry in front. -/
theorem Follows.set_cases {ctx : Context} {key : String} {value : Option V} {ttl : Int}
    (hfollows : Follows config entries entries' step)
    (haction : step.call.action = .set ctx key value ttl) :
    (entries' = entries ∧ (∀ key, step.uses key = false) ∧ step.stored config = none) ∨
      ∃ e, (∀ key, step.uses key = decide (e.key = key)) ∧ step.stored config = some e ∧
        entries' = (e :: entries.without e.key).take config.maxSize.toNat := by
  obtain ⟨⟨now, action⟩, reply, before, after⟩ := step
  have houtcome := hfollows.outcome
  subst haction
  simp only [Recency.perform] at houtcome
  split at houtcome
  · cases houtcome
    exact .inl ⟨rfl, fun _ => rfl, rfl⟩
  · split at houtcome
    · cases houtcome
      exact .inl ⟨rfl, fun _ => rfl, rfl⟩
    · cases houtcome
      exact .inr ⟨_, fun _ => rfl, rfl, rfl⟩

theorem Follows.change_set {ctx : Context} {key : String} {value : Option V} {ttl : Int}
    (hfollows : Follows config entries entries' step)
    (haction : step.call.action = .set ctx key value ttl) :
    Change config entries step entries' := by
  have hremoves : ∀ key, step.removes key = step.evicts key := fun key => by
    simp only [Step.removes, haction]
  rcases hfollows.set_cases haction with ⟨rfl, huses, hstored⟩ | ⟨e, huses, hstored, rfl⟩
  · exact .kept huses hstored fun key => (hremoves key).trans (hfollows.evicts_eq_false key)
  · exact .put e huses hstored hremoves

theorem Follows.change (hfollows : Follows config entries entries' step)
    (hunique : Unique entries) : Change config entries step entries' := by
  obtain ⟨⟨now, action⟩, reply, before, after⟩ := step
  have houtcome := hfollows.outcome
  cases action with
  | get ctx key => exact hfollows.change_get hunique rfl
  | set ctx key value ttl => exact hfollows.change_set rfl
  | delete ctx key =>
      simp only [Recency.perform] at houtcome
      split at houtcome
      · cases houtcome
        exact .kept (fun _ => rfl) rfl fun _ => rfl
      · cases houtcome
        refine .filtered _ (fun _ => rfl) rfl (fun e _ hgone => .inl ?_) fun e _ hstays => ?_
        · have hkey : e.key = key := by simpa using hgone
          exact decide_eq_true hkey.symm
        · have hkey : e.key ≠ key := by simpa using hstays
          exact decide_eq_false hkey.symm
  | clear ctx =>
      simp only [Recency.perform] at houtcome
      split at houtcome
      · cases houtcome
        exact .kept (fun _ => rfl) rfl fun _ => rfl
      · cases houtcome
        rw [← List.filter_false entries]
        exact .filtered _ (fun _ => rfl) rfl (fun _ _ _ => .inl rfl) fun _ _ h => by cases h
  | invalidatePattern ctx pattern order =>
      simp only [Recency.perform] at houtcome
      split at houtcome
      · cases houtcome
        exact .kept (fun _ => rfl) rfl fun _ => rfl
      · cases houtcome
        refine .filtered _ (fun _ => rfl) rfl (fun e _ hgone => .inl ?_) fun e _ hstays => ?_
        · simpa [Step.removes] using hgone
        · simpa [Step.removes] using hstays
  | cleanupExpired order =>
      cases houtcome
      refine .filtered _ (fun _ => rfl) rfl (fun e _ hgone => .inr ?_) fun _ _ _ => rfl
      simpa using hgone

/-- The entries are in the order of the last use of their keys, none too many; each is what
its key stands for, and what a key stands for is either there or has expired. -/
structure Tracks (config : QueryCacheConfig) (entries : Recency V) (history : List (Step V)) :
    Prop where
  ordered : entries.Pairwise fun e e' => lastUse history e'.key < lastUse history e.key
  bounded : entries.length ≤ config.maxSize.toNat
  present : ∀ e ∈ entries, current config history e.key = some e
  expired : ∀ key e, current config history key = some e → e ∉ entries →
    ∃ step ∈ history, e.expiresAt < step.call.now

theorem Tracks.unique (htracks : Tracks config entries history) : Unique entries := by
  intro e he e' he' hkey
  have hcurrent := htracks.present e he
  rw [hkey, htracks.present e' he'] at hcurrent
  exact (Option.some.inj hcurrent).symm

theorem mem_without {e : CacheNode V} {key : String} :
    e ∈ entries.without key ↔ e ∈ entries ∧ e.key ≠ key := by
  simp [Recency.without]

/-- Entries that the step did not use keep their places. -/
theorem Tracks.ordered_of_unused {rest : Recency V} (htracks : Tracks config entries history)
    (hrest : rest.Sublist entries) (hunused : ∀ e ∈ rest, step.uses e.key = false) :
    rest.Pairwise fun e e' =>
      lastUse (step :: history) e'.key < lastUse (step :: history) e.key := by
  refine (htracks.ordered.sublist hrest).imp_of_mem fun he he' hlt => ?_
  rwa [lastUse_of_not_uses (hunused _ he), lastUse_of_not_uses (hunused _ he')]

/-- The entry that the step used comes before all others. -/
theorem Tracks.ordered_of_used {e : CacheNode V} {rest : Recency V}
    (htracks : Tracks config entries history) (hrest : rest.Sublist (entries.without e.key))
    (huses : ∀ key, step.uses key = decide (e.key = key)) :
    (e :: rest).Pairwise fun e e' =>
      lastUse (step :: history) e'.key < lastUse (step :: history) e.key := by
  have hunused : ∀ e' ∈ rest, step.uses e'.key = false := by
    intro e' he'
    rw [huses]
    exact decide_eq_false (mem_without.mp (hrest.subset he')).2.symm
  refine List.pairwise_cons.mpr ⟨fun e' he' => ?_,
    htracks.ordered_of_unused (hrest.trans List.filter_sublist) hunused⟩
  have hused : step.uses e.key = true := (huses e.key).trans (decide_eq_true rfl)
  rw [lastUse_of_uses hused, lastUse_of_not_uses (hunused e' he')]
  exact Nat.lt_succ_of_le (lastUse_le_length history e'.key)

/-- What the step neither stored nor removed stands for the same as before. -/
theorem current_of_untouched {key : String}
    (hstored : ∀ s, step.stored config = some s → s.key ≠ key)
    (hremoves : step.removes key = false) :
    current config (step :: history) key = current config history key := by
  rw [current_of_not_stored hstored, hremoves]
  rfl

/-- What has to be known of a step to keep track of the entries. -/
theorem Tracks.of_step (htracks : Tracks config entries history)
    (hordered : entries'.Pairwise fun e e' =>
      lastUse (step :: history) e'.key < lastUse (step :: history) e.key)
    (hbounded : entries'.length ≤ config.maxSize.toNat)
    (hnew : ∀ s, step.stored config = some s → s ∈ entries')
    (hpresent : ∀ e ∈ entries', step.stored config = some e ∨ e ∈ entries ∧
      (∀ s, step.stored config = some s → s.key ≠ e.key) ∧ step.removes e.key = false)
    (hgone : ∀ e ∈ entries, e ∉ entries' → (∀ s, step.stored config = some s → s.key ≠ e.key) →
      step.removes e.key = false → e.expiresAt < step.call.now) :
    Tracks config entries' (step :: history) := by
  refine ⟨hordered, hbounded, ?_, ?_⟩
  · intro e he
    rcases hpresent e he with hstored | ⟨hold, hstored, hremoves⟩
    · exact current_of_stored hstored
    · rw [current_of_untouched hstored hremoves]
      exact htracks.present e hold
  · intro key e hcurrent he
    by_cases hkey : ∃ s, step.stored config = some s ∧ s.key = key
    · obtain ⟨s, hs, rfl⟩ := hkey
      rw [current_of_stored hs] at hcurrent
      exact absurd (hnew s hs) (Option.some.inj hcurrent ▸ he)
    · have hstored : ∀ s, step.stored config = some s → s.key ≠ key := fun s hs heq =>
        hkey ⟨s, hs, heq⟩
      rw [current_of_not_stored hstored] at hcurrent
      split at hcurrent
      · cases hcurrent
      · rename_i hremoves
        by_cases hold : e ∈ entries
        · obtain rfl := current_key hcurrent
          exact ⟨step, List.mem_cons_self, hgone e hold he hstored (Bool.not_eq_true _ ▸ hremoves)⟩
        · obtain ⟨step', hstep', hlt⟩ := htracks.expired key e hcurrent hold
          exact ⟨step', List.mem_cons_of_mem _ hstep', hlt⟩

/-- The same for a step that stores nothing. -/
theorem Tracks.of_unstored (htracks : Tracks config entries history)
    (hstored : step.stored config = none) (hordered : entries'.Pairwise fun e e' =>
      lastUse (step :: history) e'.key < lastUse (step :: history) e.key)
    (hbounded : entries'.length ≤ config.maxSize.toNat)
    (hpresent : ∀ e ∈ entries', e ∈ entries ∧ step.removes e.key = false)
    (hgone : ∀ e ∈ entries, e ∉ entries' → step.removes e.key = false →
      e.expiresAt < step.call.now) :
    Tracks config entries' (step :: history) := by
  have hnone : ∀ s, step.stored config ≠ some s := fun s hs => by simp [hstored] at hs
  refine htracks.of_step hordered hbounded (fun s hs => absurd hs (hnone s)) ?_ ?_
  · intro e he
    obtain ⟨hmem, hremoves⟩ := hpresent e he
    exact .inr ⟨hmem, fun s hs => absurd hs (hnone s), hremoves⟩
  · intro e he hout _ hremoves
    exact hgone e he hout hremoves

theorem Tracks.filtered {stays : CacheNode V → Bool} (htracks : Tracks config entries history)
    (huses : ∀ key, step.uses key = false) (hstored : step.stored config = none)
    (hgone : ∀ e ∈ entries, stays e = false →
      step.removes e.key = true ∨ e.expiresAt < step.call.now)
    (hstays : ∀ e ∈ entries, stays e = true → step.removes e.key = false) :
    Tracks config (entries.filter stays) (step :: history) := by
  have hsublist : (entries.filter stays).Sublist entries := List.filter_sublist
  have hordered := htracks.ordered_of_unused hsublist fun e _ => huses e.key
  have hbounded := (List.length_filter_le stays entries).trans htracks.bounded
  apply htracks.of_unstored hstored hordered hbounded
  · intro e he
    obtain ⟨hmem, hstay⟩ := List.mem_filter.mp he
    exact ⟨hmem, hstays e hmem hstay⟩
  · intro e he hfilter hremoves
    have hnot : stays e = false := by simpa [he] using hfilter
    rcases hgone e he hnot with hremoved | hexpired
    · exact absurd (hremoves.symm.trans hremoved) Bool.false_ne_true
    · exact hexpired

theorem Tracks.touched {e : CacheNode V} (htracks : Tracks config entries history)
    (he : e ∈ entries) (huses : ∀ key, step.uses key = decide (e.key = key))
    (hstored : step.stored config = none) (hremoves : ∀ key, step.removes key = false) :
    Tracks config (e :: entries.without e.key) (step :: history) := by
  have hordered := htracks.ordered_of_used (List.Sublist.refl (entries.without e.key)) huses
  have hshorter : (entries.without e.key).length < entries.length :=
    List.length_filter_lt_length_iff_exists.mpr ⟨e, he, by simp⟩
  have hbounded := (Nat.succ_le_of_lt hshorter).trans htracks.bounded
  apply htracks.of_unstored hstored hordered hbounded
  · intro e' he'
    refine ⟨?_, hremoves e'.key⟩
    rcases List.mem_cons.mp he' with rfl | he'
    · exact he
    · exact (mem_without.mp he').1
  · intro e' he' hout _
    -- An old entry is missing only if it has the key, and then it is the one in front.
    have hkey : e'.key = e.key := by
      by_contra hne
      exact hout (List.mem_cons_of_mem _ (mem_without.mpr ⟨he', hne⟩))
    exact absurd (htracks.unique e' he' e he hkey ▸ List.mem_cons_self) hout

theorem evicts_of_stored {e : CacheNode V} (hstored : step.stored config = some e) (key : String) :
    step.evicts key = ((step.before.lookup key).isSome && (step.after.lookup key).isNone) := by
  unfold Step.stored at hstored
  split at hstored
  · rename_i haction hreply
    simp only [Step.evicts, haction]
  · cases hstored

/-- A `Set` evicts the entries for which there is no room. -/
theorem Follows.evicts_iff {e e' : CacheNode V}
    (hfollows : Follows config entries entries' step) (hstored : step.stored config = some e)
    (he' : e' ∈ entries) : step.evicts e'.key = true ↔ ∀ e'' ∈ entries', e''.key ≠ e'.key := by
  have hbefore := (hfollows.before e'.key).mpr ⟨e', he', rfl⟩
  have hafter := hfollows.after e'.key
  rw [evicts_of_stored hstored, hbefore, Bool.true_and, ← Option.not_isSome, Bool.not_eq_true',
    ← Bool.not_eq_true, hafter]
  simp

theorem Follows.put_of_evicts {key : String} (hfollows : Follows config entries entries' step)
    (hevicts : step.evicts key = true) :
    ∃ e, step.stored config = some e ∧
      entries' = (e :: entries.without e.key).take config.maxSize.toNat := by
  obtain ⟨ctx, other, value, ttl, haction⟩ :
      ∃ ctx other value ttl, step.call.action = .set ctx other value ttl := by
    unfold Step.evicts at hevicts
    split at hevicts
    · exact ⟨_, _, _, _, by assumption⟩
    · cases hevicts
  rcases hfollows.set_cases haction with ⟨rfl, -, -⟩ | ⟨e, -, hstored, hentries⟩
  · exact absurd ((hfollows.evicts_eq_false key).symm.trans hevicts) Bool.false_ne_true
  · exact ⟨e, hstored, hentries⟩

variable (hmax : 1 ≤ config.maxSize)
include hmax

theorem take_entries (e : CacheNode V) (rest : Recency V) :
    (e :: rest).take config.maxSize.toNat = e :: rest.take (config.maxSize.toNat - 1) := by
  obtain ⟨n, hn⟩ : ∃ n, config.maxSize.toNat = n + 1 := ⟨config.maxSize.toNat - 1, by omega⟩
  rw [hn]
  rfl

theorem Tracks.put {e : CacheNode V} (htracks : Tracks config entries history)
    (hfollows : Follows config entries
      ((e :: entries.without e.key).take config.maxSize.toNat) step)
    (huses : ∀ key, step.uses key = decide (e.key = key)) (hstored : step.stored config = some e)
    (hremoves : ∀ key, step.removes key = step.evicts key) :
    Tracks config ((e :: entries.without e.key).take config.maxSize.toNat) (step :: history) := by
  have hbounded := List.length_take_le config.maxSize.toNat (e :: entries.without e.key)
  rw [take_entries hmax] at hfollows hbounded ⊢
  have hrest : ∀ e' ∈ (entries.without e.key).take (config.maxSize.toNat - 1),
      e' ∈ entries ∧ e'.key ≠ e.key := fun e' he' => mem_without.mp (List.mem_of_mem_take he')
  have honly : ∀ s, step.stored config = some s → s = e := fun s hs =>
    Option.some.inj (hs.symm.trans hstored)
  refine htracks.of_step (htracks.ordered_of_used (List.take_sublist _ _) huses) hbounded
    (fun s hs => honly s hs ▸ List.mem_cons_self) ?_ ?_
  · intro e' he'
    rcases List.mem_cons.mp he' with rfl | hold
    · exact .inl hstored
    · obtain ⟨hmem, hkey⟩ := hrest e' hold
      refine .inr ⟨hmem, fun s hs => honly s hs ▸ hkey.symm, ?_⟩
      rw [hremoves, ← Bool.not_eq_true, hfollows.evicts_iff hstored hmem]
      exact fun hall => hall e' he' rfl
  · intro e' he' hout hother hstays
    rw [hremoves, ← Bool.not_eq_true, hfollows.evicts_iff hstored he'] at hstays
    refine absurd (fun e'' he'' hkey => ?_) hstays
    rcases List.mem_cons.mp he'' with rfl | hold
    · exact hother e'' hstored hkey
    · exact hout (htracks.unique e'' (hrest e'' hold).1 e' he' hkey ▸ he'')

/-- A step keeps track of the entries. -/
theorem Tracks.next (htracks : Tracks config entries history)
    (hfollows : Follows config entries entries' step) :
    Tracks config entries' (step :: history) := by
  cases hfollows.change htracks.unique with
  | filtered stays huses hstored hgone hstays =>
      exact htracks.filtered huses hstored hgone hstays
  | touched e he huses hstored hremoves => exact htracks.touched he huses hstored hremoves
  | put e huses hstored hremoves => exact htracks.put hmax hfollows huses hstored hremoves

/-- An evicted key was used before every other one in the map, and the cache was full. -/
theorem Tracks.evicted {key : String} (htracks : Tracks config entries history)
    (hfollows : Follows config entries entries' step) (hevicts : step.evicts key = true) :
    (entries.length : Int) = config.maxSize ∧
      ∀ e ∈ entries, e.key ≠ key → lastUse history key < lastUse history e.key := by
  have hbounded := htracks.bounded
  obtain ⟨e, hstored, rfl⟩ := hfollows.put_of_evicts hevicts
  obtain ⟨old, hold, rfl⟩ : ∃ old ∈ entries, old.key = key := by
    rw [evicts_of_stored hstored, Bool.and_eq_true] at hevicts
    exact (hfollows.before key).mp hevicts.1
  have hout := (hfollows.evicts_iff hstored hold).mp hevicts
  have hkey : old.key ≠ e.key := fun heq =>
    hout e (by rw [take_entries hmax]; exact List.mem_cons_self) heq.symm
  -- There was no room, so nothing had the new key and all places were taken.
  have hlong : config.maxSize.toNat ≤ (entries.without e.key).length := by
    by_contra hshort
    refine hout old ?_ rfl
    rw [List.take_of_length_le (Nat.succ_le_of_lt (Nat.lt_of_not_le hshort))]
    exact List.mem_cons_of_mem _ (mem_without.mpr ⟨hold, hkey⟩)
  have hall : entries.without e.key = entries :=
    List.filter_sublist.eq_of_length_le (hbounded.trans hlong)
  rw [hall] at hlong hout
  refine ⟨by omega, ?_⟩
  obtain ⟨front, last, rfl⟩ := (List.eq_nil_or_concat entries).resolve_left
    (List.ne_nil_of_mem hold)
  rw [List.concat_eq_append] at *
  have hlength : config.maxSize.toNat - 1 = front.length := by
    rw [List.length_append, List.length_singleton] at hlong hbounded
    omega
  rw [take_entries hmax, hlength, List.take_left] at hout
  have hlast : old = last := by
    rcases List.mem_append.mp hold with hfront | hlast
    · exact absurd rfl (hout old (List.mem_cons_of_mem _ hfront))
    · exact List.mem_singleton.mp hlast
  intro other hother hne
  have hfront : other ∈ front := by
    rcases List.mem_append.mp hother with hfront | hlast'
    · exact hfront
    · exact absurd (congrArg CacheNode.key ((List.mem_singleton.mp hlast').trans hlast.symm)) hne
  exact hlast ▸ (List.pairwise_append.mp htracks.ordered).2.2 other hfront last List.mem_cons_self

omit hmax

/-- A `Get` finds what the key stands for, unless it has expired. -/
theorem Tracks.get_reply {now : Int} (htracks : Tracks config entries history)
    (hclock : ∀ step ∈ history, step.call.now ≤ now) (key : String) :
    (entries.perform config now (.get .live key)).2 = expected config history now key := by
  simp only [Recency.perform, validateContext, expected]
  cases hfind : entries.find? fun e => decide (e.key = key) with
  | some e =>
      have he := List.mem_of_find?_eq_some hfind
      have heKey : e.key = key := by simpa using List.find?_some hfind
      rw [← heKey, htracks.present e he]
      dsimp only
      split <;> rfl
  | none =>
      have habsent : ∀ e ∈ entries, e.key ≠ key := fun e he => by
        simpa using List.find?_eq_none.mp hfind e he
      cases hcurrent : current config history key with
      | none => rfl
      | some e =>
          obtain ⟨step, hstep, hlt⟩ := htracks.expired key e hcurrent fun he =>
            habsent e he (current_key hcurrent)
          exact (if_pos (Int.lt_of_lt_of_le hlt (hclock step hstep))).symm

end Steps

section Runs

variable {c : LRUQueryCache V} {entries : Recency V} {history : List (Step V)}

theorem LRUQueryCache.Represents.lookup_isSome (hrepresents : c.Represents entries)
    (key : String) : (c.cache.lookup key).isSome ↔ ∃ e ∈ entries, e.key = key := by
  obtain ⟨addresses, hshape, rfl⟩ := hrepresents
  rw [Option.isSome_iff_exists]
  constructor
  · rintro ⟨a, ha⟩
    obtain ⟨hmem, hkey⟩ := (hshape.entry key a).mp ha
    exact ⟨_, List.mem_map_of_mem hmem, hkey⟩
  · rintro ⟨e, he, hkey⟩
    obtain ⟨a, ha, rfl⟩ := List.mem_map.mp he
    exact ⟨a, (hshape.entry key a).mpr ⟨ha, hkey⟩⟩

theorem LRUQueryCache.Represents.follows (hrepresents : c.Represents entries)
    (henabled : c.config.enabled = true) (hlength : entries.length ≤ c.config.maxSize.toNat)
    (call : Call V) :
    Follows c.config entries (entries.perform c.config call.now call.action).1 (c.stepOf call) := by
  obtain ⟨hafter, hreply⟩ := hrepresents.perform call.now henabled hlength call.action
  exact ⟨Prod.ext rfl hreply.symm, hrepresents.lookup_isSome, hafter.lookup_isSome⟩

theorem LRUQueryCache.Represents.inOrder (hrepresents : c.Represents entries)
    (htracks : Tracks c.config entries history) : InOrder c history := by
  obtain ⟨addresses, hshape, rfl⟩ := hrepresents
  refine ⟨addresses, hshape.linked, ?_, hshape.entries_perm, List.pairwise_map.mp htracks.ordered⟩
  have hnull : null ∉ addresses := fun h => absurd (hshape.above null h).1 (by decide)
  have htail : tail ∉ addresses := fun h => lt_irrefl _ (hshape.above tail h).1
  refine List.nodup_cons.mpr ⟨?_, List.nodup_cons.mpr ⟨hshape.head_notMem, ?_⟩⟩
  · simpa [hnull] using (by decide : null ≠ head ∧ null ≠ tail)
  · exact hshape.nodup.append (List.nodup_singleton _) (List.disjoint_singleton.mpr htail)

variable (config : QueryCacheConfig)

theorem run_calls (calls : List (Call V)) : (run config calls).2.map Step.call = calls := by
  induction calls with
  | nil => rfl
  | cons call earlier ih => exact congrArg (call :: ·) ih

theorem run_config (calls : List (Call V)) :
    (run config calls).1.config = (newLRUQueryCache config : LRUQueryCache V).config := by
  induction calls with
  | nil => rfl
  | cons call earlier ih => exact (LRUQueryCache.perform_config _ _ _).trans ih

/-- Whatever the calls, the cache holds the entries that its history tells. -/
theorem run_tracks (henabled : config.enabled = true)
    (hmax : 1 ≤ (newLRUQueryCache config : LRUQueryCache V).config.maxSize)
    (calls : List (Call V)) :
    ∃ entries, (run config calls).1.Represents entries ∧
      Tracks (run config calls).1.config entries (run config calls).2 := by
  induction calls with
  | nil =>
      refine ⟨[], LRUQueryCache.newLRUQueryCache_represents config, List.Pairwise.nil,
        Nat.zero_le _, by simp, ?_⟩
      intro key e hcurrent
      cases hcurrent
  | cons call earlier ih =>
      obtain ⟨entries, hrepresents, htracks⟩ := ih
      have hconfig := run_config config earlier
      have henabled' : (run config earlier).1.config.enabled = true := hconfig ▸ henabled
      have hfollows := hrepresents.follows henabled' htracks.bounded call
      refine ⟨_, (hrepresents.perform call.now henabled' htracks.bounded call.action).1, ?_⟩
      have hkept : (run config (call :: earlier)).1.config = (run config earlier).1.config :=
        LRUQueryCache.perform_config _ _ _
      rw [hkept]
      exact htracks.next (hconfig ▸ hmax) hfollows

/-- After any calls the list and the map agree, the list is in the order of the last use and
not too long; and the next call evicts only from a full cache, and only the key used longest
ago, and gets what the latest `Set` stored if nothing has ended that. -/
theorem lruQueryCache_bounded_recency (henabled : config.enabled = true)
    (hmax : 1 ≤ (newLRUQueryCache config : LRUQueryCache V).config.maxSize)
    (calls : List (Call V)) :
    let c := (run config calls).1
    let history := (run config calls).2
    InOrder c history ∧ (c.size : Int) ≤ c.config.maxSize ∧
      ∀ call : Call V, (∀ earlier ∈ calls, earlier.now ≤ call.now) →
        (∀ key, (c.stepOf call).evicts key = true → (c.size : Int) = c.config.maxSize ∧
          ∀ other, (c.cache.lookup other).isSome → other ≠ key →
            lastUse history key < lastUse history other) ∧
        ∀ key, call.action = .get .live key →
          (c.stepOf call).reply = expected c.config history call.now key := by
  obtain ⟨entries, hrepresents, htracks⟩ := run_tracks config henabled hmax calls
  have hconfig := run_config config calls
  have henabled' : (run config calls).1.config.enabled = true := hconfig ▸ henabled
  have hmax' : 1 ≤ (run config calls).1.config.maxSize := hconfig ▸ hmax
  have hbounded := htracks.bounded
  have hsize := hrepresents.size_eq
  refine ⟨hrepresents.inOrder htracks, by omega, fun call hclock => ⟨fun key hevicts => ?_, ?_⟩⟩
  · have hfollows := hrepresents.follows henabled' hbounded call
    obtain ⟨hfull, hleast⟩ := htracks.evicted hmax' hfollows hevicts
    refine ⟨hsize ▸ hfull, fun other hother hne => ?_⟩
    obtain ⟨e, he, rfl⟩ := (hrepresents.lookup_isSome other).mp hother
    exact hleast e he hne
  · intro key haction
    have hreply := (hrepresents.perform call.now henabled' hbounded call.action).2
    refine hreply.trans ?_
    rw [haction]
    refine htracks.get_reply (fun step hstep => hclock step.call ?_) key
    rw [← run_calls config calls]
    exact List.mem_map_of_mem hstep

/-- A cache of one entry, with a `Set` of `a`. -/
def onePlace : QueryCacheConfig := ⟨true, 1, 0⟩

def storedA : List (Call Nat) := [⟨0, .set .live "a" (some 5) 0⟩]

/-- A `Set` of another key a second later evicts `a`; a `Get` instead finds it. -/
theorem onePlace_recency :
    ((run onePlace storedA).1.stepOf ⟨1000000000, .set .live "b" none 0⟩).evicts "a" = true ∧
      ((run onePlace storedA).1.size : Int) = (run onePlace storedA).1.config.maxSize ∧
      ((run onePlace storedA).1.stepOf ⟨1000000000, .get .live "a"⟩).reply =
        expected (run onePlace storedA).1.config (run onePlace storedA).2 1000000000 "a" ∧
      expected (run onePlace storedA).1.config (run onePlace storedA).2 1000000000 "a" =
        .hit (some 5) := by
  have hmap := lruQueryCache_bounded_recency onePlace rfl (by decide) storedA
  have hevicts : ((run onePlace storedA).1.stepOf
      ⟨1000000000, .set .live "b" none 0⟩).evicts "a" = true := by decide
  refine ⟨hevicts, ?_, ?_, by decide⟩
  · exact ((hmap.2.2 _ (by decide)).1 "a" hevicts).1
  · exact (hmap.2.2 ⟨1000000000, .get .live "a"⟩ (by decide)).2 "a" rfl

/-- The calls on the entries alone, and their replies, latest first. -/
def Recency.run (config : QueryCacheConfig) : List (Call V) → Recency V × List (Reply V)
  | [] => ([], [])
  | call :: earlier =>
    let (entries, replies) := Recency.run config earlier
    let (entries', reply) := entries.perform config call.now call.action
    (entries', reply :: replies)

/-- Whatever the calls and the order in which the map is gone through, map and list hold the entries
of the recency list and give its replies. -/
theorem run_refines_recency (henabled : config.enabled = true)
    (hmax : 1 ≤ (newLRUQueryCache config : LRUQueryCache V).config.maxSize)
    (calls : List (Call V)) :
    let spec := Recency.run (newLRUQueryCache config : LRUQueryCache V).config calls
    (run config calls).1.Represents spec.1 ∧
      (run config calls).2.map Step.reply = spec.2 := by
  induction calls with
  | nil => exact ⟨LRUQueryCache.newLRUQueryCache_represents config, rfl⟩
  | cons call earlier ih =>
      obtain ⟨hrepresents, hreplies⟩ := ih
      obtain ⟨entries, hentries, htracks⟩ := run_tracks config henabled hmax earlier
      have hbounded := htracks.bounded
      rw [← hentries.size_eq, hrepresents.size_eq] at hbounded
      have hconfig := run_config config earlier
      obtain ⟨hnext, hreply⟩ := hrepresents.perform call.now (hconfig ▸ henabled)
        hbounded call.action
      rw [hconfig] at hnext hreply
      exact ⟨hnext, congrArg₂ List.cons hreply hreplies⟩

/-- In a cache of two entries a hit saves `a` from the next eviction, and a sweep at the end
finds it expired. -/
def busyCalls : List (Call Nat) :=
  [⟨20, .cleanupExpired ⟨List.reverse, List.reverse_perm⟩⟩, ⟨3, .set .live "c" (some 7) 100⟩,
    ⟨2, .get .live "a"⟩, ⟨1, .set .live "b" (some 6) 100⟩, ⟨0, .set .live "a" (some 5) 10⟩]

theorem busyCalls_refines :
    (run ⟨true, 2, 0⟩ busyCalls.tail).1.Represents [⟨"c", some 7, 103⟩, ⟨"a", some 5, 10⟩] ∧
      (run ⟨true, 2, 0⟩ busyCalls).1.Represents [⟨"c", some 7, 103⟩] ∧
      (run ⟨true, 2, 0⟩ busyCalls).2.map Step.reply =
        [.done none, .done none, .hit (some 5), .done none, .done none] :=
  ⟨(run_refines_recency ⟨true, 2, 0⟩ rfl (by decide) busyCalls.tail).1,
    run_refines_recency ⟨true, 2, 0⟩ rfl (by decide) busyCalls⟩

end Runs

end QueryCache

end Aegion
