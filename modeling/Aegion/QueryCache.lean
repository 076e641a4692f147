/-
The LRU cache of query results: a map from keys to the nodes of a doubly linked list between
two sentinels, most recently used first.  The list and the map stay in step through every
operation, and the cache refines a list of entries in the order of their last use.
-/
import Aegion.DoublyLinked
import Mathlib.Data.List.AList
import Mathlib.Order.Basic

namespace Aegion

namespace QueryCache

variable {V : Type}

/-- A context as `ValidateContext` sees it: nil, not yet ended, or ended with an error. -/
inductive Context where
  | absent
  | live
  | done (err : String)
deriving Repr, DecidableEq

def validateContext : Context → Option String
  | .absent => some "context is nil"
  | .live => none
  | .done err => some err

/-- Durations and times are in nanoseconds. -/
structure QueryCacheConfig where
  enabled : Bool
  maxSize : Int
  ttl : Int
deriving Repr, DecidableEq

structure CacheStats where
  hits : Nat
  misses : Nat
  evictions : Nat
deriving Repr, DecidableEq

/-- A node without its pointers; `none` is the nil value. -/
structure CacheNode (V : Type) where
  key : String
  value : Option V
  expiresAt : Int
deriving Repr, DecidableEq

/-- The node of a sentinel. -/
def CacheNode.zero : CacheNode V := ⟨"", none, 0⟩

def null : Nat := 0

def head : Nat := 1

def tail : Nat := 2

/-- The cache with the memory its nodes are in: `allocated` is the next free address. -/
structure LRUQueryCache (V : Type) where
  config : QueryCacheConfig
  cache : AList fun _ : String => Nat
  nodes : Nat → CacheNode V
  links : Links Nat
  allocated : Nat
  stats : CacheStats

def minute : Int := 60 * 1000000000

def newLRUQueryCache (config : QueryCacheConfig) : LRUQueryCache V where
  config :=
    { config with
      maxSize := if config.maxSize = 0 then 1000 else config.maxSize
      ttl := if config.ttl = 0 then 15 * minute else config.ttl }
  cache := ∅
  nodes := fun _ => CacheNode.zero
  links := (Links.setNext ⟨fun _ => null, fun _ => null⟩ head tail).setPrev tail head
  allocated := tail + 1
  stats := ⟨0, 0, 0⟩

/-- What the operations return; only `Get` returns a value. -/
inductive Reply (V : Type) where
  | got (value : Option V) (found : Bool) (err : Option String)
  | done (err : Option String)
deriving Repr, DecidableEq

def Reply.miss : Reply V := .got none false none

def Reply.hit (value : Option V) : Reply V := .got value true none

/-- An order in which a loop goes over the entries of the map. -/
structure RangeOrder where
  arrange : List (Σ _ : String, Nat) → List (Σ _ : String, Nat)
  perm : ∀ entries, (arrange entries).Perm entries

/-- A call of one of the operations that take the lock for writing. -/
inductive Action (V : Type) where
  | get (ctx : Context) (key : String)
  | set (ctx : Context) (key : String) (value : Option V) (ttl : Int)
  | delete (ctx : Context) (key : String)
  | clear (ctx : Context)
  | invalidatePattern (ctx : Context) (pattern : String) (order : RangeOrder)
  | cleanupExpired (order : RangeOrder)

def matchesPattern (key pattern : String) : Bool :=
  if pattern = "*" then true
  else decide (pattern.toList.length ≤ key.toList.length) &&
    key.toList.take pattern.toList.length == pattern.toList

namespace LRUQueryCache

variable (c : LRUQueryCache V)

def size : Nat := c.cache.entries.length

def removeNode (node : Nat) : LRUQueryCache V := { c with links := c.links.remove node }

def addNodeToHead (node : Nat) : LRUQueryCache V :=
  { c with links := c.links.insertAfter head node }

def moveToHead (node : Nat) : LRUQueryCache V := (c.removeNode node).addNodeToHead node

/-- `removeNode(node); delete(c.cache, key)`. -/
def drop (key : String) (node : Nat) : LRUQueryCache V :=
  let c := c.removeNode node
  { c with cache := c.cache.erase key }

def evictLRU : LRUQueryCache V :=
  let lruNode := c.links.prev tail
  if lruNode ≠ head then
    let c := c.drop (c.nodes lruNode).key lruNode
    { c with stats := { c.stats with evictions := c.stats.evictions + 1 } }
  else c

def get (now : Int) (ctx : Context) (key : String) : LRUQueryCache V × Reply V :=
  if c.config.enabled = false then (c, .miss)
  else match validateContext ctx with
    | some err => (c, .got none false (some err))
    | none => match c.cache.lookup key with
      | none => ({ c with stats := { c.stats with misses := c.stats.misses + 1 } }, .miss)
      | some node =>
        if (c.nodes node).expiresAt < now then
          let c := c.drop key node
          ({ c with stats := { c.stats with misses := c.stats.misses + 1 } }, .miss)
        else
          let c := c.moveToHead node
          ({ c with stats := { c.stats with hits := c.stats.hits + 1 } },
            .hit (c.nodes node).value)

/-- The branch of `Set` for a key in the map. -/
def update (node : Nat) (entry : CacheNode V) : LRUQueryCache V :=
  let stored := { c.nodes node with value := entry.value, expiresAt := entry.expiresAt }
  let c := { c with nodes := Function.update c.nodes node stored }
  c.moveToHead node

/-- The branch of `Set` for a new key. -/
def add (entry : CacheNode V) : LRUQueryCache V :=
  let newNode := c.allocated
  let c := { c with
    nodes := Function.update c.nodes newNode entry
    allocated := newNode + 1 }
  let c := c.addNodeToHead newNode
  { c with cache := c.cache.insert entry.key newNode }

/-- `if len(c.cache) > c.config.MaxSize` behind it. -/
def shrink : LRUQueryCache V := if (c.size : Int) > c.config.maxSize then c.evictLRU else c

def set (now : Int) (ctx : Context) (key : String) (value : Option V) (ttl : Int) :
    LRUQueryCache V × Reply V :=
  if c.config.enabled = false then (c, .done none)
  else match validateContext ctx with
    | some err => (c, .done (some err))
    | none =>
      if key = "" then (c, .done (some "cache key cannot be empty"))
      else
        let ttl := if ttl = 0 then c.config.ttl else ttl
        match c.cache.lookup key with
        | some node => (c.update node ⟨key, value, now + ttl⟩, .done none)
        | none => ((c.add ⟨key, value, now + ttl⟩).shrink, .done none)

def delete (ctx : Context) (key : String) : LRUQueryCache V × Reply V :=
  match validateContext ctx with
  | some err => (c, .done (some err))
  | none => match c.cache.lookup key with
    | some node => (c.drop key node, .done none)
    | none => (c, .done none)

def clear (ctx : Context) : LRUQueryCache V × Reply V :=
  match validateContext ctx with
  | some err => (c, .done (some err))
  | none =>
    ({ c with
        cache := ∅
        links := (c.links.setNext head tail).setPrev tail head
        stats := ⟨0, 0, 0⟩ }, .done none)

/-- The loop of `InvalidatePattern` and of `cleanupExpired` over the entries still to come. -/
def sweep (stale : String → CacheNode V → Bool) :
    List (Σ _ : String, Nat) → LRUQueryCache V → LRUQueryCache V
  | [], c => c
  | ⟨key, node⟩ :: rest, c =>
    sweep stale rest (if stale key (c.nodes node) then c.drop key node else c)

def invalidatePattern (ctx : Context) (pattern : String) (order : RangeOrder) :
    LRUQueryCache V × Reply V :=
  match validateContext ctx with
  | some err => (c, .done (some err))
  | none =>
    (sweep (fun key _ => matchesPattern key pattern) (order.arrange c.cache.entries) c,
      .done none)

def cleanupExpired (now : Int) (order : RangeOrder) : LRUQueryCache V :=
  sweep (fun _ node => decide (node.expiresAt < now)) (order.arrange c.cache.entries) c

def perform (now : Int) : Action V → LRUQueryCache V × Reply V
  | .get ctx key => c.get now ctx key
  | .set ctx key value ttl => c.set now ctx key value ttl
  | .delete ctx key => c.delete ctx key
  | .clear ctx => c.clear ctx
  | .invalidatePattern ctx pattern order => c.invalidatePattern ctx pattern order
  | .cleanupExpired order => (c.cleanupExpired now order, .done none)

/-- The addresses are those of the list from the head to the tail, and the map leads from
the key of each node to the node. -/
structure Shape (addresses : List Nat) : Prop where
  linked : c.links.Linked (head :: (addresses ++ [tail]))
  nodup : addresses.Nodup
  above : ∀ a ∈ addresses, tail < a ∧ a < c.allocated
  room : tail < c.allocated
  entry : ∀ key a, c.cache.lookup key = some a ↔ a ∈ addresses ∧ (c.nodes a).key = key

end LRUQueryCache

section Refinement

/-- The entries of a cache, most recently used first. -/
abbrev Recency (V : Type) := List (CacheNode V)

def Recency.without (entries : Recency V) (key : String) : Recency V :=
  entries.filter fun e => e.key ≠ key

/-- What the cache is for: a use brings an entry to the front, and a new entry in a full
cache takes the place of the last one. -/
def Recency.perform (config : QueryCacheConfig) (now : Int) (entries : Recency V) :
    Action V → Recency V × Reply V
  | .get ctx key => match validateContext ctx with
    | some err => (entries, .got none false (some err))
    | none => match entries.find? fun e => e.key = key with
      | none => (entries, .miss)
      | some e =>
        if e.expiresAt < now then (entries.without key, .miss)
        else (e :: entries.without key, .hit e.value)
  | .set ctx key value ttl => match validateContext ctx with
    | some err => (entries, .done (some err))
    | none =>
      if key = "" then (entries, .done (some "cache key cannot be empty"))
      else
        let expiresAt := now + if ttl = 0 then config.ttl else ttl
        ((⟨key, value, expiresAt⟩ :: entries.without key).take config.maxSize.toNat,
          .done none)
  | .delete ctx key => match validateContext ctx with
    | some err => (entries, .done (some err))
    | none => (entries.without key, .done none)
  | .clear ctx => match validateContext ctx with
    | some err => (entries, .done (some err))
    | none => ([], .done none)
  | .invalidatePattern ctx pattern _ => match validateContext ctx with
    | some err => (entries, .done (some err))
    | none => (entries.filter fun e => !matchesPattern e.key pattern, .done none)
  | .cleanupExpired _ => (entries.filter fun e => !decide (e.expiresAt < now), .done none)

namespace LRUQueryCache

variable {c : LRUQueryCache V} {addresses : List Nat} {key : String} {node : Nat}

/-- The cache holds these entries, in this order. -/
def Represents (c : LRUQueryCache V) (entries : Recency V) : Prop :=
  ∃ addresses, c.Shape addresses ∧ addresses.map c.nodes = entries

theorem Shape.head_notMem (hshape : c.Shape addresses) : head ∉ addresses ++ [tail] := by
  intro hmem
  rcases List.mem_append.mp hmem with hmem | hmem
  · exact absurd (hshape.above head hmem).1 (by decide)
  · exact absurd (List.mem_singleton.mp hmem) (by decide)

theorem Shape.ne_sentinel (hshape : c.Shape addresses) (hnode : node ∈ addresses) :
    node ≠ head ∧ node ≠ tail := by
  have habove := (hshape.above node hnode).1
  simp only [head, tail] at habove ⊢
  omega

/-- The list that is left when a node is unlinked. -/
theorem Shape.linked_remove (hshape : c.Shape addresses) (hnode : node ∈ addresses) :
    (c.links.remove node).Linked (head :: (addresses.erase node ++ [tail])) := by
  obtain ⟨hhead, htail⟩ := hshape.ne_sentinel hnode
  have hrest : node ∉ addresses.erase node := hshape.nodup.not_mem_erase
  obtain ⟨front, back, -, rfl, herase⟩ := List.exists_erase_eq hnode
  have hlinked := hshape.linked
  rw [herase] at hrest ⊢
  rw [List.append_assoc, List.cons_append] at hlinked
  rw [List.append_assoc]
  simp only [List.mem_append, not_or] at hrest
  have hnotMem : node ∉ (head :: front) ++ (back ++ [tail]) := by
    simp [hhead, htail, hrest.1, hrest.2]
  exact Links.Linked.remove hlinked (List.cons_ne_nil _ _) (by simp) hnotMem

theorem Shape.drop (hshape : c.Shape addresses) (hkey : c.cache.lookup key = some node) :
    (c.drop key node).Shape (addresses.erase node) := by
  obtain ⟨hnode, hnodeKey⟩ := (hshape.entry key node).mp hkey
  refine ⟨hshape.linked_remove hnode, hshape.nodup.erase node,
    fun a ha => hshape.above a (List.mem_of_mem_erase ha), hshape.room, fun other a => ?_⟩
  rw [hshape.nodup.mem_erase_iff]
  by_cases heq : other = key
  · subst heq
    have hnone : (c.drop other node).cache.lookup other = none := AList.lookup_erase _ _
    rw [hnone]
    constructor
    · intro h
      cases h
    · rintro ⟨⟨hne, ha⟩, hotherKey⟩
      have := (hshape.entry other a).mpr ⟨ha, hotherKey⟩
      exact absurd (Option.some.inj (this.symm.trans hkey)) hne
  · have hsame : (c.drop key node).cache.lookup other = c.cache.lookup other :=
      AList.lookup_erase_ne heq
    rw [hsame, hshape.entry other a]
    constructor
    · rintro ⟨ha, haKey⟩
      refine ⟨⟨?_, ha⟩, haKey⟩
      rintro rfl
      exact heq (haKey.symm.trans hnodeKey)
    · rintro ⟨⟨-, ha⟩, haKey⟩
      exact ⟨ha, haKey⟩

theorem Shape.moveToHead (hshape : c.Shape addresses) (hnode : node ∈ addresses) :
    (c.moveToHead node).Shape (node :: addresses.erase node) := by
  have hrest : node ∉ addresses.erase node := hshape.nodup.not_mem_erase
  obtain ⟨hhead, htail⟩ := hshape.ne_sentinel hnode
  have hmem : ∀ a, a ∈ node :: addresses.erase node ↔ a ∈ addresses := by
    intro a
    exact (List.perm_cons_erase hnode).symm.mem_iff
  refine ⟨?_, List.nodup_cons.mpr ⟨hrest, hshape.nodup.erase node⟩,
    fun a ha => hshape.above a ((hmem a).mp ha), hshape.room, fun other a => ?_⟩
  · refine (hshape.linked_remove hnode).insertAfter (by simp) ?_ ?_
    · intro h
      refine hshape.head_notMem ?_
      exact List.mem_append.mpr ((List.mem_append.mp h).imp_left List.mem_of_mem_erase)
    · simp [hhead, htail, hrest]
  · rw [hmem]
    exact hshape.entry other a

theorem Shape.update (hshape : c.Shape addresses) (hnode : node ∈ addresses) (entry : CacheNode V) :
    (c.update node entry).Shape (node :: addresses.erase node) := by
  refine Shape.moveToHead ⟨hshape.linked, hshape.nodup, hshape.above, hshape.room,
    fun other a => ?_⟩ hnode
  rw [hshape.entry other a]
  by_cases heq : a = node
  · subst heq
    simp
  · simp [Function.update_of_ne heq]

theorem Shape.add (hshape : c.Shape addresses) {entry : CacheNode V}
    (hkey : c.cache.lookup entry.key = none) : (c.add entry).Shape (c.allocated :: addresses) := by
  have hfresh : c.allocated ∉ addresses := fun h => lt_irrefl _ (hshape.above _ h).2
  have hroom := hshape.room
  have hold : ∀ a ∈ addresses, (c.add entry).nodes a = c.nodes a := fun a ha =>
    Function.update_of_ne (hshape.above a ha).2.ne _ _
  have hnew : (c.add entry).nodes c.allocated = entry := Function.update_self ..
  refine ⟨?_, List.nodup_cons.mpr ⟨hfresh, hshape.nodup⟩, ?_, Nat.lt_succ_of_lt hroom, ?_⟩
  · refine hshape.linked.insertAfter (by simp) hshape.head_notMem ?_
    simp only [List.mem_cons, List.mem_append, hfresh, List.not_mem_nil, or_false, false_or]
    simp only [head, tail] at hroom ⊢
    omega
  · intro a ha
    have hlt : a < c.allocated + 1 ∧ tail < a := by
      rcases List.mem_cons.mp ha with rfl | ha
      · exact ⟨Nat.lt_succ_self _, hroom⟩
      · exact ⟨Nat.lt_succ_of_lt (hshape.above a ha).2, (hshape.above a ha).1⟩
    exact ⟨hlt.2, hlt.1⟩
  · intro other a
    by_cases heq : other = entry.key
    · subst heq
      have hsome : (c.add entry).cache.lookup entry.key = some c.allocated :=
        AList.lookup_insert _
      rw [hsome]
      constructor
      · rintro ⟨⟩
        exact ⟨List.mem_cons_self, congrArg CacheNode.key hnew⟩
      · rintro ⟨ha, haKey⟩
        rcases List.mem_cons.mp ha with rfl | ha
        · rfl
        · rw [hold a ha] at haKey
          have := (hshape.entry entry.key a).mpr ⟨ha, haKey⟩
          exact absurd (hkey.symm.trans this) (by simp)
    · have hsame : (c.add entry).cache.lookup other = c.cache.lookup other :=
        AList.lookup_insert_ne heq
      rw [hsame, hshape.entry other a]
      constructor
      · rintro ⟨ha, haKey⟩
        exact ⟨List.mem_cons_of_mem _ ha, (congrArg CacheNode.key (hold a ha)).trans haKey⟩
      · rintro ⟨ha, haKey⟩
        rcases List.mem_cons.mp ha with rfl | ha
        · exact absurd (haKey.symm.trans (congrArg CacheNode.key hnew)) heq
        · exact ⟨ha, (congrArg CacheNode.key (hold a ha)).symm.trans haKey⟩

/-- Each entry of the map is the node of one place in the list, and the other way round. -/
theorem Shape.entries_perm (hshape : c.Shape addresses) :
    c.cache.entries.Perm (addresses.map fun a => ⟨(c.nodes a).key, a⟩) := by
  have hinjective : Function.Injective
      fun a => (⟨(c.nodes a).key, a⟩ : Σ _ : String, Nat) := fun a b hab => by
    simpa using congrArg Sigma.snd hab
  refine (List.perm_ext_iff_of_nodup c.cache.nodupKeys.nodup (hshape.nodup.map hinjective)).mpr ?_
  rintro ⟨key, a⟩
  rw [← AList.mem_lookup_iff, Option.mem_def, hshape.entry key a, List.mem_map]
  constructor
  · rintro ⟨ha, rfl⟩
    exact ⟨a, ha, rfl⟩
  · rintro ⟨b, hb, heq⟩
    obtain rfl : b = a := congrArg Sigma.snd heq
    exact ⟨hb, congrArg Sigma.fst heq⟩

theorem Shape.size_eq (hshape : c.Shape addresses) : c.size = addresses.length :=
  hshape.entries_perm.length_eq.trans (List.length_map _)

/-- What `evictLRU` unlinks is the last node of the list. -/
theorem Shape.evictLRU (hshape : c.Shape (addresses ++ [node])) : c.evictLRU.Shape addresses := by
  have hnode : node ∈ addresses ++ [node] := List.mem_append_right _ List.mem_cons_self
  have hprev : c.links.prev tail = node := by
    have hlinked := hshape.linked
    rw [List.append_assoc, List.singleton_append, ← List.cons_append] at hlinked
    exact (List.isChain_append_cons_cons.mp hlinked).2.1.2
  have hnotMem : node ∉ addresses := fun h =>
    (List.nodup_append.mp hshape.nodup).2.2 node h node List.mem_cons_self rfl
  have herase : (addresses ++ [node]).erase node = addresses := by
    rw [List.erase_append_right _ hnotMem]
    simp
  have hdrop := hshape.drop ((hshape.entry (c.nodes node).key node).mpr ⟨hnode, rfl⟩)
  rw [herase] at hdrop
  rw [LRUQueryCache.evictLRU, hprev, if_pos (hshape.ne_sentinel hnode).1]
  exact ⟨hdrop.linked, hdrop.nodup, hdrop.above, hdrop.room, hdrop.entry⟩

/-- The loop over entries of the map unlinks the stale nodes among them. -/
theorem Shape.sweep (stale : String → CacheNode V → Bool)
    (pending : List (Σ _ : String, Nat)) (hshape : c.Shape addresses)
    (hkeys : (pending.map Sigma.fst).Nodup)
    (hpending : ∀ e ∈ pending, c.cache.lookup e.1 = some e.2) :
    (sweep stale pending c).nodes = c.nodes ∧
      (sweep stale pending c).Shape (addresses.filter fun a =>
        !(decide (a ∈ pending.map Sigma.snd) && stale (c.nodes a).key (c.nodes a))) := by
  induction pending generalizing c addresses with
  | nil => simpa [LRUQueryCache.sweep] using hshape
  | cons e rest ih =>
      obtain ⟨key, node⟩ := e
      obtain ⟨hkey, hrestKeys⟩ := List.nodup_cons.mp hkeys
      have hlookup : c.cache.lookup key = some node := hpending _ List.mem_cons_self
      have hrest : ∀ e ∈ rest, c.cache.lookup e.1 = some e.2 := fun e he =>
        hpending e (List.mem_cons_of_mem _ he)
      obtain ⟨-, hnodeKey⟩ := (hshape.entry key node).mp hlookup
      rw [LRUQueryCache.sweep]
      by_cases hstale : stale key (c.nodes node) = true
      · rw [if_pos hstale]
        -- The entries still to come have other keys, so they stay in the map.
        have hdropped : ∀ e ∈ rest, (c.drop key node).cache.lookup e.1 = some e.2 := by
          intro e he
          have hne : e.1 ≠ key := fun heq => hkey (List.mem_map.mpr ⟨e, he, heq⟩)
          exact (AList.lookup_erase_ne hne).trans (hrest e he)
        obtain ⟨hnodes, hswept⟩ := ih (hshape.drop hlookup) hrestKeys hdropped
        refine ⟨hnodes, ?_⟩
        rw [hshape.nodup.erase_eq_filter, List.filter_filter] at hswept
        refine cast (congrArg _ (List.filter_congr fun a _ => ?_)) hswept
        have hsame : (c.drop key node).nodes = c.nodes := rfl
        by_cases heq : a = node
        · subst heq
          simp [hnodeKey, hstale]
        · rw [Bool.eq_iff_iff]
          simp [heq, hsame]
      · rw [if_neg hstale]
        obtain ⟨hnodes, hswept⟩ := ih hshape hrestKeys hrest
        refine ⟨hnodes, cast (congrArg _ (List.filter_congr fun a _ => ?_)) hswept⟩
        by_cases heq : a = node
        · subst heq
          simp [hnodeKey, hstale]
        · rw [Bool.eq_iff_iff]
          simp [heq]

/-- A whole loop, in any order, leaves the entries that are not stale. -/
theorem Represents.sweep {entries : Recency V} (hrepresents : c.Represents entries)
    (stale : String → CacheNode V → Bool) (order : RangeOrder) :
    (sweep stale (order.arrange c.cache.entries) c).Represents
      (entries.filter fun e => !stale e.key e) := by
  obtain ⟨addresses, hshape, rfl⟩ := hrepresents
  have hperm := order.perm c.cache.entries
  have hkeys : ((order.arrange c.cache.entries).map Sigma.fst).Nodup :=
    (hperm.map Sigma.fst).nodup_iff.mpr c.cache.nodupKeys
  obtain ⟨hnodes, hswept⟩ := hshape.sweep stale _ hkeys fun e he =>
    AList.mem_lookup_iff.mpr (hperm.mem_iff.mp he)
  refine ⟨_, hswept, ?_⟩
  rw [hnodes, List.filter_map]
  refine congrArg _ (List.filter_congr fun a ha => ?_)
  have hentry : (⟨(c.nodes a).key, a⟩ : Σ _ : String, Nat) ∈ c.cache.entries :=
    AList.mem_lookup_iff.mp ((hshape.entry _ a).mpr ⟨ha, rfl⟩)
  have hmem : a ∈ (order.arrange c.cache.entries).map Sigma.snd :=
    List.mem_map.mpr ⟨_, hperm.mem_iff.mpr hentry, rfl⟩
  simp [hmem]

variable {entries : Recency V}

theorem Shape.map_erase (hshape : c.Shape addresses) (hkey : c.cache.lookup key = some node) :
    (addresses.erase node).map c.nodes = Recency.without (addresses.map c.nodes) key := by
  rw [Recency.without, List.filter_map, hshape.nodup.erase_eq_filter]
  refine congrArg _ (List.filter_congr fun a ha => ?_)
  have hiff : a = node ↔ (c.nodes a).key = key := by
    constructor
    · rintro rfl
      exact ((hshape.entry key a).mp hkey).2
    · intro haKey
      exact Option.some.inj (((hshape.entry key a).mpr ⟨ha, haKey⟩).symm.trans hkey)
  rw [Bool.eq_iff_iff]
  simp [hiff]

theorem Shape.find_some (hshape : c.Shape addresses) (hkey : c.cache.lookup key = some node) :
    (addresses.map c.nodes).find? (fun e => e.key = key) = some (c.nodes node) := by
  obtain ⟨hnode, hnodeKey⟩ := (hshape.entry key node).mp hkey
  cases hfind : (addresses.map c.nodes).find? fun e => decide (e.key = key) with
  | none =>
      have hnone := List.find?_eq_none.mp hfind _ (List.mem_map_of_mem hnode)
      simp [hnodeKey] at hnone
  | some e =>
      have heKey : e.key = key := by simpa using List.find?_some hfind
      obtain ⟨a, ha, rfl⟩ := List.mem_map.mp (List.mem_of_find?_eq_some hfind)
      have := (hshape.entry key a).mpr ⟨ha, heKey⟩
      rw [Option.some.inj (this.symm.trans hkey)]

/-- A key that is not in the map is the key of no entry. -/
theorem Shape.key_ne (hshape : c.Shape addresses) (hkey : c.cache.lookup key = none) :
    ∀ e ∈ addresses.map c.nodes, e.key ≠ key := by
  intro e he heKey
  obtain ⟨a, ha, rfl⟩ := List.mem_map.mp he
  exact absurd (((hshape.entry key a).mpr ⟨ha, heKey⟩).symm.trans hkey) (by simp)

theorem Shape.find_none (hshape : c.Shape addresses) (hkey : c.cache.lookup key = none) :
    (addresses.map c.nodes).find? (fun e => e.key = key) = none :=
  List.find?_eq_none.mpr fun e he => by simpa using hshape.key_ne hkey e he

theorem Shape.without_eq (hshape : c.Shape addresses) (hkey : c.cache.lookup key = none) :
    Recency.without (addresses.map c.nodes) key = addresses.map c.nodes :=
  List.filter_eq_self.mpr fun e he => decide_eq_true (hshape.key_ne hkey e he)

theorem Represents.drop (hrepresents : c.Represents entries)
    (hkey : c.cache.lookup key = some node) :
    (c.drop key node).Represents (entries.without key) := by
  obtain ⟨addresses, hshape, rfl⟩ := hrepresents
  exact ⟨_, hshape.drop hkey, hshape.map_erase hkey⟩

theorem Represents.withStats (hrepresents : c.Represents entries) (stats : CacheStats) :
    { c with stats := stats }.Represents entries := by
  obtain ⟨addresses, hshape, hentries⟩ := hrepresents
  exact ⟨addresses, ⟨hshape.linked, hshape.nodup, hshape.above, hshape.room, hshape.entry⟩,
    hentries⟩

theorem linked_sentinels (links : Links Nat) :
    ((links.setNext head tail).setPrev tail head).Linked (head :: ([] ++ [tail])) :=
  List.isChain_cons_cons.mpr
    ⟨by simp [Links.Adjacent, Links.setNext, Links.setPrev], List.isChain_singleton _⟩

theorem newLRUQueryCache_represents (config : QueryCacheConfig) :
    (newLRUQueryCache config : LRUQueryCache V).Represents [] :=
  ⟨[], ⟨linked_sentinels _, List.nodup_nil, by simp, Nat.lt_succ_self tail,
    by simp [newLRUQueryCache]⟩, rfl⟩

section Calls

variable (hrepresents : c.Represents entries) (now : Int) (ctx : Context)
include hrepresents

theorem Represents.get (henabled : c.config.enabled = true) (key : String) :
    (c.get now ctx key).1.Represents (entries.perform c.config now (.get ctx key)).1 ∧
      (c.get now ctx key).2 = (entries.perform c.config now (.get ctx key)).2 := by
  rw [LRUQueryCache.get, if_neg (by simp [henabled]), Recency.perform]
  cases validateContext ctx with
  | some err => exact ⟨hrepresents, rfl⟩
  | none =>
      obtain ⟨addresses, hshape, rfl⟩ := hrepresents
      have hrepresents : c.Represents (addresses.map c.nodes) := ⟨addresses, hshape, rfl⟩
      cases hkey : c.cache.lookup key with
      | none =>
          rw [hshape.find_none hkey]
          exact ⟨hrepresents.withStats _, rfl⟩
      | some node =>
          rw [hshape.find_some hkey]
          dsimp only
          by_cases hexpired : (c.nodes node).expiresAt < now
          · rw [if_pos hexpired, if_pos hexpired]
            exact ⟨(hrepresents.drop hkey).withStats _, rfl⟩
          · rw [if_neg hexpired, if_neg hexpired]
            have hmoved : (c.moveToHead node).Represents
                (c.nodes node :: Recency.without (addresses.map c.nodes) key) :=
              ⟨_, hshape.moveToHead ((hshape.entry key node).mp hkey).1,
                congrArg (c.nodes node :: ·) (hshape.map_erase hkey)⟩
            exact ⟨hmoved.withStats _, rfl⟩

theorem Represents.update (hkey : c.cache.lookup key = some node) (value : Option V)
    (expiresAt : Int) :
    (c.update node ⟨key, value, expiresAt⟩).Represents
      (⟨key, value, expiresAt⟩ :: entries.without key) := by
  obtain ⟨addresses, hshape, rfl⟩ := hrepresents
  obtain ⟨hnode, hnodeKey⟩ := (hshape.entry key node).mp hkey
  refine ⟨_, hshape.update hnode _, ?_⟩
  rw [List.map_cons, ← hshape.map_erase hkey]
  congr 1
  · subst hnodeKey
    exact Function.update_self ..
  · refine List.map_congr_left fun a ha => Function.update_of_ne ?_ _ _
    exact fun heq => hshape.nodup.not_mem_erase (heq ▸ ha)

theorem Represents.add {entry : CacheNode V} (hkey : c.cache.lookup entry.key = none) :
    (c.add entry).Represents (entry :: entries) := by
  obtain ⟨addresses, hshape, rfl⟩ := hrepresents
  refine ⟨_, hshape.add hkey, ?_⟩
  rw [List.map_cons]
  congr 1
  · exact Function.update_self ..
  · exact List.map_congr_left fun a ha => Function.update_of_ne (hshape.above a ha).2.ne _ _

theorem Represents.size_eq : c.size = entries.length := by
  obtain ⟨addresses, hshape, rfl⟩ := hrepresents
  rw [hshape.size_eq, List.length_map]

theorem Represents.evictLRU (hentries : entries ≠ []) : c.evictLRU.Represents entries.dropLast := by
  obtain ⟨addresses, hshape, rfl⟩ := hrepresents
  obtain ⟨front, last, rfl⟩ := (List.eq_nil_or_concat addresses).resolve_left
    fun h => hentries (congrArg (List.map c.nodes) h)
  rw [List.concat_eq_append] at hshape ⊢
  have hnodes : c.evictLRU.nodes = c.nodes := by
    unfold LRUQueryCache.evictLRU
    dsimp only
    split <;> rfl
  refine ⟨front, hshape.evictLRU, ?_⟩
  rw [hnodes, List.map_append, List.map_singleton, List.dropLast_concat]

/-- At most one entry too many goes. -/
theorem Represents.shrink (hentries : entries ≠ [])
    (hlength : entries.length ≤ c.config.maxSize.toNat + 1) :
    c.shrink.Represents (entries.take c.config.maxSize.toNat) := by
  have hpos := List.length_pos_iff.mpr hentries
  rw [LRUQueryCache.shrink, hrepresents.size_eq]
  by_cases hfull : (entries.length : Int) > c.config.maxSize
  · rw [if_pos hfull]
    have htake : entries.dropLast = entries.take c.config.maxSize.toNat := by
      rw [List.dropLast_eq_take]
      congr 1
      omega
    exact htake ▸ hrepresents.evictLRU hentries
  · rw [if_neg hfull, List.take_of_length_le (by omega)]
    exact hrepresents

theorem Represents.set (henabled : c.config.enabled = true)
    (hlength : entries.length ≤ c.config.maxSize.toNat) (key : String) (value : Option V)
    (ttl : Int) :
    (c.set now ctx key value ttl).1.Represents
        (entries.perform c.config now (.set ctx key value ttl)).1 ∧
      (c.set now ctx key value ttl).2 =
        (entries.perform c.config now (.set ctx key value ttl)).2 := by
  rw [LRUQueryCache.set, if_neg (by simp [henabled]), Recency.perform]
  cases validateContext ctx with
  | some err => exact ⟨hrepresents, rfl⟩
  | none =>
      dsimp only
      by_cases hempty : key = ""
      · rw [if_pos hempty, if_pos hempty]
        exact ⟨hrepresents, rfl⟩
      · rw [if_neg hempty, if_neg hempty]
        generalize now + (if ttl = 0 then c.config.ttl else ttl) = expiresAt
        obtain ⟨addresses, hshape, rfl⟩ := id hrepresents
        cases hkey : c.cache.lookup key with
        | some node =>
            have hnode := ((hshape.entry key node).mp hkey).1
            have hpos := List.length_pos_of_mem hnode
            have hfits : (⟨key, value, expiresAt⟩ ::
                Recency.without (addresses.map c.nodes) key).length ≤ c.config.maxSize.toNat := by
              rw [List.length_cons, ← hshape.map_erase hkey, List.length_map,
                List.length_erase_of_mem hnode]
              rw [List.length_map] at hlength
              omega
            rw [List.take_of_length_le hfits]
            exact ⟨hrepresents.update hkey value expiresAt, rfl⟩
        | none =>
            rw [hshape.without_eq hkey]
            exact ⟨(hrepresents.add hkey).shrink (List.cons_ne_nil _ _)
              (Nat.succ_le_succ hlength), rfl⟩

theorem Represents.delete (key : String) :
    (c.delete ctx key).1.Represents (entries.perform c.config now (.delete ctx key)).1 ∧
      (c.delete ctx key).2 = (entries.perform c.config now (.delete ctx key)).2 := by
  rw [LRUQueryCache.delete, Recency.perform]
  cases validateContext ctx with
  | some err => exact ⟨hrepresents, rfl⟩
  | none =>
      dsimp only
      cases hkey : c.cache.lookup key with
      | some node => exact ⟨hrepresents.drop hkey, rfl⟩
      | none =>
          obtain ⟨addresses, hshape, rfl⟩ := id hrepresents
          rw [hshape.without_eq hkey]
          exact ⟨hrepresents, rfl⟩

theorem Represents.clear :
    (c.clear ctx).1.Represents (entries.perform c.config now (.clear ctx)).1 ∧
      (c.clear ctx).2 = (entries.perform c.config now (.clear ctx)).2 := by
  rw [LRUQueryCache.clear, Recency.perform]
  cases validateContext ctx with
  | some err => exact ⟨hrepresents, rfl⟩
  | none =>
      obtain ⟨addresses, hshape, rfl⟩ := hrepresents
      exact ⟨⟨[], ⟨linked_sentinels c.links, List.nodup_nil, by simp, hshape.room, by simp⟩,
        rfl⟩, rfl⟩

/-- Every call on the cache does what it does on the entries in the order of their use. -/
theorem Represents.perform (henabled : c.config.enabled = true)
    (hlength : entries.length ≤ c.config.maxSize.toNat) (action : Action V) :
    (c.perform now action).1.Represents (entries.perform c.config now action).1 ∧
      (c.perform now action).2 = (entries.perform c.config now action).2 := by
  cases action with
  | get ctx key => exact hrepresents.get now ctx henabled key
  | set ctx key value ttl => exact hrepresents.set now ctx henabled hlength key value ttl
  | delete ctx key => exact hrepresents.delete now ctx key
  | clear ctx => exact hrepresents.clear now ctx
  | invalidatePattern ctx pattern order =>
      rw [LRUQueryCache.perform, LRUQueryCache.invalidatePattern, Recency.perform]
      cases validateContext ctx with
      | some err => exact ⟨hrepresents, rfl⟩
      | none => exact ⟨hrepresents.sweep _ order, rfl⟩
  | cleanupExpired order => exact ⟨hrepresents.sweep _ order, rfl⟩

end Calls

theorem shrink_config (c : LRUQueryCache V) : c.shrink.config = c.config := by
  unfold shrink evictLRU
  dsimp only
  split <;> [split; rfl] <;> rfl

theorem sweep_config (stale : String → CacheNode V → Bool)
    (pending : List (Σ _ : String, Nat)) (c : LRUQueryCache V) :
    (sweep stale pending c).config = c.config := by
  induction pending generalizing c with
  | nil => rfl
  | cons e rest ih =>
      rw [sweep, ih]
      split <;> rfl

theorem perform_config (c : LRUQueryCache V) (now : Int) (action : Action V) :
    (c.perform now action).1.config = c.config := by
  cases action with
  | get ctx key =>
      simp only [perform, get]
      split <;> [rfl; split] <;> [rfl; split] <;> [rfl; split] <;> rfl
  | set ctx key value ttl =>
      simp only [perform, set]
      split <;> [rfl; split] <;> [rfl; split] <;> [rfl; split] <;> [rfl; exact shrink_config _]
  | delete ctx key =>
      simp only [perform, delete]
      split <;> [rfl; split] <;> rfl
  | clear ctx =>
      simp only [perform, clear]
      split <;> rfl
  | invalidatePattern ctx pattern order =>
      simp only [perform, invalidatePattern]
      split <;> [rfl; exact sweep_config ..]
  | cleanupExpired order => exact sweep_config ..

end LRUQueryCache

end Refinement

end QueryCache

end Aegion
