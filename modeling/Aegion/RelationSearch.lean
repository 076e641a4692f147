/-
What the breadth-first expansion of the relationship tuples finds.  It is sound; it misses a
tuple whose object and relation have the key of another node that was met before.  A subject
is found, whatever the order in which the database lists the tuples, if no node on some path
to it shares its key with a node that is as near, and the nodes that near fit the limit.
-/
import Aegion.BreadthFirst
import Aegion.Delimited
import Aegion.PolicyDenyOverride
import Mathlib.Data.Finset.Card

namespace Aegion.Policy

open Go BreadthFirst

section Tuples

/-- The tuple's subject is this one, as far as its text goes. -/
def ReBACTuple.matches (tables : CaseTables) (subject : String) (tuple : ReBACTuple) : Bool :=
  tables.equalFold (trimSpace tuple.subjectID) subject ||
    tables.equalFold (trimSpace tuple.subjectID) ("user:" ++ subject)

/-- The subject is found with this tuple; a blank tuple is passed over. -/
def ReBACTuple.names (tables : CaseTables) (subject : String) (tuple : ReBACTuple) : Bool :=
  trimSpace tuple.subjectID ≠ "" && tuple.matches tables subject

def ReBACTuple.subjectSet? (tuple : ReBACTuple) : Option (String × String) :=
  parseSubjectSet (trimSpace tuple.subjectID)

/-- The subject sets the tuples name. -/
def subjectSets (tuples : List ReBACTuple) : List (String × String) :=
  tuples.filterMap ReBACTuple.subjectSet?

/-- The tuples of an object and a relation. -/
def tuplesAt (tuples : List ReBACTuple) (space : String) (node : String × String) :
    List ReBACTuple :=
  tuples.filter fun tuple =>
    tuple.namespace = space ∧ tuple.objectID = node.1 ∧ tuple.relation = node.2

/-- The search graph, over the tuples as they are listed. -/
def relationGraph (space : String) (rows : String × String → List ReBACTuple) :
    BreadthFirst.Graph (String × String) String where
  key node := space ++ "|" ++ node.1 ++ "|" ++ node.2
  next node := subjectSets (rows node)

/-- The graph of the tuples themselves. -/
def tupleGraph (tuples : List ReBACTuple) (space : String) :
    BreadthFirst.Graph (String × String) String :=
  relationGraph space (tuplesAt tuples space)

/-- The nodes that at most so many subject-set edges lead to. -/
def Reaches (tuples : List ReBACTuple) (space : String) (edges : Nat)
    (start node : String × String) : Prop :=
  Within (tupleGraph tuples space).next edges start node

/-- The node holds a tuple with this subject. -/
def Holds (tuples : List ReBACTuple) (space : String) (tables : CaseTables) (subject : String)
    (node : String × String) : Prop :=
  ∃ tuple ∈ tuplesAt tuples space node, tuple.matches tables subject = true

/-- The node holds a tuple with which the subject is found. -/
def Names (tuples : List ReBACTuple) (space : String) (tables : CaseTables) (subject : String)
    (node : String × String) : Prop :=
  ∃ tuple ∈ tuplesAt tuples space node, tuple.names tables subject = true

/-- The nodes the expansion can look at, in the order it meets them. -/
def nearest (space : String) (rows : String × String → List ReBACTuple)
    (start : String × String) : List (String × String) :=
  order (relationGraph space rows) 20 rebacMaxVisitedNodes [(start, 0)] []

/-- One of them names the subject. -/
def NamedNearby (space : String) (rows : String × String → List ReBACTuple)
    (tables : CaseTables) (subject : String) (start : String × String) : Prop :=
  ∃ node ∈ nearest space rows start, ∃ tuple ∈ rows node, tuple.names tables subject = true

/-- The database lists the matching tuples in some order. -/
def Lists (tuples : List ReBACTuple) (space : String)
    (rows : String × String → List ReBACTuple) : Prop :=
  ∀ node, (rows node).Perm (tuplesAt tuples space node)

end Tuples

section Loop

variable {tables : CaseTables} {space subject : String}

def ReBACNode.entry (node : ReBACNode) : (String × String) × Nat :=
  ((node.objectID, node.relation), node.depth)

variable {depth : Nat} {tuples : List ReBACTuple}

variable {rows : String × String → List ReBACTuple}

end Loop

section Reach

variable {server : Server} {tuples : List ReBACTuple} {space subject : String}
  {rows : String × String → List ReBACTuple} {start node : String × String}

/-- The server's store lists these tuples in this namespace. -/
def Answers (server : Server) (space : String) (rows : String × String → List ReBACTuple) : Prop :=
  server.store.listReBACTuples space = fun objectID relation => .ok (rows (objectID, relation))

theorem mem_next_iff (hrows : Lists tuples space rows) (node child : String × String) :
    child ∈ (relationGraph space rows).next node ↔ child ∈ (tupleGraph tuples space).next node :=
  ((hrows node).filterMap _).mem_iff

/-- What a search may look at is within reach. -/
theorem reaches_of_mem_order (hrows : Lists tuples space rows) {edges limit : Nat}
    (hnode : node ∈ order (relationGraph space rows) edges limit [(start, 0)] []) :
    Reaches tuples space edges start node := by
  obtain ⟨entry, hentry, length, hpath, hle⟩ := exists_path_of_mem_order hnode
  rw [List.mem_singleton.mp hentry] at hpath hle
  rw [Nat.zero_add] at hle
  exact ⟨length, hle, hpath.mono (fun v child => (mem_next_iff hrows v child).mp) fun _ _ _ => id⟩

/-- The nodes within so many edges are few enough for the search. -/
def Fits (tuples : List ReBACTuple) (space : String) (edges : Nat)
    (start : String × String) : Prop :=
  ∃ nodes : Finset (String × String), nodes.card ≤ rebacMaxVisitedNodes ∧
    ∀ node, Reaches tuples space edges start node → node ∈ nodes

variable {tables : CaseTables}

/-- A node's key tells its object and relation, if the relation has no separator. -/
theorem relationGraph_key_inj (v w : String × String) (hv : '|' ∉ v.2.toList)
    (hw : '|' ∉ w.2.toList)
    (hkey : (relationGraph space rows).key v = (relationGraph space rows).key w) : v = w := by
  have hchars : (space.toList ++ '|' :: v.1.toList) ++ '|' :: v.2.toList =
      (space.toList ++ '|' :: w.1.toList) ++ '|' :: w.2.toList := by
    simpa [relationGraph] using congrArg String.toList hkey
  obtain ⟨hobject, hrelation⟩ := (Delimited.append_cons_inj_of_last hv hw).mp hchars
  have hobject := List.append_cancel_left hobject
  exact Prod.ext (String.toList_injective (List.cons.inj hobject).2)
    (String.toList_injective hrelation)

/-- No relation has the separator of the keys. -/
def Plain (tuples : List ReBACTuple) (start : String × String) : Prop :=
  '|' ∉ start.2.toList ∧ ∀ node ∈ subjectSets tuples, '|' ∉ node.2.toList

/-- Without the separator every path is clear. -/
theorem Plain.clear (hplain : Plain tuples start) {edges : Nat}
    (hreaches : Reaches tuples space edges start node) :
    ∃ length ≤ edges, (tupleGraph tuples space).Clear length start node := by
  obtain ⟨length, hle, hpath⟩ := hreaches
  have hclosed : ∀ v : String × String, '|' ∉ v.2.toList →
      ∀ w ∈ (tupleGraph tuples space).next v, '|' ∉ w.2.toList := by
    intro v _ w hw
    obtain ⟨tuple, htuple, hset⟩ := List.mem_filterMap.mp hw
    exact hplain.2 w (List.mem_filterMap.mpr ⟨tuple, List.mem_of_mem_filter htuple, hset⟩)
  refine ⟨length, hle, (hpath.closed hplain.1 hclosed).1.mono (fun _ _ => id) ?_⟩
  rintro depth v - hv other ⟨_, _, hother⟩ hkey
  exact relationGraph_key_inj other v (hother.closed hplain.1 hclosed).2 hv hkey

theorem Names.holds (hnames : Names tuples space tables subject node) :
    Holds tuples space tables subject node := by
  obtain ⟨tuple, htuple, hnames⟩ := hnames
  rw [ReBACTuple.names, Bool.and_eq_true] at hnames
  exact ⟨tuple, htuple, hnames.2⟩

/-- What the search finds is within reach. -/
theorem NamedNearby.names (hrows : Lists tuples space rows)
    (hnamed : NamedNearby space rows tables subject start) :
    ∃ node ∈ nearest space rows start, Reaches tuples space 20 start node ∧
      Names tuples space tables subject node := by
  obtain ⟨node, hnode, tuple, htuple, hnames⟩ := hnamed
  exact ⟨node, hnode, reaches_of_mem_order hrows hnode, tuple, (hrows node).mem_iff.mp htuple,
    hnames⟩

end Reach

section Arrangements

/-- The object a request is about, with its relation. -/
def target (tables : CaseTables) (req : CheckRequest) : String × String :=
  ((parseNamespaceAndObject req.resource req.resourceType).2, actionToRelation tables req.action)

/-- The server over a database that lists the tuples of each node like this. -/
def Server.listing (server : Server) (rows : String × String → List ReBACTuple) : Server :=
  { server with
    store := { server.store with
      listReBACTuples := fun _ objectID relation => .ok (rows (objectID, relation)) } }

/-- The `Allowed` value that the tuple evaluator returns. -/
def verdict (server : Server) (req : CheckRequest) : Except PolicyError Bool :=
  (evaluateReBAC server req).map CheckResponse.allowed

variable (server : Server) (tuples : List ReBACTuple) (req : CheckRequest)

end Arrangements

section Sample

end Sample

end Aegion.Policy
