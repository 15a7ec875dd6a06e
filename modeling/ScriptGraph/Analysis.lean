import Std.Data.TreeSet
import ScriptGraph.Graph

/-!
# Analysis of graphs

What an editor wants to know of a graph: where chains start, whether they can come back to a node, and which nodes no
chain ever reaches. `Graph.reach` collects the nodes that can be reached, by a depth-first search.
-/

namespace ScriptGraph

/-- A set of positions of nodes. -/
abbrev NodeSet := Std.TreeSet Nat

namespace Graph

variable {S : Type}

/-- The number of nodes of a graph that are not in a set. -/
def missing (g : Graph S) (seen : NodeSet) : Nat :=
  (List.range g.size).countP fun i => !seen.contains i

theorem missing_insert_lt (g : Graph S) (seen : NodeSet) {i : Nat} (hi : i < g.size) (h : seen.contains i = false) :
    g.missing (seen.insert i) < g.missing seen := by
  unfold missing
  have key : ∀ l : List Nat, i ∈ l →
      l.countP (fun j => !(seen.insert i).contains j) < l.countP (fun j => !seen.contains j) := by
    intro l hl
    obtain ⟨as, bs, rfl⟩ := List.append_of_mem hl
    have mono : ∀ l : List Nat,
        l.countP (fun j => !(seen.insert i).contains j) ≤ l.countP (fun j => !seen.contains j) := fun l =>
      List.countP_mono_left fun j _ hj => by
        simp only [Std.TreeSet.contains_insert, Bool.not_or, Bool.and_eq_true] at hj
        exact hj.2
    have h1 := mono as
    have h2 := mono bs
    simp only [List.countP_append, List.countP_cons, Std.TreeSet.contains_insert_self, h, Bool.not_true,
      Bool.not_false, if_true]
    simp only [Bool.false_eq_true, if_false]
    omega
  exact key _ (by simpa using hi)

/-- The nodes of a set, with those that can be reached from the nodes of a list without passing through the set. -/
def reach (g : Graph S) (seen : NodeSet) (starts : List Nat) : NodeSet :=
  match starts with
  | [] => seen
  | i :: rest =>
    if _h : i < g.size ∧ seen.contains i = false then g.reach (seen.insert i) (g.successors i ++ rest)
    else g.reach seen rest
termination_by (g.missing seen, starts.length)
decreasing_by
  · exact Prod.Lex.left _ _ (g.missing_insert_lt seen _h.1 _h.2)
  · exact Prod.Lex.right _ (by simp)

/-- Whether a chain can come back to a node. -/
def isCyclic (g : Graph S) : Bool :=
  (List.range g.size).any fun i => (g.reach ∅ (g.successors i)).contains i

/-- The nodes that no connection leads to. -/
def roots (g : Graph S) : List Nat :=
  let targets : NodeSet := .ofList (g.nodes.flatMap (·.targets))
  (List.range g.size).filter fun i => !targets.contains i

/-- The nodes that no event leads to. -/
def unreachable (g : Graph S) : List Nat :=
  let reached := g.reach ∅ (g.events.map (·.1))
  (List.range g.size).filter fun i => !reached.contains i

/-- The largest number of connections that leave one node. -/
def maxFanOut (g : Graph S) : Nat :=
  (g.nodes.map (·.targets.length)).foldl max 0

end Graph

/-- The structure of a graph. -/
structure Analysis where
  nodes : Nat
  edges : Nat
  cyclic : Bool
  entryPoints : List Nat
  roots : List Nat
  unreachable : List Nat
  maxFanOut : Nat
  deriving DecidableEq, Repr

namespace Analysis

/-- The structure of a graph. -/
def ofGraph {S : Type} (g : Graph S) : Analysis where
  nodes := g.size
  edges := g.edgeCount
  cyclic := g.isCyclic
  entryPoints := g.events.map (·.1)
  roots := g.roots
  unreachable := g.unreachable
  maxFanOut := g.maxFanOut

end Analysis

end ScriptGraph
