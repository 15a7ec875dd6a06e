import ScriptGraph.Error
import ScriptGraph.Node

/-!
# Graphs

A graph is a row of nodes, each with the positions of the nodes after it. The row is also the order of drawing, so the
last node lies on top. Cycles are allowed, connections of a node to itself are not.
-/

namespace ScriptGraph

/-- Nodes and their connections. -/
structure Graph (S : Type) where
  nodes : List (Node S)

namespace Graph

variable {S : Type}

/-- The graph without nodes. -/
def empty : Graph S := ⟨[]⟩

/-- The number of nodes. -/
def size (g : Graph S) : Nat := g.nodes.length

/-- The node at a position. -/
def node? (g : Graph S) (i : Nat) : Option (Node S) := g.nodes[i]?

/-- The nodes with their positions. -/
def indexed (g : Graph S) : List (Nat × Node S) :=
  g.nodes.zipIdx.map fun p => (p.2, p.1)

/-- Changes the node at a position. -/
def modify (g : Graph S) (i : Nat) (f : Node S → Node S) : Graph S :=
  ⟨g.nodes.modify i f⟩

/-- Puts a node on top, without the connections that it may have had elsewhere. It stands at the position `g.size`. -/
def add (g : Graph S) (n : Node S) : Graph S :=
  ⟨g.nodes ++ [{ n with targets := [] }]⟩

/-- The position of the first node with an identifier. -/
def indexOf? (g : Graph S) (id : String) : Option Nat :=
  g.nodes.findIdx? (·.id == id)

/-- The way a message names a position. -/
def indexName (i : Nat) : String := "#" ++ toString i

/-- Connects two nodes. The answer says whether the connection is new. -/
def connect (g : Graph S) (source target : Nat) : Except ScriptError Bool × Graph S :=
  if source = target then (.error (.node ("node " ++ indexName source ++ " cannot connect to itself")), g)
  else if g.size ≤ target then (.error (.notFound ("node " ++ indexName target)), g)
  else
    match g.nodes[source]? with
    | none => (.error (.notFound ("node " ++ indexName source)), g)
    | some n =>
      if n.targets.contains target then (.ok false, g)
      else (.ok true, g.modify source fun n => { n with targets := n.targets ++ [target] })

/-- Removes a connection. The answer says whether there was one. -/
def disconnect (g : Graph S) (source target : Nat) : Bool × Graph S :=
  match g.nodes[source]? with
  | none => (false, g)
  | some n =>
    (n.targets.contains target,
      g.modify source fun n => { n with targets := n.targets.filter (· != target) })

/-- The targets of a node once the node at a position is gone: the positions above it move down. -/
def targetsWithout (i : Nat) (targets : List Nat) : List Nat :=
  (targets.filter (· != i)).map fun t => if i < t then t - 1 else t

/-- Removes a node and all its connections. The answer is the node, now without connections. -/
def remove (g : Graph S) (i : Nat) : Option (Node S) × Graph S :=
  match g.nodes[i]? with
  | none => (none, g)
  | some n =>
    (some { n with targets := [] },
      ⟨(g.nodes.eraseIdx i).map fun n => { n with targets := targetsWithout i n.targets }⟩)

/-- The positions that come after a node, in the order they were connected. -/
def successors (g : Graph S) (i : Nat) : List Nat :=
  match g.nodes[i]? with
  | some n => n.targets
  | none => []

/-- The number of connections. -/
def edgeCount (g : Graph S) : Nat :=
  g.nodes.foldr (fun n count => n.targets.length + count) 0

/-- All connections, grouped by their source. -/
def edges (g : Graph S) : List (Nat × Nat) :=
  g.indexed.flatMap fun (i, n) => n.targets.map fun t => (i, t)

/-- The positions of the nodes that start chains. -/
def events (g : Graph S) : List (Nat × Node S) :=
  g.indexed.filter (·.2.kind = .event)

/-- Whether a chain can start anywhere. -/
def hasEvents (g : Graph S) : Bool :=
  g.nodes.any (·.kind = .event)

variable [Scalar S]

/-- Puts a node of the catalog on top. -/
def addTemplate (g : Graph S) (id label : String) (position : Vec2 S) : Graph S :=
  g.add (.ofTemplate id label position)

end Graph

/-- A graph with a name, which triggers start while it is enabled. -/
structure Script where
  name : String
  enabled : Bool
  graph : Graph Float32

namespace Script

/-- An enabled script. -/
def make (name : String) (graph : Graph Float32) : Script :=
  ⟨name, true, graph⟩

end Script

end ScriptGraph
