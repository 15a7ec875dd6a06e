import ScriptGraph.Graph
import ScriptGraph.Text.Quoted

/-!
# Listings

A description of a graph for people: its nodes, one to a line, and then what comes after each of them.
-/

namespace ScriptGraph.Graph

private def nodeLine (i : Nat) (n : Node Float32) : String :=
  indexName i ++ " [" ++ n.id ++ "] " ++ n.label ++ " (kind: " ++ n.kind.name ++ ", value: " ++
    Text.quoted n.summary ++ ", at: " ++ wholeText (valueOfSingle n.position.x) ++ "," ++
    wholeText (valueOfSingle n.position.y) ++ ")"

private def targetText (g : Graph Float32) (t : Nat) : String :=
  indexName t ++ " " ++ (match g.node? t with
    | some n => n.label
    | none => "?")

private def structureLine (g : Graph Float32) (i : Nat) (n : Node Float32) : String :=
  indexName i ++ " " ++ n.label ++ " -> " ++
    if n.targets.isEmpty then "(end)" else String.intercalate ", " (n.targets.map (targetText g))

/-- The lines of the listing of a graph. -/
def listingLines (g : Graph Float32) : List String :=
  ["=== Node Graph ===",
    "Nodes: " ++ toString g.size ++ ", Edges: " ++ toString g.edgeCount,
    "",
    "--- Nodes ---"] ++
  g.indexed.map (fun (i, n) => nodeLine i n) ++
  ["", "--- Graph Structure ---"] ++
  g.indexed.map (fun (i, n) => structureLine g i n)

/-- The listing of a graph. -/
def listing (g : Graph Float32) : String :=
  String.intercalate "\n" g.listingLines

end ScriptGraph.Graph
