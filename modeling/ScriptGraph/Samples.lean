import ScriptGraph.Graph

/-!
# Samples

Small graphs to begin with. Identifiers of the nodes are given by their positions.
-/

namespace ScriptGraph.Samples

/-- Puts a node of the catalog with some values on top of a graph. -/
private def place (fresh : Nat → String) (label : String) (x y : Nat) (values : List String) (g : Graph Float32) :
    Graph Float32 :=
  let n := Node.ofTemplate (fresh g.size) label ⟨Float32.ofNat x, Float32.ofNat y⟩
  g.add (n.overlay values).2

/-- Connects nodes one after the other. -/
private def connectAll (edges : List (Nat × Nat)) (g : Graph Float32) : Graph Float32 :=
  edges.foldl (fun g (source, target) => (g.connect source target).2) g

/-- A greeting at the start. -/
def helloWorld (fresh : Nat → String) : Graph Float32 :=
  Graph.empty
    |> place fresh "On Start" 0 0 []
    |> place fresh "Message" 500 0 ["Hello from Studio!"]
    |> connectAll [(0, 1)]

/-- Three units at every wave. -/
def autoSpawn (fresh : Nat → String) : Graph Float32 :=
  let g := Graph.empty
    |> place fresh "On Wave" 0 0 []
    |> place fresh "Spawn Unit" 500 0 ["dagger", "3"]
  (g.modify 1 fun n => { n with summary := "dagger|3" }) |> connectAll [(0, 1)]

/-- A mod with one block. -/
def simpleMod (fresh : Nat → String) : Graph Float32 :=
  Graph.empty
    |> place fresh "Create Mod Folder" 0 0 ["mymod"]
    |> place fresh "Create mod.hjson" 500 0 ["mymod", "My First Mod", "YourName"]
    |> place fresh "Create Folder" 500 300 ["content"]
    |> place fresh "Create Folder" 1000 300 ["blocks"]
    |> place fresh "Create Block File" 1500 300 ["my-wall", "Wall", "500", "1"]
    |> connectAll [(0, 1), (0, 2), (2, 3), (3, 4)]

/-- The sample with a name. -/
def ofName? (fresh : Nat → String) : String → Option (Graph Float32)
  | "hello_world" => some (helloWorld fresh)
  | "auto_spawn" => some (autoSpawn fresh)
  | "simple_mod" => some (simpleMod fresh)
  | _ => none

end ScriptGraph.Samples
