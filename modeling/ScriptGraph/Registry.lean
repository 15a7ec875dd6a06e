import ScriptGraph.Graph

/-!
# Registries

The loaded scripts by their names, in the order in which the names came.
-/

namespace ScriptGraph

/-- Loaded scripts. -/
structure Registry where
  scripts : List Script

namespace Registry

/-- No scripts. -/
def empty : Registry := ⟨[]⟩

/-- The script with a name. -/
def find? (r : Registry) (name : String) : Option Script :=
  r.scripts.find? (·.name == name)

/-- Puts a script in the place of the one with its name. -/
def replaced (s : Script) : List Script → List Script
  | [] => [s]
  | t :: rest => if t.name = s.name then s :: rest else t :: replaced s rest

/-- Adds a script, in the place of one with the same name or at the end. -/
def add (r : Registry) (s : Script) : Registry := ⟨replaced s r.scripts⟩

/-- Removes a script and says whether it was there. -/
def remove (r : Registry) (name : String) : Bool × Registry :=
  (r.scripts.any (·.name == name), ⟨r.scripts.filter (·.name != name)⟩)

/-- Enables or disables a script and says whether it is there. -/
def setEnabled (r : Registry) (name : String) (enabled : Bool) : Bool × Registry :=
  match r.find? name with
  | none => (false, r)
  | some s => (true, r.add { s with enabled })

end Registry

end ScriptGraph
