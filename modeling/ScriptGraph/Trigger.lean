import ScriptGraph.Graph

/-!
# Triggers

A host fires triggers by name. The built-in ones have several names each; all names are compared in a canonical form
without blanks around it and in lower case.
-/

namespace ScriptGraph

/-- The triggers that every host knows. -/
inductive Trigger where
  | start
  | wave
  | build
  | unitSpawn
  deriving DecidableEq, Repr

namespace Trigger

/-- The label of the event node that a trigger starts. -/
def label : Trigger → String
  | start => "On Start"
  | wave => "On Wave"
  | build => "On Build"
  | unitSpawn => "On Unit Spawn"

/-- The names of a trigger. -/
def names : Trigger → List String
  | start => ["On Start", "start", "world-load", "world load", "worldload"]
  | wave => ["On Wave", "wave"]
  | build => ["On Build", "build", "block-build", "build-end"]
  | unitSpawn => ["On Unit Spawn", "unit-spawn", "unit spawn"]

/-- The trigger with a name, the case of ASCII letters aside. -/
def ofName? (name : String) : Option Trigger :=
  [start, wave, build, unitSpawn].find? fun t => t.names.any (Text.isSameIgnoringAsciiCase · name)

/-- The canonical form of a name. -/
def canonical (name : String) : String :=
  match ofName? (Text.trim name) with
  | some t => Text.lower t.label
  | none => Text.lower (Text.trim name)

/-- Whether a trigger with a name starts a node. -/
def starts (name : String) (n : Node Float32) : Bool :=
  n.kind = .event && (canonical n.label == canonical name || canonical n.summary == canonical name)

end Trigger

end ScriptGraph
