import ScriptGraph.Color
import ScriptGraph.Text.Lowercase

/-!
# Templates

The catalog of the nodes that an editor offers. A template gives the kind and the color of a node and the inputs it
has, each with the value that it starts with. `Palette` groups templates for the two editors.
-/

namespace ScriptGraph

/-- What a node does when a chain comes to it. -/
inductive Kind where
  /-- starts a chain -/
  | event
  /-- calls the host -/
  | action
  /-- branches, repeats, waits or uses a variable -/
  | logic
  /-- holds a value -/
  | value
  /-- writes a part of a mod -/
  | mod
  /-- belongs to the host -/
  | custom (name : String)
  deriving DecidableEq, Repr

namespace Kind

/-- The name of a kind. -/
def name : Kind → String
  | event => "event"
  | action => "action"
  | logic => "logic"
  | value => "value"
  | mod => "mod"
  | custom name => name

/-- The kind with a name, which may be in any case and have blanks around it. A name that is not known is the kind of
some host, and stays as it is. -/
def ofName (s : String) : Kind :=
  match String.ofList ((Text.trimChars s.toList).map Text.asciiLower) with
  | "event" => event
  | "action" => action
  | "logic" => logic
  | "condition" => logic
  | "value" => value
  | "mod" => mod
  | _ => custom s

end Kind

/-- A field of a node. -/
structure Input where
  label : String
  value : String
  deriving DecidableEq, Repr

/-- The description of a kind of nodes. -/
structure Template where
  label : String
  kind : Kind
  color : Color
  inputs : List Input

namespace Template

/-- Every template. -/
def catalog : List Template := [
  ⟨"On Start", .event, .green, []⟩,
  ⟨"On Wave", .event, .green, []⟩,
  ⟨"On Build", .event, .green, []⟩,
  ⟨"On Unit Spawn", .event, .green, []⟩,
  ⟨"Message", .action, .blue, [⟨"Text", "Hello!"⟩]⟩,
  ⟨"Spawn Unit", .action, .blue,
    [⟨"Unit Type", "dagger"⟩, ⟨"Amount", "1"⟩, ⟨"Spawn Location", "core"⟩, ⟨"X Coordinate", "0"⟩,
      ⟨"Y Coordinate", "0"⟩]⟩,
  ⟨"Set Block", .action, .blue, [⟨"X", "10"⟩, ⟨"Y", "10"⟩, ⟨"Block Name", "copper-wall"⟩]⟩,
  ⟨"Wait", .logic, .orange, [⟨"Seconds", "1"⟩]⟩,
  ⟨"If", .logic, .orange, [⟨"Condition", "true"⟩]⟩,
  ⟨"Loop", .logic, .orange, [⟨"Count", "3"⟩]⟩,
  ⟨"Set Variable", .logic, .yellow, [⟨"Name", "x"⟩, ⟨"Value", "0"⟩]⟩,
  ⟨"Get Variable", .logic, .yellow, [⟨"Name", "x"⟩]⟩,
  ⟨"Number", .value, .purple, [⟨"Value", "0"⟩]⟩,
  ⟨"Text", .value, .purple, [⟨"Value", ""⟩]⟩,
  ⟨"Unit Type", .value, .purple, [⟨"Unit Name", "dagger"⟩]⟩,
  ⟨"Create Mod Folder", .mod, .cyan, [⟨"Mod Name", "mymod"⟩]⟩,
  ⟨"Create Folder", .mod, .sky, [⟨"Folder Name", "content"⟩]⟩,
  ⟨"Create mod.hjson", .mod, .royal,
    [⟨"Mod Name", "mymod"⟩, ⟨"Display Name", "My Mod"⟩, ⟨"Author", "YourName"⟩, ⟨"Description", "My custom mod"⟩,
      ⟨"Version", "1.0"⟩]⟩,
  ⟨"Create Block File", .mod, .pink,
    [⟨"Block Name", "my-block"⟩, ⟨"Block Type", "wall"⟩, ⟨"Health", "100"⟩, ⟨"Size", "1"⟩]⟩,
  ⟨"Create Unit File", .mod, .pink,
    [⟨"Unit Name", "my-unit"⟩, ⟨"Unit Type", "mech"⟩, ⟨"Health", "200"⟩, ⟨"Speed", "1.0"⟩]⟩,
  ⟨"Create Item File", .mod, .pink, [⟨"Item Name", "my-item"⟩, ⟨"Color (hex)", "ff0000"⟩, ⟨"Cost", "1"⟩]⟩,
  ⟨"Add Sprite", .mod, .gold, [⟨"Sprite Name", "my-sprite"⟩, ⟨"File Path", "sprites/my-sprite.png"⟩]⟩,
  ⟨"Create Script", .mod, .gold, [⟨"Script Name", "main.js"⟩, ⟨"Script Content", "// Your code here"⟩]⟩]

/-- The template with a label. -/
def find? (label : String) : Option Template :=
  catalog.find? (·.label == label)

/-- The inputs that a node with a label has, none if the label is not in the catalog. -/
def inputsOf (label : String) : List Input :=
  match find? label with
  | some template => template.inputs
  | none => []

end Template

/-- The editors: one for scripts of a game, one for the structure of a mod. -/
inductive Palette where
  | game
  | mod
  deriving DecidableEq, Repr

namespace Palette

/-- The name of a palette. -/
def name : Palette → String
  | game => "game"
  | mod => "mod"

/-- The palette with a name. -/
def ofName? : String → Option Palette
  | "game" => some game
  | "mod" => some mod
  | _ => none

/-- The labels that an editor offers. -/
def labels : Palette → List String
  | game => ["On Start", "On Wave", "On Build", "On Unit Spawn", "Message", "Spawn Unit", "Set Block", "Wait", "If",
      "Loop", "Set Variable", "Get Variable", "Number", "Text", "Unit Type"]
  | mod => ["Create Mod Folder", "Create Folder", "Create mod.hjson", "On Start", "On Build", "Create Block File",
      "Create Unit File", "Create Item File", "Add Sprite", "Create Script"]

/-- The templates that an editor offers. -/
def templates (p : Palette) : List Template :=
  p.labels.filterMap Template.find?

end Palette

end ScriptGraph
