import ScriptGraph.Geometry
import ScriptGraph.Template

/-!
# Nodes

A node has the inputs that the catalog gives to its label, and a summary that an editor shows. Changing the label
resets the inputs, and changing an input brings the summary up to date.
-/

namespace ScriptGraph

/-- A node of a graph. `targets` are the positions of the nodes that come after it. -/
structure Node (S : Type) where
  id : String
  kind : Kind
  position : Vec2 S
  size : Vec2 S
  color : Color
  label : String
  summary : String
  inputs : List Input
  targets : List Nat

namespace Node

variable {S : Type}

/-- The summary that belongs to the inputs: their values with bars between them, or the label of an event that has
none. -/
def currentSummary (n : Node S) : String :=
  if n.kind = .event && n.inputs.isEmpty then n.label
  else String.intercalate "|" (n.inputs.map (·.value))

/-- Brings the summary up to date. -/
def refresh (n : Node S) : Node S :=
  { n with summary := n.currentSummary }

/-- Changes the label, and with it the inputs. -/
def setLabel (n : Node S) (label : String) : Node S :=
  refresh { n with label, inputs := Template.inputsOf label }

/-- The value of an input, empty if there is no such input. -/
def inputValue (n : Node S) (i : Nat) : String :=
  match n.inputs[i]? with
  | some input => input.value
  | none => ""

/-- Writes an input. Without such an input nothing changes, and the answer is `false`. -/
def setInput (n : Node S) (i : Nat) (value : String) : Bool × Node S :=
  if i < n.inputs.length then
    (true, refresh { n with inputs := n.inputs.modify i fun input => { input with value } })
  else (false, n)

/-- Inputs with the given values in the first places. -/
def overlaid : List Input → List String → List Input
  | input :: inputs, value :: values => { input with value } :: overlaid inputs values
  | inputs, _ => inputs

/-- Writes the first inputs, as many as there are values for. The answer is how many were written. -/
def overlay (n : Node S) (values : List String) : Nat × Node S :=
  (min n.inputs.length values.length, refresh { n with inputs := overlaid n.inputs values })

/-- The area that a node covers. -/
def bounds (n : Node S) : Rect S := ⟨n.position, n.size⟩

variable [Scalar S]

/-- The size of a new node. -/
def defaultSize : Vec2 S := ⟨Scalar.ofNat 400, Scalar.ofNat 200⟩

/-- A node without connections, its inputs as the catalog has them. -/
def make (id : String) (kind : Kind) (label : String) (position : Vec2 S) (color : Color) : Node S :=
  setLabel
    { id, kind, position, size := defaultSize, color, label := "", summary := "", inputs := [], targets := [] } label

/-- A node of the catalog. A label that is not there gives a gray action without inputs. -/
def ofTemplate (id label : String) (position : Vec2 S) : Node S :=
  match Template.find? label with
  | some template => make id template.kind template.label position template.color
  | none => make id .action label position .gray

/-- The middle of the left side, where connections arrive. -/
def inputAnchor (n : Node S) : Vec2 S :=
  ⟨n.position.x, n.position.y + n.size.y / Scalar.ofNat 2⟩

/-- The middle of the right side, where connections leave. -/
def outputAnchor (n : Node S) : Vec2 S :=
  ⟨n.position.x + n.size.x, n.position.y + n.size.y / Scalar.ofNat 2⟩

end Node

end ScriptGraph
