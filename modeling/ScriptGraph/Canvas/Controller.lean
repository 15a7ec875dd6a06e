import ScriptGraph.Canvas.Viewport
import ScriptGraph.Graph

/-!
# Canvas

Gestures of a pointer edit a graph in the way that the mode of the canvas says. The canvas holds no graph, only the
view and what the gestures have begun: a drag, or a connection that waits for its target.
-/

namespace ScriptGraph

/-- What a press on a node does. -/
inductive Mode where
  | move
  | inspect
  | connect
  | delete
  deriving DecidableEq, Repr

namespace Mode

/-- The name of a mode. -/
def name : Mode → String
  | move => "move"
  | inspect => "inspect"
  | connect => "connect"
  | delete => "delete"

/-- The mode with a name, the case of ASCII letters aside. -/
def ofName? (s : String) : Option Mode :=
  [move, inspect, connect, delete].find? fun m => Text.isSameIgnoringAsciiCase m.name s

end Mode

/-- What the pointer drags, and where it was last. -/
inductive Drag (S : Type) where
  | node (index : Nat) (last : Vec2 S)
  | view (last : Vec2 S)

/-- What a press does. -/
inductive Outcome (S : Type) where
  | nothing
  | panning
  | dragStarted (node : Nat)
  | inspected (node : Nat)
  | sourceSelected (node : Nat)
  | connected (source target : Nat)
  | alreadyConnected (source target : Nat)
  /-- a node cannot be connected to itself -/
  | rejected (node : Nat)
  | cancelled
  | deleted (node : Node S)

/-- A canvas. -/
structure Canvas (S : Type) where
  viewport : Viewport S
  mode : Mode
  hitMargin : S
  zoomStep : S
  buttonZoomStep : S
  drag : Option (Drag S)
  pending : Option Nat
  /-- what inspecting a node does to it -/
  edit : Option (Node S → Node S)

namespace Canvas

variable {S : Type} [Scalar S]

/-- A canvas on a screen. -/
def make (size : Vec2 S) (c : CanvasSettings S) : Canvas S :=
  { viewport := .make size c
    mode := .move
    hitMargin := c.hitMargin
    zoomStep := c.zoomStep
    buttonZoomStep := c.buttonZoomStep
    drag := none
    pending := none
    edit := none }

/-- Chooses a mode, and drops what gestures have begun. -/
def setMode (c : Canvas S) (mode : Mode) : Canvas S :=
  { c with mode, drag := none, pending := none }

/-- Chooses what inspecting does. -/
def onEdit (c : Canvas S) (edit : Node S → Node S) : Canvas S :=
  { c with edit := some edit }

/-- Whether the pointer drags something. -/
def isDragging (c : Canvas S) : Bool := c.drag.isSome

/-- Changes the size of the screen. -/
def resize (c : Canvas S) (size : Vec2 S) : Canvas S :=
  { c with viewport := { c.viewport with size } }

/-- Whether a point of the plane hits a node. -/
def hits (c : Canvas S) (n : Node S) (world : Vec2 S) : Bool :=
  (n.bounds.expand c.hitMargin).contains world

/-- The topmost node at a place on the screen. -/
def nodeAt (c : Canvas S) (g : Graph S) (screen : Vec2 S) : Option Nat :=
  (g.indexed.reverse.find? fun (_, n) => c.hits n (c.viewport.toWorld screen)).map (·.1)

/-- Puts a node of the catalog in the middle of the view. -/
def addNode (c : Canvas S) (g : Graph S) (id label : String) : Graph S :=
  g.addTemplate id label (-c.viewport.offset)

/-- Begins to move the view. -/
def beginPan (c : Canvas S) (screen : Vec2 S) : Outcome S × Canvas S :=
  (.panning, { c with drag := some (.view screen) })

/-- A press on a node while connecting: the first one selects the source and the second one the target. -/
def connectClick (c : Canvas S) (g : Graph S) (i : Nat) : Outcome S × Canvas S × Graph S :=
  match c.pending with
  | none => (.sourceSelected i, { c with pending := some i }, g)
  | some source =>
    if source = i then (.rejected i, c, g)
    else
      let c := { c with pending := none }
      match g.connect source i with
      | (.ok true, g) => (.connected source i, c, g)
      | (.ok false, g) => (.alreadyConnected source i, c, g)
      | (.error _, g) => (.cancelled, c, g)

/-- A press of the primary button. -/
def press (c : Canvas S) (g : Graph S) (screen : Vec2 S) : Outcome S × Canvas S × Graph S :=
  match c.nodeAt g screen with
  | some i =>
    match c.mode with
    | .move => (.dragStarted i, { c with drag := some (.node i screen) }, g)
    | .inspect =>
      (.inspected i, c,
        match c.edit with
        | some edit => g.modify i edit
        | none => g)
    | .connect => c.connectClick g i
    | .delete =>
      match g.remove i with
      | (some n, g) => (.deleted n, c, g)
      | (none, g) => (.nothing, c, g)
  | none =>
    match c.mode, c.pending with
    | .connect, some _ => (.cancelled, { c with pending := none }, g)
    | _, _ =>
      let (outcome, c) := c.beginPan screen
      (outcome, c, g)

/-- A press of the secondary button moves the view in every mode. -/
def pressSecondary (c : Canvas S) (g : Graph S) (screen : Vec2 S) : Outcome S × Canvas S × Graph S :=
  let (outcome, c) := c.beginPan screen
  (outcome, c, g)

/-- The pointer moves while a button is down. -/
def dragTo (c : Canvas S) (g : Graph S) (screen : Vec2 S) : Canvas S × Graph S :=
  match c.drag with
  | none => (c, g)
  | some (.node i last) =>
    if i < g.size then
      ({ c with drag := some (.node i screen) },
        g.modify i fun n => { n with position := n.position + (screen - last).shrink c.viewport.zoom })
    else ({ c with drag := none }, g)
  | some (.view last) =>
    ({ c with drag := some (.view screen), viewport := c.viewport.pan (screen - last) }, g)

/-- The button goes up. -/
def release (c : Canvas S) : Canvas S := { c with drag := none }

/-- Zooms at the pointer; a positive amount shows more of the plane. -/
def scroll (c : Canvas S) (screen : Vec2 S) (amount : S) : Canvas S :=
  { c with viewport := c.viewport.zoomAt screen (c.viewport.zoom - amount * c.zoomStep) }

/-- Zooms in at the middle. -/
def zoomIn (c : Canvas S) : Canvas S :=
  { c with viewport := c.viewport.zoomAt c.viewport.center (c.viewport.zoom + c.buttonZoomStep) }

/-- Zooms out at the middle. -/
def zoomOut (c : Canvas S) : Canvas S :=
  { c with viewport := c.viewport.zoomAt c.viewport.center (c.viewport.zoom - c.buttonZoomStep) }

/-- The lines on the screen that show the connections. -/
def segments (c : Canvas S) (g : Graph S) : List (Vec2 S × Vec2 S) :=
  g.edges.filterMap fun (source, target) =>
    match g.node? source, g.node? target with
    | some n, some m => some (c.viewport.toScreen n.outputAnchor, c.viewport.toScreen m.inputAnchor)
    | _, _ => none

end Canvas

end ScriptGraph
