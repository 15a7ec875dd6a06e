import ScriptGraph.Condition
import ScriptGraph.Event
import ScriptGraph.Graph
import ScriptGraph.Interpolation
import ScriptGraph.Timers

/-!
# The world of running scripts

Everything that scripts act on: the shared variables, the clock with the parts of chains that wait, one meter for each
chain, and the trace of all that happened so far. `World.act` is what a single node does when a chain comes to it.
-/

namespace ScriptGraph

/-- An action that the host is asked for. -/
structure Call where
  label : String
  inputs : List Input
  deriving DecidableEq, Repr

/-- Everything that happens outside of a chain because of it, in the order in which it happens. -/
inductive Effect where
  /-- a text for the user -/
  | note (text : String)
  /-- an action of the host -/
  | call (call : Call)
  /-- a variable that is set -/
  | assign (name value : String)
  /-- an event at a node of a script -/
  | event (script node : String) (event : Event)
  deriving DecidableEq

/-- Where chains run: how many visits each may make, and how the host answers an action, given the actions that it was
asked for before, last one first. -/
structure Host where
  limit : Nat
  dispatch : List Call → Call → Except ScriptError Unit

/-- The count of the visits of a chain, over all of its parts. `live` counts the parts that run or wait. `visits`
grows by one for each visit and each refusal, so no run comes to the end of a machine word with it. -/
structure Meter where
  visits : Nat
  limit : Nat
  tripped : Bool
  live : Nat
  deriving DecidableEq, Repr

namespace Meter

/-- The meter of a chain that begins. -/
def start (limit : Nat) : Meter := ⟨0, limit, false, 1⟩

/-- A meter that allows nothing. -/
def exhausted : Meter := ⟨0, 0, true, 0⟩

/-- Counts a visit. It fails beyond the limit, and after the chain was stopped. -/
def charge (m : Meter) : Except ScriptError Unit × Meter :=
  let m := { m with visits := m.visits + 1 }
  (if m.limit < m.visits || m.tripped then .error (.runaway m.visits m.limit) else .ok (), m)

/-- The visits that were allowed. -/
def spent (m : Meter) : Nat := min m.visits m.limit

/-- The visits that are left. -/
def left (m : Meter) : Nat := m.limit - m.visits

/-- A meter after a part of its chain more waits. -/
def opened (m : Meter) : Meter := { m with live := m.live + 1 }

/-- A meter after a part of its chain ended. -/
def closed (m : Meter) : Meter := { m with live := m.live - 1 }

end Meter

/-- The rest of a chain behind a node that waits. -/
structure Continuation where
  chain : Nat
  script : Script
  node : String
  rest : List Nat

/-- What scripts act on. -/
structure World where
  vars : Variables
  timers : Timers Continuation
  meters : List Meter
  calls : List Call
  trace : Array Effect

instance : Clocked World Continuation where
  timers := World.timers
  withTimers w timers := { w with timers }
  timers_withTimers _ _ := rfl

namespace World

/-- A world in which nothing has happened. -/
def ofVariables (vars : Variables) : World := ⟨vars, .start, [], [], #[]⟩

/-- Writes down an effect. -/
def record (w : World) (e : Effect) : World :=
  { w with trace := w.trace.push e }

/-- Tells listeners of an event. -/
def emit (w : World) (script node : String) (e : Event) : World :=
  w.record (.event script node e)

/-- The number of parts of chains that wait. -/
def pending (w : World) : Nat := w.timers.size

/-- The meter of a chain. -/
def meter (w : World) (chain : Nat) : Meter := w.meters.getD chain .exhausted

/-- Puts back the meter of a chain. -/
def setMeter (w : World) (chain : Nat) (m : Meter) : World :=
  { w with meters := w.meters.set chain m }

/-- Shows a text of a node. -/
def notify (w : World) (script node text : String) : World :=
  (w.record (.note text)).emit script node (.notified text)

/-- Sets a variable. -/
def assign (w : World) (name value : String) : World :=
  { w.record (.assign name value) with vars := w.vars.set name value }

/-- Writes down lookups of variables. -/
def noteLookups (names : List String) (w : World) : World :=
  { w with vars := names.foldl Variables.noteLookup w.vars }

/-- Asks the host for an action. -/
def call (host : Host) (c : Call) (w : World) : Except ScriptError Unit × World :=
  (host.dispatch w.calls c, { w.record (.call c) with calls := c :: w.calls })

end World

/-- The labels of nodes that steer a chain. -/
inductive LogicOp where
  | wait
  | branch
  | loop
  | setVariable
  | getVariable
  deriving DecidableEq, Repr

namespace LogicOp

/-- The label of an operation. -/
def label : LogicOp → String
  | wait => "Wait"
  | branch => "If"
  | loop => "Loop"
  | setVariable => "Set Variable"
  | getVariable => "Get Variable"

/-- The operation with a label. -/
def ofLabel? : String → Option LogicOp
  | "Wait" => some wait
  | "If" => some branch
  | "Loop" => some loop
  | "Set Variable" => some setVariable
  | "Get Variable" => some getVariable
  | _ => none

end LogicOp

/-- How a chain goes on behind a node. -/
inductive Turn where
  /-- to all nodes after it -/
  | onward
  /-- not at all -/
  | stop
  /-- several times to all nodes after it -/
  | again (count : Nat)
  /-- later to all nodes after it -/
  | later (delay : Duration)
  deriving DecidableEq

namespace World

/-- The text that a message without inputs shows. -/
def defaultMessage : String := "Hello!"

/-- The text shown for a variable that is not set. -/
def undefinedValue : String := "undefined"

/-- Carries out an action: a message is shown, and the host is asked for everything else. -/
def runAction (host : Host) (script : String) (n : Node Float32) (w : World) : World :=
  if n.label == "Message" then
    match n.inputs with
    | input :: _ =>
      (w.noteLookups (Interpolation.names input.value)).notify script n.id
        (Interpolation.interpolate w.vars input.value)
    | [] => w.notify script n.id defaultMessage
  else
    let inputs := Interpolation.interpolateInputs w.vars n.inputs
    match (w.noteLookups (Interpolation.namesOfInputs n.inputs)).call host ⟨n.label, inputs⟩ with
    | (.ok (), w) => w
    | (.error e, w) =>
      (w.record (.note (n.label ++ " failed: " ++ e.message))).emit script n.id (.failed (.action e.message))

/-- Carries out an operation of logic. -/
def runLogic (script : String) (n : Node Float32) (w : World) : Turn × World :=
  match LogicOp.ofLabel? n.label with
  | none => (.stop, w)
  | some .wait =>
    match Reading.seconds (n.inputValue 0) with
    | some delay => (.later delay, w)
    | none => (.onward, w)
  | some .branch =>
    let condition := Condition.parse (n.inputValue 0)
    (if condition.holds w.vars then .onward else .stop, w.noteLookups condition.names)
  | some .loop => (.again (Reading.count (n.inputValue 0)), w)
  | some .setVariable =>
    let name := Text.trim (n.inputValue 0)
    if name.isEmpty then (.onward, w.emit script n.id (.failed (.reference "empty variable name")))
    else
      let value := Interpolation.interpolate w.vars (n.inputValue 1)
      (.onward, (w.noteLookups (Interpolation.names (n.inputValue 1))).assign name value)
  | some .getVariable =>
    let name := Text.trim (n.inputValue 0)
    let text := name ++ " = " ++ w.vars.getOr name undefinedValue
    (.onward, (w.noteLookups [name]).notify script n.id text)

/-- What a node does when a chain comes to it, and how the chain goes on. -/
def act (host : Host) (script : String) (n : Node Float32) (w : World) : Turn × World :=
  let w := w.emit script n.id .executed
  match n.kind with
  | .event => (.onward, w)
  | .action => (.onward, w.runAction host script n)
  | .logic => w.runLogic script n
  | .value | .mod | .custom _ => (.stop, w)

end World

end ScriptGraph
