import ScriptGraph.Chain
import ScriptGraph.Channel
import ScriptGraph.Registry
import ScriptGraph.Store.Backend
import ScriptGraph.Trigger

/-!
# Engines

An engine holds the loaded scripts, the store that they come from and the world that they act on. Triggers start
chains at the event nodes of the enabled scripts, and the host moves the clock for what waits.
-/

namespace ScriptGraph

/-- Summary of the chains that one trigger started. -/
structure TriggerReport where
  chains : Nat
  visits : Nat
  suspended : Nat
  aborted : Nat
  deriving DecidableEq, Repr

namespace TriggerReport

/-- The summary of no chain. -/
def zero : TriggerReport := ⟨0, 0, 0, 0⟩

/-- Counts a chain in. -/
def count (r : TriggerReport) : Except ScriptError ChainReport → TriggerReport
  | .ok chain =>
    { r with chains := r.chains + 1, visits := r.visits + chain.visits, suspended := r.suspended + chain.suspended }
  | .error _ => { r with chains := r.chains + 1, aborted := r.aborted + 1 }

end TriggerReport

/-- A place where a trigger starts a chain. -/
structure Start where
  script : Script
  index : Nat
  node : Node Float32

namespace World

/-- Tells that a trigger starts a chain, and runs it. -/
def begin (host : Host) (trigger : String) (s : Start) (w : World) : Except ScriptError ChainReport × World :=
  (w.emit s.script.name s.node.id (.started trigger)).execute host s.script s.index

/-- Starts chains one after the other. The trigger may depend on the start. -/
def beginAll (host : Host) (trigger : Start → String) (starts : List Start) (w : World) : TriggerReport × World :=
  starts.foldl
    (fun (report, w) s =>
      let (answer, w) := w.begin host (trigger s) s
      (report.count answer, w))
    (.zero, w)

/-- Lets the variables know what time it is. -/
def noteTime (w : World) : World :=
  { w with vars := w.vars.setNow w.timers.now }

/-- Lets time pass until nothing waits any longer. The answer is how many parts of chains were resumed. -/
def settle (host : Host) (w : World) : Nat × World :=
  let run (k : Continuation) (w : World) : World := w.noteTime.resume host k
  let (count, settled) := (Timers.sweep run (.ofNanos Duration.maxNanos) w.capacity w).getD (0, w)
  (count, Timers.setNow settled settled.vars.usage.now)

end World

/-- Who moves the clock. -/
inductive ClockKind where
  /-- the engine, when the host updates it -/
  | manual
  /-- the host, past the engine -/
  | external
  /-- time itself -/
  | wall
  deriving DecidableEq, Repr

/-- An engine over a store. -/
structure Engine (σ : Type) where
  config : Config
  host : Host
  clock : ClockKind
  registry : Registry
  store : σ
  world : World
  listeners : List Listener
  /-- how many nodes got an identifier from the engine -/
  minted : Nat

namespace Engine

variable {σ : Type}

/-- The name of scripts that are run from an editor. -/
def editorScript : String := "editor"

/-- The note for a graph from an editor that has no event nodes. -/
def noEventNodes : String := "No event nodes! Add 'On Start' or 'On Wave'."

/-- The limit that a configuration sets. A chain may always visit one node. -/
def limitOf (c : Config) : Nat := max c.maxVisits 1

/-- An engine without scripts. -/
def make (config : Config) (dispatch : List Call → Call → Except ScriptError Unit) (clock : ClockKind) (store : σ)
    (vars : Variables) : Engine σ :=
  { config
    host := ⟨limitOf config, dispatch⟩
    clock
    registry := .empty
    store
    world := .ofVariables vars
    listeners := []
    minted := 0 }

/-! ## Scripts -/

/-- Loads a script. -/
def addScript (e : Engine σ) (s : Script) : Engine σ :=
  { e with registry := e.registry.add s }

/-- Unloads a script and says whether it was loaded. -/
def removeScript (e : Engine σ) (name : String) : Bool × Engine σ :=
  let (found, registry) := e.registry.remove name
  (found, { e with registry })

/-- Enables or disables a script and says whether it is loaded. What it has left waiting goes on. -/
def setEnabled (e : Engine σ) (name : String) (enabled : Bool) : Bool × Engine σ :=
  let (found, registry) := e.registry.setEnabled name enabled
  (found, { e with registry })

variable [ScriptStore σ]

/-- Writes a graph to the store. -/
def saveScript (e : Engine σ) (name : String) (g : Graph Float32) : Except ScriptError Unit × Engine σ :=
  let (answer, store) := ScriptStore.save name g e.store
  (answer, { e with store })

/-- Loads a script from the store. `fresh` names the nodes that need an identifier. -/
def loadScript (fresh : Nat → String) (e : Engine σ) (name : String) : Except ScriptError Script × Engine σ :=
  let (answer, store) := ScriptStore.load (fun i => fresh (e.minted + i)) name e.store
  match answer with
  | .error err => (.error err, { e with store })
  | .ok g =>
    let s := Script.make name g
    (.ok s, { e with store, minted := e.minted + g.size, registry := e.registry.add s })

/-- Deletes a script from the store, and unloads it. The answer says whether it was in either place. -/
def deleteScript (e : Engine σ) (name : String) : Except ScriptError Bool × Engine σ :=
  let (answer, store) := ScriptStore.delete name e.store
  match answer with
  | .error err => (.error err, { e with store })
  | .ok existed =>
    let (loaded, e) := { e with store }.removeScript name
    (.ok (existed || loaded), e)

/-- Loads scripts one after the other, and counts those that could be loaded. -/
def loadEach (fresh : Nat → String) : List String → Engine σ → Nat × Engine σ
  | [], e => (0, e)
  | name :: rest, e =>
    let (answer, e) := loadScript fresh e name
    let (count, e) := loadEach fresh rest e
    (match answer with
      | .ok _ => count + 1
      | .error _ => count, e)

/-- Loads the scripts of the store in place of those that are loaded, and counts them. -/
def loadAllScripts (fresh : Nat → String) (e : Engine σ) : Except ScriptError Nat × Engine σ :=
  let (answer, store) := ScriptStore.list e.store
  match answer with
  | .error err => (.error err, { e with store })
  | .ok names =>
    let (count, e) := loadEach fresh names { e with store, registry := .empty }
    (.ok count, e)

omit [ScriptStore σ]

/-! ## Chains -/

/-- The places where a trigger starts chains. -/
def startsOf (e : Engine σ) (trigger : String) : List Start :=
  (e.registry.scripts.filter (·.enabled)).flatMap fun s =>
    (s.graph.events.filter fun (_, n) => Trigger.starts trigger n).map fun (i, n) => ⟨s, i, n⟩

/-- Fires a trigger. -/
def fire (e : Engine σ) (trigger : String) : TriggerReport × Engine σ :=
  let (report, world) := e.world.beginAll e.host (fun _ => trigger) (e.startsOf trigger)
  (report, { e with world })

/-- Runs every event node of a graph from an editor, each with its label as the trigger. -/
def runGraph (e : Engine σ) (g : Graph Float32) : TriggerReport × Engine σ :=
  let script := Script.make editorScript g
  match g.events with
  | [] => (.zero, { e with world := e.world.record (.note noEventNodes) })
  | events =>
    let (report, world) :=
      e.world.beginAll e.host (fun s => s.node.label) (events.map fun (i, n) => ⟨script, i, n⟩)
    (report, { e with world })

/-- Runs a chain from a node of a loaded script. -/
def runChain (e : Engine σ) (name : String) (start : Nat) : Option (Except ScriptError ChainReport) × Engine σ :=
  match e.registry.find? name with
  | none => (none, e)
  | some s =>
    let (answer, world) := e.world.execute e.host s start
    (some answer, { e with world })

/-- Changes the world and keeps a count. -/
def onWorld {α : Type} (e : Engine σ) (f : World → α × World) : α × Engine σ :=
  let (answer, world) := f e.world
  (answer, { e with world })

/-- The host reports that time has passed. A clock of the engine's own moves, and on any clock but one that the host
moves itself, what is due is resumed. -/
def update (e : Engine σ) (elapsed : Duration) : Nat × Engine σ :=
  match e.clock with
  | .manual => e.onWorld (World.advance e.host elapsed)
  | .wall => e.onWorld (World.advance e.host 0)
  | .external => (0, e)

/-- The host moves a clock of its own. -/
def hostAdvance (e : Engine σ) (elapsed : Duration) : Nat × Engine σ :=
  match e.clock with
  | .external => e.onWorld (World.advance e.host elapsed)
  | _ => (0, e)

/-- Updates until nothing waits. Time passes by itself on the wall only. -/
def drain (e : Engine σ) : Nat × Engine σ :=
  match e.clock with
  | .wall => e.onWorld (World.settle e.host)
  | _ => e.update 0

/-- The number of parts of chains that wait. -/
def pending (e : Engine σ) : Nat := e.world.pending

/-- The counts of a script. -/
def stats? (e : Engine σ) (script : String) : Option ScriptStats :=
  ScriptStats.ofTrace script e.world.trace.toList

/-! ## Listeners -/

/-- Adds a listener. -/
def listen (e : Engine σ) (l : Listener) : Engine σ :=
  { e with listeners := e.listeners ++ [l] }

/-- The number of listeners, the engine itself among them. -/
def subscribers (e : Engine σ) : Nat := e.listeners.length + 1

/-- The listeners that hear an event. -/
def hearing (e : Engine σ) (script node : String) (event : Event) : List Listener :=
  e.listeners.filter (·.hears script node event)

end Engine

end ScriptGraph
