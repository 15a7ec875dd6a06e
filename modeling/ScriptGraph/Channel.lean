import ScriptGraph.Glob
import ScriptGraph.Text.Quoted
import ScriptGraph.World

/-!
# Listeners

A listener hears the events of one topic whose script and node have names that match its globs. Listeners hear an
event in the order in which they joined. `ScriptStats` are the counts that can be read off a trace.
-/

namespace ScriptGraph

/-- What a listener wants to hear of. -/
inductive Topic where
  /-- everything -/
  | event
  | finish
  | abort
  | error
  | notify
  deriving DecidableEq, Repr

/-- Whether an event belongs to a topic. -/
def Topic.covers : Topic → Event → Bool
  | event, _ => true
  | finish, .finished _ => true
  | abort, .aborted _ => true
  | error, .failed _ => true
  | notify, .notified _ => true
  | _, _ => false

/-- A listener. -/
structure Listener where
  number : Nat
  topic : Topic
  script : Glob
  node : Glob

namespace Listener

/-- A listener for the scripts and nodes that two globs match. -/
def make (number : Nat) (topic : Topic) (script node : String) : Except ScriptError Listener :=
  match Glob.parse? script, Glob.parse? node with
  | some scriptGlob, some nodeGlob => .ok ⟨number, topic, scriptGlob, nodeGlob⟩
  | none, _ => .error (.config ("invalid channel pattern " ++ Text.quoted script))
  | _, none => .error (.config ("invalid channel pattern " ++ Text.quoted node))

/-- Whether a listener hears an event. -/
def hears (l : Listener) (script node : String) (e : Event) : Bool :=
  l.topic.covers e && l.script.accepts script && l.node.accepts node

end Listener

/-- The counts of one script. -/
structure ScriptStats where
  chains : Nat
  finished : Nat
  aborted : Nat
  suspended : Nat
  notifications : Nat
  failures : Nat
  deriving DecidableEq, Repr

namespace ScriptStats

/-- No counts. -/
def zero : ScriptStats := ⟨0, 0, 0, 0, 0, 0⟩

/-- Counts an event. -/
def count (s : ScriptStats) : Event → ScriptStats
  | .started _ => { s with chains := s.chains + 1 }
  | .finished _ => { s with finished := s.finished + 1 }
  | .aborted _ => { s with aborted := s.aborted + 1 }
  | .suspended _ => { s with suspended := s.suspended + 1 }
  | .notified _ => { s with notifications := s.notifications + 1 }
  | .failed _ => { s with failures := s.failures + 1 }
  | .resumed | .executed => s

/-- The events of a script in a trace. -/
def eventsOf (script : String) (trace : List Effect) : List Event :=
  trace.filterMap fun
    | .event name _ e => if name = script then some e else none
    | _ => none

/-- The counts of a script that had at least one event. -/
def ofTrace (script : String) (trace : List Effect) : Option ScriptStats :=
  match eventsOf script trace with
  | [] => none
  | events => some (events.foldl count zero)

end ScriptStats

end ScriptGraph
