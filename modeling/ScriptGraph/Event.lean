import ScriptGraph.Duration

/-!
# Events

What a running chain tells its listeners: how the chain itself goes on, and what happens at its nodes.
-/

namespace ScriptGraph

/-- Why a node failed. -/
inductive Failure where
  /-- the host refused an action -/
  | action (text : String)
  /-- a name that cannot be used -/
  | reference (text : String)
  deriving DecidableEq, Repr

/-- The wording of a failure. -/
def Failure.message : Failure → String
  | action text => "Action: " ++ text
  | reference text => "Reference: " ++ text

/-- Something that listeners hear of. -/
inductive Event where
  /-- a trigger starts a chain -/
  | started (trigger : String)
  /-- a part of a chain begins to wait -/
  | suspended (delay : Duration)
  /-- a part of a chain has waited long enough -/
  | resumed
  /-- a chain is stopped by its limit -/
  | aborted (reason : String)
  /-- a chain has nothing left to do -/
  | finished (visits : Nat)
  /-- a chain comes to a node -/
  | executed
  /-- a node shows a text -/
  | notified (text : String)
  /-- a node fails, and its chain goes on -/
  | failed (failure : Failure)
  deriving DecidableEq

namespace Event

/-- The name of an event. -/
def name : Event → String
  | started _ => "Started"
  | suspended _ => "Suspended"
  | resumed => "Resumed"
  | aborted _ => "Aborted"
  | finished _ => "Finished"
  | executed => "Executed"
  | notified _ => "Notified"
  | failed _ => "Failed"

end Event

end ScriptGraph
