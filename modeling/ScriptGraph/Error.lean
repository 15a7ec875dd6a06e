/-!
# Errors

What can go wrong, by cause. `ScriptError.message` has the wording that hosts show to users.
-/

namespace ScriptGraph

/-- A failure that a caller gets to see. -/
inductive ScriptError where
  /-- a configuration that is not valid -/
  | config (text : String)
  /-- a text that is not in the format it should have -/
  | codec (text : String)
  /-- a document without any node -/
  | noNodes
  /-- a script store that refuses a request -/
  | store (text : String)
  /-- a script or node that does not exist -/
  | notFound (what : String)
  /-- a node that cannot be used as asked -/
  | node (text : String)
  /-- an action of the host that failed -/
  | action (text : String)
  /-- a chain that visited more nodes than its limit allows -/
  | runaway (visits limit : Nat)
  /-- a failure of the surroundings -/
  | runtime (text : String)
  /-- a failed access to files -/
  | io (text : String)
  /-- a queue that takes no more work -/
  | queue (text : String)
  deriving DecidableEq, Repr

namespace ScriptError

/-- The wording of an error. -/
def message : ScriptError → String
  | config text => text
  | codec text => text
  | noNodes => "no nodes found"
  | store text => text
  | notFound what => what ++ " not found"
  | node text => text
  | action text => text
  | runaway visits limit =>
    "runaway chain: " ++ toString visits ++ " node visits exceeded the limit of " ++ toString limit
  | runtime text => text
  | io text => text
  | queue text => text

/-- The error of bytes that are not a text. -/
def notText : ScriptError := .codec "Error with utf-8 string convert"

end ScriptError

end ScriptGraph
