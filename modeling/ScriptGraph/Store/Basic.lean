import ScriptGraph.Document
import ScriptGraph.Text.Quoted

/-!
# Script stores

A store keeps the documents of scripts under their names. The operations may change the store even when they fail, so
each returns it anew.
-/

namespace ScriptGraph

/-- Stores of scripts. -/
class ScriptStore (σ : Type) where
  /-- writes a script, over one with the same name -/
  save : String → Graph Float32 → σ → Except ScriptError Unit × σ
  /-- reads a script, with fresh identifiers for nodes that need one -/
  load : (Nat → String) → String → σ → Except ScriptError (Graph Float32) × σ
  /-- the names of the scripts in rising order -/
  list : σ → Except ScriptError (List String) × σ
  /-- removes a script and says whether it was there -/
  delete : String → σ → Except ScriptError Bool × σ

namespace ScriptStore

/-- Whether a script may have a name. It must be a name for a file as well. -/
def isValidName (name : String) : Bool :=
  let trimmed := Text.trim name
  !(trimmed.isEmpty || trimmed == "." || trimmed == ".." ||
    name.toList.any fun c => c == '/' || c == '\\' || c == '\x00')

/-- Accepts the names that scripts may have. -/
def validateName (name : String) : Except ScriptError Unit :=
  if isValidName name then .ok () else .error (.store ("invalid script name " ++ Text.quoted name))

/-- The error of a script that is not there. -/
def notFound (name : String) : ScriptError := .notFound ("script " ++ name)

/-- The graph of a document. -/
def decode (fresh : Nat → String) (text : String) : Except ScriptError (Graph Float32) :=
  (Document.decode fresh text).map (·.1)

end ScriptStore

end ScriptGraph
