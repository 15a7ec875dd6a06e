import ScriptGraph.Config
import ScriptGraph.Store.Files
import ScriptGraph.Store.Memory

/-!
# The store that a configuration chooses
-/

namespace ScriptGraph

/-- A store of either kind. -/
inductive Backend where
  | memory (store : MemoryStore)
  | files (store : FileStore)

namespace Backend

/-- The names of the directories on the way that a text gives. -/
def pathOf (text : String) : Disk.Path :=
  ((text.splitOn "/").filter fun name => !name.isEmpty && name != ".")

/-- The store that a configuration asks for. -/
def ofConfig (c : Config) (disk : Disk) : Except ScriptError Backend :=
  match c.storeType with
  | .memory => .ok (.memory .empty)
  | .files => (FileStore.create disk (pathOf c.scriptsDir)).map .files

instance : ScriptStore Backend where
  save name g
    | memory s => (ScriptStore.save name g s).map id .memory
    | files s => (ScriptStore.save name g s).map id .files
  load fresh name
    | memory s => (ScriptStore.load fresh name s).map id .memory
    | files s => (ScriptStore.load fresh name s).map id .files
  list
    | memory s => (ScriptStore.list s).map id .memory
    | files s => (ScriptStore.list s).map id .files
  delete name
    | memory s => (ScriptStore.delete name s).map id .memory
    | files s => (ScriptStore.delete name s).map id .files

end Backend

end ScriptGraph
