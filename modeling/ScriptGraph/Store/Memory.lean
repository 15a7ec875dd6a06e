import Std.Data.TreeMap
import ScriptGraph.Store.Basic

/-!
# The store in memory

It keeps the texts of documents, so that loading goes through the same reading as from files.
-/

namespace ScriptGraph

/-- Documents by the names of their scripts. -/
structure MemoryStore where
  documents : Std.TreeMap String String

namespace MemoryStore

/-- A store without scripts. -/
def empty : MemoryStore := ⟨∅⟩

/-- Puts a text in place of the document of a script. -/
def insertRaw (name text : String) (s : MemoryStore) : Except ScriptError Unit × MemoryStore :=
  match ScriptStore.validateName name with
  | .error e => (.error e, s)
  | .ok () => (.ok (), ⟨s.documents.insert name text⟩)

instance : ScriptStore MemoryStore where
  save name g s := s.insertRaw name (Document.encode g)
  load fresh name s :=
    match s.documents[name]? with
    | none => (.error (ScriptStore.notFound name), s)
    | some text => (ScriptStore.decode fresh text, s)
  list s := (.ok s.documents.keys, s)
  delete name s := (.ok (s.documents.contains name), ⟨s.documents.erase name⟩)

end MemoryStore

end ScriptGraph
