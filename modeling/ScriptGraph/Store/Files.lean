import ScriptGraph.Disk
import ScriptGraph.Store.Basic

/-!
# The store in a directory

Each script is a file in one directory, its name followed by an extension.
-/

namespace ScriptGraph

/-- A directory with scripts. -/
structure FileStore where
  disk : Disk
  directory : Disk.Path

namespace FileStore

/-- The extension of the files of scripts. -/
def extension : String := ".json"

/-- The path of a script. -/
def path (s : FileStore) (name : String) : Disk.Path :=
  s.directory ++ [name ++ extension]

/-- The script whose file has a name. -/
def scriptName? (fileName : String) : Option String :=
  let chars := fileName.toList
  let stem := chars.take (chars.length - extension.toList.length)
  if !stem.isEmpty && stem ++ extension.toList == chars then some (String.ofList stem) else none

/-- Opens the store in a directory, which is made if need be. -/
def create (disk : Disk) (directory : Disk.Path) : Except ScriptError FileStore :=
  match disk.makeDirs directory with
  | (.ok (), disk) => .ok ⟨disk, directory⟩
  | (.error _, _) => .error (.store ("failed to create " ++ Text.quoted (String.intercalate "/" directory)))

/-- Puts a disk in place if an access succeeded. -/
private def commit (s : FileStore) : Except Disk.Fault Disk → Except ScriptError Unit × FileStore
  | .ok disk => (.ok (), { s with disk })
  | .error e => (.error e.error, s)

/-- Writes the document of a script. -/
def save (name : String) (g : Graph Float32) (s : FileStore) : Except ScriptError Unit × FileStore :=
  match ScriptStore.validateName name with
  | .error e => (.error e, s)
  | .ok () => s.commit (s.disk.write (s.path name) (.text (Document.encode g)))

/-- Reads the document of a script. -/
def load (fresh : Nat → String) (name : String) (s : FileStore) : Except ScriptError (Graph Float32) :=
  match ScriptStore.validateName name with
  | .error e => .error e
  | .ok () =>
    match s.disk.read (s.path name) with
    | .ok (.text text) => ScriptStore.decode fresh text
    | .ok (.binary _) => .error (.io "the file holds no text")
    | .error .missing => .error (ScriptStore.notFound name)
    | .error e => .error e.error

/-- The names of the scripts in the directory. -/
def list (s : FileStore) : Except ScriptError (List String) :=
  match s.disk.fileNames s.directory with
  | .ok names => .ok ((names.filterMap scriptName?).mergeSort fun a b => decide (a ≤ b))
  | .error e => .error e.error

/-- Removes the file of a script. -/
def delete (name : String) (s : FileStore) : Except ScriptError Bool × FileStore :=
  match ScriptStore.validateName name with
  | .error e => (.error e, s)
  | .ok () =>
    match s.disk.removeFile (s.path name) with
    | .ok disk => (.ok true, { s with disk })
    | .error .missing => (.ok false, s)
    | .error e => (.error e.error, s)

instance : ScriptStore FileStore where
  save := save
  load fresh name s := (s.load fresh name, s)
  list s := (s.list, s)
  delete := delete

end FileStore

end ScriptGraph
