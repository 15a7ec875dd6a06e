import Std.Data.TreeMap
import ScriptGraph.Error
import ScriptGraph.Text.Utf8

/-!
# Disks

Directories and files by their paths. A path lists the names from the root to the entry, so the entries in the order
of their paths are a walk through the tree, each directory before what is in it.
-/

namespace ScriptGraph

/-- What a file holds. -/
inductive Content where
  | text (text : String)
  /-- bytes that are not a text -/
  | binary (bytes : List Nat)
  deriving DecidableEq, Repr

namespace Content

/-- What some bytes are. -/
def ofBytes (bs : List Nat) : Content :=
  match Text.Utf8.text? bs with
  | some s => .text s
  | none => .binary bs

/-- What is shown of a file. -/
def shown : Content → String
  | text s => s
  | binary bs => Text.Utf8.textWithMarks bs

end Content

/-- What a path leads to. -/
inductive Entry where
  | directory
  | file (content : Content)
  deriving DecidableEq, Repr

/-- Entries by their paths; the root is always there and has none. -/
structure Disk where
  entries : Std.TreeMap (List String) Entry

namespace Disk

/-- A path. -/
abbrev Path := List String

/-- Why an access fails. -/
inductive Fault where
  /-- nothing is there -/
  | missing
  /-- something else is there, or the name cannot be used -/
  | refused
  deriving DecidableEq, Repr

/-- The error of a failed access. -/
def Fault.error : Fault → ScriptError
  | missing => .io "no such file or directory"
  | refused => .io "access refused"

/-- A disk with nothing on it. -/
def empty : Disk := ⟨∅⟩

/-- The most bytes that a name may have. -/
def maxNameBytes : Nat := 255

/-- The most bytes that a path may have below the root. -/
def maxPathBytes : Nat := 4067

/-- Bytes of a path, one for each slash between names. -/
def pathBytes (path : Path) : Nat :=
  path.foldr (fun name bytes => name.utf8ByteSize + 1 + bytes) 0 - 1

/-- Whether names can be used together: they are not too long for a path, and no NUL is in them. -/
def isUsable (names : List String) : Bool :=
  pathBytes names ≤ maxPathBytes && names.all fun name => !name.toList.contains '\x00'

/-- The entry at a path. -/
def entry? (d : Disk) : Path → Option Entry
  | [] => some .directory
  | path => d.entries[path]?

/-- The path to which names lead from a directory: `.` stays in a directory, and `..` goes up to the one that it is
in, but not out of the root. Neither of them names an entry at the end. -/
def walk (d : Disk) (path : Path) : List String → Except Fault Path
  | [] => .ok path
  | [name] => if name == "." || name == ".." then .error .refused else .ok (path ++ [name])
  | name :: rest =>
    if name == "." then d.walk path rest
    else if name == ".." then
      match d.entry? path with
      | some .directory => if path.isEmpty then .error .refused else d.walk path.dropLast rest
      | _ => .error .missing
    else d.walk (path ++ [name]) rest

/-- The path to which names lead from a directory, if they can be used. -/
def follow (d : Disk) (path : Path) (names : List String) : Except Fault Path :=
  if isUsable (path ++ names) then d.walk path names else .error .refused

/-- Looks for an entry. Its path must be usable, it must lie in a directory, and its name must not be too long. -/
def lookup (d : Disk) (path : Path) : Except Fault (Option Entry) :=
  if isUsable path then
    match d.entry? path.dropLast with
    | none => .error .missing
    | some (.file _) => .error .refused
    | some .directory =>
      if maxNameBytes < (path.getLastD "").utf8ByteSize then .error .refused else .ok (d.entry? path)
  else .error .refused

/-- Makes a directory where nothing is, in a directory that is there. -/
def makeDir (d : Disk) (path : Path) : Except Fault Disk :=
  match d.lookup path with
  | .error e => .error e
  | .ok none => .ok ⟨d.entries.insert path .directory⟩
  | .ok (some _) => .error .refused

/-- Makes a directory unless it is there. -/
def ensureDir (d : Disk) (path : Path) : Except Fault Disk :=
  match d.lookup path with
  | .error e => .error e
  | .ok none => .ok ⟨d.entries.insert path .directory⟩
  | .ok (some .directory) => .ok d
  | .ok (some (.file _)) => .error .refused

/-- Asks for a directory that is there. -/
def requireDir (d : Disk) (path : Path) : Except Fault Disk :=
  match d.lookup path with
  | .ok (some .directory) => .ok d
  | .ok _ => .error .missing
  | .error e => .error e

/-- Makes directories, each in the one before, as far as they are not there. The names may be `.` and `..`, but with a
`.` at the end the last directory must be there. What was made before a failure stays. -/
def makeDirsIn (d : Disk) (path : Path) : List String → Except Fault Unit × Disk
  | [] => (.ok (), d)
  | name :: rest =>
    if name == "." then d.makeDirsIn path rest
    else if name == ".." then
      if path.isEmpty then (.error .refused, d) else d.makeDirsIn path.dropLast rest
    else
      let path := path ++ [name]
      match if !rest.isEmpty && rest.all (· == ".") then d.requireDir path else d.ensureDir path with
      | .error e => (.error e, d)
      | .ok d => d.makeDirsIn path rest

/-- Makes the directory to which names lead from the root, and all directories on the way. -/
def makeDirs (d : Disk) (names : List String) : Except Fault Unit × Disk :=
  if isUsable names then d.makeDirsIn [] names else (.error .refused, d)

/-- Writes a file, in a directory that is there. -/
def write (d : Disk) (path : Path) (content : Content) : Except Fault Disk :=
  match d.lookup path with
  | .error e => .error e
  | .ok (some .directory) => .error .refused
  | .ok _ => .ok ⟨d.entries.insert path (.file content)⟩

/-- Reads a file. -/
def read (d : Disk) (path : Path) : Except Fault Content :=
  match d.lookup path with
  | .error e => .error e
  | .ok none => .error .missing
  | .ok (some .directory) => .error .refused
  | .ok (some (.file content)) => .ok content

/-- Removes a file. -/
def removeFile (d : Disk) (path : Path) : Except Fault Disk :=
  match d.lookup path with
  | .error e => .error e
  | .ok none => .error .missing
  | .ok (some .directory) => .error .refused
  | .ok (some (.file _)) => .ok ⟨d.entries.erase path⟩

/-- Removes a directory and all that is in it. -/
def removeDir (d : Disk) (path : Path) : Except Fault Disk :=
  match d.entry? path with
  | some .directory => .ok ⟨d.entries.filter fun p _ => !path.isPrefixOf p⟩
  | some (.file _) => .error .refused
  | none => .error .missing

/-- All entries, each directory before what is in it. -/
def toList (d : Disk) : List (Path × Entry) := d.entries.toList

/-- The names of the files in a directory, in rising order. -/
def fileNames (d : Disk) (path : Path) : Except Fault (List String) :=
  match d.entry? path with
  | some .directory =>
    .ok (d.toList.filterMap fun
      | (p, .file _) => if p.dropLast = path then p.getLast? else none
      | _ => none)
  | some (.file _) => .error .refused
  | none => .error .missing

end Disk

end ScriptGraph
