import ScriptGraph.Disk
import ScriptGraph.Graph
import ScriptGraph.Text.Blank

/-!
# Generating mods

A graph describes the folders and files of mods: each node for a mod makes a folder in a directory, and the nodes
after it write into that folder or make folders for the nodes after them. Names that would lead out of a folder are
changed or refused. Each visit counts, and a graph with a cycle of folders is stopped by the limit.
-/

namespace ScriptGraph.Generator

open Disk (Path)

/-- The labels of nodes that generate something. -/
inductive Recipe where
  | modFolder
  | folder
  | modInfo
  | blockFile
  | unitFile
  | itemFile
  | script
  deriving DecidableEq, Repr

/-- The recipe with a label. -/
def Recipe.ofLabel? : String → Option Recipe
  | "Create Mod Folder" => some modFolder
  | "Create Folder" => some folder
  | "Create mod.hjson" => some modInfo
  | "Create Block File" => some blockFile
  | "Create Unit File" => some unitFile
  | "Create Item File" => some itemFile
  | "Create Script" => some script
  | _ => none

/-- What was generated. -/
structure Report where
  /-- folders of mods -/
  mods : Array Path
  /-- all folders -/
  folders : Array Path
  /-- all files -/
  files : Array Path
  /-- the nodes that generated nothing, with the reason -/
  skipped : Array String
  deriving DecidableEq, Repr

/-- The disk, what was generated on it, and the number of visits. -/
structure Site where
  disk : Disk
  report : Report
  visits : Nat

namespace Site

/-- A disk on which nothing was generated. -/
def ofDisk (disk : Disk) : Site := ⟨disk, ⟨#[], #[], #[], #[]⟩, 0⟩

/-- Makes a folder in a directory that is there. -/
def makeFolder (s : Site) (path : Path) : Except ScriptError Unit × Site :=
  match s.disk.ensureDir path with
  | .ok disk => (.ok (), { s with disk, report := { s.report with folders := s.report.folders.push path } })
  | .error e => (.error e.error, s)

/-- Writes a file. -/
def writeFile (s : Site) (path : Path) (text : String) : Except ScriptError Unit × Site :=
  match s.disk.write path (.text text) with
  | .ok disk => (.ok (), { s with disk, report := { s.report with files := s.report.files.push path } })
  | .error e => (.error e.error, s)

/-- Passes over a node. -/
def skip (s : Site) (i : Nat) (n : Node Float32) (reason : String) : Site :=
  { s with
    report := { s.report with
      skipped := s.report.skipped.push (Graph.indexName i ++ " " ++ n.label ++ ": " ++ reason) } }

end Site

/-- The oldest version of the game that can read a mod. -/
def minGameVersion : Nat := 154

/-- A name for a file or folder: what leads to other folders is replaced, and what names no entry is refused. -/
def safeName? (name : String) : Option String :=
  let chars := (Text.trimChars name.toList).map fun c =>
    if c == '/' || c == '\\' || c == '\x00' || c == ':' then '_' else c
  if chars.all (· == '.') then none else some (String.ofList chars)

/-- Lines that give values to keys. -/
def settings (entries : List (String × String)) : String :=
  String.join (entries.map fun (key, value) => key ++ ": " ++ value ++ "\n")

/-- The file that a node writes: its name, if it can be used, and its text. -/
def fileOf (recipe : Recipe) (n : Node Float32) : Option String × String :=
  let input (i : Nat) : String := Text.trim (n.inputValue i)
  let named := (safeName? (input 0)).map (· ++ ".hjson")
  match recipe with
  | .modInfo =>
    (some "mod.hjson",
      settings [("name", input 0), ("displayName", input 1), ("author", input 2), ("description", input 3),
        ("version", input 4), ("minGameVersion", toString minGameVersion)])
  | .blockFile => (named, settings [("type", input 1), ("health", input 2), ("size", input 3)])
  | .unitFile => (named, settings [("type", input 1), ("health", input 2), ("speed", input 3)])
  | .itemFile => (named, settings [("color", input 1), ("cost", input 2)])
  | .script => (safeName? (input 0), n.inputValue 1)
  | .modFolder | .folder => (none, "")

/-- Why a name is refused. -/
def Recipe.refusal : Recipe → String
  | modFolder => "mod folders cannot nest"
  | folder => "invalid folder name"
  | script => "invalid script name"
  | _ => "invalid file name"

/-- What a node generates in a folder. A folder is the answer if the nodes after it write there. -/
def generateNode (i : Nat) (n : Node Float32) (folder : Path) (s : Site) : Except ScriptError (Option Path) × Site :=
  match Recipe.ofLabel? n.label with
  | none => (.ok none, s.skip i n "not a generator step")
  | some .modFolder => (.ok none, s.skip i n Recipe.modFolder.refusal)
  | some .folder =>
    match safeName? (n.inputValue 0) with
    | none => (.ok none, s.skip i n Recipe.folder.refusal)
    | some name =>
      let (answer, s) := s.makeFolder (folder ++ [name])
      (answer.map fun _ => some (folder ++ [name]), s)
  | some recipe =>
    match fileOf recipe n with
    | (none, _) => (.ok none, s.skip i n recipe.refusal)
    | (some name, text) =>
      let (answer, s) := s.writeFile (folder ++ [name]) text
      (answer.map fun _ => none, s)

/-- Counts a visit. -/
def visit (limit : Nat) (s : Site) : Except ScriptError Unit × Site :=
  let s := { s with visits := s.visits + 1 }
  (if limit < s.visits then .error (.runaway s.visits limit) else .ok (), s)

/-- The nodes after a node, each with the folder it writes to. -/
def children (g : Graph Float32) (i : Nat) (folder : Path) : List (Nat × Path) :=
  (g.successors i).map (·, folder)

/-- Visits nodes in folders. `fuel` is the number of visits that are left, and one more. -/
def generateAll (limit : Nat) (g : Graph Float32) (fuel : Nat) (stack : List (Nat × Path)) (s : Site) :
    Except ScriptError Unit × Site :=
  match fuel, stack with
  | _, [] => (.ok (), s)
  | 0, _ => (.error (.runaway (s.visits + 1) limit), s)
  | fuel + 1, (i, folder) :: stack =>
    match visit limit s with
    | (.error e, s) => (.error e, s)
    | (.ok (), s) =>
      match g.node? i with
      | none => generateAll limit g fuel stack s
      | some n =>
        match generateNode i n folder s with
        | (.error e, s) => (.error e, s)
        | (.ok none, s) => generateAll limit g fuel stack s
        | (.ok (some inner), s) => generateAll limit g fuel (children g i inner ++ stack) s

/-- Generates a mod in a directory: its folder, and what the nodes after it say. -/
def generateMod (limit : Nat) (g : Graph Float32) (root : Path) (i : Nat) (n : Node Float32) (s : Site) :
    Except ScriptError Unit × Site :=
  match safeName? (n.inputValue 0) with
  | none => (.ok (), s.skip i n "invalid mod name")
  | some name =>
    let folder := root ++ [name]
    match s.makeFolder folder with
    | (.error e, s) => (.error e, s)
    | (.ok (), s) =>
      let s := { s with report := { s.report with mods := s.report.mods.push folder } }
      generateAll limit g (limit - s.visits + 1) (children g i folder) s

/-- Generates mods one after the other, until one fails. -/
def generateMods (limit : Nat) (g : Graph Float32) (root : Path) :
    List (Nat × Node Float32) → Site → Except ScriptError Unit × Site
  | [], s => (.ok (), s)
  | (i, n) :: rest, s =>
    match generateMod limit g root i n s with
    | (.error e, s) => (.error e, s)
    | (.ok (), s) => generateMods limit g root rest s

/-- The nodes for mods. -/
def modNodes (g : Graph Float32) : List (Nat × Node Float32) :=
  g.indexed.filter fun (_, n) => Recipe.ofLabel? n.label = some .modFolder

/-- Generates all mods of a graph in a directory that is there. The answer comes with what was generated, also if it
is an error. -/
def generateIn (root : Path) (limit : Nat) (g : Graph Float32) (disk : Disk) : Except ScriptError Unit × Site :=
  generateMods limit g root (modNodes g) (.ofDisk disk)

/-- Generates all mods of a graph at the root of a disk. -/
def generate (limit : Nat) (g : Graph Float32) (disk : Disk) : Except ScriptError Report × Disk :=
  let (answer, s) := generateIn [] limit g disk
  (answer.map fun _ => s.report, s.disk)

end ScriptGraph.Generator
