import ScriptGraph.Canvas.Settings
import ScriptGraph.Error
import ScriptGraph.Toml.Parser

/-!
# Configuration

The settings of an engine and of a canvas, read from a TOML document. Every setting has a value of its own if the
document does not mention it. A section is written as a table, or as an array of its values in the order of the
fields.
-/

namespace ScriptGraph

/-- Where scripts are kept. -/
inductive StoreType where
  | memory
  | files
  deriving DecidableEq, Repr

/-- Settings. -/
structure Config where
  /-- the visits that a chain may make -/
  maxVisits : Nat
  canvas : CanvasSettings Float32
  storeType : StoreType
  scriptsDir : String

namespace StoreType

/-- The name of a kind of store. -/
def name : StoreType → String
  | memory => "mem"
  | files => "file"

/-- The kind of store with a name. -/
def ofName? : String → Option StoreType
  | "mem" => some memory
  | "file" => some files
  | _ => none

end StoreType

namespace Config

/-- The settings that are not mentioned. -/
def default : Config := ⟨4096, .default, .memory, "scripts"⟩

/-- The values of a section by the keys of its fields. Other fields of a table must be readable but are of no use, and
the items of an array that come after those for the fields are not looked at. A time has no fields. -/
private def section? (keys : List String) : Toml → Option (List (String × Toml))
  | .table fields => if fields.all fun (key, v) => keys.contains key || v.isReadable then some fields else none
  | .arr items => some (keys.zip items)
  | .time => some []
  | _ => none

/-- A setting of a section, or what it is if it is not mentioned. -/
private def setting {α : Type} (fields : List (String × Toml)) (key : String) (absent : α) (read : Toml → Option α) :
    Option α :=
  match fields.lookup key with
  | some v => read v
  | none => some absent

/-- A number that is not negative and fits into 64 bits. -/
private def count? : Toml → Option Nat
  | .int n => if 0 ≤ n && n < twoPow 64 then some n.toNat else none
  | _ => none

/-- A number of single precision. -/
private def single? : Toml → Option Float32
  | .int n =>
    if -(twoPow 63 : Int) ≤ n && n < twoPow 64 then some (singleOfValue (.finite (n < 0) n.natAbs 0)) else none
  | .float x => some (singleOfDouble x)
  | _ => none

private def text? : Toml → Option String
  | .str s => some s
  | _ => none

/-- A kind of store: its name, or the name as the only key of a table with an empty value. -/
private def storeType? : Toml → Option StoreType
  | .str s => StoreType.ofName? s
  | .table [(key, .table [])] => StoreType.ofName? key
  | .table [(key, .arr [])] => StoreType.ofName? key
  | _ => none

private def canvas? (v : Toml) : Option (CanvasSettings Float32) := do
  let d := CanvasSettings.default
  let fields ← section?
    ["min_zoom", "max_zoom", "initial_zoom", "zoom_step", "button_zoom_step", "hit_margin"] v
  let minZoom ← setting fields "min_zoom" d.minZoom single?
  let maxZoom ← setting fields "max_zoom" d.maxZoom single?
  let initialZoom ← setting fields "initial_zoom" d.initialZoom single?
  let zoomStep ← setting fields "zoom_step" d.zoomStep single?
  let buttonZoomStep ← setting fields "button_zoom_step" d.buttonZoomStep single?
  let hitMargin ← setting fields "hit_margin" d.hitMargin single?
  some { minZoom, maxZoom, initialZoom, zoomStep, buttonZoomStep, hitMargin }

private def interpreter? (v : Toml) : Option Nat := do
  let fields ← section? ["max_visits"] v
  setting fields "max_visits" default.maxVisits count?

private def store? (v : Toml) : Option (StoreType × String) := do
  let fields ← section? ["store_type", "scripts_dir"] v
  let storeType ← setting fields "store_type" default.storeType storeType?
  let scriptsDir ← setting fields "scripts_dir" default.scriptsDir text?
  some (storeType, scriptsDir)

/-- The settings of a document. -/
def ofToml? (document : Toml) : Option Config := do
  let fields ← section? ["interpreter", "canvas", "store"] document
  let maxVisits ← setting fields "interpreter" default.maxVisits interpreter?
  let canvas ← setting fields "canvas" default.canvas canvas?
  let (storeType, scriptsDir) ← setting fields "store" (default.storeType, default.scriptsDir) store?
  some { maxVisits, canvas, storeType, scriptsDir }

/-- Accepts settings whose zoom has a range and whose chains may visit a node. -/
def validate (c : Config) : Except ScriptError Config :=
  if !c.canvas.isValid then
    .error (.config
      ("invalid zoom range [" ++ singleText c.canvas.minZoom ++ ", " ++ singleText c.canvas.maxZoom ++ "]"))
  else if c.maxVisits = 0 then .error (.config "max_visits must be at least 1")
  else .ok c

/-- The error of a document that holds no settings. -/
def unreadable : ScriptError := .config "invalid configuration"

/-- Reads settings. -/
def load (text : String) : Except ScriptError Config :=
  match (Toml.parse? text).bind ofToml? with
  | some c => c.validate
  | none => .error unreadable

end Config

end ScriptGraph
