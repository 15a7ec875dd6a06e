import ScriptGraph.Error
import ScriptGraph.Json.Value
import ScriptGraph.Template

/-!
# Values that hosts exchange

The JSON forms of kinds, palettes, inputs and errors. A choice is written as its name, or as an object with its name
as the only key if it carries something.
-/

namespace ScriptGraph

namespace Json

/-- A name, and what it carries if it is the only key of an object. -/
def choice? : Json → Option (String × Option Json)
  | .str name => some (name, none)
  | .obj [(name, v)] => some (name, some v)
  | _ => none

/-- A number that is not negative and fits into 64 bits. -/
def count? : Json → Option Nat
  | .num (.int n) => if 0 ≤ n then some n.toNat else none
  | _ => none

/-- The values of the fields of an object. -/
def fieldsOf? (keys : List String) : Json → Option (List Json)
  | .obj fields => keys.mapM fun key => field? key fields
  | _ => none

/-- The values of the fields of an object, or of an array that has one item for each of them. -/
def record? (keys : List String) : Json → Option (List Json)
  | .arr items => if items.length = keys.length then some items else none
  | v => v.fieldsOf? keys

end Json

namespace Kind

/-- The JSON form of a kind. -/
def toJson (k : Kind) : Json := .str k.name

/-- Reads the JSON form of a kind. -/
def ofJson? : Json → Option Kind
  | .str s => some (ofName s)
  | _ => none

end Kind

namespace Palette

/-- The JSON form of a palette. -/
def toJson (p : Palette) : Json := .str p.name

/-- Reads the JSON form of a palette. -/
def ofJson? (v : Json) : Option Palette :=
  match v.choice? with
  | some (name, none) => ofName? name
  | some (name, some .null) => ofName? name
  | _ => none

end Palette

namespace Input

/-- The JSON form of an input. -/
def toJson (i : Input) : Json := .obj [("label", .str i.label), ("value", .str i.value)]

/-- Reads the JSON form of an input. -/
def ofJson? (v : Json) : Option Input :=
  match v.record? ["label", "value"] with
  | some [.str label, .str value] => some ⟨label, value⟩
  | _ => none

end Input

namespace ScriptError

/-- The name of the cause of an error. -/
def name : ScriptError → String
  | config _ => "Config"
  | codec _ => "Codec"
  | noNodes => "NoNodes"
  | store _ => "Store"
  | notFound _ => "NotFound"
  | node _ => "Node"
  | action _ => "Action"
  | runaway _ _ => "Runaway"
  | runtime _ => "Runtime"
  | io _ => "IoError"
  | queue _ => "Queue"

/-- What the cause of an error carries. -/
def payload? : ScriptError → Option Json
  | config text | codec text | store text | node text | action text | runtime text | io text | queue text =>
    some (.str text)
  | notFound what => some (.str what)
  | noNodes => none
  | runaway visits limit => some (.obj [("limit", .num (.int limit)), ("visits", .num (.int visits))])

/-- The JSON form of an error. -/
def toJson (e : ScriptError) : Json :=
  match e.payload? with
  | none => .str e.name
  | some v => .obj [(e.name, v)]

/-- The error whose cause carries a text. -/
def ofText? (text : String) : String → Option ScriptError
  | "Config" => some (config text)
  | "Codec" => some (codec text)
  | "Store" => some (store text)
  | "NotFound" => some (notFound text)
  | "Node" => some (node text)
  | "Action" => some (action text)
  | "Runtime" => some (runtime text)
  | "IoError" => some (io text)
  | "Queue" => some (queue text)
  | _ => none

/-- Reads the JSON form of an error. -/
def ofJson? (v : Json) : Option ScriptError :=
  match v.choice? with
  | some ("NoNodes", none) => some noNodes
  | some ("NoNodes", some .null) => some noNodes
  | some ("Runaway", some fields) =>
    match fields.fieldsOf? ["visits", "limit"] with
    | some [visits, limit] => do some (runaway (← visits.count?) (← limit.count?))
    | _ => none
  | some (name, some (.str text)) => ofText? text name
  | _ => none

/-- The error that the surroundings make of another one: a failed access with its wording. -/
def asAccess (e : ScriptError) : ScriptError := .io e.message

end ScriptError

end ScriptGraph
