import ScriptGraph.Graph
import ScriptGraph.Json.Parser
import ScriptGraph.Json.Printer
import ScriptGraph.Reading
import ScriptGraph.Text.Split

/-!
# Documents

The written form of a graph: one JSON object for each node, each on a line of its own. Reading forgives much. Lines
that hold no object are skipped, a field of a wrong type counts as absent, connections to unknown nodes are dropped,
and a node whose identifier is absent or already taken gets a fresh one; a `Report` counts all that. An array of
objects on any number of lines is read as well.
-/

namespace ScriptGraph.Document

/-- What reading had to skip or mend. -/
structure Report where
  /-- records that hold no object -/
  skipped : Nat
  /-- connections that lead to no node, or to the node they come from -/
  dropped : Nat
  /-- nodes that were given a fresh identifier -/
  rekeyed : Nat
  deriving DecidableEq, Repr

/-! ## Writing -/

private def fieldChars (key : String) (value : List Char) : List Char :=
  Json.stringChars key ++ ':' :: value

private def stringListChars (texts : List String) : List Char :=
  '[' :: Json.commaChars (texts.map Json.stringChars) ++ [']']

/-- The identifiers of the nodes after a node. -/
def targetIds (g : Graph Float32) (n : Node Float32) : List String :=
  n.targets.filterMap fun t => (g.node? t).map (·.id)

/-- The object that describes a node. -/
def recordChars (g : Graph Float32) (n : Node Float32) : List Char :=
  '{' :: Json.commaChars
    [fieldChars "id" (Json.stringChars n.id),
      fieldChars "type" (Json.stringChars n.kind.name),
      fieldChars "label" (Json.stringChars n.label),
      fieldChars "x" (Json.Number.singleText n.position.x).toList,
      fieldChars "y" (Json.Number.singleText n.position.y).toList,
      fieldChars "value" (Json.stringChars n.summary),
      fieldChars "color" (Json.stringChars n.color.hex),
      fieldChars "inputValues" (stringListChars (n.inputs.map (·.value))),
      fieldChars "connectionIds" (stringListChars (targetIds g n))] ++ ['}']

/-- The document of a graph. -/
def encodeChars (g : Graph Float32) : List Char :=
  g.nodes.flatMap fun n => recordChars g n ++ ['\n']

/-- The document of a graph. -/
def encode (g : Graph Float32) : String :=
  String.ofList (encodeChars g)

/-! ## Reading -/

/-- The fields of a record. -/
abbrev Record := List (String × Json)

/-- Removes what an array on several lines puts around a record. -/
def cleanLine (line : List Char) : List Char :=
  let inside := Text.dropFinal (· == ']') ((Text.trimChars line).dropWhile (· == '['))
  Text.trimChars (Text.dropFinal (· == ',') (Text.trimChars inside))

/-- The records among some values, and how many are none. -/
def selectRecords : List (Option Json) → Nat × List Record
  | [] => (0, [])
  | v :: rest =>
    let (skipped, records) := selectRecords rest
    match v with
    | some (.obj fields) => (skipped, fields :: records)
    | _ => (skipped + 1, records)

/-- The records of a text, line by line. -/
def lineRecords (text : List Char) : Nat × List Record :=
  selectRecords ((((Text.lines text).map cleanLine).filter (!·.isEmpty)).map Json.parse?)

/-- The records of a document, and how many values or lines were skipped. -/
def records (text : List Char) : Nat × List Record :=
  let trimmed := Text.trimChars text
  if trimmed.head? == some '[' then
    match Json.parse? trimmed with
    | some (.arr items) => selectRecords (items.map some)
    | _ => lineRecords trimmed
  else lineRecords trimmed

/-- A field as a text: strings, numbers and truth values have one. -/
def stringField (record : Record) (key : String) : Option String :=
  match Json.field? key record with
  | some (.str s) => some s
  | some (.num n) => some n.text
  | some (.bool b) => some (if b then "true" else "false")
  | _ => none

/-- A field as a coordinate: a number or the text of one, and zero if there is none that is finite. -/
def coordinateField (record : Record) (key : String) : Float32 :=
  let value := match Json.field? key record with
    | some (.num n) => some n.toDouble
    | some (.str s) => Reading.number s
    | _ => none
  match value with
  | some x => if (singleOfDouble x).isFinite then singleOfDouble x else Float32.ofNat 0
  | none => Float32.ofNat 0

/-- The text of an item of a list: a string itself, nothing for null, and compact JSON for the rest. -/
def itemText : Json → String
  | .str s => s
  | .null => ""
  | v => v.text

/-- A field as a list of texts, empty if it is no array. -/
def listField (record : Record) (key : String) : List String :=
  match Json.field? key record with
  | some (.arr items) => items.map itemText
  | _ => []

/-- Label of a node that has none. -/
def unknownLabel : String := "Unknown"

/-- The node that a record describes, without its connections. The stored values go over the inputs of the label, and
a stored summary stays as it is. -/
def nodeOfRecord (record : Record) : Node Float32 :=
  let id := (stringField record "id").getD ""
  let kind := ((stringField record "type").map Kind.ofName).getD .action
  let label := (stringField record "label").getD unknownLabel
  let position := ⟨coordinateField record "x", coordinateField record "y"⟩
  let color := ((stringField record "color").bind Color.ofHex?).getD .gray
  let node := Node.make id kind label position color
  let values := listField record "inputValues"
  let node := if values.isEmpty then node else (node.overlay values).2
  match stringField record "value" with
  | some summary => { node with summary }
  | none => node

/-- Gives fresh identifiers to nodes that have none or one that is taken. `position` is that of the first node and
`taken` holds the identifiers before it. The answer counts the fresh ones. -/
def rekey (fresh : Nat → String) (position : Nat) (taken : List String) :
    List (Node Float32) → Nat × List (Node Float32)
  | [] => (0, [])
  | n :: rest =>
    if n.id.isEmpty || taken.contains n.id then
      let id := fresh position
      let (count, nodes) := rekey fresh (position + 1) (id :: taken) rest
      (count + 1, { n with id } :: nodes)
    else
      let (count, nodes) := rekey fresh (position + 1) (n.id :: taken) rest
      (count, n :: nodes)

/-- Connects a node to those with the given identifiers, and counts the identifiers that lead nowhere. -/
def connectAll (source : Nat) (ids : List String) (state : Nat × Graph Float32) : Nat × Graph Float32 :=
  ids.foldl
    (fun (dropped, g) id =>
      match g.indexOf? id with
      | none => (dropped + 1, g)
      | some target =>
        match g.connect source target with
        | (.ok _, g) => (dropped, g)
        | (.error _, g) => (dropped + 1, g))
    state

/-- The graph of some records. Connections are made once all nodes are there. -/
def ofRecords (fresh : Nat → String) (skipped : Nat) (rs : List Record) :
    Except ScriptError (Graph Float32 × Report) :=
  if rs.isEmpty then .error .noNodes
  else
    let (rekeyed, nodes) := rekey fresh 0 [] (rs.map nodeOfRecord)
    let lists := (rs.map (listField · "connectionIds")).zipIdx
    let (dropped, g) := lists.foldl (fun state (ids, source) => connectAll source ids state) (0, ⟨nodes⟩)
    .ok (g, ⟨skipped, dropped, rekeyed⟩)

/-- Reads a document. `fresh i` is the identifier for the record at position `i`, should it need one. -/
def decodeChars (fresh : Nat → String) (text : List Char) : Except ScriptError (Graph Float32 × Report) :=
  let (skipped, rs) := records text
  ofRecords fresh skipped rs

@[inherit_doc decodeChars]
def decode (fresh : Nat → String) (text : String) : Except ScriptError (Graph Float32 × Report) :=
  decodeChars fresh text.toList

end ScriptGraph.Document
