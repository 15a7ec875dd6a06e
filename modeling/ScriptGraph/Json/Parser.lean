import ScriptGraph.Json.Token

/-!
# Reading JSON

A value is read from its tokens one by one. The state says what may come next and holds the containers that are open,
so nesting costs no recursion and its depth is the length of a list. A container may stand inside at most 126 others.
-/

namespace ScriptGraph.Json

/-- A container that waits for a value: the items before it, last one first, or the fields before it and its key. -/
inductive Frame where
  | array (items : List Json)
  | object (fields : List (String × Json)) (key : String)

/-- What may come next, with the containers around it, innermost first. -/
inductive Expecting where
  | value (around : List Frame)
  | firstItem (around : List Frame)
  | afterItem (items : List Json) (around : List Frame)
  | firstKey (around : List Frame)
  | nextKey (fields : List (String × Json)) (around : List Frame)
  | colon (fields : List (String × Json)) (key : String) (around : List Frame)
  | afterField (fields : List (String × Json)) (around : List Frame)
  | nothing (value : Json)

namespace Expecting

/-- The deepest nesting of containers. -/
def maxDepth : Nat := 127

/-- What comes after a value. -/
def complete (v : Json) : List Frame → Expecting
  | [] => .nothing v
  | .array items :: around => .afterItem (v :: items) around
  | .object fields key :: around => .afterField (insertField key v fields) around

/-- What comes after the first token of a value. -/
def beginValue (around : List Frame) : Token → Option Expecting
  | .null => some (complete .null around)
  | .bool b => some (complete (.bool b) around)
  | .num n => some (complete (.num n) around)
  | .str s => some (complete (.str s) around)
  | .openArray => if around.length < maxDepth then some (.firstItem around) else none
  | .openObject => if around.length < maxDepth then some (.firstKey around) else none
  | _ => none

/-- What comes after a token. -/
def next : Expecting → Token → Option Expecting
  | .value around, t => beginValue around t
  | .firstItem around, .closeArray => some (complete (.arr []) around)
  | .firstItem around, t => beginValue (.array [] :: around) t
  | .afterItem items around, .comma => some (.value (.array items :: around))
  | .afterItem items around, .closeArray => some (complete (.arr items.reverse) around)
  | .firstKey around, .closeObject => some (complete (.obj []) around)
  | .firstKey around, .str key => some (.colon [] key around)
  | .nextKey fields around, .str key => some (.colon fields key around)
  | .colon fields key around, .colon => some (.value (.object fields key :: around))
  | .afterField fields around, .comma => some (.nextKey fields around)
  | .afterField fields around, .closeObject => some (complete (.obj fields) around)
  | _, _ => none

end Expecting

/-- Reads a whole text as one value. -/
def parse? (text : List Char) : Option Json := do
  let tokens ← Token.ofChars? text
  match ← tokens.foldlM Expecting.next (.value []) with
  | .nothing v => some v
  | _ => none

end ScriptGraph.Json
