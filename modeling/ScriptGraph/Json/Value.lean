/-!
# JSON values

The fields of an object are kept in rising order of their keys, each key once. `Json.insertField` keeps them so; the
value written last under a key is the one that stays.
-/

namespace ScriptGraph

/-- A number of a document: an integer of 64 bits, with or without a sign, or a double. -/
inductive Json.Number where
  | int (value : Int)
  | double (value : Float)

/-- A JSON value. -/
inductive Json where
  | null
  | bool (value : Bool)
  | num (value : Json.Number)
  | str (value : String)
  | arr (items : List Json)
  | obj (fields : List (String × Json))

namespace Json

/-- Puts a value under a key, in the place that the order of the keys gives it. -/
def insertField (key : String) (value : Json) : List (String × Json) → List (String × Json)
  | [] => [(key, value)]
  | field :: rest =>
    match compare key field.1 with
    | .lt => (key, value) :: field :: rest
    | .eq => (key, value) :: rest
    | .gt => field :: insertField key value rest

/-- The value under a key. -/
def field? (key : String) (fields : List (String × Json)) : Option Json :=
  fields.lookup key

end Json

end ScriptGraph
