/-!
# TOML values

A document is a table. While it is being read, tables that may still grow are `Item`s: a table that a header or a
dotted key only passes through may be filled in later, one with a header of its own may not, and a value never.
-/

namespace ScriptGraph

/-- A value of a document. Of a date or time it is only known that it is one. -/
inductive Toml where
  | str (value : String)
  | int (value : Int)
  | float (value : Float)
  /-- a number that is too large for its kind, or a word that only begins like one -/
  | unreadable
  | bool (value : Bool)
  | time
  | arr (items : List Toml)
  | table (fields : List (String × Toml))

namespace Toml

mutual

/-- Whether every number of a value can be read. -/
def isReadable : Toml → Bool
  | unreadable => false
  | arr items => itemsReadable items
  | table fields => fieldsReadable fields
  | str _ | int _ | float _ | bool _ | time => true

/-- Whether every item can be read. -/
def itemsReadable : List Toml → Bool
  | [] => true
  | v :: rest => isReadable v && itemsReadable rest

/-- Whether every field can be read. -/
def fieldsReadable : List (String × Toml) → Bool
  | [] => true
  | (_, v) :: rest => isReadable v && fieldsReadable rest

end

/-- A part of a document that is being read. -/
inductive Item where
  | value (value : Toml)
  /-- a table; `implied` if no header names it, `dotted` if a dotted key made it -/
  | table (implied dotted : Bool) (fields : List (String × Item))
  /-- tables under one key, last one first -/
  | tables (members : List (List (String × Item)))

namespace Item

/-- The table at the beginning of a document. -/
def root : Item := table false false []

/-- Sets the field with a key, at its place if there is one already. -/
def setField (key : String) (item : Item) : List (String × Item) → List (String × Item)
  | [] => [(key, item)]
  | field :: rest => if field.1 = key then (key, item) :: rest else field :: setField key item rest

/-- Changes the table at the end of a path, making the tables on the way. A dotted key makes dotted tables, and passes
only through tables without a header. -/
def descend (dotted : Bool) (f : Item → Option Item) : List String → Item → Option Item
  | [], item => f item
  | key :: path, table implied isDotted fields => do
    let child ← match (fields.lookup key).getD (table true dotted []) with
      | value _ => none
      | table false d fields => if dotted then none else descend dotted f path (table false d fields)
      | table true d fields => descend dotted f path (table true d fields)
      | tables [] => none
      | tables (last :: others) =>
        match ← descend dotted f path (table false false last) with
        | table _ _ fields => some (tables (fields :: others))
        | _ => none
    some (table implied isDotted (setField key child fields))
  | _, _ => none

/-- Adds a value under a key that is new. -/
def addValue (path : List String) (key : String) (v : Toml) : Item → Option Item :=
  descend (!path.isEmpty)
    (fun
      | table implied dotted fields =>
        if dotted == path.isEmpty || (fields.lookup key).isSome then none
        else some (table implied dotted (fields ++ [(key, value v)]))
      | _ => none)
    path

/-- Adds the table of a header, which may be there already without a header. -/
def addTable (path : List String) (key : String) : Item → Option Item :=
  descend false
    (fun
      | table implied dotted fields =>
        match fields.lookup key with
        | none => some (table implied dotted (fields ++ [(key, table false false [])]))
        | some (table true false inner) => some (table implied dotted (setField key (table false false inner) fields))
        | some _ => none
      | _ => none)
    path

/-- Adds a table to those of a header with two brackets. -/
def addMember (path : List String) (key : String) : Item → Option Item :=
  descend false
    (fun
      | table implied dotted fields =>
        match fields.lookup key with
        | none => some (table implied dotted (fields ++ [(key, tables [[]])]))
        | some (tables members) => some (table implied dotted (setField key (tables ([] :: members)) fields))
        | some _ => none
      | _ => none)
    path

mutual

/-- The value that was read. -/
def toToml : Item → Toml
  | value v => v
  | table _ _ fields => .table (fieldsToToml fields)
  | tables members => .arr (membersToToml members).reverse

/-- The fields that were read. -/
def fieldsToToml : List (String × Item) → List (String × Toml)
  | [] => []
  | (key, item) :: rest => (key, toToml item) :: fieldsToToml rest

/-- The tables that were read. -/
def membersToToml : List (List (String × Item)) → List Toml
  | [] => []
  | fields :: rest => .table (fieldsToToml fields) :: membersToToml rest

end

end Item

end Toml

end ScriptGraph
