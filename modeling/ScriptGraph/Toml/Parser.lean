import ScriptGraph.Toml.Scalar
import ScriptGraph.Toml.Token

/-!
# Reading TOML

A document is read line by line: a header chooses the table that the fields after it go to, and everything else is a
field. Values may nest to a depth of `maxDepth`.
-/

namespace ScriptGraph.Toml

/-- The deepest nesting of arrays and inline tables, and of the tables on the way that a key gives. -/
def maxDepth : Nat := 80

private def skipBlanks (ts : List Token) : List Token := ts.dropWhile Token.isBlank

private def skipLines (ts : List Token) : List Token := ts.dropWhile fun t => t.isBlank || t == .newline

private def isBareChar (c : Char) : Bool := c.isAlphanum || c == '_' || c == '-'

/-- The text of a part of a key. -/
def keyPart? : Token → Option String
  | .word chars => if chars.all isBareChar then some (String.ofList chars) else none
  | .quoted value false => some value
  | _ => none

/-- The parts of a key, with dots between them: those before the last one, the last one, and the tokens after it. -/
def keyParts? : List Token → Option (List String × String × List Token)
  | [] => none
  | .blank _ :: rest => keyParts? rest
  | t :: rest => do
    let part ← keyPart? t
    match _h : skipBlanks rest with
    | .dot :: more =>
      if _h : more.length < rest.length + 1 then
        let (path, last, rest) ← keyParts? more
        some (part :: path, last, rest)
      else none
    | rest => some ([], part, rest)
termination_by ts => ts.length

/-- A key, with fewer than `maxDepth` parts before the last one. -/
def key? (ts : List Token) : Option (List String × String × List Token) :=
  (keyParts? ts).filter fun parts => parts.1.length < maxDepth

/-- The characters of words and the dots between them, and the tokens after them. -/
def wordRun : List Token → List Char × List Token
  | .word a :: .dot :: .word b :: rest =>
    let (chars, rest) := wordRun (.word b :: rest)
    (a ++ '.' :: chars, rest)
  | .word a :: rest => (a, rest)
  | rest => ([], rest)

/-- A value without quotes. A date may have a time after one space. -/
def unquoted? (ts : List Token) : Option (Toml × List Token) :=
  let (chars, rest) := wordRun ts
  let plain := (scalar? chars).map (·, rest)
  match rest with
  | .blank ' ' :: .word hours :: more =>
    if isDate chars && hours.head?.any Char.isDigit then
      let (clock, rest) := wordRun (.word hours :: more)
      (scalar? (chars ++ ' ' :: clock)).map (·, rest)
    else plain
  | _ => plain

mutual

/-- A value, and the tokens after it. -/
def value? (depth fuel : Nat) (ts : List Token) : Option (Toml × List Token) :=
  match fuel with
  | 0 => none
  | fuel + 1 =>
    match ts with
    | .quoted s _ :: rest => some (.str s, rest)
    | .openBracket :: rest => if depth = 0 then none else items? (depth - 1) fuel [] rest
    | .openBrace :: rest => if depth = 0 then none else fields? (depth - 1) fuel .root rest
    | .word _ :: _ => unquoted? ts
    | _ => none

/-- The items of an array up to its closing bracket; the ones before them are given last one first. -/
def items? (depth fuel : Nat) (before : List Toml) (ts : List Token) : Option (Toml × List Token) :=
  match fuel with
  | 0 => none
  | fuel + 1 =>
    match skipLines ts with
    | .closeBracket :: rest => some (.arr before.reverse, rest)
    | ts => do
      let (v, rest) ← value? depth fuel ts
      match skipLines rest with
      | .comma :: rest => items? depth fuel (v :: before) rest
      | .closeBracket :: rest => some (.arr (v :: before).reverse, rest)
      | _ => none

/-- The fields of an inline table up to its closing brace. Lines may end anywhere but inside a key. -/
def fields? (depth fuel : Nat) (before : Item) (ts : List Token) : Option (Toml × List Token) :=
  match fuel with
  | 0 => none
  | fuel + 1 =>
    match skipLines ts with
    | .closeBrace :: rest => some (before.toToml, rest)
    | ts => do
      let (path, key, rest) ← key? ts
      match skipLines rest with
      | .equals :: rest => do
        let (v, rest) ← value? depth fuel (skipLines rest)
        let table ← before.addValue path key v
        match skipLines rest with
        | .comma :: rest => fields? depth fuel table rest
        | .closeBrace :: rest => some (table.toToml, rest)
        | _ => none
      | _ => none

end

/-- A document that is being read: its tables, and the path of the table that fields go to. -/
structure Draft where
  root : Item
  header : List String

namespace Draft

/-- Goes to the table of a header. -/
def enter (d : Draft) (path : List String) (key : String) (f : Item → Option Item) : Option Draft :=
  (f d.root).map fun root => ⟨root, path ++ [key]⟩

/-- Reads the header or the field at the beginning of some tokens. -/
def statement? (d : Draft) (ts : List Token) : Option (Draft × List Token) :=
  match ts with
  | .openBracket :: .openBracket :: rest => do
    let (path, key, rest) ← key? rest
    match rest with
    | .closeBracket :: .closeBracket :: rest => some (← d.enter path key (Item.addMember path key), rest)
    | _ => none
  | .openBracket :: rest => do
    let (path, key, rest) ← key? rest
    match rest with
    | .closeBracket :: rest => some (← d.enter path key (Item.addTable path key), rest)
    | _ => none
  | ts => do
    let (path, key, rest) ← key? ts
    match rest with
    | .equals :: rest =>
      let (v, rest) ← value? maxDepth (2 * rest.length + 2) (skipBlanks rest)
      let root ← Item.descend false (Item.addValue path key v) d.header d.root
      some ({ d with root }, rest)
    | _ => none

/-- Reads all lines. -/
def lines? (fuel : Nat) (d : Draft) (ts : List Token) : Option Draft :=
  match fuel with
  | 0 => none
  | fuel + 1 =>
    match skipLines ts with
    | [] => some d
    | ts => do
      let (d, rest) ← d.statement? ts
      match skipBlanks rest with
      | [] => some d
      | .newline :: rest => lines? fuel d rest
      | _ => none

end Draft

/-- The text without a byte order mark at its beginning. -/
private def withoutMark : List Char → List Char
  | '\uFEFF' :: rest => rest
  | rest => rest

/-- Reads a document. -/
def parse? (s : String) : Option Toml := do
  let tokens ← Token.ofChars? (withoutMark s.toList)
  let draft ← Draft.lines? (tokens.length + 1) ⟨.root, []⟩ tokens
  some draft.root.toToml

end ScriptGraph.Toml
