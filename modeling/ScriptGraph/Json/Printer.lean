import ScriptGraph.Json.Number
import ScriptGraph.Text.Hex

/-!
# Writing JSON

The compact form: no blanks, and nothing escaped in strings but quotes, backslashes and control characters.
-/

namespace ScriptGraph.Json

/-- The written form of one character inside a string. -/
def escapeChar (c : Char) : List Char :=
  match c with
  | '"' => ['\\', '"']
  | '\\' => ['\\', '\\']
  | '\x08' => ['\\', 'b']
  | '\t' => ['\\', 't']
  | '\n' => ['\\', 'n']
  | '\x0c' => ['\\', 'f']
  | '\r' => ['\\', 'r']
  | c =>
    if c.toNat < 32 then
      ['\\', 'u', '0', '0'] ++ Text.hexByte c.toNat
    else [c]

/-- A string between quotes. -/
def stringChars (s : String) : List Char :=
  '"' :: s.toList.flatMap escapeChar ++ ['"']

/-- The texts of a list, with commas between them. -/
def commaChars : List (List Char) → List Char
  | [] => []
  | [x] => x
  | x :: y :: rest => x ++ ',' :: commaChars (y :: rest)

mutual

/-- The compact text of a value. -/
def chars : Json → List Char
  | .null => ['n', 'u', 'l', 'l']
  | .bool b => if b then ['t', 'r', 'u', 'e'] else ['f', 'a', 'l', 's', 'e']
  | .num n => n.text.toList
  | .str s => stringChars s
  | .arr items => '[' :: commaChars (itemTexts items) ++ [']']
  | .obj fields => '{' :: commaChars (fieldTexts fields) ++ ['}']

/-- The texts of the items of an array. -/
def itemTexts : List Json → List (List Char)
  | [] => []
  | v :: rest => chars v :: itemTexts rest

/-- The texts of the fields of an object. -/
def fieldTexts : List (String × Json) → List (List Char)
  | [] => []
  | (key, v) :: rest => (stringChars key ++ ':' :: chars v) :: fieldTexts rest

end

/-- The compact text of a value. -/
def text (v : Json) : String :=
  String.ofList (chars v)

end ScriptGraph.Json
