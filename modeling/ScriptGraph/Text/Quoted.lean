import ScriptGraph.Text.Hex
import ScriptGraph.Text.Ranges

/-!
# Quoted text

A text between double quotes, as listings and messages show it: quotes, backslashes and the common controls are
escaped by a backslash and one character, and what cannot be seen is written as the hexadecimal number of its code
point between braces.
-/

namespace ScriptGraph.Text

/-- The written form of one character inside a quoted text. -/
def escapeChar (c : Char) : List Char :=
  match c with
  | '\x00' => ['\\', '0']
  | '\t' => ['\\', 't']
  | '\r' => ['\\', 'r']
  | '\n' => ['\\', 'n']
  | '"' => ['\\', '"']
  | '\\' => ['\\', '\\']
  | c => if inRanges escapedRanges c then ['\\', 'u', '\x7b'] ++ hexDigits c.toNat ++ ['\x7d'] else [c]

/-- A text between double quotes, with what cannot be seen escaped. -/
def quoted (s : String) : String :=
  String.ofList ('"' :: s.toList.flatMap escapeChar ++ ['"'])

end ScriptGraph.Text
