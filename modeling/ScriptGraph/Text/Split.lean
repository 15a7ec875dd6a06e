/-!
# Cutting texts

`cut` finds the first place where a separator occurs, `pair` accepts a text with exactly one such place, and `lines`
cuts a text into its lines.
-/

namespace ScriptGraph.Text

/-- The parts before and after the first occurrence of `separator`. -/
def cut (separator : List Char) : List Char → Option (List Char × List Char)
  | [] => if separator.isEmpty then some ([], []) else none
  | c :: rest =>
    if separator.isPrefixOf (c :: rest) then some ([], (c :: rest).drop separator.length)
    else (cut separator rest).map fun parts => (c :: parts.1, parts.2)

/-- The two parts of a text in which `separator`, searched from the left, occurs exactly once. -/
def pair (separator text : List Char) : Option (List Char × List Char) :=
  match cut separator text with
  | some (left, right) => if (cut separator right).isNone then some (left, right) else none
  | none => none

/-- The lines of a text. A newline ends a line, together with one carriage return before it; the last line need not
be ended. -/
def lines : List Char → List (List Char)
  | [] => []
  | '\n' :: rest => [] :: lines rest
  | '\r' :: '\n' :: rest => [] :: lines rest
  | c :: rest =>
    match lines rest with
    | [] => [[c]]
    | line :: others => (c :: line) :: others

/-- The texts of `parts` with `separator` between neighbours. -/
def join (separator : String) (parts : List String) : String :=
  String.intercalate separator parts

end ScriptGraph.Text
