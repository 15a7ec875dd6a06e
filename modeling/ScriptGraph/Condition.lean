import ScriptGraph.Reading
import ScriptGraph.Text.Split
import ScriptGraph.Variables

/-!
# Conditions

The condition of a branch is a truth value, an equality of two texts or a comparison of two numbers. Operands that
name a variable stand for its value. A text that is none of these holds, so that a slip of the pen lets a chain
through.
-/

namespace ScriptGraph

/-- What a condition says. -/
inductive Condition where
  | literal (value : Bool)
  | equal (left right : String)
  | greater (left right : String)
  | unrecognized
  deriving DecidableEq, Repr

namespace Condition

private def operands (f : String → String → Condition) (parts : List Char × List Char) : Condition :=
  f (String.ofList (Text.trimChars parts.1)) (String.ofList (Text.trimChars parts.2))

/-- Reads a condition. An equality has exactly one `==`; what has none or several may still be a comparison, with
exactly one `>`. -/
def parse (s : String) : Condition :=
  let text := Text.trimChars s.toList
  match Reading.boolean s with
  | some b => .literal b
  | none =>
    match Text.pair ['=', '='] text with
    | some parts => operands .equal parts
    | none =>
      match Text.pair ['>'] text with
      | some parts => operands .greater parts
      | none => .unrecognized

/-- Whether a condition holds. Texts that are no numbers are not greater than anything. -/
def holds (vars : Variables) : Condition → Bool
  | literal value => value
  | equal left right => vars.resolve left == vars.resolve right
  | greater left right =>
    match Reading.number (vars.resolve left), Reading.number (vars.resolve right) with
    | some l, some r => decide (r < l)
    | _, _ => false
  | unrecognized => true

/-- The names that are looked up to tell whether a condition holds: its operands. -/
def names : Condition → List String
  | equal left right => [left, right]
  | greater left right => [left, right]
  | literal _ | unrecognized => []

/-- Whether the condition that a text says holds. -/
def evaluate (vars : Variables) (s : String) : Bool :=
  (parse s).holds vars

end Condition

end ScriptGraph
