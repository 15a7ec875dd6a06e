import ScriptGraph.Decimal
import ScriptGraph.Duration
import ScriptGraph.Text.Blank
import ScriptGraph.Text.Lowercase

/-!
# Reading input texts

Every input of a node is a text. A number, a count, a delay or a truth value is read from it here and nowhere else,
and text that cannot be read has a fixed answer: no number, no delay, no truth value, and the count zero.
-/

namespace ScriptGraph.Reading

/-- The largest count. -/
def maxCount : Nat := twoPow 32 - 1

/-- A finite number, with blanks around it. -/
def number (s : String) : Option Float :=
  match Literal.ofChars? (Text.trimChars s.toList) with
  | some literal =>
    let x := doubleOfLiteral literal
    if x.isFinite then some x else none
  | none => none

/-- Digits after at most a plus sign, as a number up to the largest count. -/
def wholeCount? (text : List Char) : Option Nat :=
  let digits := match text with
    | '+' :: rest => rest
    | rest => rest
  if digits.isEmpty || !digits.all Char.isDigit then none
  else
    let n := Literal.natUpTo (maxCount + 1) digits
    if n ≤ maxCount then some n else none

/-- The integer part of a number that is not negative, up to the largest count. -/
def floorCount : BinaryValue → Nat
  | .finite false mantissa exponent => min (mantissa * twoPow exponent.toNat / twoPow (-exponent).toNat) maxCount
  | _ => 0

/-- A number of repeats: a whole count, or the integer part of a number, or zero. -/
def count (s : String) : Nat :=
  match wholeCount? (Text.trimChars s.toList) with
  | some n => n
  | none =>
    match number s with
    | some x => floorCount (valueOfDouble x)
    | none => 0

/-- A delay in seconds. -/
def seconds (s : String) : Option Duration :=
  (number s).bind fun x => Duration.ofSeconds? (valueOfDouble x)

/-- The words `true` and `false` in any case, with blanks around them. -/
def boolean (s : String) : Option Bool :=
  if Text.isSameIgnoringAsciiCase (Text.trim s) "true" then some true
  else if Text.isSameIgnoringAsciiCase (Text.trim s) "false" then some false
  else none

end ScriptGraph.Reading
