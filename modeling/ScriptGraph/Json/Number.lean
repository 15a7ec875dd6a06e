import ScriptGraph.Decimal
import ScriptGraph.Json.Value

/-!
# JSON numbers

Reading and writing. Digits alone are an integer if it fits into 64 bits. Any other number is a double made in two
steps: the first digits that fit into 64 bits are rounded, and the result is scaled by one power of ten and rounded
again. A number beyond the doubles cannot be read.
-/

namespace ScriptGraph.Json.Number

/-- The largest unsigned integer of 64 bits. -/
def maxWord : Nat := twoPow 64 - 1

/-- The double nearest to `10 ^ power`. -/
def powerOfTen (power : Nat) : Float :=
  doubleOfLiteral (.finite false 1 power)

/-- Appends digits to a number while the result fits into a word; also counts the digits left over. -/
def takeWhole : Nat → List Char → Nat × Nat
  | n, [] => (n, 0)
  | n, c :: rest =>
    let next := 10 * n + (c.toNat - 48)
    if next ≤ maxWord then takeWhole next rest else (n, rest.length + 1)

/-- Appends digits to a number while the result fits into a word; also counts the digits taken. -/
def takeFraction : Nat → List Char → Nat × Nat
  | n, [] => (n, 0)
  | n, c :: rest =>
    let next := 10 * n + (c.toNat - 48)
    if next ≤ maxWord then
      let (m, taken) := takeFraction next rest
      (m, taken + 1)
    else (n, 0)

/-- `significand · 10 ^ power` in at most three rounded steps, unless it is too large. -/
def scaled (significand : Nat) (power : Int) : Option Float :=
  let x := doubleOfValue (.finite false significand 0)
  if significand = 0 then some x
  else if 308 < power then none
  else if 0 ≤ power then
    let y := x * powerOfTen power.toNat
    if y.isInf then none else some y
  else if -308 ≤ power then some (x / powerOfTen (-power).toNat)
  else if -616 ≤ power then some (x / powerOfTen 308 / powerOfTen (-power - 308).toNat)
  else some 0

/-- The number with the given sign, integer digits, fraction digits and exponent. -/
def ofParts (negative : Bool) (whole : List Char) (fraction : Option (List Char)) (exponent : Option Int) :
    Option Number :=
  let n := Literal.natOfDigits whole
  if fraction.isNone && exponent.isNone && !negative && n ≤ maxWord then some (.int n)
  else if fraction.isNone && exponent.isNone && negative && 0 < n && n ≤ twoPow 63 then some (.int (-n))
  else
    let (significand, left) := takeWhole 0 whole
    let (significand, taken) := takeFraction significand (fraction.getD [])
    (scaled significand (left - taken + exponent.getD 0)).map fun x => .double (if negative then -x else x)

/-- A nonempty run of digits at the start of a text, and the rest. -/
def digits? (text : List Char) : Option (List Char × List Char) :=
  let run := text.takeWhile Char.isDigit
  if run.isEmpty then none else some (run, text.dropWhile Char.isDigit)

/-- A point with digits after it, or none, and the rest. -/
def fraction? : List Char → Option (Option (List Char) × List Char)
  | '.' :: rest => (digits? rest).map fun parts => (some parts.1, parts.2)
  | rest => some (none, rest)

/-- A mark of an exponent with signed digits up to the end, or nothing at all. -/
def exponent? : List Char → Option (Option Int)
  | [] => some none
  | c :: rest =>
    if c == 'e' || c == 'E' then
      let (negative, text) := Literal.takeSign rest
      match digits? text with
      | some (run, []) =>
        let n := Literal.natOfDigits run
        some (some (if negative then -(n : Int) else n))
      | _ => none
    else none

/-- Reads a number without its sign: digits without a zero before others, then optionally a point with digits and an
exponent. -/
def unsigned? (negative : Bool) (text : List Char) : Option Number :=
  (digits? text).bind fun (whole, afterWhole) =>
    if whole.head? == some '0' && 1 < whole.length then none
    else
      (fraction? afterWhole).bind fun (fraction, afterFraction) =>
        (exponent? afterFraction).bind fun exponent => ofParts negative whole fraction exponent

/-- Reads a whole text as a number, with a minus sign or none. -/
def ofChars? : List Char → Option Number
  | '-' :: rest => unsigned? true rest
  | text => unsigned? false text

/-- Doubles of a document: positional from `0.00001` below `10 ^ 16`, always with a point. -/
def doubleStyle : NumberStyle := ⟨.even, some (-4), some 16, true⟩

/-- Single-precision numbers of a document: positional from `0.000001` below `10 ^ 13`, always with a point. -/
def singleStyle : NumberStyle := ⟨.even, some (-5), some 13, true⟩

/-- The written form of a number. -/
def text : Number → String
  | .int value => toString value
  | .double value => doubleStyle.text .binary64 (valueOfDouble value)

/-- The written form of a single-precision number. What is not a number or infinite has none and is written `null`. -/
def singleText (x : Float32) : String :=
  if x.isFinite then singleStyle.text .binary32 (valueOfSingle x) else "null"

/-- The nearest double. -/
def toDouble : Number → Float
  | .int value => doubleOfValue (.finite (value < 0) value.natAbs 0)
  | .double value => value

end ScriptGraph.Json.Number
