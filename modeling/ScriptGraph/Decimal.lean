import ScriptGraph.Binary

/-!
# Decimal texts of binary numbers

Writing and reading. A number is written with the fewest significant digits that lie nearer to it than to any other
number of its format; `BinaryFormat.shortest` finds them by trying one digit, two digits and so on, on the two
decimals next to the number. A `NumberStyle` says how the digits are laid out. In the other direction
`Literal.ofChars?` reads the grammar of decimal texts, and `BinaryFormat.ofLiteral` rounds once.
-/

namespace ScriptGraph

/-- A positive decimal number: `0.d₁d₂… · 10 ^ point`. The first and the last digit are not zero. -/
structure Digits where
  digits : List Char
  point : Int

namespace Digits

/-- The decimal `count · 10 ^ power`, without the zeros at its end. -/
def ofScaled (count : Nat) (power : Int) : Digits :=
  let text := Nat.toDigits 10 count
  ⟨(text.reverse.dropWhile (· == '0')).reverse, text.length + power⟩

/-- Positional form without an exponent: `1200`, `1.5`, `0.002`. -/
def positional (d : Digits) : String :=
  let n := d.digits.length
  if d.point ≤ 0 then
    "0." ++ String.ofList (List.replicate (-d.point).toNat '0' ++ d.digits)
  else if n ≤ d.point.toNat then
    String.ofList (d.digits ++ List.replicate (d.point.toNat - n) '0')
  else
    String.ofList (d.digits.take d.point.toNat ++ '.' :: d.digits.drop d.point.toNat)

/-- Form with one digit before the point and a signed exponent: `1e+30`, `2.5e-7`. -/
def exponential (d : Digits) : String :=
  let exponent := d.point - 1
  let mantissa := match d.digits with
    | [] => "0"
    | [c] => String.singleton c
    | c :: rest => String.ofList (c :: '.' :: rest)
  mantissa ++ "e" ++ (if exponent < 0 then "-" else "+") ++ toString exponent.natAbs

end Digits

/-- Which of two equally near decimals is written. -/
inductive Tie where
  | up
  | even

/-- The largest `k` with `10 ^ k ≤ num / den`, found by climbing from a lower bound. -/
def log10Ratio (num den : Nat) : Int :=
  let low := (BinaryFormat.log2Ratio num den) * 30103 / 100000 - 1
  let holds (k : Int) : Bool := den * tenPow k.toNat ≤ num * tenPow (-k).toNat
  if holds (low + 2) then low + 2 else if holds (low + 1) then low + 1 else low

namespace BinaryFormat

/-- The open or closed interval of the reals that round to `mantissa · 2 ^ exponent`, and the number itself, in units
of `2 ^ (exponent - 2)`. -/
def interval (f : BinaryFormat) (mantissa : Nat) (exponent : Int) : Nat × Nat × Nat :=
  let below := if mantissa = twoPow f.fractionBits && f.lowest < exponent then 1 else 2
  (4 * mantissa - below, 4 * mantissa, 4 * mantissa + 2)

/-- The decimal on the grid of multiples of `10 ^ power` that is nearest to the number among those that read back. -/
def onGrid (f : BinaryFormat) (tie : Tie) (mantissa : Nat) (exponent : Int) (power : Int) : Option Nat :=
  let (low, mid, high) := f.interval mantissa exponent
  let unit := exponent - 2
  -- `x` units of the interval and `y` units of the grid compare as `x * scale` and `y * step`
  let scale := twoPow unit.toNat * tenPow (-power).toNat
  let step := twoPow (-unit).toNat * tenPow power.toNat
  let inside (y : Nat) : Bool :=
    if mantissa % 2 == 0 then low * scale ≤ y * step && y * step ≤ high * scale
    else low * scale < y * step && y * step < high * scale
  let floor := mid * scale / step
  let under := mid * scale - floor * step
  let above := (floor + 1) * step - mid * scale
  match inside floor && floor != 0, inside (floor + 1) with
  | true, true =>
    if under < above then some floor
    else if above < under then some (floor + 1)
    else match tie with
      | .up => some (floor + 1)
      | .even => some (if floor % 2 == 0 then floor else floor + 1)
  | true, false => some floor
  | false, true => some (floor + 1)
  | false, false => none

/-- The decimal on the first of the grids from `10 ^ power` downwards that has one, trying so many of them. -/
def shortestFrom (f : BinaryFormat) (tie : Tie) (mantissa : Nat) (exponent : Int) (power : Int) :
    Nat → Digits
  | 0 => Digits.ofScaled (mantissa * twoPow exponent.toNat) 0
  | tries + 1 =>
    match f.onGrid tie mantissa exponent power with
    | some count => Digits.ofScaled count power
    | none => f.shortestFrom tie mantissa exponent (power - 1) tries

/-- The fewest digits that read back as `mantissa · 2 ^ exponent`, nearest to it among those. -/
def shortest (f : BinaryFormat) (tie : Tie) (mantissa : Nat) (exponent : Int) : Digits :=
  let top := log10Ratio (mantissa * twoPow exponent.toNat) (twoPow (-exponent).toNat)
  f.shortestFrom tie mantissa exponent top 18

end BinaryFormat

/-- How a number is laid out: decimals whose point lies from `lowest` to `highest` are positional, others have an
exponent; `fraction` adds `.0` to a positional whole number. `none` bounds nothing. -/
structure NumberStyle where
  tie : Tie
  lowest : Option Int
  highest : Option Int
  fraction : Bool

namespace NumberStyle

/-- The text of a positive number or zero. -/
def magnitude (style : NumberStyle) (f : BinaryFormat) (mantissa : Nat) (exponent : Int) : String :=
  if mantissa = 0 then (if style.fraction then "0.0" else "0")
  else
    let d := f.shortest style.tie mantissa exponent
    if style.lowest.all (· ≤ d.point) && style.highest.all (d.point ≤ ·) then
      d.positional ++ (if style.fraction && d.digits.length ≤ d.point.toNat && 0 < d.point then ".0" else "")
    else d.exponential

/-- The text of a number. -/
def text (style : NumberStyle) (f : BinaryFormat) : BinaryValue → String
  | .nan => "NaN"
  | .infinite negative => if negative then "-inf" else "inf"
  | .finite negative mantissa exponent => (if negative then "-" else "") ++ style.magnitude f mantissa exponent

/-- Plain style: always positional, whole numbers without a point. -/
def plain : NumberStyle := ⟨.up, none, none, false⟩

end NumberStyle

/-- Plain text of a single-precision number. -/
def singleText (x : Float32) : String :=
  NumberStyle.plain.text .binary32 (valueOfSingle x)

/-- Plain text of a double-precision number. -/
def doubleText (x : Float) : String :=
  NumberStyle.plain.text .binary64 (valueOfDouble x)

/-- Text of a number rounded to an integer, a half going to the even neighbour; the sign stays, also before a zero. -/
def wholeText : BinaryValue → String
  | .nan => "NaN"
  | .infinite negative => if negative then "-inf" else "inf"
  | .finite negative mantissa exponent =>
    let whole := roundToEven (mantissa * twoPow exponent.toNat) (twoPow (-exponent).toNat)
    (if negative then "-" else "") ++ toString whole

/-- A number as a text writes it; a finite one is `count · 10 ^ power`. -/
inductive Literal where
  | nan
  | infinite (negative : Bool)
  | finite (negative : Bool) (count : Nat) (power : Int)
  deriving DecidableEq, Repr

namespace Literal

/-- The number that a list of digits writes. -/
def natOfDigits (digits : List Char) : Nat :=
  digits.foldl (fun n c => 10 * n + (c.toNat - 48)) 0

/-- The number that digits write, or the number that the first digits write if it reaches a limit. -/
def natUpTo (limit : Nat) (digits : List Char) : Nat :=
  digits.foldl (fun n c => if n < limit then 10 * n + (c.toNat - 48) else n) 0

/-- Removes a sign and says whether it was a minus. -/
def takeSign : List Char → Bool × List Char
  | '-' :: rest => (true, rest)
  | '+' :: rest => (false, rest)
  | rest => (false, rest)

/-- Digits of an exponent are read until it reaches this. -/
def exponentLimit : Nat := 65536

/-- An exponent mark with its signed digits, up to the end of the text. -/
private def exponent? : List Char → Option Int
  | [] => some 0
  | c :: rest =>
    if c == 'e' || c == 'E' then
      let (negative, digits) := takeSign rest
      if digits.isEmpty || !digits.all Char.isDigit then none
      else
        let n := natUpTo exponentLimit digits
        some (if negative then -(n : Int) else n)
    else none

/-- So many significant digits say more than where the middle between two numbers of a format lies. -/
def digitLimit : Nat := 800

/-- The number with the given digits and a power of ten. Of the digits beyond `digitLimit` it only matters whether one
of them is not zero, which is written as a one at their end. -/
def ofDigits (negative : Bool) (digits : List Char) (power : Int) : Literal :=
  let significant := digits.dropWhile (· == '0')
  let kept := significant.take digitLimit
  let rest := significant.drop digitLimit
  if rest.isEmpty then .finite negative (natOfDigits kept) power
  else
    let last := if rest.all (· == '0') then 0 else 1
    .finite negative (10 * natOfDigits kept + last) (power + rest.length - 1)

/-- Reads an optional sign, then `inf`, `infinity` or `nan` in any case, or digits with an optional point among them
or at either end and an optional exponent. -/
def ofChars? (text : List Char) : Option Literal :=
  let (negative, body) := takeSign text
  let word := body.map fun c => if 65 ≤ c.toNat && c.toNat ≤ 90 then Char.ofNat (c.toNat + 32) else c
  if word == ['i', 'n', 'f'] || word == ['i', 'n', 'f', 'i', 'n', 'i', 't', 'y'] then some (.infinite negative)
  else if word == ['n', 'a', 'n'] then some .nan
  else
    let whole := body.takeWhile Char.isDigit
    let afterWhole := body.dropWhile Char.isDigit
    let (fraction, afterFraction) := match afterWhole with
      | '.' :: rest => (rest.takeWhile Char.isDigit, rest.dropWhile Char.isDigit)
      | rest => ([], rest)
    if whole.isEmpty && fraction.isEmpty then none
    else (exponent? afterFraction).map fun e =>
      ofDigits negative (whole ++ fraction) (e - fraction.length)

end Literal

/-- The pattern of the number of a format nearest to a literal. A literal far outside the range of the format is
recognised by the position of its first digit. -/
def BinaryFormat.ofLiteral (f : BinaryFormat) : Literal → Nat
  | .nan => f.encode .nan
  | .infinite negative => f.withSign negative f.infinityBits
  | .finite negative count power =>
    let point := (Nat.toDigits 10 count).length + power
    f.withSign negative <|
      if count = 0 || point < -1000 then 0
      else if 1000 < point then f.infinityBits
      else f.nearest (count * tenPow power.toNat) (tenPow (-power).toNat)

/-- The single-precision number nearest to a literal. -/
def singleOfLiteral (l : Literal) : Float32 :=
  Float32.ofBits (UInt32.ofNat (BinaryFormat.binary32.ofLiteral l))

/-- The double-precision number nearest to a literal. -/
def doubleOfLiteral (l : Literal) : Float :=
  Float.ofBits (UInt64.ofNat (BinaryFormat.binary64.ofLiteral l))

end ScriptGraph
