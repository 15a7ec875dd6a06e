import ScriptGraph.Decimal
import ScriptGraph.Text.Blank
import ScriptGraph.Text.Hex

/-!
# Colors

A color has four channels from 0 to 1 and is written as eight hexadecimal digits, red, green, blue and opacity.
-/

namespace ScriptGraph

/-- Red, green, blue and opacity. -/
structure Color where
  r : Float32
  g : Float32
  b : Float32
  a : Float32
  deriving DecidableEq

namespace Color

/-- An opaque color, its channels given in thousandths. -/
def ofThousandths (red green blue : Nat) : Color :=
  let channel (n : Nat) : Float32 := singleOfLiteral (.finite false n (-3))
  ⟨channel red, channel green, channel blue, channel 1000⟩

def gray : Color := ofThousandths 500 500 500
def green : Color := ofThousandths 0 1000 0
def blue : Color := ofThousandths 0 0 1000
def orange : Color := ofThousandths 1000 647 0
def yellow : Color := ofThousandths 1000 1000 0
def cyan : Color := ofThousandths 0 1000 1000
def sky : Color := ofThousandths 529 808 922
def royal : Color := ofThousandths 255 412 882
def pink : Color := ofThousandths 1000 412 706
def gold : Color := ofThousandths 1000 843 0
def purple : Color := ofThousandths 627 125 941

/-- The number that two characters write: two hexadecimal digits, or a plus sign and one. -/
def byte? (a b : Char) : Option Nat :=
  if a = '+' then Text.hexValue? b
  else do
    let high ← Text.hexValue? a
    let low ← Text.hexValue? b
    some (16 * high + low)

/-- The channel that a byte stands for. -/
def channelOfByte (n : Nat) : Float32 :=
  Float32.ofNat n / Float32.ofNat 255

/-- Reads six or eight digits, the opacity being full if it is absent. -/
def ofDigits? : List Char → Option Color
  | [a, b, c, d, e, f] => do
    let red ← byte? a b
    let green ← byte? c d
    let blue ← byte? e f
    some ⟨channelOfByte red, channelOfByte green, channelOfByte blue, Float32.ofNat 1⟩
  | [a, b, c, d, e, f, g, h] => do
    let red ← byte? a b
    let green ← byte? c d
    let blue ← byte? e f
    let alpha ← byte? g h
    some ⟨channelOfByte red, channelOfByte green, channelOfByte blue, channelOfByte alpha⟩
  | _ => none

/-- Reads a color with blanks around it and any number of `#` before its digits. -/
def ofHex? (s : String) : Option Color :=
  ofDigits? ((Text.trimChars s.toList).dropWhile (· == '#'))

/-- The byte nearest to a channel, a half going up, but never more than 255. A channel outside of 0 to 1 counts as the
nearer bound, and what is not a number as 0. -/
def byteOfChannel (x : Float32) : Nat :=
  let low := if x < Float32.ofNat 0 then Float32.ofNat 0 else x
  let bounded := if low > Float32.ofNat 1 then Float32.ofNat 1 else low
  match valueOfSingle (bounded * Float32.ofNat 255) with
  | .finite false mantissa exponent =>
    let num := mantissa * twoPow exponent.toNat
    let den := twoPow (-exponent).toNat
    min ((2 * num + den) / (2 * den)) 255
  | _ => 0

/-- The eight digits of a color. -/
def hexChars (c : Color) : List Char :=
  [c.r, c.g, c.b, c.a].flatMap fun x => Text.hexByte (byteOfChannel x)

/-- The eight digits of a color. -/
def hex (c : Color) : String :=
  String.ofList c.hexChars

end Color

end ScriptGraph
