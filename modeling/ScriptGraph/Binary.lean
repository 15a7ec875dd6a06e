/-!
# Binary floating point

The two interchange formats with their fields. `BinaryFormat.decode` reads a bit pattern as an exact number
`m · 2 ^ e`, and `BinaryFormat.nearest` finds the pattern of the number nearest to a quotient, a tie going to the even
one. Both are exact: they compute with natural numbers alone.
-/

namespace ScriptGraph

/-- The power of two with the given exponent. -/
def twoPow (n : Nat) : Nat := Nat.pow 2 n

/-- The power of ten with the given exponent. -/
def tenPow (n : Nat) : Nat := Nat.pow 10 n

/-- The integer nearest to `num / den`, a tie going to the even one. -/
def roundToEven (num den : Nat) : Nat :=
  let q := num / den
  let r := num % den
  if den < 2 * r || (2 * r == den && q % 2 == 1) then q + 1 else q

/-- A binary format, given by the widths of its fraction and exponent fields. -/
structure BinaryFormat where
  fractionBits : Nat
  exponentBits : Nat

/-- The number that a bit pattern stands for; a finite one is `mantissa · 2 ^ exponent`. -/
inductive BinaryValue where
  | nan
  | infinite (negative : Bool)
  | finite (negative : Bool) (mantissa : Nat) (exponent : Int)
  deriving DecidableEq, Repr

namespace BinaryFormat

/-- Single precision. -/
def binary32 : BinaryFormat := ⟨23, 8⟩

/-- Double precision. -/
def binary64 : BinaryFormat := ⟨52, 11⟩

/-- The exponent of the last place of the smallest numbers. -/
def lowest (f : BinaryFormat) : Int :=
  2 - twoPow (f.exponentBits - 1) - f.fractionBits

/-- The pattern of infinity. -/
def infinityBits (f : BinaryFormat) : Nat :=
  (twoPow f.exponentBits - 1) * twoPow f.fractionBits

/-- The weight of the sign bit. -/
def signBit (f : BinaryFormat) : Nat :=
  twoPow (f.exponentBits + f.fractionBits)

/-- The number that a bit pattern stands for. -/
def decode (f : BinaryFormat) (bits : Nat) : BinaryValue :=
  let negative := bits / f.signBit % 2 == 1
  let magnitude := bits % f.signBit
  let field := magnitude / twoPow f.fractionBits
  let fraction := magnitude % twoPow f.fractionBits
  if magnitude = f.infinityBits then .infinite negative
  else if f.infinityBits < magnitude then .nan
  else if field = 0 then .finite negative fraction f.lowest
  else .finite negative (twoPow f.fractionBits + fraction) (f.lowest + (field - 1 : Nat))

/-- The largest `k` with `2 ^ k ≤ num / den`, for positive `num` and `den`. -/
def log2Ratio (num den : Nat) : Int :=
  let guess : Int := (num.log2 : Int) - (den.log2 : Int)
  if den * twoPow guess.toNat ≤ num * twoPow (-guess).toNat then guess else guess - 1

/-- The pattern, without the sign, of the number of the format that is nearest to `num / den`. -/
def nearest (f : BinaryFormat) (num den : Nat) : Nat :=
  if num = 0 then 0
  else
    let place := max (log2Ratio num den - f.fractionBits) f.lowest
    let count := roundToEven (num * twoPow (-place).toNat) (den * twoPow place.toNat)
    min ((place - f.lowest).toNat * twoPow f.fractionBits + count) f.infinityBits

/-- The pattern of the number of the format nearest to `mantissa · 2 ^ exponent`. -/
def nearestBinary (f : BinaryFormat) (mantissa : Nat) (exponent : Int) : Nat :=
  f.nearest (mantissa * twoPow exponent.toNat) (twoPow (-exponent).toNat)

/-- Puts the sign on a pattern. -/
def withSign (f : BinaryFormat) (negative : Bool) (magnitude : Nat) : Nat :=
  if negative then f.signBit + magnitude else magnitude

/-- The pattern of a number of the format nearest to the given one; the pattern of a NaN is the one whose fraction
field holds its highest bit alone. -/
def encode (f : BinaryFormat) : BinaryValue → Nat
  | .nan => f.infinityBits + twoPow (f.fractionBits - 1)
  | .infinite negative => f.withSign negative f.infinityBits
  | .finite negative mantissa exponent => f.withSign negative (f.nearestBinary mantissa exponent)

end BinaryFormat

/-- The exact value of a single-precision number. -/
def valueOfSingle (x : Float32) : BinaryValue :=
  BinaryFormat.binary32.decode x.toBits.toNat

/-- The exact value of a double-precision number. -/
def valueOfDouble (x : Float) : BinaryValue :=
  BinaryFormat.binary64.decode x.toBits.toNat

/-- The single-precision number nearest to a value. -/
def singleOfValue (v : BinaryValue) : Float32 :=
  Float32.ofBits (UInt32.ofNat (BinaryFormat.binary32.encode v))

/-- The double-precision number nearest to a value. -/
def doubleOfValue (v : BinaryValue) : Float :=
  Float.ofBits (UInt64.ofNat (BinaryFormat.binary64.encode v))

/-- The single-precision number nearest to a double. -/
def singleOfDouble (x : Float) : Float32 :=
  singleOfValue (valueOfDouble x)

end ScriptGraph
