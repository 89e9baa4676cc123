import Multipart.Decimal.Basic

/-!
# Binary floating numbers

Magnitudes are numbered upwards from zero, so a magnitude is the integer that its exponent and
fraction fields spell; the number after the last finite one is infinity.
-/

namespace Multipart

structure BinaryFormat where
  precision : Nat
  exponentBits : Nat

namespace BinaryFormat

def double : BinaryFormat := ⟨53, 11⟩

def single : BinaryFormat := ⟨24, 8⟩

variable (format : BinaryFormat)

def fractionBits : Nat := format.precision - 1

def leastExponent : Int := 3 - (1 <<< (format.exponentBits - 1) : Nat) - format.precision

def leadingBit : Nat := 1 <<< format.fractionBits

def infinity : Nat := (1 <<< format.exponentBits - 1) * format.leadingBit

def significand (magnitude : Nat) : Nat :=
  let fraction := magnitude % format.leadingBit
  if magnitude < format.leadingBit then fraction else format.leadingBit + fraction

def exponent (magnitude : Nat) : Int :=
  format.leastExponent + ((magnitude / format.leadingBit : Nat) - 1 : Nat)

end BinaryFormat

/-- The integer nearest to a quotient; a half goes to the even neighbour. -/
def divNearest (num den : Nat) : Nat :=
  let quotient := num / den
  let rest := num % den
  if 2 * rest < den then quotient
  else if den < 2 * rest then quotient + 1
  else quotient + quotient % 2

/-- The largest `e` with `2 ^ e ≤ num / den`, for positive numbers. -/
def floorLog2 (num den : Nat) : Int :=
  let guess : Int := (num.log2 : Int) - den.log2
  if den <<< guess.toNat ≤ num <<< (-guess).toNat then guess else guess - 1

namespace BinaryFormat

variable (format : BinaryFormat)

def nearest (num den : Nat) : Nat :=
  if num = 0 then 0
  else
    let place := max (floorLog2 num den - format.fractionBits) format.leastExponent
    let rounded := divNearest (num <<< (-place).toNat) (den <<< place.toNat)
    min format.infinity
      ((place - format.leastExponent).toNat * format.leadingBit + rounded)

/-- The magnitude nearest to a decimal. Decimals far outside the range of every format are not
expanded. -/
def nearestDecimal (d : Decimal) : Nat :=
  let size := (Decimal.digits d.units).length + d.exponent
  if d.units = 0 ∨ size < -1000 then 0
  else if 1000 < size then format.infinity
  else format.nearest (d.units * Nat.pow 10 d.exponent.toNat) (Nat.pow 10 (-d.exponent).toNat)

end BinaryFormat

structure Double where
  bits : UInt64
  deriving DecidableEq, Repr

namespace Double

def signBit : Nat := 0x8000000000000000

def negative (x : Double) : Bool := signBit ≤ x.bits.toNat

def magnitude (x : Double) : Nat := x.bits.toNat % signBit

def ofMagnitude (negative : Bool) (magnitude : Nat) : Double :=
  ⟨.ofNat ((if negative then signBit else 0) + magnitude)⟩

def isNan (x : Double) : Bool := BinaryFormat.double.infinity < x.magnitude

def isInfinite (x : Double) : Bool := x.magnitude == BinaryFormat.double.infinity

def isFinite (x : Double) : Bool := x.magnitude < BinaryFormat.double.infinity

def nan : Double := ofMagnitude false (BinaryFormat.double.infinity + 0x8000000000000)

def infinity (negative : Bool) : Double := ofMagnitude negative BinaryFormat.double.infinity

/-- Numeric equality: the two zeros are equal, and nothing equals a NaN. -/
def same (x y : Double) : Bool :=
  !x.isNan && !y.isNan && (x.bits == y.bits || (x.magnitude == 0 && y.magnitude == 0))

def ofDecimal (d : Decimal) : Double :=
  ofMagnitude d.negative (BinaryFormat.double.nearestDecimal d)

def ofSingle (negative : Bool) (magnitude : Nat) : Double :=
  if BinaryFormat.single.infinity ≤ magnitude then infinity negative
  else
    let place := BinaryFormat.single.exponent magnitude
    ofMagnitude negative (BinaryFormat.double.nearest
      (BinaryFormat.single.significand magnitude <<< place.toNat) (1 <<< (-place).toNat))

/-- Rounds a decimal twice: to single precision, then, without loss, to double. -/
def ofDecimalBySingle (d : Decimal) : Double :=
  ofSingle d.negative (BinaryFormat.single.nearestDecimal d)

def ofWord? (cs : List Char) : Option Double :=
  let (negative, rest) := Decimal.takeSign cs
  let word := rest.map Char.toLower
  if word = "inf".toList ∨ word = "infinity".toList then some (infinity negative)
  else if word = "nan".toList then some nan
  else none

def read? (s : String) : Option Double :=
  match ofWord? s.toList with
  | some x => some x
  | none => (Decimal.read? s.toList).map ofDecimal

def readBySingle? (s : String) : Option Double :=
  match ofWord? s.toList with
  | some x => some x
  | none => (Decimal.read? s.toList).map ofDecimalBySingle

end Double

end Multipart
