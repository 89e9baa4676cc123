import Multipart.Decimal.Binary

/-!
# Shortest digits

On the decimal grid with `n` significant digits only the two neighbours of a double can be the
nearest points, so the fewest digits that read back are found by trying those two on grids of
1, 2, 3, … digits. Of two points inside the interval the nearer one is taken, and of two equally
near ones the larger.
-/

namespace Multipart

/-- The number `0.d₁d₂… * 10 ^ point`. -/
structure Digits where
  digits : List Char
  point : Int
  deriving DecidableEq, Repr

/-- The doubles' interval around `4 * significand`, in quarters of the last place. The lower
neighbour of a power of two is nearer than the upper one. -/
structure RoundingInterval where
  low : Nat
  center : Nat
  high : Nat
  closed : Bool
  place : Int

namespace RoundingInterval

def ofMagnitude (magnitude : Nat) : RoundingInterval :=
  let significand := BinaryFormat.double.significand magnitude
  let powerOfTwo := magnitude % 0x10000000000000 == 0 && 0x20000000000000 ≤ magnitude
  ⟨4 * significand - (if powerOfTwo then 1 else 2), 4 * significand, 4 * significand + 2,
    significand % 2 == 0, BinaryFormat.double.exponent magnitude - 2⟩

/-- Grid points are multiples of `gridUnit`, and the interval is measured in `quarterUnit`, both
over a common denominator, when grid points are `10 ^ grid` apart. -/
def gridUnit (i : RoundingInterval) (grid : Int) : Nat :=
  Nat.pow 10 grid.toNat <<< (-i.place).toNat

def quarterUnit (i : RoundingInterval) (grid : Int) : Nat :=
  Nat.pow 10 (-grid).toNat <<< i.place.toNat

def contains (i : RoundingInterval) (grid : Int) (c : Nat) : Bool :=
  let point := c * i.gridUnit grid
  let low := i.low * i.quarterUnit grid
  let high := i.high * i.quarterUnit grid
  if i.closed then low ≤ point && point ≤ high else low < point && point < high

def pick? (i : RoundingInterval) (grid : Int) : Option Nat :=
  let unit := i.gridUnit grid
  let center := i.center * i.quarterUnit grid
  let below := center / unit
  match i.contains grid below, i.contains grid (below + 1) with
  | true, true => some (if 2 * (center - below * unit) < unit then below else below + 1)
  | true, false => some below
  | false, true => some (below + 1)
  | false, false => none

/-- The least `k` with `center < 10 ^ k`. Every positive double is above `10 ^ -400`. -/
def size (i : RoundingInterval) : Int :=
  let scaled := i.center * i.quarterUnit (-400) / i.gridUnit (-400)
  (Decimal.digits scaled).length - 400

def search (i : RoundingInterval) (size : Int) : Nat → Nat → Option (Nat × Int)
  | 0, _ => none
  | fuel + 1, count =>
    match i.pick? (size - count) with
    | some c => some (c, size - count)
    | none => i.search size fuel (count + 1)

end RoundingInterval

namespace Digits

def ofScaled (c : Nat) (grid : Int) : Digits :=
  let cs := Decimal.digits c
  ⟨(cs.reverse.dropWhile (· == '0')).reverse, cs.length + grid⟩

/-- The fewest digits that read back as the double with this positive finite magnitude. Seventeen
always suffice. -/
def shortest (magnitude : Nat) : Digits :=
  let i := RoundingInterval.ofMagnitude magnitude
  match i.search i.size 17 1 with
  | some (c, grid) => ofScaled c grid
  | none => ofScaled (BinaryFormat.double.significand magnitude) 0

end Digits

end Multipart
