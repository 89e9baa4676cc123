import Multipart.Decimal.Shortest

/-! # Writing doubles -/

namespace Multipart

structure DoubleLayout where
  /-- Numbers from `10 ^ positionalFrom` … -/
  positionalFrom : Int
  /-- … and below `10 ^ positionalBelow` have no exponent. -/
  positionalBelow : Int
  exponentWidth : Nat

namespace DoubleLayout

def zeros (n : Nat) : List Char := List.replicate n '0'

/-- A point among the digits, with zeros where there are none, and a digit on either side. -/
def positional (d : Digits) : List Char :=
  let size := d.digits.length
  if d.point ≤ 0 then ['0', '.'] ++ zeros (-d.point).toNat ++ d.digits
  else if size ≤ d.point.toNat then d.digits ++ zeros (d.point.toNat - size) ++ ['.', '0']
  else d.digits.take d.point.toNat ++ ['.'] ++ d.digits.drop d.point.toNat

def scientific (layout : DoubleLayout) (d : Digits) : List Char :=
  let power := d.point - 1
  let size := Decimal.digits power.natAbs
  let mantissa := match d.digits with
    | first :: second :: rest => first :: '.' :: second :: rest
    | digits => digits
  mantissa ++ ['e', if power < 0 then '-' else '+']
    ++ zeros (layout.exponentWidth - size.length) ++ size

def magnitude (layout : DoubleLayout) (m : Nat) : List Char :=
  if m = 0 then ['0', '.', '0']
  else
    let d := Digits.shortest m
    if layout.positionalFrom < d.point ∧ d.point ≤ layout.positionalBelow then positional d
    else layout.scientific d

def write (layout : DoubleLayout) (x : Double) : List Char :=
  if x.isNan then "nan".toList
  else
    let body := if x.isInfinite then "inf".toList else layout.magnitude x.magnitude
    if x.negative then '-' :: body else body

end DoubleLayout

end Multipart
