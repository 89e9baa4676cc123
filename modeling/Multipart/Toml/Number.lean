import Multipart.Decimal.Binary
import Multipart.Octet

/-! # Numbers and times -/

namespace Multipart.Toml

/-- Digits, between which single underscores may stand. -/
def isGrouped (isDigit : Char → Bool) : List Char → Bool
  | [] => false
  | [c] => isDigit c
  | c :: '_' :: cs => isDigit c && isGrouped isDigit cs
  | c :: cs => isDigit c && isGrouped isDigit cs

def ungroup (cs : List Char) : List Char := cs.filter (· != '_')

def isDecimal (cs : List Char) : Bool :=
  let digits := (Decimal.takeSign cs).2
  isGrouped Char.isDigit digits && (digits.length == 1 || digits.head? != some '0')

def isExponent : List Char → Bool
  | [] => false
  | c :: cs => (c == 'e' || c == 'E') && isGrouped Char.isDigit (Decimal.takeSign cs).2

def largestInteger : Int := 0x7FFFFFFFFFFFFFFF

def leastInteger : Int := -0x8000000000000000

def radixInteger? (radix : Nat) (cs : List Char) : Option Int :=
  let value? (c : Char) : Option Nat := (Hex.digitValue? c).filter (· < radix)
  if isGrouped (fun c => (value? c).isSome) cs then
    ((ungroup cs).mapM value?).map fun digits => (digits.foldl (fun n d => n * radix + d) 0 : Nat)
  else none

/-- An integer; only a decimal one can have a sign. Integers have 64 bits. -/
def integer? (cs : List Char) : Option Int :=
  let n := match cs with
    | '0' :: 'x' :: digits => radixInteger? 16 digits
    | '0' :: 'o' :: digits => radixInteger? 8 digits
    | '0' :: 'b' :: digits => radixInteger? 2 digits
    | _ => if isDecimal cs then Decimal.readInt? (ungroup cs) else none
  n.filter fun n => leastInteger ≤ n && n ≤ largestInteger

def isFloat (cs : List Char) : Bool :=
  let (whole, rest) := cs.span fun c => c != '.' && c != 'e' && c != 'E'
  isDecimal whole &&
    match rest with
    | '.' :: rest =>
      let (fraction, exponent) := rest.span fun c => c != 'e' && c != 'E'
      isGrouped Char.isDigit fraction && (exponent.isEmpty || isExponent exponent)
    | exponent => isExponent exponent

/-- A float, or the word for one that has no digits. A number too large for a float is refused
unless it is negative. -/
def float? (cs : List Char) : Option Double :=
  let (negative, word) := Decimal.takeSign cs
  if word = "inf".toList then some (.infinity negative)
  else if word = "nan".toList then some .nan
  else if isFloat cs then
    ((Decimal.read? (ungroup cs)).map Double.ofDecimal).filter (· != .infinity false)
  else none

def field? (count low high : Nat) (cs : List Char) : Option (Nat × List Char) :=
  let digits := cs.take count
  let n := Decimal.ofDigits digits
  if digits.length = count ∧ digits.all Char.isDigit ∧ low ≤ n ∧ n ≤ high then
    some (n, cs.drop count)
  else none

def isLeapYear (year : Nat) : Bool := year % 4 == 0 && (year % 100 != 0 || year % 400 == 0)

def daysInMonth (year month : Nat) : Nat :=
  if month = 2 then if isLeapYear year then 29 else 28
  else if month ∈ [4, 6, 9, 11] then 30
  else 31

def expect? (c : Char) (cs : List Char) : Option (List Char) :=
  if cs.head? = some c then some cs.tail else none

def afterDate? (cs : List Char) : Option (List Char) := do
  let (year, cs) ← field? 4 0 9999 cs
  let (month, cs) ← field? 2 1 12 (← expect? '-' cs)
  let (_, cs) ← field? 2 1 (daysInMonth year month) (← expect? '-' cs)
  some cs

/-- What follows a time of day. A minute may have a leap second. -/
def afterTime? (cs : List Char) : Option (List Char) := do
  let (_, cs) ← field? 2 0 23 cs
  let (_, cs) ← field? 2 0 59 (← expect? ':' cs)
  let (_, cs) ← field? 2 0 60 (← expect? ':' cs)
  match cs with
  | '.' :: cs =>
    let (fraction, cs) := cs.span Char.isDigit
    if fraction.isEmpty then none else some cs
  | cs => some cs

def isOffset (cs : List Char) : Bool :=
  match cs with
  | ['Z'] | ['z'] => true
  | c :: cs => (c == '+' || c == '-') && isHoursMinutes cs
  | [] => false
where
  isHoursMinutes (cs : List Char) : Bool :=
    match (do
      let (_, cs) ← field? 2 0 23 cs
      field? 2 0 59 (← expect? ':' cs)) with
    | some (_, cs) => cs.isEmpty
    | none => false

def isTimeWithOffset (cs : List Char) : Bool :=
  match afterTime? cs with
  | some cs => cs.isEmpty || isOffset cs
  | none => false

def isDate (cs : List Char) : Bool := (afterDate? cs).any List.isEmpty

def isDateTime (cs : List Char) : Bool :=
  match afterDate? cs with
  | some [] => true
  | some (c :: cs) => (c == 'T' || c == 't') && isTimeWithOffset cs
  | none => (afterTime? cs).any List.isEmpty

end Multipart.Toml
