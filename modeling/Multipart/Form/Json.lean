import Multipart.Error
import Multipart.Form.Basic

/-!
# JSON as form data

Integers are kept exactly: those beyond 64 signed bits as their decimal digits.
-/

namespace Multipart

inductive JsonNumber
  | integer (n : Int) (lower : -0x8000000000000000 ≤ n) (upper : n < 0x10000000000000000)
  | real (x : Double)
  deriving DecidableEq, Repr

inductive Json
  | null
  | bool (b : Bool)
  | number (n : JsonNumber)
  | string (s : String)
  | array (items : List Json)
  /-- Members in order, with different names. -/
  | object (members : List (String × Json))

namespace JsonNumber

/-- An integer if it is in range, and the nearest float otherwise. -/
def ofInt (n : Int) : JsonNumber :=
  if h : -0x8000000000000000 ≤ n ∧ n < 0x10000000000000000 then .integer n h.1 h.2
  else .real (.ofDecimal ⟨n < 0, n.natAbs, 0⟩)

def isWhole (cs : List Char) : Bool :=
  !cs.isEmpty && cs.all Char.isDigit && (cs.length == 1 || cs.head? != some '0')

def isFraction : List Char → Bool
  | [] => true
  | c :: digits => c == '.' && !digits.isEmpty && digits.all Char.isDigit

def isLiteral (cs : List Char) : Bool :=
  let unsigned := if cs.head? = some '-' then cs.tail else cs
  let (mantissa, exponent) := unsigned.span fun c => c != 'e' && c != 'E'
  let (whole, fraction) := mantissa.span (· != '.')
  isWhole whole && isFraction fraction && (Decimal.readExponent? exponent).isSome

/-- Reads a number. Without a point or an exponent it is an integer, except for a negative zero. A
number beyond every float is refused. -/
def read? (s : String) : Option JsonNumber :=
  let cs := s.toList
  if !isLiteral cs then none
  else match Decimal.readInt? cs with
    | some n => if n = 0 ∧ cs.head? = some '-' then some (.real (.ofMagnitude true 0))
        else finite (ofInt n)
    | none => (Double.read? s).bind fun x => finite (.real x)
where
  finite : JsonNumber → Option JsonNumber
    | .real x => if x.isFinite then some (.real x) else none
    | n => some n

end JsonNumber

namespace Json

def kind : Json → JsonKind
  | .null => .null
  | .bool _ => .bool
  | .number _ => .number
  | .string _ => .string
  | .array _ => .array
  | .object _ => .object

/-- An object from members that may repeat: a repeated name keeps its first place and takes the
last value. -/
def objectOf (members : List (String × Json)) : Json :=
  .object (members.foldl put [])
where
  put (members : List (String × Json)) (member : String × Json) : List (String × Json) :=
    if members.any (·.1 == member.1) then
      members.map fun m => if m.1 == member.1 then member else m
    else members ++ [member]

end Json

namespace Scalar

def ofJsonNumber : JsonNumber → Scalar
  | .integer n _ _ =>
    if n < 0x8000000000000000 then .int (.ofInt n) else .text (String.ofList (Decimal.ofInt n))
  | .real x => .float x

def ofJson : Json → Except EncodingError Scalar
  | .null => .ok .null
  | .bool b => .ok (.bool b)
  | .number n => .ok (ofJsonNumber n)
  | .string s => .ok (.text s)
  | json => .error (.invalid (.notPrimitive json.kind))

end Scalar

namespace FieldValue

def ofJson : Json → Except EncodingError FieldValue
  | .array items => .list <$> items.mapM Scalar.ofJson
  | json => .single <$> Scalar.ofJson json

end FieldValue

namespace Form

def ofJson : Json → Except EncodingError Form
  | .object members =>
    Form.mk <$> members.mapM fun (name, value) => (name, ·) <$> FieldValue.ofJson value
  | json => .error (.invalid (.notObject json.kind))

end Form

end Multipart
