import Multipart.Decimal.Layout
import Multipart.Text.Utf8

/-! # Scalar values -/

namespace Multipart

inductive Scalar
  | null
  | bool (b : Bool)
  | int (n : Int64)
  | float (x : Double)
  | text (s : String)
  | bytes (content : Bytes)
  deriving DecidableEq, Repr

namespace Scalar

/-- Floats have the fewest digits that read back, an exponent from 1e+16 on and below 1e-04, and
at least two digits in an exponent. -/
def floatLayout : DoubleLayout where
  positionalFrom := -4
  positionalBelow := 16
  exponentWidth := 2

/-- The canonical text. Raw octets are read as UTF-8 as far as they can be. -/
def spelling : Scalar → String
  | .null => ""
  | .bool true => "true"
  | .bool false => "false"
  | .int n => String.ofList (Decimal.ofInt n.toInt)
  | .float x => String.ofList (floatLayout.write x)
  | .text s => s
  | .bytes content => Utf8.decodeLossy content

def encode : Scalar → Bytes
  | .bytes content => content
  | s => Utf8.encode s.spelling

/-- Equality of values. Floats are compared as numbers, so a NaN differs from itself. -/
def same : Scalar → Scalar → Bool
  | .float x, .float y => x.same y
  | s, t => s == t

end Scalar

end Multipart
