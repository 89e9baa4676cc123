import Multipart.Error
import Multipart.Form.Scalar
import Multipart.Header.Block

/-!
# Scalar parts

A later change of its name or value does not show in what a scalar part has rendered.
-/

namespace Multipart

structure ScalarPart where
  name : String
  value : Scalar
  keptBlock : Option Bytes := none
  keptBody : Option Bytes := none
  deriving DecidableEq, Repr

namespace ScalarPart

def ofRawName (name : Bytes) (value : Scalar) : Except EncodingError ScalarPart :=
  match Utf8.decode name with
  | .ok name => .ok { name, value }
  | .error flaw => .error (.invalid (.nameNotText name flaw))

def freshBlock (p : ScalarPart) : Bytes := HeaderBlock.render p.name none .empty

def block (p : ScalarPart) : Bytes × ScalarPart :=
  let block := p.keptBlock.getD p.freshBlock
  (block, { p with keptBlock := some block })

def body (p : ScalarPart) : Bytes × ScalarPart :=
  let body := p.keptBody.getD p.value.encode
  (body, { p with keptBody := some body })

def chunks (p : ScalarPart) : (Bytes × Bytes) × ScalarPart :=
  let (block, p) := p.block
  let (body, p) := p.body
  ((block, body), p)

def length (p : ScalarPart) : Nat × ScalarPart :=
  let ((block, body), p) := p.chunks
  (block.length + body.length, p)

end ScalarPart

end Multipart
