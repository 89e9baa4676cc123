import Multipart.Part.File
import Multipart.Part.Scalar

/-! # Parts -/

namespace Multipart

inductive Part
  | scalar (part : ScalarPart)
  | file (part : FilePart)
  deriving DecidableEq, Repr

namespace Part

def name : Part → String
  | .scalar p => p.name
  | .file p => p.name

def isScalar : Part → Bool
  | .scalar _ => true
  | .file _ => false

def block : Part → Bytes × Part
  | .scalar p => p.block.map id .scalar
  | .file p => p.block.map id .file

def length? (build : Build) (fs : FileSystem) :
    Part → Traced (Except Panic (Option Nat) × Part)
  | .scalar p => return p.length.map (.ok ∘ some) .scalar
  | .file p => Prod.map id .file <$> p.length? build fs

end Part

end Multipart
