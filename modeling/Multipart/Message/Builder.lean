import Multipart.Config.Basic
import Multipart.Form.Basic
import Multipart.Message.Basic

/-! # Building messages -/

namespace Multipart

structure Builder where
  boundary : Option Bytes := none
  entropy : Entropy
  lookup : MediaType.Lookup := MediaType.Lookup.byExtension
  chunkSize : ChunkSize := .standard

namespace Builder

def setBoundary (boundary : Bytes) (b : Builder) : Builder := { b with boundary := some boundary }

def setEntropy (entropy : Entropy) (b : Builder) : Builder := { b with entropy }

def setLookup (lookup : MediaType.Lookup) (b : Builder) : Builder := { b with lookup }

def setChunkSize (n : Nat) (b : Builder) : Builder := { b with chunkSize := b.chunkSize.replace n }

/-- Takes the read size, and the boundary if the configuration has one. -/
def configure (config : Config) (b : Builder) : Builder :=
  { b with
    chunkSize := config.readSize
    boundary := (config.boundary.map Utf8.encode) <|> b.boundary }

def resolveBoundary (b : Builder) : Traced (Except EncodingError Boundary) :=
  match b.boundary with
  | some boundary => return Boundary.ofBytes boundary
  | none => Boundary.draw b.entropy

def scalarParts (form : Form) : List Part :=
  form.scalars.map fun (name, value) => .scalar { name, value }

def filePart (b : Builder) (name : String) (upload : Upload) : Except EncodingError Part :=
  (fun p => .file (p.withChunkSize b.chunkSize.val)) <$> FilePart.ofUpload b.lookup name upload

def fileParts (b : Builder) (files : List (String × Upload)) : Except EncodingError (List Part) :=
  files.mapM fun (name, upload) => b.filePart name upload

def build (b : Builder) (form : Form) (files : List (String × Upload)) :
    Traced (Except EncodingError Message) := do
  match ← b.resolveBoundary with
  | .error e => return .error e
  | .ok boundary =>
    match b.fileParts files with
    | .error e => return .error e
    | .ok files => do
      Traced.report .messageBuilt
      return .ok ⟨boundary, scalarParts form ++ files⟩

end Builder

end Multipart
