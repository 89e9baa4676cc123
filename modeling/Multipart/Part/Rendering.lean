import Multipart.Part.File
import Multipart.Production

/-! # Rendering one file part -/

namespace Multipart

namespace BodyStep

def item? : BodyStep → Option Item
  | .ok (some chunk) => some (.ok chunk)
  | .ok none => none
  | .error e => some (.error e)

def progressAfter (step : BodyStep) (progress : BodyProgress) : BodyProgress :=
  match step with
  | .error _ => .done
  | .ok _ => progress

end BodyStep

structure BodyProducer where
  part : FilePart
  progress : BodyProgress := .pending
  deriving DecidableEq, Repr

namespace BodyProducer

variable (fs : FileSystem)

def next (b : BodyProducer) : Traced (Option Item × BodyProducer) := do
  let (step, part, progress) ← b.part.pull fs b.progress
  return (step.item?, ⟨part, step.progressAfter progress⟩)

/-- The next item, the end, or the answer that nothing is ready. -/
def poll (b : BodyProducer) : Traced (Poll (Option Item) × BodyProducer) := do
  let (answer, part, progress) ← b.part.poll fs b.progress
  match answer with
  | .ready step => return (.ready step.item?, ⟨part, step.progressAfter progress⟩)
  | .notReady => return (.notReady, ⟨part, progress⟩)

end BodyProducer

structure PartProducer where
  block : Option Bytes
  body : BodyProducer
  deriving DecidableEq, Repr

namespace PartProducer

def ofPart (p : FilePart) : PartProducer :=
  let (block, p) := p.block
  ⟨some block, { part := p }⟩

def next (fs : FileSystem) (r : PartProducer) : Traced (Option Item × PartProducer) :=
  match r.block with
  | some block => return (some (.ok block), ⟨none, r.body⟩)
  | none => do
    let (item, body) ← r.body.next fs
    return (item, ⟨none, body⟩)

end PartProducer

end Multipart
