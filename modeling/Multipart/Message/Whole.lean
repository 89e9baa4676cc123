import Multipart.Message.Producer
import Multipart.Source.Extent

/-! # Whole renderings -/

namespace Multipart

variable (build : Build) (fs : FileSystem)

/-- A rendering of the body has ended before this many items. The items beyond the source's extent
are a kept body, or the failure to open the source, and the end. -/
def FilePart.itemBound (p : FilePart) : Nat := p.source.extent fs + 2

def Part.itemBound : Part → Nat
  | .scalar _ => 4
  | .file p => p.itemBound fs + 3

def Message.itemBound (m : Message) : Nat :=
  m.parts.foldr (fun part n => part.itemBound fs + n) 2

def BodyProducer.run (b : BodyProducer) : Traced (Collected Item BodyProducer) :=
  collect (BodyProducer.next fs) (b.part.itemBound fs) b

def PartProducer.run (r : PartProducer) : Traced (Collected Item PartProducer) :=
  collect (PartProducer.next fs) (r.body.part.itemBound fs + 1) r

def MessageProducer.run (p : MessageProducer) : Traced (Collected Item MessageProducer) :=
  collect (MessageProducer.next fs) (p.message.itemBound fs) p

/-- All octets, or the first failure. -/
def joinItems (items : List Item) : Except EncodingError Bytes := List.flatten <$> items.mapM id

/-- The whole message in one piece, in a buffer of the size that was told beforehand. -/
def Message.encode (m : Message) : Traced (Except EncodingError Bytes × Message) := do
  let (length, m) ← m.length? build fs
  match length with
  | .error cause => return (.error (.panic cause), m)
  | .ok length =>
    if largestBuffer < length.getD 0 then return (.error (.panic .capacityOverflow), m)
    else
      let whole ← MessageProducer.run fs { message := m }
      return (joinItems whole.items, whole.producer.message)

end Multipart
