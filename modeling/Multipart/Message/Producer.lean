import Multipart.Message.Basic
import Multipart.Part.Rendering

/-! # Producers of messages -/

namespace Multipart

structure MessageProducer where
  message : Message
  progress : Progress := .start
  deriving DecidableEq, Repr

namespace MessageProducer

def portion (p : MessageProducer) : Portion × MessageProducer :=
  let (portion, progress, parts) :=
    p.progress.next p.message.delimiter p.message.closing p.message.parts
  (portion, ⟨{ p.message with parts }, progress⟩)

def setFile (p : MessageProducer) (index : Nat) (part : FilePart) : MessageProducer :=
  { p with message.parts := p.message.parts.set index (.file part) }

def resume (p : MessageProducer) (step : BodyStep) (progress : BodyProgress) : MessageProducer :=
  { p with progress := p.progress.resume step progress }

variable (fs : FileSystem)

def pullBody (p : MessageProducer) : Traced (BodyStep × MessageProducer × BodyProgress) :=
  match p.progress.body? with
  | none => return (.ok none, p, .done)
  | some (index, progress) =>
    match p.message.parts[index]? with
    | some (.file part) => do
      let (step, part, progress) ← part.pull fs progress
      return (step, p.setFile index part, progress)
    | _ => return (.ok none, p, progress)

def pollBody (p : MessageProducer) : Traced (Poll BodyStep × MessageProducer × BodyProgress) :=
  match p.progress.body? with
  | none => return (.ready (.ok none), p, .done)
  | some (index, progress) =>
    match p.message.parts[index]? with
    | some (.file part) => do
      let (answer, part, progress) ← part.poll fs progress
      return (answer, p.setFile index part, progress)
    | _ => return (.ready (.ok none), p, progress)

/-- The next item within a number of rounds. A round takes one portion; it gives no item when that
portion is a body which turns out to have ended. -/
def nextWithin : Nat → MessageProducer → Traced (Option (Option Item) × MessageProducer)
  | 0, p => return (none, p)
  | rounds + 1, p =>
    match p.portion with
    | (.chunk octets, p) => return (some (some (.ok octets)), p)
    | (.ended, p) => return (some none, p)
    | (.body, p) => do
      let (step, p, progress) ← p.pullBody fs
      let p := p.resume step progress
      match step.item? with
      | some item => return (some (some item), p)
      | none => nextWithin rounds p

/-- The next item. The line break after a body needs a second round, and nothing needs a third. -/
def next (p : MessageProducer) : Traced (Option Item × MessageProducer) := do
  let (item, p) ← nextWithin fs 2 p
  return (item.join, p)

def pollWithin : Nat → MessageProducer → Traced (Option (Poll (Option Item)) × MessageProducer)
  | 0, p => return (none, p)
  | rounds + 1, p =>
    match p.portion with
    | (.chunk octets, p) => return (some (.ready (some (.ok octets))), p)
    | (.ended, p) => return (some (.ready none), p)
    | (.body, p) => do
      let (answer, p, progress) ← p.pollBody fs
      match answer with
      | .notReady => return (some .notReady, p)
      | .ready step =>
        let p := p.resume step progress
        match step.item? with
        | some item => return (some (.ready (some item)), p)
        | none => pollWithin rounds p

def poll (p : MessageProducer) : Traced (Poll (Option Item) × MessageProducer) := do
  let (answer, p) ← pollWithin fs 2 p
  return (answer.getD (.ready none), p)

end MessageProducer

end Multipart
