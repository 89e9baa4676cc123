import Multipart.Part.Basic

/-!
# Progress through a message

`Progress` is a place in the layout of a message. It gives delimiters, header blocks and scalars
itself and stops at the body of a file, which each producer takes in its own way; `resume` goes on
after each step of such a body.
-/

namespace Multipart

inductive Phase
  | delimiter
  | block
  | scalar
  | body (progress : BodyProgress)
  | trailer
  | done
  deriving DecidableEq, Repr

structure Progress where
  /-- The part that comes next or is under way. -/
  index : Nat
  phase : Phase
  deriving DecidableEq, Repr

inductive Portion
  | chunk (octets : Bytes)
  | body
  | ended
  deriving DecidableEq, Repr

namespace Progress

def start : Progress := ⟨0, .delimiter⟩

def contentPhase : Part → Phase
  | .scalar _ => .scalar
  | .file _ => .body .pending

def blockPortion (g : Progress) (parts : List Part) : Portion × Progress × List Part :=
  match parts[g.index]? with
  | some part =>
    let (block, kept) := part.block
    (.chunk block, { g with phase := contentPhase part }, parts.set g.index kept)
  | none => (.ended, { g with phase := .done }, parts)

def trailerPortion (g : Progress) (parts : List Part) : Portion × Progress × List Part :=
  (.chunk HeaderBlock.crlf, ⟨g.index + 1, .delimiter⟩, parts)

/-- The body of a scalar, in one chunk even when it is empty. -/
def scalarPortion (g : Progress) (parts : List Part) : Portion × Progress × List Part :=
  match parts[g.index]? with
  | some (.scalar part) =>
    let (body, part) := part.body
    (.chunk body, { g with phase := .trailer }, parts.set g.index (.scalar part))
  | _ => g.trailerPortion parts

def next (delimiter closing : Bytes) (g : Progress) (parts : List Part) :
    Portion × Progress × List Part :=
  match g.phase with
  | .delimiter =>
    if g.index < parts.length then (.chunk delimiter, { g with phase := .block }, parts)
    else (.chunk closing, { g with phase := .done }, parts)
  | .block => g.blockPortion parts
  | .scalar => g.scalarPortion parts
  | .body _ => (.body, g, parts)
  | .trailer => g.trailerPortion parts
  | .done => (.ended, g, parts)

def body? (g : Progress) : Option (Nat × BodyProgress) :=
  match g.phase with
  | .body progress => some (g.index, progress)
  | _ => none

/-- Goes on after a step of a body. The end of the body leads to the line break after it, and a
failure ends the message. -/
def resume (g : Progress) (step : BodyStep) (progress : BodyProgress) : Progress :=
  match step with
  | .ok (some _) => { g with phase := .body progress }
  | .ok none => { g with phase := .trailer }
  | .error _ => { g with phase := .done }

end Progress

end Multipart
