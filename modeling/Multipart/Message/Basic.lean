import Multipart.Boundary
import Multipart.Message.Progress

/-! # Messages -/

namespace Multipart

structure Message where
  boundary : Boundary
  parts : List Part
  deriving DecidableEq, Repr

namespace Message

def contentType (m : Message) : String := "multipart/form-data; boundary=" ++ m.boundary.text

def dashes : Bytes := [0x2D, 0x2D]

def delimiter (m : Message) : Bytes := dashes ++ m.boundary.bytes ++ HeaderBlock.crlf

def closing (m : Message) : Bytes := dashes ++ m.boundary.bytes ++ dashes ++ HeaderBlock.crlf

variable (build : Build) (fs : FileSystem)

/-- Adds the sizes of some parts to a total, each with the delimiter and the line break around it,
up to the first part whose size is unknown. -/
def partsLength? (boundary total : Nat) :
    List Part → Traced (Except Panic (Option Nat) × List Part)
  | [] => return (.ok (some total), [])
  | part :: rest => do
    let (length, part) ← part.length? build fs
    match length with
    | .error cause => return (.error cause, part :: rest)
    | .ok none => do
      Traced.report .lengthUnknown
      return (.ok none, part :: rest)
    | .ok (some n) =>
      match build.addAll total [2 + boundary + 2, n, 2] with
      | .error cause => return (.error cause, part :: rest)
      | .ok total =>
        let (length, rest) ← partsLength? boundary total rest
        return (length, part :: rest)

def length? (m : Message) : Traced (Except Panic (Option Nat) × Message) := do
  let boundary := m.boundary.bytes.length
  let (total, parts) ← partsLength? build fs boundary 0 m.parts
  return (total >>= (·.mapM (build.add · (2 + boundary + 4))), { m with parts })

def requestHeaders (m : Message) : Traced (Except Panic (List (String × String)) × Message) := do
  let (length, m) ← m.length? build fs
  match length with
  | .error cause => return (.error cause, m)
  | .ok (some n) =>
    return (.ok [("Content-Length", String.ofList (Decimal.digits n)),
      ("Content-Type", m.contentType)], m)
  | .ok none => do
    Traced.report .chunkedTransfer
    return (.ok [("Transfer-Encoding", "chunked"), ("Content-Type", m.contentType)], m)

end Message

end Multipart
