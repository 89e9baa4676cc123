import Multipart.Toml.Value

/-! # Documents -/

namespace Multipart.Toml

/-- The root table, and the path of the table that keys are added to. -/
structure Document where
  root : Value
  header : List String

namespace Document

def empty : Document := ⟨.table .header [], []⟩

def updateCurrent (f : Value → Option Value) (d : Document) : Option Document := do
  some { d with root := ← d.root.updateAt .passed f d.header }

def header? (d : Document) (cs : List Char) : Option (Document × List Char) := do
  let (keys, rest) ← key? (depthLimit - 1) cs
  match rest with
  | ']' :: rest =>
    let root ← d.root.openTable keys.dropLast (← keys.getLast?)
    some (⟨root, keys⟩, ← restOfLine? rest)
  | _ => none

def elementHeader? (d : Document) (cs : List Char) : Option (Document × List Char) := do
  let (keys, rest) ← key? (depthLimit - 1) cs
  match rest with
  | ']' :: ']' :: rest =>
    let root ← d.root.openElement keys.dropLast (← keys.getLast?)
    some (⟨root, keys⟩, ← restOfLine? rest)
  | _ => none

def entry? (d : Document) (cs : List Char) : Option (Document × List Char) := do
  let ((keys, v), rest) ← keyValue? (value? (depthLimit - 1)) cs
  let d ← d.updateCurrent (insertKeys keys v)
  some (d, ← restOfLine? rest)

def line? (d : Document) : List Char → Option (Document × List Char)
  | '#' :: cs => (restOfLine? ('#' :: cs)).map (d, ·)
  | '[' :: '[' :: cs => d.elementHeader? cs
  | '[' :: cs => d.header? cs
  | '\n' :: cs => some (d, cs)
  | '\r' :: cs => (newline? ('\r' :: cs)).map (d, ·)
  | cs => d.entry? cs

def lines? : Nat → Document → List Char → Option Document
  | 0, _, _ => none
  | fuel + 1, d, cs =>
    match skipBlanks cs with
    | [] => some d
    | cs => do
      let (d, rest) ← d.line? cs
      lines? fuel d rest

def byteOrderMark : Char := '\uFEFF'

def skipByteOrderMark : List Char → List Char
  | c :: cs => if c = byteOrderMark then cs else c :: cs
  | [] => []

end Document

def read? (text : String) : Option Entries := do
  let cs := Document.skipByteOrderMark text.toList
  match (← Document.lines? (cs.length + 1) .empty cs).root with
  | .table _ entries => some entries
  | _ => none

end Multipart.Toml
