import Multipart.Files.System

/-! # Blocking readers -/

namespace Multipart

inductive Reader
  | cursor (content : Bytes) (offset : Nat)
  | file (file : OpenFile)
  | pipe (rest : Bytes)
  | script (script : Script)
  deriving DecidableEq, Repr

namespace Reader

def rewind? : Reader → Except SystemError Reader
  | .cursor content _ => .ok (.cursor content 0)
  | .file f => .ok (.file { f with offset := 0 })
  | .pipe _ => .error .notRewindable
  | .script s =>
    match s.rewinding with
    | .restores => .ok (.script { s with rest := s.whole })
    | .ignores => .ok (.script s)
    | .refuses => .error .notRewindable

def length? (fs : FileSystem) : Reader → Option Nat
  | .cursor content _ => some content.length
  | .file f => f.endOffset? fs
  | .pipe _ => none
  | .script s => s.length

def position? : Reader → Option Nat
  | .cursor _ offset => some offset
  | .file f => some f.offset
  | .pipe _ | .script _ => none

def seek (offset : Nat) : Reader → Reader
  | .cursor content _ => .cursor content offset
  | .file f => .file { f with offset }
  | reader => reader

def seekEnd? (fs : FileSystem) : Reader → Option Reader
  | .cursor content _ => some (.cursor content content.length)
  | .file f => (f.endOffset? fs).map fun offset => .file { f with offset }
  | .pipe _ | .script _ => none

/-- Finds the length. A reader that can seek goes to its end, and then back to where it was. -/
def probe (fs : FileSystem) : Reader → Option Nat × Reader
  | .script s => (s.length, .script s)
  | reader =>
    match reader.position?, reader.seekEnd? fs with
    | some offset, some ended => (ended.position?, ended.seek offset)
    | _, _ => (none, reader)

theorem probe_eq (fs : FileSystem) (reader : Reader) :
    reader.probe fs = (reader.length? fs, reader) := by
  cases reader with
  | cursor | pipe | script => rfl
  | file f => cases told : f.endOffset? fs <;> simp [probe, position?, seekEnd?, seek, length?, told]

/-- A reader in text mode gives text for which no octets are defined. -/
def isTextMode : Reader → Bool
  | .script s => s.textMode
  | _ => false

def read (fs : FileSystem) (limit : Nat) : Reader → Except SystemError Bytes × Reader
  | .cursor content offset =>
    let chunk := (content.drop offset).take limit
    (.ok chunk, .cursor content (offset + chunk.length))
  | .file f =>
    let (chunk, f) := f.read fs limit
    (chunk, .file f)
  | .pipe rest => (.ok (rest.take limit), .pipe (rest.drop limit))
  | .script s =>
    if limit = 0 then (.ok [], .script s)
    else
      let (chunk, rest) := Script.readFrom limit s.rest
      (chunk, .script { s with rest })

/-- Reads until `limit` octets, the end of the input or a failure. -/
def fill (fs : FileSystem) (limit : Nat) : Reader → Except SystemError Bytes × Reader
  | .script s =>
    let (chunk, rest) := Script.gather limit s.rest
    (chunk, .script { s with rest })
  | reader => reader.read fs limit

end Reader

namespace Files.SpecialFile

def opened (file : SpecialFile) : Except SystemError Reader :=
  match file.refusal with
  | some e => .error e
  | none => .ok (.script {
      whole := file.reads
      rewinding := file.rewinding
      length := file.endOffset })

end Files.SpecialFile

def FileSystem.openFile (fs : FileSystem) (p : Path) : Except SystemError Reader := do
  let id ← fs.resolve p
  match fs.node id with
  | .special file => file.opened
  | .directory .. | .regular _ => return .file ⟨id, 0⟩

end Multipart
