import Multipart.Header.Block
import Multipart.Part.Upload
import Multipart.Size
import Multipart.Trace

/-!
# File parts

A file part keeps its header block, and a body that is held in memory. Any other body is read,
opened or awaited anew for each rendering, in chunks. A step that fails does not end the rendering;
that is left to the producer.
-/

namespace Multipart

/-- The size of a read, never zero. -/
abbrev ChunkSize := { n : Nat // 0 < n }

namespace ChunkSize

def standard : ChunkSize := ⟨65536, by decide⟩

/-- Zero keeps the size as it is. -/
def replace (size : ChunkSize) (n : Nat) : ChunkSize := if h : 0 < n then ⟨n, h⟩ else size

@[simp] theorem replace_zero (size : ChunkSize) : size.replace 0 = size := rfl

theorem replace_of_pos (size : ChunkSize) {n : Nat} (h : 0 < n) : size.replace n = ⟨n, h⟩ := by
  simp [replace, h]

end ChunkSize

structure FilePart where
  name : String
  filename : Option String
  headers : HeaderList
  source : Source
  chunkSize : ChunkSize := .standard
  keptBlock : Option Bytes := none
  keptBody : Option Bytes := none
  deriving DecidableEq, Repr

inductive BodyProgress
  | pending
  | reader
  | file (path : Path) (reader : Reader)
  | done
  deriving DecidableEq, Repr

inductive Poll (α : Type)
  | ready (value : α)
  | notReady
  deriving DecidableEq, Repr

/-- A chunk, the end, or a failure. -/
abbrev BodyStep := Except EncodingError (Option Bytes)

/-- The next chunk of a body, empty at the end. The buffer for it is allocated before any read. -/
def Reader.chunk (fs : FileSystem) (origin : Option Path) (size : ChunkSize) (reader : Reader) :
    Except EncodingError Bytes × Reader :=
  if largestBuffer < size.val then (.error (.panic .capacityOverflow), reader)
  else
    let (octets, reader) := reader.fill fs size.val
    (octets.mapError (.io origin), reader)

namespace FilePart

def ofUpload (lookup : MediaType.Lookup) (name : String) (upload : Upload) :
    Except EncodingError FilePart :=
  if upload.source.isTextMode then .error (.invalid .textModeSource)
  else .ok {
    name
    filename := upload.filename?
    headers := upload.headers lookup
    source := upload.source }

def withChunkSize (n : Nat) (p : FilePart) : FilePart :=
  { p with chunkSize := p.chunkSize.replace n }

def contentType? (p : FilePart) : Option String := p.headers.get? "Content-Type"

def freshBlock (p : FilePart) : Bytes := HeaderBlock.render p.name p.filename p.headers

def block (p : FilePart) : Bytes × FilePart :=
  let block := p.keptBlock.getD p.freshBlock
  (block, { p with keptBlock := some block })

def heldBody (p : FilePart) : Option Bytes × FilePart :=
  let body := p.keptBody <|> p.source.held?
  (body, { p with keptBody := body })

variable (build : Build) (fs : FileSystem)

def pathLength? (path : Path) : Traced (Option Nat) :=
  match fs.lookup path with
  | .error _ => pure none
  | .ok node =>
    if node.passesForRegular then
      match fs.openFile path with
      | .error _ => pure none
      | .ok reader =>
        match (reader.probe fs).1 with
        | some n => pure (some n)
        | none => do
          Traced.report .endNotSeekable
          return none
    else do
      Traced.report .notRegularFile
      return none

def sourceLength? : Source → Traced (Option Nat × Source)
  | .path path => (·, .path path) <$> pathLength? fs path
  | .reader reader => pure ((reader.probe fs).map id .reader)
  | source => pure (none, source)

/-- The size of header block and body together, if it can be known without reading the body. Two
buffers in memory are never too large for a sum. -/
def length? (p : FilePart) : Traced (Except Panic (Option Nat) × FilePart) := do
  let (block, p) := p.block
  let (held, p) := p.heldBody
  match held with
  | some body => return (.ok (some (block.length + body.length)), p)
  | none =>
    let (body, source) ← sourceLength? fs p.source
    return (body.mapM (build.add block.length), { p with source })

theorem sourceLength?_snd (source : Source) : (sourceLength? fs source).value.2 = source := by
  cases source with
  | reader reader => simp only [sourceLength?, Traced.value_pure, Reader.probe_eq, Prod.map]
  | bytes | text | path | stream => rfl

theorem length?_snd (p : FilePart) : (p.length? build fs).value.2 = p.block.2.heldBody.2 := by
  simp only [length?]
  cases p.block.2.heldBody.1 with
  | some body => rfl
  | none => simp only [Traced.value_bind, Traced.value_pure, sourceLength?_snd]

/-- Prepares a body that is not in memory. A reader that cannot go back to its beginning is read from
where it is. -/
def begin (p : FilePart) : Traced (Except EncodingError BodyProgress × FilePart) :=
  match p.source with
  | .stream _ => return (.error (.invalid .streamNotAwaited), p)
  | .reader reader =>
    if reader.isTextMode then return (.error (.invalid .textModeSource), p)
    else match reader.rewind? with
      | .ok reader => return (.ok .reader, { p with source := .reader reader })
      | .error _ => do
        Traced.report .sourceNotRewound
        return (.ok .reader, p)
  | .path path =>
    match fs.openFile path with
    | .ok reader => return (.ok (.file path reader), p)
    | .error e => return (.error (.io path e), p)
  | .bytes _ | .text _ => return (.ok .done, p)

/-- What a read means for the body: an empty one is its end. -/
def readStep (progress : BodyProgress) :
    Except EncodingError Bytes → Traced (BodyStep × BodyProgress)
  | .error e => return (.error e, progress)
  | .ok [] => return (.ok none, .done)
  | .ok chunk => do
    Traced.report .chunkRead
    return (.ok (some chunk), progress)

def continueBody (p : FilePart) : BodyProgress → Traced (BodyStep × FilePart × BodyProgress)
  | .pending => return (.ok none, p, .pending)
  | .done => return (.ok none, p, .done)
  | .reader =>
    match p.source with
    | .reader reader => do
      let (chunk, reader) := reader.chunk fs none p.chunkSize
      let (step, progress) ← readStep .reader chunk
      return (step, { p with source := .reader reader }, progress)
    | _ => return (.ok none, p, .done)
  | .file path reader => do
    let (chunk, reader) := reader.chunk fs (some path) p.chunkSize
    let (step, progress) ← readStep (.file path reader) chunk
    return (step, p, progress)

def pull (p : FilePart) (progress : BodyProgress) :
    Traced (BodyStep × FilePart × BodyProgress) :=
  if progress = .pending then
    let (held, p) := p.heldBody
    match held with
    | some body => return (.ok (some body), p, .done)
    | none => do
      let (begun, p) ← p.begin fs
      match begun with
      | .ok progress => p.continueBody fs progress
      | .error e => return (.error e, p, .pending)
  else p.continueBody fs progress

def emissionStep (progress : BodyProgress) : Emission → Poll (BodyStep × BodyProgress)
  | .chunk octets => .ready (.ok (some octets), progress)
  | .text _ => .ready (.error (.invalid .textModeSource), .done)
  | .failure reason => .ready (.error (.io none (.other reason)), .done)
  | .ended => .ready (.ok none, .done)
  | .notReady => .notReady

/-- Only streams are awaited. -/
def poll (p : FilePart) (progress : BodyProgress) :
    Traced (Poll BodyStep × FilePart × BodyProgress) :=
  match p.source with
  | .stream stream =>
    if progress = .done then return (.ready (.ok none), p, .done)
    else
      let (emission, stream) := stream.poll
      let p := { p with source := .stream stream }
      match emissionStep progress emission with
      | .ready (step, progress) => return (.ready step, p, progress)
      | .notReady => return (.notReady, p, progress)
  | _ => do
    let (step, p, progress) ← p.pull fs progress
    return (.ready step, p, progress)

end FilePart

end Multipart
