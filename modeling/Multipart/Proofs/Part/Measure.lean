import Multipart.Part.Basic
import Multipart.Proofs.Part.Content
import Multipart.Proofs.Size
import Multipart.Proofs.Success

/-!
# How large a part is

A part tells its size without reading its body, if that can be known at all. A path and a seekable
reader are measured from their beginning, where rendering starts as well. A file that the system
makes up and any other reader are taken at their word, and what they tell is right if they are
truthful.
-/

namespace Multipart

/-- A script that tells a length gives as much, when it is read to its end. -/
def Script.Truthful (fs : FileSystem) (size : ChunkSize) (s : Script) : Prop :=
  ∀ n octets, s.length = some n →
    (Reader.script s).rewound.contents fs size = .ok octets → octets.length = n

def Reader.Truthful (fs : FileSystem) (size : ChunkSize) : Reader → Prop
  | .script s => s.Truthful fs size
  | .cursor .. | .file _ | .pipe _ => True

namespace Source

def Truthful (fs : FileSystem) (size : ChunkSize) : Source → Prop
  | .path p => ∀ opened, fs.openFile p = .ok opened → opened.Truthful fs size
  | .reader r => r.Truthful fs size
  | .bytes _ | .text _ | .stream _ => True

/-- The body has a size that only reading it shows. -/
def SizeUnknown (fs : FileSystem) : Source → Prop
  | .bytes _ | .text _ => False
  | .stream _ => True
  | .reader r => r.length? fs = none
  | .path p =>
    (∃ e, fs.lookup p = .error e) ∨
    (∃ node, fs.lookup p = .ok node ∧ node.passesForRegular = false) ∨
    (∃ e, fs.openFile p = .error e) ∨
    ∃ opened, fs.openFile p = .ok opened ∧ opened.length? fs = none

theorem held?_of_sizeUnknown {fs : FileSystem} {source : Source} (unknown : source.SizeUnknown fs) :
    source.held? = none := by
  cases source <;> first | rfl | exact unknown.elim

end Source

variable {fs : FileSystem}

theorem FileSystem.openFile_cases {path : Path} {reader : Reader}
    (opened : fs.openFile path = .ok reader) :
    ∃ id, fs.resolve path = .ok id ∧
      ((∃ file, fs.node id = .special file ∧ file.opened = .ok reader) ∨
        reader = .file ⟨id, 0⟩) := by
  unfold openFile at opened
  cases found : fs.resolve path with
  | error e =>
    rw [found] at opened
    cases opened
  | ok id =>
    rw [found] at opened
    cases node : fs.node id with
    | special file =>
      simp only [bind, Except.bind, node] at opened
      exact ⟨id, rfl, .inl ⟨file, node, opened⟩⟩
    | directory | regular =>
      simp only [bind, Except.bind, node] at opened
      cases opened
      exact ⟨id, rfl, .inr rfl⟩

theorem Reader.rewound_of_openFile {path : Path} {reader : Reader}
    (opened : fs.openFile path = .ok reader) : reader.rewound = reader := by
  obtain ⟨id, -, ⟨file, -, opens⟩ | rfl⟩ := FileSystem.openFile_cases opened
  · unfold Files.SpecialFile.opened at opens
    cases refusal : file.refusal with
    | some e =>
      rw [refusal] at opens
      cases opens
    | none =>
      rw [refusal] at opens
      cases opens
      simp only [rewound, rewind?]
      cases file.rewinding <;> rfl
  · rfl

namespace FilePart

theorem pathLength?_eq_some_iff {path : Path} {n : Nat} :
    (pathLength? fs path).value = some n ↔
      ∃ node opened, fs.lookup path = .ok node ∧ node.passesForRegular = true ∧
        fs.openFile path = .ok opened ∧ opened.length? fs = some n := by
  unfold pathLength?
  cases found : fs.lookup path with
  | error e => simp
  | ok node =>
    cases regular : node.passesForRegular with
    | false => simp [regular]
    | true =>
      cases opens : fs.openFile path with
      | error e => simp [regular]
      | ok opened => cases told : opened.length? fs <;> simp [Reader.probe_eq, told, regular]

theorem pathLength?_none_iff (path : Path) :
    (pathLength? fs path).value = none ↔ (Source.path path).SizeUnknown fs := by
  rw [Option.eq_none_iff_forall_ne_some]
  simp only [ne_eq, pathLength?_eq_some_iff, Source.SizeUnknown]
  cases fs.lookup path with
  | error e => simp
  | ok node =>
    cases regular : node.passesForRegular with
    | false => simp [regular]
    | true =>
      cases fs.openFile path with
      | error e => simp
      | ok opened => cases told : opened.length? fs <;> simp [told, regular]

theorem sourceLength?_none_iff {source : Source} (memory : source.held? = none) :
    (sourceLength? fs source).value.1 = none ↔ source.SizeUnknown fs := by
  cases source with
  | bytes | text => cases memory
  | path path => exact pathLength?_none_iff path
  | reader reader => simp [sourceLength?, Source.SizeUnknown, Reader.probe_eq]
  | stream => simp [sourceLength?, Source.SizeUnknown]

theorem length_contents_of_length? {reader : Reader} {size : ChunkSize} {n : Nat} {octets : Bytes}
    (told : reader.length? fs = some n) (truthful : reader.Truthful fs size)
    (read : reader.rewound.contents fs size = .ok octets) : octets.length = n := by
  cases reader with
  | cursor content offset =>
    simp only [Reader.rewound, Reader.rewind?, Reader.contents, List.drop_zero] at read
    cases read
    exact Option.some.inj told
  | file f =>
    simp only [Reader.length?, OpenFile.endOffset?] at told
    simp only [Reader.rewound, Reader.rewind?, Reader.contents, FileSystem.content] at read
    cases node : fs.node f.node with
    | regular content =>
      simp only [node, Except.map, List.drop_zero] at read told
      cases read
      exact Option.some.inj told
    | directory =>
      simp only [node, Except.map] at read
      cases read
    | special => simp [node] at told
  | pipe rest => cases told
  | script s => exact truthful n octets told read

theorem contents_of_outcome {reader : Reader} {size : ChunkSize} {origin : Option Path}
    {octets : Bytes} (rendered : reader.outcome fs size origin = .ok octets) :
    reader.contents fs size = .ok octets := by
  unfold Reader.outcome at rendered
  split at rendered
  · cases rendered
  · exact eq_ok_of_mapError rendered

theorem length_outcome_of_sourceLength? {source : Source} {size : ChunkSize} {n : Nat}
    {octets : Bytes} (told : (sourceLength? fs source).value.1 = some n)
    (truthful : source.Truthful fs size)
    (rendered : (Content.ofSource size source).outcome fs = .ok octets) : octets.length = n := by
  cases source with
  | bytes | text | stream => cases told
  | path path =>
    obtain ⟨node, opened, -, -, opens, told⟩ := pathLength?_eq_some_iff.mp told
    simp only [Content.ofSource, Content.outcome, opens] at rendered
    refine length_contents_of_length? told (truthful opened opens) ?_
    rw [Reader.rewound_of_openFile opens]
    exact contents_of_outcome rendered
  | reader reader =>
    rw [sourceLength?, Traced.value_pure, Reader.probe_eq] at told
    simp only [Content.ofSource, Content.outcome] at rendered
    split at rendered
    · cases rendered
    · exact length_contents_of_length? told truthful (contents_of_outcome rendered)

/-- What is kept of the body is what the source holds in memory. -/
def Faithful (p : FilePart) : Prop := ∀ body, p.keptBody = some body → p.source.held? = some body

theorem Advanced.faithful {p q : FilePart} (moved : p.Advanced q) (faithful : p.Faithful) :
    q.Faithful := by
  intro body kept
  rw [moved.source.held?_eq]
  rcases moved.keptBody with same | filled
  · exact faithful body (same ▸ kept)
  · have held : p.heldBody.1 = some body := filled.symm.trans kept
    cases before : p.keptBody with
    | none => simpa [FilePart.heldBody, before] using held
    | some octets =>
      obtain rfl : octets = body := by simpa [FilePart.heldBody, before] using held
      exact faithful octets before

variable {p : FilePart}

theorem Faithful.heldBody_eq (faithful : p.Faithful) : p.heldBody.1 = p.source.held? := by
  cases kept : p.keptBody with
  | none => simp [heldBody, kept]
  | some body => simp [heldBody, kept, faithful body kept]

/-- The size of block and body that is told, however large it is. -/
def size? (fs : FileSystem) (p : FilePart) : Option Nat :=
  match p.heldBody.1 with
  | some body => some (p.block.1.length + body.length)
  | none => (sourceLength? fs p.source).value.1.map (p.block.1.length + ·)

theorem length?_eq (build : Build) (fs : FileSystem) (p : FilePart) :
    (p.length? build fs).value.1 =
      match p.heldBody.1 with
      | some body => .ok (some (p.block.1.length + body.length))
      | none => (sourceLength? fs p.source).value.1.mapM (build.add p.block.1.length) := by
  simp only [length?]
  have same : p.block.2.heldBody.1 = p.heldBody.1 := rfl
  rw [same]
  cases p.heldBody.1 <;> rfl

theorem tells_length? (build : Build) (fs : FileSystem) (p : FilePart) :
    build.Tells (p.size? fs = none) ((p.size? fs).getD 0) (p.length? build fs).value.1 := by
  rw [length?_eq, size?]
  cases p.heldBody.1 with
  | some body => exact .known nofun (.refl build _)
  | none =>
    cases (sourceLength? fs p.source).value.1 with
    | none => exact .unknown rfl
    | some n => exact (Build.Counts.add (.refl build _) (.refl build n)).tells nofun

theorem size?_of_length? {build : Build} {n : Nat}
    (told : (p.length? build fs).value.1 = .ok (some n)) :
    ∃ size, p.size? fs = some size ∧ build.Counts size n := by
  have tells := p.tells_length? build fs
  rw [told] at tells
  cases tells with
  | known known counts =>
    obtain ⟨size, size_eq⟩ := Option.ne_none_iff_exists'.mp known
    rw [size_eq] at counts
    exact ⟨size, size_eq, counts⟩

theorem content_length? (build : Build) (fs : FileSystem) (p : FilePart) :
    (p.length? build fs).value.2.content = p.content := by
  rw [length?_snd]
  cases held : p.heldBody.1 with
  | some body =>
    have filled : p.block.2.heldBody.2.keptBody = some body := held
    rw [content_of_held held, content, filled]
  | none =>
    have still : p.block.2.heldBody.1 = none := held
    rw [heldBody_of_none still]
    rfl

theorem size?_none_iff (faithful : p.Faithful) :
    p.size? fs = none ↔ p.source.SizeUnknown fs := by
  rw [size?, faithful.heldBody_eq]
  cases memory : p.source.held? with
  | some body =>
    constructor
    · intro told
      cases told
    · intro unknown
      rw [Source.held?_of_sizeUnknown unknown] at memory
      cases memory
  | none =>
    rw [← sourceLength?_none_iff memory]
    simp

theorem length_outcome_of_size? {n : Nat} {body : Bytes} (told : p.size? fs = some n)
    (truthful : p.source.Truthful fs p.chunkSize)
    (rendered : p.content.outcome fs = .ok body) : p.block.1.length + body.length = n := by
  rw [size?] at told
  cases held : p.heldBody.1 with
  | some octets =>
    rw [content_of_held held] at rendered
    cases rendered
    simpa [held] using told
  | none =>
    rw [content_of_none held] at rendered
    simp only [held, Option.map_eq_some_iff] at told
    obtain ⟨size, told, rfl⟩ := told
    rw [length_outcome_of_sourceLength? told truthful rendered]

end FilePart

end Multipart
