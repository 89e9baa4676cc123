import Multipart.Part.Basic

/-!
# What rendering does to a part

Rendering moves readers and streams on and fills what the part keeps, and it does nothing else.
`FilePart.Advanced` says so of one part, and `FilePart.Pulled` of the steps of its body. Every
operation on a part stays within it, so what follows from it holds after any run of operations.
-/

namespace Multipart

/-- The same reader at another place. -/
inductive Reader.Advanced : Reader → Reader → Prop
  | cursor (content : Bytes) (i j : Nat) : Advanced (.cursor content i) (.cursor content j)
  | file (id : Files.NodeId) (i j : Nat) : Advanced (.file ⟨id, i⟩) (.file ⟨id, j⟩)
  | pipe (before rest : Bytes) : Advanced (.pipe (before ++ rest)) (.pipe rest)
  | script (s : Script) (rest : List ScriptedRead) : Advanced (.script s) (.script { s with rest })

namespace Reader.Advanced

theorem refl (r : Reader) : r.Advanced r := by
  cases r with
  | cursor content i => exact .cursor content i i
  | file f => exact .file f.node f.offset f.offset
  | pipe rest => exact .pipe [] rest
  | script s => exact .script s s.rest

theorem trans {q r s : Reader} (first : q.Advanced r) (second : r.Advanced s) : q.Advanced s := by
  cases first with
  | cursor content i j => cases second; exact .cursor ..
  | file id i j => cases second; exact .file ..
  | pipe before rest =>
    cases second with
    | pipe between rest =>
      rw [← List.append_assoc]
      exact .pipe ..
  | script s rest => cases second; exact .script ..

theorem rewind {r s : Reader} (h : r.rewind? = .ok s) : r.Advanced s := by
  cases r with
  | cursor content i => cases h; exact .cursor ..
  | file f => cases h; exact .file ..
  | pipe rest => cases h
  | script s =>
    simp only [rewind?] at h
    split at h
    · cases h; exact .script ..
    · cases h; exact refl _
    · cases h

theorem fill (fs : FileSystem) (limit : Nat) (r : Reader) : r.Advanced (r.fill fs limit).2 := by
  cases r with
  | cursor content i => exact .cursor ..
  | file f =>
    simp only [Reader.fill, read, OpenFile.read]
    split <;> exact .file ..
  | pipe rest =>
    have parted : Reader.pipe rest = .pipe (rest.take limit ++ rest.drop limit) := by
      rw [List.take_append_drop]
    rw [parted]
    simpa [Reader.fill, read] using pipe (rest.take limit) (rest.drop limit)
  | script s => exact .script ..

theorem chunk (fs : FileSystem) (origin : Option Path) (size : ChunkSize) (r : Reader) :
    r.Advanced (r.chunk fs origin size).2 := by
  unfold Reader.chunk
  split
  · exact refl r
  · exact fill fs size.val r

end Reader.Advanced

/-- The same source, of which a reader or a stream has been moved on. -/
inductive Source.Advanced : Source → Source → Prop
  | same (s : Source) : Advanced s s
  | reader {q r : Reader} : q.Advanced r → Advanced (.reader q) (.reader r)
  | stream (before rest : Stream) : Advanced (.stream (before ++ rest)) (.stream rest)

namespace Source.Advanced

theorem trans {s t u : Source} (first : s.Advanced t) (second : t.Advanced u) : s.Advanced u := by
  cases first with
  | same => exact second
  | reader moved =>
    cases second with
    | same => exact .reader moved
    | reader again => exact .reader (moved.trans again)
  | stream before rest =>
    cases second with
    | same => exact .stream before rest
    | stream between rest =>
      rw [← List.append_assoc]
      exact .stream ..

theorem held?_eq {s t : Source} (h : s.Advanced t) : t.held? = s.held? := by
  cases h <;> rfl

theorem isStream_eq {s t : Source} (h : s.Advanced t) : t.isStream = s.isStream := by
  cases h <;> rfl

end Source.Advanced

/-- The same part, in which the source may have moved on and what is kept may have been filled. -/
structure FilePart.Advanced (p q : FilePart) : Prop where
  name : q.name = p.name
  filename : q.filename = p.filename
  headers : q.headers = p.headers
  chunkSize : q.chunkSize = p.chunkSize
  source : p.source.Advanced q.source
  keptBlock : q.keptBlock = p.keptBlock ∨ q.keptBlock = some p.block.1
  keptBody : q.keptBody = p.keptBody ∨ q.keptBody = p.heldBody.1

namespace FilePart.Advanced

variable {p q r : FilePart}

theorem refl (p : FilePart) : p.Advanced p :=
  ⟨rfl, rfl, rfl, rfl, .same _, .inl rfl, .inl rfl⟩

theorem block_eq (h : p.Advanced q) : q.block.1 = p.block.1 := by
  rcases h.keptBlock with same | filled
  · simp only [FilePart.block, FilePart.freshBlock, same, h.name, h.filename, h.headers]
  · simp [FilePart.block, filled]

theorem heldBody_eq (h : p.Advanced q) : q.heldBody.1 = p.heldBody.1 := by
  rcases h.keptBody with same | filled
  · simp only [FilePart.heldBody, same, h.source.held?_eq]
  · simp only [FilePart.heldBody] at filled
    simp only [FilePart.heldBody, filled, h.source.held?_eq]
    cases p.keptBody <;> cases p.source.held? <;> rfl

theorem trans (first : p.Advanced q) (second : q.Advanced r) : p.Advanced r where
  name := second.name.trans first.name
  filename := second.filename.trans first.filename
  headers := second.headers.trans first.headers
  chunkSize := second.chunkSize.trans first.chunkSize
  source := first.source.trans second.source
  keptBlock := by
    rcases second.keptBlock with same | filled
    · rw [same]
      exact first.keptBlock
    · exact .inr (filled.trans (congrArg some first.block_eq))
  keptBody := by
    rcases second.keptBody with same | filled
    · rw [same]
      exact first.keptBody
    · exact .inr (filled.trans first.heldBody_eq)

theorem block (p : FilePart) : p.Advanced p.block.2 :=
  ⟨rfl, rfl, rfl, rfl, .same _, .inr rfl, .inl rfl⟩

theorem heldBody (p : FilePart) : p.Advanced p.heldBody.2 :=
  ⟨rfl, rfl, rfl, rfl, .same _, .inl rfl, .inr rfl⟩

theorem moved (source : Source) (h : p.source.Advanced source) :
    p.Advanced { p with source } :=
  ⟨rfl, rfl, rfl, rfl, h, .inl rfl, .inl rfl⟩

theorem length? (build : Build) (fs : FileSystem) (p : FilePart) :
    p.Advanced (p.length? build fs).value.2 := by
  rw [FilePart.length?_snd]
  exact (block p).trans (heldBody p.block.2)

end FilePart.Advanced

/-- The same part after steps of its body, which leave the header block alone. -/
structure FilePart.Pulled (p q : FilePart) : Prop extends p.Advanced q where
  sameBlock : q.keptBlock = p.keptBlock

namespace FilePart.Pulled

variable {p q r : FilePart}

theorem refl (p : FilePart) : p.Pulled p := ⟨.refl p, rfl⟩

theorem trans (first : p.Pulled q) (second : q.Pulled r) : p.Pulled r :=
  ⟨first.toAdvanced.trans second.toAdvanced, second.sameBlock.trans first.sameBlock⟩

theorem heldBody (p : FilePart) : p.Pulled p.heldBody.2 := ⟨.heldBody p, rfl⟩

theorem moved (source : Source) (h : p.source.Advanced source) : p.Pulled { p with source } :=
  ⟨.moved source h, rfl⟩

variable (fs : FileSystem)

theorem begin (p : FilePart) : p.Pulled (p.begin fs).value.2 := by
  unfold FilePart.begin
  split
  · exact refl p
  · next reader held =>
    split
    · exact refl p
    · split
      · next rewound h => exact moved _ (held ▸ .reader (.rewind h))
      · exact refl p
  · split <;> exact refl p
  · exact refl p
  · exact refl p

theorem continueBody (p : FilePart) (progress : BodyProgress) :
    p.Pulled (p.continueBody fs progress).value.2.1 := by
  unfold FilePart.continueBody
  split
  · exact refl p
  · exact refl p
  · split
    · next reader held => exact moved _ (held ▸ .reader (.chunk fs none _ reader))
    · exact refl p
  · exact refl p

theorem pull (p : FilePart) (progress : BodyProgress) :
    p.Pulled (p.pull fs progress).value.2.1 := by
  unfold FilePart.pull
  split
  · have held := heldBody p
    simp only
    split
    · exact held
    · have begun := held.trans (begin fs p.heldBody.2)
      simp only [Traced.value_bind]
      split
      · exact begun.trans (continueBody fs _ _)
      · exact begun
  · exact continueBody fs p progress

theorem of_stream {stream : Stream} (source : p.source = .stream stream) :
    p.Pulled { p with source := .stream stream.poll.2 } := by
  refine moved _ (source ▸ ?_)
  cases stream with
  | nil => exact .same _
  | cons e rest => exact .stream [e] rest

theorem poll (p : FilePart) (progress : BodyProgress) :
    p.Pulled (p.poll fs progress).value.2.1 := by
  unfold FilePart.poll
  split
  · next stream source =>
    split
    · exact refl p
    · simp only
      split <;> exact of_stream source
  · exact pull fs p progress

end FilePart.Pulled

namespace FilePart.Advanced

variable {p q : FilePart} {fs : FileSystem}

theorem of_pull {progress later : BodyProgress} {step : BodyStep}
    (pulled : (p.pull fs progress).value = (step, q, later)) : p.Advanced q := by
  have moved := Pulled.pull fs p progress
  rw [pulled] at moved
  exact moved.toAdvanced

theorem of_begin {begun : Except EncodingError BodyProgress}
    (began : (p.begin fs).value = (begun, q)) : p.Advanced q := by
  have moved := Pulled.begin fs p
  rw [began] at moved
  exact moved.toAdvanced

theorem of_continueBody {progress later : BodyProgress} {step : BodyStep}
    (went : (p.continueBody fs progress).value = (step, q, later)) : p.Advanced q := by
  have moved := Pulled.continueBody fs p progress
  rw [went] at moved
  exact moved.toAdvanced

theorem of_stream {stream : Stream} (source : p.source = .stream stream) :
    p.Advanced { p with source := .stream stream.poll.2 } :=
  (Pulled.of_stream source).toAdvanced

end FilePart.Advanced

theorem FilePart.source_pull_of_stream (fs : FileSystem) {p : FilePart} {s : Stream}
    (source : p.source = .stream s) (progress : BodyProgress) :
    (p.pull fs progress).value.2.1.source = .stream s := by
  obtain ⟨name, filename, headers, source', chunkSize, keptBlock, keptBody⟩ := p
  cases source
  cases progress with
  | pending => cases keptBody <;> rfl
  | reader | file | done => rfl

theorem FilePart.poll_eq_pull (fs : FileSystem) {p : FilePart}
    (settled : p.source.isStream = false) (progress : BodyProgress) :
    (p.poll fs progress).value =
      (.ready (p.pull fs progress).value.1, (p.pull fs progress).value.2) := by
  unfold FilePart.poll
  split
  · next stream held => simp [held, Source.isStream] at settled
  · rfl

end Multipart
