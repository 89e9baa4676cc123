import Multipart.Proofs.Part.Content

/-!
# Parts that render alike

Two parts are alike if they send the same header block and, from its beginning, the same body,
whatever each of them keeps and wherever its reader stands. Their bodies are in step if what is still
to come is the same as well. Each part may see other files, as long as those that it reads are the
same: `Views` has the file systems that the two may see at the same request.
-/

namespace Multipart

abbrev Views := FileSystem → FileSystem → Prop

/-- The content of a file is the same in all that is seen. -/
def Views.Fixed (views : Views) (id : Files.NodeId) : Prop :=
  ∀ fs gs, views fs gs → fs.content id = gs.content id

namespace Source

/-- Where reading begins in a new rendering. -/
def rewound : Source → Source
  | .reader r => .reader r.rewound
  | source => source

theorem exists_reader_of_rewound {r : Reader} {s : Source}
    (same : s.rewound = (Source.reader r).rewound) :
    ∃ q, s = .reader q ∧ q.rewound = r.rewound := by
  cases s with
  | reader q => exact ⟨q, rfl, Source.reader.inj same⟩
  | bytes | text | path | stream => cases same

theorem eq_of_rewound {s t : Source} (same : t.rewound = s.rewound) (still : ∀ r, s ≠ .reader r) :
    t = s := by
  cases s with
  | reader r => exact absurd rfl (still r)
  | bytes | text | path | stream =>
    cases t with
    | reader => cases same
    | bytes | text | path | stream => exact same

end Source

/-- The file that is read does not change. -/
def Reader.Steady (views : Views) : Reader → Prop
  | .file f => views.Fixed f.node
  | _ => True

/-- A path always leads to the same file, and the files that are read do not change. -/
def Source.Steady (views : Views) : Source → Prop
  | .path p => ∀ fs gs, views fs gs → fs.openFile p = gs.openFile p ∧
    ∀ reader, fs.openFile p = .ok reader → reader.Steady views
  | .reader r => r.Steady views
  | _ => True

section Reading

variable {views : Views} {fs gs : FileSystem}

theorem Reader.Advanced.steady {r s : Reader} (moved : r.Advanced s) (steady : r.Steady views) :
    s.Steady views := by
  cases moved <;> exact steady

theorem Source.Advanced.steady {s t : Source} (moved : s.Advanced t) (steady : s.Steady views) :
    t.Steady views := by
  cases moved with
  | same => exact steady
  | reader moved => exact moved.steady steady
  | stream => exact trivial

theorem Reader.fill_eq {reader : Reader} (steady : reader.Steady views) (seen : views fs gs)
    (limit : Nat) : reader.fill gs limit = reader.fill fs limit := by
  cases reader with
  | file f =>
    have same : fs.content f.node = gs.content f.node := steady fs gs seen
    simp only [fill, read, OpenFile.read, same]
  | cursor | pipe | script => rfl

theorem Reader.chunk_eq {reader : Reader} (steady : reader.Steady views) (seen : views fs gs)
    (origin : Option Path) (size : ChunkSize) :
    reader.chunk gs origin size = reader.chunk fs origin size := by
  rw [chunk, chunk, fill_eq steady seen]

theorem Reader.isTextMode_rewound (reader : Reader) :
    reader.rewound.isTextMode = reader.isTextMode := by
  cases reader with
  | cursor | file | pipe => rfl
  | script s =>
    simp only [rewound, rewind?]
    cases s.rewinding <;> rfl

end Reading

namespace FilePart

structure Alike (views : Views) (p q : FilePart) : Prop where
  block : q.block.1 = p.block.1
  held : q.heldBody.1 = p.heldBody.1
  chunkSize : q.chunkSize = p.chunkSize
  source : q.source.rewound = p.source.rewound
  steady : p.source.Steady views

/-- The bodies of two parts that are alike have come equally far. -/
def InStep (views : Views) (p q : FilePart) : BodyProgress → Prop
  | .reader => q.source = p.source
  | .file _ reader => reader.Steady views
  | .pending | .done => True

variable {views : Views} {fs gs : FileSystem} {p p' q q' : FilePart}
  {progress later : BodyProgress} {step : BodyStep}

theorem Alike.of_advanced (alike : p.Alike views q) (left : p.Advanced p')
    (right : q.Advanced q') (source : q'.source.rewound = p'.source.rewound) :
    p'.Alike views q' where
  block := by rw [right.block_eq, alike.block, left.block_eq]
  held := by rw [right.heldBody_eq, alike.held, left.heldBody_eq]
  chunkSize := by rw [right.chunkSize, alike.chunkSize, left.chunkSize]
  source := source
  steady := left.source.steady alike.steady

theorem readStep_progress (progress : BodyProgress) (reply : Except EncodingError Bytes) :
    (readStep progress reply).value.2 = progress ∨ (readStep progress reply).value.2 = .done := by
  unfold readStep
  split
  · exact .inl rfl
  · exact .inr rfl
  · exact .inl rfl

/-- A read that is taken in, or ends the body, leaves bodies in step. -/
theorem InStep.readStep (inStep : p.InStep views q progress)
    (reply : Except EncodingError Bytes) :
    p.InStep views q (readStep progress reply).value.2 := by
  rcases readStep_progress progress reply with same | ended
  · rwa [same]
  · rw [ended]
    exact trivial

theorem Alike.continueReader {reader : Reader} (alike : p.Alike views q)
    (source : p.source = .reader reader) (same : q.source = p.source) (seen : views fs gs)
    (went : (p.continueBody fs .reader).value = (step, p', later)) :
    ∃ q', (q.continueBody gs .reader).value = (step, q', later) ∧ p'.Alike views q' ∧
      p'.InStep views q' later := by
  have steady := alike.steady
  rw [source] at steady
  have other := continueBody_reader gs (same.trans source)
  rw [alike.chunkSize, Reader.chunk_eq steady seen] at other
  have moved := Advanced.of_continueBody went
  rw [continueBody_reader fs source] at went
  cases went
  have inStep : InStep views { p with source := .reader (reader.chunk fs none p.chunkSize).2 }
      { q with source := .reader (reader.chunk fs none p.chunkSize).2 } .reader := rfl
  exact ⟨_, other, alike.of_advanced moved (.of_continueBody other) rfl, inStep.readStep _⟩

theorem Alike.continueBody (alike : p.Alike views q) (inStep : p.InStep views q progress)
    (seen : views fs gs) (went : (p.continueBody fs progress).value = (step, p', later)) :
    ∃ q', (q.continueBody gs progress).value = (step, q', later) ∧ p'.Alike views q' ∧
      p'.InStep views q' later := by
  cases progress with
  | pending | done =>
    cases went
    exact ⟨q, rfl, alike, trivial⟩
  | reader =>
    replace inStep : q.source = p.source := inStep
    cases source : p.source with
    | reader reader => exact alike.continueReader source inStep seen went
    | bytes | text | path | stream =>
      rw [source] at inStep
      simp only [FilePart.continueBody, source, Traced.value_pure] at went
      cases went
      refine ⟨q, ?_, alike, trivial⟩
      simp only [FilePart.continueBody, inStep, Traced.value_pure]
  | file path reader =>
    replace inStep : reader.Steady views := inStep
    have onward := (Reader.Advanced.chunk fs (some path) p.chunkSize reader).steady inStep
    simp only [FilePart.continueBody, Traced.value_bind, Traced.value_pure] at went
    cases went
    have inStep' : p.InStep views q (.file path (reader.chunk fs (some path) p.chunkSize).2) := onward
    refine ⟨q, ?_, alike, inStep'.readStep _⟩
    simp only [FilePart.continueBody, Traced.value_bind, Traced.value_pure, alike.chunkSize,
      Reader.chunk_eq inStep seen]

/-- What has been prepared alike. -/
def BeginsAlike (views : Views) (gs : FileSystem) (q : FilePart)
    (begun : Except EncodingError BodyProgress) (p' : FilePart) : Prop :=
  ∃ q', (q.begin gs).value = (begun, q') ∧ p'.Alike views q' ∧
    ∀ progress, begun = .ok progress → p'.InStep views q' progress

/-- Readers begin in step, wherever they were before. -/
theorem Alike.begin_reader (alike : p.Alike views q) {reader : Reader}
    (source : p.source = .reader reader) {begun : Except EncodingError BodyProgress}
    (began : (p.begin fs).value = (begun, p')) : BeginsAlike views gs q begun p' := by
  have same := alike.source
  rw [source] at same
  obtain ⟨other, source', same⟩ := Source.exists_reader_of_rewound same
  have mode : other.isTextMode = reader.isTextMode := by
    rw [← other.isTextMode_rewound, same, reader.isTextMode_rewound]
  cases text : reader.isTextMode with
  | true =>
    rw [begin_textMode fs source text] at began
    cases began
    exact ⟨q, begin_textMode gs source' (mode.trans text), alike, nofun⟩
  | false =>
    have began' := FilePart.begin_reader gs source' (mode.trans text)
    have moved := Advanced.of_begin began
    rw [FilePart.begin_reader fs source text] at began
    cases began
    have equal : Source.reader other.rewound = .reader reader.rewound := congrArg _ same
    refine ⟨_, began', alike.of_advanced moved (.of_begin began') (congrArg _ equal), ?_⟩
    intro progress begun
    cases begun
    exact equal

theorem Alike.begin_path (alike : p.Alike views q) (seen : views fs gs) {path : Path}
    (source : p.source = .path path) (source' : q.source = .path path)
    {begun : Except EncodingError BodyProgress} (began : (p.begin fs).value = (begun, p')) :
    BeginsAlike views gs q begun p' := by
  have steady := alike.steady
  rw [source] at steady
  obtain ⟨opens, steady⟩ := steady fs gs seen
  have began' := FilePart.begin_path gs source'
  rw [FilePart.begin_path fs source] at began
  rw [← opens] at began'
  cases opened : fs.openFile path with
  | error e =>
    rw [opened] at began began'
    cases began
    exact ⟨q, began', alike, nofun⟩
  | ok reader =>
    rw [opened] at began began'
    cases began
    refine ⟨q, began', alike, ?_⟩
    intro progress begun
    cases begun
    exact steady reader opened

theorem Alike.begin (alike : p.Alike views q) (seen : views fs gs)
    {begun : Except EncodingError BodyProgress} (began : (p.begin fs).value = (begun, p')) :
    BeginsAlike views gs q begun p' := by
  cases kind : p.source with
  | reader reader => exact alike.begin_reader kind began
  | path path =>
    have source := Source.eq_of_rewound alike.source (by simp [kind])
    exact alike.begin_path seen kind (source.trans kind) began
  | bytes | text =>
    have source := Source.eq_of_rewound alike.source (by simp [kind])
    rw [begin_held fs (by rw [kind]; rfl)] at began
    cases began
    refine ⟨q, begin_held gs (by rw [source, kind]; rfl), alike, ?_⟩
    intro progress begun
    cases begun
    exact trivial
  | stream stream =>
    have source := Source.eq_of_rewound alike.source (by simp [kind])
    rw [begin_stream fs kind] at began
    cases began
    exact ⟨q, begin_stream gs (source.trans kind), alike, nofun⟩

theorem Alike.pull (alike : p.Alike views q) (inStep : p.InStep views q progress)
    (seen : views fs gs) (pulled : (p.pull fs progress).value = (step, p', later)) :
    ∃ q', (q.pull gs progress).value = (step, q', later) ∧ p'.Alike views q' ∧
      p'.InStep views q' later := by
  by_cases fresh : progress = .pending
  · subst fresh
    cases held : p.heldBody.1 with
    | some octets =>
      rw [pull_held held] at pulled
      cases pulled
      refine ⟨_, pull_held (alike.held.trans held), ?_, trivial⟩
      exact alike.of_advanced (.heldBody p) (.heldBody q) alike.source
    | none =>
      obtain ⟨begun, p₁, began⟩ : ∃ begun p₁, (p.begin fs).value = (begun, p₁) := ⟨_, _, rfl⟩
      obtain ⟨q₁, began', alike', inStep'⟩ := alike.begin seen began
      rw [pull_pending held began] at pulled
      rw [pull_pending (alike.held.trans held) began']
      cases begun with
      | error e =>
        cases pulled
        exact ⟨q₁, rfl, alike', trivial⟩
      | ok progress => exact alike'.continueBody (inStep' progress rfl) seen pulled
  · rw [FilePart.pull, if_neg fresh] at pulled ⊢
    exact alike.continueBody inStep seen pulled

end FilePart

end Multipart
