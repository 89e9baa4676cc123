import Multipart.Proofs.Part.Advance
import Multipart.Proofs.Source.Reading

/-!
# The content of a part

`Content` is where a part takes its content from, and `Renders` says which chunks and which failure
come of it. A file part does the same step by step: a run of `pull`, from the beginning of the body
to its end or its failure, renders the part's content.
-/

namespace Multipart

inductive Content
  | held (octets : Bytes)
  | path (size : ChunkSize) (path : Path)
  | reader (size : ChunkSize) (reader : Reader)
  | stream
  deriving DecidableEq, Repr

namespace Content

def ofSource (size : ChunkSize) : Source → Content
  | .bytes content => .held content
  | .text content => .held (Utf8.encode content)
  | .path p => .path size p
  | .reader r => .reader size r
  | .stream _ => .stream

/-- All octets of the content while files stay as they are, or why they cannot be had without
waiting. -/
def outcome (fs : FileSystem) : Content → Except EncodingError Bytes
  | .held octets => .ok octets
  | .path size p =>
    match fs.openFile p with
    | .ok opened => opened.outcome fs size (some p)
    | .error e => .error (.io p e)
  | .reader size r =>
    if r.isTextMode then .error (.invalid .textModeSource) else r.rewound.outcome fs size none
  | .stream => .error (.invalid .streamNotAwaited)

/-- No rendering has more chunks and failures than this. -/
def bound (fs : FileSystem) : Content → Nat
  | .held _ | .stream => 1
  | .path _ p => Source.extent fs (.path p) + 1
  | .reader _ r => r.extent fs + 1

theorem ofSource_of_held {source : Source} {octets : Bytes} (size : ChunkSize)
    (h : source.held? = some octets) : ofSource size source = .held octets := by
  cases source <;> simp_all [Source.held?, ofSource]

theorem bound_ofSource_le (fs : FileSystem) (size : ChunkSize) (source : Source) :
    (ofSource size source).bound fs ≤ source.extent fs + 1 := by
  cases source <;> simp [ofSource, bound, Source.extent]

end Content

/-- What comes of a content that is asked for from request `n` on. Memory gives one chunk, even an
empty one. A path is opened at the first request, and a reader goes back to its beginning if it
can. -/
inductive Renders (world : World) (n : Nat) : Content → Rendered → Prop
  | held (octets : Bytes) : Renders world n (.held octets) ⟨[octets], none⟩
  | opened {size p reader rendered} :
      (world n).openFile p = .ok reader →
      Reads world size (some p) n reader rendered →
      Renders world n (.path size p) rendered
  | unopened {size p e} :
      (world n).openFile p = .error e →
      Renders world n (.path size p) ⟨[], some (.io p e)⟩
  | reader {size reader rendered} :
      reader.isTextMode = false →
      Reads world size none n reader.rewound rendered →
      Renders world n (.reader size reader) rendered
  | textMode {size reader} :
      reader.isTextMode = true →
      Renders world n (.reader size reader) ⟨[], some (.invalid .textModeSource)⟩
  | stream : Renders world n .stream ⟨[], some (.invalid .streamNotAwaited)⟩

namespace Renders

variable {fs : FileSystem} {n : Nat} {content : Content} {rendered : Rendered}

theorem outcome_eq (renders : Renders (.still fs) n content rendered) :
    rendered.outcome = content.outcome fs := by
  cases renders with
  | held octets => simp [Rendered.outcome, Content.outcome]
  | @opened size p reader _ opened reads =>
    replace opened : fs.openFile p = .ok reader := opened
    rw [reads.outcome_eq, Content.outcome, opened]
  | @unopened size p e missing =>
    replace missing : fs.openFile p = .error e := missing
    rw [Content.outcome, missing]
    rfl
  | reader binary reads => simp [Content.outcome, binary, reads.outcome_eq]
  | textMode text => simp [Rendered.outcome, Content.outcome, text]
  | stream => rfl

theorem length_items_le (renders : Renders (.still fs) n content rendered) :
    rendered.items.length ≤ content.bound fs := by
  cases renders with
  | @opened size p reader _ opened reads =>
    replace opened : fs.openFile p = .ok reader := opened
    rw [Content.bound, Source.extent, opened]
    exact Nat.le_trans reads.length_items_le (Nat.succ_le_succ (reader.left_le fs))
  | @reader size reader _ binary reads =>
    exact Nat.le_trans reads.length_items_le (Nat.succ_le_succ (reader.left_rewound_le fs))
  | held | unopened | textMode | stream => simp [Rendered.items, Content.bound]

end Renders

namespace FilePart

/-- What the body of a part is rendered from: the body that it keeps, or else its source. -/
def content (p : FilePart) : Content :=
  match p.keptBody with
  | some octets => .held octets
  | none => .ofSource p.chunkSize p.source

/-- The reader that a body in progress reads from, and where failures to read it are said to be. -/
inductive Reading : FilePart → BodyProgress → Option Path → Reader → Prop
  | reader {p reader} : p.source = .reader reader → Reading p .reader none reader
  | file {p path reader} : Reading p (.file path reader) (some path) reader

section Steps

variable {fs : FileSystem} {p : FilePart} {progress : BodyProgress} {origin : Option Path}
  {reader : Reader}

theorem Reading.ne_pending (h : p.Reading progress origin reader) : progress ≠ .pending := by
  cases h <;> simp

theorem pull_of_reading (h : p.Reading progress origin reader) :
    p.pull fs progress = p.continueBody fs progress := by
  simp [pull, h.ne_pending]

theorem pull_of_chunk_empty (h : p.Reading progress origin reader)
    (ended : (reader.chunk fs origin p.chunkSize).1 = .ok []) :
    ∃ q, (p.pull fs progress).value = (.ok none, q, .done) := by
  rw [pull_of_reading h]
  cases h with
  | reader held => simp [continueBody, held, readStep, ended]
  | file => simp [continueBody, readStep, ended]

theorem pull_of_chunk_error {e : EncodingError} (h : p.Reading progress origin reader)
    (failed : (reader.chunk fs origin p.chunkSize).1 = .error e) :
    ∃ q after, (p.pull fs progress).value = (.error e, q, after) := by
  rw [pull_of_reading h]
  cases h with
  | reader held => simp [continueBody, held, readStep, failed]
  | file => simp [continueBody, readStep, failed]

theorem pull_of_chunk {octets : Bytes} {rest : Reader}
    (h : p.Reading progress origin reader)
    (given : reader.chunk fs origin p.chunkSize = (.ok octets, rest)) (nonempty : octets ≠ []) :
    ∃ q after, (p.pull fs progress).value = (.ok (some octets), q, after) ∧
      q.Reading after origin rest ∧ q.chunkSize = p.chunkSize := by
  obtain ⟨octet, octets, rfl⟩ := List.exists_cons_of_ne_nil nonempty
  rw [pull_of_reading h]
  cases h with
  | reader held =>
    simp only [continueBody, held, Traced.value_bind, given]
    exact ⟨_, _, rfl, .reader rfl, rfl⟩
  | file =>
    simp only [continueBody, Traced.value_bind, given]
    exact ⟨_, _, rfl, .file, rfl⟩

/-- A pull of a body in progress ends, fails or goes on as the read that it makes. -/
theorem pull_reading_cases (fs : FileSystem) (h : p.Reading progress origin reader) :
    ((reader.chunk fs origin p.chunkSize).1 = .ok [] ∧
      ∃ q, (p.pull fs progress).value = (.ok none, q, .done)) ∨
    (∃ e, (reader.chunk fs origin p.chunkSize).1 = .error e ∧
      ∃ q after, (p.pull fs progress).value = (.error e, q, after)) ∨
    ∃ octets rest, reader.chunk fs origin p.chunkSize = (.ok octets, rest) ∧ octets ≠ [] ∧
      ∃ q after, (p.pull fs progress).value = (.ok (some octets), q, after) ∧
        q.Reading after origin rest ∧ q.chunkSize = p.chunkSize := by
  obtain ⟨reply, rest, given⟩ : ∃ reply rest, reader.chunk fs origin p.chunkSize = (reply, rest) :=
    ⟨_, _, rfl⟩
  have reply_eq := congrArg Prod.fst given
  cases reply with
  | error e => exact .inr (.inl ⟨e, reply_eq, pull_of_chunk_error h reply_eq⟩)
  | ok octets =>
    by_cases empty : octets = []
    · subst empty
      exact .inl ⟨reply_eq, pull_of_chunk_empty h reply_eq⟩
    · exact .inr (.inr ⟨octets, rest, given, empty, pull_of_chunk h given empty⟩)

theorem pull_held {octets : Bytes} (held : p.heldBody.1 = some octets) :
    (p.pull fs .pending).value = (.ok (some octets), p.heldBody.2, .done) := by
  simp [pull, held]

theorem pull_done : (p.pull fs .done).value = (.ok none, p, .done) := by
  simp [pull, continueBody]

theorem poll_done : (p.poll fs .done).value = (.ready (.ok none), p, .done) := by
  unfold poll
  split
  · rfl
  · simp only [Traced.value_bind, pull_done, Traced.value_pure]

theorem poll_stream (fs : FileSystem) {stream : Stream} (source : p.source = .stream stream)
    (ongoing : progress ≠ .done) :
    (p.poll fs progress).value =
      match emissionStep progress stream.poll.1 with
      | .ready (step, later) => (.ready step, { p with source := .stream stream.poll.2 }, later)
      | .notReady => (.notReady, { p with source := .stream stream.poll.2 }, progress) := by
  simp only [poll, source, ongoing, if_false]
  cases emissionStep progress stream.poll.1 <;> rfl

theorem heldBody_of_none (unheld : p.heldBody.1 = none) : p.heldBody.2 = p := by
  obtain ⟨name, filename, headers, source, chunkSize, keptBlock, keptBody⟩ := p
  simp only [heldBody] at unheld ⊢
  cases keptBody with
  | none => rw [unheld]
  | some octets => simp at unheld

theorem held?_of_none (unheld : p.heldBody.1 = none) : p.source.held? = none := by
  cases kept : p.keptBody with
  | none => simpa [heldBody, kept] using unheld
  | some octets => simp [heldBody, kept] at unheld

theorem content_of_held {octets : Bytes} (held : p.heldBody.1 = some octets) :
    p.content = .held octets := by
  unfold content
  cases kept : p.keptBody with
  | some body => simpa [heldBody, kept] using held
  | none => exact Content.ofSource_of_held p.chunkSize (by simpa [heldBody, kept] using held)

theorem content_of_none (unheld : p.heldBody.1 = none) :
    p.content = .ofSource p.chunkSize p.source := by
  unfold content
  cases kept : p.keptBody with
  | some body => simp [heldBody, kept] at unheld
  | none => rfl

theorem pull_pending {begun : Except EncodingError BodyProgress} {q : FilePart}
    (unheld : p.heldBody.1 = none) (prepared : (p.begin fs).value = (begun, q)) :
    (p.pull fs .pending).value =
      match begun with
      | .ok progress => (q.continueBody fs progress).value
      | .error e => (.error e, q, .pending) := by
  simp only [pull, if_true, unheld, heldBody_of_none unheld, Traced.value_bind, prepared]
  cases begun <;> rfl

theorem continueBody_reader (fs : FileSystem) (source : p.source = .reader reader) :
    (p.continueBody fs .reader).value =
      ((readStep .reader (reader.chunk fs none p.chunkSize).1).value.1,
        { p with source := .reader (reader.chunk fs none p.chunkSize).2 },
        (readStep .reader (reader.chunk fs none p.chunkSize).1).value.2) := by
  simp only [continueBody, source, Traced.value_bind, Traced.value_pure]

/-- A reader is read from where it can be taken back to. -/
theorem begin_reader (fs : FileSystem) (source : p.source = .reader reader)
    (binary : reader.isTextMode = false) :
    (p.begin fs).value = (.ok .reader, { p with source := .reader reader.rewound }) := by
  cases rewound : reader.rewind? with
  | ok start => simp [begin, source, binary, rewound, Reader.rewound]
  | error e =>
    have unmoved : { p with source := .reader reader } = p := by rw [← source]
    simp [begin, source, binary, rewound, Reader.rewound, unmoved]

theorem begin_textMode (fs : FileSystem) (source : p.source = .reader reader)
    (text : reader.isTextMode = true) :
    (p.begin fs).value = (.error (.invalid .textModeSource), p) := by
  simp [begin, source, text]

theorem begin_path (fs : FileSystem) {path : Path} (source : p.source = .path path) :
    (p.begin fs).value =
      (match fs.openFile path with
        | .ok reader => .ok (.file path reader)
        | .error e => .error (.io path e), p) := by
  unfold begin
  rw [source]
  dsimp only
  cases fs.openFile path <;> rfl

theorem begin_held (fs : FileSystem) {octets : Bytes} (held : p.source.held? = some octets) :
    (p.begin fs).value = (.ok .done, p) := by
  cases source : p.source with
  | bytes | text => simp only [begin, source, Traced.value_pure]
  | path | reader | stream => simp [source, Source.held?] at held

theorem begin_stream (fs : FileSystem) {stream : Stream} (source : p.source = .stream stream) :
    (p.begin fs).value = (.error (.invalid .streamNotAwaited), p) := by
  simp [begin, source]

theorem ne_pending_of_begin {q : FilePart} (began : (p.begin fs).value = (.ok progress, q)) :
    progress ≠ .pending := by
  rintro rfl
  unfold begin at began
  split at began
  · cases began
  · split at began
    · cases began
    · split at began <;> cases began
  · split at began <;> cases began
  · cases began
  · cases began

theorem done_of_readStep {reply : Except EncodingError Bytes}
    (ended : (readStep progress reply).value.1 = .ok none) :
    (readStep progress reply).value.2 = .done := by
  rcases reply with e | - | octets <;> first | rfl | cases ended

theorem done_of_continueBody {q : FilePart} {later : BodyProgress} (ongoing : progress ≠ .pending)
    (ended : (p.continueBody fs progress).value = (.ok none, q, later)) : later = .done := by
  cases progress with
  | pending => exact absurd rfl ongoing
  | done =>
    cases ended
    rfl
  | reader =>
    cases source : p.source with
    | reader reader =>
      rw [continueBody_reader fs source, Prod.mk.injEq, Prod.mk.injEq] at ended
      exact ended.2.2.symm.trans (done_of_readStep ended.1)
    | bytes | text | path | stream =>
      simp only [continueBody, source, Traced.value_pure] at ended
      cases ended
      rfl
  | file path reader =>
    simp only [continueBody, Traced.value_bind, Traced.value_pure, Prod.mk.injEq] at ended
    exact ended.2.2.symm.trans (done_of_readStep ended.1)

theorem done_of_pull {q : FilePart} {later : BodyProgress}
    (ended : (p.pull fs progress).value = (.ok none, q, later)) : later = .done := by
  by_cases fresh : progress = .pending
  · subst fresh
    cases held : p.heldBody.1 with
    | some octets =>
      rw [pull_held held] at ended
      cases ended
    | none =>
      obtain ⟨begun, p₁, began⟩ : ∃ begun p₁, (p.begin fs).value = (begun, p₁) := ⟨_, _, rfl⟩
      rw [pull_pending held began] at ended
      cases begun with
      | error e => cases ended
      | ok progress => exact done_of_continueBody (ne_pending_of_begin began) ended
  · rw [pull, if_neg fresh] at ended
    exact done_of_continueBody fresh ended

/-- The first pull of a body that is not in memory fails, or it goes on as reading does. -/
theorem pull_pending_cases (world : World) (n : Nat) (unheld : p.heldBody.1 = none) :
    (∃ e q, (p.pull (world n) .pending).value = (.error e, q, .pending) ∧
      Renders world n p.content ⟨[], some e⟩) ∨
    ∃ (q : FilePart) (progress : BodyProgress) (origin : Option Path) (reader : Reader),
      q.Reading progress origin reader ∧ q.chunkSize = p.chunkSize ∧
      (p.pull (world n) .pending).value = (q.pull (world n) progress).value ∧
      ∀ rendered, Reads world p.chunkSize origin n reader rendered →
        Renders world n p.content rendered := by
  rw [content_of_none unheld]
  have memory := held?_of_none unheld
  cases source : p.source with
  | bytes content => simp [source, Source.held?] at memory
  | text content => simp [source, Source.held?] at memory
  | path path =>
    cases opened : (world n).openFile path with
    | error e =>
      have prepared := begin_path (world n) source
      rw [opened] at prepared
      exact .inl ⟨_, _, pull_pending unheld prepared, .unopened opened⟩
    | ok reader =>
      have prepared := begin_path (world n) source
      rw [opened] at prepared
      refine .inr ⟨p, .file path reader, some path, reader, .file, rfl, ?_, ?_⟩
      · rw [pull_of_reading .file]
        exact pull_pending unheld prepared
      · intro rendered reads
        exact .opened opened reads
  | reader reader =>
    cases mode : reader.isTextMode with
    | true =>
      exact .inl ⟨_, _, pull_pending unheld (begin_textMode (world n) source mode), .textMode mode⟩
    | false =>
      have prepared := begin_reader (world n) source mode
      refine .inr ⟨{ p with source := .reader reader.rewound }, .reader, none, reader.rewound,
        .reader rfl, rfl, ?_, ?_⟩
      · rw [pull_of_reading (.reader rfl)]
        exact pull_pending unheld prepared
      · intro rendered reads
        exact .reader mode reads
  | stream stream =>
    exact .inl ⟨_, _, pull_pending unheld (begin_stream (world n) source), .stream⟩

end Steps

/-- A run of pulls from request `n` on, to the end of the body or to a failure. -/
inductive Pulls (world : World) : Nat → FilePart → BodyProgress → Rendered → FilePart → Prop
  | ended {n p progress q after} :
      (p.pull (world n) progress).value = (.ok none, q, after) →
      Pulls world n p progress ⟨[], none⟩ q
  | failed {n p progress q after e} :
      (p.pull (world n) progress).value = (.error e, q, after) →
      Pulls world n p progress ⟨[], some e⟩ q
  | chunk {n p progress q after octets rendered r} :
      (p.pull (world n) progress).value = (.ok (some octets), q, after) →
      Pulls world (n + 1) q after rendered r →
      Pulls world n p progress (rendered.add octets) r

namespace Pulls

variable {world : World} {n : Nat} {p q r : FilePart} {progress after : BodyProgress}
  {rendered : Rendered}

theorem of_end (pulls : Pulls world n p progress rendered r)
    (step : (p.pull (world n) progress).value = (.ok none, q, after)) : rendered = ⟨[], none⟩ := by
  cases pulls <;> simp_all

theorem of_failure {e : EncodingError} (pulls : Pulls world n p progress rendered r)
    (step : (p.pull (world n) progress).value = (.error e, q, after)) :
    rendered = ⟨[], some e⟩ := by
  cases pulls <;> simp_all

theorem of_chunk {octets : Bytes} (pulls : Pulls world n p progress rendered r)
    (step : (p.pull (world n) progress).value = (.ok (some octets), q, after)) :
    ∃ rest, rendered = rest.add octets ∧ Pulls world (n + 1) q after rest r := by
  cases pulls with
  | ended other => simp [step] at other
  | failed other => simp [step] at other
  | @chunk _ _ _ q' after' octets' rest _ same pulls =>
    rw [step] at same
    cases same
    exact ⟨rest, rfl, pulls⟩

/-- Only what the first pull gives counts. -/
theorem congr {first : FilePart} {before : BodyProgress}
    (pulls : Pulls world n first before rendered r)
    (same : (first.pull (world n) before).value = (p.pull (world n) progress).value) :
    Pulls world n p progress rendered r := by
  cases pulls with
  | ended step => exact .ended (same ▸ step)
  | failed step => exact .failed (same ▸ step)
  | chunk step pulls => exact .chunk (same ▸ step) pulls

theorem reads {world : World} {n : Nat} {p r : FilePart} {progress : BodyProgress}
    {rendered : Rendered} {origin : Option Path} {reader : Reader}
    (pulls : Pulls world n p progress rendered r) (reading : p.Reading progress origin reader) :
    Reads world p.chunkSize origin n reader rendered := by
  rcases pull_reading_cases (world n) reading with
    ⟨empty, q, step⟩ | ⟨e, failed, q, after, step⟩ |
      ⟨octets, rest, given, nonempty, q, after, step, onward, size⟩
  · rw [pulls.of_end step]
    exact .ended empty
  · rw [pulls.of_failure step]
    exact .failed failed
  · obtain ⟨later, rfl, following⟩ := pulls.of_chunk step
    exact .chunk given nonempty (size ▸ following.reads onward)
termination_by rendered.chunks.length

/-- A whole run of pulls renders the content of the part. -/
theorem renders (pulls : Pulls world n p .pending rendered r) :
    Renders world n p.content rendered := by
  cases held : p.heldBody.1 with
  | some octets =>
    obtain ⟨rest, rfl, following⟩ := pulls.of_chunk (pull_held held)
    rw [following.of_end pull_done, content_of_held held]
    exact .held octets
  | none =>
    rcases pull_pending_cases world n held with
      ⟨e, q, step, renders⟩ | ⟨q, progress, origin, reader, reading, size, step, renders⟩
    · rw [pulls.of_failure step]
      exact renders
    · refine renders rendered ?_
      rw [← size]
      exact (pulls.congr step).reads reading

/-- A body in progress is pulled as its reader is read. -/
theorem of_reads {size : ChunkSize} {origin : Option Path} {reader : Reader}
    (reads : Reads world size origin n reader rendered)
    (reading : p.Reading progress origin reader) (same : p.chunkSize = size) :
    ∃ r, Pulls world n p progress rendered r := by
  induction reads generalizing p progress with
  | ended empty =>
    obtain ⟨q, step⟩ := pull_of_chunk_empty reading (same ▸ empty)
    exact ⟨q, .ended step⟩
  | failed failure =>
    obtain ⟨q, after, step⟩ := pull_of_chunk_error reading (same ▸ failure)
    exact ⟨q, .failed step⟩
  | chunk given nonempty _ ih =>
    obtain ⟨q, after, step, onward, size⟩ := pull_of_chunk reading (same ▸ given) nonempty
    obtain ⟨r, pulls⟩ := ih onward (size.trans same)
    exact ⟨r, .chunk step pulls⟩

/-- What the content of a part can render, some run of pulls renders. -/
theorem of_renders (renders : Renders world n p.content rendered) :
    ∃ r, Pulls world n p .pending rendered r := by
  cases held : p.heldBody.1 with
  | some octets =>
    rw [content_of_held held] at renders
    cases renders
    exact ⟨_, .chunk (pull_held held) (.ended pull_done)⟩
  | none =>
    rw [content_of_none held] at renders
    have memory := held?_of_none held
    cases source : p.source with
    | bytes | text => simp [source, Source.held?] at memory
    | path path =>
      rw [source] at renders
      have prepared := begin_path (world n) source
      cases renders with
      | opened opened reads =>
        rw [opened] at prepared
        obtain ⟨r, pulls⟩ := of_reads reads .file rfl
        refine ⟨r, pulls.congr ?_⟩
        rw [pull_of_reading .file, pull_pending held prepared]
      | unopened missing =>
        rw [missing] at prepared
        exact ⟨_, .failed (pull_pending held prepared)⟩
    | reader reader =>
      rw [source] at renders
      cases renders with
      | reader binary reads =>
        have prepared := begin_reader (world n) source binary
        have reading : ({ p with source := .reader reader.rewound } : FilePart).Reading .reader
          none reader.rewound := .reader rfl
        obtain ⟨r, pulls⟩ := of_reads reads reading rfl
        refine ⟨r, pulls.congr ?_⟩
        rw [pull_of_reading reading, pull_pending held prepared]
      | textMode text =>
        exact ⟨_, .failed (pull_pending held (begin_textMode (world n) source text))⟩
    | stream stream =>
      rw [source] at renders
      cases renders
      exact ⟨_, .failed (pull_pending held (begin_stream (world n) source))⟩

theorem exists_of_reading {p : FilePart} {progress : BodyProgress} {origin : Option Path}
    {reader : Reader} (fs : FileSystem) (n : Nat) (reading : p.Reading progress origin reader) :
    ∃ rendered r, Pulls (.still fs) n p progress rendered r := by
  rcases pull_reading_cases fs reading with
    ⟨empty, q, step⟩ | ⟨e, failed, q, after, step⟩ |
      ⟨octets, rest, given, nonempty, q, after, step, onward, size⟩
  · exact ⟨_, q, .ended step⟩
  · exact ⟨_, q, .failed step⟩
  · have fewer := (Reader.outcome_of_chunk fs given nonempty).2
    obtain ⟨rendered, r, pulls⟩ := exists_of_reading fs (n + 1) onward
    exact ⟨rendered.add octets, r, .chunk step pulls⟩
termination_by reader.left fs

/-- While files stay as they are, every body comes to its end or to a failure. -/
theorem exists_pending (fs : FileSystem) (n : Nat) (p : FilePart) :
    ∃ rendered r, Pulls (.still fs) n p .pending rendered r := by
  cases held : p.heldBody.1 with
  | some octets => exact ⟨_, _, .chunk (pull_held held) (.ended pull_done)⟩
  | none =>
    rcases pull_pending_cases (.still fs) n held with
      ⟨e, q, step, -⟩ | ⟨q, progress, origin, reader, reading, -, step, -⟩
    · exact ⟨_, q, .failed step⟩
    · obtain ⟨rendered, r, pulls⟩ := exists_of_reading fs n reading
      exact ⟨rendered, r, pulls.congr step.symm⟩

end Pulls

end FilePart

end Multipart
