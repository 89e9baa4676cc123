import Multipart.Proofs.Part.Rendering
import Multipart.Proofs.Size
import Multipart.Proofs.Source.Pieces

/-!
# The chunks of a body

A body that is read from a path or a reader comes in chunks of the size that the part asks for. How
the source fragments its octets does not show, and neither does what kind of source it is.
-/

namespace Multipart

/-- What a path or a reader supplies to a rendering that begins at the first request, and where a
failure is said to be. -/
inductive Source.Supplies (world : World) (size : ChunkSize) :
    Source → Option Path → Bytes → Option SystemError → Prop
  | reader {reader octets failure} :
      reader.isTextMode = false →
      reader.rewound.Supplies world size 0 octets failure →
      Supplies world size (.reader reader) none octets failure
  | opened {path reader octets failure} :
      (world 0).openFile path = .ok reader →
      reader.Supplies world size 0 octets failure →
      Supplies world size (.path path) (some path) octets failure
  | unopened {path e} :
      (world 0).openFile path = .error e →
      Supplies world size (.path path) (some path) [] (some e)

/-- How failures to read a source name it. -/
def Source.place : Source → String
  | .path p => Utf8.decodeLossy p
  | _ => "<stream>"

namespace BodyProducer

/-- The rendering is over. No source that the part may have is opened, read, polled or moved. -/
def Finished (b : BodyProducer) : Prop :=
  ∀ fs source,
    let other : BodyProducer := { b with part := { b.part with source } }
    other.next fs = pure (none, other) ∧ other.poll fs = pure (.ready none, other)

theorem finished_done (p : FilePart) : Finished ⟨p, .done⟩ := by
  intro fs source
  cases source <;> exact ⟨rfl, rfl⟩

end BodyProducer

namespace Source.Supplies

variable {world : World} {size : ChunkSize} {source : Source} {origin : Option Path}
  {octets : Bytes} {failure : Option SystemError}

theorem not_stream (supplies : source.Supplies world size origin octets failure) :
    source.isStream = false := by
  cases supplies <;> rfl

theorem message_eq (supplies : source.Supplies world size origin octets failure)
    (e : SystemError) :
    (EncodingError.io origin e).message =
      "I/O error reading '" ++ source.place ++ "': " ++ e.message := by
  cases supplies <;> rfl

theorem exists_renders (supplies : source.Supplies world size origin octets failure)
    (fits : size.val ≤ largestBuffer) :
    ∃ chunks, ChunksOf size octets failure chunks ∧
      Renders world 0 (.ofSource size source) ⟨chunks, failure.map (.io origin)⟩ := by
  cases supplies with
  | reader binary supplies =>
    obtain ⟨chunks, cut, reads⟩ := supplies.exists_reads fits none
    exact ⟨chunks, cut, .reader binary reads⟩
  | opened opened supplies =>
    obtain ⟨chunks, cut, reads⟩ := supplies.exists_reads fits _
    exact ⟨chunks, cut, .opened opened reads⟩
  | unopened missing =>
    exact ⟨[], WholePieces.nil size.property, .unopened missing⟩

end Source.Supplies

namespace FilePart

open Requests

variable {world : World} {p : FilePart} {origin : Option Path} {octets : Bytes}
  {failure : Option SystemError}

theorem exists_renders_of_supplies (unkept : p.keptBody = none)
    (fits : p.chunkSize.val < 2 ^ 63)
    (supplies : p.source.Supplies world p.chunkSize origin octets failure) :
    ∃ chunks, ChunksOf p.chunkSize octets failure chunks ∧
      Renders world 0 p.content ⟨chunks, failure.map (.io origin)⟩ := by
  rw [content, unkept]
  exact supplies.exists_renders (le_largestBuffer_iff.mpr fits)

/-- A body that is read comes in the chunks of what its source supplies, and then as the failure
that the source has met. It does so in every way of rendering it. After that the source is left
alone. Without a failure, any other source of the same octets gives the same ones in the end. -/
theorem chunks_of_supplies (unkept : p.keptBody = none) (fits : p.chunkSize.val < 2 ^ 63)
    (supplies : p.source.Supplies world p.chunkSize origin octets failure) :
    (∀ e, (EncodingError.io origin e).message =
      "I/O error reading '" ++ p.source.place ++ "': " ++ e.message) ∧
    ∃ chunks, ChunksOf p.chunkSize octets failure chunks ∧
      let rendered : Rendered := ⟨chunks, failure.map (.io origin)⟩
      Completes BodyProducer.next world { part := p } 0 rendered.items ∧
      (∀ k, answer BodyProducer.poll world { part := p } k = .ready rendered.items[k]?) ∧
      (∀ earlier : World, (∀ k, earlier (k + 1) = world k) →
        Completes PartProducer.next earlier (.ofPart p) 0 (.ok p.block.1 :: rendered.items)) ∧
      (∃ last : BodyProducer, last.Finished ∧
        ∀ k, after BodyProducer.next world { part := p } (chunks.length + 1 + k) = last ∧
          after BodyProducer.poll world { part := p } (chunks.length + 1 + k) = last) ∧
      (failure = none → ∀ (world' : World) (q : FilePart) (origin' : Option Path),
        q.keptBody = none → q.chunkSize.val < 2 ^ 63 →
        q.source.Supplies world' q.chunkSize origin' octets none →
        ∀ others : List Bytes, Completes BodyProducer.next world' { part := q } 0 (others.map .ok) →
          others.flatten = chunks.flatten) := by
  obtain ⟨chunks, cut, renders⟩ := exists_renders_of_supplies unkept fits supplies
  have settled : ({ part := p } : BodyProducer).part.source.isStream = false := supplies.not_stream
  obtain ⟨complete, last, finished⟩ := BodyProducer.completes_of_renders renders
  refine ⟨supplies.message_eq, chunks, cut, complete, ?_, ?_, ?_, ?_⟩
  · intro k
    rw [BodyProducer.answer_poll_eq world settled, ← complete k, Nat.zero_add]
  · intro earlier later
    obtain rfl : (fun k => earlier (k + 1)) = world := funext later
    have same : p.block.2.content = p.content := rfl
    exact PartProducer.completes_of_body (BodyProducer.completes_of_renders (same ▸ renders)).1
  · refine ⟨_, BodyProducer.finished_done last, ?_⟩
    intro k
    exact ⟨finished k, (BodyProducer.after_poll_eq world settled _).1.trans (finished k)⟩
  · rintro rfl world' q origin' unkept' fits' supplies' others complete'
    obtain ⟨pieces, cut', renders'⟩ := exists_renders_of_supplies unkept' fits' supplies'
    have same := complete'.unique (BodyProducer.completes_of_renders renders').1
    cases Rendered.items_eq_map_ok_iff.mp same.symm
    rw [Pieces.flatten cut', Pieces.flatten cut]

/-- A file that the system makes up, in short reads with an interruption between them, and that
fails in the midst of a chunk. -/
theorem chunks_of_supplies_failing :
    let path : Path := [0x78]
    let file : Files.SpecialFile :=
      { passesForRegular := true
        reads := [.data [1], .interrupted, .data [2, 3, 4, 5], .failure "x", .data [6]] }
    let fs : FileSystem := ⟨[.directory 0 [(path, 1)], .special file], 0, 0, none⟩
    let p : FilePart :=
      { name := "f", filename := none, headers := .empty, source := .path path,
        chunkSize := ⟨2, by decide⟩ }
    let failure := SystemError.other "x"
    p.source.Supplies (.still fs) p.chunkSize path [1, 2, 3, 4, 5] (some failure) ∧
      ∃ chunks : List Bytes, chunks.length = 2 ∧
        Completes BodyProducer.next (.still fs) { part := p } 0
          (chunks.map .ok ++ [.error (.io path failure)]) := by
  intro path file fs p failure
  have fits : p.chunkSize.val < 2 ^ 63 := by decide
  have proceeds : ∀ read ∈ ([.data [1], .interrupted, .data [2, 3, 4, 5]] : List ScriptedRead),
      read.Proceeds := by
    simp [ScriptedRead.Proceeds]
  have opened :
      fs.openFile path = .ok (.script { whole := file.reads, rewinding := .restores }) := by
    rfl
  have supplies : p.source.Supplies (.still fs) p.chunkSize path [1, 2, 3, 4, 5]
      (some failure) := .opened opened (.scriptFailing rfl proceeds)
  obtain ⟨-, chunks, cut, complete, -⟩ := chunks_of_supplies rfl fits supplies
  have count : chunks.length = 5 / 2 := WholePieces.count cut
  exact ⟨supplies, chunks, count, complete⟩

/-- Nothing is read from a reader in text mode, from one that is asked for more octets than a buffer
can have, and from one that has replaced a body which is kept. -/
theorem first_item_without_reading :
    let p (reader : Reader) : FilePart :=
      { name := "f", filename := none, headers := .empty, source := .reader reader }
    let text : Script := { whole := [.data [1]], textMode := true }
    let first (q : FilePart) := answer BodyProducer.next (.still .initial) { part := q } 0
    first (p (.script text)) = some (.error (.invalid .textModeSource)) ∧
      first ((p (.cursor [1] 0)).withChunkSize (2 ^ 63)) =
        some (.error (.panic .capacityOverflow)) ∧
      first { p (.cursor [1] 0) with keptBody := some [2] } = some (.ok [2]) ∧
      first (p (.cursor [1] 0)) = some (.ok [1]) := by
  decide +kernel

end FilePart

end Multipart
