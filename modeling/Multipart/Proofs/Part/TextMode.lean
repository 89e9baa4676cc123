import Multipart.Proofs.Message.Polling
import Multipart.Proofs.Part.Runs

/-!
# Text is never sent

No octets are defined for what a reader in text mode would give, or for the text that a stream
gives. Such a reader is not made into a part, and where it is put in place later it is left alone,
as a stream is by a producer that blocks. A stream is sent up to its first text.
-/

namespace Multipart

/-- Why a producer that blocks leaves a source alone. -/
def Source.refusal? : Source → Option InvalidInput
  | .reader r => if r.isTextMode then some .textModeSource else none
  | .stream _ => some .streamNotAwaited
  | .bytes _ | .text _ | .path _ => none

theorem Source.refusal?_eq_textModeSource {source : Source} (text : source.isTextMode = true) :
    source.refusal? = some .textModeSource := by
  cases source with
  | reader r => exact if_pos text
  | bytes | text | path | stream => cases text

def Emission.chunk? : Emission → Option Bytes
  | .chunk octets => some octets
  | .text _ | .failure _ | .notReady | .ended => none

namespace Stream

def chunks (s : Stream) : List Bytes := s.filterMap Emission.chunk?

variable {before : Stream}

/-- A stream that goes on gives its chunks, and then what comes after them. -/
theorem items_append_of_goesOn (onward : ∀ e ∈ before, e.goesOn = true) (rest : Stream) :
    items (before ++ rest) = (chunks before).map .ok ++ items rest := by
  induction before with
  | nil => rfl
  | cons e before ih =>
    obtain ⟨first, later⟩ := List.forall_mem_cons.mp onward
    cases e with
    | chunk octets => exact congrArg (.ok octets :: ·) (ih later)
    | notReady => exact ih later
    | text | failure | ended => cases first

/-- A stream that has stopped does not come to what is after that. -/
theorem items_append_of_stops (stops : ∃ e ∈ before, e.goesOn = false) (rest : Stream) :
    items (before ++ rest) = items before := by
  induction before with
  | nil => simp at stops
  | cons e before ih =>
    cases e with
    | chunk octets =>
      exact congrArg (.ok octets :: ·) (ih (by simpa [Emission.goesOn] using stops))
    | notReady => exact ih (by simpa [Emission.goesOn] using stops)
    | text | failure | ended => rfl

end Stream

namespace FilePart

open Requests

variable {p : FilePart} {cause : InvalidInput}

theorem ofUpload_eq_error_iff {lookup : MediaType.Lookup} {name : String} {upload : Upload}
    {e : EncodingError} :
    ofUpload lookup name upload = .error e ↔
      upload.source.isTextMode = true ∧ e = .invalid .textModeSource := by
  unfold ofUpload
  cases upload.source.isTextMode with
  | false => simp
  | true => simp [eq_comm]

/-! ## Sources that are left alone -/

/-- What is kept, or else the reason why nothing is read. -/
def keptOr (p : FilePart) (cause : InvalidInput) : Item :=
  p.keptBody.elim (.error (.invalid cause)) .ok

/-- Producers that block give this item and nothing else, and they leave the part as it is. -/
structure GivesOnly (p : FilePart) (item : Item) : Prop where
  next : ∀ fs, BodyProducer.next fs { part := p } = pure (some item, ⟨p, .done⟩)
  data : ∀ world, Completes BodyProducer.next world { part := p } 0 [item]
  render : ∀ world, Completes PartProducer.next world (.ofPart p) 0 [.ok p.block.1, item]

section Refusal

variable (refused : p.source.refusal? = some cause)

include refused

theorem heldBody_of_refusal : p.heldBody = (p.keptBody, p) := by
  have memory : p.source.held? = none := by
    cases source : p.source with
    | bytes | text => rw [source] at refused; cases refused
    | path | reader | stream => rfl
  simp [heldBody, memory]

theorem begin_of_refusal (fs : FileSystem) : p.begin fs = pure (.error (.invalid cause), p) := by
  cases source : p.source with
  | bytes | text | path => rw [source] at refused; cases refused
  | stream =>
    rw [source] at refused
    cases refused
    simp only [begin, source]
  | reader r =>
    cases mode : r.isTextMode with
    | false => simp [source, Source.refusal?, mode] at refused
    | true =>
      obtain rfl : InvalidInput.textModeSource = cause := by
        simpa [source, Source.refusal?, mode] using refused
      simp only [begin, source, mode, if_true]

theorem next_of_refusal (fs : FileSystem) :
    BodyProducer.next fs { part := p } = pure (some (p.keptOr cause), ⟨p, .done⟩) := by
  simp only [BodyProducer.next, pull, if_true, heldBody_of_refusal refused, keptOr]
  cases p.keptBody with
  | some body => rfl
  | none =>
    rw [begin_of_refusal refused]
    rfl

theorem request_of_refusal (world : World) :
    answer BodyProducer.next world { part := p } 0 = some (p.keptOr cause) ∧
      after BodyProducer.next world { part := p } 1 = ⟨p, .done⟩ :=
  request_eq (after_zero BodyProducer.next world _)
    (congrArg Traced.value (next_of_refusal refused _))

theorem completes_of_refusal (world : World) :
    Completes BodyProducer.next world { part := p } 0 [p.keptOr cause] := by
  obtain ⟨given, left⟩ := request_of_refusal refused world
  exact .cons given (BodyProducer.completes_done left)

theorem givesOnly_of_refusal : p.GivesOnly (p.keptOr cause) := by
  refine ⟨next_of_refusal refused, completes_of_refusal refused, ?_⟩
  intro world
  exact PartProducer.completes_of_body (completes_of_refusal (p := p.block.2) refused _)

theorem part_after_of_refusal (world : World) (n : Nat) :
    (after BodyProducer.next world { part := p } n).part = p := by
  cases n with
  | zero => rfl
  | succ n =>
    have stays := after_of_fixed (fun fs => BodyProducer.next_done fs p)
      (request_of_refusal refused world).2 n
    rw [Nat.add_comm n 1, stays]

end Refusal

section TextMode

variable (text : p.source.isTextMode = true)

include text

theorem isStream_of_textMode : p.source.isStream = false := by
  cases source : p.source with
  | stream => rw [source] at text; cases text
  | bytes | text | path | reader => rfl

theorem awaits_of_textMode (world : World) :
    Awaits BodyProducer.poll world { part := p } 0 [p.keptOr .textModeSource] := by
  have first := next_of_refusal (Source.refusal?_eq_textModeSource text) (world 0)
  have polled := BodyProducer.poll_eq_next (world 0) (b := { part := p }) (isStream_of_textMode text)
  rw [first] at polled
  obtain ⟨given, left⟩ := request_eq (after_zero BodyProducer.poll world { part := p }) polled
  exact .item given (BodyProducer.awaits_done left)

theorem source_apply_of_textMode (operation : Operation) :
    (p.apply operation).source = operation.sourceAfter p.source := by
  have refused := Source.refusal?_eq_textModeSource text
  cases operation with
  | block | setName | setSource | resize => rfl
  | length fs =>
    rw [apply, length?_snd]
    rfl
  | data world n =>
    rw [apply, part_after_of_refusal refused]
    rfl
  | await world n =>
    have same := (BodyProducer.after_poll_eq world (b := { part := p })
      (isStream_of_textMode text) n).1
    rw [apply, same, part_after_of_refusal refused]
    rfl
  | render world n =>
    cases n with
    | zero => rfl
    | succ n =>
      have still := part_after_of_refusal (p := p.block.2) refused (fun k => world (k + 1)) n
      rw [apply, PartProducer.after_render]
      exact (congrArg FilePart.source still :)

end TextMode

/-- The reader in text mode that was put in place last is still there as it was put. -/
theorem source_applyAll_of_textMode {source : Source}
    (same : source.isTextMode = true → p.source = source) (operations : List Operation)
    (text : (lastSource source operations).isTextMode = true) :
    (p.applyAll operations).source = lastSource source operations := by
  induction operations generalizing source p with
  | nil => exact same text
  | cons operation operations ih =>
    refine ih ?_ text
    intro here
    cases operation with
    | setSource other => rfl
    | block | length | data | render | await | setName | resize =>
      have before := same here
      rw [← before] at here
      rw [source_apply_of_textMode here, before]

/-- A reader in text mode is not made into a part. Put in place later it stays as it was put,
whatever is done with the part, and all producers give what was kept before or say that the source
is in text mode. A stream that comes to a text gives the chunks before it and then says the same,
whatever the text is and whatever is after it. Producers that block leave the stream alone. -/
theorem textMode_not_sent (lookup : MediaType.Lookup) (name : String) (upload : Upload) :
    (∀ e, ofUpload lookup name upload = .error e ↔
      upload.source.isTextMode = true ∧ e = .invalid .textModeSource) ∧
    ∀ p, ofUpload lookup name upload = .ok p → ∀ operations,
      let q := p.applyAll operations
      let keptOr (cause : InvalidInput) : Item :=
        (firstBody upload.source.held? operations).elim (.error (.invalid cause)) .ok
      (∀ r, lastSource upload.source operations = .reader r → r.isTextMode = true →
        q.source = .reader r ∧ q.GivesOnly (keptOr .textModeSource) ∧
        ∀ world, Awaits BodyProducer.poll world { part := q } 0 [keptOr .textModeSource]) ∧
      ∀ before content rest, q.source = .stream (before ++ .text content :: rest) →
        q.GivesOnly (keptOr .streamNotAwaited) ∧
        ∀ world,
          ((∀ e ∈ before, e.goesOn = true) →
            Awaits BodyProducer.poll world { part := q } 0
              ((Stream.chunks before).map .ok ++ [.error (.invalid .textModeSource)])) ∧
          ((∃ e ∈ before, e.goesOn = false) →
            Awaits BodyProducer.poll world { part := q } 0 (Stream.items before)) := by
  refine ⟨fun e => ofUpload_eq_error_iff, ?_⟩
  intro p opened operations q keptOr
  have kept (cause : InvalidInput) : q.keptOr cause = keptOr cause := by
    obtain rfl := fresh_of_ofUpload opened
    rw [FilePart.keptOr, keptBody_applyAll]
    rfl
  refine ⟨?_, ?_⟩
  · intro r last text
    have source : q.source = .reader r := by
      obtain rfl := fresh_of_ofUpload opened
      rw [← last]
      refine source_applyAll_of_textMode (fun _ => rfl) operations ?_
      rw [last]
      exact text
    have textMode : q.source.isTextMode = true := by
      rw [source]
      exact text
    rw [← kept]
    exact ⟨source, givesOnly_of_refusal (Source.refusal?_eq_textModeSource textMode),
      awaits_of_textMode textMode⟩
  · intro before content rest source
    have refused : q.source.refusal? = some .streamNotAwaited := by
      rw [source]
      rfl
    have awaited := BodyProducer.awaits_of_stream source
    rw [← kept]
    refine ⟨givesOnly_of_refusal refused, fun world => ⟨?_, ?_⟩⟩
    · intro onward
      have items := Stream.items_append_of_goesOn onward (.text content :: rest)
      exact items ▸ awaited world
    · intro stops
      have items := Stream.items_append_of_stops stops (.text content :: rest)
      exact items ▸ awaited world

/-- A body that is rendered before a reader in text mode takes its place, and a stream of which the
first chunk has been taken before. -/
theorem textMode_not_sent_replaced :
    let upload : Upload := .simple none (.bytes [0x68])
    let p : FilePart := { name := "f", filename := none, headers := .empty, source := .bytes [0x68] }
    let r : Reader := .script { whole := [.data [1]], rest := [], textMode := true }
    let s : Stream := [.chunk [1], .chunk [2], .notReady, .chunk [3], .text "t", .chunk [4]]
    let world : World := .still .initial
    let read := p.applyAll [.data world 1, .setSource (.reader r), .await world 2, .render world 3]
    let awaited := p.applyAll [.setSource (.stream s), .await world 1]
    ofUpload .byExtension "f" (.bare (.reader r)) = .error (.invalid .textModeSource) ∧
      ofUpload .byExtension "f" upload = .ok p ∧
      (read.source = .reader r ∧ read.GivesOnly (.ok [0x68])) ∧
      awaited.GivesOnly (.error (.invalid .streamNotAwaited)) ∧
      Awaits BodyProducer.poll world { part := awaited } 0
        [.ok [2], .ok [3], .error (.invalid .textModeSource)] := by
  intro upload p r s world read awaited
  have opened : ofUpload .byExtension "f" upload = .ok p := by rfl
  obtain ⟨refused, -⟩ := textMode_not_sent .byExtension "f" (.bare (.reader r))
  obtain ⟨-, sent⟩ := textMode_not_sent .byExtension "f" upload
  obtain ⟨source, given, -⟩ := (sent p opened
    [.data world 1, .setSource (.reader r), .await world 2, .render world 3]).1 r rfl rfl
  obtain ⟨blocked, waiting⟩ := (sent p opened [.setSource (.stream s), .await world 1]).2
    [.chunk [2], .notReady, .chunk [3]] "t" [.chunk [4]] rfl
  exact ⟨(refused _).mpr ⟨rfl, rfl⟩, opened, ⟨source, given⟩, blocked, (waiting world).1 (by decide)⟩

end FilePart

end Multipart
