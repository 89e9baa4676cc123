import Multipart.Proofs.Part.Measure
import Multipart.Proofs.Part.Rendering

/-!
# The body that a part keeps

A part keeps the first body in memory that it renders or measures, and from then on it renders and
measures that body, whatever source is put in its place. There is one exception: a waiting producer
asks a stream for its chunks before it looks at what the part keeps.
-/

namespace Multipart

namespace FilePart

/-- Once what is in memory is kept, no rendering changes what is kept. -/
theorem Advanced.keptBody_eq {p q : FilePart} (moved : p.Advanced q)
    (full : p.keptBody = p.heldBody.1) : q.keptBody = p.keptBody := by
  rcases moved.keptBody with same | filled
  · exact same
  · rw [filled, full]

theorem Pulled.pull_pending (fs : FileSystem) (p : FilePart) :
    p.heldBody.2.Pulled (p.pull fs .pending).value.2.1 := by
  cases held : p.heldBody.1 with
  | some body =>
    rw [pull_held held]
    exact .refl _
  | none =>
    rw [heldBody_of_none held]
    exact .pull fs p .pending

theorem keptBody_next (fs : FileSystem) (p : FilePart) :
    (BodyProducer.next fs { part := p }).value.2.part.keptBody = p.heldBody.1 :=
  (Pulled.pull_pending fs p).keptBody_eq (Advanced.heldBody p).heldBody_eq.symm

theorem keptBody_poll (fs : FileSystem) (p : FilePart) :
    (BodyProducer.poll fs { part := p }).value.2.part.keptBody = p.heldBody.1 := by
  cases waiting : p.source.isStream with
  | true =>
    -- A stream holds nothing in memory, so there is nothing to be kept.
    have memory : p.source.held? = none := by
      cases source : p.source <;> simp_all [Source.isStream, Source.held?]
    have full : p.keptBody = p.heldBody.1 := by
      simp [heldBody, memory]
    rw [(BodyProducer.pulled_poll fs { part := p }).keptBody_eq full, full]
  | false =>
    simp only [BodyProducer.poll, Traced.value_bind, poll_eq_pull fs waiting]
    exact (Pulled.pull_pending fs p).keptBody_eq (Advanced.heldBody p).heldBody_eq.symm

open Requests

section After

variable {α : Type} {step : FileSystem → BodyProducer → Traced (α × BodyProducer)}
  (pulls : ∀ (fs : FileSystem) (b : BodyProducer), b.part.Pulled (step fs b).value.2.part)

include pulls

theorem pulled_after (world : World) (p : FilePart) (n : Nat) :
    p.Pulled (after step world { part := p } n).part := by
  refine after_invariant (P := fun b => p.Pulled b.part) step world { part := p } (.refl p) ?_ n
  intro fs b moved
  exact moved.trans (pulls fs b)

/-- The first request decides what is kept. -/
theorem keptBody_after (keeps : ∀ (fs : FileSystem) (p : FilePart),
      (step fs { part := p }).value.2.part.keptBody = p.heldBody.1)
    (world : World) (p : FilePart) (n : Nat) :
    (after step world { part := p } (n + 1)).part.keptBody = p.heldBody.1 := by
  induction n with
  | zero => exact keeps (world 0) p
  | succ n ih =>
    have full : (after step world { part := p } (n + 1)).part.keptBody =
        (after step world { part := p } (n + 1)).part.heldBody.1 := by
      rw [ih, (pulled_after pulls world p (n + 1)).heldBody_eq]
    rw [← ih]
    exact (pulls _ _).keptBody_eq full

end After

/-- What can be done with a file part. A producer is asked a number of times and then given up. -/
inductive Operation
  | block
  | length (build : Build) (fs : FileSystem)
  | data (world : World) (requests : Nat)
  | render (world : World) (requests : Nat)
  | await (world : World) (requests : Nat)
  | setName (name : String)
  | setSource (source : Source)
  | resize (n : Nat)

def apply (p : FilePart) : Operation → FilePart
  | .block => p.block.2
  | .length build fs => (p.length? build fs).value.2
  | .data world requests => (after BodyProducer.next world { part := p } requests).part
  | .render world requests => (after PartProducer.next world (.ofPart p) requests).body.part
  | .await world requests => (after BodyProducer.poll world { part := p } requests).part
  | .setName name => { p with name }
  | .setSource source => { p with source }
  | .resize n => p.withChunkSize n

def applyAll (p : FilePart) (operations : List Operation) : FilePart := operations.foldl apply p

/-- What an operation replaces. -/
def assign (p : FilePart) : Operation → FilePart
  | .setName name => { p with name }
  | .setSource source => { p with source }
  | .resize n => p.withChunkSize n
  | .block | .length .. | .data .. | .render .. | .await .. => p

/-- Apart from what it replaces, an operation only renders and measures. -/
theorem advanced_apply (p : FilePart) (operation : Operation) :
    (p.assign operation).Advanced (p.apply operation) := by
  cases operation with
  | setName | setSource | resize => exact .refl _
  | block => exact .block p
  | length build fs => exact .length? build fs p
  | data world n => exact (pulled_after BodyProducer.pulled_next world p n).toAdvanced
  | await world n => exact (pulled_after BodyProducer.pulled_poll world p n).toAdvanced
  | render world n =>
    have block : p.Advanced p.block.2 := .block p
    cases n with
    | zero => exact block
    | succ n =>
      rw [apply, PartProducer.after_render]
      exact block.trans (pulled_after BodyProducer.pulled_next _ p.block.2 n).toAdvanced

namespace Operation

/-- Whether the body is measured or asked for. A whole rendering gives the header block first. -/
def takesBody : Operation → Bool
  | .length .. => true
  | .data _ requests | .await _ requests => decide (0 < requests)
  | .render _ requests => decide (1 < requests)
  | .block | .setName _ | .setSource _ | .resize _ => false

/-- The body in memory afterwards. -/
def heldAfter (held : Option Bytes) : Operation → Option Bytes
  | .setSource source => source.held?
  | _ => held

end Operation

/-- The first body in memory that some operations measure or ask for. -/
def firstBody (held : Option Bytes) : List Operation → Option Bytes
  | [] => none
  | operation :: rest =>
    (if operation.takesBody then held else none) <|> firstBody (operation.heldAfter held) rest

theorem held?_apply (p : FilePart) (operation : Operation) :
    (p.apply operation).source.held? = operation.heldAfter p.source.held? := by
  rw [(advanced_apply p operation).source.held?_eq]
  cases operation <;> rfl

theorem keptBody_apply (p : FilePart) (operation : Operation) :
    (p.apply operation).keptBody =
      (p.keptBody <|> if operation.takesBody then p.source.held? else none) := by
  cases operation with
  | block | setName | setSource | resize => simp [apply, Operation.takesBody, block, withChunkSize]
  | length build fs =>
    rw [apply, length?_snd]
    rfl
  | data world n =>
    cases n with
    | zero => simp [apply, Operation.takesBody]
    | succ n => exact keptBody_after BodyProducer.pulled_next keptBody_next world p n
  | await world n =>
    cases n with
    | zero => simp [apply, Operation.takesBody]
    | succ n => exact keptBody_after BodyProducer.pulled_poll keptBody_poll world p n
  | render world n =>
    rcases n with - | - | n
    · simp [apply, Operation.takesBody, PartProducer.ofPart, block]
    · simp [apply, Operation.takesBody, PartProducer.after_render, block]
    · rw [apply, PartProducer.after_render]
      exact keptBody_after BodyProducer.pulled_next keptBody_next _ p.block.2 n

/-- What a part keeps after some operations is what it kept before, or else the first body in memory
that they took. -/
theorem keptBody_applyAll (p : FilePart) (operations : List Operation) :
    (p.applyAll operations).keptBody = (p.keptBody <|> firstBody p.source.held? operations) := by
  induction operations generalizing p with
  | nil => simp [applyAll, firstBody]
  | cons operation operations ih =>
    rw [applyAll, List.foldl_cons, ← applyAll, ih, keptBody_apply, held?_apply, firstBody]
    cases p.keptBody <;> simp

theorem fresh_of_ofUpload {lookup : MediaType.Lookup} {name : String} {upload : Upload}
    {p : FilePart} (opened : ofUpload lookup name upload = .ok p) :
    p = { name, filename := upload.filename?, headers := upload.headers lookup,
          source := upload.source } := by
  unfold ofUpload at opened
  split at opened
  · cases opened
  · cases opened
    rfl

/-- Once a body in memory has been measured or asked for, blocking producers give it in one chunk
and the size is told of it, whatever the source is by then. So do waiting producers, unless the
source is a stream: they give the stream's own items. -/
theorem renders_firstBody {lookup : MediaType.Lookup} {name : String} {upload : Upload}
    {p : FilePart} (opened : ofUpload lookup name upload = .ok p) {operations : List Operation}
    {body : Bytes} (first : firstBody upload.source.held? operations = some body) (world : World) :
    let q := p.applyAll operations
    Completes BodyProducer.next world { part := q } 0 [.ok body] ∧
    Completes PartProducer.next world (.ofPart q) 0 [.ok q.block.1, .ok body] ∧
    (∀ build fs, (q.length? build fs).value.1 = .ok (some (q.block.1.length + body.length))) ∧
    (Awaits BodyProducer.poll world { part := q } 0 [.ok body] ↔
      ∀ stream, q.source = .stream stream → stream.items = [.ok body]) := by
  intro q
  have held : q.heldBody.1 = some body := by
    have kept : q.keptBody = some body := by
      obtain rfl := fresh_of_ofUpload opened
      rw [keptBody_applyAll, first]
      rfl
    simp [heldBody, kept]
  refine ⟨BodyProducer.completes_held held world, PartProducer.completes_held held world,
    ?_, ?_, ?_⟩
  · intro build fs
    rw [length?_eq, held]
  · intro given stream source
    exact (BodyProducer.awaits_of_stream source world).unique given
  · intro agrees
    cases waiting : q.source.isStream with
    | false => exact BodyProducer.awaits_held waiting held world
    | true =>
      obtain ⟨stream, source⟩ : ∃ stream, q.source = .stream stream := by
        cases source : q.source with
        | stream stream => exact ⟨stream, rfl⟩
        | bytes | text | path | reader => simp [source, Source.isStream] at waiting
      rw [← agrees stream source]
      exact BodyProducer.awaits_of_stream source world

/-- A body that was measured, and then a path in its place. -/
theorem renders_firstBody_path :
    let p : FilePart :=
      { name := "f", filename := none, headers := .empty, source := .bytes [0x68, 0x69] }
    let operations : List Operation := [.length .checked .initial, .setSource (.path [])]
    ofUpload .byExtension "f" (.simple none (.bytes [0x68, 0x69])) = .ok p ∧
      firstBody (some [0x68, 0x69]) operations = some [0x68, 0x69] ∧
      Awaits BodyProducer.poll (.still .initial) { part := p.applyAll operations } 0
        [.ok [0x68, 0x69]] := by
  intro p operations
  have opened : ofUpload .byExtension "f" (.simple none (.bytes [0x68, 0x69])) = .ok p := by rfl
  have first : firstBody (some [0x68, 0x69]) operations = some [0x68, 0x69] := by rfl
  obtain ⟨-, -, -, awaited⟩ := renders_firstBody opened first (.still .initial)
  exact ⟨opened, first, awaited.mpr nofun⟩

/-- A waiting producer takes a stream in place of the body that was rendered before. -/
theorem await_stream_ignores_firstBody :
    let p : FilePart :=
      { name := "f", filename := none, headers := .empty, source := .bytes [0x68, 0x69] }
    let operations : List Operation :=
      [.data (.still .initial) 2, .setSource (.stream [.chunk [0x6E, 0x65, 0x77]])]
    firstBody (some [0x68, 0x69]) operations = some [0x68, 0x69] ∧
      ¬ Awaits BodyProducer.poll (.still .initial) { part := p.applyAll operations } 0
        [.ok [0x68, 0x69]] := by
  intro p operations
  refine ⟨rfl, ?_⟩
  intro given
  have source : (p.applyAll operations).source = .stream [.chunk [0x6E, 0x65, 0x77]] := rfl
  cases given.unique (BodyProducer.awaits_of_stream source (.still .initial))

end FilePart

end Multipart
