import Multipart.Proofs.MadeOnce
import Multipart.Proofs.Part.KeptBody

/-!
# Runs of operations on a part

A part makes its header block and keeps its body once each, but not at the same time: whatever gives
or measures the block makes it, and whatever measures or pulls a body in memory keeps that. Names
and sources may be replaced in between, so a run is followed twice, for the name that the block is
made with and for the first body in memory that is taken.
-/

namespace Multipart

namespace FilePart

open Requests

namespace Operation

/-- Whether the header block is given or measured. -/
def takesBlock : Operation → Bool
  | .block | .length .. | .render .. => true
  | .data .. | .await .. | .setName _ | .setSource _ | .resize _ => false

def nameAfter (name : String) : Operation → String
  | .setName other => other
  | _ => name

def sourceAfter (source : Source) : Operation → Source
  | .setSource other => other
  | _ => source

end Operation

/-- The name that the header block is made with. -/
def blockName (name : String) (operations : List Operation) : String :=
  heldWhenTaken Operation.takesBlock Operation.nameAfter name operations

/-- The source that was put in place last. -/
def lastSource (source : Source) (operations : List Operation) : Source :=
  operations.foldl Operation.sourceAfter source

theorem name_apply (p : FilePart) (operation : Operation) :
    (p.apply operation).name = operation.nameAfter p.name := by
  rw [(advanced_apply p operation).name]
  cases operation <;> rfl

theorem filename_apply (p : FilePart) (operation : Operation) :
    (p.apply operation).filename = p.filename := by
  rw [(advanced_apply p operation).filename]
  cases operation <;> rfl

theorem headers_apply (p : FilePart) (operation : Operation) :
    (p.apply operation).headers = p.headers := by
  rw [(advanced_apply p operation).headers]
  cases operation <;> rfl

theorem keptBlock_apply (p : FilePart) (operation : Operation) :
    (p.apply operation).keptBlock =
      if operation.takesBlock then some p.block.1 else p.keptBlock := by
  cases operation with
  | block | setName | setSource | resize => rfl
  | length build fs =>
    rw [apply, length?_snd]
    rfl
  | data world n => exact (pulled_after BodyProducer.pulled_next world p n).sameBlock
  | await world n => exact (pulled_after BodyProducer.pulled_poll world p n).sameBlock
  | render world n =>
    cases n with
    | zero => rfl
    | succ n =>
      rw [apply, PartProducer.after_render]
      exact (pulled_after BodyProducer.pulled_next _ p.block.2 n).sameBlock

/-- After some operations the block is the one that was kept before, or else it is made with the
name at the first of them that took it. -/
theorem block_applyAll (p : FilePart) (operations : List Operation) :
    (p.applyAll operations).block.1 =
      p.keptBlock.getD
        (HeaderBlock.render (blockName p.name operations) p.filename p.headers) := by
  apply made_foldl FilePart.name (fun q => (q.filename, q.headers))
    (fun title name => HeaderBlock.render name title.1 title.2) FilePart.keptBlock name_apply
  · intro q operation
    rw [filename_apply, headers_apply]
  · exact keptBlock_apply

/-- The source in place is the one that was put there last, moved on by what was read of it. -/
theorem advanced_lastSource {source : Source} {p : FilePart} (moved : source.Advanced p.source)
    (operations : List Operation) :
    (lastSource source operations).Advanced (p.applyAll operations).source := by
  induction operations generalizing source p with
  | nil => exact moved
  | cons operation operations ih =>
    apply ih
    refine Source.Advanced.trans ?_ (advanced_apply p operation).source
    cases operation <;> first | exact moved | exact .same _

section Given

variable {p : FilePart}

/-- Blocking producers give this body in one chunk, and the size is told of it. No source is looked
at. -/
def GivesKept (p : FilePart) (body : Bytes) : Prop :=
  (∀ world, Completes BodyProducer.next world { part := p } 0 [.ok body]) ∧
  (∀ world, Completes PartProducer.next world (.ofPart p) 0 [.ok p.block.1, .ok body]) ∧
  ∀ build fs, (p.length? build fs).value.1 = .ok (some (p.block.1.length + body.length))

theorem givesKept {body : Bytes} (held : p.heldBody.1 = some body) : p.GivesKept body := by
  refine ⟨BodyProducer.completes_held held, PartProducer.completes_held held, ?_⟩
  intro build fs
  rw [length?_eq, held]

/-- Blocking producers give what the source renders, which is something as long as files stay as
they are, and the size is told of the source. -/
def GivesSource (p : FilePart) : Prop :=
  let content := Content.ofSource p.chunkSize p.source
  (∀ world rendered, Renders world 0 content rendered →
    Completes BodyProducer.next world { part := p } 0 rendered.items) ∧
  (∀ world rendered, Renders (fun k => world (k + 1)) 0 content rendered →
    Completes PartProducer.next world (.ofPart p) 0 (.ok p.block.1 :: rendered.items)) ∧
  (∀ fs, ∃ rendered, Renders (.still fs) 0 content rendered) ∧
  ∀ build fs, (p.length? build fs).value.1 =
    match p.source.held? with
    | some body => .ok (some (p.block.1.length + body.length))
    | none => (sourceLength? fs p.source).value.1.mapM (build.add p.block.1.length)

theorem givesSource (unkept : p.keptBody = none) : p.GivesSource := by
  have content_eq : p.content = .ofSource p.chunkSize p.source := by
    rw [content, unkept]
  have block_content : p.block.2.content = p.content := rfl
  refine ⟨?_, ?_, ?_, ?_⟩
  · intro world rendered renders
    exact (BodyProducer.completes_of_renders (content_eq ▸ renders)).1
  · intro world rendered renders
    rw [← content_eq, ← block_content] at renders
    exact PartProducer.completes_of_body (BodyProducer.completes_of_renders renders).1
  · intro fs
    obtain ⟨rendered, last, pulls⟩ := Pulls.exists_pending fs 0 p
    exact ⟨rendered, content_eq ▸ pulls.renders⟩
  · intro build fs
    have held : p.heldBody.1 = p.source.held? := by
      simp [heldBody, unkept]
    have told := length?_eq build fs p
    rw [held] at told
    exact told

/-- While files stay as they are, a rendering right after measuring is as large as it was told,
unless it fails. -/
theorem length_flatten_of_length? {build : Build} {fs : FileSystem} {n : Nat}
    (told : (p.length? build fs).value.1 = .ok (some n))
    (truthful : p.source.Truthful fs p.chunkSize) :
    let measured := (p.length? build fs).value.2
    ∃ items, Completes PartProducer.next (.still fs) (.ofPart measured) 0 items ∧
      ∀ chunks : List Bytes, items = chunks.map .ok → build.Counts chunks.flatten.length n := by
  intro measured
  have block_eq : measured.block.1 = p.block.1 := (Advanced.length? build fs p).block_eq
  have content_eq : measured.block.2.content = p.content := content_length? build fs p
  obtain ⟨size, known, counts⟩ := size?_of_length? told
  obtain ⟨rendered, last, pulls⟩ := Pulls.exists_pending fs 0 measured.block.2
  refine ⟨_, PartProducer.completes_of_body (BodyProducer.completes_of_renders pulls.renders).1, ?_⟩
  intro chunks given
  rw [block_eq, ← Rendered.items_add, Rendered.items_eq_map_ok_iff] at given
  have outcome := congrArg Rendered.outcome given
  rw [Rendered.outcome_add, pulls.renders.outcome_eq, content_eq] at outcome
  obtain ⟨body, rendered, flatten_eq⟩ := map_eq_ok_iff.mp outcome
  rw [← flatten_eq, List.length_append, length_outcome_of_size? known truthful rendered]
  exact counts

end Given

/-- After any run of operations: the header block is made with the name at the first of them that
took it, and from such an operation on it stays as it is; once a body in memory has been taken, it
is given whatever comes later; until then nothing is kept and the source in place is given, and the
first operation that takes a body finds that source; and a rendering right after measuring is as
large as it was told, unless the sum had too many bits and nothing checked it. -/
theorem run_of_upload {lookup : MediaType.Lookup} {name : String} {upload : Upload} {p : FilePart}
    (opened : ofUpload lookup name upload = .ok p) (operations : List Operation) :
    let q := p.applyAll operations
    let block := HeaderBlock.render (blockName name operations) upload.filename?
      (upload.headers lookup)
    (q.block.1 = block ∧
      (∀ world, answer PartProducer.next world (.ofPart q) 0 = some (.ok block)) ∧
      ∀ operation : Operation, operation.takesBlock = true →
        ∀ later, ((q.apply operation).applyAll later).block.1 = block) ∧
    (∀ body, firstBody upload.source.held? operations = some body →
      ∀ later, (q.applyAll later).GivesKept body) ∧
    (firstBody upload.source.held? operations = none →
      q.keptBody = none ∧ (lastSource upload.source operations).Advanced q.source ∧
      q.GivesSource ∧
      ∀ body, q.source.held? = some body → ∀ operation : Operation, operation.takesBody = true →
        ∀ later, ((q.apply operation).applyAll later).GivesKept body) ∧
    ∀ build fs n, (q.length? build fs).value.1 = .ok (some n) →
      q.source.Truthful fs q.chunkSize →
      let measured := (q.length? build fs).value.2
      ∃ items, Completes PartProducer.next (.still fs) (.ofPart measured) 0 items ∧
        ∀ chunks : List Bytes, items = chunks.map .ok →
          chunks.flatten.length = n ∨ build = .unchecked ∧ 2 ^ 64 ≤ chunks.flatten.length := by
  obtain rfl := fresh_of_ofUpload opened
  intro q block
  have block_eq : q.block.1 = block := block_applyAll _ operations
  have kept_eq : q.keptBody = firstBody upload.source.held? operations := by
    rw [keptBody_applyAll]
    rfl
  refine ⟨⟨block_eq, ?_, ?_⟩, ?_, ?_, ?_⟩
  · intro world
    rw [← block_eq]
    rfl
  · intro operation takes later
    rw [block_applyAll, keptBlock_apply, if_pos takes]
    exact block_eq
  · intro body first later
    apply givesKept
    rw [heldBody, keptBody_applyAll, kept_eq, first]
    rfl
  · intro untaken
    have unkept : q.keptBody = none := kept_eq.trans untaken
    refine ⟨unkept, ?_, givesSource unkept, ?_⟩
    · apply advanced_lastSource
      exact .same _
    · intro body held operation takes later
      apply givesKept
      rw [heldBody, keptBody_applyAll, keptBody_apply, unkept, if_pos takes, held]
      rfl
  · intro build fs n told truthful
    obtain ⟨items, complete, counted⟩ := length_flatten_of_length? told truthful
    refine ⟨items, complete, ?_⟩
    intro chunks given
    rcases counted chunks given with same | ⟨unchecked, large, -⟩
    · exact .inl same.symm
    · exact .inr ⟨unchecked, large⟩

/-- A body that is not pulled, a new name, a measurement, another name and a stream. -/
theorem run_of_upload_measured :
    let upload : Upload := .simple none (.bytes [0x68, 0x69])
    let p : FilePart :=
      { name := "a", filename := none, headers := .empty, source := .bytes [0x68, 0x69] }
    let operations : List Operation :=
      [.data (.still .initial) 0, .setName "b", .length .checked .initial, .setName "c",
        .setSource (.stream [.chunk [0x6E]])]
    ofUpload .byExtension "a" upload = .ok p ∧
      (p.applyAll operations).block.1 = HeaderBlock.render "b" none .empty ∧
      (p.applyAll operations).GivesKept [0x68, 0x69] := by
  intro upload p operations
  have opened : ofUpload .byExtension "a" upload = .ok p := by rfl
  have named : blockName "a" operations = "b" := by rfl
  have first : firstBody upload.source.held? operations = some [0x68, 0x69] := by rfl
  obtain ⟨⟨block_eq, -, -⟩, keeps, -, -⟩ := run_of_upload opened operations
  rw [named] at block_eq
  exact ⟨opened, block_eq, keeps _ first []⟩

end FilePart

end Multipart
