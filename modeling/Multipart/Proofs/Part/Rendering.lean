import Multipart.Part.Rendering
import Multipart.Proofs.Part.Content

/-!
# Producers of one part

What the producers of a part give when the body is held in memory, and what a waiting one gives of a
stream.
-/

namespace Multipart

namespace Stream

/-- What a stream gives up to its end or its failure, apart from the times when nothing is ready. -/
def items : Stream → List Item
  | [] => []
  | .chunk octets :: rest => .ok octets :: items rest
  | .text _ :: _ => [.error (.invalid .textModeSource)]
  | .failure reason :: _ => [.error (.io none (.other reason))]
  | .notReady :: rest => items rest
  | .ended :: _ => []

end Stream

namespace BodyProducer

open Requests

variable {world : World} {producer : BodyProducer} {n : Nat} {p : FilePart}

theorem pulled_next (fs : FileSystem) (b : BodyProducer) :
    b.part.Pulled (b.next fs).value.2.part := .pull fs b.part b.progress

theorem pulled_poll (fs : FileSystem) (b : BodyProducer) :
    b.part.Pulled (b.poll fs).value.2.part := by
  have moved := FilePart.Pulled.poll fs b.part b.progress
  unfold poll
  simp only [Traced.value_bind]
  split <;> exact moved

theorem next_done (fs : FileSystem) (p : FilePart) :
    (next fs ⟨p, .done⟩).value = (none, ⟨p, .done⟩) := by
  simp only [next, Traced.value_bind, FilePart.pull_done]
  rfl

theorem poll_done (fs : FileSystem) (p : FilePart) :
    (poll fs ⟨p, .done⟩).value = (.ready none, ⟨p, .done⟩) := by
  unfold poll FilePart.poll
  split
  · rfl
  · simp only [Traced.value_bind, FilePart.pull_done]
    rfl

theorem completes_done (reached : after next world producer n = ⟨p, .done⟩) :
    Completes next world producer n [] :=
  .of_fixed (fun fs => next_done fs p) reached

theorem awaits_done (reached : after poll world producer n = ⟨p, .done⟩) :
    Awaits poll world producer n [] :=
  .ended (answer_of_fixed (fun fs => poll_done fs p) reached)

theorem completes_end (ended : answer next world producer n = none)
    (left : after next world producer (n + 1) = ⟨p, .done⟩) :
    Completes next world producer n [] := by
  intro k
  cases k with
  | zero => exact ended
  | succ k =>
    rw [Nat.add_comm k, ← Nat.add_assoc]
    exact completes_done left k

theorem awaits_end (ended : answer poll world producer n = .ready none)
    (left : after poll world producer (n + 1) = ⟨p, .done⟩) :
    Awaits poll world producer n [] := by
  apply Awaits.ended
  intro k
  cases k with
  | zero => exact ended
  | succ k =>
    rw [Nat.add_comm k, ← Nat.add_assoc]
    exact answer_of_fixed (fun fs => poll_done fs p) left k

theorem next_of_pull (fs : FileSystem) {progress later : BodyProgress} {step : BodyStep}
    {q : FilePart} (pulled : (p.pull fs progress).value = (step, q, later)) :
    (next fs ⟨p, progress⟩).value = (step.item?, ⟨q, step.progressAfter later⟩) := by
  simp only [next, Traced.value_bind, pulled]
  rfl

/-- A run of pulls gives its chunks and its failure, and then nothing more. -/
theorem completes_of_pulls {progress : BodyProgress} {rendered : Rendered} {last : FilePart}
    (pulls : p.Pulls world n progress rendered last)
    (reached : after next world producer n = ⟨p, progress⟩) :
    Completes next world producer n rendered.items ∧
      ∀ k, after next world producer (n + rendered.chunks.length + 1 + k) = ⟨last, .done⟩ := by
  induction pulls with
  | ended step =>
    obtain rfl := FilePart.done_of_pull step
    obtain ⟨ended, left⟩ := request_eq reached (next_of_pull _ step)
    exact ⟨completes_end ended left, after_of_fixed (fun fs => next_done fs _) left⟩
  | failed step =>
    obtain ⟨failed, left⟩ := request_eq reached (next_of_pull _ step)
    exact ⟨.cons failed (completes_done left), after_of_fixed (fun fs => next_done fs _) left⟩
  | chunk step _ ih =>
    obtain ⟨given, onward⟩ := request_eq reached (next_of_pull _ step)
    obtain ⟨complete, finished⟩ := ih onward
    refine ⟨.cons given complete, ?_⟩
    intro k
    rw [Rendered.add_length_chunks_add]
    exact finished k

/-- What the content of a part renders, its body gives, and then it is left alone. -/
theorem completes_of_renders {rendered : Rendered} (renders : Renders world 0 p.content rendered) :
    Completes next world { part := p } 0 rendered.items ∧
      ∃ last, ∀ k, after next world { part := p } (rendered.chunks.length + 1 + k) =
        ⟨last, .done⟩ := by
  obtain ⟨last, pulls⟩ := FilePart.Pulls.of_renders renders
  obtain ⟨complete, finished⟩ := completes_of_pulls pulls (after_zero _ world _)
  refine ⟨complete, last, ?_⟩
  intro k
  rw [← finished k, Nat.zero_add]

/-- While no stream is awaited, polling is asking. -/
theorem poll_eq_next (fs : FileSystem) {b : BodyProducer}
    (settled : b.part.source.isStream = false) :
    (b.poll fs).value = (.ready (b.next fs).value.1, (b.next fs).value.2) := by
  simp only [poll, next, Traced.value_bind, FilePart.poll_eq_pull fs settled]
  rfl

theorem after_poll_eq (world : World) {b : BodyProducer}
    (settled : b.part.source.isStream = false) (n : Nat) :
    after poll world b n = after next world b n ∧
      (after next world b n).part.source.isStream = false := by
  induction n with
  | zero => exact ⟨rfl, settled⟩
  | succ n ih =>
    obtain ⟨same, still⟩ := ih
    refine ⟨?_, ?_⟩
    · rw [after_succ, after_succ, same, poll_eq_next _ still]
    · rw [after_succ, (pulled_next _ _).source.isStream_eq]
      exact still

theorem answer_poll_eq (world : World) {b : BodyProducer}
    (settled : b.part.source.isStream = false) (n : Nat) :
    answer poll world b n = .ready (answer next world b n) := by
  obtain ⟨same, still⟩ := after_poll_eq world settled n
  rw [answer, answer, same, poll_eq_next _ still]

/-- One poll of a stream: the producer takes its next emission, whatever the part keeps. -/
theorem poll_stream (fs : FileSystem) {stream : Stream} {progress : BodyProgress}
    (source : p.source = .stream stream) (ongoing : progress ≠ .done) :
    (poll fs ⟨p, progress⟩).value =
      match FilePart.emissionStep progress stream.poll.1 with
      | .ready (step, later) =>
        (.ready step.item?, ⟨{ p with source := .stream stream.poll.2 },
          step.progressAfter later⟩)
      | .notReady => (.notReady, ⟨{ p with source := .stream stream.poll.2 }, progress⟩) := by
  unfold poll FilePart.poll
  rw [source]
  simp only [ongoing, if_false, Traced.value_bind]
  cases FilePart.emissionStep progress stream.poll.1 <;> rfl

theorem awaits_stream {stream : Stream} {progress : BodyProgress}
    (reached : after poll world producer n = ⟨p, progress⟩)
    (source : p.source = .stream stream) (ongoing : progress ≠ .done) :
    Awaits poll world producer n stream.items := by
  induction stream generalizing n p with
  | nil =>
    obtain ⟨ended, left⟩ := request_eq reached (poll_stream _ source ongoing)
    exact awaits_end ended left
  | cons emission rest ih =>
    obtain ⟨given, left⟩ := request_eq reached (poll_stream _ source ongoing)
    cases emission with
    | chunk octets => exact .item given (ih left rfl)
    | text content => exact .item given (awaits_done left)
    | failure reason => exact .item given (awaits_done left)
    | notReady => exact .waits given (ih left rfl)
    | ended => exact awaits_end given left

theorem awaits_of_stream {stream : Stream} (source : p.source = .stream stream) (world : World) :
    Awaits poll world { part := p } 0 stream.items :=
  awaits_stream (after_zero poll world _) source nofun

/-- Any other source is pulled, and a body that is kept is given whole. -/
theorem poll_held (fs : FileSystem) {body : Bytes} (settled : p.source.isStream = false)
    (held : p.heldBody.1 = some body) :
    (poll fs { part := p }).value = (.ready (some (.ok body)), ⟨p.heldBody.2, .done⟩) := by
  simp only [poll, Traced.value_bind, FilePart.poll_eq_pull fs settled, FilePart.pull_held held]
  rfl

theorem next_held (fs : FileSystem) {body : Bytes} (held : p.heldBody.1 = some body) :
    (next fs { part := p }).value = (some (.ok body), ⟨p.heldBody.2, .done⟩) := by
  simp only [next, Traced.value_bind, FilePart.pull_held held]
  rfl

theorem completes_held {body : Bytes} (held : p.heldBody.1 = some body) (world : World) :
    Completes next world { part := p } 0 [.ok body] := by
  obtain ⟨given, left⟩ := request_eq (after_zero next world { part := p }) (next_held _ held)
  exact .cons given (completes_done left)

theorem awaits_held {body : Bytes} (settled : p.source.isStream = false)
    (held : p.heldBody.1 = some body) (world : World) :
    Awaits poll world { part := p } 0 [.ok body] := by
  obtain ⟨given, left⟩ :=
    request_eq (after_zero poll world { part := p }) (poll_held _ settled held)
  exact .item given (awaits_done left)

end BodyProducer

namespace PartProducer

open Requests

/-- Past the header block, rendering a part is rendering its body. -/
theorem after_render (world : World) (p : FilePart) (n : Nat) :
    after next world (.ofPart p) (n + 1) =
      ⟨none, after BodyProducer.next (fun k => world (k + 1)) { part := p.block.2 } n⟩ := by
  induction n with
  | zero => rfl
  | succ n ih =>
    rw [after_succ, ih]
    rfl

theorem answer_render (world : World) (p : FilePart) (n : Nat) :
    answer next world (.ofPart p) (n + 1) =
      answer BodyProducer.next (fun k => world (k + 1)) { part := p.block.2 } n := by
  unfold answer
  rw [after_render]
  rfl

theorem completes_of_body {world : World} {p : FilePart} {items : List Item}
    (body : Completes BodyProducer.next (fun k => world (k + 1)) { part := p.block.2 } 0 items) :
    Completes next world (.ofPart p) 0 (.ok p.block.1 :: items) := by
  refine .cons rfl ?_
  intro k
  rw [Nat.add_comm, answer_render, ← body k, Nat.zero_add]

theorem completes_held {p : FilePart} {body : Bytes} (held : p.heldBody.1 = some body)
    (world : World) :
    Completes next world (.ofPart p) 0 [.ok p.block.1, .ok body] :=
  completes_of_body (BodyProducer.completes_held (p := p.block.2) held _)

end PartProducer

end Multipart
