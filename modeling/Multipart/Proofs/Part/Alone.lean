import Multipart.Part.Basic
import Multipart.Proofs.Part.Chunks

/-!
# A part by itself

What a part gives when it is rendered by itself. A body gives nothing more once it has ended or
failed, and it is the same whether or not the header block has been kept.
-/

namespace Multipart

open Requests

namespace Part

/-- What a part gives by itself at each request. A scalar has both of its chunks at once. -/
def alone (world : World) : Part → Nat → Option Item
  | .scalar p, k => ([.ok p.chunks.1.1, .ok p.chunks.1.2] : List Item)[k]?
  | .file p, k => answer PartProducer.next world (.ofPart p) k

/-- The part as it is left by that. -/
def afterAlone (world : World) (requests : Nat) : Part → Part
  | .scalar p => .scalar p.chunks.2
  | .file p => .file (after PartProducer.next world (.ofPart p) requests).body.part

end Part

/-! ## Bodies by themselves -/

namespace FilePart

/-- The same part with another header block kept. -/
def withBlock (block : Option Bytes) (p : FilePart) : FilePart := { p with keptBlock := block }

variable (fs : FileSystem) (block : Option Bytes) (p : FilePart)

theorem begin_withBlock :
    ((p.withBlock block).begin fs).value =
      ((p.begin fs).value.1, (p.begin fs).value.2.withBlock block) := by
  unfold begin
  cases source : p.source with
  | bytes | text | stream => simp only [withBlock, source, Traced.value_pure]
  | path path =>
    cases opened : fs.openFile path <;> simp only [withBlock, source, opened, Traced.value_pure]
  | reader reader =>
    cases mode : reader.isTextMode with
    | true => simp only [withBlock, source, mode, if_true, Traced.value_pure]
    | false =>
      cases rewound : reader.rewind? <;>
        simp [withBlock, source, mode, rewound]

theorem continueBody_withBlock (progress : BodyProgress) :
    ((p.withBlock block).continueBody fs progress).value =
      ((p.continueBody fs progress).value.1,
        (p.continueBody fs progress).value.2.1.withBlock block,
        (p.continueBody fs progress).value.2.2) := by
  obtain ⟨name, filename, headers, source, chunkSize, keptBlock, keptBody⟩ := p
  cases progress with
  | pending | done | file => rfl
  | reader => cases source <;> rfl

theorem pull_withBlock (progress : BodyProgress) :
    ((p.withBlock block).pull fs progress).value =
      ((p.pull fs progress).value.1, (p.pull fs progress).value.2.1.withBlock block,
        (p.pull fs progress).value.2.2) := by
  by_cases fresh : progress = .pending
  · subst fresh
    cases held : p.heldBody.1 with
    | some octets =>
      have same : (p.withBlock block).heldBody.1 = some octets := held
      rw [pull_held held, pull_held same]
      rfl
    | none =>
      have same : (p.withBlock block).heldBody.1 = none := held
      have prepared := begin_withBlock fs block p
      obtain ⟨begun, q, began⟩ : ∃ begun q, (p.begin fs).value = (begun, q) := ⟨_, _, rfl⟩
      rw [began] at prepared
      rw [pull_pending held began, pull_pending same prepared]
      cases begun with
      | ok progress => exact continueBody_withBlock fs block q progress
      | error e => rfl
  · simp only [pull, fresh, if_false]
    exact continueBody_withBlock fs block p progress

theorem poll_withBlock (progress : BodyProgress) :
    ((p.withBlock block).poll fs progress).value =
      ((p.poll fs progress).value.1, (p.poll fs progress).value.2.1.withBlock block,
        (p.poll fs progress).value.2.2) := by
  cases waiting : p.source.isStream with
  | false =>
    have same : (p.withBlock block).source.isStream = false := waiting
    rw [poll_eq_pull fs waiting, poll_eq_pull fs same, pull_withBlock]
  | true =>
    by_cases finished : progress = .done
    · rw [finished, poll_done, poll_done]
    · cases source : p.source with
      | bytes | text | path | reader => simp [source, Source.isStream] at waiting
      | stream s =>
        have same : (p.withBlock block).source = .stream s := source
        rw [poll_stream fs source finished, poll_stream fs same finished]
        cases emissionStep progress s.poll.1 <;> rfl

variable {fs p} in
theorem progress_poll_of_notReady {progress later : BodyProgress} {q : FilePart}
    (waiting : (p.poll fs progress).value = (.notReady, q, later)) : later = progress := by
  unfold poll at waiting
  split at waiting
  · split at waiting
    · cases waiting
    · simp only at waiting
      split at waiting <;> cases waiting
      rfl
  · cases waiting

end FilePart

namespace BodyProducer

/-- What a poll says is said as an item, and a failure ends the body. -/
theorem poll_of_poll (fs : FileSystem) {b : BodyProducer} {answer : Poll BodyStep} {q : FilePart}
    {later : BodyProgress} (polled : (b.part.poll fs b.progress).value = (answer, q, later)) :
    (b.poll fs).value =
      match answer with
      | .ready step => (.ready step.item?, ⟨q, step.progressAfter later⟩)
      | .notReady => (.notReady, ⟨q, later⟩) := by
  simp only [poll, Traced.value_bind, polled]
  cases answer <;> rfl

/-- The same body with another header block kept. -/
def withBlock (block : Option Bytes) (b : BodyProducer) : BodyProducer :=
  { b with part := b.part.withBlock block }

theorem poll_withBlock (block : Option Bytes) (fs : FileSystem) (b : BodyProducer) :
    ((b.withBlock block).poll fs).value =
      ((b.poll fs).value.1, (b.poll fs).value.2.withBlock block) := by
  obtain ⟨answer, q, later, polled⟩ : ∃ answer q later,
      (b.part.poll fs b.progress).value = (answer, q, later) := ⟨_, _, _, rfl⟩
  have polled' := FilePart.poll_withBlock fs block b.part b.progress
  rw [polled] at polled'
  rw [poll_of_poll fs polled, poll_of_poll (b := b.withBlock block) fs polled']
  cases answer <;> rfl

/-- A request that finds no chunk is the last one that counts. -/
theorem progress_next_of_no_chunk (fs : FileSystem) {b : BodyProducer}
    (no : ∀ octets, (next fs b).value.1 ≠ some (.ok octets)) :
    (next fs b).value.2.progress = .done := by
  obtain ⟨step, q, later, pulled⟩ : ∃ step q later,
      (b.part.pull fs b.progress).value = (step, q, later) := ⟨_, _, _, rfl⟩
  have moved := next_of_pull fs pulled
  rw [moved] at no ⊢
  match step with
  | .error e => rfl
  | .ok none => exact FilePart.done_of_pull pulled
  | .ok (some octets) => exact absurd rfl (no octets)

theorem fused (world : World) (p : FilePart) {k : Nat}
    (no : ∀ octets, answer next world { part := p } k ≠ some (.ok octets)) :
    ∃ last, last.Finished ∧
      ∀ j, k < j → after next world { part := p } j = last ∧
        answer next world { part := p } j = none := by
  have ended := progress_next_of_no_chunk (world k) no
  refine ⟨_, finished_done (after next world { part := p } (k + 1)).part, ?_⟩
  intro j later
  obtain ⟨d, rfl⟩ := Nat.exists_eq_add_of_lt later
  have reached : after next world { part := p } (k + 1) =
      ⟨(after next world { part := p } (k + 1)).part, .done⟩ := by
    rw [← ended]
    rfl
  have fixed := fun fs => next_done fs (after next world { part := p } (k + 1)).part
  rw [Nat.add_right_comm]
  exact ⟨after_of_fixed fixed reached d, answer_of_fixed fixed reached d⟩

end BodyProducer

end Multipart
