import Multipart.Proofs.Message.Polling
import Multipart.Proofs.Part.Alone

/-!
# Where a producer can be

A producer keeps a place in the list of parts, the phase of the part there and, inside the body of a
file, how far that body has come. `Placed` says that these three go together. It holds in every
state that a producer visits, so a producer always finds the part that it looks for, and a part is
left behind only when there is nothing more of its body.
-/

namespace Multipart

/-- What can be under way in a body that is rendered from this source. -/
def BodyProgress.Fits (source : Source) : BodyProgress → Prop
  | .pending | .done => True
  | .reader => ∃ reader, source = .reader reader
  | .file path _ => source = .path path

namespace FilePart

/-- Nothing is left to be read: the body has been given already, or the next read is empty. -/
inductive Ends (fs : FileSystem) : FilePart → BodyProgress → Prop
  | given {p} : Ends fs p .done
  | read {p progress origin reader} : p.Reading progress origin reader →
      (reader.fill fs p.chunkSize.val).1 = .ok [] → Ends fs p progress
  | begun {p q progress origin reader} : p.heldBody.1 = none →
      (p.begin fs).value = (.ok progress, q) → q.Reading progress origin reader →
      (reader.fill fs q.chunkSize.val).1 = .ok [] → Ends fs p .pending

section Steps

variable {fs : FileSystem} {p q : FilePart} {progress later : BodyProgress} {step : BodyStep}

theorem fits_begin (began : (p.begin fs).value = (.ok progress, q)) : progress.Fits q.source := by
  cases source : p.source with
  | bytes | text =>
    simp only [begin, source, Traced.value_pure] at began
    cases began
    trivial
  | path path =>
    rw [begin_path fs source] at began
    split at began
    · cases began
      exact source
    · cases began
  | reader reader =>
    cases mode : reader.isTextMode with
    | true =>
      rw [begin_textMode fs source mode] at began
      cases began
    | false =>
      rw [begin_reader fs source mode] at began
      cases began
      exact ⟨_, rfl⟩
  | stream stream =>
    rw [begin_stream fs source] at began
    cases began

theorem fits_readStep {source : Source} (fits : progress.Fits source)
    (reply : Except EncodingError Bytes) : (readStep progress reply).value.2.Fits source := by
  rcases reply with e | - | octets
  · exact fits
  · trivial
  · exact fits

theorem fits_continueBody (fits : progress.Fits p.source)
    (went : (p.continueBody fs progress).value = (step, q, later)) : later.Fits q.source := by
  cases progress with
  | pending | done =>
    cases went
    trivial
  | reader =>
    obtain ⟨reader, source⟩ := fits
    rw [continueBody_reader fs source] at went
    cases went
    have still : BodyProgress.reader.Fits (.reader (reader.chunk fs none p.chunkSize).2) := ⟨_, rfl⟩
    exact fits_readStep still _
  | file path reader =>
    simp only [continueBody, Traced.value_bind, Traced.value_pure] at went
    cases went
    have still : (BodyProgress.file path (reader.chunk fs path p.chunkSize).2).Fits p.source := fits
    exact fits_readStep still _

theorem fits_pull (fits : progress.Fits p.source)
    (pulled : (p.pull fs progress).value = (step, q, later)) : later.Fits q.source := by
  by_cases fresh : progress = .pending
  · subst fresh
    cases held : p.heldBody.1 with
    | some octets =>
      rw [pull_held held] at pulled
      cases pulled
      trivial
    | none =>
      obtain ⟨begun, p₁, began⟩ : ∃ begun p₁, (p.begin fs).value = (begun, p₁) := ⟨_, _, rfl⟩
      rw [pull_pending held began] at pulled
      cases begun with
      | error e =>
        cases pulled
        trivial
      | ok progress => exact fits_continueBody (fits_begin began) pulled
  · rw [pull, if_neg fresh] at pulled
    exact fits_continueBody fits pulled

theorem fits_poll {answer : Poll BodyStep} (fits : progress.Fits p.source)
    (polled : (p.poll fs progress).value = (answer, q, later)) : later.Fits q.source := by
  cases streamed : p.source.isStream with
  | false =>
    rw [poll_eq_pull fs streamed, Prod.mk.injEq] at polled
    exact fits_pull fits (Prod.ext rfl polled.2)
  | true =>
    -- the body of a stream is neither read nor opened
    have unread : progress = .pending ∨ progress = .done := by
      cases source : p.source <;> cases progress <;>
        simp_all [Source.isStream, BodyProgress.Fits]
    rcases unread with rfl | rfl
    · cases source : p.source with
      | stream s =>
        rw [poll_stream fs source BodyProgress.noConfusion] at polled
        cases emission : s.poll.1 <;> rw [emission] at polled <;> cases polled <;> trivial
      | bytes | text | path | reader => simp [source, Source.isStream] at streamed
    · rw [poll_done] at polled
      cases polled
      trivial

/-- A body in progress is read from a reader, which is there. -/
theorem exists_reading (fits : progress.Fits p.source) (begun : progress ≠ .pending)
    (ongoing : progress ≠ .done) : ∃ origin reader, p.Reading progress origin reader := by
  cases progress with
  | pending => exact absurd rfl begun
  | done => exact absurd rfl ongoing
  | reader =>
    obtain ⟨reader, source⟩ := fits
    exact ⟨_, _, .reader source⟩
  | file path reader => exact ⟨_, _, .file⟩

theorem ne_done_of_begin (unheld : p.heldBody.1 = none)
    (began : (p.begin fs).value = (.ok progress, q)) : progress ≠ .done := by
  rintro rfl
  have memory := held?_of_none unheld
  cases source : p.source with
  | bytes | text => simp [source, Source.held?] at memory
  | path path =>
    rw [begin_path fs source] at began
    split at began <;> cases began
  | reader reader =>
    cases mode : reader.isTextMode with
    | true => cases (begin_textMode fs source mode).symm.trans began
    | false => cases (begin_reader fs source mode).symm.trans began
  | stream stream => cases (begin_stream fs source).symm.trans began

theorem fill_empty_of_pull {origin : Option Path} {reader : Reader}
    (reading : p.Reading progress origin reader)
    (ended : (p.pull fs progress).value = (.ok none, q, later)) :
    (reader.fill fs p.chunkSize.val).1 = .ok [] := by
  rcases pull_reading_cases fs reading with
    ⟨empty, -⟩ | ⟨e, -, _, _, failed⟩ | ⟨octets, _, -, -, _, _, given, -⟩
  · exact congrArg Prod.fst (Reader.chunk_eq_ok (Prod.ext empty rfl)).2
  · cases failed.symm.trans ended
  · cases given.symm.trans ended

theorem ends_of_pull (fits : progress.Fits p.source)
    (ended : (p.pull fs progress).value = (.ok none, q, later)) : p.Ends fs progress := by
  by_cases finished : progress = .done
  · subst finished
    exact .given
  by_cases fresh : progress = .pending
  · subst fresh
    cases held : p.heldBody.1 with
    | some octets => cases (pull_held held).symm.trans ended
    | none =>
      obtain ⟨begun, p₁, began⟩ : ∃ begun p₁, (p.begin fs).value = (begun, p₁) := ⟨_, _, rfl⟩
      rw [pull_pending held began] at ended
      cases begun with
      | error e => cases ended
      | ok progress =>
        obtain ⟨origin, reader, reading⟩ := exists_reading (fits_begin began)
          (ne_pending_of_begin began) (ne_done_of_begin held began)
        replace ended : (p₁.continueBody fs progress).value = (.ok none, q, later) := ended
        rw [← pull_of_reading reading] at ended
        exact .begun held began reading (fill_empty_of_pull reading ended)
  · obtain ⟨origin, reader, reading⟩ := exists_reading fits fresh finished
    exact .read reading (fill_empty_of_pull reading ended)

theorem ends_of_poll (fits : progress.Fits p.source)
    (ended : (p.poll fs progress).value = (.ready (.ok none), q, later)) :
    p.Ends fs progress ∨ ∃ s, p.source = .stream s ∧ s.poll.1 = .ended := by
  by_cases finished : progress = .done
  · subst finished
    exact .inl .given
  cases source : p.source with
  | stream s =>
    rw [poll_stream fs source finished] at ended
    cases emission : s.poll.1 with
    | ended => exact .inr ⟨s, rfl, emission⟩
    | chunk | text | failure | notReady => rw [emission] at ended; cases ended
  | bytes | text | path | reader =>
    rw [poll_eq_pull fs (by rw [source]; rfl)] at ended
    simp only [Prod.mk.injEq, Poll.ready.injEq] at ended
    exact .inl (ends_of_pull fits (Prod.ext ended.1 rfl))

end Steps

end FilePart

/-- What a phase needs of the part that it is about. -/
def Phase.Fits (here : Option Part) : Phase → Prop
  | .delimiter | .done => True
  | .block | .trailer => ∃ part, here = some part
  | .scalar => ∃ part, here = some (.scalar part)
  | .body progress => ∃ part, here = some (.file part) ∧ progress.Fits part.source

theorem Phase.fits_contentPhase (part : Part) :
    (Progress.contentPhase part).Fits (some part.block.2) := by
  cases part with
  | scalar part => exact ⟨_, rfl⟩
  | file part => exact ⟨_, rfl, trivial⟩

namespace MessageProducer

open Requests

/-- The part that comes next or is under way. -/
def current? (p : MessageProducer) : Option Part := p.message.parts[p.progress.index]?

/-- The place of a producer of `m` goes together with the parts, which are of the kinds that they
were at the beginning. -/
structure Placed (m : Message) (p : MessageProducer) : Prop where
  kinds : p.message.parts.map Part.isScalar = m.parts.map Part.isScalar
  index_le : p.progress.index ≤ p.message.parts.length
  here : p.progress.phase.Fits p.current?

namespace Placed

variable {m m' : Message} {p q : MessageProducer} {i : Nat}

theorem start (m : Message) : Placed m { message := m } := ⟨rfl, Nat.zero_le _, trivial⟩

theorem setPart {phase next : Phase} {old new : Part} (placed : Placed m ⟨m', i, phase⟩)
    (h : m'.parts[i]? = some old) (same : new.isScalar = old.isScalar)
    (fits : next.Fits (some new)) : Placed m ⟨m'.setPart i new, i, next⟩ := by
  obtain ⟨inside, rfl⟩ := List.getElem?_eq_some_iff.mp h
  refine ⟨?_, ?_, ?_⟩
  · have within : i < (m'.parts.map Part.isScalar).length := by simpa using inside
    have kind : new.isScalar = (m'.parts.map Part.isScalar)[i] := by
      rw [same, List.getElem_map]
    rw [Message.parts_setPart, List.map_set, kind, List.set_getElem_self]
    exact placed.kinds
  · rw [Message.parts_setPart, List.length_set]
    exact placed.index_le
  · have there := Message.getElem?_setPart new h
    simpa only [current?, there] using fits

theorem exists_part (placed : Placed m p) (begun : p.progress.phase ≠ .delimiter)
    (ongoing : p.progress.phase ≠ .done) : ∃ part, p.current? = some part := by
  obtain ⟨m', i, phase⟩ := p
  cases phase with
  | delimiter => exact absurd rfl begun
  | done => exact absurd rfl ongoing
  | block | trailer => exact placed.here
  | scalar =>
    obtain ⟨part, h⟩ := placed.here
    exact ⟨_, h⟩
  | body progress =>
    obtain ⟨part, h, -⟩ := placed.here
    exact ⟨_, h⟩

theorem of_trailer (placed : Placed m ⟨m', i, .trailer⟩) : Placed m ⟨m', i + 1, .delimiter⟩ := by
  obtain ⟨part, h⟩ := placed.here
  exact ⟨placed.kinds, (List.getElem?_eq_some_iff.mp h).1, trivial⟩

theorem portion (placed : Placed m p) : Placed m p.portion.2 := by
  obtain ⟨m', i, phase⟩ := p
  cases phase with
  | delimiter =>
    by_cases inside : i < m'.parts.length
    · simp only [MessageProducer.portion, Progress.next, inside, if_true]
      exact ⟨placed.kinds, placed.index_le, _, List.getElem?_eq_getElem inside⟩
    · simp only [MessageProducer.portion, Progress.next, inside, if_false]
      exact ⟨placed.kinds, placed.index_le, trivial⟩
  | block =>
    obtain ⟨part, h⟩ : ∃ part, m'.parts[i]? = some part := placed.here
    have taken : (MessageProducer.portion ⟨m', i, .block⟩).2 =
        ⟨m'.setPart i part.block.2, i, Progress.contentPhase part⟩ := by
      simp only [MessageProducer.portion, Progress.next, Progress.blockPortion, h, Message.setPart]
    rw [taken]
    exact placed.setPart h (by cases part <;> rfl) (Phase.fits_contentPhase part)
  | scalar =>
    obtain ⟨part, h⟩ : ∃ part, m'.parts[i]? = some (.scalar part) := placed.here
    have taken : (MessageProducer.portion ⟨m', i, .scalar⟩).2 =
        ⟨m'.setPart i (.scalar part.body.2), i, .trailer⟩ := by
      simp only [MessageProducer.portion, Progress.next, Progress.scalarPortion, h, Message.setPart]
    rw [taken]
    exact placed.setPart h rfl ⟨_, rfl⟩
  | trailer => exact placed.of_trailer
  | body | done => exact placed

theorem resume {old new : FilePart} {progress later : BodyProgress}
    (placed : Placed m ⟨m', i, .body progress⟩) (h : m'.parts[i]? = some (.file old))
    (fits : later.Fits new.source) (step : BodyStep) :
    Placed m (MessageProducer.resume ⟨m'.setPart i (.file new), i, .body progress⟩ step later) := by
  match step with
  | .ok (some octets) => exact placed.setPart h rfl ⟨new, rfl, fits⟩
  | .ok none => exact placed.setPart h rfl ⟨_, rfl⟩
  | .error e => exact placed.setPart h rfl trivial

end Placed

/-! ## Rounds -/

section Rounds

variable (fs : FileSystem) {m m' : Message} {p : MessageProducer} {i : Nat}

section Bodies

variable {part : FilePart} {progress : BodyProgress} (h : m'.parts[i]? = some (.file part))

include h

theorem pullBody_eq :
    pullBody fs ⟨m', i, .body progress⟩ = (do
      let (step, after, later) ← part.pull fs progress
      return (step, ⟨m'.setPart i (.file after), i, .body progress⟩, later)) := by
  simp only [pullBody, Progress.body?, h]
  rfl

theorem pollBody_eq :
    pollBody fs ⟨m', i, .body progress⟩ = (do
      let (answer, after, later) ← part.poll fs progress
      return (answer, ⟨m'.setPart i (.file after), i, .body progress⟩, later)) := by
  simp only [pollBody, Progress.body?, h]
  rfl

end Bodies

theorem placed_nextWithin (placed : Placed m p) (rounds : Nat) :
    Placed m (nextWithin fs rounds p).value.2 := by
  induction rounds generalizing p with
  | zero => exact placed
  | succ rounds ih =>
    have taken := placed.portion
    unfold nextWithin
    split
    · next octets q h => rw [h] at taken; exact taken
    · next q h => rw [h] at taken; exact taken
    · next q h =>
      obtain ⟨rfl, progress, phase⟩ := eq_of_portion_body h
      obtain ⟨m', i, _⟩ := q
      cases phase
      obtain ⟨part, there, fits⟩ := placed.here
      have resumed := placed.resume there
        (FilePart.fits_pull fits (Eq.refl (part.pull fs progress).value))
        (part.pull fs progress).value.1
      simp only [pullBody_eq fs there, Traced.value_bind, Traced.value_pure]
      split
      · exact resumed
      · exact ih resumed

theorem placed_pollWithin (placed : Placed m p) (rounds : Nat) :
    Placed m (pollWithin fs rounds p).value.2 := by
  induction rounds generalizing p with
  | zero => exact placed
  | succ rounds ih =>
    have taken := placed.portion
    unfold pollWithin
    split
    · next octets q h => rw [h] at taken; exact taken
    · next q h => rw [h] at taken; exact taken
    · next q h =>
      obtain ⟨rfl, progress, phase⟩ := eq_of_portion_body h
      obtain ⟨m', i, _⟩ := q
      cases phase
      obtain ⟨part, there, fits⟩ := placed.here
      obtain ⟨answer, after, later, polled⟩ : ∃ answer after later,
          (part.poll fs progress).value = (answer, after, later) := ⟨_, _, _, rfl⟩
      simp only [pollBody_eq fs there, Traced.value_bind, polled, Traced.value_pure]
      cases answer with
      | notReady =>
        have still := FilePart.fits_poll fits polled
        obtain rfl := FilePart.progress_poll_of_notReady polled
        exact placed.setPart there rfl ⟨after, rfl, still⟩
      | ready step =>
        have resumed := placed.resume there (FilePart.fits_poll fits polled) step
        dsimp only
        split
        · exact resumed
        · exact ih resumed

/-- A body that has ended leaves the line break after it, which the next round gives. -/
theorem phase_resume_of_no_item {step : BodyStep} (ended : step.item? = none)
    (progress : BodyProgress) : (p.resume step progress).progress.phase = .trailer := by
  match step, ended with
  | .ok none, _ => rfl

theorem nextWithin_trailer (trailer : p.progress.phase = .trailer) (rounds : Nat) :
    nextWithin fs (rounds + 1) p = nextWithin fs 1 p ∧ (nextWithin fs 1 p).value.1.isSome := by
  obtain ⟨m', i, _⟩ := p
  cases trailer
  exact ⟨rfl, rfl⟩

theorem pollWithin_trailer (trailer : p.progress.phase = .trailer) (rounds : Nat) :
    pollWithin fs (rounds + 1) p = pollWithin fs 1 p ∧ (pollWithin fs 1 p).value.1.isSome := by
  obtain ⟨m', i, _⟩ := p
  cases trailer
  exact ⟨rfl, rfl⟩

/-- Nothing needs a third round. -/
theorem nextWithin_add_two (rounds : Nat) :
    nextWithin fs (rounds + 2) p = nextWithin fs 2 p ∧ (nextWithin fs 2 p).value.1.isSome := by
  unfold nextWithin
  split
  · exact ⟨rfl, rfl⟩
  · exact ⟨rfl, rfl⟩
  · next q h =>
    constructor
    · congr 1
      funext pulled
      obtain ⟨step, r, later⟩ := pulled
      cases ended : step.item? with
      | some item => simp only [ended]
      | none =>
        simp only [ended]
        exact (nextWithin_trailer fs (phase_resume_of_no_item ended later) rounds).1
    · simp only [Traced.value_bind]
      generalize (pullBody fs q).value = pulled
      obtain ⟨step, r, later⟩ := pulled
      cases ended : step.item? with
      | some item => rfl
      | none => exact (nextWithin_trailer fs (phase_resume_of_no_item ended later) 0).2

theorem pollWithin_add_two (rounds : Nat) :
    pollWithin fs (rounds + 2) p = pollWithin fs 2 p ∧ (pollWithin fs 2 p).value.1.isSome := by
  unfold pollWithin
  split
  · exact ⟨rfl, rfl⟩
  · exact ⟨rfl, rfl⟩
  · next q h =>
    constructor
    · congr 1
      funext polled
      obtain ⟨answer, r, later⟩ := polled
      cases answer with
      | notReady => rfl
      | ready step =>
        cases ended : step.item? with
        | some item => simp only [ended]
        | none =>
          simp only [ended]
          exact (pollWithin_trailer fs (phase_resume_of_no_item ended later) rounds).1
    · simp only [Traced.value_bind]
      generalize (pollBody fs q).value = polled
      obtain ⟨answer, r, later⟩ := polled
      cases answer with
      | notReady => rfl
      | ready step =>
        cases ended : step.item? with
        | some item => simp only [ended]; rfl
        | none =>
          simp only [ended]
          exact (pollWithin_trailer fs (phase_resume_of_no_item ended later) 0).2

end Rounds

/-! ## Requests -/

/-- The states of a producer of `m` that is asked, or awaited, from its beginning on: after some
requests, and in the next one after some of its rounds. Files may change between requests. -/
inductive Visited (m : Message) : MessageProducer → Prop
  | asked (world : World) (n rounds : Nat) :
      Visited m (nextWithin (world n) rounds (after next world { message := m } n)).value.2
  | awaited (world : World) (n rounds : Nat) :
      Visited m (pollWithin (world n) rounds (after poll world { message := m } n)).value.2

theorem Placed.of_visited {m : Message} {p : MessageProducer} (visited : Visited m p) :
    Placed m p := by
  cases visited with
  | asked world n rounds =>
    have before := after_invariant (P := Placed m) next world _ (.start m)
      (fun fs p placed => placed_nextWithin fs placed 2) n
    exact placed_nextWithin _ before rounds
  | awaited world n rounds =>
    have before := after_invariant (P := Placed m) poll world _ (.start m)
      (fun fs p placed => placed_pollWithin fs placed 2) n
    exact placed_pollWithin _ before rounds

/-- A request finds the part that it is about, and no content is passed over: a header block leads
to the content of its part, a scalar is given, and a body is left behind when nothing more is to be
read or awaited. -/
structure Attends (fs : FileSystem) (p : MessageProducer) : Prop where
  block : p.progress.phase = .block → ∃ part, p.current? = some part ∧
    (p.next fs).value.1 = some (.ok part.block.1) ∧
    (p.next fs).value.2.progress = ⟨p.progress.index, Progress.contentPhase part⟩
  scalar : p.progress.phase = .scalar → ∃ part, p.current? = some (.scalar part) ∧
    (p.next fs).value.1 = some (.ok part.body.1)
  awaited : (∀ progress, p.progress.phase ≠ .body progress) →
    (p.poll fs).value = (.ready (p.next fs).value.1, (p.next fs).value.2)
  body : ∀ progress, p.progress.phase = .body progress → ∃ part, p.current? = some (.file part) ∧
    progress.Fits part.source ∧
    p.pullBody fs = (do
      let (step, after, later) ← part.pull fs progress
      return (step, p.setFile p.progress.index after, later)) ∧
    p.pollBody fs = (do
      let (answer, after, later) ← part.poll fs progress
      return (answer, p.setFile p.progress.index after, later)) ∧
    ((p.next fs).value.2.progress.index ≠ p.progress.index → part.Ends fs progress) ∧
    ((p.poll fs).value.2.progress.index ≠ p.progress.index →
      part.Ends fs progress ∨ ∃ s, part.source = .stream s ∧ s.poll.1 = .ended)

section Bodies

variable {fs : FileSystem} {m : Message} {i : Nat} {part : FilePart} {progress : BodyProgress}
  (h : m.parts[i]? = some (.file part)) (fits : progress.Fits part.source)

include h fits

theorem ends_of_next (left : (next fs ⟨m, i, .body progress⟩).value.2.progress.index ≠ i) :
    part.Ends fs progress := by
  obtain ⟨step, after, later, pulled⟩ : ∃ step after later,
      (part.pull fs progress).value = (step, after, later) := ⟨_, _, _, rfl⟩
  match step with
  | .ok (some octets) => rw [next_body_chunk fs h pulled] at left; exact absurd rfl left
  | .error e => rw [next_body_error fs h pulled] at left; exact absurd rfl left
  | .ok none => exact FilePart.ends_of_pull fits pulled

theorem ends_of_poll (left : (poll fs ⟨m, i, .body progress⟩).value.2.progress.index ≠ i) :
    part.Ends fs progress ∨ ∃ s, part.source = .stream s ∧ s.poll.1 = .ended := by
  obtain ⟨answer, after, later, polled⟩ : ∃ answer after later,
      (part.poll fs progress).value = (answer, after, later) := ⟨_, _, _, rfl⟩
  match answer with
  | .notReady => rw [poll_body_waits fs h polled] at left; exact absurd rfl left
  | .ready (.ok (some octets)) => rw [poll_body_chunk fs h polled] at left; exact absurd rfl left
  | .ready (.error e) => rw [poll_body_error fs h polled] at left; exact absurd rfl left
  | .ready (.ok none) => exact FilePart.ends_of_poll fits polled

end Bodies

theorem attends_of_placed (fs : FileSystem) {m : Message} {p : MessageProducer}
    (placed : Placed m p) : Attends fs p := by
  obtain ⟨m', i, phase⟩ := p
  refine ⟨?_, ?_, ?_, ?_⟩
  · rintro rfl
    obtain ⟨part, h⟩ := placed.here
    refine ⟨part, h, ?_⟩
    rw [next_block fs h]
    exact ⟨rfl, rfl⟩
  · rintro rfl
    obtain ⟨part, h⟩ := placed.here
    refine ⟨part, h, ?_⟩
    rw [next_scalar fs h]
  · intro outside
    apply poll_of_not_awaited
    cases phase with
    | body progress => exact absurd rfl (outside progress)
    | delimiter | block | scalar | trailer | done => rfl
  · rintro progress rfl
    obtain ⟨part, h, fits⟩ := placed.here
    exact ⟨part, h, fits, pullBody_eq fs h, pollBody_eq fs h, ends_of_next h fits,
      ends_of_poll h fits⟩

/-- In every state that a producer visits its place goes together with the parts. What it asks for
is there: a part, a scalar, a file, the body that it has stopped at. So no content is passed over,
and a request takes two rounds at most. -/
theorem placed_of_visited {m : Message} {p : MessageProducer} (visited : Visited m p)
    (fs : FileSystem) :
    Placed m p ∧ Attends fs p ∧
    (p.progress.phase ≠ .delimiter → p.progress.phase ≠ .done →
      p.progress.index < p.message.parts.length) ∧
    (∀ q, p.portion = (.body, q) →
      q = p ∧ ∃ progress, p.progress.body? = some (p.progress.index, progress)) ∧
    ∀ rounds,
      (nextWithin fs (rounds + 2) p = nextWithin fs 2 p ∧
        (nextWithin fs 2 p).value.1.isSome) ∧
      (pollWithin fs (rounds + 2) p = pollWithin fs 2 p ∧
        (pollWithin fs 2 p).value.1.isSome) := by
  have placed := Placed.of_visited visited
  refine ⟨placed, attends_of_placed fs placed, ?_, ?_, ?_⟩
  · intro begun ongoing
    obtain ⟨part, h⟩ := placed.exists_part begun ongoing
    exact (List.getElem?_eq_some_iff.mp h).1
  · intro q stopped
    obtain ⟨rfl, progress, phase⟩ := eq_of_portion_body stopped
    exact ⟨rfl, progress, by rw [Progress.body?, phase]⟩
  · intro rounds
    exact ⟨nextWithin_add_two fs rounds, pollWithin_add_two fs rounds⟩

/-- A cursor of which the last octets were read, before the request that finds its end and between
the two rounds of that request. -/
theorem placed_of_visited_last_read :
    let m : Message := ⟨⟨[0x42], by decide⟩,
      [.scalar { name := "a", value := .null },
        .file { name := "f", filename := none, headers := .empty,
                source := .reader (.cursor [1, 2] 1) }]⟩
    let world : World := .still .initial
    let p (rounds : Nat) : MessageProducer :=
      (nextWithin (world 7) rounds (after next world { message := m } 7)).value.2
    ((p 0).progress = ⟨1, .body .reader⟩ ∧ Placed m (p 0) ∧
      ∃ part, (p 0).current? = some (.file part) ∧ part.Ends .initial .reader) ∧
    (p 1).progress = ⟨1, .trailer⟩ ∧ Placed m (p 1) ∧ 1 < (p 1).message.parts.length := by
  intro m world p
  have atRead : (p 0).progress = ⟨1, .body .reader⟩ := by decide
  have atTrailer : (p 1).progress = ⟨1, .trailer⟩ := by decide
  have moved : (next .initial (p 0)).value.2.progress = ⟨2, .delimiter⟩ := by decide
  have visited (rounds : Nat) : Visited m (p rounds) := .asked world 7 rounds
  obtain ⟨placed, attends, -⟩ := placed_of_visited (visited 0) .initial
  obtain ⟨placedBetween, -, inside, -⟩ := placed_of_visited (visited 1) .initial
  obtain ⟨part, here, -, -, -, ends, -⟩ := attends.body .reader (congrArg Progress.phase atRead)
  refine ⟨⟨atRead, placed, part, here, ends ?_⟩, atTrailer, placedBetween, ?_⟩
  · rw [moved, atRead]
    decide
  · rw [atTrailer] at inside
    exact inside nofun nofun

end MessageProducer

end Multipart
