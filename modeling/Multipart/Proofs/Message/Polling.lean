import Multipart.Proofs.Message.Steps
import Multipart.Proofs.Part.Content

/-!
# One request to a waiting producer

A waiting producer asks for the next emission of a stream while the body of one is under way. In
every other place it does what a blocking producer does.
-/

namespace Multipart

/-- Whether a stream may be asked again after it said this. -/
def Emission.goesOn : Emission → Bool
  | .chunk _ | .notReady => true
  | .text _ | .failure _ | .ended => false

def Source.stream? : Source → Option Stream
  | .stream s => some s
  | _ => none

/-- The stream that a part is rendered from. -/
def Part.stream? : Part → Option Stream
  | .scalar _ => none
  | .file p => p.source.stream?

namespace Message

/-- Which parts are rendered from a stream, and from which. -/
def streams (m : Message) : List (Option Stream) := m.parts.map Part.stream?

def stream? (m : Message) (i : Nat) : Option Stream := m.streams[i]?.join

variable {m : Message} {i j : Nat}

theorem streams_setPart (part : Part) :
    (m.setPart i part).streams = m.streams.set i part.stream? := by
  simp [streams, setPart, List.map_set]

theorem streams_setPart_of_same {old new : Part} (h : m.parts[i]? = some old)
    (same : new.stream? = old.stream?) : (m.setPart i new).streams = m.streams := by
  obtain ⟨inside, rfl⟩ := List.getElem?_eq_some_iff.mp h
  have inside' : i < m.streams.length := by simpa [streams] using inside
  have there : m.streams[i] = new.stream? := by simp [streams, same]
  rw [streams_setPart, ← there, List.set_getElem_self]

theorem getElem?_streams_of_file {p : FilePart} {s : Stream} (h : m.parts[i]? = some (.file p))
    (source : p.source = .stream s) : m.streams[i]? = some (some s) := by
  simp [streams, h, source, Part.stream?, Source.stream?]

theorem stream?_of_file {p : FilePart} {s : Stream} (h : m.parts[i]? = some (.file p))
    (source : p.source = .stream s) : m.stream? i = some s := by
  rw [stream?, getElem?_streams_of_file h source, Option.join_some]

theorem exists_of_stream? {s : Stream} (h : m.stream? i = some s) :
    ∃ p, m.parts[i]? = some (.file p) ∧ p.source = .stream s := by
  simp only [stream?, streams, List.getElem?_map, Option.join_eq_some_iff, Option.map_eq_some_iff]
    at h
  obtain ⟨part, found, held⟩ := h
  cases part with
  | scalar p => cases held
  | file p =>
    refine ⟨p, found, ?_⟩
    cases source : p.source <;> simp_all [Part.stream?, Source.stream?]

end Message

namespace MessageProducer

/-- The part whose stream the next poll asks, and that stream. -/
def awaited? (p : MessageProducer) : Option (Nat × Stream) :=
  match p.progress.phase with
  | .body progress =>
    if progress = .done then none
    else (p.message.stream? p.progress.index).map (p.progress.index, ·)
  | _ => none

theorem exists_of_awaited? {p : MessageProducer} {i : Nat} {s : Stream}
    (h : p.awaited? = some (i, s)) :
    ∃ m progress, p = ⟨m, i, .body progress⟩ ∧ progress ≠ .done ∧ m.stream? i = some s := by
  obtain ⟨m, j, phase⟩ := p
  cases phase with
  | body progress =>
    by_cases finished : progress = .done
    · simp [awaited?, finished] at h
    · simp only [awaited?, finished, if_false, Option.map_eq_some_iff, Prod.mk.injEq] at h
      obtain ⟨_, found, rfl, rfl⟩ := h
      exact ⟨m, progress, rfl, finished, found⟩
  | delimiter | block | scalar | trailer | done => cases h

theorem awaited?_body {m : Message} {i : Nat} {progress : BodyProgress} {s : Stream}
    (h : m.stream? i = some s) (ongoing : progress ≠ .done) :
    awaited? ⟨m, i, .body progress⟩ = some (i, s) := by
  simp [awaited?, ongoing, h]

/-- The place to which an emission leads from the body of a part. -/
def emissionPlace (i : Nat) (progress : BodyProgress) : Emission → Progress
  | .chunk _ | .notReady => ⟨i, .body progress⟩
  | .text _ | .failure _ => ⟨i, .done⟩
  | .ended => ⟨i + 1, .delimiter⟩

/-- What a poll says to an emission. The end of a body gives the line break after it. -/
def emissionAnswer : Emission → Poll (Option Item)
  | .chunk octets => .ready (some (.ok octets))
  | .text _ => .ready (some (.error (.invalid .textModeSource)))
  | .failure reason => .ready (some (.error (.io none (.other reason))))
  | .notReady => .notReady
  | .ended => .ready (some (.ok HeaderBlock.crlf))

/-- All that one poll can do: it asks the stream under way for one emission, or it does what the
blocking producer does. -/
inductive Tells (fs : FileSystem) :
    MessageProducer → Poll (Option Item) → MessageProducer → Prop
  | gives {p item q} : p.awaited? = none → Gives fs p item q → Tells fs p (.ready item) q
  | asks {m i progress part s} : m.parts[i]? = some (.file part) → part.source = .stream s →
      progress ≠ .done →
      Tells fs ⟨m, i, .body progress⟩ (emissionAnswer s.poll.1)
        ⟨m.setPart i (.file { part with source := .stream s.poll.2 }),
          emissionPlace i progress s.poll.1⟩

variable (fs : FileSystem) {m : Message} {i : Nat}

section Bodies

variable {part after : FilePart} {progress later : BodyProgress}
  (h : m.parts[i]? = some (.file part))

include h

theorem poll_body_chunk {octets : Bytes}
    (step : (part.poll fs progress).value = (.ready (.ok (some octets)), after, later)) :
    (poll fs ⟨m, i, .body progress⟩).value =
      (.ready (some (.ok octets)), ⟨m.setPart i (.file after), i, .body later⟩) := by
  simp [poll, pollWithin, portion, Progress.next, pollBody, Progress.body?, h, step, resume,
    Progress.resume, BodyStep.item?, setFile, Message.setPart]

theorem poll_body_error {e : EncodingError}
    (step : (part.poll fs progress).value = (.ready (.error e), after, later)) :
    (poll fs ⟨m, i, .body progress⟩).value =
      (.ready (some (.error e)), ⟨m.setPart i (.file after), i, .done⟩) := by
  simp [poll, pollWithin, portion, Progress.next, pollBody, Progress.body?, h, step, resume,
    Progress.resume, BodyStep.item?, setFile, Message.setPart]

theorem poll_body_end (step : (part.poll fs progress).value = (.ready (.ok none), after, later)) :
    (poll fs ⟨m, i, .body progress⟩).value =
      (.ready (some (.ok HeaderBlock.crlf)), ⟨m.setPart i (.file after), i + 1, .delimiter⟩) := by
  simp [poll, pollWithin, portion, Progress.next, Progress.trailerPortion, pollBody,
    Progress.body?, h, step, resume, Progress.resume, BodyStep.item?, setFile, Message.setPart]

theorem poll_body_waits (step : (part.poll fs progress).value = (.notReady, after, later)) :
    (poll fs ⟨m, i, .body progress⟩).value =
      (.notReady, ⟨m.setPart i (.file after), i, .body progress⟩) := by
  simp [poll, pollWithin, portion, Progress.next, pollBody, Progress.body?, h, step, setFile,
    Message.setPart]

end Bodies

theorem poll_stream {part : FilePart} {progress : BodyProgress} {stream : Stream}
    (h : m.parts[i]? = some (.file part)) (source : part.source = .stream stream)
    (ongoing : progress ≠ .done) :
    (poll fs ⟨m, i, .body progress⟩).value =
      (emissionAnswer stream.poll.1,
        ⟨m.setPart i (.file { part with source := .stream stream.poll.2 }),
          emissionPlace i progress stream.poll.1⟩) := by
  have polled := FilePart.poll_stream fs source ongoing
  cases emission : stream.poll.1 with
  | chunk octets => exact poll_body_chunk fs h (by rw [polled, emission]; rfl)
  | text content => exact poll_body_error fs h (by rw [polled, emission]; rfl)
  | failure reason => exact poll_body_error fs h (by rw [polled, emission]; rfl)
  | notReady => exact poll_body_waits fs h (by rw [polled, emission]; rfl)
  | ended => exact poll_body_end fs h (by rw [polled, emission]; rfl)

theorem pollBody_of_not_awaited {p : MessageProducer} (h : p.awaited? = none) :
    (p.pollBody fs).value = (.ready (p.pullBody fs).value.1, (p.pullBody fs).value.2) := by
  obtain ⟨m, i, phase⟩ := p
  cases phase with
  | delimiter | block | scalar | trailer | done => rfl
  | body progress =>
    unfold pollBody pullBody
    simp only [Progress.body?]
    split
    · next part found =>
      have pulled : (part.poll fs progress).value =
          (.ready (part.pull fs progress).value.1, (part.pull fs progress).value.2) := by
        by_cases finished : progress = .done
        · rw [finished, FilePart.poll_done, FilePart.pull_done]
        · apply FilePart.poll_eq_pull
          cases source : part.source with
          | stream stream =>
            have asked := awaited?_body (Message.stream?_of_file found source) finished
            cases asked.symm.trans h
          | bytes | text | path | reader => rfl
      simp only [Traced.value_bind, pulled, Traced.value_pure]
    · rfl

theorem eq_of_portion_body {p q : MessageProducer} (h : p.portion = (.body, q)) :
    q = p ∧ ∃ progress, p.progress.phase = .body progress := by
  obtain ⟨m, i, phase⟩ := p
  cases phase with
  | body progress => cases h; exact ⟨rfl, progress, rfl⟩
  | delimiter | block | scalar | trailer | done =>
    simp only [portion, Progress.next, Progress.blockPortion, Progress.scalarPortion,
      Progress.trailerPortion] at h
    grind

/-- Where no stream is asked, a poll does what the blocking producer does. -/
theorem poll_of_not_awaited {p : MessageProducer} (h : p.awaited? = none) :
    (poll fs p).value = (.ready (next fs p).value.1, (next fs p).value.2) := by
  have polled := pollBody_of_not_awaited fs h
  simp only [poll, next, Traced.value_bind, Traced.value_pure]
  unfold pollWithin nextWithin
  split
  · rfl
  · rfl
  · next q taken =>
    obtain ⟨rfl, progress, phase⟩ := eq_of_portion_body taken
    simp only [Traced.value_bind, polled]
    generalize (q.pullBody fs).value = pulled
    obtain ⟨step, r, later⟩ := pulled
    cases step with
    | error e => rfl
    | ok chunk =>
      cases chunk with
      | some octets => rfl
      | none => rfl

theorem poll_of_tells {p q : MessageProducer} {answer : Poll (Option Item)}
    (tells : Tells fs p answer q) : (poll fs p).value = (answer, q) := by
  cases tells with
  | gives unasked gives => rw [poll_of_not_awaited fs unasked, next_of_gives fs gives]
  | asks h source ongoing => exact poll_stream fs h source ongoing

theorem exists_tells (p : MessageProducer) : ∃ answer q, Tells fs p answer q := by
  cases asked : p.awaited? with
  | none =>
    obtain ⟨item, q, gives⟩ := exists_gives fs p
    exact ⟨_, _, .gives asked gives⟩
  | some asking =>
    obtain ⟨m, progress, rfl, ongoing, found⟩ := exists_of_awaited? asked
    obtain ⟨part, h, source⟩ := Message.exists_of_stream? found
    exact ⟨_, _, .asks h source ongoing⟩

theorem tells_poll (p : MessageProducer) :
    Tells fs p (poll fs p).value.1 (poll fs p).value.2 := by
  obtain ⟨answer, q, tells⟩ := exists_tells fs p
  rw [poll_of_tells fs tells]
  exact tells

/-! ## Which stream is asked -/

section Asking

variable {fs : FileSystem} {p q : MessageProducer} {item : Option Item}
  {answer : Poll (Option Item)}

theorem stream?_pull {part after : FilePart} {progress later : BodyProgress} {step : BodyStep}
    (pulled : (part.pull fs progress).value = (step, after, later)) :
    after.source.stream? = part.source.stream? := by
  cases source : part.source with
  | stream s =>
    have same := FilePart.source_pull_of_stream fs source progress
    rw [pulled] at same
    rw [same]
  | bytes | text | path | reader =>
    have settled := (FilePart.Advanced.of_pull pulled).source.isStream_eq
    rw [source] at settled
    cases left : after.source <;> simp_all [Source.isStream, Source.stream?]

theorem streams_of_gives (gives : Gives fs p item q) : q.message.streams = p.message.streams := by
  cases gives with
  | @block m i part h =>
    cases part with
    | scalar part => exact Message.streams_setPart_of_same h rfl
    | file part => exact Message.streams_setPart_of_same h rfl
  | scalar h => exact Message.streams_setPart_of_same h rfl
  | chunk h step | failure h step | bodyEnd h step =>
    exact Message.streams_setPart_of_same h (stream?_pull step)
  | delimiter | closing | trailer | done | noPart | noScalar | noFile => rfl

theorem streams_of_asked (tells : Tells fs p answer q) {i : Nat} {s : Stream}
    (asked : p.awaited? = some (i, s)) :
    p.message.streams[i]? = some (some s) ∧
      q.message.streams = p.message.streams.set i (some s.poll.2) := by
  cases tells with
  | gives unasked gives => cases unasked.symm.trans asked
  | asks h source ongoing =>
    rw [awaited?_body (Message.stream?_of_file h source) ongoing] at asked
    cases asked
    exact ⟨Message.getElem?_streams_of_file h source, Message.streams_setPart _⟩

theorem streams_of_unasked (tells : Tells fs p answer q) (unasked : p.awaited? = none) :
    q.message.streams = p.message.streams := by
  cases tells with
  | gives _ gives => exact streams_of_gives gives
  | asks h source ongoing =>
    cases (awaited?_body (Message.stream?_of_file h source) ongoing).symm.trans unasked

/-- A poll finds nothing ready just if the stream that it asks says so. -/
theorem answer_eq_notReady_iff (tells : Tells fs p answer q) :
    answer = .notReady ↔ ∃ i s, p.awaited? = some (i, s) ∧ s.poll.1 = .notReady := by
  cases tells with
  | gives unasked _ => simp [unasked]
  | @asks m i progress part s h source ongoing =>
    rw [awaited?_body (Message.stream?_of_file h source) ongoing]
    constructor
    · intro waiting
      refine ⟨i, s, rfl, ?_⟩
      cases emission : s.poll.1 <;> simp_all [emissionAnswer]
    · rintro ⟨_, _, same, waiting⟩
      cases same
      rw [waiting]
      rfl

/-- Part `i` has been left behind, or all of the message has. -/
def Passed (i : Nat) (p : MessageProducer) : Prop :=
  i < p.progress.index ∨ p.progress.phase = .done

theorem Passed.not_awaited {i : Nat} (passed : p.Passed i) (s : Stream) :
    p.awaited? ≠ some (i, s) := by
  intro asked
  obtain ⟨m, progress, rfl, -, -⟩ := exists_of_awaited? asked
  rcases passed with before | ended
  · exact Nat.lt_irrefl i before
  · cases ended

theorem Passed.of_gives {i : Nat} (passed : p.Passed i) (gives : Gives fs p item q) :
    q.Passed i := by
  rcases passed with before | ended
  · left
    cases gives with
    | bodyEnd | trailer | noScalar | noFile => exact Nat.lt_succ_of_lt before
    | delimiter | closing | block | scalar | chunk | failure | done | noPart => exact before
  · cases gives with
    | done => exact .inr rfl
    | _ => cases ended

theorem Passed.of_tells {i : Nat} (passed : p.Passed i) (tells : Tells fs p answer q) :
    q.Passed i := by
  cases tells with
  | gives _ gives => exact passed.of_gives gives
  | @asks m j progress part s h source ongoing =>
    rcases passed with before | ended
    · left
      cases s.poll.1 with
      | ended => exact Nat.lt_succ_of_lt before
      | chunk | text | failure | notReady => exact before
    · cases ended

/-- A stream that has ended, failed or given text is left behind. -/
theorem passed_of_stopped (tells : Tells fs p answer q) {i : Nat} {s : Stream}
    (asked : p.awaited? = some (i, s)) (stopped : s.poll.1.goesOn = false) : q.Passed i := by
  cases tells with
  | gives unasked _ => cases unasked.symm.trans asked
  | asks h source ongoing =>
    rw [awaited?_body (Message.stream?_of_file h source) ongoing] at asked
    cases asked
    cases emission : s.poll.1 with
    | ended => exact .inl (Nat.lt_succ_self i)
    | text | failure => exact .inr rfl
    | chunk | notReady => simp [emission, Emission.goesOn] at stopped

theorem stream?_of_not_awaited (tells : Tells fs p answer q) {i : Nat}
    (unasked : ∀ s, p.awaited? ≠ some (i, s)) : q.message.stream? i = p.message.stream? i := by
  unfold Message.stream?
  cases asked : p.awaited? with
  | none => rw [streams_of_unasked tells asked]
  | some asking =>
    obtain ⟨j, s⟩ := asking
    have other : j ≠ i := by
      rintro rfl
      exact unasked s asked
    rw [(streams_of_asked tells asked).2, List.getElem?_set_ne other]

open Requests in
/-- In one rendering such a stream is left as it is. -/
theorem passed_after_stopped {world : World} {n k i : Nat} {s : Stream}
    (asked : (after poll world p n).awaited? = some (i, s)) (stopped : s.poll.1.goesOn = false)
    (later : n < k) :
    (after poll world p k).Passed i ∧ (after poll world p k).message.stream? i = some s.poll.2 := by
  obtain ⟨d, rfl⟩ := Nat.exists_eq_add_of_lt later
  induction d with
  | zero =>
    have tells := tells_poll (world n) (after poll world p n)
    obtain ⟨here, left⟩ := streams_of_asked tells asked
    have inside := (List.getElem?_eq_some_iff.mp here).1
    refine ⟨passed_of_stopped tells asked stopped, ?_⟩
    rw [Nat.add_zero, after_succ, Message.stream?, left, List.getElem?_set_self inside,
      Option.join_some]
  | succ d ih =>
    obtain ⟨passed, left⟩ := ih (by omega)
    have tells := tells_poll (world (n + d + 1)) (after poll world p (n + d + 1))
    exact ⟨passed.of_tells tells, (stream?_of_not_awaited tells passed.not_awaited).trans left⟩

end Asking

end MessageProducer

end Multipart
