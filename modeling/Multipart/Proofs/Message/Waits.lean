import Mathlib.Data.Nat.Nth
import Multipart.Proofs.Message.Polling

/-!
# Waiting without effect

Finding nothing ready changes nothing but the stream that was asked. `prompt` leaves out of every
stream the times when nothing is ready: a waiting producer gives the same answers with and without
them, apart from those that say that nothing is ready.
-/

namespace Multipart

/-! ## Other streams in the same places -/

def Source.mapStream (f : Stream → Stream) : Source → Source
  | .stream s => .stream (f s)
  | source => source

def FilePart.mapStream (f : Stream → Stream) (p : FilePart) : FilePart :=
  { p with source := p.source.mapStream f }

def Part.mapStream (f : Stream → Stream) : Part → Part
  | .scalar p => .scalar p
  | .file p => .file (p.mapStream f)

def Message.mapStreams (f : Stream → Stream) (m : Message) : Message :=
  { m with parts := m.parts.map (Part.mapStream f) }

def MessageProducer.mapStreams (f : Stream → Stream) (p : MessageProducer) : MessageProducer :=
  { p with message := p.message.mapStreams f }

variable (f : Stream → Stream)

namespace FilePart

theorem mapStream_of_settled {p : FilePart} (settled : p.source.isStream = false) :
    p.mapStream f = p := by
  obtain ⟨name, filename, headers, source, chunkSize, keptBlock, keptBody⟩ := p
  cases source with
  | stream s => cases settled
  | bytes | text | path | reader => rfl

theorem pull_mapStream (fs : FileSystem) (p : FilePart) (progress : BodyProgress) :
    ((p.mapStream f).pull fs progress).value =
      ((p.pull fs progress).value.1, (p.pull fs progress).value.2.1.mapStream f,
        (p.pull fs progress).value.2.2) := by
  cases waiting : p.source.isStream with
  | false =>
    have still := (Pulled.pull fs p progress).source.isStream_eq.trans waiting
    rw [mapStream_of_settled f waiting, mapStream_of_settled f still]
  | true =>
    obtain ⟨name, filename, headers, source, chunkSize, keptBlock, keptBody⟩ := p
    cases source with
    | stream s =>
      cases progress with
      | pending => cases keptBody <;> rfl
      | reader | file | done => rfl
    | bytes | text | path | reader => cases waiting

end FilePart

namespace Part

@[simp] theorem block_mapStream (part : Part) :
    (part.mapStream f).block = (part.block.1, part.block.2.mapStream f) := by
  cases part <;> rfl

@[simp] theorem contentPhase_mapStream (part : Part) :
    Progress.contentPhase (part.mapStream f) = Progress.contentPhase part := by
  cases part <;> rfl

theorem stream?_mapStream (part : Part) : (part.mapStream f).stream? = part.stream?.map f := by
  cases part with
  | scalar p => rfl
  | file p =>
    obtain ⟨name, filename, headers, source, chunkSize, keptBlock, keptBody⟩ := p
    cases source <;> rfl

end Part

namespace Message

variable (m : Message) (i : Nat)

@[simp] theorem delimiter_mapStreams : (m.mapStreams f).delimiter = m.delimiter := rfl

@[simp] theorem closing_mapStreams : (m.mapStreams f).closing = m.closing := rfl

@[simp] theorem getElem?_mapStreams :
    (m.mapStreams f).parts[i]? = m.parts[i]?.map (Part.mapStream f) := by
  simp [mapStreams]

@[simp] theorem length_mapStreams : (m.mapStreams f).parts.length = m.parts.length := by
  simp [mapStreams]

theorem setPart_mapStreams (part : Part) :
    (m.mapStreams f).setPart i (part.mapStream f) = (m.setPart i part).mapStreams f := by
  simp [mapStreams, setPart]

theorem setPart_scalar_mapStreams (p : ScalarPart) :
    (m.mapStreams f).setPart i (.scalar p) = (m.setPart i (.scalar p)).mapStreams f :=
  setPart_mapStreams f m i (.scalar p)

theorem setPart_file_mapStreams (p : FilePart) :
    (m.mapStreams f).setPart i (.file (p.mapStream f)) = (m.setPart i (.file p)).mapStreams f :=
  setPart_mapStreams f m i (.file p)

theorem getElem?_mapStreams_scalar {m : Message} {i : Nat} {p : ScalarPart}
    (h : m.parts[i]? = some (.scalar p)) : (m.mapStreams f).parts[i]? = some (.scalar p) := by
  rw [getElem?_mapStreams, h]
  rfl

theorem getElem?_mapStreams_file {m : Message} {i : Nat} {p : FilePart}
    (h : m.parts[i]? = some (.file p)) :
    (m.mapStreams f).parts[i]? = some (.file (p.mapStream f)) := by
  rw [getElem?_mapStreams, h]
  rfl

theorem exists_scalar_of_mapStreams {m : Message} {i : Nat}
    (h : ∃ p, (m.mapStreams f).parts[i]? = some (.scalar p)) :
    ∃ p, m.parts[i]? = some (.scalar p) := by
  obtain ⟨p, h⟩ := h
  rw [getElem?_mapStreams, Option.map_eq_some_iff] at h
  obtain ⟨part, h, same⟩ := h
  cases part with
  | scalar q => exact ⟨q, h⟩
  | file q => cases same

theorem exists_file_of_mapStreams {m : Message} {i : Nat}
    (h : ∃ p, (m.mapStreams f).parts[i]? = some (.file p)) :
    ∃ p, m.parts[i]? = some (.file p) := by
  obtain ⟨p, h⟩ := h
  rw [getElem?_mapStreams, Option.map_eq_some_iff] at h
  obtain ⟨part, h, same⟩ := h
  cases part with
  | scalar q => cases same
  | file q => exact ⟨q, h⟩

theorem streams_mapStreams : (m.mapStreams f).streams = m.streams.map (Option.map f) := by
  simp only [streams, mapStreams, List.map_map]
  apply List.map_congr_left
  intro part _
  exact Part.stream?_mapStream f part

theorem stream?_mapStreams : (m.mapStreams f).stream? i = (m.stream? i).map f := by
  rw [stream?, streams_mapStreams, List.getElem?_map, stream?]
  cases m.streams[i]? <;> rfl

end Message

namespace MessageProducer

theorem mapStreams_mk (m : Message) (g : Progress) : mapStreams f ⟨m, g⟩ = ⟨m.mapStreams f, g⟩ :=
  rfl

theorem gives_mapStreams {fs : FileSystem} {p q : MessageProducer} {item : Option Item}
    (gives : Gives fs p item q) : Gives fs (p.mapStreams f) item (q.mapStreams f) := by
  have pulled {part after : FilePart} {progress later : BodyProgress} {step : BodyStep}
      (h : (part.pull fs progress).value = (step, after, later)) :
      ((part.mapStream f).pull fs progress).value = (step, after.mapStream f, later) := by
    rw [FilePart.pull_mapStream, h]
  cases gives with
  | delimiter inside => exact .delimiter (by simpa using inside)
  | closing outside => exact .closing (by simpa using outside)
  | @block m i part h =>
    have there : (m.mapStreams f).parts[i]? = some (part.mapStream f) := by simp [h]
    have mapped : Gives fs _ _ _ := .block there
    rw [Part.block_mapStream, Part.contentPhase_mapStream, Message.setPart_mapStreams] at mapped
    exact mapped
  | @scalar m i part h =>
    have mapped : Gives fs _ _ _ := .scalar (Message.getElem?_mapStreams_scalar f h)
    rw [Message.setPart_scalar_mapStreams] at mapped
    exact mapped
  | @chunk m i part progress octets after later h step =>
    have mapped := Gives.chunk (Message.getElem?_mapStreams_file f h) (pulled step)
    rw [Message.setPart_file_mapStreams] at mapped
    exact mapped
  | @failure m i part progress e after later h step =>
    have mapped := Gives.failure (Message.getElem?_mapStreams_file f h) (pulled step)
    rw [Message.setPart_file_mapStreams] at mapped
    exact mapped
  | @bodyEnd m i part progress after later h step =>
    have mapped := Gives.bodyEnd (Message.getElem?_mapStreams_file f h) (pulled step)
    rw [Message.setPart_file_mapStreams] at mapped
    exact mapped
  | trailer => exact .trailer
  | done => exact .done
  | noPart missing => exact .noPart (by simp [missing])
  | noScalar missing => exact .noScalar (missing ∘ Message.exists_scalar_of_mapStreams f)
  | noFile missing => exact .noFile (missing ∘ Message.exists_file_of_mapStreams f)

theorem awaited?_mapStreams (p : MessageProducer) :
    (p.mapStreams f).awaited? = p.awaited?.map (Prod.map id f) := by
  obtain ⟨m, i, phase⟩ := p
  cases phase with
  | body progress =>
    simp only [awaited?, mapStreams_mk, Message.stream?_mapStreams]
    split
    · rfl
    · cases m.stream? i <;> rfl
  | delimiter | block | scalar | trailer | done => rfl

end MessageProducer

/-! ## Streams that are always ready -/

/-- The stream without the times when nothing is ready. -/
def Stream.prompt (s : Stream) : Stream := s.filter (· ≠ .notReady)

namespace Stream

@[simp] theorem prompt_nil : prompt [] = [] := rfl

theorem prompt_cons {e : Emission} (ready : e ≠ .notReady) (rest : Stream) :
    prompt (e :: rest) = e :: prompt rest := by
  simp [prompt, ready]

/-- A prompt stream answers each poll as the stream does, or the stream was not ready. -/
theorem poll_prompt {s : Stream} (ready : s.poll.1 ≠ .notReady) :
    s.prompt.poll = (s.poll.1, s.poll.2.prompt) := by
  cases s with
  | nil => rfl
  | cons e rest =>
    rw [prompt_cons (e := e) ready]
    rfl

theorem prompt_poll_of_notReady {s : Stream} (waiting : s.poll.1 = .notReady) :
    s.poll.2.prompt = s.prompt := by
  cases s with
  | nil => cases waiting
  | cons e rest =>
    obtain rfl : e = .notReady := waiting
    rfl

end Stream

namespace MessageProducer

/-- The same producer of streams that are always ready. -/
def prompt (p : MessageProducer) : MessageProducer := p.mapStreams Stream.prompt

variable {fs : FileSystem} {p q : MessageProducer} {answer : Poll (Option Item)}

theorem prompt_setPart {part : FilePart} {s : Stream} (m : Message) (i : Nat) (g : Progress) :
    prompt ⟨m.setPart i (.file { part with source := .stream s }), g⟩ =
      ⟨(m.mapStreams Stream.prompt).setPart i (.file { part with source := .stream s.prompt }), g⟩ :=
  congrArg (MessageProducer.mk · g) (Message.setPart_file_mapStreams Stream.prompt m i _).symm

/-- An answer does not depend on how often nothing was ready. -/
theorem tells_prompt (tells : Tells fs p answer q) (ready : answer ≠ .notReady) :
    Tells fs p.prompt answer q.prompt := by
  cases tells with
  | gives unasked gives =>
    refine .gives ?_ (gives_mapStreams Stream.prompt gives)
    rw [prompt, awaited?_mapStreams, unasked]
    rfl
  | @asks m i progress part s h source ongoing =>
    have emitted : s.poll.1 ≠ .notReady := by
      intro waiting
      rw [waiting] at ready
      exact ready rfl
    have prompted : s.prompt.poll = (s.poll.1, s.poll.2.prompt) := Stream.poll_prompt emitted
    have there := Message.getElem?_mapStreams_file Stream.prompt h
    have mapped : part.mapStream Stream.prompt = { part with source := .stream s.prompt } := by
      simp [FilePart.mapStream, source, Source.mapStream]
    rw [mapped] at there
    have asks : Tells fs _ _ _ := .asks there rfl ongoing
    rw [prompted] at asks
    rw [prompt_setPart]
    exact asks

theorem prompt_of_notReady (tells : Tells fs p answer q) (waiting : answer = .notReady) :
    q.prompt = p.prompt := by
  cases tells with
  | gives => cases waiting
  | @asks m i progress part s h source ongoing =>
    have emitted : s.poll.1 = .notReady := by
      cases emission : s.poll.1 <;> simp_all [emissionAnswer]
    have there := Message.getElem?_mapStreams_file Stream.prompt h
    have mapped : part.mapStream Stream.prompt = { part with source := .stream s.prompt } := by
      simp [FilePart.mapStream, source, Source.mapStream]
    rw [prompt_setPart, Stream.prompt_poll_of_notReady emitted, emitted, ← mapped,
      Message.setPart_self there]
    rfl

end MessageProducer

namespace Requests

variable {α σ : Type} (poll : FileSystem → σ → Traced (Poll α × σ)) (world : World) (producer : σ)

/-- Something was ready for this request. -/
def Answered (n : Nat) : Prop := ∃ value, answer poll world producer n = .ready value

instance : DecidablePred (Answered poll world producer) := fun n =>
  match h : answer poll world producer n with
  | .ready value => isTrue ⟨value, h⟩
  | .notReady => isFalse fun ⟨_, given⟩ => by cases h.symm.trans given

variable {poll world producer} in
theorem not_answered_iff {n : Nat} :
    ¬ Answered poll world producer n ↔ answer poll world producer n = .notReady := by
  unfold Answered
  cases answer poll world producer n <;> simp

/-- The file systems at the requests that are answered, one after another. -/
noncomputable def answeredWorld : World :=
  fun k => world (Nat.nth (Answered poll world producer) k)

theorem answeredWorld_count {n : Nat} (ready : Answered poll world producer n) :
    answeredWorld poll world producer (Nat.count (Answered poll world producer) n) = world n := by
  rw [answeredWorld, Nat.nth_count ready]

end Requests

/-! ## How often nothing is ready -/

def Stream.waits (s : Stream) : Nat := s.count .notReady

theorem Stream.waits_poll (s : Stream) :
    s.waits = s.poll.2.waits + if s.poll.1 = .notReady then 1 else 0 := by
  cases s with
  | nil => rfl
  | cons e rest => by_cases waiting : e = .notReady <;> simp [waits, poll, waiting]

/-- The times when nothing is ready that are still to come, in all streams together. -/
def Message.waits (m : Message) : Nat := (m.streams.map (·.elim 0 Stream.waits)).sum

theorem sum_set_add {xs : List Nat} {i x : Nat} (h : xs[i]? = some x) (y : Nat) :
    (xs.set i y).sum + x = xs.sum + y := by
  induction xs generalizing i with
  | nil => cases h
  | cons z xs ih =>
    cases i with
    | zero =>
      cases h
      simp only [List.set_cons_zero, List.sum_cons]
      omega
    | succ i =>
      have tail := ih h
      simp only [List.set_cons_succ, List.sum_cons]
      omega

namespace MessageProducer

open Requests

section Counting

variable {fs : FileSystem} {p q : MessageProducer} {answer : Poll (Option Item)}

theorem waits_of_tells (tells : Tells fs p answer q) :
    p.message.waits = q.message.waits + if answer = .notReady then 1 else 0 := by
  cases asked : p.awaited? with
  | none =>
    have unready : answer ≠ .notReady := by
      rw [ne_eq, answer_eq_notReady_iff tells, asked]
      simp
    rw [Message.waits, Message.waits, streams_of_unasked tells asked, if_neg unready, Nat.add_zero]
  | some asking =>
    obtain ⟨i, s⟩ := asking
    obtain ⟨here, left⟩ := streams_of_asked tells asked
    have there : (p.message.streams.map (·.elim 0 Stream.waits))[i]? = some s.waits := by
      rw [List.getElem?_map, here]
      rfl
    have moved := sum_set_add there s.poll.2.waits
    have waiting : answer = .notReady ↔ s.poll.1 = .notReady := by
      rw [answer_eq_notReady_iff tells, asked]
      simp
    have one := s.waits_poll
    rw [Message.waits, Message.waits, left, List.map_set, Option.elim_some]
    simp only [waiting]
    omega

end Counting

variable (world : World) (p : MessageProducer)

/-- There is one answer that nothing is ready for each time that a stream says so. -/
theorem count_notReady_add_waits (n : Nat) :
    Nat.count (fun k => ¬ Answered poll world p k) n + (after poll world p n).message.waits =
      p.message.waits := by
  induction n with
  | zero => exact Nat.zero_add _
  | succ n ih =>
    have step := waits_of_tells (tells_poll (world n) (after poll world p n))
    rw [← ih, Nat.count_succ, after_succ, step]
    simp only [not_answered_iff, answer]
    omega

/-- Streams are finite, so there is always another answer. -/
theorem exists_answered (n : Nat) : ∃ k, Answered poll world p k ∧ n < k := by
  by_cases waiting : ∀ d < p.message.waits + 1, ¬ Answered poll world p (n + 1 + d)
  · have all := Nat.count_of_forall waiting
    have total := count_notReady_add_waits world p (n + 1 + (p.message.waits + 1))
    rw [Nat.count_add, all] at total
    omega
  · simp only [not_forall, not_not] at waiting
    obtain ⟨d, -, ready⟩ := waiting
    exact ⟨n + 1 + d, ready, by omega⟩

theorem infinite_answered : (Set.ofPred (Answered poll world p)).Infinite :=
  Set.infinite_of_forall_exists_gt (exists_answered world p)

/-! ## The same answers without the waits -/

/-- A request that is answered is answered in the same way without the waits before it. -/
theorem request_prompt {n : Nat} (ready : Answered poll world p n) :
    (poll (world n) (after poll world p n).prompt).value =
      (answer poll world p n, (after poll world p (n + 1)).prompt) := by
  have told : answer poll world p n ≠ .notReady := by
    rw [ne_eq, ← not_answered_iff, not_not]
    exact ready
  exact poll_of_tells _ (tells_prompt (tells_poll _ _) told)

/-- The producer of prompt streams keeps up with the requests that are answered. -/
theorem after_prompt (n : Nat) :
    after poll (answeredWorld poll world p) p.prompt (Nat.count (Answered poll world p) n) =
      (after poll world p n).prompt := by
  induction n with
  | zero => rfl
  | succ n ih =>
    by_cases ready : Answered poll world p n
    · rw [Nat.count_succ, if_pos ready, after_succ, ih, answeredWorld_count _ _ _ ready,
        request_prompt world p ready]
    · have waiting := not_answered_iff.mp ready
      rw [Nat.count_succ, if_neg ready, Nat.add_zero, ih]
      exact (prompt_of_notReady (tells_poll (world n) _) waiting).symm

/-- It gives the answers of the waiting producer, one after another. -/
theorem answer_prompt (k : Nat) :
    answer poll (answeredWorld poll world p) p.prompt k =
      answer poll world p (Nat.nth (Answered poll world p) k) := by
  have ready := Nat.nth_mem_of_infinite (infinite_answered world p) k
  have reached := after_prompt world p (Nat.nth (Answered poll world p) k)
  rw [Nat.count_nth_of_infinite (infinite_answered world p)] at reached
  unfold answer
  rw [reached, answeredWorld, request_prompt world p ready]
  rfl

end MessageProducer

end Multipart
