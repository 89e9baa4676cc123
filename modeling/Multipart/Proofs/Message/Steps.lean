import Multipart.Message.Producer
import Multipart.Proofs.Requests

/-!
# One request to a message producer

For each place in a message, what the producer gives there and where it goes. The body of a file is
left to the part that it belongs to.
-/

namespace Multipart

namespace Message

/-- The message in which one part has been replaced. -/
def setPart (m : Message) (index : Nat) (part : Part) : Message :=
  { m with parts := m.parts.set index part }

@[simp] theorem boundary_setPart (m : Message) (index : Nat) (part : Part) :
    (m.setPart index part).boundary = m.boundary := rfl

@[simp] theorem parts_setPart (m : Message) (index : Nat) (part : Part) :
    (m.setPart index part).parts = m.parts.set index part := rfl

@[simp] theorem delimiter_setPart (m : Message) (index : Nat) (part : Part) :
    (m.setPart index part).delimiter = m.delimiter := rfl

@[simp] theorem closing_setPart (m : Message) (index : Nat) (part : Part) :
    (m.setPart index part).closing = m.closing := rfl

@[simp] theorem setPart_setPart (m : Message) (index : Nat) (first second : Part) :
    (m.setPart index first).setPart index second = m.setPart index second := by
  simp [setPart]

theorem setPart_self {m : Message} {index : Nat} {part : Part}
    (h : m.parts[index]? = some part) : m.setPart index part = m := by
  obtain ⟨inside, rfl⟩ := List.getElem?_eq_some_iff.mp h
  rw [setPart, List.set_getElem_self]

theorem getElem?_setPart {m : Message} {index : Nat} {old : Part} (new : Part)
    (h : m.parts[index]? = some old) : (m.setPart index new).parts[index]? = some new := by
  have inside := (List.getElem?_eq_some_iff.mp h).1
  rw [parts_setPart, List.getElem?_set_self inside]

theorem getElem?_setPart_of_ne (m : Message) {index other : Nat} (part : Part)
    (different : index ≠ other) : (m.setPart index part).parts[other]? = m.parts[other]? :=
  List.getElem?_set_ne different

/-- The first of the parts that are still to come, and those after it. -/
theorem getElem?_of_drop {m : Message} {index : Nat} {part : Part} {rest : List Part}
    (h : m.parts.drop index = part :: rest) :
    m.parts[index]? = some part ∧ m.parts.drop (index + 1) = rest := by
  constructor
  · rw [← List.head?_drop, h, List.head?_cons]
  · rw [← List.tail_drop, h, List.tail_cons]

theorem drop_setPart (m : Message) (index : Nat) (part : Part) :
    (m.setPart index part).parts.drop (index + 1) = m.parts.drop (index + 1) := by
  rw [parts_setPart, List.drop_set_of_lt (by omega)]

end Message

namespace MessageProducer

/-- All that one request can do: the item that is given, and the producer that is left. In the last
three places there is no part of the kind that is to be sent. -/
inductive Gives (fs : FileSystem) : MessageProducer → Option Item → MessageProducer → Prop
  | delimiter {m i} : i < m.parts.length →
      Gives fs ⟨m, i, .delimiter⟩ (some (.ok m.delimiter)) ⟨m, i, .block⟩
  | closing {m i} : m.parts.length ≤ i →
      Gives fs ⟨m, i, .delimiter⟩ (some (.ok m.closing)) ⟨m, i, .done⟩
  | block {m i part} : m.parts[i]? = some part →
      Gives fs ⟨m, i, .block⟩ (some (.ok part.block.1))
        ⟨m.setPart i part.block.2, i, Progress.contentPhase part⟩
  | scalar {m i part} : m.parts[i]? = some (.scalar part) →
      Gives fs ⟨m, i, .scalar⟩ (some (.ok part.body.1))
        ⟨m.setPart i (.scalar part.body.2), i, .trailer⟩
  | chunk {m i part progress octets after later} : m.parts[i]? = some (.file part) →
      (part.pull fs progress).value = (.ok (some octets), after, later) →
      Gives fs ⟨m, i, .body progress⟩ (some (.ok octets))
        ⟨m.setPart i (.file after), i, .body later⟩
  | failure {m i part progress e after later} : m.parts[i]? = some (.file part) →
      (part.pull fs progress).value = (.error e, after, later) →
      Gives fs ⟨m, i, .body progress⟩ (some (.error e)) ⟨m.setPart i (.file after), i, .done⟩
  | bodyEnd {m i part progress after later} : m.parts[i]? = some (.file part) →
      (part.pull fs progress).value = (.ok none, after, later) →
      Gives fs ⟨m, i, .body progress⟩ (some (.ok HeaderBlock.crlf))
        ⟨m.setPart i (.file after), i + 1, .delimiter⟩
  | trailer {m i} :
      Gives fs ⟨m, i, .trailer⟩ (some (.ok HeaderBlock.crlf)) ⟨m, i + 1, .delimiter⟩
  | done {m i} : Gives fs ⟨m, i, .done⟩ none ⟨m, i, .done⟩
  | noPart {m i} : m.parts[i]? = none → Gives fs ⟨m, i, .block⟩ none ⟨m, i, .done⟩
  | noScalar {m i} : (¬ ∃ part, m.parts[i]? = some (.scalar part)) →
      Gives fs ⟨m, i, .scalar⟩ (some (.ok HeaderBlock.crlf)) ⟨m, i + 1, .delimiter⟩
  | noFile {m i progress} : (¬ ∃ part, m.parts[i]? = some (.file part)) →
      Gives fs ⟨m, i, .body progress⟩ (some (.ok HeaderBlock.crlf)) ⟨m, i + 1, .delimiter⟩

section Equations

variable (fs : FileSystem) {m : Message} {i : Nat}

attribute [local simp] next nextWithin portion Progress.next

theorem next_delimiter (inside : i < m.parts.length) :
    (next fs ⟨m, i, .delimiter⟩).value = (some (.ok m.delimiter), ⟨m, i, .block⟩) := by
  simp [inside]

theorem next_closing (outside : m.parts.length ≤ i) :
    (next fs ⟨m, i, .delimiter⟩).value = (some (.ok m.closing), ⟨m, i, .done⟩) := by
  simp [Nat.not_lt.mpr outside]

theorem next_block {part : Part} (h : m.parts[i]? = some part) :
    (next fs ⟨m, i, .block⟩).value =
      (some (.ok part.block.1), ⟨m.setPart i part.block.2, i, Progress.contentPhase part⟩) := by
  simp [Progress.blockPortion, h, Message.setPart]

theorem next_scalar {part : ScalarPart} (h : m.parts[i]? = some (.scalar part)) :
    (next fs ⟨m, i, .scalar⟩).value =
      (some (.ok part.body.1), ⟨m.setPart i (.scalar part.body.2), i, .trailer⟩) := by
  simp [Progress.scalarPortion, h, Message.setPart]

theorem next_trailer :
    (next fs ⟨m, i, .trailer⟩).value = (some (.ok HeaderBlock.crlf), ⟨m, i + 1, .delimiter⟩) := by
  simp [Progress.trailerPortion]

theorem next_done : (next fs ⟨m, i, .done⟩).value = (none, ⟨m, i, .done⟩) := by
  simp

theorem next_part_missing (missing : m.parts[i]? = none) :
    (next fs ⟨m, i, .block⟩).value = (none, ⟨m, i, .done⟩) := by
  simp [Progress.blockPortion, missing]

/-- A scalar that is not there is taken for one that has been sent. -/
theorem next_scalar_missing (missing : ¬ ∃ part, m.parts[i]? = some (.scalar part)) :
    (next fs ⟨m, i, .scalar⟩).value = (some (.ok HeaderBlock.crlf), ⟨m, i + 1, .delimiter⟩) := by
  have skipped : Progress.scalarPortion ⟨i, .scalar⟩ m.parts =
      Progress.trailerPortion ⟨i, .scalar⟩ m.parts := by
    unfold Progress.scalarPortion
    split
    · next part found => exact absurd ⟨part, found⟩ missing
    · rfl
  simp [skipped, Progress.trailerPortion]

theorem next_body_missing {progress : BodyProgress}
    (missing : ¬ ∃ part, m.parts[i]? = some (.file part)) :
    (next fs ⟨m, i, .body progress⟩).value =
      (some (.ok HeaderBlock.crlf), ⟨m, i + 1, .delimiter⟩) := by
  have skipped : (pullBody fs ⟨m, i, .body progress⟩).value =
      (.ok none, ⟨m, i, .body progress⟩, progress) := by
    unfold pullBody
    simp only [Progress.body?]
    split
    · next part found => exact absurd ⟨part, found⟩ missing
    · rfl
  simp [skipped, Progress.trailerPortion, resume,
    Progress.resume, BodyStep.item?]

variable {part after : FilePart} {progress later : BodyProgress}
  (h : m.parts[i]? = some (.file part))

include h

theorem next_body_chunk {octets : Bytes}
    (step : (part.pull fs progress).value = (.ok (some octets), after, later)) :
    (next fs ⟨m, i, .body progress⟩).value =
      (some (.ok octets), ⟨m.setPart i (.file after), i, .body later⟩) := by
  simp [pullBody, Progress.body?, h, step, resume,
    Progress.resume, BodyStep.item?, setFile, Message.setPart]

theorem next_body_error {e : EncodingError}
    (step : (part.pull fs progress).value = (.error e, after, later)) :
    (next fs ⟨m, i, .body progress⟩).value =
      (some (.error e), ⟨m.setPart i (.file after), i, .done⟩) := by
  simp [pullBody, Progress.body?, h, step, resume,
    Progress.resume, BodyStep.item?, setFile, Message.setPart]

/-- The end of a body gives no item of its own: the line break after it comes at once. -/
theorem next_body_end (step : (part.pull fs progress).value = (.ok none, after, later)) :
    (next fs ⟨m, i, .body progress⟩).value =
      (some (.ok HeaderBlock.crlf), ⟨m.setPart i (.file after), i + 1, .delimiter⟩) := by
  simp [Progress.trailerPortion, pullBody,
    Progress.body?, h, step, resume, Progress.resume, BodyStep.item?, setFile, Message.setPart]

end Equations

section Requests

variable (fs : FileSystem)

theorem next_of_gives {p q : MessageProducer} {item : Option Item} (gives : Gives fs p item q) :
    (next fs p).value = (item, q) := by
  cases gives with
  | delimiter inside => exact next_delimiter fs inside
  | closing outside => exact next_closing fs outside
  | block h => exact next_block fs h
  | scalar h => exact next_scalar fs h
  | chunk h step => exact next_body_chunk fs h step
  | failure h step => exact next_body_error fs h step
  | bodyEnd h step => exact next_body_end fs h step
  | trailer => exact next_trailer fs
  | done => exact next_done fs
  | noPart missing => exact next_part_missing fs missing
  | noScalar missing => exact next_scalar_missing fs missing
  | noFile missing => exact next_body_missing fs missing

theorem exists_gives (p : MessageProducer) : ∃ item q, Gives fs p item q := by
  obtain ⟨m, i, phase⟩ := p
  cases phase with
  | delimiter =>
    by_cases inside : i < m.parts.length
    · exact ⟨_, _, .delimiter inside⟩
    · exact ⟨_, _, .closing (Nat.not_lt.mp inside)⟩
  | block =>
    cases h : m.parts[i]? with
    | none => exact ⟨_, _, .noPart h⟩
    | some part => exact ⟨_, _, .block h⟩
  | scalar =>
    by_cases h : ∃ part, m.parts[i]? = some (.scalar part)
    · obtain ⟨part, h⟩ := h
      exact ⟨_, _, .scalar h⟩
    · exact ⟨_, _, .noScalar h⟩
  | body progress =>
    by_cases h : ∃ part, m.parts[i]? = some (.file part)
    · obtain ⟨part, h⟩ := h
      obtain ⟨step, after, later, pulled⟩ : ∃ step after later,
          (part.pull fs progress).value = (step, after, later) := ⟨_, _, _, rfl⟩
      match step with
      | .error e => exact ⟨_, _, .failure h pulled⟩
      | .ok none => exact ⟨_, _, .bodyEnd h pulled⟩
      | .ok (some octets) => exact ⟨_, _, .chunk h pulled⟩
    · exact ⟨_, _, .noFile h⟩
  | trailer => exact ⟨_, _, .trailer⟩
  | done => exact ⟨_, _, .done⟩

theorem gives_next (p : MessageProducer) :
    Gives fs p (next fs p).value.1 (next fs p).value.2 := by
  obtain ⟨item, q, gives⟩ := exists_gives fs p
  rw [next_of_gives fs gives]
  exact gives

end Requests

end MessageProducer

end Multipart
