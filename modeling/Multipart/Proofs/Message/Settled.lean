import Multipart.Proofs.Message.Advance
import Multipart.Proofs.Message.Polling

/-!
# Messages without streams

A message none of whose parts is a stream has nothing to wait for. Its waiting producer is never
found without an answer, gives what its blocking producer gives and leaves the same message behind.
-/

namespace Multipart

namespace Message

/-- No part has to be waited for. -/
def Settled (m : Message) : Prop :=
  ∀ p, .file p ∈ m.parts → p.source.isStream = false

theorem Advanced.settled {m m' : Message} (moved : m.Advanced m') (settled : m.Settled) :
    m'.Settled := by
  refine Part.Advanced.all_files ?_ moved.parts settled
  intro p q moved before
  exact moved.source.isStream_eq.trans before

theorem Settled.stream?_eq_none {m : Message} (settled : m.Settled) (i : Nat) :
    m.stream? i = none := by
  cases found : m.stream? i with
  | none => rfl
  | some s =>
    obtain ⟨p, here, source⟩ := exists_of_stream? found
    have unwaited := settled p (List.mem_of_getElem? here)
    rw [source] at unwaited
    cases unwaited

/-- The operation with a blocking producer in place of a waiting one. -/
def Operation.blocking : Operation → Operation
  | .await world requests => .iterate world requests
  | operation => operation

end Message

namespace MessageProducer

open Requests

theorem awaited?_of_settled {p : MessageProducer} (settled : p.message.Settled) :
    p.awaited? = none := by
  cases asked : p.awaited? with
  | none => rfl
  | some asking =>
    obtain ⟨m, progress, rfl, -, found⟩ := exists_of_awaited? asked
    rw [settled.stream?_eq_none] at found
    cases found

theorem poll_eq_next (fs : FileSystem) {p : MessageProducer} (settled : p.message.Settled) :
    (poll fs p).value = (.ready (next fs p).value.1, (next fs p).value.2) :=
  poll_of_not_awaited fs (awaited?_of_settled settled)

theorem after_poll_eq {p : MessageProducer} (settled : p.message.Settled) (world : World)
    (n : Nat) :
    after poll world p n = after next world p n ∧ (after next world p n).message.Settled := by
  induction n with
  | zero => exact ⟨rfl, settled⟩
  | succ n ih =>
    obtain ⟨same, still⟩ := ih
    refine ⟨?_, (advanced_next (world n) _).settled still⟩
    rw [after_succ, after_succ, same, poll_eq_next (world n) still]

theorem answer_poll_eq {p : MessageProducer} (settled : p.message.Settled) (world : World)
    (n : Nat) : answer poll world p n = .ready (answer next world p n) := by
  obtain ⟨same, still⟩ := after_poll_eq settled world n
  unfold answer
  rw [same, poll_eq_next (world n) still]

end MessageProducer

namespace Message

theorem Settled.applyAll {m : Message} (settled : m.Settled) (operations : List Operation) :
    (m.applyAll operations).Settled :=
  (Advanced.applyAll m operations).settled settled

theorem Settled.apply_blocking {m : Message} (settled : m.Settled) (operation : Operation) :
    m.apply operation.blocking = m.apply operation := by
  cases operation with
  | length | headers | encode | iterate => rfl
  | await world requests =>
    have same := (MessageProducer.after_poll_eq (p := { message := m }) settled world requests).1
    exact congrArg MessageProducer.message same.symm

theorem Settled.applyAll_blocking {m : Message} (settled : m.Settled)
    (operations : List Operation) :
    m.applyAll (operations.map Operation.blocking) = m.applyAll operations := by
  induction operations generalizing m with
  | nil => rfl
  | cons operation operations ih =>
    have onward : (m.apply operation).Settled := (Advanced.apply m operation).settled settled
    change (m.apply operation.blocking).applyAll _ = (m.apply operation).applyAll operations
    rw [settled.apply_blocking, ih onward]

end Message

namespace MessageProducer

open Requests

/-- In every state of a message without streams, a waiting producer is always ready, gives at each
request what a blocking producer gives there, and is left as the blocking one is. So the message
stays the same, and all that is done with it later, in whichever mode. -/
theorem poll_agrees_with_next {m : Message} (settled : m.Settled)
    (operations : List Message.Operation) (world : World) :
    let q := m.applyAll operations
    let p : MessageProducer := { message := q }
    (∀ k, answer poll world p k = .ready (answer next world p k)) ∧
    (∀ k, after poll world p k = after next world p k) ∧
    ∀ k later, (q.apply (.await world k)).applyAll later =
      (q.apply (.iterate world k)).applyAll (later.map Message.Operation.blocking) := by
  intro q p
  have still : q.Settled := settled.applyAll operations
  refine ⟨answer_poll_eq still world, fun k => (after_poll_eq still world k).1, ?_⟩
  intro k later
  have onward : (q.apply (.iterate world k)).Settled := (Message.Advanced.apply q _).settled still
  rw [onward.applyAll_blocking, ← still.apply_blocking (.await world k)]
  rfl

/-- A cursor that was left in the middle of its body, and a path that cannot be opened. -/
theorem poll_agrees_with_next_abandoned :
    let f : FilePart :=
      { name := "f"
        filename := none
        headers := .empty
        source := .reader (.cursor [1, 2, 3] 1)
        chunkSize := ⟨2, by decide⟩ }
    let g : FilePart := { name := "g", filename := none, headers := .empty, source := .path [0x78] }
    let m : Message := ⟨⟨[0x42], by decide⟩, [.file f, .file g]⟩
    let world : World := .still .initial
    let p : MessageProducer := { message := m.applyAll [.await world 3] }
    m.Settled ∧
      answer next world p 7 = some (.error (.io (some [0x78]) .notFound)) ∧
      (∀ k, answer poll world p k = .ready (answer next world p k)) ∧
      after poll world p 4 = after next world p 4 := by
  intro f g m world p
  have settled : m.Settled := by
    intro q member
    simp only [m, List.mem_cons, Part.file.injEq, List.not_mem_nil, or_false] at member
    rcases member with rfl | rfl <;> rfl
  obtain ⟨answers, states, -⟩ := poll_agrees_with_next settled [.await world 3] world
  exact ⟨settled, by decide, answers, states 4⟩

end MessageProducer

end Multipart
