import Multipart.Proofs.Message.Waits
import Multipart.Proofs.Part.Awaited

/-!
# The answers of a waiting producer

`Answers` lays out what a waiting producer says from the first delimiter on. It is as with a blocking
producer, but the content of a part is what is heard of it: a stream is passed on as it comes, each
of its chunks as one item, up to its end or to the failure that ends the message.
-/

namespace Multipart

namespace Requests

variable {α σ : Type} {poll : FileSystem → σ → Traced (Poll (Option α) × σ)} {world : World}
  {producer : σ} {n : Nat}

/-- The answer to the request number `k`, when these are all answers before the end. -/
def reply (answers : List (Poll α)) (k : Nat) : Poll (Option α) :=
  match answers[k]? with
  | some answer => answer.map some
  | none => .ready none

/-- From request `n` on the producer gives these answers and then says that it has ended, however
often it is asked. -/
def Replies (poll : FileSystem → σ → Traced (Poll (Option α) × σ)) (world : World) (producer : σ)
    (n : Nat) (answers : List (Poll α)) : Prop :=
  ∀ k, answer poll world producer (n + k) = reply answers k

namespace Replies

theorem of_fixed {state : σ} (fixed : ∀ fs, (poll fs state).value = (.ready none, state))
    (reached : after poll world producer n = state) : Replies poll world producer n [] :=
  answer_of_fixed fixed reached

theorem cons {first : Poll α} {answers : List (Poll α)}
    (here : answer poll world producer n = first.map some)
    (rest : Replies poll world producer (n + 1) answers) :
    Replies poll world producer n (first :: answers) := by
  intro k
  cases k with
  | zero => exact here
  | succ k =>
    rw [Nat.add_comm k, ← Nat.add_assoc, rest k, Nat.add_comm 1 k]
    simp only [reply, List.getElem?_cons_succ]

end Replies

end Requests

/-- Answers from request `n` on. The delimiter, the header block and each answer of the content take
one request; the end of a content takes none of its own. -/
inductive Answers (world : World) (delimiter closing : Bytes) :
    Nat → List Part → List (Poll Item) → Prop
  | ended {n} : Answers world delimiter closing n [] [.ready (.ok closing)]
  | whole {n part rest heard answers} :
      Hears world (n + 2) part ⟨heard, none⟩ →
      Answers world delimiter closing (n + 3 + heard.length) rest answers →
      Answers world delimiter closing n (part :: rest)
        (.ready (.ok delimiter) :: .ready (.ok part.block.1) ::
          (heard.map (Poll.map .ok) ++ .ready (.ok HeaderBlock.crlf) :: answers))
  | cut {n part rest heard e} :
      Hears world (n + 2) part ⟨heard, some e⟩ →
      Answers world delimiter closing n (part :: rest)
        (.ready (.ok delimiter) :: .ready (.ok part.block.1) ::
          (heard.map (Poll.map .ok) ++ [.ready (.error e)]))

namespace MessageProducer

open Requests

variable {world : World} {producer : MessageProducer} {n i : Nat} {m : Message}

/-- Outside the body of a file a poll does what the blocking producer does. -/
theorem poll_of_gives {fs : FileSystem} {p q : MessageProducer} {item : Option Item}
    (outside : p.progress.body? = none) (gives : Gives fs p item q) :
    (poll fs p).value = (.ready item, q) := by
  have unasked : p.awaited? = none := by
    unfold awaited?
    split
    · next progress phase => simp [Progress.body?, phase] at outside
    · rfl
  exact poll_of_tells fs (.gives unasked gives)

theorem replies_done (reached : after poll world producer n = ⟨m, i, .done⟩) :
    Replies poll world producer n [] :=
  .of_fixed (fun _ => poll_of_gives rfl .done) reached

theorem after_of_polls {part last : FilePart} {progress : BodyProgress} {heard : Heard}
    (polls : part.Polls world n progress heard last) (ended : heard.failure = none)
    (reached : after poll world producer n = ⟨m, i, .body progress⟩)
    (h : m.parts[i]? = some (.file part)) :
    after poll world producer (n + heard.answers.length + 1) =
      ⟨m.setPart i (.file last), i + 1, .delimiter⟩ := by
  induction polls generalizing m with
  | ended step => exact (request_eq reached (poll_body_end _ h step)).2
  | failed => cases ended
  | chunk step _ ih =>
    have onward := (request_eq reached (poll_body_chunk _ h step)).2
    have done := ih ended onward (Message.getElem?_setPart _ h)
    rw [Message.setPart_setPart] at done
    rw [← done, Heard.add_length_answers_add]
  | waits step _ ih =>
    have onward := (request_eq reached (poll_body_waits _ h step)).2
    have done := ih ended onward (Message.getElem?_setPart _ h)
    rw [Message.setPart_setPart] at done
    rw [← done, Heard.add_length_answers_add]

/-- What is heard of a body is passed on, and after it its failure or what comes after the body. -/
theorem replies_of_polls {part last : FilePart} {progress : BodyProgress} {heard : Heard}
    (polls : part.Polls world n progress heard last)
    (reached : after poll world producer n = ⟨m, i, .body progress⟩)
    (h : m.parts[i]? = some (.file part)) (answers : List (Poll Item))
    (rest : heard.failure = none →
      Replies poll world producer (n + heard.answers.length + 1) answers) :
    Replies poll world producer n (heard.answers.map (Poll.map .ok) ++
      match heard.failure with
      | none => .ready (.ok HeaderBlock.crlf) :: answers
      | some e => [.ready (.error e)]) := by
  induction polls generalizing m with
  | ended step => exact .cons (request_eq reached (poll_body_end _ h step)).1 (rest rfl)
  | failed step =>
    obtain ⟨failed, done⟩ := request_eq reached (poll_body_error _ h step)
    exact .cons failed (replies_done done)
  | @chunk n p progress q later octets heard last step polls ih =>
    obtain ⟨given, onward⟩ := request_eq reached (poll_body_chunk _ h step)
    refine .cons given (ih onward (Message.getElem?_setPart _ h) ?_)
    intro ended
    rw [← Heard.add_length_answers_add n (.ready octets)]
    exact rest ended
  | @waits n p progress q later heard last step polls ih =>
    obtain ⟨waiting, onward⟩ := request_eq reached (poll_body_waits _ h step)
    refine .cons waiting (ih onward (Message.getElem?_setPart _ h) ?_)
    intro ended
    rw [← Heard.add_length_answers_add n .notReady]
    exact rest ended

/-- The induction is on the parts that are still to come. -/
theorem exists_answers {world : World} {last : Nat} {remaining : List Part}
    (reached : after poll (world.until last) producer n = ⟨m, i, .delimiter⟩)
    (h : m.parts.drop i = remaining) :
    ∃ answers, Answers (world.until last) m.delimiter m.closing n remaining answers ∧
      Replies poll (world.until last) producer n answers := by
  induction remaining generalizing n m i with
  | nil =>
    have outside := List.drop_eq_nil_iff.mp h
    obtain ⟨given, done⟩ := request_eq reached (poll_of_gives rfl (.closing outside))
    exact ⟨_, .ended, .cons given (replies_done done)⟩
  | cons part remaining ih =>
    obtain ⟨here, tail⟩ := Message.getElem?_of_drop h
    have inside := (List.getElem?_eq_some_iff.mp here).1
    obtain ⟨delimiter, atBlock⟩ := request_eq reached (poll_of_gives rfl (.delimiter inside))
    obtain ⟨block, atContent⟩ := request_eq atBlock (poll_of_gives rfl (.block here))
    have there := Message.getElem?_setPart part.block.2 here
    cases part with
    | scalar part =>
      obtain ⟨body, atTrailer⟩ := request_eq atContent (poll_of_gives rfl (.scalar there))
      obtain ⟨trailer, onward⟩ := request_eq atTrailer (poll_of_gives rfl .trailer)
      rw [Message.setPart_setPart] at onward
      obtain ⟨answers, laid, replies⟩ := ih onward ((m.drop_setPart i _).trans tail)
      exact ⟨_, .whole .scalar laid,
        .cons delimiter (.cons block (.cons body (.cons trailer replies)))⟩
    | file part =>
      obtain ⟨⟨heard, failure⟩, final, polls, hears⟩ :=
        FilePart.Polls.exists_hears world last (n + 1 + 1) part.block.2
      have replies := replies_of_polls polls atContent there
      cases failure with
      | some e => exact ⟨_, .cut hears.of_block, .cons delimiter (.cons block (replies [] nofun))⟩
      | none =>
        have onward := after_of_polls polls rfl atContent there
        have number : n + 1 + 1 + heard.length + 1 = n + 3 + heard.length := by omega
        rw [Message.setPart_setPart, number] at onward
        obtain ⟨answers, laid, rest⟩ := ih onward ((m.drop_setPart i _).trans tail)
        exact ⟨_, .whole hears.of_block laid,
          .cons delimiter (.cons block (replies answers fun _ => number ▸ rest))⟩

/-- What a waiting producer makes of its streams. The answers apart from those that nothing is ready
are what it gives without the waits, and there is one such answer for each wait. The content of each
part is passed on as it is heard. A stream that has ended, failed or given text is not asked
again. -/
theorem poll_streams (m : Message) (world : World) :
    let p : MessageProducer := { message := m }
    ((∀ n, ∃ k, Answered poll world p k ∧ n < k) ∧
      ∀ k, answer poll (answeredWorld poll world p) p.prompt k =
        answer poll world p (Nat.nth (Answered poll world p) k)) ∧
    (∀ n, answer poll world p n = .notReady ↔
      ∃ i s, (after poll world p n).awaited? = some (i, s) ∧ s.poll.1 = .notReady) ∧
    (∀ n, Nat.count (fun k => ¬ Answered poll world p k) n +
      (after poll world p n).message.waits = m.waits) ∧
    (∀ n, ∃ answers, Answers (world.until n) m.delimiter m.closing 0 m.parts answers ∧
      ∀ k ≤ n, answer poll world p k = reply answers k) ∧
    ∀ n i s, (after poll world p n).awaited? = some (i, s) → s.poll.1.goesOn = false →
      ∀ k, n < k → (∀ t, (after poll world p k).awaited? ≠ some (i, t)) ∧
        (after poll world p k).message.stream? i = some s.poll.2 := by
  intro p
  refine ⟨⟨exists_answered world p, answer_prompt world p⟩, ?_, count_notReady_add_waits world p,
    ?_, ?_⟩
  · intro n
    exact answer_eq_notReady_iff (tells_poll _ _)
  · intro n
    have begun : after poll (world.until n) p 0 = ⟨m, 0, .delimiter⟩ := rfl
    obtain ⟨answers, laid, replies⟩ := exists_answers begun (List.drop_zero (l := m.parts))
    refine ⟨answers, laid, ?_⟩
    intro k early
    rw [← replies k, Nat.zero_add, answer_until _ _ _ early]
  · intro n i s asked stopped k later
    have passed := passed_after_stopped asked stopped later
    exact ⟨passed.1.not_awaited, passed.2⟩

/-- Two streams that are not ready at once, the second of which fails. -/
theorem poll_streams_failing :
    let first : Stream := [.chunk [1], .notReady, .chunk [], .ended]
    let second : Stream := [.notReady, .failure "gone", .chunk [2]]
    let f : FilePart := { name := "f", filename := none, headers := .empty, source := .stream first }
    let g : FilePart := { name := "g", filename := none, headers := .empty, source := .stream second }
    let m : Message := ⟨⟨[0x42], by decide⟩, [.file f, .file g]⟩
    let world : World := .still .initial
    let p : MessageProducer := { message := m }
    (after poll world p 9).awaited? = some (1, [.failure "gone", .chunk [2]]) ∧
      (∀ k, 9 < k → (after poll world p k).message.stream? 1 = some [.chunk [2]]) ∧
      Nat.count (fun k => ¬ Answered poll world p k) 9 + (after poll world p 9).message.waits = 2 ∧
      answer poll (answeredWorld poll world p) p.prompt 7 =
        answer poll world p (Nat.nth (Answered poll world p) 7) := by
  intro first second f g m world p
  obtain ⟨⟨-, prompt⟩, -, counts, -, stops⟩ := poll_streams m world
  have asked : (after poll world p 9).awaited? = some (1, [.failure "gone", .chunk [2]]) := by
    decide
  have two : m.waits = 2 := by decide
  refine ⟨asked, ?_, (counts 9).trans two, prompt 7⟩
  intro k later
  exact (stops 9 1 _ asked rfl k later).2

end MessageProducer

end Multipart
