import Multipart.Proofs.Message.Answers
import Multipart.Proofs.Part.Alone

/-!
# A part in its message

Three loops pull the same body: two that render a part by itself and the one of a message. `Follows`
says that a message goes along with a part by itself, request by request, up to the end of the part
or to its failure. Only then do they differ: where the part has ended the message gives the line
break after it.
-/

namespace Multipart

open Requests

/-- A chunk, or the word that nothing is ready: more is to come of this part. -/
def Poll.Continues : Poll (Option Item) → Prop
  | .notReady | .ready (some (.ok _)) => True
  | .ready (some (.error _)) | .ready none => False

instance : DecidablePred Poll.Continues
  | .notReady | .ready (some (.ok _)) => isTrue trivial
  | .ready (some (.error _)) | .ready none => isFalse id

/-- What a message says where the part by itself says this. -/
def Poll.framed : Poll (Option Item) → Poll (Option Item)
  | .ready none => .ready (some (.ok HeaderBlock.crlf))
  | answer => answer

namespace MessageProducer

/-! ## Side by side -/

/-- The place to which an answer leads from the body of a part. -/
def placeAfter (i : Nat) (progress : BodyProgress) : Poll (Option Item) → Progress
  | .notReady | .ready (some (.ok _)) => ⟨i, .body progress⟩
  | .ready (some (.error _)) => ⟨i, .done⟩
  | .ready none => ⟨i + 1, .delimiter⟩

theorem placeAfter_of_continues (i : Nat) (progress : BodyProgress) {answer : Poll (Option Item)}
    (continues : answer.Continues) : placeAfter i progress answer = ⟨i, .body progress⟩ := by
  match answer, continues with
  | .notReady, _ | .ready (some (.ok _)), _ => rfl

theorem framed_of_continues {answer : Poll (Option Item)} (continues : answer.Continues) :
    answer.framed = answer := by
  match answer, continues with
  | .notReady, _ | .ready (some (.ok _)), _ => rfl

section Bodies

variable (fs : FileSystem) {m : Message} {i : Nat} {b : BodyProducer}
  (h : m.parts[i]? = some (.file b.part))

include h

theorem next_body :
    .ready (next fs ⟨m, i, .body b.progress⟩).value.1 = (Poll.ready (b.next fs).value.1).framed ∧
    (next fs ⟨m, i, .body b.progress⟩).value.2 =
      ⟨m.setPart i (.file (b.next fs).value.2.part),
        placeAfter i (b.next fs).value.2.progress (.ready (b.next fs).value.1)⟩ := by
  obtain ⟨step, q, later, pulled⟩ : ∃ step q later,
      (b.part.pull fs b.progress).value = (step, q, later) := ⟨_, _, _, rfl⟩
  have alone : (b.next fs).value = _ := BodyProducer.next_of_pull fs pulled
  match step with
  | .error e =>
    rw [alone, next_body_error fs h pulled]
    exact ⟨rfl, rfl⟩
  | .ok none =>
    rw [alone, next_body_end fs h pulled]
    exact ⟨rfl, rfl⟩
  | .ok (some octets) =>
    rw [alone, next_body_chunk fs h pulled]
    exact ⟨rfl, rfl⟩

theorem poll_body :
    (poll fs ⟨m, i, .body b.progress⟩).value.1 = (b.poll fs).value.1.framed ∧
    (poll fs ⟨m, i, .body b.progress⟩).value.2 =
      ⟨m.setPart i (.file (b.poll fs).value.2.part),
        placeAfter i (b.poll fs).value.2.progress (b.poll fs).value.1⟩ := by
  obtain ⟨answer, q, later, polled⟩ : ∃ answer q later,
      (b.part.poll fs b.progress).value = (answer, q, later) := ⟨_, _, _, rfl⟩
  have alone := BodyProducer.poll_of_poll fs polled
  match answer with
  | .notReady =>
    obtain rfl := FilePart.progress_poll_of_notReady polled
    rw [alone, poll_body_waits fs h polled]
    exact ⟨rfl, rfl⟩
  | .ready (.error e) =>
    rw [alone, poll_body_error fs h polled]
    exact ⟨rfl, rfl⟩
  | .ready (.ok none) =>
    rw [alone, poll_body_end fs h polled]
    exact ⟨rfl, rfl⟩
  | .ready (.ok (some octets)) =>
    rw [alone, poll_body_chunk fs h polled]
    exact ⟨rfl, rfl⟩

end Bodies

/-- From request `n` on a message goes along with a part by itself, which says `own` at each request.
When that has ended the message is left as `left` says, and when it has failed there is nothing
more. -/
structure Follows {α : Type} (reply : α → Poll (Option Item))
    (next : FileSystem → MessageProducer → Traced (α × MessageProducer)) (world : World)
    (producer : MessageProducer) (n : Nat) (own : Nat → Poll (Option Item))
    (left : Nat → MessageProducer) : Prop where
  answers : ∀ k, (∀ j < k, (own j).Continues) →
    reply (answer next world producer (n + k)) = (own k).framed
  ended : ∀ k, (∀ j < k, (own j).Continues) → own k = .ready none →
    after next world producer (n + k + 1) = left k
  failed : ∀ k e, (∀ j < k, (own j).Continues) → own k = .ready (some (.error e)) →
    ∀ j, k < j → reply (answer next world producer (n + j)) = .ready none

/-- In the body of a part the message makes the same steps as the body by itself, and none after its
end. -/
structure InStep {α : Type} (reply : α → Poll (Option Item))
    (next : FileSystem → MessageProducer → Traced (α × MessageProducer))
    (alone : FileSystem → BodyProducer → Traced (α × BodyProducer)) : Prop where
  body : ∀ (fs : FileSystem) {m : Message} {i : Nat} {b : BodyProducer},
    m.parts[i]? = some (.file b.part) →
    reply (next fs ⟨m, i, .body b.progress⟩).value.1 = (reply (alone fs b).value.1).framed ∧
    (next fs ⟨m, i, .body b.progress⟩).value.2 =
      ⟨m.setPart i (.file (alone fs b).value.2.part),
        placeAfter i (alone fs b).value.2.progress (reply (alone fs b).value.1)⟩
  done : ∃ silence, reply silence = .ready none ∧
    ∀ fs m i, (next fs ⟨m, i, .done⟩).value = (silence, ⟨m, i, .done⟩)

theorem inStep_next : InStep .ready next BodyProducer.next where
  body := next_body
  done := ⟨none, rfl, fun fs _ _ => next_done fs⟩

theorem inStep_poll : InStep id poll BodyProducer.poll where
  body := poll_body
  done := ⟨.ready none, rfl, fun _ _ _ => poll_of_gives rfl .done⟩

section Lockstep

variable {α : Type} {reply : α → Poll (Option Item)}
  {next : FileSystem → MessageProducer → Traced (α × MessageProducer)}
  {alone : FileSystem → BodyProducer → Traced (α × BodyProducer)}
  {world : World} {producer : MessageProducer} {n i : Nat} {m : Message}
  {own : Nat → Poll (Option Item)} {left : Nat → MessageProducer}

theorem Follows.cons (continues : (own 0).Continues)
    (first : reply (answer next world producer n) = own 0)
    (rest : Follows reply next world producer (n + 1) (fun k => own (k + 1))
      (fun k => left (k + 1))) :
    Follows reply next world producer n own left := by
  have number (k : Nat) : n + 1 + k = n + (k + 1) := by omega
  have onward {k : Nat} (before : ∀ j < k + 1, (own j).Continues) :
      ∀ j < k, (own (j + 1)).Continues := fun j early => before (j + 1) (by omega)
  refine ⟨?_, ?_, ?_⟩
  · intro k before
    cases k with
    | zero => rw [Nat.add_zero, first, framed_of_continues continues]
    | succ k =>
      rw [← number]
      exact rest.answers k (onward before)
  · intro k before ended
    cases k with
    | zero => rw [ended] at continues; exact continues.elim
    | succ k =>
      rw [← number]
      exact rest.ended k (onward before) ended
  · intro k e before failed j later
    cases k with
    | zero => rw [failed] at continues; exact continues.elim
    | succ k =>
      obtain ⟨j, rfl⟩ := Nat.exists_eq_add_of_lt later
      have := rest.failed k e (onward before) failed (k + j + 1) (by omega)
      rw [number] at this
      rwa [Nat.add_right_comm k 1 j]

theorem Follows.of_end (ended : own 0 = .ready none)
    (given : reply (answer next world producer n) = .ready (some (.ok HeaderBlock.crlf)))
    (onward : after next world producer (n + 1) = left 0) :
    Follows reply next world producer n own left := by
  have first {k : Nat} (continues : ∀ j < k, (own j).Continues) : k = 0 := by
    by_contra more
    have before := continues 0 (Nat.pos_of_ne_zero more)
    rw [ended] at before
    exact before
  refine ⟨?_, ?_, ?_⟩
  · intro k continues
    obtain rfl := first continues
    rw [Nat.add_zero, given, ended]
    rfl
  · intro k continues _
    obtain rfl := first continues
    exact onward
  · intro k e continues failed
    obtain rfl := first continues
    cases ended.symm.trans failed

theorem Follows.congr {other : Nat → Poll (Option Item)} {left' : Nat → MessageProducer}
    (follows : Follows reply next world producer n own left) (same : ∀ k, other k = own k)
    (sameLeft : ∀ k, left' k = left k) : Follows reply next world producer n other left' := by
  obtain rfl := funext same
  obtain rfl := funext sameLeft
  exact follows

section Bodies

variable (together : InStep reply next alone) {b : BodyProducer}
  (h : m.parts[i]? = some (.file b.part))
  (reached : after next world producer n = ⟨m, i, .body b.progress⟩)

include together h reached

/-- The induction is on the requests. While the body goes on, the message holds the part as the body
by itself has left it. -/
theorem after_body (k : Nat)
    (continues : ∀ j < k, (reply (answer alone (world.later n) b j)).Continues) :
    after next world producer (n + k) =
      ⟨m.setPart i (.file (after alone (world.later n) b k).part), i,
        .body (after alone (world.later n) b k).progress⟩ := by
  induction k with
  | zero =>
    rw [Nat.add_zero, after_zero, Message.setPart_self h]
    exact reached
  | succ k ih =>
    have before := ih fun j early => continues j (by omega)
    have here := continues k (by omega)
    have moved := (together.body (world (n + k)) (Message.getElem?_setPart
      (.file (after alone (world.later n) b k).part) h)).2
    rw [← Nat.add_assoc, after_succ, before, moved, Message.setPart_setPart]
    exact congrArg _ (placeAfter_of_continues i _ here)

theorem request_body (k : Nat)
    (continues : ∀ j < k, (reply (answer alone (world.later n) b j)).Continues) :
    reply (answer next world producer (n + k)) =
      (reply (answer alone (world.later n) b k)).framed ∧
    after next world producer (n + k + 1) =
      ⟨m.setPart i (.file (after alone (world.later n) b (k + 1)).part),
        placeAfter i (after alone (world.later n) b (k + 1)).progress
          (reply (answer alone (world.later n) b k))⟩ := by
  have before := after_body together h reached k continues
  obtain ⟨said, moved⟩ := together.body (world (n + k)) (Message.getElem?_setPart
    (.file (after alone (world.later n) b k).part) h)
  rw [Message.setPart_setPart] at moved
  rw [after_succ, answer, before]
  exact ⟨said, moved⟩

theorem follows_body :
    Follows reply next world producer n (fun k => reply (answer alone (world.later n) b k))
      (fun k => ⟨m.setPart i (.file (after alone (world.later n) b (k + 1)).part), i + 1,
        .delimiter⟩) := by
  refine ⟨?_, ?_, ?_⟩
  · intro k continues
    exact (request_body together h reached k continues).1
  · intro k continues ended
    rw [(request_body together h reached k continues).2, ended]
    rfl
  · intro k e continues failed j later
    have stopped := (request_body together h reached k continues).2
    rw [failed] at stopped
    obtain ⟨silence, silent, done⟩ := together.done
    obtain ⟨d, rfl⟩ := Nat.exists_eq_add_of_lt later
    have quiet := answer_of_fixed (fun fs => done fs _ i) stopped d
    rw [show n + (k + d + 1) = n + k + 1 + d by omega, quiet, silent]

end Bodies

end Lockstep

/-! ## Parts that are still to come -/

/-- The first part that nothing has been asked of. -/
def upcoming (p : MessageProducer) : Nat :=
  if p.progress.phase = .delimiter then p.progress.index else p.progress.index + 1

/-- The message is still as it was from the upcoming part on. -/
structure Untouched (m : Message) (p : MessageProducer) : Prop where
  boundary : p.message.boundary = m.boundary
  parts : ∀ j, p.upcoming ≤ j → p.message.parts[j]? = m.parts[j]?

section Untouched

variable {fs : FileSystem} {m : Message} {p q : MessageProducer}

theorem Untouched.start (m : Message) : Untouched m { message := m } :=
  ⟨rfl, fun _ _ => rfl⟩

theorem Untouched.setPart (untouched : Untouched m p) {part : Part} {progress : Progress}
    (begun : p.progress.phase ≠ .delimiter)
    (onward : p.progress.index < upcoming ⟨p.message, progress⟩) :
    Untouched m ⟨p.message.setPart p.progress.index part, progress⟩ := by
  refine ⟨untouched.boundary, ?_⟩
  intro j later
  have ahead : p.progress.index < j := Nat.lt_of_lt_of_le onward later
  rw [Message.getElem?_setPart_of_ne _ _ (Nat.ne_of_lt ahead)]
  refine untouched.parts j ?_
  rw [upcoming, if_neg begun]
  exact ahead

theorem Untouched.of_progress (untouched : Untouched m p) {progress : Progress}
    (onward : p.upcoming ≤ upcoming ⟨p.message, progress⟩) :
    Untouched m ⟨p.message, progress⟩ :=
  ⟨untouched.boundary, fun j later => untouched.parts j (Nat.le_trans onward later)⟩

theorem Untouched.of_gives {item : Option Item} (untouched : Untouched m p)
    (gives : Gives fs p item q) : Untouched m q := by
  cases gives with
  | delimiter | closing | trailer | done | noPart | noScalar | noFile =>
    exact untouched.of_progress (by simp [upcoming])
  | scalar | chunk | failure | bodyEnd =>
    exact untouched.setPart nofun (by simp [upcoming])
  | @block _ _ part =>
    refine untouched.setPart nofun ?_
    cases part <;> simp [upcoming, Progress.contentPhase]

theorem Untouched.of_tells {answer : Poll (Option Item)} (untouched : Untouched m p)
    (tells : Tells fs p answer q) : Untouched m q := by
  cases tells with
  | gives _ gives => exact untouched.of_gives gives
  | @asks _ _ _ _ s =>
    refine untouched.setPart nofun ?_
    cases s.poll.1 <;> simp [upcoming, emissionPlace]

theorem untouched_next (m : Message) (world : World) (n : Nat) :
    Untouched m (after next world { message := m } n) :=
  after_invariant next world _ (.start m)
    (fun fs p untouched => untouched.of_gives (gives_next fs p)) n

theorem untouched_poll (m : Message) (world : World) (n : Nat) :
    Untouched m (after poll world { message := m } n) :=
  after_invariant poll world _ (.start m)
    (fun fs p untouched => untouched.of_tells (tells_poll fs p)) n

theorem Untouched.here {m' : Message} {i : Nat} (untouched : Untouched m ⟨m', i, .delimiter⟩) :
    m'.parts[i]? = m.parts[i]? ∧ m'.delimiter = m.delimiter := by
  refine ⟨untouched.parts i (Nat.le_refl i), ?_⟩
  rw [Message.delimiter, Message.delimiter, untouched.boundary]

end Untouched

/-! ## Whole parts -/

section Whole

variable {world : World} {producer : MessageProducer} {n i : Nat} {m : Message}

/-- From the delimiter before it on, a part is given as it is given by itself. -/
theorem follows_alone {part : Part} (here : m.parts[i]? = some part)
    (reached : after next world producer n = ⟨m, i, .delimiter⟩) :
    answer next world producer n = some (.ok m.delimiter) ∧
    Follows .ready next world producer (n + 1)
      (fun k => .ready (part.alone (world.later (n + 1)) k))
      (fun k => ⟨m.setPart i (part.afterAlone (world.later (n + 1)) (k + 1)), i + 1,
        .delimiter⟩) := by
  have inside := (List.getElem?_eq_some_iff.mp here).1
  obtain ⟨delimiter, atBlock⟩ := request_eq reached (next_delimiter _ inside)
  refine ⟨delimiter, ?_⟩
  obtain ⟨block, atContent⟩ := request_eq atBlock (next_block _ here)
  have there := Message.getElem?_setPart part.block.2 here
  cases part with
  | scalar p =>
    obtain ⟨body, atTrailer⟩ := request_eq atContent (next_scalar _ there)
    obtain ⟨trailer, onward⟩ := request_eq atTrailer (next_trailer _)
    rw [Message.setPart_setPart] at onward
    refine .cons trivial (congrArg _ block) (.cons trivial (congrArg _ body) ?_)
    exact .of_end rfl (congrArg _ trailer) onward
  | file p =>
    have files (k : Nat) : world.later (n + 1) (k + 1) = world.later (n + 1 + 1) k :=
      congrArg world (by omega)
    refine .cons trivial (congrArg _ block) ?_
    refine (follows_body inStep_next (b := { part := p.block.2 }) there atContent).congr ?_ ?_
    · intro k
      rw [Part.alone, PartProducer.answer_render, funext files]
    · intro k
      rw [Part.afterAlone, PartProducer.after_render, funext files, Message.setPart_setPart]

/-- A waiting producer gives the body of a file as it is awaited by itself. -/
theorem follows_awaited {p : FilePart} (here : m.parts[i]? = some (.file p))
    (reached : after poll world producer n = ⟨m, i, .delimiter⟩) :
    answer poll world producer n = .ready (some (.ok m.delimiter)) ∧
    answer poll world producer (n + 1) = .ready (some (.ok p.block.1)) ∧
    Follows id poll world producer (n + 2)
      (answer BodyProducer.poll (world.later (n + 2)) { part := p })
      (fun k => ⟨m.setPart i (.file ((after BodyProducer.poll (world.later (n + 2)) { part := p }
        (k + 1)).part.withBlock p.block.1)), i + 1, .delimiter⟩) := by
  have inside := (List.getElem?_eq_some_iff.mp here).1
  obtain ⟨delimiter, atBlock⟩ := request_eq reached (poll_of_gives rfl (.delimiter inside))
  obtain ⟨block, atContent⟩ := request_eq atBlock (poll_of_gives rfl (.block here))
  have there := Message.getElem?_setPart (.file p.block.2) here
  refine ⟨delimiter, block, ?_⟩
  refine (follows_body inStep_poll (b := { part := p.block.2 }) there atContent).congr ?_ ?_
  · intro k
    exact (answer_map (BodyProducer.poll_withBlock p.block.1) k).symm
  · intro k
    have same : after BodyProducer.poll (world.later (n + 2))
          (BodyProducer.withBlock p.block.1 { part := p }) (k + 1) =
        (after BodyProducer.poll (world.later (n + 2)) { part := p } (k + 1)).withBlock p.block.1 :=
      after_map (BodyProducer.poll_withBlock p.block.1) (k + 1)
    rw [Message.setPart_setPart]
    exact congrArg (fun b : BodyProducer =>
      (⟨m.setPart i (.file b.part), i + 1, .delimiter⟩ : MessageProducer)) same.symm

end Whole

/-- A message in any state gives each part that it comes to as the part is given by itself: header
block and body if it is asked without waiting, and if it is awaited the body, with the times when
nothing is ready. It does so up to the end of the part or to its failure. A body that is asked for by
itself gives nothing after that, whatever its files and its source are then. -/
theorem parts_alone (m : Message) (world : World) :
    let p : MessageProducer := { message := m }
    (∀ n m' i part, after next world p n = ⟨m', i, .delimiter⟩ → m.parts[i]? = some part →
      answer next world p n = some (.ok m.delimiter) ∧
      Follows .ready next world p (n + 1)
        (fun k => .ready (part.alone (world.later (n + 1)) k))
        (fun k => ⟨m'.setPart i (part.afterAlone (world.later (n + 1)) (k + 1)), i + 1,
          .delimiter⟩)) ∧
    (∀ n m' i f, after poll world p n = ⟨m', i, .delimiter⟩ → m.parts[i]? = some (.file f) →
      answer poll world p n = .ready (some (.ok m.delimiter)) ∧
      answer poll world p (n + 1) = .ready (some (.ok f.block.1)) ∧
      Follows id poll world p (n + 2)
        (answer BodyProducer.poll (world.later (n + 2)) { part := f })
        (fun k => ⟨m'.setPart i (.file ((after BodyProducer.poll (world.later (n + 2)) { part := f }
          (k + 1)).part.withBlock f.block.1)), i + 1, .delimiter⟩)) ∧
    ∀ (f : FilePart) (k : Nat),
      (∀ octets, answer BodyProducer.next world { part := f } k ≠ some (.ok octets)) →
      ∃ last, last.Finished ∧
        ∀ j, k < j → after BodyProducer.next world { part := f } j = last ∧
          answer BodyProducer.next world { part := f } j = none := by
  intro p
  refine ⟨?_, ?_, fun f _ => BodyProducer.fused world f⟩
  · intro n m' i part reached found
    have untouched := untouched_next m world n
    rw [reached] at untouched
    obtain ⟨here, delimiter⟩ := untouched.here
    rw [← delimiter]
    exact follows_alone (here.trans found) reached
  · intro n m' i f reached found
    have untouched := untouched_poll m world n
    rw [reached] at untouched
    obtain ⟨here, delimiter⟩ := untouched.here
    rw [← delimiter]
    exact follows_awaited (here.trans found) reached

/-- A cursor after a scalar, and a stream that fails after it was not ready. -/
theorem parts_alone_failing :
    let f : FilePart :=
      { name := "f"
        filename := none
        headers := .empty
        source := .reader (.cursor [1, 2, 3] 1)
        chunkSize := ⟨2, by decide⟩ }
    let g : FilePart :=
      { name := "g"
        filename := none
        headers := .empty
        source := .stream [.notReady, .chunk [4], .failure "gone", .chunk [5]] }
    let m : Message :=
      ⟨⟨[0x42], by decide⟩, [.scalar { name := "a", value := .null }, .file f, .file g]⟩
    let world : World := .still .initial
    let p : MessageProducer := { message := m }
    (answer next world p 7 = some (.ok [3]) ∧
      ∃ m', after next world p 9 = ⟨m', 2, .delimiter⟩) ∧
    (answer poll world p 13 = .ready (some (.error (.io none (.other "gone")))) ∧
      ∀ j, 2 < j → answer poll world p (11 + j) = .ready none) ∧
    ∃ last, last.Finished ∧
      ∀ j, 0 < j → after BodyProducer.next world { part := g } j = last ∧
        answer BodyProducer.next world { part := g } j = none := by
  intro f g m world p
  obtain ⟨asked, awaited, fused⟩ := parts_alone m world
  have atCursor : after next world p 4 = ⟨(after next world p 4).message, 1, .delimiter⟩ := by decide
  have atStream : after poll world p 9 = ⟨(after poll world p 9).message, 2, .delimiter⟩ := by
    decide
  obtain ⟨-, cursor⟩ := asked 4 _ 1 _ atCursor rfl
  obtain ⟨-, -, stream⟩ := awaited 9 _ 2 _ atStream rfl
  refine ⟨⟨Poll.ready.inj ?_, _, cursor.ended 3 (by decide) (by decide)⟩, ⟨?_, ?_⟩, ?_⟩
  · exact (cursor.answers 2 (by decide)).trans (by decide)
  · have failed := stream.answers 2 (by decide)
    rw [id_eq] at failed
    exact failed.trans (by decide)
  · simpa only [id_eq, Nat.reduceAdd] using
      stream.failed 2 (.io none (.other "gone")) (by decide) (by decide)
  · have refused : answer BodyProducer.next world { part := g } 0 =
        some (.error (.invalid .streamNotAwaited)) := by decide
    exact fused g 0 (by simp [refused])

end MessageProducer

end Multipart
