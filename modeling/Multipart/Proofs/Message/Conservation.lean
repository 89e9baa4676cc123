import Multipart.Proofs.Message.Advance
import Multipart.Proofs.Part.Conservation

/-!
# What a message delivers of a source

The chunks that all renderings of a message together give in the body of a part, and what the source
of that part has not given yet, are what it had to give at first.
-/

namespace Multipart

namespace MessageProducer

/-- The octets that a request delivers of the body of part `i`: a chunk that is given in this body,
which then goes on. The line break after the body is no part of it. -/
def bodyOctets (i : Nat) (before : MessageProducer) (item : Option Item)
    (after : MessageProducer) : Bytes :=
  match before.progress.body?, after.progress.body? with
  | some (j, _), some (k, _) => if j = i ∧ k = i then itemOctets item else []
  | _, _ => []

def pollOctets (i : Nat) (before : MessageProducer) (answer : Poll (Option Item))
    (after : MessageProducer) : Bytes :=
  bodyOctets i before answer.item? after

/-- Part `i` is a file that is rendered from a source which goes one way. -/
structure Carries (i : Nat) (p : MessageProducer) (f : FilePart) : Prop where
  part : p.message.parts[i]? = some (.file f)
  oneWay : f.OneWay
  unopened : ∀ progress, p.progress.body? = some (i, progress) → progress.Unopened

/-- The producer has given some octets of the source of `f`, which is part `i`. -/
def Given (i : Nat) (f : FilePart) (octets : Bytes) (q : MessageProducer) : Prop :=
  ∃ g, Carries i q g ∧ f.Passes octets g

variable {fs : FileSystem} {p q : MessageProducer} {item : Option Item} {i : Nat} {f : FilePart}

namespace Carries

theorem elsewhere (carries : Carries i p f)
    (part : q.message.parts[i]? = p.message.parts[i]?)
    (away : ∀ progress, q.progress.body? ≠ some (i, progress)) : Given i f [] q := by
  refine ⟨f, ⟨part.trans carries.part, carries.oneWay, ?_⟩, carries.oneWay.passes_self⟩
  intro progress here
  exact absurd here (away progress)

theorem here {m : Message} {g : Progress} {old after : FilePart} {octets : Bytes}
    (h : m.parts[i]? = some (.file old)) (passes : f.Passes octets after)
    (unopened : ∀ progress, g.body? = some (i, progress) → progress.Unopened) :
    Given i f octets ⟨m.setPart i (.file after), g⟩ :=
  ⟨after, ⟨Message.getElem?_setPart _ h, passes.oneWay, unopened⟩, passes⟩

theorem bodyOctets_of_ne {m m' : Message} {g : Progress} {j : Nat} {progress : BodyProgress}
    (different : j ≠ i) (item : Option Item) :
    bodyOctets i ⟨m, j, .body progress⟩ item ⟨m', g⟩ = [] := by
  unfold bodyOctets
  generalize g.body? = later
  cases later with
  | none => rfl
  | some place => exact if_neg fun same => different same.1

theorem bodyOctets_chunk (m m' : Message) (i : Nat) (progress later : BodyProgress)
    (item : Option Item) :
    bodyOctets i ⟨m, i, .body progress⟩ item ⟨m', i, .body later⟩ = itemOctets item :=
  if_pos ⟨rfl, rfl⟩

theorem of_body {m : Message} {j : Nat} {part after : FilePart} {progress : BodyProgress}
    (carries : Carries i ⟨m, j, .body progress⟩ f) (h : m.parts[j]? = some (.file part))
    {g : Progress} (stays : ∀ k later, g.body? = some (k, later) → k = j)
    (step : part.OneWay → progress.Unopened →
      part.Passes (bodyOctets j ⟨m, j, .body progress⟩ item ⟨m.setPart j (.file after), g⟩) after ∧
        ∀ later, g.body? = some (j, later) → later.Unopened) :
    Given i f (bodyOctets i ⟨m, j, .body progress⟩ item ⟨m.setPart j (.file after), g⟩)
      ⟨m.setPart j (.file after), g⟩ := by
  by_cases same : j = i
  · subst same
    cases h.symm.trans carries.part
    obtain ⟨passes, unopened⟩ := step carries.oneWay (carries.unopened progress rfl)
    exact Carries.here h passes unopened
  · rw [bodyOctets_of_ne same]
    refine carries.elsewhere (m.getElem?_setPart_of_ne _ same) ?_
    intro later begun
    exact same (stays _ _ begun).symm

theorem of_gives (carries : Carries i p f) (gives : Gives fs p item q) :
    Given i f (bodyOctets i p item q) q := by
  cases gives with
  | delimiter | closing | trailer | done | noPart | noScalar | noFile =>
    exact carries.elsewhere rfl nofun
  | @block m j part h =>
    by_cases same : j = i
    · subst same
      cases h.symm.trans carries.part
      refine Carries.here h ⟨rfl, carries.oneWay.block⟩ ?_
      intro progress begun
      cases begun
      exact trivial
    · refine carries.elsewhere (m.getElem?_setPart_of_ne _ same) ?_
      intro progress begun
      cases part with
      | scalar => cases begun
      | file => exact same (congrArg Prod.fst (Option.some.inj begun))
  | @scalar m j part h =>
    have different : j ≠ i := by
      rintro rfl
      cases h.symm.trans carries.part
    exact carries.elsewhere (m.getElem?_setPart_of_ne _ different) nofun
  | @chunk m j part progress octets after later h step =>
    refine carries.of_body h (by rintro k _ ⟨⟩; rfl) ?_
    intro oneWay unopened
    obtain ⟨passes, unopened⟩ := oneWay.pull unopened step
    rw [bodyOctets_chunk]
    refine ⟨passes, ?_⟩
    rintro _ ⟨⟩
    exact unopened
  | failure h step | bodyEnd h step =>
    refine carries.of_body h nofun ?_
    intro oneWay unopened
    exact ⟨(oneWay.pull unopened step).1, nofun⟩

theorem of_tells (carries : Carries i p f) {answer : Poll (Option Item)}
    (tells : Tells fs p answer q) : Given i f (pollOctets i p answer q) q := by
  cases tells with
  | gives _ gives => exact carries.of_gives gives
  | @asks m j progress part s h source ongoing =>
    refine carries.of_body h ?_ ?_
    · intro k later begun
      cases emission : s.poll.1 <;> rw [emission] at begun <;> cases begun <;> rfl
    · intro oneWay unopened
      obtain ⟨emitted, passes⟩ := oneWay.stream source
      cases emission : s.poll.1 with
      | text | failure => rw [emission] at emitted; exact emitted.elim
      | ended =>
        rw [emission] at passes
        exact ⟨passes, nofun⟩
      | chunk | notReady =>
        rw [emission] at passes
        simp only [emissionPlace, bodyOctets_chunk]
        refine ⟨passes, ?_⟩
        rintro _ ⟨⟩
        exact unopened

end Carries

namespace Given

variable {octets : Bytes} (fs : FileSystem)

theorem start {m : Message} (h : m.parts[i]? = some (.file f)) (oneWay : f.OneWay) :
    Given i f [] { message := m } :=
  ⟨f, ⟨h, oneWay, nofun⟩, oneWay.passes_self⟩

theorem next (given : Given i f octets p) :
    Given i f (octets ++ bodyOctets i p (p.next fs).value.1 (p.next fs).value.2)
      (p.next fs).value.2 := by
  obtain ⟨g, carries, passes⟩ := given
  obtain ⟨h, onward, more⟩ := carries.of_gives (gives_next fs p)
  exact ⟨h, onward, passes.trans more⟩

theorem poll (given : Given i f octets p) :
    Given i f (octets ++ pollOctets i p (p.poll fs).value.1 (p.poll fs).value.2)
      (p.poll fs).value.2 := by
  obtain ⟨g, carries, passes⟩ := given
  obtain ⟨h, onward, more⟩ := carries.of_tells (tells_poll fs p)
  exact ⟨h, onward, passes.trans more⟩

end Given

end MessageProducer

/-! ## Operations -/

namespace Message

open Requests

variable {m : Message} {i : Nat} {f : FilePart}

/-- What an operation delivers of the body of part `i`. -/
def Operation.delivered (i : Nat) (m : Message) : Operation → Bytes
  | .length .. | .headers .. => []
  | .encode build fs =>
    match (m.length? build fs).value with
    | (.error _, _) => []
    | (.ok size, measured) =>
      if largestBuffer < size.getD 0 then []
      else
        Requests.delivered (MessageProducer.bodyOctets i) MessageProducer.next (.still fs)
          { message := measured } (MessageProducer.run fs { message := measured }).value.requests
  | .iterate world n =>
    Requests.delivered (MessageProducer.bodyOctets i) MessageProducer.next world
      { message := m } n
  | .await world n =>
    Requests.delivered (MessageProducer.pollOctets i) MessageProducer.poll world
      { message := m } n

def delivered (i : Nat) (m : Message) : List Operation → Bytes
  | [] => []
  | operation :: operations =>
    operation.delivered i m ++ (m.apply operation).delivered i operations

theorem Measures.getElem? {build : Build} {fs : FileSystem} {boundary total : Nat}
    {parts parts' : List Part} {told : Except Panic (Option Nat)} {part : Part}
    (measures : Measures build fs boundary total parts told parts') (h : parts[i]? = some part) :
    ∃ after, parts'[i]? = some after ∧ part.Measured build fs after := by
  have each := measures.each
  clear measures
  induction each generalizing i with
  | nil => cases h
  | cons measured _ ih =>
    cases i with
    | zero =>
      cases h
      exact ⟨_, rfl, measured⟩
    | succ i => exact ih h

/-- Measuring a message takes nothing from the source of a file. -/
theorem passes_length? (build : Build) (fs : FileSystem) (h : m.parts[i]? = some (.file f))
    (oneWay : f.OneWay) :
    ∃ g, (m.length? build fs).value.2.parts[i]? = some (.file g) ∧ g.source = f.source ∧
      f.Passes [] g := by
  obtain ⟨after, found, same | measured⟩ :=
    (Measures.of_partsLength? build fs m.boundary.bytes.length 0 m.parts).getElem? h
  · subst same
    exact ⟨f, found, rfl, oneWay.passes_self⟩
  · subst measured
    have keeps : FilePart.Operation.KeepsSource (.length build fs) := trivial
    exact ⟨_, found, f.source_length? build fs, oneWay.apply keeps⟩

theorem passes_apply (h : m.parts[i]? = some (.file f)) (oneWay : f.OneWay)
    (operation : Operation) :
    ∃ g, (m.apply operation).parts[i]? = some (.file g) ∧
      f.Passes (operation.delivered i m) g := by
  cases operation with
  | length build fs =>
    obtain ⟨g, found, -, passes⟩ := passes_length? build fs h oneWay
    exact ⟨g, found, passes⟩
  | headers build fs =>
    obtain ⟨g, found, -, passes⟩ := passes_length? build fs h oneWay
    rw [apply, Advanced.requestHeaders_message]
    exact ⟨g, found, passes⟩
  | iterate world n =>
    obtain ⟨g, carries, passes⟩ := delivered_induction (R := MessageProducer.Given i f)
      (.start h oneWay) (fun fs _ _ given => given.next fs) world n
    exact ⟨g, carries.part, passes⟩
  | await world n =>
    obtain ⟨g, carries, passes⟩ := delivered_induction (R := MessageProducer.Given i f)
      (.start h oneWay) (fun fs _ _ given => given.poll fs) world n
    exact ⟨g, carries.part, passes⟩
  | encode build fs =>
    obtain ⟨k, found, -, before⟩ := passes_length? build fs h oneWay
    simp only [apply, encode, Operation.delivered, Traced.value_bind]
    generalize (m.length? build fs).value = measured at found ⊢
    obtain ⟨told, measured⟩ := measured
    cases told with
    | error cause => exact ⟨k, found, before⟩
    | ok size =>
      dsimp only
      split
      · exact ⟨k, found, before⟩
      · have begun := MessageProducer.Given.start found before.oneWay
        obtain ⟨g, carries, passes⟩ := delivered_induction (R := MessageProducer.Given i k) begun
          (fun fs _ _ given => given.next fs) (.still fs)
          (MessageProducer.run fs { message := measured }).value.requests
        refine ⟨g, ?_, before.trans passes⟩
        rw [MessageProducer.run, ← producer_collect] at carries
        exact carries.part

theorem passes_applyAll (h : m.parts[i]? = some (.file f)) (oneWay : f.OneWay)
    (operations : List Operation) :
    ∃ g, (m.applyAll operations).parts[i]? = some (.file g) ∧
      f.Passes (m.delivered i operations) g := by
  induction operations generalizing m f with
  | nil => exact ⟨f, h, oneWay.passes_self⟩
  | cons operation operations ih =>
    obtain ⟨g, found, passes⟩ := passes_apply h oneWay operation
    obtain ⟨k, there, more⟩ := ih found passes.oneWay
    exact ⟨k, there, passes.trans more⟩

theorem streams_after_next (world : World) (m : Message) (n : Nat) :
    (after MessageProducer.next world { message := m } n).message.streams = m.streams := by
  refine after_invariant (P := fun p => p.message.streams = m.streams) MessageProducer.next world
    { message := m } rfl ?_ n
  intro fs p same
  exact (MessageProducer.streams_of_gives (MessageProducer.gives_next fs p)).trans same

/-- Whatever is done with a part whose source goes one way, or with a message that has such a part,
the chunks of the body that were delivered and what the source has not given yet are together what
it had to give at first. To measure takes nothing from the source, and neither does a blocking
producer that refuses a stream. -/
theorem delivered_append_unread {p : FilePart} (oneWay : p.OneWay) :
    (∀ operations : List FilePart.Operation, (∀ operation ∈ operations, operation.KeepsSource) →
      p.delivered operations ++ (p.applyAll operations).source.unread = p.source.unread) ∧
    (∀ build fs, (p.length? build fs).value.2.source = p.source) ∧
    (∀ stream, p.source = .stream stream → ∀ world n,
      answer BodyProducer.next world { part := p } 0 =
          some (.error (.invalid .streamNotAwaited)) ∧
        (after BodyProducer.next world { part := p } n).part.source = p.source) ∧
    ∀ (m : Message) (i : Nat), m.parts[i]? = some (.file p) →
      (∀ operations : List Operation, ∃ q, (m.applyAll operations).parts[i]? = some (.file q) ∧
        m.delivered i operations ++ q.source.unread = p.source.unread) ∧
      (∀ build fs, ∃ q, (m.length? build fs).value.2.parts[i]? = some (.file q) ∧
        q.source = p.source) ∧
      ∀ world n,
        (after MessageProducer.next world { message := m } n).message.stream? i = m.stream? i := by
  refine ⟨?_, p.source_length?, ?_, ?_⟩
  · intro operations keeps
    exact (oneWay.applyAll keeps).unread
  · intro stream source world n
    exact FilePart.next_of_stream oneWay.heldBody_eq source n
  · intro m i h
    refine ⟨?_, ?_, ?_⟩
    · intro operations
      obtain ⟨q, found, passes⟩ := passes_applyAll h oneWay operations
      exact ⟨q, found, passes.unread⟩
    · intro build fs
      obtain ⟨q, found, same, -⟩ := passes_length? build fs h oneWay
      exact ⟨q, found, same⟩
    · intro world n
      rw [stream?, streams_after_next, stream?]

/-- A reader with short, interrupted and empty reads, which is rendered by itself in chunks of two
and then as part of a message, with all renderings given up on the way. -/
theorem delivered_append_unread_interrupted :
    let script : Script :=
      { whole := [.data [1, 2, 3], .interrupted, .data [4], .data [], .data [5, 6, 7]]
        rewinding := .ignores }
    let p : FilePart :=
      { name := "f", filename := none, headers := .empty, source := .reader (.script script) }
    let world : World := .still .initial
    let operations : List FilePart.Operation :=
      [.resize 2, .data world 1, .length .checked .initial, .await world 2, .render world 2]
    let q := p.applyAll operations
    let m : Message := ⟨⟨[0x42], by decide⟩, [.file q]⟩
    FilePart.ofUpload .byExtension "f" (.simple none (.reader (.script script))) = .ok p ∧
      p.OneWay ∧ p.delivered operations = [1, 2, 3, 4, 5, 6] ∧ q.source.unread = [7] ∧
      ∃ g, (m.applyAll [.length .checked .initial, .iterate world 3]).parts[0]? = some (.file g) ∧
        m.delivered 0 [.length .checked .initial, .iterate world 3] ++ g.source.unread =
          q.source.unread := by
  intro script p world operations q m
  have fine : ∀ read ∈ script.rest, read.Succeeds := by
    intro read member
    simp only [script, List.mem_cons, List.not_mem_nil, or_false] at member
    rcases member with rfl | rfl | rfl | rfl | rfl <;> trivial
  have ignores : script.rewinding ≠ .restores := by decide
  have oneWay : p.OneWay := ⟨rfl, ignores, fine⟩
  have keeps : ∀ operation ∈ operations, operation.KeepsSource := by
    intro operation member
    simp only [operations, List.mem_cons, List.not_mem_nil, or_false] at member
    rcases member with rfl | rfl | rfl | rfl | rfl <;> trivial
  have given : p.delivered operations = [1, 2, 3, 4, 5, 6] := by decide
  have left := (delivered_append_unread oneWay).1 operations keeps
  rw [given] at left
  have still : q.OneWay := (oneWay.applyAll keeps).oneWay
  obtain ⟨-, -, -, inMessage⟩ := delivered_append_unread still
  exact ⟨rfl, oneWay, given, List.append_cancel_left left, (inMessage m 0 rfl).1 _⟩

end Message

end Multipart
