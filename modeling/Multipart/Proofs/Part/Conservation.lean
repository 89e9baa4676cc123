import Multipart.Proofs.Part.KeptBody
import Multipart.Proofs.Source.Unread

/-!
# Nothing lost, nothing given twice

What a part delivers of a source that goes one way, over any number of renderings, and what the
source has not given yet are together what it had to give at first.
-/

namespace Multipart

namespace Requests

variable {α σ : Type}

/-- The octets that some requests deliver, when `octets` says what one request delivers by what it
finds, answers and leaves. -/
def delivered (octets : σ → α → σ → Bytes) (next : FileSystem → σ → Traced (α × σ)) (world : World)
    (producer : σ) (n : Nat) : Bytes :=
  (List.range n).flatMap fun k =>
    octets (after next world producer k) (answer next world producer k)
      (after next world producer (k + 1))

/-- What each request adds to, any number of them does. -/
theorem delivered_induction {octets : σ → α → σ → Bytes}
    {next : FileSystem → σ → Traced (α × σ)} {R : Bytes → σ → Prop} {producer : σ}
    (initial : R [] producer)
    (step : ∀ fs state given, R given state →
      R (given ++ octets state (next fs state).value.1 (next fs state).value.2)
        (next fs state).value.2)
    (world : World) (n : Nat) :
    R (delivered octets next world producer n) (after next world producer n) := by
  induction n with
  | zero => exact initial
  | succ n ih =>
    have onward := step (world n) _ _ ih
    rw [delivered, List.range_succ, List.flatMap_append, List.flatMap_singleton]
    exact onward

end Requests

/-- A chunk, or nothing. -/
def BodyStep.octets : BodyStep → Bytes
  | .ok (some octets) => octets
  | .ok none | .error _ => []

def Poll.octets : Poll BodyStep → Bytes
  | .ready step => step.octets
  | .notReady => []

/-- No file has been opened for the body. -/
def BodyProgress.Unopened : BodyProgress → Prop
  | .file .. => False
  | .pending | .reader | .done => True

namespace FilePart

/-- A part that is rendered from a source which goes one way. It keeps no body from before. -/
structure OneWay (p : FilePart) : Prop where
  keptBody : p.keptBody = none
  source : p.source.OneWay

/-- The part has given some octets of its source and has become another. -/
structure Passes (p : FilePart) (octets : Bytes) (q : FilePart) : Prop where
  unread : octets ++ q.source.unread = p.source.unread
  oneWay : q.OneWay

variable {p q : FilePart} {fs : FileSystem} {progress later : BodyProgress} {step : BodyStep}

theorem OneWay.passes_self (oneWay : p.OneWay) : p.Passes [] p := ⟨rfl, oneWay⟩

theorem Passes.trans {q r : FilePart} {first second : Bytes} (before : p.Passes first q)
    (next : q.Passes second r) : p.Passes (first ++ second) r :=
  ⟨by rw [List.append_assoc, next.unread, before.unread], next.oneWay⟩

theorem OneWay.heldBody_eq (oneWay : p.OneWay) : p.heldBody.1 = none := by
  rw [heldBody, oneWay.keptBody, oneWay.source.held?_eq]
  rfl

theorem Passes.of_source (oneWay : p.OneWay) {octets : Bytes} {source : Source}
    (unread : octets ++ source.unread = p.source.unread) (still : source.OneWay) :
    p.Passes octets { p with source } :=
  ⟨unread, oneWay.keptBody, still⟩

theorem OneWay.readStep_octets (reply : Except EncodingError Bytes) :
    (readStep .reader reply).value.1.octets = reply.toOption.getD [] ∧
      (readStep .reader reply).value.2.Unopened := by
  rcases reply with e | - | octets <;> exact ⟨rfl, trivial⟩

theorem OneWay.continueBody (oneWay : p.OneWay) (unopened : progress.Unopened)
    (went : (p.continueBody fs progress).value = (step, q, later)) :
    p.Passes step.octets q ∧ later.Unopened := by
  cases progress with
  | file => exact unopened.elim
  | pending | done =>
    cases went
    exact ⟨oneWay.passes_self, trivial⟩
  | reader =>
    have source := oneWay.source
    cases kind : p.source with
    | bytes | text | path => rw [kind] at source; exact source.elim
    | stream =>
      simp only [FilePart.continueBody, kind, Traced.value_pure] at went
      cases went
      exact ⟨oneWay.passes_self, trivial⟩
    | reader r =>
      rw [kind] at source
      obtain ⟨total, still⟩ := Reader.OneWay.chunk source fs none p.chunkSize
      rw [continueBody_reader fs kind] at went
      obtain ⟨given, unopened⟩ := readStep_octets (r.chunk fs none p.chunkSize).1
      cases went
      refine ⟨.of_source oneWay ?_ still, unopened⟩
      rw [given, kind]
      exact total

theorem OneWay.pull (oneWay : p.OneWay) (unopened : progress.Unopened)
    (pulled : (p.pull fs progress).value = (step, q, later)) :
    p.Passes step.octets q ∧ later.Unopened := by
  by_cases fresh : progress = .pending
  · subst fresh
    have unheld := oneWay.heldBody_eq
    have source := oneWay.source
    cases kind : p.source with
    | bytes | text | path => rw [kind] at source; exact source.elim
    | stream =>
      rw [pull_pending unheld (begin_stream fs kind)] at pulled
      cases pulled
      exact ⟨oneWay.passes_self, trivial⟩
    | reader r =>
      rw [kind] at source
      cases mode : r.isTextMode with
      | true =>
        rw [pull_pending unheld (begin_textMode fs kind mode)] at pulled
        cases pulled
        exact ⟨oneWay.passes_self, trivial⟩
      | false =>
        have unmoved : { p with source := .reader r.rewound } = p := by
          rw [Reader.OneWay.rewound_eq source, ← kind]
        have begun := begin_reader fs kind mode
        rw [unmoved] at begun
        rw [pull_pending unheld begun] at pulled
        have ready : BodyProgress.Unopened .reader := trivial
        exact oneWay.continueBody ready pulled
  · rw [FilePart.pull, if_neg fresh] at pulled
    exact oneWay.continueBody unopened pulled

theorem OneWay.stream (oneWay : p.OneWay) {s : Stream} (source : p.source = .stream s) :
    s.poll.1.Succeeds ∧ p.Passes s.poll.1.octets { p with source := .stream s.poll.2 } := by
  have fine := oneWay.source
  rw [source] at fine
  obtain ⟨emitted, still⟩ := Stream.succeeds_poll fine
  refine ⟨emitted, .of_source oneWay ?_ still⟩
  rw [source]
  exact s.octets_append_unread

theorem OneWay.poll (oneWay : p.OneWay) (unopened : progress.Unopened) {answer : Poll BodyStep}
    (polled : (p.poll fs progress).value = (answer, q, later)) :
    p.Passes answer.octets q ∧ later.Unopened := by
  cases waiting : p.source.isStream with
  | false =>
    rw [poll_eq_pull fs waiting] at polled
    obtain ⟨rfl, left⟩ := Prod.mk.inj polled
    exact oneWay.pull unopened (Prod.ext rfl left)
  | true =>
    by_cases finished : progress = .done
    · subst finished
      rw [poll_done] at polled
      cases polled
      exact ⟨oneWay.passes_self, trivial⟩
    · cases kind : p.source with
      | bytes | text | path | reader => simp [kind, Source.isStream] at waiting
      | stream s =>
        obtain ⟨emitted, passes⟩ := oneWay.stream kind
        rw [poll_stream fs kind finished] at polled
        cases emission : s.poll.1 with
        | text | failure => rw [emission] at emitted; exact emitted.elim
        | chunk | notReady | ended =>
          rw [emission] at polled passes
          cases polled
          first | exact ⟨passes, unopened⟩ | exact ⟨passes, trivial⟩

end FilePart

/-! ## Producers of one part -/

open Requests

/-- The octets of a chunk, or none. -/
def itemOctets : Option Item → Bytes
  | some (.ok octets) => octets
  | some (.error _) | none => []

@[simp] theorem itemOctets_item? (step : BodyStep) : itemOctets step.item? = step.octets := by
  rcases step with e | - | octets <;> rfl

def Poll.item? : Poll (Option Item) → Option Item
  | .ready item => item
  | .notReady => none

theorem BodyProgress.Unopened.progressAfter {progress : BodyProgress} (unopened : progress.Unopened)
    (step : BodyStep) : (step.progressAfter progress).Unopened := by
  cases step with
  | error e => exact trivial
  | ok chunk => exact unopened

namespace BodyProducer

/-- What a request delivers of the body. -/
def nextOctets (_ : BodyProducer) (item : Option Item) (_ : BodyProducer) : Bytes := itemOctets item

def pollOctets (_ : BodyProducer) (answer : Poll (Option Item)) (_ : BodyProducer) : Bytes :=
  itemOctets answer.item?

/-- The producer has given some octets of the source of `p`, and no file is open for the body. -/
structure Given (p : FilePart) (octets : Bytes) (b : BodyProducer) : Prop where
  passes : p.Passes octets b.part
  unopened : b.progress.Unopened

variable (fs : FileSystem) {p : FilePart} {octets : Bytes} {b : BodyProducer}

theorem Given.start (oneWay : p.OneWay) : Given p [] { part := p } :=
  ⟨oneWay.passes_self, trivial⟩

theorem Given.next (given : Given p octets b) :
    Given p (octets ++ nextOctets b (b.next fs).value.1 (b.next fs).value.2)
      (b.next fs).value.2 := by
  obtain ⟨step, q, later, pulled⟩ : ∃ step q later,
      (b.part.pull fs b.progress).value = (step, q, later) := ⟨_, _, _, rfl⟩
  obtain ⟨passes, unopened⟩ := given.passes.oneWay.pull given.unopened pulled
  simp only [nextOctets, BodyProducer.next, Traced.value_bind, pulled, Traced.value_pure,
    itemOctets_item?]
  exact ⟨given.passes.trans passes, unopened.progressAfter step⟩

theorem Given.poll (given : Given p octets b) :
    Given p (octets ++ pollOctets b (b.poll fs).value.1 (b.poll fs).value.2)
      (b.poll fs).value.2 := by
  obtain ⟨answer, q, later, polled⟩ : ∃ answer q later,
      (b.part.poll fs b.progress).value = (answer, q, later) := ⟨_, _, _, rfl⟩
  obtain ⟨passes, unopened⟩ := given.passes.oneWay.poll given.unopened polled
  simp only [pollOctets, BodyProducer.poll, Traced.value_bind, polled]
  cases answer with
  | notReady => exact ⟨given.passes.trans passes, unopened⟩
  | ready step =>
    simp only [Traced.value_pure, Poll.item?, itemOctets_item?]
    exact ⟨given.passes.trans passes, unopened.progressAfter step⟩

end BodyProducer

namespace PartProducer

/-- The header block is not part of the body. -/
def nextOctets (before : PartProducer) (item : Option Item) (_ : PartProducer) : Bytes :=
  if before.block = none then itemOctets item else []

/-- The body has given some octets of the source of `p`. -/
def Given (p : FilePart) (octets : Bytes) (r : PartProducer) : Prop :=
  BodyProducer.Given p octets r.body

theorem Given.start {p : FilePart} (oneWay : p.OneWay) : Given p [] (.ofPart p) :=
  ⟨⟨rfl, oneWay.keptBody, oneWay.source⟩, trivial⟩

theorem Given.next (fs : FileSystem) {p : FilePart} {octets : Bytes} {r : PartProducer}
    (given : Given p octets r) :
    Given p (octets ++ nextOctets r (r.next fs).value.1 (r.next fs).value.2)
      (r.next fs).value.2 := by
  obtain ⟨block, body⟩ := r
  cases block with
  | none => exact BodyProducer.Given.next fs given
  | some block =>
    simp only [nextOctets, reduceCtorEq, if_false, List.append_nil]
    exact given

end PartProducer

namespace FilePart

/-- The octets of the body that an operation delivers. -/
def Operation.delivered (p : FilePart) : Operation → Bytes
  | .data world n =>
    Requests.delivered BodyProducer.nextOctets BodyProducer.next world { part := p } n
  | .render world n =>
    Requests.delivered PartProducer.nextOctets PartProducer.next world (.ofPart p) n
  | .await world n =>
    Requests.delivered BodyProducer.pollOctets BodyProducer.poll world { part := p } n
  | .block | .length .. | .setName _ | .setSource _ | .resize _ => []

def delivered (p : FilePart) : List Operation → Bytes
  | [] => []
  | operation :: operations =>
    operation.delivered p ++ (p.apply operation).delivered operations

/-- The operation puts no other source in place. -/
def Operation.KeepsSource : Operation → Prop
  | .setSource _ => False
  | _ => True

variable {p : FilePart}

theorem OneWay.block (oneWay : p.OneWay) : p.block.2.OneWay :=
  ⟨oneWay.keptBody, oneWay.source⟩

/-- Measuring takes nothing from the source. -/
theorem source_length? (build : Build) (fs : FileSystem) (p : FilePart) :
    (p.length? build fs).value.2.source = p.source := by
  rw [length?_snd]
  rfl

theorem OneWay.apply (oneWay : p.OneWay) {operation : Operation} (keeps : operation.KeepsSource) :
    p.Passes (operation.delivered p) (p.apply operation) := by
  cases operation with
  | block => exact ⟨rfl, oneWay.block⟩
  | setName name => exact ⟨rfl, oneWay.keptBody, oneWay.source⟩
  | resize n => exact ⟨rfl, oneWay.keptBody, oneWay.source⟩
  | setSource => exact keeps.elim
  | length build fs =>
    have source := source_length? build fs p
    have unkept : (p.length? build fs).value.2.keptBody = none := by
      rw [length?_snd]
      exact oneWay.block.heldBody_eq
    exact ⟨congrArg Source.unread source, unkept, source ▸ oneWay.source⟩
  | data world n =>
    have given := delivered_induction (R := BodyProducer.Given p) (.start oneWay)
      (fun fs _ _ given => given.next fs) world n
    exact given.passes
  | await world n =>
    have given := delivered_induction (R := BodyProducer.Given p) (.start oneWay)
      (fun fs _ _ given => given.poll fs) world n
    exact given.passes
  | render world n =>
    have given := delivered_induction (R := PartProducer.Given p) (.start oneWay)
      (fun fs _ _ given => given.next fs) world n
    exact given.passes

theorem OneWay.applyAll (oneWay : p.OneWay) {operations : List Operation}
    (keeps : ∀ operation ∈ operations, operation.KeepsSource) :
    p.Passes (p.delivered operations) (p.applyAll operations) := by
  induction operations generalizing p with
  | nil => exact oneWay.passes_self
  | cons operation operations ih =>
    obtain ⟨here, later⟩ := List.forall_mem_cons.mp keeps
    have passes := oneWay.apply here
    exact passes.trans (ih passes.oneWay later)

/-- A blocking producer refuses a stream and takes nothing from it. -/
theorem next_of_stream {world : World} {s : Stream} (unheld : p.heldBody.1 = none)
    (source : p.source = .stream s) (n : Nat) :
    answer BodyProducer.next world { part := p } 0 =
        some (.error (.invalid .streamNotAwaited)) ∧
      (after BodyProducer.next world { part := p } n).part.source = p.source := by
  constructor
  · have refused := pull_pending unheld (begin_stream (world 0) source)
    simp only [answer, after_zero, BodyProducer.next, Traced.value_bind, refused]
    rfl
  · rw [source]
    refine after_invariant (P := fun b => b.part.source = .stream s) BodyProducer.next world
      { part := p } source ?_ n
    intro fs b still
    exact source_pull_of_stream fs still b.progress

end FilePart

end Multipart
