import Multipart.Proofs.Message.Length
import Multipart.Proofs.Message.Twins

/-!
# Measuring is not seen

Asking a message for its size or for its request headers fills what its parts keep, and sends readers
to their end and back. Neither is seen later: a message that was measured is alike to one that was
not, and messages that are alike tell the same whatever is done with them.
-/

namespace Multipart

/-! ## Measuring parts that are alike -/

theorem Reader.length?_rewound (fs : FileSystem) (reader : Reader) :
    reader.rewound.length? fs = reader.length? fs := by
  cases reader with
  | cursor | file | pipe => rfl
  | script s =>
    simp only [rewound, rewind?]
    cases s.rewinding <;> rfl

theorem Reader.steady_eq (reader : Reader) : reader.Steady Eq := by
  cases reader with
  | file f =>
    rintro fs _ rfl
    rfl
  | cursor | pipe | script => trivial

theorem Source.steady_eq (source : Source) : source.Steady Eq := by
  cases source with
  | path p =>
    rintro fs _ rfl
    exact ⟨rfl, fun reader _ => reader.steady_eq⟩
  | reader r => exact r.steady_eq
  | bytes | text | stream => trivial

theorem FilePart.sourceLength?_of_rewound (fs : FileSystem) {s t : Source}
    (same : t.rewound = s.rewound) :
    (sourceLength? fs t).value.1 = (sourceLength? fs s).value.1 := by
  cases s with
  | reader r =>
    obtain ⟨q, rfl, rewound⟩ := Source.exists_reader_of_rewound same
    have lengths : q.length? fs = r.length? fs := by
      rw [← q.length?_rewound, rewound, r.length?_rewound]
    simp only [sourceLength?, Traced.value_pure, Reader.probe_eq, Prod.map, lengths]
  | bytes | text | path | stream => rw [Source.eq_of_rewound same (by simp)]

namespace FilePart.Alike

variable {fs : FileSystem} {p q : FilePart}

theorem refl (p : FilePart) : p.Alike Eq p := ⟨rfl, rfl, rfl, rfl, p.source.steady_eq⟩

theorem length?_eq (alike : p.Alike Eq q) (build : Build) (fs : FileSystem) :
    (q.length? build fs).value.1 = (p.length? build fs).value.1 := by
  rw [FilePart.length?_eq, FilePart.length?_eq, alike.block, alike.held,
    sourceLength?_of_rewound fs alike.source]

theorem length? {views : Views} (alike : p.Alike views q) (build : Build) (fs gs : FileSystem) :
    (p.length? build fs).value.2.Alike views (q.length? build gs).value.2 := by
  refine alike.of_advanced (.length? build fs p) (.length? build gs q) ?_
  rw [FilePart.length?_snd, FilePart.length?_snd]
  exact alike.source

theorem measured {views : Views} (alike : p.Alike views q) (build : Build) (fs : FileSystem) :
    p.Alike views (q.length? build fs).value.2 := by
  refine alike.of_advanced (.refl p) (.length? build fs q) ?_
  rw [FilePart.length?_snd]
  exact alike.source

end FilePart.Alike

namespace Part.Alike

variable {p q : Part}

theorem refl (part : Part) : part.Alike Eq part := by
  cases part with
  | scalar p => exact .scalar rfl rfl
  | file p => exact .file (.refl p)

theorem length?_eq (alike : p.Alike Eq q) (build : Build) (fs : FileSystem) :
    (q.length? build fs).value.1 = (p.length? build fs).value.1 := by
  cases alike with
  | @scalar p q block body =>
    have lengths : q.length.1 = p.length.1 := congrArg₂ (·.length + ·.length) block body
    exact congrArg (Except.ok ∘ some) lengths
  | file alike => exact alike.length?_eq build fs

theorem length? {views : Views} (alike : p.Alike views q) (build : Build) (fs gs : FileSystem) :
    (p.length? build fs).value.2.Alike views (q.length? build gs).value.2 := by
  cases alike with
  | scalar block body => exact .scalar block body
  | file alike => exact .file (alike.length? build fs gs)

theorem measured {views : Views} (alike : p.Alike views q) (build : Build) (fs : FileSystem) :
    p.Alike views (q.length? build fs).value.2 := by
  cases alike with
  | scalar block body => exact .scalar block body
  | file alike => exact .file (alike.measured build fs)

theorem all_measured {views : Views} {build : Build} {fs : FileSystem}
    {parts others others' : List Part} (alike : List.Forall₂ (Part.Alike views) parts others)
    (each : List.Forall₂ (Part.Measured build fs) others others') :
    List.Forall₂ (Part.Alike views) parts others' := by
  induction each generalizing parts with
  | nil => exact alike
  | cons moved _ ih =>
    obtain _ | ⟨first, rest⟩ := alike
    refine .cons ?_ (ih rest)
    obtain rfl | rfl := moved
    · exact first
    · exact first.measured build fs

theorem stream?_eq {views : Views} (alike : p.Alike views q) : q.stream? = p.stream? := by
  cases alike with
  | scalar => rfl
  | @file p q alike =>
    cases source : p.source with
    | reader r =>
      have same := alike.source
      rw [source] at same
      obtain ⟨other, source', -⟩ := Source.exists_reader_of_rewound same
      simp only [Part.stream?, source, source', Source.stream?]
    | bytes | text | path | stream =>
      have same := Source.eq_of_rewound alike.source (by simp [source])
      simp only [Part.stream?, same]

end Part.Alike

/-! ## Measuring messages that are alike -/

namespace Message.Alike

variable {m m' : Message}

theorem refl (m : Message) : m.Alike Eq m :=
  ⟨rfl, List.forall₂_same.mpr fun part _ => .refl part⟩

theorem length? (alike : m.Alike Eq m') (build : Build) (fs : FileSystem) :
    (m'.length? build fs).value.1 = (m.length? build fs).value.1 ∧
      (m.length? build fs).value.2.Alike Eq (m'.length? build fs).value.2 := by
  have measures := Measures.of_partsLength? build fs m.boundary.bytes.length 0 m.parts
  obtain ⟨_, others, parts⟩ := measures.related
    (fun _ _ alike => ⟨alike.length?_eq build fs, alike.length? build fs fs⟩) alike.parts
  simp only [Message.length?, Traced.value_bind, Traced.value_pure, alike.boundary,
    others.value_eq]
  exact ⟨trivial, rfl, parts⟩

theorem measured {views : Views} (alike : m.Alike views m') (build : Build) (fs : FileSystem) :
    m.Alike views (m'.length? build fs).value.2 := by
  have each := (Measures.of_partsLength? build fs m'.boundary.bytes.length 0 m'.parts).each
  exact ⟨alike.boundary, Part.Alike.all_measured alike.parts each⟩

theorem contentType_eq {views : Views} (alike : m.Alike views m') :
    m'.contentType = m.contentType :=
  congrArg (fun boundary : Boundary => "multipart/form-data; boundary=" ++ boundary.text)
    alike.boundary

theorem requestHeaders_eq (alike : m.Alike Eq m') (build : Build) (fs : FileSystem) :
    (m'.requestHeaders build fs).value.1 = (m.requestHeaders build fs).value.1 := by
  obtain ⟨told, -⟩ := alike.length? build fs
  rw [requestHeaders_fst, requestHeaders_fst]
  simp only [told, alike.contentType_eq]

theorem streams_eq {views : Views} (alike : m.Alike views m') : m'.streams = m.streams := by
  have parts := alike.parts
  rw [streams, streams]
  generalize m.parts = before at parts
  generalize m'.parts = others at parts
  induction parts with
  | nil => rfl
  | cons first _ ih => rw [List.map_cons, List.map_cons, first.stream?_eq, ih]

end Message.Alike

/-! ## Rendering messages that are alike -/

namespace MessageProducer

open Requests

namespace Twins

variable {views : Views} {fs gs : FileSystem} {p q p' : MessageProducer}
  {answer : Poll (Option Item)}

theorem alike (twins : Twins views p q) : p.message.Alike views q.message := by
  cases twins with
  | outside alike | body alike => exact alike

theorem progress_eq (twins : Twins views p q) : q.progress = p.progress := by
  cases twins <;> rfl

theorem awaited?_eq (twins : Twins views p q) : q.awaited? = p.awaited? := by
  simp only [awaited?, twins.progress_eq, Message.stream?, twins.alike.streams_eq]

/-- Streams of twins say the same, so twins that wait for them stay twins. -/
theorem of_tells (twins : Twins views p q) (seen : views fs gs) (tells : Tells fs p answer p') :
    ∃ q', Tells gs q answer q' ∧ Twins views p' q' := by
  cases tells with
  | gives unasked gives =>
    obtain ⟨q', gives', onward⟩ := twins.of_gives seen gives
    exact ⟨q', .gives (twins.awaited?_eq.trans unasked) gives', onward⟩
  | @asks m i progress part s h source ongoing =>
    cases twins with
    | outside _ idle => cases idle
    | @body _ m' _ f g _ alike here there same inStep =>
      cases h.symm.trans here
      have source' : g.source = .stream s :=
        (Source.eq_of_rewound same.source (by simp [source])).trans source
      refine ⟨_, .asks there source' ongoing, ?_⟩
      have moved := same.of_advanced (.of_stream source) (.of_stream source') rfl
      have onward := alike.setPart (.file moved) i
      -- The message goes on in this body or is outside of all bodies.
      cases s.poll.1 with
      | text | failure | ended => exact .outside onward rfl
      | chunk | notReady =>
        refine .body onward (Message.getElem?_setPart _ here) (Message.getElem?_setPart _ there)
          moved ?_
        cases progress with
        | reader => rfl
        | file path reader => exact inStep
        | pending | done => trivial

theorem poll (twins : Twins views p q) (seen : views fs gs) :
    (MessageProducer.poll gs q).value.1 = (MessageProducer.poll fs p).value.1 ∧
      Twins views (MessageProducer.poll fs p).value.2 (MessageProducer.poll gs q).value.2 := by
  obtain ⟨q', told, onward⟩ := twins.of_tells seen (tells_poll fs p)
  rw [poll_of_tells gs told]
  exact ⟨rfl, onward⟩

theorem after_poll {world later : World} (twins : Twins views p q)
    (seen : ∀ n, views (world n) (later n)) (n : Nat) :
    Twins views (Requests.after MessageProducer.poll world p n)
      (Requests.after MessageProducer.poll later q n) := by
  induction n with
  | zero => exact twins
  | succ n ih => exact (ih.poll (seen n)).2

theorem answer_poll_eq {world later : World} (twins : Twins views p q)
    (seen : ∀ n, views (world n) (later n)) (n : Nat) :
    Requests.answer MessageProducer.poll later q n =
      Requests.answer MessageProducer.poll world p n :=
  ((twins.after_poll seen n).poll (seen n)).1

end Twins

/-- A whole rendering asks for each item and then for the end. -/
theorem exists_run (fs : FileSystem) (m : Message) :
    ∃ items, Completes next (.still fs) { message := m } 0 items ∧
      joinItems items = m.outcome fs ∧
      (run fs { message := m }).value.producer =
        after next (.still fs) { message := m } (items.length + 1) := by
  obtain ⟨items, complete, few, joined⟩ := exists_completes_still fs m
  refine ⟨items, complete, joined, ?_⟩
  obtain ⟨taken, ended⟩ := collect_of_completes complete (m.itemBound fs)
  rw [List.take_of_length_le (Nat.le_of_lt few)] at taken
  rw [decide_eq_true few] at ended
  rw [run, producer_collect, Collected.requests, taken, ended]
  rfl

end MessageProducer

namespace Message.Alike

open Requests

variable {m m' : Message}

theorem twins {views : Views} (alike : m.Alike views m') :
    MessageProducer.Twins views { message := m } { message := m' } :=
  .outside alike rfl

theorem run (alike : m.Alike Eq m') (fs : FileSystem) :
    m'.outcome fs = m.outcome fs ∧
      (MessageProducer.run fs { message := m }).value.producer.message.Alike Eq
        (MessageProducer.run fs { message := m' }).value.producer.message := by
  obtain ⟨items, complete, joined, left⟩ := MessageProducer.exists_run fs m
  obtain ⟨items', complete', joined', left'⟩ := MessageProducer.exists_run fs m'
  have same : items' = items := by
    apply List.ext_getElem?
    intro k
    rw [← complete k, ← complete' k]
    exact alike.twins.answer_eq (fun _ => rfl) _
  subst same
  rw [← joined, ← joined', left, left']
  exact ⟨rfl, (alike.twins.after (fun _ => rfl) _).alike⟩

end Message.Alike

/-! ## Runs of operations -/

namespace Message

open Requests

/-- What an operation tells. Of a producer, the answers to all requests. -/
inductive Operation.Result
  | length (told : Except Panic (Option Nat))
  | headers (entries : Except Panic (List (String × String)))
  | octets (outcome : Except EncodingError Bytes)
  | items (answers : List (Option Item))
  | answers (answers : List (Poll (Option Item)))
  deriving DecidableEq

def Operation.result (m : Message) : Operation → Operation.Result
  | .length build fs => .length (m.length? build fs).value.1
  | .headers build fs => .headers (m.requestHeaders build fs).value.1
  | .encode build fs => .octets (m.encode build fs).value.1
  | .iterate world n =>
    .items ((List.range n).map (answer MessageProducer.next world { message := m }))
  | .await world n =>
    .answers ((List.range n).map (answer MessageProducer.poll world { message := m }))

def Operation.measures : Operation → Bool
  | .length .. | .headers .. => true
  | .encode .. | .iterate .. | .await .. => false

/-- What a run tells, but for its measuring. -/
def transcript (m : Message) : List Operation → List Operation.Result
  | [] => []
  | operation :: operations =>
    if operation.measures then (m.apply operation).transcript operations
    else operation.result m :: (m.apply operation).transcript operations

namespace Alike

variable {m m' : Message}

theorem result_eq (alike : m.Alike Eq m') (operation : Operation) :
    operation.result m' = operation.result m := by
  cases operation with
  | length build fs => exact congrArg _ (alike.length? build fs).1
  | headers build fs => exact congrArg _ (alike.requestHeaders_eq build fs)
  | encode build fs =>
    apply congrArg Operation.Result.octets
    rw [encode_eq, encode_eq, (alike.length? build fs).1, (alike.run fs).1]
  | iterate world n =>
    apply congrArg Operation.Result.items
    apply List.map_congr_left
    intro k _
    exact alike.twins.answer_eq (fun _ => rfl) k
  | await world n =>
    apply congrArg Operation.Result.answers
    apply List.map_congr_left
    intro k _
    exact alike.twins.answer_poll_eq (fun _ => rfl) k

theorem apply (alike : m.Alike Eq m') (operation : Operation) :
    (m.apply operation).Alike Eq (m'.apply operation) := by
  cases operation with
  | length build fs => exact (alike.length? build fs).2
  | headers build fs =>
    rw [Message.apply, Message.apply, Advanced.requestHeaders_message,
      Advanced.requestHeaders_message]
    exact (alike.length? build fs).2
  | encode build fs =>
    obtain ⟨told, onward⟩ := alike.length? build fs
    simp only [Message.apply, Message.encode, Traced.value_bind, told]
    split
    · exact onward
    · split
      · exact onward
      · exact (onward.run fs).2
  | iterate world n => exact (alike.twins.after (fun _ => rfl) n).alike
  | await world n => exact (alike.twins.after_poll (fun _ => rfl) n).alike

theorem apply_of_measures (alike : m.Alike Eq m') {operation : Operation}
    (measures : operation.measures = true) : m.Alike Eq (m'.apply operation) := by
  cases operation with
  | length build fs => exact alike.measured build fs
  | headers build fs =>
    rw [Message.apply, Advanced.requestHeaders_message]
    exact alike.measured build fs
  | encode | iterate | await => cases measures

/-- Operations that measure can be left out. -/
theorem applyAll_filter (alike : m.Alike Eq m') (operations : List Operation) :
    (m.applyAll (operations.filter (!·.measures))).Alike Eq (m'.applyAll operations) := by
  induction operations generalizing m m' with
  | nil => exact alike
  | cons operation operations ih =>
    by_cases measures : operation.measures = true
    · rw [List.filter_cons_of_neg (by simp [measures])]
      exact ih (alike.apply_of_measures measures)
    · rw [List.filter_cons_of_pos (by simp [measures])]
      exact ih (alike.apply operation)

theorem transcript_filter (alike : m.Alike Eq m') (operations : List Operation) :
    m.transcript (operations.filter (!·.measures)) = m'.transcript operations := by
  induction operations generalizing m m' with
  | nil => rfl
  | cons operation operations ih =>
    by_cases measures : operation.measures = true
    · rw [List.filter_cons_of_neg (by simp [measures]), transcript, if_pos measures]
      exact ih (alike.apply_of_measures measures)
    · rw [List.filter_cons_of_pos (by simp [measures]), transcript, transcript, if_neg measures,
        if_neg measures, alike.result_eq, ih (alike.apply operation)]

end Alike

/-- Two runs that differ only in how often and where they measure tell the same. They leave messages
that tell the same as well, whichever operation comes next, be it one that measures. And all octets
at once are those that a blocking producer gives in the same state, unless the size that is told
is that of no buffer. -/
theorem result_applyAll_of_filter_eq (m : Message) {operations others : List Operation}
    (same : operations.filter (!·.measures) = others.filter (!·.measures)) :
    m.transcript operations = m.transcript others ∧
    (∀ operation : Operation,
      operation.result (m.applyAll operations) = operation.result (m.applyAll others)) ∧
    ∀ fs, ∃ items whole,
      Completes MessageProducer.next (.still fs) { message := m.applyAll operations } 0 items ∧
        Joins items whole ∧ ∀ build,
          let told := ((m.applyAll operations).length? build fs).value.1
          let encoded := ((m.applyAll operations).encode build fs).value.1
          (∀ cause, told = .error cause → encoded = .error (.panic cause)) ∧
          ∀ length, told = .ok length →
            encoded = if 2 ^ 63 ≤ length.getD 0 then .error (.panic .capacityOverflow) else whole := by
  refine ⟨?_, ?_, ?_⟩
  · rw [← (Alike.refl m).transcript_filter operations, same,
      (Alike.refl m).transcript_filter others]
  · intro operation
    rw [((Alike.refl m).applyAll_filter operations).result_eq operation, same,
      ← ((Alike.refl m).applyAll_filter others).result_eq operation]
  · intro fs
    obtain ⟨items, complete, -, joined⟩ :=
      MessageProducer.exists_completes_still fs (m.applyAll operations)
    refine ⟨items, _, complete, joins_joinItems items, ?_⟩
    intro build told encoded
    have encoded_eq : encoded = inBuffer told (joinItems items) := by
      rw [joined]
      exact encode_eq build fs _
    constructor
    · intro cause panics
      rw [encoded_eq, panics, inBuffer]
    · intro length known
      rw [encoded_eq, known, inBuffer]
      exact if_congr largestBuffer_lt_iff rfl rfl

/-- A cursor that stands past its end and a stream that keeps its reader waiting. They are measured
before the first request, when the rendering is given up inside the cursor, and twice after that. -/
theorem result_applyAll_of_filter_eq_past_end :
    let fs := FileSystem.initial
    let f : FilePart :=
      { name := "f"
        filename := none
        headers := .empty
        source := .reader (.cursor [1, 2, 3] 9)
        chunkSize := ⟨2, by decide⟩ }
    let g : FilePart :=
      { name := "g", filename := none, headers := .empty, source := .stream [.notReady, .chunk [7]] }
    let m : Message := ⟨⟨[0x42], by decide⟩, [.file f, .file g]⟩
    let operations : List Operation :=
      [.headers .checked fs, .iterate (.still fs) 3, .length .unchecked fs, .headers .checked fs]
    let others : List Operation := [.iterate (.still fs) 3]
    operations.filter (!·.measures) = others.filter (!·.measures) ∧
    ∃ answers : List (Poll (Option Item)),
      (Operation.await (.still fs) 10).result (m.applyAll operations) = .answers answers ∧
        (Operation.await (.still fs) 10).result (m.applyAll others) = .answers answers ∧
        answers[2]? = some (.ready (some (.ok [1, 2]))) ∧ answers[7]? = some .notReady := by
  intro fs f g m operations others
  have same : operations.filter (!·.measures) = others.filter (!·.measures) := rfl
  obtain ⟨-, told, -⟩ := result_applyAll_of_filter_eq m same
  refine ⟨same, _, told (.await (.still fs) 10), rfl, ?_, ?_⟩
  · decide
  · decide

/-- A reader that tells more octets than a buffer can have. The items are those of the one octet
that it gives, and there is no telling them at once. -/
theorem encode_of_vast_length :
    let fs := FileSystem.initial
    let script : Script :=
      { whole := [.data [7]], rewinding := .restores, length := some (2 ^ 63) }
    let f : FilePart :=
      { name := "f", filename := none, headers := .empty, source := .reader (.script script) }
    let m : Message := ⟨⟨[0x42], by decide⟩, [.file f]⟩
    (∃ items octets, Completes MessageProducer.next (.still fs) { message := m } 0 items ∧
      items[2]? = some (.ok [7]) ∧ joinItems items = .ok octets) ∧
    ∀ build, (m.encode build fs).value.1 = .error (.panic .capacityOverflow) := by
  intro fs script f m
  obtain ⟨items, complete, -, joined⟩ := MessageProducer.exists_completes_still fs m
  rw [← (MessageProducer.joinItems_run fs m).2] at joined
  refine ⟨⟨items, _, complete, ?_, joined⟩, ?_⟩
  · rw [← complete 2]
    decide
  · intro build
    cases build <;> decide +kernel

end Message

end Multipart
