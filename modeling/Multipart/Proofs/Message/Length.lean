import Multipart.Proofs.Message.Settled
import Multipart.Proofs.Message.Built
import Multipart.Proofs.Message.Wire
import Multipart.Proofs.Part.Measure

/-!
# The size of a message

The size that a message tells is the sum of what its parts tell, and it agrees with the octets that
are sent. This holds in every state that operations lead to.
-/

namespace Multipart

namespace Part

variable {build : Build} {fs : FileSystem}

/-- A file keeps only what its source holds in memory. -/
def Faithful : Part → Prop
  | .scalar _ => True
  | .file p => p.Faithful

def Truthful (fs : FileSystem) : Part → Prop
  | .scalar _ => True
  | .file p => p.source.Truthful fs p.chunkSize

def size? (fs : FileSystem) : Part → Option Nat
  | .scalar p => some (p.block.1.length + p.body.1.length)
  | .file p => p.size? fs

theorem tells_length? (build : Build) (fs : FileSystem) (part : Part) :
    build.Tells (part.size? fs = none) ((part.size? fs).getD 0)
      (part.length? build fs).value.1 := by
  cases part with
  | scalar p => exact .known nofun (.refl build _)
  | file p => exact p.tells_length? build fs

theorem counts_of_length? {part part' : Part} {n : Nat}
    (told : (part.length? build fs).value = (.ok (some n), part')) :
    part.size? fs ≠ none ∧ build.Counts ((part.size? fs).getD 0) n := by
  have tells := part.tells_length? build fs
  rw [told] at tells
  cases tells with
  | known known counts => exact ⟨known, counts⟩

theorem length?_length? (build : Build) (fs : FileSystem) (part : Part) :
    ((part.length? build fs).value.2.length? build fs).value.1 =
      (part.length? build fs).value.1 := by
  cases part with
  | scalar p => rfl
  | file p =>
    have moved := FilePart.Advanced.length? build fs p
    have source : (p.length? build fs).value.2.source = p.source := by
      rw [FilePart.length?_snd]
      rfl
    simp only [Part.length?, Traced.value_map, Prod.map_fst, Prod.map_snd, id]
    rw [FilePart.length?_eq, FilePart.length?_eq, moved.block_eq, moved.heldBody_eq, source]

theorem outline_length? (build : Build) (fs : FileSystem) (part : Part) :
    (part.length? build fs).value.2.outline = part.outline := by
  cases part with
  | scalar p => rfl
  | file p =>
    simp only [Part.length?, Traced.value_map, Prod.map_snd, outline, p.content_length? build fs,
      (FilePart.Advanced.length? build fs p).block_eq]

theorem size?_none_iff {part : Part} (faithful : part.Faithful) :
    part.size? fs = none ↔ ∃ p, part = .file p ∧ p.source.SizeUnknown fs := by
  cases part with
  | scalar p => simp [size?]
  | file p => simpa [size?] using p.size?_none_iff faithful

theorem length_outcome_of_size? {part : Part} {n : Nat} {block body : Bytes}
    (told : part.size? fs = some n) (truthful : part.Truthful fs)
    (rendered : part.outline.outcome fs = .ok (block, body)) : block.length + body.length = n := by
  cases part with
  | scalar p =>
    cases rendered
    exact Option.some.inj told
  | file p =>
    obtain ⟨octets, read, same⟩ := map_eq_ok_iff.mp rendered
    cases same
    exact FilePart.length_outcome_of_size? told truthful read

end Part

namespace Message

/-- The size of some parts and of what stands around each. Nothing is added for a body of unknown
size. -/
def partsSize (fs : FileSystem) (boundary : Nat) (parts : List Part) : Nat :=
  (parts.map fun part => 2 + boundary + 2 + (part.size? fs).getD 0 + 2).sum

theorem partsSize_cons (fs : FileSystem) (boundary : Nat) (part : Part) (parts : List Part) :
    partsSize fs boundary (part :: parts) =
      2 + boundary + 2 + (part.size? fs).getD 0 + 2 + partsSize fs boundary parts := by
  rw [partsSize, List.map_cons, List.sum_cons, partsSize]

def knownSize (fs : FileSystem) (m : Message) : Nat :=
  partsSize fs m.boundary.bytes.length m.parts + (2 + m.boundary.bytes.length + 4)

/-- What comes of octets that are put in a buffer of the size that was told. -/
def inBuffer (told : Except Panic (Option Nat)) (octets : Except EncodingError Bytes) :
    Except EncodingError Bytes :=
  match told with
  | .error cause => .error (.panic cause)
  | .ok size =>
    if largestBuffer < size.getD 0 then .error (.panic .capacityOverflow) else octets

variable {build : Build} {fs : FileSystem} {m : Message}

namespace Measures

variable {boundary total n : Nat} {parts parts' : List Part} {told : Except Panic (Option Nat)}

/-- The sum counts each part with what stands around it. -/
theorem tells (measures : Measures build fs boundary n parts told parts')
    (counts : build.Counts total n) :
    build.Tells (∃ part ∈ parts, part.size? fs = none) (total + partsSize fs boundary parts)
      told := by
  have sums {part part' : Part} {total n size : Nat} (counts : build.Counts total n)
      (here : (part.length? build fs).value = (.ok (some size), part')) :
      build.Sums (total + (2 + boundary + 2 + (part.size? fs).getD 0 + 2))
        (build.addAll n [2 + boundary + 2, size, 2]) := by
    have each := (Part.counts_of_length? here).2
    have added := counts.addAll (.cons (.refl build (2 + boundary + 2)) <| .cons each <|
      .cons (.refl build 2) .nil)
    simpa only [List.sum_cons, List.sum_nil, Nat.add_zero, Nat.add_assoc] using added
  induction measures generalizing total with
  | ended => exact .known (by simp) counts
  | @panicked n part part' rest cause here =>
    have tells := part.tells_length? build fs
    rw [here] at tells
    cases tells with
    | overflow checked large =>
      refine .overflow checked ?_
      rw [partsSize_cons]
      omega
  | @unknown n part part' rest here =>
    have tells := part.tells_length? build fs
    rw [here] at tells
    cases tells with
    | unknown unknown => exact .unknown ⟨part, List.mem_cons_self, unknown⟩
  | @overflow n part part' rest size cause here failed =>
    have added := sums counts here
    rw [failed] at added
    cases added with
    | overflow checked large =>
      refine .overflow checked ?_
      rw [partsSize_cons]
      omega
  | @added n part part' rest rest' size sum told here added _ ih =>
    have sums := sums counts here
    rw [added] at sums
    cases sums with
    | counts counts =>
      have known := (Part.counts_of_length? here).1
      have others := ih counts
      rw [Nat.add_assoc, ← partsSize_cons] at others
      simpa only [List.mem_cons, exists_eq_or_imp, known, false_or] using others

/-- Parts that were measured tell the same again. -/
theorem again (measures : Measures build fs boundary total parts told parts') :
    ∃ parts'', Measures build fs boundary total parts' told parts'' := by
  let Same (part part' : Part) : Prop :=
    (part'.length? build fs).value.1 = (part.length? build fs).value.1
  have stays : ∀ part part', Same part part' → Same part part' ∧
      Same (part.length? build fs).value.2 (part'.length? build fs).value.2 := by
    intro part part' same
    refine ⟨same, ?_⟩
    simp only [Same, Part.length?_length?]
    exact same
  have each : List.Forall₂ Same parts parts' := by
    refine measures.each.imp ?_
    rintro part part' (same | measured)
    · exact congrArg (fun part => (Part.length? build fs part).value.1) same
    · exact measured ▸ part.length?_length? build fs
  obtain ⟨parts'', again, -⟩ := measures.related stays each
  exact ⟨parts'', again⟩

theorem map_outline (measures : Measures build fs boundary total parts told parts') :
    parts'.map Part.outline = parts.map Part.outline := by
  have each := measures.each
  clear measures
  induction each with
  | nil => rfl
  | @cons part part' _ _ measured _ ih =>
    have same : part'.outline = part.outline := by
      rcases measured with same | measured
      · rw [same]
      · rw [measured, part.outline_length? build fs]
    rw [List.map_cons, same, ih, List.map_cons]

end Measures

theorem tells_length? (build : Build) (fs : FileSystem) (m : Message) :
    build.Tells (∃ part ∈ m.parts, part.size? fs = none) (m.knownSize fs)
      (m.length? build fs).value.1 := by
  have tells := (Measures.of_partsLength? build fs m.boundary.bytes.length 0 m.parts).tells
    (.refl build 0)
  rw [Nat.zero_add] at tells
  exact tells.add _

theorem length?_length? (build : Build) (fs : FileSystem) (m : Message) :
    ((m.length? build fs).value.2.length? build fs).value.1 = (m.length? build fs).value.1 := by
  obtain ⟨_, again⟩ :=
    (Measures.of_partsLength? build fs m.boundary.bytes.length 0 m.parts).again
  have value := again.value_eq
  simp only [length?, Traced.value_bind, Traced.value_pure, value]

/-- Measuring a message does not change what it sends. -/
theorem outcome_length? (build : Build) (fs gs : FileSystem) (m : Message) :
    (m.length? build fs).value.2.outcome gs = m.outcome gs := by
  have outlines :=
    (Measures.of_partsLength? build fs m.boundary.bytes.length 0 m.parts).map_outline
  simp only [outcome, length?, Traced.value_bind, Traced.value_pure, outlines]
  rfl

theorem encode_eq (build : Build) (fs : FileSystem) (m : Message) :
    (m.encode build fs).value.1 = inBuffer (m.length? build fs).value.1 (m.outcome fs) := by
  rw [← outcome_length? build fs fs, ← (MessageProducer.joinItems_run fs _).2]
  simp only [encode, Traced.value_bind]
  split
  · next told => rw [told, inBuffer]; rfl
  · next told =>
    rw [told, inBuffer]
    split <;> rfl

theorem exists_size?_none_iff (faithful : ∀ p, .file p ∈ m.parts → p.Faithful) :
    (∃ part ∈ m.parts, part.size? fs = none) ↔
      ∃ p, .file p ∈ m.parts ∧ p.source.SizeUnknown fs := by
  have faithful' : ∀ part ∈ m.parts, part.Faithful := by
    intro part member
    cases part with
    | scalar p => exact trivial
    | file p => exact faithful p member
  constructor
  · rintro ⟨part, member, unknown⟩
    obtain ⟨p, rfl, unmeasured⟩ := (Part.size?_none_iff (faithful' part member)).mp unknown
    exact ⟨p, member, unmeasured⟩
  · rintro ⟨p, member, unknown⟩
    exact ⟨_, member, (Part.size?_none_iff (faithful' _ member)).mpr ⟨p, rfl, unknown⟩⟩

theorem length_frame {delimiter closing : Bytes} {boundary : Nat} {parts : List Part}
    {rendered : List (Bytes × Bytes)} (width : delimiter.length = 2 + boundary + 2)
    (known : ∀ part ∈ parts, part.size? fs ≠ none) (truthful : ∀ part ∈ parts, part.Truthful fs)
    (outcome : (parts.map Part.outline).mapM (Outline.outcome fs) = .ok rendered) :
    (frame delimiter closing rendered).length = partsSize fs boundary parts + closing.length := by
  induction parts generalizing rendered with
  | nil =>
    cases outcome
    simp [partsSize]
  | cons part parts ih =>
    obtain ⟨⟨block, body⟩, later, first, rest, rfl⟩ := mapM_cons_eq_ok_iff.mp outcome
    obtain ⟨n, size⟩ := Option.ne_none_iff_exists'.mp (known part List.mem_cons_self)
    have here := Part.length_outcome_of_size? size (truthful part List.mem_cons_self) first
    have there := ih (fun part later => known part (List.mem_cons_of_mem _ later))
      (fun part later => truthful part (List.mem_cons_of_mem _ later)) rest
    have crlf : HeaderBlock.crlf.length = 2 := rfl
    simp only [frame_cons, List.length_append, partsSize_cons, size, Option.getD_some]
    omega

/-- The size that is told, however large it is, is that of the octets. -/
theorem length_outcome {octets : Bytes} (known : ¬∃ part ∈ m.parts, part.size? fs = none)
    (truthful : ∀ part ∈ m.parts, part.Truthful fs) (rendered : m.outcome fs = .ok octets) :
    octets.length = m.knownSize fs := by
  obtain ⟨parts, read, rfl⟩ := map_eq_ok_iff.mp rendered
  have dashes : dashes.length = 2 := rfl
  have crlf : HeaderBlock.crlf.length = 2 := rfl
  have delimiter : m.delimiter.length = 2 + m.boundary.bytes.length + 2 := by
    simp only [Message.delimiter, List.length_append]
    omega
  have closing : m.closing.length = 2 + m.boundary.bytes.length + 4 := by
    simp only [Message.closing, List.length_append]
    omega
  rw [length_frame delimiter (fun part member unknown => known ⟨part, member, unknown⟩) truthful
    read, closing]
  rfl

/-- A stream has no size beforehand, so a message without a body of unknown size needs no waiting. -/
theorem settled_of_known (known : ¬∃ p, .file p ∈ m.parts ∧ p.source.SizeUnknown fs) :
    m.Settled := by
  intro p member
  by_contra waiting
  have unknown : p.source.SizeUnknown fs := by
    cases source : p.source with
    | stream => exact trivial
    | bytes | text | path | reader => simp [source, Source.isStream] at waiting
  exact known ⟨p, member, unknown⟩

theorem faithful_of_build {b : Builder} {form : Form} {files : List (String × Upload)}
    (built : (b.build form files).value = .ok m) : ∀ p, .file p ∈ m.parts → p.Faithful := by
  intro p member body kept
  rw [Builder.parts_of_build built, Builder.scalarParts, List.mem_append, List.mem_map,
    List.mem_map] at member
  rcases member with ⟨_, _, scalar⟩ | ⟨_, _, file⟩
  · cases scalar
  · cases file
    cases kept

theorem requestHeaders_fst (build : Build) (fs : FileSystem) (m : Message) :
    (m.requestHeaders build fs).value.1 =
      (m.length? build fs).value.1.map fun
        | some n => [("Content-Length", toString n), ("Content-Type", m.contentType)]
        | none => [("Transfer-Encoding", "chunked"), ("Content-Type", m.contentType)] := by
  simp only [requestHeaders, Traced.value_bind]
  rcases (m.length? build fs).value.1 with cause | - | n <;> rfl

theorem mem_requestHeaders {entries : List (String × String)}
    (given : (m.requestHeaders build fs).value.1 = .ok entries) (value : String) :
    (("Content-Length", value) ∈ entries ↔
      ∃ n, (m.length? build fs).value.1 = .ok (some n) ∧ value = toString n) ∧
    (("Transfer-Encoding", value) ∈ entries ↔
      (m.length? build fs).value.1 = .ok none ∧ value = "chunked") := by
  rw [requestHeaders_fst] at given
  rcases told : (m.length? build fs).value.1 with cause | - | n <;> rw [told] at given <;>
    cases given <;> simp

open Requests in
/-- In every state of a message, its size is unknown just if that of a file is, and a size that is
told is that of the octets which each of the renderings that do not fail gives. It is not told if
its sum needs more bits than a size has and this is checked, and it is told modulo 2 ^ 64 if this is
not. The request headers say the same as the size. -/
theorem length_applyAll_of_build {b : Builder} {form : Form} {files : List (String × Upload)}
    {built : Message} (isBuilt : (b.build form files).value = .ok built)
    (operations : List Operation) (build : Build) (fs : FileSystem) :
    let m := built.applyAll operations
    let told := (m.length? build fs).value.1
    let measured := (m.length? build fs).value.2
    let headers := (m.requestHeaders build fs).value.1
    (∀ cause, told = .error cause →
      cause = .sumOverflow ∧ build = .checked ∧ 2 ^ 64 ≤ m.knownSize fs) ∧
    (∀ length, told = .ok length →
      (length = none ↔ ∃ p, .file p ∈ m.parts ∧ p.source.SizeUnknown fs)) ∧
    (∀ n, told = .ok (some n) → (∀ part ∈ m.parts, part.Truthful fs) →
      ∃ items whole, Completes MessageProducer.next (.still fs) { message := measured } 0 items ∧
        (∀ k, answer MessageProducer.poll (.still fs) { message := measured } k =
          .ready items[k]?) ∧
        Joins items whole ∧
        (measured.encode build fs).value.1 =
          (if 2 ^ 63 ≤ n then .error (.panic .capacityOverflow) else whole) ∧
        ∀ octets, whole = .ok octets →
          octets.length = m.knownSize fs ∧ build.Counts octets.length n) ∧
    (∀ cause, headers = .error cause ↔ told = .error cause) ∧
    ∀ entries, headers = .ok entries →
      (∀ value, ("Content-Length", value) ∈ entries ↔
        ∃ n, told = .ok (some n) ∧ value = toString n) ∧
      ∀ value, ("Transfer-Encoding", value) ∈ entries ↔ told = .ok none ∧ value = "chunked" := by
  intro m told measured headers
  have faithful : ∀ p, .file p ∈ m.parts → p.Faithful := by
    refine Part.Advanced.all_files ?_ (Advanced.applyAll built operations).parts
      (faithful_of_build isBuilt)
    intro p q moved
    exact moved.faithful
  have unknown_iff : (∃ part ∈ m.parts, part.size? fs = none) ↔
      ∃ p, .file p ∈ m.parts ∧ p.source.SizeUnknown fs := exists_size?_none_iff faithful
  have tells : build.Tells _ (m.knownSize fs) told := m.tells_length? build fs
  refine ⟨?_, ?_, ?_, ?_, ?_⟩
  · intro cause overflows
    rw [overflows] at tells
    cases tells with
    | overflow checked large => exact ⟨rfl, checked, large⟩
  · intro length known
    rw [known] at tells
    cases tells with
    | unknown unknown => exact iff_of_true rfl (unknown_iff.mp unknown)
    | known measured => exact iff_of_false nofun (mt unknown_iff.mpr measured)
  · intro n tellsSize truthful
    rw [tellsSize] at tells
    cases tells with
    | known known counts =>
      have settled : measured.Settled :=
        (Advanced.length? build fs m).settled (settled_of_known (mt unknown_iff.mpr known))
      obtain ⟨items, complete, -, joined⟩ := MessageProducer.exists_completes_still fs measured
      refine ⟨items, _, complete, ?_, joins_joinItems items, ?_, ?_⟩
      · intro k
        rw [MessageProducer.answer_poll_eq settled, ← complete k, Nat.zero_add]
      · have again : (measured.length? build fs).value.1 = .ok (some n) :=
          (length?_length? build fs m).trans tellsSize
        rw [encode_eq, again, inBuffer, joined]
        exact if_congr largestBuffer_lt_iff rfl rfl
      · intro octets rendered
        rw [joined, outcome_length?] at rendered
        have size := length_outcome known truthful rendered
        exact ⟨size, size ▸ counts⟩
  · intro cause
    simp only [headers, told, requestHeaders_fst]
    rcases (m.length? build fs).value.1 with cause | length <;> simp [Except.map]
  · intro entries given
    exact ⟨fun value => (mem_requestHeaders given value).1,
      fun value => (mem_requestHeaders given value).2⟩

open Requests in
/-- A cursor that stands past its end, a script that has been read and the path of a file, after a
blocking producer was given up in the middle of the first body. -/
theorem length_applyAll_of_build_abandoned :
    let fs : FileSystem := ⟨[.directory 0 [([0x78], 1)], .regular [4, 5, 6, 7]], 0, 0, none⟩
    let script : Script :=
      { whole := [.data [7, 8]], rest := [], rewinding := .restores, length := some 2 }
    let b : Builder := { entropy := .failure "", boundary := some [0x42] }
    let files : List (String × Upload) :=
      [("f", .simple none (.reader (.cursor [1, 2, 3] 9))),
        ("g", .simple none (.reader (.script script))),
        ("h", .simple none (.path [0x78]))]
    let part (name : String) (source : Source) : FilePart :=
      { name, filename := none, headers := .empty, source }
    let f := part "f" (.reader (.cursor [1, 2, 3] 9))
    let g := part "g" (.reader (.script script))
    let h := part "h" (.path [0x78])
    let built : Message := ⟨⟨[0x42], by decide⟩, [.file f, .file g, .file h]⟩
    let operations : List Operation := [.iterate (.still fs) 3]
    let m := built.applyAll operations
    let measured := (m.length? .checked fs).value.2
    (b.build .empty files).value = .ok built ∧
      (m.length? .checked fs).value.1 = .ok (some 169) ∧
      ∃ items whole, Completes MessageProducer.next (.still fs) { message := measured } 0 items ∧
        Joins items whole ∧ (measured.encode .checked fs).value.1 = whole ∧
        ∀ octets, whole = .ok octets → octets.length = 169 := by
  intro fs script b files part f g h built operations m measured
  -- Unfolded, so that what the theorem says of them is found to be the same without computing it.
  unfold measured m
  have isBuilt : (b.build .empty files).value = .ok built := by rfl
  have told : ((built.applyAll operations).length? .checked fs).value.1 = .ok (some 169) := by
    decide
  have parts : (built.applyAll operations).parts =
      [.file { f with source := .reader (.cursor [1, 2, 3] 3), keptBlock := some f.freshBlock },
        .file g, .file h] := by rfl
  have fulfils : script.Truthful fs .standard := by
    intro n octets told read
    cases told
    have chunk : (Reader.script { script with rest := script.whole }).fill fs
        ChunkSize.standard.val = (.ok [7, 8], .script script) := by rfl
    have ended : ((Reader.script script).fill fs ChunkSize.standard.val).1 = .ok [] := by rfl
    have whole := (Reader.contents_of_fill_chunk _ _ chunk (by simp)).1
    rw [Reader.contents_of_fill_empty _ _ ended] at whole
    cases whole.symm.trans read
    rfl
  have regular : h.source.Truthful fs .standard := by
    intro reader opened
    have opens : fs.openFile [0x78] = .ok (.file ⟨1, 0⟩) := by decide
    cases opens.symm.trans opened
    exact trivial
  have truthful : ∀ part ∈ (built.applyAll operations).parts, part.Truthful fs := by
    rw [parts]
    exact List.forall_mem_cons.mpr ⟨trivial,
      List.forall_mem_cons.mpr ⟨fulfils, List.forall_mem_singleton.mpr regular⟩⟩
  obtain ⟨-, -, known, -⟩ := length_applyAll_of_build isBuilt operations .checked fs
  obtain ⟨items, whole, complete, -, joins, encoded, sized⟩ := known 169 told truthful
  rw [if_neg (by decide)] at encoded
  refine ⟨isBuilt, told, items, whole, complete, joins, encoded, ?_⟩
  intro octets rendered
  exact (sized octets rendered).2.eq_of_checked.symm

open Requests in
/-- A file that the system makes up passes for a regular one and says that it ends where it begins.
The six octets that it gives are not counted. -/
theorem length_of_made_up_file :
    let fs := FileSystem.initial
    let path := Utf8.encode "/proc/sys/kernel/ostype"
    let b : Builder := { entropy := .failure "", boundary := some [0x42] }
    let f : FilePart := { name := "a", filename := none, headers := .empty, source := .path path }
    let m : Message := ⟨⟨[0x42], by decide⟩, [.file f]⟩
    let octets := Utf8.encode
      "--B\r\nContent-Disposition: form-data; name=\"a\"\r\n\r\nLinux\n\r\n--B--\r\n"
    (b.build .empty [("a", .simple none (.path path))]).value = .ok m ∧
      (m.length? .checked fs).value.1 = .ok (some 58) ∧
      (m.encode .checked fs).value.1 = .ok octets ∧ octets.length = 64 := by
  intro fs path b f m octets
  exact ⟨rfl, by decide +kernel, by decide +kernel, by decide +kernel⟩

end Message

end Multipart
