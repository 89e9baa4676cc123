import Multipart.Proofs.Decoding.HeaderLines
import Multipart.Proofs.Message.Built

/-!
# What is received is what was sent

The fields of a form and the files, each as its header lines and its content, come out again when
the octets of the message are split at its boundary.
-/

namespace Multipart

namespace Builder

open Splitter

variable (fs : FileSystem) (b : Builder)

def scalarField (name : String) (value : Scalar) : List Bytes × Bytes :=
  (HeaderBlock.lines name none .empty, value.encode)

/-- The content of a file is all that its source gives. -/
def fileField (name : String) (upload : Upload) : Except EncodingError (List Bytes × Bytes) :=
  ((Content.ofSource b.chunkSize upload.source).outcome fs).map
    (HeaderBlock.lines name upload.filename? (upload.headers b.lookup), ·)

/-- Scalars in the order of the form, lists in place, and then files in the order given. A file that
cannot be read to its end fails. -/
def fields (form : Form) (files : List (String × Upload)) :
    Except EncodingError (List (List Bytes × Bytes)) :=
  (files.mapM fun (name, upload) => b.fileField fs name upload).map
    ((form.scalars.map fun (name, value) => scalarField name value) ++ ·)

variable {fs b} {form : Form} {files : List (String × Upload)} {fields : List (List Bytes × Bytes)}

theorem outcome_scalarOutline (name : String) (value : Scalar) :
    (scalarOutline name value).outcome fs = .ok (written (scalarField name value)) := rfl

theorem outcome_scalarOutlines (pairs : List (String × Scalar)) :
    (pairs.map fun (name, value) => scalarOutline name value).mapM (Outline.outcome fs) =
      .ok ((pairs.map fun (name, value) => scalarField name value).map written) := by
  induction pairs with
  | nil => rfl
  | cons pair pairs ih =>
    rw [List.map_cons, List.mapM_cons, outcome_scalarOutline, ih]
    rfl

theorem outcome_fileOutline (name : String) (upload : Upload) :
    (b.fileOutline name upload).outcome fs = (b.fileField fs name upload).map written := by
  unfold fileOutline fileField Outline.outcome
  cases (Content.ofSource b.chunkSize upload.source).outcome fs <;> rfl

theorem outcome_fileOutlines (files : List (String × Upload)) :
    (files.map fun (name, upload) => b.fileOutline name upload).mapM (Outline.outcome fs) =
      (files.mapM fun (name, upload) => b.fileField fs name upload).map (List.map written) := by
  induction files with
  | nil => rfl
  | cons file files ih =>
    obtain ⟨name, upload⟩ := file
    simp only [List.map_cons, List.mapM_cons, outcome_fileOutline, ih]
    cases b.fileField fs name upload with
    | error e => rfl
    | ok field =>
      cases files.mapM (fun (name, upload) => b.fileField fs name upload) <;> rfl

theorem outcome_outlines (form : Form) (files : List (String × Upload)) :
    (b.outlines form files).mapM (Outline.outcome fs) =
      (b.fields fs form files).map (List.map written) := by
  rw [outlines, List.mapM_append, outcome_scalarOutlines, outcome_fileOutlines, Builder.fields]
  cases files.mapM (fun (name, upload) => b.fileField fs name upload) with
  | error e => rfl
  | ok contents =>
    simp [Except.map, bind, Except.bind, pure, Except.pure]

theorem lines_of_fileField {name : String} {upload : Upload} {field : List Bytes × Bytes}
    (rendered : b.fileField fs name upload = .ok field) :
    field.1 = HeaderBlock.lines name upload.filename? (upload.headers b.lookup) := by
  obtain ⟨body, -, rfl⟩ := map_eq_ok_iff.mp rendered
  rfl

theorem wellFormed_fileFields {contents : List (List Bytes × Bytes)}
    (rendered : (files.mapM fun (name, upload) => b.fileField fs name upload) = .ok contents)
    (headers : ∀ file ∈ files, ∀ header ∈ (file.2.headers b.lookup).entries,
      Text.Unbroken header.1.toList ∧ Text.Unbroken header.2.toList) :
    ∀ field ∈ contents, WellFormed field.1 := by
  induction files generalizing contents with
  | nil => cases rendered; simp
  | cons file files ih =>
    obtain ⟨content, others, first, rest, rfl⟩ := mapM_cons_eq_ok_iff.mp rendered
    intro field member
    rcases List.mem_cons.mp member with rfl | later
    · rw [lines_of_fileField first]
      exact HeaderBlock.wellFormed_lines _ _ (headers _ List.mem_cons_self)
    · refine ih rest ?_ field later
      intro file member
      exact headers file (List.mem_cons_of_mem _ member)

/-- Of the headers, only those that are given for a file can have a line break in them. -/
theorem wellFormed_fields (rendered : b.fields fs form files = .ok fields)
    (headers : ∀ file ∈ files, ∀ header ∈ (file.2.headers b.lookup).entries,
      Text.Unbroken header.1.toList ∧ Text.Unbroken header.2.toList) :
    ∀ field ∈ fields, WellFormed field.1 := by
  obtain ⟨contents, read, rfl⟩ := map_eq_ok_iff.mp rendered
  intro field member
  rcases List.mem_append.mp member with scalar | file
  · obtain ⟨⟨name, value⟩, -, rfl⟩ := List.mem_map.mp scalar
    exact HeaderBlock.wellFormed_lines name none nofun
  · exact wellFormed_fileFields read headers field file

end Builder

namespace MessageProducer

open Requests Splitter

variable {b : Builder} {form : Form} {files : List (String × Upload)} {m : Message}
  {fields : List (List Bytes × Bytes)}

/-- The octets of a new message, with a line break before them, are split into its fields. -/
theorem split_items_of_build (built : (b.build form files).value = .ok m) (fs : FileSystem)
    (rendered : b.fields fs form files = .ok fields) (boundary : m.boundary.bytes.Unbroken)
    (headers : ∀ file ∈ files, ∀ header ∈ (file.2.headers b.lookup).entries,
      Text.Unbroken header.1.toList ∧ Text.Unbroken header.2.toList)
    (absent : ∀ field ∈ fields, ¬ mark m.boundary.bytes <:+: (written field).1 ++ field.2) :
    ∃ items octets, Completes next (.still fs) { message := m } 0 items ∧
      joinItems items = .ok octets ∧
      split m.boundary.bytes (crlf ++ octets) = some fields := by
  obtain ⟨items, complete, -, joined⟩ := exists_completes_still fs m
  rw [Message.outcome, Builder.outlines_of_build built, Builder.outcome_outlines, rendered]
    at joined
  exact ⟨items, _, complete, joined,
    split_frame boundary (Builder.wellFormed_fields rendered headers) absent⟩

/-- A filename that is a line break, and a body that ends like the beginning of a delimiter. -/
theorem split_items_of_build_partial_delimiter :
    let b : Builder := { entropy := .failure "", boundary := some [0x7E] }
    let form : Form := (Form.empty.insert "a" (.single (.text "1"))).insert "b" (.list [])
    let upload : Upload := .full (some "\r\n") (.bytes [0x0D, 0x0A, 0x2D, 0x2D]) (some "x/y") .empty
    let f : FilePart :=
      { name := "f"
        filename := some "\r\n"
        headers := ⟨[("Content-Type", "x/y")]⟩
        source := .bytes [0x0D, 0x0A, 0x2D, 0x2D] }
    let m : Message :=
      ⟨⟨[0x7E], by decide⟩, [.scalar { name := "a", value := .text "1" }, .file f]⟩
    (b.build form [("f", upload)]).value = .ok m ∧
      ∃ items octets, Completes next (.still .initial) { message := m } 0 items ∧
        joinItems items = .ok octets ∧
        split [0x7E] (crlf ++ octets) = some
          [([HeaderBlock.disposition "a" none], Utf8.encode "1"),
            ([HeaderBlock.disposition "f" (some "\r\n"), Utf8.encode "Content-Type: x/y"],
              [0x0D, 0x0A, 0x2D, 0x2D])] := by
  intro b form upload f m
  have built : (b.build form [("f", upload)]).value = .ok m := by rfl
  have rendered : b.fields .initial form [("f", upload)] = .ok
      [([HeaderBlock.disposition "a" none], Utf8.encode "1"),
        ([HeaderBlock.disposition "f" (some "\r\n"), Utf8.encode "Content-Type: x/y"],
          [0x0D, 0x0A, 0x2D, 0x2D])] := by rfl
  have boundary : m.boundary.bytes.Unbroken := by decide
  refine ⟨built, split_items_of_build built .initial rendered boundary (by decide) ?_⟩
  -- The only octet of the boundary does not occur in a part.
  intro field member occurs
  have inside : (0x7E : UInt8) ∈ (written field).1 ++ field.2 := occurs.subset (by decide)
  clear occurs
  revert field
  decide

end MessageProducer

end Multipart
