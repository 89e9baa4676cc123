import Multipart.Message.Builder
import Multipart.Proofs.Message.Layout
import Multipart.Proofs.Success

/-!
# Messages as they are built

What the fields of a form and the files are to be sent as is known before anything is rendered. The
blocking producer of a new message gives just that, one item at each request.
-/

namespace Multipart

namespace Builder

variable (b : Builder) (form : Form) (files : List (String × Upload))

/-- The part of a file of which nothing has been rendered. -/
def freshFile (name : String) (upload : Upload) : FilePart where
  name
  filename := upload.filename?
  headers := upload.headers b.lookup
  source := upload.source
  chunkSize := b.chunkSize

def scalarOutline (name : String) (value : Scalar) : Outline :=
  ⟨HeaderBlock.render name none .empty, .held value.encode⟩

def fileOutline (name : String) (upload : Upload) : Outline :=
  ⟨HeaderBlock.render name upload.filename? (upload.headers b.lookup),
    .ofSource b.chunkSize upload.source⟩

/-- Scalars in the order of the form, lists in place, and then files in the order given. -/
def outlines : List Outline :=
  (form.scalars.map fun (name, value) => scalarOutline name value) ++
    files.map fun (name, upload) => b.fileOutline name upload

variable {b form files} {m : Message}

theorem filePart_of_binary {name : String} {upload : Upload}
    (binary : upload.source.isTextMode = false) :
    b.filePart name upload = .ok (.file (b.freshFile name upload)) := by
  simp [filePart, FilePart.ofUpload, binary, FilePart.withChunkSize, freshFile,
    ChunkSize.replace_of_pos _ b.chunkSize.property]

theorem filePart_eq_ok_iff {name : String} {upload : Upload} {part : Part} :
    b.filePart name upload = .ok part ↔
      upload.source.isTextMode = false ∧ part = .file (b.freshFile name upload) := by
  cases mode : upload.source.isTextMode with
  | true => simp [filePart, FilePart.ofUpload, mode]
  | false => simp [filePart_of_binary mode, eq_comm]

theorem fileParts_eq_ok_iff {parts : List Part} :
    b.fileParts files = .ok parts ↔
      (∀ file ∈ files, file.2.source.isTextMode = false) ∧
      parts = files.map fun (name, upload) => .file (b.freshFile name upload) := by
  rw [fileParts, mapM_eq_ok_iff]
  simp only [filePart_eq_ok_iff, List.forall₂_and_left, eq_comm (b := Part.file _)]
  rw [eq_comm, ← List.forall₂_eq_eq_eq, List.forall₂_map_left_iff]

theorem exists_of_build (built : (b.build form files).value = .ok m) :
    ∃ boundary parts, b.resolveBoundary.value = .ok boundary ∧ b.fileParts files = .ok parts ∧
      m = ⟨boundary, scalarParts form ++ parts⟩ := by
  simp only [build, Traced.value_bind] at built
  cases resolved : b.resolveBoundary.value with
  | error e => rw [resolved] at built; cases built
  | ok boundary =>
    cases given : b.fileParts files with
    | error e => simp only [resolved, given] at built; cases built
    | ok parts =>
      simp only [resolved, given] at built
      cases built
      exact ⟨boundary, parts, rfl, rfl, rfl⟩

theorem parts_of_build (built : (b.build form files).value = .ok m) :
    m.parts =
      scalarParts form ++ files.map fun (name, upload) => .file (b.freshFile name upload) := by
  obtain ⟨_, parts, -, files, rfl⟩ := exists_of_build built
  rw [(fileParts_eq_ok_iff.mp files).2]

theorem resolveBoundary_of_build (built : (b.build form files).value = .ok m) :
    b.resolveBoundary.value = .ok m.boundary := by
  obtain ⟨_, _, resolved, -, rfl⟩ := exists_of_build built
  exact resolved

theorem outlines_of_build (built : (b.build form files).value = .ok m) :
    m.parts.map Part.outline = b.outlines form files := by
  rw [parts_of_build built, List.map_append, scalarParts, List.map_map, List.map_map]
  rfl

end Builder

namespace MessageProducer

open Requests

variable {b : Builder} {form : Form} {files : List (String × Upload)} {m : Message}

end MessageProducer

end Multipart
