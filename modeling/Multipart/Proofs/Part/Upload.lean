import Multipart.Proofs.Files.FileName
import Multipart.Proofs.Header.Disposition
import Multipart.Proofs.Header.Names
import Multipart.Proofs.Part.KeptBody
import Multipart.Proofs.Text.Lossy

/-!
# What a part is made of

The four shapes of an upload settle a filename, a content type and headers for the part that is made
of it, and so they settle its header block.
-/

namespace Multipart

open HeaderList

/-! ## Content types -/

namespace Upload

variable {lookup : MediaType.Lookup} {upload : Upload}

/-- What is added after the given headers. -/
inductive Adds (lookup : MediaType.Lookup) (upload : Upload) : List (String × String) → Prop
  | kept :
      (∃ header ∈ upload.givenHeaders.entries, Named "Content-Type" header) →
      Adds lookup upload []
  | given {type} :
      (∀ header ∈ upload.givenHeaders.entries, ¬ Named "Content-Type" header) →
      upload.givenType? = some type →
      Adds lookup upload [("Content-Type", type)]
  | guessed {filename} :
      (∀ header ∈ upload.givenHeaders.entries, ¬ Named "Content-Type" header) →
      upload.givenType? = none → upload.filename? = some filename → filename ≠ "" →
      Adds lookup upload [("Content-Type", (lookup filename).getD "application/octet-stream")]
  | untold :
      (∀ header ∈ upload.givenHeaders.entries, ¬ Named "Content-Type" header) →
      upload.givenType? = none → upload.filename? = none ∨ upload.filename? = some "" →
      Adds lookup upload []

theorem Adds.eq_nil {added : List (String × String)} (adds : upload.Adds lookup added)
    (present : ∃ header ∈ upload.givenHeaders.entries, Named "Content-Type" header) :
    added = [] := by
  obtain ⟨header, member, named⟩ := present
  cases adds with
  | kept => rfl
  | given absent | guessed absent | untold absent => exact absurd named (absent header member)

theorem exists_adds (lookup : MediaType.Lookup) (upload : Upload) :
    ∃ added, upload.Adds lookup added ∧
      (upload.headers lookup).entries = upload.givenHeaders.entries ++ added := by
  have present : upload.givenHeaders.contains "Content-Type" = true ↔
      ∃ header ∈ upload.givenHeaders.entries, Named "Content-Type" header := contains_iff
  unfold Upload.headers
  cases contained : upload.givenHeaders.contains "Content-Type" with
  | true =>
    refine ⟨[], .kept (present.mp contained), ?_⟩
    rw [List.append_nil]
    cases upload.contentType? lookup <;> rfl
  | false =>
    have absent : ∀ header ∈ upload.givenHeaders.entries, ¬ Named "Content-Type" header := by
      intro header member named
      rw [present.mpr ⟨header, member, named⟩] at contained
      cases contained
    rw [contentType?]
    cases given : upload.givenType? with
    | some type => exact ⟨_, .given absent given, rfl⟩
    | none =>
      cases filename : upload.filename? with
      | none => exact ⟨[], .untold absent given (.inl filename), (List.append_nil _).symm⟩
      | some f =>
        by_cases empty : f = ""
        · subst empty
          exact ⟨[], .untold absent given (.inr filename), (List.append_nil _).symm⟩
        · refine ⟨_, .guessed absent given filename empty, ?_⟩
          simp [MediaType.guess?, empty, MediaType.fallback]

end Upload

/-! ## Filenames of bare sources -/

/-- What a bare source is called. -/
inductive Source.Called : Source → String → Prop
  | name {path name} : Path.LastName path name → Called (.path path) (Utf8.decodeLossy name)
  | noName {path} : (∀ name, ¬ Path.LastName path name) → Called (.path path) "upload"
  | noPath {source} : (∀ path, source ≠ .path path) → Called source "upload"

namespace Source.Called

variable {source : Source} {filename : String}

theorem of_name? (source : Source) : source.Called (source.name?.getD "upload") := by
  cases source with
  | bytes | text | reader | stream => exact .noPath nofun
  | path path =>
    rw [Source.name?]
    cases last : path.fileName? with
    | some name => exact .name (Path.fileName?_eq_some_iff.mp last)
    | none =>
      refine .noName ?_
      intro name named
      rw [Path.fileName?_eq_some_iff.mpr named] at last
      cases last

theorem ne_empty (called : source.Called filename) : filename ≠ "" := by
  cases called with
  | noName | noPath => decide
  | name last =>
    intro empty
    rw [Utf8.decodeLossy_eq_empty_iff] at empty
    subst empty
    cases last.2.1

theorem slash_absent (called : source.Called filename) : '/' ∉ filename.toList := by
  cases called with
  | noName | noPath => decide
  | name last =>
    intro member
    exact last.slash_absent (Utf8.mem_of_mem_decodeLossy member (by decide))

theorem eq_of_encode {path : Path} {text : String} (called : (Source.path path).Called filename)
    (last : path.LastName (Utf8.encode text)) : filename = text := by
  have last := Path.fileName?_eq_some_iff.mpr last
  cases called with
  | name named =>
    rw [Path.fileName?_eq_some_iff.mpr named, Option.some_inj] at last
    rw [last, Utf8.decodeLossy_encode]
  | noName unnamed => exact absurd (Path.fileName?_eq_some_iff.mp last) (unnamed _)
  | noPath noPath => exact absurd rfl (noPath path)

end Source.Called

/-! ## Parts -/

namespace FilePart

open HeaderBlock Quoting Parameter

/-- An upload that is not in text mode is made into a part. Its headers are the given ones, with a
content type after them if they have none and one is given or guessed. The first content type among
them is that of the part. They stand in the block in their order after the disposition line, which
has a filename parameter for a filename that is not empty. A bare source is always called something,
and so it has both. -/
theorem ofUpload_binary (lookup : MediaType.Lookup) (name : String) (upload : Upload)
    (binary : upload.source.isTextMode = false) :
    ∃ p, ofUpload lookup name upload = .ok p ∧
      (p.name = name ∧ p.filename = upload.filename? ∧ p.source = upload.source) ∧
      (∃ added, upload.Adds lookup added ∧
        p.headers.entries = upload.givenHeaders.entries ++ added) ∧
      (∀ value, p.contentType? = some value ↔
        ∃ before header after, p.headers.entries = before ++ header :: after ∧
          Named "Content-Type" header ∧ header.2 = value ∧
          ∀ other ∈ before, ¬ Named "Content-Type" other) ∧
      (∃ line : Bytes, line.Unbroken ∧
        p.block.1 = line ++ [0x0D, 0x0A] ++ (p.headers.entries.map fun header =>
          Utf8.encode header.1 ++ [0x3A, 0x20] ++ Utf8.encode header.2 ++ [0x0D, 0x0A]).flatten ++
          [0x0D, 0x0A] ∧
        ∀ pairs, stretches pairs false line =
          match filled upload.filename? with
          | none => [opening, quoted name, []]
          | some f => [opening, quoted name, filenameOpening, quoted f, []]) ∧
      ∀ source, upload = .bare source →
        ∃ filename, source.Called filename ∧ filename ≠ "" ∧ '/' ∉ filename.toList ∧
          (∀ path text, source = .path path → path.LastName (Utf8.encode text) →
            filename = text) ∧
          filled p.filename = some filename ∧
          p.headers.entries =
            [("Content-Type", (lookup filename).getD "application/octet-stream")] := by
  obtain ⟨added, adds, entries⟩ := upload.exists_adds lookup
  let p : FilePart :=
    { name
      filename := upload.filename?
      headers := upload.headers lookup
      source := upload.source }
  refine ⟨p, ?_, ⟨rfl, rfl, rfl⟩, ⟨added, adds, entries⟩, fun value => get?_eq_some_iff, ?_, ?_⟩
  · rw [ofUpload, binary]
    rfl
  · refine ⟨disposition name upload.filename?, unbroken_disposition _ _, ?_,
      fun pairs => stretches_disposition pairs _ _⟩
    have block : p.block.1 = _ := render_eq name upload.filename? (upload.headers lookup)
    rw [block, remainder, ← List.append_assoc]
    rfl
  · rintro source rfl
    have called := Source.Called.of_name? source
    have nonempty := called.ne_empty
    refine ⟨_, called, nonempty, called.slash_absent, ?_, filled_of_ne nonempty, ?_⟩
    · rintro path text rfl last
      exact called.eq_of_encode last
    · rw [entries]
      cases adds with
      | guessed _ _ filename =>
        cases filename
        rfl
      | kept present =>
        obtain ⟨header, member, -⟩ := present
        cases member
      | given _ type => cases type
      | untold _ _ empty =>
        rcases empty with missing | empty
        · cases missing
        · exact absurd (Option.some_inj.mp empty) nonempty

/-- A path that ends in fillers, and headers that have a content type twice. -/
theorem ofUpload_binary_named :
    let lookup : MediaType.Lookup := fun _ => none
    let path : Path := Utf8.encode "d/a.b//."
    let headers : HeaderList := ⟨[("X", "1"), ("content-TYPE", "t/a"), ("Content-Type", "t/b")]⟩
    (∃ p, ofUpload lookup "f" (.bare (.path path)) = .ok p ∧ p.filename = some "a.b" ∧
      p.contentType? = some "application/octet-stream") ∧
    ∃ p, ofUpload lookup "f" (.full (some "") (.bytes []) (some "t/c") headers) = .ok p ∧
      p.headers = headers ∧ p.contentType? = some "t/a" ∧
      ∃ line : Bytes, line.Unbroken ∧ p.block.1 =
        line ++ Utf8.encode "\r\nX: 1\r\ncontent-TYPE: t/a\r\nContent-Type: t/b\r\n\r\n" := by
  intro lookup path headers
  have last : path.LastName (Utf8.encode "a.b") := Path.fileName?_eq_some_iff.mp (by decide)
  refine ⟨?_, ?_⟩
  · obtain ⟨p, made, ⟨-, filename, -⟩, -, type, -, bare⟩ :=
      ofUpload_binary lookup "f" (.bare (.path path)) rfl
    obtain ⟨f, -, -, -, text, filled_eq, entries⟩ := bare _ rfl
    obtain rfl : f = "a.b" := text path "a.b" rfl last
    refine ⟨p, made, ?_, (type _).mpr ⟨[], _, [], entries, by decide, rfl, nofun⟩⟩
    exact (Option.filter_eq_some_iff.mp filled_eq).1
  · obtain ⟨p, made, -, ⟨added, adds, entries⟩, type, ⟨line, unbroken, block, -⟩, -⟩ :=
      ofUpload_binary lookup "f" (.full (some "") (.bytes []) (some "t/c") headers) rfl
    have present : ∃ header ∈ headers.entries, Named "Content-Type" header :=
      ⟨("content-TYPE", "t/a"), by decide, by decide⟩
    obtain rfl := adds.eq_nil present
    refine ⟨p, made, congrArg HeaderList.mk entries,
      (type _).mpr ⟨[("X", "1")], _, _, entries, by decide, rfl, by decide⟩, line, unbroken, ?_⟩
    rw [block, entries, List.append_assoc, List.append_assoc]
    exact congrArg (line ++ ·) (by decide +kernel)

end FilePart

end Multipart
