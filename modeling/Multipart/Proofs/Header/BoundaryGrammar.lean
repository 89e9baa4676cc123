import Multipart.Proofs.Header.ContentType

/-!
# The grammar of the boundary parameter

`HasBoundary` says what a content type with a boundary looks like, by what it is put together from:
the section that counts, what stands before and after it, the blanks and the quotes around the
boundary. Reading a content type accepts exactly this grammar.
-/

namespace Multipart

/-! ## Octets stripped from both ends -/

namespace Bytes

/-- `rest` is what is left of `bs` without the octets of a kind at both its ends. -/
structure Stripped (kind : UInt8 → Bool) (bs rest : Bytes) : Prop where
  written : ∃ left right, bs = left ++ rest ++ right ∧
    (∀ o ∈ left, kind o = true) ∧ ∀ o ∈ right, kind o = true
  head : ∀ o ∈ rest.head?, kind o = false
  last : ∀ o ∈ rest.getLast?, kind o = false

theorem head?_dropWhile (kind : UInt8 → Bool) (bs : Bytes) :
    ∀ o ∈ (bs.dropWhile kind).head?, kind o = false := by
  intro o first
  have stays := List.head?_dropWhile_not kind bs
  rw [Option.mem_def.mp first] at stays
  simpa using stays

theorem dropWhile_eq_self {kind : UInt8 → Bool} {bs : Bytes}
    (head : ∀ o ∈ bs.head?, kind o = false) : bs.dropWhile kind = bs := by
  cases bs with
  | nil => rfl
  | cons o bs => simp [head o rfl]

theorem exists_append_dropEndWhile (kind : UInt8 → Bool) (bs : Bytes) :
    ∃ right, dropEndWhile kind bs ++ right = bs ∧ ∀ o ∈ right, kind o = true := by
  refine ⟨(bs.reverse.takeWhile kind).reverse, ?_, ?_⟩
  · rw [dropEndWhile, ← List.reverse_append, List.takeWhile_append_dropWhile, List.reverse_reverse]
  · intro o member
    exact List.mem_takeWhile_imp (List.mem_reverse.mp member)

theorem dropEndWhile_append_of_all {kind : UInt8 → Bool} {right : Bytes}
    (all : ∀ o ∈ right, kind o = true) (bs : Bytes) :
    dropEndWhile kind (bs ++ right) = dropEndWhile kind bs := by
  have turned : ∀ o ∈ right.reverse, kind o = true := by
    intro o member
    exact all o (List.mem_reverse.mp member)
  rw [dropEndWhile, List.reverse_append, List.dropWhile_append_of_pos turned]
  rfl

theorem strip_eq_iff {kind : UInt8 → Bool} {bs rest : Bytes} :
    dropEndWhile kind (bs.dropWhile kind) = rest ↔ Stripped kind bs rest := by
  constructor
  · rintro rfl
    obtain ⟨right, kept, all⟩ := exists_append_dropEndWhile kind (bs.dropWhile kind)
    refine ⟨⟨bs.takeWhile kind, right, ?_, ?_, all⟩, ?_, ?_⟩
    · rw [List.append_assoc, kept, List.takeWhile_append_dropWhile]
    · intro o member
      exact List.mem_takeWhile_imp member
    · intro o first
      apply head?_dropWhile kind bs o
      rw [← kept, List.head?_append, Option.mem_def.mp first]
      rfl
    · exact dropEndWhile_eq_self_iff.mp (List.rdropWhile_idempotent kind _)
  · rintro ⟨⟨left, right, rfl, before, after⟩, head, last⟩
    rw [List.append_assoc, List.dropWhile_append_of_pos before]
    cases rest with
    | nil =>
      rw [List.nil_append, List.dropWhile_eq_nil_iff.mpr after]
      rfl
    | cons o rest =>
      have stays : ((o :: rest) ++ right).dropWhile kind = (o :: rest) ++ right :=
        dropWhile_eq_self head
      rw [stays, dropEndWhile_append_of_all after, dropEndWhile_eq_self_iff.mpr last]

/-! ## Sections -/

variable {separator : UInt8}

/-- Nothing, or something with a separator at its end. -/
def Closed (separator : UInt8) (before : Bytes) : Prop :=
  before = [] ∨ ∃ sections, before = sections ++ [separator]

/-- Nothing, or something with a separator at its beginning. -/
def Opened (separator : UInt8) (after : Bytes) : Prop :=
  after = [] ∨ ∃ sections, after = separator :: sections

/-- `s` is one of the stretches of `bs` between separators. -/
def SectionOf (separator : UInt8) (bs s : Bytes) : Prop :=
  ∃ before after, bs = before ++ s ++ after ∧
    Closed separator before ∧ separator ∉ s ∧ Opened separator after

theorem sections_of_absent {bs : Bytes} (absent : separator ∉ bs) :
    sections separator bs = [bs] := by
  have kept : ∀ o ∈ bs, (o != separator) = true := by
    intro o member
    exact bne_iff_ne.mpr (ne_of_mem_of_not_mem member absent)
  rw [sections_eq, List.takeWhile_eq_self_iff.mpr kept, List.dropWhile_eq_nil_iff.mpr kept]

/-- A separator ends one list of sections and begins another. -/
theorem sections_append_separator (before bs : Bytes) :
    sections separator (before ++ separator :: bs) =
      sections separator before ++ sections separator bs := by
  induction before with
  | nil => exact sections_append_cons List.not_mem_nil bs
  | cons o before ih =>
    obtain ⟨first, rest, parted⟩ :=
      List.exists_cons_of_ne_nil (sections_ne_nil separator before)
    simp only [List.cons_append, sections, ih, parted]
    split <;> rfl

/-- The first section is all there is, or a separator comes after it. -/
theorem of_sections_eq_cons {bs first : Bytes} {rest : List Bytes}
    (parted : sections separator bs = first :: rest) :
    separator ∉ first ∧ ((bs = first ∧ rest = []) ∨
      ∃ more, bs = first ++ separator :: more ∧ sections separator more = rest) := by
  rw [sections_eq, List.cons.injEq] at parted
  obtain ⟨rfl, rest_eq⟩ := parted
  have whole := List.takeWhile_append_dropWhile (p := (· != separator)) (l := bs)
  refine ⟨?_, ?_⟩
  · intro member
    simpa using List.mem_takeWhile_imp member
  · cases dropped : bs.dropWhile (· != separator) with
    | nil =>
      rw [dropped] at rest_eq whole
      exact .inl ⟨by simpa using whole.symm, rest_eq.symm⟩
    | cons o more =>
      have cut : (o != separator) = false := head?_dropWhile _ bs o (by rw [dropped]; rfl)
      obtain rfl : o = separator := by simpa using cut
      rw [dropped] at rest_eq whole
      exact .inr ⟨more, whole.symm, rest_eq⟩

/-- A section after others stands behind a separator, and these others are the sections of what is
before it. -/
theorem exists_of_sections_eq_append {bs s : Bytes} {before after : List Bytes}
    (parted : sections separator bs = before ++ s :: after) (later : before ≠ []) :
    ∃ p t, bs = p ++ separator :: (s ++ t) ∧ sections separator p = before ∧
      separator ∉ s ∧ Opened separator t := by
  induction before generalizing bs with
  | nil => exact absurd rfl later
  | cons first before ih =>
    obtain ⟨absent, ⟨-, none⟩ | ⟨more, rfl, following⟩⟩ := of_sections_eq_cons parted
    · simp at none
    · cases before with
      | nil =>
        obtain ⟨unseparated, ⟨rfl, -⟩ | ⟨others, rfl, -⟩⟩ := of_sections_eq_cons following
        · exact ⟨first, [], by rw [List.append_nil], sections_of_absent absent, unseparated,
            .inl rfl⟩
        · exact ⟨first, separator :: others, rfl, sections_of_absent absent, unseparated,
            .inr ⟨others, rfl⟩⟩
      | cons second before =>
        obtain ⟨p, t, rfl, sections_p, unseparated, opened⟩ := ih following (by simp)
        refine ⟨first ++ separator :: p, t, by simp, ?_, unseparated, opened⟩
        rw [sections_append_cons absent, sections_p]

theorem exists_sections_append {s t : Bytes} (absent : separator ∉ s)
    (opened : Opened separator t) : ∃ after, sections separator (s ++ t) = s :: after := by
  rcases opened with rfl | ⟨others, rfl⟩
  · exact ⟨[], by rw [List.append_nil, sections_of_absent absent]⟩
  · exact ⟨_, sections_append_cons absent others⟩

theorem mem_sections_iff {bs s : Bytes} :
    s ∈ sections separator bs ↔ SectionOf separator bs s := by
  constructor
  · intro member
    obtain ⟨before, after, parted⟩ := List.append_of_mem member
    cases before with
    | nil =>
      obtain ⟨absent, ⟨rfl, -⟩ | ⟨more, rfl, -⟩⟩ := of_sections_eq_cons parted
      · exact ⟨[], [], by simp, .inl rfl, absent, .inl rfl⟩
      · exact ⟨[], separator :: more, rfl, .inl rfl, absent, .inr ⟨more, rfl⟩⟩
    | cons first before =>
      obtain ⟨p, t, rfl, -, absent, opened⟩ := exists_of_sections_eq_append parted (by simp)
      exact ⟨p ++ [separator], t, by simp, .inr ⟨p, rfl⟩, absent, opened⟩
  · rintro ⟨before, after, rfl, closed, absent, opened⟩
    obtain ⟨others, parted⟩ := exists_sections_append absent opened
    rcases closed with rfl | ⟨p, rfl⟩
    · rw [List.nil_append, parted]
      exact List.mem_cons_self
    · rw [List.append_assoc, List.append_assoc, List.singleton_append, sections_append_separator,
        parted]
      exact List.mem_append_right _ List.mem_cons_self

end Bytes

/-! ## Content types with a boundary -/

namespace ContentType

open Bytes

/-- The parameter is called `boundary`, in any case. -/
def NamesBoundary (parameter : Bytes) : Prop :=
  ∃ keyword value, parameter = keyword ++ value ∧ sameFold keyword boundaryParameter = true

/-- `v` is the value of a boundary parameter, without the quotes around it. -/
def BoundaryValue (parameter v : Bytes) : Prop :=
  ∃ keyword value, parameter = keyword ++ value ∧ sameFold keyword boundaryParameter = true ∧
    Stripped (· == Octet.quote) value v

/-- `v` stands in the section `s` behind a semicolon, and no section before it names a boundary. -/
def HasBoundary (contentType v : Bytes) : Prop :=
  formData <+: contentType ∧
  ∃ p s t parameter, contentType = p ++ Octet.semicolon :: (s ++ t) ∧
    Octet.semicolon ∉ s ∧ Opened Octet.semicolon t ∧
    Stripped Octet.isBlank s parameter ∧ BoundaryValue parameter v ∧
    ∀ other, SectionOf Octet.semicolon p other →
      ∀ stripped, Stripped Octet.isBlank other stripped → ¬ NamesBoundary stripped

theorem length_of_sameFold {xs ys : Bytes} (same : sameFold xs ys = true) :
    xs.length = ys.length := by
  have mapped := congrArg List.length (eq_of_beq same)
  simpa using mapped

theorem isBoundary_iff {parameter : Bytes} :
    isBoundary parameter = true ↔ NamesBoundary parameter := by
  constructor
  · intro named
    exact ⟨_, _, (List.take_append_drop boundaryParameter.length parameter).symm, named⟩
  · rintro ⟨keyword, value, rfl, same⟩
    rw [isBoundary, ← length_of_sameFold same, List.take_left]
    exact same

theorem boundaryValue_iff {parameter v : Bytes} :
    BoundaryValue parameter v ↔ isBoundary parameter = true ∧
      stripQuotes (parameter.drop boundaryParameter.length) = v := by
  constructor
  · rintro ⟨keyword, value, rfl, same, stripped⟩
    refine ⟨isBoundary_iff.mpr ⟨keyword, value, rfl, same⟩, ?_⟩
    rw [← length_of_sameFold same, List.drop_left]
    exact strip_eq_iff.mpr stripped
  · rintro ⟨named, value⟩
    exact ⟨_, _, (List.take_append_drop boundaryParameter.length parameter).symm, named,
      strip_eq_iff.mp value⟩

theorem isBoundary_trim_formData (bs : Bytes) : isBoundary (trim (formData ++ bs)) = false := by
  have ends : formData = Utf8.encode "multipart/form-dat" ++ [0x61] := by decide
  have begins : (formData ++ bs).dropWhile Octet.isBlank = formData ++ bs := rfl
  have stays : trim (formData ++ bs) = formData ++ dropEndWhile Octet.isBlank bs := by
    rw [trim, begins, ends, List.append_assoc, List.singleton_append,
      dropEndWhile_append_cons _ _ (by decide), List.append_assoc, List.singleton_append]
  have other : isBoundary formData = false := by decide
  rw [stays, isBoundary, List.take_append_of_le_length (by decide)]
  exact other

theorem isBoundary_first_section {contentType s : Bytes} {after : List Bytes}
    (begins : formData <+: contentType)
    (parted : sections Octet.semicolon contentType = s :: after) : isBoundary (trim s) = false := by
  obtain ⟨rest, rfl⟩ := begins
  have kept : ∀ o ∈ formData, (o != Octet.semicolon) = true := List.all_eq_true.mp (by decide)
  rw [sections_eq, List.takeWhile_append_of_pos kept] at parted
  rw [← (List.cons.inj parted).1]
  exact isBoundary_trim_formData _

theorem find?_isBoundary_eq_some_iff {contentType parameter : Bytes} :
    ((sections Octet.semicolon contentType).map trim).find? isBoundary = some parameter ↔
      isBoundary parameter = true ∧ ∃ before s after,
        sections Octet.semicolon contentType = before ++ s :: after ∧ trim s = parameter ∧
          ∀ other ∈ before, isBoundary (trim other) = false := by
  rw [List.find?_map, Option.map_eq_some_iff]
  constructor
  · rintro ⟨s, found, rfl⟩
    obtain ⟨named, before, after, parted, others⟩ := List.find?_eq_some_iff_append.mp found
    refine ⟨named, before, s, after, parted, rfl, ?_⟩
    intro other member
    simpa using others other member
  · rintro ⟨named, before, s, after, parted, rfl, others⟩
    refine ⟨s, List.find?_eq_some_iff_append.mpr ⟨named, before, after, parted, ?_⟩, rfl⟩
    intro other member
    simpa using others other member

/-- Other sections name no boundary, said of the list of sections and of what it was cut from. -/
theorem forall_sections_iff {p : Bytes} :
    (∀ other ∈ sections Octet.semicolon p, isBoundary (trim other) = false) ↔
      ∀ other, SectionOf Octet.semicolon p other →
        ∀ stripped, Stripped Octet.isBlank other stripped → ¬ NamesBoundary stripped := by
  constructor
  · intro others other member stripped cut named
    have trimmed : trim other = stripped := strip_eq_iff.mpr cut
    have unnamed := others other (mem_sections_iff.mpr member)
    rw [trimmed, isBoundary_iff.mpr named] at unnamed
    cases unnamed
  · intro others other member
    rw [Bool.eq_false_iff]
    intro named
    exact others other (mem_sections_iff.mp member) (trim other) (strip_eq_iff.mp rfl)
      (isBoundary_iff.mp named)

theorem hasBoundary_of_boundary? {contentType v : Bytes} (found : boundary? contentType = some v) :
    HasBoundary contentType v := by
  simp only [boundary?] at found
  split at found
  · next opening =>
    obtain ⟨begins, -⟩ := (Bool.and_eq_true _ _).mp opening
    obtain ⟨parameter, first, value⟩ := Option.map_eq_some_iff.mp found
    obtain ⟨named, before, s, after, parted, trimmed, others⟩ :=
      find?_isBoundary_eq_some_iff.mp first
    have begins := List.isPrefixOf_iff_prefix.mp begins
    have later : before ≠ [] := by
      rintro rfl
      rw [← trimmed, isBoundary_first_section begins parted] at named
      cases named
    obtain ⟨p, t, whole, sections_p, unseparated, opened⟩ :=
      exists_of_sections_eq_append parted later
    refine ⟨begins, p, s, t, parameter, whole, unseparated, opened, strip_eq_iff.mp trimmed,
      boundaryValue_iff.mpr ⟨named, value⟩, forall_sections_iff.mp ?_⟩
    rw [sections_p]
    exact others
  · cases found

theorem boundary?_of_hasBoundary {contentType v : Bytes} (has : HasBoundary contentType v) :
    boundary? contentType = some v := by
  obtain ⟨begins, p, s, t, parameter, rfl, unseparated, opened, cut, value, others⟩ := has
  obtain ⟨named, rfl⟩ := boundaryValue_iff.mp value
  obtain ⟨after, parted⟩ := exists_sections_append unseparated opened
  have first : ((sections Octet.semicolon (p ++ Octet.semicolon :: (s ++ t))).map trim).find?
      isBoundary = some parameter := by
    refine find?_isBoundary_eq_some_iff.mpr ⟨named, sections Octet.semicolon p, s, after, ?_,
      strip_eq_iff.mpr cut, forall_sections_iff.mpr others⟩
    rw [sections_append_separator, parted]
  have begins := List.isPrefixOf_iff_prefix.mpr begins
  rw [boundary?, if_pos (by simp [begins]), first]
  rfl

/-- Reading finds the boundary of a content type exactly if the grammar has one, and which one it
finds is never in doubt. -/
theorem boundary?_eq_some_iff (contentType : Bytes) :
    (∀ v, boundary? contentType = some v ↔ HasBoundary contentType v) ∧
    (boundary? contentType = none ↔ ∀ v, ¬ HasBoundary contentType v) ∧
    ∀ v w, HasBoundary contentType v → HasBoundary contentType w → v = w := by
  have accepts : ∀ v, boundary? contentType = some v ↔ HasBoundary contentType v := by
    intro v
    exact ⟨hasBoundary_of_boundary?, boundary?_of_hasBoundary⟩
  refine ⟨accepts, ?_, ?_⟩
  · rw [Option.eq_none_iff_forall_ne_some]
    exact forall_congr' fun v => not_congr (accepts v)
  · intro v w first second
    exact Option.some.inj (((accepts v).mpr first).symm.trans ((accepts w).mpr second))

/-- A quote inside a boundary stays, and a second boundary does not count. -/
theorem boundary?_eq_some_iff_two_boundaries :
    let contentType := Utf8.encode "multipart/form-data; x=1;\t BOUNDARY=\"\"a\"b\" ; boundary=c"
    HasBoundary contentType (Utf8.encode "a\"b") ∧
      ∀ w, HasBoundary contentType w → w = Utf8.encode "a\"b" := by
  intro contentType
  obtain ⟨accepts, -, unique⟩ := boundary?_eq_some_iff contentType
  have has : HasBoundary contentType (Utf8.encode "a\"b") := (accepts _).mp (by decide)
  exact ⟨has, fun w other => unique w _ other has⟩

end ContentType

end Multipart
