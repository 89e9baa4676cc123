import Mathlib.Data.List.DropRight
import Multipart.Header.ContentType
import Multipart.Proofs.Message.Built
import Multipart.Proofs.Text.Utf8

/-!
# The boundary in the content type of a message

A message writes its boundary into its content type without quotes around it. What is read back
there ends before the first semicolon, and has lost the blanks at its end and the quotes around it.
So a boundary comes back unless it has one of these where it would be lost. A random one never has.
-/

namespace Multipart

/-! ## Cuts -/

namespace Bytes

theorem sections_eq (separator : UInt8) (bs : Bytes) :
    sections separator bs = bs.takeWhile (· != separator) ::
      match bs.dropWhile (· != separator) with
      | [] => []
      | _ :: rest => sections separator rest := by
  induction bs with
  | nil => rfl
  | cons b bs ih =>
    rw [sections, List.takeWhile_cons, List.dropWhile_cons, ih]
    by_cases separates : b = separator
    · simp [separates, ← ih]
    · simp [separates]

/-- What is before a separator, and has none in it, is a section by itself. -/
theorem sections_append_cons {separator : UInt8} {before : Bytes} (absent : separator ∉ before)
    (bs : Bytes) :
    sections separator (before ++ separator :: bs) = before :: sections separator bs := by
  have kept : ∀ o ∈ before, (o != separator) = true := by
    intro o member
    exact bne_iff_ne.mpr (ne_of_mem_of_not_mem member absent)
  rw [sections_eq, List.takeWhile_append_of_pos kept, List.dropWhile_append_of_pos kept]
  simp

theorem dropEndWhile_sublist (p : UInt8 → Bool) (bs : Bytes) : (dropEndWhile p bs).Sublist bs :=
  (List.rdropWhile_prefix p bs).sublist

theorem dropEndWhile_eq_self_iff {p : UInt8 → Bool} {bs : Bytes} :
    dropEndWhile p bs = bs ↔ ∀ o ∈ bs.getLast?, p o = false := by
  refine List.rdropWhile_eq_self_iff.trans ?_
  cases bs using List.reverseRecOn with
  | nil => simp
  | append_singleton => simp

theorem dropEndWhile_append_cons (p : UInt8 → Bool) (before : Bytes) {o : UInt8}
    (stays : p o = false) (bs : Bytes) :
    dropEndWhile p (before ++ o :: bs) = before ++ o :: dropEndWhile p bs := by
  have turned : (before ++ o :: bs).reverse = bs.reverse ++ o :: before.reverse := by simp
  rw [dropEndWhile, dropEndWhile, turned, List.dropWhile_append]
  split
  · next all => simp [List.isEmpty_iff.mp all, stays]
  · simp

end Bytes

/-! ## Reading a boundary back -/

namespace ContentType

open Bytes

theorem stripQuotes_sublist (bs : Bytes) : (stripQuotes bs).Sublist bs :=
  (dropEndWhile_sublist _ _).trans (List.dropWhile_sublist _)

theorem stripQuotes_eq_self_iff {bs : Bytes} :
    stripQuotes bs = bs ↔ bs.head? ≠ some Octet.quote ∧ bs.getLast? ≠ some Octet.quote := by
  have atHead : bs.dropWhile (· == Octet.quote) = bs ↔ bs.head? ≠ some Octet.quote := by
    cases bs <;> simp
  have atEnd : dropEndWhile (· == Octet.quote) bs = bs ↔ bs.getLast? ≠ some Octet.quote := by
    rw [dropEndWhile_eq_self_iff]
    cases bs.getLast? <;> simp
  constructor
  · intro same
    have kept : (stripQuotes bs).Sublist (bs.dropWhile (· == Octet.quote)) :=
      dropEndWhile_sublist _ _
    rw [same] at kept
    have unchanged := (List.dropWhile_sublist _).antisymm kept
    refine ⟨atHead.mp unchanged, atEnd.mp ?_⟩
    rwa [stripQuotes, unchanged] at same
  · rintro ⟨head, last⟩
    rw [stripQuotes, atHead.mpr head, atEnd.mpr last]

/-- What is left of a boundary that was written into a content type. -/
def readBack (bs : Bytes) : Bytes :=
  stripQuotes (dropEndWhile Octet.isBlank (bs.takeWhile (· != Octet.semicolon)))

/-- Nothing in this boundary is lost in a content type. -/
structure Recoverable (bs : Bytes) : Prop where
  semicolon : Octet.semicolon ∉ bs
  head : bs.head? ≠ some Octet.quote
  last : bs.getLast? ≠ some Octet.quote
  blank : ∀ o ∈ bs.getLast?, Octet.isBlank o = false

theorem readBack_eq_self_iff {bs : Bytes} : readBack bs = bs ↔ Recoverable bs := by
  have unseparated : bs.takeWhile (· != Octet.semicolon) = bs ↔ Octet.semicolon ∉ bs := by
    rw [List.takeWhile_eq_self_iff]
    simp [List.forall_mem_ne']
  constructor
  · -- Every cut makes the boundary shorter or leaves it alone, so none of them does anything.
    intro same
    have cut : (bs.takeWhile (· != Octet.semicolon)).Sublist bs := List.takeWhile_sublist _
    have ended := dropEndWhile_sublist Octet.isBlank (bs.takeWhile (· != Octet.semicolon))
    have stripped : (readBack bs).Sublist _ := stripQuotes_sublist _
    rw [same] at stripped
    have whole := cut.antisymm (stripped.trans ended)
    rw [whole] at ended stripped
    have unblank := ended.antisymm stripped
    rw [readBack, whole, unblank] at same
    obtain ⟨head, last⟩ := stripQuotes_eq_self_iff.mp same
    exact ⟨unseparated.mp whole, head, last, dropEndWhile_eq_self_iff.mp unblank⟩
  · rintro ⟨semicolon, head, last, blank⟩
    rw [readBack, unseparated.mpr semicolon, dropEndWhile_eq_self_iff.mpr blank,
      stripQuotes_eq_self_iff.mpr ⟨head, last⟩]

theorem trim_boundaryParameter (bs : Bytes) :
    trim (0x20 :: (boundaryParameter ++ bs)) =
      boundaryParameter ++ dropEndWhile Octet.isBlank bs := by
  have ends : boundaryParameter = Utf8.encode "boundary" ++ [0x3D] := by decide
  have begins : (0x20 :: (boundaryParameter ++ bs)).dropWhile Octet.isBlank =
      boundaryParameter ++ bs := rfl
  rw [trim, begins, ends, List.append_assoc, List.singleton_append,
    dropEndWhile_append_cons _ _ (by decide), List.append_assoc, List.singleton_append]

theorem isBoundary_append (bs : Bytes) : isBoundary (boundaryParameter ++ bs) = true := by
  rw [isBoundary, List.take_left]
  exact beq_self_eq_true _

theorem boundary?_append (bs : Bytes) :
    boundary? (Utf8.encode "multipart/form-data; boundary=" ++ bs) = some (readBack bs) := by
  have opening : Utf8.encode "multipart/form-data; boundary=" =
      formData ++ Octet.semicolon :: 0x20 :: boundaryParameter := by decide
  have kept : ∀ o ∈ 0x20 :: boundaryParameter, (o != Octet.semicolon) = true :=
    List.all_eq_true.mp (by decide)
  have others : isBoundary (trim formData) = false := by decide
  rw [opening, List.append_assoc, List.cons_append, List.cons_append, boundary?, if_pos (by simp),
    sections_append_cons (by decide), sections_eq, ← List.cons_append,
    List.takeWhile_append_of_pos kept, List.cons_append]
  simp only [List.map_cons, List.find?_cons, others, trim_boundaryParameter, isBoundary_append,
    Option.map_some, List.drop_left, readBack]

end ContentType

/-! ## Boundaries as text -/

namespace Boundary

theorem encode_text (b : Boundary) : Utf8.encode b.text = b.bytes := by
  rw [Utf8.encode, text, String.toList_ofList, Utf8.encodeChars, List.flatMap_map]
  have ascii := List.all_eq_true.mp b.ascii
  generalize b.bytes = bytes at ascii
  induction bytes with
  | nil => rfl
  | cons o bytes ih =>
    obtain ⟨first, rest⟩ := List.forall_mem_cons.mp ascii
    rw [List.flatMap_cons, Utf8.utf8EncodeChar_ofNat first, ih rest, List.singleton_append]

/-! ## Random boundaries -/

theorem ofRandom_cons (o : UInt8) (raw : Bytes) :
    (ofRandom (o :: raw)).bytes =
      (Hex.digit (o.toNat / 16)).toUInt8 :: (Hex.digit (o.toNat % 16)).toUInt8 ::
        (ofRandom raw).bytes := rfl

theorem exists_digit_of_mem_ofRandom {raw : Bytes} {o : UInt8}
    (member : o ∈ (ofRandom raw).bytes) : ∃ n < 16, o = (Hex.digit n).toUInt8 := by
  induction raw with
  | nil => cases member
  | cons octet raw ih =>
    have size := octet.toNat_lt
    rw [ofRandom_cons] at member
    rcases List.mem_cons.mp member with rfl | member
    · exact ⟨_, by omega, rfl⟩
    · rcases List.mem_cons.mp member with rfl | member
      · exact ⟨_, by omega, rfl⟩
      · exact ih member

theorem recoverable_ofRandom (raw : Bytes) : ContentType.Recoverable (ofRandom raw).bytes := by
  have digits : ∀ n < 16, (Hex.digit n).toUInt8 ≠ Octet.semicolon ∧
      (Hex.digit n).toUInt8 ≠ Octet.quote ∧ Octet.isBlank (Hex.digit n).toUInt8 = false := by
    decide
  have plain : ∀ o ∈ (ofRandom raw).bytes,
      o ≠ Octet.semicolon ∧ o ≠ Octet.quote ∧ Octet.isBlank o = false := by
    intro o member
    obtain ⟨n, small, rfl⟩ := exists_digit_of_mem_ofRandom member
    exact digits n small
  constructor
  · intro member
    exact (plain _ member).1 rfl
  · intro first
    exact (plain _ (List.mem_of_mem_head? first)).2.1 rfl
  · intro last
    exact (plain _ (List.mem_of_getLast? last)).2.1 rfl
  · intro o last
    exact (plain o (List.mem_of_getLast? last)).2.2

theorem ofRandom_injective : Function.Injective ofRandom := by
  have digits : ∀ m < 16, ∀ n < 16, (Hex.digit m).toUInt8 = (Hex.digit n).toUInt8 → m = n := by
    decide
  intro raw others same
  have bytes : (ofRandom raw).bytes = (ofRandom others).bytes := congrArg Boundary.bytes same
  clear same
  induction raw generalizing others with
  | nil =>
    cases others with
    | nil => rfl
    | cons other others => cases bytes
  | cons octet raw ih =>
    cases others with
    | nil => cases bytes
    | cons other others =>
      simp only [ofRandom_cons, List.cons.injEq] at bytes
      obtain ⟨high, low, rest⟩ := bytes
      have size := octet.toNat_lt
      have size' := other.toNat_lt
      have quotients := digits _ (by omega) _ (by omega) high
      have remainders := digits _ (by omega) _ (by omega) low
      have first : octet = other := UInt8.toNat_inj.mp (by omega)
      rw [first, ih rest]

end Boundary

/-! ## The boundary of a built message -/

namespace Message

open ContentType

variable {b : Builder} {form : Form} {files : List (String × Upload)} {m : Message}

theorem encode_contentType (m : Message) :
    Utf8.encode m.contentType =
      Utf8.encode "multipart/form-data; boundary=" ++ m.boundary.bytes := by
  rw [← m.boundary.encode_text]
  apply Utf8.encode_append

theorem boundary?_contentType (m : Message) :
    boundary? (Utf8.encode m.contentType) = some (readBack m.boundary.bytes) := by
  rw [encode_contentType, boundary?_append]

/-- A boundary that was chosen comes back if it is recoverable, and only then. One that was drawn
always is, and so for any other sixteen octets, which give another boundary. -/
theorem boundary?_contentType_of_build (built : (b.build form files).value = .ok m) :
    (∃ read, boundary? (Utf8.encode m.contentType) = some read ∧
      (read = m.boundary.bytes ↔ Recoverable m.boundary.bytes)) ∧
    (∀ given, b.boundary = some given → m.boundary.bytes = given) ∧
    (b.boundary = none →
      boundary? (Utf8.encode m.contentType) = some m.boundary.bytes ∧
        ∃ raw : Vector UInt8 16, b.entropy = .octets raw ∧
          m.boundary = .ofRandom raw.toList) ∧
    (∀ raw : Vector UInt8 16, Recoverable (Boundary.ofRandom raw.toList).bytes) ∧
    Function.Injective fun raw : Vector UInt8 16 => Boundary.ofRandom raw.toList := by
  have resolved := Builder.resolveBoundary_of_build built
  refine ⟨⟨_, boundary?_contentType m, readBack_eq_self_iff⟩, ?_, ?_, ?_, ?_⟩
  · intro given chosen
    simp only [Builder.resolveBoundary, chosen, Traced.value_pure, Boundary.ofBytes] at resolved
    split at resolved
    · exact (congrArg Boundary.bytes (Except.ok.inj resolved)).symm
    · cases resolved
  · intro unset
    simp only [Builder.resolveBoundary, unset] at resolved
    cases entropy : b.entropy with
    | failure reason =>
      rw [entropy] at resolved
      cases resolved
    | octets raw =>
      rw [entropy] at resolved
      have drawn : m.boundary = .ofRandom raw.toList := (Except.ok.inj resolved).symm
      refine ⟨?_, raw, rfl, drawn⟩
      rw [boundary?_contentType, drawn]
      exact congrArg some (readBack_eq_self_iff.mpr (Boundary.recoverable_ofRandom _))
  · intro raw
    exact Boundary.recoverable_ofRandom _
  · intro raw other same
    exact Vector.toList_inj.mp (Boundary.ofRandom_injective same)

/-- A boundary that has the beginning of a parameter in it comes back whole, and one that has the
end of a parameter in it does not. -/
theorem boundary?_contentType_of_build_parameter :
    let form := Form.empty
    let b : Builder := { entropy := .failure "" }
    let whole : Message := ⟨⟨Utf8.encode " boundary=x\"y", by decide⟩, []⟩
    let cut : Message := ⟨⟨Utf8.encode "x; boundary=y", by decide⟩, []⟩
    ((b.setBoundary whole.boundary.bytes).build form []).value = .ok whole ∧
    ((b.setBoundary cut.boundary.bytes).build form []).value = .ok cut ∧
    boundary? (Utf8.encode whole.contentType) = some whole.boundary.bytes ∧
    ∃ read ≠ cut.boundary.bytes, boundary? (Utf8.encode cut.contentType) = some read := by
  intro form b whole cut
  have builtWhole : ((b.setBoundary whole.boundary.bytes).build form []).value = .ok whole := rfl
  have builtCut : ((b.setBoundary cut.boundary.bytes).build form []).value = .ok cut := rfl
  refine ⟨builtWhole, builtCut, ?_, ?_⟩
  · obtain ⟨⟨read, found, same⟩, -⟩ := boundary?_contentType_of_build builtWhole
    have recoverable : Recoverable whole.boundary.bytes := by
      refine ⟨by decide, by decide, by decide, ?_⟩
      intro o last
      obtain rfl : 0x79 = o := Option.some.inj last
      decide
    rw [found, same.mpr recoverable]
  · obtain ⟨⟨read, found, same⟩, -⟩ := boundary?_contentType_of_build builtCut
    refine ⟨read, ?_, found⟩
    intro equal
    exact (same.mp equal).semicolon (by decide)

end Message

end Multipart
