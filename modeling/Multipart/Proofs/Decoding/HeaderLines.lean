import Multipart.Proofs.Decoding.Splitter
import Multipart.Proofs.Header.Escaping

/-!
# Header lines

A line break can come into a header line only through a header that the caller gives. The name of a
field and a filename are escaped, and UTF-8 uses the octets of a line break for nothing else.
-/

namespace Multipart

/-- There is no line break in this text, nor half of one. -/
def Text.Unbroken (cs : List Char) : Prop := ∀ c ∈ cs, c ≠ '\r' ∧ c ≠ '\n'

instance (cs : List Char) : Decidable (Text.Unbroken cs) := List.decidableBAll _ cs

namespace Bytes.Unbroken

theorem append {bs cs : Bytes} (first : Unbroken bs) (second : Unbroken cs) :
    Unbroken (bs ++ cs) := by
  intro o member
  rcases List.mem_append.mp member with member | member
  · exact first o member
  · exact second o member

end Bytes.Unbroken

namespace Text.Unbroken

theorem append {cs ds : List Char} (first : Unbroken cs) (second : Unbroken ds) :
    Unbroken (cs ++ ds) := by
  intro c member
  rcases List.mem_append.mp member with member | member
  · exact first c member
  · exact second c member

theorem encodeChars {cs : List Char} (unbroken : Unbroken cs) :
    (Utf8.encodeChars cs).Unbroken := by
  intro o member
  constructor
  · rintro rfl
    obtain ⟨c, inside, same⟩ := Utf8.exists_char_of_mem_encodeChars member (by decide)
    exact (unbroken c inside).1 (Char.toNat_inj.mp same)
  · rintro rfl
    obtain ⟨c, inside, same⟩ := Utf8.exists_char_of_mem_encodeChars member (by decide)
    exact (unbroken c inside).2 (Char.toNat_inj.mp same)

theorem escape (cs : List Char) : Unbroken (Parameter.escape cs) := by
  intro d member
  obtain ⟨-, control⟩ := Parameter.ne_quote_of_mem_escape member
  constructor
  · rintro rfl
    exact absurd (control (by decide)) (by decide)
  · rintro rfl
    exact absurd (control (by decide)) (by decide)

theorem parameter {name : String} (plain : Unbroken name.toList) (value : String) :
    Unbroken (Parameter.chars name value) := by
  have quote : Unbroken ['"'] := by decide
  have equals : Unbroken ['=', '"'] := by decide
  exact ((plain.append equals).append (escape value.toList)).append quote

end Text.Unbroken

namespace HeaderBlock

open Splitter

theorem unbroken_disposition (name : String) (filename : Option String) :
    (disposition name filename).Unbroken := by
  have intro : (Utf8.encode "Content-Disposition: form-data; ").Unbroken := by decide
  have separator : (Utf8.encode "; ").Unbroken := by decide
  have named : Text.Unbroken "name".toList := by decide
  have filenamed : Text.Unbroken "filename".toList := by decide
  refine (intro.append (named.parameter name).encodeChars).append ?_
  cases filename with
  | none => exact nofun
  | some f =>
    simp only
    split
    · exact nofun
    · exact separator.append (filenamed.parameter f).encodeChars

theorem disposition_ne_nil (name : String) (filename : Option String) :
    disposition name filename ≠ [] := by
  have intro : Utf8.encode "Content-Disposition: form-data; " ≠ [] := by decide
  simp [disposition, intro]

theorem unbroken_line {header : String × String} (name : Text.Unbroken header.1.toList)
    (value : Text.Unbroken header.2.toList) : (line header).Unbroken := by
  have separator : (Utf8.encode ": ").Unbroken := by decide
  exact (name.encodeChars.append separator).append value.encodeChars

theorem line_ne_nil (header : String × String) : line header ≠ [] := by
  have separator : Utf8.encode ": " ≠ [] := by decide
  simp [line, separator]

/-- The lines of a block can be told apart if there is no line break in the headers given for it. -/
theorem wellFormed_lines (name : String) (filename : Option String) {headers : HeaderList}
    (unbroken : ∀ header ∈ headers.entries,
      Text.Unbroken header.1.toList ∧ Text.Unbroken header.2.toList) :
    WellFormed (lines name filename headers) := by
  refine ⟨by simp [lines], ?_⟩
  intro octets member
  rcases List.mem_cons.mp member with rfl | member
  · exact ⟨disposition_ne_nil name filename, unbroken_disposition name filename⟩
  · obtain ⟨header, given, rfl⟩ := List.mem_map.mp member
    obtain ⟨name, value⟩ := unbroken header given
    exact ⟨line_ne_nil header, unbroken_line name value⟩

end HeaderBlock

end Multipart
