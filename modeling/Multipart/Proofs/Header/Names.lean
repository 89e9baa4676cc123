import Multipart.Header.List
import Multipart.Proofs.Text.Utf8

/-!
# Headers by name

The names of headers are compared as texts without regard to the case of ASCII letters. That is a
comparison of their octets, in which all other octets stand for themselves.
-/

namespace Multipart

namespace Utf8

theorem map_lower_utf8EncodeChar (c : Char) :
    (String.utf8EncodeChar c).map Octet.lower = String.utf8EncodeChar c.toLower := by
  by_cases ascii : c.toNat < 0x80
  · have table : ∀ n < 0x80, (String.utf8EncodeChar (Char.ofNat n)).map Octet.lower =
        String.utf8EncodeChar (Char.ofNat n).toLower := by decide +kernel
    have := table c.toNat ascii
    rwa [Char.ofNat_toNat] at this
  · have letter : ¬ (c.val ≥ 'A'.val ∧ c.val ≤ 'Z'.val) := by
      rintro ⟨-, last⟩
      have : c.toNat ≤ 0x5A := UInt32.le_iff_toNat_le.mp last
      omega
    have unchanged : c.toLower = c := dif_neg letter
    rw [unchanged]
    -- No octet of such a character is a letter.
    refine (List.map_congr_left ?_).trans (List.map_id _)
    intro o member
    have beyond : ¬ o.toNat < 0x80 := by
      intro small
      rw [← toNat_of_mem_utf8EncodeChar member small] at small
      exact ascii small
    have letter : ¬ (0x41 ≤ o ∧ o ≤ 0x5A) := by
      rintro ⟨-, last⟩
      have : o.toNat ≤ 0x5A := UInt8.le_iff_toNat_le.mp last
      omega
    simp [Octet.lower, letter]

theorem map_lower_encodeChars (cs : List Char) :
    (encodeChars cs).map Octet.lower = encodeChars (cs.map Char.toLower) := by
  induction cs with
  | nil => rfl
  | cons c cs ih =>
    rw [encodeChars_cons, List.map_append, map_lower_utf8EncodeChar, ih, List.map_cons,
      encodeChars_cons]

end Utf8

namespace HeaderList

/-- A header of this name, up to the case of ASCII letters. -/
def Named (name : String) (header : String × String) : Prop :=
  Bytes.sameFold (Utf8.encode header.1) (Utf8.encode name) = true

instance (name : String) : DecidablePred (Named name) := fun _ => instDecidableEqBool _ _

theorem sameName_iff {name : String} {header : String × String} :
    sameName header.1 name = true ↔ Named name header := by
  rw [sameName, Named, Bytes.sameFold, beq_iff_eq, beq_iff_eq, Utf8.encode, Utf8.encode,
    Utf8.map_lower_encodeChars, Utf8.map_lower_encodeChars, Utf8.encodeChars_injective.eq_iff]

theorem get?_eq_some_iff {headers : HeaderList} {name value : String} :
    headers.get? name = some value ↔
      ∃ before header after, headers.entries = before ++ header :: after ∧
        Named name header ∧ header.2 = value ∧ ∀ other ∈ before, ¬ Named name other := by
  have unnamed (other : String × String) :
      (!sameName other.1 name) = true ↔ ¬ Named name other := by
    rw [← sameName_iff, Bool.not_eq_true', Bool.not_eq_true]
  simp only [get?, Option.map_eq_some_iff, List.find?_eq_some_iff_append, sameName_iff, unnamed]
  constructor
  · rintro ⟨header, ⟨named, before, after, entries, others⟩, value⟩
    exact ⟨before, header, after, entries, named, value, others⟩
  · rintro ⟨before, header, after, entries, named, value, others⟩
    exact ⟨header, ⟨named, before, after, entries, others⟩, value⟩

theorem contains_iff {headers : HeaderList} {name : String} :
    headers.contains name = true ↔ ∃ header ∈ headers.entries, Named name header := by
  simp only [contains, get?, Option.isSome_map, List.find?_isSome, sameName_iff]

end HeaderList

end Multipart
