import Multipart.Text.Utf8

/-!
# Characters as octets

An ASCII character is one octet, and its octet is found nowhere in other characters. So what is known
of the ASCII characters of a text is known of its octets.
-/

namespace Multipart.Utf8

/-- An octet below 0x80 stands for a character by itself. -/
theorem toNat_of_mem_utf8EncodeChar {c : Char} {o : UInt8} (member : o ∈ String.utf8EncodeChar c)
    (ascii : o.toNat < 0x80) : c.toNat = o.toNat := by
  have size : c.val.toNat < 0x110000 := by
    have := c.valid
    simp only [UInt32.isValidChar, Nat.isValidChar] at this
    omega
  unfold String.utf8EncodeChar at member
  simp only at member
  split at member
  · obtain rfl := List.mem_singleton.mp member
    simp only [UInt8.toNat_ofNat', Char.toNat]
    omega
  · split at member
    · simp only [List.mem_cons, List.not_mem_nil, or_false] at member
      rcases member with rfl | rfl
      all_goals
        simp only [UInt8.toNat_ofNat'] at ascii
        omega
    · split at member
      · simp only [List.mem_cons, List.not_mem_nil, or_false] at member
        rcases member with rfl | rfl | rfl
        all_goals
          simp only [UInt8.toNat_ofNat'] at ascii
          omega
      · simp only [List.mem_cons, List.not_mem_nil, or_false] at member
        rcases member with rfl | rfl | rfl | rfl
        all_goals
          simp only [UInt8.toNat_ofNat'] at ascii
          omega

theorem exists_char_of_mem_encodeChars {cs : List Char} {o : UInt8}
    (member : o ∈ encodeChars cs) (ascii : o.toNat < 0x80) : ∃ c ∈ cs, c.toNat = o.toNat := by
  obtain ⟨c, inside, member⟩ := List.mem_flatMap.mp member
  exact ⟨c, inside, toNat_of_mem_utf8EncodeChar member ascii⟩

theorem utf8EncodeChar_ofNat {o : UInt8} (ascii : Octet.isAscii o = true) :
    String.utf8EncodeChar (Char.ofNat o.toNat) = [o] := by
  have small : o.toNat < 0x80 := by simpa [Octet.isAscii, UInt8.lt_iff_toNat_lt] using ascii
  have table : ∀ n < 0x80, String.utf8EncodeChar (Char.ofNat n) = [UInt8.ofNat n] := by decide
  rw [table _ small, UInt8.ofNat_toNat]

theorem encodeChars_injective : Function.Injective encodeChars := by
  intro cs ds same
  have octets : cs.utf8Encode = ds.utf8Encode := congrArg List.toByteArray same
  rw [← String.toByteArray_ofList, ← String.toByteArray_ofList, String.toByteArray_inj] at octets
  exact String.ofList_injective octets

end Multipart.Utf8
