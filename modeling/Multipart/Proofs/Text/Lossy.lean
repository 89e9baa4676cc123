import Mathlib.Algebra.Group.Nat.Defs
import Multipart.Proofs.Text.Utf8

/-!
# The lossy reading

Any octets are read as some text, and those of a text are read as that text. There is something to
read even if they are no UTF-8, and no ASCII character comes of other octets than its own.
-/

namespace Multipart.Utf8

deriving instance DecidableEq for Partial

namespace Scan

/-! ## UTF-8 -/

section Characters

variable {pieces : List Piece} {p : Partial} {b : UInt8}

theorem lead_of_ofLead? (begun : Partial.ofLead? b = some p) :
    lead pieces b = ⟨pieces, some p⟩ := by
  have table : ∀ n < 0x80, Partial.ofLead? (UInt8.ofNat n) = none := by decide +kernel
  have large : ¬ b < 0x80 := by
    intro small
    have none := table b.toNat (UInt8.lt_iff_toNat_lt.mp small)
    rw [UInt8.ofNat_toNat, begun] at none
    cases none
  rw [lead, if_neg large, begun]

theorem step_last (inside : p.low ≤ b ∧ b ≤ p.high) (last : p.owed = 1) :
    step ⟨pieces, some p⟩ b =
      ⟨.char (Char.ofNat (p.bits * 64 + (b.toNat - 0x80))) :: pieces, none⟩ := by
  simp only [step, inside, decide_true, Bool.and_self, if_true, last, Nat.le_refl]

theorem step_more (inside : p.low ≤ b ∧ b ≤ p.high) {k : Nat} (more : p.owed = k + 2) :
    step ⟨pieces, some p⟩ b =
      ⟨pieces, some ⟨b :: p.taken, k + 1, 0x80, 0xBF, p.bits * 64 + (b.toNat - 0x80)⟩⟩ := by
  have owed : ¬ p.owed ≤ 1 := by omega
  simp only [step, inside, decide_true, Bool.and_self, if_true, owed, if_false]
  rw [more]
  rfl

/-- An octet by which a character goes on, for the last six bits of a number. -/
def onward (n : Nat) : UInt8 := UInt8.ofNat (n % 64 + 0x80)

theorem toNat_onward (n : Nat) : (onward n).toNat = n % 64 + 0x80 :=
  UInt8.toNat_ofNat_of_lt (by unfold UInt8.size; omega)

theorem onward_within {low high : UInt8} {n : Nat} (above : low.toNat ≤ n % 64 + 0x80)
    (below : n % 64 + 0x80 ≤ high.toNat) : low ≤ onward n ∧ onward n ≤ high := by
  rw [UInt8.le_iff_toNat_le, UInt8.le_iff_toNat_le, toNat_onward]
  exact ⟨above, below⟩

theorem onward_inside (n : Nat) : 0x80 ≤ onward n ∧ onward n ≤ 0xBF := by
  apply onward_within <;> simp only [UInt8.reduceToNat] <;> omega

theorem ofLead?_two : ∀ h < 32, 2 ≤ h →
    Partial.ofLead? (UInt8.ofNat (h + 0xC0)) =
      some ⟨[UInt8.ofNat (h + 0xC0)], 1, 0x80, 0xBF, h⟩ := by
  decide +kernel

theorem ofLead?_three : ∀ h < 16,
    Partial.ofLead? (UInt8.ofNat (h + 0xE0)) =
      some ⟨[UInt8.ofNat (h + 0xE0)], 2, if h = 0 then 0xA0 else 0x80,
        if h = 13 then 0x9F else 0xBF, h⟩ := by
  decide +kernel

theorem ofLead?_four : ∀ h < 5,
    Partial.ofLead? (UInt8.ofNat (h + 0xF0)) =
      some ⟨[UInt8.ofNat (h + 0xF0)], 3, if h = 0 then 0x90 else 0x80,
        if h = 4 then 0x8F else 0xBF, h⟩ := by
  decide +kernel

theorem step_single {v : Nat} (small : v ≤ 0x7F) :
    step ⟨pieces, none⟩ (UInt8.ofNat v) = ⟨.char (Char.ofNat v) :: pieces, none⟩ := by
  have octet : (UInt8.ofNat v).toNat = v := UInt8.toNat_ofNat_of_lt (by unfold UInt8.size; omega)
  have single : UInt8.ofNat v < 0x80 := by
    rw [UInt8.lt_iff_toNat_lt, octet]
    exact Nat.lt_succ_of_le small
  simp [step, lead, single, octet]

theorem foldl_two {v : Nat} (above : 0x7F < v) (below : v ≤ 0x7FF) :
    [UInt8.ofNat (v / 64 % 32 + 0xC0), onward v].foldl step ⟨pieces, none⟩ =
      ⟨.char (Char.ofNat v) :: pieces, none⟩ := by
  have begun := ofLead?_two (v / 64 % 32) (by omega) (by omega)
  have number : v / 64 % 32 * 64 + ((onward v).toNat - 0x80) = v := by
    rw [toNat_onward]
    omega
  show step (lead pieces _) (onward v) = _
  rw [lead_of_ofLead? begun, step_last (onward_inside v) rfl, number]

theorem foldl_three {v : Nat} (above : 0x7FF < v) (below : v ≤ 0xFFFF)
    (valid : v < 0xD800 ∨ 0xDFFF < v) :
    [UInt8.ofNat (v / 4096 % 16 + 0xE0), onward (v / 64), onward v].foldl step ⟨pieces, none⟩ =
      ⟨.char (Char.ofNat v) :: pieces, none⟩ := by
  have begun := ofLead?_three (v / 4096 % 16) (by omega)
  have inside : (if v / 4096 % 16 = 0 then 0xA0 else 0x80 : UInt8) ≤ onward (v / 64) ∧
      onward (v / 64) ≤ (if v / 4096 % 16 = 13 then 0x9F else 0xBF : UInt8) := by
    apply onward_within <;> split <;> simp only [UInt8.reduceToNat] <;> omega
  have number : (v / 4096 % 16 * 64 + ((onward (v / 64)).toNat - 0x80)) * 64 +
      ((onward v).toNat - 0x80) = v := by
    rw [toNat_onward, toNat_onward]
    omega
  show step (step (lead pieces _) (onward (v / 64))) (onward v) = _
  rw [lead_of_ofLead? begun, step_more inside rfl, step_last (onward_inside v) rfl, number]

theorem foldl_four {v : Nat} (above : 0xFFFF < v) (below : v < 0x110000) :
    [UInt8.ofNat (v / 262144 % 8 + 0xF0), onward (v / 4096), onward (v / 64), onward v].foldl step
      ⟨pieces, none⟩ = ⟨.char (Char.ofNat v) :: pieces, none⟩ := by
  have begun := ofLead?_four (v / 262144 % 8) (by omega)
  have inside : (if v / 262144 % 8 = 0 then 0x90 else 0x80 : UInt8) ≤ onward (v / 4096) ∧
      onward (v / 4096) ≤ (if v / 262144 % 8 = 4 then 0x8F else 0xBF : UInt8) := by
    apply onward_within <;> split <;> simp only [UInt8.reduceToNat] <;> omega
  have number : ((v / 262144 % 8 * 64 + ((onward (v / 4096)).toNat - 0x80)) * 64 +
      ((onward (v / 64)).toNat - 0x80)) * 64 + ((onward v).toNat - 0x80) = v := by
    rw [toNat_onward, toNat_onward, toNat_onward]
    omega
  show step (step (step (lead pieces _) (onward (v / 4096))) (onward (v / 64))) (onward v) = _
  rw [lead_of_ofLead? begun, step_more inside rfl, step_more (onward_inside _) rfl,
    step_last (onward_inside v) rfl, number]

end Characters

theorem foldl_utf8EncodeChar (pieces : List Piece) (c : Char) :
    (String.utf8EncodeChar c).foldl step ⟨pieces, none⟩ = ⟨.char c :: pieces, none⟩ := by
  have valid : c.val.toNat < 0xD800 ∨ 0xDFFF < c.val.toNat ∧ c.val.toNat < 0x110000 := c.valid
  have whole : Char.ofNat c.val.toNat = c := Char.ofNat_toNat c
  unfold String.utf8EncodeChar
  generalize c.val.toNat = v at *
  subst whole
  dsimp only
  split
  case isTrue one => exact step_single one
  split
  case isTrue two => exact foldl_two (by omega) two
  split
  case isTrue three => exact foldl_three (by omega) three (by omega)
  case isFalse four => exact foldl_four (by omega) (by omega)

theorem foldl_encodeChars (pieces : List Piece) (cs : List Char) :
    (encodeChars cs).foldl step ⟨pieces, none⟩ = ⟨(cs.map .char).reverse ++ pieces, none⟩ := by
  induction cs generalizing pieces with
  | nil => rfl
  | cons c cs ih =>
    rw [encodeChars_cons, List.foldl_append, foldl_utf8EncodeChar, ih, List.map_cons,
      List.reverse_cons, List.append_assoc, List.singleton_append]

end Scan

theorem scan_encode (s : String) : scan (encode s) = s.toList.map .char := by
  rw [scan, encode, Scan.start, Scan.foldl_encodeChars, Scan.finish]
  simp

theorem flawAfter_chars (n : Nat) (cs : List Char) : flawAfter n (cs.map .char) = none := by
  induction cs generalizing n with
  | nil => rfl
  | cons c cs ih => exact ih (n + c.utf8Size)

theorem decodeLossy_encode (s : String) : decodeLossy (encode s) = s := by
  have kept : Piece.lossy ∘ Piece.char = id := rfl
  rw [decodeLossy, scan_encode, List.map_map, kept, List.map_id, String.ofList_toList]

theorem decode_encode (s : String) : decode (encode s) = .ok s := by
  rw [decode, flaw?, scan_encode, flawAfter_chars, decodeLossy_encode]

/-! ## Any octets -/

theorem toNat_ofNat_of_valid {n : Nat} (valid : n.isValidChar) : (Char.ofNat n).toNat = n := by
  rw [Char.ofNat, dif_pos valid]
  rfl

namespace Partial

/-- The least number of a character that can come of what was read. -/
def least (p : Partial) : Nat := (p.bits * 64 + (p.low.toNat - 0x80)) * 64 ^ (p.owed - 1)

/-- A bound for these numbers. -/
def bound (p : Partial) : Nat := (p.bits * 64 + (p.high.toNat - 0x80) + 1) * 64 ^ (p.owed - 1)

/-- Whatever octets follow in their range, a character comes of them that is not ASCII. -/
structure Beyond (p : Partial) : Prop where
  owed : 0 < p.owed
  low : 0x80 ≤ p.low.toNat
  least : 0x80 ≤ p.least
  valid : p.bound ≤ 0xD800 ∨ 0xE000 ≤ p.least ∧ p.bound ≤ 0x110000

instance (p : Partial) : Decidable p.Beyond :=
  decidable_of_iff
    (0 < p.owed ∧ 0x80 ≤ p.low.toNat ∧ 0x80 ≤ p.least ∧
      (p.bound ≤ 0xD800 ∨ 0xE000 ≤ p.least ∧ p.bound ≤ 0x110000))
    ⟨fun ⟨owed, low, least, valid⟩ => ⟨owed, low, least, valid⟩,
      fun ⟨owed, low, least, valid⟩ => ⟨owed, low, least, valid⟩⟩

theorem beyond_of_ofLead? {b : UInt8} {p : Partial} (begun : ofLead? b = some p) : p.Beyond := by
  have table : ∀ n < 256, ∀ p ∈ ofLead? (UInt8.ofNat n), p.Beyond := by decide +kernel
  rw [← UInt8.ofNat_toNat (x := b)] at begun
  exact table b.toNat b.toNat_lt p begun

namespace Beyond

variable {p : Partial} {b : UInt8} (beyond : p.Beyond) (low : p.low ≤ b) (high : b ≤ p.high)

include beyond low high

theorem completed (last : p.owed ≤ 1) :
    0x80 ≤ (Char.ofNat (p.bits * 64 + (b.toNat - 0x80))).toNat := by
  obtain ⟨owed, low', least, valid⟩ := beyond
  have once : p.owed = 1 := Nat.le_antisymm last owed
  rw [UInt8.le_iff_toNat_le] at low high
  simp only [Partial.least, bound, once, Nat.sub_self, Nat.pow_zero, Nat.mul_one] at least valid
  have scalar : (p.bits * 64 + (b.toNat - 0x80)).isValidChar := by
    rw [Nat.isValidChar]
    omega
  rw [toNat_ofNat_of_valid scalar]
  omega

theorem continued (more : ¬ p.owed ≤ 1) :
    Beyond ⟨b :: p.taken, p.owed - 1, 0x80, 0xBF, p.bits * 64 + (b.toNat - 0x80)⟩ := by
  obtain ⟨-, low', least, valid⟩ := beyond
  rw [UInt8.le_iff_toNat_le] at low high
  obtain ⟨k, owed⟩ : ∃ k, p.owed = k + 2 := ⟨p.owed - 2, by omega⟩
  -- Each of the ranges that the next octet leaves is a part of the one before.
  have above : p.least ≤ (p.bits * 64 + (b.toNat - 0x80)) * 64 ^ (k + 1) := by
    rw [Partial.least, owed]
    exact Nat.mul_le_mul_right _ (by omega)
  have below : (p.bits * 64 + (b.toNat - 0x80) + 1) * 64 ^ (k + 1) ≤ p.bound := by
    rw [bound, owed]
    exact Nat.mul_le_mul_right _ (by omega)
  generalize p.bits * 64 + (b.toNat - 0x80) = bits at above below
  have least_eq : Partial.least ⟨b :: p.taken, p.owed - 1, 0x80, 0xBF, bits⟩ =
      bits * 64 ^ (k + 1) := by
    simp [Partial.least, owed, Nat.pow_succ', Nat.mul_assoc]
  have bound_eq : bound ⟨b :: p.taken, p.owed - 1, 0x80, 0xBF, bits⟩ =
      (bits + 1) * 64 ^ (k + 1) := by
    have whole : bits * 64 + 63 + 1 = (bits + 1) * 64 := by omega
    simp [bound, owed, whole, Nat.pow_succ', Nat.mul_assoc]
  rw [← least_eq] at above
  rw [← bound_eq] at below
  refine ⟨?_, Nat.le_refl _, Nat.le_trans least above, ?_⟩
  · exact Nat.sub_pos_of_lt (Nat.lt_of_not_le more)
  · omega

end Beyond

end Partial

namespace Scan

/-- What a scan holds of the octets that it has seen. -/
structure Holds (seen : Bytes) (s : Scan) : Prop where
  ascii : ∀ c, .char c ∈ s.pieces → c.toNat < 0x80 → UInt8.ofNat c.toNat ∈ seen
  beyond : ∀ p, s.unfinished = some p → p.Beyond
  something : seen ≠ [] → s.pieces = [] → s.unfinished ≠ none

theorem holds_lead {seen : Bytes} {pieces : List Piece} (b : UInt8)
    (ascii : ∀ c, .char c ∈ pieces → c.toNat < 0x80 → UInt8.ofNat c.toNat ∈ seen) :
    Holds (seen ++ [b]) (lead pieces b) := by
  have earlier (c : Char) (member : .char c ∈ pieces) (small : c.toNat < 0x80) :
      UInt8.ofNat c.toNat ∈ seen ++ [b] := List.mem_append_left _ (ascii c member small)
  unfold lead
  split
  case isTrue single =>
    refine ⟨?_, nofun, nofun⟩
    intro c member small
    rcases List.mem_cons.mp member with same | member
    · cases same
      have octet : b.toNat < 0x80 := UInt8.lt_iff_toNat_lt.mp single
      have scalar : b.toNat.isValidChar := .inl (by omega)
      rw [toNat_ofNat_of_valid scalar, UInt8.ofNat_toNat]
      exact List.mem_append_right _ List.mem_cons_self
    · exact earlier c member small
  case isFalse =>
    split
    case h_1 p begun =>
      refine ⟨earlier, ?_, nofun⟩
      intro q same
      cases same
      exact Partial.beyond_of_ofLead? begun
    case h_2 =>
      refine ⟨?_, nofun, nofun⟩
      intro c member small
      exact earlier c ((List.mem_cons.mp member).resolve_left nofun) small

theorem Holds.step {seen : Bytes} {s : Scan} (holds : Holds seen s) (b : UInt8) :
    Holds (seen ++ [b]) (s.step b) := by
  obtain ⟨ascii, beyond, -⟩ := holds
  have earlier (c : Char) (member : .char c ∈ s.pieces) (small : c.toNat < 0x80) :
      UInt8.ofNat c.toNat ∈ seen ++ [b] := List.mem_append_left _ (ascii c member small)
  unfold Scan.step
  cases unfinished : s.unfinished with
  | none => exact holds_lead b ascii
  | some p =>
    have here := beyond p unfinished
    dsimp only
    split
    case isTrue inside =>
      obtain ⟨low, high⟩ : p.low ≤ b ∧ b ≤ p.high := by simpa using inside
      split
      case isTrue last =>
        refine ⟨?_, nofun, nofun⟩
        intro c member small
        rcases List.mem_cons.mp member with same | member
        · rw [Piece.char.inj same] at small
          exact absurd small (Nat.not_lt.mpr (here.completed low high last))
        · exact earlier c member small
      case isFalse more =>
        refine ⟨earlier, ?_, nofun⟩
        intro q same
        cases same
        exact here.continued low high more
    case isFalse =>
      apply holds_lead
      intro c member small
      exact ascii c ((List.mem_cons.mp member).resolve_left nofun) small

theorem holds_foldl (bs : Bytes) : Holds bs (bs.foldl step start) := by
  suffices run : ∀ seen s, Holds seen s → Holds (seen ++ bs) (bs.foldl step s) from
    run [] start ⟨nofun, nofun, nofun⟩
  induction bs with
  | nil =>
    intro seen s holds
    rwa [List.append_nil]
  | cons b bs ih =>
    intro seen s holds
    have := ih (seen ++ [b]) (s.step b) (holds.step b)
    rwa [List.append_assoc] at this

end Scan

/-- An ASCII character is read only where its octet is. -/
theorem mem_of_mem_decodeLossy {bs : Bytes} {c : Char} (member : c ∈ (decodeLossy bs).toList)
    (ascii : c.toNat < 0x80) : UInt8.ofNat c.toNat ∈ bs := by
  have holds := Scan.holds_foldl bs
  rw [decodeLossy, String.toList_ofList] at member
  obtain ⟨piece, inside, same⟩ := List.mem_map.mp member
  cases piece with
  | broken | truncated =>
    obtain rfl : replacement = c := same
    exact absurd ascii (by decide)
  | char d =>
    obtain rfl : d = c := same
    refine holds.ascii d ?_ ascii
    rw [scan, Scan.finish] at inside
    split at inside <;> simpa using inside

/-- Where there are octets, there is something to read. -/
theorem decodeLossy_eq_empty_iff {bs : Bytes} : decodeLossy bs = "" ↔ bs = [] := by
  cases bs with
  | nil => exact iff_of_true rfl rfl
  | cons b bs =>
    refine iff_of_false ?_ nofun
    intro empty
    have something := (Scan.holds_foldl (b :: bs)).something nofun
    have nothing : scan (b :: bs) = [] := by
      have := congrArg String.toList empty
      rw [decodeLossy, String.toList_ofList] at this
      exact List.map_eq_nil_iff.mp this
    rw [scan, Scan.finish] at nothing
    split at nothing
    case h_1 complete => exact something (List.reverse_eq_nil_iff.mp nothing) complete
    case h_2 => simp at nothing

end Multipart.Utf8
