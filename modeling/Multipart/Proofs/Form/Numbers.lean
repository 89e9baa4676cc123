import Multipart.Form.Scalar
import Multipart.Proofs.Decimal.Layout

/-!
# Texts of numbers

The canonical text of a finite float reads as a decimal that rounds back to the float, and an
integer reads back from its text. So no two numbers have one text, and since floats have a point, an
exponent or a word, no float has the text of an integer.
-/

namespace Multipart

namespace Double

variable {x : Double}

theorem toNat_bits (x : Double) :
    x.bits.toNat = (if x.negative then signBit else 0) + x.magnitude := by
  have bounded := x.bits.toNat_lt
  by_cases high : signBit ≤ x.bits.toNat
  · rw [negative, decide_eq_true high, if_pos rfl, magnitude]
    simp only [signBit] at high ⊢
    omega
  · rw [negative, decide_eq_false high, if_neg Bool.false_ne_true, magnitude]
    simp only [signBit] at high ⊢
    omega

theorem ofMagnitude_magnitude (x : Double) : ofMagnitude x.negative x.magnitude = x := by
  cases x
  rw [ofMagnitude, ← toNat_bits, UInt64.ofNat_toNat]

theorem ofDecimal_eq {d : Decimal} (sign : d.negative = x.negative)
    (rounds : BinaryFormat.double.RoundsTo d.amount x.magnitude) : ofDecimal d = x := by
  rw [ofDecimal, (Decimal.roundsTo_nearestDecimal d).unique rounds, sign, ofMagnitude_magnitude]

end Double

namespace Decimal

theorem mem_ofInt {n : Int} {c : Char} (member : c ∈ ofInt n) : c.isDigit = true ∨ c = '-' := by
  cases n with
  | ofNat n => exact .inl (isDigit_of_mem_digits member)
  | negSucc n =>
    rcases List.mem_cons.mp member with sign | digit
    · exact .inr sign
    · exact .inl (isDigit_of_mem_digits digit)

end Decimal

namespace DoubleLayout

variable {layout : DoubleLayout} {x : Double}

/-- An exponent with a sign and so many digits; more digits do not start with a zero. -/
structure SpellsPower (width : Nat) (power : Int) (sign : Char) (digits : List Char) : Prop where
  explicit : sign = '+' ∨ sign = '-'
  numeric : ∀ c ∈ digits, c.isDigit = true
  width_le : width ≤ digits.length
  no_zero : width < digits.length → digits.head? ≠ some '0'
  reads : Decimal.readInt? (sign :: digits) = some power

theorem spellsPower_exponent (wide : 1 ≤ layout.exponentWidth) (p : Int) :
    ∃ sign digits, layout.exponent p = sign :: digits ∧
      SpellsPower layout.exponentWidth p sign digits := by
  refine ⟨_, _, rfl, ?_, ?_, ?_, ?_, Decimal.readInt?_signed p _⟩
  · split
    · exact .inr rfl
    · exact .inl rfl
  · intro c member
    rcases List.mem_append.mp member with zero | digit
    · exact Decimal.isDigit_of_mem_zeros zero
    · exact Decimal.isDigit_of_mem_digits digit
  · simp only [zeros, List.length_append, List.length_replicate]
    omega
  · intro longer
    simp only [zeros, List.length_append, List.length_replicate] at longer
    have unpadded : layout.exponentWidth - (Decimal.digits p.natAbs).length = 0 := by omega
    rw [unpadded]
    exact Decimal.head?_digits (by omega)

theorem mem_write_of_finite (layout : DoubleLayout) (finite : x.isFinite = true) :
    '.' ∈ layout.write x ∨ 'e' ∈ layout.write x := by
  cases layout.written finite with
  | positional _ _ point _ write _ =>
    rw [write]
    exact .inl ((Decimal.mem_signed_iff (by decide)).mpr point)
  | scientific _ _ _ write _ =>
    rw [write]
    refine .inr ((Decimal.mem_signed_iff (by decide)).mpr ?_)
    exact List.mem_append_right _ List.mem_cons_self

/-- Neither a number nor a word has the form of an integer. -/
theorem write_ne_ofInt (x : Double) (n : Int) : layout.write x ≠ Decimal.ofInt n := by
  intro same
  have foreign (c : Char) (member : c ∈ layout.write x) : c.isDigit = true ∨ c = '-' :=
    Decimal.mem_ofInt (same ▸ member)
  by_cases finite : x.isFinite = true
  · rcases layout.mem_write_of_finite finite with point | exponent
    · exact absurd (foreign '.' point) (by decide)
    · exact absurd (foreign 'e' exponent) (by decide)
  · refine absurd (foreign 'n' ?_) (by decide)
    unfold write
    split
    · decide
    · next number =>
      have word : x.isInfinite = true := by
        have above := Nat.le_of_not_lt fun below => finite (decide_eq_true below)
        have upTo := Nat.le_of_not_lt fun large => number (decide_eq_true large)
        exact beq_iff_eq.mpr (le_antisymm upTo above)
      simp only [word, if_true]
      split <;> decide

end DoubleLayout

namespace Scalar

open DoubleLayout

/-- The text of a finite float is a decimal that rounds to it, with its sign. It comes of the
shortest plain text by spelling out the exponent, if there is one. -/
structure Keeps (x : Double) (text : List Char) : Prop where
  reads : ∃ d, Decimal.read? text = some d ∧ Decimal.read? (floatLayout.plain x) = some d ∧
    d.negative = x.negative ∧ BinaryFormat.double.RoundsTo d.amount x.magnitude ∧
    Double.ofDecimal d = x
  spelled : text = spellExponent 2 (floatLayout.plain x)
  exponent : 'e' ∈ text → ∃ mantissa power sign digits,
    text = mantissa ++ 'e' :: sign :: digits ∧ 'e' ∉ mantissa ∧
    floatLayout.plain x = mantissa ++ 'e' :: Decimal.ofInt power ∧
    SpellsPower 2 power sign digits
  marked : '.' ∈ text ∨ 'e' ∈ text

theorem keeps_write {x : Double} (finite : x.isFinite = true) :
    Keeps x (floatLayout.write x) := by
  obtain ⟨d, read, plain, sign, rounds⟩ := floatLayout.read?_write finite
  refine ⟨⟨d, read, plain, sign, rounds, Double.ofDecimal_eq sign rounds⟩,
    floatLayout.write_eq_spellExponent finite, ?_, floatLayout.mem_write_of_finite finite⟩
  intro member
  cases floatLayout.written finite with
  | positional _ none _ _ write _ =>
    rw [write, Decimal.mem_signed_iff (by decide)] at member
    exact absurd member none
  | @scientific cs _ _ p _ none plain write _ =>
    have wide : 1 ≤ floatLayout.exponentWidth := by decide
    obtain ⟨sign, digits, spelled, power⟩ := spellsPower_exponent wide p
    refine ⟨Decimal.signed x.negative cs, p, sign, digits, ?_, ?_, ?_, power⟩
    · rw [write, Decimal.signed_append, spelled]
    · rwa [Decimal.mem_signed_iff (by decide)]
    · rw [plain, Decimal.signed_append]

/-- The text of a finite float keeps the float, so no two finite floats have one text. No float has
the text of an integer, and no two integers have one text. -/
theorem spelling_number :
    (∀ x : Double, x.isFinite = true → Keeps x (spelling (.float x)).toList) ∧
    (∀ x y : Double, x.isFinite = true → y.isFinite = true →
      spelling (.float x) = spelling (.float y) → x = y) ∧
    (∀ (x : Double) (n : Int64), spelling (.float x) ≠ spelling (.int n)) ∧
    ∀ m n : Int64, spelling (.int m) = spelling (.int n) → m = n := by
  have kept (x : Double) (finite : x.isFinite = true) : Keeps x (spelling (.float x)).toList := by
    rw [spelling, String.toList_ofList]
    exact keeps_write finite
  refine ⟨kept, ?_, ?_, ?_⟩
  · intro x y finite finite' same
    obtain ⟨d, read, -, -, -, value⟩ := (kept x finite).reads
    obtain ⟨d', read', -, -, -, value'⟩ := (kept y finite').reads
    rw [same, read'] at read
    cases read
    exact value.symm.trans value'
  · intro x n same
    rw [spelling, spelling, String.ofList_inj] at same
    exact write_ne_ofInt x _ same
  · intro m n same
    rw [spelling, spelling, String.ofList_inj] at same
    have read := Decimal.readInt?_ofInt m.toInt
    rw [same, Decimal.readInt?_ofInt] at read
    exact (Int64.toInt_inj.mp (Option.some.inj read)).symm

/-- The least float and the negative zero. -/
theorem spelling_number_least :
    (spelling (.float ⟨1⟩) = "5e-324" ∧ Keeps ⟨1⟩ "5e-324".toList) ∧
    spelling (.float ⟨0x8000000000000000⟩) = "-0.0" ∧ Keeps ⟨0x8000000000000000⟩ "-0.0".toList := by
  have least : spelling (.float ⟨1⟩) = "5e-324" := by decide +kernel
  have zero : spelling (.float ⟨0x8000000000000000⟩) = "-0.0" := by decide +kernel
  refine ⟨⟨least, ?_⟩, zero, ?_⟩
  · rw [← least]
    exact spelling_number.1 ⟨1⟩ (by decide)
  · rw [← zero]
    exact spelling_number.1 ⟨0x8000000000000000⟩ (by decide)

end Scalar

end Multipart
