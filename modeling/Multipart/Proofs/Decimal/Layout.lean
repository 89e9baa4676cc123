import Multipart.Decimal.Layout
import Multipart.Proofs.Decimal.Shortest

/-!
# The texts of doubles

The text of a finite double is a decimal that rounds back to it. In `plain` the exponent is written
like any integer; the exponents of a layout, which have a sign always and digits up to a width, come
of these by `spellExponent`, and the number stays the same.
-/

namespace Multipart

namespace Decimal

variable {whole fraction rest : List Char}

theorem takeSign_append (nonempty : whole ≠ []) (numeric : ∀ c ∈ whole, c.isDigit = true)
    (rest : List Char) : takeSign (whole ++ rest) = (false, whole ++ rest) := by
  cases whole with
  | nil => exact absurd rfl nonempty
  | cons c cs =>
    have first := numeric c List.mem_cons_self
    rw [List.cons_append, takeSign]
    · rintro _ ⟨⟩; cases first
    · rintro _ ⟨⟩; cases first

def signed (negative : Bool) (cs : List Char) : List Char := if negative then '-' :: cs else cs

theorem signed_append (negative : Bool) (cs rest : List Char) :
    signed negative (cs ++ rest) = signed negative cs ++ rest := by
  cases negative <;> rfl

theorem mem_signed_iff {negative : Bool} {cs : List Char} {c : Char} (other : c ≠ '-') :
    c ∈ signed negative cs ↔ c ∈ cs := by
  cases negative with
  | false => rfl
  | true => exact List.mem_cons.trans (or_iff_right other)

theorem takeSign_signed (negative : Bool) (nonempty : whole ≠ [])
    (numeric : ∀ c ∈ whole, c.isDigit = true) (rest : List Char) :
    takeSign (signed negative (whole ++ rest)) = (negative, whole ++ rest) := by
  cases negative with
  | false => exact takeSign_append nonempty numeric rest
  | true => rfl

theorem read?_fraction (negative : Bool) (nonempty : whole ≠ [])
    (numeric : ∀ c ∈ whole, c.isDigit = true) (numeric' : ∀ c ∈ fraction, c.isDigit = true)
    (stop : ∀ c ∈ rest.head?, c.isDigit = false) :
    read? (signed negative (whole ++ '.' :: (fraction ++ rest))) =
      (readExponent? rest).map fun e =>
        ⟨negative, ofDigits (whole ++ fraction), e - fraction.length⟩ := by
  have point : ∀ c ∈ ('.' :: (fraction ++ rest)).head?, c.isDigit = false := by
    rintro c ⟨⟩
    rfl
  simp only [read?, takeSign_signed negative nonempty numeric, span_append numeric point,
    span_append numeric' stop, List.isEmpty_eq_false_iff.mpr nonempty, Bool.false_and]
  rfl

theorem read?_whole (negative : Bool) (nonempty : whole ≠ [])
    (numeric : ∀ c ∈ whole, c.isDigit = true)
    (stop : ∀ c ∈ rest.head?, c.isDigit = false ∧ c ≠ '.') :
    read? (signed negative (whole ++ rest)) =
      (readExponent? rest).map fun e => ⟨negative, ofDigits whole, e⟩ := by
  have sign := takeSign_signed negative nonempty numeric rest
  have run := span_append numeric fun c member => (stop c member).1
  simp only [read?, sign, run]
  cases rest with
  | nil => simp [nonempty]
  | cons c cs => simp [nonempty, (stop c rfl).2]

/-- Digits, perhaps with a point, that an exponent may follow. -/
def Spells (cs : List Char) (units places : Nat) : Prop :=
  ∀ negative rest, (∀ c ∈ rest.head?, c.isDigit = false ∧ c ≠ '.') →
    read? (signed negative (cs ++ rest)) =
      (readExponent? rest).map fun e => ⟨negative, units, e - places⟩

theorem spells_whole (nonempty : whole ≠ []) (numeric : ∀ c ∈ whole, c.isDigit = true) :
    Spells whole (ofDigits whole) 0 := by
  intro negative rest stop
  simp only [read?_whole negative nonempty numeric stop, Nat.cast_zero, sub_zero]

theorem spells_fraction (nonempty : whole ≠ []) (numeric : ∀ c ∈ whole, c.isDigit = true)
    (numeric' : ∀ c ∈ fraction, c.isDigit = true) :
    Spells (whole ++ '.' :: fraction) (ofDigits (whole ++ fraction)) fraction.length := by
  intro negative rest stop
  rw [List.append_assoc, List.cons_append]
  exact read?_fraction negative nonempty numeric numeric' fun c member => (stop c member).1

theorem ofDigits_zeros_append (n : Nat) (cs : List Char) :
    ofDigits (List.replicate n '0' ++ cs) = ofDigits cs := by
  rw [ofDigits, Nat.ofDigitChars_append, Nat.ofDigitChars_replicate_zero, Nat.mul_zero, ofDigits]

theorem isDigit_of_mem_zeros {n : Nat} {c : Char} (member : c ∈ List.replicate n '0') :
    c.isDigit = true := by
  rw [List.eq_of_mem_replicate member]
  rfl

theorem readInt?_signed (n : Int) (zeros : Nat) :
    readInt? ((if n < 0 then '-' else '+') :: (List.replicate zeros '0' ++ digits n.natAbs)) =
      some n := by
  have numeric : ∀ c ∈ List.replicate zeros '0' ++ digits n.natAbs, c.isDigit = true := by
    intro c member
    rcases List.mem_append.mp member with zero | digit
    · exact isDigit_of_mem_zeros zero
    · exact isDigit_of_mem_digits digit
  have nonempty : List.replicate zeros '0' ++ digits n.natAbs ≠ [] :=
    List.append_ne_nil_of_right_ne_nil _ Nat.toDigits_ne_nil
  rw [readInt?_eq_some_iff]
  split
  · refine ⟨nonempty, numeric, ?_⟩
    rw [takeSign, if_pos rfl, ofDigits_zeros_append, ofDigits_digits]
    omega
  · refine ⟨nonempty, numeric, ?_⟩
    rw [takeSign, if_neg Bool.false_ne_true, ofDigits_zeros_append, ofDigits_digits]
    omega

end Decimal

namespace Digits

variable {d : Digits}

/-- One digit, and the others after a point if there are any. -/
def mantissa (d : Digits) : List Char :=
  match d.digits with
  | first :: second :: rest => first :: '.' :: second :: rest
  | digits => digits

theorem mem_mantissa {c : Char} (member : c ∈ d.mantissa) : c ∈ d.digits ∨ c = '.' := by
  unfold mantissa at member
  split at member
  · next written =>
    rw [written]
    grind
  · exact .inl member

theorem spells_mantissa (numeric : d.Numeric) :
    Decimal.Spells d.mantissa (Decimal.ofDigits d.digits) (d.digits.length - 1) := by
  obtain ⟨nonempty, numeric⟩ := numeric
  unfold mantissa
  match written : d.digits with
  | [] => exact absurd written nonempty
  | [c] =>
    rw [written] at numeric
    exact Decimal.spells_whole (List.cons_ne_nil _ _) numeric
  | first :: second :: rest =>
    rw [written] at numeric
    obtain ⟨single, others⟩ := List.forall_mem_cons.mp numeric
    exact Decimal.spells_fraction (List.cons_ne_nil first []) (List.forall_mem_singleton.mpr single)
      others

/-- Numbers without an exponent have a digit on either side of a point. -/
theorem exists_positional (numeric : d.Numeric) : ∃ whole fraction : List Char,
    DoubleLayout.positional d = whole ++ '.' :: fraction ∧ whole ≠ [] ∧
      (∀ c ∈ whole, c.isDigit = true) ∧ (∀ c ∈ fraction, c.isDigit = true) ∧
      (Decimal.ofDigits (whole ++ fraction) : ℚ) * 10 ^ (-fraction.length : Int) = d.amount := by
  obtain ⟨nonempty, numeric⟩ := numeric
  unfold DoubleLayout.positional DoubleLayout.zeros amount
  simp only
  split
  · next below =>
    refine ⟨['0'], List.replicate (-d.point).toNat '0' ++ d.digits, rfl, List.cons_ne_nil _ _,
      List.forall_mem_singleton.mpr rfl, ?_, ?_⟩
    · intro c member
      exact (List.mem_append.mp member).elim Decimal.isDigit_of_mem_zeros (numeric c)
    · have value := Decimal.ofDigits_zeros_append ((-d.point).toNat + 1) d.digits
      rw [List.replicate_succ, List.cons_append] at value
      rw [List.singleton_append, value, List.length_append, List.length_replicate]
      congr 2
      omega
  · split
    · next above fits =>
      refine ⟨d.digits ++ List.replicate (d.point.toNat - d.digits.length) '0', ['0'], rfl,
        List.append_ne_nil_of_left_ne_nil nonempty _, ?_, List.forall_mem_singleton.mpr rfl, ?_⟩
      · intro c member
        exact (List.mem_append.mp member).elim (numeric c) Decimal.isDigit_of_mem_zeros
      · have value := Decimal.ofDigits_append_zeros d.digits (d.point.toNat - d.digits.length + 1)
        rw [List.replicate_succ'] at value
        have places : d.point - d.digits.length =
            (d.point.toNat - d.digits.length + 1 : Nat) + -([(0 : Nat)].length : Int) := by
          simp only [List.length_singleton]
          omega
        rw [List.append_assoc, value, places, zpow_add₀ (by norm_num), zpow_natCast, ← mul_assoc]
        push_cast
        rfl
    · next above wide =>
      refine ⟨d.digits.take d.point.toNat, d.digits.drop d.point.toNat,
        (List.append_assoc _ _ _).trans rfl, ?_,
        fun c member => numeric c (List.mem_of_mem_take member),
        fun c member => numeric c (List.mem_of_mem_drop member), ?_⟩
      · rw [← List.length_pos_iff, List.length_take]
        omega
      · rw [List.take_append_drop, List.length_drop]
        congr 2
        omega

end Digits

namespace DoubleLayout

variable (layout : DoubleLayout)

/-- The magnitude with an exponent that is written as any integer is. -/
def plainMagnitude (m : Nat) : List Char :=
  if m = 0 then ['0', '.', '0']
  else
    let d := Digits.shortest m
    if layout.positionalFrom < d.point ∧ d.point ≤ layout.positionalBelow then positional d
    else d.mantissa ++ 'e' :: Decimal.ofInt (d.point - 1)

def plain (x : Double) : List Char := Decimal.signed x.negative (layout.plainMagnitude x.magnitude)

/-- Gives an exponent its sign and digits up to a width. -/
def spellExponent (width : Nat) (cs : List Char) : List Char :=
  match cs.span (· != 'e') with
  | (mantissa, 'e' :: '-' :: digits) =>
    mantissa ++ 'e' :: '-' :: (zeros (width - digits.length) ++ digits)
  | (mantissa, 'e' :: digits) =>
    mantissa ++ 'e' :: '+' :: (zeros (width - digits.length) ++ digits)
  | _ => cs

/-- An exponent with its sign and digits up to a width. -/
def exponent (p : Int) : List Char :=
  (if p < 0 then '-' else '+') ::
    (zeros (layout.exponentWidth - (Decimal.digits p.natAbs).length) ++ Decimal.digits p.natAbs)

/-- The two forms of a finite number. -/
inductive Written (layout : DoubleLayout) (x : Double) : Prop
  | positional {cs : List Char} {units places : Nat} :
      Decimal.Spells cs units places → 'e' ∉ cs → '.' ∈ cs →
      layout.plain x = Decimal.signed x.negative cs →
      layout.write x = Decimal.signed x.negative cs →
      BinaryFormat.double.RoundsTo (units * 10 ^ (-places : Int)) x.magnitude →
      Written layout x
  | scientific {cs : List Char} {units places : Nat} {p : Int} :
      Decimal.Spells cs units places → 'e' ∉ cs →
      layout.plain x = Decimal.signed x.negative (cs ++ 'e' :: Decimal.ofInt p) →
      layout.write x = Decimal.signed x.negative (cs ++ 'e' :: layout.exponent p) →
      BinaryFormat.double.RoundsTo (units * 10 ^ (p - places)) x.magnitude →
      Written layout x

variable {layout} {x : Double}

theorem scientific_eq (d : Digits) :
    layout.scientific d = d.mantissa ++ 'e' :: layout.exponent (d.point - 1) := by
  simp only [scientific, List.append_assoc]
  rfl

theorem write_of_finite (finite : x.isFinite = true) :
    layout.write x = Decimal.signed x.negative (layout.magnitude x.magnitude) := by
  have below : x.magnitude < BinaryFormat.double.infinity := of_decide_eq_true finite
  have number : x.isNan = false := decide_eq_false (Nat.lt_asymm below)
  have bounded : x.isInfinite = false := beq_eq_false_iff_ne.mpr below.ne
  simp only [write, number, bounded]
  rfl

theorem written_zero (finite : x.isFinite = true) (zero : x.magnitude = 0) : layout.Written x := by
  have spells : Decimal.Spells ['0', '.', '0'] 0 1 :=
    Decimal.spells_fraction (List.cons_ne_nil '0' []) (List.forall_mem_singleton.mpr rfl)
      (List.forall_mem_singleton.mpr rfl)
  refine .positional spells (by decide) (by decide) ?_ ?_ ?_
  · rw [plain, plainMagnitude, if_pos zero]
  · rw [write_of_finite finite, magnitude, if_pos zero]
  · rw [zero, Nat.cast_zero, zero_mul]
    exact BinaryFormat.around_zero.roundsTo (Nat.zero_le _)

theorem not_mem_of_isDigit {cs : List Char} (digits : ∀ c ∈ cs, c.isDigit = true) : 'e' ∉ cs :=
  fun member => absurd (digits 'e' member) (by decide)

section Nonzero

variable (finite : x.isFinite = true) (nonzero : x.magnitude ≠ 0)
  (numeric : (Digits.shortest x.magnitude).Numeric)
  (rounds : BinaryFormat.double.RoundsTo (Digits.shortest x.magnitude).amount x.magnitude)

include finite nonzero numeric rounds

theorem written_positional (between : layout.positionalFrom < (Digits.shortest x.magnitude).point ∧
    (Digits.shortest x.magnitude).point ≤ layout.positionalBelow) : layout.Written x := by
  obtain ⟨whole, fraction, laid, nonempty, numeric, numeric', value⟩ :=
    Digits.exists_positional numeric
  rw [← value] at rounds
  refine .positional (Decimal.spells_fraction nonempty numeric numeric') ?_ ?_ ?_ ?_ rounds
  · simp [not_mem_of_isDigit numeric, not_mem_of_isDigit numeric']
  · exact List.mem_append_right _ List.mem_cons_self
  · rw [plain, plainMagnitude, if_neg nonzero, if_pos between, laid]
  · rw [write_of_finite finite, magnitude, if_neg nonzero, if_pos between, laid]

theorem written_scientific
    (outside : ¬ (layout.positionalFrom < (Digits.shortest x.magnitude).point ∧
      (Digits.shortest x.magnitude).point ≤ layout.positionalBelow)) : layout.Written x := by
  have length := List.length_pos_iff.mpr numeric.1
  have places : (Digits.shortest x.magnitude).point - 1 -
      ((Digits.shortest x.magnitude).digits.length - 1 : Nat) =
      (Digits.shortest x.magnitude).point - (Digits.shortest x.magnitude).digits.length := by
    omega
  refine .scientific (p := (Digits.shortest x.magnitude).point - 1)
    (Digits.spells_mantissa numeric) ?_ ?_ ?_ ?_
  · intro member
    rcases Digits.mem_mantissa member with digit | point
    · exact not_mem_of_isDigit numeric.2 digit
    · exact absurd point (by decide)
  · rw [plain, plainMagnitude, if_neg nonzero, if_neg outside]
  · rw [write_of_finite finite, magnitude, if_neg nonzero, if_neg outside, scientific_eq]
  · rw [places]
    exact rounds

end Nonzero

theorem written (layout : DoubleLayout) (finite : x.isFinite = true) : layout.Written x := by
  have below : x.magnitude < BinaryFormat.double.infinity := of_decide_eq_true finite
  by_cases zero : x.magnitude = 0
  · exact written_zero finite zero
  obtain ⟨numeric, around⟩ := Digits.around_shortest (Nat.pos_of_ne_zero zero)
  have rounds := around.roundsTo below.le
  by_cases between : layout.positionalFrom < (Digits.shortest x.magnitude).point ∧
    (Digits.shortest x.magnitude).point ≤ layout.positionalBelow
  · exact written_positional finite zero numeric rounds between
  · exact written_scientific finite zero numeric rounds between

/-! ## What the texts say -/

/-- The written number rounds back, and the exponent's sign and zeros are no part of it. -/
theorem read?_write (layout : DoubleLayout) (finite : x.isFinite = true) :
    ∃ d, Decimal.read? (layout.write x) = some d ∧ Decimal.read? (layout.plain x) = some d ∧
      d.negative = x.negative ∧ BinaryFormat.double.RoundsTo d.amount x.magnitude := by
  cases layout.written finite with
  | @positional cs units places spells _ _ plain write rounds =>
    have read : Decimal.read? (Decimal.signed x.negative cs) =
        some ⟨x.negative, units, 0 - places⟩ := by
      have whole := spells x.negative [] (by simp)
      rw [List.append_nil] at whole
      exact whole
    rw [zero_sub] at read
    exact ⟨⟨x.negative, units, -places⟩, by rw [write, read], by rw [plain, read], rfl, rounds⟩
  | @scientific cs units places p spells _ plain write rounds =>
    refine ⟨⟨x.negative, units, p - places⟩, ?_, ?_, rfl, rounds⟩
    · rw [write, spells _ _ (by simp), Decimal.readExponent?, if_pos (.inl rfl), exponent, zeros,
        Decimal.readInt?_signed]
      rfl
    · rw [plain, spells _ _ (by simp), Decimal.readExponent?, if_pos (.inl rfl),
        Decimal.readInt?_ofInt]
      rfl

theorem spellExponent_of_not_mem {width : Nat} {cs : List Char} (none : 'e' ∉ cs) :
    spellExponent width cs = cs := by
  have split : (cs ++ []).span (· != 'e') = (cs, []) := span_append (by grind) (by simp)
  rw [List.append_nil] at split
  rw [spellExponent, split]

theorem spellExponent_ofInt {cs : List Char} (none : 'e' ∉ cs) (p : Int) :
    spellExponent layout.exponentWidth (cs ++ 'e' :: Decimal.ofInt p) =
      cs ++ 'e' :: layout.exponent p := by
  have split : (cs ++ 'e' :: Decimal.ofInt p).span (· != 'e') = (cs, 'e' :: Decimal.ofInt p) :=
    span_append (by grind) (by simp)
  simp only [spellExponent, split]
  cases p with
  | ofNat n =>
    have unsigned (rest : List Char) : Decimal.digits n ≠ '-' :: rest := by
      intro first
      have sign : '-' ∈ Decimal.digits n := first ▸ List.mem_cons_self
      have digit := Decimal.isDigit_of_mem_digits sign
      exact absurd digit (by decide)
    have positive : ¬ Int.ofNat n < 0 := Int.not_lt.mpr (Int.natCast_nonneg n)
    simp only [Decimal.ofInt, exponent, if_neg positive]
    rfl
  | negSucc n =>
    simp only [Decimal.ofInt, exponent, if_pos (Int.negSucc_lt_zero n)]
    rfl

/-- The text of a number is the plain one with its exponent spelled out. -/
theorem write_eq_spellExponent (layout : DoubleLayout) (finite : x.isFinite = true) :
    layout.write x = spellExponent layout.exponentWidth (layout.plain x) := by
  cases layout.written finite with
  | positional _ none _ plain write _ =>
    rw [plain, write, spellExponent_of_not_mem]
    rwa [Decimal.mem_signed_iff (by decide)]
  | scientific _ none plain write _ =>
    rw [plain, write, Decimal.signed_append, Decimal.signed_append, spellExponent_ofInt]
    rwa [Decimal.mem_signed_iff (by decide)]

end DoubleLayout

end Multipart
