import Multipart.Proofs.Decimal.Integer
import Multipart.Proofs.Decimal.Rounding

/-!
# Reading decimals as binary numbers

The magnitude that is computed for an exact quotient is the one that the quotient rounds to, and so
a decimal is read as the magnitude nearest to it.
-/

namespace Multipart

theorem zpow_eq_div {base : ℚ} (nonzero : base ≠ 0) (e : Int) :
    base ^ e = base ^ e.toNat / base ^ (-e).toNat := by
  rw [← zpow_natCast, ← zpow_natCast, ← zpow_sub₀ nonzero]
  congr 1
  omega

theorem divNearest_bounds (num : Nat) {den : Nat} (positive : 0 < den) :
    (2 * (divNearest num den * den) < 2 * num + den ∨
      divNearest num den % 2 = 0 ∧ 2 * (divNearest num den * den) = 2 * num + den) ∧
    (2 * num < 2 * (divNearest num den * den) + den ∨
      divNearest num den % 2 = 0 ∧ 2 * num = 2 * (divNearest num den * den) + den) := by
  have rest := Nat.mod_lt num positive
  have whole := Nat.div_add_mod' num den
  simp only [divNearest]
  generalize num / den = quotient at *
  generalize num % den = rest at *
  generalize product : quotient * den = multiple at *
  split
  · omega
  · split
    · rw [Nat.succ_mul quotient den, product]
      omega
    · rcases Nat.mod_two_eq_zero_or_one quotient with even | odd
      · rw [even, Nat.add_zero]
        omega
      · rw [odd, Nat.succ_mul quotient den, product]
        omega

theorem divNearest_near (num : Nat) {den : Nat} (positive : 0 < den) :
    ((divNearest num den : ℚ) - 1 / 2 < num / den ∨
      divNearest num den % 2 = 0 ∧ (divNearest num den : ℚ) - 1 / 2 = num / den) ∧
    ((num / den : ℚ) < divNearest num den + 1 / 2 ∨
      divNearest num den % 2 = 0 ∧ (num / den : ℚ) = divNearest num den + 1 / 2) := by
  have unit : (0 : ℚ) < den := by exact_mod_cast positive
  obtain ⟨low, high⟩ := divNearest_bounds num positive
  generalize divNearest num den = r at *
  rw [lt_div_iff₀ unit, eq_div_iff unit.ne', div_lt_iff₀ unit, div_eq_iff unit.ne']
  refine ⟨low.imp ?_ (And.imp_right ?_), high.imp ?_ (And.imp_right ?_)⟩
  · intro below
    have : (2 * (r * den) : ℚ) < 2 * num + den := by exact_mod_cast below
    linarith
  · intro equal
    have : (2 * (r * den) : ℚ) = 2 * num + den := by exact_mod_cast equal
    linarith
  · intro above
    have : (2 * num : ℚ) < 2 * (r * den) + den := by exact_mod_cast above
    linarith
  · intro equal
    have : (2 * num : ℚ) = 2 * (r * den) + den := by exact_mod_cast equal
    linarith

theorem shiftLeft_le_shiftLeft_iff {num den : Nat} (positive : 0 < den) (e : Int) :
    den <<< e.toNat ≤ num <<< (-e).toNat ↔ (2 : ℚ) ^ e ≤ num / den := by
  have scaled : (0 : ℚ) < 2 ^ (-e).toNat := by positivity
  rw [zpow_eq_div two_ne_zero, div_le_div_iff₀ scaled (by exact_mod_cast positive),
    Nat.shiftLeft_eq, Nat.shiftLeft_eq]
  rw [mul_comm ((2 : ℚ) ^ e.toNat)]
  exact_mod_cast Iff.rfl

theorem zpow_floorLog2_le {num den : Nat} (above : 0 < num) (below : 0 < den) :
    (2 : ℚ) ^ floorLog2 num den ≤ num / den ∧
      (num / den : ℚ) < 2 ^ (floorLog2 num den + 1) := by
  have positive : (0 : ℚ) < den := by exact_mod_cast below
  have numLow : (2 : ℚ) ^ (num.log2 : Int) ≤ num := by
    exact_mod_cast Nat.log2_self_le above.ne'
  have numHigh : (num : ℚ) < 2 ^ (num.log2 + 1 : Int) := by
    exact_mod_cast Nat.lt_log2_self
  have denLow : (2 : ℚ) ^ (den.log2 : Int) ≤ den := by
    exact_mod_cast Nat.log2_self_le below.ne'
  have denHigh : (den : ℚ) < 2 ^ (den.log2 + 1 : Int) := by
    exact_mod_cast Nat.lt_log2_self
  unfold floorLog2
  simp only [shiftLeft_le_shiftLeft_iff below]
  generalize (num.log2 : Int) = p at *
  generalize (den.log2 : Int) = r at *
  have upper : (num / den : ℚ) < 2 ^ (p - r + 1) := by
    rw [div_lt_iff₀ positive]
    calc (num : ℚ) < 2 ^ (p + 1) := numHigh
      _ = 2 ^ (p - r + 1) * 2 ^ r := by
        rw [← zpow_add₀ two_ne_zero]
        congr 1
        ring
      _ ≤ 2 ^ (p - r + 1) * den := mul_le_mul_of_nonneg_left denLow (by positivity)
  split
  · next fits => exact ⟨fits, upper⟩
  · next large =>
    refine ⟨?_, by rw [sub_add_cancel]; exact lt_of_not_ge large⟩
    rw [le_div_iff₀ positive]
    calc (2 : ℚ) ^ (p - r - 1) * den ≤ 2 ^ (p - r - 1) * 2 ^ (r + 1) :=
          mul_le_mul_of_nonneg_left denHigh.le (by positivity)
      _ = 2 ^ p := by
        rw [← zpow_add₀ two_ne_zero]
        congr 1
        ring
      _ ≤ num := numLow

namespace BinaryFormat

variable {format : BinaryFormat} {m : Nat} {q : ℚ}

theorem le_exponent {k s : Nat} (normal : k = 0 ∨ format.leadingBit ≤ s) :
    format.leastExponent + k ≤ format.exponent (k * format.leadingBit + s) := by
  have positive := format.leadingBit_pos
  rw [exponent, Nat.add_comm, Nat.add_mul_div_right _ _ positive]
  rcases normal with rfl | normal
  · omega
  · have := (Nat.one_le_div_iff positive).mpr normal
    omega

namespace Around

/-- What is around a number past the last finite one is around infinity. -/
theorem infinity_of_le (around : format.Around q m) (past : format.infinity ≤ m) :
    format.Around q format.infinity := by
  rcases past.eq_or_lt with rfl | past
  · exact around
  · obtain ⟨last, rfl⟩ := Nat.exists_eq_succ_of_ne_zero (Nat.ne_zero_of_lt past)
    refine .infinity ?_
    calc format.value format.infinity ≤ format.value last :=
          format.strictMono_value.monotone (Nat.lt_succ_iff.mp past)
      _ ≤ format.midpoint last := (format.value_lt_midpoint last).le
      _ ≤ q := (around.below last rfl).elim le_of_lt fun tie => tie.2.le

/-- A significand that is nearest at a place makes the magnitude that is nearest. -/
theorem of_significand {k r : Nat} (even : format.leadingBit % 2 = 0)
    (normal : k = 0 ∨ format.leadingBit ≤ r) (bounded : r ≤ 2 * format.leadingBit)
    (least : k ≠ 0 → format.leadingBit * 2 ^ (format.leastExponent + k) ≤ q)
    (low : (r - 1 / 2) * 2 ^ (format.leastExponent + k) < q ∨
      r % 2 = 0 ∧ (r - 1 / 2) * 2 ^ (format.leastExponent + k) = q)
    (high : q < (r + 1 / 2) * 2 ^ (format.leastExponent + k) ∨
      r % 2 = 0 ∧ q = (r + 1 / 2) * 2 ^ (format.leastExponent + k)) :
    format.Around q (k * format.leadingBit + r) := by
  have parity : (k * format.leadingBit + r) % 2 = r % 2 := by
    rw [Nat.add_mod, Nat.mul_mod, even, Nat.mul_zero, Nat.zero_mod, Nat.zero_add, Nat.mod_mod]
  have whole := value_eq normal bounded
  constructor
  · intro less last
    by_cases within : k = 0 ∨ format.leadingBit < r
    · obtain ⟨p, rfl⟩ : ∃ p, r = p + 1 := Nat.exists_eq_succ_of_ne_zero (by
        rcases within with rfl | within <;> omega)
      obtain rfl : less = k * format.leadingBit + p := by omega
      have before : format.value (k * format.leadingBit + p) =
          p * 2 ^ (format.leastExponent + k) := value_eq (within.imp_right (by omega)) (by omega)
      have middle : format.midpoint (k * format.leadingBit + p) =
          ((p + 1 : Nat) - 1 / 2) * 2 ^ (format.leastExponent + k) := by
        rw [midpoint, before, add_assoc, whole]
        push_cast
        ring
      rw [parity, middle]
      exact low
    · -- at the bottom of a binade the magnitude itself is not above
      obtain ⟨nonzero, least'⟩ := not_or.mp within
      obtain rfl : r = format.leadingBit :=
        le_antisymm (Nat.le_of_not_lt least') (normal.resolve_left nonzero)
      have bottom := least nonzero
      rw [← whole, last] at bottom
      exact .inl ((format.midpoint_lt_value less).trans_le bottom)
  · intro finite
    have step : (2 : ℚ) ^ (format.leastExponent + k) ≤
        2 ^ format.exponent (k * format.leadingBit + r) :=
      zpow_le_zpow_right₀ one_le_two (le_exponent normal)
    have middle : (r + 1 / 2) * 2 ^ (format.leastExponent + k) ≤
        format.midpoint (k * format.leadingBit + r) := by
      rw [midpoint, value_succ, whole]
      linarith
    rw [parity]
    rcases high with high | ⟨evenly, high⟩
    · exact .inl (high.trans_le middle)
    · exact (high.le.trans middle).lt_or_eq.imp_right fun equal => ⟨evenly, equal⟩

end Around

theorem around_zero : format.Around 0 0 :=
  .zero (format.value_zero.symm.trans_lt (format.value_lt_midpoint 0))

/-- The two sides of a fraction are shifted apart by a power of two. -/
theorem shiftLeft_div_shiftLeft (num den : Nat) (place : Int) :
    ((num <<< (-place).toNat : Nat) : ℚ) / (den <<< place.toNat : Nat) = num / den / 2 ^ place := by
  rw [zpow_eq_div two_ne_zero place, Nat.shiftLeft_eq, Nat.shiftLeft_eq]
  push_cast
  rw [div_div_div_eq]

theorem around_divNearest (even : format.leadingBit % 2 = 0) {num den k : Nat} (positive : 0 < den)
    {place : Int} (placed : place = format.leastExponent + k)
    (low : k ≠ 0 → (2 : ℚ) ^ (place + format.fractionBits) ≤ num / den)
    (high : (num / den : ℚ) < 2 ^ (place + format.fractionBits + 1)) :
    format.Around (num / den) (k * format.leadingBit +
      divNearest (num <<< (-place).toNat) (den <<< place.toNat)) := by
  have unit : (0 : ℚ) < 2 ^ place := zpow_pos two_pos _
  have bit : (format.leadingBit : ℚ) = 2 ^ (format.fractionBits : Int) := by
    rw [leadingBit_eq]
    push_cast
    rfl
  have least (raised : k ≠ 0) : (format.leadingBit : ℚ) * 2 ^ place ≤ num / den := by
    rw [bit, ← zpow_add₀ two_ne_zero, add_comm]
    exact low raised
  have below : (num / den / 2 ^ place : ℚ) < 2 * format.leadingBit := by
    rw [div_lt_iff₀ unit, bit, ← zpow_one_add₀ two_ne_zero, ← zpow_add₀ two_ne_zero]
    exact high.trans_eq (congrArg _ (by ring))
  have some : 0 < den <<< place.toNat := by
    rw [Nat.shiftLeft_eq]
    positivity
  have near := divNearest_near (num <<< (-place).toNat) some
  rw [shiftLeft_div_shiftLeft] at near
  generalize divNearest (num <<< (-place).toNat) (den <<< place.toNat) = rounded at *
  have normal : k = 0 ∨ format.leadingBit ≤ rounded := by
    by_cases raised : k = 0
    · exact .inl raised
    · have bottom := (le_div_iff₀ unit).mpr (least raised)
      have upTo : (format.leadingBit : ℚ) < (rounded + 1 : Nat) := by
        push_cast
        rcases near.2 with near | ⟨-, near⟩ <;> linarith
      exact .inr (Nat.le_of_lt_succ (by exact_mod_cast upTo))
  have bounded : rounded ≤ 2 * format.leadingBit := by
    have upTo : (rounded : ℚ) < (2 * format.leadingBit + 1 : Nat) := by
      push_cast
      rcases near.1 with near | ⟨-, near⟩ <;> linarith
    exact Nat.le_of_lt_succ (by exact_mod_cast upTo)
  refine .of_significand even normal bounded ?_ ?_ ?_
  · rw [← placed]
    exact least
  · rw [← placed, ← lt_div_iff₀ unit, ← eq_div_iff unit.ne']
    exact near.1
  · rw [← placed, ← div_lt_iff₀ unit, ← div_eq_iff unit.ne']
    exact near.2

theorem roundsTo_nearest (even : format.leadingBit % 2 = 0) (num : Nat) {den : Nat}
    (positive : 0 < den) : format.RoundsTo (num / den) (format.nearest num den) := by
  rw [nearest]
  split
  · next zero =>
    rw [zero, Nat.cast_zero, zero_div]
    exact around_zero.roundsTo (Nat.zero_le _)
  · next nonzero =>
    obtain ⟨low, high⟩ := zpow_floorLog2_le (Nat.pos_of_ne_zero nonzero) positive
    obtain ⟨place, settled⟩ : ∃ place,
      max (floorLog2 num den - format.fractionBits) format.leastExponent = place := ⟨_, rfl⟩
    obtain ⟨k, placed⟩ : ∃ k : Nat, place = format.leastExponent + k :=
      ⟨(place - format.leastExponent).toNat, by omega⟩
    have around := around_divNearest even positive placed
      (fun raised => (zpow_le_zpow_right₀ one_le_two (by omega)).trans low)
      (high.trans_le (zpow_le_zpow_right₀ one_le_two (by omega)))
    have moved : (place - format.leastExponent).toNat = k := by omega
    simp only [settled, moved]
    rcases Nat.le_total format.infinity
      (k * format.leadingBit + divNearest (num <<< (-place).toNat) (den <<< place.toNat)) with
      past | within
    · rw [Nat.min_eq_left past]
      exact (around.infinity_of_le past).roundsTo le_rfl
    · rw [Nat.min_eq_right within]
      exact around.roundsTo within

end BinaryFormat

namespace Decimal

theorem lt_pow_length_digits (n : Nat) : n < 10 ^ (digits n).length :=
  (Nat.length_toDigits_le_iff (by decide) (length_digits_pos n)).mp le_rfl

theorem pow_length_digits_le {n : Nat} (positive : 0 < n) : 10 ^ ((digits n).length - 1) ≤ n := by
  by_contra below
  by_cases single : (digits n).length - 1 = 0
  · rw [single] at below
    omega
  · have shorter := (Nat.length_toDigits_le_iff (b := 10) (by decide)
      (Nat.pos_of_ne_zero single)).mpr (Nat.lt_of_not_le below)
    change (digits n).length ≤ _ at shorter
    omega

/-- The exact number, without its sign. -/
def amount (d : Decimal) : ℚ := d.units * 10 ^ d.exponent

theorem amount_bounds {d : Decimal} (nonzero : d.units ≠ 0) :
    (10 : ℚ) ^ ((digits d.units).length + d.exponent - 1) ≤ d.amount ∧
      d.amount < 10 ^ ((digits d.units).length + d.exponent) := by
  have unit : (0 : ℚ) < 10 ^ d.exponent := by positivity
  have low : (10 : ℚ) ^ ((digits d.units).length - 1) ≤ d.units := by
    exact_mod_cast pow_length_digits_le (Nat.pos_of_ne_zero nonzero)
  have high : (d.units : ℚ) < 10 ^ (digits d.units).length := by
    exact_mod_cast lt_pow_length_digits d.units
  have length := length_digits_pos d.units
  have shifted : ((digits d.units).length + d.exponent - 1 : Int) =
      ((digits d.units).length - 1 : Nat) + d.exponent := by omega
  rw [amount, shifted, zpow_add₀ (by norm_num), zpow_add₀ (by norm_num), zpow_natCast, zpow_natCast]
  exact ⟨mul_le_mul_of_nonneg_right low unit.le, mul_lt_mul_of_pos_right high unit⟩

theorem two_zpow_le_ten_zpow {n : Int} (nonnegative : 0 ≤ n) : (2 : ℚ) ^ (3 * n) ≤ 10 ^ n := by
  rw [zpow_mul]
  exact zpow_le_zpow_left₀ nonnegative (by norm_num) (by norm_num)

theorem ten_zpow_neg_le_two_zpow {n : Int} (nonnegative : 0 ≤ n) :
    (10 : ℚ) ^ (-n) ≤ 2 ^ (-(3 * n)) := by
  rw [zpow_neg, zpow_neg]
  exact inv_anti₀ (by positivity) (two_zpow_le_ten_zpow nonnegative)

theorem amount_lt_midpoint {d : Decimal}
    (tiny : d.units = 0 ∨ (digits d.units).length + d.exponent < -1000) :
    d.amount < BinaryFormat.double.midpoint 0 := by
  have least : BinaryFormat.double.midpoint 0 = 2 ^ (-1075 : Int) := by
    have place : BinaryFormat.double.exponent 0 = -1075 + 1 := rfl
    rw [BinaryFormat.midpoint, BinaryFormat.value_succ, BinaryFormat.value_zero, place,
      zpow_add_one₀ two_ne_zero]
    ring
  rw [least]
  by_cases zero : d.units = 0
  · rw [amount, zero, Nat.cast_zero, zero_mul]
    positivity
  · calc d.amount < 10 ^ ((digits d.units).length + d.exponent) := (amount_bounds zero).2
      _ ≤ 10 ^ (-1001 : Int) :=
        zpow_le_zpow_right₀ (by norm_num) (by have := tiny.resolve_left zero; omega)
      _ ≤ 2 ^ (-3003 : Int) := ten_zpow_neg_le_two_zpow (n := 1001) (by decide)
      _ ≤ 2 ^ (-1075 : Int) := zpow_le_zpow_right₀ one_le_two (by decide)

theorem value_infinity_le_amount {d : Decimal} (nonzero : d.units ≠ 0)
    (huge : 1000 < (digits d.units).length + d.exponent) :
    BinaryFormat.double.value BinaryFormat.double.infinity ≤ d.amount := by
  have bit : (BinaryFormat.double.leadingBit : ℚ) = 2 ^ (52 : Int) := by
    rw [BinaryFormat.leadingBit_eq]
    norm_cast
  have whole : BinaryFormat.double.value BinaryFormat.double.infinity = 2 ^ (1024 : Int) := by
    have index : BinaryFormat.double.infinity =
        2046 * BinaryFormat.double.leadingBit + BinaryFormat.double.leadingBit := by decide
    have place : BinaryFormat.double.leastExponent + (2046 : Nat) = 972 := rfl
    rw [index, BinaryFormat.value_eq (.inr le_rfl) (by omega), bit, place, ← zpow_add₀ two_ne_zero]
    rfl
  rw [whole]
  calc (2 : ℚ) ^ (1024 : Int) ≤ 2 ^ (3000 : Int) := zpow_le_zpow_right₀ one_le_two (by decide)
    _ ≤ 10 ^ (1000 : Int) := two_zpow_le_ten_zpow (n := 1000) (by decide)
    _ ≤ 10 ^ ((digits d.units).length + d.exponent - 1) :=
      zpow_le_zpow_right₀ (by norm_num) (by omega)
    _ ≤ d.amount := (amount_bounds nonzero).1

/-- A decimal is read as the magnitude that it rounds to, however large or small it is. -/
theorem roundsTo_nearestDecimal (d : Decimal) :
    BinaryFormat.double.RoundsTo d.amount (BinaryFormat.double.nearestDecimal d) := by
  simp only [BinaryFormat.nearestDecimal]
  split
  · next tiny =>
    have around := BinaryFormat.Around.zero (amount_lt_midpoint tiny)
    exact around.roundsTo (Nat.zero_le _)
  · next ordinary =>
    obtain ⟨nonzero, -⟩ := not_or.mp ordinary
    split
    · next huge =>
      have around := BinaryFormat.Around.infinity (value_infinity_le_amount nonzero huge)
      exact around.roundsTo le_rfl
    · have quotient : d.amount = (d.units * Nat.pow 10 d.exponent.toNat : Nat) /
          (Nat.pow 10 (-d.exponent).toNat : Nat) := by
        rw [amount, zpow_eq_div (by norm_num), Nat.pow_eq, Nat.pow_eq]
        push_cast
        exact mul_div_assoc' _ _ _
      rw [quotient]
      exact BinaryFormat.roundsTo_nearest (by decide) _ (Nat.pow_pos (by decide))

end Decimal

end Multipart
