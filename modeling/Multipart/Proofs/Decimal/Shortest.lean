import Mathlib.Tactic.FieldSimp
import Multipart.Decimal.Shortest
import Multipart.Proofs.Decimal.Integer
import Multipart.Proofs.Decimal.Nearest

/-!
# The shortest digits round back

A grid point is accepted just if it is among the numbers around the magnitude. The grid of
seventeen digits is finer than the gaps on either side of any magnitude, so the search ends, and
the digits that it finds are of a number that rounds back.
-/

namespace Multipart

namespace RoundingInterval

variable (i : RoundingInterval) (grid : Int)

/-- What a whole number of quarters measures. -/
def quarters (n : Nat) : ℚ := n * 2 ^ i.place

theorem exists_denominator : ∃ d : ℚ, 0 < d ∧
    (∀ n : Nat, ((n * i.quarterUnit grid : Nat) : ℚ) = i.quarters n * d) ∧
    ∀ c : Nat, ((c * i.gridUnit grid : Nat) : ℚ) = c * 10 ^ grid * d := by
  refine ⟨10 ^ (-grid).toNat * 2 ^ (-i.place).toNat, by positivity, ?_, ?_⟩
  · intro n
    rw [quarters, quarterUnit, zpow_eq_div two_ne_zero, Nat.shiftLeft_eq, Nat.pow_eq]
    push_cast
    field_simp
  · intro c
    rw [gridUnit, zpow_eq_div (by norm_num) grid, Nat.shiftLeft_eq, Nat.pow_eq]
    push_cast
    field_simp

variable {i grid}

theorem contains_iff {c : Nat} :
    i.contains grid c = true ↔
      (i.quarters i.low < c * 10 ^ grid ∨ i.closed = true ∧ i.quarters i.low = c * 10 ^ grid) ∧
      (c * 10 ^ grid < i.quarters i.high ∨
        i.closed = true ∧ c * 10 ^ grid = i.quarters i.high) := by
  obtain ⟨d, positive, quarter, point⟩ := i.exists_denominator grid
  have low_lt : i.low * i.quarterUnit grid < c * i.gridUnit grid ↔
      i.quarters i.low < c * 10 ^ grid := by
    rw [← Nat.cast_lt (α := ℚ), quarter, point, mul_lt_mul_iff_left₀ positive]
  have low_eq : i.low * i.quarterUnit grid = c * i.gridUnit grid ↔
      i.quarters i.low = c * 10 ^ grid := by
    rw [← Nat.cast_inj (R := ℚ), quarter, point, mul_left_inj' positive.ne']
  have lt_high : c * i.gridUnit grid < i.high * i.quarterUnit grid ↔
      c * 10 ^ grid < i.quarters i.high := by
    rw [← Nat.cast_lt (α := ℚ), quarter, point, mul_lt_mul_iff_left₀ positive]
  have eq_high : c * i.gridUnit grid = i.high * i.quarterUnit grid ↔
      c * 10 ^ grid = i.quarters i.high := by
    rw [← Nat.cast_inj (R := ℚ), quarter, point, mul_left_inj' positive.ne']
  rw [← low_lt, ← low_eq, ← lt_high, ← eq_high, contains]
  cases i.closed with
  | false => simp
  | true => simp [Nat.le_iff_lt_or_eq]

theorem floor_bounds (i : RoundingInterval) (grid : Int) :
    let below := i.center * i.quarterUnit grid / i.gridUnit grid
    (below * 10 ^ grid : ℚ) ≤ i.quarters i.center ∧
      i.quarters i.center < (below + 1 : Nat) * 10 ^ grid := by
  intro below
  obtain ⟨d, positive, quarter, point⟩ := i.exists_denominator grid
  have whole : 0 < i.gridUnit grid := by
    rw [gridUnit, Nat.shiftLeft_eq, Nat.pow_eq]
    positivity
  have least : below * i.gridUnit grid ≤ i.center * i.quarterUnit grid :=
    Nat.div_mul_le_self _ _
  have next : i.center * i.quarterUnit grid < (below + 1) * i.gridUnit grid :=
    (Nat.lt_mul_div_succ _ whole).trans_eq (Nat.mul_comm _ _)
  rw [← Nat.cast_le (α := ℚ), quarter, point, mul_le_mul_iff_left₀ positive] at least
  rw [← Nat.cast_lt (α := ℚ), quarter, point, mul_lt_mul_iff_left₀ positive] at next
  exact ⟨least, next⟩

theorem contains_of_pick? {c : Nat} (picked : i.pick? grid = some c) :
    i.contains grid c = true := by
  simp only [pick?] at picked
  split at picked
  · next below above =>
    cases picked
    split
    · exact below
    · exact above
  · next below _ => cases picked; exact below
  · next _ above => cases picked; exact above
  · cases picked

/-- From a point of the interval to the center everything belongs to it. -/
theorem contains_of_between (other : Int) {c : Nat} (b : Nat)
    (low : i.quarters i.low < i.quarters i.center) (high : i.quarters i.center < i.quarters i.high)
    (inside : i.contains grid c = true)
    (between : (c * 10 ^ grid ≤ (b * 10 ^ other : ℚ) ∧ b * 10 ^ other ≤ i.quarters i.center) ∨
      i.quarters i.center ≤ b * 10 ^ other ∧ (b * 10 ^ other : ℚ) ≤ c * 10 ^ grid) :
    i.contains other b = true := by
  rw [contains_iff] at inside ⊢
  generalize (b * 10 ^ other : ℚ) = point at *
  generalize (c * 10 ^ grid : ℚ) = edge at *
  grind

/-- Nothing is found on a grid only if the interval has no point of it. -/
theorem not_contains_of_pick? (low : i.quarters i.low < i.quarters i.center)
    (high : i.quarters i.center < i.quarters i.high) (none : i.pick? grid = none) (c : Nat) :
    i.contains grid c = false := by
  by_contra inside
  rw [Bool.not_eq_false] at inside
  have unit : (0 : ℚ) < 10 ^ grid := by positivity
  obtain ⟨upTo, past⟩ := i.floor_bounds grid
  simp only [pick?] at none
  generalize i.center * i.quarterUnit grid / i.gridUnit grid = below at *
  rcases Nat.lt_or_ge below c with above | within
  · have point : ((below + 1 : Nat) * 10 ^ grid : ℚ) ≤ c * 10 ^ grid :=
      mul_le_mul_of_nonneg_right (by exact_mod_cast above) unit.le
    rw [contains_of_between _ (below + 1) low high inside (.inr ⟨past.le, point⟩)] at none
    split at none <;> simp_all
  · have point : (c * 10 ^ grid : ℚ) ≤ below * 10 ^ grid :=
      mul_le_mul_of_nonneg_right (by exact_mod_cast within) unit.le
    rw [contains_of_between _ below low high inside (.inl ⟨point, upTo⟩)] at none
    split at none <;> simp_all

theorem le_of_pick? {c : Nat} (picked : i.pick? grid = some c) :
    ∃ below : Nat, (below * 10 ^ grid : ℚ) ≤ i.quarters i.center ∧ c ≤ below + 1 := by
  refine ⟨_, (i.floor_bounds grid).1, ?_⟩
  simp only [pick?] at picked
  split at picked
  · cases picked
    split <;> omega
  · cases picked; omega
  · cases picked; omega
  · cases picked

/-- A grid that is finer than both sides of the interval has a point in it. -/
theorem exists_pick? (left : (10 : ℚ) ^ grid ≤ 2 * (i.quarters i.center - i.quarters i.low))
    (right : (10 : ℚ) ^ grid < 2 * (i.quarters i.high - i.quarters i.center)) :
    ∃ c, i.pick? grid = some c := by
  have unit : (0 : ℚ) < 10 ^ grid := by positivity
  obtain ⟨upTo, past⟩ := i.floor_bounds grid
  simp only [pick?]
  generalize i.center * i.quarterUnit grid / i.gridUnit grid = below at *
  cases lower : i.contains grid below with
  | true => cases i.contains grid (below + 1) <;> exact ⟨_, rfl⟩
  | false =>
    cases upper : i.contains grid (below + 1) with
    | true => exact ⟨_, rfl⟩
    | false =>
      -- both neighbours would lie outside, a whole interval apart
      rw [← Bool.not_eq_true, contains_iff] at lower upper
      push_cast at past upper
      grind

/-! ## The interval of a magnitude -/

open BinaryFormat

variable {m : Nat}

theorem quarters_four (m : Nat) :
    (2 : ℚ) ^ double.exponent m = 2 ^ (double.exponent m - 2) * 4 := by
  rw [zpow_sub₀ two_ne_zero]
  norm_num

theorem quarters_center (m : Nat) :
    (ofMagnitude m).quarters (ofMagnitude m).center = double.value m := by
  simp only [quarters, ofMagnitude, value, quarters_four]
  push_cast
  ring

theorem quarters_high (m : Nat) :
    (ofMagnitude m).quarters (ofMagnitude m).high = double.midpoint m := by
  rw [BinaryFormat.midpoint, value_succ, ← quarters_center m]
  simp only [quarters, ofMagnitude, quarters_four]
  push_cast
  ring

theorem significand_pos (positive : 0 < m) : 0 < double.significand m := by
  refine Nat.pos_of_ne_zero ?_
  intro zero
  have above := double.strictMono_value positive
  rw [value_zero, value, zero, Nat.cast_zero, zero_mul] at above
  exact lt_irrefl _ above

/-- A power of two has its lower neighbour in the binade below. -/
theorem exponent_succ (less : Nat) :
    double.exponent (less + 1) = double.exponent less +
      if (less + 1) % 0x10000000000000 == 0 && 0x20000000000000 ≤ less + 1 then 1 else 0 := by
  have bit : double.leadingBit = 0x10000000000000 := rfl
  simp only [exponent, bit, Bool.and_eq_true, beq_iff_eq, decide_eq_true_eq]
  split <;> omega

theorem quarters_low (less : Nat) :
    (ofMagnitude (less + 1)).quarters (ofMagnitude (less + 1)).low = double.midpoint less := by
  have center := quarters_center (less + 1)
  have positive : 0 < double.significand (less + 1) := significand_pos (Nat.succ_pos less)
  have moved := exponent_succ less
  have middle :
      double.midpoint less = double.value (less + 1) - 2 ^ (double.exponent less - 1) := by
    rw [BinaryFormat.midpoint, value_succ, zpow_sub_one₀ two_ne_zero]
    ring
  rw [middle, ← center]
  simp only [quarters, ofMagnitude] at moved ⊢
  split at moved
  · next power =>
    have place : double.exponent (less + 1) - 2 = double.exponent less - 1 := by omega
    rw [if_pos power, place, Nat.cast_sub (by omega)]
    push_cast
    ring
  · next ordinary =>
    have place : (2 : ℚ) ^ (double.exponent less - 1) =
        2 ^ (double.exponent (less + 1) - 2) * 2 := by
      rw [← zpow_add_one₀ two_ne_zero]
      congr 1
      omega
    rw [if_neg ordinary, place, Nat.cast_sub (by omega)]
    push_cast
    ring

theorem low_lt_center (positive : 0 < m) :
    (ofMagnitude m).quarters (ofMagnitude m).low <
      (ofMagnitude m).quarters (ofMagnitude m).center := by
  obtain ⟨less, rfl⟩ := Nat.exists_eq_succ_of_ne_zero positive.ne'
  rw [quarters_low, quarters_center]
  exact double.midpoint_lt_value less

theorem center_lt_high (m : Nat) :
    (ofMagnitude m).quarters (ofMagnitude m).center <
      (ofMagnitude m).quarters (ofMagnitude m).high := by
  rw [quarters_high, quarters_center]
  exact double.value_lt_midpoint m

theorem closed_iff (m : Nat) : (ofMagnitude m).closed = true ↔ m % 2 = 0 := by
  have bit : double.leadingBit = 0x10000000000000 := rfl
  simp only [ofMagnitude, significand, bit, beq_iff_eq]
  split <;> omega

theorem around_of_contains {grid : Int} {c : Nat}
    (inside : (ofMagnitude m).contains grid c = true) : double.Around (c * 10 ^ grid) m := by
  obtain ⟨low, high⟩ := contains_iff.mp inside
  rw [closed_iff] at low high
  constructor
  · rintro less rfl
    rw [← quarters_low]
    exact low
  · intro _
    rw [← quarters_high]
    exact high

theorem contains_of_around {grid : Int} {c : Nat} (positive : 0 < m) (finite : m < double.infinity)
    (around : double.Around (c * 10 ^ grid) m) : (ofMagnitude m).contains grid c = true := by
  rw [contains_iff, closed_iff, quarters_high]
  refine ⟨?_, around.above finite⟩
  obtain ⟨less, rfl⟩ := Nat.exists_eq_succ_of_ne_zero positive.ne'
  rw [quarters_low]
  exact around.below less rfl

/-! ## The search -/

/-- On either side of a magnitude there is a gap of a `2 ^ 54`th of it. -/
theorem gaps (m : Nat) :
    let i := ofMagnitude m
    double.value m ≤ 2 ^ 54 * (i.quarters i.center - i.quarters i.low) ∧
      double.value m ≤ 2 ^ 54 * (i.quarters i.high - i.quarters i.center) := by
  intro i
  have whole : i.center + 2 ^ 54 * i.low ≤ 2 ^ 54 * i.center ∧
      i.center + 2 ^ 54 * i.center ≤ 2 ^ 54 * i.high := by
    have bit : double.leadingBit = 0x10000000000000 := rfl
    simp only [i, ofMagnitude, significand, bit, Bool.and_eq_true, beq_iff_eq, decide_eq_true_eq]
    split <;> split <;> omega
  have scaled {a b c : Nat} (fits : a + 2 ^ 54 * b ≤ 2 ^ 54 * c) :
      i.quarters a ≤ 2 ^ 54 * (i.quarters c - i.quarters b) := by
    have unit : (0 : ℚ) < 2 ^ i.place := by positivity
    have wide : (a + 2 ^ 54 * b : ℚ) ≤ 2 ^ 54 * c := by exact_mod_cast fits
    have times := mul_le_mul_of_nonneg_right wide unit.le
    simp only [quarters]
    linarith
  rw [← quarters_center]
  exact ⟨scaled whole.1, scaled whole.2⟩

theorem le_value (positive : 0 < m) : (10 : ℚ) ^ (-400 : Int) ≤ double.value m := by
  have least : double.value 1 = 2 ^ (-1074 : Int) := by
    have place : double.exponent 0 = -1074 := rfl
    rw [value_succ, value_zero, zero_add, place]
  calc (10 : ℚ) ^ (-400 : Int) ≤ 2 ^ (-1200 : Int) :=
        Decimal.ten_zpow_neg_le_two_zpow (n := 400) (by decide)
    _ ≤ 2 ^ (-1074 : Int) := zpow_le_zpow_right₀ one_le_two (by decide)
    _ = double.value 1 := least.symm
    _ ≤ double.value m := double.strictMono_value.monotone positive

theorem size_bounds (positive : 0 < m) :
    (10 : ℚ) ^ ((ofMagnitude m).size - 1) ≤ double.value m ∧
      double.value m < 10 ^ (ofMagnitude m).size := by
  obtain ⟨low, high⟩ := (ofMagnitude m).floor_bounds (-400)
  rw [quarters_center] at low high
  rw [size]
  generalize (ofMagnitude m).center * (ofMagnitude m).quarterUnit (-400) /
    (ofMagnitude m).gridUnit (-400) = scaled at *
  have unit : (0 : ℚ) < 10 ^ (-400 : Int) := by positivity
  have nonzero : 0 < scaled := by
    refine Nat.pos_of_ne_zero ?_
    rintro rfl
    rw [Nat.zero_add, Nat.cast_one, one_mul] at high
    exact absurd (le_value positive) (not_le_of_gt high)
  have length := Decimal.length_digits_pos scaled
  have fewest : (10 : ℚ) ^ ((Decimal.digits scaled).length - 1) ≤ scaled := by
    exact_mod_cast Decimal.pow_length_digits_le nonzero
  have most : ((scaled + 1 : Nat) : ℚ) ≤ 10 ^ (Decimal.digits scaled).length := by
    exact_mod_cast Decimal.lt_pow_length_digits scaled
  have shifted : ((Decimal.digits scaled).length - 400 - 1 : Int) =
      ((Decimal.digits scaled).length - 1 : Nat) + -400 := by omega
  rw [shifted, zpow_add₀ (by norm_num), sub_eq_add_neg _ (400 : Int), zpow_add₀ (by norm_num),
    zpow_natCast, zpow_natCast]
  exact ⟨(mul_le_mul_of_nonneg_right fewest unit.le).trans low,
    high.trans_le (mul_le_mul_of_nonneg_right most unit.le)⟩

theorem exists_pick?_seventeen (positive : 0 < m) :
    ∃ c, (ofMagnitude m).pick? ((ofMagnitude m).size - 17) = some c := by
  obtain ⟨low, -⟩ := size_bounds positive
  obtain ⟨left, right⟩ := gaps m
  have above : 0 < double.value m := lt_of_lt_of_le (by positivity) (le_value positive)
  have fine : (10 : ℚ) ^ ((ofMagnitude m).size - 17) < double.value m / 2 ^ 53 := by
    have place : (ofMagnitude m).size - 17 = (ofMagnitude m).size - 1 + -16 := by ring
    rw [place, zpow_add₀ (by norm_num)]
    calc (10 : ℚ) ^ ((ofMagnitude m).size - 1) * 10 ^ (-16 : Int)
        ≤ double.value m * 10 ^ (-16 : Int) := mul_le_mul_of_nonneg_right low (by positivity)
      _ < double.value m * (1 / 2 ^ 53) := mul_lt_mul_of_pos_left (by norm_num) above
      _ = double.value m / 2 ^ 53 := mul_one_div _ _
  exact exists_pick? (by linarith) (by linarith)

/-- The grid of so many digits gives no more digits, but for the next power of ten. -/
theorem le_ten_pow_of_pick? (positive : 0 < m) {c n : Nat}
    (picked : (ofMagnitude m).pick? ((ofMagnitude m).size - n) = some c) : c ≤ 10 ^ n := by
  obtain ⟨below, upTo, next⟩ := le_of_pick? picked
  suffices below < 10 ^ n by omega
  have scaled := upTo.trans_lt ((quarters_center m).trans_lt (size_bounds positive).2)
  have unit : (0 : ℚ) < 10 ^ ((ofMagnitude m).size - n) := by positivity
  have whole : (10 : ℚ) ^ (ofMagnitude m).size = 10 ^ n * 10 ^ ((ofMagnitude m).size - n) := by
    rw [← zpow_natCast, ← zpow_add₀ (by norm_num)]
    congr 1
    omega
  rw [whole, mul_lt_mul_iff_left₀ unit] at scaled
  exact_mod_cast scaled

/-- A number between two powers of ten has its digits right below the upper one. -/
theorem exponent_of_between {size exponent : Int} {units : Nat}
    (above : (10 : ℚ) ^ (size - 1) < units * 10 ^ exponent)
    (below : (units * 10 ^ exponent : ℚ) < 10 ^ size) :
    exponent = size - (Decimal.digits units).length := by
  have nonzero : units ≠ 0 := by
    rintro rfl
    rw [Nat.cast_zero, zero_mul] at above
    exact absurd above (not_lt_of_gt (by positivity))
  obtain ⟨least, most⟩ := Decimal.amount_bounds (d := ⟨false, units, exponent⟩) nonzero
  have low := (zpow_lt_zpow_iff_right₀ (by norm_num)).mp (above.trans most)
  have high := (zpow_lt_zpow_iff_right₀ (by norm_num)).mp (least.trans_lt below)
  simp only at low high
  omega

/-- With a number the interval has one that has no more digits and is on a grid of the search. A
number of another size has a power of ten between it and the center. -/
theorem exists_contains (positive : 0 < m) {units : Nat} {exponent : Int}
    (inside : (ofMagnitude m).contains exponent units = true) :
    ∃ n point, 1 ≤ n ∧ n ≤ (Decimal.digits units).length ∧
      (ofMagnitude m).contains ((ofMagnitude m).size - n) point = true := by
  obtain ⟨small, large⟩ := size_bounds positive
  rw [← quarters_center] at small large
  have low := low_lt_center positive
  have high := center_lt_high m
  have some := Decimal.length_digits_pos units
  rcases le_or_gt (units * 10 ^ exponent : ℚ) (10 ^ ((ofMagnitude m).size - 1)) with under | above
  · refine ⟨1, 1, le_rfl, some, ?_⟩
    refine contains_of_between _ 1 low high inside (.inl ?_)
    rw [Nat.cast_one, Nat.cast_one, one_mul]
    exact ⟨under, small⟩
  · rcases le_or_gt ((10 : ℚ) ^ (ofMagnitude m).size) (units * 10 ^ exponent) with past | within
    · refine ⟨1, 10, le_rfl, some, ?_⟩
      refine contains_of_between _ 10 low high inside (.inr ?_)
      rw [Nat.cast_one, Nat.cast_ofNat, ← zpow_one_add₀ (by norm_num), add_sub_cancel]
      exact ⟨large.le, past⟩
    · rw [exponent_of_between above within] at inside
      exact ⟨_, units, some, le_rfl, inside⟩

theorem search_eq_some {i : RoundingInterval} {size grid : Int} {fuel count c : Nat}
    (found : i.search size fuel count = some (c, grid)) :
    i.pick? grid = some c ∧ ∃ n, count ≤ n ∧ n < count + fuel ∧ grid = size - n ∧
      ∀ less, count ≤ less → less < n → i.pick? (size - less) = none := by
  induction fuel generalizing count with
  | zero => cases found
  | succ fuel ih =>
    rw [search] at found
    cases picked : i.pick? (size - count) with
    | some c =>
      rw [picked] at found
      cases found
      exact ⟨picked, count, le_rfl, by omega, rfl, fun _ _ _ => by omega⟩
    | none =>
      rw [picked] at found
      obtain ⟨last, n, above, below, placed, before⟩ := ih found
      refine ⟨last, n, by omega, by omega, placed, ?_⟩
      intro less lower upper
      rcases lower.eq_or_lt with rfl | lower
      · exact picked
      · exact before less lower upper

theorem exists_search {i : RoundingInterval} {size : Int} {fuel count n : Nat}
    (least : count ≤ n) (within : n < count + fuel) (picked : ∃ c, i.pick? (size - n) = some c) :
    ∃ found, i.search size fuel count = some found := by
  induction fuel generalizing count with
  | zero => omega
  | succ fuel ih =>
    rw [search]
    cases first : i.pick? (size - count) with
    | some c => exact ⟨_, rfl⟩
    | none =>
      rcases least.eq_or_lt with rfl | least
      · obtain ⟨c, picked⟩ := picked
        rw [first] at picked
        cases picked
      · exact ih least (by omega)

end RoundingInterval

namespace Decimal

theorem ofDigits_append_zeros (cs : List Char) (n : Nat) :
    ofDigits (cs ++ List.replicate n '0') = ofDigits cs * 10 ^ n := by
  rw [ofDigits, Nat.ofDigitChars_append, Nat.ofDigitChars_replicate_zero, Nat.mul_comm, ofDigits]

theorem exists_zeros (cs : List Char) :
    ∃ n, cs = (cs.reverse.dropWhile (· == '0')).reverse ++ List.replicate n '0' := by
  refine ⟨(cs.reverse.takeWhile (· == '0')).length, ?_⟩
  have zeros : List.replicate (cs.reverse.takeWhile (· == '0')).length '0' =
      cs.reverse.takeWhile (· == '0') := by
    refine (List.eq_replicate_iff.mpr ⟨rfl, ?_⟩).symm
    intro c member
    exact eq_of_beq (List.all_eq_true.mp List.all_takeWhile c member)
  have split := congrArg List.reverse (List.takeWhile_append_dropWhile (p := (· == '0'))
    (l := cs.reverse))
  rw [List.reverse_append, List.reverse_reverse, ← zeros, List.reverse_replicate] at split
  exact split.symm

end Decimal

namespace Digits

open BinaryFormat RoundingInterval

/-- The exact number. -/
def amount (d : Digits) : ℚ := Decimal.ofDigits d.digits * 10 ^ (d.point - d.digits.length)

/-- There are digits, and nothing else. -/
def Numeric (d : Digits) : Prop := d.digits ≠ [] ∧ ∀ c ∈ d.digits, c.isDigit = true

variable {m c n : Nat} {grid : Int}

theorem amount_ofScaled (c : Nat) (grid : Int) : (ofScaled c grid).amount = c * 10 ^ grid := by
  obtain ⟨n, split⟩ := Decimal.exists_zeros (Decimal.digits c)
  have value := Decimal.ofDigits_digits c
  have length := congrArg List.length split
  rw [split, Decimal.ofDigits_append_zeros] at value
  rw [List.length_append, List.length_replicate] at length
  simp only [amount, ofScaled]
  rw [length]
  generalize ((Decimal.digits c).reverse.dropWhile (· == '0')).reverse = cs at *
  have placed : ((cs.length + n : Nat) + grid - cs.length : Int) = n + grid := by
    push_cast
    ring
  rw [placed, zpow_add₀ (by norm_num), ← mul_assoc, ← value, zpow_natCast]
  push_cast
  rfl

theorem numeric_ofScaled (positive : 0 < c) : (ofScaled c grid).Numeric := by
  obtain ⟨n, split⟩ := Decimal.exists_zeros (Decimal.digits c)
  have value := Decimal.ofDigits_digits c
  rw [split, Decimal.ofDigits_append_zeros] at value
  constructor
  · intro none
    simp only [ofScaled] at none
    rw [none] at value
    simp only [Decimal.ofDigits, Nat.ofDigitChars_nil, Nat.zero_mul] at value
    omega
  · intro char member
    refine Decimal.isDigit_of_mem_digits (n := c) ?_
    rw [split]
    exact List.mem_append_left _ member

/-- What the search has found for a magnitude. -/
structure Found (m c n : Nat) : Prop where
  eq : shortest m = ofScaled c ((ofMagnitude m).size - n)
  picked : (ofMagnitude m).pick? ((ofMagnitude m).size - n) = some c
  one_le : 1 ≤ n
  fewest : ∀ less, 1 ≤ less → less < n →
    (ofMagnitude m).pick? ((ofMagnitude m).size - less) = none

theorem exists_found (positive : 0 < m) : ∃ c n, Found m c n := by
  obtain ⟨⟨c, grid⟩, found⟩ := exists_search (show 1 ≤ 17 by decide)
    (show 17 < 1 + 17 by decide) (exists_pick?_seventeen positive)
  obtain ⟨picked, n, least, -, rfl, before⟩ := search_eq_some found
  refine ⟨c, n, ?_, picked, least, before⟩
  simp only [shortest]
  rw [found]

/-- The digits are of a number that rounds to the magnitude. -/
theorem around_shortest (positive : 0 < m) :
    (shortest m).Numeric ∧ double.Around (shortest m).amount m := by
  obtain ⟨c, n, found⟩ := exists_found positive
  have inside := around_of_contains (contains_of_pick? found.picked)
  rw [found.eq, amount_ofScaled]
  refine ⟨numeric_ofScaled (Nat.pos_of_ne_zero ?_), inside⟩
  rintro rfl
  obtain ⟨less, rfl⟩ := Nat.exists_eq_succ_of_ne_zero positive.ne'
  have start := double.strictMono_value.monotone (Nat.zero_le less)
  have above := double.value_lt_midpoint less
  have low := inside.below less rfl
  rw [Nat.cast_zero, zero_mul, ← double.value_zero] at low
  grind

theorem digits_ten_pow (n : Nat) : Decimal.digits (10 ^ n) = '1' :: List.replicate n '0' := by
  induction n with
  | zero => rfl
  | succ n ih =>
    have base : 10 ≤ 10 ^ (n + 1) := Nat.le_self_pow (Nat.succ_ne_zero n) 10
    have last : (10 ^ (n + 1)) % 10 = 0 := by rw [Nat.pow_succ, Nat.mul_mod_left]
    have rest : 10 ^ (n + 1) / 10 = 10 ^ n := by
      rw [Nat.pow_succ, Nat.mul_div_cancel _ (by decide)]
    rw [Decimal.digits, Nat.toDigits_of_base_le (by decide) base, last, rest]
    rw [Decimal.digits] at ih
    rw [ih, List.cons_append, List.replicate_succ']
    rfl

theorem length_ofScaled_le (grid : Int) (upTo : c ≤ 10 ^ n) (least : 1 ≤ n) :
    (ofScaled c grid).digits.length ≤ n := by
  rcases upTo.lt_or_eq with below | rfl
  · obtain ⟨k, split⟩ := Decimal.exists_zeros (Decimal.digits c)
    have length := congrArg List.length split
    have fits : (Decimal.digits c).length ≤ n :=
      (Nat.length_toDigits_le_iff (by decide) least).mpr below
    rw [List.length_append, List.length_replicate] at length
    exact (Nat.le.intro length.symm).trans fits
  · -- all but the first digit are dropped
    have zeros : (List.replicate n '0').dropWhile (· == '0') = [] := by
      rw [List.dropWhile_replicate]
      rfl
    have first : (ofScaled (10 ^ n) grid).digits = ['1'] := by
      simp only [ofScaled, digits_ten_pow, List.reverse_cons, List.reverse_replicate,
        List.dropWhile_append, zeros]
      rfl
    rw [first]
    exact least

/-- No number with fewer digits rounds to the magnitude. -/
theorem length_shortest_le (positive : 0 < m) (finite : m < double.infinity) {units : Nat}
    {exponent : Int} (around : double.Around (units * 10 ^ exponent) m) :
    (shortest m).digits.length ≤ (Decimal.digits units).length := by
  obtain ⟨c, n, found⟩ := exists_found positive
  obtain ⟨fewer, point, least, few, inside⟩ :=
    exists_contains positive (contains_of_around positive finite around)
  have enough : n ≤ fewer := by
    by_contra before
    have none := found.fewest fewer least (Nat.lt_of_not_le before)
    have outside := not_contains_of_pick? (low_lt_center positive) (center_lt_high m) none point
    exact absurd (inside.symm.trans outside) (by decide)
  calc (shortest m).digits.length ≤ n := by
        rw [found.eq]
        exact length_ofScaled_le _ (le_ten_pow_of_pick? positive found.picked) found.one_le
    _ ≤ fewer := enough
    _ ≤ (Decimal.digits units).length := few

end Digits

end Multipart
