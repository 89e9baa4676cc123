import Mathlib.Algebra.Order.Field.Power
import Mathlib.Data.Rat.Cast.Order
import Mathlib.Tactic.Linarith
import Mathlib.Tactic.NormNum
import Mathlib.Tactic.Ring
import Multipart.Decimal.Binary

/-!
# Rounding to binary magnitudes

Magnitudes are in the order of their values, and a magnitude is below the next one by a unit in its
last place. What lies between the two midpoints around a magnitude rounds to it; the midpoints
themselves do so just if the magnitude is even. Infinity counts as the power of two after the last
finite magnitude.
-/

namespace Multipart

namespace BinaryFormat

variable {format : BinaryFormat} {m n : Nat} {q : ℚ}

def value (format : BinaryFormat) (m : Nat) : ℚ :=
  format.significand m * 2 ^ format.exponent m

theorem leadingBit_eq (format : BinaryFormat) : format.leadingBit = 2 ^ format.fractionBits := by
  rw [leadingBit, Nat.one_shiftLeft]

theorem leadingBit_pos (format : BinaryFormat) : 0 < format.leadingBit := by
  rw [leadingBit_eq]
  exact Nat.two_pow_pos _

/-- The place of a magnitude above the least one and its significand spell it. -/
theorem significand_eq {k s : Nat} (normal : k = 0 ∨ format.leadingBit ≤ s)
    (bounded : s < 2 * format.leadingBit) :
    format.significand (k * format.leadingBit + s) = s ∧
      format.exponent (k * format.leadingBit + s) = format.leastExponent + k := by
  have positive := format.leadingBit_pos
  rw [significand, exponent]
  generalize format.leadingBit = bit at *
  by_cases small : s < bit
  · obtain rfl : k = 0 := normal.resolve_right (by omega)
    rw [Nat.zero_mul, Nat.zero_add, if_pos small, Nat.mod_eq_of_lt small, Nat.div_eq_of_lt small]
    exact ⟨rfl, rfl⟩
  · obtain ⟨fraction, rfl⟩ := Nat.exists_eq_add_of_le (Nat.le_of_not_lt small)
    have spelled : k * bit + (bit + fraction) = fraction + bit * (k + 1) := by ring
    have low : fraction < bit := by omega
    rw [spelled, Nat.add_mul_mod_self_left, Nat.mod_eq_of_lt low, Nat.add_mul_div_left _ _ positive,
      Nat.div_eq_of_lt low, if_neg (by nlinarith)]
    exact ⟨rfl, by simp⟩

theorem exists_significand (format : BinaryFormat) (m : Nat) :
    ∃ k s, m = k * format.leadingBit + s ∧ (k = 0 ∨ format.leadingBit ≤ s) ∧
      s < 2 * format.leadingBit := by
  have positive := format.leadingBit_pos
  have low := Nat.mod_lt m positive
  have split := Nat.div_add_mod m format.leadingBit
  generalize format.leadingBit = bit at *
  cases above : m / bit with
  | zero =>
    rw [above, Nat.mul_zero, Nat.zero_add] at split
    exact ⟨0, m % bit, by omega, .inl rfl, by omega⟩
  | succ k =>
    rw [above] at split
    exact ⟨k, bit + m % bit, by linarith, .inr (by omega), by omega⟩

theorem value_eq {k s : Nat} (normal : k = 0 ∨ format.leadingBit ≤ s)
    (bounded : s ≤ 2 * format.leadingBit) :
    format.value (k * format.leadingBit + s) = s * 2 ^ (format.leastExponent + k) := by
  rcases bounded.lt_or_eq with below | rfl
  · obtain ⟨spelled, place⟩ := significand_eq normal below
    rw [value, spelled, place]
  · -- the significand has carried into the next place
    have positive := format.leadingBit_pos
    have carried : k * format.leadingBit + 2 * format.leadingBit =
        (k + 1) * format.leadingBit + format.leadingBit := by ring
    obtain ⟨spelled, place⟩ := significand_eq
      (show k + 1 = 0 ∨ format.leadingBit ≤ format.leadingBit from .inr le_rfl) (by omega)
    rw [value, carried, spelled, place, Nat.cast_succ, ← add_assoc, zpow_add_one₀ two_ne_zero]
    push_cast
    ring

theorem value_succ (format : BinaryFormat) (m : Nat) :
    format.value (m + 1) = format.value m + 2 ^ format.exponent m := by
  obtain ⟨k, s, rfl, normal, bounded⟩ := format.exists_significand m
  rw [add_assoc, value_eq (normal.imp_right (Nat.le_succ_of_le)) bounded,
    value_eq normal bounded.le, (significand_eq normal bounded).2]
  push_cast
  ring

theorem strictMono_value (format : BinaryFormat) : StrictMono format.value := by
  refine strictMono_nat_of_lt_succ ?_
  intro m
  rw [value_succ]
  exact lt_add_of_pos_right _ (zpow_pos two_pos _)

theorem value_zero (format : BinaryFormat) : format.value 0 = 0 := by
  simp [value, significand, leadingBit_pos]

/-! ## Rounding -/

/-- The nearest magnitude, and of two equally near ones the even one. -/
structure RoundsTo (format : BinaryFormat) (q : ℚ) (m : Nat) : Prop where
  le : m ≤ format.infinity
  nearest : ∀ other ≤ format.infinity, |q - format.value m| ≤ |q - format.value other|
  even : ∀ other ≤ format.infinity, other ≠ m →
    |q - format.value m| = |q - format.value other| → m % 2 = 0

/-- Between two even magnitudes is an odd one, which would be nearer. -/
theorem RoundsTo.unique (first : format.RoundsTo q m) (second : format.RoundsTo q n) : m = n := by
  wlog ordered : m ≤ n
  · exact (this second first (by omega)).symm
  by_contra differ
  have equal := le_antisymm (first.nearest n second.le) (second.nearest m first.le)
  have even := first.even n second.le (Ne.symm differ) equal
  have even' := second.even m first.le differ equal.symm
  have below := format.strictMono_value (a := m) (b := m + 1) (by omega)
  have above := format.strictMono_value (a := m + 1) (b := n) (by omega)
  have nearest := first.nearest (m + 1) (by have := second.le; omega)
  grind [abs_of_nonneg, abs_of_nonpos]

def midpoint (format : BinaryFormat) (m : Nat) : ℚ :=
  (format.value m + format.value (m + 1)) / 2

theorem value_lt_midpoint (format : BinaryFormat) (m : Nat) :
    format.value m < format.midpoint m := by
  have step := format.strictMono_value (Nat.lt_succ_self m)
  rw [midpoint]
  linarith

theorem midpoint_lt_value (format : BinaryFormat) (m : Nat) :
    format.midpoint m < format.value (m + 1) := by
  have step := format.strictMono_value (Nat.lt_succ_self m)
  rw [midpoint]
  linarith

/-- The numbers from the midpoint below a magnitude to the one above. Nothing is below zero, and
infinity has no end. -/
structure Around (format : BinaryFormat) (q : ℚ) (m : Nat) : Prop where
  below : ∀ less, m = less + 1 →
    format.midpoint less < q ∨ m % 2 = 0 ∧ format.midpoint less = q
  above : m < format.infinity → q < format.midpoint m ∨ m % 2 = 0 ∧ q = format.midpoint m

namespace Around

theorem zero (small : q < format.midpoint 0) : format.Around q 0 :=
  ⟨fun _ impossible => absurd impossible (Nat.zero_ne_add_one _), fun _ => .inl small⟩

theorem infinity (large : format.value format.infinity ≤ q) : format.Around q format.infinity := by
  refine ⟨?_, fun impossible => absurd impossible (Nat.lt_irrefl _)⟩
  intro less last
  rw [last] at large
  exact .inl ((format.midpoint_lt_value less).trans_le large)

theorem nearer_than_less (around : format.Around q m) {other : Nat} (less : other < m) :
    |q - format.value m| < |q - format.value other| ∨
      m % 2 = 0 ∧ |q - format.value m| ≤ |q - format.value other| := by
  obtain ⟨last, rfl⟩ := Nat.exists_eq_succ_of_ne_zero (Nat.ne_zero_of_lt less)
  have upTo := format.strictMono_value.monotone (Nat.lt_succ_iff.mp less)
  have step := format.strictMono_value (Nat.lt_succ_self last)
  have below := around.below last rfl
  rw [midpoint] at below
  grind [abs_of_nonneg, abs_of_nonpos]

theorem nearer_than_greater (around : format.Around q m) {other : Nat} (greater : m < other)
    (le : other ≤ format.infinity) :
    |q - format.value m| < |q - format.value other| ∨
      m % 2 = 0 ∧ |q - format.value m| ≤ |q - format.value other| := by
  have upTo := format.strictMono_value.monotone (Nat.succ_le_of_lt greater)
  have step := format.strictMono_value (Nat.lt_succ_self m)
  have above := around.above (by omega)
  rw [midpoint] at above
  grind [abs_of_nonneg, abs_of_nonpos]

theorem roundsTo (around : format.Around q m) (le : m ≤ format.infinity) :
    format.RoundsTo q m := by
  have nearer {other : Nat} (within : other ≤ format.infinity) (differ : other ≠ m) :
      |q - format.value m| < |q - format.value other| ∨
        m % 2 = 0 ∧ |q - format.value m| ≤ |q - format.value other| := by
    rcases differ.lt_or_gt with less | greater
    · exact around.nearer_than_less less
    · exact around.nearer_than_greater greater within
  refine ⟨le, ?_, ?_⟩
  · intro other within
    by_cases same : other = m
    · rw [same]
    · rcases nearer within same with near | ⟨-, near⟩
      · exact near.le
      · exact near
  · intro other within differ equal
    rcases nearer within differ with near | ⟨even, -⟩
    · exact absurd equal near.ne
    · exact even

end Around

end BinaryFormat

end Multipart
