import Mathlib.Algebra.Ring.Nat
import Mathlib.Data.List.Forall2
import Multipart.Size

/-!
# What is told of a size

A sum of sizes that has 64 bits is exact. One that needs more is not told by a build that checks it,
and is told modulo 2 ^ 64 by one that does not.
-/

namespace Multipart

theorem le_largestBuffer_iff {n : Nat} : n ≤ largestBuffer ↔ n < 2 ^ 63 := by
  simp only [largestBuffer, UInt64.size]
  omega

theorem largestBuffer_lt_iff {n : Nat} : largestBuffer < n ↔ 2 ^ 63 ≤ n := by
  rw [← Nat.not_le, le_largestBuffer_iff, Nat.not_lt]

namespace Build

/-- The number that stands for a size. -/
def Counts (build : Build) (size n : Nat) : Prop :=
  n = size ∨ build = .unchecked ∧ 2 ^ 64 ≤ size ∧ n = size % 2 ^ 64

/-- What is told of a total. -/
inductive Sums (build : Build) (total : Nat) : Except Panic Nat → Prop
  | counts {n} : build.Counts total n → Sums build total (.ok n)
  | overflow : build = .checked → 2 ^ 64 ≤ total → Sums build total (.error .sumOverflow)

/-- What is told of a size that may be unknown. A sum may need too many bits before it gets to what
is unknown. -/
inductive Tells (build : Build) (unknown : Prop) (size : Nat) : Except Panic (Option Nat) → Prop
  | unknown : unknown → Tells build unknown size (.ok none)
  | known {n} : ¬unknown → build.Counts size n → Tells build unknown size (.ok (some n))
  | overflow : build = .checked → 2 ^ 64 ≤ size → Tells build unknown size (.error .sumOverflow)

variable {build : Build}

theorem Counts.refl (build : Build) (size : Nat) : build.Counts size size := .inl rfl

theorem Counts.eq_of_checked {size n : Nat} (counts : Counts .checked size n) : n = size := by
  rcases counts with same | ⟨unchecked, -⟩
  · exact same
  · cases unchecked

theorem Counts.add {a b x y : Nat} (first : build.Counts a x) (second : build.Counts b y) :
    build.Sums (a + b) (build.add x y) := by
  simp only [Build.add, UInt64.size]
  cases build with
  | checked =>
    rw [first.eq_of_checked, second.eq_of_checked]
    split
    · exact .counts (.refl _ _)
    · exact .overflow rfl (by omega)
  | unchecked =>
    -- Both numbers are the sizes modulo 2 ^ 64, and so is their sum.
    simp only [Counts, true_and] at first second
    split
    · exact .counts (by simp only [Counts, true_and]; omega)
    · exact .counts (by simp only [Counts, true_and]; omega)

theorem Sums.tells {unknown : Prop} {size : Nat} {sum : Except Panic Nat}
    (sums : build.Sums size sum) (known : ¬unknown) : build.Tells unknown size (some <$> sum) := by
  cases sums with
  | counts counts => exact .known known counts
  | overflow checked large => exact .overflow checked large

theorem Tells.add {unknown : Prop} {size : Nat} {told : Except Panic (Option Nat)}
    (tells : build.Tells unknown size told) (more : Nat) :
    build.Tells unknown (size + more) (told >>= (·.mapM (build.add · more))) := by
  cases tells with
  | unknown unknown => exact .unknown unknown
  | known known counts => exact (counts.add (.refl build more)).tells known
  | overflow checked large => exact .overflow checked (Nat.le_add_right_of_le large)

theorem Counts.addAll {total n : Nat} {sizes told : List Nat} (counts : build.Counts total n)
    (each : List.Forall₂ build.Counts sizes told) :
    build.Sums (total + sizes.sum) (build.addAll n told) := by
  induction each generalizing total n with
  | nil => exact .counts counts
  | @cons size x sizes told here _ ih =>
    rw [List.sum_cons, ← Nat.add_assoc]
    have sums := counts.add here
    have unfolded : build.addAll n (x :: told) = build.add n x >>= (build.addAll · told) := rfl
    rw [unfolded]
    generalize build.add n x = sum at sums ⊢
    cases sums with
    | counts counts => exact ih counts
    | overflow checked large => exact .overflow checked (by omega)

end Build

end Multipart
