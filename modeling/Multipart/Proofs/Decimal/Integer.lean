import Mathlib.Data.List.TakeDrop
import Multipart.Decimal.Basic

/-!
# Integers in decimal

An integer is written so that it reads back, and no shorter text reads as the same integer.
-/

namespace Multipart

theorem span_append {α : Type} {p : α → Bool} {xs ys : List α} (all : ∀ x ∈ xs, p x = true)
    (stop : ∀ y ∈ ys.head?, p y = false) : (xs ++ ys).span p = (xs, ys) := by
  have rest : ys.takeWhile p = [] ∧ ys.dropWhile p = ys := by
    cases ys with
    | nil => exact ⟨rfl, rfl⟩
    | cons y ys => simp [stop y rfl]
  rw [List.span_eq_takeWhile_dropWhile, List.takeWhile_append_of_pos all,
    List.dropWhile_append_of_pos all, rest.1, rest.2, List.append_nil]

namespace Decimal

/-- A text of an integer without anything in it that could be left out. -/
structure Writes (n : Int) (cs : List Char) : Prop where
  reads : readInt? cs = some n
  shortest : ∀ other, readInt? other = some n → cs.length ≤ other.length

theorem isDigit_of_mem_digits {n : Nat} {c : Char} (member : c ∈ digits n) : c.isDigit = true :=
  Nat.isDigit_of_mem_toDigits (by decide) (by decide) member

theorem length_digits_pos (n : Nat) : 0 < (digits n).length :=
  List.length_pos_iff.mpr Nat.toDigits_ne_nil

theorem length_digits_ofDigits_le {cs : List Char} (nonempty : cs ≠ [])
    (numeric : ∀ c ∈ cs, c.isDigit = true) : (digits (ofDigits cs)).length ≤ cs.length := by
  have bounded (start : Nat) : Nat.ofDigitChars 10 cs start < (start + 1) * 10 ^ cs.length := by
    clear nonempty
    induction cs generalizing start with
    | nil => simp [Nat.ofDigitChars]
    | cons c cs ih =>
      obtain ⟨first, rest⟩ := List.forall_mem_cons.mp numeric
      have value : c.toNat - '0'.toNat ≤ 9 := by
        have last : c.toNat ≤ '9'.toNat := by
          simp only [Char.isDigit, Bool.and_eq_true, decide_eq_true_eq] at first
          exact UInt32.le_iff_toNat_le.mp first.2
        exact Nat.sub_le_sub_right last _
      rw [Nat.ofDigitChars_cons, List.length_cons, Nat.pow_succ']
      calc _ < (10 * start + (c.toNat - '0'.toNat) + 1) * 10 ^ cs.length := ih rest _
        _ ≤ (start + 1) * 10 * 10 ^ cs.length := Nat.mul_le_mul_right _ (by omega)
        _ = (start + 1) * (10 * 10 ^ cs.length) := Nat.mul_assoc _ _ _
  rw [digits, Nat.length_toDigits_le_iff (by decide) (List.length_pos_iff.mpr nonempty)]
  have whole := bounded 0
  rw [Nat.zero_add, Nat.one_mul] at whole
  exact whole

theorem head?_digits {n : Nat} (several : 1 < (digits n).length) : (digits n).head? ≠ some '0' := by
  intro zero
  obtain ⟨rest, written⟩ := List.head?_eq_some_iff.mp zero
  rw [written, List.length_cons] at several
  have value := ofDigits_digits n
  rw [written] at value
  have same : ofDigits rest = n := value
  have fits : (digits n).length ≤ rest.length := by
    rw [← same]
    refine length_digits_ofDigits_le (List.ne_nil_of_length_pos (by omega)) ?_
    intro c member
    exact isDigit_of_mem_digits (n := n) (written ▸ List.mem_cons_of_mem _ member)
  rw [written, List.length_cons] at fits
  omega

theorem readInt?_eq_some_iff {cs : List Char} {n : Int} :
    readInt? cs = some n ↔
      (takeSign cs).2 ≠ [] ∧ (∀ c ∈ (takeSign cs).2, c.isDigit = true) ∧
        (if (takeSign cs).1 then -(ofDigits (takeSign cs).2 : Int)
          else ofDigits (takeSign cs).2) = n := by
  simp only [readInt?, Option.ite_none_left_eq_some, Option.some_inj, Bool.or_eq_true,
    List.isEmpty_iff, Bool.not_eq_true', not_or, Bool.not_eq_false, List.all_eq_true, and_assoc,
    ne_eq]

theorem takeSign_digits (n : Nat) : takeSign (digits n) = (false, digits n) := by
  have numeric : ∀ c ∈ digits n, c.isDigit = true := fun _ => isDigit_of_mem_digits
  unfold takeSign
  split
  case h_1 written =>
    rw [written] at numeric
    cases numeric '-' List.mem_cons_self
  case h_2 written =>
    rw [written] at numeric
    cases numeric '+' List.mem_cons_self
  case h_3 => rfl

theorem length_takeSign (cs : List Char) :
    (takeSign cs).2.length + (takeSign cs).1.toNat ≤ cs.length := by
  unfold takeSign
  split <;> simp

theorem readInt?_ofInt (n : Int) : readInt? (ofInt n) = some n := by
  rw [readInt?_eq_some_iff]
  cases n with
  | ofNat n =>
    rw [ofInt, takeSign_digits, if_neg Bool.false_ne_true, ofDigits_digits]
    exact ⟨Nat.toDigits_ne_nil, fun _ => isDigit_of_mem_digits, rfl⟩
  | negSucc n =>
    rw [ofInt, takeSign, if_pos rfl, ofDigits_digits]
    exact ⟨Nat.toDigits_ne_nil, fun _ => isDigit_of_mem_digits, rfl⟩

/-- An integer is written in the only way that leaves nothing out. -/
theorem writes_ofInt (n : Int) : Writes n (ofInt n) := by
  refine ⟨readInt?_ofInt n, ?_⟩
  intro other read
  obtain ⟨nonempty, numeric, value⟩ := readInt?_eq_some_iff.mp read
  have signed := length_takeSign other
  have enough := length_digits_ofDigits_le nonempty numeric
  generalize ofDigits (takeSign other).2 = units at value enough
  cases negative : (takeSign other).1 with
  | false =>
    rw [negative, if_neg Bool.false_ne_true] at value
    subst value
    show (digits units).length ≤ other.length
    omega
  | true =>
    rw [negative, if_pos rfl] at value
    rw [negative, Bool.toNat_true] at signed
    subst value
    cases units with
    | zero =>
      show (digits 0).length ≤ other.length
      omega
    | succ units =>
      show (digits (units + 1)).length + 1 ≤ other.length
      omega

end Decimal

end Multipart
