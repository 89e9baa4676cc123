/-! # Octets -/

namespace Multipart

abbrev Bytes := List UInt8

namespace Octet

def isAscii (b : UInt8) : Bool := b < 0x80

/-- Space, tab, line feed, form feed and carriage return. A vertical tab is not blank. -/
def isBlank (b : UInt8) : Bool :=
  b == 0x20 || b == 0x09 || b == 0x0A || b == 0x0C || b == 0x0D

def lower (b : UInt8) : UInt8 := if 0x41 ≤ b && b ≤ 0x5A then b + 0x20 else b

def quote : UInt8 := 0x22
def dot : UInt8 := 0x2E
def slash : UInt8 := 0x2F
def semicolon : UInt8 := 0x3B

end Octet

namespace Bytes

def sameFold (xs ys : Bytes) : Bool := xs.map Octet.lower == ys.map Octet.lower

def dropEndWhile (p : UInt8 → Bool) (bs : Bytes) : Bytes :=
  (bs.reverse.dropWhile p).reverse

def trim (bs : Bytes) : Bytes := dropEndWhile Octet.isBlank (bs.dropWhile Octet.isBlank)

/-- The stretches between occurrences of a separator, one more than there are separators. -/
def sections (separator : UInt8) : Bytes → List Bytes
  | [] => [[]]
  | b :: bs =>
    match sections separator bs with
    | [] => [[b]]
    | first :: rest =>
      if b == separator then [] :: first :: rest else (b :: first) :: rest

@[simp] theorem sections_ne_nil (separator : UInt8) (bs : Bytes) :
    sections separator bs ≠ [] := by
  cases bs with
  | nil => simp [sections]
  | cons b bs =>
    simp only [sections]
    split
    · simp
    · split <;> simp

def join (separator : UInt8) (parts : List Bytes) : Bytes := [separator].intercalate parts

@[simp] theorem join_nil (separator : UInt8) : join separator [] = [] := rfl

@[simp] theorem join_singleton (separator : UInt8) (x : Bytes) : join separator [x] = x := by
  simp [join, List.intercalate]

@[simp] theorem join_cons_cons (separator : UInt8) (x y : Bytes) (rest : List Bytes) :
    join separator (x :: y :: rest) = x ++ separator :: join separator (y :: rest) := by
  simp [join, List.intercalate]

@[simp] theorem join_sections (separator : UInt8) (bs : Bytes) :
    join separator (sections separator bs) = bs := by
  induction bs with
  | nil => rfl
  | cons b bs ih =>
    simp only [sections]
    split
    · next h => simp at h
    · next first rest h =>
      rw [h] at ih
      split
      · next hb => simp [ih, eq_of_beq hb]
      · cases rest with
        | nil => simpa using ih
        | cons y rest => simpa using ih

theorem length_join_append_cons (separator : UInt8) (before after : List Bytes) (x : Bytes) :
    (join separator before).length + x.length ≤
      (join separator (before ++ x :: after)).length := by
  induction before with
  | nil => cases after <;> simp
  | cons y before ih =>
    cases before with
    | nil =>
      simp only [List.nil_append, List.cons_append, join_nil, join_singleton, join_cons_cons,
        List.length_nil, List.length_append, List.length_cons] at ih ⊢
      omega
    | cons z before =>
      simp only [List.cons_append, join_cons_cons, List.length_append, List.length_cons] at ih ⊢
      omega

theorem length_join_le_append (separator : UInt8) (before after : List Bytes) :
    (join separator before).length ≤ (join separator (before ++ after)).length := by
  cases after with
  | nil => simp
  | cons x after => exact Nat.le_of_add_right_le (length_join_append_cons separator before after x)

end Bytes

namespace Hex

def digit (n : Nat) : Char := Nat.digitChar n

def encode (bs : Bytes) : List Char :=
  bs.flatMap fun b => [digit (b.toNat / 16), digit (b.toNat % 16)]

def upperPair (n : Nat) : List Char := [(digit (n / 16)).toUpper, (digit (n % 16)).toUpper]

def digitValue? (c : Char) : Option Nat :=
  if c.isDigit then some (c.toNat - '0'.toNat)
  else if 'a' ≤ c ∧ c ≤ 'f' then some (c.toNat - 'a'.toNat + 10)
  else if 'A' ≤ c ∧ c ≤ 'F' then some (c.toNat - 'A'.toNat + 10)
  else none

end Hex

end Multipart
