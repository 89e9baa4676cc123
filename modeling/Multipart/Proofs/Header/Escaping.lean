import Multipart.Header.Parameter
import Multipart.Proofs.Text.Utf8

/-!
# Reading a parameter back

A percent sign is not escaped, so a value that has a code in it is written like one that has the
character of this code. Nothing else is lost: a reader that decodes what stands between the quotes
gets the value with its own codes decoded, and two values are written alike if and only if that makes
them equal.
-/

namespace Multipart

namespace Parameter

/-! ## Codes -/

/-- The value of a digit that is not a lower-case one. -/
def upperDigit? (c : Char) : Option Nat := if c.isLower then none else Hex.digitValue? c

/-- The character for which these two digits stand after a percent sign: a double quote, or a
control character other than ESC. -/
def code? (high low : Char) : Option Char :=
  match upperDigit? high, upperDigit? low with
  | some h, some l =>
    let n := 16 * h + l
    if n = 0x22 ∨ n < 0x20 ∧ n ≠ 0x1B then some (Char.ofNat n) else none
  | _, _ => none

/-- The character of a code whose percent sign is just before this text. -/
def codeAt? : List Char → Option Char
  | high :: low :: _ => code? high low
  | _ => none

/-- Every code replaced by its character. -/
def readCodes : List Char → List Char
  | '%' :: high :: low :: rest =>
    match code? high low with
    | some c => c :: readCodes rest
    | none => '%' :: readCodes (high :: low :: rest)
  | c :: rest => c :: readCodes rest
  | [] => []

/-- What a receiver reads between the quotes, from left to right: codes, and pairs of backslashes. -/
def unescape : List Char → List Char
  | '\\' :: '\\' :: rest => '\\' :: unescape rest
  | '%' :: high :: low :: rest =>
    match code? high low with
    | some c => c :: unescape rest
    | none => '%' :: unescape (high :: low :: rest)
  | c :: rest => c :: unescape rest
  | [] => []

/-- There is a code in this text. -/
def HoldsCode (cs : List Char) : Prop :=
  ∃ high low, (code? high low).isSome ∧ ['%', high, low] <:+: cs

theorem toNat_lt_of_upperDigit? {c : Char} {n : Nat} (h : upperDigit? c = some n) :
    c.toNat < 0x80 := by
  have atMost (d : Char) (le : c ≤ d) (ascii : d.toNat < 0x80) : c.toNat < 0x80 :=
    Nat.lt_of_le_of_lt (Char.le_def.mp le) ascii
  unfold upperDigit? Hex.digitValue? at h
  split at h
  · cases h
  · split at h
    · next digit =>
      simp only [Char.isDigit, Bool.and_eq_true, decide_eq_true_eq] at digit
      exact atMost '9' digit.2 (by decide)
    · split at h
      · next lower => exact atMost 'f' lower.2 (by decide)
      · split at h
        · next upper => exact atMost 'F' upper.2 (by decide)
        · cases h

theorem upperDigit?_eq_some {c : Char} {n : Nat} (h : upperDigit? c = some n) :
    n < 16 ∧ (Hex.digit n).toUpper = c := by
  have table : ∀ k < 0x80, ∀ n ∈ upperDigit? (Char.ofNat k),
      n < 16 ∧ (Hex.digit n).toUpper = Char.ofNat k := by decide
  have found := table c.toNat (toNat_lt_of_upperDigit? h) n
  rw [Char.ofNat_toNat] at found
  exact found h

theorem code?_of_upperPair {n : Nat} (control : n < 0x20) (plain : n ≠ 0x1B) :
    ∃ high low, Hex.upperPair n = [high, low] ∧ code? high low = some (Char.ofNat n) := by
  refine ⟨_, _, rfl, ?_⟩
  revert n
  decide

/-- What becomes of a character: a code of it, two backslashes, or the character itself. -/
theorem escapeChar_cases (c : Char) :
    (∃ high low, escapeChar c = ['%', high, low] ∧ code? high low = some c) ∨
    (c = '\\' ∧ escapeChar c = ['\\', '\\']) ∨
    (c ≠ '"' ∧ c ≠ '\\' ∧ (c.toNat < 0x20 → c.toNat = 0x1B) ∧ escapeChar c = [c]) := by
  by_cases quote : c = '"'
  · refine .inl ⟨'2', '2', ?_, ?_⟩
    · rw [escapeChar, if_pos quote]
    · rw [quote]
      decide
  by_cases backslash : c = '\\'
  · refine .inr (.inl ⟨backslash, ?_⟩)
    rw [escapeChar, if_neg quote, if_pos backslash]
  by_cases control : c.toNat < 0x20 ∧ c.toNat ≠ 0x1B
  · obtain ⟨high, low, digits, code⟩ := code?_of_upperPair control.1 control.2
    rw [Char.ofNat_toNat] at code
    refine .inl ⟨high, low, ?_, code⟩
    rw [escapeChar, if_neg quote, if_neg backslash, if_pos control, digits]
  · refine .inr (.inr ⟨quote, backslash, ?_, ?_⟩)
    · intro small
      omega
    · rw [escapeChar, if_neg quote, if_neg backslash, if_neg control]

theorem escapeChar_of_digit {c : Char} {n : Nat} (digit : upperDigit? c = some n) :
    escapeChar c = [c] := by
  have table : ∀ n < 16, escapeChar (Hex.digit n).toUpper = [(Hex.digit n).toUpper] := by decide
  obtain ⟨small, rfl⟩ := upperDigit?_eq_some digit
  exact table n small

theorem exists_escapeChar_eq_cons (c : Char) :
    ∃ first rest, escapeChar c = first :: rest ∧ upperDigit? first = upperDigit? c := by
  have percent : upperDigit? '%' = none := by decide
  rcases escapeChar_cases c with ⟨high, low, escaped, -⟩ | ⟨rfl, escaped⟩ | ⟨-, -, -, escaped⟩
  · refine ⟨_, _, escaped, ?_⟩
    cases digit : upperDigit? c with
    | none => exact percent
    | some n =>
      rw [escapeChar_of_digit digit] at escaped
      cases escaped
  · exact ⟨_, _, escaped, rfl⟩
  · exact ⟨_, _, escaped, rfl⟩

theorem exists_digits_of_code? {high low c : Char} (code : code? high low = some c) :
    ∃ h l, upperDigit? high = some h ∧ upperDigit? low = some l ∧ c = Char.ofNat (16 * h + l) ∧
      (16 * h + l = 0x22 ∨ 16 * h + l < 0x20 ∧ 16 * h + l ≠ 0x1B) := by
  unfold code? at code
  split at code
  · next h l first second =>
    simp only at code
    split at code
    · next allowed =>
      cases code
      exact ⟨h, l, first, second, rfl, allowed⟩
    · cases code
  · cases code

theorem ne_quote_of_mem_escape {cs : List Char} {d : Char} (member : d ∈ escape cs) :
    d ≠ '"' ∧ (d.toNat < 0x20 → d.toNat = 0x1B) := by
  have digits : ∀ n < 16, (Hex.digit n).toUpper ≠ '"' ∧ 0x20 ≤ (Hex.digit n).toUpper.toNat := by
    decide
  have visible {e : Char} (h : e ≠ '"' ∧ 0x20 ≤ e.toNat) :
      e ≠ '"' ∧ (e.toNat < 0x20 → e.toNat = 0x1B) :=
    ⟨h.1, fun small => absurd h.2 (Nat.not_le_of_lt small)⟩
  obtain ⟨c, -, member⟩ := List.mem_flatMap.mp member
  rcases escapeChar_cases c with ⟨high, low, escaped, code⟩ | ⟨-, escaped⟩ |
    ⟨quote, -, control, escaped⟩
  · obtain ⟨h, l, first, second, -⟩ := exists_digits_of_code? code
    obtain ⟨small, rfl⟩ := upperDigit?_eq_some first
    obtain ⟨small', rfl⟩ := upperDigit?_eq_some second
    simp only [escaped, List.mem_cons, List.not_mem_nil, or_false] at member
    rcases member with rfl | rfl | rfl
    · exact visible (by decide)
    · exact visible (digits h small)
    · exact visible (digits l small')
  · simp only [escaped, List.mem_cons, List.not_mem_nil, or_false, or_self] at member
    subst member
    exact visible (by decide)
  · rw [escaped, List.mem_singleton] at member
    subst member
    exact ⟨quote, control⟩

theorem escapeChar_of_code? {high low c : Char} (code : code? high low = some c) :
    escapeChar c = ['%', high, low] := by
  have table : ∀ h < 16, ∀ l < 16,
      (16 * h + l = 0x22 ∨ 16 * h + l < 0x20 ∧ 16 * h + l ≠ 0x1B) →
        escapeChar (Char.ofNat (16 * h + l)) =
          ['%', (Hex.digit h).toUpper, (Hex.digit l).toUpper] := by decide
  obtain ⟨h, l, first, second, rfl, allowed⟩ := exists_digits_of_code? code
  obtain ⟨small, rfl⟩ := upperDigit?_eq_some first
  obtain ⟨small', rfl⟩ := upperDigit?_eq_some second
  exact table h small l small' allowed

theorem escape_of_code? {high low c : Char} (code : code? high low = some c) (cs : List Char) :
    escape ('%' :: high :: low :: cs) = '%' :: high :: low :: escape cs := by
  have percent : escapeChar '%' = ['%'] := by decide
  obtain ⟨h, l, first, second, -⟩ := exists_digits_of_code? code
  rw [escape_cons, escape_cons, escape_cons, percent, escapeChar_of_digit first,
    escapeChar_of_digit second]
  rfl

/-- No code comes about where two escaped characters meet. -/
theorem codeAt?_escape (cs : List Char) : codeAt? (escape cs) = codeAt? cs := by
  -- Only the values of the two digits count.
  have congruent {a b c d : Char} (first : upperDigit? a = upperDigit? c)
      (second : upperDigit? b = upperDigit? d) : code? a b = code? c d := by
    simp only [code?, first, second]
  have undigit {high : Char} (h : upperDigit? high = none) (ds : List Char) :
      codeAt? (high :: ds) = none := by
    cases ds with
    | nil => rfl
    | cons low => simp only [codeAt?, code?, h]
  cases cs with
  | nil => rfl
  | cons high cs =>
    cases digit : upperDigit? high with
    | none =>
      obtain ⟨first, rest, escaped, same⟩ := exists_escapeChar_eq_cons high
      rw [escape_cons, escaped, List.cons_append, undigit (same.trans digit), undigit digit]
    | some h =>
      rw [escape_cons, escapeChar_of_digit digit, List.singleton_append]
      cases cs with
      | nil => rfl
      | cons low cs =>
        obtain ⟨first, rest, escaped, same⟩ := exists_escapeChar_eq_cons low
        rw [escape_cons, escaped]
        exact congruent rfl same

/-! ## Reading -/

/-- A text begins with a code or with a character that stands for itself. -/
@[elab_as_elim]
theorem codes_induction {motive : List Char → Prop} (nil : motive [])
    (code : ∀ high low c rest, code? high low = some c → motive rest →
      motive ('%' :: high :: low :: rest))
    (plain : ∀ c rest, (c = '%' → codeAt? rest = none) → motive rest → motive (c :: rest))
    (cs : List Char) : motive cs := by
  induction cs using readCodes.induct with
  | case1 high low rest c read ih => exact code high low c rest read ih
  | case2 high low rest unread ih => exact plain '%' _ (fun _ => unread) ih
  | case3 c rest short ih =>
    refine plain c rest ?_ ih
    intro percent
    match rest with
    | [] | [_] => rfl
    | high :: low :: more => exact (short high low more percent rfl).elim
  | case4 => exact nil

theorem readCodes_code {high low c : Char} (code : code? high low = some c) (cs : List Char) :
    readCodes ('%' :: high :: low :: cs) = c :: readCodes cs := by
  simp only [readCodes, code]

theorem readCodes_plain {c : Char} {cs : List Char} (plain : c = '%' → codeAt? cs = none) :
    readCodes (c :: cs) = c :: readCodes cs := by
  by_cases percent : c = '%'
  · subst percent
    match cs with
    | [] | [_] => rfl
    | high :: low :: rest =>
      have unread : code? high low = none := plain rfl
      simp only [readCodes, unread]
  · rw [readCodes]
    intro _ _ _ equal
    exact absurd equal percent

theorem unescape_code {high low c : Char} (code : code? high low = some c) (cs : List Char) :
    unescape ('%' :: high :: low :: cs) = c :: unescape cs := by
  simp only [unescape, code]

theorem unescape_plain {c : Char} {cs : List Char} (unpaired : c ≠ '\\')
    (plain : c = '%' → codeAt? cs = none) : unescape (c :: cs) = c :: unescape cs := by
  by_cases percent : c = '%'
  · subst percent
    match cs with
    | [] | [_] => rfl
    | high :: low :: rest =>
      have unread : code? high low = none := plain rfl
      simp only [unescape, unread]
  · rw [unescape]
    · intro _ equal
      exact absurd equal unpaired
    · intro _ _ _ equal
      exact absurd equal percent

theorem unescape_escapeChar_append (c : Char) {cs : List Char}
    (plain : c = '%' → codeAt? cs = none) :
    unescape (escapeChar c ++ cs) = c :: unescape cs := by
  rcases escapeChar_cases c with ⟨high, low, escaped, code⟩ | ⟨rfl, escaped⟩ |
    ⟨-, unpaired, -, escaped⟩
  · rw [escaped]
    exact unescape_code code cs
  · rw [escaped]
    rfl
  · rw [escaped]
    exact unescape_plain unpaired plain

/-- Only the codes that the value itself holds are lost. -/
theorem unescape_escape (cs : List Char) : unescape (escape cs) = readCodes cs := by
  induction cs using codes_induction with
  | nil => rfl
  | code high low c rest code ih =>
    rw [escape_of_code? code, unescape_code code, readCodes_code code, ih]
  | plain c rest plain ih =>
    rw [escape_cons, unescape_escapeChar_append c (by rwa [codeAt?_escape]), readCodes_plain plain,
      ih]

/-- A backslash and a quote come back. A code that was in the value does not. -/
example : unescape (escape "\\\"%22".toList) = "\\\"\"".toList := by decide

theorem escape_readCodes (cs : List Char) : escape (readCodes cs) = escape cs := by
  induction cs using codes_induction with
  | nil => rfl
  | code high low c rest code ih =>
    rw [readCodes_code code, escape_cons, escapeChar_of_code? code, escape_of_code? code, ih]
    rfl
  | plain c rest plain ih => rw [readCodes_plain plain, escape_cons, escape_cons, ih]

theorem length_readCodes_le (cs : List Char) : (readCodes cs).length ≤ cs.length := by
  induction cs using codes_induction with
  | nil => exact Nat.le_refl _
  | code high low c rest code ih =>
    rw [readCodes_code code]
    simp only [List.length_cons]
    omega
  | plain c rest plain ih =>
    rw [readCodes_plain plain]
    exact Nat.succ_le_succ ih

theorem holdsCode_cons_iff {c : Char} {cs : List Char} :
    HoldsCode (c :: cs) ↔ (c = '%' ∧ (codeAt? cs).isSome) ∨ HoldsCode cs := by
  constructor
  · rintro ⟨high, low, code, inside⟩
    rcases List.infix_cons_iff.mp inside with ⟨rest, first⟩ | inside
    · cases first
      exact .inl ⟨rfl, code⟩
    · exact .inr ⟨high, low, code, inside⟩
  · rintro (⟨rfl, found⟩ | ⟨high, low, code, inside⟩)
    · match cs, found with
      | high :: low :: rest, found => exact ⟨high, low, found, [], rest, rfl⟩
    · exact ⟨high, low, code, List.infix_cons inside⟩

theorem readCodes_eq_self_iff {cs : List Char} : readCodes cs = cs ↔ ¬ HoldsCode cs := by
  induction cs using codes_induction with
  | nil => simp [readCodes, HoldsCode]
  | code high low c rest code ih =>
    refine iff_of_false ?_ (not_not_intro (holdsCode_cons_iff.mpr (.inl ⟨rfl, ?_⟩)))
    · intro same
      have shorter := length_readCodes_le rest
      have lengths := congrArg List.length same
      rw [readCodes_code code] at lengths
      simp only [List.length_cons] at lengths
      omega
    · simp [codeAt?, code]
  | plain c rest plain ih =>
    have absent : ¬ (c = '%' ∧ (codeAt? rest).isSome) := by
      rintro ⟨percent, found⟩
      simp [plain percent] at found
    rw [readCodes_plain plain, holdsCode_cons_iff, List.cons_inj_right, ih]
    simp only [absent, false_or]

/-- A receiver gets the value with its codes read. -/
theorem exists_unescape_eq_readCodes (name value : String) :
    ∃ inner : List Char,
      (∀ others, format name value =
          Utf8.encodeChars (name.toList ++ ['=', '"'] ++ others ++ ['"']) ↔ others = inner) ∧
      unescape inner = readCodes value.toList ∧
      (unescape inner = value.toList ↔ ¬ HoldsCode value.toList) ∧
      ∀ other : String, format name other = format name value ↔
        readCodes other.toList = readCodes value.toList := by
  have between {inner others : List Char} :
      Utf8.encodeChars (name.toList ++ ['=', '"'] ++ inner ++ ['"']) =
        Utf8.encodeChars (name.toList ++ ['=', '"'] ++ others ++ ['"']) ↔ others = inner := by
    rw [Utf8.encodeChars_injective.eq_iff, List.append_left_inj, List.append_right_inj]
    exact eq_comm
  refine ⟨escape value.toList, fun _ => between, unescape_escape _, ?_, ?_⟩
  · rw [unescape_escape, readCodes_eq_self_iff]
  · intro other
    refine between.trans ⟨?_, ?_⟩
    · intro same
      rw [← unescape_escape, ← unescape_escape, same]
    · intro same
      rw [← escape_readCodes, ← escape_readCodes other.toList, same]

end Parameter

end Multipart
