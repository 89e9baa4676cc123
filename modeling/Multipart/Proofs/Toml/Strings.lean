import Multipart.Toml.Text
import Multipart.Toml.Writer

/-!
# Written strings are read back

In each of its four styles a written string is read as what it holds, whatever that is. The styles
without escapes are only used for characters that stand for themselves, and over several lines three
quotes in a row are only found at the end.
-/

namespace Multipart

namespace Toml

open Writer

variable {c : Char} {cs rest : List Char}

/-! ## Characters -/

theorem codePoint?_upperPair {n : Nat} (small : n < 0x80) (rest : List Char) :
    codePoint? 4 ('0' :: '0' :: (Hex.upperPair n ++ rest)) = some (Char.ofNat n, rest) := by
  have value : ∀ d < 16, Hex.digitValue? (Hex.digit d).toUpper = some d := by decide
  have zero : Hex.digitValue? '0' = some 0 := rfl
  have high := value (n / 16) (by omega)
  have low := value (n % 16) (by omega)
  have code : n / 16 * 16 + n % 16 = n := Nat.div_add_mod' n 16
  have valid : n.isValidChar := .inl (by omega)
  simp [codePoint?, Hex.upperPair, List.mapM_cons, zero, high, low, code, valid]

theorem isCommentChar_of_not_isControl (printed : isControl c = false) (other : c ≠ '\n') :
    isCommentChar c = true := by
  have space : (' ' ≤ c) ↔ 0x20 ≤ c.toNat := UInt32.le_iff_toNat_le
  simp only [isControl, Bool.or_eq_false_iff, Bool.and_eq_false_iff, decide_eq_false_iff_not,
    bne_eq_false_iff_eq, other, or_false, beq_eq_false_iff_ne] at printed
  obtain ⟨low, delete⟩ := printed
  rcases low with above | rfl
  · simp [isCommentChar, space, Nat.le_of_not_lt above, delete]
  · rfl

/-- A character is written as itself or as an escape, which does not join lines. -/
theorem escapeChar_cases (other : c ≠ '"') :
    (escapeChar c = [c] ∧ isBasicChar c = true ∧ c ≠ '\n' ∧ c ≠ '\r') ∨
      ∃ d body, escapeChar c = '\\' :: d :: body ∧
        (∀ rest, lineJoin? (d :: (body ++ rest)) = none) ∧
        ∀ rest, escape? (d :: (body ++ rest)) = some (c, rest) := by
  unfold escapeChar
  split
  · next same => subst same; exact .inr ⟨'b', [], rfl, fun _ => rfl, fun _ => rfl⟩
  split
  · next same => subst same; exact .inr ⟨'t', [], rfl, fun _ => rfl, fun _ => rfl⟩
  split
  · next same => subst same; exact .inr ⟨'n', [], rfl, fun _ => rfl, fun _ => rfl⟩
  split
  · next same => subst same; exact .inr ⟨'f', [], rfl, fun _ => rfl, fun _ => rfl⟩
  split
  · next same => subst same; exact .inr ⟨'r', [], rfl, fun _ => rfl, fun _ => rfl⟩
  split
  · next same => subst same; exact .inr ⟨'\\', [], rfl, fun _ => rfl, fun _ => rfl⟩
  split
  · next control =>
    refine .inr ⟨'u', '0' :: '0' :: Hex.upperPair c.toNat, rfl, fun _ => rfl, ?_⟩
    intro rest
    have small : c.toNat < 0x80 := by
      rw [Bool.or_eq_true, decide_eq_true_eq, decide_eq_true_eq] at control
      rcases control with low | rfl
      · omega
      · decide
    have read := codePoint?_upperPair small rest
    rw [Char.ofNat_toNat] at read
    exact read
  · next tab line _ carriage backslash plain =>
    simp only [Bool.or_eq_true, decide_eq_true_eq, not_or] at plain
    refine .inl ⟨rfl, ?_, line, carriage⟩
    have comment : isCommentChar c = true :=
      isCommentChar_of_not_isControl (by simp [isControl, plain]) line
    simp [isBasicChar, comment, other, backslash]

/-! ## Strings on one line -/

theorem basic_escape (read : escape? cs = some (c, rest)) :
    basic ('\\' :: cs) = push c (basic rest) := by
  rw [basic]
  split <;> simp_all

theorem basic_plain (plain : isBasicChar c = true) : basic (c :: cs) = push c (basic cs) := by
  have quote : c ≠ '"' := by rintro rfl; cases plain
  have backslash : c ≠ '\\' := by rintro rfl; cases plain
  rw [basic, if_pos plain]
  · exact quote
  · exact backslash

theorem basic_basicChar (c : Char) (rest : List Char) :
    basic (basicChar c ++ rest) = push c (basic rest) := by
  unfold basicChar
  split
  · next same =>
    subst same
    exact basic_escape rfl
  · next other =>
    rcases escapeChar_cases other with ⟨itself, plain, -⟩ | ⟨d, body, escaped, -, read⟩
    · rw [itself]
      exact basic_plain plain
    · rw [escaped]
      exact basic_escape (read rest)

theorem exists_basicChar (c : Char) : ∃ d ds, basicChar c = d :: ds ∧ d ≠ '"' := by
  unfold basicChar
  split
  · exact ⟨_, _, rfl, by decide⟩
  · next other =>
    rcases escapeChar_cases other with ⟨itself, -⟩ | ⟨d, body, escaped, -⟩
    · exact ⟨_, _, itself, other⟩
    · exact ⟨_, _, escaped, by decide⟩

theorem basic_flatMap (cs rest : List Char) :
    basic (cs.flatMap basicChar ++ '"' :: rest) = some (cs, rest) := by
  induction cs with
  | nil =>
    rw [List.flatMap_nil, List.nil_append, basic]
  | cons c cs ih =>
    rw [List.flatMap_cons, List.append_assoc, basic_basicChar, ih]
    rfl

theorem literal_append (plain : ∀ c ∈ cs, isLiteralChar c = true) (rest : List Char) :
    literal (cs ++ '\'' :: rest) = some (cs, rest) := by
  induction cs with
  | nil => rfl
  | cons c cs ih =>
    obtain ⟨first, others⟩ := List.forall_mem_cons.mp plain
    have quote : c ≠ '\'' := by rintro rfl; cases first
    rw [List.cons_append, literal, if_neg quote, if_pos first, ih others]
    rfl

/-! ## Strings over several lines -/

theorem closing_replicate {quote : Char} {n : Nat} (few : n ≤ 2)
    (stop : ∀ c ∈ rest.head?, c ≠ quote) :
    closing quote (List.replicate n quote ++ rest) = (List.replicate n quote, rest) := by
  have other {d : Char} {ds : List Char} (first : rest = d :: ds) : d ≠ quote :=
    stop d (by rw [first]; rfl)
  match n, rest with
  | 0, [] => rfl
  | 0, [d] => simp [closing, other rfl]
  | 0, d :: e :: ds => simp [closing, other rfl]
  | 1, [] => simp [closing]
  | 1, d :: ds => simp [closing, other rfl]
  | 2, ds => simp [closing, List.replicate]

/-- Quotes that are no three in a row belong to the content. -/
theorem read_replicate {reader : List Char → Option (List Char × List Char)} {quote : Char}
    (single : ∀ cs, (∀ d ∈ cs.head?, d ≠ quote ∨ ∀ e ∈ cs.tail.head?, e ≠ quote) →
      reader (quote :: cs) = push quote (reader cs))
    {n : Nat} {content : List Char} (few : n ≤ 2) (stop : ∀ d ∈ cs.head?, d ≠ quote)
    (read : reader cs = some (content, rest)) :
    reader (List.replicate n quote ++ cs) = some (List.replicate n quote ++ content, rest) := by
  have last := single cs fun d member => .inl (stop d member)
  match n with
  | 0 => exact read
  | 1 =>
    refine last.trans ?_
    rw [read]
    rfl
  | 2 =>
    refine (single (quote :: cs) fun _ _ => .inr stop).trans ?_
    rw [last, read]
    rfl

theorem basicLines_quote (cs : List Char)
    (stop : ∀ d ∈ cs.head?, d ≠ '"' ∨ ∀ e ∈ cs.tail.head?, e ≠ '"') :
    basicLines ('"' :: cs) = push '"' (basicLines cs) := by
  rw [basicLines]
  rintro rest ⟨⟩
  rcases stop '"' rfl with first | second
  · exact first rfl
  · exact second '"' rfl rfl

theorem basicLines_escape (join : lineJoin? cs = none) (read : escape? cs = some (c, rest)) :
    basicLines ('\\' :: cs) = push c (basicLines rest) := by
  rw [basicLines]
  split
  · simp_all
  · split <;> simp_all

theorem basicLines_plain (plain : c = '\n' ∨ isBasicChar c = true ∧ c ≠ '\r') :
    basicLines (c :: cs) = push c (basicLines cs) := by
  have quote : c ≠ '"' := by rintro rfl; simp [isBasicChar] at plain
  have backslash : c ≠ '\\' := by rintro rfl; simp [isBasicChar] at plain
  have carriage : c ≠ '\r' := by rintro rfl; simp at plain
  rw [basicLines, if_pos (plain.imp_right And.left)]
  · exact fun _ same _ => quote same
  · exact quote
  · exact backslash
  · exact fun _ same _ => carriage same

theorem basicLines_escapeChar (other : c ≠ '"') {quotes : Nat} (few : quotes ≤ 2)
    {content : List Char} (body : basicLines cs = some (content, rest)) :
    basicLines (List.replicate quotes '"' ++ (escapeChar c ++ cs)) =
      some (List.replicate quotes '"' ++ c :: content, rest) := by
  rcases escapeChar_cases other with
    ⟨itself, plain, -, carriage⟩ | ⟨d, escape, escaped, join, read⟩
  · rw [itself]
    refine read_replicate basicLines_quote few (by simpa using other) ?_
    exact (basicLines_plain (.inr ⟨plain, carriage⟩)).trans (congrArg (push c) body)
  · rw [escaped]
    refine read_replicate basicLines_quote few (by simp) ?_
    exact (basicLines_escape (join _) (read _)).trans (congrArg (push c) body)

theorem replicate_append_three (n : Nat) (quote : Char) (rest : List Char) :
    List.replicate n quote ++ quote :: quote :: quote :: rest =
      quote :: quote :: quote :: (List.replicate n quote ++ rest) := by
  induction n with
  | zero => rfl
  | succ n ih => rw [List.replicate_succ, List.cons_append, ih, List.cons_append]

/-- The quotes in a row that have been written are still to be read. -/
theorem basicLines_basicLinesBody (stop : ∀ d ∈ rest.head?, d ≠ '"') {quotes : Nat}
    (few : quotes ≤ 2) (cs : List Char) :
    basicLines (List.replicate quotes '"' ++
        (basicLinesBody quotes cs ++ '"' :: '"' :: '"' :: rest)) =
      some (List.replicate quotes '"' ++ cs, rest) := by
  induction cs generalizing quotes with
  | nil =>
    rw [basicLinesBody, List.nil_append, replicate_append_three, basicLines,
      closing_replicate few stop, List.append_nil]
  | cons c cs ih =>
    have body : basicLines (basicLinesBody 0 cs ++ '"' :: '"' :: '"' :: rest) = some (cs, rest) :=
      ih (Nat.zero_le 2)
    rw [basicLinesBody]
    split
    · next same =>
      subst same
      split
      · next two =>
        subst two
        refine read_replicate basicLines_quote (Nat.le_refl 2) (by simp) ?_
        exact (basicLines_escape rfl rfl).trans (congrArg (push '"') body)
      · next fewer =>
        have onward := ih (show quotes + 1 ≤ 2 by omega)
        rw [List.replicate_succ', List.append_assoc, List.append_assoc] at onward
        exact onward
    · next other =>
      split
      · next same =>
        subst same
        refine read_replicate basicLines_quote few (by simp) ?_
        exact (basicLines_plain (.inl rfl)).trans (congrArg (push '\n') body)
      · rw [List.append_assoc]
        exact basicLines_escapeChar other few body

theorem literalLines_plain (plain : c = '\'' ∨ c = '\n' ∨ isLiteralChar c = true ∧ c ≠ '\r')
    (stop : c = '\'' → ∀ d ∈ cs.head?, d ≠ '\'' ∨ ∀ e ∈ cs.tail.head?, e ≠ '\'') :
    literalLines (c :: cs) = push c (literalLines cs) := by
  have carriage : c ≠ '\r' := by rintro rfl; simp at plain
  rw [literalLines, if_pos (plain.imp_right (Or.imp_right And.left))]
  · rintro rest same rfl
    rcases stop same '\'' rfl with first | second
    · exact first rfl
    · exact second '\'' rfl rfl
  · exact fun _ same _ => carriage same

theorem le_foldl_step (quote : Char) (cs : List Char) (runs : Nat × Nat) :
    runs.2 ≤ (cs.foldl (longestRun.step quote) runs).2 := by
  induction cs generalizing runs with
  | nil => exact Nat.le_refl _
  | cons c cs ih => exact Nat.le_trans (Nat.le_max_left _ _) (ih (longestRun.step quote runs c))

/-- The counter of a run of quotes is the number of those that are still to be read. -/
theorem literalLines_append (stop : ∀ d ∈ rest.head?, d ≠ '\'') {quotes most : Nat}
    (few : quotes ≤ 2) (bounded : (cs.foldl (longestRun.step '\'') (quotes, most)).2 ≤ 2)
    (plain : ∀ c ∈ cs, c = '\'' ∨ c = '\n' ∨ isLiteralChar c = true ∧ c ≠ '\r') :
    literalLines (List.replicate quotes '\'' ++ (cs ++ '\'' :: '\'' :: '\'' :: rest)) =
      some (List.replicate quotes '\'' ++ cs, rest) := by
  induction cs generalizing quotes most with
  | nil =>
    rw [List.nil_append, replicate_append_three, literalLines, closing_replicate few stop,
      List.append_nil]
  | cons c cs ih =>
    obtain ⟨first, others⟩ := List.forall_mem_cons.mp plain
    rw [List.foldl_cons] at bounded
    by_cases same : c = '\''
    · subst same
      simp only [longestRun.step, if_true] at bounded
      have counted := le_foldl_step '\'' cs (quotes + 1, max most (quotes + 1))
      have fewer : quotes + 1 ≤ 2 :=
        Nat.le_trans (Nat.le_max_right most _) (Nat.le_trans counted bounded)
      have body := ih fewer bounded others
      rw [List.replicate_succ', List.append_assoc, List.append_assoc] at body
      exact body
    · simp only [longestRun.step, if_neg same] at bounded
      have body : literalLines (cs ++ '\'' :: '\'' :: '\'' :: rest) = some (cs, rest) :=
        ih (Nat.zero_le 2) bounded others
      refine read_replicate (fun _ stop => literalLines_plain (.inl rfl) fun _ => stop) few
        (by simpa using same) ?_
      exact (literalLines_plain first fun quote => absurd quote same).trans
        (congrArg (push c) body)

theorem not_mem_of_longestRun {quote : Char} (none : longestRun quote cs = 0) : quote ∉ cs := by
  intro member
  obtain ⟨before, after, rfl⟩ := List.append_of_mem member
  rw [longestRun, List.foldl_append, List.foldl_cons] at none
  have counted := le_foldl_step quote after
    (longestRun.step quote (before.foldl (longestRun.step quote) (0, 0)) quote)
  simp only [longestRun.step, if_true] at counted none
  omega

/-! ## Styles -/

theorem skipFirstNewline_of_head (stop : ∀ d ∈ cs.head?, d ≠ '\n' ∧ d ≠ '\r') :
    skipFirstNewline cs = cs := by
  have none : newline? cs = none := by
    unfold newline?
    split
    · exact absurd rfl (stop '\n' rfl).1
    · exact absurd rfl (stop '\r' rfl).2
    · rfl
  rw [skipFirstNewline, none, Option.getD_none]

/-- The line end after opening quotes is not part of the string, and it is only left out if the
string does not start with one of its own. -/
theorem skipFirstNewline_opening {body : List Char}
    (stop : hasLines cs = false → ∀ d ∈ body.head?, d ≠ '\n' ∧ d ≠ '\r') :
    skipFirstNewline (opening cs ++ body) = body := by
  unfold opening
  split
  · rfl
  · next single =>
    exact skipFirstNewline_of_head (stop (Bool.not_eq_true _ ▸ single))

theorem isLiteralChar_of_not_isControl (printed : isControl c = false) (quote : c ≠ '\'')
    (line : c ≠ '\n') : isLiteralChar c = true := by
  simp [isLiteralChar, isCommentChar_of_not_isControl printed line, quote]

theorem literal_style (chosen : style cs = .literal) :
    cs.any isControl = false ∧ longestRun '\'' cs = 0 ∧ hasLines cs = false := by
  grind [style]

theorem literalLines_style (chosen : style cs = .literalLines) :
    cs.any isControl = false ∧ longestRun '\'' cs ≤ 2 := by
  grind [style]

theorem not_isControl_of_mem (printed : cs.any isControl = false) (member : c ∈ cs) :
    isControl c = false :=
  Bool.not_eq_true _ ▸ List.any_eq_false.mp printed c member

theorem ne_newline_of_mem (single : hasLines cs = false) (member : c ∈ cs) : c ≠ '\n' := by
  rintro rfl
  rw [hasLines, List.contains_iff_mem.mpr member] at single
  cases single

theorem head?_basicLinesBody (single : hasLines cs = false) :
    ∀ d ∈ (basicLinesBody 0 cs ++ '"' :: rest).head?, d ≠ '\n' ∧ d ≠ '\r' := by
  cases cs with
  | nil => simp [basicLinesBody]
  | cons c cs =>
    have line : c ≠ '\n' := ne_newline_of_mem single List.mem_cons_self
    rw [basicLinesBody]
    split
    · simp
    · next other =>
      rcases escapeChar_cases other with ⟨itself, -, -, carriage⟩ | ⟨d, body, escaped, -⟩
      · simp [itself, line, carriage]
      · simp [escaped]

theorem string?_basic (stop : ∀ d ∈ cs.head?, d ≠ '"' ∨ ∀ e ∈ cs.tail.head?, e ≠ '"') :
    string? ('"' :: cs) = ofChars (basic cs) := by
  unfold string?
  split
  · next same =>
    cases same
    rcases stop '"' rfl with first | second
    · exact absurd rfl first
    · exact absurd rfl (second '"' rfl)
  · next same => cases same; rfl
  · next same => cases same
  · next same => cases same
  · next other _ _ => exact absurd rfl (other cs)

theorem string?_literal (stop : ∀ d ∈ cs.head?, d ≠ '\'' ∨ ∀ e ∈ cs.tail.head?, e ≠ '\'') :
    string? ('\'' :: cs) = ofChars (literal cs) := by
  unfold string?
  split
  · next same => cases same
  · next same => cases same
  · next same =>
    cases same
    rcases stop '\'' rfl with first | second
    · exact absurd rfl first
    · exact absurd rfl (second '\'' rfl)
  · next same => cases same; rfl
  · next other => exact absurd rfl (other cs)

theorem ofChars_toList (s : String) : ofChars (some (s.toList, rest)) = some (s, rest) := by
  show some (String.ofList s.toList, rest) = _
  rw [String.ofList_toList]

theorem isLiteralChar_of_style (chosen : style cs = .literal) (member : c ∈ cs) :
    isLiteralChar c = true := by
  obtain ⟨printed, none, single⟩ := literal_style chosen
  refine isLiteralChar_of_not_isControl (not_isControl_of_mem printed member) ?_
    (ne_newline_of_mem single member)
  rintro rfl
  exact not_mem_of_longestRun none member

theorem ne_carriageReturn_of_mem (printed : cs.any isControl = false) (member : c ∈ cs) :
    c ≠ '\r' := by
  rintro rfl
  cases not_isControl_of_mem printed member

theorem isLiteralChar_of_linesStyle (chosen : style cs = .literalLines) (member : c ∈ cs) :
    c = '\'' ∨ c = '\n' ∨ isLiteralChar c = true ∧ c ≠ '\r' := by
  have printed := (literalLines_style chosen).1
  have control := not_isControl_of_mem printed member
  by_cases single : c = '\''
  · exact .inl single
  by_cases line : c = '\n'
  · exact .inr (.inl line)
  · exact .inr (.inr ⟨isLiteralChar_of_not_isControl control single line,
      ne_carriageReturn_of_mem printed member⟩)

theorem string?_flatMap (double : ∀ d ∈ rest.head?, d ≠ '"') (cs : List Char) :
    string? ('"' :: (cs.flatMap basicChar ++ '"' :: rest)) = ofChars (some (cs, rest)) := by
  rw [string?_basic, basic_flatMap]
  cases cs with
  | nil => exact fun _ _ => .inr double
  | cons c cs =>
    obtain ⟨d, ds, written, other⟩ := exists_basicChar c
    rw [List.flatMap_cons, written]
    rintro _ ⟨⟩
    exact .inl other

theorem string?_of_literal (quote : ∀ d ∈ rest.head?, d ≠ '\'') (chosen : style cs = .literal) :
    string? ('\'' :: (cs ++ '\'' :: rest)) = ofChars (some (cs, rest)) := by
  rw [string?_literal, literal_append fun _ => isLiteralChar_of_style chosen]
  cases cs with
  | nil => exact fun _ _ => .inr quote
  | cons c cs =>
    rintro _ ⟨⟩
    refine .inl ?_
    rintro rfl
    exact not_mem_of_longestRun (literal_style chosen).2.1 List.mem_cons_self

theorem string?_basicLinesBody (double : ∀ d ∈ rest.head?, d ≠ '"') (cs : List Char) :
    string? ('"' :: '"' :: '"' :: (opening cs ++
      (basicLinesBody 0 cs ++ '"' :: '"' :: '"' :: rest))) = ofChars (some (cs, rest)) := by
  have body : basicLines (basicLinesBody 0 cs ++ '"' :: '"' :: '"' :: rest) = some (cs, rest) :=
    basicLines_basicLinesBody double (Nat.zero_le 2) cs
  show ofChars (basicLines (skipFirstNewline _)) = _
  rw [skipFirstNewline_opening head?_basicLinesBody, body]

theorem head?_of_literalLines (chosen : style cs = .literalLines) (single : hasLines cs = false) :
    ∀ d ∈ (cs ++ '\'' :: rest).head?, d ≠ '\n' ∧ d ≠ '\r' := by
  cases cs with
  | nil => simp
  | cons c cs =>
    rintro _ ⟨⟩
    exact ⟨ne_newline_of_mem single List.mem_cons_self,
      ne_carriageReturn_of_mem (literalLines_style chosen).1 List.mem_cons_self⟩

theorem string?_of_literalLines (quote : ∀ d ∈ rest.head?, d ≠ '\'')
    (chosen : style cs = .literalLines) :
    string? ('\'' :: '\'' :: '\'' :: (opening cs ++ (cs ++ '\'' :: '\'' :: '\'' :: rest))) =
      ofChars (some (cs, rest)) := by
  have body : literalLines (cs ++ '\'' :: '\'' :: '\'' :: rest) = some (cs, rest) :=
    literalLines_append quote (Nat.zero_le 2) (literalLines_style chosen).2
      fun _ => isLiteralChar_of_linesStyle chosen
  show ofChars (literalLines (skipFirstNewline _)) = _
  rw [skipFirstNewline_opening (head?_of_literalLines chosen), body]

/-- A string is read back whatever follows it but another quote. -/
theorem string?_string (s : String) (stop : ∀ d ∈ rest.head?, d ≠ '"' ∧ d ≠ '\'') :
    string? (Writer.string s ++ rest) = some (s, rest) := by
  have double : ∀ d ∈ rest.head?, d ≠ '"' := fun d member => (stop d member).1
  have quote : ∀ d ∈ rest.head?, d ≠ '\'' := fun d member => (stop d member).2
  rw [← ofChars_toList]
  cases chosen : style s.toList <;>
    simp only [Writer.string, chosen, List.append_assoc, List.cons_append, List.nil_append]
  case basic => exact string?_flatMap double s.toList
  case literal => exact string?_of_literal quote chosen
  case basicLines => exact string?_basicLinesBody double s.toList
  case literalLines => exact string?_of_literalLines quote chosen

end Toml

end Multipart
