import Multipart.Octet
import Multipart.Toml.Blank

/-! # Strings and keys -/

namespace Multipart.Toml

def codePoint? (count : Nat) (cs : List Char) : Option (Char × List Char) := do
  let digits ← (cs.take count).mapM Hex.digitValue?
  let code := digits.foldl (fun n d => n * 16 + d) 0
  if digits.length = count ∧ code.isValidChar then some (Char.ofNat code, cs.drop count) else none

def escape? : List Char → Option (Char × List Char)
  | [] => none
  | c :: cs =>
    match c with
    | 'b' => some ('\x08', cs)
    | 't' => some ('\t', cs)
    | 'n' => some ('\n', cs)
    | 'f' => some ('\x0C', cs)
    | 'r' => some ('\r', cs)
    | '"' => some ('"', cs)
    | '\\' => some ('\\', cs)
    | 'u' => codePoint? 4 cs
    | 'U' => codePoint? 8 cs
    | _ => none

/-- A backslash at the end of a line, after it: the line ends and blanks up to the next character of
the string. -/
def lineJoin? (cs : List Char) : Option (List Char) :=
  (newline? (skipBlanks cs)).map skip
where
  skip : List Char → List Char
    | '\r' :: '\n' :: cs => skip cs
    | c :: cs => if c = '\n' ∨ isBlank c then skip cs else c :: cs
    | [] => []

theorem length_codePoint? {count : Nat} {cs rest : List Char} {c : Char}
    (h : codePoint? count cs = some (c, rest)) : rest.length ≤ cs.length := by
  simp only [codePoint?, Option.bind_eq_bind, Option.bind_eq_some_iff] at h
  obtain ⟨digits, -, h⟩ := h
  split at h
  · simp only [Option.some.injEq, Prod.mk.injEq] at h
    rw [← h.2, List.length_drop]
    omega
  · simp at h

theorem length_escape? {cs rest : List Char} {c : Char} (h : escape? cs = some (c, rest)) :
    rest.length < cs.length := by
  cases cs with
  | nil => simp [escape?] at h
  | cons d cs =>
    simp only [escape?] at h
    split at h
    case h_8 | h_9 => exact Nat.lt_succ_of_le (length_codePoint? h)
    case h_10 => simp at h
    all_goals
      simp only [Option.some.injEq, Prod.mk.injEq] at h
      simp [← h.2]

theorem length_newline? {cs rest : List Char} (h : newline? cs = some rest) :
    rest.length < cs.length := by
  unfold newline? at h
  split at h
  · simp [← Option.some.inj h]
  · simp only [Option.some.injEq] at h
    rw [← h, List.length_cons, List.length_cons]
    omega
  · simp at h

theorem length_skipBlanks (cs : List Char) : (skipBlanks cs).length ≤ cs.length :=
  (List.dropWhile_sublist _).length_le

theorem length_lineJoin_skip (cs : List Char) : (lineJoin?.skip cs).length ≤ cs.length := by
  fun_induction lineJoin?.skip cs <;> simp_all <;> omega

theorem length_lineJoin? {cs rest : List Char} (h : lineJoin? cs = some rest) :
    rest.length < cs.length := by
  simp only [lineJoin?, Option.map_eq_some_iff] at h
  obtain ⟨after, hn, rfl⟩ := h
  have := length_newline? hn
  have := length_skipBlanks cs
  have := length_lineJoin_skip after
  omega

def isBasicChar (c : Char) : Bool := isCommentChar c && c != '"' && c != '\\'

def isLiteralChar (c : Char) : Bool := isCommentChar c && c != '\''

def push (c : Char) : Option (List Char × List Char) → Option (List Char × List Char) :=
  Option.map fun (cs, rest) => (c :: cs, rest)

def basic (cs : List Char) : Option (List Char × List Char) :=
  match cs with
  | [] => none
  | '"' :: cs => some ([], cs)
  | '\\' :: cs =>
    match _ : escape? cs with
    | some (c, rest) => push c (basic rest)
    | none => none
  | c :: cs => if isBasicChar c then push c (basic cs) else none
termination_by cs.length
decreasing_by
  · have := length_escape? (by assumption)
    simp only [List.length_cons]
    omega
  · simp

def literal : List Char → Option (List Char × List Char)
  | [] => none
  | c :: cs =>
    if c = '\'' then some ([], cs)
    else if isLiteralChar c then push c (literal cs)
    else none

/-- After three closing quotes: up to two of the quotes before those belong to the content. -/
def closing (quote : Char) : List Char → List Char × List Char
  | a :: b :: cs =>
    if a = quote ∧ b = quote then ([quote, quote], cs)
    else if a = quote then ([quote], b :: cs)
    else ([], a :: b :: cs)
  | [a] => if a = quote then ([quote], []) else ([], [a])
  | [] => ([], [])

def basicLines (cs : List Char) : Option (List Char × List Char) :=
  match cs with
  | [] => none
  | '"' :: '"' :: '"' :: cs => some (closing '"' cs)
  | '"' :: cs => push '"' (basicLines cs)
  | '\\' :: cs =>
    match _ : lineJoin? cs with
    | some rest => basicLines rest
    | none =>
      match _ : escape? cs with
      | some (c, rest) => push c (basicLines rest)
      | none => none
  | '\r' :: '\n' :: cs => push '\n' (basicLines cs)
  | c :: cs => if c = '\n' ∨ isBasicChar c then push c (basicLines cs) else none
termination_by cs.length
decreasing_by
  · simp
  · have := length_lineJoin? (by assumption)
    simp only [List.length_cons]
    omega
  · have := length_escape? (by assumption)
    simp only [List.length_cons]
    omega
  · simp only [List.length_cons]
    omega
  · simp

def literalLines : List Char → Option (List Char × List Char)
  | [] => none
  | '\'' :: '\'' :: '\'' :: cs => some (closing '\'' cs)
  | '\r' :: '\n' :: cs => push '\n' (literalLines cs)
  | c :: cs =>
    if c = '\'' ∨ c = '\n' ∨ isLiteralChar c then push c (literalLines cs) else none

/-- Skips the line end right after the opening quotes, which is no content. -/
def skipFirstNewline (cs : List Char) : List Char := (newline? cs).getD cs

def ofChars (r : Option (List Char × List Char)) : Option (String × List Char) :=
  r.map fun (cs, rest) => (String.ofList cs, rest)

def string? : List Char → Option (String × List Char)
  | '"' :: '"' :: '"' :: cs => ofChars (basicLines (skipFirstNewline cs))
  | '"' :: cs => ofChars (basic cs)
  | '\'' :: '\'' :: '\'' :: cs => ofChars (literalLines (skipFirstNewline cs))
  | '\'' :: cs => ofChars (literal cs)
  | _ => none

def isBareKeyChar (c : Char) : Bool := c.isAlphanum || c == '-' || c == '_'

def simpleKey? : List Char → Option (String × List Char)
  | '"' :: cs => ofChars (basic cs)
  | '\'' :: cs => ofChars (literal cs)
  | cs =>
    let (key, rest) := cs.span isBareKeyChar
    if key.isEmpty then none else some (String.ofList key, rest)

/-- A dotted key of at most so many parts, with blanks around each. -/
def key? : Nat → List Char → Option (List String × List Char)
  | 0, _ => none
  | parts + 1, cs => do
    let (key, rest) ← simpleKey? (skipBlanks cs)
    match skipBlanks rest with
    | '.' :: rest =>
      let (keys, rest) ← key? parts rest
      some (key :: keys, rest)
    | rest => some ([key], rest)

end Multipart.Toml
