import Multipart.Proofs.Decimal.Integer
import Multipart.Proofs.Toml.Strings
import Multipart.Toml.Document

/-!
# Written entries are read back

A line with a bare key and a written value adds the key with the value to the root table. The values
that are written are strings and integers without a sign.
-/

namespace Multipart

namespace Toml

variable {c : Char} {cs rest : List Char} {v : Value}

theorem skipBlanks_of_head (stop : ∀ d ∈ cs.head?, isBlank d = false) : skipBlanks cs = cs := by
  cases cs with
  | nil => rfl
  | cons c cs => simp [skipBlanks, stop c rfl]

theorem isBlank_of_isBareKeyChar (letter : isBareKeyChar c = true) : isBlank c = false := by
  have space : c ≠ ' ' := by rintro rfl; cases letter
  have tab : c ≠ '\t' := by rintro rfl; cases letter
  simp [isBlank, space, tab]

theorem skipBlanks_bare (letter : isBareKeyChar c = true) (cs : List Char) :
    skipBlanks (c :: cs) = c :: cs := by
  refine skipBlanks_of_head ?_
  rintro _ ⟨⟩
  exact isBlank_of_isBareKeyChar letter

/-! ## Words -/

theorem isGrouped_of_isDigit (nonempty : cs ≠ []) (numeric : ∀ c ∈ cs, c.isDigit = true) :
    isGrouped Char.isDigit cs = true := by
  induction cs with
  | nil => exact absurd rfl nonempty
  | cons c cs ih =>
    obtain ⟨first, others⟩ := List.forall_mem_cons.mp numeric
    cases cs with
    | nil => exact first
    | cons d ds =>
      have second := others d List.mem_cons_self
      have underscore : d ≠ '_' := by rintro rfl; cases second
      have run := ih (List.cons_ne_nil d ds) others
      rw [isGrouped, first, run]
      · rfl
      · exact List.cons_ne_nil d ds
      · rintro _ ⟨⟩
        exact underscore rfl

theorem expect?_of_isDigit (mark : c.isDigit = false) (numeric : ∀ c ∈ cs, c.isDigit = true) :
    expect? c cs = none := by
  refine if_neg ?_
  intro first
  rw [numeric c (List.mem_of_mem_head? first)] at mark
  cases mark

theorem isDigit_of_field? {count low high n : Nat}
    (read : field? count low high cs = some (n, rest))
    (numeric : ∀ c ∈ cs, c.isDigit = true) : ∀ c ∈ rest, c.isDigit = true := by
  simp only [field?] at read
  split at read
  · cases read
    exact fun c member => numeric c (List.mem_of_mem_drop member)
  · cases read

theorem afterDate?_of_isDigit (numeric : ∀ c ∈ cs, c.isDigit = true) : afterDate? cs = none := by
  unfold afterDate?
  cases read : field? 4 0 9999 cs with
  | none => rfl
  | some year =>
    have unmarked := expect?_of_isDigit (c := '-') rfl (isDigit_of_field? read numeric)
    simp [unmarked]

theorem afterTime?_of_isDigit (numeric : ∀ c ∈ cs, c.isDigit = true) : afterTime? cs = none := by
  unfold afterTime?
  cases read : field? 2 0 23 cs with
  | none => rfl
  | some hour =>
    have unmarked := expect?_of_isDigit (c := ':') rfl (isDigit_of_field? read numeric)
    simp [unmarked]

theorem isFloat_of_isDigit (numeric : ∀ c ∈ cs, c.isDigit = true) : isFloat cs = false := by
  have integral : ∀ c ∈ cs, (c != '.' && c != 'e' && c != 'E') = true := by
    intro c member
    have digit := numeric c member
    have point : c ≠ '.' := by rintro rfl; cases digit
    have small : c ≠ 'e' := by rintro rfl; cases digit
    have large : c ≠ 'E' := by rintro rfl; cases digit
    simp [point, small, large]
  have run := span_append integral (show ∀ c ∈ [].head?, _ = false by simp)
  rw [List.append_nil] at run
  simp only [isFloat, run, isExponent, Bool.and_false]

theorem isDecimal_digits (n : Nat) : isDecimal (Decimal.digits n) = true := by
  have grouped : isGrouped Char.isDigit (Decimal.digits n) = true :=
    isGrouped_of_isDigit Nat.toDigits_ne_nil fun _ => Decimal.isDigit_of_mem_digits
  simp only [isDecimal, Decimal.takeSign_digits, grouped, Bool.true_and]
  by_cases several : 1 < (Decimal.digits n).length
  · simp [Decimal.head?_digits several]
  · have single : (Decimal.digits n).length = 1 :=
      Nat.le_antisymm (Nat.le_of_not_lt several) (Decimal.length_digits_pos n)
    simp [single]

theorem integer?_digits {n : Nat} (bounded : n ≤ largestInteger) :
    integer? (Decimal.digits n) = some (n : Int) := by
  have numeric : ∀ c ∈ Decimal.digits n, c.isDigit = true := fun _ => Decimal.isDigit_of_mem_digits
  have ungrouped : ungroup (Decimal.digits n) = Decimal.digits n := by
    refine List.filter_eq_self.mpr ?_
    intro c member
    have other : c ≠ '_' := by rintro rfl; cases numeric '_' member
    simp [other]
  have read : Decimal.readInt? (Decimal.digits n) = some (n : Int) := Decimal.readInt?_ofInt n
  have least : leastInteger ≤ n := Int.le_trans (by decide) (Int.natCast_nonneg n)
  have radix {c : Char} {ds : List Char} (letter : c.isDigit = false) :
      Decimal.digits n ≠ '0' :: c :: ds := by
    intro written
    rw [numeric c (written ▸ List.mem_cons_of_mem _ List.mem_cons_self)] at letter
    cases letter
  unfold integer?
  split
  · next written => exact absurd written (radix rfl)
  · next written => exact absurd written (radix rfl)
  · next written => exact absurd written (radix rfl)
  · simp [isDecimal_digits, ungrouped, read, Option.filter, least, bounded]

theorem ofWord?_digits {n : Nat} (bounded : n ≤ largestInteger) :
    ofWord? (Decimal.digits n) = some (.integer n) := by
  have numeric : ∀ c ∈ Decimal.digits n, c.isDigit = true := fun _ => Decimal.isDigit_of_mem_digits
  have letter {word : List Char} (foreign : ∃ c ∈ word, c.isDigit = false) :
      Decimal.digits n ≠ word := by
    rintro rfl
    obtain ⟨c, member, other⟩ := foreign
    rw [numeric c member] at other
    cases other
  have notTrue : Decimal.digits n ≠ "true".toList := letter ⟨'t', by decide, rfl⟩
  have notFalse : Decimal.digits n ≠ "false".toList := letter ⟨'f', by decide, rfl⟩
  have notTime : isDateTime (Decimal.digits n) = false := by
    rw [isDateTime, afterDate?_of_isDigit numeric, afterTime?_of_isDigit numeric]
    rfl
  have notFloat : float? (Decimal.digits n) = none := by
    have notInf : Decimal.digits n ≠ "inf".toList := letter ⟨'i', by decide, rfl⟩
    have notNan : Decimal.digits n ≠ "nan".toList := letter ⟨'n', by decide, rfl⟩
    simp only [float?, Decimal.takeSign_digits, notInf, notNan, isFloat_of_isDigit numeric]
    rfl
  simp only [ofWord?, notTrue, notFalse, notTime, notFloat, integer?_digits bounded]
  rfl

theorem isWordChar_of_isDigit (digit : c.isDigit = true) : isWordChar c = true := by
  simp [isWordChar, Char.isAlphanum, digit]

theorem word?_digits {n : Nat} (bounded : n ≤ largestInteger)
    (stop : ∀ c ∈ rest.head?, isWordChar c = false) :
    word? (Decimal.digits n ++ rest) = some (.integer n, rest) := by
  have numeric : ∀ c ∈ Decimal.digits n, c.isDigit = true := fun _ => Decimal.isDigit_of_mem_digits
  have run := span_append (fun c member => isWordChar_of_isDigit (numeric c member)) stop
  have notDate : isDate (Decimal.digits n) = false := by
    rw [isDate, afterDate?_of_isDigit numeric]
    rfl
  simp only [word?, run, notDate, ofWord?_digits bounded]
  rfl

/-! ## Values and keys -/

theorem value?_word {depth : Nat} (quote : c ≠ '"') (single : c ≠ '\'') (bracket : c ≠ '[')
    (brace : c ≠ '{') : value? depth (c :: cs) = word? (c :: cs) := by
  cases depth <;> simp [value?, quote, single, bracket, brace]

theorem value?_digits {depth n : Nat} (bounded : n ≤ largestInteger)
    (stop : ∀ c ∈ rest.head?, isWordChar c = false) :
    value? depth (Decimal.digits n ++ rest) = some (.integer n, rest) := by
  have read := word?_digits bounded stop
  cases written : Decimal.digits n with
  | nil => exact absurd written Nat.toDigits_ne_nil
  | cons c cs =>
    have digit : c.isDigit = true :=
      Decimal.isDigit_of_mem_digits (n := n) (written ▸ List.mem_cons_self)
    rw [written] at read
    rw [List.cons_append] at read ⊢
    rw [value?_word ?_ ?_ ?_ ?_, read]
    all_goals
      rintro rfl
      cases digit

theorem exists_string (s : String) :
    ∃ cs, Writer.string s = '"' :: cs ∨ Writer.string s = '\'' :: cs := by
  unfold Writer.string
  simp only
  split
  · exact ⟨_, .inl rfl⟩
  · exact ⟨_, .inr rfl⟩
  · exact ⟨_, .inl rfl⟩
  · exact ⟨_, .inr rfl⟩

theorem value?_string {depth : Nat} (s : String) (stop : ∀ d ∈ rest.head?, d ≠ '"' ∧ d ≠ '\'') :
    value? depth (Writer.string s ++ rest) = some (.string s, rest) := by
  have read := string?_string s stop
  obtain ⟨cs, written | written⟩ := exists_string s
  · rw [written, List.cons_append] at read ⊢
    cases depth <;> simp [value?, read]
  · rw [written, List.cons_append] at read ⊢
    cases depth <;> simp [value?, read]

/-- A key that needs no quotes. -/
structure Bare (key : String) : Prop where
  nonempty : key.toList ≠ []
  plain : ∀ c ∈ key.toList, isBareKeyChar c = true

variable {key : String} {written : List Char}

theorem Bare.head (bare : Bare key) (rest : List Char) :
    ∃ c cs, key.toList ++ rest = c :: cs ∧ isBareKeyChar c = true := by
  obtain ⟨nonempty, plain⟩ := bare
  cases letters : key.toList with
  | nil => exact absurd letters nonempty
  | cons c cs => exact ⟨c, cs ++ rest, rfl, plain c (letters ▸ List.mem_cons_self)⟩

theorem simpleKey?_bare (bare : Bare key) (rest : List Char)
    (stop : ∀ c ∈ rest.head?, isBareKeyChar c = false) :
    simpleKey? (key.toList ++ rest) = some (key, rest) := by
  have run := span_append bare.plain stop
  obtain ⟨c, cs, same, letter⟩ := bare.head rest
  rw [same] at run ⊢
  have double : c ≠ '"' := by rintro rfl; cases letter
  have single : c ≠ '\'' := by rintro rfl; cases letter
  rw [simpleKey?, run]
  · simp [bare.nonempty, String.ofList_toList]
  · rintro _ ⟨⟩
    exact double rfl
  · rintro _ ⟨⟩
    exact single rfl

theorem key?_bare (bare : Bare key) (parts : Nat) (rest : List Char) :
    key? (parts + 1) (key.toList ++ ' ' :: '=' :: rest) = some ([key], '=' :: rest) := by
  have unblank : skipBlanks (key.toList ++ ' ' :: '=' :: rest) =
      key.toList ++ ' ' :: '=' :: rest := by
    obtain ⟨c, cs, same, letter⟩ := bare.head (' ' :: '=' :: rest)
    rw [same]
    exact skipBlanks_bare letter cs
  have read := simpleKey?_bare bare (' ' :: '=' :: rest) (by simp [isBareKeyChar])
  have skipped : skipBlanks (' ' :: '=' :: rest) = '=' :: rest := rfl
  simp [key?, unblank, read, skipped]

/-! ## Lines -/

theorem keyValue?_entry (bare : Bare key) {depth : Nat}
    (unblank : ∀ c ∈ written.head?, isBlank c = false)
    (read : value? depth (written ++ '\n' :: rest) = some (v, '\n' :: rest)) :
    keyValue? (value? depth) (Writer.entry key written ++ rest) =
      some (([key], v), '\n' :: rest) := by
  have laid : Writer.entry key written ++ rest =
      key.toList ++ ' ' :: '=' :: ' ' :: (written ++ '\n' :: rest) := by
    simp [Writer.entry]
  have named := key?_bare bare 78 (' ' :: (written ++ '\n' :: rest))
  have skipped : skipBlanks (' ' :: (written ++ '\n' :: rest)) = written ++ '\n' :: rest := by
    show skipBlanks (written ++ '\n' :: rest) = _
    refine skipBlanks_of_head ?_
    cases written with
    | nil => simp [isBlank]
    | cons c cs => exact unblank
  rw [keyValue?, laid, depthLimit]
  simp [named, skipped, read]

/-- A document without headers. -/
def Document.plain (entries : Entries) : Document := ⟨.table .header entries, []⟩

theorem insertKeys_single {entries : Entries} (fresh : entries.get? key = none) :
    insertKeys [key] v (.table .header entries) = some (.table .header (entries.put key v)) := by
  simp [insertKeys, Value.insert, Value.updateAt, Value.insert.add, fresh]

/-- A key, what is written for its value, and the value. -/
structure Entry where
  key : String
  written : List Char
  value : Value

namespace Entry

/-- What stands before the end of a line is read as the value. -/
structure Reads (entry : Entry) : Prop where
  bare : Bare entry.key
  unblank : ∀ c ∈ entry.written.head?, isBlank c = false
  read : ∀ rest, value? (depthLimit - 1) (entry.written ++ '\n' :: rest) =
    some (entry.value, '\n' :: rest)

def text (entry : Entry) : List Char := Writer.entry entry.key entry.written

variable {entry : Entry}

theorem Reads.head (reads : entry.Reads) (rest : List Char) :
    ∃ c cs, entry.text ++ rest = c :: cs ∧ isBareKeyChar c = true := by
  obtain ⟨c, cs, same, letter⟩ :=
    reads.bare.head (" = ".toList ++ entry.written ++ ['\n'] ++ rest)
  refine ⟨c, cs, ?_, letter⟩
  rw [← same]
  simp [text, Writer.entry]

/-- A line with a new key adds it to the root table. -/
theorem line?_text (reads : entry.Reads) {entries : Entries}
    (fresh : entries.get? entry.key = none) (rest : List Char) :
    (Document.plain entries).line? (entry.text ++ rest) =
      some (.plain (entries.put entry.key entry.value), rest) := by
  have given : keyValue? (value? (depthLimit - 1)) (entry.text ++ rest) =
      some (([entry.key], entry.value), '\n' :: rest) :=
    keyValue?_entry reads.bare reads.unblank (reads.read rest)
  have ends : restOfLine? ('\n' :: rest) = some rest := rfl
  have added : Document.entry? (.plain entries) (entry.text ++ rest) =
      some (.plain (entries.put entry.key entry.value), rest) := by
    simp [given, Document.entry?, Document.updateCurrent, Document.plain, Value.updateAt,
      insertKeys_single fresh, ends]
  obtain ⟨c, cs, laid, letter⟩ := reads.head rest
  rw [laid] at added ⊢
  rw [Document.line?, added]
  all_goals
    rintro _ ⟨⟩
    cases letter

theorem reads_integer (bare : Bare key) {n : Nat} (bounded : n ≤ largestInteger) :
    Reads ⟨key, Decimal.digits n, .integer n⟩ where
  bare := bare
  unblank := by
    intro c member
    have digit := Decimal.isDigit_of_mem_digits (List.mem_of_mem_head? member)
    exact isBlank_of_isBareKeyChar (by simp [isBareKeyChar, Char.isAlphanum, digit])
  read := fun _ => value?_digits bounded (by simp [isWordChar])

theorem reads_string (bare : Bare key) (s : String) :
    Reads ⟨key, Writer.string s, .string s⟩ where
  bare := bare
  unblank := by
    obtain ⟨cs, written | written⟩ := exists_string s
    · rw [written]
      simp [isBlank]
    · rw [written]
      simp [isBlank]
  read := fun _ => value?_string s (by simp)

end Entry

theorem put_of_fresh {entries : Entries} (fresh : key ∉ entries.map (·.1)) :
    entries.get? key = none ∧ entries.put key v = entries ++ [(key, v)] := by
  have other (entry : String × Value) (member : entry ∈ entries) : (entry.1 == key) = false := by
    rw [beq_eq_false_iff_ne]
    rintro rfl
    exact fresh (List.mem_map_of_mem member)
  constructor
  · rw [Entries.get?, List.find?_eq_none.mpr]
    · rfl
    · intro entry member
      simp [other entry member]
  · have none : entries.any (·.1 == key) = false :=
      List.any_eq_false.mpr fun entry member => by simp [other entry member]
    rw [Entries.put, none]
    rfl

theorem lines?_entries {items : List Entry} (reads : ∀ item ∈ items, item.Reads)
    {entries : Entries} (distinct : (entries.map (·.1) ++ items.map Entry.key).Nodup)
    {fuel : Nat} (enough : items.length < fuel) :
    Document.lines? fuel (.plain entries) (items.flatMap Entry.text) =
      some (.plain (entries ++ items.map fun item => (item.key, item.value))) := by
  obtain ⟨fuel, rfl⟩ : ∃ more, fuel = more + 1 := ⟨fuel - 1, by omega⟩
  induction items generalizing entries fuel with
  | nil => simp [Document.lines?, skipBlanks]
  | cons item items ih =>
    obtain ⟨first, others⟩ := List.forall_mem_cons.mp reads
    rw [List.length_cons] at enough
    obtain ⟨fuel, rfl⟩ : ∃ more, fuel = more + 1 := ⟨fuel - 1, by omega⟩
    have fresh : item.key ∉ entries.map (·.1) := by
      intro member
      exact (List.nodup_append.mp distinct).2.2 _ member _ List.mem_cons_self rfl
    obtain ⟨absent, added⟩ := put_of_fresh (v := item.value) fresh
    have line := Entry.line?_text first absent (items.flatMap Entry.text)
    obtain ⟨c, cs, laid, letter⟩ := first.head (items.flatMap Entry.text)
    have unblank := skipBlanks_bare letter cs
    have distinct' : ((entries ++ [(item.key, item.value)]).map (·.1) ++
        items.map Entry.key).Nodup := by simpa using distinct
    have rest := ih others distinct' fuel (by omega)
    rw [List.flatMap_cons, Document.lines?]
    rw [laid] at line ⊢
    simp only [unblank, line, added]
    refine rest.trans ?_
    simp

theorem length_le_texts (items : List Entry) :
    items.length ≤ (items.flatMap Entry.text).length := by
  induction items with
  | nil => exact Nat.le_refl _
  | cons item items ih =>
    have text : item.text.length = item.key.toList.length + (item.written.length + 4) := by
      simp [Entry.text, Writer.entry]
    rw [List.flatMap_cons, List.length_cons, List.length_append]
    omega

theorem read?_entries {items : List Entry} (reads : ∀ item ∈ items, item.Reads)
    (distinct : (items.map Entry.key).Nodup) :
    read? (String.ofList (items.flatMap Entry.text)) =
      some (items.map fun item => (item.key, item.value)) := by
  have unmarked : Document.skipByteOrderMark (items.flatMap Entry.text) =
      items.flatMap Entry.text := by
    cases items with
    | nil => rfl
    | cons item items =>
      obtain ⟨c, cs, laid, letter⟩ :=
        (reads item List.mem_cons_self).head (items.flatMap Entry.text)
      have mark : c ≠ Document.byteOrderMark := by rintro rfl; cases letter
      rw [List.flatMap_cons, laid, Document.skipByteOrderMark, if_neg mark]
  have whole : Document.lines? ((items.flatMap Entry.text).length + 1) .empty
      (items.flatMap Entry.text) =
      some (.plain ([] ++ items.map fun item => (item.key, item.value))) :=
    lines?_entries reads (by simpa using distinct) (Nat.lt_succ_of_le (length_le_texts items))
  simp only [read?, String.toList_ofList, unmarked, whole, Document.plain, List.nil_append]
  rfl

end Toml

end Multipart
