import Mathlib.Algebra.Group.Even
import Multipart.Part.Basic
import Multipart.Proofs.Decoding.HeaderLines

/-!
# What a disposition line can be made to say

Names and filenames are escaped so that they stay between their quotes, for a receiver that takes a
backslash inside of quotes together with the octet after it and for one that does not. So the rest of
the line, and of the header block, is the same whatever the name is.
-/

namespace Multipart

/-! ## Lines with quotes in them -/

namespace Quoting

def backslash : UInt8 := 0x5C

/-- Puts octets before the first stretch. -/
def prepend (before : Bytes) : List Bytes → List Bytes
  | [] => [before]
  | first :: rest => (before ++ first) :: rest

/-- The stretches that a receiver finds outside and inside of quotes, in turn. Inside, if `pairs` is
set, a backslash takes the next octet with it, be it a quote. -/
def stretches (pairs : Bool) : Bool → Bytes → List Bytes
  | _, [] => [[]]
  | inside, o :: rest =>
    if o = Octet.quote then [] :: stretches pairs (!inside) rest
    else if pairs && inside && o == backslash then
      match rest with
      | [] => [[o]]
      | next :: rest => prepend [o, next] (stretches pairs inside rest)
    else prepend [o] (stretches pairs inside rest)

/-- Backslashes come in pairs. -/
inductive Paired : Bytes → Prop
  | nil : Paired []
  | other {o : UInt8} {rest : Bytes} (plain : o ≠ backslash) : Paired rest → Paired (o :: rest)
  | pair {rest : Bytes} : Paired rest → Paired (backslash :: backslash :: rest)

theorem prepend_prepend (before after : Bytes) (found : List Bytes) :
    prepend before (prepend after found) = prepend (before ++ after) found := by
  cases found with
  | nil => rfl
  | cons first rest => simp only [prepend, List.append_assoc]

theorem prepend_ne_nil (before : Bytes) (found : List Bytes) : prepend before found ≠ [] := by
  cases found <;> exact nofun

theorem stretches_ne_nil (pairs inside : Bool) (bs : Bytes) : stretches pairs inside bs ≠ [] := by
  fun_cases stretches pairs inside bs with
  | case1 => exact nofun
  | case2 => exact nofun
  | case3 => exact nofun
  | case4 => exact prepend_ne_nil _ _
  | case5 => exact prepend_ne_nil _ _

theorem prepend_nil {found : List Bytes} (h : found ≠ []) : prepend [] found = found := by
  obtain ⟨first, rest, rfl⟩ := List.exists_cons_of_ne_nil h
  rfl

theorem length_prepend (before : Bytes) {found : List Bytes} (h : found ≠ []) :
    (prepend before found).length = found.length := by
  obtain ⟨first, rest, rfl⟩ := List.exists_cons_of_ne_nil h
  rfl

theorem stretches_quote (pairs inside : Bool) (rest : Bytes) :
    stretches pairs inside (Octet.quote :: rest) = [] :: stretches pairs (!inside) rest := by
  rw [stretches.eq_def]
  simp only [if_pos]

theorem stretches_cons {pairs inside : Bool} {o : UInt8} (h : o ≠ Octet.quote)
    (single : (pairs && inside && o == backslash) = false) (rest : Bytes) :
    stretches pairs inside (o :: rest) = prepend [o] (stretches pairs inside rest) := by
  rw [stretches.eq_def]
  simp only [if_neg h, single, Bool.false_eq_true, if_false]

/-- A receiver that does not know pairs finds every quote. -/
theorem length_stretches_false (inside : Bool) (bs : Bytes) :
    (stretches false inside bs).length = bs.count Octet.quote + 1 := by
  induction bs generalizing inside with
  | nil => rfl
  | cons o rest ih =>
    by_cases quote : o = Octet.quote
    · rw [quote, stretches_quote, List.length_cons, ih, List.count_cons_self]
    · rw [stretches_cons quote rfl, length_prepend _ (stretches_ne_nil _ _ _), ih,
        List.count_cons_of_ne quote]

theorem stretches_outside (pairs : Bool) {bs : Bytes} (absent : Octet.quote ∉ bs) (rest : Bytes) :
    stretches pairs false (bs ++ rest) = prepend bs (stretches pairs false rest) := by
  induction bs with
  | nil => exact (prepend_nil (stretches_ne_nil _ _ _)).symm
  | cons o bs ih =>
    obtain ⟨here, later⟩ := List.ne_and_not_mem_of_not_mem_cons absent
    rw [List.cons_append, stretches_cons here.symm (by simp), ih later, prepend_prepend,
      List.singleton_append]

/-- Octets whose backslashes are paired are read alike with and without pairs. -/
theorem Paired.stretches_inside (pairs : Bool) {bs : Bytes} (paired : Paired bs)
    (absent : Octet.quote ∉ bs) (rest : Bytes) :
    stretches pairs true (bs ++ rest) = prepend bs (stretches pairs true rest) := by
  induction paired with
  | nil => exact (prepend_nil (stretches_ne_nil _ _ _)).symm
  | other plain _ ih =>
    obtain ⟨here, later⟩ := List.ne_and_not_mem_of_not_mem_cons absent
    rw [List.cons_append, stretches_cons here.symm (by simp [plain]), ih later, prepend_prepend,
      List.singleton_append]
  | @pair bs _ ih =>
    obtain ⟨here, absent⟩ := List.ne_and_not_mem_of_not_mem_cons absent
    obtain ⟨-, later⟩ := List.ne_and_not_mem_of_not_mem_cons absent
    rw [List.cons_append, List.cons_append]
    cases pairs with
    | true =>
      rw [stretches, if_neg here.symm, if_pos (by decide)]
      simp only [ih later, prepend_prepend]
      rfl
    | false =>
      rw [stretches_cons here.symm rfl, stretches_cons here.symm rfl, ih later, prepend_prepend,
        prepend_prepend]
      rfl

namespace Paired

theorem of_absent {bs : Bytes} (absent : backslash ∉ bs) : Paired bs := by
  induction bs with
  | nil => exact .nil
  | cons o bs ih =>
    obtain ⟨here, later⟩ := List.ne_and_not_mem_of_not_mem_cons absent
    exact .other here.symm (ih later)

theorem append {bs cs : Bytes} (first : Paired bs) (second : Paired cs) : Paired (bs ++ cs) := by
  induction first with
  | nil => exact second
  | other plain _ ih => exact .other plain ih
  | pair _ ih => exact .pair ih

/-- A run of backslashes that has none before it and none after it is made of whole pairs. -/
theorem even_of_run {bs before after : Bytes} {n : Nat} (paired : Paired bs)
    (run : bs = before ++ List.replicate n backslash ++ after)
    (begins : before.getLast? ≠ some backslash) (ends : after.head? ≠ some backslash) :
    Even n := by
  have shorter {o x : UInt8} {bs : Bytes} (h : (o :: bs).getLast? ≠ some x) :
      bs.getLast? ≠ some x := by
    intro last
    exact h (by rw [List.getLast?_cons, last, Option.getD_some])
  induction paired generalizing before n with
  | nil =>
    have none : n = 0 := by
      have lengths := congrArg List.length run
      simp only [List.length_nil, List.length_append, List.length_replicate] at lengths
      omega
    exact ⟨0, none⟩
  | other plain _ ih =>
    cases before with
    | nil =>
      cases n with
      | zero => exact ⟨0, rfl⟩
      | succ n => exact absurd (List.cons.inj run).1 plain
    | cons o before => exact ih (List.cons.inj run).2 (shorter begins)
  | pair _ ih =>
    match before with
    | [] =>
      match n with
      | 0 => exact ⟨0, rfl⟩
      | 1 =>
        have follows : backslash :: _ = after := (List.cons.inj run).2
        rw [← follows] at ends
        exact absurd rfl ends
      | n + 2 =>
        have rest : _ = [] ++ List.replicate n backslash ++ after :=
          (List.cons.inj (List.cons.inj run).2).2
        obtain ⟨half, rfl⟩ := ih rest begins
        exact ⟨half + 1, by omega⟩
    | [o] =>
      have same : backslash = o := (List.cons.inj run).1
      exact absurd (congrArg some same.symm) begins
    | _ :: _ :: before =>
      exact ih (List.cons.inj (List.cons.inj run).2).2 (shorter (shorter begins))

end Paired

end Quoting

/-! ## Parameters -/

namespace Parameter

open Quoting

/-- What stands between the quotes for a value. -/
def quoted (value : String) : Bytes := Utf8.encodeChars (escape value.toList)

theorem format_eq (name value : String) :
    format name value = Utf8.encode name ++ [0x3D, Octet.quote] ++ quoted value ++ [Octet.quote] := by
  have equals : Utf8.encodeChars ['=', '"'] = [0x3D, Octet.quote] := by decide
  have ends : Utf8.encodeChars ['"'] = [Octet.quote] := by decide
  rw [format, chars, Utf8.encodeChars_append, Utf8.encodeChars_append, Utf8.encodeChars_append,
    equals, ends]
  rfl

theorem append_format {before start : Bytes} {key : String}
    (starts : before ++ (Utf8.encode key ++ [0x3D, Octet.quote]) = start ++ [Octet.quote])
    (value : String) :
    before ++ format key value = start ++ Octet.quote :: (quoted value ++ [Octet.quote]) := by
  rw [format_eq, List.append_assoc (_ ++ _), ← List.append_assoc, starts, List.append_assoc,
    List.singleton_append]

theorem quote_notMem_quoted (value : String) : Octet.quote ∉ quoted value := by
  intro member
  obtain ⟨c, inside, same⟩ := Utf8.exists_char_of_mem_encodeChars member (by decide)
  exact (ne_quote_of_mem_escape inside).1 (Char.toNat_inj.mp same)

theorem control_of_mem_quoted {value : String} {o : UInt8} (member : o ∈ quoted value)
    (control : o < 0x20) : o = 0x1B := by
  have small : o.toNat < 0x20 := UInt8.lt_iff_toNat_lt.mp control
  obtain ⟨c, inside, same⟩ := Utf8.exists_char_of_mem_encodeChars member (by omega)
  have escaped := (ne_quote_of_mem_escape inside).2 (by omega)
  exact UInt8.toNat_inj.mp (same.symm.trans escaped)

theorem paired_encodeChars {cs : List Char} (absent : '\\' ∉ cs) :
    Paired (Utf8.encodeChars cs) := by
  apply Paired.of_absent
  intro member
  obtain ⟨c, inside, same⟩ := Utf8.exists_char_of_mem_encodeChars member (by decide)
  rw [show c = '\\' from Char.toNat_inj.mp same] at inside
  exact absent inside

theorem paired_quoted (value : String) : Paired (quoted value) := by
  unfold quoted
  induction value.toList with
  | nil => exact .nil
  | cons c cs ih =>
    rw [escape_cons, Utf8.encodeChars_append]
    refine .append ?_ ih
    rcases escapeChar_cases c with ⟨high, low, escaped, code⟩ | ⟨-, escaped⟩ |
      ⟨-, single, -, escaped⟩
    · have undigit : upperDigit? '\\' = none := by decide
      obtain ⟨h, l, first, second, -⟩ := exists_digits_of_code? code
      rw [escaped]
      apply paired_encodeChars
      simp only [List.mem_cons, List.not_mem_nil, or_false, not_or]
      refine ⟨by decide, ?_, ?_⟩
      · rintro rfl
        cases undigit.symm.trans first
      · rintro rfl
        cases undigit.symm.trans second
    · rw [escaped]
      exact .pair .nil
    · rw [escaped]
      apply paired_encodeChars
      rw [List.mem_singleton]
      exact single.symm

theorem quoted_inj {value other : String} :
    quoted other = quoted value ↔ escape other.toList = escape value.toList :=
  Utf8.encodeChars_injective.eq_iff

end Parameter

/-! ## Disposition lines -/

namespace HeaderBlock

open Quoting Parameter

def opening : Bytes := Utf8.encode "Content-Disposition: form-data; name="

def filenameOpening : Bytes := Utf8.encode "; filename="

/-- An empty filename counts as none. -/
def filled (filename : Option String) : Option String := filename.filter (· ≠ "")

theorem filled_of_ne {filename : String} (h : filename ≠ "") :
    filled (some filename) = some filename := by
  rw [filled, Option.filter_some, if_pos (by simp [h])]

/-- What follows the name on a disposition line. -/
def afterName : Option String → Bytes
  | none => []
  | some filename => filenameOpening ++ Octet.quote :: (quoted filename ++ [Octet.quote])

theorem disposition_eq (name : String) (filename : Option String) :
    disposition name filename =
      opening ++ Octet.quote :: (quoted name ++ [Octet.quote]) ++
        afterName (filled filename) := by
  have starts : Utf8.encode "Content-Disposition: form-data; " ++
      (Utf8.encode "name" ++ [0x3D, Octet.quote]) = opening ++ [Octet.quote] := by decide
  unfold disposition
  rw [append_format starts]
  apply congrArg
  cases filename with
  | none => rfl
  | some f =>
    by_cases empty : f = ""
    · subst empty
      rfl
    · rw [filled_of_ne empty]
      simp only [if_neg empty, afterName]
      exact append_format (by decide) f

/-- Whatever the name and the filename are, a receiver finds them and nothing else in quotes. -/
theorem stretches_disposition (pairs : Bool) (name : String) (filename : Option String) :
    stretches pairs false (disposition name filename) =
      match filled filename with
      | none => [opening, quoted name, []]
      | some f => [opening, quoted name, filenameOpening, quoted f, []] := by
  have unquoted : Octet.quote ∉ opening := by decide
  have unquoted' : Octet.quote ∉ filenameOpening := by decide
  have value (v : String) (rest : Bytes) :
      stretches pairs false (Octet.quote :: (quoted v ++ Octet.quote :: rest)) =
        [] :: quoted v :: stretches pairs false rest := by
    rw [stretches_quote, Bool.not_false,
      (paired_quoted v).stretches_inside pairs (quote_notMem_quoted v), stretches_quote,
      Bool.not_true, prepend, List.append_nil]
  rw [disposition_eq, List.append_assoc, List.cons_append, List.append_assoc,
    List.singleton_append, stretches_outside pairs unquoted, value]
  cases filled filename with
  | none => rfl
  | some f =>
    simp only [afterName]
    rw [stretches_outside pairs unquoted', value]
    rfl

theorem count_quote_disposition (name : String) (filename : Option String) :
    (disposition name filename).count Octet.quote =
      if filename.getD "" = "" then 2 else 4 := by
  have count := length_stretches_false false (disposition name filename)
  rw [stretches_disposition] at count
  cases filename with
  | none => exact (Nat.succ.inj count).symm
  | some f =>
    by_cases empty : f = ""
    · subst empty
      exact (Nat.succ.inj count).symm
    · rw [filled_of_ne empty] at count
      rw [Option.getD_some, if_neg empty]
      exact (Nat.succ.inj count).symm

theorem control_of_mem_disposition (name : String) (filename : Option String) :
    ∀ o ∈ disposition name filename, o < 0x20 → o = 0x1B := by
  have literal {bs : Bytes} (h : bs.all (fun p => decide (0x20 ≤ p)) = true) :
      ∀ o ∈ bs, o < 0x20 → o = 0x1B := by
    intro o member control
    have visible : 0x20 ≤ o := of_decide_eq_true (List.all_eq_true.mp h o member)
    exact absurd control (UInt8.not_lt.mpr visible)
  have value (v : String) :
      ∀ o ∈ Octet.quote :: (quoted v ++ [Octet.quote]), o < 0x20 → o = 0x1B := by
    rw [List.forall_mem_cons, List.forall_mem_append]
    exact ⟨nofun, fun _ => control_of_mem_quoted, literal (by decide)⟩
  rw [disposition_eq, List.forall_mem_append, List.forall_mem_append]
  refine ⟨⟨literal (by decide), value name⟩, ?_⟩
  cases filled filename with
  | none => exact nofun
  | some f =>
    rw [afterName, List.forall_mem_append]
    exact ⟨literal (by decide), value f⟩

theorem paired_disposition (name : String) (filename : Option String) :
    Paired (disposition name filename) := by
  have value (v : String) : Paired (Octet.quote :: (quoted v ++ [Octet.quote])) :=
    .other (by decide) ((paired_quoted v).append (.of_absent (by decide)))
  rw [disposition_eq]
  refine .append (.append (.of_absent (by decide)) (value name)) ?_
  cases filled filename with
  | none => exact .nil
  | some f => exact .append (.of_absent (by decide)) (value f)

/-- Lines tell apart what is not escaped alike. -/
theorem disposition_eq_iff {name other : String} {filename filename' : Option String} :
    disposition other filename' = disposition name filename ↔
      escape other.toList = escape name.toList ∧
        (filled filename').map (escape ·.toList) = (filled filename).map (escape ·.toList) := by
  constructor
  · intro same
    have found := congrArg (stretches false false) same
    rw [stretches_disposition, stretches_disposition] at found
    cases present : filled filename with
    | none =>
      cases present' : filled filename' with
      | none =>
        simp only [present, present', List.cons.injEq, quoted_inj] at found
        exact ⟨found.2.1, rfl⟩
      | some f' => simp [present, present'] at found
    | some f =>
      cases present' : filled filename' with
      | none => simp [present, present'] at found
      | some f' =>
        simp only [present, present', List.cons.injEq, quoted_inj] at found
        exact ⟨found.2.1, congrArg some found.2.2.2.1⟩
  · rintro ⟨names, filenames⟩
    have after : afterName (filled filename') = afterName (filled filename) := by
      cases present : filled filename with
      | none =>
        rw [present, Option.map_none, Option.map_eq_none_iff] at filenames
        rw [filenames]
      | some f =>
        rw [present, Option.map_some, Option.map_eq_some_iff] at filenames
        obtain ⟨f', present', same⟩ := filenames
        rw [present', afterName, afterName, quoted_inj.mpr same]
    rw [disposition_eq, disposition_eq, quoted_inj.mpr names, after]

/-- What follows the disposition line in a block, from the line break after it on: the name, a colon,
a blank and the value of each header on a line of its own, and a blank line. -/
def remainder (headers : HeaderList) : Bytes :=
  (headers.entries.map fun header =>
    Utf8.encode header.1 ++ [0x3A, 0x20] ++ Utf8.encode header.2 ++ [0x0D, 0x0A]).flatten ++
  [0x0D, 0x0A]

theorem render_eq (name : String) (filename : Option String) (headers : HeaderList) :
    render name filename headers = disposition name filename ++ crlf ++ remainder headers := by
  have closed (first : Bytes) (lines : List Bytes) :
      crlf.intercalate (first :: lines) ++ crlf = first ++ crlf ++ (lines.map (· ++ crlf)).flatten := by
    induction lines generalizing first with
    | nil => simp [List.intercalate]
    | cons next lines ih =>
      have onward : crlf.intercalate (first :: next :: lines) =
          first ++ crlf ++ crlf.intercalate (next :: lines) := by simp [List.intercalate]
      rw [onward, List.append_assoc, ih, List.map_cons, List.flatten_cons]
  have colon : Utf8.encode ": " = [0x3A, 0x20] := by decide
  rw [render, lines, closed, List.map_map, List.append_assoc, remainder, ← colon]
  rfl

/-- A receiver cuts the line off where it ends, and what it has then is the same for all names. -/
theorem dropInfix?_render (name : String) (filename : Option String) (headers : HeaderList) :
    (render name filename headers).dropInfix? crlf =
      some (disposition name filename, remainder headers) := by
  rw [render_eq]
  exact Splitter.dropInfix?_crlf_append (unbroken_disposition name filename)

/-- A block without headers has its blank line at its end and nowhere else. -/
theorem render_empty_eq_iff {name : String} {before after : Bytes} :
    render name none .empty = before ++ (crlf ++ crlf) ++ after ↔
      before = disposition name none ∧ after = [] := by
  have block : render name none .empty = disposition name none ++ (crlf ++ crlf) := by
    rw [render_eq, List.append_assoc]
    rfl
  rw [block]
  constructor
  · intro located
    rw [List.append_assoc, List.append_assoc] at located
    obtain ⟨more, rfl, follows⟩ :=
      Splitter.exists_eq_append_of_unbroken (unbroken_disposition name none) located
    have same : Splitter.crlf = crlf := rfl
    have lengths := congrArg List.length follows
    simp only [List.length_append, same] at lengths
    have noMore : more = [] := List.length_eq_zero_iff.mp (by omega)
    have noAfter : after = [] := List.length_eq_zero_iff.mp (by omega)
    exact ⟨by rw [noMore, List.append_nil], noAfter⟩
  · rintro ⟨rfl, rfl⟩
    rw [List.append_nil]

end HeaderBlock

/-! ## Parts -/

namespace Part

open HeaderBlock Quoting Parameter

/-- A scalar has none. -/
def filename? : Part → Option String
  | .scalar _ => none
  | .file p => p.filename

def headers : Part → HeaderList
  | .scalar _ => .empty
  | .file p => p.headers

/-- The header block for the present name. -/
def freshBlock : Part → Bytes
  | .scalar p => p.freshBlock
  | .file p => p.freshBlock

theorem freshBlock_eq (part : Part) :
    part.freshBlock = render part.name part.filename? part.headers := by
  cases part <;> rfl

/-- The disposition line of a part says what it is meant to say, whatever the name and the filename
are. -/
theorem disposition_unforgeable (part : Part) :
    ∃ line, part.freshBlock.dropInfix? crlf = some (line, remainder part.headers) ∧
      (∀ o ∈ line, o < 0x20 → o = 0x1B) ∧
      line.count Octet.quote = (if part.filename?.getD "" = "" then 2 else 4) ∧
      (∀ before n after, line = before ++ List.replicate n backslash ++ after →
        before.getLast? ≠ some backslash → after.head? ≠ some backslash → Even n) ∧
      (∀ pairs, stretches pairs false line =
        match filled part.filename? with
        | none => [opening, quoted part.name, []]
        | some f => [opening, quoted part.name, filenameOpening, quoted f, []]) ∧
      (∀ other : Part, other.freshBlock.dropInfix? crlf = some (line, remainder other.headers) ↔
        escape other.name.toList = escape part.name.toList ∧
          (filled other.filename?).map (escape ·.toList) =
            (filled part.filename?).map (escape ·.toList)) ∧
      (part.isScalar = true → ∀ before after,
        part.freshBlock = before ++ (crlf ++ crlf) ++ after ↔ before = line ∧ after = []) := by
  refine ⟨disposition part.name part.filename?, ?_, control_of_mem_disposition _ _,
    count_quote_disposition _ _, ?_, ?_, ?_, ?_⟩
  · rw [freshBlock_eq, dropInfix?_render]
  · intro before n after
    exact (paired_disposition _ _).even_of_run
  · intro pairs
    exact stretches_disposition pairs _ _
  · intro other
    rw [freshBlock_eq, dropInfix?_render, ← disposition_eq_iff]
    simp
  · intro scalar before after
    cases part with
    | scalar p => exact render_empty_eq_iff
    | file => cases scalar

/-- A name that ends a quoted value, begins a filename and goes on with another header, and a
filename that ends in a backslash. -/
theorem disposition_unforgeable_quotes :
    let scalar : Part := .scalar { name := "a\"; filename=\"b\r\nX: y\r\n\r\n", value := .null }
    let file : Part :=
      .file { name := "a", filename := some "b\\", headers := .empty, source := .bytes [] }
    ∃ line line' rest, scalar.freshBlock.dropInfix? crlf = some (line, rest) ∧
      file.freshBlock.dropInfix? crlf = some (line', rest) ∧ line.count Octet.quote = 2 ∧
      line'.count Octet.quote = 4 ∧
      (∀ pairs, (stretches pairs false line).length = 3 ∧
        (stretches pairs false line').length = 5) ∧
      ∀ before after,
        scalar.freshBlock = before ++ (crlf ++ crlf) ++ after ↔ before = line ∧ after = [] := by
  intro scalar file
  obtain ⟨line, cut, -, count, -, found, -, ends⟩ := disposition_unforgeable scalar
  obtain ⟨line', cut', -, count', -, found', -⟩ := disposition_unforgeable file
  refine ⟨line, line', _, cut, cut', count, count', ?_, ends rfl⟩
  intro pairs
  rw [found, found']
  exact ⟨rfl, rfl⟩

end Part

end Multipart
