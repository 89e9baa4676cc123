import Mathlib.Data.List.Basic
import Multipart.Proofs.Message.Wire

/-!
# Taking a message apart

`Splitter.split` is what a receiver does who knows the boundary and nothing else. A delimiter is a
line break, two dashes and the boundary; a part reaches to the next delimiter; and the header of a
part ends at the first blank line. It gives back what was framed, as long as no delimiter occurs in
a part and no line break in a header line.
-/

namespace Multipart

/-- There is no line break in these octets, nor half of one. -/
def Bytes.Unbroken (bs : Bytes) : Prop := ∀ o ∈ bs, o ≠ 0x0D ∧ o ≠ 0x0A

instance (bs : Bytes) : Decidable bs.Unbroken := List.decidableBAll _ bs

namespace Splitter

def crlf : Bytes := [0x0D, 0x0A]

def dashes : Bytes := [0x2D, 0x2D]

def mark (boundary : Bytes) : Bytes := crlf ++ dashes ++ boundary

theorem length_lt_of_dropInfix? {bs pattern before after : Bytes} (nonempty : pattern ≠ [])
    (found : bs.dropInfix? pattern = some (before, after)) : after.length < bs.length := by
  obtain ⟨⟨pattern', rfl, same⟩, -⟩ := List.dropInfix?_eq_some_iff.mp found
  obtain rfl := eq_of_beq same
  have := List.length_pos_iff.mpr nonempty
  simp only [List.length_append]
  omega

theorem length_le_of_dropPrefix? {bs pattern after : Bytes}
    (found : bs.dropPrefix? pattern = some after) : after.length ≤ bs.length := by
  obtain ⟨pattern', rfl, -⟩ := List.dropPrefix?_eq_some_iff.mp found
  simp

/-- The stretches between line breaks. -/
def headerLines (head : Bytes) : List Bytes :=
  match _h : head.dropInfix? crlf with
  | none => [head]
  | some (line, rest) => line :: headerLines rest
termination_by head.length
decreasing_by exact length_lt_of_dropInfix? (by simp [crlf]) _h

/-- A part is cut at its first blank line. -/
def part? (octets : Bytes) : Option (List Bytes × Bytes) :=
  (octets.dropInfix? (crlf ++ crlf)).map fun (head, body) => (headerLines head, body)

/-- The parts, from the end of a delimiter on. Two dashes and a line break must end the input. -/
def partsAfter (boundary rest : Bytes) : Option (List (List Bytes × Bytes)) :=
  if rest = dashes ++ crlf then some []
  else
    match _h : rest.dropPrefix? crlf with
    | none => none
    | some content =>
      match _h' : content.dropInfix? (mark boundary) with
      | none => none
      | some (octets, later) =>
        match part? octets, partsAfter boundary later with
        | some part, some parts => some (part :: parts)
        | _, _ => none
termination_by rest.length
decreasing_by
  exact Nat.lt_of_lt_of_le (length_lt_of_dropInfix? (by simp [mark, crlf]) _h')
    (length_le_of_dropPrefix? _h)

def split (boundary input : Bytes) : Option (List (List Bytes × Bytes)) :=
  (input.dropPrefix? (mark boundary)).bind (partsAfter boundary)

theorem dropInfix?_append {before pattern after : Bytes}
    (first : ∀ p s, before ++ pattern ++ after = p ++ pattern ++ s → before.length ≤ p.length) :
    (before ++ pattern ++ after).dropInfix? pattern = some (before, after) := by
  refine List.dropInfix?_eq_some_iff.mpr ⟨⟨pattern, rfl, beq_self_eq_true pattern⟩, ?_⟩
  intro p pattern' s located same
  obtain rfl := eq_of_beq same
  exact first p s located

/-- A pattern with an octet at its front that does not come back in it overlaps with no other
occurrence of itself. So its first occurrence is not one that begins in what stands before it. -/
theorem length_le_of_absent {before rest after p s : Bytes} {o : UInt8} (unique : o ∉ rest)
    (absent : ¬ (o :: rest) <:+: before)
    (located : before ++ (o :: rest) ++ after = p ++ (o :: rest) ++ s) :
    before.length ≤ p.length := by
  rw [List.append_assoc, List.append_assoc] at located
  rcases List.append_eq_append_iff.mp located with ⟨more, rfl, -⟩ | ⟨overlap, rfl, same⟩
  · simp
  · rcases List.append_eq_append_iff.mp same with ⟨more, rfl, -⟩ | ⟨more, parted, follows⟩
    · exact absurd ⟨p, more, by simp⟩ absent
    · cases overlap with
      | nil => simp
      | cons first overlap =>
        rw [List.cons_append, List.cons.injEq] at parted
        cases more with
        | nil =>
          rw [List.append_nil] at parted
          exact absurd ⟨p, [], by simp [parted.1, parted.2]⟩ absent
        | cons again more =>
          rw [List.cons_append, List.cons_append, List.cons.injEq] at follows
          exact absurd (by rw [parted.2, follows.1]; simp) unique

theorem crlf_absent {bs : Bytes} (unbroken : bs.Unbroken) : ¬ crlf <:+: bs := by
  rintro ⟨before, after, rfl⟩
  exact (unbroken 0x0D (by simp [crlf])).1 rfl

theorem dropInfix?_crlf_append {line rest : Bytes} (unbroken : line.Unbroken) :
    (line ++ crlf ++ rest).dropInfix? crlf = some (line, rest) := by
  apply dropInfix?_append
  intro p s located
  exact length_le_of_absent (by decide) (crlf_absent unbroken) located

theorem dropInfix?_crlf_eq_none {line : Bytes} (unbroken : line.Unbroken) :
    line.dropInfix? crlf = none := by
  cases found : line.dropInfix? crlf with
  | none => rfl
  | some cut =>
    obtain ⟨⟨pattern, parted, same⟩, -⟩ := List.dropInfix?_eq_some_iff.mp found
    obtain rfl := eq_of_beq same
    exact absurd ⟨_, _, parted.symm⟩ (crlf_absent unbroken)

theorem intercalate_cons_cons (line next : Bytes) (lines : List Bytes) :
    crlf.intercalate (line :: next :: lines) =
      line ++ crlf ++ crlf.intercalate (next :: lines) := by
  simp [List.intercalate]

theorem headerLines_intercalate {lines : List Bytes} (nonempty : lines ≠ [])
    (unbroken : ∀ line ∈ lines, line.Unbroken) : headerLines (crlf.intercalate lines) = lines := by
  induction lines with
  | nil => exact absurd rfl nonempty
  | cons line lines ih =>
    have here := unbroken line List.mem_cons_self
    rw [headerLines]
    cases lines with
    | nil =>
      have single : crlf.intercalate [line] = line := by simp [List.intercalate]
      rw [single, dropInfix?_crlf_eq_none here]
    | cons next lines =>
      rw [intercalate_cons_cons, dropInfix?_crlf_append here]
      simp only
      apply congrArg (line :: ·)
      apply ih (List.cons_ne_nil next lines)
      intro line later
      exact unbroken line (List.mem_cons_of_mem _ later)

/-- A line break that is found after the beginning of a line is found after the whole line. -/
theorem exists_eq_append_of_unbroken {line rest p s : Bytes} (unbroken : line.Unbroken)
    (located : line ++ rest = p ++ (crlf ++ s)) :
    ∃ more, p = line ++ more ∧ rest = more ++ (crlf ++ s) := by
  rcases List.append_eq_append_iff.mp located with ⟨more, rfl, follows⟩ | ⟨overlap, rfl, follows⟩
  · exact ⟨more, rfl, follows⟩
  · cases overlap with
    | nil => exact ⟨[], by simp, follows.symm⟩
    | cons first overlap =>
      have same : 0x0D = first := (List.cons.inj follows).1
      exact absurd same.symm (unbroken first (by simp)).1

theorem exists_intercalate_eq_cons {line : Bytes} (lines : List Bytes) (nonempty : line ≠ [])
    (unbroken : line.Unbroken) :
    ∃ first others, crlf.intercalate (line :: lines) = first :: others ∧ first ≠ 0x0D := by
  obtain ⟨first, others, rfl⟩ := List.exists_cons_of_ne_nil nonempty
  have visible := (unbroken first List.mem_cons_self).1
  cases lines with
  | nil => exact ⟨first, others, by simp [List.intercalate], visible⟩
  | cons next lines => exact ⟨first, _, by rw [intercalate_cons_cons]; rfl, visible⟩

/-- The first blank line is the one after the last line. The induction is on the lines. -/
theorem length_intercalate_le {lines : List Bytes} {body p s : Bytes} (nonempty : lines ≠ [])
    (unbroken : ∀ line ∈ lines, line ≠ [] ∧ line.Unbroken)
    (located : crlf.intercalate lines ++ (crlf ++ crlf) ++ body = p ++ (crlf ++ crlf) ++ s) :
    (crlf.intercalate lines).length ≤ p.length := by
  induction lines generalizing p with
  | nil => exact absurd rfl nonempty
  | cons line lines ih =>
    have here := (unbroken line List.mem_cons_self).2
    cases lines with
    | nil =>
      have single : crlf.intercalate [line] = line := by simp [List.intercalate]
      rw [single, List.append_assoc, List.append_assoc p, List.append_assoc crlf] at located
      obtain ⟨more, rfl, -⟩ := exists_eq_append_of_unbroken here located
      simp [single]
    | cons next lines =>
      obtain ⟨nextNonempty, nextUnbroken⟩ := unbroken next (by simp)
      obtain ⟨first, others, begins, visible⟩ :=
        exists_intercalate_eq_cons lines nextNonempty nextUnbroken
      rw [intercalate_cons_cons, List.append_assoc, List.append_assoc, List.append_assoc,
        List.append_assoc p, List.append_assoc crlf crlf s] at located
      obtain ⟨more, rfl, follows⟩ := exists_eq_append_of_unbroken here located
      -- The line break ends `line`, and the next line does not begin with one.
      rcases more with - | ⟨x, - | ⟨y, more⟩⟩
      · have blank := List.append_cancel_left follows
        rw [begins] at blank
        exact absurd (List.cons.inj blank).1 visible
      · have shifted := (List.cons.inj (List.cons.inj follows).2).1
        exact absurd shifted (by decide)
      · have later := (List.cons.inj (List.cons.inj follows).2).2
        have others : ∀ line ∈ next :: lines, line ≠ [] ∧ line.Unbroken := by
          intro line later
          exact unbroken line (List.mem_cons_of_mem _ later)
        have := ih (List.cons_ne_nil next lines) others (p := more) (by simpa using later)
        have two : crlf.length = 2 := rfl
        rw [intercalate_cons_cons]
        simp only [List.length_append, List.length_cons, two]
        omega

/-- A header block and a body, as they are written. -/
def written (field : List Bytes × Bytes) : Bytes × Bytes :=
  (crlf.intercalate field.1 ++ crlf ++ crlf, field.2)

/-- The lines of a header can be told apart. -/
def WellFormed (lines : List Bytes) : Prop :=
  lines ≠ [] ∧ ∀ line ∈ lines, line ≠ [] ∧ line.Unbroken

theorem part?_written {lines : List Bytes} (wellFormed : WellFormed lines) (body : Bytes) :
    part? ((written (lines, body)).1 ++ body) = some (lines, body) := by
  have parted : (written (lines, body)).1 ++ body =
      crlf.intercalate lines ++ (crlf ++ crlf) ++ body := by
    simp [written]
  have cut : (crlf.intercalate lines ++ (crlf ++ crlf) ++ body).dropInfix? (crlf ++ crlf) =
      some (crlf.intercalate lines, body) := by
    apply dropInfix?_append
    intro p s located
    exact length_intercalate_le wellFormed.1 wellFormed.2 located
  have unbroken : ∀ line ∈ lines, line.Unbroken := by
    intro line member
    exact (wellFormed.2 line member).2
  have lines_eq := headerLines_intercalate wellFormed.1 unbroken
  simp only [part?, parted, cut, Option.map_some, lines_eq]

/-- What follows a delimiter: nothing but the end, or a part and the next delimiter. -/
theorem partsAfter_end (boundary : Bytes) :
    partsAfter boundary (dashes ++ crlf) = some [] := by
  rw [partsAfter, if_pos rfl]

theorem partsAfter_part {boundary rest octets : Bytes} {part : List Bytes × Bytes}
    {parts : List (List Bytes × Bytes)} (unbroken : boundary.Unbroken)
    (absent : ¬ mark boundary <:+: octets) (here : part? octets = some part)
    (later : partsAfter boundary rest = some parts) :
    partsAfter boundary (crlf ++ (octets ++ mark boundary ++ rest)) = some (part :: parts) := by
  have opens : (crlf ++ (octets ++ mark boundary ++ rest)).dropPrefix? crlf =
      some (octets ++ mark boundary ++ rest) :=
    List.dropPrefix?_append_of_beq _ (beq_self_eq_true crlf)
  have unique : (0x0D : UInt8) ∉ (0x0A :: dashes) ++ boundary := by
    rw [List.mem_append, not_or]
    constructor
    · decide
    · intro member
      exact (unbroken _ member).1 rfl
  have closes :
      (octets ++ mark boundary ++ rest).dropInfix? (mark boundary) = some (octets, rest) := by
    apply dropInfix?_append
    intro p s located
    exact length_le_of_absent unique absent located
  rw [partsAfter, if_neg (by simp [crlf, dashes])]
  split
  · next none => rw [opens] at none; cases none
  · next content found =>
    rw [opens] at found
    cases found
    split
    · next none => rw [closes] at none; cases none
    · next cut found =>
      rw [closes] at found
      cases found
      rw [here, later]

/-- Splitting undoes framing, if the delimiter stands between the parts only. -/
theorem split_frame {boundary : Bytes} (unbroken : boundary.Unbroken)
    {fields : List (List Bytes × Bytes)} (wellFormed : ∀ field ∈ fields, WellFormed field.1)
    (absent : ∀ field ∈ fields, ¬ mark boundary <:+: (written field).1 ++ field.2) :
    split boundary (crlf ++ frame (dashes ++ boundary ++ crlf)
      (dashes ++ boundary ++ dashes ++ crlf) (fields.map written)) =
        some fields := by
  suffices framed : ∃ rest, crlf ++ frame (dashes ++ boundary ++ crlf)
      (dashes ++ boundary ++ dashes ++ crlf) (fields.map written) =
        mark boundary ++ rest ∧ partsAfter boundary rest = some fields by
    obtain ⟨rest, framed, parted⟩ := framed
    have opens : (mark boundary ++ rest).dropPrefix? (mark boundary) = some rest :=
      List.dropPrefix?_append_of_beq _ (beq_self_eq_true _)
    rw [framed, split, opens, Option.bind_some, parted]
  induction fields with
  | nil =>
    exact ⟨dashes ++ crlf, by simp [mark], partsAfter_end boundary⟩
  | cons field fields ih =>
    obtain ⟨rest, framed, parted⟩ :=
      ih (fun field later => wellFormed field (List.mem_cons_of_mem _ later))
        (fun field later => absent field (List.mem_cons_of_mem _ later))
    obtain ⟨lines, body⟩ := field
    have here := part?_written (wellFormed _ List.mem_cons_self) body
    refine ⟨_, ?_, partsAfter_part unbroken (absent _ List.mem_cons_self) here parted⟩
    have same : HeaderBlock.crlf = crlf := rfl
    rw [List.map_cons, written, frame_cons, same, framed]
    simp [mark]

end Splitter

end Multipart
