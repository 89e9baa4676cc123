import Multipart.Form.Json
import Multipart.Proofs.Decimal.Integer
import Multipart.Proofs.Message.Built

/-!
# Forms from JSON

An object is a form if all that it holds are scalars, under its names or in arrays under its names.
Then each of them is sent in its place.
-/

namespace Multipart

namespace Json

def IsScalar : Json → Prop
  | .null | .bool _ | .number _ | .string _ => True
  | .array _ | .object _ => False

/-- A scalar, or an array of scalars only. -/
def IsField : Json → Prop
  | .array items => ∀ item ∈ items, item.IsScalar
  | json => json.IsScalar

/-- An array stands for its items, and anything else for itself. -/
def expanded : Json → List Json
  | .array items => items
  | json => [json]

/-- What the members of an object stand for, with their names. -/
def slots (members : List (String × Json)) : List (String × Json) :=
  members.flatMap fun (name, value) => value.expanded.map (name, ·)

/-- The text that a scalar is sent as. -/
inductive Spells : Json → String → Prop
  | null : Spells .null ""
  | true : Spells (.bool true) "true"
  | false : Spells (.bool false) "false"
  | string (s : String) : Spells (.string s) s
  | integer {n lower upper text} :
      Decimal.Writes n text.toList → Spells (.number (.integer n lower upper)) text
  | real (x : Double) : Spells (.number (.real x)) (String.ofList (Scalar.floatLayout.write x))

/-- The word for what a value is. -/
inductive Called : Json → String → Prop
  | null : Called .null "null"
  | bool (b : Bool) : Called (.bool b) "bool"
  | number (n : JsonNumber) : Called (.number n) "number"
  | string (s : String) : Called (.string s) "string"
  | array (items : List Json) : Called (.array items) "array"
  | object (members : List (String × Json)) : Called (.object members) "object"

theorem called_kind (json : Json) : json.Called json.kind.name := by
  cases json with
  | null => exact .null
  | bool b => exact .bool b
  | number n => exact .number n
  | string s => exact .string s
  | array items => exact .array items
  | object members => exact .object members

/-- A part that sends a scalar under its name. -/
def SentAs (slot : String × Json) (part : Part) : Prop :=
  ∃ (p : ScalarPart) (text : String), part = .scalar p ∧ p.name = slot.1 ∧
    p.block.1 = HeaderBlock.render slot.1 none .empty ∧
    slot.2.Spells text ∧ p.body.1 = Utf8.encode text

variable {json : Json} {name : String}

theorem forall_expanded_iff : (∀ item ∈ json.expanded, item.IsScalar) ↔ json.IsField := by
  cases json <;> simp [expanded, IsField]

theorem forall_slots_iff {members : List (String × Json)} :
    (∀ slot ∈ slots members, slot.2.IsScalar) ↔ ∀ member ∈ members, member.2.IsField := by
  constructor
  · intro scalars member inside
    refine forall_expanded_iff.mp ?_
    intro item within
    exact scalars (member.1, item)
      (List.mem_flatMap.mpr ⟨member, inside, List.mem_map.mpr ⟨item, within, rfl⟩⟩)
  · intro fields slot inside
    obtain ⟨member, among, image⟩ := List.mem_flatMap.mp inside
    obtain ⟨item, within, rfl⟩ := List.mem_map.mp image
    exact forall_expanded_iff.mpr (fields member among) item within

theorem ofJson_of_not_isScalar (nested : ¬ json.IsScalar) :
    Scalar.ofJson json = .error (.invalid (.notPrimitive json.kind)) := by
  cases json with
  | array | object => rfl
  | null | bool | number | string => exact absurd trivial nested

/-- An integer is sent alike on both sides of the bound of signed words. -/
theorem encode_integer (n : Int) (lower : -0x8000000000000000 ≤ n)
    (upper : n < 0x10000000000000000) :
    (Scalar.ofJsonNumber (.integer n lower upper)).encode =
      Utf8.encode (String.ofList (Decimal.ofInt n)) := by
  rw [Scalar.ofJsonNumber]
  split
  case isTrue signed =>
    rw [Scalar.encode, Scalar.spelling, Int64.toInt_ofInt_of_le lower signed]
    exact nofun
  case isFalse => rfl

theorem exists_ofJson (scalar : json.IsScalar) :
    ∃ s text, Scalar.ofJson json = .ok s ∧ json.Spells text ∧ s.encode = Utf8.encode text := by
  cases json with
  | array | object => exact scalar.elim
  | null => exact ⟨_, _, rfl, .null, rfl⟩
  | bool b =>
    cases b with
    | true => exact ⟨_, _, rfl, .true, rfl⟩
    | false => exact ⟨_, _, rfl, .false, rfl⟩
  | string s => exact ⟨_, _, rfl, .string s, rfl⟩
  | number n =>
    cases n with
    | real x => exact ⟨_, _, rfl, .real x, rfl⟩
    | integer n lower upper =>
      refine ⟨_, String.ofList (Decimal.ofInt n), rfl, .integer ?_, ?_⟩
      · rw [String.toList_ofList]
        exact Decimal.writes_ofInt n
      · exact encode_integer n lower upper

/-- The scalar of a slot, with its name. -/
def ofSlot (slot : String × Json) : Except EncodingError (String × Scalar) :=
  (slot.1, ·) <$> Scalar.ofJson slot.2

theorem mapM_ofSlot_expanded (name : String) (json : Json) :
    (json.expanded.map (name, ·)).mapM ofSlot =
      (fun value => value.toList.map (name, ·)) <$> FieldValue.ofJson json := by
  cases json with
  | array items =>
    rw [expanded, List.mapM_map, FieldValue.ofJson]
    induction items with
    | nil => rfl
    | cons item items ih =>
      rw [List.mapM_cons, List.mapM_cons, ih, Function.comp_apply, ofSlot]
      cases Scalar.ofJson item with
      | error e => rfl
      | ok s => cases items.mapM Scalar.ofJson <;> rfl
  | null | bool | number | string | object => rfl

theorem mapM_ofSlot_slots (members : List (String × Json)) :
    (slots members).mapM ofSlot = Form.scalars <$> Form.ofJson (.object members) := by
  induction members with
  | nil => rfl
  | cons member members ih =>
    obtain ⟨name, value⟩ := member
    rw [slots, List.flatMap_cons, List.mapM_append, mapM_ofSlot_expanded, ← slots, ih,
      Form.ofJson, Form.ofJson, List.mapM_cons]
    dsimp only
    cases FieldValue.ofJson value with
    | error e => rfl
    | ok field =>
      cases members.mapM fun (name, value) => (name, ·) <$> FieldValue.ofJson value <;> rfl

/-- A scalar is made of each slot, or there is a first slot that is none and fails. -/
theorem slots_cases (slots : List (String × Json)) :
    (∃ scalars, slots.mapM ofSlot = .ok scalars ∧ ∀ slot ∈ slots, slot.2.IsScalar) ∨
      ∃ before name value after, slots = before ++ (name, value) :: after ∧
        (∀ slot ∈ before, slot.2.IsScalar) ∧ ¬ value.IsScalar ∧
        slots.mapM ofSlot = .error (.invalid (.notPrimitive value.kind)) := by
  induction slots with
  | nil => exact .inl ⟨[], rfl, nofun⟩
  | cons slot slots ih =>
    obtain ⟨name, value⟩ := slot
    rw [List.mapM_cons, ofSlot]
    by_cases scalar : value.IsScalar
    · obtain ⟨s, -, made, -⟩ := exists_ofJson scalar
      rcases ih with
        ⟨scalars, made', rest⟩ | ⟨before, name', value', after, rfl, rest, nested, failed⟩
      · rw [made, made']
        exact .inl ⟨_, rfl, List.forall_mem_cons.mpr ⟨scalar, rest⟩⟩
      · rw [made, failed]
        exact .inr ⟨(name, value) :: before, name', value', after, rfl,
          List.forall_mem_cons.mpr ⟨scalar, rest⟩, nested, rfl⟩
    · rw [ofJson_of_not_isScalar scalar]
      exact .inr ⟨[], name, value, slots, rfl, nofun, scalar, rfl⟩

theorem sentAs_of_ofSlot {slot : String × Json} {scalar : String × Scalar}
    (made : ofSlot slot = .ok scalar) :
    SentAs slot (.scalar { name := scalar.1, value := scalar.2 }) := by
  obtain ⟨name, value⟩ := slot
  by_cases isScalar : value.IsScalar
  · obtain ⟨s, text, made', spells, encode⟩ := exists_ofJson isScalar
    rw [ofSlot, made'] at made
    cases made
    exact ⟨_, text, rfl, rfl, rfl, spells, encode⟩
  · rw [ofSlot, ofJson_of_not_isScalar isScalar] at made
    cases made

end Json

namespace Form

open Json in
theorem ofJson_object_cases (members : List (String × Json)) :
    (∃ form, ofJson (.object members) = .ok form ∧
      (slots members).mapM ofSlot = .ok form.scalars ∧
      ∀ member ∈ members, member.2.IsField) ∨
    ∃ before name value after, slots members = before ++ (name, value) :: after ∧
      (∀ slot ∈ before, slot.2.IsScalar) ∧ ¬ value.IsScalar ∧
      ofJson (.object members) = .error (.invalid (.notPrimitive value.kind)) := by
  have flat := mapM_ofSlot_slots members
  rcases slots_cases (slots members) with
    ⟨scalars, made, all⟩ | ⟨before, name, value, after, parted, earlier, nested, failed⟩
  · rw [made] at flat
    cases result : ofJson (.object members) with
    | error e => rw [result] at flat; cases flat
    | ok form =>
      rw [result] at flat
      cases flat
      exact .inl ⟨form, rfl, made, forall_slots_iff.mp all⟩
  · rw [failed] at flat
    cases result : ofJson (.object members) with
    | ok form => rw [result] at flat; cases flat
    | error e =>
      rw [result] at flat
      cases flat
      exact .inr ⟨before, name, value, after, parted, earlier, nested, rfl⟩

theorem ofJson_of_not_object {json : Json} (other : ∀ members, json ≠ .object members) :
    ofJson json = .error (.invalid (.notObject json.kind)) := by
  cases json with
  | object members => exact absurd rfl (other members)
  | null | bool | number | string | array => rfl

theorem build_nil {b : Builder} {boundary : Boundary}
    (resolved : b.resolveBoundary.value = .ok boundary) (form : Form) :
    (b.build form []).value = .ok ⟨boundary, Builder.scalarParts form⟩ := by
  have none : b.fileParts [] = .ok [] := rfl
  simp only [Builder.build, Traced.value_bind, resolved, none, Traced.value_pure, List.append_nil]

/-- An object is a form if it holds scalars and arrays of scalars. The message that is built of it
has a part for each of the scalars, in their order and each under its name. What is no object fails
for that, and an object fails for the first thing in it that is too deep. The failure says what it
has met. -/
theorem ofJson_sends (json : Json) :
    ((∃ form, ofJson json = .ok form) ↔
      ∃ members, json = .object members ∧ ∀ member ∈ members, member.2.IsField) ∧
    (∀ form members, ofJson json = .ok form → json = .object members →
      ∀ (b : Builder) boundary, b.resolveBoundary.value = .ok boundary →
        ∃ parts, (b.build form []).value = .ok ⟨boundary, parts⟩ ∧
          List.Forall₂ Json.SentAs (Json.slots members) parts) ∧
    ((∀ members, json ≠ .object members) →
      ∃ cause word, ofJson json = .error (.invalid cause) ∧ json.Called word ∧
        cause.message = "form data must be a JSON object, got " ++ word) ∧
    ∀ members, json = .object members → (∃ member ∈ members, ¬ member.2.IsField) →
      ∃ before name value after, Json.slots members = before ++ (name, value) :: after ∧
        (∀ slot ∈ before, slot.2.IsScalar) ∧ ¬ value.IsScalar ∧
        ∃ cause word, ofJson json = .error (.invalid cause) ∧ value.Called word ∧
          cause.message =
            "expected a primitive value (text, bytes, integer, float, bool or null), got " ++
              word := by
  refine ⟨⟨?_, ?_⟩, ?_, ?_, ?_⟩
  · rintro ⟨form, made⟩
    cases json with
    | null | bool | number | string | array => cases made
    | object members =>
      rcases ofJson_object_cases members with ⟨-, -, -, fields⟩ | ⟨_, _, _, _, -, -, -, failed⟩
      · exact ⟨members, rfl, fields⟩
      · cases made.symm.trans failed
  · rintro ⟨members, rfl, fields⟩
    rcases ofJson_object_cases members with
      ⟨form, made, -⟩ | ⟨before, name, value, after, parted, -, nested, -⟩
    · exact ⟨form, made⟩
    · have inside : (name, value) ∈ Json.slots members := by
        rw [parted]
        exact List.mem_append_right _ List.mem_cons_self
      exact absurd (Json.forall_slots_iff.mpr fields _ inside) nested
  · rintro form members made rfl b boundary resolved
    refine ⟨_, build_nil resolved form, ?_⟩
    rcases ofJson_object_cases members with
      ⟨form', made', scalars, -⟩ | ⟨_, _, _, _, -, -, -, failed⟩
    · cases made.symm.trans made'
      rw [Builder.scalarParts, List.forall₂_map_right_iff]
      exact (mapM_eq_ok_iff.mp scalars).imp fun _ _ => Json.sentAs_of_ofSlot
    · cases made.symm.trans failed
  · intro other
    exact ⟨_, _, ofJson_of_not_object other, json.called_kind, rfl⟩
  · rintro members rfl ⟨member, inside, nested⟩
    rcases ofJson_object_cases members with
      ⟨-, -, -, fields⟩ | ⟨before, name, value, after, parted, scalars, notScalar, failed⟩
    · exact absurd (fields member inside) nested
    · exact ⟨before, name, value, after, parted, scalars, notScalar, _, _, failed,
        value.called_kind, rfl⟩

/-- An integer beyond signed words in an array, a number that is no object, and an object that is met
in an array before an array is. -/
theorem ofJson_sends_arrays :
    let large : Json := .number (.integer 0x8000000000000000 (by decide) (by decide))
    let members : List (String × Json) := [("a", .array [.null, large]), ("b", .bool true)]
    let b : Builder := { entropy := .failure "", boundary := some [0x42] }
    let nested : List (String × Json) :=
      [("a", .array [.null, .object []]), ("b", .array [.array []])]
    (∃ form parts, ofJson (.object members) = .ok form ∧
      (b.build form []).value = .ok ⟨⟨[0x42], by decide⟩, parts⟩ ∧
      List.Forall₂ Json.SentAs [("a", .null), ("a", large), ("b", .bool true)] parts) ∧
    (∃ cause, ofJson large = .error (.invalid cause) ∧
      cause.message = "form data must be a JSON object, got number") ∧
    ∃ cause, ofJson (.object nested) = .error (.invalid cause) ∧
      cause.message =
        "expected a primitive value (text, bytes, integer, float, bool or null), got object" := by
  intro large members b nested
  obtain ⟨accepted, sends, -, -⟩ := ofJson_sends (.object members)
  obtain ⟨-, -, refused, -⟩ := ofJson_sends large
  obtain ⟨-, -, -, fails⟩ := ofJson_sends (.object nested)
  refine ⟨?_, ?_, ?_⟩
  · have fields : ∀ member ∈ members, member.2.IsField := by
      simp [members, Json.IsField, Json.IsScalar, large]
    obtain ⟨form, made⟩ := accepted.mpr ⟨members, rfl, fields⟩
    obtain ⟨parts, built, sent⟩ := sends form members made rfl b ⟨[0x42], by decide⟩ rfl
    exact ⟨form, parts, made, built, sent⟩
  · obtain ⟨cause, word, failed, called, message⟩ := refused nofun
    unfold large at called
    cases called
    exact ⟨cause, failed, message⟩
  · have deep : ∃ member ∈ nested, ¬ member.2.IsField := by
      simp [nested, Json.IsField, Json.IsScalar]
    obtain ⟨before, name, value, after, parted, scalars, notScalar, cause, word, failed, called,
      message⟩ := fails nested rfl deep
    refine ⟨cause, failed, ?_⟩
    have order : ([("a", .null), ("a", .object []), ("b", .array [])] : List (String × Json)) =
        before ++ (name, value) :: after := parted
    match before, order with
    | [], order =>
      cases order
      exact absurd trivial notScalar
    | [first], order =>
      cases order
      cases called
      exact message
    | first :: second :: others, order =>
      obtain ⟨-, onward⟩ := List.cons.inj order
      obtain ⟨rfl, -⟩ := List.cons.inj onward
      cases scalars _ (List.mem_cons_of_mem _ List.mem_cons_self)

end Form

end Multipart
