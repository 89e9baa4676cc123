import Multipart.Form.Scalar

/-! # Forms -/

namespace Multipart

inductive FieldValue
  | single (value : Scalar)
  | list (values : List Scalar)
  deriving DecidableEq, Repr

namespace FieldValue

def toList : FieldValue → List Scalar
  | .single value => [value]
  | .list values => values

def same : FieldValue → FieldValue → Bool
  | .single s, .single t => s.same t
  | .list ss, .list ts => ss.length == ts.length && (ss.zip ts).all fun (s, t) => s.same t
  | _, _ => false

end FieldValue

structure Form where
  fields : List (String × FieldValue)
  deriving DecidableEq, Repr

namespace Form

def empty : Form := ⟨[]⟩

def insert (form : Form) (name : String) (value : FieldValue) : Form :=
  ⟨form.fields ++ [(name, value)]⟩

def size (form : Form) : Nat := form.fields.length

def isEmpty (form : Form) : Bool := form.fields.isEmpty

def scalars (form : Form) : List (String × Scalar) :=
  form.fields.flatMap fun (name, value) => value.toList.map (name, ·)

def same (f g : Form) : Bool :=
  f.size == g.size && (f.fields.zip g.fields).all fun ((m, v), (n, w)) => m == n && v.same w

@[simp] theorem scalars_empty : empty.scalars = [] := rfl

@[simp] theorem scalars_insert (form : Form) (name : String) (value : FieldValue) :
    (form.insert name value).scalars = form.scalars ++ value.toList.map (name, ·) := by
  simp [scalars, insert]

end Form

end Multipart
