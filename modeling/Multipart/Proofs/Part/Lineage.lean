import Multipart.Part.Scalar
import Multipart.Proofs.MadeOnce

/-!
# Scalar parts and their clones

A clone of a scalar part begins with whatever the original keeps by then, and after that each goes
its own way. What an instance gives depends on its lineage alone: the operations on it and, before
it was cloned, on the instances that it comes from.
-/

namespace Multipart

namespace ScalarPart

inductive Operation
  | block
  | body
  | chunks
  | length
  | setName (name : String)
  | setValue (value : Scalar)
  deriving DecidableEq, Repr

def apply (p : ScalarPart) : Operation → ScalarPart
  | .block => p.block.2
  | .body => p.body.2
  | .chunks => p.chunks.2
  | .length => p.length.2
  | .setName name => { p with name }
  | .setValue value => { p with value }

def applyAll (p : ScalarPart) (operations : List Operation) : ScalarPart :=
  operations.foldl apply p

namespace Operation

/-- Whether the header block is given or measured. -/
def takesBlock : Operation → Bool
  | .block | .chunks | .length => true
  | .body | .setName _ | .setValue _ => false

/-- Whether the body is given or measured. -/
def takesBody : Operation → Bool
  | .body | .chunks | .length => true
  | .block | .setName _ | .setValue _ => false

def nameAfter (name : String) : Operation → String
  | .setName other => other
  | _ => name

def valueAfter (value : Scalar) : Operation → Scalar
  | .setValue other => other
  | _ => value

end Operation

/-- The name that the header block is made with. -/
def blockName (name : String) (operations : List Operation) : String :=
  heldWhenTaken Operation.takesBlock Operation.nameAfter name operations

/-- The value that the body is made of. -/
def bodyValue (value : Scalar) (operations : List Operation) : Scalar :=
  heldWhenTaken Operation.takesBody Operation.valueAfter value operations

theorem keptBlock_apply (p : ScalarPart) (operation : Operation) :
    (p.apply operation).keptBlock =
      if operation.takesBlock then some p.block.1 else p.keptBlock := by
  cases operation <;> rfl

theorem keptBody_apply (p : ScalarPart) (operation : Operation) :
    (p.apply operation).keptBody =
      if operation.takesBody then some p.body.1 else p.keptBody := by
  cases operation <;> rfl

theorem block_applyAll (p : ScalarPart) (operations : List Operation) :
    (p.applyAll operations).block.1 =
      p.keptBlock.getD (HeaderBlock.render (blockName p.name operations) none .empty) := by
  apply made_foldl ScalarPart.name (fun _ => ())
    (fun _ name => HeaderBlock.render name none .empty) ScalarPart.keptBlock
  · intro q operation
    cases operation <;> rfl
  · intro q operation
    rfl
  · exact keptBlock_apply

theorem body_applyAll (p : ScalarPart) (operations : List Operation) :
    (p.applyAll operations).body.1 =
      p.keptBody.getD (bodyValue p.value operations).encode := by
  apply made_foldl ScalarPart.value (fun _ => ()) (fun _ => Scalar.encode) ScalarPart.keptBody
  · intro q operation
    cases operation <;> rfl
  · intro q operation
    rfl
  · exact keptBody_apply

/-- One step of a family of instances: an operation on one of them, or a clone of one of them, which
becomes the last. -/
inductive Step
  | operate (i : Nat) (operation : Operation)
  | clone (i : Nat)
  deriving DecidableEq, Repr

section Family

variable {α β : Type}

def Step.act (perform : α → Operation → α) (family : List α) : Step → List α
  | .operate i operation => family.modify i (perform · operation)
  | .clone i => family ++ family[i]?.toList

def run (perform : α → Operation → α) (family : List α) (steps : List Step) : List α :=
  steps.foldl (Step.act perform) family

/-- The lineage of each instance, if the family begins with one. -/
def lineages (steps : List Step) : List (List Operation) :=
  run (fun lineage operation => lineage ++ [operation]) [[]] steps

variable {perform : α → Operation → α} {family : List α} {i : Nat} {a : α}

/-- What each instance is a function of can be followed in its place. -/
theorem map_act {other : β → Operation → β} {f : α → β}
    (follows : ∀ a operation, f (perform a operation) = other (f a) operation)
    (family : List α) (step : Step) :
    (step.act perform family).map f = step.act other (family.map f) := by
  cases step with
  | operate i operation =>
    apply List.ext_getElem?
    intro j
    simp only [Step.act, List.getElem?_map, List.getElem?_modify]
    split <;> simp [Function.comp_def, follows]
  | clone i =>
    rw [Step.act, Step.act, List.map_append, List.getElem?_map]
    cases family[i]? <;> rfl

theorem map_run {other : β → Operation → β} {f : α → β}
    (follows : ∀ a operation, f (perform a operation) = other (f a) operation)
    (family : List α) (steps : List Step) :
    (run perform family steps).map f = run other (family.map f) steps := by
  induction steps generalizing family with
  | nil => rfl
  | cons step steps ih =>
    rw [run, List.foldl_cons, ← run, ih, map_act follows]
    rfl

theorem getElem?_act_operate (held : family[i]? = some a) (operation : Operation) :
    ((Step.operate i operation).act perform family)[i]? = some (perform a operation) := by
  simp [Step.act, held]

theorem getElem?_act_of_ne (held : family[i]? = some a) {step : Step}
    (elsewhere : ∀ operation, step ≠ .operate i operation) :
    (step.act perform family)[i]? = some a := by
  cases step with
  | operate j operation =>
    have other : j ≠ i := by
      rintro rfl
      exact elsewhere operation rfl
    rw [Step.act, List.getElem?_modify_ne _ _ other, held]
  | clone j =>
    obtain ⟨early, -⟩ := List.getElem?_eq_some_iff.mp held
    rw [Step.act, List.getElem?_append_left early, held]

theorem getElem?_run_of_ne (held : family[i]? = some a) {steps : List Step}
    (elsewhere : ∀ step ∈ steps, ∀ operation, step ≠ .operate i operation) :
    (run perform family steps)[i]? = some a := by
  induction steps generalizing family with
  | nil => exact held
  | cons step steps ih =>
    obtain ⟨first, rest⟩ := List.forall_mem_cons.mp elsewhere
    exact ih (getElem?_act_of_ne held first) rest

/-- Some of the steps are operations on an instance. -/
theorem exists_getElem?_run (held : family[i]? = some a) (steps : List Step) :
    ∃ operations : List Operation,
      (run perform family steps)[i]? = some (operations.foldl perform a) := by
  induction steps generalizing family a with
  | nil => exact ⟨[], held⟩
  | cons step steps ih =>
    by_cases own : ∃ operation, step = .operate i operation
    · obtain ⟨operation, rfl⟩ := own
      obtain ⟨operations, later⟩ := ih (getElem?_act_operate held operation)
      exact ⟨operation :: operations, later⟩
    · exact ih (getElem?_act_of_ne held (not_exists.mp own))

end Family

/-- What an instance gives, after any steps of a family that begins with one scalar part: the header
block is made with the name, and the body of the value, at the first operation of its lineage that
took it, and its size is the sum of both. Once an operation has taken one of them, that instance
gives the same from then on. Steps on other instances leave it as it is. -/
theorem run_of_lineage (name : String) (value : Scalar) (steps : List Step) {i : Nat}
    {lineage : List Operation} (descends : (lineages steps)[i]? = some lineage) :
    let family := run apply [{ name, value }] steps
    let block := HeaderBlock.render (blockName name lineage) none .empty
    let body := (bodyValue value lineage).encode
    ∃ q, family[i]? = some q ∧
      q.block.1 = block ∧ q.body.1 = body ∧ q.chunks.1 = (block, body) ∧
      q.length.1 = block.length + body.length ∧
      (∀ operation later r, (run apply family (.operate i operation :: later))[i]? = some r →
        (operation.takesBlock = true → r.block.1 = block) ∧
        (operation.takesBody = true → r.body.1 = body)) ∧
      ∀ later, (∀ step ∈ later, ∀ operation, step ≠ .operate i operation) →
        (run apply family later)[i]? = some q := by
  intro family block body
  let p : ScalarPart := { name, value }
  have family_eq : (lineages steps).map p.applyAll = family := by
    refine map_run ?_ [[]] steps
    intro lineage operation
    simp [applyAll]
  have held : family[i]? = some (p.applyAll lineage) := by
    rw [← family_eq, List.getElem?_map, descends]
    rfl
  have block_eq : (p.applyAll lineage).block.1 = block := block_applyAll p lineage
  have body_eq : (p.applyAll lineage).body.1 = body := body_applyAll p lineage
  refine ⟨_, held, block_eq, body_eq, ?_, ?_, ?_, ?_⟩
  · rw [← block_eq, ← body_eq]
    rfl
  · rw [← block_eq, ← body_eq]
    rfl
  · intro operation later r found
    obtain ⟨operations, reached⟩ := exists_getElem?_run (getElem?_act_operate held operation) later
    obtain rfl : applyAll (apply (p.applyAll lineage) operation) operations = r :=
      Option.some.inj (reached.symm.trans found)
    refine ⟨?_, ?_⟩
    · intro takes
      rw [block_applyAll, keptBlock_apply, if_pos takes]
      exact block_eq
    · intro takes
      rw [body_applyAll, keptBody_apply, if_pos takes]
      exact body_eq
  · intro later elsewhere
    exact getElem?_run_of_ne held elsewhere

/-- A part that is cloned when only its body has been taken. Original and clone give that body, and
each its own header block. -/
theorem run_of_lineage_cloned :
    let steps : List Step :=
      [.operate 0 .body, .clone 0, .operate 0 (.setValue .null), .operate 0 (.setName "b"),
        .operate 0 .block, .operate 1 (.setName "c"), .operate 1 .chunks,
        .operate 1 (.setName "d")]
    let family := run apply [{ name := "a", value := .text "v" }] steps
    (∃ q, family[0]? = some q ∧
      q.chunks.1 = (HeaderBlock.render "b" none .empty, Utf8.encode "v")) ∧
    ∃ q, family[1]? = some q ∧
      q.chunks.1 = (HeaderBlock.render "c" none .empty, Utf8.encode "v") := by
  intro steps family
  obtain ⟨original, first, -, -, given, -⟩ := run_of_lineage "a" (.text "v") steps
    (i := 0) rfl
  obtain ⟨clone, second, -, -, clone_given, -⟩ := run_of_lineage "a" (.text "v") steps
    (i := 1) rfl
  exact ⟨⟨original, first, given⟩, clone, second, clone_given⟩

end ScalarPart

end Multipart
