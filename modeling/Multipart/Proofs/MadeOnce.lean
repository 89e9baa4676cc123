/-!
# What is made once

A part makes a header block or a body of what it holds when that is first taken, and keeps it. What
it is made of, in a run of operations, depends on these operations alone.
-/

namespace Multipart

section

variable {τ ω σ : Type} (takes : ω → Bool) (assign : σ → ω → σ)

/-- What is held when it is first taken, or in the end if it is not taken at all. -/
def heldWhenTaken (held : σ) : List ω → σ
  | [] => held
  | operation :: rest =>
    if takes operation then held else heldWhenTaken (assign held operation) rest

variable {κ β : Type} {takes assign} {apply : τ → ω → τ} (held : τ → σ) (fixed : τ → κ)
  (make : κ → σ → β) (kept : τ → Option β)

/-- If an operation that takes it has it made and kept, and any other leaves what is kept as it is,
then a run makes it of what is held when it is first taken. -/
theorem made_foldl
    (assigns : ∀ state operation, held (apply state operation) = assign (held state) operation)
    (fixes : ∀ state operation, fixed (apply state operation) = fixed state)
    (keeps : ∀ state operation, kept (apply state operation) =
      if takes operation then some ((kept state).getD (make (fixed state) (held state)))
      else kept state)
    (state : τ) (operations : List ω) :
    let last := operations.foldl apply state
    (kept last).getD (make (fixed last) (held last)) =
      (kept state).getD
        (make (fixed state) (heldWhenTaken takes assign (held state) operations)) := by
  induction operations generalizing state with
  | nil => rfl
  | cons operation operations ih =>
    refine (ih (apply state operation)).trans ?_
    rw [keeps, assigns, fixes, heldWhenTaken]
    -- What is kept by now is no longer made of anything.
    cases takes operation <;> rfl

end

end Multipart
