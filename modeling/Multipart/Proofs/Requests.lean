import Multipart.Part.File
import Multipart.Production

/-!
# Requests to a producer

A producer is asked for one item after another. Files may change between two requests, so a run is
given by a `World`: the file system at each of them. `answer` is what the producer says to a
request, and `after` is the producer as some requests have left it.
-/

namespace Multipart

/-- The file system at each request. -/
abbrev World := Nat → FileSystem

/-- Files that nobody changes. -/
def World.still (fs : FileSystem) : World := fun _ => fs

/-- The files from request `n` on. -/
def World.later (world : World) (n : Nat) : World := fun k => world (n + k)

@[simp] theorem World.still_apply (fs : FileSystem) (n : Nat) : World.still fs n = fs := rfl

/-- Files that nobody changes any more from request `n` on. -/
def World.until (world : World) (n : Nat) : World := fun k => world (min k n)

theorem World.until_of_le (world : World) {k n : Nat} (early : k ≤ n) :
    world.until n k = world k := by
  rw [World.until, Nat.min_eq_left early]

theorem World.until_of_ge (world : World) {k n : Nat} (late : n ≤ k) :
    world.until n k = world n := by
  rw [World.until, Nat.min_eq_right late]

/-- How many requests were made to collect some items. The one that finds the end is one of
them. -/
def Collected.requests {α σ : Type} (c : Collected α σ) : Nat := c.items.length + c.ended.toNat

namespace Requests

variable {α σ : Type}

def after (next : FileSystem → σ → Traced (α × σ)) (world : World) (producer : σ) : Nat → σ
  | 0 => producer
  | n + 1 => (next (world n) (after next world producer n)).value.2

def answer (next : FileSystem → σ → Traced (α × σ)) (world : World) (producer : σ) (n : Nat) : α :=
  (next (world n) (after next world producer n)).value.1

section Runs

variable (next : FileSystem → σ → Traced (α × σ)) (world : World) (producer : σ)

@[simp] theorem after_zero : after next world producer 0 = producer := rfl

theorem after_succ (n : Nat) :
    after next world producer (n + 1) =
      (next (world n) (after next world producer n)).value.2 := rfl

theorem after_invariant {P : σ → Prop} (initial : P producer)
    (step : ∀ fs state, P state → P (next fs state).value.2) (n : Nat) :
    P (after next world producer n) := by
  induction n with
  | zero => exact initial
  | succ n ih => exact step _ _ ih

/-- What files become later makes no difference. -/
theorem after_until {n last : Nat} (early : n ≤ last) :
    after next (world.until last) producer n = after next world producer n := by
  induction n with
  | zero => rfl
  | succ n ih =>
    rw [after_succ, after_succ, ih (Nat.le_of_succ_le early),
      world.until_of_le (Nat.le_of_succ_le early)]

theorem answer_until {n last : Nat} (early : n ≤ last) :
    answer next (world.until last) producer n = answer next world producer n := by
  unfold answer
  rw [after_until next world producer early, world.until_of_le early]

theorem after_still_succ (fs : FileSystem) (n : Nat) :
    after next (.still fs) producer (n + 1) =
      after next (.still fs) (next fs producer).value.2 n := by
  induction n with
  | zero => rfl
  | succ n ih => rw [after_succ, ih]; rfl

theorem answer_still_succ (fs : FileSystem) (n : Nat) :
    answer next (.still fs) producer (n + 1) =
      answer next (.still fs) (next fs producer).value.2 n := by
  unfold answer
  rw [after_still_succ]
  rfl

end Runs

section Steps

variable {next : FileSystem → σ → Traced (α × σ)} {world : World} {producer : σ} {n : Nat}
  {state : σ}

theorem request_eq {reply : α × σ} (reached : after next world producer n = state)
    (step : (next (world n) state).value = reply) :
    answer next world producer n = reply.1 ∧ after next world producer (n + 1) = reply.2 := by
  subst reached
  exact ⟨congrArg Prod.fst step, congrArg Prod.snd step⟩

/-- A state that answers without changing is never left. -/
theorem after_of_fixed {reply : α} (fixed : ∀ fs, (next fs state).value = (reply, state))
    (reached : after next world producer n = state) (k : Nat) :
    after next world producer (n + k) = state := by
  induction k with
  | zero => exact reached
  | succ k ih => exact (request_eq ih (fixed _)).2

theorem answer_of_fixed {reply : α} (fixed : ∀ fs, (next fs state).value = (reply, state))
    (reached : after next world producer n = state) (k : Nat) :
    answer next world producer (n + k) = reply :=
  (request_eq (after_of_fixed fixed reached k) (fixed _)).1

/-- A change that no step looks at stays as it is. -/
theorem after_map {f : σ → σ} (unseen : ∀ fs state, (next fs (f state)).value =
      ((next fs state).value.1, f (next fs state).value.2)) (n : Nat) :
    after next world (f producer) n = f (after next world producer n) := by
  induction n with
  | zero => rfl
  | succ n ih => rw [after_succ, after_succ, ih, unseen]

theorem answer_map {f : σ → σ} (unseen : ∀ fs state, (next fs (f state)).value =
      ((next fs state).value.1, f (next fs state).value.2)) (n : Nat) :
    answer next world (f producer) n = answer next world producer n := by
  rw [answer, after_map unseen, unseen]
  rfl

end Steps

theorem collect_invariant {next : FileSystem → σ → Traced (Option α × σ)} {P : σ → Prop}
    (fs : FileSystem) (step : ∀ state, P state → P (next fs state).value.2) (count : Nat)
    (producer : σ) (initial : P producer) :
    P (collect (next fs) count producer).value.producer := by
  induction count generalizing producer with
  | zero => exact initial
  | succ count ih =>
    have moved := step producer initial
    obtain ⟨item, rest, given⟩ : ∃ item rest, (next fs producer).value = (item, rest) :=
      ⟨_, _, rfl⟩
    rw [given] at moved
    simp only [collect, Traced.value_bind, given]
    cases item with
    | none => exact moved
    | some item => exact ih rest moved

/-- Collecting makes a number of requests, and leaves the producer as these have left it. -/
theorem producer_collect (next : FileSystem → σ → Traced (Option α × σ)) (fs : FileSystem)
    (count : Nat) (producer : σ) :
    (collect (next fs) count producer).value.producer =
      after next (.still fs) producer (collect (next fs) count producer).value.requests := by
  induction count generalizing producer with
  | zero => rfl
  | succ count ih =>
    obtain ⟨item, rest, given⟩ : ∃ item rest, (next fs producer).value = (item, rest) :=
      ⟨_, _, rfl⟩
    simp only [collect, Traced.value_bind, given]
    cases item with
    | none =>
      rw [Traced.value_pure, Collected.requests, List.length_nil, Nat.zero_add, Bool.toNat_true,
        after_still_succ, given]
      rfl
    | some item =>
      have once (c : Collected α σ) :
          ({ c with items := item :: c.items } : Collected α σ).requests = c.requests + 1 := by
        simp only [Collected.requests, List.length_cons]
        omega
      rw [Traced.value_bind, Traced.value_pure, once, after_still_succ, given]
      exact ih rest

/-- From request `n` on the producer gives these items and then nothing more, however often it is
asked. -/
def Completes (next : FileSystem → σ → Traced (Option α × σ)) (world : World) (producer : σ)
    (n : Nat) (items : List α) : Prop :=
  ∀ k, answer next world producer (n + k) = items[k]?

namespace Completes

variable {next : FileSystem → σ → Traced (Option α × σ)} {world : World} {producer : σ} {n : Nat}

/-- A state that has nothing to give and is not left is the end. -/
theorem of_fixed {state : σ} (fixed : ∀ fs, (next fs state).value = (none, state))
    (reached : after next world producer n = state) : Completes next world producer n [] := by
  intro k
  rw [answer_of_fixed fixed reached k, List.getElem?_nil]

theorem unique {items others : List α} (first : Completes next world producer n items)
    (second : Completes next world producer n others) : items = others :=
  List.ext_getElem? fun k => (first k).symm.trans (second k)

theorem cons {item : α} {items : List α} (first : answer next world producer n = some item)
    (rest : Completes next world producer (n + 1) items) :
    Completes next world producer n (item :: items) := by
  intro k
  cases k with
  | zero => exact first
  | succ k =>
    rw [List.getElem?_cons_succ, ← rest k]
    congr 1
    omega

end Completes

/-- Collecting takes what the answers are, up to the number that is asked for, and sees the end if
it asks once more. -/
theorem collect_of_completes {next : FileSystem → σ → Traced (Option α × σ)} {fs : FileSystem}
    {producer : σ} {items : List α} (complete : Completes next (.still fs) producer 0 items)
    (count : Nat) :
    (collect (next fs) count producer).value.items = items.take count ∧
      (collect (next fs) count producer).value.ended = decide (items.length < count) := by
  induction count generalizing producer items with
  | zero => simp [collect]
  | succ count ih =>
    have first : (next fs producer).value.1 = items[0]? := complete 0
    cases items with
    | nil =>
      have stopped : (next fs producer).value = (none, (next fs producer).value.2) :=
        Prod.ext (by simpa using first) rfl
      simp only [collect, Traced.value_bind]
      rw [stopped]
      simp
    | cons item items =>
      have given : (next fs producer).value = (some item, (next fs producer).value.2) :=
        Prod.ext (by simpa using first) rfl
      have rest := @ih (next fs producer).value.2 items fun n => by
        rw [Nat.zero_add, ← answer_still_succ, ← Nat.zero_add (n + 1), complete (n + 1),
          List.getElem?_cons_succ]
      simp only [collect, Traced.value_bind]
      rw [given]
      simp [rest]

/-- From request `n` on a waiting producer gives these items and then nothing more. Between the
items it may find nothing ready any number of times. -/
inductive Awaits (poll : FileSystem → σ → Traced (Poll (Option α) × σ)) (world : World)
    (producer : σ) : Nat → List α → Prop
  | waits {n items} :
      answer poll world producer n = .notReady →
      Awaits poll world producer (n + 1) items →
      Awaits poll world producer n items
  | ended {n} :
      (∀ k, answer poll world producer (n + k) = .ready none) →
      Awaits poll world producer n []
  | item {n item items} :
      answer poll world producer n = .ready (some item) →
      Awaits poll world producer (n + 1) items →
      Awaits poll world producer n (item :: items)

theorem Awaits.unique {poll : FileSystem → σ → Traced (Poll (Option α) × σ)} {world : World}
    {producer : σ} {n : Nat} {items others : List α} (first : Awaits poll world producer n items)
    (second : Awaits poll world producer n others) : items = others := by
  induction first generalizing others with
  | waits pending _ ih =>
    cases second with
    | waits _ later => exact ih later
    | ended finished => cases pending.symm.trans (finished 0)
    | item given => cases pending.symm.trans given
  | ended finished =>
    cases second with
    | waits pending => cases pending.symm.trans (finished 0)
    | ended => rfl
    | item given => cases given.symm.trans (finished 0)
  | item given _ ih =>
    cases second with
    | waits pending => cases pending.symm.trans given
    | ended finished => cases given.symm.trans (finished 0)
    | item again later =>
      cases given.symm.trans again
      rw [ih later]

end Requests

end Multipart
