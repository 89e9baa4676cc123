import Mathlib.Data.List.Forall2
import Multipart.Proofs.Message.Steps
import Multipart.Proofs.Part.Alike

/-!
# Producers that go in step

Messages are alike if their parts are. Two blocking producers that begin on messages which are alike
give the same at each request, and the messages that they leave behind are alike again.
-/

namespace Multipart

section Lists

variable {α β : Type} {R : α → β → Prop} {xs : List α} {ys : List β}

theorem rel_getElem? (related : List.Forall₂ R xs ys) (i : Nat) : Option.Rel R xs[i]? ys[i]? := by
  induction related generalizing i with
  | nil => exact .none
  | cons first _ ih =>
    cases i with
    | zero => exact .some first
    | succ i => exact ih i

theorem forall₂_set (related : List.Forall₂ R xs ys) {x : α} {y : β} (new : R x y) (i : Nat) :
    List.Forall₂ R (xs.set i x) (ys.set i y) := by
  induction related generalizing i with
  | nil => exact .nil
  | cons first rest ih =>
    cases i with
    | zero => exact .cons new rest
    | succ i => exact .cons first (ih i)

end Lists

inductive Part.Alike (views : Views) : Part → Part → Prop
  | scalar {p q : ScalarPart} : q.block.1 = p.block.1 → q.body.1 = p.body.1 →
      Alike views (.scalar p) (.scalar q)
  | file {p q : FilePart} : p.Alike views q → Alike views (.file p) (.file q)

namespace Part.Alike

variable {views : Views} {p q : Part}

theorem block_eq (alike : p.Alike views q) : q.block.1 = p.block.1 := by
  cases alike with
  | scalar block _ => exact block
  | file alike => exact alike.block

theorem block (alike : p.Alike views q) : p.block.2.Alike views q.block.2 := by
  cases alike with
  | scalar block body => exact .scalar block body
  | file alike => exact .file (alike.of_advanced (.block _) (.block _) alike.source)

end Part.Alike

structure Message.Alike (views : Views) (m m' : Message) : Prop where
  boundary : m'.boundary = m.boundary
  parts : List.Forall₂ (Part.Alike views) m.parts m'.parts

namespace Message.Alike

variable {views : Views} {m m' : Message} {i : Nat}

theorem delimiter_eq (alike : m.Alike views m') : m'.delimiter = m.delimiter := by
  rw [delimiter, delimiter, alike.boundary]

theorem closing_eq (alike : m.Alike views m') : m'.closing = m.closing := by
  rw [closing, closing, alike.boundary]

theorem length_eq (alike : m.Alike views m') : m'.parts.length = m.parts.length :=
  alike.parts.length_eq.symm

theorem setPart (alike : m.Alike views m') {part other : Part} (new : part.Alike views other)
    (i : Nat) : (m.setPart i part).Alike views (m'.setPart i other) :=
  ⟨alike.boundary, forall₂_set alike.parts new i⟩

theorem exists_part (alike : m.Alike views m') {part : Part} (h : m.parts[i]? = some part) :
    ∃ other, m'.parts[i]? = some other ∧ part.Alike views other := by
  have here := rel_getElem? alike.parts i
  rw [h] at here
  generalize m'.parts[i]? = found at here
  cases here with
  | some alike => exact ⟨_, rfl, alike⟩

theorem exists_scalar (alike : m.Alike views m') {p : ScalarPart}
    (h : m.parts[i]? = some (.scalar p)) :
    ∃ q, m'.parts[i]? = some (.scalar q) ∧ (Part.scalar p).Alike views (.scalar q) := by
  obtain ⟨other, there, alike⟩ := alike.exists_part h
  cases alike with
  | scalar block body => exact ⟨_, there, .scalar block body⟩

theorem exists_scalar_of_other (alike : m.Alike views m') {q : ScalarPart}
    (h : m'.parts[i]? = some (.scalar q)) : ∃ p, m.parts[i]? = some (.scalar p) := by
  have here := rel_getElem? alike.parts i
  rw [h] at here
  generalize m.parts[i]? = found at here
  cases here with
  | some alike => cases alike with | scalar => exact ⟨_, rfl⟩

theorem getElem?_eq_none (alike : m.Alike views m') (h : m.parts[i]? = none) :
    m'.parts[i]? = none := by
  rw [List.getElem?_eq_none_iff] at h ⊢
  exact alike.length_eq ▸ h

end Message.Alike

namespace MessageProducer

open Requests

/-- Two producers at the same place in messages that are alike. A body that is under way is in
step. -/
inductive Twins (views : Views) : MessageProducer → MessageProducer → Prop
  | outside {m m' g} : m.Alike views m' → g.body? = none → Twins views ⟨m, g⟩ ⟨m', g⟩
  | body {m m' i p q progress} : m.Alike views m' →
      m.parts[i]? = some (.file p) → m'.parts[i]? = some (.file q) →
      p.Alike views q → p.InStep views q progress →
      Twins views ⟨m, i, .body progress⟩ ⟨m', i, .body progress⟩

namespace Twins

variable {views : Views} {fs gs : FileSystem} {p q p' : MessageProducer} {item : Option Item}

theorem begun {m m' : Message} {i : Nat} {part other : Part} (alike : m.Alike views m')
    (h : m.parts[i]? = some part) (h' : m'.parts[i]? = some other)
    (same : part.Alike views other) :
    Twins views ⟨m.setPart i part.block.2, i, Progress.contentPhase part⟩
      ⟨m'.setPart i other.block.2, i, Progress.contentPhase other⟩ := by
  have laid := alike.setPart same.block i
  have kept := same.block
  cases same with
  | scalar => exact .outside laid rfl
  | file =>
    cases kept with
    | file kept =>
      exact .body laid (Message.getElem?_setPart _ h) (Message.getElem?_setPart _ h') kept trivial

theorem of_gives_outside {m m' : Message} {g : Progress} (alike : m.Alike views m')
    (idle : g.body? = none) (gives : Gives fs ⟨m, g⟩ item p') :
    ∃ q', Gives gs ⟨m', g⟩ item q' ∧ Twins views p' q' := by
  cases gives with
  | @delimiter _ i inside =>
    have told : Gives gs ⟨m', i, .delimiter⟩ _ _ := .delimiter (alike.length_eq ▸ inside)
    rw [alike.delimiter_eq] at told
    exact ⟨_, told, .outside alike rfl⟩
  | @closing _ i outside =>
    have told : Gives gs ⟨m', i, .delimiter⟩ _ _ := .closing (alike.length_eq ▸ outside)
    rw [alike.closing_eq] at told
    exact ⟨_, told, .outside alike rfl⟩
  | @block _ i part h =>
    obtain ⟨other, h', same⟩ := alike.exists_part h
    have told : Gives gs ⟨m', i, .block⟩ _ _ := .block h'
    rw [same.block_eq] at told
    exact ⟨_, told, begun alike h h' same⟩
  | @scalar _ i part h =>
    obtain ⟨other, h', same⟩ := alike.exists_scalar h
    cases same with
    | scalar block body =>
      have told : Gives gs ⟨m', i, .scalar⟩ _ _ := .scalar h'
      have kept : (Part.scalar part.body.2).Alike views (.scalar other.body.2) :=
        .scalar block body
      rw [body] at told
      exact ⟨_, told, .outside (alike.setPart kept i) rfl⟩
  | trailer => exact ⟨_, .trailer, .outside alike rfl⟩
  | done => exact ⟨_, .done, .outside alike rfl⟩
  | noPart missing => exact ⟨_, .noPart (alike.getElem?_eq_none missing), .outside alike rfl⟩
  | noScalar missing =>
    refine ⟨_, .noScalar ?_, .outside alike rfl⟩
    rintro ⟨other, h'⟩
    exact missing (alike.exists_scalar_of_other h')
  | chunk | failure | bodyEnd | noFile => cases idle

theorem of_gives_body {m m' : Message} {i : Nat} {f g : FilePart} {progress : BodyProgress}
    (alike : m.Alike views m') (h : m.parts[i]? = some (.file f))
    (h' : m'.parts[i]? = some (.file g)) (same : f.Alike views g)
    (inStep : f.InStep views g progress) (seen : views fs gs)
    (gives : Gives fs ⟨m, i, .body progress⟩ item p') :
    ∃ q', Gives gs ⟨m', i, .body progress⟩ item q' ∧ Twins views p' q' := by
  have pulls {step after later} (pulled : (f.pull fs progress).value = (step, after, later)) :=
    same.pull inStep seen pulled
  cases gives with
  | chunk here pulled =>
    cases h.symm.trans here
    obtain ⟨after', pulled', same', inStep'⟩ := pulls pulled
    exact ⟨_, .chunk h' pulled', .body (alike.setPart (.file same') i)
      (Message.getElem?_setPart _ h) (Message.getElem?_setPart _ h') same' inStep'⟩
  | failure here pulled =>
    cases h.symm.trans here
    obtain ⟨after', pulled', same', -⟩ := pulls pulled
    exact ⟨_, .failure h' pulled', .outside (alike.setPart (.file same') i) rfl⟩
  | bodyEnd here pulled =>
    cases h.symm.trans here
    obtain ⟨after', pulled', same', -⟩ := pulls pulled
    exact ⟨_, .bodyEnd h' pulled', .outside (alike.setPart (.file same') i) rfl⟩
  | noFile missing => exact absurd ⟨f, h⟩ missing

/-- Twins give the same and stay twins. -/
theorem of_gives (twins : Twins views p q) (seen : views fs gs) (gives : Gives fs p item p') :
    ∃ q', Gives gs q item q' ∧ Twins views p' q' := by
  cases twins with
  | outside alike idle => exact of_gives_outside alike idle gives
  | body alike h h' same inStep => exact of_gives_body alike h h' same inStep seen gives

theorem next (twins : Twins views p q) (seen : views fs gs) :
    (MessageProducer.next gs q).value.1 = (MessageProducer.next fs p).value.1 ∧
      Twins views (MessageProducer.next fs p).value.2 (MessageProducer.next gs q).value.2 := by
  obtain ⟨q', told, onward⟩ := twins.of_gives seen (gives_next fs p)
  rw [next_of_gives gs told]
  exact ⟨rfl, onward⟩

theorem after {world later : World} (twins : Twins views p q)
    (seen : ∀ n, views (world n) (later n)) (n : Nat) :
    Twins views (after MessageProducer.next world p n) (after MessageProducer.next later q n) := by
  induction n with
  | zero => exact twins
  | succ n ih => exact (ih.next (seen n)).2

theorem answer_eq {world later : World} (twins : Twins views p q)
    (seen : ∀ n, views (world n) (later n)) (n : Nat) :
    answer MessageProducer.next later q n = answer MessageProducer.next world p n :=
  ((twins.after seen n).next (seen n)).1

end Twins

end MessageProducer

end Multipart
