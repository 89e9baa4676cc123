import Mathlib.Data.List.Forall2
import Multipart.Message.Whole
import Multipart.Proofs.Message.Polling

/-!
# What operations do to a message

A message can be measured, rendered as a whole and rendered by producers that are asked for some
items and then given up. Each of these keeps the boundary and advances the parts, so the same is
true of any run of them.
-/

namespace Multipart

structure ScalarPart.Advanced (p q : ScalarPart) : Prop where
  name : q.name = p.name
  value : q.value = p.value
  block : q.block.1 = p.block.1
  body : q.body.1 = p.body.1

namespace ScalarPart.Advanced

theorem refl (p : ScalarPart) : p.Advanced p := ⟨rfl, rfl, rfl, rfl⟩

theorem trans {p q r : ScalarPart} (first : p.Advanced q) (second : q.Advanced r) :
    p.Advanced r :=
  ⟨second.name.trans first.name, second.value.trans first.value, second.block.trans first.block,
    second.body.trans first.body⟩

theorem block_snd (p : ScalarPart) : p.Advanced p.block.2 := ⟨rfl, rfl, rfl, rfl⟩

theorem body_snd (p : ScalarPart) : p.Advanced p.body.2 := ⟨rfl, rfl, rfl, rfl⟩

theorem length (p : ScalarPart) : p.Advanced p.length.2 := (block_snd p).trans (body_snd _)

end ScalarPart.Advanced

inductive Part.Advanced : Part → Part → Prop
  | scalar {p q : ScalarPart} : p.Advanced q → Advanced (.scalar p) (.scalar q)
  | file {p q : FilePart} : p.Advanced q → Advanced (.file p) (.file q)

namespace Part.Advanced

theorem refl (part : Part) : part.Advanced part := by
  cases part with
  | scalar p => exact .scalar (.refl p)
  | file p => exact .file (.refl p)

theorem trans {p q r : Part} (first : p.Advanced q) (second : q.Advanced r) : p.Advanced r := by
  cases first with
  | scalar first => cases second with | scalar second => exact .scalar (first.trans second)
  | file first => cases second with | file second => exact .file (first.trans second)

theorem block (part : Part) : part.Advanced part.block.2 := by
  cases part with
  | scalar p => exact .scalar (.block_snd p)
  | file p => exact .file (.block p)

theorem length? (build : Build) (fs : FileSystem) (part : Part) :
    part.Advanced (part.length? build fs).value.2 := by
  cases part with
  | scalar p => exact .scalar (.length p)
  | file p => exact .file (.length? build fs p)

theorem all_refl (parts : List Part) : List.Forall₂ Part.Advanced parts parts :=
  List.forall₂_same.mpr fun part _ => .refl part

theorem all_trans {before between after : List Part}
    (first : List.Forall₂ Part.Advanced before between)
    (second : List.Forall₂ Part.Advanced between after) :
    List.Forall₂ Part.Advanced before after := by
  induction second generalizing before with
  | nil => exact first
  | cons moved _ ih =>
    cases first with
    | cons earlier others => exact .cons (earlier.trans moved) (ih others)

theorem all_set {parts : List Part} {i : Nat} {old new : Part} (h : parts[i]? = some old)
    (moved : old.Advanced new) : List.Forall₂ Part.Advanced parts (parts.set i new) := by
  induction parts generalizing i with
  | nil => cases h
  | cons part parts ih =>
    cases i with
    | zero => cases h; exact .cons moved (all_refl parts)
    | succ i => exact .cons (.refl part) (ih h)

/-- What advancing a file keeps is kept of every file. -/
theorem all_files {P : FilePart → Prop} (keeps : ∀ p q, p.Advanced q → P p → P q)
    {before after : List Part} (moved : List.Forall₂ Part.Advanced before after)
    (held : ∀ p, .file p ∈ before → P p) : ∀ q, .file q ∈ after → P q := by
  induction moved with
  | nil => simp
  | cons moved _ ih =>
    intro q member
    rcases List.mem_cons.mp member with rfl | later
    · cases moved with
      | file moved => exact keeps _ _ moved (held _ List.mem_cons_self)
    · refine ih ?_ q later
      intro p earlier
      exact held p (List.mem_cons_of_mem _ earlier)

end Part.Advanced

/-- A part that was measured, or was not reached. -/
def Part.Measured (build : Build) (fs : FileSystem) (part part' : Part) : Prop :=
  part' = part ∨ part' = (part.length? build fs).value.2

/-- The sizes of some parts are added to a total, one after the other. It stops at the first size that
is not known and at the first sum that is not told. -/
inductive Message.Measures (build : Build) (fs : FileSystem) (boundary : Nat) :
    Nat → List Part → Except Panic (Option Nat) → List Part → Prop
  | ended {total} : Measures build fs boundary total [] (.ok (some total)) []
  | panicked {total part part' rest cause} :
      (part.length? build fs).value = (.error cause, part') →
      Measures build fs boundary total (part :: rest) (.error cause) (part' :: rest)
  | unknown {total part part' rest} :
      (part.length? build fs).value = (.ok none, part') →
      Measures build fs boundary total (part :: rest) (.ok none) (part' :: rest)
  | overflow {total part part' rest n cause} :
      (part.length? build fs).value = (.ok (some n), part') →
      build.addAll total [2 + boundary + 2, n, 2] = .error cause →
      Measures build fs boundary total (part :: rest) (.error cause) (part' :: rest)
  | added {total part part' rest rest' n sum result} :
      (part.length? build fs).value = (.ok (some n), part') →
      build.addAll total [2 + boundary + 2, n, 2] = .ok sum →
      Measures build fs boundary sum rest result rest' →
      Measures build fs boundary total (part :: rest) result (part' :: rest')

namespace Message.Measures

variable {build : Build} {fs : FileSystem} {boundary total : Nat} {parts parts' : List Part}
  {result : Except Panic (Option Nat)}

theorem value_eq (measures : Measures build fs boundary total parts result parts') :
    (partsLength? build fs boundary total parts).value = (result, parts') := by
  induction measures with
  | ended => rfl
  | panicked told | unknown told => simp only [partsLength?, Traced.value_bind, told]; rfl
  | overflow told sum => simp only [partsLength?, Traced.value_bind, told, sum, Traced.value_pure]
  | added told sum _ ih =>
    simp only [partsLength?, Traced.value_bind, told, sum, Traced.value_pure, ih]

theorem of_partsLength? (build : Build) (fs : FileSystem) (boundary total : Nat)
    (parts : List Part) :
    Measures build fs boundary total parts (partsLength? build fs boundary total parts).value.1
      (partsLength? build fs boundary total parts).value.2 := by
  suffices exists_measures : ∃ result parts',
      Measures build fs boundary total parts result parts' by
    obtain ⟨result, parts', measures⟩ := exists_measures
    rw [measures.value_eq]
    exact measures
  induction parts generalizing total with
  | nil => exact ⟨_, _, .ended⟩
  | cons part rest ih =>
    obtain ⟨length, part', told⟩ : ∃ length part',
        (part.length? build fs).value = (length, part') := ⟨_, _, rfl⟩
    rcases length with cause | - | n
    · exact ⟨_, _, .panicked told⟩
    · exact ⟨_, _, .unknown told⟩
    · cases sum : build.addAll total [2 + boundary + 2, n, 2] with
      | error cause => exact ⟨_, _, .overflow told sum⟩
      | ok total =>
        obtain ⟨result, rest', measures⟩ := ih total
        exact ⟨_, _, .added told sum measures⟩

theorem each (measures : Measures build fs boundary total parts result parts') :
    List.Forall₂ (Part.Measured build fs) parts parts' := by
  induction measures with
  | ended => exact .nil
  | panicked told | unknown told | overflow told =>
    exact .cons (.inr (by rw [told])) (List.forall₂_same.mpr fun _ _ => .inl rfl)
  | added told _ _ ih => exact .cons (.inr (by rw [told])) ih

theorem advanced (measures : Measures build fs boundary total parts result parts') :
    List.Forall₂ Part.Advanced parts parts' := by
  refine measures.each.imp ?_
  rintro part part' (same | measured)
  · exact same ▸ .refl part
  · exact measured ▸ .length? build fs part

/-- The sum stops at the same part in lists whose parts tell the same. -/
theorem related {R : Part → Part → Prop} {others : List Part}
    (same : ∀ part other, R part other →
      (other.length? build fs).value.1 = (part.length? build fs).value.1 ∧
        R (part.length? build fs).value.2 (other.length? build fs).value.2)
    (measures : Measures build fs boundary total parts result parts')
    (relates : List.Forall₂ R parts others) :
    ∃ others', Measures build fs boundary total others result others' ∧
      List.Forall₂ R parts' others' := by
  have moves {part part' other : Part} {length : Except Panic (Option Nat)}
      (relates : R part other) (here : (part.length? build fs).value = (length, part')) :
      ∃ other', (other.length? build fs).value = (length, other') ∧ R part' other' := by
    obtain ⟨told, moved⟩ := same part other relates
    rw [here] at told moved
    exact ⟨(other.length? build fs).value.2, Prod.ext told rfl, moved⟩
  induction measures generalizing others with
  | ended =>
    cases relates
    exact ⟨[], .ended, .nil⟩
  | panicked here =>
    obtain _ | ⟨first, rest⟩ := relates
    obtain ⟨_, there, moved⟩ := moves first here
    exact ⟨_, .panicked there, .cons moved rest⟩
  | unknown here =>
    obtain _ | ⟨first, rest⟩ := relates
    obtain ⟨_, there, moved⟩ := moves first here
    exact ⟨_, .unknown there, .cons moved rest⟩
  | overflow here failed =>
    obtain _ | ⟨first, rest⟩ := relates
    obtain ⟨_, there, moved⟩ := moves first here
    exact ⟨_, .overflow there failed, .cons moved rest⟩
  | added here sum _ ih =>
    obtain _ | ⟨first, rest⟩ := relates
    obtain ⟨_, there, moved⟩ := moves first here
    obtain ⟨_, others, later⟩ := ih rest
    exact ⟨_, .added there sum others, .cons moved later⟩

end Message.Measures

/-- The same message, the parts of which may have been advanced. -/
structure Message.Advanced (m m' : Message) : Prop where
  boundary : m'.boundary = m.boundary
  parts : List.Forall₂ Part.Advanced m.parts m'.parts

namespace Message.Advanced

variable {m m' m'' : Message}

theorem refl (m : Message) : m.Advanced m := ⟨rfl, Part.Advanced.all_refl m.parts⟩

theorem trans (first : m.Advanced m') (second : m'.Advanced m'') : m.Advanced m'' :=
  ⟨second.boundary.trans first.boundary, Part.Advanced.all_trans first.parts second.parts⟩

theorem setPart {i : Nat} {old new : Part} (h : m.parts[i]? = some old)
    (moved : old.Advanced new) : m.Advanced (m.setPart i new) :=
  ⟨rfl, Part.Advanced.all_set h moved⟩

theorem length? (build : Build) (fs : FileSystem) (m : Message) :
    m.Advanced (m.length? build fs).value.2 :=
  ⟨rfl, (Measures.of_partsLength? build fs _ 0 m.parts).advanced⟩

theorem requestHeaders_message (build : Build) (fs : FileSystem) (m : Message) :
    (m.requestHeaders build fs).value.2 = (m.length? build fs).value.2 := by
  simp only [Message.requestHeaders, Traced.value_bind]
  split <;> rfl

end Message.Advanced

namespace MessageProducer

variable (fs : FileSystem) (p : MessageProducer)

theorem advanced_next : p.message.Advanced (p.next fs).value.2.message := by
  obtain ⟨item, q, gives⟩ := exists_gives fs p
  rw [next_of_gives fs gives]
  cases gives with
  | block h => exact .setPart h (.block _)
  | scalar h => exact .setPart h (.scalar (.body_snd _))
  | chunk h step | failure h step | bodyEnd h step => exact .setPart h (.file (.of_pull step))
  | delimiter | closing | trailer | done | noPart | noScalar | noFile => exact .refl _

theorem advanced_poll : p.message.Advanced (p.poll fs).value.2.message := by
  obtain ⟨answer, q, tells⟩ := exists_tells fs p
  rw [poll_of_tells fs tells]
  cases tells with
  | gives _ gives =>
    have moved := advanced_next fs p
    rw [next_of_gives fs gives] at moved
    exact moved
  | asks h source _ => exact .setPart h (.file (.of_stream source))

end MessageProducer

namespace Message

theorem Advanced.encode (build : Build) (fs : FileSystem) (m : Message) :
    m.Advanced (m.encode build fs).value.2 := by
  have measured := Advanced.length? build fs m
  have moves (p : MessageProducer) (before : (m.length? build fs).value.2.Advanced p.message) :
      (m.length? build fs).value.2.Advanced (p.next fs).value.2.message :=
    before.trans (MessageProducer.advanced_next fs p)
  simp only [Message.encode, Traced.value_bind]
  split
  · exact measured
  · split
    · exact measured
    · exact measured.trans (Requests.collect_invariant fs moves _ { message := _ } (.refl _))

/-- What can be done with a message. A producer is asked a number of times and then given up. -/
inductive Operation
  | length (build : Build) (fs : FileSystem)
  | headers (build : Build) (fs : FileSystem)
  | encode (build : Build) (fs : FileSystem)
  | iterate (world : World) (requests : Nat)
  | await (world : World) (requests : Nat)

def apply (m : Message) : Operation → Message
  | .length build fs => (m.length? build fs).value.2
  | .headers build fs => (m.requestHeaders build fs).value.2
  | .encode build fs => (m.encode build fs).value.2
  | .iterate world requests =>
    (Requests.after MessageProducer.next world { message := m } requests).message
  | .await world requests =>
    (Requests.after MessageProducer.poll world { message := m } requests).message

def applyAll (m : Message) (operations : List Operation) : Message := operations.foldl apply m

theorem Advanced.apply (m : Message) (operation : Operation) :
    m.Advanced (m.apply operation) := by
  cases operation with
  | length build fs => exact .length? build fs m
  | headers build fs =>
    rw [Message.apply, Advanced.requestHeaders_message]
    exact .length? build fs m
  | encode build fs => exact .encode build fs m
  | iterate world requests =>
    refine Requests.after_invariant (P := fun p => m.Advanced p.message) MessageProducer.next world
      { message := m } (.refl m) ?_ requests
    intro fs p before
    exact before.trans (MessageProducer.advanced_next fs p)
  | await world requests =>
    refine Requests.after_invariant (P := fun p => m.Advanced p.message) MessageProducer.poll world
      { message := m } (.refl m) ?_ requests
    intro fs p before
    exact before.trans (MessageProducer.advanced_poll fs p)

theorem Advanced.applyAll (m : Message) (operations : List Operation) :
    m.Advanced (m.applyAll operations) := by
  induction operations generalizing m with
  | nil => exact .refl m
  | cons operation operations ih => exact (Advanced.apply m operation).trans (ih _)

end Message

end Multipart
