import Multipart.Proofs.Message.Length
import Multipart.Proofs.Message.Twins

/-!
# Rendering anew

A message of which all parts are in memory, on paths or in readers that go back to their beginning
is rendered anew as if nothing had been rendered before. The message that earlier renderings have
moved on is alike to what it was, so producers of the two go in step.
-/

namespace Multipart

/-- The reader goes back to its beginning, wherever it stands. -/
def Reader.Restarts : Reader → Prop
  | .cursor .. | .file _ => True
  | .pipe _ => False
  | .script s => s.rewinding = .restores

def Reader.SameFiles (fs gs : FileSystem) : Reader → Prop
  | .file f => fs.content f.node = gs.content f.node
  | .cursor .. | .pipe _ | .script _ => True

namespace Source

def Restarts : Source → Prop
  | .bytes _ | .text _ | .path _ => True
  | .reader r => r.Restarts
  | .stream _ => False

/-- The files that a source is read from are the same in both. -/
def SameFiles (fs gs : FileSystem) : Source → Prop
  | .path p => fs.openFile p = gs.openFile p ∧
    ∀ reader, fs.openFile p = .ok reader → reader.SameFiles fs gs
  | .reader r => r.SameFiles fs gs
  | .bytes _ | .text _ | .stream _ => True

end Source

theorem Reader.SameFiles.refl (fs : FileSystem) (r : Reader) : r.SameFiles fs fs := by
  cases r <;> trivial

namespace Source

theorem SameFiles.refl (fs : FileSystem) (s : Source) : s.SameFiles fs fs := by
  cases s with
  | path p => exact ⟨rfl, fun reader _ => .refl fs reader⟩
  | reader r => exact Reader.SameFiles.refl fs r
  | bytes | text | stream => trivial

end Source

theorem Reader.steady_of_sameFiles {views : Views} {fs : FileSystem} {r : Reader}
    (same : ∀ a b, views a b → r.SameFiles fs a ∧ r.SameFiles fs b) : r.Steady views := by
  cases r with
  | file f =>
    intro a b seen
    obtain ⟨left, right⟩ := same a b seen
    exact left.symm.trans right
  | cursor | pipe | script => trivial

namespace Source

theorem steady_of_sameFiles {views : Views} {fs : FileSystem} {s : Source}
    (same : ∀ a b, views a b → s.SameFiles fs a ∧ s.SameFiles fs b) : s.Steady views := by
  cases s with
  | path p =>
    intro a b seen
    obtain ⟨⟨left, -⟩, right, -⟩ := same a b seen
    refine ⟨left.symm.trans right, ?_⟩
    intro reader opened
    have opens := left.trans opened
    have unchanged : ∀ a' b', views a' b' → reader.SameFiles fs a' ∧ reader.SameFiles fs b' := by
      intro a' b' seen'
      obtain ⟨⟨-, left'⟩, -, right'⟩ := same a' b' seen'
      exact ⟨left' reader opens, right' reader opens⟩
    exact Reader.steady_of_sameFiles unchanged
  | reader r => exact Reader.steady_of_sameFiles same
  | bytes | text | stream => trivial

end Source

theorem Reader.Advanced.rewound_eq {r s : Reader} (moved : r.Advanced s) (restarts : r.Restarts) :
    s.rewound = r.rewound := by
  cases moved with
  | cursor | file => rfl
  | pipe => exact restarts.elim
  | script s rest =>
    replace restarts : s.rewinding = .restores := restarts
    simp [Reader.rewound, rewind?, restarts]

theorem Source.Advanced.rewound_eq {s t : Source} (moved : s.Advanced t) (restarts : s.Restarts) :
    t.rewound = s.rewound := by
  cases moved with
  | same => rfl
  | reader moved => exact congrArg Source.reader (moved.rewound_eq restarts)
  | stream => exact restarts.elim

namespace Message

/-- Every part can be rendered again from its beginning. -/
def Restarts (m : Message) : Prop := ∀ p, .file p ∈ m.parts → p.source.Restarts

/-- The files that a message is rendered from are the same in both. -/
def SameFiles (m : Message) (fs gs : FileSystem) : Prop :=
  ∀ p, .file p ∈ m.parts → p.source.SameFiles fs gs

theorem Restarts.settled {m : Message} (restarts : m.Restarts) : m.Settled := by
  intro p member
  have restarts := restarts p member
  cases source : p.source with
  | stream => rw [source] at restarts; exact restarts.elim
  | bytes | text | path | reader => rfl

theorem Restarts.alike {views : Views} {m m' : Message} (restarts : m.Restarts)
    (steady : ∀ p, .file p ∈ m.parts → p.source.Steady views) (moved : m.Advanced m') :
    m.Alike views m' := by
  refine ⟨moved.boundary, ?_⟩
  have parts := moved.parts
  rw [Restarts] at restarts
  generalize m.parts = before at parts restarts steady
  generalize m'.parts = later at parts
  induction parts with
  | nil => exact .nil
  | @cons part other parts others moved _ ih =>
    refine .cons ?_ (ih ?_ ?_)
    · cases moved with
      | scalar moved => exact .scalar moved.block moved.body
      | @file f _ moved =>
        have here : Part.file f ∈ Part.file f :: parts := List.mem_cons_self
        exact .file ⟨moved.block_eq, moved.heldBody_eq, moved.chunkSize,
          moved.source.rewound_eq (restarts _ here), steady _ here⟩
    · intro p later
      exact restarts p (List.mem_cons_of_mem _ later)
    · intro p later
      exact steady p (List.mem_cons_of_mem _ later)

end Message

namespace MessageProducer

open Requests

/-- A message that has been moved on gives what it would have given, from files that are the
same. -/
theorem answer_next_of_restarts {m m' : Message} (restarts : m.Restarts) (moved : m.Advanced m')
    {fs : FileSystem} {world : World} (same : ∀ n, m.SameFiles fs (world n)) (n : Nat) :
    answer next world { message := m' } n = answer next (.still fs) { message := m } n := by
  let views : Views := fun a b => m.SameFiles fs a ∧ m.SameFiles fs b
  have steady (p : FilePart) (member : Part.file p ∈ m.parts) : p.source.Steady views := by
    apply Source.steady_of_sameFiles
    intro a b seen
    exact ⟨seen.1 p member, seen.2 p member⟩
  have twins : Twins views { message := m } { message := m' } :=
    .outside (restarts.alike steady moved) rfl
  apply twins.answer_eq
  intro k
  exact ⟨fun p _ => .refl fs p.source, same k⟩

/-- A message that can be rendered again gives the same items in the first rendering and in any
later one, whatever was done with it in between, as long as its files stay the same. -/
theorem restarts_applyAll {m : Message} (restarts : m.Restarts)
    (operations : List Message.Operation) {fs : FileSystem} {first later : World}
    (before : ∀ n, m.SameFiles fs (first n)) (now : ∀ n, m.SameFiles fs (later n)) :
    let old : MessageProducer := { message := m }
    let new : MessageProducer := { message := m.applyAll operations }
    ∃ items,
      (∀ k, answer next first old k = items[k]?) ∧
      (∀ k, answer next later new k = items[k]?) ∧
      (∀ k, answer poll first old k = .ready items[k]?) ∧
      (∀ k, answer poll later new k = .ready items[k]?) ∧
      ∀ build gs, m.SameFiles fs gs →
        (new.message.encode build gs).value.1 =
          Message.inBuffer (new.message.length? build gs).value.1 (joinItems items) := by
  intro old new
  have moved : m.Advanced new.message := .applyAll m operations
  have settled := restarts.settled
  obtain ⟨items, complete, -, -⟩ := exists_completes_still fs m
  have given (k : Nat) : answer next (.still fs) old k = items[k]? := by
    rw [← complete k, Nat.zero_add]
  have old_eq (k : Nat) : answer next first old k = items[k]? := by
    rw [answer_next_of_restarts restarts (.refl m) before, given]
  have new_eq (k : Nat) : answer next later new k = items[k]? := by
    rw [answer_next_of_restarts restarts moved now, given]
  refine ⟨items, old_eq, new_eq, ?_, ?_, ?_⟩
  · intro k
    rw [answer_poll_eq settled, old_eq]
  · intro k
    rw [answer_poll_eq (moved.settled settled), new_eq]
  · intro build gs same
    obtain ⟨others, again, -, joined⟩ := exists_completes_still gs new.message
    have equal : others = items := by
      apply List.ext_getElem?
      intro k
      have sees : ∀ n, m.SameFiles fs (World.still gs n) := fun _ => same
      rw [← again k, Nat.zero_add, answer_next_of_restarts restarts moved sees, given]
    rw [Message.encode_eq, ← joined, equal]

/-- A cursor that stood in the middle when it was given, and a file beside which another one has
appeared. Two renderings were given up before. -/
theorem restarts_applyAll_abandoned :
    let fs : FileSystem := ⟨[.directory 0 [([0x78], 1)], .regular [9, 9]], 0, 0, none⟩
    let gs : FileSystem :=
      ⟨[.directory 0 [([0x78], 1), ([0x79], 2)], .regular [9, 9], .regular []], 0, 0, none⟩
    let f : FilePart :=
      { name := "f"
        filename := none
        headers := .empty
        source := .reader (.cursor [1, 2, 3] 1)
        chunkSize := ⟨2, by decide⟩ }
    let g : FilePart := { name := "g", filename := none, headers := .empty, source := .path [0x78] }
    let m : Message := ⟨⟨[0x42], by decide⟩, [.file f, .file g]⟩
    let operations : List Message.Operation :=
      [.await (.still gs) 3, .iterate (.still .initial) 4, .encode .checked fs]
    m.Restarts ∧ ∃ items : List Item,
      (∀ k, answer next (.still fs) { message := m } k = items[k]?) ∧
      (∀ k, answer next (.still gs) { message := m.applyAll operations } k = items[k]?) ∧
      items[2]? = some (.ok [1, 2]) ∧ items[7]? = some (.ok [9, 9]) := by
  intro fs gs f g m operations
  have parts (P : FilePart → Prop) (first : P f) (second : P g) : ∀ p, .file p ∈ m.parts → P p := by
    intro p member
    simp only [m, List.mem_cons, Part.file.injEq, List.not_mem_nil, or_false] at member
    rcases member with rfl | rfl
    · exact first
    · exact second
  have restarts : m.Restarts := parts _ trivial trivial
  have opened : fs.openFile [0x78] = .ok (.file ⟨1, 0⟩) := by decide
  have same : m.SameFiles fs gs := by
    refine parts (·.source.SameFiles fs gs) trivial ⟨by decide, ?_⟩
    intro reader found
    cases opened.symm.trans found
    exact (by decide : fs.content 1 = gs.content 1)
  obtain ⟨items, old, new, -⟩ := restarts_applyAll restarts operations
    (fun _ => parts (·.source.SameFiles fs fs) (.refl fs _) (.refl fs _)) (fun _ => same)
  refine ⟨restarts, items, old, new, ?_, ?_⟩
  · rw [← old 2]
    decide
  · rw [← old 7]
    decide

end MessageProducer

end Multipart
