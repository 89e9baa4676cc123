import Multipart.Proofs.Source.Reading

/-!
# What a source has not given yet

A source goes one way if it cannot be taken back to its beginning, never fails and never gives text.
Each read or poll of such a source takes from what is unread the octets that it gives, whatever the
sizes of the reads and however often they are interrupted.
-/

namespace Multipart

def ScriptedRead.octets : ScriptedRead → Bytes
  | .data octets => octets
  | .interrupted | .failure _ => []

def ScriptedRead.Succeeds : ScriptedRead → Prop
  | .data _ | .interrupted => True
  | .failure _ => False

namespace Script

def unread (reads : List ScriptedRead) : Bytes := reads.flatMap ScriptedRead.octets

@[simp] theorem unread_cons (read : ScriptedRead) (rest : List ScriptedRead) :
    unread (read :: rest) = read.octets ++ unread rest := rfl

theorem gather_of_succeeds (limit : Nat) (reads : List ScriptedRead)
    (fine : ∀ read ∈ reads, read.Succeeds) :
    ∃ octets rest, gather limit reads = (.ok octets, rest) ∧
      octets ++ unread rest = unread reads ∧ ∀ read ∈ rest, read.Succeeds := by
  fun_induction gather limit reads with
  | case1 | case2 | case6 => exact ⟨_, _, rfl, rfl, fine⟩
  | case3 limit rest _ ih => exact ih (List.forall_mem_cons.mp fine).2
  | case4 | case5 => exact (List.forall_mem_cons.mp fine).1.elim
  | case7 limit rest _ => exact ⟨_, _, rfl, rfl, (List.forall_mem_cons.mp fine).2⟩
  | case8 limit octets rest _ _ fits more left gathered ih =>
    obtain ⟨taken, left', same, total, still⟩ := ih (List.forall_mem_cons.mp fine).2
    rw [gathered] at same
    cases same
    exact ⟨octets ++ taken, left, rfl, by rw [List.append_assoc, total]; rfl, still⟩
  | case9 limit octets rest _ _ exceeds =>
    refine ⟨_, _, rfl, ?_, ?_⟩
    · simp only [unread_cons, ScriptedRead.octets, ← List.append_assoc, List.take_append_drop]
    · exact List.forall_mem_cons.mpr ⟨trivial, (List.forall_mem_cons.mp fine).2⟩

end Script

def Emission.octets : Emission → Bytes
  | .chunk octets => octets
  | .text _ | .failure _ | .notReady | .ended => []

def Emission.Succeeds : Emission → Prop
  | .chunk _ | .notReady | .ended => True
  | .text _ | .failure _ => False

namespace Stream

def unread (s : Stream) : Bytes := s.flatMap Emission.octets

theorem octets_append_unread (s : Stream) : s.poll.1.octets ++ s.poll.2.unread = s.unread := by
  cases s <;> rfl

theorem succeeds_poll {s : Stream} (fine : ∀ e ∈ s, e.Succeeds) :
    s.poll.1.Succeeds ∧ ∀ e ∈ s.poll.2, e.Succeeds := by
  cases s with
  | nil => exact ⟨trivial, fine⟩
  | cons e rest => exact List.forall_mem_cons.mp fine

end Stream

namespace Reader

/-- The reader stays where it is when a rendering begins, and no read of it fails. -/
def OneWay : Reader → Prop
  | .cursor .. | .file _ => False
  | .pipe _ => True
  | .script s => s.rewinding ≠ .restores ∧ ∀ read ∈ s.rest, read.Succeeds

def unread : Reader → Bytes
  | .pipe rest => rest
  | .script s => Script.unread s.rest
  | .cursor .. | .file _ => []

theorem OneWay.rewound_eq {r : Reader} (oneWay : r.OneWay) : r.rewound = r := by
  cases r with
  | cursor | file => exact oneWay.elim
  | pipe => rfl
  | script s =>
    simp only [rewound, rewind?]
    cases rewinding : s.rewinding with
    | restores => exact absurd rewinding oneWay.1
    | ignores | refuses => rfl

theorem OneWay.fill {r : Reader} (oneWay : r.OneWay) (fs : FileSystem) (limit : Nat) :
    ∃ octets rest, r.fill fs limit = (.ok octets, rest) ∧
      octets ++ rest.unread = r.unread ∧ rest.OneWay := by
  cases r with
  | cursor | file => exact oneWay.elim
  | pipe rest => exact ⟨_, _, rfl, List.take_append_drop limit rest, trivial⟩
  | script s =>
    obtain ⟨octets, rest, gathered, total, fine⟩ :=
      Script.gather_of_succeeds limit s.rest oneWay.2
    refine ⟨octets, .script { s with rest }, ?_, total, oneWay.1, fine⟩
    simp only [Reader.fill, gathered]

/-- A chunk that cannot be allocated takes nothing. -/
theorem OneWay.chunk {r : Reader} (oneWay : r.OneWay) (fs : FileSystem) (origin : Option Path)
    (size : ChunkSize) :
    (r.chunk fs origin size).1.toOption.getD [] ++ (r.chunk fs origin size).2.unread = r.unread ∧
      (r.chunk fs origin size).2.OneWay := by
  rcases Nat.lt_or_ge largestBuffer size.val with exceeds | fits
  · rw [chunk_of_exceeds fs origin exceeds]
    exact ⟨rfl, oneWay⟩
  · obtain ⟨octets, rest, filled, total, still⟩ := oneWay.fill fs size.val
    rw [chunk_of_fill fits origin filled]
    exact ⟨total, still⟩

end Reader

namespace Source

def OneWay : Source → Prop
  | .bytes _ | .text _ | .path _ => False
  | .reader r => r.OneWay
  | .stream s => ∀ e ∈ s, e.Succeeds

/-- The octets that a source which goes one way has not given yet. -/
def unread : Source → Bytes
  | .reader r => r.unread
  | .stream s => s.unread
  | .bytes _ | .text _ | .path _ => []

theorem OneWay.held?_eq {s : Source} (oneWay : s.OneWay) : s.held? = none := by
  cases s with
  | bytes | text => exact oneWay.elim
  | path | reader | stream => rfl

end Source

end Multipart
