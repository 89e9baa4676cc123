import Multipart.Part.File
import Multipart.Production
import Multipart.Proofs.Requests
import Multipart.Proofs.Success
import Multipart.Source.Extent

/-!
# Reading a source to its end

`Reads` says which chunks a reader gives, one at each request, until one is empty or fails. While
files stay as they are, `Reader.outcome` is all that is read in this way, and `Reader.left` bounds
the number of chunks.
-/

namespace Multipart

/-- What a body gives from its beginning to its end, or to the failure that cuts it short. -/
structure Rendered where
  chunks : List Bytes
  failure : Option EncodingError
  deriving DecidableEq, Repr

namespace Rendered

def add (chunk : Bytes) (r : Rendered) : Rendered := { r with chunks := chunk :: r.chunks }

def items (r : Rendered) : List Item := r.chunks.map .ok ++ r.failure.toList.map .error

/-- All octets, unless there was a failure. -/
def outcome (r : Rendered) : Except EncodingError Bytes :=
  match r.failure with
  | none => .ok r.chunks.flatten
  | some e => .error e

@[simp] theorem failure_add (chunk : Bytes) (r : Rendered) :
    (r.add chunk).failure = r.failure := rfl

@[simp] theorem chunks_add (chunk : Bytes) (r : Rendered) :
    (r.add chunk).chunks = chunk :: r.chunks := rfl

/-- The first chunk takes one request and the others those that follow. -/
theorem add_length_chunks_add (n : Nat) (chunk : Bytes) (r : Rendered) :
    n + (r.add chunk).chunks.length = n + 1 + r.chunks.length := by
  rw [chunks_add, List.length_cons]
  omega

@[simp] theorem items_add (chunk : Bytes) (r : Rendered) :
    (r.add chunk).items = .ok chunk :: r.items := rfl

@[simp] theorem outcome_add (chunk : Bytes) (r : Rendered) :
    (r.add chunk).outcome = r.outcome.map (chunk ++ ·) := by
  obtain ⟨chunks, failure⟩ := r
  cases failure <;> rfl

theorem items_eq_map_ok_iff {r : Rendered} {chunks : List Bytes} :
    r.items = chunks.map .ok ↔ r = ⟨chunks, none⟩ := by
  constructor
  · intro same
    obtain ⟨pieces, failure⟩ := r
    cases failure with
    | none =>
      have pieces_eq : pieces = chunks := by
        apply (List.map_inj_right fun _ _ => Except.ok.inj).mp
        simpa [items] using same
      rw [pieces_eq]
    | some e =>
      have failed : (.error e : Item) ∈ chunks.map .ok := by
        rw [← same]
        simp [items]
      simp at failed
  · rintro rfl
    simp [items]

end Rendered

namespace Script

@[simp] theorem extentOf_nil : extentOf [] = 0 := rfl

@[simp] theorem extentOf_cons (read : ScriptedRead) (rest : List ScriptedRead) :
    extentOf (read :: rest) = read.extent + extentOf rest := rfl

/-- What an answer takes from a script: the octets that are given, or the failure. -/
def cost : Except SystemError Bytes → Nat
  | .ok octets => octets.length
  | .error _ => 1

theorem cost_map_append (octets : Bytes) (answer : Except SystemError Bytes) :
    cost (answer.map (octets ++ ·)) ≤ octets.length + cost answer := by
  cases answer <;> simp [cost, Except.map]

theorem extentOf_gather (limit : Nat) (reads : List ScriptedRead) :
    extentOf (gather limit reads).2 + cost (gather limit reads).1 ≤ extentOf reads := by
  fun_induction gather limit reads with
  | case1 | case2 | case4 | case6 => simp [cost]
  | case3 limit rest _ ih => simpa [ScriptedRead.extent] using ih
  | case5 limit reason rest _ => simp [cost, ScriptedRead.extent, Nat.add_comm]
  | case7 limit rest _ => simp [cost]
  | case8 limit octets rest _ _ fits more left gathered ih =>
    rw [gathered] at ih
    have := cost_map_append octets more
    simp only [extentOf_cons, ScriptedRead.extent] at ih ⊢
    omega
  | case9 limit octets rest _ _ exceeds =>
    simp only [cost, extentOf_cons, ScriptedRead.extent, List.length_take, List.length_drop]
    omega

/-- All that the reads of a script give until one comes back empty. -/
def drain (size : ChunkSize) (reads : List ScriptedRead) : Except SystemError Bytes :=
  match _h : gather size.val reads with
  | (.error e, _) => .error e
  | (.ok [], _) => .ok []
  | (.ok (octet :: octets), rest) => (drain size rest).map (octet :: octets ++ ·)
termination_by extentOf reads
decreasing_by
  have := extentOf_gather size.val reads
  simp only [_h, cost, List.length_cons] at this
  omega

end Script

namespace Reader

variable (fs : FileSystem) (size : ChunkSize)

/-- Where reading begins in a new rendering. -/
def rewound (reader : Reader) : Reader :=
  match reader.rewind? with
  | .ok reader => reader
  | .error _ => reader

/-- All that a reader gives from where it stands. -/
def contents : Reader → Except SystemError Bytes
  | .cursor content offset => .ok (content.drop offset)
  | .file f => (fs.content f.node).map (·.drop f.offset)
  | .pipe rest => .ok rest
  | .script s => Script.drain size s.rest

/-- A bound on the number of chunks and failures that are still to come. -/
def left : Reader → Nat
  | .cursor content offset => content.length - offset
  | .file f =>
    match fs.content f.node with
    | .ok content => content.length - f.offset
    | .error _ => 1
  | .pipe rest => rest.length
  | .script s => Script.extentOf s.rest

/-- What is read from an offset on, and what comes after it. -/
theorem take_append_drop_window (content : Bytes) (offset limit : Nat) :
    (content.drop offset).take limit ++
      content.drop (offset + ((content.drop offset).take limit).length) = content.drop offset := by
  rw [← List.drop_drop, List.length_take]
  by_cases all : (content.drop offset).length ≤ limit
  · rw [Nat.min_eq_right all, List.take_of_length_le all, List.drop_length, List.append_nil]
  · rw [Nat.min_eq_left (by omega)]
    exact List.take_append_drop limit _

theorem take_eq_nil_of_pos {octets : Bytes} {limit : Nat} (positive : 0 < limit)
    (empty : octets.take limit = []) : octets = [] := by
  rcases List.take_eq_nil_iff.mp empty with zero | rfl
  · omega
  · rfl

theorem contents_of_fill_empty {reader : Reader}
    (ended : (reader.fill fs size.val).1 = .ok []) : reader.contents fs size = .ok [] := by
  cases reader with
  | cursor content offset =>
    have empty : (content.drop offset).take size.val = [] := by simpa [fill, read] using ended
    rw [contents, take_eq_nil_of_pos size.property empty]
  | file f =>
    simp only [fill, read, OpenFile.read] at ended
    cases held : fs.content f.node with
    | error e => simp [held] at ended
    | ok content =>
      have empty : (content.drop f.offset).take size.val = [] := by simpa [held] using ended
      simp [contents, held, Except.map, take_eq_nil_of_pos size.property empty]
  | pipe rest =>
    have empty : rest.take size.val = [] := by simpa [fill, read] using ended
    rw [contents, take_eq_nil_of_pos size.property empty]
  | script s =>
    have gathered : (Script.gather size.val s.rest).1 = .ok [] := by simpa [fill] using ended
    rw [contents, Script.drain]
    split <;> simp_all

theorem contents_of_fill_error {reader : Reader} {e : SystemError}
    (failed : (reader.fill fs size.val).1 = .error e) :
    reader.contents fs size = .error e ∧ 0 < reader.left fs := by
  cases reader with
  | cursor content offset => simp [fill, read] at failed
  | file f =>
    simp only [fill, read, OpenFile.read] at failed
    cases held : fs.content f.node with
    | error cause => simpa [contents, left, held, Except.map] using failed
    | ok content => simp [held] at failed
  | pipe rest => simp [fill, read] at failed
  | script s =>
    have gathered : (Script.gather size.val s.rest).1 = .error e := by simpa [fill] using failed
    have spent := Script.extentOf_gather size.val s.rest
    rw [gathered, Script.cost] at spent
    refine ⟨?_, by simp only [left]; omega⟩
    rw [contents, Script.drain]
    split <;> simp_all

theorem contents_of_fill_chunk {reader rest : Reader} {octets : Bytes}
    (given : reader.fill fs size.val = (.ok octets, rest)) (nonempty : octets ≠ []) :
    reader.contents fs size = (rest.contents fs size).map (octets ++ ·) ∧
      rest.left fs < reader.left fs := by
  have taken : 0 < octets.length := List.length_pos_iff.mpr nonempty
  cases reader with
  | cursor content offset =>
    simp only [fill, read, Prod.mk.injEq, Except.ok.injEq] at given
    obtain ⟨rfl, rfl⟩ := given
    refine ⟨by simp only [contents, Except.map, take_append_drop_window], ?_⟩
    simp only [left, List.length_take, List.length_drop] at taken ⊢
    omega
  | file f =>
    simp only [fill, read, OpenFile.read] at given
    cases held : fs.content f.node with
    | error e => simp [held] at given
    | ok content =>
      simp only [held, Prod.mk.injEq, Except.ok.injEq] at given
      obtain ⟨rfl, rfl⟩ := given
      refine ⟨by simp only [contents, held, Except.map, take_append_drop_window], ?_⟩
      simp only [left, held, List.length_take, List.length_drop] at taken ⊢
      omega
  | pipe all =>
    simp only [fill, read, Prod.mk.injEq, Except.ok.injEq] at given
    obtain ⟨rfl, rfl⟩ := given
    refine ⟨by simp only [contents, Except.map, List.take_append_drop], ?_⟩
    simp only [left, List.length_take, List.length_drop] at taken ⊢
    omega
  | script s =>
    simp only [fill, Prod.mk.injEq] at given
    obtain ⟨gathered, rfl⟩ := given
    have spent := Script.extentOf_gather size.val s.rest
    rw [gathered, Script.cost] at spent
    refine ⟨?_, by simp only [left]; omega⟩
    rw [contents, Script.drain]
    split <;> simp_all [contents]

/-- All octets of a body that a reader gives from where it stands. -/
def outcome (origin : Option Path) (reader : Reader) : Except EncodingError Bytes :=
  if largestBuffer < size.val then .error (.panic .capacityOverflow)
  else (reader.contents fs size).mapError (.io origin)

section Chunks

variable {fs size} {origin : Option Path} {reader rest : Reader} {octets : Bytes}

theorem chunk_of_exceeds (fs : FileSystem) (origin : Option Path)
    (exceeds : largestBuffer < size.val) (reader : Reader) :
    reader.chunk fs origin size = (.error (.panic .capacityOverflow), reader) := by
  rw [chunk, if_pos exceeds]

theorem chunk_of_le (fs : FileSystem) (origin : Option Path)
    (fits : size.val ≤ largestBuffer) (reader : Reader) :
    reader.chunk fs origin size =
      ((reader.fill fs size.val).1.mapError (.io origin), (reader.fill fs size.val).2) := by
  rw [chunk, if_neg (Nat.not_lt_of_le fits)]

theorem chunk_of_fill (fits : size.val ≤ largestBuffer) (origin : Option Path)
    (filled : reader.fill fs size.val = (.ok octets, rest)) :
    reader.chunk fs origin size = (.ok octets, rest) := by
  rw [chunk_of_le fs origin fits, filled]
  rfl

theorem chunk_of_fill_error {e : SystemError} (fits : size.val ≤ largestBuffer)
    (origin : Option Path) (failed : (reader.fill fs size.val).1 = .error e) :
    (reader.chunk fs origin size).1 = .error (.io origin e) := by
  rw [chunk_of_le fs origin fits, failed]
  rfl

theorem chunk_eq_ok (given : reader.chunk fs origin size = (.ok octets, rest)) :
    size.val ≤ largestBuffer ∧ reader.fill fs size.val = (.ok octets, rest) := by
  rcases Nat.lt_or_ge largestBuffer size.val with exceeds | fits
  · rw [chunk_of_exceeds fs origin exceeds] at given
    cases given
  · rw [chunk_of_le fs origin fits, Prod.mk.injEq] at given
    exact ⟨fits, Prod.ext (eq_ok_of_mapError given.1) given.2⟩

variable (fs)

theorem outcome_of_le (fits : size.val ≤ largestBuffer) :
    reader.outcome fs size origin = (reader.contents fs size).mapError (.io origin) := by
  rw [outcome, if_neg (Nat.not_lt_of_le fits)]

theorem outcome_of_chunk_empty (ended : (reader.chunk fs origin size).1 = .ok []) :
    reader.outcome fs size origin = .ok [] := by
  obtain ⟨fits, filled⟩ := chunk_eq_ok (Prod.ext ended rfl)
  rw [outcome_of_le fs fits, contents_of_fill_empty fs size (congrArg Prod.fst filled)]
  rfl

theorem outcome_of_chunk_error {e : EncodingError}
    (failed : (reader.chunk fs origin size).1 = .error e) :
    reader.outcome fs size origin = .error e := by
  rcases Nat.lt_or_ge largestBuffer size.val with exceeds | fits
  · rw [chunk_of_exceeds fs origin exceeds] at failed
    rw [outcome, if_pos exceeds]
    exact failed
  · rw [chunk_of_le fs origin fits] at failed
    cases filled : (reader.fill fs size.val).1 with
    | ok octets => simp [filled, Except.mapError] at failed
    | error cause =>
      rw [outcome_of_le fs fits, (contents_of_fill_error fs size filled).1, ← failed, filled]

theorem outcome_of_chunk (given : reader.chunk fs origin size = (.ok octets, rest))
    (nonempty : octets ≠ []) :
    reader.outcome fs size origin = (rest.outcome fs size origin).map (octets ++ ·) ∧
      rest.left fs < reader.left fs := by
  obtain ⟨fits, filled⟩ := chunk_eq_ok given
  obtain ⟨whole, fewer⟩ := contents_of_fill_chunk fs size filled nonempty
  refine ⟨?_, fewer⟩
  rw [outcome_of_le fs fits, outcome_of_le fs fits, whole]
  cases rest.contents fs size <;> rfl

end Chunks

theorem left_le (reader : Reader) : reader.left fs ≤ reader.extent fs := by
  cases reader with
  | cursor | pipe => simp [left, extent]
  | file f =>
    simp only [left, extent, FileSystem.extentOf]
    split <;> simp_all
  | script => simp [left, extent, Script.extent]

theorem left_rewound_le (reader : Reader) : reader.rewound.left fs ≤ reader.extent fs := by
  cases reader with
  | cursor content offset => simp [rewound, rewind?, left, extent]
  | file f =>
    simp only [rewound, rewind?, left, extent, FileSystem.extentOf]
    split <;> simp_all
  | pipe rest => simp [rewound, rewind?, left, extent]
  | script s =>
    simp only [rewound, rewind?, extent, Script.extent]
    cases s.rewinding <;> simp [left]

end Reader

/-- Reading on from request `n`: each chunk takes one request, and so does the one that is empty or
fails. -/
inductive Reads (world : World) (size : ChunkSize) (origin : Option Path) :
    Nat → Reader → Rendered → Prop
  | ended {n reader} :
      (reader.chunk (world n) origin size).1 = .ok [] →
      Reads world size origin n reader ⟨[], none⟩
  | failed {n reader e} :
      (reader.chunk (world n) origin size).1 = .error e →
      Reads world size origin n reader ⟨[], some e⟩
  | chunk {n reader rest octets rendered} :
      reader.chunk (world n) origin size = (.ok octets, rest) →
      octets ≠ [] →
      Reads world size origin (n + 1) rest rendered →
      Reads world size origin n reader (rendered.add octets)

namespace Reads

variable {fs : FileSystem} {size : ChunkSize} {origin : Option Path} {n : Nat} {reader : Reader}
  {rendered : Rendered}

theorem outcome_eq (reads : Reads (.still fs) size origin n reader rendered) :
    rendered.outcome = reader.outcome fs size origin := by
  induction reads with
  | ended empty => rw [Reader.outcome_of_chunk_empty fs empty]; rfl
  | failed failure => rw [Reader.outcome_of_chunk_error fs failure]; rfl
  | chunk given nonempty _ ih =>
    rw [(Reader.outcome_of_chunk fs given nonempty).1, Rendered.outcome_add, ih]

theorem length_items_le (reads : Reads (.still fs) size origin n reader rendered) :
    rendered.items.length ≤ reader.left fs + 1 := by
  induction reads with
  | ended => simp [Rendered.items]
  | failed => simp [Rendered.items]
  | chunk given nonempty _ ih =>
    have := (Reader.outcome_of_chunk fs given nonempty).2
    rw [Rendered.items_add, List.length_cons]
    omega

end Reads

end Multipart
