import Multipart.Proofs.Source.Unread

/-!
# Pieces of one size

A reader gives its octets in reads of its own choosing: short ones, with interruptions between them,
and possibly with a failure at the end. `Supplies` says what these octets are and whether a failure
comes after them. The chunks that are read do not show how the octets came: they are the content in
pieces of one size, or all the whole pieces of it before a failure.
-/

namespace Multipart

/-! ## Cutting octets -/

/-- Consecutive pieces of `size` octets. The last one may be shorter, but not empty. -/
inductive Pieces (size : Nat) : Bytes → List Bytes → Prop
  | nil : Pieces size [] []
  | last {octets} : octets ≠ [] → octets.length ≤ size → Pieces size octets [octets]
  | cons {octets pieces} : size < octets.length → Pieces size (octets.drop size) pieces →
      Pieces size octets (octets.take size :: pieces)

/-- As many consecutive pieces of `size` octets as there are. -/
structure WholePieces (size : Nat) (octets : Bytes) (pieces : List Bytes) : Prop where
  flatten : pieces.flatten <+: octets
  whole : ∀ piece ∈ pieces, piece.length = size
  count : pieces.length = octets.length / size

theorem Pieces.flatten {size : Nat} {octets : Bytes} {pieces : List Bytes}
    (cut : Pieces size octets pieces) : pieces.flatten = octets := by
  induction cut with
  | nil => rfl
  | last => simp
  | cons _ _ ih => rw [List.flatten_cons, ih, List.take_append_drop]

theorem Pieces.take_cons {size : Nat} {octets : Bytes} {pieces : List Bytes}
    (nonempty : octets ≠ []) (cut : Pieces size (octets.drop size) pieces) :
    Pieces size octets (octets.take size :: pieces) := by
  by_cases fits : octets.length ≤ size
  · rw [List.drop_of_length_le fits] at cut
    rw [List.take_of_length_le fits]
    cases cut with
    | nil => exact .last nonempty fits
    | last nothing => exact absurd rfl nothing
    | cons exceeds => exact absurd exceeds (Nat.not_lt_zero size)
  · exact .cons (Nat.lt_of_not_le fits) cut

theorem WholePieces.nil {size : Nat} {octets : Bytes} (few : octets.length < size) :
    WholePieces size octets [] where
  flatten := List.nil_prefix
  whole := by simp
  count := by rw [List.length_nil, Nat.div_eq_of_lt few]

theorem WholePieces.take_cons {size : Nat} {octets : Bytes} {pieces : List Bytes}
    (positive : 0 < size) (enough : size ≤ octets.length)
    (cut : WholePieces size (octets.drop size) pieces) :
    WholePieces size octets (octets.take size :: pieces) where
  flatten := by
    obtain ⟨rest, parted⟩ := cut.flatten
    refine ⟨rest, ?_⟩
    rw [List.flatten_cons, List.append_assoc, parted, List.take_append_drop]
  whole := by
    intro piece member
    rcases List.mem_cons.mp member with rfl | member
    · exact List.length_take_of_le enough
    · exact cut.whole piece member
  count := by
    rw [List.length_cons, cut.count, List.length_drop, Nat.div_eq_sub_div positive enough]

/-- The chunks that come of some octets: all of them in pieces, or the whole pieces before a
failure. -/
def ChunksOf (size : ChunkSize) (octets : Bytes) : Option SystemError → List Bytes → Prop
  | none, chunks => Pieces size.val octets chunks
  | some _, chunks => WholePieces size.val octets chunks

theorem ChunksOf.take_cons {size : ChunkSize} {octets : Bytes} {failure : Option SystemError}
    {chunks : List Bytes} (nonempty : octets ≠ []) (full : failure ≠ none → size.val ≤ octets.length)
    (cut : ChunksOf size (octets.drop size.val) failure chunks) :
    ChunksOf size octets failure (octets.take size.val :: chunks) := by
  cases failure with
  | none => exact Pieces.take_cons nonempty cut
  | some e => exact WholePieces.take_cons size.property (full nofun) cut

/-! ## What a script supplies -/

/-- A read that gives octets, or is to be repeated. -/
def ScriptedRead.Proceeds : ScriptedRead → Prop
  | .data octets => octets ≠ []
  | .interrupted => True
  | .failure _ => False

/-- A read that finds the end, or is to be repeated. -/
def ScriptedRead.FindsEnd : ScriptedRead → Prop
  | .data octets => octets = []
  | .interrupted => True
  | .failure _ => False

namespace Script

variable {before beyond : List ScriptedRead} {limit : Nat}

theorem gather_zero (reads : List ScriptedRead) : gather 0 reads = (.ok [], reads) := by
  rcases reads with - | ⟨- | - | -, -⟩ <;> rfl

theorem gather_interrupted (positive : 0 < limit) (reads : List ScriptedRead) :
    gather limit (.interrupted :: reads) = gather limit reads := by
  rw [gather, if_neg (Nat.ne_of_gt positive)]

theorem gather_data (positive : 0 < limit) {octets : Bytes} (nonempty : octets ≠ [])
    (fits : octets.length ≤ limit) (reads : List ScriptedRead) :
    gather limit (.data octets :: reads) =
      ((gather (limit - octets.length) reads).1.map (octets ++ ·),
        (gather (limit - octets.length) reads).2) := by
  rw [gather, if_neg (Nat.ne_of_gt positive), if_neg nonempty, if_pos fits]

theorem gather_data_of_exceeds (positive : 0 < limit) {octets : Bytes}
    (exceeds : limit < octets.length) (reads : List ScriptedRead) :
    gather limit (.data octets :: reads) =
      (.ok (octets.take limit), .data (octets.drop limit) :: reads) := by
  have nonempty : octets ≠ [] := List.length_pos_iff.mp (Nat.zero_lt_of_lt exceeds)
  rw [gather, if_neg (Nat.ne_of_gt positive), if_neg nonempty, if_neg (Nat.not_le_of_gt exceeds)]

theorem gather_of_enough (proceeds : ∀ read ∈ before, read.Proceeds)
    (enough : limit ≤ (unread before).length) (tail : List ScriptedRead) :
    ∃ rest, gather limit (before ++ tail) = (.ok ((unread before).take limit), rest ++ tail) ∧
      unread rest = (unread before).drop limit ∧ ∀ read ∈ rest, read.Proceeds := by
  induction before generalizing limit with
  | nil =>
    obtain rfl : limit = 0 := Nat.le_zero.mp enough
    exact ⟨[], gather_zero _, rfl, proceeds⟩
  | cons read before ih =>
    rcases Nat.eq_zero_or_pos limit with rfl | positive
    · exact ⟨read :: before, gather_zero _, rfl, proceeds⟩
    obtain ⟨proceeding, others⟩ := List.forall_mem_cons.mp proceeds
    cases read with
    | failure => exact proceeding.elim
    | interrupted =>
      rw [List.cons_append, gather_interrupted positive]
      exact ih others enough
    | data octets =>
      rw [unread_cons, ScriptedRead.octets] at enough ⊢
      by_cases fits : octets.length ≤ limit
      · have enough : limit - octets.length ≤ (unread before).length := by
          rw [List.length_append] at enough
          omega
        obtain ⟨rest, gathered, unread_rest, proceeds_rest⟩ := ih others enough
        refine ⟨rest, ?_, ?_, proceeds_rest⟩
        · rw [List.cons_append, gather_data positive proceeding fits, gathered, List.take_append,
            List.take_of_length_le fits]
          rfl
        · rw [unread_rest, List.drop_append, List.drop_of_length_le fits, List.nil_append]
      · have exceeds := Nat.lt_of_not_le fits
        refine ⟨.data (octets.drop limit) :: before, ?_, ?_, ?_⟩
        · rw [List.cons_append, gather_data_of_exceeds positive exceeds,
            List.take_append_of_le_length (Nat.le_of_lt exceeds)]
          rfl
        · rw [unread_cons, ScriptedRead.octets, List.drop_append_of_le_length (Nat.le_of_lt exceeds)]
        · refine List.forall_mem_cons.mpr ⟨?_, others⟩
          exact mt List.drop_eq_nil_iff.mp fits

/-- Fewer octets are gathered only at the end. -/
theorem gather_of_end (proceeds : ∀ read ∈ before, read.Proceeds)
    (ends : ∀ read ∈ beyond, read.FindsEnd) (few : (unread before).length < limit) :
    ∃ rest, gather limit (before ++ beyond) = (.ok (unread before), rest) ∧
      ∀ read ∈ rest, read.FindsEnd := by
  have positive := Nat.zero_lt_of_lt few
  induction before generalizing limit with
  | nil =>
    rw [List.nil_append]
    induction beyond with
    | nil => exact ⟨[], rfl, ends⟩
    | cons read beyond ih =>
      obtain ⟨ending, others⟩ := List.forall_mem_cons.mp ends
      cases read with
      | failure => exact ending.elim
      | interrupted =>
        rw [gather_interrupted positive]
        exact ih others
      | data octets =>
        obtain rfl : octets = [] := ending
        exact ⟨beyond, by rw [gather, if_neg (Nat.ne_of_gt positive), if_pos rfl]; rfl, others⟩
  | cons read before ih =>
    obtain ⟨proceeding, others⟩ := List.forall_mem_cons.mp proceeds
    cases read with
    | failure => exact proceeding.elim
    | interrupted =>
      rw [List.cons_append, gather_interrupted positive]
      exact ih others few positive
    | data octets =>
      rw [unread_cons, ScriptedRead.octets, List.length_append] at few
      have fewer : (unread before).length < limit - octets.length := by omega
      obtain ⟨rest, gathered, ends_rest⟩ := ih others fewer (Nat.zero_lt_of_lt fewer)
      refine ⟨rest, ?_, ends_rest⟩
      rw [List.cons_append, gather_data positive proceeding (by omega), gathered]
      rfl

/-- What is gathered before an end, and what is left of it. -/
theorem gather_ok (proceeds : ∀ read ∈ before, read.Proceeds)
    (ends : ∀ read ∈ beyond, read.FindsEnd) :
    ∃ rest tail,
      gather limit (before ++ beyond) = (.ok ((unread before).take limit), rest ++ tail) ∧
      unread rest = (unread before).drop limit ∧ (∀ read ∈ rest, read.Proceeds) ∧
      ∀ read ∈ tail, read.FindsEnd := by
  rcases Nat.lt_or_ge (unread before).length limit with few | enough
  · obtain ⟨tail, gathered, ends_tail⟩ := gather_of_end proceeds ends few
    refine ⟨[], tail, ?_, ?_, List.forall_mem_nil _, ends_tail⟩
    · rw [gathered, List.take_of_length_le (Nat.le_of_lt few), List.nil_append]
    · rw [List.drop_of_length_le (Nat.le_of_lt few)]
      rfl
  · obtain ⟨rest, gathered, unread_rest, proceeds_rest⟩ := gather_of_enough proceeds enough beyond
    exact ⟨rest, beyond, gathered, unread_rest, proceeds_rest, ends⟩

/-- A failure that is met loses the octets before it. -/
theorem gather_of_failure (proceeds : ∀ read ∈ before, read.Proceeds)
    (few : (unread before).length < limit) (reason : String) (tail : List ScriptedRead) :
    gather limit (before ++ .failure reason :: tail) = (.error (.other reason), tail) := by
  have positive := Nat.zero_lt_of_lt few
  induction before generalizing limit with
  | nil => rw [List.nil_append, gather, if_neg (Nat.ne_of_gt positive)]
  | cons read before ih =>
    obtain ⟨proceeding, others⟩ := List.forall_mem_cons.mp proceeds
    cases read with
    | failure => exact proceeding.elim
    | interrupted =>
      rw [List.cons_append, gather_interrupted positive]
      exact ih others few positive
    | data octets =>
      rw [unread_cons, ScriptedRead.octets, List.length_append] at few
      have fewer : (unread before).length < limit - octets.length := by omega
      have gathered := ih others fewer (Nat.zero_lt_of_lt fewer)
      rw [List.cons_append, gather_data positive proceeding (by omega), gathered]
      rfl

end Script

/-! ## What a reader supplies -/

namespace Reader

/-- From request `n` on a reader supplies some octets, and after them a failure or its end. A file
keeps its content up to the request that finds it failing. -/
inductive Supplies (world : World) (size : ChunkSize) (n : Nat) :
    Reader → Bytes → Option SystemError → Prop
  | cursor (content : Bytes) (offset : Nat) :
      Supplies world size n (.cursor content offset) (content.drop offset) none
  | pipe (rest : Bytes) : Supplies world size n (.pipe rest) rest none
  | file {f content} :
      (∀ k, (world (n + k)).content f.node = .ok content) →
      Supplies world size n (.file f) (content.drop f.offset) none
  | fileFailing {f content e j} :
      (∀ k < j, (world (n + k)).content f.node = .ok content) →
      (world (n + j)).content f.node = .error e →
      j * size.val ≤ (content.drop f.offset).length →
      Supplies world size n (.file f) ((content.drop f.offset).take (j * size.val)) (some e)
  | script {s before beyond} :
      s.rest = before ++ beyond → (∀ read ∈ before, read.Proceeds) →
      (∀ read ∈ beyond, read.FindsEnd) →
      Supplies world size n (.script s) (Script.unread before) none
  | scriptFailing {s before reason tail} :
      s.rest = before ++ .failure reason :: tail → (∀ read ∈ before, read.Proceeds) →
      Supplies world size n (.script s) (Script.unread before) (some (.other reason))

variable {world : World} {size : ChunkSize} {n : Nat} {reader : Reader} {octets : Bytes}
  {failure : Option SystemError}

theorem drop_window (content : Bytes) (offset limit : Nat) :
    content.drop (offset + ((content.drop offset).take limit).length) =
      (content.drop offset).drop limit := by
  have parted := take_append_drop_window content offset limit
  have same := parted.trans (List.take_append_drop limit (content.drop offset)).symm
  exact List.append_cancel_left same

theorem fill_file {f : OpenFile} {content : Bytes} {fs : FileSystem}
    (held : fs.content f.node = .ok content) (limit : Nat) :
    (Reader.file f).fill fs limit =
      (.ok ((content.drop f.offset).take limit),
        .file { f with offset := f.offset + ((content.drop f.offset).take limit).length }) := by
  simp only [fill, read, OpenFile.read, held]

/-- A file that a later request finds failing has moved past one chunk. -/
theorem Supplies.fileFailing_drop {f : OpenFile} {content : Bytes} {e : SystemError} {j : Nat}
    (held : ∀ k < j + 1, (world (n + k)).content f.node = .ok content)
    (failed : (world (n + (j + 1))).content f.node = .error e)
    (long : (j + 1) * size.val ≤ (content.drop f.offset).length) :
    Supplies world size (n + 1)
      (.file { f with offset := f.offset + ((content.drop f.offset).take size.val).length })
      (((content.drop f.offset).take ((j + 1) * size.val)).drop size.val) (some e) := by
  rw [List.drop_take, Nat.succ_mul, Nat.add_sub_cancel, ← drop_window]
  refine .fileFailing ?_ ?_ ?_
  · intro k early
    rw [Nat.add_right_comm]
    exact held (k + 1) (Nat.succ_lt_succ early)
  · rw [Nat.add_right_comm]
    exact failed
  · rw [Nat.succ_mul] at long
    rw [drop_window, List.length_drop]
    exact Nat.le_sub_of_add_le long

/-- A read of a chunk takes `size` octets, or all that are left if no failure comes after them. -/
theorem Supplies.fill_ok (supplies : reader.Supplies world size n octets failure)
    (enough : failure ≠ none → size.val ≤ octets.length) :
    ∃ rest, reader.fill (world n) size.val = (.ok (octets.take size.val), rest) ∧
      rest.Supplies world size (n + 1) (octets.drop size.val) failure := by
  cases supplies with
  | cursor content offset =>
    refine ⟨_, rfl, ?_⟩
    rw [← drop_window]
    exact .cursor content _
  | pipe => exact ⟨_, rfl, .pipe _⟩
  | @file f content held =>
    refine ⟨_, fill_file (held 0) size.val, ?_⟩
    rw [← drop_window]
    refine .file ?_
    intro k
    rw [Nat.add_right_comm]
    exact held (k + 1)
  | @fileFailing f content e j held failed long =>
    have enough := enough (Option.some_ne_none e)
    rw [List.length_take_of_le long] at enough
    cases j with
    | zero =>
      rw [Nat.zero_mul] at enough
      exact absurd enough (Nat.not_le_of_gt size.property)
    | succ j =>
      refine ⟨_, ?_, fileFailing_drop held failed long⟩
      rw [List.take_take, Nat.min_eq_left enough]
      exact fill_file (held 0 (Nat.succ_pos j)) size.val
  | @script s before beyond written proceeds ends =>
    obtain ⟨rest, tail, gathered, unread_rest, proceeds_rest, ends_tail⟩ :=
      Script.gather_ok proceeds ends
    refine ⟨.script { s with rest := rest ++ tail }, ?_, ?_⟩
    · rw [fill, written, gathered]
    · rw [← unread_rest]
      exact .script rfl proceeds_rest ends_tail
  | @scriptFailing s before reason tail written proceeds =>
    obtain ⟨rest, gathered, unread_rest, proceeds_rest⟩ :=
      Script.gather_of_enough proceeds (enough (Option.some_ne_none _)) (.failure reason :: tail)
    refine ⟨.script { s with rest := rest ++ .failure reason :: tail }, ?_, ?_⟩
    · rw [fill, written, gathered]
    · rw [← unread_rest]
      exact .scriptFailing rfl proceeds_rest

/-- A failure is met by the first read that finds fewer octets before it. -/
theorem Supplies.fill_error {e : SystemError}
    (supplies : reader.Supplies world size n octets (some e)) (few : octets.length < size.val) :
    (reader.fill (world n) size.val).1 = .error e := by
  cases supplies with
  | @fileFailing f content _ j held failed long =>
    rw [List.length_take_of_le long] at few
    have first : j = 0 := Nat.eq_zero_of_not_pos fun later =>
      Nat.not_lt_of_ge (Nat.le_mul_of_pos_left size.val later) few
    subst first
    replace failed : (world n).content f.node = .error e := failed
    simp only [fill, read, OpenFile.read, failed]
  | @scriptFailing s before reason tail written proceeds =>
    rw [fill, written, Script.gather_of_failure proceeds few]

/-- Whatever the reads of it give, a reader is read in pieces of one size. -/
theorem Supplies.exists_reads {n : Nat} {reader : Reader} {octets : Bytes}
    (supplies : reader.Supplies world size n octets failure) (fits : size.val ≤ largestBuffer)
    (origin : Option Path) :
    ∃ chunks, ChunksOf size octets failure chunks ∧
      Reads world size origin n reader ⟨chunks, failure.map (.io origin)⟩ := by
  by_cases enough : size.val ≤ octets.length ∨ failure = none ∧ octets ≠ []
  · -- A chunk is read, and the rest is shorter.
    have full : failure ≠ none → size.val ≤ octets.length := by
      intro failing
      exact enough.resolve_right fun ended => failing ended.1
    have nonempty : octets ≠ [] := by
      rcases enough with enough | ended
      · exact List.length_pos_iff.mp (Nat.lt_of_lt_of_le size.property enough)
      · exact ended.2
    have taken : octets.take size.val ≠ [] := by
      intro empty
      exact nonempty (take_eq_nil_of_pos size.property empty)
    obtain ⟨rest, filled, supplies⟩ := supplies.fill_ok full
    obtain ⟨chunks, cut, reads⟩ := exists_reads supplies fits origin
    exact ⟨_, cut.take_cons nonempty full, .chunk (chunk_of_fill fits origin filled) taken reads⟩
  · cases failure with
    | none =>
      obtain rfl : octets = [] := by simpa using mt Or.inr enough
      obtain ⟨rest, filled, -⟩ := supplies.fill_ok nofun
      have empty := chunk_of_fill fits origin filled
      rw [List.take_nil] at empty
      exact ⟨[], .nil, .ended (congrArg Prod.fst empty)⟩
    | some e =>
      have few := Nat.lt_of_not_le (mt Or.inl enough)
      have failed := chunk_of_fill_error fits origin (supplies.fill_error few)
      exact ⟨[], WholePieces.nil few, .failed failed⟩
termination_by octets.length
decreasing_by
  rw [List.length_drop]
  exact Nat.sub_lt (List.length_pos_iff.mpr nonempty) size.property

end Reader

end Multipart
