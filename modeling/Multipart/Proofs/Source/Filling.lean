import Multipart.Proofs.Source.Pieces

/-!
# The reads that fill a chunk

A chunk is filled by single reads, each of which asks for what is still missing. A read that is
interrupted is made again, and one that comes back empty or fails is the last. `Filled` follows
these reads one by one. What they give is settled, and it is what `fill` gives at once.
-/

namespace Multipart

/-- A directory is the one node that does not read. -/
theorem FileSystem.eq_isDirectory_of_content {fs : FileSystem} {id : Files.NodeId}
    {e : SystemError} (failed : fs.content id = .error e) : e = .isDirectory := by
  unfold content at failed
  split at failed <;> cases failed
  rfl

namespace Reader

/-- What the reads for `limit` octets give together, and the reader that they leave. -/
inductive Filled (fs : FileSystem) : Nat → Reader → Except SystemError Bytes → Reader → Prop
  | full {reader} : Filled fs 0 reader (.ok []) reader
  | ended {limit reader rest} : 0 < limit → reader.read fs limit = (.ok [], rest) →
      Filled fs limit reader (.ok []) rest
  | more {limit reader octets rest answer last} : 0 < limit →
      reader.read fs limit = (.ok octets, rest) → octets ≠ [] →
      Filled fs (limit - octets.length) rest answer last →
      Filled fs limit reader (answer.map (octets ++ ·)) last
  | interrupted {limit reader rest answer last} : 0 < limit →
      reader.read fs limit = (.error .interrupted, rest) → Filled fs limit rest answer last →
      Filled fs limit reader answer last
  | failed {limit reader rest e} : 0 < limit → reader.read fs limit = (.error e, rest) →
      e ≠ .interrupted → Filled fs limit reader (.error e) rest

variable {fs : FileSystem} {limit : Nat} {reader rest last : Reader} {octets : Bytes}
  {answer : Except SystemError Bytes}

/-- Each read settles whether and how it goes on. -/
theorem Filled.unique (filled : Filled fs limit reader answer last)
    {answer' : Except SystemError Bytes} {last' : Reader}
    (again : Filled fs limit reader answer' last') : answer = answer' ∧ last = last' := by
  -- Two rules for one reader agree on its next read.
  induction filled generalizing answer' last' with
  | full => cases again <;> grind
  | ended => cases again <;> grind
  | more _ _ _ _ ih => cases again <;> grind
  | interrupted _ _ _ ih => cases again <;> grind
  | failed => cases again <;> grind

/-- A reader that holds its octets gives as many as are asked for, or else all of them. -/
theorem Filled.of_read (positive : 0 < limit) (given : reader.read fs limit = (.ok octets, rest))
    (fits : octets.length ≤ limit)
    (dry : octets.length < limit → rest.read fs (limit - octets.length) = (.ok [], rest)) :
    Filled fs limit reader (.ok octets) rest := by
  by_cases nothing : octets = []
  · subst nothing
    exact .ended positive given
  · have enough : Filled fs (limit - octets.length) rest (.ok []) rest := by
      rcases Nat.lt_or_eq_of_le fits with fewer | all
      · exact .ended (Nat.sub_pos_of_lt fewer) (dry fewer)
      · rw [all, Nat.sub_self]
        exact .full
    have filled := Filled.more positive given nothing enough
    rwa [Except.map, List.append_nil] at filled

/-- Octets are only left behind a chunk that is full. -/
theorem drop_eq_nil_of_short (short : (octets.take limit).length < limit) :
    octets.drop limit = [] := by
  rw [List.length_take] at short
  rw [List.drop_eq_nil_iff]
  omega

/-- A reader that moves along its content is dry once a read of it comes back short. -/
theorem filled_window {content : Bytes} {offset : Nat} (positive : 0 < limit)
    (place : Nat → Reader)
    (gives : ∀ limit offset, (place offset).read fs limit =
      (.ok ((content.drop offset).take limit),
        place (offset + ((content.drop offset).take limit).length))) :
    Filled fs limit (place offset) ((place offset).read fs limit).1
      ((place offset).read fs limit).2 := by
  rw [gives]
  refine .of_read positive (gives limit offset) (List.length_take_le _ _) ?_
  intro short
  rw [gives, drop_window, drop_eq_nil_of_short short, List.take_nil, List.length_nil, Nat.add_zero]

theorem read_script (fs : FileSystem) (positive : 0 < limit) (s : Script) :
    (Reader.script s).read fs limit =
      ((Script.readFrom limit s.rest).1,
        .script { s with rest := (Script.readFrom limit s.rest).2 }) := by
  rw [read, if_neg (Nat.ne_of_gt positive)]

theorem filled_gather (s : Script) (limit : Nat) (reads : List ScriptedRead) :
    Filled fs limit (.script { s with rest := reads }) (Script.gather limit reads).1
      (.script { s with rest := (Script.gather limit reads).2 }) := by
  induction reads generalizing limit with
  | nil =>
    rcases Nat.eq_zero_or_pos limit with rfl | positive
    · exact .full
    · exact .ended positive (read_script fs positive _)
  | cons entry reads ih =>
    rcases Nat.eq_zero_or_pos limit with rfl | positive
    · rw [Script.gather_zero]
      exact .full
    have next := read_script fs positive { s with rest := entry :: reads }
    cases entry with
    | interrupted =>
      rw [Script.gather_interrupted positive]
      exact .interrupted positive next (ih limit)
    | failure reason =>
      rw [Script.gather, if_neg (Nat.ne_of_gt positive)]
      exact .failed positive next SystemError.noConfusion
    | data octets =>
      by_cases nothing : octets = []
      · subst nothing
        rw [Script.gather, if_neg (Nat.ne_of_gt positive), if_pos rfl]
        exact .ended positive next
      rcases Nat.lt_or_ge limit octets.length with exceeds | fits
      · rw [Script.readFrom, if_neg (Nat.not_le_of_gt exceeds)] at next
        rw [Script.gather_data_of_exceeds positive exceeds]
        refine .of_read positive next (List.length_take_le limit octets) ?_
        intro short
        rw [List.length_take_of_le (Nat.le_of_lt exceeds)] at short
        exact absurd short (Nat.lt_irrefl limit)
      · rw [Script.readFrom, if_pos fits] at next
        rw [Script.gather_data positive nothing fits]
        exact .more positive next nothing (ih _)

theorem filled_fill (positive : 0 < limit) (reader : Reader) :
    Filled fs limit reader (reader.fill fs limit).1 (reader.fill fs limit).2 := by
  cases reader with
  | script s => exact filled_gather s limit s.rest
  | cursor content offset => exact filled_window positive (.cursor content) fun _ _ => rfl
  | pipe rest =>
    refine .of_read positive rfl (List.length_take_le _ _) ?_
    intro short
    simp only [fill, read, drop_eq_nil_of_short short, List.take_nil, List.drop_nil]
  | file f =>
    cases held : fs.content f.node with
    | ok content =>
      exact filled_window positive (fun offset => .file { f with offset })
        fun limit offset => fill_file (f := { f with offset }) held limit
    | error e =>
      have given : (Reader.file f).fill fs limit = (.error e, .file f) := by
        simp only [fill, read, OpenFile.read, held]
      rw [given]
      refine .failed positive given ?_
      rw [FileSystem.eq_isDirectory_of_content held]
      exact SystemError.noConfusion

/-- What the reads for a chunk give, one after the other, is what `fill` gives. -/
theorem filled_iff (positive : 0 < limit) :
    Filled fs limit reader answer last ↔ reader.fill fs limit = (answer, last) := by
  constructor
  · intro filled
    obtain ⟨same, left⟩ := (filled_fill positive reader).unique filled
    exact Prod.ext same left
  · intro given
    have filled : Filled fs limit reader _ _ := filled_fill positive reader
    rwa [given] at filled

example : ((Reader.script { whole := [.data [1], .interrupted, .data [2, 3]] }).fill .initial 2).1 =
    .ok [1, 2] := by
  rfl

end Reader

end Multipart
