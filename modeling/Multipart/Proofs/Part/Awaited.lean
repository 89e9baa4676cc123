import Multipart.Proofs.Part.Content

/-!
# What a waiting producer hears of a body

`Heard` is what is said to a waiting producer from the beginning of a body on: a chunk or the word
that nothing is ready at each request, and at last the end or a failure. A stream says so itself, and
any other content is rendered as by a blocking producer.
-/

namespace Multipart

def Poll.map {α β : Type} (f : α → β) : Poll α → Poll β
  | .ready value => .ready (f value)
  | .notReady => .notReady

structure Heard where
  answers : List (Poll Bytes)
  failure : Option EncodingError
  deriving DecidableEq, Repr

namespace Heard

def add (answer : Poll Bytes) (h : Heard) : Heard := { h with answers := answer :: h.answers }

@[simp] theorem failure_add (answer : Poll Bytes) (h : Heard) :
    (h.add answer).failure = h.failure := rfl

@[simp] theorem answers_add (answer : Poll Bytes) (h : Heard) :
    (h.add answer).answers = answer :: h.answers := rfl

/-- The first answer takes one request and the others those that follow. -/
theorem add_length_answers_add (n : Nat) (answer : Poll Bytes) (h : Heard) :
    n + (h.add answer).answers.length = n + 1 + h.answers.length := by
  rw [answers_add, List.length_cons]
  omega

end Heard

/-- What a stream says up to its end, its first text or its first failure. -/
def Stream.heard : Stream → Heard
  | [] => ⟨[], none⟩
  | .chunk octets :: rest => (heard rest).add (.ready octets)
  | .notReady :: rest => (heard rest).add .notReady
  | .text _ :: _ => ⟨[], some (.invalid .textModeSource)⟩
  | .failure reason :: _ => ⟨[], some (.io none (.other reason))⟩
  | .ended :: _ => ⟨[], none⟩

/-- A body that is always ready. -/
def Rendered.heard (r : Rendered) : Heard := ⟨r.chunks.map .ready, r.failure⟩

@[simp] theorem Rendered.heard_add (octets : Bytes) (r : Rendered) :
    (r.add octets).heard = r.heard.add (.ready octets) := rfl

/-- What is heard of the content of a part that is asked for from request `n` on. -/
inductive Hears (world : World) (n : Nat) : Part → Heard → Prop
  | scalar {p} : Hears world n (.scalar p) ⟨[.ready p.body.1], none⟩
  | stream {p s} : p.source = .stream s → Hears world n (.file p) s.heard
  | file {p rendered} : p.source.isStream = false → Renders world n p.content rendered →
      Hears world n (.file p) rendered.heard

theorem Hears.of_block {world : World} {n : Nat} {p : FilePart} {h : Heard}
    (hears : Hears world n (.file p.block.2) h) : Hears world n (.file p) h := by
  cases hears with
  | stream source => exact .stream source
  | file settled renders => exact .file settled renders

namespace FilePart

/-! ## Bodies come to an end -/

namespace Pulls

variable {world other : World} {n : Nat} {p r : FilePart} {progress : BodyProgress}
  {rendered : Rendered}

theorem congr_world (pulls : Pulls world n p progress rendered r)
    (same : ∀ k, n ≤ k → world k = other k) : Pulls other n p progress rendered r := by
  induction pulls with
  | ended step => exact .ended (same _ (Nat.le_refl _) ▸ step)
  | failed step => exact .failed (same _ (Nat.le_refl _) ▸ step)
  | chunk step _ ih =>
    refine .chunk (same _ (Nat.le_refl _) ▸ step) (ih ?_)
    intro k later
    exact same k (Nat.le_of_succ_le later)

theorem exists_still (fs : FileSystem) (n : Nat) (p : FilePart) (progress : BodyProgress) :
    ∃ rendered r, Pulls (.still fs) n p progress rendered r := by
  cases progress with
  | pending => exact exists_pending fs n p
  | done => exact ⟨_, _, .ended pull_done⟩
  | file path file => exact exists_of_reading fs n .file
  | reader =>
    cases source : p.source with
    | reader reader => exact exists_of_reading fs n (.reader source)
    | bytes | text | path | stream =>
      have ended : (p.pull fs .reader).value = (.ok none, p, .done) := by
        simp [pull, continueBody, source]
      exact ⟨_, _, .ended ended⟩

/-- Once files stay as they are, every body comes to its end or to a failure. -/
theorem exists_until (world : World) (last n : Nat) (p : FilePart) (progress : BodyProgress) :
    ∃ rendered r, Pulls (world.until last) n p progress rendered r := by
  by_cases late : last ≤ n
  · obtain ⟨rendered, r, pulls⟩ := exists_still (world last) n p progress
    refine ⟨rendered, r, pulls.congr_world ?_⟩
    intro k later
    exact (world.until_of_ge (Nat.le_trans late later)).symm
  · obtain ⟨step, q, after, pulled⟩ : ∃ step q after,
        (p.pull (world.until last n) progress).value = (step, q, after) := ⟨_, _, _, rfl⟩
    match step with
    | .error e => exact ⟨_, _, .failed pulled⟩
    | .ok none => exact ⟨_, _, .ended pulled⟩
    | .ok (some octets) =>
      obtain ⟨rendered, r, pulls⟩ := exists_until world last (n + 1) q after
      exact ⟨_, _, .chunk pulled pulls⟩
termination_by last - n

end Pulls

/-- A run of polls from request `n` on, to the end of the body or to a failure. -/
inductive Polls (world : World) : Nat → FilePart → BodyProgress → Heard → FilePart → Prop
  | ended {n p progress q after} :
      (p.poll (world n) progress).value = (.ready (.ok none), q, after) →
      Polls world n p progress ⟨[], none⟩ q
  | failed {n p progress q after e} :
      (p.poll (world n) progress).value = (.ready (.error e), q, after) →
      Polls world n p progress ⟨[], some e⟩ q
  | chunk {n p progress q after octets heard r} :
      (p.poll (world n) progress).value = (.ready (.ok (some octets)), q, after) →
      Polls world (n + 1) q after heard r →
      Polls world n p progress (heard.add (.ready octets)) r
  | waits {n p progress q after heard r} :
      (p.poll (world n) progress).value = (.notReady, q, after) →
      Polls world (n + 1) q progress heard r →
      Polls world n p progress (heard.add .notReady) r

namespace Polls

theorem of_pulls {world : World} {n : Nat} {p r : FilePart} {progress : BodyProgress}
    {rendered : Rendered} (settled : p.source.isStream = false)
    (pulls : Pulls world n p progress rendered r) :
    Polls world n p progress rendered.heard r := by
  induction pulls with
  | ended step => exact .ended (by rw [poll_eq_pull _ settled, step])
  | failed step => exact .failed (by rw [poll_eq_pull _ settled, step])
  | chunk step _ ih =>
    have still := (Advanced.of_pull step).source.isStream_eq.trans settled
    exact .chunk (by rw [poll_eq_pull _ settled, step]) (ih still)

/-- A stream is asked once for each thing that it says. -/
theorem exists_of_stream (world : World) (n : Nat) {p : FilePart} {progress : BodyProgress}
    {s : Stream} (source : p.source = .stream s) (ongoing : progress ≠ .done) :
    ∃ r, Polls world n p progress s.heard r := by
  have polled := poll_stream (world n) source ongoing
  induction s generalizing n p with
  | nil => exact ⟨_, .ended polled⟩
  | cons e rest ih =>
    have onward := poll_stream (p := { p with source := .stream rest }) (world (n + 1)) rfl ongoing
    obtain ⟨r, polls⟩ := ih (n + 1) rfl onward
    cases e with
    | chunk octets => exact ⟨r, .chunk polled polls⟩
    | notReady => exact ⟨r, .waits polled polls⟩
    | text | failure => exact ⟨_, .failed polled⟩
    | ended => exact ⟨_, .ended polled⟩

/-- Once files stay as they are, every body is heard to its end or to a failure. -/
theorem exists_hears (world : World) (last n : Nat) (p : FilePart) :
    ∃ heard r, Polls (world.until last) n p .pending heard r ∧
      Hears (world.until last) n (.file p) heard := by
  cases source : p.source with
  | stream s =>
    have ongoing : BodyProgress.pending ≠ .done := nofun
    obtain ⟨r, polls⟩ := exists_of_stream (world.until last) n source ongoing
    exact ⟨_, r, polls, .stream source⟩
  | bytes | text | path | reader =>
    have settled : p.source.isStream = false := by rw [source]; rfl
    obtain ⟨rendered, r, pulls⟩ := Pulls.exists_until world last n p .pending
    exact ⟨_, r, .of_pulls settled pulls, .file settled pulls.renders⟩

end Polls

end FilePart

end Multipart
