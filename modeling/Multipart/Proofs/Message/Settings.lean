import Multipart.Proofs.Message.Built
import Multipart.Proofs.Part.TextMode

/-!
# Settings of a builder

Calls to a builder come in any order and any number. Of each setting the last call that is about it
counts: a configuration is about the read size and, if it has one, the boundary, and a read size of
zero is about nothing. What `build` gives depends on the calls through these settings alone, and it
is refused in three cases, of which the boundary comes first.
-/

namespace Multipart

namespace Builder

inductive Call
  | boundary (given : Bytes)
  | chunkSize (n : Nat)
  | config (c : Config)
  | entropy (e : Entropy)
  | lookup (l : MediaType.Lookup)

def apply (b : Builder) : Call → Builder
  | .boundary given => b.setBoundary given
  | .chunkSize n => b.setChunkSize n
  | .config c => b.configure c
  | .entropy e => b.setEntropy e
  | .lookup l => b.setLookup l

def applyAll (b : Builder) (calls : List Call) : Builder := calls.foldl apply b

namespace Call

def boundary? : Call → Option Bytes
  | .boundary given => some given
  | .config c => c.boundary.map Utf8.encode
  | .chunkSize _ | .entropy _ | .lookup _ => none

/-- A configuration always has a read size: zero stands for the standard one. -/
def readSize? : Call → Option Nat
  | .chunkSize n => if n = 0 then none else some n
  | .config c => some (if c.chunkSize = 0 then 65536 else c.chunkSize)
  | .boundary _ | .entropy _ | .lookup _ => none

def entropy? : Call → Option Entropy
  | .entropy e => some e
  | .boundary _ | .chunkSize _ | .config _ | .lookup _ => none

def lookup? : Call → Option MediaType.Lookup
  | .lookup l => some l
  | .boundary _ | .chunkSize _ | .config _ | .entropy _ => none

/-- The value that the last call about a setting gives it. -/
def last {α : Type} (setting? : Call → Option α) (calls : List Call) : Option α :=
  (calls.filterMap setting?).getLast?

end Call

/-- A setting that each call replaces or leaves is as the last call about it has left it. -/
theorem setting_applyAll {α : Type} (setting : Builder → Option α) (setting? : Call → Option α)
    (step : ∀ b call, setting (apply b call) = (setting? call).or (setting b)) (b : Builder)
    (calls : List Call) :
    setting (b.applyAll calls) = (Call.last setting? calls).or (setting b) := by
  induction calls generalizing b with
  | nil => rfl
  | cons call calls ih =>
    rw [applyAll, List.foldl_cons]
    refine (ih (b.apply call)).trans ?_
    rw [step, Call.last, Call.last, List.filterMap_cons]
    cases about : setting? call with
    | none => rfl
    | some value =>
      rw [Option.some_or, List.getLast?_cons]
      cases (calls.filterMap setting?).getLast? <;> rfl

variable (b : Builder) (calls : List Call)

theorem boundary_applyAll :
    (b.applyAll calls).boundary = (Call.last Call.boundary? calls).or b.boundary := by
  refine setting_applyAll boundary Call.boundary? (fun b call => ?_) b calls
  cases call with
  | config c => cases given : c.boundary <;> simp [apply, configure, Call.boundary?, given]
  | boundary | chunkSize | entropy | lookup => rfl

theorem val_replace (size : ChunkSize) (n : Nat) :
    (size.replace n).val = if n = 0 then size.val else n := by
  by_cases zero : n = 0
  · subst zero
    rfl
  · rw [ChunkSize.replace_of_pos size (Nat.pos_of_ne_zero zero), if_neg zero]

theorem chunkSize_applyAll :
    (b.applyAll calls).chunkSize.val =
      (Call.last Call.readSize? calls).getD b.chunkSize.val := by
  have set := setting_applyAll (fun b => some b.chunkSize.val) Call.readSize? ?_ b calls
  · cases given : Call.last Call.readSize? calls <;> simp_all
  · intro b call
    cases call with
    | chunkSize n =>
      simp only [apply, setChunkSize, val_replace, Call.readSize?]
      split <;> rfl
    | config c =>
      simp only [apply, configure, Config.readSize, val_replace, Call.readSize?]
      split <;> rfl
    | boundary | entropy | lookup => rfl

theorem entropy_applyAll :
    (b.applyAll calls).entropy = (Call.last Call.entropy? calls).getD b.entropy := by
  have set := setting_applyAll (fun b => some b.entropy) Call.entropy?
    (fun b call => by cases call <;> rfl) b calls
  cases given : Call.last Call.entropy? calls <;> simp_all

theorem lookup_applyAll :
    (b.applyAll calls).lookup = (Call.last Call.lookup? calls).getD b.lookup := by
  have set := setting_applyAll (fun b => some b.lookup) Call.lookup?
    (fun b call => by cases call <;> rfl) b calls
  cases given : Call.last Call.lookup? calls <;> simp_all

/-! ## What is built and what is refused -/

/-- The boundary that comes of the settings. -/
inductive Bounds (b : Builder) : Boundary → Prop
  | given {boundary : Boundary} : b.boundary = some boundary.bytes → Bounds b boundary
  | drawn {raw : Vector UInt8 16} : b.boundary = none → b.entropy = .octets raw →
      Bounds b (.ofRandom raw.toList)

/-- Why nothing is built. A file is only looked at when the boundary has been settled and the files
before it are in order. -/
inductive Refuses (b : Builder) (files : List (String × Upload)) : EncodingError → Prop
  | boundary {given : Bytes} : b.boundary = some given → given.all Octet.isAscii = false →
      Refuses b files (.invalid (.boundaryNotAscii given))
  | entropy {reason : String} : b.boundary = none → b.entropy = .failure reason →
      Refuses b files (.entropy reason)
  | file {boundary before name upload after e} : b.Bounds boundary →
      files = before ++ (name, upload) :: after →
      (∀ file ∈ before, file.2.source.isTextMode = false) →
      FilePart.ofUpload b.lookup name upload = .error e →
      Refuses b files e

variable {b calls} {form : Form} {files : List (String × Upload)} {e : EncodingError}

theorem resolveBoundary_eq_ok_iff {boundary : Boundary} :
    b.resolveBoundary.value = .ok boundary ↔ b.Bounds boundary := by
  constructor
  · intro resolved
    unfold resolveBoundary at resolved
    split at resolved
    · next given set =>
      simp only [Traced.value_pure, Boundary.ofBytes] at resolved
      split at resolved
      · cases resolved
        exact .given set
      · cases resolved
    · next unset =>
      cases drawn : b.entropy with
      | octets raw =>
        rw [drawn] at resolved
        cases resolved
        exact .drawn unset drawn
      | failure reason =>
        rw [drawn] at resolved
        cases resolved
  · intro bounds
    cases bounds with
    | given set => simp [resolveBoundary, set, Boundary.ofBytes, boundary.ascii]
    | drawn unset drawn => simp [resolveBoundary, unset, drawn, Boundary.draw]

theorem ofBytes_of_not_ascii {given : Bytes} (foreign : given.all Octet.isAscii = false) :
    Boundary.ofBytes given = .error (.invalid (.boundaryNotAscii given)) := by
  simp [Boundary.ofBytes, foreign]

theorem resolveBoundary_eq_error_iff :
    b.resolveBoundary.value = .error e ↔
      (∃ given, b.boundary = some given ∧ given.all Octet.isAscii = false ∧
        e = .invalid (.boundaryNotAscii given)) ∨
      ∃ reason, b.boundary = none ∧ b.entropy = .failure reason ∧ e = .entropy reason := by
  constructor
  · intro refused
    unfold resolveBoundary at refused
    split at refused
    · next given set =>
      cases ascii : given.all Octet.isAscii with
      | false =>
        rw [Traced.value_pure, ofBytes_of_not_ascii ascii] at refused
        cases refused
        exact .inl ⟨given, set, ascii, rfl⟩
      | true =>
        rw [Traced.value_pure, Boundary.ofBytes, dif_pos ascii] at refused
        cases refused
    · next unset =>
      cases drawn : b.entropy with
      | octets raw => rw [drawn] at refused; cases refused
      | failure reason =>
        rw [drawn] at refused
        cases refused
        exact .inr ⟨reason, unset, rfl, rfl⟩
  · rintro (⟨given, set, ascii, rfl⟩ | ⟨reason, unset, drawn, rfl⟩)
    · simp only [resolveBoundary, set, Traced.value_pure, ofBytes_of_not_ascii ascii]
    · simp only [resolveBoundary, unset, drawn, Boundary.draw, Traced.value_pure]

theorem filePart_eq_error_iff {name : String} {upload : Upload} :
    b.filePart name upload = .error e ↔ FilePart.ofUpload b.lookup name upload = .error e := by
  unfold filePart
  cases FilePart.ofUpload b.lookup name upload with
  | error cause => simp [Functor.map, Except.map]
  | ok part => simp [Functor.map, Except.map]

theorem fileParts_eq_error_iff :
    b.fileParts files = .error e ↔ ∃ before name upload after,
      files = before ++ (name, upload) :: after ∧
      (∀ file ∈ before, file.2.source.isTextMode = false) ∧
      FilePart.ofUpload b.lookup name upload = .error e := by
  have inOrder (file : String × Upload) :
      (∃ part, b.filePart file.1 file.2 = .ok part) ↔ file.2.source.isTextMode = false := by
    simp only [filePart_eq_ok_iff, exists_and_left, exists_eq, and_true]
  rw [fileParts, mapM_eq_error_iff]
  simp only [inOrder, filePart_eq_error_iff, Prod.exists]

/-- A message is built just if the settings have a boundary and no file is in text mode. -/
theorem build_eq_ok_iff {m : Message} :
    (b.build form files).value = .ok m ↔
      b.Bounds m.boundary ∧ (∀ file ∈ files, file.2.source.isTextMode = false) ∧
      m.parts = scalarParts form ++
        files.map fun (name, upload) => .file (b.freshFile name upload) := by
  constructor
  · intro built
    obtain ⟨_, parts, -, given, -⟩ := exists_of_build built
    exact ⟨resolveBoundary_eq_ok_iff.mp (resolveBoundary_of_build built),
      (fileParts_eq_ok_iff.mp given).1, parts_of_build built⟩
  · rintro ⟨bounds, binary, laid⟩
    simp only [build, Traced.value_bind, resolveBoundary_eq_ok_iff.mpr bounds,
      fileParts_eq_ok_iff.mpr ⟨binary, rfl⟩, Traced.value_pure]
    rw [← laid]

theorem build_eq_error_iff : (b.build form files).value = .error e ↔ b.Refuses files e := by
  simp only [build, Traced.value_bind]
  constructor
  · intro refused
    cases resolved : b.resolveBoundary.value with
    | error cause =>
      rw [resolved] at refused
      cases refused
      rcases resolveBoundary_eq_error_iff.mp resolved with
        ⟨given, set, foreign, rfl⟩ | ⟨reason, unset, drawn, rfl⟩
      · exact .boundary set foreign
      · exact .entropy unset drawn
    | ok boundary =>
      have bounds := resolveBoundary_eq_ok_iff.mp resolved
      cases given : b.fileParts files with
      | error cause =>
        simp only [resolved, given] at refused
        cases refused
        obtain ⟨before, name, upload, after, same, binary, failed⟩ :=
          fileParts_eq_error_iff.mp given
        exact .file bounds same binary failed
      | ok parts =>
        simp only [resolved, given] at refused
        cases refused
  · intro refuses
    cases refuses with
    | boundary set foreign =>
      rw [resolveBoundary_eq_error_iff.mpr (.inl ⟨_, set, foreign, rfl⟩)]
      rfl
    | entropy unset drawn =>
      rw [resolveBoundary_eq_error_iff.mpr (.inr ⟨_, unset, drawn, rfl⟩)]
      rfl
    | file bounds same binary failed =>
      simp only [resolveBoundary_eq_ok_iff.mpr bounds,
        fileParts_eq_error_iff.mpr ⟨_, _, _, _, same, binary, failed⟩, Traced.value_pure]

theorem exists_error_iff :
    (∃ e, (b.build form files).value = .error e) ↔
      (∃ given, b.boundary = some given ∧ given.all Octet.isAscii = false) ∨
      (b.boundary = none ∧ ∃ reason, b.entropy = .failure reason) ∨
      ∃ file ∈ files, file.2.source.isTextMode = true := by
  constructor
  · rintro ⟨e, refused⟩
    cases build_eq_error_iff.mp refused with
    | boundary set foreign => exact .inl ⟨_, set, foreign⟩
    | entropy unset drawn => exact .inr (.inl ⟨unset, _, drawn⟩)
    | @file _ _ name upload _ _ _ same _ failed =>
      have member : (name, upload) ∈ files := by
        rw [same]
        exact List.mem_append_right _ List.mem_cons_self
      exact .inr (.inr ⟨_, member, (FilePart.ofUpload_eq_error_iff.mp failed).1⟩)
  · rintro (⟨given, set, foreign⟩ | ⟨unset, reason, drawn⟩ | ⟨file, member, text⟩)
    · exact ⟨_, build_eq_error_iff.mpr (.boundary set foreign)⟩
    · exact ⟨_, build_eq_error_iff.mpr (.entropy unset drawn)⟩
    · cases built : (b.build form files).value with
      | error e => exact ⟨e, rfl⟩
      | ok m =>
        have binary := (build_eq_ok_iff.mp built).2.1 file member
        exact absurd (binary.symm.trans text) Bool.false_ne_true

/-! ## What the settings decide -/

/-- What the entropy says makes a difference. -/
def Consults (b : Builder) (form : Form) (files : List (String × Upload)) : Prop :=
  ∃ one other, (b.setEntropy one).build form files ≠ (b.setEntropy other).build form files

theorem build_setEntropy {given : Bytes} (set : b.boundary = some given) (e : Entropy) :
    (b.setEntropy e).build form files = b.build form files := by
  have same : (b.setEntropy e).resolveBoundary = b.resolveBoundary := by
    unfold resolveBoundary
    rw [setEntropy, set]
  unfold build
  rw [same]
  rfl

theorem consults_iff : b.Consults form files ↔ b.boundary = none := by
  constructor
  · rintro ⟨one, other, differ⟩
    cases set : b.boundary with
    | none => rfl
    | some given =>
      rw [build_setEntropy set, build_setEntropy set] at differ
      exact absurd rfl differ
  · intro unset
    refine ⟨.failure "one", .failure "other", ?_⟩
    intro same
    have refused (reason : String) :
        ((b.setEntropy (.failure reason)).build form files).value = .error (.entropy reason) :=
      build_eq_error_iff.mpr (.entropy unset rfl)
    have reasons :=
      (refused "one").symm.trans ((congrArg Traced.value same).trans (refused "other"))
    simp at reasons

/-- A boundary is reported as generated if it has been drawn, whatever is wrong with the files. -/
theorem boundaryGenerated_mem_build :
    .boundaryGenerated ∈ (b.build form files).events ↔
      b.boundary = none ∧ ∃ raw, b.entropy = .octets raw := by
  have settled : .boundaryGenerated ∈ (b.build form files).events ↔
      .boundaryGenerated ∈ b.resolveBoundary.events := by
    simp only [build, Traced.events_bind, List.mem_append]
    cases b.resolveBoundary.value with
    | error e => simp
    | ok boundary => cases b.fileParts files <;> simp
  rw [settled]
  unfold resolveBoundary
  cases set : b.boundary with
  | some given => simp
  | none => cases drawn : b.entropy <;> simp [Boundary.draw]

/-- What calls have left of each setting of a new builder. -/
structure Settles (system : Entropy) (calls : List Call) (b : Builder) : Prop where
  boundary : b.boundary = Call.last Call.boundary? calls
  readSize : b.chunkSize.val = (Call.last Call.readSize? calls).getD 65536
  entropy : b.entropy = (Call.last Call.entropy? calls).getD system
  lookup : b.lookup = (Call.last Call.lookup? calls).getD MediaType.Lookup.byExtension

theorem settles_applyAll (system : Entropy) (calls : List Call) :
    Settles system calls (applyAll { entropy := system } calls) where
  boundary := (boundary_applyAll _ calls).trans (Option.or_none)
  readSize := chunkSize_applyAll _ calls
  entropy := entropy_applyAll _ calls
  lookup := lookup_applyAll _ calls

/-- Entropy that is not consulted may be any. -/
theorem build_congr {other : Builder} (boundary : other.boundary = b.boundary)
    (readSize : other.chunkSize.val = b.chunkSize.val) (lookup : other.lookup = b.lookup)
    (entropy : b.boundary = none → other.entropy = b.entropy) :
    other.build form files = b.build form files := by
  have same : other.setEntropy b.entropy = b := by
    cases b
    cases other
    simp only [setEntropy, mk.injEq, true_and]
    exact ⟨boundary, lookup, Subtype.ext readSize⟩
  cases set : b.boundary with
  | some given => rw [← build_setEntropy (boundary.trans set) b.entropy, same]
  | none =>
    have kept : other.setEntropy b.entropy = other := by rw [← entropy set, setEntropy]
    rw [← kept, same]

/-- The last call about a setting decides it. What is built, which of the three failures is reported
first and whether entropy is consulted follow from the settings, and calls that leave the same
settings give the same message. -/
theorem build_applyAll (system : Entropy) (calls : List Call) (form : Form)
    (files : List (String × Upload)) :
    let b := applyAll { entropy := system } calls
    Settles system calls b ∧
    (∀ m, (b.build form files).value = .ok m ↔
      b.Bounds m.boundary ∧ (∀ file ∈ files, file.2.source.isTextMode = false) ∧
      m.parts = scalarParts form ++
        files.map fun (name, upload) => .file (b.freshFile name upload)) ∧
    (∀ e, (b.build form files).value = .error e ↔ b.Refuses files e) ∧
    ((∃ e, (b.build form files).value = .error e) ↔
      (∃ given, b.boundary = some given ∧ given.all Octet.isAscii = false) ∨
      (b.boundary = none ∧ ∃ reason, b.entropy = .failure reason) ∨
      ∃ file ∈ files, file.2.source.isTextMode = true) ∧
    (b.Consults form files ↔ b.boundary = none) ∧
    (.boundaryGenerated ∈ (b.build form files).events ↔
      b.boundary = none ∧ ∃ raw, b.entropy = .octets raw) ∧
    ∀ others, Call.last Call.boundary? others = Call.last Call.boundary? calls →
      (Call.last Call.readSize? others).getD 65536 = (Call.last Call.readSize? calls).getD 65536 →
      (Call.last Call.lookup? others).getD MediaType.Lookup.byExtension =
        (Call.last Call.lookup? calls).getD MediaType.Lookup.byExtension →
      (Call.last Call.boundary? calls = none →
        (Call.last Call.entropy? others).getD system =
          (Call.last Call.entropy? calls).getD system) →
      (applyAll { entropy := system } others).build form files = b.build form files := by
  intro b
  have settles : Settles system calls b := settles_applyAll system calls
  refine ⟨settles, fun _ => build_eq_ok_iff, fun _ => build_eq_error_iff, exists_error_iff,
    consults_iff, boundaryGenerated_mem_build, ?_⟩
  intro others boundary readSize lookup entropy
  have left := settles_applyAll system others
  refine build_congr ?_ ?_ ?_ ?_
  · rw [left.boundary, settles.boundary, boundary]
  · rw [left.readSize, settles.readSize, readSize]
  · rw [left.lookup, settles.lookup, lookup]
  · intro unset
    rw [left.entropy, settles.entropy, entropy (settles.boundary.symm.trans unset)]

/-- A configuration without a boundary keeps the one before it and puts the read size back, and
entropy that is not consulted makes no difference. -/
theorem build_applyAll_twice :
    let system : Entropy := .failure "none"
    let form : Form := .insert .empty "a" (.list [.null, .text ""])
    let upload : Upload := .simple none (.bytes [0x68])
    let calls : List Call :=
      [.config { chunkSize := 9, boundary := some "A" }, .entropy (.failure "e"), .chunkSize 65536]
    let others : List Call :=
      [.boundary [0x41], .chunkSize 7, .config { chunkSize := 0 }, .chunkSize 0]
    let b := applyAll { entropy := system } calls
    (b.build form [("f", upload)]).value =
      .ok ⟨⟨[0x41], by decide⟩, scalarParts form ++ [.file (b.freshFile "f" upload)]⟩ ∧
    (applyAll { entropy := system } others).build form [("f", upload)] =
      b.build form [("f", upload)] := by
  intro system form upload calls others b
  obtain ⟨-, built, -, -, -, -, same⟩ := build_applyAll system calls form [("f", upload)]
  constructor
  · refine (built _).mpr ⟨.given rfl, ?_, rfl⟩
    simp only [List.forall_mem_singleton]
    rfl
  · refine same others (by decide) (by decide) rfl ?_
    intro unset
    exact absurd unset (by decide)

end Builder

end Multipart
