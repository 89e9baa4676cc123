import Multipart.Config.Store
import Multipart.Proofs.Files.Growth
import Multipart.Proofs.Text.Lossy
import Multipart.Proofs.Toml.Entries

/-!
# Stored configurations come back

A configuration that has been saved is loaded as it was, and one that cannot be saved leaves all
files alone. What is loaded is the configuration that the whole file holds; if it holds none, the
standard one.
-/

namespace Multipart

namespace FileSystem

variable {fs : FileSystem} {p : Path}

theorem readText_of_holds {text : String} (held : fs.Holds p (Utf8.encode text)) :
    fs.readText p = .ok text := by
  obtain ⟨id, resolved, inside⟩ := held
  have content : fs.contentAt p = .ok (Utf8.encode text) := by
    simp only [contentAt, resolved, bind, Except.bind, FileSystem.content, FileSystem.node, inside,
      Option.getD_some]
  simp only [readText, content, bind, Except.bind, Utf8.decode_encode]
  rfl

theorem fileExists_of_readText {text : String} (read : fs.readText p = .ok text) :
    fs.fileExists p = true := by
  obtain ⟨octets, given, -⟩ := bind_eq_ok_iff.mp read
  obtain ⟨id, resolved, -⟩ := bind_eq_ok_iff.mp given
  rw [fileExists, resolved]
  rfl

end FileSystem

namespace Config

variable {c : Config} {text : String} {entries : Toml.Entries}

def sizeOf? : Option Toml.Value → Option Nat
  | none => some 65536
  | some (.integer n) => if 0 ≤ n then some n.toNat else none
  | some _ => none

def boundaryOf? : Option Toml.Value → Option (Option String)
  | none => some none
  | some (.string s) => some (some s)
  | some _ => none

theorem ofEntries?_eq (entries : Toml.Entries) :
    ofEntries? entries = (sizeOf? (entries.get? "chunk_size")).bind fun chunkSize =>
      (boundaryOf? (entries.get? "boundary")).map fun boundary => { chunkSize, boundary } := by
  have boundaries (chunkSize : Nat) : (match entries.get? "boundary" with
      | none => some { chunkSize, boundary := none : Config }
      | some (.string s) => some { chunkSize, boundary := some s }
      | some _ => none) =
      (boundaryOf? (entries.get? "boundary")).map fun boundary => { chunkSize, boundary } := by
    unfold boundaryOf?
    split <;> rfl
  unfold ofEntries?
  cases entries.get? "chunk_size" with
  | none => exact boundaries 65536
  | some v =>
    cases v with
    | integer n =>
      by_cases positive : 0 ≤ n
      · simp only [sizeOf?, if_pos positive]
        exact boundaries n.toNat
      · simp only [sizeOf?, if_neg positive]
        rfl
    | string | float | boolean | dateTime | array | table | tables => rfl

/-- All settings are those of a table, and standard where it has no key for them. -/
structure Fills (entries : Toml.Entries) (c : Config) : Prop where
  chunkSize : match entries.get? "chunk_size" with
    | none => c.chunkSize = 65536
    | some v => v = .integer c.chunkSize
  boundary : match entries.get? "boundary" with
    | none => c.boundary = none
    | some v => ∃ s, v = .string s ∧ c.boundary = some s

theorem sizeOf?_eq_some_iff {v? : Option Toml.Value} {n : Nat} :
    sizeOf? v? = some n ↔ match v? with
      | none => n = 65536
      | some v => v = .integer n := by
  cases v? with
  | none => simp [sizeOf?, eq_comm]
  | some v =>
    cases v with
    | integer m =>
      simp only [sizeOf?, Toml.Value.integer.injEq]
      split <;> simp <;> omega
    | string | float | boolean | dateTime | array | table | tables => simp [sizeOf?]

theorem boundaryOf?_eq_some_iff {v? : Option Toml.Value} {b : Option String} :
    boundaryOf? v? = some b ↔ match v? with
      | none => b = none
      | some v => ∃ s, v = .string s ∧ b = some s := by
  cases v? with
  | none => simp [boundaryOf?, eq_comm]
  | some v =>
    cases v with
    | string s => simp [boundaryOf?, eq_comm]
    | integer | float | boolean | dateTime | array | table | tables => simp [boundaryOf?]

theorem ofEntries?_eq_some_iff : ofEntries? entries = some c ↔ Fills entries c := by
  rw [ofEntries?_eq, Option.bind_eq_some_iff]
  constructor
  · rintro ⟨size, sized, given⟩
    obtain ⟨boundary, bounded, rfl⟩ := Option.map_eq_some_iff.mp given
    exact ⟨sizeOf?_eq_some_iff.mp sized, boundaryOf?_eq_some_iff.mp bounded⟩
  · rintro ⟨size, boundary⟩
    exact ⟨c.chunkSize, sizeOf?_eq_some_iff.mpr size,
      Option.map_eq_some_iff.mpr ⟨c.boundary, boundaryOf?_eq_some_iff.mpr boundary, rfl⟩⟩

/-! ## Written configurations -/

/-- A read size always has a line, and a boundary has one if there is one. -/
def lines (c : Config) : List Toml.Entry :=
  ⟨"chunk_size", Decimal.digits c.chunkSize, .integer c.chunkSize⟩ ::
    (c.boundary.map fun b => ⟨"boundary", Toml.Writer.string b, .string b⟩).toList

theorem toToml?_eq_some_iff :
    c.toToml? = some text ↔
      c.chunkSize ≤ Toml.largestInteger ∧
        text = String.ofList (c.lines.flatMap Toml.Entry.text) := by
  unfold toToml?
  split
  · next large => simp [Int.not_le.mpr large]
  · next within =>
    rw [and_iff_right (Int.not_lt.mp within), Option.some_inj, lines, eq_comm]
    cases c.boundary <;> simp [Toml.Entry.text]

theorem reads_lines (within : c.chunkSize ≤ Toml.largestInteger) :
    ∀ line ∈ c.lines, line.Reads := by
  refine List.forall_mem_cons.mpr ⟨Toml.Entry.reads_integer ⟨by decide, List.all_eq_true.mp rfl⟩ within, ?_⟩
  cases c.boundary with
  | none => simp
  | some b =>
    exact List.forall_mem_singleton.mpr (Toml.Entry.reads_string ⟨by decide, List.all_eq_true.mp rfl⟩ b)

/-- What has been written is read back. -/
theorem ofToml?_toToml? (written : c.toToml? = some text) : ofToml? text = some c := by
  obtain ⟨within, rfl⟩ := toToml?_eq_some_iff.mp written
  have distinct : (c.lines.map Toml.Entry.key).Nodup := by
    unfold lines
    cases c.boundary <;> simp
  rw [ofToml?, Toml.read?_entries (reads_lines within) distinct, Option.bind_some,
    ofEntries?_eq_some_iff, lines]
  cases given : c.boundary with
  | none => exact ⟨rfl, given⟩
  | some b => exact ⟨rfl, b, rfl, given⟩

/-! ## Saving and loading -/

/-- The file that the environment names holds this configuration as a whole. -/
def Stored (env : Environment) (fs : FileSystem) (c : Config) : Prop :=
  ∃ path text entries, env.configPath? = some path ∧ fs.readText path = .ok text ∧
    Toml.read? text = some entries ∧ Fills entries c

variable {env : Environment} {fs later : FileSystem}

theorem load_of_stored (stored : Stored env fs c) : (load env fs).value = c := by
  obtain ⟨path, text, entries, named, read, parsed, fills⟩ := stored
  have there : env.configPath?.filter fs.fileExists = some path := by
    rw [named, Option.filter_some, if_pos (FileSystem.fileExists_of_readText read)]
  have whole : ofToml? text = some c := by
    rw [ofToml?, parsed, Option.bind_some, ofEntries?_eq_some_iff.mpr fills]
  simp only [load, there, read, whole]
  rfl

theorem load_of_not_stored (missing : ∀ c, ¬ Stored env fs c) :
    (load env fs).value = standard := by
  unfold load
  split
  · rfl
  · next path named =>
    split
    · rfl
    · next text read =>
      split
      · next c whole =>
        obtain ⟨entries, parsed, fills⟩ := Option.bind_eq_some_iff.mp whole
        obtain ⟨named, -⟩ := Option.filter_eq_some_iff.mp named
        exact absurd ⟨path, text, entries, named, read, parsed, ofEntries?_eq_some_iff.mp fills⟩
          (missing c)
      · rfl

theorem exists_of_save (saved : (save env c fs).value = (.ok (), later)) :
    ∃ path made text, env.configPath? = some path ∧ fs.makeParent path = (.ok (), made) ∧
      c.toToml? = some text ∧ made.writeFile path (Utf8.encode text) = .ok later := by
  unfold save at saved
  split at saved
  · cases saved
  · next path named =>
    split at saved
    · cases saved
    · next made above =>
      split at saved
      · cases saved
      · next text given =>
        split at saved
        · cases saved
        · next written =>
          cases saved
          exact ⟨path, made, text, named, above, given, written⟩

/-- A read size that cannot be written fails before the file is touched. -/
theorem save_of_too_large (env : Environment) (fs : FileSystem)
    (large : Toml.largestInteger < c.chunkSize) :
    ∃ e, (save env c fs).value.1 = .error e ∧ fs.Grown (save env c fs).value.2 := by
  have unwritten : c.toToml? = none := if_pos large
  unfold save
  split
  · exact ⟨_, rfl, .refl fs⟩
  · next path named =>
    have grown := FileSystem.grown_makeParent fs path
    split
    · next e made above =>
      rw [above] at grown
      exact ⟨_, rfl, grown⟩
    · next made above =>
      rw [above] at grown
      rw [unwritten]
      exact ⟨_, rfl, grown⟩

/-- A configuration that has been saved is loaded again, if the path leads to a file and not to a
device. A read size that is out of range is refused, and whatever a path led to before still holds
what it held. Loading takes all settings from the file, or none. -/
theorem load_save {path : Path} (named : env.get? "FORMWIRE_CONFIG" = some path)
    (c : Config) (fs : FileSystem) :
    let outcome := (save env c fs).value.1
    let later := (save env c fs).value.2
    (outcome = .ok () → (∃ old, later.Holds path old) → (load env later).value = c) ∧
    (Toml.largestInteger < c.chunkSize →
      (∃ e, outcome = .error e) ∧
      ∀ p id, fs.resolve p = .ok id → id < fs.nodes.length →
        later.contentAt p = fs.contentAt p) ∧
    (∀ d, Stored env fs d → (load env fs).value = d) ∧
    ((∀ d, ¬ Stored env fs d) → (load env fs).value = standard) := by
  intro outcome later
  have place : env.configPath? = some path := by rw [Environment.configPath?, named]
  refine ⟨?_, ?_, fun _ => load_of_stored, load_of_not_stored⟩
  · rintro saved ⟨old, regular⟩
    obtain ⟨path', made, text, named', -, given, written⟩ :=
      exists_of_save (show (save env c fs).value = (.ok (), later) from Prod.ext saved rfl)
    cases place.symm.trans named'
    have held := FileSystem.holds_writeFile written regular
    obtain ⟨entries, parsed, fills⟩ := Option.bind_eq_some_iff.mp (ofToml?_toToml? given)
    exact load_of_stored ⟨path, text, entries, place, FileSystem.readText_of_holds held, parsed,
      ofEntries?_eq_some_iff.mp fills⟩
  · intro large
    obtain ⟨e, failed, grown⟩ := save_of_too_large env fs large
    exact ⟨⟨e, failed⟩, fun _ _ resolved within => grown.contentAt resolved within⟩

theorem load_save_quoted :
    let path := Utf8.encode "c"
    let env : Environment := ⟨[("FORMWIRE_CONFIG", path)]⟩
    let c : Config := { chunkSize := 7, boundary := some "a\"b\n" }
    let large : Config := { chunkSize := 2 ^ 63 }
    let later := (save env c .initial).value.2
    (load env later).value = c ∧
      (save env large later).value.1 = .error .chunkSizeOutOfRange ∧
      (save env large later).value.2.contentAt path =
        .ok (Utf8.encode "chunk_size = 7\nboundary = \"\"\"\na\"b\n\"\"\"\n") := by
  intro path env c large later
  have named : env.get? "FORMWIRE_CONFIG" = some path := by decide
  have resolved : later.resolve path = .ok 11 := by decide +kernel
  have written : later.nodes[11]? = some (.regular
      (Utf8.encode "chunk_size = 7\nboundary = \"\"\"\na\"b\n\"\"\"\n")) := by decide +kernel
  obtain ⟨kept, -⟩ := load_save named c .initial
  obtain ⟨-, refused, -⟩ := load_save named large later
  obtain ⟨-, untouched⟩ := refused (by decide)
  refine ⟨kept (by decide +kernel) ⟨_, 11, resolved, written⟩, by decide +kernel, ?_⟩
  rw [untouched path 11 resolved (List.getElem?_eq_some_iff.mp written).1]
  decide +kernel

end Config

end Multipart
